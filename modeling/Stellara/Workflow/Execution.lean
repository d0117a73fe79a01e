import Stellara.Lib.Tasks
import Stellara.Workflow.StateMachine

/-!
# Execution of workflows

The executor marks a workflow as running, executes its steps in order, each with its retries, and
marks the workflow as completed, or as failed where a step is out of retries. It works on the
entity it was given, which it saves before every step. A failed workflow is retried, and one that
was left running is recovered, by changing its stored state and calling the executor again; and a
workflow can be cancelled. Each access to the tables is a step of its own.

## Main definitions

* `executeWorkflow`, `nextStep`, `executeStep`, `fail`: what the executor does up to its next access
* `Point.resume`, `workflowCalls`: the calls, one access to the tables after the other
-/

namespace Stellara.Workflows

/-- What comes from outside: what the handler of a step returns, the idempotency key of a step, and
the jitter of a retry. -/
structure Input where
  outcome : Except String String
  key : String
  jitter : ℕ
deriving DecidableEq

/-- What a call is about to do. A point that saves holds what is saved. -/
inductive Point where
  /-- The entity is loaded that the executor is called with. -/
  | findWorkflow
  | saveRunning (e : Entity)
  | findSteps (e : Entity)
  | saveIndex (e : Entity) (step : WorkflowStep) (rest : List WorkflowStep)
  | startStep (e : Entity) (step : WorkflowStep) (rest : List WorkflowStep)
  | saveKey (e : Entity) (step : WorkflowStep) (rest : List WorkflowStep)
  | execute (e : Entity) (step : WorkflowStep) (rest : List WorkflowStep)
  | saveStepCompleted (e : Entity) (step : WorkflowStep) (rest : List WorkflowStep)
  | saveRetry (e : Entity) (step : WorkflowStep) (rest : List WorkflowStep)
  | delay (e : Entity) (step : WorkflowStep) (rest : List WorkflowStep)
  | saveStepFailed (e : Entity) (step : WorkflowStep) (error : String)
  | saveCompleted (e : Entity)
  | saveFailed (e : Entity)
  | retryWorkflow
  | saveRetried (e : Entity)
  | savePending (e : Entity) (step : WorkflowStep)
  | recoverWorkflow
  | saveRecovered (e : Entity)
  | cancelWorkflow
  | saveCancelled (e : Entity)
  | finished
  | threw (error : String)
deriving DecidableEq, Repr

/-! ## The executor -/

section Executor

variable (definition : Option (List String)) (now : ℕ)

/-- `executeWorkflow`, from its start, with the names of the steps of the registered definition. -/
def executeWorkflow (e : Entity) : Point :=
  match definition with
  | none => .threw s!"Workflow definition not found for type: {e.workflow.type}"
  | some _ =>
    match transitionWorkflow e.workflow.state .running with
    | .error error => .threw s!"Cannot start workflow: {error}"
    | .ok _ =>
      .saveRunning { e with workflow := { e.workflow with
        state := .running
        startedAt := some now } }

/-- The handler of an exception of the executor. -/
def fail (e : Entity) (error : String) : Point :=
  .saveFailed { e with workflow := { e.workflow with
    state := .failed
    failedAt := some now
    failureReason := some error } }

/-- The loop over the steps. -/
def nextStep (e : Entity) : List WorkflowStep → Point
  | [] =>
    .saveCompleted { e with workflow := { e.workflow with
      state := .completed
      completedAt := some now } }
  | step :: rest =>
    .saveIndex { e with workflow := { e.workflow with currentStepIndex := step.stepIndex } }
      step rest

/-- `executeStep`, from its start. -/
def executeStep (e : Entity) (step : WorkflowStep) (rest : List WorkflowStep) : Point :=
  match transitionStep step.state .running with
  | .error error => fail now e s!"Cannot execute step: {error}"
  | .ok _ => .startStep e { step with state := .running, startedAt := some now } rest

/-- The handler of a step, which is missing where the definition has fewer steps. -/
def runHandler (outcome : Except String String) (step : WorkflowStep) : Except String String :=
  match (definition.getD [])[step.stepIndex]? with
  | none => .error "Cannot read properties of undefined (reading 'isIdempotent')"
  | some _ => outcome

/-- What follows the handler of a step. -/
def afterHandler (jitter : ℕ) (e : Entity) (step : WorkflowStep) (rest : List WorkflowStep) :
    Except String String → Point
  | .ok output =>
    .saveStepCompleted e { step with
      state := .completed
      output := some output
      completedAt := some now } rest
  | .error error =>
    let step := { step with
      state := .failed
      failedAt := some now
      failureReason := some error
      retryCount := step.retryCount + 1 }
    if shouldRetry .failed step.retryCount step.maxRetries then
      .saveRetry e { step with
        nextRetryAt := some (calculateNextRetryTime now step.retryCount jitter) } rest
    else .saveStepFailed e step error

end Executor

/-! ## Retry, recovery and cancellation -/

def stalenessThreshold : ℕ := 5 * 60 * 1000

/-- The index of the last step that completed. -/
def lastCompletedStep (steps : List WorkflowStep) : Option ℕ :=
  (steps.filter fun step => step.state = .completed).foldl
    (fun latest step => some (max (latest.getD 0) step.stepIndex)) none

/-- What a save writes of an entity with `failedAt` and `failureReason` undefined: such columns are
left out, and stay as they are in the row. -/
def Entity.omitFailure (e : Entity) (row : Workflow) : Entity :=
  { e with workflow := { e.workflow with
    failedAt := row.failedAt
    failureReason := row.failureReason } }

/-- The save of a step with `failedAt` and `failureReason` undefined. -/
def Database.saveReset (db : Database) (step : WorkflowStep) : Database :=
  { db with steps := db.steps.map fun s =>
    if s.stepIndex = step.stepIndex then
      { step with failedAt := s.failedAt, failureReason := s.failureReason }
    else s }

def Point.resume (definition : Option (List String)) (now : ℕ) (input : Input) (db : Database) :
    Point → Option (Point × Database)
  | .findWorkflow => some (executeWorkflow definition now db.load, db)
  | .saveRunning e => some (.findSteps e.saved, db.save now e)
  | .findSteps e => some (nextStep now e db.findSteps, db)
  | .saveIndex e step rest => some (executeStep now e.saved step rest, db.save now e)
  | .startStep e step rest =>
    if step.isIdempotent then
      some (.saveKey e { step with idempotencyKey := some input.key } rest, db.saveStep step)
    else some (.execute e step rest, db.saveStep step)
  | .saveKey e step rest => some (.execute e step rest, db.saveStep step)
  | .execute e step rest =>
    some (afterHandler now input.jitter e step rest (runHandler definition input.outcome step), db)
  | .saveStepCompleted e step rest => some (nextStep now e rest, db.saveStep step)
  | .saveRetry e step rest => some (.delay e step rest, db.saveStep step)
  | .delay e step rest =>
    if step.nextRetryAt.getD 0 ≤ now then some (executeStep now e step rest, db) else none
  | .saveStepFailed e step error =>
    some (fail now e s!"Step {step.stepName} failed after {step.retryCount} retries: {error}",
      db.saveStep step)
  | .saveCompleted e => some (.finished, db.save now e)
  | .saveFailed e => some (.threw (e.workflow.failureReason.getD ""), db.save now e)
  | .retryWorkflow =>
    -- `failedAt` and `failureReason` become undefined, here `none`
    let e := db.loadWithSteps
    if isWorkflowRecoverable e.workflow.state then
      some (.saveRetried { e with workflow := { e.workflow with
        state := .running
        retryCount := e.workflow.retryCount + 1
        startedAt := some now
        failedAt := none
        failureReason := none } }, db)
    else some (.threw s!"Workflow {e.workflow.id} is not in a recoverable state", db)
  | .saveRetried e =>
    let db' := db.save now (e.omitFailure db.workflow)
    match (e.steps.getD []).find? fun step => step.state = .failed with
    | some failedStep =>
      let step := { failedStep with state := .pending, failedAt := none, failureReason := none }
      let steps := e.steps.map fun steps =>
        steps.map fun s => if s.stepIndex = step.stepIndex then step else s
      some (.savePending { e.saved with steps } step, db')
    | none => some (executeWorkflow definition now e.saved, db')
  -- the executor refuses the running workflow, so the entity is not saved again
  | .savePending e step => some (executeWorkflow definition now e, db.saveReset step)
  | .recoverWorkflow =>
    let e := db.loadWithSteps
    if e.workflow.state = .running ∧ e.workflow.updatedAt + stalenessThreshold ≤ now then
      if db.steps.any fun step => step.state = .failed then
        some (.saveRecovered { e with workflow := { e.workflow with
          state := .failed
          failureReason := some "Workflow failed during service interruption"
          failedAt := some now } }, db)
      else
        let currentStepIndex := (lastCompletedStep db.steps).elim 0 (· + 1)
        some (executeWorkflow definition now { e with workflow := { e.workflow with
          currentStepIndex } }, db)
    else some (.finished, db)
  | .saveRecovered e => some (.finished, db.save now e)
  | .cancelWorkflow =>
    let e := db.load
    match transitionWorkflow e.workflow.state .cancelled with
    | .error error => some (.threw s!"Cannot cancel workflow: {error}", db)
    | .ok _ =>
      some (.saveCancelled { e with workflow := { e.workflow with
        state := .cancelled
        completedAt := some now } }, db)
  | .saveCancelled e => some (.finished, db.save now e)
  | .finished => none
  | .threw _ => none

/-- The calls on a workflow: its execution, retry, recovery and cancellation. -/
def workflowCalls (definition : Option (List String)) : Async Database Point Input where
  starts _
    | .findWorkflow | .retryWorkflow | .recoverWorkflow | .cancelWorkflow => true
    | _ => false
  resume now input p db := p.resume definition now input db

end Stellara.Workflows
