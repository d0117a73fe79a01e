import Mathlib.Algebra.Group.Nat.Defs
import Mathlib.Data.Nat.Notation
import Mathlib.Data.List.Sort
import Stellara.Lib.Guard

/-!
# Workflows and their state machine

A workflow has steps, which are executed in order, and each has a state of its own. The state
machine lists the transitions that are allowed between the states of a workflow and between those
of a step.

## Main definitions

* `WorkflowState`, `StepState`: the states
* `canTransitionWorkflow`, `canTransitionStep`: the allowed transitions
* `Workflow`, `WorkflowStep`: the rows of the tables
* `Database`: the row of a workflow, and those of its steps
-/

namespace Stellara.Workflows

inductive WorkflowState where
  | pending
  | running
  | completed
  | failed
  | cancelled
  | compensating
  | compensated
deriving DecidableEq, Repr

inductive StepState where
  | pending
  | running
  | completed
  | failed
  | skipped
  | compensating
  | compensated
deriving DecidableEq, Repr

def WorkflowState.value : WorkflowState → String
  | .pending => "pending"
  | .running => "running"
  | .completed => "completed"
  | .failed => "failed"
  | .cancelled => "cancelled"
  | .compensating => "compensating"
  | .compensated => "compensated"

def StepState.value : StepState → String
  | .pending => "pending"
  | .running => "running"
  | .completed => "completed"
  | .failed => "failed"
  | .skipped => "skipped"
  | .compensating => "compensating"
  | .compensated => "compensated"

/-! ## Transitions -/

def workflowTransitions : WorkflowState → List WorkflowState
  | .pending => [.running, .cancelled]
  | .running => [.completed, .failed, .cancelled, .compensating]
  | .completed => [.compensating]
  | .failed => [.running, .cancelled, .compensating]
  | .cancelled => [.compensating]
  | .compensating => [.compensated, .failed]
  | .compensated => []

def stepTransitions : StepState → List StepState
  | .pending => [.running, .skipped]
  | .running => [.completed, .failed, .skipped]
  | .completed => [.compensating]
  | .failed => [.running, .skipped, .compensating]
  | .skipped => [.compensating]
  | .compensating => [.compensated, .failed]
  | .compensated => []

def canTransitionWorkflow (currentState newState : WorkflowState) : Bool :=
  newState ∈ workflowTransitions currentState

def canTransitionStep (currentState newState : StepState) : Bool :=
  newState ∈ stepTransitions currentState

def transitionWorkflow (currentState newState : WorkflowState) : Except String Unit :=
  require (canTransitionWorkflow currentState newState)
    s!"Invalid workflow state transition from {currentState.value} to {newState.value}"

def transitionStep (currentState newState : StepState) : Except String Unit :=
  require (canTransitionStep currentState newState)
    s!"Invalid step state transition from {currentState.value} to {newState.value}"

theorem transitionWorkflow_eq_ok {currentState newState : WorkflowState} {u : Unit} :
    transitionWorkflow currentState newState = .ok u ↔
      canTransitionWorkflow currentState newState = true :=
  require_eq_ok

def isWorkflowRecoverable (state : WorkflowState) : Bool := state = .failed

def canWorkflowCompensate (state : WorkflowState) : Bool :=
  state ∈ [WorkflowState.completed, .failed, .cancelled]

def shouldRetry (state : StepState) (retryCount maxRetries : ℕ) : Bool :=
  state = .failed ∧ retryCount < maxRetries

/-- The time of the next attempt, with a jitter of up to a tenth of the delay. -/
def calculateNextRetryTime (now retryCount jitter : ℕ) : ℕ :=
  now + 1000 * 2 ^ retryCount + jitter

/-! ## Rows -/

structure WorkflowStep where
  stepName : String
  stepIndex : ℕ
  state : StepState
  output : Option String
  retryCount : ℕ
  maxRetries : ℕ
  startedAt : Option ℕ
  completedAt : Option ℕ
  failedAt : Option ℕ
  failureReason : Option String
  nextRetryAt : Option ℕ
  requiresCompensation : Bool
  isCompensated : Bool
  compensatedAt : Option ℕ
  isIdempotent : Bool
  idempotencyKey : Option String
deriving DecidableEq, Repr

structure Workflow where
  id : String
  type : String
  state : WorkflowState
  currentStepIndex : ℕ
  startedAt : Option ℕ
  completedAt : Option ℕ
  failedAt : Option ℕ
  failureReason : Option String
  retryCount : ℕ
  requiresCompensation : Bool
  isCompensated : Bool
  updatedAt : ℕ
deriving DecidableEq, Repr

/-- The row of a workflow, and those of its steps, which differ in their `stepIndex`. -/
structure Database where
  workflow : Workflow
  steps : List WorkflowStep
deriving DecidableEq, Repr

/-- The steps in their order. -/
def Database.findSteps (db : Database) : List WorkflowStep :=
  db.steps.insertionSort fun a b => a.stepIndex ≤ b.stepIndex

def Database.saveStep (db : Database) (step : WorkflowStep) : Database :=
  { db with steps := db.steps.map fun s => if s.stepIndex = step.stepIndex then step else s }

/-- A workflow as it was loaded, with its steps if they were loaded too, and the state with which it
was loaded or last saved. -/
structure Entity where
  workflow : Workflow
  steps : Option (List WorkflowStep)
  persisted : WorkflowState
deriving DecidableEq, Repr

def Database.load (db : Database) : Entity := ⟨db.workflow, none, db.workflow.state⟩

def Database.loadWithSteps (db : Database) : Entity :=
  ⟨db.workflow, some db.steps, db.workflow.state⟩

/-- The entity after it was saved. -/
def Entity.saved (e : Entity) : Entity := { e with persisted := e.workflow.state }

/-- The save of a workflow. Steps that were loaded are saved with it, and the time of the update
only changes with another column. -/
def Database.save (db : Database) (now : ℕ) (e : Entity) : Database where
  workflow :=
    if e.workflow = { db.workflow with updatedAt := e.workflow.updatedAt } then db.workflow
    else { e.workflow with updatedAt := now }
  steps := e.steps.getD db.steps

@[simp] theorem Database.state_save (db : Database) (now : ℕ) (e : Entity) :
    (db.save now e).workflow.state = e.workflow.state := by
  simp only [Database.save]
  split
  · rename_i heq
    rw [heq]
  · rfl

@[simp] theorem Database.workflow_saveStep (db : Database) (step : WorkflowStep) :
    (db.saveStep step).workflow = db.workflow := rfl

end Stellara.Workflows
