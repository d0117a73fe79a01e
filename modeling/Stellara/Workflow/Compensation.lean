import Stellara.Lib.Contract
import Stellara.Workflow.StateMachine

/-!
# Compensation of workflows

A compensation undoes the completed steps of a workflow in reverse order, each by its handler, and
marks the workflow as compensated in the end. Where a handler fails the step and the workflow are
marked as failed, and a later attempt selects the completed steps again, which leaves the failed one
out.

What the handlers return is an argument of an attempt.

## Main definitions

* `compensateStep`, `compensateSteps`, `compensateWorkflow`: an attempt
* `compensation`: the attempts on a workflow, one after the other
* `Complete`: a compensated workflow had all its completed steps compensated, in reverse order
* `Unhindered`: an attempt that succeeds finds no step whose compensation has failed

## Main results

* `compensateWorkflow_spec`: what an attempt leaves of the steps and of the workflow
* `Progress.attempt`: an attempt goes on with the steps that are left
* `complete_iff`: the compensation is complete exactly when all attempts are unhindered
-/

namespace Stellara.Workflows

/-! ## Attempts -/

/-- What the handler of a step returns, by the index of the step. -/
abbrev Handlers := ℕ → Except String Unit

/-- The steps that an attempt compensates, in reverse order. -/
def Database.completedSteps (db : Database) : List WorkflowStep :=
  (db.steps.filter fun step => step.state = .completed ∧ step.requiresCompensation).insertionSort
    fun a b => b.stepIndex ≤ a.stepIndex

def Database.saveWorkflow (db : Database) (now : ℕ) (workflow : Workflow) : Database :=
  db.save now ⟨workflow, none, db.workflow.state⟩

/-- Compensate a step by its handler. -/
def compensateStep (now : ℕ) (handler : Except String Unit) (step : WorkflowStep) (db : Database) :
    Except String Unit × Database :=
  match transitionStep step.state .compensating with
  | .error error => (.error s!"Cannot start step compensation: {error}", db)
  | .ok _ =>
    let step := { step with state := .compensating, compensatedAt := some now }
    let db := db.saveStep step
    match handler with
    | .ok _ => (.ok (), db.saveStep { step with state := .compensated, isCompensated := true })
    | .error error => (.error error, db.saveStep { step with
        state := .failed
        failureReason := some s!"Compensation failed: {error}" })

/-- Compensate the steps up to the first failure, with the calls of handlers and their success. -/
def compensateSteps (now : ℕ) (handlers : Handlers) :
    List WorkflowStep → Database → Except String Unit × Database × List (ℕ × Bool)
  | [], db => (.ok (), db, [])
  | step :: rest, db =>
    match compensateStep now (handlers step.stepIndex) step db with
    | (.error error, db) => (.error error, db, [(step.stepIndex, false)])
    | (.ok _, db) =>
      let (outcome, db, calls) := compensateSteps now handlers rest db
      (outcome, db, (step.stepIndex, true) :: calls)

/-- The outcome of an attempt, and the calls of handlers in it. -/
structure Attempt where
  outcome : Except String Unit
  calls : List (ℕ × Bool)

def compensateWorkflow (now : ℕ) (handlers : Handlers) (db : Database) : Attempt × Database :=
  let workflow := db.workflow
  if canWorkflowCompensate workflow.state = false then
    (⟨.error s!"Workflow {workflow.id} cannot be compensated in state: {workflow.state.value}", []⟩,
      db)
  else
    match transitionWorkflow workflow.state .compensating with
    | .error error => (⟨.error s!"Cannot start compensation: {error}", []⟩, db)
    | .ok _ =>
      let workflow := { workflow with state := .compensating, requiresCompensation := true }
      let db' := db.saveWorkflow now workflow
      match compensateSteps now handlers db'.completedSteps db' with
      | (.ok _, db', calls) =>
        (⟨.ok (), calls⟩, db'.saveWorkflow now { workflow with
          state := .compensated
          isCompensated := true
          completedAt := some now })
      | (.error error, db', calls) =>
        (⟨.error error, calls⟩, db'.saveWorkflow now { workflow with
          state := .failed
          failureReason := some s!"Compensation failed: {error}" })

/-- The attempts to compensate a workflow. An attempt that fails keeps what it stored. -/
def compensation : Contract Database Handlers Attempt Unit where
  exec now handlers db := .ok (compensateWorkflow now handlers db)

/-! ## Properties -/

/-- The calls of handlers in the attempts, in order. -/
def callsOf (log : List (Commit Database Handlers Attempt)) : List (ℕ × Bool) :=
  log.flatMap fun c => c.result.calls

/-- The indices of the steps whose handlers succeeded. -/
def compensated (calls : List (ℕ × Bool)) : List ℕ :=
  (calls.filter fun call => call.2).map Prod.fst

/-- The indices of the steps that are to be compensated, in reverse order. -/
def Database.targets (db : Database) : List ℕ := db.completedSteps.map (·.stepIndex)

/-- If the workflow is marked as compensated, then the steps that were completed at first have been
compensated, each once and in reverse order. -/
def Complete (db₀ db : Database) (log : List (Commit Database Handlers Attempt)) : Prop :=
  db.workflow.state = .compensated → compensated (callsOf log) = db₀.targets

/-- If the attempt is admitted and its handlers all succeed, then no step is left whose compensation
failed. -/
def Unhindered (c : Commit Database Handlers Attempt) : Prop :=
  canWorkflowCompensate c.before.workflow.state = true →
    (∀ i ∈ c.before.targets, (c.call i).isOk = true) →
    ∀ step ∈ c.before.steps, step.state = .failed → step.compensatedAt = none

/-- No compensation of the workflow was attempted yet. -/
structure Untouched (db : Database) : Prop where
  distinct : (db.steps.map (·.stepIndex)).Nodup
  steps : ∀ step ∈ db.steps, step.compensatedAt = none
  workflow : db.workflow.state ≠ .compensated

/-! ## Rows of steps -/

section Rows

variable {db : Database} {step step' : WorkflowStep} {i now : ℕ}

/-- The step with an index. -/
def Database.stepAt (db : Database) (i : ℕ) : Option WorkflowStep :=
  db.steps.find? fun step => step.stepIndex = i

theorem stepAt_saveStep : (db.saveStep step).stepAt i =
    if i = step.stepIndex then (db.stepAt i).map fun _ => step else db.stepAt i := by
  simp only [Database.stepAt, Database.saveStep]
  induction db.steps with
  | nil => simp only [List.map_nil, List.find?_nil, Option.map_none, ite_self]
  | cons s steps ih =>
    rw [List.map_cons, List.find?_cons, List.find?_cons]
    by_cases hs : s.stepIndex = step.stepIndex
    · by_cases hi : i = step.stepIndex
      · simp only [hs, hi, if_true, decide_true, Option.map_some]
      · have hne : step.stepIndex ≠ i := Ne.symm hi
        simp only [hs, if_true, decide_eq_false hne, ih, if_neg hi]
    · by_cases hsi : s.stepIndex = i
      · have hi : i ≠ step.stepIndex := hsi ▸ hs
        simp only [hsi, decide_true, if_neg hi]
      · simp only [if_neg hs, decide_eq_false hsi, ih]

theorem saveStep_saveStep (h : step'.stepIndex = step.stepIndex) :
    (db.saveStep step').saveStep step = db.saveStep step := by
  simp only [Database.saveStep, List.map_map]
  congr 1
  refine List.map_congr_left fun s _ => ?_
  rw [Function.comp_apply, h]
  split
  · rfl
  · rfl

@[simp] theorem indices_saveStep :
    (db.saveStep step).steps.map (·.stepIndex) = db.steps.map (·.stepIndex) := by
  simp only [Database.saveStep, List.map_map]
  refine List.map_congr_left fun s _ => ?_
  simp only [Function.comp_apply]
  split
  · rename_i heq
    exact heq.symm
  · rfl

@[simp] theorem stepAt_saveWorkflow {workflow : Workflow} :
    (db.saveWorkflow now workflow).stepAt i = db.stepAt i := rfl

@[simp] theorem steps_saveWorkflow {workflow : Workflow} :
    (db.saveWorkflow now workflow).steps = db.steps := rfl

@[simp] theorem state_saveWorkflow {workflow : Workflow} :
    (db.saveWorkflow now workflow).workflow.state = workflow.state :=
  Database.state_save ..

theorem stepIndex_of_stepAt (h : db.stepAt i = some step) : step.stepIndex = i :=
  of_decide_eq_true (List.find?_some (p := fun s : WorkflowStep => s.stepIndex = i) h)

theorem mem_of_stepAt (h : db.stepAt i = some step) : step ∈ db.steps :=
  List.mem_of_find?_eq_some h

theorem stepAt_of_mem (hdistinct : (db.steps.map (·.stepIndex)).Nodup) (h : step ∈ db.steps) :
    db.stepAt step.stepIndex = some step := by
  obtain ⟨s, hs⟩ : ∃ s, db.stepAt step.stepIndex = some s := by
    rw [← Option.isSome_iff_exists, Database.stepAt, List.find?_isSome]
    exact ⟨step, h, decide_eq_true rfl⟩
  rw [hs, List.inj_on_of_nodup_map hdistinct (mem_of_stepAt hs) h (stepIndex_of_stepAt hs)]

theorem mem_completedSteps :
    step ∈ db.completedSteps ↔
      step ∈ db.steps ∧ step.state = .completed ∧ step.requiresCompensation = true := by
  rw [Database.completedSteps, List.mem_insertionSort, List.mem_filter, decide_eq_true_eq]

theorem mem_targets (hdistinct : (db.steps.map (·.stepIndex)).Nodup) :
    i ∈ db.targets ↔ ∃ step, db.stepAt i = some step ∧ step.state = .completed ∧
      step.requiresCompensation = true := by
  rw [Database.targets, List.mem_map]
  constructor
  · rintro ⟨step, hstep, rfl⟩
    obtain ⟨hmem, hstate⟩ := mem_completedSteps.mp hstep
    exact ⟨step, stepAt_of_mem hdistinct hmem, hstate⟩
  · rintro ⟨step, hstep, hstate⟩
    exact ⟨step, mem_completedSteps.mpr ⟨mem_of_stepAt hstep, hstate⟩, stepIndex_of_stepAt hstep⟩

theorem nodup_targets (hdistinct : (db.steps.map (·.stepIndex)).Nodup) : db.targets.Nodup := by
  have hfilter := hdistinct.sublist
    ((List.filter_sublist (p := fun step : WorkflowStep => decide (step.state = .completed ∧
      step.requiresCompensation = true))).map fun step : WorkflowStep => step.stepIndex)
  exact ((List.perm_insertionSort _ _).map fun step : WorkflowStep =>
    step.stepIndex).nodup_iff.mpr hfilter

/-- The targets are in reverse order. -/
theorem targets_pairwise (hdistinct : (db.steps.map (·.stepIndex)).Nodup) :
    db.targets.Pairwise (· > ·) := by
  have hsorted : db.targets.Pairwise (· ≥ ·) := by
    rw [Database.targets, List.pairwise_map]
    exact List.pairwise_insertionSort (fun a b : WorkflowStep => b.stepIndex ≤ a.stepIndex) _
  refine (hsorted.and (nodup_targets hdistinct)).imp ?_
  rintro a b ⟨hle, hne⟩
  exact lt_of_le_of_ne hle (Ne.symm hne)

end Rows

/-! ## What an attempt leaves -/

section Attempts

variable {now : ℕ} {handlers : Handlers} {db db' : Database} {step : WorkflowStep}
  {indices : List ℕ} {outcome : Except String Unit} {calls : List (ℕ × Bool)}

/-- What the compensation of steps leaves: those that were called are compensated, or failed, and
the others are as they were. -/
structure Compensated (handlers : Handlers) (indices : List ℕ) (db : Database)
    (outcome : Except String Unit) (db' : Database) (calls : List (ℕ × Bool)) : Prop where
  rows : db'.steps.map (·.stepIndex) = db.steps.map (·.stepIndex)
  called : ∃ rest, indices = calls.map Prod.fst ++ rest ∧ (outcome.isOk = true → rest = [])
  other : ∀ i, i ∉ calls.map Prod.fst → db'.stepAt i = db.stepAt i
  succeeded : ∀ i, (i, true) ∈ calls → ∃ step, db'.stepAt i = some step ∧ step.state = .compensated
  failed : ∀ i, (i, false) ∈ calls →
    ∃ step, db'.stepAt i = some step ∧ step.state = .failed ∧ step.compensatedAt ≠ none
  calls_iff : outcome.isOk = true ↔ ∀ call ∈ calls, call.2 = true
  handlers_iff : outcome.isOk = true ↔ ∀ i ∈ indices, (handlers i).isOk = true

/-- The step after its compensation. -/
def WorkflowStep.compensated (now : ℕ) (step : WorkflowStep) : WorkflowStep :=
  { step with state := .compensated, compensatedAt := some now, isCompensated := true }

/-- The step after its handler failed. -/
def WorkflowStep.compensationFailed (now : ℕ) (error : String) (step : WorkflowStep) :
    WorkflowStep :=
  { step with
    state := .failed
    compensatedAt := some now
    failureReason := some s!"Compensation failed: {error}" }

theorem compensateStep_ok (hstate : step.state = .completed) :
    compensateStep now (.ok ()) step db = (.ok (), db.saveStep (step.compensated now)) := by
  unfold compensateStep
  rw [hstate]
  exact congrArg (Prod.mk _) (saveStep_saveStep rfl)

theorem compensateStep_error {error : String} (hstate : step.state = .completed) :
    compensateStep now (.error error) step db =
      (.error error, db.saveStep (step.compensationFailed now error)) := by
  unfold compensateStep
  rw [hstate]
  exact congrArg (Prod.mk _) (saveStep_saveStep rfl)

theorem stepAt_saveStep_self {step' : WorkflowStep} (hstored : (db.stepAt step.stepIndex).isSome)
    (hindex : step'.stepIndex = step.stepIndex) :
    (db.saveStep step').stepAt step.stepIndex = some step' := by
  obtain ⟨s, hs⟩ := Option.isSome_iff_exists.mp hstored
  rw [stepAt_saveStep, if_pos hindex.symm, hs, Option.map_some]

theorem stepAt_saveStep_of_ne {i : ℕ} (hne : i ≠ step.stepIndex) :
    (db.saveStep step).stepAt i = db.stepAt i := by
  rw [stepAt_saveStep, if_neg hne]

theorem Compensated.nil : Compensated handlers [] db (.ok ()) db [] where
  rows := rfl
  called := ⟨[], rfl, fun _ => rfl⟩
  other _ _ := rfl
  succeeded _ h := absurd h List.not_mem_nil
  failed _ h := absurd h List.not_mem_nil
  calls_iff := ⟨fun _ _ h => absurd h List.not_mem_nil, fun _ => rfl⟩
  handlers_iff := ⟨fun _ _ h => absurd h List.not_mem_nil, fun _ => rfl⟩

theorem Compensated.stop {error : String} (hstored : (db.stepAt step.stepIndex).isSome)
    (hhandler : handlers step.stepIndex = .error error) :
    Compensated handlers (step.stepIndex :: indices) db (.error error)
      (db.saveStep (step.compensationFailed now error)) [(step.stepIndex, false)] where
  rows := indices_saveStep
  called := ⟨indices, rfl, fun h => by cases h⟩
  other i hi := stepAt_saveStep_of_ne fun heq => hi (heq ▸ List.mem_singleton_self _)
  succeeded i hi := by cases List.mem_singleton.mp hi
  failed i hi := by
    obtain ⟨rfl, -⟩ := Prod.mk.inj (List.mem_singleton.mp hi)
    exact ⟨_, stepAt_saveStep_self hstored rfl, rfl, Option.some_ne_none now⟩
  calls_iff := by
    rw [List.forall_mem_singleton]
    exact ⟨fun h => (nomatch h), fun h => (nomatch h)⟩
  handlers_iff := by
    rw [List.forall_mem_cons, hhandler]
    exact ⟨fun h => (nomatch h), fun h => (nomatch h.1)⟩

theorem Compensated.cons (hstored : (db.stepAt step.stepIndex).isSome)
    (hnew : step.stepIndex ∉ indices) (hhandler : handlers step.stepIndex = .ok ())
    (h : Compensated handlers indices (db.saveStep (step.compensated now)) outcome db' calls) :
    Compensated handlers (step.stepIndex :: indices) db outcome db'
      ((step.stepIndex, true) :: calls) := by
  obtain ⟨rest, hrest, hok⟩ := h.called
  have hcalls : step.stepIndex ∉ calls.map Prod.fst := fun hmem =>
    hnew (hrest ▸ List.mem_append_left rest hmem)
  constructor
  · exact h.rows.trans indices_saveStep
  · exact ⟨rest, by rw [hrest, List.map_cons, List.cons_append], hok⟩
  · intro i hi
    rw [List.map_cons, List.mem_cons, not_or] at hi
    rw [h.other i hi.2]
    exact stepAt_saveStep_of_ne hi.1
  · intro i hi
    rcases List.mem_cons.mp hi with heq | hi
    · obtain ⟨rfl, -⟩ := Prod.mk.inj heq
      exact ⟨_, (h.other _ hcalls).trans (stepAt_saveStep_self hstored rfl), rfl⟩
    · exact h.succeeded i hi
  · intro i hi
    rcases List.mem_cons.mp hi with heq | hi
    · cases heq
    · exact h.failed i hi
  · rw [List.forall_mem_cons, h.calls_iff]
    exact ⟨fun hall => ⟨rfl, hall⟩, fun hall => hall.2⟩
  · rw [List.forall_mem_cons, h.handlers_iff, hhandler]
    exact ⟨fun hall => ⟨rfl, hall⟩, fun hall => hall.2⟩

theorem Compensated.saveWorkflow {workflow workflow' : Workflow}
    (h : Compensated handlers indices (db.saveWorkflow now workflow) outcome db' calls) :
    Compensated handlers indices db outcome (db'.saveWorkflow now workflow') calls :=
  ⟨h.rows, h.called, h.other, h.succeeded, h.failed, h.calls_iff, h.handlers_iff⟩

theorem compensateSteps_spec (now : ℕ) (handlers : Handlers) (steps : List WorkflowStep)
    (db : Database) (hstate : ∀ step ∈ steps, step.state = .completed)
    (hstored : ∀ step ∈ steps, (db.stepAt step.stepIndex).isSome)
    (hnodup : (steps.map (·.stepIndex)).Nodup) :
    Compensated handlers (steps.map (·.stepIndex)) db (compensateSteps now handlers steps db).1
      (compensateSteps now handlers steps db).2.1 (compensateSteps now handlers steps db).2.2 := by
  induction steps generalizing db with
  | nil => exact .nil
  | cons step rest ih =>
    rw [List.forall_mem_cons] at hstate hstored
    rw [List.map_cons, List.nodup_cons] at hnodup
    rw [List.map_cons, compensateSteps]
    cases hhandler : handlers step.stepIndex with
    | error error =>
      rw [compensateStep_error hstate.1]
      exact .stop hstored.1 hhandler
    | ok u =>
      rw [compensateStep_ok hstate.1]
      refine .cons hstored.1 hnodup.1 hhandler (ih _ hstate.2 (fun s hs => ?_) hnodup.2)
      -- the steps that are left are stored as they were
      have hne : s.stepIndex ≠ step.stepIndex := fun heq =>
        hnodup.1 (heq ▸ List.mem_map_of_mem hs)
      have hkeep : (db.saveStep (step.compensated now)).stepAt s.stepIndex =
          db.stepAt s.stepIndex := stepAt_saveStep_of_ne hne
      rw [hkeep]
      exact hstored.2 s hs

/-- The steps that were called are no longer to be compensated. -/
theorem Compensated.targets (h : Compensated handlers db.targets db outcome db' calls)
    (hdistinct : (db.steps.map (·.stepIndex)).Nodup) :
    db.targets = calls.map Prod.fst ++ db'.targets := by
  obtain ⟨rest, hrest, -⟩ := h.called
  have hdistinct' : (db'.steps.map (·.stepIndex)).Nodup := h.rows.symm ▸ hdistinct
  have hsorted := targets_pairwise hdistinct
  rw [hrest, List.pairwise_append] at hsorted
  have hsame : rest = db'.targets := by
    -- both are sorted, so it suffices to compare their members
    refine List.Pairwise.eq_of_mem_iff hsorted.2.1 (targets_pairwise hdistinct') fun i => ?_
    rw [mem_targets hdistinct']
    constructor
    · intro hi
      have hnew : i ∉ calls.map Prod.fst := fun hcalled =>
        lt_irrefl i (hsorted.2.2 i hcalled i hi)
      rw [h.other i hnew, ← mem_targets hdistinct, hrest]
      exact List.mem_append_right _ hi
    · rintro ⟨step, hstep, hstate, hrequires⟩
      have hnew : i ∉ calls.map Prod.fst := by
        intro hcalled
        obtain ⟨⟨i, success⟩, hcall, rfl⟩ := List.mem_map.mp hcalled
        cases success with
        | true =>
          obtain ⟨s, hs, hcompensated⟩ := h.succeeded i hcall
          obtain rfl := Option.some.inj (hs.symm.trans hstep)
          cases hcompensated.symm.trans hstate
        | false =>
          obtain ⟨s, hs, hfailed, -⟩ := h.failed i hcall
          obtain rfl := Option.some.inj (hs.symm.trans hstep)
          cases hfailed.symm.trans hstate
      rw [h.other i hnew] at hstep
      have hi : i ∈ db.targets := (mem_targets hdistinct).mpr ⟨step, hstep, hstate, hrequires⟩
      rw [hrest] at hi
      exact (List.mem_append.mp hi).resolve_left hnew
  rw [← hsame]
  exact hrest

/-- An attempt that is not admitted changes nothing. -/
theorem compensateWorkflow_refused (now : ℕ) (handlers : Handlers)
    (h : canWorkflowCompensate db.workflow.state = false) :
    (compensateWorkflow now handlers db).1.calls = [] ∧
      (compensateWorkflow now handlers db).2 = db := by
  rw [compensateWorkflow, if_pos h]
  exact ⟨rfl, rfl⟩

/-- An attempt compensates the steps up to the first failure, and says in the workflow how it
went. -/
theorem compensateWorkflow_spec (now : ℕ) (handlers : Handlers)
    (hdistinct : (db.steps.map (·.stepIndex)).Nodup)
    (h : canWorkflowCompensate db.workflow.state = true) :
    Compensated handlers db.targets db (compensateWorkflow now handlers db).1.outcome
        (compensateWorkflow now handlers db).2 (compensateWorkflow now handlers db).1.calls ∧
      (compensateWorkflow now handlers db).2.workflow.state =
        if (compensateWorkflow now handlers db).1.outcome.isOk then .compensated else .failed := by
  have htransition : transitionWorkflow db.workflow.state .compensating = .ok () := by
    rw [transitionWorkflow_eq_ok]
    cases hstate : db.workflow.state <;> first | rfl | (rw [hstate] at h; cases h)
  have hsteps := compensateSteps_spec now handlers db.completedSteps
    (db.saveWorkflow now { db.workflow with state := .compensating, requiresCompensation := true })
    (fun step hstep => (mem_completedSteps.mp hstep).2.1)
    (fun step hstep => by
      rw [stepAt_saveWorkflow, stepAt_of_mem hdistinct (mem_completedSteps.mp hstep).1]
      rfl)
    (nodup_targets hdistinct)
  have hadmitted : ¬ canWorkflowCompensate db.workflow.state = false := by
    rw [h]
    exact Bool.noConfusion
  unfold compensateWorkflow
  rw [if_neg hadmitted, htransition]
  have hsame : (db.saveWorkflow now { db.workflow with
      state := .compensating, requiresCompensation := true }).completedSteps =
    db.completedSteps := rfl
  simp only [hsame]
  generalize compensateSteps now handlers db.completedSteps _ = attempt at hsteps
  obtain ⟨outcome, db', calls⟩ := attempt
  cases outcome with
  | ok u =>
    exact ⟨hsteps.saveWorkflow, state_saveWorkflow⟩
  | error error =>
    exact ⟨hsteps.saveWorkflow, state_saveWorkflow⟩

end Attempts

/-! ## Sequences of attempts -/

section Progress

variable {now : ℕ} {handlers : Handlers} {db₀ db : Database} {calls : List (ℕ × Bool)}

/-- What the attempts so far have left of the steps that were completed at first. -/
structure Progress (db₀ db : Database) (calls : List (ℕ × Bool)) : Prop where
  distinct : (db.steps.map (·.stepIndex)).Nodup
  targets : db₀.targets = calls.map Prod.fst ++ db.targets
  failed : ∀ i, (i, false) ∈ calls ↔
    ∃ step, db.stepAt i = some step ∧ step.state = .failed ∧ step.compensatedAt ≠ none

theorem Untouched.progress (h : Untouched db₀) : Progress db₀ db₀ [] where
  distinct := h.distinct
  targets := rfl
  failed i := by
    constructor
    · intro hi
      cases hi
    · rintro ⟨step, hstep, -, hattempted⟩
      exact absurd (h.steps step (mem_of_stepAt hstep)) hattempted

/-- A further attempt goes on with the steps that are left. -/
theorem Progress.attempt (h : Progress db₀ db calls)
    (hadmitted : canWorkflowCompensate db.workflow.state = true) :
    Progress db₀ (compensateWorkflow now handlers db).2
      (calls ++ (compensateWorkflow now handlers db).1.calls) := by
  obtain ⟨hspec, -⟩ := compensateWorkflow_spec now handlers h.distinct hadmitted
  have htargets := hspec.targets h.distinct
  constructor
  · exact hspec.rows.symm ▸ h.distinct
  · rw [h.targets, htargets, List.map_append, List.append_assoc]
  · intro i
    rw [List.mem_append, h.failed]
    constructor
    · rintro (⟨step, hstep, hfailed, hattempted⟩ | hnew)
      · -- only completed steps are called, so a step that failed before is left alone
        have hleft : i ∉ (compensateWorkflow now handlers db).1.calls.map Prod.fst := by
          intro hi
          have htarget : i ∈ db.targets := htargets ▸ List.mem_append_left _ hi
          obtain ⟨s, hs, hcompleted, -⟩ := (mem_targets h.distinct).mp htarget
          obtain rfl := Option.some.inj (hs.symm.trans hstep)
          cases hcompleted.symm.trans hfailed
        exact ⟨step, (hspec.other i hleft).trans hstep, hfailed, hattempted⟩
      · exact hspec.failed i hnew
    · rintro ⟨step, hstep, hfailed, hattempted⟩
      by_cases hi : i ∈ (compensateWorkflow now handlers db).1.calls.map Prod.fst
      · obtain ⟨⟨i, success⟩, hcall, rfl⟩ := List.mem_map.mp hi
        cases success with
        | false => exact .inr hcall
        | true =>
          obtain ⟨s, hs, hcompensated⟩ := hspec.succeeded i hcall
          obtain rfl := Option.some.inj (hs.symm.trans hstep)
          cases hcompensated.symm.trans hfailed
      · rw [hspec.other i hi] at hstep
        exact .inl ⟨step, hstep, hfailed, hattempted⟩

/-- All handlers that were called succeeded exactly when all calls count. -/
theorem compensated_eq_iff :
    compensated calls = calls.map Prod.fst ↔ ∀ call ∈ calls, call.2 = true := by
  constructor
  · intro h
    rw [← List.length_filter_eq_length_iff]
    have hlength := congrArg List.length h
    rwa [compensated, List.length_map, List.length_map] at hlength
  · intro h
    rw [compensated, List.filter_eq_self.mpr h]

theorem callsOf_append {log : List (Commit Database Handlers Attempt)}
    {c : Commit Database Handlers Attempt} :
    callsOf (log ++ [c]) = callsOf log ++ c.result.calls := by
  rw [callsOf, List.flatMap_append, List.flatMap_singleton]
  rfl

/-- After an attempt that succeeds the compensation is complete exactly when none failed before. -/
theorem Progress.compensated_iff (h : Progress db₀ db calls)
    (hadmitted : canWorkflowCompensate db.workflow.state = true)
    (hok : (compensateWorkflow now handlers db).1.outcome.isOk = true) :
    compensated (calls ++ (compensateWorkflow now handlers db).1.calls) = db₀.targets ↔
      ∀ step ∈ db.steps, step.state = .failed → step.compensatedAt = none := by
  obtain ⟨hspec, -⟩ := compensateWorkflow_spec now handlers h.distinct hadmitted
  obtain ⟨rest, hrest, hdone⟩ := hspec.called
  rw [hdone hok, List.append_nil] at hrest
  rw [h.targets, hrest, ← List.map_append, compensated_eq_iff, List.forall_mem_append]
  have hnew := hspec.calls_iff.mp hok
  constructor
  · rintro ⟨hold, -⟩ step hstep hfailed
    by_contra hattempted
    cases hold _ ((h.failed _).mpr ⟨step, stepAt_of_mem h.distinct hstep, hfailed, hattempted⟩)
  · intro hnone
    refine ⟨?_, hnew⟩
    rintro ⟨i, success⟩ hcall
    cases success with
    | true => rfl
    | false =>
      obtain ⟨step, hstep, hfailed, hattempted⟩ := (h.failed i).mp hcall
      exact absurd (hnone step (mem_of_stepAt hstep) hfailed) hattempted

/-- An attempt that is admitted leaves a complete compensation, or none, exactly when it fails or
finds no step whose compensation failed. -/
theorem Progress.attempt_complete_iff (h : Progress db₀ db calls) (now : ℕ) (handlers : Handlers)
    (hadmitted : canWorkflowCompensate db.workflow.state = true) :
    ((compensateWorkflow now handlers db).2.workflow.state = .compensated →
      compensated (calls ++ (compensateWorkflow now handlers db).1.calls) = db₀.targets) ↔
    ((∀ i ∈ db.targets, (handlers i).isOk = true) →
      ∀ step ∈ db.steps, step.state = .failed → step.compensatedAt = none) := by
  obtain ⟨hspec, hstate⟩ := compensateWorkflow_spec now handlers h.distinct hadmitted
  rw [hstate, ← hspec.handlers_iff]
  cases hok : (compensateWorkflow now handlers db).1.outcome.isOk with
  | false => exact iff_of_true (fun hcompensated => nomatch hcompensated) nofun
  | true =>
    -- the workflow is marked as compensated now
    have hiff := h.compensated_iff hadmitted hok
    exact ⟨fun hcomplete _ => hiff.mp (hcomplete rfl), fun hnone _ => hiff.mpr (hnone rfl)⟩

end Progress

/-- **Compensation.** A workflow that is marked as compensated had all its completed steps
compensated, each once and in reverse order, exactly when no attempt succeeded after the
compensation of a step had failed. -/
theorem complete_iff {t₀ : ℕ} {db₀ : Database} {w : World Database}
    {log : List (Commit Database Handlers Attempt)} (h : compensation.Run ⟨t₀, db₀⟩ w log)
    (hfresh : Untouched db₀) : Complete db₀ w.store log ↔ ∀ c ∈ log, Unhindered c := by
  refine h.log_iff (S := fun db log => Progress db₀ db (callsOf log))
    (I := fun db log => Complete db₀ db log)
    ⟨hfresh.progress, fun hstate => absurd hstate hfresh.workflow⟩ fun c log hprogress he => ?_
  obtain ⟨t, handlers, attempt, db, db'⟩ := c
  obtain ⟨rfl, rfl⟩ : (compensateWorkflow t handlers db).1 = attempt ∧
      (compensateWorkflow t handlers db).2 = db' := by
    have he' : compensateWorkflow t handlers db = (attempt, db') := Except.ok.inj he
    exact Prod.mk.inj he'
  rw [Complete, Complete, callsOf_append]
  dsimp only at hprogress ⊢
  cases hadmitted : canWorkflowCompensate db.workflow.state with
  | false =>
    obtain ⟨hcalls, hsame⟩ := compensateWorkflow_refused t handlers hadmitted
    rw [hcalls, hsame, List.append_nil]
    refine ⟨hprogress, ?_⟩
    have hfree : Unhindered ⟨t, handlers, (compensateWorkflow t handlers db).1, db, db⟩ :=
      fun hcan => absurd (hadmitted.symm.trans hcan) Bool.noConfusion
    exact ⟨fun hI => ⟨hI, hfree⟩, fun hI => hI.1⟩
  | true =>
    have hbefore : db.workflow.state ≠ .compensated := by
      intro hcompensated
      rw [hcompensated] at hadmitted
      cases hadmitted
    have hiff := hprogress.attempt_complete_iff t handlers hadmitted
    refine ⟨hprogress.attempt hadmitted, ?_⟩
    constructor
    · intro hI
      exact ⟨fun hcompensated => absurd hcompensated hbefore, fun _ => hiff.mp hI⟩
    · rintro ⟨-, hfree⟩
      exact hiff.mpr (hfree hadmitted)

def sampleStep (stepIndex : ℕ) (state : StepState) : WorkflowStep :=
  ⟨"step", stepIndex, state, none, 0, 3, none, none, none, none, none, true, false, none, false,
    none⟩

/-- The third step of the workflow failed. -/
def failedWorkflow : Database where
  workflow := ⟨"wf", "trade_execution", .failed, 2, none, none, none, none, 0, false, false, 0⟩
  steps := [sampleStep 0 .completed, sampleStep 1 .completed, sampleStep 2 .failed]

theorem untouched_failedWorkflow : Untouched failedWorkflow :=
  ⟨by decide, by decide, by decide⟩

/-- All handlers succeed. -/
def succeedAll : Handlers := fun _ => .ok ()

/-- The handler of the second step fails. -/
def failSecond : Handlers := fun i => if i = 1 then .error "timeout" else .ok ()

theorem complete_iff_sample :
    let run := compensation.play ⟨0, failedWorkflow⟩ [(1, succeedAll), (2, succeedAll)]
    run.1.store.workflow.state = .compensated ∧ compensated (callsOf run.2) = [1, 0] ∧
      (Complete failedWorkflow run.1.store run.2 ↔ ∀ c ∈ run.2, Unhindered c) :=
  ⟨by decide, by decide,
    complete_iff (Contract.run_play compensation ⟨0, failedWorkflow⟩ _ (by decide))
      untouched_failedWorkflow⟩

/-- The second attempt marks the workflow as compensated, though its second step never was. -/
theorem incomplete_compensation :
    ¬ ∀ t₀ db₀ w log, compensation.Run ⟨t₀, db₀⟩ w log → Untouched db₀ →
      Complete db₀ w.store log := by
  intro hall
  have hcomplete := hall 0 failedWorkflow _ _ (Contract.run_play compensation ⟨0, failedWorkflow⟩
    [(1, failSecond), (2, succeedAll)] (by decide)) untouched_failedWorkflow (by decide)
  exact absurd hcomplete (by decide)

end Stellara.Workflows
