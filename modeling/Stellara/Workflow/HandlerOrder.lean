import Stellara.Lib.Trails
import Stellara.Workflow.Cancellation
import Stellara.Workflow.StepRetries

/-!
# The order of the handlers

An execution loads the rows of the steps and calls their handlers. Other executions of the same
workflow, its retries, recoveries and cancellations go on at the same time, and write to the same
rows. Whatever they do, an execution calls the handler of a step after the handlers of all steps
before it have returned to it, and no more after its own one has; and a workflow is stored as
completed when an execution of it has called all handlers with success.

## Main definitions

* `handlerCall?`, `calls`: the calls of the handlers by a task, with what they returned
* `found`: the rows that a task has loaded
* `Succeeded`: the calls of the handlers of some steps, in order, each until it returned
* `InOrder`: the calls of an execution that has come to some step
* `Executes`: what a task has done before a point

## Main results

* `Executes.resume`: what the steps of a task keep
* `executes_in_order`: the order of the handlers, and when a workflow is completed
-/

namespace Stellara.Workflows

variable {definition : Option (List String)} {now t₀ : ℕ} {input : Input} {db db' : Database}
  {p q : Point} {e : Entity} {step : WorkflowStep} {rest : List WorkflowStep}

/-! ## What a task has done -/

abbrev Trail := List (OwnStep Database Point Input)

/-- The call of a handler, by the index of its step, with what it returned. -/
def handlerCall? (definition : Option (List String)) (s : OwnStep Database Point Input) :
    Option (ℕ × Except String String) :=
  match s.point with
  | .execute _ step _ => some (step.stepIndex, runHandler definition s.input.outcome step)
  | _ => none

def calls (definition : Option (List String)) (trail : Trail) : List (ℕ × Except String String) :=
  trail.filterMap (handlerCall? definition)

/-- The rows of the steps that are loaded in a step. -/
def found? (s : OwnStep Database Point Input) : Option (List WorkflowStep) :=
  match s.point with
  | .findSteps _ => some s.shared.findSteps
  | _ => none

/-- The rows of the steps with which a task executes the workflow. -/
def found (trail : Trail) : Option (List WorkflowStep) := trail.findSome? found?

/-- The task has stored the workflow as completed. -/
def Completes (trail : Trail) : Prop := ∃ s ∈ trail, ∃ e, s.point = .saveCompleted e

/-- The calls of the handlers of some steps in order: some that failed, and one that returned. -/
inductive Succeeded : List WorkflowStep → List (ℕ × Except String String) → Prop
  | nil : Succeeded [] []
  | step {done : List WorkflowStep} {prior : List (ℕ × Except String String)} {row : WorkflowStep}
      {failed : List (Except String String)} {output : String} : Succeeded done prior →
      AllFailed failed → failed.length < callBound row →
      Succeeded (done ++ [row]) (prior ++ (failed ++ [Except.ok output]).map (row.stepIndex, ·))

/-- The handlers of the first steps have returned, and the calls of the next one have failed. -/
inductive InOrder : List WorkflowStep → List (ℕ × Except String String) → Prop
  | between {done rest : List WorkflowStep} {prior : List (ℕ × Except String String)} :
      Succeeded done prior → InOrder (done ++ rest) prior
  | within {done rest : List WorkflowStep} {row : WorkflowStep}
      {prior : List (ℕ × Except String String)} {failed : List (Except String String)} :
      Succeeded done prior → AllFailed failed → failed.length ≤ callBound row →
      InOrder (done ++ row :: rest) (prior ++ failed.map (row.stepIndex, ·))

/-- An execution of the rows has come to its steps `rest`. -/
def Reached (rows rest : List WorkflowStep) (calls : List (ℕ × Except String String)) : Prop :=
  ∃ done, rows = done ++ rest ∧ Succeeded done calls

/-- An execution of the rows has made the calls `failed` of the handler of one of them. -/
structure Attempts (rows rest : List WorkflowStep) (row : WorkflowStep)
    (failed : List (Except String String)) (calls : List (ℕ × Except String String)) : Prop where
  calls : ∃ prior, Reached rows (row :: rest) prior ∧ calls = prior ++ failed.map (row.stepIndex, ·)
  allFailed : AllFailed failed

/-- What a task that executes the rows has called before a point. -/
def Phased (rows : List WorkflowStep) (calls : List (ℕ × Except String String)) : Point → Prop
  | .saveIndex _ step rest => Reached rows (step :: rest) calls
  | .startStep _ step rest | .saveKey _ step rest | .execute _ step rest | .saveRetry _ step rest
  | .delay _ step rest =>
    ∃ row failed, Attempts rows rest row failed calls ∧ StepAttempt row step failed
  | .saveStepCompleted _ _ rest => Reached rows rest calls
  | .saveCompleted _ => Reached rows [] calls
  | .saveStepFailed _ _ _ | .saveFailed _ | .finished | .threw _ => InOrder rows calls
  | _ => False

/-- The task has not loaded the steps, or does not load them. -/
def Point.beforeSteps : Point → Bool
  | .findWorkflow | .saveRunning _ | .findSteps _ | .retryWorkflow | .saveRetried _
  | .savePending _ _ | .recoverWorkflow | .saveRecovered _ | .cancelWorkflow | .saveCancelled _
  | .finished | .threw _ => true
  | _ => false

/-- What a task has loaded and called before a point. -/
def Knows (definition : Option (List String)) (p : Point) (trail : Trail) : Prop :=
  found trail = none ∧ calls definition trail = [] ∧ p.beforeSteps = true ∨
    ∃ rows, found trail = some rows ∧ Phased rows (calls definition trail) p

/-- What a task knows before a point, and that it has called all handlers with success where it has
stored the workflow as completed. -/
structure Executes (definition : Option (List String)) (p : Point) (trail : Trail) : Prop where
  knows : Knows definition p trail
  completes : Completes trail → p = .finished ∧
    ∃ rows, found trail = some rows ∧ Succeeded rows (calls definition trail)

/-! ## One step -/

variable {trail : Trail} {rows : List WorkflowStep} {row : WorkflowStep}
  {failed : List (Except String String)} {prior : List (ℕ × Except String String)}

theorem found_concat (s : OwnStep Database Point Input) :
    found (trail ++ [s]) = (found trail).or (found? s) := by
  rw [found, List.findSome?_append, List.findSome?_singleton, found]

theorem calls_concat (s : OwnStep Database Point Input) :
    calls definition (trail ++ [s]) = calls definition trail ++ (handlerCall? definition s).toList := by
  rw [calls, List.filterMap_append, List.filterMap_cons, List.filterMap_nil]
  cases handlerCall? definition s <;> rfl

theorem completes_concat {s : OwnStep Database Point Input} :
    Completes (trail ++ [s]) ↔ Completes trail ∨ ∃ e, s.point = .saveCompleted e := by
  simp only [Completes, List.mem_append, List.mem_singleton, or_and_right, exists_or,
    exists_eq_left]

theorem Reached.inOrder (h : Reached rows rest prior) : InOrder rows prior := by
  obtain ⟨done, rfl, hdone⟩ := h
  exact .between hdone

theorem Attempts.inOrder (h : Attempts rows rest row failed prior)
    (hle : failed.length ≤ callBound row) : InOrder rows prior := by
  obtain ⟨prior, ⟨done, rfl, hdone⟩, rfl⟩ := h.calls
  exact .within hdone h.allFailed hle

/-- The handler of the row returns. -/
theorem Attempts.succeed (h : Attempts rows rest row failed prior)
    (hlt : failed.length < callBound row) (output : String) :
    Reached rows rest (prior ++ [(row.stepIndex, .ok output)]) := by
  obtain ⟨prior, ⟨done, rfl, hdone⟩, rfl⟩ := h.calls
  refine ⟨done ++ [row], by simp, ?_⟩
  have hstep : Succeeded (done ++ [row])
      (prior ++ (failed ++ [Except.ok output]).map (row.stepIndex, ·)) :=
    hdone.step h.allFailed hlt
  rw [List.map_append, ← List.append_assoc] at hstep
  exact hstep

/-- The handler of the row fails. -/
theorem Attempts.fail (h : Attempts rows rest row failed prior) (error : String) :
    Attempts rows rest row (failed ++ [.error error]) (prior ++ [(row.stepIndex, .error error)]) := by
  obtain ⟨prior, hreached, rfl⟩ := h.calls
  refine ⟨⟨prior, hreached, ?_⟩, h.allFailed.append error⟩
  rw [List.map_append, ← List.append_assoc]
  rfl

theorem Reached.nextStep (h : Reached rows rest prior) : Phased rows prior (nextStep now e rest) := by
  cases rest with
  | nil => exact h
  | cons step rest => exact h

/-- An execution starts with a step, or gives up. -/
theorem phased_executeStep (h : Attempts rows rest row failed prior)
    (hstep : StepAttempt row step failed) : Phased rows prior (executeStep now e step rest) := by
  unfold executeStep
  split
  · exact h.inOrder hstep.lt_callBound.le
  · exact ⟨row, failed, h, { hstep with }⟩

theorem Reached.executeStep (h : Reached rows (step :: rest) prior) :
    Phased rows prior (executeStep now e step rest) := by
  have hnone : AllFailed [] := by simp [AllFailed]
  exact phased_executeStep ⟨⟨prior, h, by simp⟩, hnone⟩ ⟨rfl, rfl, rfl, rfl, hnone, .inl rfl⟩

/-- What follows a call of the handler. -/
theorem Attempts.afterHandler (h : Attempts rows rest row failed prior)
    (hstep : StepAttempt row step failed) (jitter : ℕ) (outcome : Except String String) :
    Phased rows (prior ++ [(step.stepIndex, outcome)])
      (afterHandler now jitter e step rest outcome) := by
  have hlt := hstep.lt_callBound
  rw [hstep.stepIndex]
  cases outcome with
  | ok output => exact h.succeed hlt output
  | error error =>
    have hfail := h.fail error
    have hlength : (failed ++ [Except.error error]).length = failed.length + 1 :=
      List.length_append
    unfold Workflows.afterHandler
    dsimp only
    split
    · rename_i hretry
      have hbelow : step.retryCount + 1 < step.maxRetries := (of_decide_eq_true hretry).2
      refine ⟨row, _, hfail, hstep.stepName, hstep.stepIndex, hstep.maxRetries, ?_,
        hfail.allFailed, .inr hbelow⟩
      rw [hlength, ← Nat.add_assoc, ← hstep.retryCount]
    · exact hfail.inOrder (by omega)

theorem beforeSteps_executeWorkflow : (executeWorkflow definition now e).beforeSteps = true := by
  unfold executeWorkflow
  split
  · rfl
  · split <;> rfl

/-- A task that has not loaded the steps goes on without them, or loads them. -/
theorem knows_of_beforeSteps (hfound : found trail = none) (hcalls : calls definition trail = [])
    (hbefore : p.beforeSteps = true) (hq : p.resume definition now input db = some (q, db')) :
    Knows definition q (trail ++ [⟨now, input, p, db⟩]) := by
  unfold Knows
  rw [found_concat, calls_concat, hfound, hcalls, Option.none_or, List.nil_append]
  cases p with
  | findSteps e =>
    obtain ⟨rfl, rfl⟩ := Prod.mk.inj (Option.some.inj hq)
    exact .inr ⟨_, rfl, Reached.nextStep ⟨[], rfl, .nil⟩⟩
  | findWorkflow | savePending e step =>
    obtain ⟨rfl, rfl⟩ := Prod.mk.inj (Option.some.inj hq)
    exact .inl ⟨rfl, rfl, beforeSteps_executeWorkflow⟩
  | saveRunning e | saveRecovered e | saveCancelled e =>
    obtain ⟨rfl, rfl⟩ := Prod.mk.inj (Option.some.inj hq)
    exact .inl ⟨rfl, rfl, rfl⟩
  | retryWorkflow | cancelWorkflow =>
    simp only [Point.resume] at hq
    split at hq <;> obtain ⟨rfl, rfl⟩ := Prod.mk.inj (Option.some.inj hq) <;>
      exact .inl ⟨rfl, rfl, rfl⟩
  | saveRetried e =>
    simp only [Point.resume] at hq
    split at hq <;> obtain ⟨rfl, rfl⟩ := Prod.mk.inj (Option.some.inj hq)
    · exact .inl ⟨rfl, rfl, rfl⟩
    · exact .inl ⟨rfl, rfl, beforeSteps_executeWorkflow⟩
  | recoverWorkflow =>
    simp only [Point.resume] at hq
    split at hq
    · split at hq <;> obtain ⟨rfl, rfl⟩ := Prod.mk.inj (Option.some.inj hq)
      · exact .inl ⟨rfl, rfl, rfl⟩
      · exact .inl ⟨rfl, rfl, beforeSteps_executeWorkflow⟩
    · obtain ⟨rfl, rfl⟩ := Prod.mk.inj (Option.some.inj hq)
      exact .inl ⟨rfl, rfl, rfl⟩
  | finished | threw error => cases hq
  | _ => cases hbefore

/-- A task that executes the steps goes on with them. -/
theorem Phased.resume (h : Phased rows prior p)
    (hq : p.resume definition now input db = some (q, db')) :
    Phased rows (prior ++ (handlerCall? definition ⟨now, input, p, db⟩).toList) q := by
  cases p with
  | saveIndex e step rest =>
    obtain ⟨rfl, rfl⟩ := Prod.mk.inj (Option.some.inj hq)
    rw [handlerCall?, Option.toList_none, List.append_nil]
    exact Reached.executeStep h
  | startStep e step rest =>
    rw [handlerCall?, Option.toList_none, List.append_nil]
    obtain ⟨row, failed, hattempts, hstep⟩ := h
    simp only [Point.resume] at hq
    split at hq <;> obtain ⟨rfl, rfl⟩ := Prod.mk.inj (Option.some.inj hq) <;>
      exact ⟨row, failed, hattempts, { hstep with }⟩
  | saveKey e step rest | saveRetry e step rest =>
    obtain ⟨rfl, rfl⟩ := Prod.mk.inj (Option.some.inj hq)
    rw [handlerCall?, Option.toList_none, List.append_nil]
    exact h
  | execute e step rest =>
    obtain ⟨rfl, rfl⟩ := Prod.mk.inj (Option.some.inj hq)
    obtain ⟨row, failed, hattempts, hstep⟩ := h
    exact hattempts.afterHandler hstep _ _
  | delay e step rest =>
    rw [handlerCall?, Option.toList_none, List.append_nil]
    obtain ⟨row, failed, hattempts, hstep⟩ := h
    simp only [Point.resume] at hq
    split at hq
    · obtain ⟨rfl, rfl⟩ := Prod.mk.inj (Option.some.inj hq)
      exact phased_executeStep hattempts hstep
    · cases hq
  | saveStepCompleted e step rest =>
    obtain ⟨rfl, rfl⟩ := Prod.mk.inj (Option.some.inj hq)
    rw [handlerCall?, Option.toList_none, List.append_nil]
    exact Reached.nextStep h
  | saveCompleted e =>
    obtain ⟨rfl, rfl⟩ := Prod.mk.inj (Option.some.inj hq)
    rw [handlerCall?, Option.toList_none, List.append_nil]
    exact Reached.inOrder h
  | saveStepFailed e step error | saveFailed e =>
    obtain ⟨rfl, rfl⟩ := Prod.mk.inj (Option.some.inj hq)
    rw [handlerCall?, Option.toList_none, List.append_nil]
    exact h
  | finished | threw error => cases hq
  | _ => exact h.elim

/-- At every point the calls so far are in order. -/
theorem Phased.inOrder (h : Phased rows prior p) : InOrder rows prior := by
  cases p with
  | saveIndex | saveStepCompleted | saveCompleted => exact Reached.inOrder h
  | startStep | saveKey | execute | saveRetry | delay =>
    obtain ⟨row, failed, hattempts, hstep⟩ := h
    exact hattempts.inOrder hstep.lt_callBound.le
  | saveStepFailed | saveFailed | finished | threw => exact h
  | _ => exact h.elim

theorem Knows.resume (h : Knows definition p trail)
    (hq : p.resume definition now input db = some (q, db')) :
    Knows definition q (trail ++ [⟨now, input, p, db⟩]) := by
  rcases h with ⟨hfound, hcalls, hbefore⟩ | ⟨rows, hfound, hphased⟩
  · exact knows_of_beforeSteps hfound hcalls hbefore hq
  · refine .inr ⟨rows, ?_, ?_⟩
    · rw [found_concat, hfound, Option.some_or]
    · rw [calls_concat]
      exact hphased.resume hq

/-- A step of a task. -/
theorem Executes.resume (h : Executes definition p trail)
    (hq : p.resume definition now input db = some (q, db')) :
    Executes definition q (trail ++ [⟨now, input, p, db⟩]) := by
  refine ⟨h.knows.resume hq, fun hcompletes => ?_⟩
  rcases completes_concat.mp hcompletes with hold | ⟨e, hpoint⟩
  · obtain ⟨rfl, -⟩ := h.completes hold
    cases hq
  · obtain rfl : p = .saveCompleted e := hpoint
    obtain ⟨rfl, rfl⟩ := Prod.mk.inj (Option.some.inj hq)
    rcases h.knows with ⟨-, -, hbefore⟩ | ⟨rows, hfound, done, hdone, hsucceeded⟩
    · cases hbefore
    · rw [List.append_nil] at hdone
      subst hdone
      rw [found_concat, hfound, calls_concat, handlerCall?, Option.toList_none, List.append_nil]
      exact ⟨rfl, rows, rfl, hsucceeded⟩

theorem executes_start (h : (workflowCalls definition).starts db p = true) :
    Executes definition p [] := by
  have hbefore : p.beforeSteps = true := by
    cases p with
    | findWorkflow | retryWorkflow | recoverWorkflow | cancelWorkflow => rfl
    | _ => cases h
  refine ⟨.inl ⟨rfl, rfl, hbefore⟩, ?_⟩
  rintro ⟨_, hmem, -⟩
  exact absurd hmem List.not_mem_nil

/-- Only the end of an execution stores a workflow as completed. -/
theorem Tracked.completed (h : Tracked p) (hq : p.resume definition now input db = some (q, db'))
    (hstate : db'.workflow.state = .completed) :
    db.workflow.state = .completed ∨ ∃ e, p = .saveCompleted e := by
  rcases state_of_resume hq with hsame | ⟨e, he, hstored⟩
  · exact .inl (hsame.symm.trans hstate)
  · have hcompleted := hstored.symm.trans hstate
    cases p with
    | saveCompleted e' => exact .inr ⟨e', rfl⟩
    | saveRunning e' | saveRetried e' | saveCancelled e' =>
      obtain rfl := Option.some.inj he
      obtain ⟨source, hmoves⟩ := h
      cases hmoves.state.symm.trans hcompleted
    | saveIndex e' _ _ | startStep e' _ _ | saveFailed e' | saveRecovered e' =>
      obtain rfl := Option.some.inj he
      cases h.state.symm.trans hcompleted
    | _ => cases he

/-! ## Runs -/

variable {w : World (Tasks Database Point)} {log : Async.Log Database Point Input}

/-- A workflow that is stored as completed was so before, or a task has completed it. -/
theorem completes_of_completed (h : (workflowCalls definition).contract.Run ⟨t₀, ⟨db, []⟩⟩ w log)
    (hdb : db.workflow.state ≠ .completed) :
    Sound w.store ∧ (w.store.shared.workflow.state = .completed →
      ∃ i, Completes (Async.trail i log)) := by
  refine h.invariant_log (I := fun _ w log => Sound w ∧ (w.shared.workflow.state = .completed →
      ∃ i, Completes (Async.trail i log)))
    (by exact ⟨fun _ hp => absurd hp List.not_mem_nil, fun hstate => absurd hstate hdb⟩)
    (fun _ _ _ _ _ h => h) ?_
  rintro t call r before after log ⟨hsound, ih⟩ he
  have hmove : (workflowCalls definition).Step t before call after := Async.step_of_exec he
  cases hmove with
  | start hp =>
    refine ⟨hsound.start hp, fun hstate => ?_⟩
    obtain ⟨i, hi⟩ := ih hstate
    exact ⟨i, by rwa [Async.trail_concat_start]⟩
  | @resume i input p q db' hp hq =>
    refine ⟨hsound.step hp hq, fun hstate => ?_⟩
    rcases (hsound p (List.mem_of_getElem? hp)).completed hq hstate with hold | hcompletes
    · obtain ⟨j, hj⟩ := ih hold
      by_cases hij : i = j
      · subst hij
        exact ⟨i, by rw [Async.trail_concat_own hp]; exact completes_concat.mpr (.inl hj)⟩
      · exact ⟨j, by rwa [Async.trail_concat_other hij]⟩
    · refine ⟨i, ?_⟩
      rw [Async.trail_concat_own hp]
      exact completes_concat.mpr (.inr hcompletes)

/-- **Order of the handlers.** In every interleaving, an execution calls the handlers in the order
of the rows that it has loaded, each until it returns and no more often than it can be retried, and
goes on with the next step only then. A workflow that is stored as completed was completed by an
execution whose handlers have all returned. -/
theorem executes_in_order (h : (workflowCalls definition).contract.Run ⟨t₀, ⟨db, []⟩⟩ w log) :
    (∀ i, InOrder ((found (Async.trail i log)).getD []) (calls definition (Async.trail i log))) ∧
      (db.workflow.state ≠ .completed → w.store.shared.workflow.state = .completed →
        ∃ i rows, found (Async.trail i log) = some rows ∧
          Succeeded rows (calls definition (Async.trail i log))) := by
  have htasks := Async.trail_of_run (I := Executes definition) (fun _ _ => executes_start)
    (fun _ _ _ _ _ _ _ hI hq => hI.resume hq) h
  have hnone : InOrder [] [] := .between .nil
  constructor
  · intro i
    have hi := htasks i
    cases hpoint : w.store.points[i]? with
    | none =>
      rw [hpoint, Option.elim_none] at hi
      rw [hi]
      exact hnone
    | some p =>
      rw [hpoint, Option.elim_some] at hi
      rcases hi.knows with ⟨hfound, hcalls, -⟩ | ⟨rows, hfound, hphased⟩
      · rw [hfound, hcalls]
        exact hnone
      · rw [hfound, Option.getD_some]
        exact hphased.inOrder
  · intro hdb hstate
    obtain ⟨i, hcompletes⟩ := (completes_of_completed h hdb).2 hstate
    have hi := htasks i
    cases hpoint : w.store.points[i]? with
    | none =>
      rw [hpoint, Option.elim_none] at hi
      rw [hi] at hcompletes
      obtain ⟨_, hmem, -⟩ := hcompletes
      exact absurd hmem List.not_mem_nil
    | some p =>
      rw [hpoint, Option.elim_some] at hi
      obtain ⟨-, rows, hrows⟩ := hi.completes hcompletes
      exact ⟨i, rows, hrows⟩

/-- A workflow of two steps. -/
def portfolioWorkflow : Database where
  workflow := ⟨"wf", "portfolio_update", .pending, 0, none, none, none, none, 0, false, false, 0⟩
  steps := [⟨"load", 0, .pending, none, 0, 3, none, none, none, none, none, false, false, none,
    false, none⟩, ⟨"update", 1, .pending, none, 0, 3, none, none, none, none, none, false, false,
    none, false, none⟩]

/-- The first step fails once. While it waits for its retry the workflow is cancelled. -/
def portfolioCalls : List (ℕ × Move Point Input) :=
  (0, .start .findWorkflow) :: List.replicate 5 (1, .resume 0 ⟨.ok "", "", 0⟩) ++
    [(1, .resume 0 ⟨.error "timeout", "", 0⟩), (1, .resume 0 ⟨.ok "", "", 0⟩),
      (2, .start .cancelWorkflow), (2, .resume 1 ⟨.ok "", "", 0⟩), (3, .resume 1 ⟨.ok "", "", 0⟩)] ++
    List.replicate 9 (2001, .resume 0 ⟨.ok "done", "", 0⟩)

/-- The execution goes on and completes the workflow. -/
theorem executes_in_order_portfolio :
    let run := (workflowCalls (some ["load", "update"])).contract.play
      ⟨0, ⟨portfolioWorkflow, []⟩⟩ portfolioCalls
    run.1.store.shared.workflow.state = .completed ∧
      calls (some ["load", "update"]) (Async.trail 0 run.2) =
        [(0, .error "timeout"), (0, .ok "done"), (1, .ok "done")] ∧
      (∀ i, InOrder ((found (Async.trail i run.2)).getD [])
        (calls (some ["load", "update"]) (Async.trail i run.2))) ∧
      ∃ i rows, found (Async.trail i run.2) = some rows ∧
        Succeeded rows (calls (some ["load", "update"]) (Async.trail i run.2)) := by
  have hrun := executes_in_order (Contract.run_play
    (workflowCalls (some ["load", "update"])).contract ⟨0, ⟨portfolioWorkflow, []⟩⟩ portfolioCalls
    (by decide))
  exact ⟨by decide, by decide, hrun.1, hrun.2 (by decide) (by decide)⟩

end Stellara.Workflows
