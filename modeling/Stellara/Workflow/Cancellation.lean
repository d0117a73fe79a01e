import Stellara.Workflow.Execution

/-!
# Cancellation is final

The executor saves the entity that it was given whatever is stored by then. Where nobody else
saved the workflow since the entity was loaded or last saved, every change of its state is an
allowed transition, and a cancelled workflow stays cancelled; a cancellation that lands in between
is written over by the next save.

## Main definitions

* `AllowedChange`: the commit changes the state of the workflow by an allowed transition, if at all
* `StartsStep`: the commit starts a step
* `UpToDate`: a workflow is saved, and a step started, while its stored state is that of the entity

## Main results

* `Tracked.step`: the executor runs its entity through allowed transitions
* `cancellation_final`: the states change by allowed transitions, and cancelled workflows stay
  cancelled, where all saves are up to date
-/

namespace Stellara.Workflows

variable {definition : Option (List String)} {now i : ℕ} {input : Input} {db db' : Database}
  {p q : Point} {e : Entity} {points : List Point} {w : Tasks Database Point}

/-! ## Properties -/

/-- The state of the workflow does not change, or by an allowed transition. -/
def AllowedChange (c : Commit (Tasks Database Point) (Move Point Input) Unit) : Prop :=
  c.after.shared.workflow.state = c.before.shared.workflow.state ∨
    canTransitionWorkflow c.before.shared.workflow.state c.after.shared.workflow.state

/-- The commit starts a step of the workflow. -/
def StartsStep (c : Commit (Tasks Database Point) (Move Point Input) Unit) : Prop :=
  ∃ i input e step rest, c.call = .resume i input ∧
    c.before.points[i]? = some (.startStep e step rest)

/-- After a commit that leaves the workflow cancelled it stays so, and no step is started. -/
def StaysCancelled (c c' : Commit (Tasks Database Point) (Move Point Input) Unit) : Prop :=
  c.after.shared.workflow.state = .cancelled →
    c'.after.shared.workflow.state = .cancelled ∧ ¬ StartsStep c'

/-- The entity that the step saves, or for which it starts a step of the workflow. -/
def Point.acts : Point → Option Entity
  | .saveRunning e | .saveIndex e _ _ | .startStep e _ _ | .saveCompleted e | .saveFailed e
  | .saveRetried e | .saveRecovered e | .saveCancelled e => some e
  | _ => none

/-- A workflow is saved, and a step of it started, while its stored state is the one with which the
entity was loaded or last saved, or already the one of the entity. -/
def UpToDate (_ : ℕ) (_ : Input) (_ : ℕ) (p : Point) (w : Tasks Database Point) : Prop :=
  ∀ e ∈ p.acts, w.shared.workflow.state = e.persisted ∨ w.shared.workflow.state = e.workflow.state

instance : Decidable (UpToDate now input i p w) :=
  inferInstanceAs (Decidable (∀ e ∈ p.acts, w.shared.workflow.state = e.persisted ∨
    w.shared.workflow.state = e.workflow.state))

/-! ## The executor -/

/-- The entity is in a state that is allowed after its persisted one. -/
structure Moves (e : Entity) (source target : WorkflowState) : Prop where
  persisted : e.persisted = source
  state : e.workflow.state = target
  allowed : canTransitionWorkflow source target = true

/-- The entity is that of a running workflow, as it was last saved. -/
structure Running (e : Entity) : Prop where
  persisted : e.persisted = .running
  state : e.workflow.state = .running

/-- What a task knows of its entity. -/
def Tracked : Point → Prop
  | .saveRunning e | .saveRetried e => ∃ source, Moves e source .running
  | .findSteps e | .saveIndex e _ _ | .startStep e _ _ | .saveKey e _ _ | .execute e _ _
  | .saveStepCompleted e _ _ | .saveRetry e _ _ | .delay e _ _ | .saveStepFailed e _ _ => Running e
  | .saveCompleted e => Moves e .running .completed
  | .saveFailed e | .saveRecovered e => Moves e .running .failed
  | .savePending e _ => Running e
  | .saveCancelled e => ∃ source, Moves e source .cancelled
  | .findWorkflow | .retryWorkflow | .recoverWorkflow | .cancelWorkflow | .finished | .threw _ =>
    True

theorem tracked_executeWorkflow (h : e.persisted = e.workflow.state) :
    Tracked (executeWorkflow definition now e) := by
  unfold executeWorkflow
  split
  · trivial
  · split
    · trivial
    · rename_i hallowed
      exact ⟨_, h, rfl, transitionWorkflow_eq_ok.mp hallowed⟩

theorem Running.fail (h : Running e) {error : String} : Tracked (fail now e error) :=
  ⟨h.persisted, rfl, rfl⟩

theorem Running.nextStep (h : Running e) (rest : List WorkflowStep) :
    Tracked (nextStep now e rest) := by
  cases rest with
  | nil => exact ⟨h.persisted, rfl, rfl⟩
  | cons step rest => exact ⟨h.persisted, h.state⟩

theorem Running.executeStep (h : Running e) {step : WorkflowStep} {rest : List WorkflowStep} :
    Tracked (executeStep now e step rest) := by
  unfold Workflows.executeStep
  split
  · exact h.fail
  · exact h

theorem Running.afterHandler (h : Running e) {jitter : ℕ} {step : WorkflowStep}
    {rest : List WorkflowStep} {outcome : Except String String} :
    Tracked (afterHandler now jitter e step rest outcome) := by
  cases outcome with
  | ok output => exact h
  | error error =>
    unfold Workflows.afterHandler
    dsimp only
    split
    · exact h
    · exact h

theorem saved_running {source : WorkflowState} (h : Moves e source .running) : Running e.saved :=
  ⟨h.state, h.state⟩

/-- A task takes its entity through allowed transitions. -/
theorem Tracked.step (h : Tracked p) (hq : p.resume definition now input db = some (q, db')) :
    Tracked q := by
  cases p with
  | findWorkflow =>
    obtain ⟨rfl, rfl⟩ := Prod.mk.inj (Option.some.inj hq)
    exact tracked_executeWorkflow rfl
  | saveRunning e =>
    obtain ⟨rfl, rfl⟩ := Prod.mk.inj (Option.some.inj hq)
    obtain ⟨source, hmoves⟩ := h
    exact saved_running hmoves
  | findSteps e =>
    obtain ⟨rfl, rfl⟩ := Prod.mk.inj (Option.some.inj hq)
    exact Running.nextStep h _
  | saveIndex e step rest =>
    obtain ⟨rfl, rfl⟩ := Prod.mk.inj (Option.some.inj hq)
    -- what is stored by now is the state of the entity, whoever saved before
    have hsaved : Running e.saved := ⟨h.state, h.state⟩
    exact hsaved.executeStep
  | startStep e step rest =>
    simp only [Point.resume] at hq
    split at hq <;> obtain ⟨rfl, rfl⟩ := Prod.mk.inj (Option.some.inj hq)
    · exact h
    · exact h
  | saveKey e step rest =>
    obtain ⟨rfl, rfl⟩ := Prod.mk.inj (Option.some.inj hq)
    exact h
  | execute e step rest =>
    obtain ⟨rfl, rfl⟩ := Prod.mk.inj (Option.some.inj hq)
    exact Running.afterHandler h
  | saveStepCompleted e step rest =>
    obtain ⟨rfl, rfl⟩ := Prod.mk.inj (Option.some.inj hq)
    exact Running.nextStep h _
  | saveRetry e step rest =>
    obtain ⟨rfl, rfl⟩ := Prod.mk.inj (Option.some.inj hq)
    exact h
  | delay e step rest =>
    simp only [Point.resume] at hq
    split at hq
    · obtain ⟨rfl, rfl⟩ := Prod.mk.inj (Option.some.inj hq)
      exact Running.executeStep h
    · cases hq
  | saveStepFailed e step error =>
    obtain ⟨rfl, rfl⟩ := Prod.mk.inj (Option.some.inj hq)
    exact Running.fail h
  | saveRetried e =>
    -- the executor is called with the entity as it was just saved
    obtain ⟨source, hmoves⟩ := h
    have hsaved := saved_running hmoves
    simp only [Point.resume] at hq
    split at hq <;> obtain ⟨rfl, rfl⟩ := Prod.mk.inj (Option.some.inj hq)
    · exact ⟨hsaved.persisted, hsaved.state⟩
    · exact tracked_executeWorkflow rfl
  | savePending e step =>
    obtain ⟨rfl, rfl⟩ := Prod.mk.inj (Option.some.inj hq)
    exact tracked_executeWorkflow (h.persisted.trans h.state.symm)
  | retryWorkflow =>
    simp only [Point.resume] at hq
    split at hq <;> obtain ⟨rfl, rfl⟩ := Prod.mk.inj (Option.some.inj hq)
    · rename_i hfailed
      have hstate : db.workflow.state = .failed := of_decide_eq_true hfailed
      exact ⟨.failed, hstate, rfl, rfl⟩
    · trivial
  | recoverWorkflow =>
    simp only [Point.resume] at hq
    split at hq
    · rename_i hrunning
      split at hq <;> obtain ⟨rfl, rfl⟩ := Prod.mk.inj (Option.some.inj hq)
      · exact ⟨hrunning.1, rfl, rfl⟩
      · exact tracked_executeWorkflow rfl
    · obtain ⟨rfl, rfl⟩ := Prod.mk.inj (Option.some.inj hq)
      trivial
  | cancelWorkflow =>
    simp only [Point.resume] at hq
    split at hq <;> obtain ⟨rfl, rfl⟩ := Prod.mk.inj (Option.some.inj hq)
    · trivial
    · rename_i hallowed
      exact ⟨_, rfl, rfl, transitionWorkflow_eq_ok.mp hallowed⟩
  | finished => cases hq
  | threw error => cases hq
  | saveCompleted e | saveFailed e | saveRecovered e | saveCancelled e =>
    obtain ⟨rfl, rfl⟩ := Prod.mk.inj (Option.some.inj hq)
    trivial

/-! ## What a step stores -/

/-- A step leaves the stored state of the workflow, or stores the one of its entity. -/
theorem state_of_resume (hq : p.resume definition now input db = some (q, db')) :
    db'.workflow.state = db.workflow.state ∨
      ∃ e ∈ p.acts, db'.workflow.state = e.workflow.state := by
  cases p with
  | saveRunning e | saveIndex e step rest | saveCompleted e | saveFailed e | saveRecovered e
  | saveCancelled e =>
    obtain ⟨rfl, rfl⟩ := Prod.mk.inj (Option.some.inj hq)
    exact .inr ⟨e, rfl, Database.state_save ..⟩
  | saveRetried e =>
    simp only [Point.resume] at hq
    split at hq <;> obtain ⟨rfl, rfl⟩ := Prod.mk.inj (Option.some.inj hq)
    · exact .inr ⟨e, rfl, Database.state_save ..⟩
    · exact .inr ⟨e, rfl, Database.state_save ..⟩
  | startStep e step rest | retryWorkflow | delay e step rest =>
    simp only [Point.resume] at hq
    split at hq
    · obtain ⟨rfl, rfl⟩ := Prod.mk.inj (Option.some.inj hq)
      exact .inl rfl
    · cases hq <;> exact .inl rfl
  | recoverWorkflow =>
    simp only [Point.resume] at hq
    split at hq
    · split at hq <;> obtain ⟨rfl, rfl⟩ := Prod.mk.inj (Option.some.inj hq) <;> exact .inl rfl
    · obtain ⟨rfl, rfl⟩ := Prod.mk.inj (Option.some.inj hq)
      exact .inl rfl
  | cancelWorkflow =>
    simp only [Point.resume] at hq
    split at hq <;> obtain ⟨rfl, rfl⟩ := Prod.mk.inj (Option.some.inj hq) <;> exact .inl rfl
  | finished => cases hq
  | threw error => cases hq
  | _ =>
    obtain ⟨rfl, rfl⟩ := Prod.mk.inj (Option.some.inj hq)
    exact .inl rfl

/-- The entity that a step saves is in its persisted state, or in one that is allowed after it. -/
theorem Tracked.allowed (h : Tracked p) (he : e ∈ p.acts) :
    e.workflow.state = e.persisted ∨ canTransitionWorkflow e.persisted e.workflow.state = true := by
  cases p with
  | saveRunning e' | saveRetried e' | saveCancelled e' =>
    obtain rfl := Option.some.inj he
    obtain ⟨source, hmoves⟩ := h
    exact .inr (by rw [hmoves.persisted, hmoves.state]; exact hmoves.allowed)
  | saveIndex e' _ _ | startStep e' _ _ =>
    obtain rfl := Option.some.inj he
    exact .inl (h.state.trans h.persisted.symm)
  | saveCompleted e' | saveFailed e' | saveRecovered e' =>
    obtain rfl := Option.some.inj he
    exact .inr (by rw [h.persisted, h.state]; exact h.allowed)
  | _ => cases he

/-- No entity of a cancelled workflow is saved. -/
theorem Tracked.persisted_ne_cancelled (h : Tracked p) (he : e ∈ p.acts) :
    e.persisted ≠ .cancelled := by
  intro hcancelled
  cases p with
  | saveRunning e' | saveRetried e' | saveCancelled e' =>
    obtain rfl := Option.some.inj he
    obtain ⟨source, hmoves⟩ := h
    obtain rfl := hmoves.persisted.symm.trans hcancelled
    exact absurd hmoves.allowed (by decide)
  | saveIndex e' _ _ | startStep e' _ _ =>
    obtain rfl := Option.some.inj he
    cases h.persisted.symm.trans hcancelled
  | saveCompleted e' | saveFailed e' | saveRecovered e' =>
    obtain rfl := Option.some.inj he
    cases h.persisted.symm.trans hcancelled
  | _ => cases he

/-! ## Runs -/

/-- What the tasks know of their entities. -/
def Sound (w : Tasks Database Point) : Prop := ∀ p ∈ w.points, Tracked p

theorem Sound.start (h : Sound ⟨db, points⟩) (hp : (workflowCalls definition).starts db p = true) :
    Sound ⟨db, points ++ [p]⟩ := by
  apply forall_mem_start h
  cases p with
  | findWorkflow | retryWorkflow | recoverWorkflow | cancelWorkflow => trivial
  | _ => cases hp

theorem Sound.step (h : Sound ⟨db, points⟩) (hp : points[i]? = some p)
    (hq : p.resume definition now input db = some (q, db')) : Sound ⟨db', points.set i q⟩ :=
  forall_mem_step h ((h p (List.mem_of_getElem? hp)).step hq)

/-- A commit that is up to date changes the state by an allowed transition, if at all, and leaves a
cancelled workflow cancelled, of which it starts no step. -/
theorem allowed_of_upToDate {c : Commit (Tasks Database Point) (Move Point Input) Unit}
    (hbefore : Sound c.before) (hG : Async.OnStep UpToDate c)
    (he : (workflowCalls definition).contract.exec c.time c.call c.before =
      .ok (c.result, c.after)) :
    AllowedChange c ∧ (c.before.shared.workflow.state = .cancelled →
      c.after.shared.workflow.state = .cancelled ∧ ¬ StartsStep c) := by
  obtain ⟨t, call, r, before, after⟩ := c
  have hmove : (workflowCalls definition).Step t before call after := Async.step_of_exec he
  cases hmove with
  | start _ =>
    refine ⟨.inl rfl, fun hcancelled => ⟨hcancelled, ?_⟩⟩
    rintro ⟨i, input, e, step, rest, hcall, -⟩
    cases hcall
  | @resume i input p q db' hp hq =>
    have htracked := hbefore p (List.mem_of_getElem? hp)
    have hup := hG p hp
    constructor
    · rcases state_of_resume hq with hsame | ⟨e, he, hstate⟩
      · exact .inl hsame
      · -- the stored state is the persisted one of the entity, from which it was checked
        rcases hup e he with hpersisted | hsame
        · rcases htracked.allowed he with hstill | hallowed
          · exact .inl (hstate.trans (hstill.trans hpersisted.symm))
          · have hchange :
                canTransitionWorkflow before.shared.workflow.state db'.workflow.state := by
              rw [hstate, show before.shared.workflow.state = e.persisted from hpersisted]
              exact hallowed
            exact .inr hchange
        · exact .inl (hstate.trans hsame.symm)
    · intro hcancelled
      have hkeep : ∀ e ∈ p.acts, e.workflow.state = .cancelled := by
        intro e he
        rcases hup e he with hpersisted | hsame
        · exact absurd (hpersisted.symm.trans hcancelled) (htracked.persisted_ne_cancelled he)
        · exact hsame.symm.trans hcancelled
      constructor
      · rcases state_of_resume hq with hsame | ⟨e, he, hstate⟩
        · exact hsame.trans hcancelled
        · exact hstate.trans (hkeep e he)
      · rintro ⟨j, input', e, step, rest, hcall, hpoint⟩
        obtain ⟨rfl, rfl⟩ := Move.resume.inj hcall
        obtain rfl := Option.some.inj (hp.symm.trans hpoint)
        cases htracked.state.symm.trans (hkeep e rfl)

/-- **Cancellation.** In a run in which a workflow is saved, and a step of it started, only while
its stored state is that of the entity, every change of the state is an allowed transition, and
from the moment it is cancelled on it stays so, and no step is started. -/
theorem cancellation_final {definition : Option (List String)} {t₀ : ℕ} {db : Database}
    {w : World (Tasks Database Point)} {log : Async.Log Database Point Input}
    (h : (workflowCalls definition).contract.Run ⟨t₀, ⟨db, []⟩⟩ w log)
    (hG : ∀ c ∈ log, Async.OnStep UpToDate c) :
    (∀ c ∈ log, AllowedChange c) ∧ log.Pairwise StaysCancelled := by
  obtain ⟨-, hlog⟩ := Async.invariant (I := Sound) (fun _ _ _ hs hp => hs.start hp)
    (fun _ _ _ _ _ _ _ _ hs hp _ hq => hs.step hp hq) h
    (fun _ hp => absurd hp List.not_mem_nil) hG
  have hcommit : ∀ c ∈ log, AllowedChange c ∧ (c.before.shared.workflow.state = .cancelled →
      c.after.shared.workflow.state = .cancelled ∧ ¬ StartsStep c) := fun c hc =>
    allowed_of_upToDate (hlog c hc).1 (hG c hc) (h.exec_of_mem c hc)
  refine ⟨fun c hc => (hcommit c hc).1, ?_⟩
  -- once a commit left the workflow cancelled it is so at the end of the run
  refine (h.invariant_log (I := fun _ s log =>
    (∀ c ∈ log, c.before.shared.workflow.state = .cancelled →
      c.after.shared.workflow.state = .cancelled ∧ ¬ StartsStep c) →
    (∀ c ∈ log, c.after.shared.workflow.state = .cancelled → s.shared.workflow.state = .cancelled) ∧
      log.Pairwise StaysCancelled) (fun _ => ⟨by simp, List.Pairwise.nil⟩)
    (fun _ _ _ _ _ hs => by exact hs) ?_ fun c hc => (hcommit c hc).2).2
  intro t call r before after log ih _ hstays
  rw [List.forall_mem_append, List.forall_mem_singleton] at hstays
  obtain ⟨hend, hpairs⟩ := ih hstays.1
  constructor
  · rw [List.forall_mem_append, List.forall_mem_singleton]
    exact ⟨fun c hc hcancelled => (hstays.2 (hend c hc hcancelled)).1, id⟩
  · rw [List.pairwise_append]
    refine ⟨hpairs, List.pairwise_singleton .., fun c hc c' hc' hcancelled => ?_⟩
    obtain rfl := List.mem_singleton.mp hc'
    exact hstays.2 (hend c hc hcancelled)

/-- A workflow of one step that is not retried. -/
def sampleWorkflow : Database where
  workflow := ⟨"wf", "reward_grant", .pending, 0, none, none, none, none, 0, false, false, 0⟩
  steps := [⟨"grant", 0, .pending, none, 0, 1, none, none, none, none, none, false, false, none,
    false, none⟩]

def sampleFailure : Input := ⟨.error "timeout", "", 0⟩

/-- The execution fails, the workflow is cancelled, and another execution is refused. -/
def cancelAfterFailure : List (ℕ × Move Point Input) :=
  (0, .start .findWorkflow) :: List.replicate 8 (1, .resume 0 sampleFailure) ++
    [(2, .start .cancelWorkflow), (2, .resume 1 sampleFailure), (2, .resume 1 sampleFailure),
      (3, .start .findWorkflow), (3, .resume 2 sampleFailure)]

theorem cancellation_final_sample :
    let run := (workflowCalls (some ["grant"])).contract.play ⟨0, ⟨sampleWorkflow, []⟩⟩
      cancelAfterFailure
    run.1.store.shared.workflow.state = .cancelled ∧ (∀ c ∈ run.2, AllowedChange c) ∧
      run.2.Pairwise StaysCancelled :=
  ⟨by decide, cancellation_final (Contract.run_play _ _ cancelAfterFailure (by decide))
    (by decide)⟩

/-- The workflow is cancelled while its first step is about to be executed. -/
def cancelDuringExecution : List (ℕ × Move Point Input) :=
  (0, .start .findWorkflow) :: List.replicate 3 (1, .resume 0 sampleFailure) ++
    [(2, .start .cancelWorkflow), (2, .resume 1 sampleFailure), (2, .resume 1 sampleFailure),
      (3, .resume 0 sampleFailure)]

/-- The cancelled workflow is running again, though it was only executed and cancelled. -/
theorem cancellation_overwritten :
    ¬ ∀ definition db w log, (workflowCalls definition).contract.Run ⟨0, ⟨db, []⟩⟩ w log →
      (∀ c ∈ log, c.call ≠ .start .retryWorkflow ∧ c.call ≠ .start .recoverWorkflow) →
      (∀ c ∈ log, AllowedChange c) ∧ log.Pairwise StaysCancelled := by
  intro hall
  obtain ⟨-, hpairs⟩ := hall (some ["grant"]) sampleWorkflow _ _
    (Contract.run_play (workflowCalls (some ["grant"])).contract ⟨0, ⟨sampleWorkflow, []⟩⟩
      cancelDuringExecution (by decide)) (by decide)
  obtain ⟨pre, c, c', hlog, hcancelled, hrunning⟩ : ∃ pre c c',
      ((workflowCalls (some ["grant"])).contract.play ⟨0, ⟨sampleWorkflow, []⟩⟩
        cancelDuringExecution).2 = pre ++ [c, c'] ∧
      c.after.shared.workflow.state = .cancelled ∧ c'.after.shared.workflow.state = .running :=
    ⟨_, _, _, (List.take_append_drop 6 _).symm, by decide, by decide⟩
  rw [hlog, List.pairwise_append] at hpairs
  have hstays := (List.pairwise_cons.mp hpairs.2.1).1 c' (List.mem_singleton_self c') hcancelled
  rw [hrunning] at hstays
  cases hstays.1

end Stellara.Workflows
