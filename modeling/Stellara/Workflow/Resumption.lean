import Stellara.Workflow.Execution

/-!
# Retry and recovery of workflows

Retry and recovery are to resume a workflow at its first step that is not completed. Both call the
executor with a workflow that is marked as running, and the executor refuses it, since running is
no state from which a workflow can start to run. So a retry leaves every workflow running, and so
does a recovery, unless a step had failed, when it marks the workflow as failed.

## Main definitions

* `Resumes`: the call executes the steps that are not completed, and leaves the workflow completed
  or failed, by allowed transitions

## Main results

* `executeWorkflow_of_running`: the executor refuses a running workflow
* `resumes_iff`: only a recovery of a workflow with a failed step does what it is to do
-/

namespace Stellara.Workflows

variable {definition : Option (List String)} {now t₀ : ℕ} {input : Input} {db db' db'' : Database}
  {p q : Point} {e : Entity}

/-! ## Properties -/

/-- The step of the workflow whose handler is called. -/
def executed (c : Commit (Tasks Database Point) (Move Point Input) Unit) : Option ℕ :=
  match c.call with
  | .start _ => none
  | .resume i _ =>
    match c.before.points[i]? with
    | some (.execute _ step _) => some step.stepIndex
    | _ => none

/-- The states of the workflow and of its steps change by allowed transitions, if at all. -/
structure AllowedChanges (db db' : Database) : Prop where
  workflow : db'.workflow.state = db.workflow.state ∨
    canTransitionWorkflow db.workflow.state db'.workflow.state = true
  steps : ∀ (k : ℕ) (step step' : WorkflowStep), db.steps[k]? = some step →
    db'.steps[k]? = some step' →
    step'.state = step.state ∨ canTransitionStep step.state step'.state = true

/-- The call resumed the workflow: it executed steps that were not completed, from the first one on,
and the workflow is completed where all its steps are, and failed otherwise. -/
structure Resumes (db : Database) (w : Tasks Database Point)
    (log : Async.Log Database Point Input) : Prop where
  skips : ∀ i ∈ log.filterMap executed, ∀ step ∈ db.steps, step.stepIndex = i →
    step.state ≠ .completed
  first : ∀ i ∈ (log.filterMap executed).head?, ∃ step,
    db.findSteps.find? (fun step => step.state ≠ .completed) = some step ∧ step.stepIndex = i
  outcome : w.shared.workflow.state =
    if ∀ step ∈ w.shared.steps, step.state = .completed then .completed else .failed
  allowed : ∀ c ∈ log, AllowedChanges c.before.shared c.after.shared

/-- The call is a retry of a failed workflow, or the recovery of one that was left running. -/
inductive Resumption (t₀ : ℕ) (db : Database) : Point → Prop
  | retry : db.workflow.state = .failed → Resumption t₀ db .retryWorkflow
  | recover : db.workflow.state = .running → db.workflow.updatedAt + stalenessThreshold ≤ t₀ →
      Resumption t₀ db .recoverWorkflow

/-- A step of the workflow has failed. -/
def HasFailedStep (db : Database) : Prop := ∃ step ∈ db.steps, step.state = .failed

/-! ## Calls -/

/-- The executor refuses a workflow that is running. -/
theorem executeWorkflow_of_running (h : e.workflow.state = .running) :
    ∃ error, executeWorkflow definition now e = .threw error := by
  unfold executeWorkflow
  split
  · exact ⟨_, rfl⟩
  · rw [h]
    exact ⟨_, rfl⟩

/-- How far a retry has come. -/
inductive Retrying (db : Database) : Database → Point → Prop
  | called : Retrying db db .retryWorkflow
  | reset {e : Entity} : e.workflow.state = .running → Retrying db db (.saveRetried e)
  | pending {db' : Database} {e : Entity} {step : WorkflowStep} :
      db'.workflow.state = .running → e.workflow.state = .running →
      Retrying db db' (.savePending e step)
  | threw {db' : Database} {error : String} : db'.workflow.state = .running →
      Retrying db db' (.threw error)

theorem Retrying.step (h : Retrying db db' p) (hfailed : db.workflow.state = .failed)
    (hq : p.resume definition now input db' = some (q, db'')) : Retrying db db'' q := by
  cases h with
  | called =>
    have hrecoverable : isWorkflowRecoverable db.loadWithSteps.workflow.state = true :=
      decide_eq_true hfailed
    simp only [Point.resume, hrecoverable, if_true] at hq
    obtain ⟨rfl, rfl⟩ := Prod.mk.inj (Option.some.inj hq)
    exact .reset rfl
  | @reset e hrunning =>
    -- with or without a failed step the executor is called for a running workflow
    simp only [Point.resume] at hq
    split at hq <;> obtain ⟨rfl, rfl⟩ := Prod.mk.inj (Option.some.inj hq)
    · exact .pending ((Database.state_save ..).trans hrunning) hrunning
    · obtain ⟨error, hthrew⟩ := executeWorkflow_of_running
        (e := e.saved) hrunning
      rw [hthrew]
      exact .threw ((Database.state_save ..).trans hrunning)
  | @pending _ e step hstored hrunning =>
    obtain ⟨rfl, rfl⟩ := Prod.mk.inj (Option.some.inj hq)
    obtain ⟨error, hthrew⟩ := executeWorkflow_of_running
      hrunning
    rw [hthrew]
    exact .threw hstored
  | threw _ => cases hq

/-- How far a recovery has come. -/
inductive Recovering (db : Database) : Database → Point → Prop
  | called : Recovering db db .recoverWorkflow
  | threw {error : String} : ¬ HasFailedStep db → Recovering db db (.threw error)
  | failing {e : Entity} : HasFailedStep db → e.workflow.state = .failed →
      e.steps = some db.steps → Recovering db db (.saveRecovered e)
  | failed {db' : Database} : HasFailedStep db → db'.workflow.state = .failed →
      db'.steps = db.steps → Recovering db db' .finished

theorem AllowedChanges.refl (db : Database) : AllowedChanges db db := by
  refine ⟨.inl rfl, fun k step step' hstep hstep' => .inl ?_⟩
  rw [Option.some.inj (hstep.symm.trans hstep')]

theorem Recovering.step (h : Recovering db db' p) (hrunning : db.workflow.state = .running)
    (hstale : db.workflow.updatedAt + stalenessThreshold ≤ now)
    (hq : p.resume definition now input db' = some (q, db'')) :
    Recovering db db'' q ∧ AllowedChanges db' db'' ∧ ∀ e step rest, p ≠ .execute e step rest := by
  cases h with
  | called =>
    have horphaned : db.loadWithSteps.workflow.state = .running ∧
      db.loadWithSteps.workflow.updatedAt + stalenessThreshold ≤ now := ⟨hrunning, hstale⟩
    simp only [Point.resume, horphaned, and_self, if_true] at hq
    split at hq <;> obtain ⟨rfl, rfl⟩ := Prod.mk.inj (Option.some.inj hq)
    · rename_i hfailed
      obtain ⟨step, hmem, hstep⟩ := List.any_eq_true.mp hfailed
      refine ⟨.failing ⟨step, hmem, of_decide_eq_true hstep⟩ rfl rfl, .refl db, by simp⟩
    · rename_i hnone
      have hnot : ¬ HasFailedStep db := by
        rintro ⟨step, hmem, hstep⟩
        exact hnone (List.any_eq_true.mpr ⟨step, hmem, decide_eq_true hstep⟩)
      refine ⟨?_, .refl db, by simp⟩
      unfold executeWorkflow
      split
      · exact .threw hnot
      · simp only [Database.loadWithSteps, hrunning]
        exact .threw hnot
  | threw _ => cases hq
  | @failing e hfailed hstate hsteps =>
    obtain ⟨rfl, rfl⟩ := Prod.mk.inj (Option.some.inj hq)
    have hsame : (db.save now e).steps = db.steps := by
      rw [Database.save, hsteps]
      rfl
    refine ⟨.failed hfailed ((Database.state_save ..).trans hstate) hsame, ⟨.inr ?_, ?_⟩, by simp⟩
    · rw [Database.state_save, hstate, hrunning]
      rfl
    · rw [hsame]
      exact (AllowedChanges.refl db).steps
  | failed _ _ _ => cases hq

/-! ## Runs -/

section Runs

variable {w : World (Tasks Database Point)} {log : Async.Log Database Point Input}

/-- A retry leaves the workflow running. -/
theorem retry_leaves_running
    (h : (workflowCalls definition).contract.Run ⟨t₀, ⟨db, [.retryWorkflow]⟩⟩ w log)
    (halone : ∀ c ∈ log, ∀ p, c.call ≠ .start p)
    (hidle : (workflowCalls definition).Idle w.store) (hfailed : db.workflow.state = .failed) :
    w.store.shared.workflow.state = .running := by
  obtain ⟨⟨q, hpoints, hphase⟩, -⟩ := Async.alone (I := Retrying db) (P := fun _ => True)
    (fun _ _ _ _ _ _ _ hphase hq => ⟨hphase.step hfailed hq, trivial⟩) h halone .called
  have hend := hidle q (by rw [hpoints]; exact List.mem_singleton_self q) 0 ⟨.ok "", "", 0⟩
    w.store.shared
  cases hphase with
  | called =>
    simp only [workflowCalls, Point.resume] at hend
    split at hend <;> cases hend
  | reset _ =>
    simp only [workflowCalls, Point.resume] at hend
    split at hend <;> cases hend
  | pending _ _ => cases hend
  | threw hrunning => exact hrunning

/-- A recovery executes nothing, and marks the workflow as failed where a step has failed. -/
theorem recover_ends
    (h : (workflowCalls definition).contract.Run ⟨t₀, ⟨db, [.recoverWorkflow]⟩⟩ w log)
    (halone : ∀ c ∈ log, ∀ p, c.call ≠ .start p)
    (hidle : (workflowCalls definition).Idle w.store) (hrunning : db.workflow.state = .running)
    (hstale : db.workflow.updatedAt + stalenessThreshold ≤ t₀) :
    (¬ HasFailedStep db ∧ w.store.shared = db ∨
      HasFailedStep db ∧ w.store.shared.workflow.state = .failed ∧
        w.store.shared.steps = db.steps) ∧
    ∀ c ∈ log, AllowedChanges c.before.shared c.after.shared ∧ executed c = none := by
  obtain ⟨⟨q, hpoints, hphase⟩, hlog⟩ := Async.alone (I := Recovering db)
    (P := fun c => AllowedChanges c.before.shared c.after.shared ∧ executed c = none)
    (fun t input p q s s' ht hphase hq => by
      obtain ⟨hphase', hallowed, hnot⟩ := hphase.step hrunning (hstale.trans ht) hq
      refine ⟨hphase', hallowed, ?_⟩
      cases p with
      | execute e step rest => exact absurd rfl (hnot e step rest)
      | _ => rfl) h halone .called
  refine ⟨?_, hlog⟩
  have hend := hidle q (by rw [hpoints]; exact List.mem_singleton_self q) 0 ⟨.ok "", "", 0⟩
    w.store.shared
  cases hphase with
  | called =>
    simp only [workflowCalls, Point.resume] at hend
    split at hend
    · split at hend <;> cases hend
    · cases hend
  | threw hnot => exact .inl ⟨hnot, rfl⟩
  | failing _ _ _ => cases hend
  | failed hfailed hstate hsteps => exact .inr ⟨hfailed, hstate, hsteps⟩

/-- **Resumption.** A retry of a failed workflow, or the recovery of one that was left running,
resumes it exactly when it is a recovery, and a step of the workflow has failed. -/
theorem resumes_iff {definition : Option (List String)} (hcall : Resumption t₀ db p)
    (h : (workflowCalls definition).contract.Run ⟨t₀, ⟨db, [p]⟩⟩ w log)
    (halone : ∀ c ∈ log, ∀ p, c.call ≠ .start p)
    (hidle : (workflowCalls definition).Idle w.store) :
    Resumes db w.store log ↔ p = .recoverWorkflow ∧ HasFailedStep db := by
  cases hcall with
  | retry hfailed =>
    have hrunning := retry_leaves_running h halone hidle hfailed
    constructor
    · intro hresumes
      have houtcome := hresumes.outcome
      rw [hrunning] at houtcome
      split at houtcome <;> cases houtcome
    · rintro ⟨hp, -⟩
      cases hp
  | recover hrunning hstale =>
    obtain ⟨hend, hlog⟩ := recover_ends h halone hidle hrunning hstale
    -- nothing is executed, so all depends on the state that is left
    have hnone : log.filterMap executed = [] :=
      List.filterMap_eq_nil_iff.mpr fun c hc => (hlog c hc).2
    rcases hend with ⟨hnot, hsame⟩ | ⟨hfailed, hstate, hsteps⟩
    · constructor
      · intro hresumes
        have houtcome := hresumes.outcome
        rw [hsame, hrunning] at houtcome
        split at houtcome <;> cases houtcome
      · exact fun hp => absurd hp.2 hnot
    · refine ⟨fun _ => ⟨rfl, hfailed⟩, fun _ => ⟨by simp [hnone], by simp [hnone], ?_, fun c hc =>
        (hlog c hc).1⟩⟩
      rw [hstate, if_neg]
      intro hall
      obtain ⟨step, hmem, hstep⟩ := hfailed
      have hcompleted := hall step (hsteps ▸ hmem)
      rw [hstep] at hcompleted
      cases hcompleted

/-- A workflow whose first step completed and whose second one failed. -/
def stoppedWorkflow (state : WorkflowState) : Database where
  workflow := ⟨"wf", "trade_execution", state, 1, some 0, none, none, none, 0, false, false, 0⟩
  steps := [⟨"quote", 0, .completed, some "q", 0, 3, none, none, none, none, none, false, false,
      none, false, none⟩,
    ⟨"trade", 1, .failed, none, 3, 3, none, none, none, none, none, false, false, none, false,
      none⟩]

def resumeCall : List (ℕ × Move Point Input) :=
  List.replicate 3 (stalenessThreshold, .resume 0 ⟨.ok "done", "", 0⟩)

theorem alone_resumeCall (p : Point) (db : Database) :
    ∀ c ∈ ((workflowCalls (some ["quote", "trade"])).contract.play ⟨stalenessThreshold, ⟨db, [p]⟩⟩
      resumeCall).2, ∀ p', c.call ≠ .start p' := by
  intro c hc p' hcall
  have hmem := Contract.call_mem_of_mem_play _ hc
  rw [hcall] at hmem
  simp [resumeCall] at hmem

/-- The recovery of a workflow with a failed step. -/
def recoveryRun : World (Tasks Database Point) × Async.Log Database Point Input :=
  (workflowCalls (some ["quote", "trade"])).contract.play
    ⟨stalenessThreshold, ⟨stoppedWorkflow .running, [.recoverWorkflow]⟩⟩ resumeCall

theorem resumes_iff_sample :
    Resumes (stoppedWorkflow .running) recoveryRun.1.store recoveryRun.2 := by
  have hrun : (workflowCalls (some ["quote", "trade"])).contract.Run
      ⟨stalenessThreshold, ⟨stoppedWorkflow .running, [.recoverWorkflow]⟩⟩ recoveryRun.1
      recoveryRun.2 := Contract.run_play _ _ _ (by decide)
  have hpoints : recoveryRun.1.store.points = [.finished] := by decide
  have hidle : (workflowCalls (some ["quote", "trade"])).Idle recoveryRun.1.store := by
    intro p hp now input s
    rw [hpoints] at hp
    obtain rfl := List.mem_singleton.mp hp
    rfl
  have hcall : Resumption stalenessThreshold (stoppedWorkflow .running) .recoverWorkflow :=
    .recover rfl (by simp [stoppedWorkflow])
  refine (resumes_iff hcall hrun (alone_resumeCall _ _) hidle).mpr ⟨rfl, ?_⟩
  exact ⟨_, List.mem_cons_of_mem _ (List.mem_singleton_self _), rfl⟩

/-- A retry leaves the failed workflow running, with nothing executed. -/
theorem retry_refused :
    ¬ ∀ definition t₀ db p w log, Resumption t₀ db p →
      (workflowCalls definition).contract.Run ⟨t₀, ⟨db, [p]⟩⟩ w log →
      (∀ c ∈ log, ∀ p, c.call ≠ .start p) → (workflowCalls definition).Idle w.store →
      Resumes db w.store log := by
  intro hall
  have hpoints : ((workflowCalls (some ["quote", "trade"])).contract.play
      ⟨stalenessThreshold, ⟨stoppedWorkflow .failed, [.retryWorkflow]⟩⟩ resumeCall).1.store.points =
      [.threw "Cannot start workflow: Invalid workflow state transition from running to running"] :=
    by decide
  have hidle : (workflowCalls (some ["quote", "trade"])).Idle
      ((workflowCalls (some ["quote", "trade"])).contract.play
        ⟨stalenessThreshold, ⟨stoppedWorkflow .failed, [.retryWorkflow]⟩⟩ resumeCall).1.store := by
    intro p hp now input s
    rw [hpoints] at hp
    obtain rfl := List.mem_singleton.mp hp
    rfl
  have hresumes := hall _ _ _ _ _ _ (.retry rfl) (Contract.run_play
    (workflowCalls (some ["quote", "trade"])).contract
    ⟨stalenessThreshold, ⟨stoppedWorkflow .failed, [.retryWorkflow]⟩⟩ resumeCall (by decide))
    (alone_resumeCall _ _) hidle
  exact absurd hresumes.outcome (by decide)

end Runs

end Stellara.Workflows
