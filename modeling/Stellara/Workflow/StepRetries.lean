import Stellara.Workflow.Resumption

/-!
# The retries of a step

A step that failed is executed again, from the handler of the exception, as long as its counter of
retries is below the maximum. The counter is a column of the step, which is saved with the failure,
and the step is failed when it starts to run again.

The execution of a step is followed from its start until the executor goes on with the next step, or
handles the error of this one. It is alone, and the row of the step is the one that it was called
with.

## Main definitions

* `Point.inStep`: the execution of the step goes on
* `callBound`: how often the handler can be called
* `handlerCalls`: what the calls of the handler returned, in order
* `Phase`: how far an execution has come, after some calls of the handler
* `StepExecution`: what holds of an execution throughout, and when it has ended

## Main results

* `Phase.resume`: what a step of an execution does
* `step_execution`: every execution calls the handler until it succeeds, or as often as it may
-/

namespace Stellara.Workflows

variable {definition : Option (List String)} {now t₀ : ℕ} {input : Input} {db db' : Database}
  {p q : Point} {e : Entity} {step prev : WorkflowStep} {rest : List WorkflowStep}

/-! ## Properties -/

/-- The task is between the start of `executeStep` and its end. -/
def Point.inStep : Point → Bool
  | .startStep _ _ _ | .saveKey _ _ _ | .execute _ _ _ | .saveStepCompleted _ _ _
  | .saveRetry _ _ _ | .delay _ _ _ | .saveStepFailed _ _ _ => true
  | _ => false

/-- The handler can be called as often as retries are left, and at least once. -/
def callBound (step : WorkflowStep) : ℕ := max 1 (step.maxRetries - step.retryCount)

/-- What the handler returns, if it is called next. -/
def Point.outcome (definition : Option (List String)) (input : Input) :
    Point → Option (Except String String)
  | .execute _ step _ => some (runHandler definition input.outcome step)
  | _ => none

/-- What the handler returned, if the step called it. -/
def handlerCall (definition : Option (List String))
    (c : Commit (Tasks Database Point) (Move Point Input) Unit) : Option (Except String String) :=
  match c.call with
  | .start _ => none
  | .resume i input => c.before.points[i]?.bind (Point.outcome definition input)

def handlerCalls (definition : Option (List String)) (log : Async.Log Database Point Input) :
    List (Except String String) :=
  log.filterMap (handlerCall definition)

/-- The row of the step is stored. -/
structure Stores (db : Database) (step : WorkflowStep) : Prop where
  mem : step ∈ db.steps
  unique : ∀ row ∈ db.steps, row.stepIndex = step.stepIndex → row = step

/-- All of the calls failed. -/
def AllFailed (calls : List (Except String String)) : Prop :=
  ∀ outcome ∈ calls, ∃ error : String, outcome = Except.error error

/-- The execution has ended with the output of the last call, or with the error of the last one that
it could make. -/
inductive Ended (e : Entity) (step : WorkflowStep) (rest : List WorkflowStep) :
    Database → Point → List (Except String String) → Prop
  | completed {db : Database} {now : ℕ} {stored : WorkflowStep} {failed : List (Except String String)}
      {output : String} : AllFailed failed → Stores db stored → stored.stepIndex = step.stepIndex →
      stored.state = .completed → stored.output = some output →
      Ended e step rest db (nextStep now e rest) (failed ++ [.ok output])
  | threw {db : Database} {now : ℕ} {stored : WorkflowStep} {failed : List (Except String String)}
      {error : String} : AllFailed failed → failed.length + 1 = callBound step →
      Stores db stored → stored.stepIndex = step.stepIndex → stored.state = .failed →
      Ended e step rest db (fail now e
        s!"Step {step.stepName} failed after {step.retryCount + callBound step} retries: {error}")
        (failed ++ [.error error])

/-- What holds of the execution of a step. -/
structure StepExecution (definition : Option (List String)) (e : Entity) (step : WorkflowStep)
    (rest : List WorkflowStep) (w : Tasks Database Point) (log : Async.Log Database Point Input) :
    Prop where
  /-- It takes finitely many steps, -/
  length_le : log.length ≤ 5 * callBound step
  /-- with no more calls of the handler than there can be, -/
  calls_le : (handlerCalls definition log).length ≤ callBound step
  /-- which stop at the first success. -/
  stops : AllFailed (handlerCalls definition log).dropLast
  /-- The states of the step change by allowed transitions. -/
  allowed : ∀ c ∈ log, AllowedChanges c.before.shared c.after.shared
  /-- It goes on from some time on, or has ended. -/
  progress : ∃ p, w.points = [p] ∧
    ((∃ t, ∀ t' input, t ≤ t' → (p.resume definition t' input w.shared).isSome = true) ∧
        p.inStep = true ∨
      Ended e step rest w.shared p (handlerCalls definition log))

/-! ## Rows -/

theorem mem_saveStep {row : WorkflowStep} : row ∈ (db.saveStep step).steps ↔
    ∃ old ∈ db.steps, (if old.stepIndex = step.stepIndex then step else old) = row :=
  List.mem_map

/-- The row that a step is saved in holds the step. -/
theorem Stores.saveStep (h : Stores db prev) (hindex : step.stepIndex = prev.stepIndex) :
    Stores (db.saveStep step) step := by
  constructor
  · exact mem_saveStep.mpr ⟨prev, h.mem, if_pos hindex.symm⟩
  · intro row hrow heq
    obtain ⟨old, -, rfl⟩ := mem_saveStep.mp hrow
    by_cases hold : old.stepIndex = step.stepIndex
    · rw [if_pos hold]
    · rw [if_neg hold] at heq
      exact absurd heq hold

/-- A save of the step changes states as the step did. -/
theorem Stores.allowed (h : Stores db prev) (hindex : step.stepIndex = prev.stepIndex)
    (hstate : step.state = prev.state ∨ canTransitionStep prev.state step.state = true) :
    AllowedChanges db (db.saveStep step) := by
  refine ⟨.inl rfl, ?_⟩
  intro k old new hold hnew
  have hmap : (db.steps.map fun s => if s.stepIndex = step.stepIndex then step else s)[k]? =
    some new := hnew
  rw [List.getElem?_map, hold, Option.map_some, Option.some.injEq] at hmap
  subst hmap
  by_cases heq : old.stepIndex = step.stepIndex
  · rw [if_pos heq, h.unique old (List.mem_of_getElem? hold) (heq.trans hindex)]
    exact hstate
  · rw [if_neg heq]
    exact .inl rfl

/-! ## Phases of an execution -/

/-- The row of the step is stored in a state. -/
def StoredIn (db : Database) (step : WorkflowStep) (state : StepState) : Prop :=
  ∃ row, Stores db row ∧ row.stepIndex = step.stepIndex ∧ row.state = state

/-- The step is executed after some calls of its handler failed. -/
structure StepAttempt (step₀ step : WorkflowStep) (failed : List (Except String String)) :
    Prop where
  stepName : step.stepName = step₀.stepName
  stepIndex : step.stepIndex = step₀.stepIndex
  maxRetries : step.maxRetries = step₀.maxRetries
  retryCount : step.retryCount = step₀.retryCount + failed.length
  allFailed : AllFailed failed
  again : failed = [] ∨ step.retryCount < step.maxRetries

/-- How far the execution of `step₀` has come after some calls of its handler and `n` steps. An
attempt takes five steps at most. -/
inductive Phase (e : Entity) (step₀ : WorkflowStep) (rest : List WorkflowStep) :
    Database → Point → List (Except String String) → ℕ → Prop
  | start {db : Database} {step : WorkflowStep} {state : StepState}
      {failed : List (Except String String)} {n : ℕ} : StepAttempt step₀ step failed →
      step.state = .running → StoredIn db step₀ state → canTransitionStep state .running = true →
      n ≤ 5 * failed.length → Phase e step₀ rest db (.startStep e step rest) failed n
  | key {db : Database} {step : WorkflowStep} {failed : List (Except String String)} {n : ℕ} :
      StepAttempt step₀ step failed → step.state = .running → StoredIn db step₀ .running →
      n ≤ 5 * failed.length + 1 → Phase e step₀ rest db (.saveKey e step rest) failed n
  | execute {db : Database} {step : WorkflowStep} {failed : List (Except String String)} {n : ℕ} :
      StepAttempt step₀ step failed → StoredIn db step₀ .running → n ≤ 5 * failed.length + 2 →
      Phase e step₀ rest db (.execute e step rest) failed n
  | completed {db : Database} {step : WorkflowStep} {failed : List (Except String String)}
      {output : String} {n : ℕ} : AllFailed failed → failed.length < callBound step₀ →
      step.stepIndex = step₀.stepIndex → step.state = .completed → step.output = some output →
      StoredIn db step₀ .running → n ≤ 5 * failed.length + 3 →
      Phase e step₀ rest db (.saveStepCompleted e step rest) (failed ++ [.ok output]) n
  | retry {db : Database} {step : WorkflowStep} {failed : List (Except String String)} {n : ℕ} :
      StepAttempt step₀ step failed → step.state = .failed → StoredIn db step₀ .running →
      n + 2 ≤ 5 * failed.length → Phase e step₀ rest db (.saveRetry e step rest) failed n
  | delay {db : Database} {step : WorkflowStep} {failed : List (Except String String)} {n : ℕ} :
      StepAttempt step₀ step failed → step.state = .failed → StoredIn db step₀ .failed →
      n + 1 ≤ 5 * failed.length → Phase e step₀ rest db (.delay e step rest) failed n
  | exhausted {db : Database} {step : WorkflowStep} {failed : List (Except String String)}
      {error : String} {n : ℕ} : AllFailed failed →
      failed.length + 1 = callBound step₀ → step.stepName = step₀.stepName →
      step.stepIndex = step₀.stepIndex →
      step.retryCount = step₀.retryCount + callBound step₀ → step.state = .failed →
      StoredIn db step₀ .running → n ≤ 5 * failed.length + 3 →
      Phase e step₀ rest db (.saveStepFailed e step error) (failed ++ [.error error]) n
  | ended {db : Database} {p : Point} {calls : List (Except String String)} {n : ℕ} :
      Ended e step₀ rest db p calls → calls.length ≤ callBound step₀ → n ≤ 5 * callBound step₀ →
      Phase e step₀ rest db p calls n

variable {step₀ : WorkflowStep} {failed calls : List (Except String String)} {n : ℕ}
  {state : StepState}

/-- A call can be made in an attempt. -/
theorem StepAttempt.lt_callBound (h : StepAttempt step₀ step failed) :
    failed.length < callBound step₀ := by
  unfold callBound
  rcases h.again with rfl | hagain
  · simp
  · rw [h.retryCount, h.maxRetries] at hagain
    omega

theorem AllFailed.append (h : AllFailed failed) (error : String) :
    AllFailed (failed ++ [.error error]) := by
  intro outcome houtcome
  rcases List.mem_append.mp houtcome with hold | hnew
  · exact h outcome hold
  · exact ⟨error, List.mem_singleton.mp hnew⟩

/-- A save of the step, as it is in the state that is stored or after an allowed transition. -/
theorem StoredIn.save (h : StoredIn db step₀ state) (hindex : step.stepIndex = step₀.stepIndex)
    (hstate : step.state = state ∨ canTransitionStep state step.state = true) :
    Stores (db.saveStep step) step ∧ AllowedChanges db (db.saveStep step) := by
  obtain ⟨row, hstores, hrow, rfl⟩ := h
  exact ⟨hstores.saveStep (hindex.trans hrow.symm), hstores.allowed (hindex.trans hrow.symm) hstate⟩

theorem Ended.inStep (h : Ended e step rest db p calls) : p.inStep = false := by
  cases h with
  | completed => cases rest <;> rfl
  | threw => rfl

/-- The state machine lets a step run that is pending or failed. -/
theorem executeStep_of_canTransition (h : canTransitionStep step.state .running = true) :
    executeStep now e step rest =
      .startStep e { step with state := .running, startedAt := some now } rest := by
  have htransition : transitionStep step.state .running = .ok () := require_eq_ok.mpr h
  rw [executeStep, htransition]

/-- What follows a call of the handler in an attempt. -/
theorem StepAttempt.afterHandler (h : StepAttempt step₀ step failed)
    (hstored : StoredIn db step₀ .running) (hn : n ≤ 5 * failed.length + 2) (jitter : ℕ)
    (outcome : Except String String) :
    Phase e step₀ rest db (afterHandler now jitter e step rest outcome) (failed ++ [outcome])
      (n + 1) := by
  cases outcome with
  | ok output =>
    exact .completed h.allFailed h.lt_callBound h.stepIndex rfl rfl hstored (by omega)
  | error error =>
    unfold Workflows.afterHandler
    dsimp only
    have hlength : (failed ++ [Except.error error]).length = failed.length + 1 :=
      List.length_append
    split
    · rename_i hretry
      have hbelow : step.retryCount + 1 < step.maxRetries := (of_decide_eq_true hretry).2
      refine .retry ⟨h.stepName, h.stepIndex, h.maxRetries, ?_, h.allFailed.append error,
        .inr hbelow⟩ rfl hstored (by omega)
      rw [hlength, ← Nat.add_assoc, ← h.retryCount]
    · rename_i hretry
      have habove : step.maxRetries ≤ step.retryCount + 1 := by
        by_contra hbelow
        exact hretry (decide_eq_true ⟨rfl, by omega⟩)
      -- the retries are used up with this call, or there were none
      have hbound : failed.length + 1 = callBound step₀ := by
        have hlt := h.lt_callBound
        rw [h.retryCount, h.maxRetries] at habove
        unfold callBound at hlt ⊢
        omega
      refine .exhausted h.allFailed hbound h.stepName h.stepIndex ?_ rfl hstored
        (by omega)
      rw [← hbound, ← Nat.add_assoc, ← h.retryCount]

/-- What a step of the execution does. -/
theorem Phase.resume (h : Phase e step₀ rest db p calls n) (hin : p.inStep = true)
    (hq : p.resume definition now input db = some (q, db')) :
    Phase e step₀ rest db' q (calls ++ (p.outcome definition input).toList) (n + 1) ∧
      AllowedChanges db db' := by
  cases h with
  | @start step state _ _ hattempt hrunning hstored hallowed hn =>
    obtain ⟨hstores, hchanges⟩ := hstored.save hattempt.stepIndex
      (.inr (by rw [hrunning]; exact hallowed))
    simp only [Point.outcome, Option.toList_none, List.append_nil]
    simp only [Point.resume] at hq
    split at hq <;> obtain ⟨rfl, rfl⟩ := Prod.mk.inj (Option.some.inj hq)
    · -- the idempotency key of an idempotent step is saved before the call
      have hkeyed : StoredIn (db.saveStep step) step₀ .running :=
        ⟨step, hstores, hattempt.stepIndex, hrunning⟩
      exact ⟨.key { hattempt with } hrunning hkeyed (by omega), hchanges⟩
    · exact ⟨.execute hattempt ⟨step, hstores, hattempt.stepIndex, hrunning⟩ (by omega), hchanges⟩
  | @key step _ _ hattempt hrunning hstored hn =>
    obtain ⟨hstores, hchanges⟩ := hstored.save hattempt.stepIndex (.inl hrunning)
    simp only [Point.outcome, Option.toList_none, List.append_nil]
    obtain ⟨rfl, rfl⟩ := Prod.mk.inj (Option.some.inj hq)
    exact ⟨.execute hattempt ⟨step, hstores, hattempt.stepIndex, hrunning⟩ (by omega), hchanges⟩
  | execute hattempt hstored hn =>
    obtain ⟨rfl, rfl⟩ := Prod.mk.inj (Option.some.inj hq)
    -- the only step that calls the handler
    exact ⟨hattempt.afterHandler hstored hn _ _, .refl db⟩
  | @completed step _ output _ hfailed hlt hindex hstate houtput hstored hn =>
    obtain ⟨hstores, hchanges⟩ := hstored.save hindex (.inr (by rw [hstate]; rfl))
    simp only [Point.outcome, Option.toList_none, List.append_nil]
    obtain ⟨rfl, rfl⟩ := Prod.mk.inj (Option.some.inj hq)
    refine ⟨.ended (.completed hfailed hstores hindex hstate houtput) ?_ (by omega), hchanges⟩
    rw [List.length_append, List.length_singleton]
    omega
  | @retry step _ _ hattempt hstate hstored hn =>
    obtain ⟨hstores, hchanges⟩ := hstored.save hattempt.stepIndex (.inr (by rw [hstate]; rfl))
    simp only [Point.outcome, Option.toList_none, List.append_nil]
    obtain ⟨rfl, rfl⟩ := Prod.mk.inj (Option.some.inj hq)
    exact ⟨.delay hattempt hstate ⟨step, hstores, hattempt.stepIndex, hstate⟩ (by omega), hchanges⟩
  | @delay step _ _ hattempt hstate hstored hn =>
    simp only [Point.outcome, Option.toList_none, List.append_nil]
    simp only [Point.resume] at hq
    split at hq
    · obtain ⟨rfl, rfl⟩ := Prod.mk.inj (Option.some.inj hq)
      -- a step that failed can run again
      rw [executeStep_of_canTransition (by rw [hstate]; rfl)]
      exact ⟨.start { hattempt with } rfl hstored rfl (by omega), .refl db⟩
    · cases hq
  | @exhausted step failed error _ hfailed hbound hname hindex hcount hstate hstored hn =>
    obtain ⟨hstores, hchanges⟩ := hstored.save hindex (.inr (by rw [hstate]; rfl))
    simp only [Point.outcome, Option.toList_none, List.append_nil]
    obtain ⟨rfl, rfl⟩ := Prod.mk.inj (Option.some.inj hq)
    rw [hname, hcount]
    refine ⟨.ended (.threw hfailed hbound hstores hindex hstate) ?_ (by omega), hchanges⟩
    rw [List.length_append, List.length_singleton]
    omega
  | ended hended _ _ =>
    rw [hended.inStep] at hin
    cases hin

theorem AllFailed.dropLast (h : AllFailed failed) : AllFailed failed.dropLast :=
  fun outcome houtcome => h outcome (List.dropLast_subset _ houtcome)

/-- An attempt after some calls has made no more calls and steps than there can be. -/
theorem StepAttempt.bounds (h : StepAttempt step₀ step failed) (hn : n ≤ 5 * failed.length + 2) :
    n ≤ 5 * callBound step₀ ∧ failed.length ≤ callBound step₀ ∧ AllFailed failed.dropLast := by
  have hlt := h.lt_callBound
  exact ⟨by omega, hlt.le, h.allFailed.dropLast⟩

/-- An execution has made no more calls and steps than there can be. -/
theorem Phase.bounds (h : Phase e step₀ rest db p calls n) :
    n ≤ 5 * callBound step₀ ∧ calls.length ≤ callBound step₀ ∧ AllFailed calls.dropLast := by
  cases h with
  | start hattempt _ _ _ hn | key hattempt _ _ hn | execute hattempt _ hn
  | retry hattempt _ _ hn | delay hattempt _ _ hn => exact hattempt.bounds (by omega)
  | completed hfailed hlt _ _ _ _ hn =>
    rw [List.dropLast_concat, List.length_append, List.length_singleton]
    exact ⟨by omega, hlt, hfailed⟩
  | exhausted hfailed hbound _ _ _ _ _ hn =>
    rw [List.dropLast_concat, List.length_append, List.length_singleton]
    exact ⟨by omega, hbound.le, hfailed⟩
  | ended hended hlength hn =>
    refine ⟨hn, hlength, ?_⟩
    cases hended with
    | completed hfailed | threw hfailed =>
      rw [List.dropLast_concat]
      exact hfailed

/-- An execution goes on from some time on, or has ended. -/
theorem Phase.progress (h : Phase e step₀ rest db p calls n) :
    (∃ t, ∀ t' input, t ≤ t' → (p.resume definition t' input db).isSome = true) ∧
        p.inStep = true ∨ Ended e step₀ rest db p calls := by
  cases h with
  | start =>
    refine .inl ⟨⟨0, fun t' input _ => ?_⟩, rfl⟩
    simp only [Point.resume]
    split <;> rfl
  | @delay step =>
    refine .inl ⟨⟨step.nextRetryAt.getD 0, fun t' input ht => ?_⟩, rfl⟩
    simp only [Point.resume, if_pos ht, Option.isSome_some]
  | key | execute | completed | retry | exhausted =>
    exact .inl ⟨⟨0, fun _ _ _ => rfl⟩, rfl⟩
  | ended hended => exact .inr hended

/-! ## Runs -/

section Runs

variable {w : World (Tasks Database Point)} {log : Async.Log Database Point Input}

/-- The steps of the log are those of the execution of a step. -/
def WithinStep (log : Async.Log Database Point Input) : Prop :=
  ∀ c ∈ log, ∀ p ∈ c.before.points, p.inStep = true

theorem handlerCalls_concat {t : ℕ} {s s' : Database} :
    handlerCalls definition (log ++ [⟨t, .resume 0 input, (), ⟨s, [p]⟩, ⟨s', [q]⟩⟩]) =
      handlerCalls definition log ++ (p.outcome definition input).toList := by
  rw [handlerCalls, List.filterMap_append]
  rfl

/-- **Retries of a step.** The execution of a step that is pending or failed calls the handler until
it succeeds, or as often as retries are left, and leaves the step completed with the output of the
last call, or failed with an error that is thrown. -/
theorem step_execution {definition : Option (List String)}
    (hstate : step.state = .pending ∨ step.state = .failed) (hstored : Stores db step)
    (h : (workflowCalls definition).contract.Run
      ⟨t₀, ⟨db, [executeStep now e step rest]⟩⟩ w log)
    (halone : ∀ c ∈ log, ∀ p, c.call ≠ .start p) (hwithin : WithinStep log) :
    StepExecution definition e step rest w.store log := by
  have htransition : canTransitionStep step.state .running = true := by
    rcases hstate with hstate | hstate <;> rw [hstate] <;> rfl
  have hstart : Phase e step rest db (executeStep now e step rest) [] 0 := by
    rw [executeStep_of_canTransition htransition]
    exact .start ⟨rfl, rfl, rfl, rfl, by simp [AllFailed], .inl rfl⟩ rfl
      ⟨step, hstored, rfl, rfl⟩ htransition (Nat.zero_le _)
  obtain ⟨p, hpoints, hlog⟩ := Async.alone_log
    (I := fun s p log => WithinStep log →
      Phase e step rest s p (handlerCalls definition log) log.length ∧
        ∀ c ∈ log, AllowedChanges c.before.shared c.after.shared)
    (fun t input p q s s' log _ ih hq hwithin => by
      rw [WithinStep, List.forall_mem_append, List.forall_mem_singleton] at hwithin
      obtain ⟨hphase, hallowed⟩ := ih hwithin.1
      obtain ⟨hphase', hchanges⟩ := hphase.resume
        (hwithin.2 p (List.mem_singleton_self p)) hq
      rw [List.length_append, List.length_singleton, handlerCalls_concat, List.forall_mem_append,
        List.forall_mem_singleton]
      exact ⟨hphase', hallowed, hchanges⟩) h halone (fun _ => ⟨hstart, by simp⟩)
  obtain ⟨hphase, hallowed⟩ := hlog hwithin
  obtain ⟨hlength, hcalls, hstops⟩ := hphase.bounds
  exact ⟨hlength, hcalls, hstops, hallowed, p, hpoints, hphase.progress⟩

/-- A trade that failed once, with two retries left. -/
def failedTrade : WorkflowStep :=
  ⟨"trade", 0, .failed, none, 1, 3, none, none, none, none, none, false, false, none, false, none⟩

def tradeWorkflow : Entity :=
  ⟨⟨"wf", "trade_execution", .running, 0, some 0, none, none, none, 0, false, false, 0⟩, none,
    .running⟩

def tradeDatabase : Database := ⟨tradeWorkflow.workflow, [failedTrade]⟩

/-- The trade fails again, and is done after the delay. -/
def retryCalls : List (ℕ × Move Point Input) :=
  [(0, .resume 0 ⟨.ok "", "", 0⟩), (0, .resume 0 ⟨.error "timeout", "", 7⟩),
    (0, .resume 0 ⟨.ok "", "", 0⟩), (4007, .resume 0 ⟨.ok "", "", 0⟩),
    (4007, .resume 0 ⟨.ok "", "", 0⟩), (4007, .resume 0 ⟨.ok "done", "", 0⟩),
    (4007, .resume 0 ⟨.ok "", "", 0⟩)]

def retryRun : World (Tasks Database Point) × Async.Log Database Point Input :=
  (workflowCalls (some ["trade"])).contract.play
    ⟨0, ⟨tradeDatabase, [executeStep 0 tradeWorkflow failedTrade []]⟩⟩ retryCalls

theorem step_execution_sample :
    StepExecution (some ["trade"]) tradeWorkflow failedTrade [] retryRun.1.store retryRun.2 := by
  have hrun : (workflowCalls (some ["trade"])).contract.Run
      ⟨0, ⟨tradeDatabase, [executeStep 0 tradeWorkflow failedTrade []]⟩⟩ retryRun.1 retryRun.2 :=
    Contract.run_play _ _ _ (by decide)
  have halone : ∀ c ∈ retryRun.2, ∀ p, c.call ≠ .start p := by
    intro c hc p hcall
    have hmem := Contract.call_mem_of_mem_play _ hc
    rw [hcall] at hmem
    simp [retryCalls] at hmem
  have hstored : Stores tradeDatabase failedTrade := by
    constructor
    · exact List.mem_singleton_self _
    · exact fun row hrow _ => List.mem_singleton.mp hrow
  exact step_execution (.inr rfl) hstored hrun halone (by unfold WithinStep; decide)

end Runs

end Stellara.Workflows
