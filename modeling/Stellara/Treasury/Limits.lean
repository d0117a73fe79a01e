import Stellara.Lib.SpendWindow
import Stellara.Treasury.Confirmations

/-!
# The spending limits of the treasury

In every configuration of every run, also at the call that an execution makes, the counters of the
day and of the week hold what the executions that stand have spent in them. An execution is
counted before its call is made, so executions from within that call are counted on top of it, and
what is undone is undone in the counters too.

## Main definitions

* `payments`: the times and values of the executions
* `Budgeted`: the counters are right, and the executions respected the limits

## Main results

* `Effect.budgeted`: what a call preserves
* `spending_counted`: every run from the deployment
-/

namespace Stellara.Treasury

open Evm (Bytes Revert)
open SpendWindow (spentIn Counts)

/-- The time and the value of the transaction that a call executed. -/
def payment? (e : Commit State Message (Exit Message)) : Option (ℕ × ℕ) :=
  match e.call.function with
  | .executeTransaction i => (e.before.transactions[i]?).map fun txn => (e.time, txn.value)
  | _ => none

/-- The times and the values of the executed transactions. -/
def payments (log : Log) : List (ℕ × ℕ) := log.filterMap payment?

/-- The counters of the day and of the week are right, and every execution brought them to the
limits of its time at most. -/
structure Budgeted (now : ℕ) (s : State) (log : Log) : Prop where
  daily : Counts day now s.dayWindowStart s.daySpent (payments log)
  weekly : Counts week now s.weekWindowStart s.weekSpent (payments log)
  limits : ∀ e ∈ log, ∀ i, e.call.function = .executeTransaction i →
    (e.before.dailyLimit ≠ 0 → e.after.daySpent ≤ e.before.dailyLimit) ∧
      (e.before.weeklyLimit ≠ 0 → e.after.weekSpent ≤ e.before.weeklyLimit)

section Calls

variable {now now' i : ℕ} {s s' : State} {log : Log} {txn : Transaction} {m : Message}
  {exit : Exit Message} {abi : Abi} {treasury : Evm.Address}
  {e : Commit State Message (Exit Message)}

theorem payments_append : payments (log ++ [e]) = payments log ++ (payment? e).toList := by
  unfold payments
  rw [List.filterMap_append]
  cases h : payment? e <;> simp [h]

/-- Only executions pay. -/
theorem payment?_of_ne (h : ∀ i, e.call.function ≠ .executeTransaction i) : payment? e = none := by
  unfold payment?
  split
  · exact absurd ‹_› (h _)
  · rfl

/-- Time may pass. -/
theorem Budgeted.tick (h : Budgeted now s log) (hle : now ≤ now') : Budgeted now' s log :=
  ⟨h.daily.tick hle, h.weekly.tick hle, h.limits⟩

/-- A call that does not execute, and leaves the counters. -/
theorem Budgeted.quiet (h : Budgeted now s log)
    (hexecute : ∀ i, m.function ≠ .executeTransaction i)
    (hday : s'.dayWindowStart = s.dayWindowStart ∧ s'.daySpent = s.daySpent)
    (hweek : s'.weekWindowStart = s.weekWindowStart ∧ s'.weekSpent = s.weekSpent) :
    Budgeted now s' (log ++ [⟨now, m, exit, s, s'⟩]) := by
  have hpayments : payments (log ++ [⟨now, m, exit, s, s'⟩]) = payments log := by
    rw [payments_append, payment?_of_ne hexecute, Option.toList_none, List.append_nil]
  refine ⟨?_, ?_, ?_⟩
  · rw [hpayments, hday.1, hday.2]
    exact h.daily
  · rw [hpayments, hweek.1, hweek.2]
    exact h.weekly
  · intro e he i hcall
    rcases List.mem_append.mp he with he | he
    · exact h.limits e he i hcall
    · obtain rfl := List.mem_singleton.mp he
      exact absurd hcall (hexecute i)

/-- An execution is counted once, and within the limits. -/
theorem Executed.budgeted (h : Budgeted now s log) (hcall : m.function = .executeTransaction i)
    (hexecuted : Executed abi treasury now i txn s s') :
    Budgeted now s' (log ++ [⟨now, m, exit, s, s'⟩]) := by
  -- the execution pays the value of the transaction, now
  have hpayment : payment? (⟨now, m, exit, s, s'⟩ : Commit State Message (Exit Message)) =
      some (now, txn.value) := by
    unfold payment?
    simp only [hcall, hexecuted.lookup, Option.map_some]
  refine ⟨?_, ?_, ?_⟩
  · rw [payments_append, hpayment, hexecuted.dayWindowStart, hexecuted.daySpent]
    exact h.daily.pay txn.value
  · rw [payments_append, hpayment, hexecuted.weekWindowStart, hexecuted.weekSpent]
    exact h.weekly.pay txn.value
  · intro e he i' hcall'
    rcases List.mem_append.mp he with he | he
    · exact h.limits e he i' hcall'
    · obtain rfl := List.mem_singleton.mp he
      exact ⟨hexecuted.daily, hexecuted.weekly⟩

/-- Every call keeps the counters right. -/
theorem Effect.budgeted (h : Budgeted now s log)
    (heffect : Effect abi treasury now m s s' exit) :
    Budgeted now s' (log ++ [⟨now, m, exit, s, s'⟩]) := by
  cases heffect with
  | executed hcall hexecuted _ => exact hexecuted.budgeted h hcall
  | submitted hcall _ hs | confirmed hcall _ _ _ _ _ hs | revoked hcall _ _ _ _ _ hs
  | limited hcall _ hs | frozen hcall _ hs | unfrozen hcall _ hs | received hcall hs =>
    exact h.quiet (by rw [hcall]; simp) (by simp [hs]) (by simp [hs])
  | viewed hview hs =>
    refine h.quiet (fun i hcall => ?_) (by simp [hs]) (by simp [hs])
    rw [hcall] at hview
    cases hview

end Calls

/-! ## Runs -/

section Runs

variable {abi : Abi} {treasury : Evm.Address} {now required dailyLimit weeklyLimit threshold : ℕ}
  {balance : ℕ} {owners : List Evm.Address} {s₀ : State} {c : Reentrant.Config State Message}
  {made : List Message}

/-- In every configuration of every run from the deployment the counters are right. -/
theorem budgeted_of_run
    (hdeploy : construct now owners required dailyLimit weeklyLimit threshold balance = .ok s₀)
    (h : (contract abi treasury).Run (.initial now s₀) c made) :
    Budgeted c.now c.store c.log := by
  refine h.invariant (I := Budgeted) (J := fun _ => True) (G := fun _ => True)
    (fun _ _ _ _ hle hs => hs.tick hle)
    (fun _ _ _ _ _ _ _ _ hs he => ⟨(enter_effect he).budgeted hs, fun _ _ => trivial⟩)
    (fun _ _ => trivial) rfl ?_
  -- at the deployment nothing is spent in either window
  obtain ⟨-, -, hs⟩ := construct_eq_ok hdeploy
  change Budgeted now s₀ []
  rw [hs]
  exact ⟨SpendWindow.counts_nil, SpendWindow.counts_nil, by simp⟩

/-- **The limits** in every configuration of every run from the deployment: the counters are the
sums of the values that the executions that stand paid in the recorded day and week; these
executions are the transactions that are marked, each once; and each of them brought the
counters to the limits in force at most. -/
theorem spending_counted
    (hdeploy : construct now owners required dailyLimit weeklyLimit threshold balance = .ok s₀)
    (h : (contract abi treasury).Run (.initial now s₀) c made) :
    (c.store.daySpent = spentIn day c.store.dayWindowStart (payments c.log) ∧
        c.store.weekSpent = spentIn week c.store.weekWindowStart (payments c.log)) ∧
      (∀ i, (executionsOf i c.log).length = if c.store.marked i then 1 else 0) ∧
      ∀ e ∈ c.log, ∀ i, e.call.function = .executeTransaction i →
        (e.before.dailyLimit ≠ 0 → e.after.daySpent ≤ e.before.dailyLimit) ∧
          (e.before.weeklyLimit ≠ 0 → e.after.weekSpent ≤ e.before.weeklyLimit) := by
  have hbudget := budgeted_of_run hdeploy h
  exact ⟨⟨hbudget.daily.spent_eq, hbudget.weekly.spent_eq⟩, (sound_of_run hdeploy h).executions,
    hbudget.limits⟩

end Runs

/-- An execution from within the call of another, and a further one that is undone. -/
def nestedActions : List (Reentrant.Action Message) :=
  [.call ⟨1, 0, .submitTransaction 7 15 []⟩, .call ⟨1, 0, .submitTransaction 7 20 []⟩,
    .call ⟨1, 0, .submitTransaction 7 10 []⟩, .call ⟨1, 0, .confirmTransaction 0⟩,
    .call ⟨1, 0, .confirmTransaction 1⟩, .call ⟨1, 0, .confirmTransaction 2⟩, .tick 100,
    .call ⟨8, 0, .executeTransaction 0⟩, .call ⟨8, 0, .executeTransaction 1⟩, .finish,
    .call ⟨8, 0, .executeTransaction 2⟩, .revert, .finish]

theorem spending_counted_sample :
    ((sampleAfter nestedActions).store.daySpent =
          spentIn day (sampleAfter nestedActions).store.dayWindowStart
            (payments (sampleAfter nestedActions).log) ∧
        (sampleAfter nestedActions).store.weekSpent =
          spentIn week (sampleAfter nestedActions).store.weekWindowStart
            (payments (sampleAfter nestedActions).log)) ∧
      (∀ i, (executionsOf i (sampleAfter nestedActions).log).length =
        if (sampleAfter nestedActions).store.marked i then 1 else 0) ∧
      ∀ e ∈ (sampleAfter nestedActions).log, ∀ i, e.call.function = .executeTransaction i →
        (e.before.dailyLimit ≠ 0 → e.after.daySpent ≤ e.before.dailyLimit) ∧
          (e.before.weeklyLimit ≠ 0 → e.after.weekSpent ≤ e.before.weeklyLimit) :=
  spending_counted construct_sample
    (Reentrant.run_play (contract sampleAbi 99) (.initial 0 sampleStore) nestedActions)

example : (sampleAfter nestedActions).store.daySpent = 35 ∧
    (sampleAfter nestedActions).stack.length = 0 := by decide

end Stellara.Treasury
