import Stellara.Lib.SelfCalls
import Stellara.Treasury.Limits

/-!
# The ether of the treasury

An execution sends the value of its transaction along with the call that it makes, before the code
of the receiver runs. The receiver can call the treasury again, send ether back, or fail, and the
treasury can be the receiver itself. In every configuration the ether of the treasury is what it had
at the deployment, and what others have sent to it, less what the executions that stand have paid to
others: no payment is lost, undone by half, or made twice.

## Main definitions

* `spent`: what a call pays
* `paidOut`: what the calls of a log have paid to others
* `deposited`: what others have sent with the calls of a log

## Main results

* `enter_balance`: what the own part of a call does to the ether
* `ether_accounted`: every run from the deployment
-/

namespace Stellara.Treasury

open Evm (Bytes Revert)

variable {abi : Abi} {treasury : Evm.Address} {now txIndex : ℕ} {s s' s₀ : State} {m : Message}
  {exit : Exit Message} {log : Log} {e : Commit State Message (Exit Message)}

/-! ## One call -/

/-- The value of the transaction that a call executes. -/
def spent (e : Commit State Message (Exit Message)) : ℕ := (payment? e).elim 0 Prod.snd

/-- An execution pays the value of its transaction, which the treasury has. -/
theorem executeTransaction_balance
    (h : executeTransaction abi treasury now txIndex s = .ok (s', exit)) :
    ∃ txn, s.transactions[txIndex]? = some txn ∧ s'.balance + txn.value = s.balance ∧
      (exit = .outside ∨ ∃ function, exit = .self ⟨treasury, txn.value, function⟩) := by
  simp only [executeTransaction, notFrozen, findTransaction, setTransaction, updateWindows_eq,
    Except.bind_eq_ok, require_eq_ok, exists_const, orAbort_eq_ok] at h
  obtain ⟨-, txn, hlookup, -, _, -, _, -, _, -, daySpent, -, weekSpent, -, hbalance, h⟩ := h
  refine ⟨txn, hlookup, ?_⟩
  split at h
  · simp only [Except.bind_eq_ok, orAbort_eq_ok] at h
    obtain ⟨function, -, h⟩ := h
    obtain ⟨rfl, rfl⟩ := Prod.mk.inj (Except.ok.inj h)
    exact ⟨Nat.sub_add_cancel hbalance, .inr ⟨function, rfl⟩⟩
  · obtain ⟨rfl, rfl⟩ := Prod.mk.inj (Except.ok.inj h)
    exact ⟨Nat.sub_add_cancel hbalance, .inl rfl⟩

/-- The own part of a call takes the ether that is sent along, and pays what it spends: to others, or
to the treasury itself with the call that follows. -/
structure Moves (treasury : Evm.Address) (e : Commit State Message (Exit Message)) : Prop where
  balance : e.after.balance + spent e = e.before.balance + e.call.value
  returns : e.result = .returns → spent e = 0
  self : ∀ k, e.result = .self k → k.sender = treasury ∧ k.value = spent e

theorem Moves.quiet (hbalance : s'.balance = s.balance + m.value)
    (hfunction : ∀ i, m.function ≠ .executeTransaction i) :
    Moves treasury ⟨now, m, .returns, s, s'⟩ := by
  have hspent : spent (⟨now, m, .returns, s, s'⟩ : Commit State Message (Exit Message)) = 0 := by
    rw [spent, payment?_of_ne hfunction, Option.elim_none]
  exact ⟨by rw [hspent, add_zero, hbalance], fun _ => hspent, fun k hk => by cases hk⟩

theorem enter_balance (h : enter abi treasury now m s = .ok (s', exit)) :
    Moves treasury ⟨now, m, exit, s, s'⟩ := by
  have heffect := enter_effect h
  simp only [enter, Except.bind_eq_ok, require_eq_ok, exists_const] at h
  obtain ⟨hvalue, h⟩ := h
  -- only `receive` takes ether
  have hnone : m.function ≠ .receive → m.value = 0 := hvalue.resolve_right
  cases heffect with
  | executed hcall _ _ =>
    have hzero := hnone (by rw [hcall]; simp)
    rw [hcall] at h
    obtain ⟨txn, hlookup, hbalance, hexit⟩ := executeTransaction_balance h
    have hspent : spent (⟨now, m, exit, s, s'⟩ : Commit State Message (Exit Message)) =
        txn.value := by
      simp only [spent, payment?, hcall]
      rw [show s.transactions[_]? = some txn from hlookup]
      rfl
    refine ⟨by rw [hspent]; exact hbalance, fun hreturns => ?_, fun k hk => ?_⟩
    · dsimp only at hreturns
      rcases hexit with rfl | ⟨_, rfl⟩ <;> cases hreturns
    · dsimp only at hk
      rw [hspent]
      rcases hexit with rfl | ⟨function, rfl⟩
      · cases hk
      · obtain rfl := Exit.self.inj hk
        exact ⟨rfl, rfl⟩
  | received hcall hs => exact .quiet (by rw [hs]) (by rw [hcall]; simp)
  | submitted hcall _ hs | confirmed hcall _ _ _ _ _ hs | revoked hcall _ _ _ _ _ hs
  | limited hcall _ hs | frozen hcall _ hs | unfrozen hcall _ hs =>
    exact .quiet (by rw [hs, hnone (by rw [hcall]; simp), add_zero]) (by rw [hcall]; simp)
  | viewed hview hs =>
    have hcall : ∀ function, function.isView = false → m.function ≠ function := by
      intro function hfunction heq
      rw [heq, hfunction] at hview
      cases hview
    exact .quiet (by rw [hs, hnone (hcall _ rfl), add_zero]) fun i => hcall _ rfl

/-! ## Runs -/

/-- What the calls have paid to others. -/
def paidOut (log : Log) : ℕ := (log.map fun e => if e.result = .outside then spent e else 0).sum

/-- What others have sent with their calls. -/
def deposited (treasury : Evm.Address) (log : Log) : ℕ :=
  (log.map fun e => if e.call.sender = treasury then 0 else e.call.value).sum

/-- What the treasury pays to itself. -/
def returned (treasury : Evm.Address) (k : Message) : ℕ :=
  if k.sender = treasury then k.value else 0

/-- What the calls pay goes to others, or to the treasury itself. -/
theorem sum_spent (h : ∀ e ∈ log, Moves treasury e) :
    (log.map spent).sum =
      paidOut log + (log.map fun e => e.result.self?.elim 0 (returned treasury)).sum := by
  rw [paidOut, ← List.sum_map_add]
  refine congrArg List.sum (List.map_congr_left fun e he => ?_)
  obtain ⟨-, hreturns, hself⟩ := h e he
  cases hresult : e.result with
  | returns => simp [hreturns hresult, Exit.self?]
  | outside => simp [Exit.self?]
  | self k =>
    obtain ⟨hsender, hvalue⟩ := hself k hresult
    simp [Exit.self?, returned, hsender, hvalue]

/-- What is sent with the calls is from others, or from the treasury itself. -/
theorem sum_value (treasury : Evm.Address) (log : Log) :
    (log.map fun e => e.call.value).sum =
      deposited treasury log + (log.map fun e => returned treasury e.call).sum := by
  rw [deposited, ← List.sum_map_add]
  refine congrArg List.sum (List.map_congr_left fun e _ => ?_)
  unfold returned
  split <;> simp

variable {c : Reentrant.Config State Message} {made : List Message}

theorem moves_of_run (h : (contract abi treasury).Run (.initial now s₀) c made) :
    c.store.balance + (c.log.map spent).sum =
        s₀.balance + (c.log.map fun e => e.call.value).sum ∧ ∀ e ∈ c.log, Moves treasury e := by
  refine h.invariant (I := fun _ s log => s.balance + (log.map spent).sum =
      s₀.balance + (log.map fun e => e.call.value).sum ∧ ∀ e ∈ log, Moves treasury e)
    (J := fun _ => True) (G := fun _ => True) (fun _ _ _ _ _ hs => hs)
    (fun t k s s' exit log _ _ hs he => ⟨?_, fun _ _ => trivial⟩) (fun _ _ => trivial) rfl
    ⟨rfl, by simp [Reentrant.Config.log, Reentrant.Config.initial]⟩
  have hmoves := enter_balance he
  obtain ⟨hsum, hlog⟩ := hs
  have hbalance := hmoves.balance
  simp only [List.map_append, List.sum_append, List.map_singleton, List.sum_singleton,
    List.forall_mem_append, List.forall_mem_singleton]
  exact ⟨by dsimp only at hbalance; omega, hlog, hmoves⟩

/-- **The ether** in every configuration of every run, at the calls that the executions make as
well: where the treasury is not about to call itself, it has what it had at the start and what
others have sent, less what the executions that stand have paid to others. -/
theorem ether_accounted (h : (contract abi treasury).Run (.initial now s₀) c made)
    (hact : Reentrant.othersAct c.stack = true) :
    c.store.balance + paidOut c.log = s₀.balance + deposited treasury c.log := by
  obtain ⟨hsum, hmoves⟩ := moves_of_run h
  have hself := (h.awaits_none rfl rfl hact).sum (f := returned treasury) fun e _ hadmissible => by
    rw [returned, if_neg (of_decide_eq_true hadmissible)]
  rw [sum_spent hmoves, sum_value treasury, hself, Option.elim_none] at hsum
  omega

/-- The treasury pays 15 to an account, whose code sends 4 back, has the treasury pay 20 to itself,
and is undone when it has it pay 10 to another account. -/
def etherActions : List (Reentrant.Action Message) :=
  [.call ⟨1, 0, .submitTransaction 7 15 []⟩, .call ⟨1, 0, .submitTransaction 99 20 []⟩,
    .call ⟨1, 0, .submitTransaction 6 10 []⟩, .call ⟨1, 0, .confirmTransaction 0⟩,
    .call ⟨1, 0, .confirmTransaction 1⟩, .call ⟨1, 0, .confirmTransaction 2⟩,
    .call ⟨8, 0, .executeTransaction 0⟩, .call ⟨7, 4, .receive⟩,
    .call ⟨7, 0, .executeTransaction 1⟩, .callSelf, .call ⟨7, 0, .executeTransaction 2⟩, .revert]

theorem ether_accounted_sample :
    (sampleAfter etherActions).store.balance = 489 ∧ (sampleAfter etherActions).stack.length = 2 ∧
      (sampleAfter etherActions).store.balance + paidOut (sampleAfter etherActions).log =
        sampleStore.balance + deposited 99 (sampleAfter etherActions).log :=
  ⟨by decide, by decide, ether_accounted
    (Reentrant.run_play (contract sampleAbi 99) (.initial 0 sampleStore) etherActions) (by decide)⟩

end Stellara.Treasury
