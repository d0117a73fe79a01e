import Stellara.Token.Contract

/-!
# The supply of the token contract

The total supply is kept beside the balances, and every call writes balances back one at a
time. A transfer to another account moves what it takes. A transfer to oneself reads the balance
before it takes the amount and writes it back with the amount added, so it creates what it
transfers: the balances exceed the supply by exactly what was transferred in this way.

## Main definitions

* `sumOfBalances`: the sum of all stored balances
* `Conserved`: the balances sum up to the supply and are not negative
* `AllowanceSpent`: a call of a spender consumes the allowance
* `SelfTransfer`: the calls from an account to itself

## Main results

* `moveBalance_refines`: a transfer to another account is the standard transfer
* `execute_surplus`: what a call adds to the balances beyond the supply
* `supply_iff`: supply and balances agree throughout a run exactly when nobody transfers to
  themselves
-/

namespace Stellara.Token

variable {s s' : State} {src dst owner spender a : Address} {amount : ℤ} {call : Call}

/-! ## Reading what was written -/

theorem balanceOf_setBalance (s : State) (id a : Address) (amount : ℤ) :
    balanceOf (setBalance s id amount) a = if a = id then amount else balanceOf s a := by
  simp only [balanceOf, setBalance, Store.lookup_insert_ite]
  split <;> rfl

@[simp] theorem balanceOf_setTotalSupply (s : State) (supply : ℤ) :
    balanceOf (setTotalSupply s supply) a = balanceOf s a := rfl

@[simp] theorem balanceOf_setAllowance (s : State) :
    balanceOf (setAllowance s owner spender amount) a = balanceOf s a := rfl

@[simp] theorem balanceOf_publish (s : State) (event : Event) :
    balanceOf (publish s event) a = balanceOf s a := rfl

@[simp] theorem allowance_setAllowance (s : State) :
    allowance (setAllowance s owner spender amount) owner spender = amount := by
  simp [allowance, setAllowance]

@[simp] theorem allowance_setBalance (s : State) (id : Address) :
    allowance (setBalance s id amount) owner spender = allowance s owner spender := rfl

@[simp] theorem allowance_setTotalSupply (s : State) (supply : ℤ) :
    allowance (setTotalSupply s supply) owner spender = allowance s owner spender := rfl

@[simp] theorem allowance_publish (s : State) (event : Event) :
    allowance (publish s event) owner spender = allowance s owner spender := rfl

/-! ## Balances and supply -/

/-- The sum of all stored balances. -/
def sumOfBalances (s : State) : ℤ := Store.total (fun _ amount => amount) s.balances

/-- The balances beyond the supply. -/
def surplus (s : State) : ℤ := sumOfBalances s - getTotalSupply s

theorem surplus_setBalance (s : State) (id : Address) (amount : ℤ) :
    surplus (setBalance s id amount) = surplus s + amount - balanceOf s id := by
  have hsum := Store.total_insert_elim (f := fun _ amount => amount) (m := s.balances) (k := id)
    (v := amount)
  have hbalance : (s.balances.lookup id).elim 0 (fun amount => amount) = balanceOf s id := by
    unfold balanceOf
    cases s.balances.lookup id <;> rfl
  rw [hbalance] at hsum
  simp only [surplus, sumOfBalances, setBalance, getTotalSupply] at hsum ⊢
  omega

@[simp] theorem surplus_setTotalSupply (s : State) (supply : ℤ) :
    surplus (setTotalSupply s supply) = surplus s + getTotalSupply s - supply := by
  simp only [surplus, sumOfBalances, setTotalSupply, getTotalSupply, Option.getD_some]
  omega

@[simp] theorem surplus_setAllowance (s : State) :
    surplus (setAllowance s owner spender amount) = surplus s := rfl

@[simp] theorem surplus_publish (s : State) (event : Event) :
    surplus (publish s event) = surplus s := rfl

/-- No balance is negative. -/
def NonNegative (s : State) : Prop := ∀ a, 0 ≤ balanceOf s a

/-- The balances sum up to the supply and are not negative. -/
structure Conserved (s : State) : Prop where
  sum_eq : sumOfBalances s = getTotalSupply s
  nonneg : NonNegative s

theorem NonNegative.setBalance (h : NonNegative s) (id : Address) (hle : 0 ≤ amount) :
    NonNegative (setBalance s id amount) := fun a => by
  rw [balanceOf_setBalance]
  split
  · exact hle
  · exact h a

theorem NonNegative.setAllowance (h : NonNegative s) :
    NonNegative (setAllowance s owner spender amount) := h

/-! ## The parts of a call -/

theorem surplus_moveBalance (h : moveBalance src dst amount s = .ok s') :
    surplus s' = surplus s + if src = dst then amount else 0 := by
  obtain ⟨-, rfl⟩ := moveBalance_eq_ok h
  rw [surplus_setBalance, surplus_setBalance, balanceOf_setBalance]
  by_cases hself : src = dst
  · -- the balance read before the withdrawal is written back
    subst hself
    rw [if_pos rfl, if_pos rfl]
    omega
  · rw [if_neg hself, if_neg (Ne.symm hself)]
    omega

theorem NonNegative.moveBalance (hs : NonNegative s) (hpos : 0 < amount)
    (h : moveBalance src dst amount s = .ok s') : NonNegative s' := by
  obtain ⟨hle, rfl⟩ := moveBalance_eq_ok h
  have hdst := hs dst
  exact (hs.setBalance src (by omega)).setBalance dst (by omega)

theorem surplus_takeBalance (h : takeBalance src amount s = .ok s') : surplus s' = surplus s := by
  obtain ⟨-, rfl⟩ := takeBalance_eq_ok h
  rw [surplus_setTotalSupply, surplus_setBalance]
  simp only [getTotalSupply, setBalance]
  omega

theorem NonNegative.takeBalance (hs : NonNegative s) (h : takeBalance src amount s = .ok s') :
    NonNegative s' := by
  obtain ⟨hle, rfl⟩ := takeBalance_eq_ok h
  exact fun a => (hs.setBalance src (by omega) : NonNegative _) a

/-- The balances of a single token. -/
def ledger (s : State) (h : NonNegative s) : Balances Unit Address where
  balance _ a := balanceOf s a
  nonneg _ a := h a

/-- A transfer to another account is the standard transfer. -/
theorem moveBalance_refines (hs : NonNegative s) (hpos : 0 < amount) (hne : src ≠ dst)
    (h : moveBalance src dst amount s = .ok s') :
    ∃ b, (ledger s hs).transfer () src dst amount = some b ∧
      ∀ a, b.balance () a = balanceOf s' a := by
  obtain ⟨hle, rfl⟩ := moveBalance_eq_ok h
  have hsome : ((ledger s hs).transfer () src dst amount).isSome :=
    Balances.transfer_isSome.mpr ⟨hpos.le, hle⟩
  obtain ⟨b, hb⟩ := Option.isSome_iff_exists.mp hsome
  refine ⟨b, hb, fun a => ?_⟩
  rw [Balances.transfer_balance hb, if_pos rfl, balanceOf_setBalance, balanceOf_setBalance]
  show balanceOf s a - _ + _ = _
  by_cases hdst : a = dst
  · rw [if_pos hdst, if_pos hdst, if_neg fun hsrc => hne (hsrc.symm.trans hdst), hdst]
    omega
  · rw [if_neg hdst, if_neg hdst, add_zero]
    split
    · rename_i hsrc
      rw [hsrc]
    · exact sub_zero _

/-! ## Calls -/

/-- The calls from an account to itself. -/
def SelfTransfer : Call → Prop
  | .transfer src dst _ => src = dst
  | .transferFrom _ src dst _ => src = dst
  | _ => False

instance : DecidablePred SelfTransfer := fun call => by
  cases call <;> unfold SelfTransfer <;> infer_instance

/-- The amount that a call sends from an account to itself. -/
def selfSent : Call → ℤ
  | .transfer src dst amount => if src = dst then amount else 0
  | .transferFrom _ src dst amount => if src = dst then amount else 0
  | _ => 0

/-- A call leaves no negative balance, and adds to the balances beyond the supply what it sends
from an account to itself. -/
theorem execute_surplus (hs : NonNegative s) (h : execute s call = .ok s') :
    NonNegative s' ∧ surplus s' = surplus s + selfSent call := by
  cases call with
  | init admin metadata =>
    simp only [execute, init, Except.bind_eq_ok, require_eq_ok, exists_const] at h
    obtain ⟨-, h⟩ := h
    obtain rfl := Except.ok.inj h
    exact ⟨hs, (add_zero _).symm⟩
  | transfer src dst amount =>
    simp only [execute, transfer, Except.bind_eq_ok, require_eq_ok, exists_const] at h
    obtain ⟨hpos, s₁, hmove, h⟩ := h
    obtain rfl := Except.ok.inj h
    exact ⟨(hs.moveBalance hpos hmove :), (surplus_moveBalance hmove :)⟩
  | transferFrom spender src dst amount =>
    simp only [execute, transferFrom, Except.bind_eq_ok, require_eq_ok, exists_const] at h
    obtain ⟨hpos, s₁, hspend, s₂, hmove, h⟩ := h
    obtain rfl := Except.ok.inj h
    obtain rfl := spendAllowance_eq_ok hspend
    exact ⟨(hs.setAllowance.moveBalance hpos hmove :), (surplus_moveBalance hmove :)⟩
  | approve owner spender amount expirationLedger =>
    simp only [execute, approve, Except.bind_eq_ok, require_eq_ok, exists_const] at h
    obtain ⟨-, h⟩ := h
    obtain rfl := Except.ok.inj h
    exact ⟨hs, (add_zero _).symm⟩
  | mint dst amount =>
    simp only [execute, mint, Except.bind_eq_ok, require_eq_ok, IntFormat.checked_eq_ok,
      exists_const] at h
    obtain ⟨_, -, hpos, _, ⟨-, rfl⟩, _, ⟨-, rfl⟩, h⟩ := h
    obtain rfl := Except.ok.inj h
    have hdst := hs dst
    refine ⟨hs.setBalance dst (by omega), ?_⟩
    rw [surplus_publish, surplus_setTotalSupply, surplus_setBalance]
    simp only [getTotalSupply, setBalance, selfSent]
    omega
  | burn src amount =>
    simp only [execute, burn, Except.bind_eq_ok, require_eq_ok, exists_const] at h
    obtain ⟨-, s₁, htake, h⟩ := h
    obtain rfl := Except.ok.inj h
    exact ⟨(hs.takeBalance htake :), (surplus_takeBalance htake).trans (add_zero _).symm⟩
  | burnFrom spender src amount =>
    simp only [execute, burnFrom, Except.bind_eq_ok, require_eq_ok, exists_const] at h
    obtain ⟨-, s₁, hspend, s₂, htake, h⟩ := h
    obtain rfl := Except.ok.inj h
    obtain rfl := spendAllowance_eq_ok hspend
    exact ⟨(hs.setAllowance.takeBalance htake :),
      (surplus_takeBalance htake).trans (add_zero _).symm⟩
  | setAdmin newAdmin =>
    simp only [execute, setAdmin, Except.bind_eq_ok] at h
    obtain ⟨_, -, h⟩ := h
    obtain rfl := Except.ok.inj h
    exact ⟨hs, (add_zero _).symm⟩

/-- Only what is positive is sent from an account to itself. -/
theorem selfSent_eq_zero (h : execute s call = .ok s') :
    selfSent call = 0 ↔ ¬ SelfTransfer call := by
  cases call with
  | transfer src dst amount =>
    simp only [execute, transfer, Except.bind_eq_ok, require_eq_ok, exists_const] at h
    simp only [selfSent, SelfTransfer, ite_eq_right_iff]
    exact ⟨fun hz heq => h.1.ne' (hz heq), fun hne heq => absurd heq hne⟩
  | transferFrom spender src dst amount =>
    simp only [execute, transferFrom, Except.bind_eq_ok, require_eq_ok, exists_const] at h
    simp only [selfSent, SelfTransfer, ite_eq_right_iff]
    exact ⟨fun hz heq => h.1.ne' (hz heq), fun hne heq => absurd heq hne⟩
  | _ => simp [selfSent, SelfTransfer]

/-- A call keeps the supply exactly when it is not from an account to itself. -/
theorem Conserved.execute_iff (hs : Conserved s) (h : execute s call = .ok s') :
    Conserved s' ↔ ¬ SelfTransfer call := by
  obtain ⟨hnonneg, hsurplus⟩ := execute_surplus hs.nonneg h
  have hbefore := hs.sum_eq
  rw [← selfSent_eq_zero h]
  unfold surplus at hsurplus
  constructor
  · intro hs'
    have hafter := hs'.sum_eq
    omega
  · intro hz
    exact ⟨by omega, hnonneg⟩

/-! ## Runs -/

/-- A call of a spender consumes exactly its amount of the allowance. -/
def AllowanceSpent (c : Commit State Call Unit) : Prop :=
  match c.call with
  | .transferFrom spender src _ amount | .burnFrom spender src amount =>
    allowance c.after src spender = allowance c.before src spender - amount
  | _ => True

theorem allowanceSpent_of_execute {c : Commit State Call Unit}
    (h : execute c.before c.call = .ok c.after) : AllowanceSpent c := by
  obtain ⟨time, call, result, s, s'⟩ := c
  cases call with
  | transferFrom spender src dst amount =>
    simp only [execute, transferFrom, Except.bind_eq_ok, require_eq_ok, exists_const] at h
    obtain ⟨-, s₁, hspend, s₂, hmove, h⟩ := h
    obtain rfl := Except.ok.inj h
    obtain rfl := spendAllowance_eq_ok hspend
    obtain ⟨-, rfl⟩ := moveBalance_eq_ok hmove
    simp [AllowanceSpent]
  | burnFrom spender src amount =>
    simp only [execute, burnFrom, Except.bind_eq_ok, require_eq_ok, exists_const] at h
    obtain ⟨-, s₁, hspend, s₂, htake, h⟩ := h
    obtain rfl := Except.ok.inj h
    obtain rfl := spendAllowance_eq_ok hspend
    obtain ⟨-, rfl⟩ := takeBalance_eq_ok htake
    simp [AllowanceSpent]
  | _ => trivial

variable {now : ℕ} {w : World State} {log : List (Commit State Call Unit)}

/-- In every run the balances are not negative and sum up to the supply in every state, and spenders
consume their allowances, exactly when no committed call transfers from an account to itself. -/
theorem supply_iff (hrun : contract.Run ⟨now, .empty⟩ w log) :
    ((Conserved w.store ∧ ∀ c ∈ log, Conserved c.before ∧ Conserved c.after) ∧
        ∀ c ∈ log, AllowanceSpent c) ↔
      ∀ c ∈ log, ¬ SelfTransfer c.call := by
  have hspent : ∀ c ∈ log, AllowanceSpent c := fun c hc =>
    allowanceSpent_of_execute (exec_eq_ok.mp (hrun.exec_of_mem c hc))
  rw [and_iff_left hspent]
  exact hrun.invariant_iff (S := fun _ => True) (fun _ _ _ _ _ _ _ => trivial)
    (fun c _ hs he => hs.execute_iff (exec_eq_ok.mp he)) trivial ⟨rfl, fun _ => le_rfl⟩

/-- The administrator mints 100 for an account, which transfers 40 of them to `dst`. -/
def mintedCalls (dst : Address) : List (ℕ × Call) :=
  [(1, .init ⟨1⟩ ⟨"Stellara", "STL", 7⟩), (2, .mint ⟨2⟩ 100), (3, .transfer ⟨2⟩ dst 40)]

theorem supply_iff_sample :
    ((Conserved (contract.play ⟨0, .empty⟩ (mintedCalls ⟨3⟩)).1.store ∧
          ∀ c ∈ (contract.play ⟨0, .empty⟩ (mintedCalls ⟨3⟩)).2,
            Conserved c.before ∧ Conserved c.after) ∧
        ∀ c ∈ (contract.play ⟨0, .empty⟩ (mintedCalls ⟨3⟩)).2, AllowanceSpent c) ↔
      ∀ c ∈ (contract.play ⟨0, .empty⟩ (mintedCalls ⟨3⟩)).2, ¬ SelfTransfer c.call :=
  supply_iff (Contract.run_play _ _ _ (by decide))

/-- A transfer to oneself creates what it transfers: the account owns 140 of a supply of 100. -/
theorem self_transfer_creates :
    ∃ w log, contract.Run ⟨0, .empty⟩ w log ∧ balanceOf w.store ⟨2⟩ = 140 ∧
      getTotalSupply w.store = 100 ∧ ¬ Conserved w.store := by
  refine ⟨_, _, Contract.run_play _ _ (mintedCalls ⟨2⟩) (by decide), by decide, by decide,
    fun h => ?_⟩
  exact absurd h.sum_eq (by decide)

end Stellara.Token
