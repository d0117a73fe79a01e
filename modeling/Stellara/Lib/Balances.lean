import Mathlib.Data.Int.Notation
import Mathlib.Data.Int.Order.Basic
import Mathlib.Algebra.Group.Basic
import Mathlib.Algebra.Group.Int.Defs

/-!
# Balance maps

A balance map holds the non-negative amount that every account owns of every token. A transfer
moves a non-negative amount that the sender owns; it fails otherwise and touches nobody else.

## Main definitions

* `Balances T A`: balances of the tokens `T` held by the accounts `A`
* `Balances.transfer`: the standard transfer
* `TokenClient`: any token implementation, as its callers see it
* `StandardToken`: a token implementation whose transfers are the standard ones

## Main results

* `Balances.transfer_isSome`, `Balances.transfer_balance`: when a transfer succeeds, and what
  it leaves
-/

universe u v w

/-- A token implementation as its callers see it: balances that can be read, and transfers
that succeed or fail. -/
class TokenClient (τ : Type u) (T : outParam (Type v)) (A : outParam (Type w)) where
  balance : τ → T → A → ℤ
  transfer : τ → T → A → A → ℤ → Option τ

/-- A token as it is documented: a transfer of a non-negative amount that the sender owns moves it,
and any other fails. -/
class StandardToken (τ : Type u) (T : outParam (Type v)) (A : outParam (Type w)) [DecidableEq T]
    [DecidableEq A] [TokenClient τ T A] : Prop where
  balance_nonneg : ∀ (b : τ) t a, 0 ≤ TokenClient.balance b t a
  transfer_isSome : ∀ (b : τ) token src dst amount,
    (TokenClient.transfer b token src dst amount).isSome ↔
      0 ≤ amount ∧ amount ≤ TokenClient.balance b token src
  transfer_balance : ∀ {b b' : τ} {token src dst amount},
    TokenClient.transfer b token src dst amount = some b' → ∀ t a, TokenClient.balance b' t a =
      if t = token then
        TokenClient.balance b t a - (if a = src then amount else 0) + (if a = dst then amount else 0)
      else TokenClient.balance b t a

namespace StandardToken

variable {τ : Type u} {T : Type v} {A : Type w} [DecidableEq T] [DecidableEq A] [TokenClient τ T A]
  [StandardToken τ T A] {b b' : τ} {token : T} {src dst : A} {amount : ℤ}

theorem amount_nonneg (h : TokenClient.transfer b token src dst amount = some b') : 0 ≤ amount :=
  ((transfer_isSome b token src dst amount).mp (Option.isSome_of_eq_some h)).1

/-- An account that sends `amount` to somebody else loses it. -/
theorem transfer_src (h : TokenClient.transfer b token src dst amount = some b') (hne : src ≠ dst) :
    TokenClient.balance b' token src = TokenClient.balance b token src - amount := by
  rw [transfer_balance h, if_pos rfl, if_pos rfl, if_neg hne, add_zero]

end StandardToken

/-- The balances of the tokens `T` held by the accounts `A`. -/
structure Balances (T : Type v) (A : Type w) where
  balance : T → A → ℤ
  nonneg : ∀ t a, 0 ≤ balance t a

namespace Balances

variable {T : Type v} {A : Type w}

/-- Nobody owns anything. -/
def zero : Balances T A := ⟨fun _ _ => 0, fun _ _ => le_rfl⟩

variable [DecidableEq T] [DecidableEq A]

/-- Create `amount` of `token` for `account`. -/
def mint (b : Balances T A) (token : T) (account : A) (amount : ℕ) : Balances T A where
  balance t a := if t = token ∧ a = account then b.balance t a + amount else b.balance t a
  nonneg t a := by
    have := b.nonneg t a
    split <;> omega

/-- The balances after `amount` of `token` went from `src` to `dst`. -/
def moved (b : Balances T A) (token : T) (src dst : A) (amount : ℤ) (t : T) (a : A) : ℤ :=
  if t = token then
    b.balance t a - (if a = src then amount else 0) + (if a = dst then amount else 0)
  else b.balance t a

theorem moved_nonneg (b : Balances T A) {token : T} {src : A} {amount : ℤ} (h : 0 ≤ amount)
    (hle : amount ≤ b.balance token src) (dst : A) (t : T) (a : A) :
    0 ≤ b.moved token src dst amount t a := by
  have hnn := b.nonneg t a
  unfold moved
  split
  · rename_i ht
    subst ht
    by_cases hs : a = src
    · subst hs
      rw [if_pos rfl]
      split <;> omega
    · rw [if_neg hs]
      split <;> omega
  · exact hnn

/-- Move `amount` of `token` from `src` to `dst`, when `src` owns it. -/
def transfer (b : Balances T A) (token : T) (src dst : A) (amount : ℤ) : Option (Balances T A) :=
  if h : 0 ≤ amount ∧ amount ≤ b.balance token src then
    some ⟨b.moved token src dst amount, b.moved_nonneg h.1 h.2 dst⟩
  else none

instance : TokenClient (Balances T A) T A := ⟨balance, transfer⟩

variable {b b' : Balances T A} {token t : T} {src dst a : A} {amount : ℤ}

@[simp] theorem client_balance : TokenClient.balance b token a = b.balance token a := rfl

@[simp] theorem client_transfer :
    TokenClient.transfer b token src dst amount = b.transfer token src dst amount := rfl

/-- A transfer succeeds exactly when the sender owns the non-negative amount. -/
theorem transfer_isSome :
    (b.transfer token src dst amount).isSome ↔ 0 ≤ amount ∧ amount ≤ b.balance token src := by
  unfold transfer
  split <;> simp_all

/-- A successful transfer moves a non-negative amount that the sender owns. -/
theorem transfer_eq_some (h : b.transfer token src dst amount = some b') :
    (0 ≤ amount ∧ amount ≤ b.balance token src) ∧ b'.balance = b.moved token src dst amount := by
  unfold transfer at h
  split at h
  · obtain rfl := Option.some.inj h
    exact ⟨‹_›, rfl⟩
  · cases h

/-- What a successful transfer leaves. -/
theorem transfer_balance (h : b.transfer token src dst amount = some b') (t : T) (a : A) :
    b'.balance t a =
      if t = token then
        b.balance t a - (if a = src then amount else 0) + (if a = dst then amount else 0)
      else b.balance t a := by
  rw [(transfer_eq_some h).2, moved]

instance : StandardToken (Balances T A) T A where
  balance_nonneg := nonneg
  transfer_isSome _ _ _ _ _ := transfer_isSome
  transfer_balance h := transfer_balance h

/-- An account that sends `amount` to somebody else loses it. -/
theorem transfer_src (h : b.transfer token src dst amount = some b') (hne : src ≠ dst) :
    b'.balance token src = b.balance token src - amount := by
  rw [transfer_balance h, if_pos rfl, if_pos rfl, if_neg hne, add_zero]

/-- An account that receives `amount` from somebody else gains it. -/
theorem transfer_dst (h : b.transfer token src dst amount = some b') (hne : dst ≠ src) :
    b'.balance token dst = b.balance token dst + amount := by
  rw [transfer_balance h, if_pos rfl, if_neg hne, if_pos rfl, sub_zero]

/-- An account that sends nothing loses nothing. -/
theorem le_transfer_of_ne (h : b.transfer token src dst amount = some b') (hne : src ≠ a) (t : T) :
    b.balance t a ≤ b'.balance t a := by
  have hnn := (transfer_eq_some h).1.1
  rw [transfer_balance h]
  split
  · rw [if_neg (Ne.symm hne)]
    split <;> omega
  · exact le_rfl

/-- Nobody loses more than the amount of a transfer. -/
theorem sub_le_transfer (h : b.transfer token src dst amount = some b') (t : T) (a : A) :
    b.balance t a - amount ≤ b'.balance t a := by
  have hnn := (transfer_eq_some h).1.1
  rw [transfer_balance h]
  split
  · split <;> split <;> omega
  · omega

end Balances
