import Stellara.Host.Soroban

/-!
# Contracts and the transfers around them

The tokens of a contract are kept by token contracts that everybody uses. Between the calls of a
contract other accounts transfer tokens to each other and to the contract; only its own calls take
tokens away from it.

## Main definitions

* `HoldsTokens`: the states that include the token contracts
* `LedgerAction`: a call of a contract, or a transfer by another account
* `withTransfers`: the contract with the transfers between its calls

## Main results

* `exec_withTransfers_eq_ok`: a committed action is a call of the contract or such a transfer
-/

namespace Stellara

/-- The state of the contract at an address, with the token contracts. -/
class HoldsTokens (σ : Type) (τ : outParam Type) where
  contractAddress : σ → Address
  tokens : σ → τ
  setTokens : τ → σ → σ

/-- A call of a contract, or a transfer that another account makes at a token contract. -/
inductive LedgerAction (κ : Type) where
  | call (call : κ)
  | transfer (token src dst : Address) (amount : ℤ)
deriving DecidableEq, Repr

variable {σ τ κ ρ ε : Type} [HoldsTokens σ τ] [TokenClient τ Address Address]

open HoldsTokens

/-- The contract with the transfers between its calls, which return nothing. -/
def withTransfers (C : Contract σ κ ρ (Fault ε)) :
    Contract σ (LedgerAction κ) (Option ρ) (Fault ε) where
  exec t action s :=
    match action with
    | .call call => do
      let (r, s) ← C.exec t call s
      .ok (some r, s)
    | .transfer token src dst amount => do
      requireAuth (contractAddress s) src
      let tokens ← tokenTransfer (tokens s) token src dst amount
      .ok (none, setTokens tokens s)

variable {C : Contract σ κ ρ (Fault ε)} {t : ℕ} {action : LedgerAction κ} {r : Option ρ} {s s' : σ}

theorem exec_withTransfers_eq_ok
    (h : (withTransfers C).exec t action s = .ok (r, s')) :
    (∃ call result, action = .call call ∧ C.exec t call s = .ok (result, s')) ∨
      ∃ token src dst amount tokens', action = .transfer token src dst amount ∧
        src ≠ contractAddress s ∧
        TokenClient.transfer (tokens s) token src dst amount = some tokens' ∧
        s' = setTokens tokens' s := by
  cases action with
  | call call =>
    simp only [withTransfers, Except.bind_eq_ok] at h
    obtain ⟨⟨result, s₁⟩, hexec, h⟩ := h
    obtain ⟨-, rfl⟩ := Prod.mk.inj (Except.ok.inj h)
    exact .inl ⟨call, result, rfl, hexec⟩
  | transfer token src dst amount =>
    simp only [withTransfers, requireAuth, Except.bind_eq_ok, require_eq_ok, exists_const,
      tokenTransfer_eq_ok] at h
    obtain ⟨hsrc, tokens', htransfer, h⟩ := h
    obtain ⟨-, rfl⟩ := Prod.mk.inj (Except.ok.inj h)
    exact .inr ⟨token, src, dst, amount, tokens', rfl, hsrc, htransfer, rfl⟩

end Stellara
