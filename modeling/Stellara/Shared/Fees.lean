import Stellara.Host.Soroban

/-!
# Fee collection

## Main definitions

* `FeeManager.collectFee`: move a fee from the payer to its destination
-/

namespace Stellara

/-- The errors of the fee manager. -/
inductive FeeError where
  | insufficientBalance
  | invalidAmount
deriving DecidableEq, Repr

namespace FeeManager

variable {τ : Type} [TokenClient τ Address Address]

/-- Collects a fee from a payer to a destination. A transfer that fails traps the call, it is
no error of the fee manager. -/
def collectFee (tokens : τ) (token payer destination : Address) (amount : ℤ) :
    Outcome FeeError τ := do
  require (0 ≤ amount) (.error .invalidAmount)
  if amount = 0 then .ok tokens else tokenTransfer tokens token payer destination amount

/-- `map_err`: replace the error code of an outcome, a trap stays a trap. -/
def mapErr {ε ε' α : Type} (f : ε → ε') : Outcome ε α → Outcome ε' α
  | .ok a => .ok a
  | .error (.error e) => .error (.error (f e))
  | .error (.panic m) => .error (.panic m)
  | .error .overflow => .error .overflow
  | .error .diverges => .error .diverges

@[simp] theorem mapErr_eq_ok {ε ε' α : Type} {f : ε → ε'} {x : Outcome ε α} {a : α} :
    mapErr f x = .ok a ↔ x = .ok a := by
  cases x with
  | ok b => simp [mapErr]
  | error e => cases e <;> simp [mapErr]

end FeeManager

end Stellara
