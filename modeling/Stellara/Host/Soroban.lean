import Stellara.Lib.Balances
import Stellara.Lib.Contract
import Stellara.Lib.Loop
import Stellara.Lib.MachineInt
import Stellara.Lib.Store

/-!
# The Soroban host

What the contracts take from the host that runs them: addresses, symbols, the two ways a
call can fail, and checked arithmetic. A call that fails in either way aborts, and the host
then discards everything the call wrote. A call that requires the authorisation of an
address is only made with it, so `require_auth` mostly leaves no trace in the model. Nobody
can authorise a call for the contract that is called: it has no signature, and it is not its
own caller. Where that matters the model checks it with `requireAuth`.

## Main definitions

* `Address`, `Symbol`: the identifiers of accounts and contracts, and short names
* `Fault ε`: the ways a call aborts
* `Ledger`: the sequence number and the timestamp of the ledger
* `requireAuth`: the authorisation of a call by somebody other than the called contract
* `tokenTransfer`: a transfer by the client of a token contract
-/

namespace Stellara

/-- The address of an account or a contract. Addresses are ordered. -/
structure Address where
  key : ℕ
deriving DecidableEq, Repr

namespace Address

instance : LT Address := ⟨fun a b => a.key < b.key⟩

instance (a b : Address) : Decidable (a < b) := inferInstanceAs (Decidable (a.key < b.key))

theorem lt_iff {a b : Address} : a < b ↔ a.key < b.key := Iff.rfl

theorem lt_asymm {a b : Address} (h : a < b) : ¬ b < a := fun h' => by
  rw [lt_iff] at h h'; omega

theorem ne_of_lt {a b : Address} (h : a < b) : a ≠ b := fun e => by
  subst e; exact lt_asymm h h

end Address

/-- A short name. -/
abbrev Symbol := String

/-- The ways a call aborts. -/
inductive Fault (ε : Type) where
  /-- The contract returns one of its error codes. -/
  | error (e : ε)
  /-- The contract panics. -/
  | panic (message : String)
  /-- A checked operation leaves its format. -/
  | overflow
  /-- A loop of the model runs out of rounds. -/
  | diverges
deriving DecidableEq, Repr

/-- The result of a call, or of a part of one. -/
abbrev Outcome (ε α : Type) := Except (Fault ε) α

/-- The ledger that a call is executed in. -/
structure Ledger where
  sequence : ℕ
  timestamp : ℕ
deriving DecidableEq, Repr

/-- `Address::require_auth` in the contract `current`. -/
def requireAuth {ε : Type} (current address : Address) : Outcome ε Unit :=
  require (address ≠ current) (.panic "not authorised")

variable {ε τ : Type} [TokenClient τ Address Address]

/-- `token::Client::transfer`: a failing transfer traps the caller. -/
def tokenTransfer (tokens : τ) (token src dst : Address) (amount : ℤ) : Outcome ε τ :=
  orAbort (.panic "transfer failed") (TokenClient.transfer tokens token src dst amount)

@[simp] theorem tokenTransfer_eq_ok {tokens tokens' : τ} {token src dst : Address} {amount : ℤ} :
    (tokenTransfer tokens token src dst amount : Outcome ε τ) = .ok tokens' ↔
      TokenClient.transfer tokens token src dst amount = some tokens' := by
  simp [tokenTransfer]

end Stellara
