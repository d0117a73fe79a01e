import Stellara.Lib.MachineInt
import Stellara.Lib.Reentrancy
import Stellara.Lib.Store

/-!
# The Ethereum virtual machine

What a contract in Solidity takes from the machine that runs it: addresses, the data of a call,
the ways a call fails, and checked arithmetic on words of 256 bits. A call that fails leaves
nothing of what it did.

## Main definitions

* `Address`, `Bytes`: the identifiers of accounts and contracts, and the data of calls
* `Revert`: the ways a call fails
* `Message`: a call with its sender and the ether sent along
-/

namespace Stellara.Evm

/-- The address of an account or a contract. -/
abbrev Address := BitVec 160

abbrev Bytes := List UInt8

/-- The ways a call fails. -/
inductive Revert where
  /-- A requirement with a message is not met. -/
  | reason (message : String)
  /-- A checked operation leaves the words of 256 bits. -/
  | arithmetic
  /-- An array has no such element. -/
  | outOfBounds
  /-- Ether is sent to a function that takes none. -/
  | notPayable
deriving DecidableEq, Repr

/-- A call of one of the functions `φ`. -/
structure Message (φ : Type) where
  sender : Address
  value : ℕ
  function : φ
deriving DecidableEq, Repr

/-- The sum of two words. -/
def add (a b : ℕ) : Except Revert ℕ := IntFormat.u256.checkedNat .arithmetic (a + b)

/-- The difference of two words. -/
def sub (a b : ℕ) : Except Revert ℕ := IntFormat.checkedSub .arithmetic a b

theorem add_eq_ok {a b c : ℕ} (h : add a b = .ok c) : c = a + b :=
  (IntFormat.checkedNat_eq_ok.mp h).2

theorem sub_eq_ok {a b c : ℕ} (h : sub a b = .ok c) : b ≤ a ∧ c = a - b :=
  IntFormat.checkedSub_eq_ok.mp h

end Stellara.Evm
