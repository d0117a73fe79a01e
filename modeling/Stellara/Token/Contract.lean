import Stellara.Host.Soroban

/-!
# The token contract

The token of the workspace: an administrator mints, holders transfer and burn what they own,
and spenders transfer and burn within what holders allowed them. Balances, allowances and the
total supply are entries of the storage, each of them zero when it is missing.

## Main definitions

* `State`: the storage of the contract
* `moveBalance`: the part that `transfer` and `transferFrom` share
* `init`, `transfer`, `transferFrom`, `approve`, `mint`, `burn`, `burnFrom`, `setAdmin`: the
  entry points
* `contract`: the token contract as a transactional contract

## Main results

* `moveBalance_eq_ok`, `takeBalance_eq_ok`, `spendAllowance_eq_ok`: what the parts of a call write
-/

namespace Stellara.Token

/-! ## Storage -/

inductive Event where
  | transfer (src dst : Address) (amount : ℤ)
  | approve (owner spender : Address) (amount : ℤ)
  | mint (dst : Address) (amount : ℤ)
  | burn (src : Address) (amount : ℤ)
deriving DecidableEq, Repr

structure Metadata where
  name : String
  symbol : String
  decimals : ℕ
deriving DecidableEq, Repr

/-- The storage of the contract, and its events. Allowances are kept by holder and spender. -/
structure State where
  admin : Option Address
  metadata : Option Metadata
  balances : Store Address ℤ
  totalSupply : Option ℤ
  allowances : Store (Address × Address) ℤ
  events : List Event

/-- The contract before `init`. -/
def State.empty : State := ⟨none, none, ∅, none, ∅, []⟩

/-- A call returns or panics; the contract has no error codes. -/
abbrev Result (α : Type) := Outcome Empty α

def balanceOf (s : State) (id : Address) : ℤ := (s.balances.lookup id).getD 0

def setBalance (s : State) (id : Address) (amount : ℤ) : State :=
  { s with balances := s.balances.insert id amount }

def getTotalSupply (s : State) : ℤ := s.totalSupply.getD 0

def setTotalSupply (s : State) (supply : ℤ) : State := { s with totalSupply := some supply }

def allowance (s : State) (owner spender : Address) : ℤ :=
  (s.allowances.lookup (owner, spender)).getD 0

def setAllowance (s : State) (owner spender : Address) (amount : ℤ) : State :=
  { s with allowances := s.allowances.insert (owner, spender) amount }

def publish (s : State) (event : Event) : State := { s with events := s.events ++ [event] }

/-- The administrator is set, and authorises the call. -/
def requireAdmin (s : State) : Result Address := orAbort (.panic "Admin not set") s.admin

/-! ## Entry points -/

/-- `initialize`. -/
def init (admin : Address) (metadata : Metadata) (s : State) : Result State := do
  require (s.admin = none) (.panic "Already initialized")
  .ok { s with admin := some admin, metadata := some metadata }

/-- Move `amount` from `src` to `dst`. Both balances are read before either is written. -/
def moveBalance (src dst : Address) (amount : ℤ) (s : State) : Result State := do
  let srcBalance := balanceOf s src
  require (amount ≤ srcBalance) (.panic "Insufficient balance")
  let dstBalance := balanceOf s dst
  let left ← IntFormat.i128.checked .overflow (srcBalance - amount)
  let s := setBalance s src left
  let received ← IntFormat.i128.checked .overflow (dstBalance + amount)
  .ok (setBalance s dst received)

/-- Consume `amount` of what `owner` allowed `spender`. -/
def spendAllowance (owner spender : Address) (amount : ℤ) (s : State) : Result State := do
  require (amount ≤ allowance s owner spender) (.panic "Allowance exceeded")
  let left ← IntFormat.i128.checked .overflow (allowance s owner spender - amount)
  .ok (setAllowance s owner spender left)

/-- Take `amount` from the balance of `src` and from the supply. -/
def takeBalance (src : Address) (amount : ℤ) (s : State) : Result State := do
  let balance := balanceOf s src
  require (amount ≤ balance) (.panic "Insufficient balance")
  let left ← IntFormat.i128.checked .overflow (balance - amount)
  let s := setBalance s src left
  let supply ← IntFormat.i128.checked .overflow (getTotalSupply s - amount)
  .ok (setTotalSupply s supply)

def transfer (src dst : Address) (amount : ℤ) (s : State) : Result State := do
  require (0 < amount) (.panic "Amount must be positive")
  let s ← moveBalance src dst amount s
  .ok (publish s (.transfer src dst amount))

def transferFrom (spender src dst : Address) (amount : ℤ) (s : State) : Result State := do
  require (0 < amount) (.panic "Amount must be positive")
  let s ← spendAllowance src spender amount s
  let s ← moveBalance src dst amount s
  .ok (publish s (.transfer src dst amount))

/-- The ledger of expiration is not read. -/
def approve (owner spender : Address) (amount : ℤ) (_expirationLedger : ℕ) (s : State) :
    Result State := do
  require (0 ≤ amount) (.panic "Amount must be non-negative")
  .ok (publish (setAllowance s owner spender amount) (.approve owner spender amount))

def mint (dst : Address) (amount : ℤ) (s : State) : Result State := do
  let _ ← requireAdmin s
  require (0 < amount) (.panic "Amount must be positive")
  let newBalance ← IntFormat.i128.checked (.panic "Overflow") (balanceOf s dst + amount)
  let s := setBalance s dst newBalance
  let supply ← IntFormat.i128.checked (.panic "Supply overflow") (getTotalSupply s + amount)
  .ok (publish (setTotalSupply s supply) (.mint dst amount))

def burn (src : Address) (amount : ℤ) (s : State) : Result State := do
  require (0 < amount) (.panic "Amount must be positive")
  let s ← takeBalance src amount s
  .ok (publish s (.burn src amount))

def burnFrom (spender src : Address) (amount : ℤ) (s : State) : Result State := do
  require (0 < amount) (.panic "Amount must be positive")
  let s ← spendAllowance src spender amount s
  let s ← takeBalance src amount s
  .ok (publish s (.burn src amount))

def setAdmin (newAdmin : Address) (s : State) : Result State := do
  let _ ← requireAdmin s
  .ok { s with admin := some newAdmin }

/-! ## The contract -/

inductive Call where
  | init (admin : Address) (metadata : Metadata)
  | transfer (src dst : Address) (amount : ℤ)
  | transferFrom (spender src dst : Address) (amount : ℤ)
  | approve (owner spender : Address) (amount : ℤ) (expirationLedger : ℕ)
  | mint (dst : Address) (amount : ℤ)
  | burn (src : Address) (amount : ℤ)
  | burnFrom (spender src : Address) (amount : ℤ)
  | setAdmin (newAdmin : Address)
deriving DecidableEq, Repr

/-- Execute a call. -/
def execute (s : State) : Call → Result State
  | .init admin metadata => init admin metadata s
  | .transfer src dst amount => transfer src dst amount s
  | .transferFrom spender src dst amount => transferFrom spender src dst amount s
  | .approve owner spender amount expirationLedger =>
    approve owner spender amount expirationLedger s
  | .mint dst amount => mint dst amount s
  | .burn src amount => burn src amount s
  | .burnFrom spender src amount => burnFrom spender src amount s
  | .setAdmin newAdmin => setAdmin newAdmin s

/-- The token contract. Its calls return nothing. -/
def contract : Contract State Call Unit (Fault Empty) where
  exec _ call s := (fun s' => ((), s')) <$> execute s call

theorem exec_eq_ok {now : ℕ} {call : Call} {r : Unit} {s s' : State} :
    contract.exec now call s = .ok (r, s') ↔ execute s call = .ok s' := by
  simp [contract, Except.map_eq_ok]

/-! ## What the parts of a call write -/

section Parts

variable {s s' : State} {src dst owner spender : Address} {amount : ℤ}

theorem moveBalance_eq_ok (h : moveBalance src dst amount s = .ok s') :
    amount ≤ balanceOf s src ∧
      s' = setBalance (setBalance s src (balanceOf s src - amount)) dst
        (balanceOf s dst + amount) := by
  simp only [moveBalance, Except.bind_eq_ok, require_eq_ok, IntFormat.checked_eq_ok,
    exists_const] at h
  obtain ⟨hle, _, ⟨-, rfl⟩, _, ⟨-, rfl⟩, h⟩ := h
  exact ⟨hle, (Except.ok.inj h).symm⟩

theorem spendAllowance_eq_ok (h : spendAllowance owner spender amount s = .ok s') :
    s' = setAllowance s owner spender (allowance s owner spender - amount) := by
  simp only [spendAllowance, Except.bind_eq_ok, require_eq_ok, IntFormat.checked_eq_ok,
    exists_const] at h
  obtain ⟨-, _, ⟨-, rfl⟩, h⟩ := h
  exact (Except.ok.inj h).symm

theorem takeBalance_eq_ok (h : takeBalance src amount s = .ok s') :
    amount ≤ balanceOf s src ∧
      s' = setTotalSupply (setBalance s src (balanceOf s src - amount))
        (getTotalSupply s - amount) := by
  simp only [takeBalance, Except.bind_eq_ok, require_eq_ok, IntFormat.checked_eq_ok,
    exists_const] at h
  obtain ⟨hle, _, ⟨-, rfl⟩, _, ⟨-, rfl⟩, h⟩ := h
  exact ⟨hle, (Except.ok.inj h).symm⟩

end Parts

end Stellara.Token
