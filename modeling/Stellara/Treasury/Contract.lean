import Stellara.Host.Evm

/-!
# The multi-signature treasury

Owners submit and confirm transactions, and anybody executes those that are confirmed: by
enough owners when the value is above a threshold, by one otherwise. Executions count towards
limits per day and per week. An owner can freeze the treasury, which is unfrozen by a call of
the treasury to itself.

## Main definitions

* `State`, `Transaction`: the storage
* `construct`: the deployment
* `submitTransaction`, `confirmTransaction`, `revokeConfirmation`, `executeTransaction`,
  `updateLimits`, `emergencyFreeze`, `unfreezeInternal`: the functions
* `Abi`: the encoding of calls as data
* `contract`: the treasury as a re-entrant contract
-/

namespace Stellara.Treasury

open Evm (Bytes Revert)

/-! ## Storage -/

structure Transaction where
  /-- The field `to` of the source. -/
  dest : Evm.Address
  value : ℕ
  data : Bytes
  executed : Bool
  numConfirmations : ℕ
  created : ℕ
deriving DecidableEq, Repr

/-- The storage of the contract, and its ether. -/
structure State where
  owners : List Evm.Address
  isOwner : Store Evm.Address Bool
  required : ℕ
  dailyLimit : ℕ
  weeklyLimit : ℕ
  threshold : ℕ
  frozen : Bool
  transactions : List Transaction
  isConfirmed : Store (ℕ × Evm.Address) Bool
  dayWindowStart : ℕ
  daySpent : ℕ
  weekWindowStart : ℕ
  weekSpent : ℕ
  balance : ℕ

/-- The contract before its constructor ran, with the ether at its address. -/
def State.blank (balance : ℕ) : State := ⟨[], ∅, 0, 0, 0, 0, false, [], ∅, 0, 0, 0, 0, balance⟩

def State.owns (s : State) (account : Evm.Address) : Bool := (s.isOwner.lookup account).getD false

def State.confirmed (s : State) (txIndex : ℕ) (account : Evm.Address) : Bool :=
  (s.isConfirmed.lookup (txIndex, account)).getD false

/-- The seconds of a day. -/
def day : ℕ := 86400

/-- The seconds of a week. -/
def week : ℕ := 604800

/-! ## Deployment -/

def addOwner (s : State) (o : Evm.Address) : Except Revert State := do
  require (o ≠ 0) (.reason "invalid owner")
  require (s.owns o = false) (.reason "owner not unique")
  .ok { s with isOwner := s.isOwner.insert o true, owners := s.owners ++ [o] }

def construct (now : ℕ) (owners : List Evm.Address) (required dailyLimit weeklyLimit threshold : ℕ)
    (balance : ℕ) : Except Revert State := do
  require (0 < owners.length) (.reason "owners required")
  require (0 < required ∧ required ≤ owners.length) (.reason "invalid required")
  let s ← owners.foldlM addOwner (.blank balance)
  .ok { s with
    required := required
    dailyLimit := dailyLimit
    weeklyLimit := weeklyLimit
    threshold := threshold
    dayWindowStart := now / day
    weekWindowStart := now / week }

/-! ## Functions -/

/-- The functions of the contract, with their arguments. -/
inductive Function where
  | submitTransaction (dest : Evm.Address) (value : ℕ) (data : Bytes)
  | confirmTransaction (txIndex : ℕ)
  | revokeConfirmation (txIndex : ℕ)
  | executeTransaction (txIndex : ℕ)
  | updateLimits (dailyLimit weeklyLimit threshold : ℕ)
  | emergencyFreeze
  | unfreezeInternal
  | getOwners
  | getTransactionCount
  | getTransaction (txIndex : ℕ)
  /-- The getter of the public array `owners`. -/
  | owners (index : ℕ)
  /-- The getter of the public array `transactions`. -/
  | transactions (index : ℕ)
  /-- The getter of another public variable. -/
  | getter
  /-- No data: ether is received. -/
  | receive
deriving DecidableEq, Repr

/-- The functions that change nothing. -/
def Function.isView : Function → Bool
  | .getOwners | .getTransactionCount | .getTransaction _ | .owners _ | .transactions _ | .getter =>
    true
  | _ => false

abbrev Message := Evm.Message Function

/-- The encoding of calls as data: the first four bytes select the function. -/
structure Abi where
  unfreezeSelector : Bytes
  /-- The function that some data calls, with its arguments. -/
  decode : Bytes → Option Function
  decode_nil : decode [] = some .receive
  decode_unfreeze : ∀ data,
    decode data = some .unfreezeInternal ↔ 4 ≤ data.length ∧ data.take 4 = unfreezeSelector

def onlyOwner (sender : Evm.Address) (s : State) : Except Revert Unit :=
  require (s.owns sender = true) (.reason "not owner")

def notFrozen (s : State) : Except Revert Unit := require (s.frozen = false) (.reason "frozen")

def findTransaction (txIndex : ℕ) (s : State) : Except Revert Transaction :=
  orAbort (.reason "tx does not exist") s.transactions[txIndex]?

def setTransaction (txIndex : ℕ) (txn : Transaction) (s : State) : State :=
  { s with transactions := s.transactions.set txIndex txn }

def submitTransaction (now : ℕ) (sender dest : Evm.Address) (value : ℕ) (data : Bytes) (s : State) :
    Except Revert State := do
  onlyOwner sender s
  let txn : Transaction :=
    { dest := dest, value := value, data := data, executed := false, numConfirmations := 0,
      created := now }
  .ok { s with transactions := s.transactions ++ [txn] }

def confirmTransaction (sender : Evm.Address) (txIndex : ℕ) (s : State) : Except Revert State := do
  onlyOwner sender s
  notFrozen s
  let txn ← findTransaction txIndex s
  require (txn.executed = false) (.reason "already executed")
  require (s.confirmed txIndex sender = false) (.reason "already confirmed")
  let s := { s with isConfirmed := s.isConfirmed.insert (txIndex, sender) true }
  let numConfirmations ← Evm.add txn.numConfirmations 1
  .ok (setTransaction txIndex { txn with numConfirmations := numConfirmations } s)

def revokeConfirmation (sender : Evm.Address) (txIndex : ℕ) (s : State) : Except Revert State := do
  onlyOwner sender s
  notFrozen s
  let txn ← findTransaction txIndex s
  require (txn.executed = false) (.reason "already executed")
  require (s.confirmed txIndex sender = true) (.reason "not confirmed")
  let s := { s with isConfirmed := s.isConfirmed.insert (txIndex, sender) false }
  let numConfirmations ← Evm.sub txn.numConfirmations 1
  .ok (setTransaction txIndex { txn with numConfirmations := numConfirmations } s)

/-- The transaction is a call of the contract to its own unfreeze function. -/
def isUnfreezeCall (abi : Abi) (treasury : Evm.Address) (txn : Transaction) : Prop :=
  txn.dest = treasury ∧ 4 ≤ txn.data.length ∧ txn.data.take 4 = abi.unfreezeSelector

instance (abi : Abi) (treasury : Evm.Address) (txn : Transaction) :
    Decidable (isUnfreezeCall abi treasury txn) :=
  inferInstanceAs (Decidable (_ ∧ _ ∧ _))

/-- Require the confirmations that a transaction needs. -/
def requireConfirmations (abi : Abi) (treasury : Evm.Address) (txn : Transaction) (s : State) :
    Except Revert Unit :=
  if isUnfreezeCall abi treasury txn then
    require (s.required ≤ txn.numConfirmations)
      (.reason "insufficient confirmations for unfreeze")
  else if s.threshold < txn.value then
    require (s.required ≤ txn.numConfirmations)
      (.reason "insufficient confirmations for large tx")
  else require (1 ≤ txn.numConfirmations) (.reason "requires at least one confirmation")

/-- Start the current day and week anew. -/
def updateWindows (now : ℕ) (s : State) : State :=
  let s := if s.dayWindowStart ≠ now / day
    then { s with dayWindowStart := now / day, daySpent := 0 } else s
  if s.weekWindowStart ≠ now / week
    then { s with weekWindowStart := now / week, weekSpent := 0 } else s

/-- Enforce a limit if it is set. -/
def enforceLimit (limit spent value : ℕ) (message : String) : Except Revert Unit :=
  if 0 < limit then do
    let total ← Evm.add spent value
    require (total ≤ limit) (.reason message)
  else .ok ()

/-- Execute a transaction, up to the call that it makes. -/
def executeTransaction (abi : Abi) (treasury : Evm.Address) (now txIndex : ℕ) (s : State) :
    Except Revert (State × Exit Message) := do
  notFrozen s
  let txn ← findTransaction txIndex s
  require (txn.executed = false) (.reason "already executed")
  requireConfirmations abi treasury txn s
  let s := updateWindows now s
  enforceLimit s.dailyLimit s.daySpent txn.value "exceeds daily limit"
  enforceLimit s.weeklyLimit s.weekSpent txn.value "exceeds weekly limit"
  let s := setTransaction txIndex { txn with executed := true } s
  let daySpent ← Evm.add s.daySpent txn.value
  let weekSpent ← Evm.add s.weekSpent txn.value
  -- the call sends the value along, and fails when there is not enough ether
  require (txn.value ≤ s.balance) (.reason "tx failed")
  let s := { s with daySpent := daySpent, weekSpent := weekSpent, balance := s.balance - txn.value }
  if txn.dest = treasury then do
    let function ← orAbort (.reason "tx failed") (abi.decode txn.data)
    .ok (s, .self ⟨treasury, txn.value, function⟩)
  else .ok (s, .outside)

def updateLimits (sender : Evm.Address) (dailyLimit weeklyLimit threshold : ℕ) (s : State) :
    Except Revert State := do
  onlyOwner sender s
  .ok { s with dailyLimit := dailyLimit, weeklyLimit := weeklyLimit, threshold := threshold }

def emergencyFreeze (sender : Evm.Address) (s : State) : Except Revert State := do
  onlyOwner sender s
  .ok { s with frozen := true }

def unfreezeInternal (treasury sender : Evm.Address) (s : State) : Except Revert State := do
  require (sender = treasury) (.reason "only self")
  .ok { s with frozen := false }

/-! ## The contract -/

/-- Execute a function up to the call that it makes. -/
def execute (abi : Abi) (treasury : Evm.Address) (now : ℕ) (sender : Evm.Address) (s : State) :
    Function → Except Revert (State × Exit Message)
  | .submitTransaction dest value data =>
    (·, .returns) <$> submitTransaction now sender dest value data s
  | .confirmTransaction txIndex => (·, .returns) <$> confirmTransaction sender txIndex s
  | .revokeConfirmation txIndex => (·, .returns) <$> revokeConfirmation sender txIndex s
  | .executeTransaction txIndex => executeTransaction abi treasury now txIndex s
  | .updateLimits dailyLimit weeklyLimit threshold =>
    (·, .returns) <$> updateLimits sender dailyLimit weeklyLimit threshold s
  | .emergencyFreeze => (·, .returns) <$> emergencyFreeze sender s
  | .unfreezeInternal => (·, .returns) <$> unfreezeInternal treasury sender s
  | .getTransaction index => do
    require (index < s.transactions.length) .outOfBounds
    .ok (s, .returns)
  | .transactions index => do
    require (index < s.transactions.length) .outOfBounds
    .ok (s, .returns)
  | .owners index => do
    require (index < s.owners.length) .outOfBounds
    .ok (s, .returns)
  | .getOwners => .ok (s, .returns)
  | .getTransactionCount => .ok (s, .returns)
  | .getter => .ok (s, .returns)
  | .receive => .ok (s, .returns)

/-- Execute a call up to the call that it makes. Only `receive` takes ether. -/
def enter (abi : Abi) (treasury : Evm.Address) (now : ℕ) (m : Message) (s : State) :
    Except Revert (State × Exit Message) := do
  require (m.value = 0 ∨ m.function = .receive) .notPayable
  execute abi treasury now m.sender { s with balance := s.balance + m.value } m.function

/-- The treasury at its address. Others call it under any address but this. -/
def contract (abi : Abi) (treasury : Evm.Address) : Reentrant State Message Revert where
  enter now m s := enter abi treasury now m s
  admissible m := m.sender ≠ treasury

end Stellara.Treasury
