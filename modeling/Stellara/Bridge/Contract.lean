import Stellara.Host.Xdr

/-!
# The bridge

The bridge publishes deposits for other chains and releases withdrawals that were announced on
other chains. A withdrawal comes with a list of signatures, of which the bridge asks for as many
as its configured threshold, and it is released once for every nonce of its source chain.

## Main definitions

* `BridgeConfig`, `RateLimit`, `State`: the storage of the contract
* `withdrawalData`: what is hashed into the message that validators sign
* `verifyValidatorSignatures`: what is checked of the signatures
* `init`, `deposit`, `withdraw`, `addValidator`, `removeValidator`, `setRateLimit`, `setPaused`: the
  entry points
* `contract`: the bridge as a transactional contract

## Main results

* `withdraw_eq_ok`: when a withdrawal succeeds, and what it writes
-/

namespace Stellara.Bridge

/-! ## Storage -/

structure BridgeConfig where
  admin : Address
  feeCollector : Address
  isPaused : Bool
  validatorThreshold : ℕ
  chainId : ℕ
deriving DecidableEq, Repr

structure RateLimit where
  limit : ℤ
  window : ℕ
  currentUsage : ℤ
  lastUpdate : ℕ
deriving DecidableEq, Repr

section Messages

variable {Hash Signature : Type}

inductive Event (Hash : Type) where
  | deposit (src asset : Address) (destChain : ℕ) (amount : ℤ) (recipient : Address)
      (depositId : Hash) (nonce : ℕ)
  | withdraw (dst asset : Address) (sourceChain : ℕ) (amount : ℤ) (withdrawalId : Hash) (nonce : ℕ)
deriving DecidableEq, Repr

/-- The storage of the contract, and its events. The nonces are kept by source chain. -/
structure State (Hash : Type) where
  config : Option BridgeConfig
  validators : List Address
  nonces : Store (ℕ × ℕ) Bool
  rateLimits : Store Address RateLimit
  events : List (Event Hash)

/-- The contract before `init`. -/
def State.empty : State Hash := ⟨none, [], ∅, ∅, []⟩

/-- The contract panics; its error codes are not used. -/
abbrev Returns (α : Type) := Outcome Empty α

def getConfig (s : State Hash) : Returns BridgeConfig :=
  orAbort (.panic "Not initialized") s.config

/-! ## Deposits -/

/-- `initialize`. -/
def init (admin feeCollector : Address) (validatorThreshold chainId : ℕ) (s : State Hash) :
    Returns (State Hash) := do
  require (s.config = none) (.panic "Already initialized")
  .ok { s with config := some ⟨admin, feeCollector, false, validatorThreshold, chainId⟩ }

/-- The limit at the time `now`, with the usage of a window that has not ended. -/
def currentLimit (now : ℕ) (rl : RateLimit) : Returns RateLimit := do
  let windowEnd ← IntFormat.u64.checkedNat .overflow (rl.lastUpdate + rl.window)
  .ok (if windowEnd ≤ now then { rl with currentUsage := 0, lastUpdate := now } else rl)

def checkRateLimit (now : ℕ) (asset : Address) (amount : ℤ) (s : State Hash) :
    Returns (State Hash) :=
  match s.rateLimits.lookup asset with
  | none => .ok s
  | some rl => do
    let rl ← currentLimit now rl
    let usage ← IntFormat.i128.checked .overflow (rl.currentUsage + amount)
    require (usage ≤ rl.limit) (.panic "Rate limit exceeded")
    .ok { s with rateLimits := s.rateLimits.insert asset { rl with currentUsage := usage } }

variable (sha256 : List UInt8 → Hash)

def depositData (src asset : Address) (amount : ℤ) (destChain : ℕ) (recipient : Address)
    (nonce : ℕ) : List UInt8 :=
  addressXdr src ++ addressXdr asset ++ i128Xdr amount ++ u32Xdr destChain ++
    addressXdr recipient ++ u64Xdr nonce

/-- The nonce of a deposit is the number of its ledger. -/
def deposit (ledger : Ledger) (src asset : Address) (amount : ℤ) (destChain : ℕ)
    (recipient : Address) (s : State Hash) : Returns (Hash × State Hash) := do
  let config ← getConfig s
  require (config.isPaused = false) (.panic "Bridge paused")
  let s ← checkRateLimit ledger.timestamp asset amount s
  let depositId := sha256 (depositData src asset amount destChain recipient ledger.sequence)
  let event := .deposit src asset destChain amount recipient depositId ledger.sequence
  .ok (depositId, { s with events := s.events ++ [event] })

/-! ## Withdrawals -/

def withdrawalData (dst asset : Address) (amount : ℤ) (sourceChain nonce : ℕ) : List UInt8 :=
  addressXdr dst ++ addressXdr asset ++ i128Xdr amount ++ u32Xdr sourceChain ++ u64Xdr nonce

/-- The message that the validators sign. -/
def messageHash (dst asset : Address) (amount : ℤ) (sourceChain nonce : ℕ) : Hash :=
  sha256 (withdrawalData dst asset amount sourceChain nonce)

/-- What is checked of the signatures: how many they are. The hash is not read. -/
def verifyValidatorSignatures (_hash : Hash) (signatures : List Signature) (threshold : ℕ)
    (s : State Hash) : Returns Unit := do
  require (threshold ≤ signatures.length) (.panic "Insufficient signatures")
  require (threshold ≤ s.validators.length) (.panic "Not enough registered validators")

def withdraw (dst asset : Address) (amount : ℤ) (sourceChain nonce : ℕ)
    (signatures : List Signature) (s : State Hash) : Returns (Hash × State Hash) := do
  let config ← getConfig s
  require (config.isPaused = false) (.panic "Bridge paused")
  let hash := messageHash sha256 dst asset amount sourceChain nonce
  verifyValidatorSignatures hash signatures config.validatorThreshold s
  require (s.nonces.lookup (sourceChain, nonce) = none) (.panic "Replay attack")
  .ok (hash, { s with
    nonces := s.nonces.insert (sourceChain, nonce) true
    events := s.events ++ [.withdraw dst asset sourceChain amount hash nonce] })

/-! ## Administration -/

def addValidator (validator : Address) (s : State Hash) : Returns (State Hash) := do
  let _ ← getConfig s
  .ok (if validator ∈ s.validators then s
    else { s with validators := s.validators ++ [validator] })

def removeValidator (validator : Address) (s : State Hash) : Returns (State Hash) := do
  let _ ← getConfig s
  .ok { s with validators := s.validators.filter fun v => v ≠ validator }

def setRateLimit (now : ℕ) (asset : Address) (limit : ℤ) (window : ℕ) (s : State Hash) :
    Returns (State Hash) := do
  let _ ← getConfig s
  .ok { s with rateLimits := s.rateLimits.insert asset ⟨limit, window, 0, now⟩ }

def setPaused (paused : Bool) (s : State Hash) : Returns (State Hash) := do
  let config ← getConfig s
  .ok { s with config := some { config with isPaused := paused } }

/-! ## The contract -/

inductive Call (Signature : Type) where
  | init (admin feeCollector : Address) (validatorThreshold chainId : ℕ)
  | deposit (src asset : Address) (amount : ℤ) (destChain : ℕ) (recipient : Address)
  | withdraw (dst asset : Address) (amount : ℤ) (sourceChain nonce : ℕ)
      (signatures : List Signature)
  | addValidator (validator : Address)
  | removeValidator (validator : Address)
  | setRateLimit (asset : Address) (limit : ℤ) (window : ℕ)
  | setPaused (paused : Bool)
deriving DecidableEq, Repr

/-- Execute a call. What it returns is the id of a deposit or a withdrawal, or nothing. -/
def execute (ledger : Ledger) (s : State Hash) :
    Call Signature → Returns (Option Hash × State Hash)
  | .init admin feeCollector validatorThreshold chainId => do
    .ok (none, ← init admin feeCollector validatorThreshold chainId s)
  | .deposit src asset amount destChain recipient => do
    let (id, s) ← deposit sha256 ledger src asset amount destChain recipient s
    .ok (some id, s)
  | .withdraw dst asset amount sourceChain nonce signatures => do
    let (id, s) ← withdraw sha256 dst asset amount sourceChain nonce signatures s
    .ok (some id, s)
  | .addValidator validator => do .ok (none, ← addValidator validator s)
  | .removeValidator validator => do .ok (none, ← removeValidator validator s)
  | .setRateLimit asset limit window => do
    .ok (none, ← setRateLimit ledger.timestamp asset limit window s)
  | .setPaused paused => do .ok (none, ← setPaused paused s)

/-- The bridge. Its time is the number of the ledger, and `clock` gives the timestamps. -/
def contract (Signature : Type) (clock : ℕ → ℕ) :
    Contract (State Hash) (Call Signature) (Option Hash) (Fault Empty) where
  exec sequence call s := execute sha256 ⟨sequence, clock sequence⟩ s call

variable {sha256}

theorem withdraw_eq_ok {dst asset : Address} {amount : ℤ} {sourceChain nonce : ℕ}
    {signatures : List Signature} {s s' : State Hash} {id : Hash} :
    withdraw sha256 dst asset amount sourceChain nonce signatures s = .ok (id, s') ↔
      (∃ config, s.config = some config ∧ config.isPaused = false ∧
        config.validatorThreshold ≤ signatures.length ∧
        config.validatorThreshold ≤ s.validators.length) ∧
      s.nonces.lookup (sourceChain, nonce) = none ∧
      id = messageHash sha256 dst asset amount sourceChain nonce ∧
      s' = { s with
        nonces := s.nonces.insert (sourceChain, nonce) true
        events := s.events ++ [.withdraw dst asset sourceChain amount id nonce] } := by
  simp only [withdraw, getConfig, verifyValidatorSignatures, Except.bind_eq_ok, orAbort_eq_ok,
    require_eq_ok, exists_const]
  constructor
  · rintro ⟨config, hconfig, hpaused, ⟨hsigs, hvals⟩, hfresh, h⟩
    obtain ⟨rfl, rfl⟩ := Prod.mk.inj (Except.ok.inj h)
    exact ⟨⟨config, hconfig, hpaused, hsigs, hvals⟩, hfresh, rfl, rfl⟩
  · rintro ⟨⟨config, hconfig, hpaused, hsigs, hvals⟩, hfresh, rfl, rfl⟩
    exact ⟨config, hconfig, hpaused, ⟨hsigs, hvals⟩, hfresh, rfl⟩

end Messages

end Stellara.Bridge
