import Stellara.Shared.CallGuards

/-!
# The cross-chain router

Senders initiate messages to other chains, and relayers verify them: a proof whose hash is the
commitment root of the stored light client header marks a message as processed. The id of a
message is the hash of its payload, and its nonce is the number of the ledger.

## Main definitions

* `Message`, `Validator`, `LightClientHeader`, `State`: the storage of the contract
* `initiateMessage`, `verifyMessage`: the protocol
* `init`, `setChainId`, `registerValidator`, `slashValidator`, `updateLightClient`: the other entry
  points
* `contract`: the router as a transactional contract
* `Step`: what the calls do to the state

## Main results

* `initiateMessage_eq_ok`, `verifyMessage_eq_ok`: when the calls of the protocol return, and what
  they write
* `step_of_execute`: what a call does when it returns
-/

namespace Stellara.Router

/-! ## Storage -/

variable {Hash : Type}

structure Message (Hash : Type) where
  id : Hash
  sourceChain : ℕ
  destChain : ℕ
  sender : Address
  recipient : Address
  payload : List UInt8
  nonce : ℕ
  status : ℕ
  processed : Bool
deriving DecidableEq, Repr

structure Validator where
  address : Address
  stakedAmount : ℤ
  status : ℕ
deriving DecidableEq, Repr

structure LightClientHeader (Hash : Type) where
  blockNumber : ℕ
  blockHash : Hash
  timestamp : ℕ
  commitmentRoot : Hash
deriving DecidableEq, Repr

inductive Event (Hash : Type) where
  | messageInitiated (id : Hash)
  | messageVerified (id : Hash)
  | validatorSlashed (validator : Address)
deriving DecidableEq, Repr

/-- The storage of the contract, and its events. -/
structure State (Hash : Type) where
  admin : Option Address
  initialized : Bool
  nonces : NonceManager.Storage
  status : ReentrancyGuard.Status
  messages : List (Message Hash)
  validators : List Validator
  lightClient : Option (LightClientHeader Hash)
  events : List (Event Hash)

/-- The contract before `init`. -/
def State.empty : State Hash := ⟨none, false, .empty, .inactive, [], [], none, []⟩

/-- The contract has no error codes. -/
abbrev Returns (α : Type) := Outcome Empty α

/-- Run the body of a call under the reentrancy guard. -/
def guarded {α : Type} (body : State Hash → Returns (α × State Hash)) (s : State Hash) :
    Returns (α × State Hash) := do
  let status ← ReentrancyGuard.enter s.status
  let (a, s) ← body { s with status := status }
  .ok (a, { s with status := ReentrancyGuard.exit s.status })

/-! ## Validators and the light client -/

def init (admin : Address) (s : State Hash) : State Hash :=
  { s with admin := some admin, initialized := true }

/-- The administrator of the call authorises it; it need not be the stored one. -/
def setChainId (_admin : Address) (chainId : ℕ) (s : State Hash) : State Hash :=
  { s with nonces := NonceManager.setChainId chainId s.nonces }

def registerValidator (validator : Address) (stakedAmount : ℤ) :
    State Hash → Returns (Bool × State Hash) :=
  guarded fun s =>
    if stakedAmount < 1000000000 then .ok (false, s)
    else .ok (true, { s with validators := s.validators ++ [⟨validator, stakedAmount, 0⟩] })

/-- What a validator loses. -/
def slashAmount (validator : Validator) (slashPercentage : ℕ) : Returns ℤ := do
  let product ← IntFormat.i128.checked .overflow (validator.stakedAmount * slashPercentage)
  .ok (product.tdiv 100)

/-- A slashed validator; without a stake it has the status 2. -/
def slash (slashPercentage : ℕ) (validator : Validator) : Returns Validator := do
  let amount ← slashAmount validator slashPercentage
  let stakedAmount ← IntFormat.i128.checked .overflow (validator.stakedAmount - amount)
  .ok { validator with
    stakedAmount := stakedAmount
    status := if stakedAmount ≤ 0 then 2 else validator.status }

/-- What the first entry of a validator loses, zero without one. -/
def totalSlashed (validators : List Validator) (validator : Address) (slashPercentage : ℕ) :
    Returns ℤ :=
  match validators.find? fun v => v.address = validator with
  | some v => slashAmount v slashPercentage
  | none => .ok 0

def slashValidator (validator : Address) (slashPercentage : ℕ) (s : State Hash) :
    Returns (ℤ × State Hash) := do
  let _ ← orAbort (.panic "called `Option::unwrap()` on a `None` value") s.admin
  guarded (fun s => do
    let amount ← totalSlashed s.validators validator slashPercentage
    let validators ← updateFirst (fun v => v.address = validator) (slash slashPercentage)
      s.validators
    .ok (amount, { s with
      validators := validators
      events := s.events ++ [.validatorSlashed validator] })) s

def updateLightClient (header : LightClientHeader Hash) : State Hash → Returns (Bool × State Hash) :=
  guarded fun s => .ok (true, { s with lightClient := some header })

/-! ## The protocol -/

/-- The message that a call initiates. -/
def newMessage (sha256 : List UInt8 → Hash) (sequence sourceChain destChain : ℕ)
    (sender recipient : Address) (payload : List UInt8) : Message Hash :=
  ⟨sha256 payload, sourceChain, destChain, sender, recipient, payload, sequence, 0, false⟩

/-- The nonce is compared with the recorded ones, and not recorded. -/
def initiateMessage (sha256 : List UInt8 → Hash) (sequence sourceChain destChain : ℕ)
    (sender recipient : Address) (payload : List UInt8) :
    State Hash → Returns (Hash × State Hash) :=
  guarded fun s => do
    NonceManager.enforceSequentialNonce sourceChain sequence s.nonces
    let message := newMessage sha256 sequence sourceChain destChain sender recipient payload
    .ok (message.id, { s with
      messages := s.messages ++ [message]
      events := s.events ++ [.messageInitiated message.id] })

/-- Mark a message as processed. -/
def process (message : Message Hash) : Returns (Message Hash) := do
  require (message.processed = false) (.panic "REPLAY_DETECTED")
  .ok { message with status := 2, processed := true }

variable [DecidableEq Hash]

/-- The header of the call is not read, and without a message of the id nothing is marked. -/
def verifyMessage (sha256 : List UInt8 → Hash) (messageId : Hash)
    (_header : LightClientHeader Hash) (proof : List UInt8) :
    State Hash → Returns (Bool × State Hash) :=
  guarded fun s =>
    match s.lightClient with
    | none => .ok (false, s)
    | some lightClient =>
      if sha256 proof = lightClient.commitmentRoot then do
        let messages ← updateFirst (fun message => message.id = messageId) process s.messages
        .ok (true, { s with
          messages := messages
          events := s.events ++ [.messageVerified messageId] })
      else .ok (false, s)

/-- The status of the first message of the id; the greatest 32-bit integer without one. -/
def getMessageStatus (s : State Hash) (messageId : Hash) : ℕ :=
  ((s.messages.find? fun message => message.id = messageId).map (·.status)).getD 4294967295

/-! ## The contract -/

inductive Call (Hash : Type) where
  | init (admin : Address)
  | setChainId (admin : Address) (chainId : ℕ)
  | initiateMessage (sourceChain destChain : ℕ) (sender recipient : Address)
      (payload : List UInt8)
  | verifyMessage (messageId : Hash) (header : LightClientHeader Hash) (proof : List UInt8)
  | registerValidator (validator : Address) (stakedAmount : ℤ)
  | slashValidator (validator : Address) (slashPercentage : ℕ)
  | updateLightClient (header : LightClientHeader Hash)
deriving DecidableEq, Repr

/-- What a call returns: an id, a verdict, an amount or nothing. -/
inductive Result (Hash : Type) where
  | id (id : Hash)
  | verdict (verdict : Bool)
  | amount (amount : ℤ)
  | unit
deriving DecidableEq, Repr

variable (sha256 : List UInt8 → Hash)

/-- Execute a call in the ledger `sequence`. -/
def execute (sequence : ℕ) (s : State Hash) : Call Hash → Returns (Result Hash × State Hash)
  | .init admin => .ok (.unit, init admin s)
  | .setChainId admin chainId => .ok (.unit, setChainId admin chainId s)
  | .initiateMessage sourceChain destChain sender recipient payload => do
    let (id, s) ← initiateMessage sha256 sequence sourceChain destChain sender recipient payload s
    .ok (.id id, s)
  | .verifyMessage messageId header proof => do
    let (verdict, s) ← verifyMessage sha256 messageId header proof s
    .ok (.verdict verdict, s)
  | .registerValidator validator stakedAmount => do
    let (registered, s) ← registerValidator validator stakedAmount s
    .ok (.verdict registered, s)
  | .slashValidator validator slashPercentage => do
    let (amount, s) ← slashValidator validator slashPercentage s
    .ok (.amount amount, s)
  | .updateLightClient header => do
    let (updated, s) ← updateLightClient header s
    .ok (.verdict updated, s)

/-- The router. Its time is the number of the ledger. -/
def contract : Contract (State Hash) (Call Hash) (Result Hash) (Fault Empty) where
  exec sequence call s := execute sha256 sequence s call

/-! ## What the calls write -/

section Effects

variable {sha256} {s s' : State Hash}

omit [DecidableEq Hash] in
theorem guarded_eq_ok {α : Type} {body : State Hash → Returns (α × State Hash)} {a : α} :
    guarded body s = .ok (a, s') ↔ s.status = .inactive ∧
      ∃ s₁, body { s with status := .active } = .ok (a, s₁) ∧
        s' = { s₁ with status := .inactive } := by
  simp only [guarded, ReentrancyGuard.enter, Except.bind_eq_ok, require_eq_ok, exists_const]
  constructor
  · rintro ⟨_, ⟨hstatus, hactive⟩, ⟨a', s₁⟩, hbody, h⟩
    obtain rfl := Except.ok.inj hactive
    obtain ⟨rfl, rfl⟩ := Prod.mk.inj (Except.ok.inj h)
    refine ⟨?_, s₁, hbody, rfl⟩
    cases hs : s.status with
    | inactive => rfl
    | active => exact absurd hs hstatus
  · rintro ⟨hstatus, s₁, hbody, rfl⟩
    exact ⟨.active, ⟨by simp [hstatus], rfl⟩, (a, s₁), hbody, rfl⟩

omit [DecidableEq Hash] in
theorem initiateMessage_eq_ok {sequence sourceChain destChain : ℕ} {sender recipient : Address}
    {payload : List UInt8} {id : Hash}
    (h : initiateMessage sha256 sequence sourceChain destChain sender recipient payload s =
      .ok (id, s')) :
    id = sha256 payload ∧ s' = { s with
      status := .inactive
      messages := s.messages ++
        [newMessage sha256 sequence sourceChain destChain sender recipient payload]
      events := s.events ++ [.messageInitiated (sha256 payload)] } := by
  obtain ⟨-, s₁, hbody, rfl⟩ := guarded_eq_ok.mp h
  simp only [Except.bind_eq_ok] at hbody
  obtain ⟨_, -, hbody⟩ := hbody
  obtain ⟨rfl, rfl⟩ := Prod.mk.inj (Except.ok.inj hbody)
  exact ⟨rfl, rfl⟩

/-- A verification that returns found the hash of the proof to be the commitment root, and then
marked the first message of the id, or it returned false and marked nothing. -/
theorem verifyMessage_eq_ok {messageId : Hash} {header : LightClientHeader Hash}
    {proof : List UInt8} {verdict : Bool}
    (h : verifyMessage sha256 messageId header proof s = .ok (verdict, s')) :
    (verdict = true ∧ ∃ lc messages, s.lightClient = some lc ∧ sha256 proof = lc.commitmentRoot ∧
        updateFirst (fun message => message.id = messageId) process s.messages = .ok messages ∧
        s' = { s with
          status := .inactive
          messages := messages
          events := s.events ++ [.messageVerified messageId] }) ∨
      verdict = false ∧ s' = { s with status := .inactive } ∧
        ∀ lc, s.lightClient = some lc → sha256 proof ≠ lc.commitmentRoot := by
  obtain ⟨-, s₁, hbody, rfl⟩ := guarded_eq_ok.mp h
  dsimp only at hbody
  split at hbody
  · rename_i hnone
    obtain ⟨rfl, rfl⟩ := Prod.mk.inj (Except.ok.inj hbody)
    exact .inr ⟨rfl, rfl, fun lc hlc => by rw [hnone] at hlc; cases hlc⟩
  · rename_i lc hlc
    split at hbody
    · simp only [Except.bind_eq_ok] at hbody
      obtain ⟨messages, hupdate, hbody⟩ := hbody
      obtain ⟨rfl, rfl⟩ := Prod.mk.inj (Except.ok.inj hbody)
      exact .inl ⟨rfl, lc, messages, hlc, ‹_›, hupdate, rfl⟩
    · rename_i hne
      obtain ⟨rfl, rfl⟩ := Prod.mk.inj (Except.ok.inj hbody)
      refine .inr ⟨rfl, rfl, fun lc' hlc' => ?_⟩
      obtain rfl := Option.some.inj (hlc.symm.trans hlc')
      exact hne

/-- A verification with a matching proof returns true when the message can be marked. -/
theorem verifyMessage_of_match {messageId : Hash} {lc : LightClientHeader Hash}
    (header : LightClientHeader Hash) {proof : List UInt8} {messages : List (Message Hash)}
    (hstatus : s.status = .inactive)
    (hlc : s.lightClient = some lc) (hproof : sha256 proof = lc.commitmentRoot)
    (hupdate : updateFirst (fun message => message.id = messageId) process s.messages =
      .ok messages) :
    ∃ s', verifyMessage sha256 messageId header proof s = .ok (true, s') ∧
      s'.messages = messages := by
  refine ⟨{ s with
    status := .inactive
    messages := messages
    events := s.events ++ [.messageVerified messageId] }, guarded_eq_ok.mpr ⟨hstatus, { s with
      status := .active
      messages := messages
      events := s.events ++ [.messageVerified messageId] }, ?_, rfl⟩, rfl⟩
  simp only [hlc, if_pos hproof, hupdate]
  rfl

variable (sha256) in
/-- What a call does when it returns. The guarded calls leave the guard inactive. -/
inductive Step (sequence : ℕ) (s : State Hash) : Call Hash → Result Hash → State Hash → Prop
  | init (admin : Address) : Step sequence s (.init admin) .unit (init admin s)
  | setChainId (admin : Address) (chainId : ℕ) :
      Step sequence s (.setChainId admin chainId) .unit (setChainId admin chainId s)
  | initiateMessage (sourceChain destChain : ℕ) (sender recipient : Address)
      (payload : List UInt8) :
      Step sequence s (.initiateMessage sourceChain destChain sender recipient payload)
        (.id (sha256 payload)) { s with
          status := .inactive
          messages := s.messages ++
            [newMessage sha256 sequence sourceChain destChain sender recipient payload]
          events := s.events ++ [.messageInitiated (sha256 payload)] }
  | verifyMessage {messageId : Hash} {proof : List UInt8} {lc : LightClientHeader Hash}
      {messages : List (Message Hash)} (header : LightClientHeader Hash)
      (hlc : s.lightClient = some lc) (hproof : sha256 proof = lc.commitmentRoot)
      (hupdate : updateFirst (fun message => message.id = messageId) process s.messages =
        .ok messages) :
      Step sequence s (.verifyMessage messageId header proof) (.verdict true) { s with
        status := .inactive
        messages := messages
        events := s.events ++ [.messageVerified messageId] }
  | rejectMessage {proof : List UInt8} (messageId : Hash) (header : LightClientHeader Hash)
      (hne : ∀ lc, s.lightClient = some lc → sha256 proof ≠ lc.commitmentRoot) :
      Step sequence s (.verifyMessage messageId header proof) (.verdict false)
        { s with status := .inactive }
  | registerValidator {validator : Address} {stakedAmount : ℤ}
      (hstake : 1000000000 ≤ stakedAmount) :
      Step sequence s (.registerValidator validator stakedAmount) (.verdict true) { s with
        status := .inactive
        validators := s.validators ++ [⟨validator, stakedAmount, 0⟩] }
  | refuseValidator {validator : Address} {stakedAmount : ℤ}
      (hstake : stakedAmount < 1000000000) :
      Step sequence s (.registerValidator validator stakedAmount) (.verdict false)
        { s with status := .inactive }
  | slashValidator {validator : Address} {slashPercentage : ℕ} {amount : ℤ}
      {validators : List Validator} (hadmin : s.admin.isSome)
      (hupdate : updateFirst (fun v => v.address = validator) (slash slashPercentage)
        s.validators = .ok validators) :
      Step sequence s (.slashValidator validator slashPercentage) (.amount amount) { s with
        status := .inactive
        validators := validators
        events := s.events ++ [.validatorSlashed validator] }
  | updateLightClient (header : LightClientHeader Hash) :
      Step sequence s (.updateLightClient header) (.verdict true) { s with
        status := .inactive
        lightClient := some header }

theorem step_of_execute {sequence : ℕ} {call : Call Hash} {r : Result Hash}
    (h : execute sha256 sequence s call = .ok (r, s')) : Step sha256 sequence s call r s' := by
  cases call with
  | init admin =>
    obtain ⟨rfl, rfl⟩ := Prod.mk.inj (Except.ok.inj h)
    exact .init admin
  | setChainId admin chainId =>
    obtain ⟨rfl, rfl⟩ := Prod.mk.inj (Except.ok.inj h)
    exact .setChainId admin chainId
  | initiateMessage sourceChain destChain sender recipient payload =>
    simp only [execute, Except.bind_eq_ok] at h
    obtain ⟨⟨id, s₁⟩, h₁, h⟩ := h
    obtain ⟨rfl, rfl⟩ := Prod.mk.inj (Except.ok.inj h)
    obtain ⟨rfl, rfl⟩ := initiateMessage_eq_ok h₁
    exact .initiateMessage sourceChain destChain sender recipient payload
  | verifyMessage messageId header proof =>
    simp only [execute, Except.bind_eq_ok] at h
    obtain ⟨⟨verdict, s₁⟩, h₁, h⟩ := h
    obtain ⟨rfl, rfl⟩ := Prod.mk.inj (Except.ok.inj h)
    rcases verifyMessage_eq_ok h₁ with ⟨rfl, lc, messages, hlc, hproof, hupdate, rfl⟩ |
      ⟨rfl, rfl, hne⟩
    · exact .verifyMessage header hlc hproof hupdate
    · exact .rejectMessage messageId header hne
  | registerValidator validator stakedAmount =>
    simp only [execute, registerValidator, Except.bind_eq_ok] at h
    obtain ⟨⟨registered, s₁⟩, h₁, h⟩ := h
    obtain ⟨rfl, rfl⟩ := Prod.mk.inj (Except.ok.inj h)
    obtain ⟨-, s₂, hbody, rfl⟩ := guarded_eq_ok.mp h₁
    dsimp only at hbody
    split at hbody
    · obtain ⟨rfl, rfl⟩ := Prod.mk.inj (Except.ok.inj hbody)
      exact .refuseValidator ‹_›
    · obtain ⟨rfl, rfl⟩ := Prod.mk.inj (Except.ok.inj hbody)
      exact .registerValidator (not_lt.mp ‹_›)
  | slashValidator validator slashPercentage =>
    simp only [execute, slashValidator, Except.bind_eq_ok, orAbort_eq_ok] at h
    obtain ⟨⟨amount, s₁⟩, ⟨admin, hadmin, h₁⟩, h⟩ := h
    obtain ⟨rfl, rfl⟩ := Prod.mk.inj (Except.ok.inj h)
    obtain ⟨-, s₂, hbody, rfl⟩ := guarded_eq_ok.mp h₁
    simp only [Except.bind_eq_ok] at hbody
    obtain ⟨_, -, validators, hupdate, hbody⟩ := hbody
    obtain ⟨rfl, rfl⟩ := Prod.mk.inj (Except.ok.inj hbody)
    exact .slashValidator (by rw [hadmin, Option.isSome_some]) hupdate
  | updateLightClient header =>
    simp only [execute, updateLightClient, Except.bind_eq_ok] at h
    obtain ⟨⟨updated, s₁⟩, h₁, h⟩ := h
    obtain ⟨rfl, rfl⟩ := Prod.mk.inj (Except.ok.inj h)
    obtain ⟨-, s₂, hbody, rfl⟩ := guarded_eq_ok.mp h₁
    obtain ⟨rfl, rfl⟩ := Prod.mk.inj (Except.ok.inj hbody)
    exact .updateLightClient header

/-- No call leaves the guard active. -/
theorem Step.status {sequence : ℕ} {call : Call Hash} {r : Result Hash}
    (h : Step sha256 sequence s call r s') (hstatus : s.status = .inactive) :
    s'.status = .inactive := by
  cases h with
  | init => exact hstatus
  | setChainId => exact hstatus
  | _ => rfl

end Effects

end Stellara.Router
