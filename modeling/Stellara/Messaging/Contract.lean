import Stellara.Shared.Acl
import Stellara.Shared.CallGuards
import Stellara.Shared.CircuitBreaker

/-!
# The messaging contract

Users send plain and encrypted messages to each other, and mark the ones they received as read. The
two kinds have their own stores and indexes, and share the ids, the unread counts and the
statistics.

## Main definitions

* `Message`, `Mailbox`, `Mail`: the messages with their indexes and counters
* `RateLimits.checkAndConsume`: the rate limit of a sender
* `send`, `mark`: what the entry points for the two kinds have in common
* `sendMessage`, `markAsRead`, `sendEncryptedMessage`, `markEncryptedAsRead`: the entry points
* `contract`: the messaging contract as a transactional contract

## Main results

* `send_eq_ok`, `mark_eq_ok`: what the calls that return have checked and written
-/

namespace Stellara.Messaging

/-! ## Storage -/

/-- Plain and encrypted messages. -/
inductive Kind where
  | plain
  | encrypted
deriving DecidableEq, Repr

/-- The records `Message` and `EncryptedMessage`; a payload is a string of bytes in both. -/
structure Message where
  id : ℕ
  sender : Address
  recipient : Address
  payload : List UInt8
  timestamp : ℕ
  read : Bool
  processed : Bool
deriving DecidableEq, Repr

structure MessagingStats where
  totalMessages : ℕ
  unreadMessages : ℕ
  lastMessageId : ℕ
deriving DecidableEq, Repr

structure RateLimitConfig where
  windowSecs : ℕ
  userLimit : ℕ
  globalLimit : ℕ
  premiumUserLimit : ℕ
deriving DecidableEq, Repr

inductive MessagingError where
  | unauthorized
  | invalidPayload
  | invalidRecipient
  | messageNotFound
  | alreadyRead
  | notInitialized
  | rateLimitExceeded
  | globalRateLimitExceeded
  | invalidRateLimitConfig
deriving DecidableEq, Repr

/-- The events `msg_sent` and `emsg_sent`, and `msg_read` and `emsg_read`. -/
inductive Event where
  | messageSent (kind : Kind) (messageId : ℕ) (sender recipient : Address)
      (timestamp payloadLength : ℕ)
  | messageRead (kind : Kind) (messageId : ℕ) (recipient sender : Address) (timestamp : ℕ)
deriving DecidableEq, Repr

/-- The entries `msgs`, `inbox` and `sent`, or `enc_msgs`, `einbox` and `esent`. -/
structure Mailbox where
  messages : Store ℕ Message
  inbox : Store Address (List ℕ)
  sent : Store Address (List ℕ)

/-- The mailboxes of the two kinds, and the entries `unread` and `stats`. -/
structure Mail where
  mailboxes : Kind → Mailbox
  unread : Store Address ℕ
  stats : Option MessagingStats

/-- The entries `rl_cfg`, `prem`, `rlu` and `rlg`. -/
structure RateLimits where
  cfg : Option RateLimitConfig
  premiumUsers : Store Address Bool
  userUsage : Store (Address × ℕ) ℕ
  globalUsage : Store ℕ ℕ

/-- The storage of the contract, and its events. -/
structure State where
  initialized : Bool
  acl : ACL.Storage
  limits : RateLimits
  breaker : CircuitBreaker.Storage
  status : ReentrancyGuard.Status
  nonces : NonceManager.Storage
  mail : Mail
  events : List Event

/-- No messages yet. -/
def Mail.empty : Mail := ⟨fun _ => ⟨∅, ∅, ∅⟩, ∅, none⟩

/-- The contract before `init`. -/
def State.empty : State where
  initialized := false
  acl := .empty
  limits := ⟨none, ∅, ∅, ∅⟩
  breaker := .empty
  status := .inactive
  nonces := .empty
  mail := .empty
  events := []

def maxMessageLength : ℕ := 1024

abbrev Returns (α : Type) := Outcome MessagingError α

/-! ## Messages, indexes and counters -/

def getUserMessageIds (index : Store Address (List ℕ)) (user : Address) : List ℕ :=
  (index.lookup user).getD []

/-- Append an id to the list of a user. -/
def pushUserMessageId (index : Store Address (List ℕ)) (user : Address) (id : ℕ) :
    Store Address (List ℕ) :=
  index.insert user (getUserMessageIds index user ++ [id])

/-- Store a message under its id, and add the id to the lists of its recipient and its sender. -/
def Mailbox.post (mailbox : Mailbox) (message : Message) : Mailbox where
  messages := mailbox.messages.insert message.id message
  inbox := pushUserMessageId mailbox.inbox message.recipient message.id
  sent := pushUserMessageId mailbox.sent message.sender message.id

namespace Mail

/-- The stored message of a kind with an id. -/
def message? (m : Mail) (kind : Kind) (id : ℕ) : Option Message :=
  (m.mailboxes kind).messages.lookup id

def getUnreadCount (m : Mail) (user : Address) : ℕ := (m.unread.lookup user).getD 0

def getStatsInternal (m : Mail) : MessagingStats := m.stats.getD ⟨0, 0, 0⟩

/-- Store a new message, and count it as unread. -/
def deliver (kind : Kind) (message : Message) (m : Mail) : Mail where
  mailboxes := Function.update m.mailboxes kind ((m.mailboxes kind).post message)
  unread := m.unread.insert message.recipient (m.getUnreadCount message.recipient + 1)
  stats := some ⟨m.getStatsInternal.totalMessages + 1, m.getStatsInternal.unreadMessages + 1,
    message.id⟩

/-- Store the message of an id as read, and take it off the unread ones. The differences are zero
where they would be negative. -/
def acknowledge (kind : Kind) (id : ℕ) (message : Message) (m : Mail) : Mail where
  mailboxes := Function.update m.mailboxes kind { m.mailboxes kind with
    messages := (m.mailboxes kind).messages.insert id { message with read := true } }
  unread := m.unread.insert message.recipient (m.getUnreadCount message.recipient - 1)
  stats := some { m.getStatsInternal with
    unreadMessages := m.getStatsInternal.unreadMessages - 1 }

end Mail

/-! ## Rate limits -/

namespace RateLimits

/-- The limits that hold from the start. -/
def defaultConfig : RateLimitConfig := ⟨60, 5, 100, 20⟩

def readConfig (l : RateLimits) : RateLimitConfig := l.cfg.getD defaultConfig

def isPremiumUser (l : RateLimits) (user : Address) : Bool := (l.premiumUsers.lookup user).getD false

def getUserWindowUsage (l : RateLimits) (user : Address) (window : ℕ) : ℕ :=
  (l.userUsage.lookup (user, window)).getD 0

def getGlobalWindowUsage (l : RateLimits) (window : ℕ) : ℕ := (l.globalUsage.lookup window).getD 0

/-- A configuration in which nothing is zero. -/
def valid (cfg : RateLimitConfig) : Prop :=
  ¬ (cfg.windowSecs = 0 ∨ cfg.userLimit = 0 ∨ cfg.globalLimit = 0 ∨ cfg.premiumUserLimit = 0)

instance (cfg : RateLimitConfig) : Decidable (valid cfg) := inferInstanceAs (Decidable (¬ _))

/-- `u32::saturating_add(1)`. -/
def saturatingSucc (count : ℕ) : ℕ := min (count + 1) 4294967295

/-- Count one message of `sender` in the current window, unless a limit is reached. -/
def checkAndConsume (now : ℕ) (sender : Address) (l : RateLimits) : Returns RateLimits := do
  let cfg := l.readConfig
  require (valid cfg) (.error .invalidRateLimitConfig)
  let window := now / cfg.windowSecs
  let currentUser := l.getUserWindowUsage sender window
  let currentGlobal := l.getGlobalWindowUsage window
  let allowedUserLimit := if l.isPremiumUser sender then cfg.premiumUserLimit else cfg.userLimit
  require (currentUser < allowedUserLimit) (.error .rateLimitExceeded)
  require (currentGlobal < cfg.globalLimit) (.error .globalRateLimitExceeded)
  .ok { l with
    userUsage := l.userUsage.insert (sender, window) (saturatingSucc currentUser)
    globalUsage := l.globalUsage.insert window (saturatingSucc currentGlobal) }

end RateLimits

/-! ## Administration -/

/-- The permissions of the administrator. -/
def adminAcl (admin : Address) (acl : ACL.Storage) : ACL.Storage :=
  ACL.assignPermission "admin" "manage_acl" <| ACL.assignPermission "admin" "premium" <|
  ACL.assignPermission "admin" "set_rate" <| ACL.assignRole admin "admin" <|
  ACL.createRole "admin" acl

def init (now : ℕ) (admin : Address) (cbConfig : CircuitBreakerConfig) (s : State) :
    Returns State := do
  require (s.initialized = false) (.error .unauthorized)
  .ok { s with
    initialized := true
    acl := adminAcl admin s.acl
    mail := { s.mail with stats := some ⟨0, 0, 0⟩ }
    limits := { s.limits with cfg := some RateLimits.defaultConfig, premiumUsers := ∅ }
    nonces := NonceManager.setChainId 0 s.nonces
    breaker := CircuitBreaker.init now cbConfig s.breaker }

def requireInitialized (s : State) : Returns Unit :=
  require (s.initialized = true) (.error .notInitialized)

def setRateLimitConfig (admin : Address) (cfg : RateLimitConfig) (s : State) : Returns State := do
  requireInitialized s
  ACL.requirePermission admin "set_rate" s.acl
  require (RateLimits.valid cfg) (.error .invalidRateLimitConfig)
  .ok { s with limits := { s.limits with cfg := some cfg } }

def setPremiumUser (admin user : Address) (premium : Bool) (s : State) : Returns State := do
  requireInitialized s
  ACL.requirePermission admin "premium" s.acl
  .ok { s with
    limits := { s.limits with premiumUsers := s.limits.premiumUsers.insert user premium } }

/-! ## Sending and reading -/

/-- The name under which the circuit breaker pauses the sending of a kind. -/
def Kind.sendFunction : Kind → Symbol
  | .plain => "send_m"
  | .encrypted => "send_em"

/-- The guards of a sending call. The number of the ledger is its nonce. -/
def guardSend (kind : Kind) (ledger : Ledger) (sender : Address) (s : State) : Returns State := do
  requireInitialized s
  let limits ← s.limits.checkAndConsume ledger.timestamp sender
  CircuitBreaker.requireNotPaused s.breaker kind.sendFunction
  let status ← ReentrancyGuard.enter s.status
  NonceManager.enforceSequentialNonce 0 ledger.sequence s.nonces
  let nonces ← NonceManager.recordAndVerify 0 ledger.sequence s.nonces
  let breaker ← CircuitBreaker.trackActivity ledger.timestamp 1 s.breaker
  .ok { s with limits := limits, status := status, nonces := nonces, breaker := breaker }

/-- Send a message of a kind. -/
def send (kind : Kind) (ledger : Ledger) (sender recipient : Address) (payload : List UInt8)
    (s : State) : Returns (ℕ × State) := do
  let s ← guardSend kind ledger sender s
  require (sender ≠ recipient) (.error .invalidRecipient)
  require (¬ (payload.length = 0 ∨ maxMessageLength < payload.length)) (.error .invalidPayload)
  let stats := s.mail.getStatsInternal
  let messageId ← IntFormat.u64.checkedNat .overflow (stats.lastMessageId + 1)
  let message : Message := ⟨messageId, sender, recipient, payload, ledger.timestamp, false, true⟩
  -- the counters that the message is added to
  let _ ← IntFormat.u32.checkedNat .overflow (s.mail.getUnreadCount recipient + 1)
  let _ ← IntFormat.u64.checkedNat .overflow (stats.totalMessages + 1)
  let _ ← IntFormat.u64.checkedNat .overflow (stats.unreadMessages + 1)
  let event := .messageSent kind messageId sender recipient ledger.timestamp payload.length
  .ok (messageId, { s with
    mail := s.mail.deliver kind message
    status := ReentrancyGuard.exit s.status
    events := s.events ++ [event] })

/-- Mark a received message of a kind as read. -/
def mark (kind : Kind) (ledger : Ledger) (recipient : Address) (messageId : ℕ) (s : State) :
    Returns State := do
  requireInitialized s
  let message ← orAbort (.error .messageNotFound) (s.mail.message? kind messageId)
  require (message.recipient = recipient) (.error .unauthorized)
  require (message.read = false) (.error .alreadyRead)
  let status ← ReentrancyGuard.enter s.status
  let event := .messageRead kind messageId recipient message.sender ledger.timestamp
  .ok { s with
    mail := s.mail.acknowledge kind messageId message
    status := ReentrancyGuard.exit status
    events := s.events ++ [event] }

def sendMessage : Ledger → Address → Address → List UInt8 → State → Returns (ℕ × State) :=
  send .plain

def sendEncryptedMessage : Ledger → Address → Address → List UInt8 → State → Returns (ℕ × State) :=
  send .encrypted

def markAsRead : Ledger → Address → ℕ → State → Returns State := mark .plain

def markEncryptedAsRead : Ledger → Address → ℕ → State → Returns State := mark .encrypted

/-! ## The contract -/

inductive Call where
  | init (admin : Address) (cbConfig : CircuitBreakerConfig)
  | setRateLimitConfig (admin : Address) (cfg : RateLimitConfig)
  | setPremiumUser (admin user : Address) (premium : Bool)
  | sendMessage (sender recipient : Address) (payload : List UInt8)
  | sendEncryptedMessage (sender recipient : Address) (payload : List UInt8)
  | markAsRead (recipient : Address) (messageId : ℕ)
  | markEncryptedAsRead (recipient : Address) (messageId : ℕ)
deriving DecidableEq, Repr

/-- Execute a call. What it returns is the id of a message, or nothing. -/
def execute (ledger : Ledger) (s : State) : Call → Returns (Option ℕ × State)
  | .init admin cbConfig => do .ok (none, ← init ledger.timestamp admin cbConfig s)
  | .setRateLimitConfig admin cfg => do .ok (none, ← setRateLimitConfig admin cfg s)
  | .setPremiumUser admin user premium => do .ok (none, ← setPremiumUser admin user premium s)
  | .sendMessage sender recipient payload => do
    let (id, s) ← sendMessage ledger sender recipient payload s
    .ok (some id, s)
  | .sendEncryptedMessage sender recipient payload => do
    let (id, s) ← sendEncryptedMessage ledger sender recipient payload s
    .ok (some id, s)
  | .markAsRead recipient messageId => do .ok (none, ← markAsRead ledger recipient messageId s)
  | .markEncryptedAsRead recipient messageId => do
    .ok (none, ← markEncryptedAsRead ledger recipient messageId s)

/-- The messaging contract. Its time is the number of the ledger, and `clock` gives the
timestamps. -/
def contract (clock : ℕ → ℕ) : Contract State Call (Option ℕ) (Fault MessagingError) where
  exec sequence call s := execute ⟨sequence, clock sequence⟩ s call

/-! ## What the calls write -/

variable {kind : Kind} {ledger : Ledger} {sender recipient : Address} {payload : List UInt8}
  {s s' : State} {id : ℕ}

/-- The guards leave the messages. -/
theorem guardSend_eq_ok (h : guardSend kind ledger sender s = .ok s') :
    s'.mail = s.mail ∧ s.initialized = true ∧ s'.initialized = true := by
  simp only [guardSend, requireInitialized, Except.bind_eq_ok, require_eq_ok, exists_const] at h
  obtain ⟨hinit, limits, -, _, -, status, -, _, -, nonces, -, breaker, -, h⟩ := h
  obtain rfl := Except.ok.inj h
  exact ⟨rfl, hinit, hinit⟩

/-- A message that is sent gets the next id, and it is delivered. -/
theorem send_eq_ok (h : send kind ledger sender recipient payload s = .ok (id, s')) :
    s.initialized = true ∧ s'.initialized = true ∧ sender ≠ recipient ∧
      id = s.mail.getStatsInternal.lastMessageId + 1 ∧
      s'.mail = s.mail.deliver kind
        ⟨id, sender, recipient, payload, ledger.timestamp, false, true⟩ := by
  simp only [send, Except.bind_eq_ok, require_eq_ok, exists_const, IntFormat.checkedNat_eq_ok] at h
  obtain ⟨s₁, hguard, hne, -, _, ⟨-, rfl⟩, _, ⟨-, rfl⟩, _, ⟨-, rfl⟩, _, ⟨-, rfl⟩, h⟩ := h
  obtain ⟨hmail, hinit, hinit₁⟩ := guardSend_eq_ok hguard
  obtain ⟨rfl, rfl⟩ := Prod.mk.inj (Except.ok.inj h)
  exact ⟨hinit, hinit₁, hne, by rw [hmail], by rw [hmail]⟩

/-- A message that is marked is a stored one of its recipient that was not read before. -/
theorem mark_eq_ok (h : mark kind ledger recipient id s = .ok s') :
    s.initialized = true ∧ s'.initialized = true ∧ ∃ message, s.mail.message? kind id = some message ∧
      message.recipient = recipient ∧ message.read = false ∧
      s'.mail = s.mail.acknowledge kind id message := by
  simp only [mark, requireInitialized, Except.bind_eq_ok, require_eq_ok, exists_const,
    orAbort_eq_ok] at h
  obtain ⟨hinit, message, hmessage, hrecipient, hread, status, -, h⟩ := h
  obtain rfl := Except.ok.inj h
  exact ⟨hinit, hinit, message, hmessage, hrecipient, hread, rfl⟩

end Stellara.Messaging
