import Stellara.Messaging.Contract

/-!
# Independence of the senders

A message is accepted when the contract serves the ledger, the global limit and the circuit breaker
let the call pass, and the sender and the recipient have room for it. The nonce of a message is the
number of the ledger, whoever sends it, so the first message of a ledger spends the nonce of all
senders.

## Main definitions

* `Accepted`: a message is accepted
* `Serves`, `Lets`, `HasRoom`, `Valid`: the conditions of the ledger, of the limits for everybody,
  of the two users, and of the message itself
* `SentByOthers`: messages that other senders sent in one ledger

## Main results

* `accepted_iff`: a message is accepted exactly when the four conditions hold
* `not_serves_of_send`: a ledger serves one message
* `sender_independent_iff`: when what other senders sent does not matter for a sender
-/

namespace Stellara.Messaging

variable {kind : Kind} {ledger : Ledger} {sender recipient : Address} {payload : List UInt8}
  {s s' s₁ s₂ : State} {id : ℕ}

/-! ## Acceptance -/

/-- The message is sent when its sender calls. -/
def Accepted (kind : Kind) (ledger : Ledger) (sender recipient : Address) (payload : List UInt8)
    (s : State) : Prop :=
  ∃ p, send kind ledger sender recipient payload s = .ok p

/-- A message that is valid by itself. -/
structure Valid (sender recipient : Address) (payload : List UInt8) : Prop where
  other : sender ≠ recipient
  length : ¬ (payload.length = 0 ∨ maxMessageLength < payload.length)

/-- The window of the rate limits at a time. -/
def window (ledger : Ledger) (s : State) : ℕ := ledger.timestamp / s.limits.readConfig.windowSecs

/-- The contract serves a message in the ledger, whoever sends it: its nonce is not spent, and no
counter of all messages is at its maximum. -/
structure Serves (ledger : Ledger) (s : State) : Prop where
  initialized : s.initialized = true
  cfg : RateLimits.valid s.limits.readConfig
  status : s.status ≠ .active
  ordered : ∀ expected ∈ NonceManager.getLastNonce s.nonces 0, expected < ledger.sequence
  unspent : ∃ nonces, (NonceManager.recordAndVerify 0 ledger.sequence s.nonces :
    Returns NonceManager.Storage) = .ok nonces
  lastMessageId : ((s.mail.getStatsInternal.lastMessageId + 1 : ℕ) : ℤ) ≤ IntFormat.u64.hi
  totalMessages : ((s.mail.getStatsInternal.totalMessages + 1 : ℕ) : ℤ) ≤ IntFormat.u64.hi
  unreadMessages : ((s.mail.getStatsInternal.unreadMessages + 1 : ℕ) : ℤ) ≤ IntFormat.u64.hi

/-- The global rate limit and the circuit breaker let a message pass. -/
structure Lets (kind : Kind) (ledger : Ledger) (s : State) : Prop where
  global : s.limits.getGlobalWindowUsage (window ledger s) < s.limits.readConfig.globalLimit
  unpaused : ∃ u, (CircuitBreaker.requireNotPaused s.breaker kind.sendFunction : Returns Unit) = .ok u
  tracked : ∃ breaker, (CircuitBreaker.trackActivity ledger.timestamp 1 s.breaker :
    Returns CircuitBreaker.Storage) = .ok breaker

/-- The sender is below its own rate limit, and the unread count of the recipient below its
maximum. -/
structure HasRoom (ledger : Ledger) (sender recipient : Address) (s : State) : Prop where
  user : s.limits.getUserWindowUsage sender (window ledger s) <
    if s.limits.isPremiumUser sender then s.limits.readConfig.premiumUserLimit
    else s.limits.readConfig.userLimit
  unread : ((s.mail.getUnreadCount recipient + 1 : ℕ) : ℤ) ≤ IntFormat.u32.hi

/-- A message is counted exactly when the configuration is valid and no limit is reached. -/
theorem checkAndConsume_iff {l : RateLimits} {now : ℕ} :
    (∃ l', l.checkAndConsume now sender = .ok l') ↔ RateLimits.valid l.readConfig ∧
      l.getUserWindowUsage sender (now / l.readConfig.windowSecs) <
        (if l.isPremiumUser sender then l.readConfig.premiumUserLimit else l.readConfig.userLimit) ∧
      l.getGlobalWindowUsage (now / l.readConfig.windowSecs) < l.readConfig.globalLimit := by
  simp [RateLimits.checkAndConsume, Except.bind_eq_ok]

/-- The guards pass a message when the ledger is served, the limits let it pass, and the sender is
below its own limit. -/
theorem guardSend_iff : (∃ s', guardSend kind ledger sender s = .ok s') ↔ s.initialized = true ∧
    (∃ limits, s.limits.checkAndConsume ledger.timestamp sender = .ok limits) ∧
    (∃ u, (CircuitBreaker.requireNotPaused s.breaker kind.sendFunction : Returns Unit) = .ok u) ∧
    s.status ≠ .active ∧
    (∀ expected ∈ NonceManager.getLastNonce s.nonces 0, expected < ledger.sequence) ∧
    (∃ nonces, (NonceManager.recordAndVerify 0 ledger.sequence s.nonces : Returns _) = .ok nonces) ∧
    ∃ breaker, (CircuitBreaker.trackActivity ledger.timestamp 1 s.breaker : Returns _) =
      .ok breaker := by
  simp [guardSend, requireInitialized, ReentrancyGuard.enter,
    NonceManager.enforceSequentialNonce, Except.bind_eq_ok]

/-- Behind the guards only the message and the counters are checked. -/
theorem send_iff : Accepted kind ledger sender recipient payload s ↔
    (∃ s', guardSend kind ledger sender s = .ok s') ∧ Valid sender recipient payload ∧
      ((s.mail.getStatsInternal.lastMessageId + 1 : ℕ) : ℤ) ≤ IntFormat.u64.hi ∧
      ((s.mail.getUnreadCount recipient + 1 : ℕ) : ℤ) ≤ IntFormat.u32.hi ∧
      ((s.mail.getStatsInternal.totalMessages + 1 : ℕ) : ℤ) ≤ IntFormat.u64.hi ∧
      ((s.mail.getStatsInternal.unreadMessages + 1 : ℕ) : ℤ) ≤ IntFormat.u64.hi := by
  constructor
  · rintro ⟨p, h⟩
    simp only [send, Except.bind_eq_ok, require_eq_ok, exists_const,
      IntFormat.checkedNat_eq_ok] at h
    obtain ⟨s₁, hguard, hother, hlength, _, ⟨hid, -⟩, _, ⟨hunread, -⟩, _, ⟨htotal, -⟩, _,
      ⟨hstats, -⟩, -⟩ := h
    -- the guards leave the mail, so the counters are those before the call
    rw [(guardSend_eq_ok hguard).1] at hid hunread htotal hstats
    exact ⟨⟨s₁, hguard⟩, ⟨hother, hlength⟩, hid, hunread, htotal, hstats⟩
  · rintro ⟨⟨s₁, hguard⟩, hvalid, hid, hunread, htotal, hstats⟩
    rw [← (guardSend_eq_ok hguard).1] at hid hunread htotal hstats
    simp only [Accepted, send, Except.bind_eq_ok, require_eq_ok, exists_const,
      IntFormat.checkedNat_eq_ok]
    exact ⟨_, s₁, hguard, hvalid.other, hvalid.length, _, ⟨hid, rfl⟩, _, ⟨hunread, rfl⟩, _,
      ⟨htotal, rfl⟩, _, ⟨hstats, rfl⟩, rfl⟩

/-- A message is accepted exactly when its ledger is served, the limits for everybody let it pass,
its two users have room for it, and it is valid. -/
theorem accepted_iff : Accepted kind ledger sender recipient payload s ↔ Serves ledger s ∧
    Lets kind ledger s ∧ HasRoom ledger sender recipient s ∧ Valid sender recipient payload := by
  rw [send_iff, guardSend_iff, checkAndConsume_iff]
  constructor
  · rintro ⟨⟨hinit, ⟨hcfg, huser, hglobal⟩, hpaused, hstatus, hordered, hunspent, htracked⟩, hvalid,
      hid, hunread, htotal, hstats⟩
    exact ⟨⟨hinit, hcfg, hstatus, hordered, hunspent, hid, htotal, hstats⟩,
      ⟨hglobal, hpaused, htracked⟩, ⟨huser, hunread⟩, hvalid⟩
  · rintro ⟨hserves, hlets, hroom, hvalid⟩
    exact ⟨⟨hserves.initialized, ⟨hserves.cfg, hroom.user, hlets.global⟩, hlets.unpaused,
      hserves.status, hserves.ordered, hserves.unspent, hlets.tracked⟩, hvalid,
      hserves.lastMessageId, hroom.unread, hserves.totalMessages, hserves.unreadMessages⟩

/-! ## One ledger -/

/-- The guards record the number of the ledger. -/
theorem recorded_of_guardSend (h : guardSend kind ledger sender s = .ok s') :
    (NonceManager.recordAndVerify 0 ledger.sequence s.nonces : Returns _) = .ok s'.nonces := by
  simp only [guardSend, Except.bind_eq_ok] at h
  obtain ⟨-, -, limits, -, -, -, status, -, -, -, nonces, hnonces, breaker, -, h⟩ := h
  obtain rfl := Except.ok.inj h
  exact hnonces

/-- A message spends the nonce of its ledger, for all senders. -/
theorem not_serves_of_send (h : send kind ledger sender recipient payload s = .ok (id, s')) :
    ¬ Serves ledger s' := by
  intro hserves
  simp only [send, Except.bind_eq_ok, require_eq_ok, exists_const] at h
  obtain ⟨s₁, hguard, -, -, _, -, _, -, _, -, _, -, h⟩ := h
  obtain ⟨-, rfl⟩ := Prod.mk.inj (Except.ok.inj h)
  obtain ⟨nonces, hagain⟩ := hserves.unspent
  exact NonceManager.recordAndVerify_spent (recorded_of_guardSend hguard) hagain

/-- The sender of a message, if a call sends one. -/
def sender? : Call → Option Address
  | .sendMessage sender _ _ => some sender
  | .sendEncryptedMessage sender _ _ => some sender
  | _ => none

/-- Starting from `s` in the ledger `sequence`, other senders than `sender` sent the messages of
`log` in that ledger. -/
structure SentByOthers (clock : ℕ → ℕ) (sequence : ℕ) (sender : Address) (s s' : State)
    (log : List (Commit State Call (Option ℕ))) : Prop where
  run : (contract clock).Run ⟨sequence, s⟩ ⟨sequence, s'⟩ log
  others : ∀ c ∈ log, ∃ other, sender? c.call = some other ∧ other ≠ sender

variable {clock : ℕ → ℕ} {sequence : ℕ}

/-- A call that sends a message finds its ledger served, and leaves it unserved. -/
theorem serves_of_execute {call : Call} {result : Option ℕ} (hcall : (sender? call).isSome)
    (h : (contract clock).exec sequence call s = .ok (result, s')) :
    Serves ⟨sequence, clock sequence⟩ s ∧ ¬ Serves ⟨sequence, clock sequence⟩ s' := by
  change execute ⟨sequence, clock sequence⟩ s call = _ at h
  cases call with
  | sendMessage sender recipient payload =>
    simp only [execute, sendMessage, Except.bind_eq_ok] at h
    obtain ⟨⟨id, s₁⟩, hsend, h⟩ := h
    obtain ⟨-, rfl⟩ := Prod.mk.inj (Except.ok.inj h)
    exact ⟨(accepted_iff.mp ⟨_, hsend⟩).1, not_serves_of_send hsend⟩
  | sendEncryptedMessage sender recipient payload =>
    simp only [execute, sendEncryptedMessage, Except.bind_eq_ok] at h
    obtain ⟨⟨id, s₁⟩, hsend, h⟩ := h
    obtain ⟨-, rfl⟩ := Prod.mk.inj (Except.ok.inj h)
    exact ⟨(accepted_iff.mp ⟨_, hsend⟩).1, not_serves_of_send hsend⟩
  | _ => cases hcall

/-- In one ledger other senders sent nothing, or they spent its nonce. -/
theorem SentByOthers.cases {log : List (Commit State Call (Option ℕ))}
    (h : SentByOthers clock sequence sender s s' log) :
    log = [] ∧ s' = s ∨ log ≠ [] ∧ Serves ⟨sequence, clock sequence⟩ s ∧
      ¬ Serves ⟨sequence, clock sequence⟩ s' := by
  have hrun : (∀ c ∈ log, (sender? c.call).isSome) → sequence ≤ sequence ∧
      (sequence ≤ sequence → log = [] ∧ s' = s ∨ log ≠ [] ∧
        Serves ⟨sequence, clock sequence⟩ s ∧ ¬ Serves ⟨sequence, clock sequence⟩ s') := by
    refine h.run.invariant_log (I := fun t s' log => (∀ c ∈ log, (sender? c.call).isSome) →
      sequence ≤ t ∧ (t ≤ sequence → log = [] ∧ s' = s ∨ log ≠ [] ∧
        Serves ⟨sequence, clock sequence⟩ s ∧ ¬ Serves ⟨sequence, clock sequence⟩ s'))
      (fun _ => ⟨le_rfl, fun _ => .inl ⟨rfl, rfl⟩⟩) ?_ ?_
    · intro t t' s' log ht ih hsends
      obtain ⟨hle, hcases⟩ := ih hsends
      exact ⟨hle.trans ht, fun ht' => hcases (ht.trans ht')⟩
    · intro t call result s₁ s₂ log ih he hsends
      rw [List.forall_mem_append, List.forall_mem_singleton] at hsends
      obtain ⟨hle, hcases⟩ := ih hsends.1
      refine ⟨hle, fun ht => .inr ⟨by simp, ?_⟩⟩
      -- the commits so far are in the same ledger; one of them would have spent its nonce
      obtain rfl := Nat.le_antisymm ht hle
      obtain ⟨hserves, hspent⟩ := serves_of_execute hsends.2 he
      rcases hcases le_rfl with ⟨-, rfl⟩ | ⟨-, -, hnot⟩
      · exact ⟨hserves, hspent⟩
      · exact absurd hserves hnot
  refine (hrun fun c hc => ?_).2 le_rfl
  obtain ⟨other, hother, -⟩ := h.others c hc
  rw [hother]
  rfl

variable {log₁ log₂ : List (Commit State Call (Option ℕ))}

/-- Let two lists of messages of other senders be accepted in one ledger, from one state, and let
the global limit and the circuit breaker let a valid message pass after both. Whether it is accepted
is the same after both exactly when both lists are empty or none is, or when the sender or the
recipient had no room for it anyway. -/
theorem sender_independent_iff (hvalid : Valid sender recipient payload)
    (h₁ : SentByOthers clock sequence sender s s₁ log₁)
    (h₂ : SentByOthers clock sequence sender s s₂ log₂)
    (hlets₁ : Lets kind ⟨sequence, clock sequence⟩ s₁)
    (hlets₂ : Lets kind ⟨sequence, clock sequence⟩ s₂) :
    (Accepted kind ⟨sequence, clock sequence⟩ sender recipient payload s₁ ↔
        Accepted kind ⟨sequence, clock sequence⟩ sender recipient payload s₂) ↔
      (log₁ = [] ↔ log₂ = []) ∨ ¬ HasRoom ⟨sequence, clock sequence⟩ sender recipient s := by
  simp only [accepted_iff, hlets₁, hlets₂, hvalid, true_and, and_true]
  rcases h₁.cases with ⟨rfl, rfl⟩ | ⟨hne₁, hserves, hnot₁⟩ <;>
    rcases h₂.cases with ⟨rfl, rfl⟩ | ⟨hne₂, hserves', hnot₂⟩
  · simp
  · -- only the second ledger is spent
    simp [hserves', hnot₂, hne₂]
  · -- only the first ledger is spent
    simp [hserves, hnot₁, hne₁]
  · -- in a spent ledger every message is rejected
    simp [hnot₁, hnot₂, hne₁, hne₂]

/-- A contract in which nothing was sent yet. -/
def sampleReady : State :=
  ((contract (1000 + ·)).play ⟨0, .empty⟩ [(1, .init ⟨1⟩ ⟨1000, 1000, 60⟩)]).1.store

/-- The same after a message of the user 2 in the ledger 5. -/
def sampleSent : World State × List (Commit State Call (Option ℕ)) :=
  (contract (1000 + ·)).play ⟨5, sampleReady⟩ [(5, .sendMessage ⟨2⟩ ⟨3⟩ [7])]

theorem sample_sentByOthers :
    SentByOthers (1000 + ·) 5 ⟨4⟩ sampleReady sampleSent.1.store sampleSent.2 where
  run := Contract.run_play _ ⟨5, sampleReady⟩ [(5, Call.sendMessage ⟨2⟩ ⟨3⟩ [7])] (by decide)
  others c hc := by
    have hcall : c.call = Call.sendMessage ⟨2⟩ ⟨3⟩ [7] :=
      List.mem_singleton.mp (Contract.call_mem_of_mem_play _ hc)
    exact ⟨⟨2⟩, by rw [hcall]; rfl, by decide⟩

theorem sample_sentByNobody : SentByOthers (1000 + ·) 5 ⟨4⟩ sampleReady sampleReady [] :=
  ⟨.start, fun _ hc => absurd hc List.not_mem_nil⟩

theorem sample_lets : Lets .plain ⟨5, 1005⟩ sampleReady ∧ Lets .plain ⟨5, 1005⟩ sampleSent.1.store :=
  ⟨⟨by decide, ⟨_, rfl⟩, ⟨_, rfl⟩⟩, ⟨by decide, ⟨_, rfl⟩, ⟨_, rfl⟩⟩⟩

theorem sample_valid : Valid ⟨4⟩ ⟨3⟩ [8] := ⟨by decide, by decide⟩

theorem sender_independent_iff_sample :
    (Accepted .plain ⟨5, 1005⟩ ⟨4⟩ ⟨3⟩ [8] sampleReady ↔
        Accepted .plain ⟨5, 1005⟩ ⟨4⟩ ⟨3⟩ [8] sampleSent.1.store) ↔
      (([] : List (Commit State Call (Option ℕ))) = [] ↔ sampleSent.2 = []) ∨ ¬ HasRoom ⟨5, 1005⟩ ⟨4⟩ ⟨3⟩ sampleReady :=
  (sender_independent_iff sample_valid sample_sentByNobody sample_sentByOthers sample_lets.1
    sample_lets.2 :)

/-- The user 4 could send its message in the ledger 5, but not after the user 2 sent one. -/
theorem blocked_sender : Valid ⟨4⟩ ⟨3⟩ [8] ∧
    SentByOthers (1000 + ·) 5 ⟨4⟩ sampleReady sampleReady [] ∧
    SentByOthers (1000 + ·) 5 ⟨4⟩ sampleReady sampleSent.1.store sampleSent.2 ∧
    Lets .plain ⟨5, 1005⟩ sampleReady ∧ Lets .plain ⟨5, 1005⟩ sampleSent.1.store ∧
    (∃ p, sendMessage ⟨5, 1005⟩ ⟨4⟩ ⟨3⟩ [8] sampleReady = .ok p) ∧
    sendMessage ⟨5, 1005⟩ ⟨4⟩ ⟨3⟩ [8] sampleSent.1.store = .error (.panic "NONCE_OUT_OF_ORDER") :=
  ⟨sample_valid, sample_sentByNobody, sample_sentByOthers, sample_lets.1, sample_lets.2, ⟨_, rfl⟩,
    rfl⟩

end Stellara.Messaging
