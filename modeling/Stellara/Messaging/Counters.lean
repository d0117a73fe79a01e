import Stellara.Messaging.Contract

/-!
# Message counters and indexes

The unread counts, the statistics and the four indexes are stored beside the messages. In every run
they say what the stored messages say: how many there are, which of them their recipients did not
read, and who received and sent them.

## Main definitions

* `unreadOf`: the number of unread messages to a user
* `Indexed`: an index lists every message once, for one of its two users
* `Mail.Consistent`: counters and indexes agree with the messages
* `issuedOf`: the ids that a run issued

## Main results

* `Mail.Sound.deliver`, `Mail.Sound.acknowledge`: a new message and a read message keep the counters
  and indexes
* `mail_consistent`: they agree in every state of a run, and no count is taken below zero
-/

namespace Stellara.Messaging

variable {messages : Store ℕ Message} {index : Store Address (List ℕ)} {who : Message → Address}
  {message : Message} {user : Address} {id : ℕ} {m : Mail} {kind : Kind}

/-! ## Indexes -/

/-- The index of a user lists the ids of exactly the messages whose `who` the user is, each once. -/
def Indexed (messages : Store ℕ Message) (who : Message → Address)
    (index : Store Address (List ℕ)) : Prop :=
  ∀ user id, (getUserMessageIds index user).count id =
    (messages.lookup id).elim 0 fun message => if who message = user then 1 else 0

theorem indexed_empty : Indexed ∅ who ∅ := fun _ _ => rfl

theorem getUserMessageIds_push {user' : Address} :
    getUserMessageIds (pushUserMessageId index user id) user' =
      getUserMessageIds index user' ++ if user = user' then [id] else [] := by
  rw [getUserMessageIds, pushUserMessageId, Store.lookup_insert_ite]
  by_cases h : user' = user
  · subst h
    simp
  · rw [if_neg h, if_neg (Ne.symm h), List.append_nil]
    rfl

/-- A new message is listed once. -/
theorem Indexed.push (h : Indexed messages who index) (hfresh : messages.lookup id = none) :
    Indexed (messages.insert id message) who (pushUserMessageId index (who message) id) := by
  intro user id'
  rw [getUserMessageIds_push, List.count_append, h, Store.lookup_insert_ite]
  by_cases hid : id' = id
  · subst hid
    rw [hfresh, if_pos rfl]
    split <;> simp_all
  · rw [if_neg hid]
    split <;> simp [Ne.symm hid]

/-- A message that keeps its users stays listed. -/
theorem Indexed.overwrite (h : Indexed messages who index) {message' : Message}
    (hold : messages.lookup id = some message) (hwho : who message' = who message) :
    Indexed (messages.insert id message') who index := by
  intro user id'
  rw [h, Store.lookup_insert_ite]
  by_cases hid : id' = id
  · subst hid
    rw [hold, if_pos rfl, Option.elim_some, Option.elim_some, hwho]
  · rw [if_neg hid]

/-! ## Unread messages -/

/-- The number of the unread messages to a user. -/
def unreadOf (messages : Store ℕ Message) (user : Address) : ℕ :=
  Store.total (fun _ message => if message.recipient = user ∧ message.read = false then 1 else 0)
    messages

/-- A new unread message counts for its recipient. -/
theorem unreadOf_insert_new (user : Address) (hfresh : messages.lookup id = none)
    (hread : message.read = false) :
    unreadOf (messages.insert id message) user =
      (if message.recipient = user then 1 else 0) + unreadOf messages user := by
  rw [unreadOf, Store.total_insert_new hfresh, hread]
  simp [unreadOf]

/-- A message that becomes read does not count any more. -/
theorem unreadOf_insert_read (user : Address) (hold : messages.lookup id = some message)
    (hread : message.read = false) :
    (if message.recipient = user then 1 else 0) +
        unreadOf (messages.insert id { message with read := true }) user =
      unreadOf messages user := by
  have h := Store.total_insert_old (v := { message with read := true })
    (f := fun _ message => if message.recipient = user ∧ message.read = false then 1 else 0) hold
  simpa [unreadOf, hread] using h

/-! ## The mail -/

namespace Mail

/-- What the two mailboxes have together. -/
def sum (f : Mailbox → ℕ) (m : Mail) : ℕ := f (m.mailboxes .plain) + f (m.mailboxes .encrypted)

/-- Counters and indexes agree with the stored messages, and ids are unique across the two
stores. -/
structure Consistent (m : Mail) : Prop where
  unread : ∀ user, m.getUnreadCount user = m.sum fun mailbox => unreadOf mailbox.messages user
  unread_total : m.getStatsInternal.unreadMessages = Store.total (fun _ count => count) m.unread
  total : m.getStatsInternal.totalMessages = m.sum fun mailbox => mailbox.messages.entries.length
  last : m.getStatsInternal.lastMessageId = m.getStatsInternal.totalMessages
  unique : ∀ kind kind' id id' message message', m.message? kind id = some message →
    m.message? kind' id' = some message' → message.id = message'.id → kind = kind' ∧ id = id'
  inbox : ∀ kind, Indexed (m.mailboxes kind).messages Message.recipient (m.mailboxes kind).inbox
  sent : ∀ kind, Indexed (m.mailboxes kind).messages Message.sender (m.mailboxes kind).sent

/-- Messages are stored under their ids, which are at most the last one. -/
structure Sound (m : Mail) : Prop extends Consistent m where
  stored : ∀ kind id message, m.message? kind id = some message →
    message.id = id ∧ id ≤ m.getStatsInternal.lastMessageId

/-- A mailbox exchanges its contribution for the one of the mailbox in its place. -/
theorem sum_update {f : Mailbox → ℕ} {mailbox : Mailbox} {unread : Store Address ℕ}
    {stats : Option MessagingStats} :
    f (m.mailboxes kind) + sum f ⟨Function.update m.mailboxes kind mailbox, unread, stats⟩ =
      f mailbox + sum f m := by
  cases kind <;> simp [sum] <;> omega

/-- A new message is unread for its recipient. -/
theorem sum_unread_deliver (user : Address) (hfresh : m.message? kind message.id = none)
    (hread : message.read = false) :
    ((m.deliver kind message).sum fun mailbox => unreadOf mailbox.messages user) =
      (if message.recipient = user then 1 else 0) +
        m.sum fun mailbox => unreadOf mailbox.messages user := by
  have hnew := unreadOf_insert_new user hfresh hread
  have hsum : _ + (m.deliver kind message).sum _ = _ :=
    sum_update (f := fun mailbox => unreadOf mailbox.messages user)
  simp only [Mailbox.post] at hsum
  omega

/-- A message that becomes read is not unread for its recipient any more. -/
theorem sum_unread_acknowledge (user : Address) (hold : m.message? kind id = some message)
    (hread : message.read = false) :
    (if message.recipient = user then 1 else 0) +
        ((m.acknowledge kind id message).sum fun mailbox => unreadOf mailbox.messages user) =
      m.sum fun mailbox => unreadOf mailbox.messages user := by
  have hless := unreadOf_insert_read user hold hread
  have hsum : _ + (m.acknowledge kind id message).sum _ = _ :=
    sum_update (f := fun mailbox => unreadOf mailbox.messages user)
  dsimp only at hsum
  omega

/-- A new message is one more. -/
theorem sum_length_deliver (hfresh : m.message? kind message.id = none) :
    ((m.deliver kind message).sum fun mailbox => mailbox.messages.entries.length) =
      m.sum (fun mailbox => mailbox.messages.entries.length) + 1 := by
  have hnew := Store.length_insert_new (v := message) hfresh
  have hsum : _ + (m.deliver kind message).sum _ = _ :=
    sum_update (f := fun mailbox => mailbox.messages.entries.length)
  simp only [Mailbox.post] at hsum
  omega

/-- A message that becomes read stays one. -/
theorem sum_length_acknowledge (hold : m.message? kind id = some message) :
    ((m.acknowledge kind id message).sum fun mailbox => mailbox.messages.entries.length) =
      m.sum (fun mailbox => mailbox.messages.entries.length) := by
  have hsame := Store.length_insert_old (v := { message with read := true }) hold
  have hsum : _ + (m.acknowledge kind id message).sum _ = _ :=
    sum_update (f := fun mailbox => mailbox.messages.entries.length)
  dsimp only at hsum
  omega

theorem getStatsInternal_deliver : (m.deliver kind message).getStatsInternal =
    ⟨m.getStatsInternal.totalMessages + 1, m.getStatsInternal.unreadMessages + 1, message.id⟩ :=
  rfl

theorem getStatsInternal_acknowledge : (m.acknowledge kind id message).getStatsInternal =
    { m.getStatsInternal with unreadMessages := m.getStatsInternal.unreadMessages - 1 } := rfl

theorem getUnreadCount_insert {mailboxes : Kind → Mailbox} {stats : Option MessagingStats}
    {count : ℕ} {user' : Address} :
    getUnreadCount ⟨mailboxes, m.unread.insert user count, stats⟩ user' =
      if user' = user then count else m.getUnreadCount user' := by
  rw [getUnreadCount, Store.lookup_insert_ite]
  split <;> rfl

/-- The sum of the counts exchanges the count of a user. -/
theorem total_unread_insert (m : Mail) (user : Address) (count : ℕ) :
    m.getUnreadCount user + Store.total (fun _ count => count) (m.unread.insert user count) =
      count + Store.total (fun _ count => count) m.unread := by
  have h := Store.total_insert_elim (m := m.unread) (k := user) (v := count)
    (f := fun _ count => count)
  rw [getUnreadCount]
  cases hlookup : m.unread.lookup user with
  | none => rw [hlookup] at h; exact h
  | some old => rw [hlookup] at h; exact h

/-- The count of a user is a part of the sum. -/
theorem getUnreadCount_le_total (m : Mail) (user : Address) :
    m.getUnreadCount user ≤ Store.total (fun _ count => count) m.unread := by
  have h := total_unread_insert m user 0
  omega

theorem message?_deliver {kind' : Kind} :
    (m.deliver kind message).message? kind' id =
      if kind' = kind ∧ id = message.id then some message else m.message? kind' id := by
  simp only [deliver, message?, Function.update_apply]
  by_cases hkind : kind' = kind
  · subst hkind
    rw [if_pos rfl, Mailbox.post, Store.lookup_insert_ite]
    simp
  · simp [hkind]

theorem message?_acknowledge {kind' : Kind} {id' : ℕ} :
    (m.acknowledge kind id message).message? kind' id' =
      if kind' = kind ∧ id' = id then some { message with read := true }
      else m.message? kind' id' := by
  simp only [acknowledge, message?, Function.update_apply]
  by_cases hkind : kind' = kind
  · subst hkind
    rw [if_pos rfl, Store.lookup_insert_ite]
    simp
  · simp [hkind]

theorem sound_empty : Mail.empty.Sound where
  unread _ := rfl
  unread_total := rfl
  total := rfl
  last := rfl
  unique := by simp [message?, Mail.empty]
  inbox _ := indexed_empty
  sent _ := indexed_empty
  stored := by simp [message?, Mail.empty]

/-- A message with the next id keeps counters and indexes. -/
theorem Sound.deliver (h : m.Sound) (hid : message.id = m.getStatsInternal.lastMessageId + 1)
    (hread : message.read = false) : (m.deliver kind message).Sound := by
  have hfresh : ∀ kind, (m.mailboxes kind).messages.lookup message.id = none := by
    intro kind
    refine Option.eq_none_iff_forall_ne_some.mpr fun old hold => ?_
    have := (h.stored kind _ _ hold).2
    omega
  constructor
  case stored =>
    intro kind' id message' hmessage
    rw [message?_deliver] at hmessage
    split at hmessage
    · obtain rfl := Option.some.inj hmessage
      rename_i hnew
      exact ⟨hnew.2.symm, hnew.2.le⟩
    · obtain ⟨hown, hle⟩ := h.stored _ _ _ hmessage
      exact ⟨hown, hle.trans (by rw [getStatsInternal_deliver, hid]; exact Nat.le_succ _)⟩
  constructor
  case unread =>
    intro user
    rw [sum_unread_deliver user (hfresh kind) hread, ← h.unread, Mail.deliver, getUnreadCount_insert]
    by_cases huser : user = message.recipient
    · subst huser
      rw [if_pos rfl, if_pos rfl, add_comm]
    · rw [if_neg huser, if_neg (Ne.symm huser), zero_add]
  case unread_total =>
    have hinsert := total_unread_insert m message.recipient
      (m.getUnreadCount message.recipient + 1)
    rw [getStatsInternal_deliver, h.unread_total, Mail.deliver]
    dsimp only
    omega
  case total => rw [getStatsInternal_deliver, sum_length_deliver (hfresh kind), ← h.total]
  case last => rw [getStatsInternal_deliver, hid, h.last]
  case unique =>
    intro kind₁ kind₂ id₁ id₂ message₁ message₂ h₁ h₂ heq
    rw [message?_deliver] at h₁ h₂
    have hother : ∀ kind id old, m.message? kind id = some old → old.id ≠ message.id := by
      intro kind id old hold
      have := h.stored _ _ _ hold
      omega
    split at h₁ <;> split at h₂
    · rename_i hnew₁ hnew₂
      exact ⟨hnew₁.1.trans hnew₂.1.symm, hnew₁.2.trans hnew₂.2.symm⟩
    · obtain rfl := Option.some.inj h₁
      exact absurd heq.symm (hother _ _ _ h₂)
    · obtain rfl := Option.some.inj h₂
      exact absurd heq (hother _ _ _ h₁)
    · exact h.unique _ _ _ _ _ _ h₁ h₂ heq
  case inbox =>
    intro kind'
    simp only [Mail.deliver, Function.update_apply]
    split
    · exact (h.inbox kind).push (hfresh kind)
    · exact h.inbox kind'
  case sent =>
    intro kind'
    simp only [Mail.deliver, Function.update_apply]
    split
    · exact (h.sent kind).push (hfresh kind)
    · exact h.sent kind'

/-- An unread message is counted for its recipient and in the statistics. -/
theorem Consistent.unread_pos (h : m.Consistent) (hold : m.message? kind id = some message)
    (hread : message.read = false) :
    1 ≤ m.getUnreadCount message.recipient ∧ 1 ≤ m.getStatsInternal.unreadMessages := by
  have hsum := sum_unread_acknowledge message.recipient hold hread
  rw [if_pos rfl, ← h.unread] at hsum
  have hle := getUnreadCount_le_total m message.recipient
  rw [h.unread_total]
  omega

/-- A message that becomes read keeps counters and indexes. -/
theorem Sound.acknowledge (h : m.Sound) (hold : m.message? kind id = some message)
    (hread : message.read = false) : (m.acknowledge kind id message).Sound := by
  obtain ⟨hcount, hstats⟩ := h.unread_pos hold hread
  have hid : message.id = id := (h.stored _ _ _ hold).1
  -- every stored message was stored before, with the same id
  have hbefore : ∀ kind' id' message', (m.acknowledge kind id message).message? kind' id' =
      some message' → ∃ old, m.message? kind' id' = some old ∧ old.id = message'.id := by
    intro kind' id' message' hmessage
    rw [message?_acknowledge] at hmessage
    split at hmessage
    · rename_i hnew
      rw [hnew.1, hnew.2, ← Option.some.inj hmessage]
      exact ⟨message, hold, rfl⟩
    · exact ⟨message', hmessage, rfl⟩
  constructor
  case stored =>
    intro kind' id' message' hmessage
    obtain ⟨old, hlookup, heq⟩ := hbefore _ _ _ hmessage
    obtain ⟨hown, hle⟩ := h.stored _ _ _ hlookup
    exact ⟨heq ▸ hown, hle⟩
  constructor
  case unread =>
    intro user
    have hsum := sum_unread_acknowledge user hold hread
    rw [← h.unread] at hsum
    rw [Mail.acknowledge, getUnreadCount_insert]
    by_cases huser : user = message.recipient
    · subst huser
      rw [if_pos rfl] at hsum ⊢
      exact (Nat.eq_sub_of_add_eq' hsum).symm
    · rw [if_neg (Ne.symm huser), zero_add] at hsum
      rw [if_neg huser, ← hsum, Mail.acknowledge]
  case unread_total =>
    have hinsert := total_unread_insert m message.recipient
      (m.getUnreadCount message.recipient - 1)
    rw [h.unread_total] at hstats
    rw [getStatsInternal_acknowledge, h.unread_total, Mail.acknowledge]
    dsimp only
    omega
  case total => rw [getStatsInternal_acknowledge, sum_length_acknowledge hold, ← h.total]
  case last => rw [getStatsInternal_acknowledge, h.last]
  case unique =>
    intro kind₁ kind₂ id₁ id₂ message₁ message₂ h₁ h₂ heq
    obtain ⟨old₁, hold₁, heq₁⟩ := hbefore _ _ _ h₁
    obtain ⟨old₂, hold₂, heq₂⟩ := hbefore _ _ _ h₂
    exact h.unique _ _ _ _ _ _ hold₁ hold₂ (heq₁.trans (heq.trans heq₂.symm))
  case inbox =>
    intro kind'
    simp only [Mail.acknowledge, Function.update_apply]
    split
    · exact (h.inbox kind).overwrite hold rfl
    · exact h.inbox kind'
  case sent =>
    intro kind'
    simp only [Mail.acknowledge, Function.update_apply]
    split
    · exact (h.sent kind).overwrite hold rfl
    · exact h.sent kind'

end Mail

/-! ## Calls -/

variable {c : Commit State Call (Option ℕ)} {clock : ℕ → ℕ}

/-- The user whose counts a call takes down, if it marks a message as read. -/
def reader? : Call → Option Address
  | .markAsRead recipient _ => some recipient
  | .markEncryptedAsRead recipient _ => some recipient
  | _ => none

/-- A call delivers a message with the next id, or acknowledges an unread message, or leaves the
mail; the statistics are set only in a contract that was not initialized. -/
theorem execute_cases
    (he : (contract clock).exec c.time c.call c.before = .ok (c.result, c.after)) :
    c.after.initialized = true ∧
    ((∃ kind message, c.result = some message.id ∧ reader? c.call = none ∧
        c.before.initialized = true ∧
        message.id = c.before.mail.getStatsInternal.lastMessageId + 1 ∧ message.read = false ∧
        c.after.mail = c.before.mail.deliver kind message) ∨
      (∃ kind id message, c.result = none ∧ reader? c.call = some message.recipient ∧
        c.before.initialized = true ∧
        c.before.mail.message? kind id = some message ∧ message.read = false ∧
        c.after.mail = c.before.mail.acknowledge kind id message) ∨
      (c.result = none ∧ reader? c.call = none ∧
        (c.before.initialized = true ∧ c.after.mail = c.before.mail ∨
          c.before.initialized = false ∧
            c.after.mail = { c.before.mail with stats := some ⟨0, 0, 0⟩ }))) := by
  obtain ⟨time, call, result, s, s'⟩ := c
  have he : execute ⟨time, clock time⟩ s call = .ok (result, s') := he
  cases call with
  | init admin cbConfig =>
    simp only [execute, init, Except.bind_eq_ok, require_eq_ok, exists_const] at he
    obtain ⟨_, ⟨hinit, h₁⟩, he⟩ := he
    obtain rfl := Except.ok.inj h₁
    obtain ⟨rfl, rfl⟩ := Prod.mk.inj (Except.ok.inj he)
    exact ⟨rfl, .inr (.inr ⟨rfl, rfl, .inr ⟨hinit, rfl⟩⟩)⟩
  | setRateLimitConfig admin cfg =>
    simp only [execute, setRateLimitConfig, requireInitialized, Except.bind_eq_ok, require_eq_ok,
      exists_const] at he
    obtain ⟨_, ⟨hinit, _, -, -, h₁⟩, he⟩ := he
    obtain rfl := Except.ok.inj h₁
    obtain ⟨rfl, rfl⟩ := Prod.mk.inj (Except.ok.inj he)
    exact ⟨hinit, .inr (.inr ⟨rfl, rfl, .inl ⟨hinit, rfl⟩⟩)⟩
  | setPremiumUser admin user premium =>
    simp only [execute, setPremiumUser, requireInitialized, Except.bind_eq_ok, require_eq_ok,
      exists_const] at he
    obtain ⟨_, ⟨hinit, _, -, h₁⟩, he⟩ := he
    obtain rfl := Except.ok.inj h₁
    obtain ⟨rfl, rfl⟩ := Prod.mk.inj (Except.ok.inj he)
    exact ⟨hinit, .inr (.inr ⟨rfl, rfl, .inl ⟨hinit, rfl⟩⟩)⟩
  | sendMessage sender recipient payload =>
    simp only [execute, sendMessage, Except.bind_eq_ok] at he
    obtain ⟨⟨id, s₁⟩, hsend, he⟩ := he
    obtain ⟨rfl, rfl⟩ := Prod.mk.inj (Except.ok.inj he)
    obtain ⟨hinit, hinit', -, hid, hmail⟩ := send_eq_ok hsend
    exact ⟨hinit', .inl ⟨.plain, _, rfl, rfl, hinit, hid, rfl, hmail⟩⟩
  | sendEncryptedMessage sender recipient payload =>
    simp only [execute, sendEncryptedMessage, Except.bind_eq_ok] at he
    obtain ⟨⟨id, s₁⟩, hsend, he⟩ := he
    obtain ⟨rfl, rfl⟩ := Prod.mk.inj (Except.ok.inj he)
    obtain ⟨hinit, hinit', -, hid, hmail⟩ := send_eq_ok hsend
    exact ⟨hinit', .inl ⟨.encrypted, _, rfl, rfl, hinit, hid, rfl, hmail⟩⟩
  | markAsRead recipient messageId =>
    simp only [execute, markAsRead, Except.bind_eq_ok] at he
    obtain ⟨s₁, hmark, he⟩ := he
    obtain ⟨rfl, rfl⟩ := Prod.mk.inj (Except.ok.inj he)
    obtain ⟨hinit, hinit', message, hmessage, rfl, hread, hmail⟩ := mark_eq_ok hmark
    exact ⟨hinit', .inr (.inl ⟨.plain, _, message, rfl, rfl, hinit, hmessage, hread, hmail⟩)⟩
  | markEncryptedAsRead recipient messageId =>
    simp only [execute, markEncryptedAsRead, Except.bind_eq_ok] at he
    obtain ⟨s₁, hmark, he⟩ := he
    obtain ⟨rfl, rfl⟩ := Prod.mk.inj (Except.ok.inj he)
    obtain ⟨hinit, hinit', message, hmessage, rfl, hread, hmail⟩ := mark_eq_ok hmark
    exact ⟨hinit', .inr (.inl ⟨.encrypted, _, message, rfl, rfl, hinit, hmessage, hread, hmail⟩)⟩

/-- The counts that a call takes down are not zero, so that no difference saturates. -/
def Unsaturated (c : Commit State Call (Option ℕ)) : Prop :=
  ∀ user, reader? c.call = some user →
    1 ≤ c.before.mail.getUnreadCount user ∧ 1 ≤ c.before.mail.getStatsInternal.unreadMessages

/-- The mail is sound, and empty statistics precede `init`. -/
structure Ready (s : State) : Prop where
  sound : s.mail.Sound
  fresh : s.initialized = false → s.mail.getStatsInternal = ⟨0, 0, 0⟩

/-- Statistics that are stored as they were read leave the mail sound. -/
theorem Mail.Sound.stats (h : m.Sound) {stats : MessagingStats}
    (hstats : m.getStatsInternal = stats) : Sound { m with stats := some stats } := by
  subst hstats
  exact ⟨⟨h.unread, h.unread_total, h.total, h.last, h.unique, h.inbox, h.sent⟩, h.stored⟩

/-- A call keeps the mail sound, saturates no difference, and issues the next id or none. -/
theorem Ready.execute (h : Ready c.before)
    (he : (contract clock).exec c.time c.call c.before = .ok (c.result, c.after)) :
    Ready c.after ∧ Unsaturated c ∧
      List.range' 1 c.after.mail.getStatsInternal.lastMessageId =
        List.range' 1 c.before.mail.getStatsInternal.lastMessageId ++ c.result.toList := by
  obtain ⟨hinit, ⟨kind, message, hresult, hreader, -, hid, hread, hmail⟩ |
    ⟨kind, id, message, hresult, hreader, -, hmessage, hread, hmail⟩ |
    ⟨hresult, hreader, hmail⟩⟩ := execute_cases he
  all_goals have hfresh : c.after.initialized = false →
    c.after.mail.getStatsInternal = ⟨0, 0, 0⟩ := fun hf => by rw [hinit] at hf; cases hf
  · refine ⟨⟨hmail ▸ h.sound.deliver hid hread, hfresh⟩, fun user huser => ?_, ?_⟩
    · rw [hreader] at huser
      cases huser
    · rw [hmail, Mail.getStatsInternal_deliver, hresult, hid, List.range'_concat]
      simp [Nat.add_comm]
  · refine ⟨⟨hmail ▸ h.sound.acknowledge hmessage hread, hfresh⟩, fun user huser => ?_, ?_⟩
    · rw [hreader] at huser
      obtain rfl := Option.some.inj huser
      exact h.sound.unread_pos hmessage hread
    · rw [hmail, Mail.getStatsInternal_acknowledge, hresult]
      simp
  · have hnone : Unsaturated c := fun user huser => by
      rw [hreader] at huser
      cases huser
    rw [hresult, Option.toList_none, List.append_nil]
    rcases hmail with ⟨-, hmail⟩ | ⟨hbefore, hmail⟩
    · exact ⟨⟨hmail ▸ h.sound, hfresh⟩, hnone, by rw [hmail]⟩
    · refine ⟨⟨hmail ▸ h.sound.stats (h.fresh hbefore), hfresh⟩, hnone, ?_⟩
      rw [hmail, h.fresh hbefore]
      rfl

/-! ## Runs -/

/-- The ids that a run issued, in order. -/
def issuedOf (log : List (Commit State Call (Option ℕ))) : List ℕ :=
  log.filterMap Commit.result

variable {w : World State} {log : List (Commit State Call (Option ℕ))} {sequence₀ : ℕ}

/-- In every state of a run counters and indexes agree with the stored messages, the ids that were
issued are 1, 2, … up to the stored total, and no count is taken below zero. -/
theorem mail_consistent (hrun : (contract clock).Run ⟨sequence₀, .empty⟩ w log) :
    w.store.mail.Consistent ∧
      issuedOf log = List.range' 1 w.store.mail.getStatsInternal.totalMessages ∧
      ∀ c ∈ log, Unsaturated c := by
  have hrun' : (Ready w.store ∧
      issuedOf log = List.range' 1 w.store.mail.getStatsInternal.lastMessageId) ∧
      ∀ c ∈ log, Unsaturated c := by
    refine hrun.invariant_and_mem (I := fun _ s log => Ready s ∧
      issuedOf log = List.range' 1 s.mail.getStatsInternal.lastMessageId)
      ⟨⟨Mail.sound_empty, fun _ => rfl⟩, rfl⟩ (fun _ _ _ _ _ h => h)
      fun t k r s s' log ih he => ?_
    obtain ⟨hready, hissued⟩ := ih
    obtain ⟨hready', hunsaturated, hrange⟩ := hready.execute (c := ⟨t, k, r, s, s'⟩) he
    refine ⟨⟨hready', ?_⟩, hunsaturated⟩
    rw [hrange, ← hissued]
    simp only [issuedOf, List.filterMap_append, List.filterMap_cons, List.filterMap_nil]
    cases r <;> rfl
  obtain ⟨⟨hready, hissued⟩, hunsaturated⟩ := hrun'
  rw [← hready.sound.last]
  exact ⟨hready.sound.toConsistent, hissued, hunsaturated⟩

/-- The user 2 reads one of a plain and an encrypted message. -/
def sampleCalls : List (ℕ × Call) :=
  [(1, .init ⟨1⟩ ⟨1000, 1000, 60⟩), (2, .sendMessage ⟨1⟩ ⟨2⟩ [7]),
    (3, .sendEncryptedMessage ⟨3⟩ ⟨2⟩ [8]), (4, .markEncryptedAsRead ⟨2⟩ 2)]

theorem mail_consistent_sample :
    ((contract (1000 + ·)).play ⟨0, .empty⟩ sampleCalls).1.store.mail.Consistent ∧
      issuedOf ((contract (1000 + ·)).play ⟨0, .empty⟩ sampleCalls).2 =
        List.range' 1 ((contract (1000 + ·)).play ⟨0, .empty⟩
          sampleCalls).1.store.mail.getStatsInternal.totalMessages ∧
      ∀ c ∈ ((contract (1000 + ·)).play ⟨0, .empty⟩ sampleCalls).2, Unsaturated c :=
  mail_consistent (Contract.run_play _ _ sampleCalls (by decide))

example : ((contract (1000 + ·)).play ⟨0, .empty⟩ sampleCalls).1.store.mail.getStatsInternal =
    ⟨2, 1, 2⟩ := by
  decide

end Stellara.Messaging
