import Stellara.Lib.Journal
import Stellara.Messaging.Counters

/-!
# Delivery of messages

What a user gets back from the contract are the messages of the calls that returned: each once, in
the order in which they were sent, with the payload and the time with which they were sent, and as
read when the recipient has marked them. The two kinds do not mix, whatever the order of the calls.

## Main definitions

* `getMessages`: the messages of a user, as `get_messages` and `get_encrypted_messages` return them
* `posted?`, `Acknowledges`: the message that a call sends, and the one that it marks as read
* `history`: the messages that the calls of a run have sent
* `Mailbox.Follows`: a mailbox holds and lists the messages of a history

## Main results

* `execute_mailbox`: what a call does to the mailbox of a kind
* `getMessages_of_run`: the users get the messages of the history of the run
-/

namespace Stellara.Messaging

/-! ## Reading -/

/-- The messages that are listed for a user and stored, without the read ones when only unread ones
are asked for. -/
def Mailbox.listed (mailbox : Mailbox) (index : Store Address (List ℕ)) (user : Address)
    (unreadOnly : Bool) : List Message :=
  ((getUserMessageIds index user).filterMap mailbox.messages.lookup).filter fun message =>
    !unreadOnly || !message.read

/-- The messages to a user and then the ones by the user, as far as they are asked for. -/
def getMessagesOf (kind : Kind) (user : Address) (includeSent includeReceived unreadOnly : Bool)
    (s : State) : Returns (List Message) := do
  requireInitialized s
  let mailbox := s.mail.mailboxes kind
  .ok ((if includeReceived then mailbox.listed mailbox.inbox user unreadOnly else []) ++
    if includeSent then mailbox.listed mailbox.sent user unreadOnly else [])

def getMessages : Address → Bool → Bool → Bool → State → Returns (List Message) :=
  getMessagesOf .plain

def getEncryptedMessages : Address → Bool → Bool → Bool → State → Returns (List Message) :=
  getMessagesOf .encrypted

/-! ## What the calls send and mark -/

variable {kind : Kind} {clock : ℕ → ℕ} {c : Commit State Call (Option ℕ)}
  {log : List (Commit State Call (Option ℕ))} {id : ℕ} {message : Message}

/-- The message of a kind that a call has sent, as it was sent. -/
def posted? (clock : ℕ → ℕ) (kind : Kind) (c : Commit State Call (Option ℕ)) : Option Message :=
  match kind, c.call with
  | .plain, .sendMessage sender recipient payload =>
    c.result.map fun id => ⟨id, sender, recipient, payload, clock c.time, false, true⟩
  | .encrypted, .sendEncryptedMessage sender recipient payload =>
    c.result.map fun id => ⟨id, sender, recipient, payload, clock c.time, false, true⟩
  | _, _ => none

/-- A call has marked the message of a kind as read. -/
def Acknowledges (kind : Kind) (id : ℕ) (c : Commit State Call (Option ℕ)) : Prop :=
  match kind, c.call with
  | .plain, .markAsRead _ messageId => messageId = id
  | .encrypted, .markEncryptedAsRead _ messageId => messageId = id
  | _, _ => False

instance : DecidablePred (Acknowledges kind id) := fun c => by
  unfold Acknowledges
  split <;> infer_instance

/-- The messages of a kind that the calls of a run have sent, in order; the ones that a call has
marked are read. -/
def history (clock : ℕ → ℕ) (kind : Kind) (log : List (Commit State Call (Option ℕ))) :
    List Message :=
  (log.filterMap (posted? clock kind)).map fun message =>
    { message with read := log.any fun c => Acknowledges kind message.id c }

/-- The message, once it is marked. -/
def Message.asRead (message : Message) : Message := { message with read := true }

/-- The messages of a history that have the user at one of their ends. -/
def ofUser (who : Message → Address) (user : Address) (unreadOnly : Bool)
    (messages : List Message) : List Message :=
  messages.filter fun message => who message = user ∧ (unreadOnly = true → message.read = false)

theorem ofUser_eq (who : Message → Address) (user : Address) (unreadOnly : Bool)
    (messages : List Message) :
    ofUser who user unreadOnly messages = (messages.filter fun message => who message = user).filter
      fun message => !unreadOnly || !message.read := by
  rw [ofUser, List.filter_filter]
  refine List.filter_congr fun message _ => ?_
  cases unreadOnly <;> cases message.read <;> simp

/-- A message that was not marked so far joins the history as it was sent. -/
theorem history_concat_posted (hposted : posted? clock kind c = some message)
    (hread : message.read = false) (hlog : ∀ c ∈ log, ¬ Acknowledges kind message.id c)
    (hc : ∀ id, ¬ Acknowledges kind id c) :
    history clock kind (log ++ [c]) = history clock kind log ++ [message] := by
  have hold : ∀ id, ((log ++ [c]).any fun c => decide (Acknowledges kind id c)) =
      log.any fun c => Acknowledges kind id c := fun id => by simp [hc id]
  have hnew : (log.any fun c => decide (Acknowledges kind message.id c)) = message.read := by
    rw [hread, List.any_eq_false]
    exact fun c hc => by simpa using hlog c hc
  simp only [history, hold, List.filterMap_append, List.map_append, List.filterMap_cons, hposted,
    List.filterMap_nil, List.map_singleton, hnew]

/-- A mark makes the message of its id a read one. -/
theorem history_concat_mark (hposted : posted? clock kind c = none)
    (hc : ∀ id', Acknowledges kind id' c ↔ id' = id) :
    history clock kind (log ++ [c]) =
      (history clock kind log).modifyKey Message.id id Message.asRead := by
  simp only [history, List.modifyKey, Message.asRead, List.filterMap_append, List.filterMap_cons, hposted,
    List.filterMap_nil, List.append_nil, List.map_map]
  refine List.map_congr_left fun message _ => ?_
  simp only [Function.comp_apply, List.any_append, List.any_cons, List.any_nil, Bool.or_false, hc]
  by_cases hid : message.id = id <;> simp [hid]

theorem history_concat_other (hposted : posted? clock kind c = none)
    (hc : ∀ id, ¬ Acknowledges kind id c) :
    history clock kind (log ++ [c]) = history clock kind log := by
  simp only [history, List.filterMap_append, List.filterMap_cons, hposted, List.filterMap_nil,
    List.append_nil, List.any_append, List.any_cons, List.any_nil, hc, decide_false, Bool.or_false]

/-! ## Mailboxes -/

namespace Mailbox

variable {mailbox : Mailbox} {messages : List Message} {index : Store Address (List ℕ)}
  {who : Message → Address}

/-- The mailbox holds the messages of a history, and lists them for their two users. -/
structure Follows (mailbox : Mailbox) (messages : List Message) : Prop where
  holds : Store.Holds Message.id mailbox.messages messages
  inbox : Store.Lists Message.id Message.recipient mailbox.inbox messages
  sent : Store.Lists Message.id Message.sender mailbox.sent messages

theorem Follows.post (h : mailbox.Follows messages)
    (hnew : mailbox.messages.lookup message.id = none) :
    (mailbox.post message).Follows (messages ++ [message]) :=
  ⟨h.holds.concat hnew, h.inbox.concat, h.sent.concat⟩

theorem Follows.acknowledge (h : mailbox.Follows messages)
    (hold : mailbox.messages.lookup id = some message) :
    Follows { mailbox with messages := mailbox.messages.insert id message.asRead }
      (messages.modifyKey Message.id id Message.asRead) :=
  ⟨h.holds.modify hold fun _ _ => rfl, h.inbox.modify fun _ _ => ⟨rfl, rfl⟩,
    h.sent.modify fun _ _ => ⟨rfl, rfl⟩⟩

/-- What is listed for a user are the user's messages of the history. -/
theorem Follows.listed (h : mailbox.Follows messages)
    (hindex : Store.Lists Message.id who index messages) (user : Address) (unreadOnly : Bool) :
    mailbox.listed index user unreadOnly = ofUser who user unreadOnly messages := by
  rw [ofUser_eq, ← h.holds.filterMap hindex]
  rfl

end Mailbox

/-! ## Calls -/

theorem Mail.mailboxes_deliver (m : Mail) (kind kind' : Kind) (message : Message) :
    (m.deliver kind message).mailboxes kind' =
      if kind' = kind then (m.mailboxes kind').post message else m.mailboxes kind' := by
  simp only [Mail.deliver, Function.update_apply]
  split
  · rw [‹kind' = kind›]
  · rfl

theorem Mail.mailboxes_acknowledge (m : Mail) (kind kind' : Kind) (id : ℕ) (message : Message) :
    (m.acknowledge kind id message).mailboxes kind' =
      if kind' = kind then { m.mailboxes kind' with
        messages := (m.mailboxes kind').messages.insert id message.asRead }
      else m.mailboxes kind' := by
  simp only [Mail.acknowledge, Function.update_apply, Message.asRead]
  split
  · rw [‹kind' = kind›]
  · rfl

/-- A call sends a message of the kind, which gets the next id, or it marks a stored one as read, or
it leaves the mailbox of the kind. -/
theorem execute_mailbox
    (he : (contract clock).exec c.time c.call c.before = .ok (c.result, c.after)) (kind : Kind) :
    (∃ message, posted? clock kind c = some message ∧ message.read = false ∧
        (∀ id, ¬ Acknowledges kind id c) ∧
        message.id = c.before.mail.getStatsInternal.lastMessageId + 1 ∧
        c.after.mail.mailboxes kind = (c.before.mail.mailboxes kind).post message) ∨
      (∃ id message, posted? clock kind c = none ∧ (∀ id', Acknowledges kind id' c ↔ id' = id) ∧
        c.before.mail.message? kind id = some message ∧
        c.after.mail.mailboxes kind = { c.before.mail.mailboxes kind with
          messages := (c.before.mail.mailboxes kind).messages.insert id message.asRead }) ∨
      (posted? clock kind c = none ∧ (∀ id, ¬ Acknowledges kind id c) ∧
        c.after.mail.mailboxes kind = c.before.mail.mailboxes kind) := by
  obtain ⟨time, call, result, s, s'⟩ := c
  have he : execute ⟨time, clock time⟩ s call = .ok (result, s') := he
  cases call with
  | init admin cbConfig =>
    simp only [execute, init, Except.bind_eq_ok, require_eq_ok, exists_const] at he
    obtain ⟨_, ⟨-, h₁⟩, he⟩ := he
    obtain rfl := Except.ok.inj h₁
    obtain ⟨rfl, rfl⟩ := Prod.mk.inj (Except.ok.inj he)
    cases kind <;> exact .inr (.inr ⟨rfl, fun _ => id, rfl⟩)
  | setRateLimitConfig admin cfg =>
    simp only [execute, setRateLimitConfig, requireInitialized, Except.bind_eq_ok, require_eq_ok,
      exists_const] at he
    obtain ⟨_, ⟨-, _, -, -, h₁⟩, he⟩ := he
    obtain rfl := Except.ok.inj h₁
    obtain ⟨rfl, rfl⟩ := Prod.mk.inj (Except.ok.inj he)
    cases kind <;> exact .inr (.inr ⟨rfl, fun _ => id, rfl⟩)
  | setPremiumUser admin user premium =>
    simp only [execute, setPremiumUser, requireInitialized, Except.bind_eq_ok, require_eq_ok,
      exists_const] at he
    obtain ⟨_, ⟨-, _, -, h₁⟩, he⟩ := he
    obtain rfl := Except.ok.inj h₁
    obtain ⟨rfl, rfl⟩ := Prod.mk.inj (Except.ok.inj he)
    cases kind <;> exact .inr (.inr ⟨rfl, fun _ => id, rfl⟩)
  | sendMessage sender recipient payload =>
    simp only [execute, sendMessage, Except.bind_eq_ok] at he
    obtain ⟨⟨messageId, s₁⟩, hsend, he⟩ := he
    obtain ⟨rfl, rfl⟩ := Prod.mk.inj (Except.ok.inj he)
    obtain ⟨-, -, -, hid, hmail⟩ := send_eq_ok hsend
    dsimp only
    rw [hmail, Mail.mailboxes_deliver]
    cases kind
    · exact .inl ⟨_, rfl, rfl, fun _ => id, hid, if_pos rfl⟩
    · exact .inr (.inr ⟨rfl, fun _ => id, if_neg (by simp)⟩)
  | sendEncryptedMessage sender recipient payload =>
    simp only [execute, sendEncryptedMessage, Except.bind_eq_ok] at he
    obtain ⟨⟨messageId, s₁⟩, hsend, he⟩ := he
    obtain ⟨rfl, rfl⟩ := Prod.mk.inj (Except.ok.inj he)
    obtain ⟨-, -, -, hid, hmail⟩ := send_eq_ok hsend
    dsimp only
    rw [hmail, Mail.mailboxes_deliver]
    cases kind
    · exact .inr (.inr ⟨rfl, fun _ => id, if_neg (by simp)⟩)
    · exact .inl ⟨_, rfl, rfl, fun _ => id, hid, if_pos rfl⟩
  | markAsRead recipient messageId =>
    simp only [execute, markAsRead, Except.bind_eq_ok] at he
    obtain ⟨s₁, hmark, he⟩ := he
    obtain ⟨rfl, rfl⟩ := Prod.mk.inj (Except.ok.inj he)
    obtain ⟨-, -, message, hmessage, -, -, hmail⟩ := mark_eq_ok hmark
    dsimp only
    rw [hmail, Mail.mailboxes_acknowledge]
    cases kind
    · exact .inr (.inl ⟨messageId, message, rfl, fun _ => eq_comm, hmessage, if_pos rfl⟩)
    · exact .inr (.inr ⟨rfl, fun _ => id, if_neg (by simp)⟩)
  | markEncryptedAsRead recipient messageId =>
    simp only [execute, markEncryptedAsRead, Except.bind_eq_ok] at he
    obtain ⟨s₁, hmark, he⟩ := he
    obtain ⟨rfl, rfl⟩ := Prod.mk.inj (Except.ok.inj he)
    obtain ⟨-, -, message, hmessage, -, -, hmail⟩ := mark_eq_ok hmark
    dsimp only
    rw [hmail, Mail.mailboxes_acknowledge]
    cases kind
    · exact .inr (.inr ⟨rfl, fun _ => id, if_neg (by simp)⟩)
    · exact .inr (.inl ⟨messageId, message, rfl, fun _ => eq_comm, hmessage, if_pos rfl⟩)

/-- The mailboxes follow the history of the run so far, and only messages that were sent are
marked. -/
structure Delivered (clock : ℕ → ℕ) (s : State) (log : List (Commit State Call (Option ℕ))) :
    Prop extends Ready s where
  follows : ∀ kind, (s.mail.mailboxes kind).Follows (history clock kind log)
  marked : ∀ kind id, ∀ c ∈ log, Acknowledges kind id c →
    id ≤ s.mail.getStatsInternal.lastMessageId

/-- A call keeps the mailboxes and the history together. -/
theorem Delivered.execute (h : Delivered clock c.before log)
    (he : (contract clock).exec c.time c.call c.before = .ok (c.result, c.after)) :
    Delivered clock c.after (log ++ [c]) := by
  obtain ⟨hready, -, hrange⟩ := h.toReady.execute he
  have hlast : c.before.mail.getStatsInternal.lastMessageId ≤
      c.after.mail.getStatsInternal.lastMessageId := by
    have hlength := congrArg List.length hrange
    rw [List.length_append, List.length_range', List.length_range'] at hlength
    omega
  refine ⟨hready, fun kind => ?_, fun kind id => ?_⟩
  · rcases execute_mailbox he kind with ⟨message, hposted, hread, hc, hid, hmailbox⟩ |
      ⟨id, message, hposted, hc, hmessage, hmailbox⟩ | ⟨hposted, hc, hmailbox⟩
    · have hnew : c.before.mail.message? kind message.id = none := by
        refine Option.eq_none_iff_forall_ne_some.mpr fun old hold => ?_
        have := (h.sound.stored kind _ _ hold).2
        omega
      have hlog : ∀ c ∈ log, ¬ Acknowledges kind message.id c := fun c hc hmark => by
        have := h.marked kind _ c hc hmark
        omega
      rw [hmailbox, history_concat_posted hposted hread hlog hc]
      exact (h.follows kind).post hnew
    · rw [hmailbox, history_concat_mark hposted hc]
      exact (h.follows kind).acknowledge hmessage
    · rw [hmailbox, history_concat_other hposted hc]
      exact h.follows kind
  · rw [List.forall_mem_append, List.forall_mem_singleton]
    refine ⟨fun c' hc' hmark => (h.marked kind id c' hc' hmark).trans hlast, fun hmark => ?_⟩
    rcases execute_mailbox he kind with ⟨_, -, -, hc, -⟩ | ⟨id', message, -, hc, hmessage, -⟩ |
      ⟨-, hc, -⟩
    · exact absurd hmark (hc id)
    · rw [(hc id).mp hmark]
      exact (h.sound.stored kind _ _ hmessage).2.trans hlast
    · exact absurd hmark (hc id)

/-! ## Runs -/

variable {w : World State} {sequence₀ : ℕ}

theorem delivered_of_run (hrun : (contract clock).Run ⟨sequence₀, .empty⟩ w log) :
    Delivered clock w.store log := by
  refine hrun.invariant_log (I := fun _ s log => Delivered clock s log)
    ⟨⟨Mail.sound_empty, fun _ => rfl⟩, fun _ => ⟨Store.holds_empty, Store.lists_empty,
      Store.lists_empty⟩, fun _ _ c hc => absurd hc List.not_mem_nil⟩
    (fun _ _ _ _ _ h => h) fun t k r s s' log h he => h.execute (c := ⟨t, k, r, s, s'⟩) he

/-- **Delivery.** In every state of a run, a user gets the messages that the calls so far have sent
to the user, and then the ones that they have sent by the user, each once and in order; they are
read as far as the calls have marked them. -/
theorem getMessages_of_run (hrun : (contract clock).Run ⟨sequence₀, .empty⟩ w log) (kind : Kind)
    (user : Address) (includeSent includeReceived unreadOnly : Bool) :
    getMessagesOf kind user includeSent includeReceived unreadOnly w.store =
      if w.store.initialized = true then
        .ok ((if includeReceived then
            ofUser Message.recipient user unreadOnly (history clock kind log) else []) ++
          if includeSent then
            ofUser Message.sender user unreadOnly (history clock kind log) else [])
      else .error (.error .notInitialized) := by
  have hfollows := (delivered_of_run hrun).follows kind
  simp only [getMessagesOf, requireInitialized, hfollows.listed hfollows.inbox,
    hfollows.listed hfollows.sent]
  by_cases hinit : w.store.initialized = true
  · rw [if_pos hinit, require, if_pos hinit]
    rfl
  · rw [if_neg hinit, require, if_neg hinit]
    rfl

/-- The users 2 and 3 write to each other, and the user 2 reads one of the messages. -/
def letters : List (ℕ × Call) :=
  [(1, .init ⟨1⟩ ⟨1000, 1000, 60⟩), (2, .sendMessage ⟨3⟩ ⟨2⟩ [7]),
    (3, .sendEncryptedMessage ⟨3⟩ ⟨2⟩ [8]), (4, .sendMessage ⟨2⟩ ⟨3⟩ [9]),
    (5, .sendMessage ⟨3⟩ ⟨2⟩ [5]), (6, .markAsRead ⟨2⟩ 1), (7, .markEncryptedAsRead ⟨2⟩ 4)]

/-- The user 2 has one unread message, and has sent one that is not read. -/
theorem getMessages_of_run_letters :
    getMessages ⟨2⟩ true true true ((contract (1000 + ·)).play ⟨0, .empty⟩ letters).1.store =
      .ok [⟨4, ⟨3⟩, ⟨2⟩, [5], 1005, false, true⟩, ⟨3, ⟨2⟩, ⟨3⟩, [9], 1004, false, true⟩] :=
  (getMessages_of_run (Contract.run_play (contract (1000 + ·)) ⟨0, .empty⟩ letters (by decide))
    .plain ⟨2⟩ true true true).trans rfl

end Stellara.Messaging
