import Stellara.Lib.Expiry
import Stellara.Lib.Tasks

/-!
# Voice sessions

A voice session is one record of a Redis database, with all its messages, which expires when it is
not saved for an hour. A request that changes it reads the record and saves it as a whole. The ids
of the sessions of a user are kept in a set, which has an expiry of its own, and a user has a
pointer to the active session. A user who has three sessions gets no other one.

Each command is a step of its own. The ids that are drawn are numbered, so that they are new.

## Main definitions

* `ConversationState`, `canTransition`: the states of a conversation and their transitions
* `VoiceSession`, `Edit`: the record of a session, and the requests that change it
* `Redis`: the database
* `Point.resume`, `voiceRequests`: the requests, one command after the other
* `Advance now s p q s'`: what a step does to the sessions
* `Indexed owner w`: the sessions are those of their ids, and of the users that `owner` says

## Main results

* `Edit.apply_spec`: what a change leaves of a session
* `advance_of_resume`: what a step does to the sessions
* `Indexed.step`: sessions are stored under their ids, and each has one user
-/

namespace Stellara.Voice

/-! ## Conversations -/

inductive ConversationState where
  | listening
  | thinking
  | responding
  | interrupted
  | idle
  | stale
  | terminated
deriving DecidableEq, Repr

def validTransitions : ConversationState → List ConversationState
  | .idle => [.listening]
  | .listening => [.thinking, .interrupted]
  | .thinking => [.responding, .interrupted]
  | .responding => [.listening, .interrupted, .idle]
  | .interrupted => [.listening, .idle]
  | .stale => []
  | .terminated => []

def canTransition (currentState newState : ConversationState) : Bool :=
  newState ∈ validTransitions currentState

/-! ## Sessions -/

structure VoiceMessage where
  id : ℕ
  content : String
  timestamp : ℕ
  isUser : Bool
deriving DecidableEq, Repr

structure VoiceSession where
  id : ℕ
  userId : String
  state : ConversationState
  messages : List VoiceMessage
  createdAt : ℕ
  lastActivityAt : ℕ
  lastPingAt : Option ℕ
  /-- In seconds. -/
  ttl : ℕ
  socketId : Option String
deriving DecidableEq, Repr

def VoiceSession.create (now id : ℕ) (userId : String) : VoiceSession where
  id := id
  userId := userId
  state := .idle
  messages := []
  createdAt := now
  lastActivityAt := now
  lastPingAt := none
  ttl := 3600
  socketId := none

/-- The requests that read a session, change it and save it. -/
inductive Edit where
  | addMessage (content : String) (isUser : Bool)
  | updateSessionState (newState : ConversationState)
  | updateSessionSocket (socketId : String)
  | updateLastPingAt
deriving DecidableEq, Repr

/-- The changed session, and the message that was added to it; `none` where the change is refused.
-/
def Edit.apply (now id : ℕ) (session : VoiceSession) :
    Edit → Option (VoiceSession × Option VoiceMessage)
  | .addMessage content isUser =>
    let message : VoiceMessage := ⟨id, content, now, isUser⟩
    some ({ session with messages := session.messages ++ [message], lastActivityAt := now },
      some message)
  | .updateSessionState newState =>
    if canTransition session.state newState then
      some ({ session with state := newState, lastActivityAt := now }, none)
    else none
  | .updateSessionSocket socketId =>
    some ({ session with socketId := some socketId, lastActivityAt := now }, none)
  | .updateLastPingAt =>
    some ({ session with lastPingAt := some now, lastActivityAt := now }, none)

/-! ## The database -/

def maxSessionsPerUser : ℕ := 3

/-- The lifetime of the set of a user's sessions, in seconds. -/
def sessionTtl : ℕ := 3600

/-- The lifetime of the pointer to the active session, in seconds. -/
def userSessionPointerTtl : ℕ := 600

structure Redis where
  sessions : ExpiringStore ℕ VoiceSession
  /-- The ids of the sessions of a user. -/
  userSessions : ExpiringStore String (List ℕ)
  /-- The active session of a user. -/
  activeSessions : ExpiringStore String ℕ
  /-- The next id that is drawn. -/
  nextId : ℕ
deriving DecidableEq

def Redis.empty : Redis := ⟨∅, ∅, ∅, 0⟩

def getSession (now sessionId : ℕ) (s : Redis) : Option VoiceSession :=
  ExpiringStore.get now sessionId s.sessions

def saveSession (now : ℕ) (session : VoiceSession) (s : Redis) : Redis :=
  { s with sessions := ExpiringStore.setEx now (1000 * session.ttl) session.id session s.sessions }

def Redis.sMembers (now : ℕ) (userId : String) (s : Redis) : List ℕ :=
  (ExpiringStore.get now userId s.userSessions).getD []

def Redis.sAdd (now : ℕ) (userId : String) (sessionId : ℕ) (s : Redis) : Redis :=
  { s with
    userSessions := ExpiringStore.modify now userId (fun ids => (ids.getD []).insert sessionId)
      s.userSessions }

/-- Remove an id from the set of a user, and the set with its last id. -/
def Redis.sRem (now : ℕ) (userId : String) (sessionId : ℕ) (s : Redis) : Redis :=
  if s.sMembers now userId = [sessionId] then
    { s with userSessions := s.userSessions.erase userId }
  else
    { s with
      userSessions := ExpiringStore.modify now userId (fun ids => (ids.getD []).erase sessionId)
        s.userSessions }

/-! ## Requests -/

/-- What a request is about to do. -/
inductive Point where
  | createSession (userId : String)
  /-- The sessions of the user are read, of which some were found to be there. -/
  | countSessions (userId : String) (remaining counted : List ℕ)
  /-- A new session is saved, after these sessions of the user were counted. -/
  | saveSession (session : VoiceSession) (counted : List ℕ)
  | addUserSession (session : VoiceSession)
  | expireUserSessions (session : VoiceSession)
  | created (session : VoiceSession)
  | limitReached
  | edit (sessionId : ℕ) (request : Edit)
  /-- The changed session is saved, with the message that was added to it. -/
  | saveEdit (session : VoiceSession) (message : Option VoiceMessage)
  | edited (session : VoiceSession) (message : Option VoiceMessage)
  | terminateSession (sessionId : ℕ)
  | deleteSession (session : VoiceSession)
  | removeUserSession (session : VoiceSession)
  | getUserActiveSession (session : VoiceSession)
  | deleteUserActiveSession (session : VoiceSession)
  | terminated (session : VoiceSession)
  | setUserActiveSession (userId : String) (sessionId : ℕ)
  | pointed
  /-- The session was not found, or the change was refused. -/
  | refused
deriving DecidableEq, Repr

/-- Go on with the sessions that remain to be read, or create the new one if there are not too
many. -/
def count (now : ℕ) (userId : String) (counted : List ℕ) (s : Redis) : List ℕ → Point × Redis
  | [] =>
    if maxSessionsPerUser ≤ counted.length then (.limitReached, s)
    else (.saveSession (VoiceSession.create now s.nextId userId) counted,
      { s with nextId := s.nextId + 1 })
  | remaining => (.countSessions userId remaining counted, s)

/-- From outside comes which of the reads that a request has in progress is served next. -/
def Point.resume (now next : ℕ) (s : Redis) : Point → Option (Point × Redis)
  | .createSession userId => some (count now userId [] s (s.sMembers now userId))
  | .countSessions userId remaining counted =>
    match remaining[next]? with
    | some id =>
      let counted := if (getSession now id s).isSome then id :: counted else counted
      some (count now userId counted s (remaining.eraseIdx next))
    | none => none
  | .saveSession session _ => some (.addUserSession session, Voice.saveSession now session s)
  | .addUserSession session =>
    some (.expireUserSessions session, s.sAdd now session.userId session.id)
  | .expireUserSessions session =>
    some (.created session, { s with
      userSessions := ExpiringStore.expire now (1000 * sessionTtl) session.userId s.userSessions })
  | .edit sessionId request =>
    match getSession now sessionId s with
    | some session =>
      match request.apply now s.nextId session with
      | some (session, message) =>
        some (.saveEdit session message, { s with nextId := s.nextId + 1 })
      | none => some (.refused, s)
    | none => some (.refused, s)
  | .saveEdit session message => some (.edited session message, Voice.saveSession now session s)
  | .terminateSession sessionId =>
    match getSession now sessionId s with
    | some session => some (.deleteSession session, s)
    | none => some (.refused, s)
  | .deleteSession session =>
    some (.removeUserSession session, { s with sessions := s.sessions.erase session.id })
  | .removeUserSession session =>
    some (.getUserActiveSession session, s.sRem now session.userId session.id)
  | .getUserActiveSession session =>
    if ExpiringStore.get now session.userId s.activeSessions = some session.id then
      some (.deleteUserActiveSession session, s)
    else some (.terminated session, s)
  | .deleteUserActiveSession session =>
    some (.terminated session, { s with activeSessions := s.activeSessions.erase session.userId })
  | .setUserActiveSession userId sessionId =>
    some (.pointed, { s with
      activeSessions := ExpiringStore.setEx now (1000 * userSessionPointerTtl) userId sessionId
        s.activeSessions })
  | _ => none

def voiceRequests : Async Redis Point ℕ where
  starts _
    | .createSession _ | .edit _ _ | .terminateSession _ | .setUserActiveSession _ _ => true
    | _ => false
  resume now next p s := p.resume now next s

/-! ## Steps -/

/-- The session that a request has created or found. -/
def Point.held : Point → Option VoiceSession
  | .saveSession session _ | .saveEdit session _ | .edited session _ | .deleteSession session
  | .removeUserSession session | .getUserActiveSession session | .deleteUserActiveSession session
  | .terminated session => some session
  | _ => none

/-- The session that a request has deleted. -/
def Point.deleted : Point → Option VoiceSession
  | .removeUserSession session | .getUserActiveSession session | .deleteUserActiveSession session
  | .terminated session => some session
  | _ => none

section Steps

variable {now next id : ℕ} {s s' : Redis} {p q : Point} {session session' : VoiceSession}
  {request : Edit} {message : Option VoiceMessage}

/-- A change keeps the id and the user of a session, and its messages but for the new one. -/
theorem Edit.apply_spec (h : request.apply now id session = some (session', message)) :
    session'.id = session.id ∧ session'.userId = session.userId ∧
      session'.messages = session.messages ++ message.toList := by
  cases request with
  | addMessage content isUser =>
    obtain ⟨rfl, rfl⟩ := Prod.mk.inj (Option.some.inj h)
    exact ⟨rfl, rfl, rfl⟩
  | updateSessionState newState =>
    simp only [Edit.apply] at h
    split at h
    · obtain ⟨rfl, rfl⟩ := Prod.mk.inj (Option.some.inj h)
      exact ⟨rfl, rfl, (List.append_nil _).symm⟩
    · cases h
  | updateSessionSocket socketId | updateLastPingAt =>
    obtain ⟨rfl, rfl⟩ := Prod.mk.inj (Option.some.inj h)
    exact ⟨rfl, rfl, (List.append_nil _).symm⟩

/-- What a step does to the sessions. -/
inductive Advance (now : ℕ) (s : Redis) : Point → Point → Redis → Prop
  | create {p : Point} {userId : String} {counted : List ℕ} : p.held = none →
      counted.length < maxSessionsPerUser →
      Advance now s p (.saveSession (VoiceSession.create now s.nextId userId) counted)
        { s with nextId := s.nextId + 1 }
  | saved {session : VoiceSession} {counted : List ℕ} :
      Advance now s (.saveSession session counted) (.addUserSession session)
        (saveSession now session s)
  | read {sessionId : ℕ} {request : Edit} {session session' : VoiceSession}
      {message : Option VoiceMessage} : getSession now sessionId s = some session →
      request.apply now s.nextId session = some (session', message) →
      Advance now s (.edit sessionId request) (.saveEdit session' message)
        { s with nextId := s.nextId + 1 }
  | edited {session : VoiceSession} {message : Option VoiceMessage} :
      Advance now s (.saveEdit session message) (.edited session message)
        (saveSession now session s)
  | found {sessionId : ℕ} {session : VoiceSession} : getSession now sessionId s = some session →
      Advance now s (.terminateSession sessionId) (.deleteSession session) s
  | deleted {session : VoiceSession} :
      Advance now s (.deleteSession session) (.removeUserSession session)
        { s with sessions := s.sessions.erase session.id }
  | quiet {p q : Point} {s' : Redis} : s'.sessions = s.sessions → s'.nextId = s.nextId →
      p.held = p.deleted → q.held = q.deleted → q.deleted = p.deleted → Advance now s p q s'

theorem advance_of_count {userId : String} {counted remaining : List ℕ} (hp : p.held = none)
    (hdeleted : p.deleted = none) (h : count now userId counted s remaining = (q, s')) :
    Advance now s p q s' := by
  cases remaining with
  | nil =>
    simp only [count] at h
    split at h
    · obtain ⟨rfl, rfl⟩ := Prod.mk.inj h
      exact .quiet rfl rfl (hp.trans hdeleted.symm) rfl hdeleted.symm
    · obtain ⟨rfl, rfl⟩ := Prod.mk.inj h
      exact .create hp (by omega)
  | cons id remaining =>
    obtain ⟨rfl, rfl⟩ := Prod.mk.inj h
    exact .quiet rfl rfl (hp.trans hdeleted.symm) rfl hdeleted.symm

theorem advance_of_resume (h : p.resume now next s = some (q, s')) : Advance now s p q s' := by
  cases p with
  | createSession userId => exact advance_of_count rfl rfl (Option.some.inj h)
  | countSessions userId remaining counted =>
    simp only [Point.resume] at h
    split at h
    · exact advance_of_count rfl rfl (Option.some.inj h)
    · cases h
  | saveSession session counted =>
    obtain ⟨rfl, rfl⟩ := Prod.mk.inj (Option.some.inj h)
    exact .saved
  | edit sessionId request =>
    simp only [Point.resume] at h
    split at h
    · rename_i session hread
      split at h <;> obtain ⟨rfl, rfl⟩ := Prod.mk.inj (Option.some.inj h)
      · exact .read hread ‹_›
      · exact .quiet rfl rfl rfl rfl rfl
    · obtain ⟨rfl, rfl⟩ := Prod.mk.inj (Option.some.inj h)
      exact .quiet rfl rfl rfl rfl rfl
  | saveEdit session message =>
    obtain ⟨rfl, rfl⟩ := Prod.mk.inj (Option.some.inj h)
    exact .edited
  | terminateSession sessionId =>
    simp only [Point.resume] at h
    split at h <;> obtain ⟨rfl, rfl⟩ := Prod.mk.inj (Option.some.inj h)
    · exact .found ‹_›
    · exact .quiet rfl rfl rfl rfl rfl
  | deleteSession session =>
    obtain ⟨rfl, rfl⟩ := Prod.mk.inj (Option.some.inj h)
    exact .deleted
  | getUserActiveSession session =>
    simp only [Point.resume] at h
    split at h <;> obtain ⟨rfl, rfl⟩ := Prod.mk.inj (Option.some.inj h)
    · exact .quiet rfl rfl rfl rfl rfl
    · exact .quiet rfl rfl rfl rfl rfl
  | removeUserSession session =>
    obtain ⟨rfl, rfl⟩ := Prod.mk.inj (Option.some.inj h)
    refine .quiet ?_ ?_ rfl rfl rfl
    · unfold Redis.sRem
      split <;> rfl
    · unfold Redis.sRem
      split <;> rfl
  | addUserSession session | expireUserSessions session | deleteUserActiveSession session
  | setUserActiveSession userId sessionId =>
    obtain ⟨rfl, rfl⟩ := Prod.mk.inj (Option.some.inj h)
    exact .quiet rfl rfl rfl rfl rfl
  | _ => cases h

theorem lookup_saveSession : (saveSession now session s).sessions.lookup id =
    if id = session.id then some ⟨session, some (now + 1000 * session.ttl)⟩
    else s.sessions.lookup id :=
  Store.lookup_insert_ite ..

theorem held_of_starts (h : voiceRequests.starts s p = true) : p.held = none := by
  cases p <;> first | rfl | cases h

theorem getSession_eq_some (h : getSession now id s = some session) :
    ∃ e, s.sessions.lookup id = some e ∧ e.value = session := by
  obtain ⟨e, hread, -, hvalue⟩ := ExpiringStore.get_eq_some.mp h
  exact ⟨e, hread, hvalue⟩

end Steps

/-! ## Ids and users -/

section Indexed

variable {now next i : ℕ} {s s' : Redis} {p q : Point} {points : List Point} {owner : ℕ → String}

/-- The session has an id that was drawn, and the user that goes with it. -/
structure Owned (owner : ℕ → String) (nextId : ℕ) (session : VoiceSession) : Prop where
  id_lt : session.id < nextId
  userId : session.userId = owner session.id

/-- The sessions are stored under their ids, and all copies of a session have one user. -/
structure Indexed (owner : ℕ → String) (w : Tasks Redis Point) : Prop where
  stored : ∀ id e, w.shared.sessions.lookup id = some e →
    e.value.id = id ∧ Owned owner w.shared.nextId e.value
  held : ∀ p ∈ w.points, ∀ session ∈ p.held, Owned owner w.shared.nextId session

theorem Indexed.start (h : Indexed owner ⟨s, points⟩) (hp : voiceRequests.starts s p = true) :
    Indexed owner ⟨s, points ++ [p]⟩ := by
  refine ⟨h.stored, forall_mem_start h.held fun session hsession => ?_⟩
  exact nomatch (held_of_starts hp).symm.trans hsession

theorem Indexed.getSession (h : Indexed owner ⟨s, points⟩) {id : ℕ} {session : VoiceSession}
    (hread : getSession now id s = some session) :
    session.id = id ∧ Owned owner s.nextId session := by
  obtain ⟨e, hstored, rfl⟩ := getSession_eq_some hread
  exact h.stored id e hstored

/-- A save of a session leaves the sessions in place. -/
theorem Indexed.save (h : Indexed owner ⟨s, points⟩) {session : VoiceSession}
    (hsession : Owned owner s.nextId session)
    (hq : ∀ session ∈ q.held, Owned owner s.nextId session) :
    Indexed owner ⟨saveSession now session s, points.set i q⟩ := by
  refine ⟨fun id e hread => ?_, forall_mem_step h.held hq⟩
  rcases Store.eq_or_lookup_of_insert hread with ⟨rfl, rfl⟩ | ⟨-, hold⟩
  · exact ⟨rfl, hsession⟩
  · exact h.stored id e hold

/-- A new session gets an id of its own. -/
theorem Indexed.create (h : Indexed owner ⟨s, points⟩) {userId : String} {counted : List ℕ} :
    Indexed (Function.update owner s.nextId userId) ⟨{ s with nextId := s.nextId + 1 },
      points.set i (.saveSession (VoiceSession.create now s.nextId userId) counted)⟩ := by
  have hkeep : ∀ session, Owned owner s.nextId session →
      Owned (Function.update owner s.nextId userId) (s.nextId + 1) session := by
    rintro session ⟨hlt, huser⟩
    refine ⟨Nat.lt_succ_of_lt hlt, ?_⟩
    rw [Function.update_of_ne (Nat.ne_of_lt hlt)]
    exact huser
  refine ⟨fun id e hread => ?_, forall_mem_step (fun r hr session hsession =>
    hkeep session (h.held r hr session hsession)) fun session hsession => ?_⟩
  · exact ⟨(h.stored id e hread).1, hkeep e.value (h.stored id e hread).2⟩
  · obtain rfl := Option.some.inj hsession
    exact ⟨Nat.lt_succ_self _, (Function.update_self s.nextId userId owner).symm⟩

theorem Owned.succ {nextId : ℕ} {session : VoiceSession} (h : Owned owner nextId session) :
    Owned owner (nextId + 1) session :=
  ⟨Nat.lt_succ_of_lt h.id_lt, h.userId⟩

theorem Indexed.step (h : Indexed owner ⟨s, points⟩) (hp : points[i]? = some p)
    (hstep : Advance now s p q s') : ∃ owner', Indexed owner' ⟨s', points.set i q⟩ := by
  have hheld := h.held p (List.mem_of_getElem? hp)
  cases hstep with
  | create _ _ => exact ⟨_, h.create⟩
  | saved => exact ⟨owner, h.save (hheld _ rfl) fun session hsession => nomatch hsession⟩
  | @read sessionId request session session' message hread happly =>
    -- a change keeps the id and the user of the session that was read
    obtain ⟨-, howned⟩ := h.getSession hread
    obtain ⟨hid, huser, -⟩ := Edit.apply_spec happly
    refine ⟨owner, fun id e hstored => ?_, forall_mem_step (fun r hr session hsession =>
      (h.held r hr session hsession).succ) fun session hsession => ?_⟩
    · exact ⟨(h.stored id e hstored).1, (h.stored id e hstored).2.succ⟩
    · obtain rfl := Option.some.inj hsession
      refine ⟨?_, ?_⟩
      · rw [hid]
        exact howned.succ.id_lt
      · rw [huser, hid]
        exact howned.userId
  | edited => exact ⟨owner, h.save (hheld _ rfl) hheld⟩
  | found hread =>
    refine ⟨owner, h.stored, forall_mem_step h.held fun session hsession => ?_⟩
    obtain rfl := Option.some.inj hsession
    exact (h.getSession hread).2
  | deleted =>
    refine ⟨owner, fun id e hstored => ?_, forall_mem_step h.held hheld⟩
    rw [Store.lookup_erase_ite] at hstored
    split at hstored
    · cases hstored
    · exact h.stored id e hstored
  | quiet hsessions hnext hpheld hqheld hdeleted =>
    -- the task holds at most the session that it held before
    rw [← hdeleted, ← hqheld] at hpheld
    rw [hpheld] at hheld
    refine ⟨owner, ?_, ?_⟩
    · rw [hsessions, hnext]
      exact h.stored
    · rw [hnext]
      exact forall_mem_step h.held hheld

end Indexed

end Stellara.Voice
