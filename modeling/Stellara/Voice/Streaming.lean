import Stellara.Voice.Sessions

/-!
# Streaming responses

A message of a user is answered by a stream. The stream is kept in a map of active streams while the
answer is generated and sent in chunks, one word after the other, and then the whole answer is added
to the session. An interrupt, of one stream or of all streams of a session, tells the client and
takes the streams out of the map.

What these methods do between two awaits is one step, and a command to Redis is another one, so that
anything can happen before and after it. Other requests change the sessions in the meantime. The
answer of the language model comes from outside, or an error in its place. What is emitted, and the
answers that are added to sessions, are recorded in their order.

## Main definitions

* `StreamingResponse`, `StreamingState`: the active streams, with the sessions and the record
* `SessionCall`: a call of the session service, one command after the other
* `Caller`: what waits for a call, with its local variables
* `StreamPoint.resume`, `streamingTasks`: streams, interrupts and other requests, step by step
* `StreamAdvance now input s p q s'`: what a step does to the active streams and the record

## Main results

* `streamAdvance_of_resume`: what a step does
-/

namespace Stellara.Voice

/-! ## Streams -/

structure StreamingChunk where
  id : ℕ
  content : String
  isComplete : Bool
  isPartial : Bool
deriving DecidableEq, Repr

structure StreamingResponse where
  id : ℕ
  sessionId : ℕ
  chunks : List StreamingChunk
  startTime : ℕ
  endTime : Option ℕ
  isInterrupted : Bool
deriving DecidableEq, Repr

/-- Whom an event is emitted to. -/
inductive Room where
  | socket (socketId : String)
  | session (sessionId : ℕ)
deriving DecidableEq, Repr

/-- The socket of a session if it has one, else the room of the session. -/
def room (session : VoiceSession) (sessionId : ℕ) : Room :=
  match session.socketId with
  | some socketId => if socketId = "" then .session sessionId else .socket socketId
  | none => .session sessionId

inductive VoiceEvent where
  | thinking (room : Room) (sessionId streamId : ℕ)
  | responding (room : Room) (sessionId streamId : ℕ)
  | chunk (room : Room) (sessionId streamId : ℕ) (chunk : StreamingChunk)
  | interrupted (room : Room) (sessionId streamId : ℕ)
  | complete (room : Room) (sessionId streamId : ℕ) (response : String)
  /-- The answer of the stream is saved with its session. -/
  | messageAdded (sessionId streamId : ℕ) (message : VoiceMessage)
deriving DecidableEq, Repr

structure StreamingState where
  redis : Redis
  /-- In the order in which they were started. -/
  activeStreams : List StreamingResponse
  /-- What was emitted and added so far, in order. -/
  history : List VoiceEvent
deriving DecidableEq

namespace StreamingState

def getStream (streamId : ℕ) (s : StreamingState) : Option StreamingResponse :=
  s.activeStreams.find? (·.id = streamId)

def emit (events : List VoiceEvent) (s : StreamingState) : StreamingState :=
  { s with history := s.history ++ events }

/-- An id was drawn. -/
def draw (s : StreamingState) : StreamingState :=
  { s with redis := { s.redis with nextId := s.redis.nextId + 1 } }

/-- Keep a stream, whose id is new. -/
def setStream (r : StreamingResponse) (s : StreamingState) : StreamingState :=
  { s with activeStreams := s.activeStreams ++ [r] }

def editStream (streamId : ℕ) (edit : StreamingResponse → StreamingResponse) (s : StreamingState) :
    StreamingState :=
  { s with activeStreams := s.activeStreams.map fun r => if r.id = streamId then edit r else r }

def deleteStreams (streamIds : List ℕ) (s : StreamingState) : StreamingState :=
  { s with activeStreams := s.activeStreams.filter (·.id ∉ streamIds) }

/-- The streams that an interrupt is for. -/
def interruptedStreams (sessionId : ℕ) (streamId : Option ℕ) (s : StreamingState) : List ℕ :=
  match streamId with
  | some streamId => (s.getStream streamId).toList.map (·.id)
  | none => (s.activeStreams.filter (·.sessionId = sessionId)).map (·.id)

/-- Mark the streams, tell the client, and take them out of the map. -/
def interrupt (now : ℕ) (session : VoiceSession) (sessionId : ℕ) (streamId : Option ℕ)
    (s : StreamingState) : StreamingState :=
  let streamIds := s.interruptedStreams sessionId streamId
  let marked := streamIds.foldl (fun s streamId => s.editStream streamId fun r =>
    { r with isInterrupted := true, endTime := some now }) s
  (marked.emit (streamIds.map fun streamId =>
    .interrupted (room session sessionId) sessionId streamId)).deleteStreams streamIds

end StreamingState

/-! ## Calls of the session service -/

def isInterruptible (state : ConversationState) : Bool := state ∈ [.thinking, .responding]

/-- A call, at its next command. -/
inductive SessionCall where
  | getSession (sessionId : ℕ)
  | edit (sessionId : ℕ) (request : Edit)
  | interruptSession (sessionId : ℕ)
  /-- The changed session is saved, with the message that was added to it. -/
  | saveEdit (session : VoiceSession) (message : Option VoiceMessage)
deriving DecidableEq, Repr

/-- The command of a call, and its reply. -/
def SessionCall.command (now : ℕ) (s : Redis) : SessionCall → Option VoiceSession × Redis
  | .getSession sessionId | .edit sessionId _ | .interruptSession sessionId =>
    (Voice.getSession now sessionId s, s)
  | .saveEdit session _ => (none, saveSession now session s)

/-- What a call does with the reply: it goes on with another command, or returns a session. -/
def SessionCall.proceed (now : ℕ) (reply : Option VoiceSession) (s : Redis) :
    SessionCall → (SessionCall ⊕ Option VoiceSession) × Redis
  | .getSession _ => (.inr reply, s)
  | .edit _ request =>
    match reply.bind (request.apply now s.nextId) with
    | some (session, message) =>
      (.inl (.saveEdit session message), { s with nextId := s.nextId + 1 })
    | none => (.inr none, s)
  | .interruptSession sessionId =>
    match reply with
    | some session =>
      if isInterruptible session.state then
        (.inl (.edit sessionId (.updateSessionState .interrupted)), s)
      else (.inr none, s)
    | none => (.inr none, s)
  | .saveEdit _ _ => (.inr none, s)

/-! ## Steps -/

/-- A stream with the message it answers. -/
structure Stream where
  sessionId : ℕ
  streamId : ℕ
  userMessage : String
deriving DecidableEq, Repr

/-- What waits for a call to return. -/
inductive Caller where
  /-- `startStreamingResponse` reads the session, adds the message and changes the state. -/
  | startStream (stream : Stream)
  | startMessage (stream : Stream) (session : VoiceSession)
  | startThinking (stream : Stream) (session : VoiceSession)
  /-- `generateStreamingResponse` reads the session and changes the state. -/
  | generate (stream : Stream)
  | generateResponding (stream : Stream) (session : VoiceSession)
  /-- `completeStreamingResponse` reads the session, adds the answer and changes the state. -/
  | complete (stream : Stream) (fullResponse : String)
  | completeMessage (stream : Stream) (fullResponse : String) (session : VoiceSession)
  | completeListening (stream : Stream)
  /-- `interruptStream` reads the session and interrupts it. -/
  | interrupt (sessionId : ℕ) (streamId : Option ℕ)
  | interruptSession
deriving DecidableEq, Repr

inductive StreamPoint where
  | startStreamingResponse (sessionId : ℕ) (userMessage : String)
  | interruptStream (sessionId : ℕ) (streamId : Option ℕ)
  /-- Another request for a session. -/
  | request (p : Point)
  /-- A command is sent to Redis, or its reply is there. -/
  | waiting (call : SessionCall) (caller : Caller)
  | replied (call : SessionCall) (reply : Option VoiceSession) (caller : Caller)
  /-- The timer of a stream that was started. -/
  | started (stream : Stream) (due : ℕ)
  | generating (stream : Stream) (session : VoiceSession)
  /-- The delay before the chunk of the word `i`. -/
  | delayed (stream : Stream) (session : VoiceSession) (fullResponse : String) (i : ℕ)
      (currentText : String) (due : ℕ)
  | ended
deriving DecidableEq, Repr

/-- What comes from outside: which of the reads of a request is served next, and the answer of the
language model, if it gives one. -/
structure StreamInput where
  next : ℕ
  answer : Option String
deriving DecidableEq, Repr

def chunkDelay : ℕ := 100

def startDelay : ℕ := 1000

def split (text : String) : List String := (text.toList.splitOn ' ').map String.ofList

/-- Send the chunk of the word `i`, if the stream is active, and wait or complete the stream. -/
def sendChunk (now : ℕ) (stream : Stream) (session : VoiceSession) (fullResponse : String) (i : ℕ)
    (currentText : String) (s : StreamingState) : StreamPoint × StreamingState :=
  let words := split fullResponse
  match words[i]? with
  | none => (.waiting (.getSession stream.sessionId) (.complete stream fullResponse), s)
  | some word =>
    match s.getStream stream.streamId with
    | none => (.ended, s)
    | some streamingResponse =>
      if streamingResponse.isInterrupted then (.ended, s)
      else
        let currentText := currentText ++ (if 0 < i then " " else "") ++ word
        let chunk : StreamingChunk :=
          ⟨s.redis.nextId, currentText, i = words.length - 1, i < words.length - 1⟩
        let sent := (s.draw.editStream stream.streamId fun r =>
          { r with chunks := r.chunks ++ [chunk] }).emit
            [.chunk (room session stream.sessionId) stream.sessionId stream.streamId chunk]
        if i < words.length - 1 then
          (.delayed stream session fullResponse (i + 1) currentText (now + chunkDelay), sent)
        else (.waiting (.getSession stream.sessionId) (.complete stream fullResponse), sent)

/-- What a method does when its call returns. -/
def Caller.proceed (now : ℕ) (result : Option VoiceSession) (s : StreamingState) :
    Caller → StreamPoint × StreamingState
  | .startStream stream =>
    match result with
    | some session =>
      (.waiting (.edit stream.sessionId (.addMessage stream.userMessage true))
        (.startMessage stream session), s)
    | none => (.ended, s)
  | .startMessage stream session =>
    (.waiting (.edit stream.sessionId (.updateSessionState .thinking))
      (.startThinking stream session), s)
  | .startThinking stream session =>
    (.started stream (now + startDelay),
      (s.setStream ⟨stream.streamId, stream.sessionId, [], now, none, false⟩).emit
        [.thinking (room session stream.sessionId) stream.sessionId stream.streamId])
  | .generate stream =>
    match result, s.getStream stream.streamId with
    | some session, some streamingResponse =>
      if streamingResponse.isInterrupted then (.ended, s)
      else (.waiting (.edit stream.sessionId (.updateSessionState .responding))
        (.generateResponding stream session), s)
    | _, _ => (.ended, s)
  | .generateResponding stream session => (.generating stream session, s)
  | .complete stream fullResponse =>
    -- the last look at the map, with the save of the answer still to come
    match result, s.getStream stream.streamId with
    | some session, some _ =>
      (.waiting (.edit stream.sessionId (.addMessage fullResponse false))
        (.completeMessage stream fullResponse session),
        s.editStream stream.streamId fun r => { r with endTime := some now })
    | _, _ => (.ended, s)
  | .completeMessage stream fullResponse session =>
    (.waiting (.edit stream.sessionId (.updateSessionState .listening)) (.completeListening stream),
      s.emit [.complete (room session stream.sessionId) stream.sessionId stream.streamId
        fullResponse])
  | .completeListening stream => (.ended, s.deleteStreams [stream.streamId])
  | .interrupt sessionId streamId =>
    match result with
    | some session =>
      (.waiting (.interruptSession sessionId) .interruptSession,
        s.interrupt now session sessionId streamId)
    | none => (.ended, s)
  | .interruptSession => (.ended, s)

/-- What the command of a call adds to a session for a stream. -/
def Caller.adds (call : SessionCall) : Caller → List VoiceEvent
  | .completeMessage stream _ _ =>
    match call with
    | .saveEdit _ (some message) => [.messageAdded stream.sessionId stream.streamId message]
    | _ => []
  | _ => []

/-- What a task does to its next await, or a command to Redis. -/
def StreamPoint.resume (now : ℕ) (input : StreamInput) (s : StreamingState) :
    StreamPoint → Option (StreamPoint × StreamingState)
  | .startStreamingResponse sessionId userMessage =>
    some (.waiting (.getSession sessionId)
        (.startStream ⟨sessionId, s.redis.nextId, userMessage⟩), s.draw)
  | .interruptStream sessionId streamId =>
    some (.waiting (.getSession sessionId) (.interrupt sessionId streamId), s)
  | .request p =>
    (p.resume now input.next s.redis).map fun (q, redis) => (.request q, { s with redis := redis })
  | .waiting call caller =>
    let (reply, redis) := call.command now s.redis
    some (.replied call reply caller, ({ s with redis := redis }).emit (caller.adds call))
  | .replied call reply caller =>
    match call.proceed now reply s.redis with
    | (.inl call, redis) => some (.waiting call caller, { s with redis := redis })
    | (.inr result, redis) => some (caller.proceed now result { s with redis := redis })
  | .started stream due =>
    if due ≤ now then some (.waiting (.getSession stream.sessionId) (.generate stream), s) else none
  | .generating stream session =>
    match input.answer with
    | some fullResponse =>
      -- the map was looked at before the language model was asked, and only the chunk looks again
      some (sendChunk now stream session fullResponse 0 ""
        (s.emit [.responding (room session stream.sessionId) stream.sessionId stream.streamId]))
    | none => some (.ended, s)
  | .delayed stream session fullResponse i currentText due =>
    if due ≤ now then some (sendChunk now stream session fullResponse i currentText s) else none
  | .ended => none

/-- Streams, interrupts, and other requests for sessions. -/
def streamingTasks : Async StreamingState StreamPoint StreamInput where
  starts s
    | .startStreamingResponse _ _ | .interruptStream _ _ => true
    | .request p => voiceRequests.starts s.redis p
    | _ => false
  resume now input p s := p.resume now input s

/-! ## What a step does -/

/-- The stream that waits, and whether it was put into the map. -/
def Caller.stream : Caller → Option (ℕ × Bool)
  | .startStream stream | .startMessage stream _ | .startThinking stream _ =>
    some (stream.streamId, false)
  | .generate stream | .generateResponding stream _ | .complete stream _
  | .completeMessage stream _ _ | .completeListening stream => some (stream.streamId, true)
  | .interrupt _ _ | .interruptSession => none

/-- The stream of a task, and whether it was put into the map. -/
def StreamPoint.stream : StreamPoint → Option (ℕ × Bool)
  | .waiting _ caller | .replied _ _ caller => caller.stream
  | .started stream _ | .generating stream _ | .delayed stream _ _ _ _ _ =>
    some (stream.streamId, true)
  | _ => none

/-- The stream for which a step emits or adds something without a look at the map. -/
def StreamPoint.unchecked (now : ℕ) (input : StreamInput) (s : StreamingState) :
    StreamPoint → Option ℕ
  | .generating stream _ => if input.answer.isSome then some stream.streamId else none
  | .waiting call (.completeMessage stream _ _) =>
    match call with
    | .saveEdit _ (some _) => some stream.streamId
    | _ => none
  | .replied call reply (.completeMessage stream _ _) =>
    match (call.proceed now reply s.redis).1 with
    | .inl _ => none
    | .inr _ => some stream.streamId
  | _ => none

/-- The stream that the event interrupts. -/
def VoiceEvent.interrupts : VoiceEvent → Option ℕ
  | .interrupted _ _ streamId => some streamId
  | _ => none

/-- The stream whose answer is in the event. -/
def VoiceEvent.output : VoiceEvent → Option ℕ
  | .responding _ _ streamId | .chunk _ _ streamId _ | .complete _ _ streamId _
  | .messageAdded _ streamId _ => some streamId
  | .thinking _ _ _ | .interrupted _ _ _ => none

/-- The ids of the streams in the map, and whether they are marked as interrupted. -/
def StreamingState.streams (s : StreamingState) : List (ℕ × Bool) :=
  s.activeStreams.map fun r => (r.id, r.isInterrupted)

/-- What a step does to the active streams and the record. -/
inductive StreamAdvance (now : ℕ) (input : StreamInput) (s : StreamingState) :
    StreamPoint → StreamPoint → StreamingState → Prop
  | quiet {p q : StreamPoint} {s' : StreamingState} : s'.streams = s.streams →
      s'.history = s.history → s.redis.nextId ≤ s'.redis.nextId →
      (q.stream = p.stream ∨ q.stream = none) → p.unchecked now input s = none →
      StreamAdvance now input s p q s'
  | draw {p q : StreamPoint} : q.stream = some (s.redis.nextId, false) →
      p.unchecked now input s = none → StreamAdvance now input s p q s.draw
  | set {p q : StreamPoint} {s' : StreamingState} (id : ℕ) (event : VoiceEvent) :
      p.stream = some (id, false) → q.stream = some (id, true) →
      s'.streams = s.streams ++ [(id, false)] → s'.history = s.history ++ [event] →
      event.interrupts = none → event.output = none → s.redis.nextId ≤ s'.redis.nextId →
      p.unchecked now input s = none → StreamAdvance now input s p q s'
  | output {p q : StreamPoint} {s' : StreamingState} {events : List VoiceEvent} (id : ℕ) :
      p.stream = some (id, true) → (q.stream = p.stream ∨ q.stream = none) →
      s'.streams = s.streams → s'.history = s.history ++ events → events ≠ [] →
      (∀ event ∈ events, event.interrupts = none ∧ event.output = some id) →
      s.redis.nextId ≤ s'.redis.nextId →
      p.unchecked now input s = some id ∨ p.unchecked now input s = none ∧ (id, false) ∈ s.streams →
      StreamAdvance now input s p q s'
  | interrupt {p q : StreamPoint} {s' : StreamingState} {events : List VoiceEvent}
      (streamIds : List ℕ) : q.stream = none →
      s'.streams = s.streams.filter (·.1 ∉ streamIds) → s'.history = s.history ++ events →
      events.filterMap VoiceEvent.interrupts = streamIds → (∀ event ∈ events, event.output = none) →
      (∀ id ∈ streamIds, ∃ stream ∈ s.streams, stream.1 = id) →
      s.redis.nextId ≤ s'.redis.nextId → p.unchecked now input s = none →
      StreamAdvance now input s p q s'
  | delete {p q : StreamPoint} {s' : StreamingState} (id : ℕ) : p.stream = some (id, true) →
      q.stream = none → s'.streams = s.streams.filter (·.1 ∉ [id]) → s'.history = s.history →
      s.redis.nextId ≤ s'.redis.nextId → p.unchecked now input s = none →
      StreamAdvance now input s p q s'

section Steps

variable {now : ℕ} {input : StreamInput} {s s' : StreamingState} {p q : StreamPoint} {streamId : ℕ}
  {streamIds : List ℕ} {events : List VoiceEvent} {r : StreamingResponse}

namespace StreamingState

@[simp] theorem streams_draw : s.draw.streams = s.streams := rfl

@[simp] theorem history_draw : s.draw.history = s.history := rfl

@[simp] theorem streams_emit : (s.emit events).streams = s.streams := rfl

@[simp] theorem history_emit : (s.emit events).history = s.history ++ events := rfl

@[simp] theorem redis_emit : (s.emit events).redis = s.redis := rfl

@[simp] theorem streams_setStream :
    (s.setStream r).streams = s.streams ++ [(r.id, r.isInterrupted)] := by
  simp [streams, setStream]

/-- An edit that keeps the ids and the marks. -/
theorem streams_editStream {edit : StreamingResponse → StreamingResponse}
    (hedit : ∀ r, (edit r).id = r.id ∧ (edit r).isInterrupted = r.isInterrupted) :
    (s.editStream streamId edit).streams = s.streams := by
  unfold streams editStream
  rw [List.map_map]
  refine List.map_congr_left fun r _ => ?_
  rw [Function.comp_apply]
  split
  · rw [(hedit r).1, (hedit r).2]
  · rfl

@[simp] theorem history_editStream {edit : StreamingResponse → StreamingResponse} :
    (s.editStream streamId edit).history = s.history := rfl

@[simp] theorem redis_editStream {edit : StreamingResponse → StreamingResponse} :
    (s.editStream streamId edit).redis = s.redis := rfl

theorem streams_deleteStreams :
    (s.deleteStreams streamIds).streams = s.streams.filter (·.1 ∉ streamIds) := by
  unfold streams deleteStreams
  rw [List.filter_map]
  rfl

theorem getStream_eq_some (h : s.getStream streamId = some r) :
    r ∈ s.activeStreams ∧ r.id = streamId := by
  have hid := List.find?_some h
  exact ⟨List.mem_of_find?_eq_some h, of_decide_eq_true hid⟩

/-- A stream that is found unmarked is among the active ones. -/
theorem mem_streams (h : s.getStream streamId = some r) (hmark : r.isInterrupted = false) :
    (streamId, false) ∈ s.streams := by
  obtain ⟨hmem, rfl⟩ := getStream_eq_some h
  exact List.mem_map.mpr ⟨r, hmem, by rw [hmark]⟩

/-- An interrupt is for streams of the map. -/
theorem mem_of_interruptedStreams {sessionId : ℕ} {only : Option ℕ}
    (h : streamId ∈ s.interruptedStreams sessionId only) :
    ∃ stream ∈ s.streams, stream.1 = streamId := by
  have hmem : ∃ r ∈ s.activeStreams, r.id = streamId := by
    cases only with
    | none =>
      obtain ⟨r, hr, hid⟩ := List.mem_map.mp h
      exact ⟨r, (List.mem_filter.mp hr).1, hid⟩
    | some only =>
      obtain ⟨r, hr, hid⟩ := List.mem_map.mp h
      exact ⟨r, (getStream_eq_some (Option.mem_toList.mp hr)).1, hid⟩
  obtain ⟨r, hr, hid⟩ := hmem
  exact ⟨_, List.mem_map_of_mem hr, hid⟩

/-- An edit of a stream that is deleted does not matter. -/
theorem filter_editStream {edit : StreamingResponse → StreamingResponse}
    (hedit : ∀ r, (edit r).id = r.id) (hid : streamId ∈ streamIds) :
    (s.editStream streamId edit).streams.filter (·.1 ∉ streamIds) =
      s.streams.filter (·.1 ∉ streamIds) := by
  unfold streams editStream
  rw [List.map_map, List.filter_map, List.filter_map]
  have hkeep : ∀ r : StreamingResponse, (if r.id = streamId then edit r else r).id = r.id := by
    intro r
    split
    · exact hedit r
    · rfl
  have hfilter : ((fun x : ℕ × Bool => decide (x.1 ∉ streamIds)) ∘
      (fun r => (r.id, r.isInterrupted)) ∘ fun r => if r.id = streamId then edit r else r) =
      (fun x : ℕ × Bool => decide (x.1 ∉ streamIds)) ∘ fun r => (r.id, r.isInterrupted) := by
    funext r
    simp only [Function.comp_apply, hkeep]
  rw [hfilter]
  refine List.map_congr_left fun r hr => ?_
  have hne : r.id ≠ streamId := by
    rintro rfl
    exact of_decide_eq_true (List.mem_filter.mp hr).2 hid
  rw [Function.comp_apply, if_neg hne]

theorem foldl_editStream (s : StreamingState) (edit : StreamingResponse → StreamingResponse)
    (hedit : ∀ r, (edit r).id = r.id) {ids : List ℕ} (hids : ids ⊆ streamIds) :
    let s' := ids.foldl (fun s streamId => s.editStream streamId edit) s
    s'.streams.filter (·.1 ∉ streamIds) = s.streams.filter (·.1 ∉ streamIds) ∧
      s'.history = s.history ∧ s'.redis = s.redis := by
  induction ids generalizing s with
  | nil => exact ⟨rfl, rfl, rfl⟩
  | cons id ids ih =>
    obtain ⟨hid, hids⟩ := List.cons_subset.mp hids
    obtain ⟨hstreams, hhistory, hredis⟩ := ih (s.editStream id edit) hids
    exact ⟨hstreams.trans (filter_editStream hedit hid), hhistory, hredis⟩

/-- An interrupt takes its streams out of the map, and records that. -/
theorem interrupt_spec (now : ℕ) (s : StreamingState) (session : VoiceSession) (sessionId : ℕ)
    (only : Option ℕ) :
    let streamIds := s.interruptedStreams sessionId only
    (s.interrupt now session sessionId only).streams = s.streams.filter (·.1 ∉ streamIds) ∧
      (s.interrupt now session sessionId only).history = s.history ++ streamIds.map (fun streamId =>
        .interrupted (room session sessionId) sessionId streamId) ∧
      (s.interrupt now session sessionId only).redis = s.redis := by
  obtain ⟨hstreams, hhistory, hredis⟩ := foldl_editStream s
    (fun r => { r with isInterrupted := true, endTime := some now }) (fun _ => rfl)
    (List.Subset.refl (s.interruptedStreams sessionId only))
  unfold interrupt
  refine ⟨?_, ?_, ?_⟩
  · rw [streams_deleteStreams, streams_emit, hstreams]
  · exact congrArg (· ++ _) hhistory
  · exact hredis

end StreamingState

/-! ## Steps -/

/-- A call draws at most one id. -/
theorem nextId_le_proceed (now : ℕ) (call : SessionCall) (reply : Option VoiceSession)
    (redis : Redis) : redis.nextId ≤ (call.proceed now reply redis).2.nextId := by
  cases call with
  | edit sessionId request =>
    simp only [SessionCall.proceed]
    split
    · exact Nat.le_succ _
    · exact le_refl _
  | interruptSession sessionId =>
    simp only [SessionCall.proceed]
    split
    · split <;> exact le_refl _
    · exact le_refl _
  | _ => exact le_refl _

theorem nextId_command {call : SessionCall} {redis : Redis} :
    (call.command now redis).2.nextId = redis.nextId := by
  cases call <;> rfl

/-- Other requests draw ids, too. -/
theorem nextId_le_resume {next : ℕ} {redis redis' : Redis} {p q : Point}
    (h : p.resume now next redis = some (q, redis')) : redis.nextId ≤ redis'.nextId := by
  have hstep := advance_of_resume h
  cases hstep with
  | create | read => exact Nat.le_succ _
  | saved | edited | found | deleted => exact le_refl _
  | quiet _ hnext => exact hnext.ge

/-- A chunk is sent while its stream is active. -/
theorem sendChunk_spec (stream : Stream) (session : VoiceSession) (fullResponse : String) (i : ℕ)
    (currentText : String) (s : StreamingState) :
    ∃ q s' events, sendChunk now stream session fullResponse i currentText s = (q, s') ∧
      (q.stream = some (stream.streamId, true) ∨ q.stream = none) ∧ s'.streams = s.streams ∧
      s'.history = s.history ++ events ∧
      (∀ event ∈ events, event.interrupts = none ∧ event.output = some stream.streamId) ∧
      s.redis.nextId ≤ s'.redis.nextId ∧ (events ≠ [] → (stream.streamId, false) ∈ s.streams) := by
  unfold sendChunk
  dsimp only
  split
  · exact ⟨_, _, [], rfl, .inl rfl, rfl, (List.append_nil _).symm, by simp, le_refl _, by simp⟩
  · split
    · exact ⟨_, _, [], rfl, .inr rfl, rfl, (List.append_nil _).symm, by simp, le_refl _, by simp⟩
    · rename_i streamingResponse hget
      split
      · exact ⟨_, _, [], rfl, .inr rfl, rfl, (List.append_nil _).symm, by simp, le_refl _, by simp⟩
      · rename_i hmark
        have hactive := StreamingState.mem_streams hget (by simpa using hmark)
        have hstreams : ∀ chunk : StreamingChunk, (s.draw.editStream stream.streamId fun r =>
            { r with chunks := r.chunks ++ [chunk] }).streams = s.streams := fun chunk =>
          StreamingState.streams_editStream fun r => ⟨rfl, rfl⟩
        split
        · exact ⟨_, _, [_], rfl, .inl rfl, hstreams _, rfl, by simp [VoiceEvent.interrupts,
            VoiceEvent.output], Nat.le_succ _, fun _ => hactive⟩
        · exact ⟨_, _, [_], rfl, .inl rfl, hstreams _, rfl, by simp [VoiceEvent.interrupts,
            VoiceEvent.output], Nat.le_succ _, fun _ => hactive⟩

/-- What a method does when its call returns. -/
theorem streamAdvance_of_proceed {call : SessionCall} {reply result : Option VoiceSession}
    {caller : Caller} {redis : Redis}
    (hcall : call.proceed now reply s.redis = (.inr result, redis))
    (h : caller.proceed now result { s with redis := redis } = (q, s')) :
    StreamAdvance now input s (.replied call reply caller) q s' := by
  have hle : s.redis.nextId ≤ redis.nextId := by
    have hnext := nextId_le_proceed now call reply s.redis
    rwa [hcall] at hnext
  cases caller with
  | startStream stream =>
    cases result with
    | none =>
      obtain ⟨rfl, rfl⟩ := Prod.mk.inj h
      exact .quiet rfl rfl hle (.inr rfl) rfl
    | some session =>
      obtain ⟨rfl, rfl⟩ := Prod.mk.inj h
      exact .quiet rfl rfl hle (.inl rfl) rfl
  | startMessage stream session | generateResponding stream session =>
    obtain ⟨rfl, rfl⟩ := Prod.mk.inj h
    exact .quiet rfl rfl hle (.inl rfl) rfl
  | startThinking stream session =>
    obtain ⟨rfl, rfl⟩ := Prod.mk.inj h
    exact .set _ _ rfl rfl StreamingState.streams_setStream rfl rfl rfl hle rfl
  | generate stream =>
    simp only [Caller.proceed] at h
    split at h
    · split at h
      · obtain ⟨rfl, rfl⟩ := Prod.mk.inj h
        exact .quiet rfl rfl hle (.inr rfl) rfl
      · obtain ⟨rfl, rfl⟩ := Prod.mk.inj h
        exact .quiet rfl rfl hle (.inl rfl) rfl
    · obtain ⟨rfl, rfl⟩ := Prod.mk.inj h
      exact .quiet rfl rfl hle (.inr rfl) rfl
  | complete stream fullResponse =>
    simp only [Caller.proceed] at h
    split at h
    · obtain ⟨rfl, rfl⟩ := Prod.mk.inj h
      exact .quiet (StreamingState.streams_editStream fun _ => ⟨rfl, rfl⟩) rfl hle (.inl rfl) rfl
    · obtain ⟨rfl, rfl⟩ := Prod.mk.inj h
      exact .quiet rfl rfl hle (.inr rfl) rfl
  | completeMessage stream fullResponse session =>
    obtain ⟨rfl, rfl⟩ := Prod.mk.inj h
    refine .output _ rfl (.inl rfl) rfl rfl (List.cons_ne_nil _ _)
      (by simp [VoiceEvent.interrupts, VoiceEvent.output]) hle (.inl ?_)
    simp only [StreamPoint.unchecked, hcall]
  | completeListening stream =>
    obtain ⟨rfl, rfl⟩ := Prod.mk.inj h
    exact .delete _ rfl rfl StreamingState.streams_deleteStreams rfl hle rfl
  | interrupt sessionId only =>
    cases result with
    | none =>
      obtain ⟨rfl, rfl⟩ := Prod.mk.inj h
      exact .quiet rfl rfl hle (.inr rfl) rfl
    | some session =>
      obtain ⟨rfl, rfl⟩ := Prod.mk.inj h
      obtain ⟨hstreams, hhistory, hredis⟩ := StreamingState.interrupt_spec now
        { s with redis := redis } session sessionId only
      refine .interrupt _ rfl hstreams hhistory ?_ (by simp [VoiceEvent.output])
        (fun id hid => StreamingState.mem_of_interruptedStreams hid)
        (hle.trans_eq (congrArg Redis.nextId hredis.symm)) rfl
      rw [List.filterMap_map]
      exact List.filterMap_some
  | interruptSession =>
    obtain ⟨rfl, rfl⟩ := Prod.mk.inj h
    exact .quiet rfl rfl hle (.inr rfl) rfl

theorem streamAdvance_of_resume (h : p.resume now input s = some (q, s')) :
    StreamAdvance now input s p q s' := by
  cases p with
  | startStreamingResponse sessionId userMessage =>
    obtain ⟨rfl, rfl⟩ := Prod.mk.inj (Option.some.inj h)
    exact .draw rfl rfl
  | interruptStream sessionId only =>
    obtain ⟨rfl, rfl⟩ := Prod.mk.inj (Option.some.inj h)
    exact .quiet rfl rfl (le_refl _) (.inl rfl) rfl
  | request p =>
    obtain ⟨⟨q, redis⟩, hp, hq⟩ := Option.map_eq_some_iff.mp h
    obtain ⟨rfl, rfl⟩ := Prod.mk.inj hq
    exact .quiet rfl rfl (nextId_le_resume hp) (.inl rfl) rfl
  | waiting call caller =>
    obtain ⟨rfl, rfl⟩ := Prod.mk.inj (Option.some.inj h)
    have hle : s.redis.nextId ≤ (call.command now s.redis).2.nextId := nextId_command.ge
    by_cases hadds : caller.adds call = []
    · refine .quiet rfl ?_ hle (.inl rfl) ?_
      · rw [StreamingState.history_emit, hadds, List.append_nil]
      · cases caller with
        | completeMessage stream fullResponse session =>
          cases call with
          | saveEdit session message =>
            cases message with
            | none => rfl
            | some message => cases hadds
          | _ => rfl
        | _ => rfl
    · -- only the answer of a stream that is completed is added
      cases caller with
      | completeMessage stream fullResponse session =>
        cases call with
        | saveEdit session message =>
          cases message with
          | none => exact absurd rfl hadds
          | some message =>
            refine .output _ rfl (.inl rfl) rfl rfl hadds (fun event hevent => ?_) hle (.inl rfl)
            obtain rfl := List.mem_singleton.mp hevent
            exact ⟨rfl, rfl⟩
        | _ => exact absurd rfl hadds
      | _ => exact absurd rfl hadds
  | replied call reply caller =>
    simp only [StreamPoint.resume] at h
    split at h
    · rename_i call' redis hcall
      obtain ⟨rfl, rfl⟩ := Prod.mk.inj (Option.some.inj h)
      have hle : s.redis.nextId ≤ redis.nextId := by
        have hnext := nextId_le_proceed now call reply s.redis
        rwa [hcall] at hnext
      refine .quiet rfl rfl hle (.inl rfl) ?_
      cases caller with
      | completeMessage stream fullResponse session => simp only [StreamPoint.unchecked, hcall]
      | _ => rfl
    · rename_i result redis hcall
      exact streamAdvance_of_proceed hcall (Option.some.inj h)
  | started stream due =>
    simp only [StreamPoint.resume] at h
    split at h
    · obtain ⟨rfl, rfl⟩ := Prod.mk.inj (Option.some.inj h)
      exact .quiet rfl rfl (le_refl _) (.inl rfl) rfl
    · cases h
  | generating stream session =>
    simp only [StreamPoint.resume] at h
    split at h
    · rename_i fullResponse hanswer
      obtain ⟨q', s'', events, hsend, hq, hstreams, hhistory, hevents, hle, -⟩ :=
        sendChunk_spec stream session fullResponse 0 ""
          (s.emit [.responding (room session stream.sessionId) stream.sessionId stream.streamId])
      obtain ⟨rfl, rfl⟩ := Prod.mk.inj ((Option.some.inj h).symm.trans hsend)
      rw [StreamingState.history_emit, List.append_assoc] at hhistory
      refine .output _ rfl hq hstreams hhistory (by simp) ?_ hle (.inl ?_)
      · rw [List.singleton_append, List.forall_mem_cons]
        exact ⟨⟨rfl, rfl⟩, hevents⟩
      · simp [StreamPoint.unchecked, hanswer]
    · rename_i hanswer
      obtain ⟨rfl, rfl⟩ := Prod.mk.inj (Option.some.inj h)
      exact .quiet rfl rfl (le_refl _) (.inr rfl) (by simp [StreamPoint.unchecked, hanswer])
  | delayed stream session fullResponse i currentText due =>
    simp only [StreamPoint.resume] at h
    split at h
    · obtain ⟨q', s'', events, hsend, hq, hstreams, hhistory, hevents, hle, hactive⟩ :=
        sendChunk_spec stream session fullResponse i currentText s
      obtain ⟨rfl, rfl⟩ := Prod.mk.inj ((Option.some.inj h).symm.trans hsend)
      by_cases hnone : events = []
      · rw [hnone, List.append_nil] at hhistory
        exact .quiet hstreams hhistory hle hq rfl
      · exact .output _ rfl hq hstreams hhistory hnone hevents hle (.inr ⟨rfl, hactive hnone⟩)
    · cases h
  | ended => cases h

end Steps

end Stellara.Voice
