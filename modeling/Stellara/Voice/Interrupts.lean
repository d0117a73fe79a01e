import Stellara.Voice.Streaming

/-!
# Interrupted streams

An interrupt takes its streams out of the map of active streams. A chunk is sent after a look at the
map, so that an interrupted stream has none, but three things are done without one: the event that
the answer begins, the save of the answer with its session, and the event that it is complete. Where
an interrupt comes before one of them, it is done all the same.

## Main definitions

* `InterruptFinal`: nothing of a stream follows its interrupt
* `StillActive`: what is done without a look at the map is done for an active stream
* `Tracks`, `Followed`: what is known of the streams of tasks, of the map and of the record

## Main results

* `Followed.step`: what a step keeps of that
* `interruptFinal_iff`: interrupts are final exactly when nothing is done for inactive streams
-/

namespace Stellara.Voice

/-! ## Properties -/

/-- The streams that were interrupted. -/
def interruptedIds (history : List VoiceEvent) : List ℕ := history.filterMap VoiceEvent.interrupts

/-- Nothing of a stream follows its interrupt. -/
def InterruptFinal (history : List VoiceEvent) : Prop :=
  history.Pairwise fun event later => ∀ id ∈ event.interrupts, id ∉ later.output

/-- The stream is in the map, and not marked as interrupted. -/
def StreamingState.isActive (streamId : ℕ) (s : StreamingState) : Bool :=
  (s.getStream streamId).any fun r => !r.isInterrupted

/-- The stream for which something is done without a look at the map is active. -/
def StillActive (now : ℕ) (input : StreamInput) (_ : ℕ) (p : StreamPoint)
    (w : Tasks StreamingState StreamPoint) : Prop :=
  ∀ id ∈ p.unchecked now input w.shared, w.shared.isActive id = true

instance {now : ℕ} {input : StreamInput} {i : ℕ} {p : StreamPoint}
    {w : Tasks StreamingState StreamPoint} : Decidable (StillActive now input i p w) :=
  inferInstanceAs (Decidable (∀ id ∈ p.unchecked now input w.shared, w.shared.isActive id = true))

/-- What is known of the stream of a task: before it is put into the map it was not interrupted, and
from then on it is in the map unless it was. -/
structure Tracks (s : StreamingState) (stream : ℕ × Bool) : Prop where
  lt : stream.1 < s.redis.nextId
  before : stream.2 = false →
    stream.1 ∉ interruptedIds s.history ∧ ∀ active ∈ s.streams, active.1 ≠ stream.1
  after : stream.2 = true →
    (stream.1, false) ∈ s.streams ∨ stream.1 ∈ interruptedIds s.history

/-- The tasks have streams of their own. -/
def OwnStreams (p q : StreamPoint) : Prop := ∀ a ∈ p.stream, ∀ b ∈ q.stream, a.1 ≠ b.1

/-- The streams in the map are not marked, and none of them was interrupted. -/
structure Followed (w : Tasks StreamingState StreamPoint) : Prop where
  tracks : ∀ p ∈ w.points, ∀ stream ∈ p.stream, Tracks w.shared stream
  apart : Apart OwnStreams w.points
  active : ∀ stream ∈ w.shared.streams, stream.2 = false ∧
    stream.1 ∉ interruptedIds w.shared.history ∧ stream.1 < w.shared.redis.nextId
  interrupted_lt : ∀ id ∈ interruptedIds w.shared.history, id < w.shared.redis.nextId

section Steps

variable {now i id : ℕ} {input : StreamInput} {s s' : StreamingState} {p q : StreamPoint}
  {points : List StreamPoint} {history events : List VoiceEvent} {stream : ℕ × Bool}

/-! ## The record -/

theorem interruptedIds_append :
    interruptedIds (history ++ events) = interruptedIds history ++ interruptedIds events :=
  List.filterMap_append

theorem interruptedIds_eq_nil (h : ∀ event ∈ events, event.interrupts = none) :
    interruptedIds events = [] :=
  List.filterMap_eq_nil_iff.mpr h

/-- What tells of no answer can come at any time. -/
theorem interruptFinal_append_others (h : ∀ event ∈ events, event.output = none) :
    InterruptFinal (history ++ events) ↔ InterruptFinal history := by
  unfold InterruptFinal
  rw [List.pairwise_append]
  constructor
  · exact fun hall => hall.1
  · intro hhistory
    refine ⟨hhistory, ?_, ?_⟩
    · refine List.pairwise_of_forall_mem_list fun event _ later hlater id _ => ?_
      rw [h later hlater]
      exact Option.not_mem_none id
    · intro event _ later hlater id _
      rw [h later hlater]
      exact Option.not_mem_none id

/-- What tells of the answer of a stream can come until it is interrupted. -/
theorem interruptFinal_append_outputs (hne : events ≠ [])
    (h : ∀ event ∈ events, event.interrupts = none ∧ event.output = some id) :
    InterruptFinal (history ++ events) ↔ InterruptFinal history ∧ id ∉ interruptedIds history := by
  unfold InterruptFinal
  rw [List.pairwise_append]
  constructor
  · rintro ⟨hhistory, -, hall⟩
    refine ⟨hhistory, fun hid => ?_⟩
    obtain ⟨event, hevent, hinterrupts⟩ := List.mem_filterMap.mp hid
    obtain ⟨later, hlater⟩ := List.exists_mem_of_ne_nil events hne
    exact hall event hevent later hlater id hinterrupts (h later hlater).2
  · rintro ⟨hhistory, hid⟩
    refine ⟨hhistory, ?_, ?_⟩
    · refine List.pairwise_of_forall_mem_list fun event hevent later _ id hinterrupts => ?_
      rw [(h event hevent).1] at hinterrupts
      exact absurd hinterrupts (Option.not_mem_none id)
    · intro event hevent later hlater id' hinterrupts houtput
      rw [(h later hlater).2] at houtput
      obtain rfl := Option.some.inj houtput
      exact hid (List.mem_filterMap.mpr ⟨event, hevent, hinterrupts⟩)

/-! ## Streams -/

theorem Followed.isActive_iff (h : Followed ⟨s, points⟩) :
    s.isActive id = true ↔ (id, false) ∈ s.streams := by
  unfold StreamingState.isActive
  constructor
  · intro hactive
    cases hget : s.getStream id with
    | none =>
      rw [hget] at hactive
      cases hactive
    | some r =>
      rw [hget, Option.any_some] at hactive
      exact StreamingState.mem_streams hget (by simpa using hactive)
  · intro hmem
    obtain ⟨r, hr, hid⟩ := List.mem_map.mp hmem
    obtain ⟨hrid, -⟩ := Prod.mk.inj hid
    have hfound : (s.getStream id).isSome :=
      List.find?_isSome.mpr ⟨r, hr, by simpa using hrid⟩
    obtain ⟨found, hget⟩ := Option.isSome_iff_exists.mp hfound
    have hmark : found.isInterrupted = false :=
      (h.active _ (List.mem_map_of_mem (StreamingState.getStream_eq_some hget).1)).1
    rw [hget, Option.any_some, hmark]
    rfl

/-- A stream that was put into the map is active until it is interrupted. -/
theorem Followed.notMem_interrupted_iff (h : Followed ⟨s, points⟩) (hp : points[i]? = some p)
    (hstream : p.stream = some (id, true)) :
    id ∉ interruptedIds s.history ↔ (id, false) ∈ s.streams := by
  constructor
  · intro hnot
    exact ((h.tracks p (List.mem_of_getElem? hp) _ hstream).after rfl).resolve_right hnot
  · intro hmem
    exact (h.active _ hmem).2.1

/-- A step of a task that keeps its stream, or gets a new one, and leaves those of the others. -/
theorem Followed.of_step (h : Followed ⟨s, points⟩) (hp : points[i]? = some p)
    (hothers : ∀ stream, (∀ own ∈ p.stream, own.1 ≠ stream.1) → Tracks s stream → Tracks s' stream)
    (hown : ∀ stream ∈ q.stream, Tracks s' stream ∧
      ((∃ own ∈ p.stream, own.1 = stream.1) ∨ stream.1 = s.redis.nextId))
    (hactive : ∀ stream ∈ s'.streams, stream.2 = false ∧
      stream.1 ∉ interruptedIds s'.history ∧ stream.1 < s'.redis.nextId)
    (hlt : ∀ id ∈ interruptedIds s'.history, id < s'.redis.nextId) :
    Followed ⟨s', points.set i q⟩ := by
  refine ⟨fun r hr stream hstream => ?_,
    Apart.set_of_keys (f := StreamPoint.stream) (S := fun a b => a.1 ≠ b.1) h.apart hp
      (fun _ _ => Ne.symm) fun stream hstream => ?_, hactive, hlt⟩
  · obtain ⟨j, hj⟩ := List.mem_iff_getElem?.mp hr
    rcases getElem?_step hj with ⟨hne, hold⟩ | ⟨-, rfl⟩
    · refine hothers stream (fun own hmem => ?_) (h.tracks r (List.mem_of_getElem? hold) _ hstream)
      exact h.apart i j p r (Ne.symm hne) hp hold own hmem stream hstream
    · exact (hown stream hstream).1
  · rcases (hown stream hstream).2 with ⟨own, hmem, heq⟩ | heq
    · refine .inl ⟨own, hmem, fun other hne => ?_⟩
      rwa [← heq]
    · -- an id that is drawn is new
      refine .inr fun r hr other hother => ?_
      rw [heq]
      exact (h.tracks r hr other hother).lt.ne'

theorem Tracks.congr (h : Tracks s stream) (hstreams : s'.streams = s.streams)
    (hids : interruptedIds s'.history = interruptedIds s.history)
    (hle : s.redis.nextId ≤ s'.redis.nextId) : Tracks s' stream := by
  refine ⟨h.lt.trans_le hle, ?_, ?_⟩
  · rw [hstreams, hids]
    exact h.before
  · rw [hstreams, hids]
    exact h.after

/-- A step that neither changes the map nor interrupts anything. -/
theorem Followed.quiet (h : Followed ⟨s, points⟩) (hp : points[i]? = some p)
    (hstreams : s'.streams = s.streams)
    (hids : interruptedIds s'.history = interruptedIds s.history)
    (hle : s.redis.nextId ≤ s'.redis.nextId)
    (hown : ∀ stream ∈ q.stream, Tracks s' stream ∧
      ((∃ own ∈ p.stream, own.1 = stream.1) ∨ stream.1 = s.redis.nextId)) :
    Followed ⟨s', points.set i q⟩ := by
  refine h.of_step hp (fun stream _ htracks => htracks.congr hstreams hids hle) hown ?_ ?_
  · rw [hstreams, hids]
    intro stream hmem
    obtain ⟨hmark, hnot, hlt⟩ := h.active stream hmem
    exact ⟨hmark, hnot, hlt.trans_le hle⟩
  · rw [hids]
    exact fun id hid => (h.interrupted_lt id hid).trans_le hle

/-- The stream of the task is still the same, if it has one. -/
theorem Followed.own (h : Followed ⟨s, points⟩) (hp : points[i]? = some p)
    (hq : q.stream = p.stream ∨ q.stream = none) (hmem : stream ∈ q.stream) :
    Tracks s stream ∧ ∃ own ∈ p.stream, own.1 = stream.1 := by
  rcases hq with hsame | hnone
  · rw [hsame] at hmem
    exact ⟨h.tracks p (List.mem_of_getElem? hp) stream hmem, stream, hmem, rfl⟩
  · rw [hnone] at hmem
    exact absurd hmem (Option.not_mem_none stream)

/-! ## Steps -/

/-- What a step keeps of the streams. -/
theorem Followed.step (h : Followed ⟨s, points⟩) (hp : points[i]? = some p)
    (hstep : StreamAdvance now input s p q s') : Followed ⟨s', points.set i q⟩ := by
  cases hstep with
  | quiet hstreams hhistory hle hq _ =>
    have hids : interruptedIds s'.history = interruptedIds s.history := by rw [hhistory]
    refine h.quiet hp hstreams hids hle fun stream hmem => ?_
    obtain ⟨htracks, hown⟩ := h.own hp hq hmem
    exact ⟨htracks.congr hstreams hids hle, .inl hown⟩
  | output id _ hq hstreams hhistory _ hevents hle _ =>
    have hids : interruptedIds s'.history = interruptedIds s.history := by
      rw [hhistory, interruptedIds_append, interruptedIds_eq_nil fun event hevent =>
        (hevents event hevent).1, List.append_nil]
    refine h.quiet hp hstreams hids hle fun stream hmem => ?_
    obtain ⟨htracks, hown⟩ := h.own hp hq hmem
    exact ⟨htracks.congr hstreams hids hle, .inl hown⟩
  | draw hq _ =>
    refine h.quiet hp rfl rfl (Nat.le_succ _) fun stream hmem => ?_
    obtain rfl := Option.some.inj (hq.symm.trans hmem)
    -- nothing that is known has the new id
    refine ⟨⟨Nat.lt_succ_self _, fun _ => ⟨fun hid => ?_, fun active hactive => ?_⟩,
      fun hset => ?_⟩, .inr rfl⟩
    · exact lt_irrefl _ (h.interrupted_lt _ hid)
    · exact (h.active active hactive).2.2.ne
    · cases hset
  | set id event hpstream hq hstreams hhistory hinterrupts _ hle _ =>
    have hnone : interruptedIds [event] = [] := interruptedIds_eq_nil (by simp [hinterrupts])
    have hids : interruptedIds s'.history = interruptedIds s.history := by
      rw [hhistory, interruptedIds_append, hnone, List.append_nil]
    have htracks := h.tracks p (List.mem_of_getElem? hp) _ hpstream
    have hlt : id < s'.redis.nextId := htracks.lt.trans_le hle
    refine h.of_step hp (fun stream hne hother => ⟨hother.lt.trans_le hle, fun hbefore => ?_,
      fun hafter => ?_⟩) (fun stream hmem => ?_) ?_ ?_
    · rw [hids, hstreams, List.forall_mem_append, List.forall_mem_singleton]
      exact ⟨(hother.before hbefore).1, (hother.before hbefore).2, hne _ hpstream⟩
    · rw [hids, hstreams]
      exact (hother.after hafter).imp_left (List.mem_append_left _)
    · obtain rfl := Option.some.inj (hq.symm.trans hmem)
      refine ⟨⟨hlt, fun hbefore => (by cases hbefore), fun _ => .inl ?_⟩, .inl ⟨_, hpstream, rfl⟩⟩
      rw [hstreams]
      exact List.mem_append_right _ (List.mem_singleton_self _)
    · rw [hstreams, hids, List.forall_mem_append, List.forall_mem_singleton]
      refine ⟨fun stream hmem => ?_, rfl, (htracks.before rfl).1, hlt⟩
      obtain ⟨hmark, hnot, hactive⟩ := h.active stream hmem
      exact ⟨hmark, hnot, hactive.trans_le hle⟩
    · rw [hids]
      exact fun id hid => (h.interrupted_lt id hid).trans_le hle
  | interrupt streamIds hq hstreams hhistory hevents _ hfound hle _ =>
    have hids : interruptedIds s'.history = interruptedIds s.history ++ streamIds := by
      rw [hhistory, interruptedIds_append]
      exact congrArg _ hevents
    have hmem : ∀ stream, stream ∈ s'.streams ↔ stream ∈ s.streams ∧ stream.1 ∉ streamIds := by
      intro stream
      rw [hstreams, List.mem_filter, decide_eq_true_eq]
    refine h.of_step hp (fun stream _ hother => ⟨hother.lt.trans_le hle, fun hbefore => ?_,
      fun hafter => ?_⟩) (fun stream hmem => ?_) (fun stream hactive => ?_) (fun id hid => ?_)
    · obtain ⟨hnot, hnone⟩ := hother.before hbefore
      refine ⟨fun hid => ?_, fun active hactive => hnone active ((hmem active).mp hactive).1⟩
      rw [hids, List.mem_append] at hid
      rcases hid with hold | hnew
      · exact hnot hold
      · obtain ⟨active, hactive, heq⟩ := hfound _ hnew
        exact hnone active hactive heq
    · -- a stream leaves the map only when its interrupt is recorded
      rw [hids, List.mem_append, hmem]
      by_cases hnew : stream.1 ∈ streamIds
      · exact .inr (.inr hnew)
      · exact (hother.after hafter).imp (fun hactive => ⟨hactive, hnew⟩) .inl
    · rw [hq] at hmem
      exact absurd hmem (Option.not_mem_none stream)
    · obtain ⟨hold, hnew⟩ := (hmem stream).mp hactive
      obtain ⟨hmark, hnot, hlt⟩ := h.active stream hold
      rw [hids, List.mem_append]
      exact ⟨hmark, not_or.mpr ⟨hnot, hnew⟩, hlt.trans_le hle⟩
    · rw [hids, List.mem_append] at hid
      rcases hid with hold | hnew
      · exact (h.interrupted_lt id hold).trans_le hle
      · obtain ⟨active, hactive, rfl⟩ := hfound id hnew
        exact (h.active active hactive).2.2.trans_le hle
  | delete id hpstream hq hstreams hhistory hle _ =>
    have hmem : ∀ stream, stream ∈ s'.streams ↔ stream ∈ s.streams ∧ stream.1 ≠ id := by
      intro stream
      rw [hstreams, List.mem_filter, decide_eq_true_eq, List.mem_singleton]
    refine h.of_step hp (fun stream hne hother => ⟨hother.lt.trans_le hle, fun hbefore => ?_,
      fun hafter => ?_⟩) (fun stream hmem => ?_) (fun stream hactive => ?_) (fun id hid => ?_)
    · rw [hhistory]
      obtain ⟨hnot, hnone⟩ := hother.before hbefore
      exact ⟨hnot, fun active hactive => hnone active ((hmem active).mp hactive).1⟩
    · -- only the task of a stream deletes it
      rw [hhistory, hmem]
      exact (hother.after hafter).imp_left fun hactive => ⟨hactive, (hne _ hpstream).symm⟩
    · rw [hq] at hmem
      exact absurd hmem (Option.not_mem_none stream)
    · obtain ⟨hmark, hnot, hlt⟩ := h.active stream ((hmem stream).mp hactive).1
      rw [hhistory]
      exact ⟨hmark, hnot, hlt.trans_le hle⟩
    · rw [hhistory] at hid
      exact (h.interrupted_lt id hid).trans_le hle

/-- Interrupts are still final after a step exactly when it does nothing for an inactive stream. -/
theorem Followed.final_step_iff (h : Followed ⟨s, points⟩) (hp : points[i]? = some p)
    (hstep : StreamAdvance now input s p q s') (hfinal : InterruptFinal s.history) :
    InterruptFinal s'.history ↔ StillActive now input i p ⟨s, points⟩ := by
  have hnothing : p.unchecked now input s = none → StillActive now input i p ⟨s, points⟩ := by
    intro hnone id hid
    rw [hnone] at hid
    exact absurd hid (Option.not_mem_none id)
  cases hstep with
  | quiet _ hhistory _ _ hnone =>
    rw [hhistory]
    exact iff_of_true hfinal (hnothing hnone)
  | draw _ hnone => exact iff_of_true hfinal (hnothing hnone)
  | set _ _ _ _ _ hhistory _ houtput _ hnone =>
    rw [hhistory, interruptFinal_append_others (by simp [houtput])]
    exact iff_of_true hfinal (hnothing hnone)
  | interrupt _ _ _ hhistory _ houtput _ _ hnone =>
    rw [hhistory, interruptFinal_append_others houtput]
    exact iff_of_true hfinal (hnothing hnone)
  | delete _ _ _ _ hhistory _ hnone =>
    rw [hhistory]
    exact iff_of_true hfinal (hnothing hnone)
  | output id hpstream _ _ hhistory hne hevents _ hchecked =>
    rw [hhistory, interruptFinal_append_outputs hne hevents, and_iff_right hfinal,
      h.notMem_interrupted_iff hp hpstream]
    -- a chunk has looked at the map, and everything else is what the condition is about
    rcases hchecked with hunchecked | ⟨hnone, hactive⟩
    · rw [StillActive, hunchecked]
      simp only [Option.mem_def, Option.some.injEq, forall_eq']
      exact h.isActive_iff.symm
    · exact iff_of_true hactive (hnothing hnone)

theorem stream_of_starts (hp : streamingTasks.starts s p = true) : p.stream = none := by
  cases p <;> first | rfl | cases hp

theorem Followed.start (h : Followed ⟨s, points⟩) (hp : streamingTasks.starts s p = true) :
    Followed ⟨s, points ++ [p]⟩ := by
  have hnone := stream_of_starts hp
  refine ⟨forall_mem_start h.tracks ?_,
    Apart.start_of_none (f := StreamPoint.stream) (S := fun a b => a.1 ≠ b.1) h.apart hnone,
    h.active, h.interrupted_lt⟩
  rw [hnone]
  exact fun stream hmem => absurd hmem (Option.not_mem_none stream)

end Steps

/-! ## Runs -/

/-- **Stream interruption.** In every run, nothing of a stream follows its interrupt exactly when
the answers begin, are added and are completed while their streams are active. -/
theorem interruptFinal_iff {t₀ : ℕ} {redis : Redis}
    {w : World (Tasks StreamingState StreamPoint)}
    {log : Async.Log StreamingState StreamPoint StreamInput}
    (h : streamingTasks.contract.Run ⟨t₀, ⟨⟨redis, [], []⟩, []⟩⟩ w log) :
    (InterruptFinal w.store.shared.history ∧ ∀ c ∈ log, InterruptFinal c.before.shared.history ∧
      InterruptFinal c.after.shared.history) ↔ ∀ c ∈ log, Async.OnStep StillActive c := by
  have hempty : Followed ⟨⟨redis, [], []⟩, []⟩ :=
    ⟨fun _ hp => absurd hp List.not_mem_nil, apart_nil, fun _ hs => absurd hs List.not_mem_nil,
      fun _ hid => absurd hid List.not_mem_nil⟩
  exact Async.invariant_iff (S := Followed) (I := fun w => InterruptFinal w.shared.history)
    (fun s points p hs hp => ⟨hs.start hp, fun hI => hI⟩)
    (fun t input i p q s s' points hs hp hq => by
      have hstep := streamAdvance_of_resume hq
      exact ⟨hs.step hp hstep, hs.final_step_iff hp hstep⟩)
    h hempty List.Pairwise.nil

/-- A session that listens. -/
def listeningSession : Redis :=
  saveSession 0 { VoiceSession.create 0 0 "alice" with state := .listening }
    { Redis.empty with nextId := 1 }

/-- A stream is started, and generates its answer. -/
def startStream : List (ℕ × Move StreamPoint StreamInput) :=
  (0, .start (.startStreamingResponse 0 "hello")) ::
    (List.replicate 11 (0, .resume 0 ⟨0, none⟩) ++ List.replicate 7 (1000, .resume 0 ⟨0, none⟩))

/-- The stream is interrupted. -/
def interruptStream (t task : ℕ) : List (ℕ × Move StreamPoint StreamInput) :=
  (t, .start (.interruptStream 0 (some 1))) :: List.replicate 3 (t, .resume task ⟨0, none⟩)

/-- The interrupt comes between the first and the second chunk. -/
def interruptedChunks : List (ℕ × Move StreamPoint StreamInput) :=
  startStream ++ [(1500, .resume 0 ⟨0, some "good morning"⟩)] ++ interruptStream 1550 1 ++
    [(1600, .resume 0 ⟨0, none⟩)]

theorem interruptFinal_iff_chunks :
    let run := streamingTasks.contract.play ⟨0, ⟨⟨listeningSession, [], []⟩, []⟩⟩ interruptedChunks
    run.1.store.shared.history.length = 4 ∧ InterruptFinal run.1.store.shared.history ∧
      ∀ c ∈ run.2, InterruptFinal c.before.shared.history ∧ InterruptFinal c.after.shared.history :=
  ⟨by decide, (interruptFinal_iff (Contract.run_play _ _ interruptedChunks (by decide))).mpr
    (by decide)⟩

/-- The answer of a stream that was interrupted before begins, all the same. -/
theorem responding_after_interrupt :
    ¬ ∀ redis w log, streamingTasks.contract.Run ⟨0, ⟨⟨redis, [], []⟩, []⟩⟩ w log →
      InterruptFinal w.store.shared.history := by
  intro hall
  have hfinal := hall listeningSession _ _ (Contract.run_play streamingTasks.contract
    ⟨0, ⟨⟨listeningSession, [], []⟩, []⟩⟩
    (startStream ++ interruptStream 1200 1 ++ [(1500, .resume 0 ⟨0, some "good morning"⟩)])
    (by decide))
  exact absurd hfinal (by unfold InterruptFinal; decide)

end Stellara.Voice
