import Stellara.Monitor.Webhooks

/-!
# The delivery record of an event

What a delivery wrote into the record of its event stays there as long as no other one writes back
an older copy. Two deliveries of an event that load the record before one of them saves it lose
the outcome of one of them, and the mark of the event as processed can be taken back.

## Main definitions

* `Recorded`: the outcomes of the finished deliveries are in the records of their events
* `Within`: what one record has of outcomes is in the other
* `UpToDate`: a record is saved with everything that is stored of it

## Main results

* `Grows`: what every step that is up to date keeps of the records
* `recorded_of_upToDate`: the records are complete, and processed events stay processed
-/

namespace Stellara.Monitor

variable {w : Tasks State Point} {now i : ℕ} {input : Input} {s s' : State} {p q : Point}
  {points : List Point} {events events' : EventRepository} {d : Delivery}
  {event event' : StellarEvent}

/-! ## Properties -/

/-- The outcome of the delivery is in the record of the event. -/
structure Told (events : EventRepository) (d : Delivery) : Prop where
  delivered : d.posted = true →
    ∃ event, events.findOne d.event.id = some event ∧ d.consumer.id ∈ event.deliveredTo
  failed : d.exhausted = true →
    ∃ event, events.findOne d.event.id = some event ∧ d.consumer.id ∈ event.failedDeliveries

/-- The outcomes of all finished deliveries are recorded. -/
def Recorded (w : Tasks State Point) : Prop :=
  ∀ d, (.finished (some d) ∈ w.points ∨ ∃ due, .scheduled d due ∈ w.points) → Told w.shared.events d

/-- The step leaves processed events processed. -/
def StaysProcessed (c : Commit (Tasks State Point) (Move Point Input) Unit) : Prop :=
  ∀ eventId event, c.before.shared.events.findOne eventId = some event → event.isProcessed = true →
    ∃ event', c.after.shared.events.findOne eventId = some event' ∧ event'.isProcessed = true

/-- The outcomes in one record are in the other. -/
structure Within (event event' : StellarEvent) : Prop where
  delivered : event.deliveredTo ⊆ event'.deliveredTo
  failed : event.failedDeliveries ⊆ event'.failedDeliveries
  processed : event.isProcessed = true → event'.isProcessed = true

instance : Decidable (Within event event') :=
  decidable_of_iff (event.deliveredTo ⊆ event'.deliveredTo ∧
      event.failedDeliveries ⊆ event'.failedDeliveries ∧
      (event.isProcessed = true → event'.isProcessed = true))
    ⟨fun h => ⟨h.1, h.2.1, h.2.2⟩, fun h => ⟨h.1, h.2, h.3⟩⟩

/-- The record that the step writes back. -/
def Point.saves : Point → Option StellarEvent
  | .saveEvent _ _ event => some event
  | .saveProcessed _ event => some event
  | _ => none

/-- What is stored of a record when it is written back is in what is written. -/
def UpToDate (_ : ℕ) (_ : Input) (_ : ℕ) (p : Point) (w : Tasks State Point) : Prop :=
  ∀ event' ∈ p.saves, ∀ event ∈ w.shared.events.findOne event'.id, Within event event'

instance : Decidable (UpToDate now input i p w) :=
  inferInstanceAs (Decidable (∀ event' ∈ p.saves, ∀ event ∈ w.shared.events.findOne event'.id,
    Within event event'))

/-! ## Records -/

theorem Within.refl (event : StellarEvent) : Within event event :=
  ⟨fun _ h => h, fun _ h => h, fun h => h⟩

/-- The records stay, and lose no outcome. -/
def Grows (events events' : EventRepository) : Prop :=
  ∀ eventId event, events.findOne eventId = some event →
    ∃ event', events'.findOne eventId = some event' ∧ Within event event'

theorem Grows.refl (events : EventRepository) : Grows events events :=
  fun _ event h => ⟨event, h, .refl event⟩

theorem grows_insert (h : ∀ event ∈ events.findOne event'.id, Within event event') :
    Grows events (events.save event') := by
  intro eventId event hread
  rw [EventRepository.findOne_save]
  split
  · rename_i heq
    subst heq
    exact ⟨event', rfl, h event hread⟩
  · exact ⟨event, hread, .refl event⟩

theorem Told.mono (h : Told events d) (hgrows : Grows events events') : Told events' d := by
  constructor
  · intro hposted
    obtain ⟨event, hread, hmem⟩ := h.delivered hposted
    obtain ⟨event', hread', hwithin⟩ := hgrows _ _ hread
    exact ⟨event', hread', hwithin.delivered hmem⟩
  · intro hexhausted
    obtain ⟨event, hread, hmem⟩ := h.failed hexhausted
    obtain ⟨event', hread', hwithin⟩ := hgrows _ _ hread
    exact ⟨event', hread', hwithin.failed hmem⟩

theorem isSome_mono {eventId : String} (h : (events.findOne eventId).isSome)
    (hgrows : Grows events events') : (events'.findOne eventId).isSome := by
  obtain ⟨event, hread⟩ := Option.isSome_iff_exists.mp h
  obtain ⟨event', hread', -⟩ := hgrows _ _ hread
  rw [hread']
  rfl

theorem mem_addConsumer (consumerId : String) (consumers : List String) :
    consumerId ∈ addConsumer consumerId consumers := by
  unfold addConsumer
  split
  · assumption
  · exact List.mem_append_right _ (List.mem_singleton_self _)

theorem updateEventStatus_id {status : DeliveryStatus} {consumerId : String}
    {errorMessage : Option String} :
    (updateEventStatus now status consumerId errorMessage event).id = event.id := by
  cases status <;> rfl

/-! ## Deliveries in progress -/

/-- The outcome that a save is to record, and is not in the record yet. -/
def Delivery.untold (d : Delivery) : DeliveryStatus → Delivery
  | .delivered => { d with posted := false }
  | .failed => { d with exhausted := false }
  | _ => d

/-- The outcome is in the record that is written back. -/
structure Writes (d : Delivery) (status : DeliveryStatus) (event : StellarEvent) : Prop where
  id : event.id = d.event.id
  delivered : status = .delivered → d.consumer.id ∈ event.deliveredTo
  failed : status = .failed → d.consumer.id ∈ event.failedDeliveries

theorem writes_updateEventStatus {status : DeliveryStatus} {errorMessage : Option String}
    (hid : event.id = d.event.id) :
    Writes d status (updateEventStatus now status d.consumer.id errorMessage event) := by
  refine ⟨updateEventStatus_id.trans hid, ?_, ?_⟩
  · rintro rfl
    exact mem_addConsumer _ _
  · rintro rfl
    exact mem_addConsumer _ _

/-- Once the record is written back the outcome is told. -/
theorem Writes.told {status : DeliveryStatus} (h : Writes d status event)
    (htold : Told (events.save event) (d.untold status)) :
    Told (events.save event) d := by
  have hread : (events.save event).findOne d.event.id = some event := by
    rw [EventRepository.findOne_save, if_pos h.id.symm]
  cases status with
  | delivered => exact ⟨fun _ => ⟨event, hread, h.delivered rfl⟩, htold.failed⟩
  | failed => exact ⟨htold.delivered, fun _ => ⟨event, hread, h.failed rfl⟩⟩
  | _ => exact htold

/-- What is recorded of the delivery of a task, whose event is stored. -/
def Backed (events : EventRepository) : Point → Prop
  | .queueEventForDelivery event => (events.findOne event.id).isSome
  | .findEvent d status _ _ =>
    (events.findOne d.event.id).isSome ∧ Told events (d.untold status)
  | .saveEvent d status event =>
    (events.findOne d.event.id).isSome ∧ Told events (d.untold status) ∧ Writes d status event
  | .findProcessed d eventId =>
    (events.findOne eventId).isSome ∧
      ∀ d' ∈ d, (events.findOne d'.event.id).isSome ∧ Told events d'
  | .saveProcessed d _ | .finished d =>
    ∀ d' ∈ d, (events.findOne d'.event.id).isSome ∧ Told events d'
  | .getConsumerById d | .attemptDelivery d | .recordSuccess d | .getActiveConsumers d
  | .recordFailure d _ _ | .scheduled d _ => (events.findOne d.event.id).isSome ∧ Told events d
  | .processQueue => True

theorem Backed.mono (h : Backed events p) (hgrows : Grows events events') : Backed events' p := by
  cases p with
  | queueEventForDelivery event => exact isSome_mono h hgrows
  | processQueue => trivial
  | findEvent d status errorMessage caught => exact ⟨isSome_mono h.1 hgrows, h.2.mono hgrows⟩
  | saveEvent d status event => exact ⟨isSome_mono h.1 hgrows, h.2.1.mono hgrows, h.2.2⟩
  | findProcessed d eventId =>
    exact ⟨isSome_mono h.1 hgrows, fun d' hd' =>
      ⟨isSome_mono (h.2 d' hd').1 hgrows, (h.2 d' hd').2.mono hgrows⟩⟩
  | saveProcessed d event =>
    exact fun d' hd' => ⟨isSome_mono (h d' hd').1 hgrows, (h d' hd').2.mono hgrows⟩
  | finished d =>
    exact fun d' hd' => ⟨isSome_mono (h d' hd').1 hgrows, (h d' hd').2.mono hgrows⟩
  | _ => exact ⟨isSome_mono h.1 hgrows, h.2.mono hgrows⟩

/-- The events of the queue and of the tasks are stored, and the outcomes told as far as the tasks
have come. -/
structure Sound (w : Tasks State Point) : Prop where
  queued : ∀ item ∈ w.shared.deliveryQueue, (w.shared.events.findOne item.1.id).isSome
  backed : ∀ p ∈ w.points, Backed w.shared.events p

theorem Sound.start (h : Sound ⟨s, points⟩) (hp : deliveries.starts s p = true) :
    Sound ⟨s, points ++ [p]⟩ := by
  refine ⟨h.queued, forall_mem_start h.backed ?_⟩
  cases p with
  | queueEventForDelivery event =>
    have hread : s.events.findOne event.id = some event := of_decide_eq_true hp
    show (s.events.findOne event.id).isSome
    rw [hread]
    rfl
  | processQueue => trivial
  | _ => cases hp

/-! ## Steps -/

/-- What a step leaves, with the point that it leads to. -/
structure Leads (s : State) (q : Point) (s' : State) : Prop where
  grows : Grows s.events s'.events
  backed : Backed s'.events q
  queued : ∀ item ∈ s'.deliveryQueue, (s'.events.findOne item.1.id).isSome

theorem Sound.leads (h : Sound ⟨s, points⟩) (hq : Backed s.events q) : Leads s q s :=
  ⟨.refl s.events, hq, h.queued⟩

/-- A save that is up to date. -/
theorem Sound.leads_insert (h : Sound ⟨s, points⟩)
    (hG : ∀ event ∈ s.events.findOne event'.id, Within event event')
    (hq : Backed (s.events.save event') q) :
    Leads s q { s with events := s.events.save event' } := by
  have hgrows := grows_insert hG
  exact ⟨hgrows, hq, fun item hitem => isSome_mono (h.queued item hitem) hgrows⟩

theorem backed_throw {errorMessage : String} {caught : Bool}
    (h : (events.findOne d.event.id).isSome ∧ Told events d) :
    Backed events (d.throw errorMessage caught) := by
  unfold Delivery.throw
  split
  · rintro d' hd'
    obtain rfl := Option.some.inj hd'
    exact h
  · exact h

theorem backed_finished (h : (events.findOne d.event.id).isSome ∧ Told events d) :
    Backed events (.finished (some d)) := by
  rintro d' hd'
  obtain rfl := Option.some.inj hd'
  exact h

theorem backed_finished_none : Backed events (.finished none) := fun _ hd => by cases hd

/-- A delivery that has just been taken from the queue owes nothing. -/
theorem told_new {consumer : WebhookConsumer} : Told events ⟨event, consumer, false, false⟩ :=
  ⟨fun h => (by cases h), fun h => (by cases h)⟩

theorem Sound.step (h : Sound ⟨s, points⟩) (hp : p ∈ points)
    (hG : UpToDate now input i p ⟨s, points⟩) (hq : p.resume now input s = some (q, s')) :
    Leads s q s' := by
  have hback : Backed s.events p := h.backed p hp
  cases p with
  | queueEventForDelivery event =>
    simp only [Point.resume] at hq
    split at hq
    · obtain ⟨rfl, rfl⟩ := Prod.mk.inj (Option.some.inj hq)
      exact h.leads ⟨hback, fun _ hd => by cases hd⟩
    · obtain ⟨rfl, rfl⟩ := Prod.mk.inj (Option.some.inj hq)
      refine ⟨.refl s.events, backed_finished_none, fun item hitem => ?_⟩
      rcases List.mem_append.mp hitem with hold | hnew
      · exact h.queued item hold
      · obtain ⟨consumer, -, rfl⟩ := List.mem_map.mp hnew
        exact hback
  | processQueue =>
    simp only [Point.resume] at hq
    split at hq
    · obtain ⟨rfl, rfl⟩ := Prod.mk.inj (Option.some.inj hq)
      exact h.leads backed_finished_none
    · rename_i event consumer rest hqueue
      obtain ⟨rfl, rfl⟩ := Prod.mk.inj (Option.some.inj hq)
      have hqueued := h.queued
      simp only [hqueue, List.forall_mem_cons] at hqueued
      exact ⟨.refl s.events, ⟨hqueued.1, told_new⟩, hqueued.2⟩
  | getConsumerById d =>
    simp only [Point.resume] at hq
    split at hq <;> obtain ⟨rfl, rfl⟩ := Prod.mk.inj (Option.some.inj hq)
    · exact h.leads (backed_throw hback)
    · exact h.leads (backed_finished hback)
    · exact h.leads hback
  | attemptDelivery d =>
    simp only [Point.resume] at hq
    split at hq <;> obtain ⟨rfl, rfl⟩ := Prod.mk.inj (Option.some.inj hq)
    · -- from the post on the delivery owes its outcome, which is told by the save
      exact h.leads ⟨hback.1, fun hposted => (by cases hposted), hback.2.failed⟩
    · exact h.leads hback
  | findEvent d status errorMessage caught =>
    -- records are never deleted, so the one of a queued event is found
    obtain ⟨hstored, htold⟩ := hback
    obtain ⟨event, hread⟩ := Option.isSome_iff_exists.mp hstored
    simp only [Point.resume, hread] at hq
    obtain ⟨rfl, rfl⟩ := Prod.mk.inj (Option.some.inj hq)
    exact h.leads ⟨hstored, htold, writes_updateEventStatus (s.events.keyed _ event hread)⟩
  | saveEvent d status event' =>
    -- the only kind of step that could take outcomes back, but for the condition
    obtain ⟨hstored, htold, hwrites⟩ := hback
    have hup : ∀ event ∈ s.events.findOne event'.id, Within event event' := hG event' rfl
    have htold' := hwrites.told (htold.mono (grows_insert hup))
    have hstored' := isSome_mono hstored (grows_insert hup)
    simp only [Point.resume] at hq
    split at hq <;> obtain ⟨rfl, rfl⟩ := Prod.mk.inj (Option.some.inj hq)
    · exact h.leads_insert hup ⟨hstored', htold'⟩
    · exact h.leads_insert hup (backed_finished ⟨hstored', htold'⟩)
  | recordSuccess d =>
    simp only [Point.resume] at hq
    split at hq <;> obtain ⟨rfl, rfl⟩ := Prod.mk.inj (Option.some.inj hq)
    · exact h.leads (backed_throw hback)
    · exact h.leads hback
  | getActiveConsumers d =>
    simp only [Point.resume] at hq
    split at hq <;> obtain ⟨rfl, rfl⟩ := Prod.mk.inj (Option.some.inj hq)
    · refine h.leads ⟨hback.1, fun d' hd' => ?_⟩
      obtain rfl := Option.some.inj hd'
      exact hback
    · exact h.leads (backed_finished hback)
  | recordFailure d errorMessage caught =>
    simp only [Point.resume] at hq
    split at hq
    · obtain ⟨rfl, rfl⟩ := Prod.mk.inj (Option.some.inj hq)
      exact h.leads (backed_throw hback)
    · split at hq <;> obtain ⟨rfl, rfl⟩ := Prod.mk.inj (Option.some.inj hq)
      · exact h.leads ⟨hback.1, hback.2.delivered, fun hexhausted => (by cases hexhausted)⟩
      · exact h.leads hback
  | findProcessed d eventId =>
    obtain ⟨hstored, htold⟩ := hback
    obtain ⟨event, hread⟩ := Option.isSome_iff_exists.mp hstored
    simp only [Point.resume, hread] at hq
    obtain ⟨rfl, rfl⟩ := Prod.mk.inj (Option.some.inj hq)
    exact h.leads htold
  | saveProcessed d event' =>
    have hup : ∀ event ∈ s.events.findOne event'.id, Within event event' := hG event' rfl
    obtain ⟨rfl, rfl⟩ := Prod.mk.inj (Option.some.inj hq)
    exact h.leads_insert hup (Backed.mono (p := .finished d) hback (grows_insert hup))
  | scheduled d due =>
    simp only [Point.resume] at hq
    split at hq
    · obtain ⟨rfl, rfl⟩ := Prod.mk.inj (Option.some.inj hq)
      refine ⟨.refl s.events, backed_finished hback, fun item hitem => ?_⟩
      rcases List.mem_append.mp hitem with hold | hnew
      · exact h.queued item hold
      · rw [List.mem_singleton.mp hnew]
        exact hback.1
    · cases hq
  | finished d => cases hq

theorem Leads.sound (hstep : Leads s q s') (h : Sound ⟨s, points⟩) :
    Sound ⟨s', points.set i q⟩ :=
  ⟨hstep.queued, forall_mem_step (fun r hr => (h.backed r hr).mono hstep.grows) hstep.backed⟩

/-! ## Runs -/

theorem Sound.recorded {w : Tasks State Point} (h : Sound w) : Recorded w := by
  rintro d (hfinished | ⟨due, hscheduled⟩)
  · exact (h.backed _ hfinished d rfl).2
  · exact (h.backed _ hscheduled).2

/-- **Delivery records.** In a run in which every record is written back with all that is stored
of it, at any time every consumer that a finished delivery reached is in the record of the event,
and so is every one whose retries were exhausted; and a processed event stays processed. -/
theorem recorded_of_upToDate {t₀ : ℕ} {events : EventRepository} {w : World (Tasks State Point)}
    {log : Async.Log State Point Input}
    (h : deliveries.contract.Run ⟨t₀, ⟨⟨events, []⟩, []⟩⟩ w log)
    (hG : ∀ c ∈ log, Async.OnStep UpToDate c) :
    Recorded w.store ∧ ∀ c ∈ log, StaysProcessed c := by
  have h₀ : Sound ⟨⟨events, []⟩, []⟩ :=
    ⟨fun _ hitem => absurd hitem List.not_mem_nil, fun _ hp => absurd hp List.not_mem_nil⟩
  obtain ⟨hend, hlog⟩ := Async.invariant (I := Sound) (fun _ _ _ hs hp => hs.start hp)
    (fun _ _ _ _ _ _ _ _ hs hp hg hq => (hs.step (List.mem_of_getElem? hp) hg hq).sound hs)
    h h₀ hG
  refine ⟨hend.recorded, fun c hc eventId event hread hprocessed => ?_⟩
  have hbefore := (hlog c hc).1
  have hcommit := hG c hc
  have he := h.exec_of_mem c hc
  obtain ⟨t, call, r, before, after⟩ := c
  have hmove : deliveries.Step t before call after := Async.step_of_exec he
  cases hmove with
  | start _ => exact ⟨event, hread, hprocessed⟩
  | resume hp hq =>
    have hstep := hbefore.step (List.mem_of_getElem? hp) (hcommit _ hp) hq
    obtain ⟨event', hread', hwithin⟩ := hstep.grows eventId event hread
    exact ⟨event', hread', hwithin.processed hprocessed⟩

def sampleConsumers : List WebhookConsumer := [⟨"c1", 5⟩, ⟨"c2", 1⟩]

/-- An event that was just stored. -/
def sampleEvent : StellarEvent := ⟨"e", .pending, 0, none, none, [], [], none, false⟩

def sampleEvents : EventRepository :=
  EventRepository.save ⟨∅, fun _ _ h => by simp at h⟩ sampleEvent

def sampleInput : Input := ⟨some true, .ok (), sampleConsumers⟩

def failedInput : Input := ⟨some true, .error "timeout", sampleConsumers⟩

/-- The event is delivered to the one consumer, and then fails for the other one. -/
def oneByOne : List (ℕ × Move Point Input) :=
  [(0, .start (.queueEventForDelivery sampleEvent)), (0, .resume 0 sampleInput),
    (1, .start .processQueue), (1, .start .processQueue)] ++
  List.replicate 7 (2, .resume 1 sampleInput) ++ List.replicate 6 (3, .resume 2 failedInput)

theorem recorded_of_upToDate_sample :
    let run := deliveries.contract.play ⟨0, ⟨⟨sampleEvents, []⟩, []⟩⟩ oneByOne
    Recorded run.1.store ∧ ∀ c ∈ run.2, StaysProcessed c :=
  recorded_of_upToDate (Contract.run_play _ _ oneByOne (by decide)) (by decide)

/-- The event is delivered to both consumers at once. -/
def atOnce : List (ℕ × Move Point Input) :=
  [(0, .start (.queueEventForDelivery sampleEvent)), (0, .resume 0 sampleInput),
    (1, .start .processQueue), (1, .start .processQueue)] ++
  (List.replicate 7 [(2, .resume 1 sampleInput), (2, .resume 2 sampleInput)]).flatten

/-- The event was delivered to both consumers, and its record says so of one. -/
theorem lost_delivery :
    ¬ ∀ events w log, deliveries.contract.Run ⟨0, ⟨⟨events, []⟩, []⟩⟩ w log →
      deliveries.Idle w.store → Recorded w.store := by
  intro hall
  have hpoints : (deliveries.contract.play ⟨0, ⟨⟨sampleEvents, []⟩, []⟩⟩ atOnce).1.store.points =
      [.finished none, .finished (some ⟨sampleEvent, ⟨"c1", 5⟩, true, false⟩),
        .finished (some ⟨sampleEvent, ⟨"c2", 1⟩, true, false⟩)] := by decide
  have hidle : deliveries.Idle
      (deliveries.contract.play ⟨0, ⟨⟨sampleEvents, []⟩, []⟩⟩ atOnce).1.store := by
    intro p hp now input s
    rw [hpoints] at hp
    simp only [List.mem_cons, List.not_mem_nil, or_false] at hp
    rcases hp with rfl | rfl | rfl <;> rfl
  have hrecorded := hall _ _ _ (Contract.run_play deliveries.contract
    ⟨0, ⟨⟨sampleEvents, []⟩, []⟩⟩ atOnce (by decide)) hidle
  obtain ⟨event, hread, hmem⟩ := (hrecorded ⟨sampleEvent, ⟨"c1", 5⟩, true, false⟩
    (.inl (by rw [hpoints]; simp))).delivered rfl
  have hlast : (deliveries.contract.play ⟨0, ⟨⟨sampleEvents, []⟩, []⟩⟩
      atOnce).1.store.shared.events.findOne "e" =
        some ⟨"e", .delivered, 1, some 2, some 2, ["c2"], [], none, false⟩ := by decide
  obtain rfl := Option.some.inj (hlast.symm.trans hread)
  simp at hmem

end Stellara.Monitor
