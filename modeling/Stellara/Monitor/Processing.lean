import Mathlib.Data.List.Induction
import Stellara.Monitor.Retries

/-!
# Processed events

An event counts as processed when it was delivered to as many consumers as are active. What is
counted is the list of the event that was queued, which has no consumers yet, with one more for the
delivery that has just succeeded. So the first delivery marks the event where there is one consumer
only, and where there are more none marks it, or the first one does too early.

The deliveries of the event are executed one after the other, in any order, and those that failed
again and again. What the monitor does with other events goes on all the time.

## Main definitions

* `Alone`: what a task does while only other events change
* `Serial`: the deliveries of an event that was queued, one after the other
* `ProcessedExactly`: the event is marked as processed exactly when all consumers have it
* `Marks`: when it is marked

## Main results

* `Queueing.step`, `Processing.step`: what the steps of a task do to the mark
* `Serial.marked`: when the event is marked, after any serial execution
* `exists_serial`: the consumers have the event in the order of the queue
* `processedExactly_iff`: the mark is right only for one consumer, or for none
-/

namespace Stellara.Monitor

variable {event row : StellarEvent} {consumers succeeded : List WebhookConsumer}
  {events : EventRepository} {now : ℕ} {input : Input} {s s' : State} {p q : Point} {P : Prop}
  {waiting : List Point}

/-! ## Properties -/

/-- The consumers are stored and active, and no others are. -/
def Active (consumers : List WebhookConsumer) (_ : ℕ) (input : Input) : Prop :=
  input.consumer = some true ∧ input.activeConsumers = consumers

/-- The record of the event and its items of the queue stay as they are. -/
structure Elsewhere (event : StellarEvent) (s s' : State) : Prop where
  record : s'.events.findOne event.id = s.events.findOne event.id
  queue : s'.deliveryQueue.filter (fun item => item.1.id = event.id) =
    s.deliveryQueue.filter fun item => item.1.id = event.id

/-- What a task does while the consumers stay and only other events change. -/
abbrev Alone (event : StellarEvent) (consumers : List WebhookConsumer) :
    State → Point → State → Point → Prop :=
  deliveries.Path (Elsewhere event) (Active consumers)

/-- The delivery that waits to be queued again, if the task ended so. -/
def Point.waits : Point → List Point
  | .scheduled d due => [.scheduled d due]
  | _ => []

/-- The consumer that the task delivered to, if it did. -/
def Point.succeeds : Point → List WebhookConsumer
  | .finished (some d) => if d.posted then [d.consumer] else []
  | _ => []

/-- An event is queued, and its deliveries are executed one after the other: the state, the
deliveries that wait to be queued again, and the consumers that have the event. -/
inductive Serial (event : StellarEvent) (consumers : List WebhookConsumer) :
    State → List Point → List WebhookConsumer → Prop
  | queued {s s' : State} : s.events.findOne event.id = some event →
      s.deliveryQueue.filter (fun item => item.1.id = event.id) = [] →
      Alone event consumers s (.queueEventForDelivery event) s' (.finished none) →
      Serial event consumers s' [] []
  | others {s s' : State} {waiting : List Point} {succeeded : List WebhookConsumer} :
      Serial event consumers s waiting succeeded → Elsewhere event s s' →
      Serial event consumers s' waiting succeeded
  | delivery {now : ℕ} {input : Input} {s s₁ s' : State} {d : Delivery} {p : Point}
      {waiting : List Point} {succeeded : List WebhookConsumer} :
      Serial event consumers s waiting succeeded → Active consumers now input →
      deliveries.resume now input .processQueue s = some (.getConsumerById d, s₁) →
      d.event.id = event.id → Alone event consumers s₁ (.getConsumerById d) s' p →
      p.inDelivery = false →
      Serial event consumers s' (waiting ++ p.waits) (succeeded ++ p.succeeds)
  | again {now : ℕ} {input : Input} {s s' : State} {p q : Point} {waiting : List Point}
      {succeeded : List WebhookConsumer} :
      Serial event consumers s waiting succeeded → p ∈ waiting →
      deliveries.resume now input p s = some (q, s') →
      Serial event consumers s' (waiting.erase p) succeeded

/-- Whenever no delivery of the event is being executed, it is marked as processed exactly when all
consumers have it. -/
def ProcessedExactly (event : StellarEvent) (consumers : List WebhookConsumer) : Prop :=
  ∀ s waiting succeeded, Serial event consumers s waiting succeeded →
    ∃ row, s.events.findOne event.id = some row ∧
      (row.isProcessed = true ↔ ∀ consumer ∈ consumers, consumer ∈ succeeded)

/-! ## The mark of an event -/

/-- The event is stored, and is marked as processed if and only if `P` holds. -/
def Marked (events : EventRepository) (event : StellarEvent) (P : Prop) : Prop :=
  ∃ row, events.findOne event.id = some row ∧ (row.isProcessed = true ↔ P)

theorem Marked.save (hid : row.id = event.id) (hmark : row.isProcessed = true ↔ P) :
    Marked (events.save row) event P := by
  refine ⟨row, ?_, hmark⟩
  rw [EventRepository.findOne_save, if_pos hid.symm]

theorem Marked.congr {Q : Prop} (h : Marked events event P) (hiff : P ↔ Q) :
    Marked events event Q := by
  obtain ⟨row, hread, hmark⟩ := h
  exact ⟨row, hread, hmark.trans hiff⟩

theorem Marked.elsewhere (h : Marked s.events event P) (helse : Elsewhere event s s') :
    Marked s'.events event P := by
  obtain ⟨row, hread, hmark⟩ := h
  exact ⟨row, helse.record.trans hread, hmark⟩

theorem updateEventStatus_isProcessed {status : DeliveryStatus} {consumerId : String}
    {errorMessage : Option String} :
    (updateEventStatus now status consumerId errorMessage row).isProcessed = row.isProcessed := by
  cases status <;> rfl

/-- The items of the queue that are of the event hold it as it was queued. -/
def Queued (event : StellarEvent) (consumers : List WebhookConsumer) (s : State) : Prop :=
  ∀ item ∈ s.deliveryQueue, item.1.id = event.id → item.1 = event ∧ item.2 ∈ consumers

theorem Queued.elsewhere (h : Queued event consumers s) (helse : Elsewhere event s s') :
    Queued event consumers s' := by
  intro item hitem hid
  have hmem : item ∈ s'.deliveryQueue.filter fun item => item.1.id = event.id :=
    List.mem_filter.mpr ⟨hitem, decide_eq_true hid⟩
  rw [helse.queue] at hmem
  exact h item (List.mem_filter.mp hmem).1 hid

theorem Queued.append {items : List (StellarEvent × WebhookConsumer)}
    (h : Queued event consumers s) (hitems : ∀ item ∈ items, item.1 = event ∧ item.2 ∈ consumers) :
    Queued event consumers { s with deliveryQueue := s.deliveryQueue ++ items } := by
  intro item hitem hid
  rcases List.mem_append.mp hitem with hold | hnew
  · exact h item hold hid
  · exact hitems item hnew

/-- The record is loaded and changed for the outcome of a delivery, with the mark as it is. -/
theorem Marked.findEvent {d : Delivery} {status : DeliveryStatus} {errorMessage : Option String}
    {caught : Bool} (h : Marked s.events event P) (hevent : d.event = event)
    (hq : deliveries.resume now input (.findEvent d status errorMessage caught) s =
      some (q, s')) :
    s' = s ∧ ∃ row, q = .saveEvent d status row ∧ row.id = event.id ∧
      (row.isProcessed = true ↔ P) := by
  subst hevent
  obtain ⟨row, hread, hmark⟩ := h
  simp only [deliveries, Point.resume, hread] at hq
  obtain ⟨rfl, rfl⟩ := Prod.mk.inj (Option.some.inj hq)
  refine ⟨rfl, _, rfl, updateEventStatus_id.trans (s.events.keyed _ row hread), ?_⟩
  rw [updateEventStatus_isProcessed, hmark]

/-- The record is loaded and marked. -/
theorem resume_findProcessed {d : Option Delivery} (hstored : (s.events.findOne event.id).isSome)
    (hq : deliveries.resume now input (.findProcessed d event.id) s = some (q, s')) :
    s' = s ∧ ∃ row, q = .saveProcessed d row ∧ row.id = event.id ∧ row.isProcessed = true := by
  obtain ⟨row, hread⟩ := Option.isSome_iff_exists.mp hstored
  simp only [deliveries, Point.resume, hread] at hq
  obtain ⟨rfl, rfl⟩ := Prod.mk.inj (Option.some.inj hq)
  exact ⟨rfl, _, rfl, s.events.keyed _ row hread, rfl⟩

/-! ## The call that queues the event -/

/-- How far the call has come that queues the event. -/
inductive Queueing (event : StellarEvent) (consumers : List WebhookConsumer) (s : State) :
    Point → Prop
  | called : Marked s.events event (event.isProcessed = true) →
      Queueing event consumers s (.queueEventForDelivery event)
  | findProcessed : consumers = [] → (s.events.findOne event.id).isSome →
      Queueing event consumers s (.findProcessed none event.id)
  | saveProcessed {row : StellarEvent} : consumers = [] → row.id = event.id →
      row.isProcessed = true → Queueing event consumers s (.saveProcessed none row)
  | queued : Marked s.events event (event.isProcessed = true ∨ consumers = []) →
      Queueing event consumers s (.finished none)

theorem Queueing.elsewhere (h : Queueing event consumers s p) (helse : Elsewhere event s s') :
    Queueing event consumers s' p := by
  cases h with
  | called hmarked => exact .called (hmarked.elsewhere helse)
  | findProcessed hnone hstored =>
    rw [← helse.record] at hstored
    exact .findProcessed hnone hstored
  | saveProcessed hnone hid hmark => exact .saveProcessed hnone hid hmark
  | queued hmarked => exact .queued (hmarked.elsewhere helse)

/-- Without consumers the event is marked at once, and otherwise it is queued for all of them. -/
theorem Queueing.step (h : Queueing event consumers s p) (hqueued : Queued event consumers s)
    (hactive : Active consumers now input) (hq : deliveries.resume now input p s = some (q, s')) :
    Queueing event consumers s' q ∧ Queued event consumers s' := by
  cases h with
  | called hmarked =>
    simp only [deliveries, Point.resume, hactive.2] at hq
    split at hq <;> obtain ⟨rfl, rfl⟩ := Prod.mk.inj (Option.some.inj hq)
    · rename_i hnone
      obtain ⟨row, hread, -⟩ := hmarked
      exact ⟨.findProcessed hnone (Option.isSome_iff_exists.mpr ⟨row, hread⟩), hqueued⟩
    · rename_i hsome
      refine ⟨.queued (hmarked.congr (or_iff_left hsome).symm), hqueued.append ?_⟩
      intro item hitem
      obtain ⟨consumer, hmem, rfl⟩ := List.mem_map.mp hitem
      exact ⟨rfl, hmem⟩
  | findProcessed hnone hstored =>
    obtain ⟨rfl, row, rfl, hid, hmark⟩ := resume_findProcessed hstored hq
    exact ⟨.saveProcessed hnone hid hmark, hqueued⟩
  | saveProcessed hnone hid hmark =>
    obtain ⟨rfl, rfl⟩ := Prod.mk.inj (Option.some.inj hq)
    exact ⟨.queued (.save hid (iff_of_true hmark (.inr hnone))), hqueued⟩
  | queued _ => cases hq

/-! ## Deliveries of the event -/

/-- The count of consumers reaches the active ones with the next delivery. -/
def Reaches (event : StellarEvent) (consumers : List WebhookConsumer) : Prop :=
  consumers.length ≤ event.deliveredTo.length + 1

/-- How far a delivery has come that found the event marked if and only if `P` holds. -/
inductive Processing (event : StellarEvent) (consumers : List WebhookConsumer) (P : Prop)
    (s : State) : Point → Prop
  | getConsumerById {consumer : WebhookConsumer} : consumer ∈ consumers →
      Marked s.events event P →
      Processing event consumers P s (.getConsumerById (.new event consumer))
  | attemptDelivery {consumer : WebhookConsumer} : consumer ∈ consumers →
      Marked s.events event P →
      Processing event consumers P s (.attemptDelivery (.new event consumer))
  | recordFailure {consumer : WebhookConsumer} {error : String} : consumer ∈ consumers →
      Marked s.events event P →
      Processing event consumers P s (.recordFailure (.new event consumer) error false)
  | scheduled {consumer : WebhookConsumer} {due : ℕ} : consumer ∈ consumers →
      Marked s.events event P →
      Processing event consumers P s (.scheduled (.new event consumer) due)
  | findFailed {d : Delivery} {error : String} : d.event = event → d.posted = false →
      Marked s.events event P →
      Processing event consumers P s (.findEvent d .failed (some error) false)
  | saveFailed {d : Delivery} {row : StellarEvent} : d.posted = false → row.id = event.id →
      (row.isProcessed = true ↔ P) → Processing event consumers P s (.saveEvent d .failed row)
  | failed {d : Option Delivery} : (∀ d' ∈ d, d'.posted = false) → Marked s.events event P →
      Processing event consumers P s (.finished d)
  | findDelivered {d : Delivery} : d.event = event → d.posted = true → d.consumer ∈ consumers →
      Marked s.events event P →
      Processing event consumers P s (.findEvent d .delivered none false)
  | saveDelivered {d : Delivery} {row : StellarEvent} : d.event = event → d.posted = true →
      d.consumer ∈ consumers → row.id = event.id → (row.isProcessed = true ↔ P) →
      Processing event consumers P s (.saveEvent d .delivered row)
  | recordSuccess {d : Delivery} : d.event = event → d.posted = true → d.consumer ∈ consumers →
      Marked s.events event P → Processing event consumers P s (.recordSuccess d)
  | getActiveConsumers {d : Delivery} : d.event = event → d.posted = true →
      d.consumer ∈ consumers → Marked s.events event P →
      Processing event consumers P s (.getActiveConsumers d)
  | findProcessed {d : Delivery} : d.posted = true → d.consumer ∈ consumers →
      Reaches event consumers → (s.events.findOne event.id).isSome →
      Processing event consumers P s (.findProcessed (some d) event.id)
  | saveProcessed {d : Delivery} {row : StellarEvent} : d.posted = true →
      d.consumer ∈ consumers → Reaches event consumers → row.id = event.id →
      row.isProcessed = true → Processing event consumers P s (.saveProcessed (some d) row)
  | delivered {d : Delivery} : d.posted = true → d.consumer ∈ consumers →
      Marked s.events event (P ∨ Reaches event consumers) →
      Processing event consumers P s (.finished (some d))

theorem Processing.elsewhere (h : Processing event consumers P s p)
    (helse : Elsewhere event s s') : Processing event consumers P s' p := by
  cases h with
  | getConsumerById hmem hmarked => exact .getConsumerById hmem (hmarked.elsewhere helse)
  | attemptDelivery hmem hmarked => exact .attemptDelivery hmem (hmarked.elsewhere helse)
  | recordFailure hmem hmarked => exact .recordFailure hmem (hmarked.elsewhere helse)
  | scheduled hmem hmarked => exact .scheduled hmem (hmarked.elsewhere helse)
  | findFailed hevent hposted hmarked =>
    exact .findFailed hevent hposted (hmarked.elsewhere helse)
  | saveFailed hposted hid hmark => exact .saveFailed hposted hid hmark
  | failed hposted hmarked => exact .failed hposted (hmarked.elsewhere helse)
  | findDelivered hevent hposted hmem hmarked =>
    exact .findDelivered hevent hposted hmem (hmarked.elsewhere helse)
  | saveDelivered hevent hposted hmem hid hmark =>
    exact .saveDelivered hevent hposted hmem hid hmark
  | recordSuccess hevent hposted hmem hmarked =>
    exact .recordSuccess hevent hposted hmem (hmarked.elsewhere helse)
  | getActiveConsumers hevent hposted hmem hmarked =>
    exact .getActiveConsumers hevent hposted hmem (hmarked.elsewhere helse)
  | findProcessed hposted hmem hreaches hstored =>
    rw [← helse.record] at hstored
    exact .findProcessed hposted hmem hreaches hstored
  | saveProcessed hposted hmem hreaches hid hmark =>
    exact .saveProcessed hposted hmem hreaches hid hmark
  | delivered hposted hmem hmarked => exact .delivered hposted hmem (hmarked.elsewhere helse)

/-- What a step of a delivery does to the mark. -/
theorem Processing.step (h : Processing event consumers P s p)
    (hqueued : Queued event consumers s) (hactive : Active consumers now input)
    (hq : deliveries.resume now input p s = some (q, s')) :
    Processing event consumers P s' q ∧ Queued event consumers s' := by
  cases h with
  | getConsumerById hmem hmarked =>
    simp only [deliveries, Point.resume, hactive.1] at hq
    obtain ⟨rfl, rfl⟩ := Prod.mk.inj (Option.some.inj hq)
    exact ⟨.attemptDelivery hmem hmarked, hqueued⟩
  | attemptDelivery hmem hmarked =>
    simp only [deliveries, Point.resume] at hq
    split at hq <;> obtain ⟨rfl, rfl⟩ := Prod.mk.inj (Option.some.inj hq)
    · exact ⟨.findDelivered rfl rfl hmem hmarked, hqueued⟩
    · exact ⟨.recordFailure hmem hmarked, hqueued⟩
  | recordFailure hmem hmarked =>
    simp only [deliveries, Point.resume, hactive.1] at hq
    split at hq <;> obtain ⟨rfl, rfl⟩ := Prod.mk.inj (Option.some.inj hq)
    · exact ⟨.findFailed rfl rfl hmarked, hqueued⟩
    · exact ⟨.scheduled hmem hmarked, hqueued⟩
  | @scheduled consumer _ hmem hmarked =>
    simp only [deliveries, Point.resume] at hq
    split at hq
    · obtain ⟨rfl, rfl⟩ := Prod.mk.inj (Option.some.inj hq)
      -- what is pushed again is the event as it was queued, not the row
      refine ⟨.failed ?_ hmarked, hqueued.append ?_⟩
      · rintro d' hd'
        obtain rfl := Option.some.inj hd'
        rfl
      · rintro item hitem
        rw [List.mem_singleton.mp hitem]
        exact ⟨rfl, hmem⟩
    · cases hq
  | findFailed hevent hposted hmarked =>
    obtain ⟨rfl, row, rfl, hid, hmark⟩ := hmarked.findEvent hevent hq
    exact ⟨.saveFailed hposted hid hmark, hqueued⟩
  | saveFailed hposted hid hmark =>
    obtain ⟨rfl, rfl⟩ := Prod.mk.inj (Option.some.inj hq)
    refine ⟨.failed ?_ (.save hid hmark), hqueued⟩
    rintro d' hd'
    obtain rfl := Option.some.inj hd'
    exact hposted
  | failed => cases hq
  | findDelivered hevent hposted hmem hmarked =>
    obtain ⟨rfl, row, rfl, hid, hmark⟩ := hmarked.findEvent hevent hq
    exact ⟨.saveDelivered hevent hposted hmem hid hmark, hqueued⟩
  | saveDelivered hevent hposted hmem hid hmark =>
    obtain ⟨rfl, rfl⟩ := Prod.mk.inj (Option.some.inj hq)
    exact ⟨.recordSuccess hevent hposted hmem (.save hid hmark), hqueued⟩
  | recordSuccess hevent hposted hmem hmarked =>
    simp only [deliveries, Point.resume, hactive.1] at hq
    obtain ⟨rfl, rfl⟩ := Prod.mk.inj (Option.some.inj hq)
    exact ⟨.getActiveConsumers hevent hposted hmem hmarked, hqueued⟩
  | getActiveConsumers hevent hposted hmem hmarked =>
    subst hevent
    simp only [deliveries, Point.resume, hactive.2] at hq
    -- the count is that of the event that was queued, whatever is stored
    split at hq <;> obtain ⟨rfl, rfl⟩ := Prod.mk.inj (Option.some.inj hq)
    · rename_i hreaches
      obtain ⟨row, hread, -⟩ := hmarked
      exact ⟨.findProcessed hposted hmem hreaches (Option.isSome_iff_exists.mpr ⟨row, hread⟩),
        hqueued⟩
    · rename_i hreaches
      exact ⟨.delivered hposted hmem (hmarked.congr (or_iff_left hreaches).symm), hqueued⟩
  | findProcessed hposted hmem hreaches hstored =>
    obtain ⟨rfl, row, rfl, hid, hmark⟩ := resume_findProcessed hstored hq
    exact ⟨.saveProcessed hposted hmem hreaches hid hmark, hqueued⟩
  | saveProcessed hposted hmem hreaches hid hmark =>
    obtain ⟨rfl, rfl⟩ := Prod.mk.inj (Option.some.inj hq)
    exact ⟨.delivered hposted hmem (.save hid (iff_of_true hmark (.inr hreaches))), hqueued⟩
  | delivered => cases hq

/-! ## Serial executions -/

/-- When the event is marked as processed, with the consumers that have it. -/
def Marks (event : StellarEvent) (consumers succeeded : List WebhookConsumer) : Prop :=
  event.isProcessed = true ∨ consumers = [] ∨ succeeded ≠ [] ∧ Reaches event consumers

theorem marks_nil :
    Marks event consumers [] ↔ event.isProcessed = true ∨ consumers = [] := by
  simp [Marks]

theorem marks_concat {consumer : WebhookConsumer} :
    Marks event consumers (succeeded ++ [consumer]) ↔
      Marks event consumers succeeded ∨ Reaches event consumers := by
  have hne : succeeded ++ [consumer] ≠ [] := by simp
  unfold Marks
  tauto

/-- The deliveries that wait are of the event. -/
def Waiting (event : StellarEvent) (consumers : List WebhookConsumer) (p : Point) : Prop :=
  ∃ consumer due, consumer ∈ consumers ∧ p = .scheduled (.new event consumer) due

/-- What holds between the executions of the deliveries. -/
structure SerialState (event : StellarEvent) (consumers : List WebhookConsumer) (s : State)
    (waiting : List Point) (succeeded : List WebhookConsumer) : Prop where
  marked : Marked s.events event (Marks event consumers succeeded)
  queued : Queued event consumers s
  waiting : ∀ p ∈ waiting, Waiting event consumers p
  succeeded : ∀ consumer ∈ succeeded, consumer ∈ consumers

theorem Processing.path {s₀ : State} {p₀ : Point} (hpath : Alone event consumers s₀ p₀ s p)
    (h : Processing event consumers P s₀ p₀) (hqueued : Queued event consumers s₀) :
    Processing event consumers P s p ∧ Queued event consumers s :=
  hpath.invariant (I := fun s p => Processing event consumers P s p ∧ Queued event consumers s)
    (fun _ _ _ hI helse => ⟨hI.1.elsewhere helse, hI.2.elsewhere helse⟩)
    (fun _ _ _ _ _ _ hI hactive hq => hI.1.step hI.2 hactive hq) ⟨h, hqueued⟩

theorem Queueing.path {s₀ : State} {p₀ : Point} (hpath : Alone event consumers s₀ p₀ s p)
    (h : Queueing event consumers s₀ p₀) (hqueued : Queued event consumers s₀) :
    Queueing event consumers s p ∧ Queued event consumers s :=
  hpath.invariant (I := fun s p => Queueing event consumers s p ∧ Queued event consumers s)
    (fun _ _ _ hI helse => ⟨hI.1.elsewhere helse, hI.2.elsewhere helse⟩)
    (fun _ _ _ _ _ _ hI hactive hq => hI.1.step hI.2 hactive hq) ⟨h, hqueued⟩

/-- A task takes a delivery of the event from the queue. -/
theorem Queued.take {d : Delivery} (h : Queued event consumers s)
    (hq : deliveries.resume now input .processQueue s = some (.getConsumerById d, s'))
    (hid : d.event.id = event.id) :
    (∃ consumer ∈ consumers, d = .new event consumer) ∧ s'.events = s.events ∧
      Queued event consumers s' := by
  simp only [deliveries, Point.resume] at hq
  split at hq
  · cases hq
  · rename_i event' consumer rest hqueue
    obtain ⟨hpoint, rfl⟩ := Prod.mk.inj (Option.some.inj hq)
    obtain rfl := Point.getConsumerById.inj hpoint
    obtain ⟨rfl, hmem⟩ := h (event', consumer) (by rw [hqueue]; exact List.mem_cons_self) hid
    refine ⟨⟨consumer, hmem, rfl⟩, rfl, fun item hitem => ?_⟩
    exact h item (by rw [hqueue]; exact List.mem_cons_of_mem _ hitem)

/-- A delivery that waited is queued again. -/
theorem Waiting.step (h : Waiting event consumers p)
    (hq : deliveries.resume now input p s = some (q, s')) (hqueued : Queued event consumers s) :
    s'.events = s.events ∧ Queued event consumers s' := by
  obtain ⟨consumer, due, hmem, rfl⟩ := h
  simp only [deliveries, Point.resume] at hq
  split at hq
  · obtain ⟨-, rfl⟩ := Prod.mk.inj (Option.some.inj hq)
    refine ⟨rfl, hqueued.append ?_⟩
    intro item hitem
    rw [List.mem_singleton.mp hitem]
    exact ⟨rfl, hmem⟩
  · cases hq

theorem Processing.waits (h : Processing event consumers P s p) :
    ∀ r ∈ p.waits, Waiting event consumers r := by
  intro r hr
  cases h with
  | @scheduled consumer due hmem _ => exact ⟨consumer, due, hmem, List.mem_singleton.mp hr⟩
  | _ => cases hr

/-- A delivery that has ended left the mark, or reached its consumer and may have set it. -/
theorem Processing.ended (h : Processing event consumers P s p) (hend : p.inDelivery = false) :
    p.succeeds = [] ∧ Marked s.events event P ∨
      ∃ consumer ∈ consumers, p.succeeds = [consumer] ∧
        Marked s.events event (P ∨ Reaches event consumers) := by
  cases h with
  | scheduled _ hmarked => exact .inl ⟨rfl, hmarked⟩
  | @failed d hposted hmarked =>
    refine .inl ⟨?_, hmarked⟩
    cases d with
    | none => rfl
    | some d => simp [Point.succeeds, hposted d rfl]
  | @delivered d hposted hmem hmarked =>
    exact .inr ⟨d.consumer, hmem, by simp [Point.succeeds, hposted], hmarked⟩
  | _ => cases hend

/-- Between the deliveries the event is marked as the first of them left it. -/
theorem Serial.state (h : Serial event consumers s waiting succeeded) :
    SerialState event consumers s waiting succeeded := by
  induction h with
  | @queued s s' hread hnone hpath =>
    -- no item of the queue was of the event before
    have hqueued : Queued event consumers s := by
      intro item hitem hid
      have hmem : item ∈ s.deliveryQueue.filter fun item => item.1.id = event.id :=
        List.mem_filter.mpr ⟨hitem, decide_eq_true hid⟩
      rw [hnone] at hmem
      cases hmem
    obtain ⟨hphase, hqueued'⟩ := Queueing.path hpath (.called ⟨event, hread, Iff.rfl⟩) hqueued
    cases hphase with
    | queued hmarked => exact ⟨hmarked.congr marks_nil.symm, hqueued', by simp, by simp⟩
  | others _ helse ih =>
    exact ⟨ih.marked.elsewhere helse, ih.queued.elsewhere helse, ih.waiting, ih.succeeded⟩
  | delivery _ _ hq hid hpath hend ih =>
    obtain ⟨⟨consumer, hmem, rfl⟩, hevents, hqueued⟩ := ih.queued.take hq hid
    have hmarked := ih.marked
    rw [← hevents] at hmarked
    obtain ⟨hphase, hqueued'⟩ := Processing.path hpath (.getConsumerById hmem hmarked) hqueued
    have hwaiting := List.forall_mem_append.mpr ⟨ih.waiting, hphase.waits⟩
    rcases hphase.ended hend with ⟨hnone, hsame⟩ | ⟨consumer', hmem', hone, hmark⟩
    · rw [hnone, List.append_nil]
      exact ⟨hsame, hqueued', hwaiting, ih.succeeded⟩
    · rw [hone]
      refine ⟨hmark.congr marks_concat.symm, hqueued', hwaiting, ?_⟩
      rw [List.forall_mem_append, List.forall_mem_singleton]
      exact ⟨ih.succeeded, hmem'⟩
  | again _ hmem hq ih =>
    obtain ⟨hevents, hqueued⟩ := (ih.waiting _ hmem).step hq ih.queued
    refine ⟨?_, hqueued, fun r hr => ih.waiting r (List.mem_of_mem_erase hr), ih.succeeded⟩
    rw [hevents]
    exact ih.marked

/-! ## Executions in the order of the queue -/

/-- A delivery that posted the event comes to its end. -/
theorem exists_delivered {consumer : WebhookConsumer} {s₀ : State} {p₀ : Point}
    (hstored : (s.events.findOne event.id).isSome)
    (h : Alone event consumers s₀ p₀ s
      (.findEvent ⟨event, consumer, true, false⟩ .delivered none false)) :
    ∃ events', Alone event consumers s₀ p₀ ⟨events', s.deliveryQueue⟩
      (.finished (some ⟨event, consumer, true, false⟩)) := by
  obtain ⟨row, hread⟩ := Option.isSome_iff_exists.mp hstored
  have hactive : Active consumers 0 ⟨some true, .ok (), consumers⟩ := ⟨rfl, rfl⟩
  have hfound : deliveries.resume 0 ⟨some true, .ok (), consumers⟩
      (.findEvent ⟨event, consumer, true, false⟩ .delivered none false) s =
      some (.saveEvent ⟨event, consumer, true, false⟩ .delivered
        (updateEventStatus 0 .delivered consumer.id none row), s) := by
    simp only [deliveries, Point.resume, hread]
  have hcounting := ((h.step hactive hfound).step hactive rfl).step hactive rfl
  by_cases hreaches : Reaches event consumers
  · have hmarking := hcounting.step hactive (if_pos hreaches)
    have hread' : (s.events.save (updateEventStatus 0 .delivered consumer.id none row)).findOne
        event.id = some (updateEventStatus 0 .delivered consumer.id none row) := by
      rw [EventRepository.findOne_save, updateEventStatus_id, if_pos]
      exact (s.events.keyed _ row hread).symm
    have hfound' : deliveries.resume 0 ⟨some true, .ok (), consumers⟩
        (.findProcessed (some ⟨event, consumer, true, false⟩) event.id)
        { s with events := s.events.save (updateEventStatus 0 .delivered consumer.id none row) } =
        some (.saveProcessed (some ⟨event, consumer, true, false⟩)
          { updateEventStatus 0 .delivered consumer.id none row with isProcessed := true },
          { s with
            events := s.events.save (updateEventStatus 0 .delivered consumer.id none row) }) := by
      simp only [deliveries, Point.resume, hread']
    exact ⟨_, (hmarking.step hactive hfound').step hactive rfl⟩
  · exact ⟨_, hcounting.step hactive (if_neg hreaches)⟩

/-- A delivery that is taken from the queue can succeed. -/
theorem Serial.succeed {consumer : WebhookConsumer} {rest : List (StellarEvent × WebhookConsumer)}
    (h : Serial event consumers ⟨events, (event, consumer) :: rest⟩ [] succeeded) :
    ∃ events', Serial event consumers ⟨events', rest⟩ [] (succeeded ++ [consumer]) := by
  obtain ⟨row, hread, -⟩ := h.state.marked
  have hactive : Active consumers 0 ⟨some true, .ok (), consumers⟩ := ⟨rfl, rfl⟩
  have htaken : Alone event consumers ⟨events, rest⟩ (.getConsumerById (.new event consumer))
      ⟨events, rest⟩ (.getConsumerById (.new event consumer)) := .start
  have hposted := (htaken.step hactive rfl).step hactive rfl
  have hstored : ((⟨events, rest⟩ : State).events.findOne event.id).isSome :=
    Option.isSome_iff_exists.mpr ⟨row, hread⟩
  obtain ⟨events', hpath⟩ := exists_delivered hstored hposted
  exact ⟨events', h.delivery hactive rfl rfl hpath rfl⟩

/-- The consumers can have the event in the order in which it was queued for them. -/
theorem exists_serial (hne : consumers ≠ []) (rest : List WebhookConsumer)
    (hsplit : consumers = succeeded ++ rest) :
    ∃ events, Serial event consumers ⟨events, rest.map fun consumer => (event, consumer)⟩ []
      succeeded := by
  induction succeeded using List.reverseRecOn generalizing rest with
  | nil =>
    obtain ⟨events, hread⟩ := exists_stored event
    have hactive : Active consumers 0 ⟨some true, .ok (), consumers⟩ := ⟨rfl, rfl⟩
    have hcalled : Alone event consumers ⟨events, []⟩ (.queueEventForDelivery event) ⟨events, []⟩
      (.queueEventForDelivery event) := .start
    rw [List.nil_append] at hsplit
    subst hsplit
    exact ⟨events, .queued hread rfl (hcalled.step hactive (if_neg hne))⟩
  | append_singleton succeeded consumer ih =>
    rw [List.append_assoc, List.singleton_append] at hsplit
    obtain ⟨events, hserial⟩ := ih (consumer :: rest) hsplit
    exact hserial.succeed

/-- **Processed events.** The mark of an event as processed is right between all of its deliveries
exactly when there are no active consumers, or there is one, and the event was not marked before. -/
theorem processedExactly_iff (hnodup : consumers.Nodup) :
    ProcessedExactly event consumers ↔
      consumers = [] ∨ consumers.length = 1 ∧ event.isProcessed = false := by
  constructor
  · intro hexact
    have hmarks : ∀ succeeded rest, consumers ≠ [] → consumers = succeeded ++ rest →
        (Marks event consumers succeeded ↔ ∀ consumer ∈ consumers, consumer ∈ succeeded) := by
      intro succeeded rest hne hsplit
      obtain ⟨events, hserial⟩ := exists_serial hne rest hsplit
      obtain ⟨row, hread, hmark⟩ := hserial.state.marked
      obtain ⟨row', hread', hexact'⟩ := hexact _ _ _ hserial
      obtain rfl := Option.some.inj (hread.symm.trans hread')
      exact hmark.symm.trans hexact'
    rcases consumers with _ | ⟨first, _ | ⟨second, rest⟩⟩
    · exact .inl rfl
    · -- a mark from before the first delivery is too early
      refine .inr ⟨rfl, ?_⟩
      by_contra hmark
      have hearly := (hmarks [] [first] (by simp) rfl).mp (.inl (Bool.eq_true_of_not_eq_false hmark))
      simp at hearly
    · exfalso
      by_cases hreaches : Reaches event (first :: second :: rest)
      · -- the first delivery sets the mark, and the second consumer does not have the event
        have hearly := (hmarks [first] (second :: rest) (by simp) rfl).mp
          (.inr (.inr ⟨by simp, hreaches⟩)) second (by simp)
        rw [List.mem_singleton] at hearly
        subst hearly
        simp at hnodup
      · -- none sets it
        have hlate := (hmarks (first :: second :: rest) [] (by simp) (by simp)).mpr fun _ hmem => hmem
        rcases hlate with hmark | hnone | ⟨-, hreach⟩
        · have hearly := (hmarks [] _ (by simp) rfl).mp (.inl hmark) first (by simp)
          cases hearly
        · cases hnone
        · exact hreaches hreach
  · rintro (rfl | ⟨hone, hnot⟩) s waiting succeeded hserial
    · obtain ⟨row, hread, hmark⟩ := hserial.state.marked
      exact ⟨row, hread, hmark.trans (iff_of_true (.inr (.inl rfl)) (by simp))⟩
    · obtain ⟨consumer, rfl⟩ := List.length_eq_one_iff.mp hone
      obtain ⟨row, hread, hmark⟩ := hserial.state.marked
      refine ⟨row, hread, hmark.trans ?_⟩
      have hmem : succeeded ≠ [] ↔ consumer ∈ succeeded := by
        constructor
        · intro hne
          obtain ⟨first, hfirst⟩ := List.exists_mem_of_ne_nil succeeded hne
          obtain rfl := List.mem_singleton.mp (hserial.state.succeeded first hfirst)
          exact hfirst
        · exact List.ne_nil_of_mem
      simp [Marks, Reaches, hnot, hmem]

theorem processedExactly_iff_sample : ProcessedExactly sampleEvent [⟨"c1", 5⟩] :=
  (processedExactly_iff (List.nodup_singleton _)).mpr (.inr ⟨rfl, rfl⟩)

/-- Both consumers have the event, one after the other, and it is not marked. -/
theorem never_processed :
    ¬ ∀ event consumers, consumers.Nodup → ProcessedExactly event consumers := by
  intro hall
  have hnone : ¬ Marks sampleEvent sampleConsumers sampleConsumers := by
    simp [Marks, Reaches, sampleEvent, sampleConsumers]
  obtain ⟨events, hserial⟩ : ∃ events,
      Serial sampleEvent sampleConsumers ⟨events, []⟩ [] sampleConsumers :=
    exists_serial (List.cons_ne_nil _ _) [] (List.append_nil _).symm
  obtain ⟨row, hread, hmark⟩ := hserial.state.marked
  obtain ⟨row', hread', hexact⟩ := hall sampleEvent sampleConsumers (by decide) _ _ _ hserial
  obtain rfl := Option.some.inj (hread.symm.trans hread')
  exact hnone (hmark.mp (hexact.mpr fun _ hmem => hmem))

end Stellara.Monitor
