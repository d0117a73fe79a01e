import Stellara.Monitor.Deliveries

/-!
# The retries of a delivery

A delivery that failed is queued again with the event and the consumer that it was queued with
before, until the number of its attempt reaches the maximum of the consumer. The number is taken
from the event, and the event in the queue is the one that was queued first: only the stored record
counts its attempts. So either the first failure is the last one, or none is.

## Main definitions

* `Attempts`: the attempts to deliver an event to a consumer, while other tasks go on
* `RetriesBounded`: they are as many as there can be, and leave the event failed if they all fail
* `AttemptPhase`: how far the attempts have come

## Main results

* `resume_keepsEvents`: what a task does to the records while others wait
* `AttemptPhase.step`: what a step of a delivery does
* `Attempts.retried`: a failed delivery is attempted again
* `retriesBounded_iff`: retries are bounded only where there are none, or one of them succeeds
-/

namespace Stellara.Monitor

variable {response : ℕ → Except String Unit} {event event' : StellarEvent}
  {consumer : WebhookConsumer} {events : EventRepository} {now t posts steps : ℕ} {input : Input}
  {s s' : State} {p q : Point}

/-! ## Properties -/

/-- A delivery as it is taken from the queue. -/
def Delivery.new (event : StellarEvent) (consumer : WebhookConsumer) : Delivery :=
  ⟨event, consumer, false, false⟩

/-- The point is one of a delivery that has not ended. -/
def Point.inDelivery : Point → Bool
  | .scheduled _ _ | .finished _ => false
  | _ => true

/-- How often the step posts the event. -/
def Point.postCount : Point → ℕ
  | .attemptDelivery _ => 1
  | _ => 0

/-- Events that are stored stay stored. -/
def KeepsEvents (s s' : State) : Prop :=
  ∀ eventId, (s.events.findOne eventId).isSome → (s'.events.findOne eventId).isSome

/-- The attempts to deliver an event to a consumer, at a time, after some posts and some steps. They
start when the delivery is taken from the queue, and it is taken again after it was scheduled. The
consumer is stored and active throughout (it is not suspended) and answers one post after the other,
and other tasks do anything that keeps the events. -/
inductive Attempts (response : ℕ → Except String Unit) (event : StellarEvent)
    (consumer : WebhookConsumer) : ℕ → ℕ → ℕ → State → Point → Prop
  | taken {now : ℕ} {s : State} : (s.events.findOne event.id).isSome →
      Attempts response event consumer now 0 0 s (.getConsumerById (.new event consumer))
  | others {now posts steps : ℕ} {s s' : State} {p : Point} :
      Attempts response event consumer now posts steps s p → p.inDelivery = true →
      KeepsEvents s s' → Attempts response event consumer now posts steps s' p
  | step {now t posts steps : ℕ} {input : Input} {s s' : State} {p q : Point} :
      Attempts response event consumer now posts steps s p → p.inDelivery = true → now ≤ t →
      input.consumer = some true → input.response = response posts →
      deliveries.resume t input p s = some (q, s') →
      Attempts response event consumer t (posts + p.postCount) (steps + 1) s' q
  | again {now t t' posts steps due : ℕ} {input input' : Input} {s s₁ s₂ s₃ s₄ : State}
      {d : Delivery} {q : Point} :
      Attempts response event consumer now posts steps s (.scheduled d due) → now ≤ t → t ≤ t' →
      KeepsEvents s s₁ → deliveries.resume t input (.scheduled d due) s₁ = some (q, s₂) →
      KeepsEvents s₂ s₃ → deliveries.resume t' input' .processQueue s₃ =
        some (.getConsumerById (.new d.event d.consumer), s₄) →
      Attempts response event consumer t' posts (steps + 1) s₄
        (.getConsumerById (.new d.event d.consumer))

/-- The first responses are failures. -/
def Failed (response : ℕ → Except String Unit) (posts : ℕ) : Prop :=
  ∀ i < posts, ∃ error : String, response i = .error error

/-- The event is stored as failed, with the consumer among its failed deliveries. -/
def FailedFor (events : EventRepository) (event : StellarEvent) (consumer : WebhookConsumer) : Prop :=
  ∃ event', events.findOne event.id = some event' ∧ event'.deliveryStatus = .failed ∧
    consumer.id ∈ event'.failedDeliveries

/-- The retries of the delivery are bounded. -/
structure RetriesBounded (response : ℕ → Except String Unit) (event : StellarEvent)
    (consumer : WebhookConsumer) : Prop where
  posts_le : ∀ now posts steps s p, Attempts response event consumer now posts steps s p →
    posts ≤ max 1 consumer.maxRetries
  /-- As long as the attempts fail they go on, for a bounded number of steps, or have ended. -/
  failed : ∀ now posts steps s p, Attempts response event consumer now posts steps s p →
    Failed response posts → steps ≤ 5 * max 1 consumer.maxRetries ∧
      ((∃ t, ∀ t' input s, t ≤ t' → (deliveries.resume t' input p s).isSome = true) ∨
        (∃ d, p = .finished d) ∧ FailedFor s.events event consumer)

/-! ## Steps -/

theorem KeepsEvents.refl (s : State) : KeepsEvents s s := fun _ h => h

theorem keepsEvents_save : KeepsEvents s { s with events := s.events.save event } := by
  intro eventId h
  show ((s.events.save event).findOne eventId).isSome
  rw [EventRepository.findOne_save]
  split
  · rfl
  · exact h

/-- Every step of a task keeps the events, so the other tasks may be any of the monitor's. -/
theorem resume_keepsEvents (h : deliveries.resume now input p s = some (q, s')) :
    KeepsEvents s s' := by
  simp only [deliveries] at h
  cases p with
  | saveEvent d status event =>
    simp only [Point.resume] at h
    split at h <;> obtain ⟨rfl, rfl⟩ := Prod.mk.inj (Option.some.inj h) <;> exact keepsEvents_save
  | saveProcessed d event =>
    obtain ⟨rfl, rfl⟩ := Prod.mk.inj (Option.some.inj h)
    exact keepsEvents_save
  | recordFailure d errorMessage caught =>
    simp only [Point.resume] at h
    split at h
    · obtain ⟨rfl, rfl⟩ := Prod.mk.inj (Option.some.inj h)
      exact .refl s
    · split at h <;> obtain ⟨rfl, rfl⟩ := Prod.mk.inj (Option.some.inj h) <;> exact .refl s
  | findProcessed d eventId =>
    simp only [Point.resume] at h
    split at h
    · split at h <;> obtain ⟨rfl, rfl⟩ := Prod.mk.inj (Option.some.inj h) <;> exact .refl s
    · obtain ⟨rfl, rfl⟩ := Prod.mk.inj (Option.some.inj h)
      exact .refl s
  | scheduled d due =>
    simp only [Point.resume] at h
    split at h
    · obtain ⟨rfl, rfl⟩ := Prod.mk.inj (Option.some.inj h)
      exact fun _ hstored => hstored
    · cases h
  | finished d => cases h
  | _ =>
    simp only [Point.resume] at h
    split at h <;> obtain ⟨rfl, rfl⟩ := Prod.mk.inj (Option.some.inj h) <;>
      exact fun _ hstored => hstored

/-! ## Phases of the attempts -/

/-- What follows a successful post. -/
inductive Delivering (eventId : String) : Point → Prop
  | findEvent {d : Delivery} : d.event.id = eventId →
      Delivering eventId (.findEvent d .delivered none false)
  | saveEvent {d : Delivery} {event' : StellarEvent} : d.event.id = eventId →
      Delivering eventId (.saveEvent d .delivered event')
  | recordSuccess {d : Delivery} : d.event.id = eventId → Delivering eventId (.recordSuccess d)
  | getActiveConsumers {d : Delivery} : d.event.id = eventId →
      Delivering eventId (.getActiveConsumers d)
  | findProcessed {d : Delivery} : Delivering eventId (.findProcessed (some d) eventId)
  | saveProcessed {d : Delivery} {event' : StellarEvent} :
      Delivering eventId (.saveProcessed (some d) event')
  | finished {d : Delivery} : Delivering eventId (.finished (some d))

/-- There is nothing more to post after a successful one. -/
theorem Delivering.step {eventId : String} (h : Delivering eventId p)
    (hstored : (s.events.findOne eventId).isSome) (hactive : input.consumer = some true)
    (hq : deliveries.resume now input p s = some (q, s')) :
    p.postCount = 0 ∧ Delivering eventId q := by
  obtain ⟨stored, hread⟩ := Option.isSome_iff_exists.mp hstored
  simp only [deliveries] at hq
  cases h with
  | findEvent hid =>
    subst hid
    simp only [Point.resume, hread] at hq
    obtain ⟨rfl, rfl⟩ := Prod.mk.inj (Option.some.inj hq)
    exact ⟨rfl, .saveEvent rfl⟩
  | saveEvent hid =>
    obtain ⟨rfl, rfl⟩ := Prod.mk.inj (Option.some.inj hq)
    exact ⟨rfl, .recordSuccess hid⟩
  | recordSuccess hid =>
    simp only [Point.resume, hactive] at hq
    obtain ⟨rfl, rfl⟩ := Prod.mk.inj (Option.some.inj hq)
    exact ⟨rfl, .getActiveConsumers hid⟩
  | getActiveConsumers hid =>
    subst hid
    simp only [Point.resume] at hq
    split at hq <;> obtain ⟨rfl, rfl⟩ := Prod.mk.inj (Option.some.inj hq)
    · exact ⟨rfl, .findProcessed⟩
    · exact ⟨rfl, .finished⟩
  | findProcessed =>
    simp only [Point.resume, hread] at hq
    obtain ⟨rfl, rfl⟩ := Prod.mk.inj (Option.some.inj hq)
    exact ⟨rfl, .saveProcessed⟩
  | saveProcessed =>
    obtain ⟨rfl, rfl⟩ := Prod.mk.inj (Option.some.inj hq)
    exact ⟨rfl, .finished⟩
  | finished => cases hq

/-- A failed attempt is not the last one. -/
def Retried (event : StellarEvent) (consumer : WebhookConsumer) : Prop :=
  event.deliveryAttempts + 1 < consumer.maxRetries

/-- How far the attempts have come after some posts and some steps. An attempt takes four steps if
it is followed by another one. -/
inductive AttemptPhase (response : ℕ → Except String Unit) (event : StellarEvent)
    (consumer : WebhookConsumer) : ℕ → ℕ → State → Point → Prop
  | taken {posts steps : ℕ} {s : State} : Failed response posts →
      posts = 0 ∨ Retried event consumer → steps ≤ 4 * posts →
      AttemptPhase response event consumer posts steps s (.getConsumerById (.new event consumer))
  | attempt {posts steps : ℕ} {s : State} : Failed response posts →
      posts = 0 ∨ Retried event consumer → steps ≤ 4 * posts + 1 →
      AttemptPhase response event consumer posts steps s (.attemptDelivery (.new event consumer))
  | failing {posts steps : ℕ} {s : State} {error : String} : Failed response (posts + 1) →
      posts = 0 ∨ Retried event consumer → steps ≤ 4 * posts + 2 →
      AttemptPhase response event consumer (posts + 1) steps s
        (.recordFailure (.new event consumer) error false)
  | scheduled {posts steps due : ℕ} {s : State} : Failed response (posts + 1) →
      Retried event consumer → steps ≤ 4 * posts + 3 →
      AttemptPhase response event consumer (posts + 1) steps s
        (.scheduled (.new event consumer) due)
  | exhausted {steps : ℕ} {s : State} {error : String} : ¬ Retried event consumer → steps ≤ 3 →
      AttemptPhase response event consumer 1 steps s
        (.findEvent { Delivery.new event consumer with exhausted := true } .failed (some error) false)
  | saving {steps : ℕ} {s : State} {event' : StellarEvent} : ¬ Retried event consumer → steps ≤ 4 →
      event'.id = event.id → event'.deliveryStatus = .failed →
      consumer.id ∈ event'.failedDeliveries →
      AttemptPhase response event consumer 1 steps s
        (.saveEvent { Delivery.new event consumer with exhausted := true } .failed event')
  | failed {steps : ℕ} {s : State} {d : Option Delivery} : ¬ Retried event consumer → steps ≤ 5 →
      FailedFor s.events event consumer → AttemptPhase response event consumer 1 steps s (.finished d)
  | delivered {posts steps : ℕ} {s : State} {p : Point} : Failed response posts →
      response posts = .ok () → posts = 0 ∨ Retried event consumer → Delivering event.id p →
      AttemptPhase response event consumer (posts + 1) steps s p

theorem Failed.succ {error : String} (h : Failed response posts)
    (hlast : response posts = .error error) : Failed response (posts + 1) := by
  intro i hi
  rcases Nat.lt_succ_iff_lt_or_eq.mp hi with hi | rfl
  · exact h i hi
  · exact ⟨error, hlast⟩

/-- What a step of a delivery does. -/
theorem AttemptPhase.step (h : AttemptPhase response event consumer posts steps s p)
    (hin : p.inDelivery = true) (hstored : (s.events.findOne event.id).isSome)
    (hactive : input.consumer = some true) (hresponse : input.response = response posts)
    (hq : deliveries.resume now input p s = some (q, s')) :
    AttemptPhase response event consumer (posts + p.postCount) (steps + 1) s' q := by
  have hresume := hq
  simp only [deliveries] at hq
  cases h with
  | taken hfailed hretried hsteps =>
    simp only [Point.resume, hactive] at hq
    obtain ⟨rfl, rfl⟩ := Prod.mk.inj (Option.some.inj hq)
    exact .attempt hfailed hretried (by omega)
  | attempt hfailed hretried hsteps =>
    simp only [Point.resume, hresponse] at hq
    split at hq
    · rename_i _ hok
      obtain ⟨rfl, rfl⟩ := Prod.mk.inj (Option.some.inj hq)
      exact .delivered hfailed hok hretried (.findEvent rfl)
    · rename_i error herror
      obtain ⟨rfl, rfl⟩ := Prod.mk.inj (Option.some.inj hq)
      exact .failing (hfailed.succ herror) hretried (by omega)
  | @failing posts _ _ error hfailed hretried hsteps =>
    simp only [Point.resume, hactive] at hq
    split at hq <;> obtain ⟨rfl, rfl⟩ := Prod.mk.inj (Option.some.inj hq)
    · -- the first attempt is the only one that can be the last one
      rename_i hlast
      have hnot : ¬ Retried event consumer := Nat.not_lt.mpr hlast
      obtain rfl := hretried.resolve_right hnot
      exact .exhausted hnot (by omega)
    · rename_i hbelow
      exact .scheduled hfailed (Nat.lt_of_not_le hbelow) (by omega)
  | scheduled => cases hin
  | @exhausted _ _ error hnot hsteps =>
    obtain ⟨stored, hread⟩ := Option.isSome_iff_exists.mp hstored
    simp only [Point.resume, Delivery.new, hread] at hq
    obtain ⟨rfl, rfl⟩ := Prod.mk.inj (Option.some.inj hq)
    exact .saving hnot (by omega) (updateEventStatus_id.trans (s.events.keyed _ stored hread)) rfl
      (mem_addConsumer _ _)
  | @saving _ _ event' hnot hsteps hid hstatus hmem =>
    obtain ⟨rfl, rfl⟩ := Prod.mk.inj (Option.some.inj hq)
    refine .failed hnot (by omega) ⟨event', ?_, hstatus, hmem⟩
    show (s.events.save event').findOne event.id = some event'
    rw [EventRepository.findOne_save, if_pos hid.symm]
  | failed => cases hin
  | delivered hfailed hok hretried hdelivering =>
    obtain ⟨hcount, hdelivering'⟩ := hdelivering.step hstored hactive hresume
    rw [hcount]
    exact .delivered hfailed hok hretried hdelivering'

theorem Attempts.stored (h : Attempts response event consumer now posts steps s p) :
    (s.events.findOne event.id).isSome := by
  induction h with
  | taken hstored => exact hstored
  | others _ _ hkeeps ih => exact hkeeps _ ih
  | step _ _ _ _ _ hq ih => exact resume_keepsEvents hq _ ih
  | again _ _ _ hkeeps hq hkeeps' hq' ih =>
    exact resume_keepsEvents hq' _ (hkeeps' _ (resume_keepsEvents hq _ (hkeeps _ ih)))

theorem Attempts.phase (h : Attempts response event consumer now posts steps s p) :
    AttemptPhase response event consumer posts steps s p := by
  induction h with
  | taken _ => exact .taken (fun _ hi => absurd hi (Nat.not_lt_zero _)) (.inl rfl) (Nat.zero_le _)
  | others _ hin _ ih =>
    cases ih with
    | taken hfailed hretried hsteps => exact .taken hfailed hretried hsteps
    | attempt hfailed hretried hsteps => exact .attempt hfailed hretried hsteps
    | failing hfailed hretried hsteps => exact .failing hfailed hretried hsteps
    | scheduled | failed => cases hin
    | exhausted hnot hsteps => exact .exhausted hnot hsteps
    | saving hnot hsteps hid hstatus hmem => exact .saving hnot hsteps hid hstatus hmem
    | delivered hfailed hok hretried hdelivering =>
      exact .delivered hfailed hok hretried hdelivering
  | step hattempts hin _ hactive hresponse hq ih =>
    exact ih.step hin hattempts.stored hactive hresponse hq
  | again _ _ _ _ _ _ _ ih =>
    cases ih with
    | scheduled hfailed hretried hsteps => exact .taken hfailed (.inr hretried) (by omega)
    | delivered _ _ _ hdelivering => cases hdelivering

/-- All posts but the last one failed, and after the first one the retries go on for ever. -/
theorem AttemptPhase.spent (h : AttemptPhase response event consumer posts steps s p) :
    Failed response (posts - 1) ∧ (posts ≤ 1 ∨ Retried event consumer) := by
  cases h with
  | taken hfailed hretried _ | attempt hfailed hretried _ =>
    exact ⟨fun i hi => hfailed i (by omega), hretried.imp_left (by omega)⟩
  | failing hfailed hretried _ =>
    exact ⟨fun i hi => hfailed i (by omega), hretried.imp_left (by omega)⟩
  | scheduled hfailed hretried _ => exact ⟨fun i hi => hfailed i (by omega), .inr hretried⟩
  | exhausted | saving | failed =>
    exact ⟨fun i hi => absurd hi (Nat.not_lt_zero i), .inl (le_refl 1)⟩
  | delivered hfailed _ hretried _ => exact ⟨hfailed, hretried.imp_left (by omega)⟩

/-- Every point of a delivery leads on. -/
theorem resume_isSome (hin : p.inDelivery = true) :
    (deliveries.resume now input p s).isSome = true := by
  simp only [deliveries]
  cases p with
  | scheduled | finished => cases hin
  | recordFailure d errorMessage caught =>
    simp only [Point.resume]
    split
    · rfl
    · split <;> rfl
  | findProcessed d eventId =>
    simp only [Point.resume]
    split
    · split <;> rfl
    · rfl
  | saveProcessed d event => rfl
  | _ =>
    simp only [Point.resume]
    split <;> rfl

/-- As long as the attempts fail they go on, or have ended. -/
theorem AttemptPhase.ends (h : AttemptPhase response event consumer posts steps s p)
    (hfailed : Failed response posts) : steps ≤ 4 * posts + 1 ∧
      ((∃ t, ∀ t' input s, t ≤ t' → (deliveries.resume t' input p s).isSome = true) ∨
        (∃ d, p = .finished d) ∧ FailedFor s.events event consumer) := by
  cases h with
  | taken _ _ hsteps | attempt _ _ hsteps | failing _ _ hsteps | exhausted _ hsteps
  | saving _ hsteps => exact ⟨by omega, .inl ⟨0, fun _ _ _ _ => resume_isSome rfl⟩⟩
  | @scheduled _ _ due _ _ _ hsteps =>
    refine ⟨by omega, .inl ⟨due, fun t' input s ht => ?_⟩⟩
    simp only [deliveries, Point.resume, if_pos ht, Option.isSome_some]
  | @failed _ _ d _ hsteps hstored => exact ⟨by omega, .inr ⟨⟨d, rfl⟩, hstored⟩⟩
  | @delivered posts _ _ _ _ hok _ _ =>
    obtain ⟨error, herror⟩ := hfailed posts (Nat.lt_succ_self posts)
    rw [hok] at herror
    cases herror

/-! ## Attempts without end -/

/-- The delivery goes on at once, with the response that is next. -/
theorem Attempts.next (h : Attempts response event consumer now posts steps s p)
    (hin : p.inDelivery = true)
    (hq : deliveries.resume now ⟨some true, response posts, []⟩ p s = some (q, s')) :
    Attempts response event consumer now (posts + p.postCount) (steps + 1) s' q :=
  h.step hin le_rfl rfl rfl hq

/-- A failed attempt is followed by another one, with the queue as it was. -/
theorem Attempts.retried (h : Attempts response event consumer now posts steps ⟨events, []⟩
      (.getConsumerById (.new event consumer))) (hretried : Retried event consumer)
    {error : String} (herror : response posts = .error error) :
    ∃ now' steps', Attempts response event consumer now' (posts + 1) steps' ⟨events, []⟩
      (.getConsumerById (.new event consumer)) := by
  have hpost : deliveries.resume now ⟨some true, response posts, []⟩
      (.attemptDelivery (.new event consumer)) ⟨events, []⟩ =
      some (.recordFailure (.new event consumer) error false, ⟨events, []⟩) := by
    simp only [deliveries, Point.resume, herror]
  have hattempt := h.next rfl rfl
  have hfailing := hattempt.next rfl hpost
  have hscheduled := hfailing.next rfl (if_neg (Nat.not_le.mpr hretried))
  -- nothing else is in the queue, and the delay passes at once
  have hqueued : deliveries.resume (now + calculateBackoffDelay (event.deliveryAttempts + 1))
      ⟨some true, response posts, []⟩ (.scheduled (.new event consumer)
        (now + calculateBackoffDelay (event.deliveryAttempts + 1))) ⟨events, []⟩ =
      some (.finished (some (.new event consumer)), ⟨events, [(event, consumer)]⟩) :=
    if_pos le_rfl
  have htaken : deliveries.resume (now + calculateBackoffDelay (event.deliveryAttempts + 1))
      ⟨some true, response posts, []⟩ .processQueue ⟨events, [(event, consumer)]⟩ =
      some (.getConsumerById (.new event consumer), ⟨events, []⟩) := rfl
  exact ⟨_, _, hscheduled.again (Nat.le_add_right _ _) le_rfl (.refl _) hqueued (.refl _) htaken⟩

/-- Where a failed attempt is never the last one there are as many posts as fail, and another one.
-/
theorem exists_attempts (hretried : Retried event consumer) (hfailed : Failed response posts)
    (hstored : (events.findOne event.id).isSome) :
    ∃ now steps, Attempts response event consumer now posts steps ⟨events, []⟩
      (.getConsumerById (.new event consumer)) := by
  induction posts with
  | zero => exact ⟨0, 0, .taken hstored⟩
  | succ posts ih =>
    obtain ⟨now, steps, hattempts⟩ := ih fun i hi => hfailed i (Nat.lt_succ_of_lt hi)
    obtain ⟨error, herror⟩ := hfailed posts (Nat.lt_succ_self posts)
    exact hattempts.retried hretried herror

theorem exists_stored (event : StellarEvent) :
    ∃ events : EventRepository, events.findOne event.id = some event := by
  refine ⟨EventRepository.save ⟨∅, fun _ _ h => by simp at h⟩ event, ?_⟩
  rw [EventRepository.findOne_save, if_pos rfl]

/-- The posts exceed every number up to which all of them fail. -/
theorem exceeds (hretried : Retried event consumer) (hfailed : Failed response posts) :
    ∃ now steps s p, Attempts response event consumer now (posts + 1) steps s p := by
  obtain ⟨events, hread⟩ := exists_stored event
  obtain ⟨now, steps, hattempts⟩ := exists_attempts hretried hfailed
    (Option.isSome_iff_exists.mpr ⟨event, hread⟩)
  have hattempt := hattempts.next rfl rfl
  obtain ⟨⟨q, s'⟩, hq⟩ := Option.isSome_iff_exists.mp (resume_isSome
    (p := .attemptDelivery (.new event consumer)) rfl)
  exact ⟨now, _, s', q, hattempt.next rfl hq⟩

/-- **Bounded retries.** The retries of a delivery are bounded, and leave the event failed if they
all fail, exactly when the first attempt is to be the last one by the count of the event that was
queued, or one of as many attempts as there may be succeeds. -/
theorem retriesBounded_iff : RetriesBounded response event consumer ↔
    consumer.maxRetries ≤ event.deliveryAttempts + 1 ∨
      ∃ i < max 1 consumer.maxRetries, response i = .ok () := by
  constructor
  · intro hbounded
    by_contra hnot
    rw [not_or] at hnot
    obtain ⟨hbelow, hnone⟩ := hnot
    have hfailed : Failed response (max 1 consumer.maxRetries) := by
      intro i hi
      cases hresponse : response i with
      | ok => exact absurd ⟨i, hi, hresponse⟩ hnone
      | error error => exact ⟨error, rfl⟩
    obtain ⟨now, steps, s, p, hattempts⟩ := exceeds (Nat.lt_of_not_le hbelow) hfailed
    exact absurd (hbounded.posts_le _ _ _ _ _ hattempts) (Nat.not_succ_le_self _)
  · intro hcondition
    have hle : ∀ now posts steps s p, Attempts response event consumer now posts steps s p →
        posts ≤ max 1 consumer.maxRetries := by
      intro now posts steps s p hattempts
      obtain ⟨hfailed, hposts⟩ := hattempts.phase.spent
      rcases hcondition with hlast | ⟨i, hi, hok⟩
      · have hone : posts ≤ 1 := hposts.resolve_right (Nat.not_lt.mpr hlast)
        exact hone.trans (le_max_left _ _)
      · by_contra hmany
        obtain ⟨error, herror⟩ := hfailed i (by omega)
        rw [hok] at herror
        cases herror
    refine ⟨hle, fun now posts steps s p hattempts hfailed => ?_⟩
    obtain ⟨hsteps, hends⟩ := hattempts.phase.ends hfailed
    have hposts := hle _ _ _ _ _ hattempts
    exact ⟨by omega, hends⟩

/-- The consumer `c1` may be tried five times, and is tried a sixth time. -/
theorem retries_unbounded : ¬ ∀ response event consumer, RetriesBounded response event consumer := by
  intro hall
  have hfailed : Failed (fun _ => .error "timeout") 5 := fun _ _ => ⟨"timeout", rfl⟩
  have hretried : Retried sampleEvent ⟨"c1", 5⟩ := by
    unfold Retried
    decide
  obtain ⟨now, steps, s, p, hattempts⟩ := exceeds hretried hfailed
  have hle := (hall _ sampleEvent ⟨"c1", 5⟩).posts_le _ _ _ _ _ hattempts
  simp at hle

end Stellara.Monitor
