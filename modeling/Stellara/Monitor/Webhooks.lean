import Stellara.Lib.Store
import Stellara.Lib.Tasks

/-!
# Webhook deliveries

The monitor stores an event and queues it for every active consumer. A delivery posts the event to
the consumer and then records the outcome in the event: it loads the record, changes it, and saves
it as a whole, and other deliveries of the event do the same at the same time. A delivery that
failed is queued again after a delay, until its attempts are used up.

The consumers, and what they answer, come from outside.

## Main definitions

* `StellarEvent`, `WebhookConsumer`, `Delivery`: the records, and a delivery of one to the other
* `updateEventStatus`: what the outcome of a delivery changes of an event
* `Point.resume`, `deliveries`: the deliveries and the queue, one access to the records after the
  other

## Main results

* `EventRepository.findOne_save`: reading a table after a save
-/

namespace Stellara.Monitor

inductive DeliveryStatus where
  | pending
  | delivered
  | failed
  | retrying
deriving DecidableEq, Repr

/-- The part of the record of an event that deliveries read and write. -/
structure StellarEvent where
  id : String
  deliveryStatus : DeliveryStatus
  deliveryAttempts : ℕ
  lastAttemptAt : Option ℕ
  deliveredAt : Option ℕ
  deliveredTo : List String
  failedDeliveries : List String
  errorMessage : Option String
  isProcessed : Bool
deriving DecidableEq, Repr

structure WebhookConsumer where
  id : String
  maxRetries : ℕ
deriving DecidableEq, Repr

/-- The table of the events, by their ids. -/
structure EventRepository where
  rows : Store String StellarEvent
  keyed : ∀ eventId event, rows.lookup eventId = some event → event.id = eventId

namespace EventRepository

def findOne (events : EventRepository) (eventId : String) : Option StellarEvent :=
  events.rows.lookup eventId

def save (events : EventRepository) (event : StellarEvent) : EventRepository where
  rows := events.rows.insert event.id event
  keyed eventId event' hread := by
    rcases Store.eq_or_lookup_of_insert hread with ⟨rfl, rfl⟩ | ⟨-, hold⟩
    · rfl
    · exact events.keyed eventId event' hold

theorem findOne_save (events : EventRepository) (event : StellarEvent) (eventId : String) :
    (events.save event).findOne eventId =
      if eventId = event.id then some event else events.findOne eventId :=
  Store.lookup_insert_ite ..

end EventRepository

structure State where
  events : EventRepository
  deliveryQueue : List (StellarEvent × WebhookConsumer)

/-- What a delivery holds: the event and the consumer as they were queued, whether the post
succeeded, and whether the retries are exhausted. -/
structure Delivery where
  event : StellarEvent
  consumer : WebhookConsumer
  posted : Bool
  exhausted : Bool
deriving DecidableEq, Repr

/-- What comes from outside: whether the consumer is stored, and is active; what it answers to a
post; and the active consumers. The statistics of a consumer are outside too: it is suspended when
they count more than ten failures, and from then on it is stored and not active. -/
structure Input where
  consumer : Option Bool
  response : Except String Unit
  activeConsumers : List WebhookConsumer

/-! ## The record of an event -/

def addConsumer (consumerId : String) (consumers : List String) : List String :=
  if consumerId ∈ consumers then consumers else consumers ++ [consumerId]

/-- The change of the record by `updateEventStatus`. An empty error message is not stored. -/
def updateEventStatus (now : ℕ) (status : DeliveryStatus) (consumerId : String)
    (errorMessage : Option String) (event : StellarEvent) : StellarEvent :=
  let event := { event with
    deliveryStatus := status
    deliveryAttempts := event.deliveryAttempts + 1
    lastAttemptAt := some now
    errorMessage := (errorMessage.filter (· ≠ "")).orElse fun _ => event.errorMessage }
  match status with
  | .delivered =>
    { event with deliveredAt := some now, deliveredTo := addConsumer consumerId event.deliveredTo }
  | .failed => { event with failedDeliveries := addConsumer consumerId event.failedDeliveries }
  | _ => event

/-- The delay before a delivery is queued again, in milliseconds. -/
def calculateBackoffDelay (attempt : ℕ) : ℕ := min (1000 * 2 ^ (attempt - 1)) 300000

def eventNotFound (eventId : String) : String := s!"Event {eventId} not found"

def consumerNotFound (consumerId : String) : String := s!"Consumer with ID {consumerId} not found"

/-! ## Deliveries -/

/-- What a task is about to do. The flag `caught` says that the delivery is in the handler of an
exception, so that the next one ends it. -/
inductive Point where
  | queueEventForDelivery (event : StellarEvent)
  /-- A place of the batch that the queue is processed in. -/
  | processQueue
  /-- `deliverEventToConsumer`, from its start. -/
  | getConsumerById (d : Delivery)
  | attemptDelivery (d : Delivery)
  | findEvent (d : Delivery) (status : DeliveryStatus) (errorMessage : Option String)
      (caught : Bool)
  /-- The record was loaded and changed. -/
  | saveEvent (d : Delivery) (status : DeliveryStatus) (event : StellarEvent)
  | recordSuccess (d : Delivery)
  | getActiveConsumers (d : Delivery)
  | recordFailure (d : Delivery) (errorMessage : String) (caught : Bool)
  /-- `markEventAsProcessed`, from its start, for a delivery or for an event without consumers. -/
  | findProcessed (d : Option Delivery) (eventId : String)
  | saveProcessed (d : Option Delivery) (event : StellarEvent)
  /-- The delivery has ended, and is queued again from a time on. -/
  | scheduled (d : Delivery) (due : ℕ)
  | finished (d : Option Delivery)
deriving DecidableEq, Repr

/-- An exception: the first one counts as a failed delivery, the next one ends it. -/
def Delivery.throw (d : Delivery) (errorMessage : String) (caught : Bool) : Point :=
  if caught then .finished (some d) else .recordFailure d errorMessage true

def Point.resume (now : ℕ) (input : Input) (s : State) : Point → Option (Point × State)
  | .queueEventForDelivery event =>
    if input.activeConsumers = [] then some (.findProcessed none event.id, s)
    else some (.finished none, { s with
      deliveryQueue := s.deliveryQueue ++ input.activeConsumers.map fun consumer =>
        (event, consumer) })
  | .processQueue =>
    match s.deliveryQueue with
    | [] => some (.finished none, s)
    | (event, consumer) :: rest =>
      some (.getConsumerById ⟨event, consumer, false, false⟩, { s with deliveryQueue := rest })
  | .getConsumerById d =>
    match input.consumer with
    | none => some (d.throw (consumerNotFound d.consumer.id) false, s)
    | some false => some (.finished (some d), s)
    | some true => some (.attemptDelivery d, s)
  | .attemptDelivery d =>
    match input.response with
    | .ok _ => some (.findEvent { d with posted := true } .delivered none false, s)
    | .error errorMessage => some (.recordFailure d errorMessage false, s)
  | .findEvent d status errorMessage caught =>
    match s.events.findOne d.event.id with
    | none => some (d.throw (eventNotFound d.event.id) caught, s)
    | some event =>
      some (.saveEvent d status (updateEventStatus now status d.consumer.id errorMessage event), s)
  | .saveEvent d status event =>
    let s' := { s with events := s.events.save event }
    if status = .delivered then some (.recordSuccess d, s') else some (.finished (some d), s')
  | .recordSuccess d =>
    match input.consumer with
    | none => some (d.throw (consumerNotFound d.consumer.id) false, s)
    | some _ => some (.getActiveConsumers d, s)
  | .getActiveConsumers d =>
    if d.event.deliveredTo.length + 1 ≥ input.activeConsumers.length then
      some (.findProcessed (some d) d.event.id, s)
    else some (.finished (some d), s)
  | .recordFailure d errorMessage caught =>
    match input.consumer with
    | none => some (d.throw (consumerNotFound d.consumer.id) caught, s)
    | some _ =>
      let attemptNumber := d.event.deliveryAttempts + 1
      if attemptNumber ≥ d.consumer.maxRetries then
        some (.findEvent { d with exhausted := true } .failed (some errorMessage) caught, s)
      else some (.scheduled d (now + calculateBackoffDelay attemptNumber), s)
  | .findProcessed d eventId =>
    match s.events.findOne eventId with
    | none =>
      match d with
      | some d => some (d.throw (eventNotFound eventId) false, s)
      | none => some (.finished none, s)
    | some event => some (.saveProcessed d { event with isProcessed := true }, s)
  | .saveProcessed d event =>
    some (.finished d, { s with events := s.events.save event })
  | .scheduled d due =>
    if due ≤ now then
      some (.finished (some d),
        { s with deliveryQueue := s.deliveryQueue ++ [(d.event, d.consumer)] })
    else none
  | .finished _ => none

/-- An event is queued as it was stored, and any number of tasks take deliveries from the queue. -/
def deliveries : Async State Point Input where
  starts s
    | .queueEventForDelivery event => s.events.findOne event.id = some event
    | .processQueue => true
    | _ => false
  resume now input p s := p.resume now input s

end Stellara.Monitor
