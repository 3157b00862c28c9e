import PennyCore.ContextEngine.CustomerRepository
import PennyCore.Lib.Prog

/-!
# Event store, bus and ingestion

`src/context_engine/repository.py`, `event_bus.py` and `ingestion.py`: the event repository with its
idempotent upsert, the bus, and `ingest_event`, which stores an event and announces it if it is new.

* `Stores` is what the handlers of `POST /events` share. Its parts are separate objects, each call
  on one of them is atomic. `upserts` is the record of the upserted events; the code has no such
  field.
* A handler is a `Prog` over `Stores`.
* `Indexed`: the key index of the event repository has no dangling entry. `upsert_known` and
  `upsert_new` say what an upsert then does.
-/

namespace PennyCore

open Lib

/-! ## The event repository -/

/-- `KeyError` of a missing event. -/
structure MissingEvent where
  tenantId : String
  eventId : String
  deriving DecidableEq, Repr

structure InMemoryEventRepository where
  byId : Dict (String × String) Event := ∅
  byIdem : Dict (String × String) String := ∅

namespace InMemoryEventRepository

def upsertEvent (event : Event) : Py MissingEvent InMemoryEventRepository (Event × Bool) := do
  let s ← Py.get
  let idemKey := (event.tenantId.1, event.idempotencyKey.1)
  match s.byIdem.get? idemKey with
  | some existingEventId =>
    match s.byId.get? (event.tenantId.1, existingEventId) with
    | some stored => return (stored, false)
    | none => Py.raise ⟨event.tenantId.1, existingEventId⟩
  | none => do
    Py.modify fun s => {
      byId := s.byId.set (event.tenantId.1, event.id) event
      byIdem := s.byIdem.set idemKey event.id }
    return (event, true)

def getEventByIdempotency (s : InMemoryEventRepository) (tenantId idempotencyKey : String) :
    Option Event :=
  match s.byIdem.get? (tenantId, idempotencyKey) with
  | none => none
  | some eventId => s.byId.get? (tenantId, eventId)

end InMemoryEventRepository

/-! ## The bus -/

def EVENT_CHANNEL_PREFIX : String := "events"

def channelFor (tenantId : String) : String := s!"{EVENT_CHANNEL_PREFIX}.{tenantId}"

/-- The wire payload. -/
structure Envelope where
  eventId : String
  tenantId : String
  customerId : Option String
  channelCode : String
  eventType : String
  receivedAt : Time
  deriving DecidableEq, Repr

def envelopeFor (event : Event) : Envelope where
  eventId := event.id
  tenantId := event.tenantId.1
  customerId := event.customerId
  channelCode := event.channelCode.value
  eventType := event.eventType.value
  receivedAt := event.receivedAt

structure InMemoryEventBus where
  published : List (String × Envelope) := []

/-- `publish`: a subscriber's exception does not reach the publisher. -/
def InMemoryEventBus.publish (bus : InMemoryEventBus) (channel : String) (payload : Envelope) :
    InMemoryEventBus where
  published := bus.published ++ [(channel, payload)]

/-- What is published for an event. -/
def announcement (event : Event) : String × Envelope := (channelFor event.tenantId.1, envelopeFor event)

/-! ## What the handlers share -/

structure Stores where
  events : InMemoryEventRepository := {}
  customers : InMemoryCustomerRepository := {}
  bus : InMemoryEventBus := {}
  upserts : List Event := []

/-- What a handler of `POST /events` raises, with the status code that the client sees. -/
inductive ApiError where
  /-- 400: no idempotency key. -/
  | missingKey
  /-- 400: header and body disagree. -/
  | keyMismatch (header body : String)
  /-- 404: a `LookupError` of the linker. -/
  | notFound (e : LinkingError)
  /-- 500: any other exception of the linker. -/
  | linking (e : LinkingError)
  /-- 500: the event contract. -/
  | validation (e : ValidationError)
  /-- 500: the event store. -/
  | store (e : MissingEvent)
  deriving DecidableEq, Repr

namespace Stores

/-- The stored event of a key. -/
def eventAt (s : Stores) (tenantId idempotencyKey : String) : Option Event :=
  s.events.getEventByIdempotency tenantId idempotencyKey

/-- One upsert, and its record. -/
def upsert (event : Event) : Py ApiError Stores (Event × Bool) := do
  Py.modify fun s => { s with upserts := s.upserts ++ [event] }
  Py.zoom .store Stores.events (fun es s => { s with events := es })
    (InMemoryEventRepository.upsertEvent event)

def publish (channel : String) (payload : Envelope) : Py ApiError Stores Unit :=
  Py.modify fun s => { s with bus := s.bus.publish channel payload }

def lookup (tenantId idempotencyKey : String) : Py ApiError Stores (Option Event) :=
  return (← Py.get).eventAt tenantId idempotencyKey

end Stores

/-! ## Ingestion -/

structure IngestionRequest where
  tenantId : Str 1 64
  customerId : Option (Str 0 64)
  channelCode : ChannelType
  eventType : EventType
  idempotencyKey : Option (Str 1 128)
  payload : Payload

structure IngestionResult where
  event : Event
  created : Bool

/-- What a request takes from outside: the digits of its event id and the clock. -/
structure RequestEnv where
  hex : String
  now : Time

/-- `new_event_id`. -/
def RequestEnv.newEventId (env : RequestEnv) : String := "evt_" ++ env.hex

def buildEventFromRequest (env : RequestEnv) (request : IngestionRequest) (idempotencyKey : String)
    (customerId : Option String) : Except ValidationError Event := do
  let idempotencyKey ← Str.check 1 128 "Event" "idempotency_key" idempotencyKey
  return {
    id := env.newEventId
    tenantId := request.tenantId
    customerId := match customerId with
      | some c => some c
      | none => request.customerId.map Subtype.val
    channelCode := request.channelCode
    eventType := request.eventType
    idempotencyKey
    payload := request.payload
    receivedAt := env.now }

def ingestEvent (event : Event) : Prog ApiError Stores IngestionResult := do
  let (stored, created) ← Prog.atom (Stores.upsert event)
  if created then
    Prog.atom (Stores.publish (channelFor stored.tenantId.1) (envelopeFor stored))
  return { event := stored, created }

/-! ## Upserts -/

namespace Stores

/-- The key under which an event is stored. -/
abbrev keyOf (event : Event) : String × String := (event.tenantId.1, event.idempotencyKey.1)

/-- The upsert of a new key. -/
def insertEvent (s : Stores) (event : Event) : Stores :=
  { s with
    events := {
      byId := s.events.byId.set (event.tenantId.1, event.id) event
      byIdem := s.events.byIdem.set (keyOf event) event.id }
    upserts := s.upserts ++ [event] }

/-- The upsert of a key that is stored. -/
def replayEvent (s : Stores) (event : Event) : Stores := { s with upserts := s.upserts ++ [event] }

/-- Every key of the index has its event. -/
def Indexed (s : Stores) : Prop :=
  ∀ t k id, s.events.byIdem.get? (t, k) = some id → ∃ e, s.events.byId.get? (t, id) = some e

theorem Indexed.empty : Indexed {} := fun _ _ _ h => nomatch h

theorem Indexed.insertEvent {s : Stores} (hs : Indexed s) (event : Event) :
    Indexed (s.insertEvent event) := by
  intro t k id hid
  change (s.events.byIdem.set (keyOf event) event.id).get? (t, k) = some id at hid
  show ∃ e, (s.events.byId.set (event.tenantId.1, event.id) event).get? (t, id) = some e
  rw [Dict.get?_set] at hid
  rw [Dict.get?_set]
  split at hid
  · rename_i heq
    have ht : t = event.tenantId.1 := congrArg Prod.fst heq
    rw [if_pos (by rw [ht, Option.some.inj hid])]
    exact ⟨event, rfl⟩
  · split
    · exact ⟨event, rfl⟩
    · exact hs t k id hid

theorem eventAt_some {s : Stores} {t k : String} {e : Event} :
    s.eventAt t k = some e ↔
      ∃ id, s.events.byIdem.get? (t, k) = some id ∧ s.events.byId.get? (t, id) = some e := by
  unfold eventAt InMemoryEventRepository.getEventByIdempotency
  cases s.events.byIdem.get? (t, k) with
  | none => simp
  | some id => simp

theorem Indexed.eventAt_none {s : Stores} (hs : Indexed s) {t k : String} :
    s.eventAt t k = none ↔ s.events.byIdem.get? (t, k) = none := by
  unfold eventAt InMemoryEventRepository.getEventByIdempotency
  cases hid : s.events.byIdem.get? (t, k) with
  | none => simp
  | some id =>
    obtain ⟨e, he⟩ := hs t k id hid
    simp [he]

theorem upsert_known {s : Stores} {event stored : Event}
    (hat : s.eventAt event.tenantId.1 event.idempotencyKey.1 = some stored) :
    (upsert event).run s = (.ok (stored, false), s.replayEvent event) := by
  obtain ⟨id, hid, he⟩ := eventAt_some.mp hat
  unfold upsert
  rw [Py.run_bind_ok (Py.run_modify _ s), Py.run_zoom]
  unfold InMemoryEventRepository.upsertEvent
  rw [Py.run_bind_ok (Py.run_get _)]
  simp only [hid, he]
  rfl

theorem upsert_new {s : Stores} (hs : Indexed s) {event : Event}
    (hat : s.eventAt event.tenantId.1 event.idempotencyKey.1 = none) :
    (upsert event).run s = (.ok (event, true), s.insertEvent event) := by
  unfold upsert
  rw [Py.run_bind_ok (Py.run_modify _ s), Py.run_zoom]
  unfold InMemoryEventRepository.upsertEvent
  rw [Py.run_bind_ok (Py.run_get _)]
  simp only [hs.eventAt_none.mp hat]
  rfl

end Stores
end PennyCore
