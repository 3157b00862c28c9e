import PennyCore.ContextEngine.Linking

/-!
# `POST /events`

`src/context_engine/api.py`: `postEvent` chooses the idempotency key, answers a key that is stored
from the store, and otherwise links the customer, builds the event and ingests it. It is a `Prog` over
`Stores`: every call of a repository or of the bus is one atomic step.

The quarantine buffer, which records rejected and suspicious requests for the operators and answers
nothing, is left out. An answer is a response with its status code (200 or 202) or an `ApiError`.
-/

namespace PennyCore

open Lib

structure EventResponse where
  statusCode : Nat
  eventId : String
  tenantId : String
  customerId : Option String
  customerCreated : Bool
  matchedIdentity : Option (String × Option String)
  channelCode : String
  eventType : String
  idempotencyKey : String
  receivedAt : Time
  created : Bool
  deduped : Bool
  deriving DecidableEq, Repr

/-- The value of a header. It is decoded as Latin-1, so it has no surrogate. -/
abbrev HeaderText : Type := { s : String // WellFormed s }

/-- `x_idempotency_key or request.idempotency_key`, with the two checks; an empty header counts as
none, and a body key is never empty. -/
def chooseKey (xIdempotencyKey : Option HeaderText) (request : IngestionRequest) :
    Except ApiError String :=
  match (xIdempotencyKey.map Subtype.val).filter (· ≠ ""), request.idempotencyKey with
  | none, none => .error .missingKey
  | none, some body => .ok body.1
  | some header, none => .ok header
  | some header, some body =>
    if header ≠ body.1 then .error (.keyMismatch header body.1) else .ok header

/-- The answer to a replay that the first lookup finds. -/
def replayResponse (existing : Event) : EventResponse where
  statusCode := 200
  eventId := existing.id
  tenantId := existing.tenantId.1
  customerId := existing.customerId
  customerCreated := false
  matchedIdentity := none
  channelCode := existing.channelCode.value
  eventType := existing.eventType.value
  idempotencyKey := existing.idempotencyKey.1
  receivedAt := existing.receivedAt
  created := false
  deduped := true

/-- The answer after an upsert. -/
def ingestResponse (link : LinkingOutcome) (result : IngestionResult) : EventResponse where
  statusCode := if result.created then 202 else 200
  eventId := result.event.id
  tenantId := result.event.tenantId.1
  customerId := result.event.customerId
  customerCreated := if result.created then link.customerCreated else false
  matchedIdentity := match link.matchedKind with
    | some kind => if result.created then some (kind.value, link.matchedValue) else none
    | none => none
  channelCode := result.event.channelCode.value
  eventType := result.event.eventType.value
  idempotencyKey := result.event.idempotencyKey.1
  receivedAt := result.event.receivedAt
  created := result.created
  deduped := !result.created

/-- What becomes of an exception of the linker. -/
def linkError (e : LinkingError) : ApiError := if e.IsLookup then .notFound e else .linking e

/-- The linker on the customer store of `Stores`. -/
def linkCustomer (rt : Runtime) (request : IngestionRequest) : Prog ApiError Stores LinkingOutcome :=
  Prog.zoom linkError Stores.customers (fun customers s => { s with customers })
    (resolveCustomer rt request)

def postEvent (rt : Runtime) (env : RequestEnv) (xIdempotencyKey : Option HeaderText)
    (request : IngestionRequest) : Prog ApiError Stores EventResponse :=
  match chooseKey xIdempotencyKey request with
  | .error e => Prog.raise e
  | .ok idem => do
    let existing ← Prog.atom (Stores.lookup request.tenantId.1 idem)
    match existing with
    | some event => return replayResponse event
    | none => do
      let link ← linkCustomer rt request
      match buildEventFromRequest env request idem (some link.customerId) with
      | .error e => Prog.raise (.validation e)
      | .ok event => do
        let result ← ingestEvent event
        return ingestResponse link result

/-! ## Its steps -/

section Steps

variable {rt : Runtime} {env : RequestEnv} {header : Option HeaderText} {request : IngestionRequest}
  {idem : String} {customerId : String}

/-- A chosen key is not empty, and has no lone surrogate. -/
theorem chooseKey_text (h : chooseKey header request = .ok idem) :
    1 ≤ idem.length ∧ WellFormed idem := by
  have hheader : ∀ x ∈ (header.map Subtype.val).filter (· ≠ ""), 1 ≤ x.length ∧ WellFormed x := by
    intro x hx
    obtain ⟨hmem, hne⟩ := Option.mem_filter_iff.mp hx
    obtain ⟨text, -, rfl⟩ := Option.map_eq_some_iff.mp hmem
    refine ⟨?_, text.2⟩
    rw [Nat.one_le_iff_ne_zero, ne_eq, String.length_eq_zero_iff]
    simpa using hne
  unfold chooseKey at h
  split at h
  · cases h
  · rename_i body _ _
    cases h
    exact ⟨body.2.1, body.2.2.2⟩
  · rename_i hx _
    cases h
    exact hheader _ hx
  · rename_i hx _
    split at h
    · cases h
    · cases h
      exact hheader _ hx

/-- The event of a request, if its key passes the event contract. -/
def eventOf (env : RequestEnv) (request : IngestionRequest) (idem : Str 1 128)
    (customerId : String) : Event where
  id := env.newEventId
  tenantId := request.tenantId
  customerId := some customerId
  channelCode := request.channelCode
  eventType := request.eventType
  idempotencyKey := idem
  payload := request.payload
  receivedAt := env.now

theorem buildEvent_ok (env : RequestEnv) (request : IngestionRequest) (customerId : String)
    (h : 1 ≤ idem.length ∧ UpTo 128 idem) :
    buildEventFromRequest env request idem (some customerId) =
      .ok (eventOf env request ⟨idem, h⟩ customerId) := by
  unfold buildEventFromRequest
  rw [Str.check_ok h]
  rfl

theorem buildEvent_error (env : RequestEnv) (request : IngestionRequest) (customerId : String)
    (h : ¬ idem.length ≤ 128) :
    ∃ e, buildEventFromRequest env request idem (some customerId) = .error e := by
  unfold buildEventFromRequest
  rw [Str.check_error fun hl => h hl.2.1]
  exact ⟨_, rfl⟩

/-- What `postEvent` does for a new key after the lookup. -/
def linkAndIngest (rt : Runtime) (env : RequestEnv) (request : IngestionRequest) (idem : String) :
    Prog ApiError Stores EventResponse := do
  let link ← linkCustomer rt request
  match buildEventFromRequest env request idem (some link.customerId) with
  | .error e => Prog.raise (.validation e)
  | .ok event => do
    let result ← ingestEvent event
    return ingestResponse link result

/-- A request starts with its lookup. -/
theorem postEvent_lookup (rt : Runtime) (env : RequestEnv) (hk : chooseKey header request = .ok idem) :
    ∃ f, postEvent rt env header request =
        Prog.atom (Stores.lookup request.tenantId.1 idem) >>= f ∧
      (∀ event, f (some event) = pure (replayResponse event)) ∧
      f none = linkAndIngest rt env request idem := by
  unfold postEvent
  simp only [hk]
  exact ⟨_, rfl, fun _ => rfl, rfl⟩

/-- A request among other threads: what it does when its key is refused, is stored, or is new. -/
theorem post_rule {ι : Type} {P : Protocol ι Stores} {i : ι}
    {Q : Except ApiError EventResponse → Stores → Prop} {s : Stores} (hstill : ∀ t, P.guar i t t)
    (hrefused : ∀ e, chooseKey header request = .error e → Safe P i Q (.done (.error e)) s)
    (hreplay : ∀ idem t event, chooseKey header request = .ok idem → P.rely i s t → P.inv t →
      t.eventAt request.tenantId.1 idem = some event →
      Safe P i Q (.done (.ok (replayResponse event))) t)
    (hnew : ∀ idem t, chooseKey header request = .ok idem → P.rely i s t → P.inv t →
      t.eventAt request.tenantId.1 idem = none → Safe P i Q (linkAndIngest rt env request idem) t) :
    Safe P i Q (postEvent rt env header request) s := by
  cases hk : chooseKey header request with
  | error e =>
    unfold postEvent
    rw [hk]
    exact hrefused e hk
  | ok idem =>
    obtain ⟨f, hpost, hsome, hnone⟩ := postEvent_lookup rt env hk
    rw [hpost]
    refine Safe.atom_bind fun t ht hit => ⟨hit, hstill t, ?_⟩
    show Safe P i Q (f (t.eventAt request.tenantId.1 idem)) t
    cases hat : t.eventAt request.tenantId.1 idem with
    | some event =>
      rw [hsome]
      exact hreplay idem t event hk ht hit hat
    | none =>
      rw [hnone]
      exact hnew idem t hk ht hit hat

end Steps
end PennyCore
