import PennyCore.ContextEngine.ApiAtomicity
import PennyCore.ContextEngine.InjectionFlags
import PennyCore.Lib.Recorder

/-!
# The quarantine buffer

`src/context_engine/quarantine.py`, and the whole of `post_event` of `src/context_engine/api.py`: what
cannot be ingested, or looks like an injection, is put on record for the operators of its tenant.

* `QuarantineBuffer` and its methods. The capacity is positive by construction.
* `QuarantineApi.postEvent` is `post_event` with its quarantine calls; `InvalidPost.answer` is the
  handler of a body that the request contract refuses.
* `postTickets`: what a request records, as a function of the request and its answer
  (`postEvent_records`). So the record never changes an answer or a store, unless
  `model_dump(mode="json")` raises on the request (`QuarantineRuntime.modelDump`).
-/

namespace PennyCore

open Lib

/-! ## The buffer -/

inductive QuarantineReason where
  | validationFailed | missingIdempotencyKey | idempotencyKeyMismatch | unknownCustomer
  | oversizedPayload | injectionSuspected | other
  deriving DecidableEq, Repr

def QuarantineReason.value : QuarantineReason → String
  | .validationFailed => "validation_failed"
  | .missingIdempotencyKey => "missing_idempotency_key"
  | .idempotencyKeyMismatch => "idempotency_key_mismatch"
  | .unknownCustomer => "unknown_customer"
  | .oversizedPayload => "oversized_payload"
  | .injectionSuspected => "injection_suspected"
  | .other => "other"

/-- The arguments of a `quarantine` call. A dictionary that is not given counts as an empty one. -/
structure QuarantineTicket where
  tenantId : String
  reason : QuarantineReason
  detail : String
  rawPayload : Payload := ∅
  context : Payload := ∅

structure QuarantinedEvent where
  id : String
  tenantId : String
  reason : QuarantineReason
  detail : String
  rawPayload : Payload
  quarantinedAt : Time
  context : Payload

/-- What was quarantined, without its stamps. -/
def QuarantinedEvent.ticket (e : QuarantinedEvent) : QuarantineTicket :=
  ⟨e.tenantId, e.reason, e.detail, e.rawPayload, e.context⟩

structure QuarantineBuffer where
  max : { n : Nat // 0 < n }
  byTenant : Dict String (List QuarantinedEvent) := ∅
  /-- The ids drawn so far. -/
  drawn : Nat := 0

/-- What the API takes from outside: `hex` and `clock` stamp the n-th quarantined event, `repr` and
`str` are those of Python, and `modelDump` is `model_dump(mode="json")`, where it does not raise. -/
structure QuarantineRuntime extends Runtime where
  words : WordData
  quarantineHex : Nat → String
  clock : Nat → Time
  repr : String → String
  str : PyVal → String
  modelDump : IngestionRequest → Option Payload

namespace QuarantineBuffer

def new (maxPerTenant : Int) : Except ValueError QuarantineBuffer :=
  if h : maxPerTenant ≤ 0 then
    .error ⟨s!"max_per_tenant must be positive, got {maxPerTenant}"⟩
  else .ok { max := ⟨maxPerTenant.toNat, Fifo.capacity_pos h⟩ }

/-- `_new_quarantine_id`. -/
def newQuarantineId (hex : String) : String := "q_" ++ String.ofList (hex.toList.take 24)

def quarantine (rt : QuarantineRuntime) (x : QuarantineTicket) :
    Py ValueError QuarantineBuffer QuarantinedEvent := do
  if x.tenantId = "" then
    Py.raise ⟨"tenant_id required (use a sentinel if unknown)"⟩
  else do
    let b ← Py.get
    let entry : QuarantinedEvent := {
      id := newQuarantineId (rt.quarantineHex b.drawn)
      tenantId := x.tenantId, reason := x.reason, detail := x.detail, rawPayload := x.rawPayload
      quarantinedAt := rt.clock b.drawn, context := x.context }
    Py.modify fun b => { b with
      byTenant := Ring.push b.max b.byTenant x.tenantId entry, drawn := b.drawn + 1 }
    return entry

def recent (b : QuarantineBuffer) (tenantId : String) (limit : Int) : List QuarantinedEvent :=
  if limit ≤ 0 then [] else Fifo.newest limit.toNat (b.byTenant.getList tenantId)

def count (b : QuarantineBuffer) (tenantId : String) : Nat := (b.byTenant.getList tenantId).length

/-- The buffer holds the newest events of each tenant, of all that was quarantined. -/
def Holds (b : QuarantineBuffer) (log : List QuarantineTicket) : Prop :=
  ∃ entries : List QuarantinedEvent, entries.map QuarantinedEvent.ticket = log ∧
    Ring.Feed b.max b.byTenant (entries.map fun e => (e.tenantId, e))

section Lemmas

variable {b : QuarantineBuffer} {log : List QuarantineTicket}

theorem quarantine_run (rt : QuarantineRuntime) (b : QuarantineBuffer) {x : QuarantineTicket}
    (hx : x.tenantId ≠ "") : ∃ entry : QuarantinedEvent, entry.ticket = x ∧
      (quarantine rt x).run b = (.ok entry, { b with
        byTenant := Ring.push b.max b.byTenant x.tenantId entry, drawn := b.drawn + 1 }) := by
  unfold quarantine
  rw [if_neg hx]
  exact ⟨_, rfl, rfl⟩

theorem Holds.empty (max : { n : Nat // 0 < n }) (n : Nat) :
    Holds { max, byTenant := ∅, drawn := n } [] := ⟨[], rfl, Ring.Feed.empty _⟩

theorem Holds.quarantine (h : b.Holds log) (rt : QuarantineRuntime) {x : QuarantineTicket}
    (hx : x.tenantId ≠ "") :
    ((QuarantineBuffer.quarantine rt x).run b).2.Holds (log ++ [x]) := by
  obtain ⟨entry, hentry, hrun⟩ := quarantine_run rt b hx
  obtain ⟨entries, rfl, hfeed⟩ := h
  rw [hrun]
  refine ⟨entries ++ [entry], by simp [hentry], ?_⟩
  have htenant : entry.tenantId = x.tenantId := congrArg QuarantineTicket.tenantId hentry
  rw [List.map_append, List.map_singleton, htenant]
  exact hfeed.push x.tenantId entry

/-- The newest of a tenant's events, newest first, and of nobody else's. -/
theorem Holds.recent (h : b.Holds log) (t : String) (limit : Int) :
    (b.recent t limit).map QuarantinedEvent.ticket =
      ((log.filter fun x => x.tenantId = t).reverse).take (min limit.toNat b.max) := by
  obtain ⟨entries, rfl, hfeed⟩ := h
  have hsent : Ring.sent t (entries.map fun e => (e.tenantId, e)) =
      entries.filter fun e => e.tenantId = t := by
    unfold Ring.sent
    rw [List.filterMap_map, ← List.filterMap_eq_filter]
    refine List.filterMap_congr fun e _ => ?_
    by_cases he : e.tenantId = t <;> simp [Option.guard, he]
  have hfilter : (entries.map QuarantinedEvent.ticket).filter (fun x => x.tenantId = t) =
      (entries.filter fun e => e.tenantId = t).map QuarantinedEvent.ticket := by
    rw [List.filter_map]
    rfl
  unfold QuarantineBuffer.recent
  rw [hfilter, ← List.map_reverse, ← List.map_take]
  split
  · next hl => rw [Int.toNat_of_nonpos hl, Nat.zero_min, List.take_zero]
  · rw [hfeed.newest, hsent]

end Lemmas
end QuarantineBuffer

/-! ## What is recorded -/

mutual

/-- `_walk` of `_payload_strings`. -/
def PyVal.strings : PyVal → List String
  | .str s => [s]
  | .dict items => dictStrings items
  | .list items => listStrings items
  | _ => []

def listStrings : List PyVal → List String
  | [] => []
  | v :: vs => v.strings ++ listStrings vs

def dictStrings : List (PyVal × PyVal) → List String
  | [] => []
  | (_, v) :: items => v.strings ++ dictStrings items

end

def payloadStrings (payload : Payload) : List String := payload.entries.flatMap fun e => e.2.strings

def hasInjectionMarkers (W : WordData) (values : List String) : Bool :=
  values.any fun value => value != "" && !(detectFlags W value).isEmpty

namespace QuarantineApi

section Tickets

variable (rt : QuarantineRuntime) (request : IngestionRequest) (raw : Payload)

def missingKeyTicket : QuarantineTicket where
  tenantId := request.tenantId.1
  reason := .missingIdempotencyKey
  detail := "POST /events with neither X-Idempotency-Key nor body idempotency_key"
  rawPayload := raw

def mismatchTicket (header body : String) : QuarantineTicket where
  tenantId := request.tenantId.1
  reason := .idempotencyKeyMismatch
  detail := s!"X-Idempotency-Key={rt.repr header} disagrees with " ++
    s!"body idempotency_key={rt.repr body}"
  rawPayload := raw
  context := .of [("header_key", .str header), ("body_key", .str body)]

def injectionTicket (idem : String) : QuarantineTicket where
  tenantId := request.tenantId.1
  reason := .injectionSuspected
  detail := "payload contains injection-marker text; planner will " ++
    "sanitise before LLM call (this entry is for visibility only — event still ingested)"
  rawPayload := raw
  context := .of [("idempotency_key", .str idem), ("blocking", .bool false)]

/-- `str(exc)` of a `LookupError`. That of a `KeyError` is the `repr` of its text. -/
def lookupText : LinkingError → String
  | .unknownCustomer c t => s!"request.customer_id={rt.repr c} not found in tenant {rt.repr t}"
  | .keyError c t => rt.repr s!"customer {rt.repr c} not found in tenant {rt.repr t}"
  | _ => ""

def unknownCustomerTicket (idem : String) (e : LinkingError) : QuarantineTicket where
  tenantId := request.tenantId.1
  reason := .unknownCustomer
  detail := lookupText rt e
  rawPayload := raw
  context := .of [("idempotency_key", .str idem)]

/-- What a request records: a refused key, or the suspicion of an injection and an unknown customer. -/
def postTickets (p : Post) (answer : Except ApiError EventResponse) : List QuarantineTicket :=
  let raw := (rt.modelDump p.request).getD ∅
  match chooseKey p.xIdempotencyKey p.request with
  | .error .missingKey => [missingKeyTicket p.request raw]
  | .error (.keyMismatch header body) => [mismatchTicket rt p.request raw header body]
  | .error _ => []
  | .ok idem =>
    (if hasInjectionMarkers rt.words (payloadStrings p.request.payload) then
      [injectionTicket p.request raw idem] else []) ++
    match answer with
    | .error (.notFound e) => [unknownCustomerTicket rt p.request raw idem e]
    | _ => []

end Tickets

/-! ## The handlers -/

/-- What the handlers share. -/
structure Api where
  stores : Stores := {}
  quarantine : QuarantineBuffer

/-- What `post_event` raises. -/
inductive ApiFault where
  | handler (e : ApiError)
  | quarantine (e : ValueError)
  /-- `model_dump` raised. -/
  | dump

/-- A part of the handler that sees the stores only. -/
def onStores {α : Type} (p : Prog ApiError Stores α) : Prog ApiFault Api α :=
  Prog.zoom .handler Api.stores (fun stores s => { s with stores }) p

variable (rt : QuarantineRuntime)

/-- `quarantine.quarantine(...)`. -/
def quarantineCall (x : QuarantineTicket) : Py ApiFault Api Unit := do
  let _ ← Py.zoom .quarantine Api.quarantine (fun q s => { s with quarantine := q })
    (QuarantineBuffer.quarantine rt x)
  return ()

def record (x : QuarantineTicket) : Prog ApiFault Api Unit := Prog.atom (quarantineCall rt x)

/-- A quarantine call with `raw_payload=request.model_dump(mode="json")`. -/
def recordDump (request : IngestionRequest) (ticket : Payload → QuarantineTicket) :
    Prog ApiFault Api Unit :=
  match rt.modelDump request with
  | some raw => record rt (ticket raw)
  | none => Prog.raise .dump

/-- `except LookupError as exc`. -/
def unknownCustomer (request : IngestionRequest) (idem : String) :
    ApiFault → Prog ApiFault Api LinkingOutcome
  | .handler (.notFound e) => do
    recordDump rt request fun raw => unknownCustomerTicket rt request raw idem e
    Prog.raise (.handler (.notFound e))
  | e => Prog.raise e

/-- `post_event` once the key is chosen and the payload was looked through. -/
def handleEvent (env : RequestEnv) (request : IngestionRequest) (idem : String) :
    Prog ApiFault Api EventResponse := do
  let existing ← onStores (Prog.atom (Stores.lookup request.tenantId.1 idem))
  match existing with
  | some event => return replayResponse event
  | none => do
    let link ← (onStores (linkCustomer rt.toRuntime request)).tryCatch
      (unknownCustomer rt request idem)
    match buildEventFromRequest env request idem (some link.customerId) with
    | .error e => Prog.raise (.handler (.validation e))
    | .ok event => do
      let result ← onStores (ingestEvent event)
      return ingestResponse link result

def postEvent (env : RequestEnv) (xIdempotencyKey : Option HeaderText) (request : IngestionRequest) :
    Prog ApiFault Api EventResponse :=
  match chooseKey xIdempotencyKey request with
  | .error .missingKey => do
    recordDump rt request (missingKeyTicket request)
    Prog.raise (.handler .missingKey)
  | .error (.keyMismatch header body) => do
    recordDump rt request fun raw => mismatchTicket rt request raw header body
    Prog.raise (.handler (.keyMismatch header body))
  | .error e => Prog.raise (.handler e)
  | .ok idem =>
    if hasInjectionMarkers rt.words (payloadStrings request.payload) then do
      recordDump rt request fun raw => injectionTicket request raw idem
      handleEvent rt env request idem
    else handleEvent rt env request idem

/-! ## What they do -/

/-- The stores, and what was quarantined in a buffer of capacity `max`. -/
def recorder (max : { n : Nat // 0 < n }) : Recorder Api Stores QuarantineTicket where
  view := Api.stores
  Log := fun s log => s.quarantine.max = max ∧ s.quarantine.Holds log

section Records

variable {rt} {max : { n : Nat // 0 < n }} {acc : List QuarantineTicket} {idem : String}

theorem quarantineCall_run (rt : QuarantineRuntime) (s : Api) {x : QuarantineTicket}
    (hx : x.tenantId ≠ "") : (quarantineCall rt x).run s =
      (.ok (), { s with quarantine := ((QuarantineBuffer.quarantine rt x).run s.quarantine).2 }) := by
  obtain ⟨entry, -, hrun⟩ := QuarantineBuffer.quarantine_run rt s.quarantine hx
  have hzoom := Py.run_zoom ApiFault.quarantine Api.quarantine (fun q s => { s with quarantine := q })
    (QuarantineBuffer.quarantine rt x) s
  rw [hrun] at hzoom ⊢
  unfold quarantineCall
  rw [Py.run_bind_ok hzoom]
  rfl

/-- A request that can be dumped is. -/
theorem recordDump_eq (rt : QuarantineRuntime) {request : IngestionRequest}
    (h : (rt.modelDump request).isSome = true) (ticket : Payload → QuarantineTicket) :
    recordDump rt request ticket = record rt (ticket ((rt.modelDump request).getD ∅)) := by
  obtain ⟨raw, hraw⟩ := Option.isSome_iff_exists.mp h
  unfold recordDump
  rw [hraw]
  rfl

/-- A quarantine call, and then the rest. -/
theorem record_bind {α : Type} {T : Except ApiError α → List QuarantineTicket}
    {x : QuarantineTicket} {f : Unit → Prog ApiFault Api α} {q : Prog ApiError Stores α}
    (hx : x.tenantId ≠ "") (h : Records (recorder max) ApiFault.handler T (acc ++ [x]) (f ()) q) :
    Records (recorder max) ApiFault.handler T acc (record rt x >>= f) q := by
  have hrun : ∀ s : Api, quarantineCall rt x s =
      (.ok (), { s with quarantine := ((QuarantineBuffer.quarantine rt x).run s.quarantine).2 }) :=
    fun s => quarantineCall_run rt s hx
  have hcall : record rt x >>= f = .call (quarantineCall rt x) fun r => Prog.bind f (.done r) := rfl
  rw [hcall]
  refine .record (x := x) (fun s => ?_) (fun s l hl => ?_) fun s => ?_
  · rw [hrun]
    rfl
  · obtain ⟨entry, -, hquarantine⟩ := QuarantineBuffer.quarantine_run rt s.quarantine hx
    rw [hrun]
    refine ⟨?_, hl.2.quarantine rt hx⟩
    show ((QuarantineBuffer.quarantine rt x).run s.quarantine).2.max = max
    rw [hquarantine]
    exact hl.1
  · rw [hrun]
    exact h

theorem tenant_ne (request : IngestionRequest) : request.tenantId.1 ≠ "" := by
  intro h
  have hlen := request.tenantId.2.1
  rw [h] at hlen
  exact absurd hlen (by decide)

/-- A part on the stores that is not watched for exceptions. -/
theorem onStores_bind {α β : Type} {T : Except ApiError α → List QuarantineTicket}
    {E : ApiError → Prop} {part : Prog ApiError Stores β} {f : β → Prog ApiFault Api α}
    {g : β → Prog ApiError Stores α} (hthrows : part.Throws E)
    (hok : ∀ b, Records (recorder max) ApiFault.handler T acc (f b) (g b))
    (herror : ∀ e, E e → T (.error e) = acc) :
    Records (recorder max) ApiFault.handler T acc (onStores part >>= f) (part >>= g) := by
  rw [← Prog.tryCatch_raise (onStores part)]
  refine Records.lift_bind (fun _ _ => rfl) (fun _ _ _ h => h) hthrows hok fun e he => ?_
  rw [← herror e he]
  exact Records.done (.error e)

theorem ingest_throws (event : Event) :
    (ingestEvent event).Throws fun e => ∃ missing, e = .store missing := by
  unfold ingestEvent
  refine (Prog.throws_atom fun s e he => ?_).bind fun stored => ?_
  · unfold Stores.upsert at he
    rw [Py.run_bind_ok (Py.run_modify _ s), Py.run_zoom] at he
    have hmap : ∀ x : Except MissingEvent (Event × Bool), x.mapError ApiError.store = .error e →
        ∃ missing, e = .store missing := by
      intro x hx
      cases x with
      | ok a => cases hx
      | error missing =>
        cases hx
        exact ⟨missing, rfl⟩
    exact hmap _ he
  · obtain ⟨stored, created⟩ := stored
    cases created with
    | false => exact fun e he => by cases he
    | true =>
      exact (Prog.throws_atom fun s e he => by cases he).bind fun _ => fun e he => by cases he

/-- The request after the choice of its key. -/
theorem handleEvent_records (rt : QuarantineRuntime) (p : Post)
    (hdump : (rt.modelDump p.request).isSome = true)
    (hidem : chooseKey p.xIdempotencyKey p.request = .ok idem)
    (hacc : acc = if hasInjectionMarkers rt.words (payloadStrings p.request.payload) then
      [injectionTicket p.request ((rt.modelDump p.request).getD ∅) idem] else []) :
    Records (recorder max) ApiFault.handler (postTickets rt p) acc (handleEvent rt p.env p.request idem)
      (PennyCore.postEvent rt.toRuntime p.env p.xIdempotencyKey p.request) := by
  have hplain : ∀ r : Except ApiError EventResponse, (∀ e, r ≠ .error (.notFound e)) →
      postTickets rt p r = acc := by
    intro r hr
    unfold postTickets
    rw [hidem, hacc]
    cases r with
    | ok a => exact List.append_nil _
    | error e =>
      cases e with
      | notFound e => exact absurd rfl (hr e)
      | _ => exact List.append_nil _
  have hdone : ∀ r : Except ApiError EventResponse, (∀ e, r ≠ .error (.notFound e)) →
      Records (recorder max) ApiFault.handler (postTickets rt p) acc (.done (r.mapError .handler))
        (.done r) :=
    fun r hr => hplain r hr ▸ Records.done r
  unfold PennyCore.postEvent handleEvent
  simp only [hidem]
  refine onStores_bind (E := fun _ => False) (Prog.throws_atom fun s e he => by cases he)
    (fun existing => ?_) fun e he => he.elim
  cases existing with
  | some event => exact hdone (.ok (replayResponse event)) fun e he => by cases he
  | none =>
    refine Records.lift_bind (fun _ _ => rfl) (fun _ _ _ h => h) (Prog.throws_any _)
      (fun link => ?_) fun e _ => ?_
    · cases buildEventFromRequest p.env p.request idem (some link.customerId) with
      | error e => exact hdone (.error (.validation e)) fun e he => by cases he
      | ok event =>
        refine onStores_bind (ingest_throws event) (fun result => ?_) fun e he => ?_
        · exact hdone (.ok (ingestResponse link result)) fun e he => by cases he
        · obtain ⟨missing, rfl⟩ := he
          exact hplain _ fun e he => by cases he
    · cases e with
      | notFound e =>
        have htickets : postTickets rt p (.error (.notFound e)) =
            acc ++ [unknownCustomerTicket rt p.request ((rt.modelDump p.request).getD ∅) idem e] := by
          unfold postTickets
          rw [hidem, hacc]
        unfold unknownCustomer
        simp only [recordDump_eq rt hdump]
        rw [Prog.bind_assoc]
        refine record_bind (tenant_ne p.request) ?_
        rw [← htickets]
        exact Records.done _
      | _ => exact hdone (.error _) fun e he => by cases he

/-- `post_event` runs the handler without its quarantine calls, and records its tickets. -/
theorem postEvent_records (rt : QuarantineRuntime) (p : Post)
    (hdump : (rt.modelDump p.request).isSome = true) :
    Records (recorder max) ApiFault.handler (postTickets rt p) []
      (postEvent rt p.env p.xIdempotencyKey p.request)
      (PennyCore.postEvent rt.toRuntime p.env p.xIdempotencyKey p.request) := by
  cases hk : chooseKey p.xIdempotencyKey p.request with
  | ok idem =>
    unfold postEvent
    simp only [hk]
    split
    · next hmarked =>
      rw [recordDump_eq rt hdump]
      refine record_bind (tenant_ne p.request) (handleEvent_records rt p hdump hk ?_)
      rw [if_pos hmarked]
      rfl
    · next hclean =>
      refine handleEvent_records rt p hdump hk ?_
      rw [if_neg hclean]
  | error e =>
    have hplain : PennyCore.postEvent rt.toRuntime p.env p.xIdempotencyKey p.request =
        .done (.error e) := by
      unfold PennyCore.postEvent
      rw [hk]
      rfl
    have hone : ∀ x : QuarantineTicket, x.tenantId ≠ "" → postTickets rt p (.error e) = [x] →
        Records (recorder max) ApiFault.handler (postTickets rt p) []
          (record rt x >>= fun _ => Prog.raise (.handler e)) (.done (.error e)) := by
      intro x hx hticket
      refine record_bind hx ?_
      rw [List.nil_append, ← hticket]
      exact Records.done (.error e)
    have hnone : postTickets rt p (.error e) = [] →
        Records (recorder max) ApiFault.handler (postTickets rt p) [] (Prog.raise (.handler e))
          (.done (.error e)) := fun hticket => hticket ▸ Records.done (.error e)
    rw [hplain]
    unfold postEvent
    simp only [hk]
    unfold postTickets at hone hnone ⊢
    rw [hk] at hone hnone ⊢
    cases e with
    | missingKey =>
      simp only [recordDump_eq rt hdump]
      exact hone _ (tenant_ne p.request) rfl
    | keyMismatch header body =>
      simp only [recordDump_eq rt hdump]
      exact hone _ (tenant_ne p.request) rfl
    | _ => exact hnone rfl

end Records
end QuarantineApi
end PennyCore
