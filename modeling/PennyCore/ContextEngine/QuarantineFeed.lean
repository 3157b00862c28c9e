import PennyCore.ContextEngine.Quarantine
import PennyCore.Orchestrator.Planner

/-!
# What the operators see

The feed of quarantined events (`GET /quarantine/recent`) over whole runs of the API.

* `ApiOp` is one request: a `POST /events` whose body the request contract takes, or one that it
  refuses. `ApiOp.tickets` is what the request records, a function of it and its answer.
* `quarantine_feed`: over every run the feed of a tenant is the newest of its tickets, every refusal is
  among them, and answers and stores are those of the API without a quarantine.
* `quarantine_interleaved`: so it is when the handlers run at the same time.
-/

namespace PennyCore

open Lib

namespace QuarantineApi

/-! ## Bodies that the contract refuses -/

/-- A request that fails validation. `body` is `None` where the text is no JSON. -/
structure InvalidPost where
  body : PyVal
  /-- `len(exc.errors())`. -/
  errors : Nat
  path : String
  method : String

/-- The tenant that the record goes to. -/
def InvalidPost.tenantId (p : InvalidPost) : String :=
  match p.body with
  | .dict items =>
    match objGet items "tenant_id" with
    | some (.str candidate) => if candidate = "" then "_unparseable_" else candidate
    | _ => "_unparseable_"
  | _ => "_unparseable_"

/-- `{"_non_dict_body": str(body)[:500]}`, unless the body is an object. -/
def InvalidPost.rawPayload (rt : QuarantineRuntime) (p : InvalidPost) : Payload :=
  match p.body with
  | .dict items => objPayload items
  | body => .of [("_non_dict_body", .str (String.ofList ((rt.str body).toList.take 500)))]

def InvalidPost.ticket (rt : QuarantineRuntime) (p : InvalidPost) : QuarantineTicket where
  tenantId := p.tenantId
  reason := .validationFailed
  detail := s!"Pydantic validation failed: {p.errors} error(s)"
  rawPayload := p.rawPayload rt
  context := .of [("path", .str p.path), ("method", .str p.method)]

theorem InvalidPost.tenantId_ne (p : InvalidPost) : p.tenantId ≠ "" := by
  unfold tenantId
  split
  · split
    · next candidate _ =>
      by_cases h : candidate = ""
      · rw [if_pos h]
        decide
      · rw [if_neg h]
        exact h
    · decide
  · decide

/-! ## Requests -/

inductive ApiOp where
  | post (p : Post)
  | invalid (p : InvalidPost)

/-- `_validation_quarantine_handler`: 422, whatever the quarantine call comes to. -/
def InvalidPost.answer (rt : QuarantineRuntime) (p : InvalidPost) (s : Api) : Nat × Api :=
  (422, ((quarantineCall rt (p.ticket rt)).run s).2)

/-- A request that is handled alone. -/
def answerPost (rt : QuarantineRuntime) (p : Post) (s : Api) : Except ApiFault EventResponse × Api :=
  (postEvent rt p.env p.xIdempotencyKey p.request).run s

def apiStep (rt : QuarantineRuntime) (s : Api) : ApiOp → Api
  | .post p => (answerPost rt p s).2
  | .invalid p => (p.answer rt s).2

/-- `model_dump(mode="json")` takes the request. -/
def ApiOp.Dumps (rt : QuarantineRuntime) : ApiOp → Prop
  | .post p => (rt.modelDump p.request).isSome = true
  | .invalid _ => True

/-- The runs of requests that can be dumped. -/
abbrev ApiRun (rt : QuarantineRuntime) (s₀ : Api) : List (Api × ApiOp) → Api → Prop :=
  Run (apiStep rt) (fun _ op => op.Dumps rt) s₀

/-- What a request records. -/
def ApiOp.tickets (rt : QuarantineRuntime) : Api × ApiOp → List QuarantineTicket
  | (s, .post p) => postTickets rt p (p.alone rt.toRuntime s.stores).1
  | (_, .invalid p) => [p.ticket rt]

/-- The stores after a request, by the API without a quarantine. -/
def ApiOp.plainStep (rt : Runtime) (s : Stores) : ApiOp → Stores
  | .post p => postStep rt s p
  | .invalid _ => s

/-- What a refusal is put on record as. -/
def refusalReason : ApiError → Option QuarantineReason
  | .missingKey => some .missingIdempotencyKey
  | .keyMismatch .. => some .idempotencyKeyMismatch
  | .notFound _ => some .unknownCustomer
  | _ => none

/-- What the endpoint answers to a bad query. -/
structure BadRequest where
  detail : String

/-- `GET /quarantine/recent`. -/
def quarantineRecent (s : Api) (tenantId : String) (limit : Int) :
    Except BadRequest (List QuarantinedEvent) :=
  if tenantId = "" then .error ⟨"tenant_id query parameter required"⟩
  else if limit < 1 ∨ 200 < limit then .error ⟨"limit must be between 1 and 200"⟩
  else .ok (s.quarantine.recent tenantId limit)

section Steps

variable {rt : QuarantineRuntime} {s : Api} {log : List QuarantineTicket}

/-- A request answers as without a quarantine, and records its tickets. -/
theorem answerPost_spec (p : Post) (hdump : (rt.modelDump p.request).isSome = true)
    (hlog : s.quarantine.Holds log) :
    (answerPost rt p s).1 = (p.alone rt.toRuntime s.stores).1.mapError .handler ∧
      (answerPost rt p s).2.stores = postStep rt.toRuntime s.stores p ∧
      (answerPost rt p s).2.quarantine.max = s.quarantine.max ∧
      (answerPost rt p s).2.quarantine.Holds (log ++ ApiOp.tickets rt (s, .post p)) := by
  obtain ⟨hanswer, hstores, xs, hxs, hmax, hholds⟩ := (postEvent_records rt p hdump).run ⟨rfl, hlog⟩
  refine ⟨hanswer, hstores, hmax, ?_⟩
  rw [List.nil_append] at hxs
  rw [hxs] at hholds
  exact hholds

theorem apiStep_spec (rt : QuarantineRuntime) (op : ApiOp) (hdump : op.Dumps rt)
    (hlog : s.quarantine.Holds log) :
    (apiStep rt s op).stores = op.plainStep rt.toRuntime s.stores ∧
      (apiStep rt s op).quarantine.max = s.quarantine.max ∧
      (apiStep rt s op).quarantine.Holds (log ++ ApiOp.tickets rt (s, op)) := by
  cases op with
  | post p => exact (answerPost_spec p hdump hlog).2
  | invalid p =>
    have hrun := quarantineCall_run rt s (x := p.ticket rt) p.tenantId_ne
    unfold apiStep InvalidPost.answer
    obtain ⟨entry, -, hquarantine⟩ :=
      QuarantineBuffer.quarantine_run rt s.quarantine (x := p.ticket rt) p.tenantId_ne
    simp only [hrun]
    refine ⟨rfl, ?_, hlog.quarantine rt p.tenantId_ne⟩
    rw [hquarantine]

/-- The exception of a handler whose key was chosen. -/
def Keyed : ApiError → Prop
  | .missingKey | .keyMismatch .. => False
  | _ => True

/-- `chooseKey` raises nothing else. -/
theorem chooseKey_error {header : Option HeaderText} {request : IngestionRequest} {e : ApiError}
    (hk : chooseKey header request = .error e) : ¬ Keyed e := by
  unfold chooseKey at hk
  split at hk
  · cases hk
    exact id
  · cases hk
  · cases hk
  · split at hk
    · cases hk
      exact id
    · cases hk

/-- A handler whose key was chosen refuses no key. -/
theorem alone_keyed {p : Post} {idem : String} (hk : chooseKey p.xIdempotencyKey p.request = .ok idem)
    (st : Stores) {e : ApiError} (he : (p.alone rt.toRuntime st).1 = .error e) : Keyed e := by
  have hlink : ∀ e, Keyed (linkError e) := by
    intro e
    unfold linkError
    split <;> exact trivial
  have hingest : ∀ event, (ingestEvent event).Throws Keyed := fun event =>
    (ingest_throws event).mono fun e he => by
      obtain ⟨missing, rfl⟩ := he
      exact trivial
  refine Prog.Throws.run ?_ he
  unfold PennyCore.postEvent
  simp only [hk]
  refine (Prog.throws_atom fun s e he => by cases he).bind fun existing => ?_
  cases existing with
  | some event => exact fun e he => by cases he
  | none =>
    refine (Prog.throws_zoom hlink _).bind fun link => ?_
    cases buildEventFromRequest p.env p.request idem (some link.customerId) with
    | error e =>
      rintro e' ⟨⟩
      exact trivial
    | ok event => exact (hingest event).bind fun result => fun e he => by cases he

/-- A refused request is on record under its tenant, with the reason. -/
theorem refused_recorded (rt : QuarantineRuntime) (p : Post) (st : Stores) {e : ApiError}
    {reason : QuarantineReason}
    (he : (p.alone rt.toRuntime st).1 = .error e) (hreason : refusalReason e = some reason) :
    ∃ x ∈ postTickets rt p (.error e), x.tenantId = p.request.tenantId.1 ∧ x.reason = reason := by
  unfold postTickets
  cases hk : chooseKey p.xIdempotencyKey p.request with
  | error e' =>
    have hrefused : p.alone rt.toRuntime st = (.error e', st) := alone_refused hk
    rw [hrefused] at he
    cases he
    cases e with
    | missingKey =>
      cases hreason
      exact ⟨_, List.mem_singleton.mpr rfl, rfl, rfl⟩
    | keyMismatch header body =>
      cases hreason
      exact ⟨_, List.mem_singleton.mpr rfl, rfl, rfl⟩
    | notFound e => exact absurd trivial (chooseKey_error hk)
    | _ => cases hreason
  | ok idem =>
    have hkeyed := alone_keyed hk st he
    cases e with
    | missingKey => exact hkeyed.elim
    | keyMismatch header body => exact hkeyed.elim
    | notFound e =>
      cases hreason
      exact ⟨_, List.mem_append_right _ (List.mem_singleton.mpr rfl), rfl, rfl⟩
    | _ => cases hreason

end Steps

/-! ## Runs -/

/-- The invariant of a run: the buffer holds the tickets, the stores are those of the API without a
quarantine, and so it was before every request. -/
structure FeedInv (rt : QuarantineRuntime) (s₀ : Api) (h : List (Api × ApiOp)) (s : Api) : Prop where
  holds : s.quarantine.Holds (h.flatMap (ApiOp.tickets rt))
  max : s.quarantine.max = s₀.quarantine.max
  stores : s.stores = (h.map Prod.snd).foldl (ApiOp.plainStep rt.toRuntime) s₀.stores
  past : ∀ x ∈ h, x.2.Dumps rt ∧ ∃ log, x.1.quarantine.Holds log

theorem feedInv_run {rt : QuarantineRuntime} {s₀ s : Api} {h : List (Api × ApiOp)}
    (hnew : s₀.quarantine.byTenant = ∅) (hr : ApiRun rt s₀ h s) : FeedInv rt s₀ h s := by
  refine hr.invariant (I := FeedInv rt s₀) ?_ fun h s op _ hi hdump => ?_
  · refine ⟨⟨[], rfl, ?_⟩, rfl, rfl, fun x hx => by cases hx⟩
    rw [hnew]
    exact Ring.Feed.empty _
  · obtain ⟨hstores, hmax, hholds⟩ := apiStep_spec rt op hdump hi.holds
    refine ⟨?_, hmax.trans hi.max, ?_, fun x hx => ?_⟩
    · rw [List.flatMap_append, List.flatMap_singleton]
      exact hholds
    · rw [List.map_append, List.foldl_append, ← hi.stores, hstores]
      rfl
    · rcases List.mem_append.mp hx with hx | hx
      · exact hi.past x hx
      · rw [List.mem_singleton.mp hx]
        exact ⟨hdump, _, hi.holds⟩

/-- In every run from an empty buffer of requests that can be dumped. Of each tenant the operators see
the newest tickets, up to the limit and the capacity, newest first, and of nobody else: a ticket for each
body that failed validation, for each refusal of a key or a customer, and for each payload with injection
markers. The answers and the stores are those without a quarantine. -/
theorem quarantine_feed {rt : QuarantineRuntime} {s₀ s : Api} {h : List (Api × ApiOp)}
    (hnew : s₀.quarantine.byTenant = ∅) (hr : ApiRun rt s₀ h s) :
    (∀ t (limit : Int), t ≠ "" → 1 ≤ limit → limit ≤ 200 → ∃ entries,
      quarantineRecent s t limit = .ok entries ∧ entries.map QuarantinedEvent.ticket =
        (((h.flatMap (ApiOp.tickets rt)).filter fun x => x.tenantId = t).reverse).take
          (min limit.toNat s₀.quarantine.max)) ∧
    (∀ u p, (u, ApiOp.post p) ∈ h →
      (answerPost rt p u).1 = (p.alone rt.toRuntime u.stores).1.mapError .handler ∧
      ∀ e reason, (p.alone rt.toRuntime u.stores).1 = .error e → refusalReason e = some reason →
        ∃ x ∈ h.flatMap (ApiOp.tickets rt),
          x.tenantId = p.request.tenantId.1 ∧ x.reason = reason) ∧
    s.stores = (h.map Prod.snd).foldl (ApiOp.plainStep rt.toRuntime) s₀.stores := by
  obtain ⟨hholds, hmax, hstores, hpast⟩ := feedInv_run hnew hr
  refine ⟨fun t limit ht hlow hhigh => ?_, fun u p hup => ?_, hstores⟩
  · refine ⟨s.quarantine.recent t limit, ?_, ?_⟩
    · unfold quarantineRecent
      rw [if_neg ht, if_neg (by omega)]
    · rw [← hmax]
      exact hholds.recent t limit
  · obtain ⟨hdump, log, hlog⟩ := hpast _ hup
    refine ⟨(answerPost_spec p hdump hlog).1, fun e reason he hreason => ?_⟩
    obtain ⟨x, hx, htenant, hxreason⟩ := refused_recorded rt p u.stores he hreason
    refine ⟨x, List.mem_flatMap.mpr ⟨_, hup, ?_⟩, htenant, hxreason⟩
    show x ∈ postTickets rt p (p.alone rt.toRuntime u.stores).1
    rw [he]
    exact hx

/-- The dump of a request whose payload holds strings. -/
def demoDump (request : IngestionRequest) : Payload :=
  .of [("tenant_id", .str request.tenantId.1),
    ("customer_id", match request.customerId with | some c => .str c.1 | none => .none),
    ("channel_code", .str request.channelCode.value),
    ("event_type", .str request.eventType.value),
    ("idempotency_key", match request.idempotencyKey with | some k => .str k.1 | none => .none),
    ("payload", .dict (request.payload.entries.map fun e => (.str e.1, e.2)))]

def demoQuarantine : QuarantineRuntime :=
  { demoRuntime with
    words := .ascii, quarantineHex := fun _ => "", clock := id, repr := id, str := fun _ => ""
    modelDump := fun request => some (demoDump request) }

theorem defaultCapacity_pos : 0 < 200 := by decide

/-- `QuarantineBuffer()`, over empty stores. -/
def emptyApi : Api where
  quarantine := { max := ⟨200, defaultCapacity_pos⟩ }

/-- A request without a key, and a body that is no JSON. -/
def refusedOps : List ApiOp := [.post (demoPost none), .invalid ⟨.none, 1, "/events", "POST"⟩]

theorem quarantine_feed_refused :
    let s := refusedOps.foldl (apiStep demoQuarantine) emptyApi
    ∃ entries, quarantineRecent s "t1" 50 = .ok entries ∧
      entries.map (fun e => e.ticket.reason) = [.missingIdempotencyKey] := by
  have hr : ApiRun demoQuarantine emptyApi (Run.trace (apiStep demoQuarantine) emptyApi refusedOps)
      (refusedOps.foldl (apiStep demoQuarantine) emptyApi) := Run.ofOps ⟨rfl, trivial, trivial⟩
  obtain ⟨entries, hentries, htickets⟩ :=
    (quarantine_feed rfl hr).1 "t1" 50 (by decide) (by decide) (by decide)
  refine ⟨entries, hentries, ?_⟩
  have hreasons := congrArg (List.map QuarantineTicket.reason) htickets
  rw [List.map_map] at hreasons
  exact hreasons.trans rfl

/-- Requests that can be dumped and are handled at the same time, in any interleaving. The stores and the
answers are those of an interleaving of the handlers without a quarantine; the record is an interleaving
of what the requests recorded, and each that is done has recorded its tickets. -/
theorem quarantine_interleaved {ι : Type} [DecidableEq ι] (rt : QuarantineRuntime) (posts : ι → Post)
    (hdump : ∀ i, (rt.modelDump (posts i).request).isSome = true)
    {s : Api} {log : List QuarantineTicket} (hlog : s.quarantine.Holds log) (schedule : List ι) :
    let full : Pool ι ApiFault Api EventResponse :=
      ⟨fun i => postEvent rt (posts i).env (posts i).xIdempotencyKey (posts i).request, s⟩
    let plain : Pool ι ApiError Stores EventResponse :=
      ⟨fun i => PennyCore.postEvent rt.toRuntime (posts i).env (posts i).xIdempotencyKey
        (posts i).request, s.stores⟩
    ∃ (schedule' : List ι) (tagged : List (ι × QuarantineTicket)), schedule'.Sublist schedule ∧
      (full.exec schedule).state.stores = (plain.exec schedule').state ∧
      (full.exec schedule).state.quarantine.Holds (log ++ tagged.map Prod.snd) ∧
      ∀ i r, (full.exec schedule).Done i r → ∃ r', r = r'.mapError .handler ∧
        (plain.exec schedule').Done i r' ∧ Ring.sent i tagged = postTickets rt (posts i) r' := by
  intro full plain
  obtain ⟨schedule', tagged, hsub, hstores, ⟨-, hholds⟩, hrecords⟩ :=
    Pool.records (R := recorder s.quarantine.max) (c := full) (d := plain)
      (T := fun i => postTickets rt (posts i))
      rfl ⟨rfl, hlog⟩ (fun i => postEvent_records rt (posts i) (hdump i)) schedule
  refine ⟨schedule', tagged, hsub, hstores, hholds, fun i r hdone => ?_⟩
  have hi := hrecords i
  rw [show (full.exec schedule).threads i = .done r from hdone] at hi
  obtain ⟨r', hplain, hr, htickets⟩ := hi.done_eq
  exact ⟨r', hr, hplain, htickets⟩

/-- One request with a key and one without. -/
def twoPosts (keyed : Bool) : Post := cond keyed (demoPost (some keyHeader)) (demoPost none)

/-- The second request is refused in the middle of the first, and that is on record. -/
theorem quarantine_interleaved_twoPosts :
    let schedule : List Bool := [true, false, false, true, true, true, true]
    let full : Pool (Bool) ApiFault Api EventResponse := ⟨fun i => postEvent demoQuarantine
      (twoPosts i).env (twoPosts i).xIdempotencyKey (twoPosts i).request, emptyApi⟩
    ∃ tagged : List (Bool × QuarantineTicket),
      (full.exec schedule).state.quarantine.Holds (tagged.map Prod.snd) ∧
      (Ring.sent false tagged).map QuarantineTicket.reason = [.missingIdempotencyKey] := by
  intro schedule full
  have hempty : emptyApi.quarantine.Holds [] := QuarantineBuffer.Holds.empty _ _
  have hdone : (full.exec schedule).Done false (.error (.handler .missingKey)) := rfl
  obtain ⟨_, tagged, -, -, hholds, htickets⟩ :=
    quarantine_interleaved demoQuarantine twoPosts (fun _ => rfl) hempty schedule
  obtain ⟨r', hr', -, hsent⟩ := htickets false _ hdone
  refine ⟨tagged, hholds, ?_⟩
  cases r' with
  | ok response => cases hr'
  | error e =>
    cases hr'
    rw [hsent]
    rfl

end QuarantineApi
end PennyCore
