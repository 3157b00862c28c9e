import PennyCore.ContextEngine.Api
import PennyCore.ContextEngine.LinkingAgreement

/-!
# Ingestion under concurrency

Any number of `POST /events` requests at the same time, in every interleaving of their calls of the
event repository, the customer repository and the bus.

* `IngestOk` is the invariant of the event store and the bus: the two indexes of the store agree, a
  key's event is that of its first upsert, every stored event is one that its request drew the id of,
  and only stored events are published.
* `ingesting` is the protocol. A request relies on the others to keep what is stored and to leave its
  own event id alone: they neither store under it nor publish with it.
* `post_safe`: every request runs by the protocol, and its answer is right (`Answered`). The linker's
  calls are on another part of the stores (`Safe.frame`).
-/

namespace PennyCore

open Lib

/-- Requests at the same time, with what each takes from outside. -/
structure Posts (ι : Type) where
  env : ι → RequestEnv
  header : ι → Option HeaderText
  request : ι → IngestionRequest

namespace Posts

variable {ι : Type} (ps : Posts ι)

/-- The event id that the request draws. -/
def id (i : ι) : String := (ps.env i).newEventId

def tenant (i : ι) : String := (ps.request i).tenantId.1

/-- The requests as threads. -/
def pool (rt : Runtime) (s : Stores) : Pool ι ApiError Stores EventResponse :=
  ⟨fun i => postEvent rt (ps.env i) (ps.header i) (ps.request i), s⟩

end Posts

/-! ## The invariant -/

structure IngestOk {ι : Type} (ps : Posts ι) (s : Stores) : Prop where
  index : ∀ k id, s.events.byIdem.get? k = some id →
    ∃ e, s.events.byId.get? (k.1, id) = some e ∧ Stores.keyOf e = k
  stored : ∀ k e, s.events.byId.get? k = some e →
    k = (e.tenantId.1, e.id) ∧ s.events.byIdem.get? (Stores.keyOf e) = some e.id
  first : ∀ t k, s.eventAt t k = s.upserts.find? fun e => Stores.keyOf e = (t, k)
  drawn : ∀ k e, s.events.byId.get? k = some e → ∃ i, e.id = ps.id i ∧ e.tenantId.1 = ps.tenant i ∧
    chooseKey (ps.header i) (ps.request i) = .ok e.idempotencyKey.1
  published : ∀ entry ∈ s.bus.published, ∃ k e, s.events.byId.get? k = some e ∧
    entry = announcement e

/-- What is stored stays. -/
structure Persists (s u : Stores) : Prop where
  byId : ∀ k e, s.events.byId.get? k = some e → u.events.byId.get? k = some e
  byIdem : ∀ k id, s.events.byIdem.get? k = some id → u.events.byIdem.get? k = some id

/-- Nothing is stored or published under the id since. -/
structure Alone (id : String) (s u : Stores) : Prop where
  byId : ∀ t, u.events.byId.get? (t, id) = s.events.byId.get? (t, id)
  count : ∀ entry : String × Envelope, entry.2.eventId = id →
    u.bus.published.count entry = s.bus.published.count entry

/-- The protocol of the requests. -/
def ingesting {ι : Type} (ps : Posts ι) (hinj : Function.Injective ps.id) : Protocol ι Stores where
  inv := IngestOk ps
  rely i s u := Persists s u ∧ Alone (ps.id i) s u
  guar i s u := Persists s u ∧ (∀ id, id ≠ ps.id i → Alone id s u) ∧
    ∀ t k, t ≠ ps.tenant i → u.eventAt t k = s.eventAt t k
  refl _ _ := ⟨⟨fun _ _ h => h, fun _ _ h => h⟩, ⟨fun _ => rfl, fun _ _ => rfl⟩⟩
  trans _ := fun h h' => ⟨⟨fun k e hk => h'.1.byId k e (h.1.byId k e hk),
    fun k id hk => h'.1.byIdem k id (h.1.byIdem k id hk)⟩,
    ⟨fun t => (h'.2.byId t).trans (h.2.byId t), fun x hx => (h'.2.count x hx).trans (h.2.count x hx)⟩⟩
  compat hij _ h := ⟨h.1, h.2.1 _ fun heq => hij (hinj heq).symm⟩

/-! ## Steps -/

section Steps

variable {ι : Type} {ps : Posts ι} {s u : Stores} {event : Event} {i : ι}

theorem Persists.refl (s : Stores) : Persists s s := ⟨fun _ _ h => h, fun _ _ h => h⟩

theorem Persists.trans {v : Stores} (h : Persists s u) (h' : Persists u v) : Persists s v :=
  ⟨fun k e hk => h'.byId k e (h.byId k e hk), fun k id hk => h'.byIdem k id (h.byIdem k id hk)⟩

theorem Persists.eventAt (h : Persists s u) {t k : String} {e : Event} (he : s.eventAt t k = some e) :
    u.eventAt t k = some e := by
  obtain ⟨id, hid, hget⟩ := Stores.eventAt_some.mp he
  exact Stores.eventAt_some.mpr ⟨id, h.byIdem _ _ hid, h.byId _ _ hget⟩

theorem IngestOk.indexed (hs : IngestOk ps s) : s.Indexed := by
  intro t k id hid
  obtain ⟨e, he, -⟩ := hs.index (t, k) id hid
  exact ⟨e, he⟩

/-- The event of a key is the stored event that has it. -/
theorem IngestOk.eventAt_iff (hs : IngestOk ps s) {t k : String} {e : Event} :
    s.eventAt t k = some e ↔ (∃ key, s.events.byId.get? key = some e) ∧ Stores.keyOf e = (t, k) := by
  rw [Stores.eventAt_some]
  constructor
  · rintro ⟨id, hid, he⟩
    obtain ⟨e', he', hk⟩ := hs.index _ _ hid
    rw [he] at he'
    cases he'
    exact ⟨⟨_, he⟩, hk⟩
  · rintro ⟨⟨key, he⟩, hk⟩
    obtain ⟨rfl, hid⟩ := hs.stored key e he
    have ht : e.tenantId.1 = t := congrArg Prod.fst hk
    rw [hk] at hid
    exact ⟨e.id, hid, by rw [← ht]; exact he⟩

/-- An upsert of a key that is stored. -/
theorem IngestOk.replay (hs : IngestOk ps s) {stored : Event}
    (hat : s.eventAt event.tenantId.1 event.idempotencyKey.1 = some stored) :
    IngestOk ps (s.replayEvent event) := by
  refine ⟨hs.index, hs.stored, fun t k => ?_, hs.drawn, hs.published⟩
  show s.eventAt t k = (s.upserts ++ [event]).find? _
  rw [List.find?_append, ← hs.first t k]
  cases hat' : s.eventAt t k with
  | some e => rfl
  | none =>
    have hne : ¬ Stores.keyOf event = (t, k) := by
      intro hk
      cases hk
      rw [hat] at hat'
      cases hat'
    rw [List.find?_cons_of_neg (by simpa only [decide_eq_true_eq] using hne)]
    rfl

theorem eventAt_insert (hs : s.Indexed)
    (hfree : s.events.byId.get? (event.tenantId.1, event.id) = none) (t k : String) :
    (s.insertEvent event).eventAt t k =
      if (t, k) = Stores.keyOf event then some event else s.eventAt t k := by
  unfold Stores.eventAt InMemoryEventRepository.getEventByIdempotency Stores.insertEvent
  simp only [Dict.get?_set]
  by_cases hk : (t, k) = Stores.keyOf event
  · cases hk
    simp
  · simp only [hk, if_false]
    cases hid : s.events.byIdem.get? (t, k) with
    | none => rfl
    | some id =>
      obtain ⟨e, he⟩ := hs t k id hid
      have hne : ¬ (t, id) = (event.tenantId.1, event.id) := by
        intro heq
        rw [heq, hfree] at he
        cases he
      simp [hne]

/-- The upsert of a new key. -/
theorem IngestOk.insert (hs : IngestOk ps s)
    (hat : s.eventAt event.tenantId.1 event.idempotencyKey.1 = none)
    (hfree : s.events.byId.get? (event.tenantId.1, event.id) = none) (hid : event.id = ps.id i)
    (ht : event.tenantId.1 = ps.tenant i)
    (hk : chooseKey (ps.header i) (ps.request i) = .ok event.idempotencyKey.1) :
    IngestOk ps (s.insertEvent event) := by
  have hnew : s.events.byIdem.get? (Stores.keyOf event) = none := hs.indexed.eventAt_none.mp hat
  have hbyId : ∀ key, (s.insertEvent event).events.byId.get? key =
      if key = (event.tenantId.1, event.id) then some event else s.events.byId.get? key :=
    fun key => Dict.get?_set _ _ _ _
  have hbyIdem : ∀ key, (s.insertEvent event).events.byIdem.get? key =
      if key = Stores.keyOf event then some event.id else s.events.byIdem.get? key :=
    fun key => Dict.get?_set _ _ _ _
  refine ⟨fun key id h => ?_, fun key e h => ?_, fun t k => ?_, fun key e h => ?_,
    fun entry hentry => ?_⟩
  · rw [hbyIdem] at h
    split at h
    · rename_i hkey
      cases h
      exact ⟨event, by rw [hbyId, hkey, if_pos rfl], hkey.symm⟩
    · obtain ⟨e, he, hkey⟩ := hs.index key id h
      refine ⟨e, ?_, hkey⟩
      rw [hbyId, if_neg]
      · exact he
      · intro heq
        rw [heq, hfree] at he
        cases he
  · rw [hbyId] at h
    rw [hbyIdem]
    split at h
    · cases h
      exact ⟨by assumption, if_pos rfl⟩
    · obtain ⟨hkey, hidem⟩ := hs.stored key e h
      refine ⟨hkey, ?_⟩
      rw [if_neg]
      · exact hidem
      · intro heq
        rw [heq, hnew] at hidem
        cases hidem
  · show (s.insertEvent event).eventAt t k = (s.upserts ++ [event]).find? _
    rw [eventAt_insert hs.indexed hfree, List.find?_append, ← hs.first t k]
    by_cases hkey : (t, k) = Stores.keyOf event
    · have hnone : s.eventAt t k = none := by
        cases hkey
        exact hat
      rw [if_pos hkey, hnone]
      simp [hkey]
    · have hkey' : ¬ Stores.keyOf event = (t, k) := fun h => hkey h.symm
      rw [if_neg hkey]
      cases s.eventAt t k with
      | some e => rfl
      | none =>
        rw [List.find?_cons_of_neg (by simpa only [decide_eq_true_eq] using hkey')]
        rfl
  · rw [hbyId] at h
    split at h
    · cases h
      exact ⟨i, hid, ht, hk⟩
    · exact hs.drawn key e h
  · obtain ⟨key, e, he, rfl⟩ := hs.published entry hentry
    refine ⟨key, e, ?_, rfl⟩
    rw [hbyId, if_neg]
    · exact he
    · rintro rfl
      rw [hfree] at he
      cases he

theorem Persists.insert (hs : s.Indexed)
    (hat : s.eventAt event.tenantId.1 event.idempotencyKey.1 = none)
    (hfree : s.events.byId.get? (event.tenantId.1, event.id) = none) :
    Persists s (s.insertEvent event) := by
  have hnew : s.events.byIdem.get? (Stores.keyOf event) = none := hs.eventAt_none.mp hat
  refine ⟨fun k e h => ?_, fun k id h => ?_⟩
  · refine (Dict.get?_set_ne _ _ ?_).trans h
    rintro rfl
    rw [hfree] at h
    cases h
  · refine (Dict.get?_set_ne _ _ ?_).trans h
    rintro rfl
    rw [hnew] at h
    cases h

theorem Alone.insert {id : String} (hne : id ≠ event.id) : Alone id s (s.insertEvent event) := by
  refine ⟨fun t => Dict.get?_set_ne _ _ ?_, fun _ _ => rfl⟩
  intro heq
  exact hne (congrArg Prod.snd heq)

/-- The stores with an event announced. -/
def Stores.announce (s : Stores) (event : Event) : Stores :=
  { s with bus := s.bus.publish (channelFor event.tenantId.1) (envelopeFor event) }

theorem count_announce (entry : String × Envelope) :
    (s.announce event).bus.published.count entry =
      s.bus.published.count entry + if announcement event = entry then 1 else 0 := by
  show (s.bus.published ++ [announcement event]).count entry = _
  rw [List.count_append, List.count_singleton]
  simp

theorem IngestOk.announce (hs : IngestOk ps s) {key : String × String}
    (he : s.events.byId.get? key = some event) : IngestOk ps (s.announce event) := by
  refine ⟨hs.index, hs.stored, hs.first, hs.drawn, fun entry hentry => ?_⟩
  rcases List.mem_append.mp hentry with h | h
  · exact hs.published entry h
  · exact ⟨key, event, he, List.mem_singleton.mp h⟩

theorem Alone.announce {id : String} (hne : id ≠ event.id) : Alone id s (s.announce event) := by
  refine ⟨fun _ => rfl, fun entry hid => ?_⟩
  rw [count_announce, if_neg]
  · rfl
  · rintro rfl
    exact hne hid.symm

/-! ## One request -/

/-- The request has stored and published nothing. -/
structure Unborn (id : String) (s : Stores) : Prop where
  byId : ∀ t, s.events.byId.get? (t, id) = none
  count : ∀ entry : String × Envelope, entry.2.eventId = id → s.bus.published.count entry = 0

theorem Unborn.alone {id : String} (h : Unborn id s) (ha : Alone id s u) : Unborn id u :=
  ⟨fun t => (ha.byId t).trans (h.byId t), fun x hx => (ha.count x hx).trans (h.count x hx)⟩

/-- The answer of a request that is done: it names the event of its key; it says `created` if the
event is its own, and the event was then published once. -/
structure Answered (ps : Posts ι) (i : ι) (r : Except ApiError EventResponse) (s : Stores) :
    Prop where
  own : ∀ k e, s.events.byId.get? k = some e → e.id = ps.id i →
    (∃ resp, r = .ok resp ∧ resp.created = true) ∧ s.bus.published.count (announcement e) = 1
  response : ∀ resp, r = .ok resp → ∃ k e, chooseKey (ps.header i) (ps.request i) = .ok k ∧
    s.eventAt (ps.tenant i) k = some e ∧ resp.eventId = e.id ∧
    (resp.created = true ↔ e.id = ps.id i) ∧ (resp.statusCode = 200 ∨ resp.statusCode = 202)

/-- A request that stored nothing and names the event of its key, or failed. -/
theorem Answered.unborn {r : Except ApiError EventResponse} (hs : IngestOk ps s)
    (hu : Unborn (ps.id i) s)
    (h : ∀ resp, r = .ok resp → ∃ k e, chooseKey (ps.header i) (ps.request i) = .ok k ∧
      s.eventAt (ps.tenant i) k = some e ∧ resp.eventId = e.id ∧ resp.created = false ∧
      (resp.statusCode = 200 ∨ resp.statusCode = 202)) : Answered ps i r s := by
  have hnot : ∀ k e, s.events.byId.get? k = some e → e.id ≠ ps.id i := by
    intro k e he hid
    have hkey := (hs.stored k e he).1
    rw [hkey, hid, hu.byId] at he
    cases he
  refine ⟨fun k e he hid => absurd hid (hnot k e he), fun resp hresp => ?_⟩
  obtain ⟨k, e, hk, hat, hid, hno, hstatus⟩ := h resp hresp
  obtain ⟨⟨key, he⟩, -⟩ := hs.eventAt_iff.mp hat
  refine ⟨k, e, hk, hat, hid, ?_, hstatus⟩
  rw [hno]
  exact ⟨(fun h => nomatch h), fun h => absurd h (hnot key e he)⟩

variable {rt : Runtime} (hinj : Function.Injective ps.id)

/-- A call that changes neither the event store nor the bus. -/
theorem guar_same (hevents : u.events = s.events) (hbus : u.bus = s.bus) :
    (ingesting ps hinj).guar i s u := by
  refine ⟨⟨fun k e h => ?_, fun k id h => ?_⟩, fun id _ => ⟨fun t => ?_, fun x _ => ?_⟩,
    fun t k _ => ?_⟩
  · rw [hevents]; exact h
  · rw [hevents]; exact h
  · rw [hevents]
  · rw [hbus]
  · unfold Stores.eventAt
    rw [hevents]

theorem guar_insert (hs : s.Indexed)
    (hat : s.eventAt event.tenantId.1 event.idempotencyKey.1 = none)
    (hfree : s.events.byId.get? (event.tenantId.1, event.id) = none) (hid : event.id = ps.id i)
    (ht : event.tenantId.1 = ps.tenant i) :
    (ingesting ps hinj).guar i s (s.insertEvent event) := by
  refine ⟨Persists.insert hs hat hfree, fun id hne => Alone.insert (hid ▸ hne), fun t k hne => ?_⟩
  rw [eventAt_insert hs hfree, if_neg]
  intro hk
  exact hne ((congrArg Prod.fst hk).trans ht)

/-- The rest of a request after the linker: the upsert and the announcement. -/
theorem ingest_safe {link : LinkingOutcome} {idem : Str 1 128}
    (hk : chooseKey (ps.header i) (ps.request i) = .ok idem.1) (hu : Unborn (ps.id i) s) :
    Safe (ingesting ps hinj) i (Answered ps i)
      (ingestEvent (eventOf (ps.env i) (ps.request i) idem link.customerId) >>= fun result =>
        pure (ingestResponse link result)) s := by
  refine Safe.map ?_
  unfold ingestEvent
  apply Safe.atom_bind
  intro t ht hit
  have hut : Unborn (ps.id i) t := hu.alone ht.2
  cases hat : t.eventAt (ps.tenant i) idem.1 with
  | some stored =>
    -- another request was faster
    have hrun : (Stores.upsert (eventOf (ps.env i) (ps.request i) idem link.customerId)).run t =
        (.ok (stored, false), t.replayEvent _) := Stores.upsert_known hat
    rw [hrun]
    refine ⟨hit.replay hat, guar_same hinj rfl rfl, ?_⟩
    have hreplayed : Unborn (ps.id i)
        (t.replayEvent (eventOf (ps.env i) (ps.request i) idem link.customerId)) :=
      ⟨hut.byId, hut.count⟩
    refine Safe.done fun v hv hiv => Answered.unborn hiv (hreplayed.alone hv.2) fun resp hresp => ?_
    cases hresp
    exact ⟨idem.1, stored, hk, hv.1.eventAt hat, rfl, rfl, .inl rfl⟩
  | none =>
    have hfree : t.events.byId.get? (ps.tenant i, ps.id i) = none := hut.byId _
    have hrun : (Stores.upsert (eventOf (ps.env i) (ps.request i) idem link.customerId)).run t =
        (.ok (eventOf (ps.env i) (ps.request i) idem link.customerId, true),
          t.insertEvent (eventOf (ps.env i) (ps.request i) idem link.customerId)) :=
      Stores.upsert_new hit.indexed hat
    rw [hrun]
    generalize hevent : eventOf (ps.env i) (ps.request i) idem link.customerId = event at hrun ⊢
    have hid : event.id = ps.id i := by rw [← hevent]; rfl
    have htenant : event.tenantId.1 = ps.tenant i := by rw [← hevent]; rfl
    have hidem : event.idempotencyKey = idem := by rw [← hevent]; rfl
    have hat' : t.eventAt event.tenantId.1 event.idempotencyKey.1 = none := by
      rw [htenant, hidem]
      exact hat
    have hfree' : t.events.byId.get? (event.tenantId.1, event.id) = none := by
      rw [htenant, hid]
      exact hfree
    refine ⟨hit.insert hat' hfree' hid htenant (hidem ▸ hk),
      guar_insert hinj hit.indexed hat' hfree' hid htenant, ?_⟩
    have hin : ∀ v, (ingesting ps hinj).rely i (t.insertEvent event) v →
        v.events.byId.get? (event.tenantId.1, event.id) = some event ∧
          v.bus.published.count (announcement event) = 0 := by
      intro v hv
      refine ⟨hv.1.byId _ _ (Dict.get?_set_self _ _ _), ?_⟩
      exact (hv.2.count _ hid).trans (hut.count _ hid)
    simp only [if_true]
    apply Safe.atom_bind
    intro v hv hiv
    obtain ⟨hstored, hzero⟩ := hin v hv
    refine ⟨hiv.announce hstored, ⟨⟨fun _ _ h => h, fun _ _ h => h⟩,
      fun id hne => Alone.announce (hid ▸ hne), fun _ _ _ => rfl⟩, ?_⟩
    apply Safe.done
    intro w hw hiw
    have hstored' : w.events.byId.get? (event.tenantId.1, event.id) = some event :=
      hw.1.byId _ _ hstored
    have hone : w.bus.published.count (announcement event) = 1 := by
      refine (hw.2.count _ hid).trans ((count_announce _).trans ?_)
      rw [hzero, if_pos rfl]
    refine ⟨fun k e he heid => ⟨⟨_, rfl, rfl⟩, ?_⟩, fun resp hresp => ?_⟩
    · -- its own id stands for one event
      obtain ⟨j, hj, hjt, -⟩ := hiw.drawn k e he
      have hkey := (hiw.stored k e he).1
      obtain rfl : j = i := hinj (hj.symm.trans heid)
      rw [hkey, hjt, heid, ← htenant, ← hid, hstored'] at he
      cases he
      exact hone
    · cases hresp
      refine ⟨idem.1, event, hk, hiw.eventAt_iff.mpr ⟨⟨_, hstored'⟩, ?_⟩, rfl, ⟨fun _ => hid,
        fun _ => rfl⟩, .inr rfl⟩
      show (event.tenantId.1, event.idempotencyKey.1) = _
      rw [htenant, hidem]

theorem post_safe (hlen : ∀ k, chooseKey (ps.header i) (ps.request i) = .ok k → k.length ≤ 128)
    (hu : Unborn (ps.id i) s) :
    Safe (ingesting ps hinj) i (Answered ps i)
      (postEvent rt (ps.env i) (ps.header i) (ps.request i)) s := by
  have hfail : ∀ (e : ApiError) t, IngestOk ps t → Unborn (ps.id i) t →
      Answered ps i (.error e) t := fun e t hit hut =>
    Answered.unborn hit hut fun resp hresp => nomatch hresp
  refine post_rule (fun t => guar_same hinj rfl rfl)
    (fun e _ => Safe.done fun t ht hit => hfail e t hit (hu.alone ht.2))
    (fun idem t event hk ht hit hat => ?_) (fun idem t hk ht hit hat => ?_)
  · refine Safe.done fun v hv hiv => Answered.unborn hiv ((hu.alone ht.2).alone hv.2) fun resp hresp => ?_
    cases hresp
    exact ⟨idem, event, hk, hv.1.eventAt hat, rfl, rfl, .inl rfl⟩
  · have hbounds : 1 ≤ idem.length ∧ UpTo 128 idem :=
      ⟨(chooseKey_text hk).1, hlen idem hk, (chooseKey_text hk).2⟩
    unfold linkAndIngest
    refine Safe.bind hit (Safe.frame (J := Unborn (ps.id i)) (fun _ _ h hr => h.alone hr.2)
      (fun v c hiv hv => ⟨?_, ?_, ?_⟩) (fun r v hiv hv => ?_) (hu.alone ht.2))
    · exact ⟨hiv.index, hiv.stored, hiv.first, hiv.drawn, hiv.published⟩
    · exact guar_same hinj rfl rfl
    · exact ⟨hv.byId, hv.count⟩
    · cases r with
      | error e => exact Safe.done fun w hw hiw => hfail e w hiw (hv.alone hw.2)
      | ok link =>
        simp only [buildEvent_ok _ _ _ hbounds]
        exact ingest_safe hinj hk hv

end Steps

/-! ## Every interleaving -/

section Race

variable {ι : Type} {rt : Runtime} {ps : Posts ι} {customers : InMemoryCustomerRepository}

/-- The stores before the first request. -/
def emptyStores (customers : InMemoryCustomerRepository) : Stores := { customers }

theorem IngestOk.empty : IngestOk ps (emptyStores customers) :=
  ⟨(fun _ _ h => nomatch h), (fun _ _ h => nomatch h), fun _ _ => rfl, (fun _ _ h => nomatch h),
    (fun _ h => nomatch h)⟩

theorem Unborn.empty (id : String) : Unborn id (emptyStores customers) :=
  ⟨fun _ => rfl, fun _ _ => rfl⟩

variable (hinj : Function.Injective ps.id)
  (hlen : ∀ i k, chooseKey (ps.header i) (ps.request i) = .ok k → k.length ≤ 128)

include hinj hlen

theorem posts_safe (rt : Runtime) (customers : InMemoryCustomerRepository) :
    (ingesting ps hinj).inv (ps.pool rt (emptyStores customers)).state ∧
      ∀ i, Safe (ingesting ps hinj) i (Answered ps i)
        ((ps.pool rt (emptyStores customers)).threads i)
        (ps.pool rt (emptyStores customers)).state :=
  ⟨IngestOk.empty, fun i => post_safe hinj (hlen i) (Unborn.empty _)⟩

variable [DecidableEq ι]

theorem posts_sound (schedule : List ι) :
    IngestOk ps ((ps.pool rt (emptyStores customers)).exec schedule).state :=
  (Pool.sound (posts_safe hinj hlen rt customers).1 (posts_safe hinj hlen rt customers).2 schedule).1

theorem posts_answered {schedule : List ι} {i : ι} {r : Except ApiError EventResponse}
    (hd : ((ps.pool rt (emptyStores customers)).exec schedule).Done i r) :
    Answered ps i r ((ps.pool rt (emptyStores customers)).exec schedule).state :=
  Pool.sound_done (posts_safe hinj hlen rt customers).1 (posts_safe hinj hlen rt customers).2 hd

/-- A call of a request, at any moment. -/
theorem posts_step (schedule : List ι) (i : ι) :
    let c := (ps.pool rt (emptyStores customers)).exec schedule
    Persists c.state (c.step i).state ∧
      ∀ t k, t ≠ ps.tenant i → (c.step i).state.eventAt t k = c.state.eventAt t k := by
  intro c
  obtain ⟨hinv, hsafe⟩ := Pool.sound (posts_safe hinj hlen rt customers).1
    (posts_safe hinj hlen rt customers).2 schedule
  rcases Pool.step_guar hinv hsafe i with heq | hg
  · rw [heq]
    exact ⟨⟨fun _ _ h => h, fun _ _ h => h⟩, fun _ _ _ => rfl⟩
  · exact ⟨hg.1, hg.2.2⟩

/-- What is stored stays while the requests run on. -/
theorem posts_keep (schedule more : List ι) {t k : String} {e : Event}
    (he : ((ps.pool rt (emptyStores customers)).exec schedule).state.eventAt t k = some e) :
    ((ps.pool rt (emptyStores customers)).exec (schedule ++ more)).state.eventAt t k = some e := by
  obtain ⟨hinv, hsafe⟩ := Pool.sound (posts_safe hinj hlen rt customers).1
    (posts_safe hinj hlen rt customers).2 schedule
  rw [Pool.exec_append]
  have hkeep := Pool.exec_relates (P := ingesting ps hinj) (R := Persists) Persists.refl
    (fun _ _ _ => Persists.trans) (fun _ _ _ hg => hg.1) hinv hsafe more
  exact hkeep.eventAt he

end Race

/-- For any requests at the same time, in every interleaving of their calls:

* at every moment, a tenant has at most one event of a key, which is that of the first upsert of the
  key and stays; only stored events are published; and a call of a request changes no event of another
  tenant;
* once all requests are done, every stored event was published exactly once, and a request that did
  not create its event published nothing;
* every answer is 200 or 202 and names the event of its key, so answers for one key agree; exactly one
  answer for a stored event says `created`; and events of different tenants have different ids. -/
theorem exactly_once_ingestion {ι : Type} [DecidableEq ι] (rt : Runtime) (ps : Posts ι)
    (customers : InMemoryCustomerRepository) (hinj : Function.Injective ps.id)
    (hlen : ∀ i k, chooseKey (ps.header i) (ps.request i) = .ok k → k.length ≤ 128)
    (schedule : List ι) :
    let c := (ps.pool rt (emptyStores customers)).exec schedule
    let s := c.state
    (∀ key key' e e', s.events.byId.get? key = some e → s.events.byId.get? key' = some e' →
      Stores.keyOf e = Stores.keyOf e' → key = key' ∧ e = e') ∧
    (∀ t k, s.eventAt t k = s.upserts.find? fun e => Stores.keyOf e = (t, k)) ∧
    (∀ more t k e, s.eventAt t k = some e →
      ((ps.pool rt (emptyStores customers)).exec (schedule ++ more)).state.eventAt t k = some e) ∧
    (∀ entry ∈ s.bus.published, ∃ t k e, s.eventAt t k = some e ∧
      entry = (channelFor e.tenantId.1, envelopeFor e)) ∧
    (∀ i t k, t ≠ ps.tenant i → (c.step i).state.eventAt t k = s.eventAt t k) ∧
    (∀ t t' k k' e e', t ≠ t' → s.eventAt t k = some e → s.eventAt t' k' = some e' → e.id ≠ e'.id) ∧
    (∀ i resp, c.Done i (.ok resp) → (resp.statusCode = 200 ∨ resp.statusCode = 202) ∧
      ∃ k e, chooseKey (ps.header i) (ps.request i) = .ok k ∧ s.eventAt (ps.tenant i) k = some e ∧
        resp.eventId = e.id ∧
        (resp.created = false → ∀ entry ∈ s.bus.published, entry.2.eventId ≠ ps.id i)) ∧
    (c.Finished → ∀ t k e, s.eventAt t k = some e →
      s.bus.published.count (channelFor t, envelopeFor e) = 1 ∧
      ∃ i resp, c.Done i (.ok resp) ∧ ps.tenant i = t ∧
        chooseKey (ps.header i) (ps.request i) = .ok k ∧ resp.created = true ∧
        ∀ j resp', c.Done j (.ok resp') → ps.tenant j = t →
          chooseKey (ps.header j) (ps.request j) = .ok k → resp'.created = true → j = i) := by
  intro c s
  have hs : IngestOk ps s := posts_sound hinj hlen schedule
  have hunique : ∀ key key' e e', s.events.byId.get? key = some e →
      s.events.byId.get? key' = some e' → Stores.keyOf e = Stores.keyOf e' → key = key' ∧ e = e' := by
    intro key key' e e' he he' hk
    have h := (hs.eventAt_iff (t := (Stores.keyOf e).1) (k := (Stores.keyOf e).2)).mpr ⟨⟨key, he⟩, rfl⟩
    have h' := (hs.eventAt_iff (t := (Stores.keyOf e).1) (k := (Stores.keyOf e).2)).mpr
      ⟨⟨key', he'⟩, hk.symm⟩
    rw [h] at h'
    cases h'
    exact ⟨(hs.stored _ _ he).1.trans (hs.stored _ _ he').1.symm, rfl⟩
  have hat : ∀ key e, s.events.byId.get? key = some e →
      s.eventAt e.tenantId.1 e.idempotencyKey.1 = some e := fun key e he =>
    hs.eventAt_iff.mpr ⟨⟨key, he⟩, rfl⟩
  refine ⟨hunique, hs.first, fun more t k e he => posts_keep hinj hlen schedule more he, ?_,
    fun i => (posts_step hinj hlen schedule i).2, ?_, ?_, ?_⟩
  · intro entry hentry
    obtain ⟨key, e, he, rfl⟩ := hs.published entry hentry
    exact ⟨_, _, e, hat key e he, rfl⟩
  · intro t t' k k' e e' hne he he' hid
    obtain ⟨⟨key, hget⟩, hk⟩ := hs.eventAt_iff.mp he
    obtain ⟨⟨key', hget'⟩, hk'⟩ := hs.eventAt_iff.mp he'
    obtain ⟨i, hi, hit, -⟩ := hs.drawn _ _ hget
    obtain ⟨j, hj, hjt, -⟩ := hs.drawn _ _ hget'
    obtain rfl : i = j := hinj (hi.symm.trans (hid.trans hj))
    refine hne ?_
    calc t = e.tenantId.1 := (congrArg Prod.fst hk).symm
      _ = e'.tenantId.1 := hit.trans hjt.symm
      _ = t' := congrArg Prod.fst hk'
  · intro i resp hd
    obtain ⟨k, e, hk, he, hid, hcreated, hstatus⟩ := (posts_answered hinj hlen hd).response resp rfl
    refine ⟨hstatus, k, e, hk, he, hid, fun hno entry hentry heid => ?_⟩
    obtain ⟨key, e', he', rfl⟩ := hs.published entry hentry
    obtain ⟨⟨resp', hresp, hyes⟩, -⟩ := (posts_answered hinj hlen hd).own key e' he' heid
    cases hresp
    rw [hno] at hyes
    cases hyes
  · intro hfin t k e he
    obtain ⟨⟨key, hget⟩, hk⟩ := hs.eventAt_iff.mp he
    obtain ⟨i, hid, hit, hik⟩ := hs.drawn _ _ hget
    obtain ⟨r, hd⟩ := hfin i
    obtain ⟨⟨resp, rfl, hyes⟩, hcount⟩ := (posts_answered hinj hlen hd).own key e hget hid
    have ht : e.tenantId.1 = t := congrArg Prod.fst hk
    have hkey : e.idempotencyKey.1 = k := congrArg Prod.snd hk
    refine ⟨?_, i, resp, hd, hit.symm.trans ht, hkey ▸ hik, hyes, fun j resp' hd' hjt hjk hyes' => ?_⟩
    · rw [← ht]
      exact hcount
    · obtain ⟨k', e', hk', he', -, hcreated, -⟩ :=
        (posts_answered hinj hlen hd').response resp' rfl
      rw [hjk] at hk'
      cases hk'
      rw [hjt, he] at he'
      cases he'
      exact hinj ((hcreated.mp hyes').symm.trans hid)

/-- The same delivery twice. -/
def twoPosts : Posts (Fin 2) where
  env i := { hex := if i = 0 then "0" else "1", now := 0 }
  header _ := some ⟨"k", by decide⟩
  request _ := demoRequest []

theorem exactly_once_ingestion_twoPosts :
    let s := ((twoPosts.pool demoRuntime (emptyStores {})).exec [0, 1, 0, 1, 0, 1, 0, 1]).state
    s.upserts.length = 2 ∧ s.bus.published.length = 1 ∧
      s.eventAt "t1" "k" = s.upserts.find? fun e => Stores.keyOf e = ("t1", "k") := by
  have hinj : Function.Injective twoPosts.id := by
    have h : ∀ i j, twoPosts.id i = twoPosts.id j → i = j := by decide +kernel
    exact fun i j => h i j
  have hlen : ∀ i k, chooseKey (twoPosts.header i) (twoPosts.request i) = .ok k → k.length ≤ 128 := by
    intro i k hk
    have hchoice : chooseKey (twoPosts.header i) (twoPosts.request i) = .ok "k" := rfl
    rw [hchoice] at hk
    cases hk
    decide
  have h := exactly_once_ingestion demoRuntime twoPosts {} hinj hlen [0, 1, 0, 1, 0, 1, 0, 1]
  exact ⟨by decide +kernel, by decide +kernel, h.2.1 "t1" "k"⟩

end PennyCore
