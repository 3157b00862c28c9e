import PennyCore.Orchestrator.Listener

/-!
# One event, one action

From `POST /events` to the pipeline: in every run of the platform, with any requests and any
redeliveries, each stored event has exactly one action.

* `Platform.Aligned` is the invariant: what is published is what is stored, every stored event was
  handled, and every action, queue row and audit row is of a stored event.
* `postStep_cases`: a request stores and publishes one event, or neither.
* `Aligned.handle`: what the first delivery of a stored event does. `Aligned.redeliver`: a later one
  finds the event in the dedup index of the pipeline.
-/

namespace PennyCore

open Lib DecisionPipeline InMemoryCustomerRepository

/-! ## What a request stores -/

section Requests

variable {rt : Runtime} {s : Stores} {p : Post}

/-- The linker's customer id passes the proposal contract. -/
theorem resolved_upTo {customers : InMemoryCustomerRepository} (hs : RepoOk rt customers)
    {request : IngestionRequest} {out : LinkingOutcome}
    (hhex : ∀ n < (linkStep rt customers request).drawn, HexDigits (rt.hex n))
    (hout : (resolveAlone rt customers request).1 = .ok out) : UpTo 64 out.customerId := by
  have hdrawn : ∀ n < (linkStep rt customers request).drawn, UpTo 64 ("cust_" ++ rt.hex n) :=
    fun n hn => (hhex n hn).upTo (by decide)
  obtain ⟨hok, -, hspec⟩ := resolve_spec hs request
  obtain ⟨hlinked, hexplicit⟩ := hspec out hout
  cases hid : request.customerId with
  | some c =>
    rw [← hexplicit c hid]
    exact c.2.2
  | none =>
    cases hhints : request.hints rt with
    | cons h hints =>
      have howner := hlinked h (by rw [hhints]; exact List.mem_cons_self)
      obtain ⟨x, hx⟩ := hok.owner _ _ _ _ howner
      obtain ⟨n, hlt, hn⟩ := hok.customerDrawn _ _ x hx
      rw [hn]
      exact hdrawn n hlt
    | nil =>
      have hfits : NameFits request.payload := by
        by_contra hno
        obtain ⟨e, he⟩ := (linkStep_unnamed (s := customers) hid (fun h hh => by
          rw [hhints] at hh
          cases hh) hno).2
        rw [he] at hout
        cases hout
      obtain ⟨name, hname⟩ := hfits.check
      have hcreate : (createCustomer rt request.tenantId.1 []
          (extractDisplayName request.payload)).run customers =
          (.ok (newCustomer rt request.tenantId name customers),
            customers.created rt request.tenantId name []) := by
        refine (createCustomer_free (fun h (hh : h ∈ []) => nomatch hh)
          (fun h (hh : h ∈ []) => nomatch hh) hname).trans ?_
        rw [if_pos fun h hh => nomatch hh]
      have hatt : (Prog.attempt (ε := LinkingError) (createCustomer rt request.tenantId.1 []
          (extractDisplayName request.payload))).run customers = (.ok (.ok _), _) :=
        congrArg (fun p => (Except.ok p.1, p.2)) hcreate
      have hrun : resolveAlone rt customers request = (.ok {
          customerId := "cust_" ++ rt.hex customers.drawn, customerCreated := true
          matchedKind := none, matchedValue := none, identitiesAdded := [] },
          customers.created rt request.tenantId name []) := by
        unfold IngestionRequest.hints at hhints
        unfold resolveAlone resolveCustomer
        rw [hid]
        simp only [hhints]
        exact Prog.run_bind_ok hatt
      have hlt : customers.drawn < (linkStep rt customers request).drawn := by
        unfold linkStep
        rw [hrun]
        exact Nat.lt_succ_self _
      rw [hrun] at hout
      cases hout
      exact hdrawn _ hlt

/-- A request changes neither the events nor what is published, or it stores and publishes one event,
whose envelope can be planned. -/
theorem postStep_cases (hs : StoresOk rt s)
    (hhex : ∀ n < (postStep rt s p).customers.drawn, HexDigits (rt.hex n))
    (hid : HexDigits p.env.hex) :
    ((postStep rt s p).events = s.events ∧ (postStep rt s p).bus = s.bus) ∨
    ∃ event : Event, Plannable event ∧ event.tenantId = p.request.tenantId ∧
      event.id = p.env.newEventId ∧
      (postStep rt s p).events.byId = s.events.byId.set (event.tenantId.1, event.id) event ∧
      (postStep rt s p).bus.published = s.bus.published ++ [announcement event] := by
  unfold postStep at hhex ⊢
  cases hk : chooseKey p.xIdempotencyKey p.request with
  | error e =>
    rw [alone_refused hk]
    exact .inl ⟨rfl, rfl⟩
  | ok idem =>
    cases hat : s.eventAt p.request.tenantId.1 idem with
    | some event =>
      rw [alone_replay hk hat]
      exact .inl ⟨rfl, rfl⟩
    | none =>
      cases hr : (resolveAlone rt s.customers p.request).1 with
      | error e =>
        rw [alone_linkError hk hat hr]
        exact .inl ⟨rfl, rfl⟩
      | ok link =>
        by_cases hlen : idem.length ≤ 128
        · obtain ⟨event, u, ⟨hbounds, rfl⟩, rfl, hrun⟩ := alone_stored hs.events hk hat hr hlen
          rw [hrun] at hhex ⊢
          refine .inr ⟨eventOf p.env p.request ⟨idem, hbounds⟩ link.customerId, ⟨?_, ?_⟩, rfl, rfl,
            rfl, rfl⟩
          · refine ⟨?_, hid.upTo (by decide)⟩
            show 1 ≤ ("evt_" ++ p.env.hex).length
            rw [String.length_append, hid.1]
            decide
          · intro c hc
            cases hc
            exact resolved_upTo hs.customers hhex hr
        · obtain ⟨e, hrun⟩ := alone_longKey hk hat hr hlen
          rw [hrun]
          exact .inl ⟨rfl, rfl⟩

end Requests

/-! ## What a new event adds to the audit log -/

section Audit

variable {env : Env} {proposal : ActionProposal} {s : DecisionPipeline}

/-- The row is of the tenant and the event. -/
def AuditLogEntry.Concerns (row : AuditLogEntry) (key : String × String) : Prop :=
  row.tenantId.1 = key.1 ∧ row.eventKey = some key.2

theorem mem_log {row : AuditLogEntry} {tr : TrailRow} {now : Time} {t v actionId : Str 1 64}
    (ht : tr.tenantId = t) (he : tr.eventId = v.opt)
    (h : row ∈ (s.log (tr.entry now actionId)).audit.entries) :
    row ∈ s.audit.entries ∨ row.Concerns (t.1, v.1) := by
  change row ∈ s.audit.entries ++ [_] at h
  rcases List.mem_append.mp h with h | h
  · exact .inl h
  · rw [List.mem_singleton.mp h]
    refine .inr ⟨congrArg Subtype.val ht, ?_⟩
    show tr.eventId.map Subtype.val = some v.1
    rw [he]
    rfl

theorem invoke_audit (s : DecisionPipeline) (ex : ActionExecutor) (a : Action) :
    (s.invoke ex a).audit = s.audit := by
  unfold invoke
  split <;> rfl

theorem mem_finish {a : Action} {row : AuditLogEntry}
    (h : row ∈ (finish env a s).2.audit.entries) :
    row ∈ s.audit.entries ∨ row.Concerns a.key := by
  have hinvoke : (s.invoke env.executor a).audit.entries = s.audit.entries :=
    congrArg InMemoryAuditLog.entries (invoke_audit s env.executor a)
  rw [← hinvoke]
  unfold finish at h
  cases ho : env.executor.outcome a with
  | done result =>
    rw [ho] at h
    exact mem_log rfl rfl h
  | raised e =>
    rw [ho] at h
    simp only at h
    split at h
    · cases hm : e.message with
      | none =>
        rw [hm] at h
        exact .inl h
      | some message =>
        rw [hm] at h
        exact mem_log rfl rfl h
    · exact .inl h

theorem mem_proposed {row : AuditLogEntry} (h : row ∈ (proposed env proposal s).audit.entries) :
    row ∈ s.audit.entries ∨ row.Concerns proposal.key := by
  rcases mem_log (t := proposal.tenantId) (v := proposal.eventId) rfl rfl h with h | h
  · exact mem_log rfl rfl h
  · exact .inr h

/-- The audit rows of a new event are of the event. -/
theorem mem_birth {row : AuditLogEntry} (h : row ∈ (birth env proposal s).audit.entries) :
    row ∈ s.audit.entries ∨ row.Concerns proposal.key := by
  unfold birth at h
  cases hd : s.decision proposal with
  | reject =>
    simp only [hd] at h
    rcases mem_log (t := proposal.tenantId) (v := proposal.eventId) rfl rfl h with h | h
    · exact mem_proposed h
    · exact .inr h
  | approvalRequired =>
    simp only [hd] at h
    exact mem_proposed h
  | auto =>
    have hfin : row ∈ (finish env ((materializeAction env proposal).withStatus .pendingExec env.now)
        ((proposed env proposal s).put
          ((materializeAction env proposal).withStatus .pendingExec env.now))).2.audit.entries := by
      simp only [hd] at h
      split at h <;> rename_i heq <;> rw [heq] <;> exact h
    rcases mem_finish hfin with h | h
    · exact mem_proposed h
    · exact .inr h

end Audit

/-! ## The invariant -/

/-- What an event is known by. -/
def Event.key (e : Event) : String × String := (e.tenantId.1, e.id)

/-- The event is in the event store. -/
def Stores.Stored (s : Stores) (e : Event) : Prop := s.events.byId.get? e.key = some e

/-- The event store and the published envelopes. -/
structure Stores.Announced (s : Stores) : Prop where
  keyed : ∀ k e, s.events.byId.get? k = some e → k = e.key
  plannable : ∀ e, s.Stored e → Plannable e
  published : ∀ entry ∈ s.bus.published, ∃ e, s.Stored e ∧ entry = announcement e

/-- The pipeline has handled the events of `known`, and nothing else. -/
structure Handled (known : String × String → Prop) (s : DecisionPipeline) : Prop where
  deduped : Deduped s
  handled : ∀ k, known k → ∃ ids, s.dedup.get? k = some ids
  caused : ∀ id a, s.actions.byId.get? id = some a → known a.key
  audited : ∀ row ∈ s.audit.entries, ∃ k, known k ∧ row.Concerns k

/-- The keys of the stored events. -/
def Stores.EventKey (s : Stores) (k : String × String) : Prop := ∃ e, s.Stored e ∧ e.key = k

structure Platform.Aligned (rt : Runtime) (s : Platform) : Prop where
  stores : StoresOk rt s.stores
  announced : s.stores.Announced
  handled : Handled s.stores.EventKey s.orchestrator.pipeline

section Invariant

variable {rt : Runtime} {setup : HandlerSetup}

/-- The first proposal for an event. -/
theorem Handled.first {known : String × String → Prop} {s : DecisionPipeline} (hs : Handled known s)
    {env : Env} {proposal : ActionProposal} (hnew : ¬ known proposal.key)
    (hfresh : s.actions.byId.get? env.actionId.1 = none) (hcatch : env.executor.Catchable) :
    Handled (fun k => k = proposal.key ∨ known k) ((handleProposal env proposal).run s).2 := by
  have hnone : s.dedup.get? proposal.key = none := by
    rw [Option.eq_none_iff_forall_ne_some]
    intro ids hids
    obtain ⟨id, a, -, ha, -, hkey⟩ := hs.deduped.find hids
    exact hnew (hkey ▸ hs.caused id a ha)
  have hf : PipelineOp.Fresh s (.handleProposal env proposal) := hfresh
  have hstep := dedup_step hs.deduped hf hcatch
  have hstate : pipelineStep s (.handleProposal env proposal) =
      ((handleProposal env proposal).run s).2 := by
    unfold pipelineStep PipelineOp.exec
    exact state_of_wrap _ _ s
  have hbirth : ((handleProposal env proposal).run s).2 = birth env proposal s :=
    handleProposal_birth hs.deduped.sound hfresh hnone
  rw [hstate] at hstep
  obtain ⟨a, -, -, hindexed, -⟩ := handle_step (p := proposal) hs.deduped hfresh hcatch
  refine ⟨hstep.1, ?_, ?_, ?_⟩
  · rintro k (rfl | hk)
    · exact ⟨_, hindexed⟩
    · obtain ⟨ids, hids⟩ := hs.handled k hk
      exact ⟨ids, hstep.2 k ids hids⟩
  · intro id b hb
    have hkey : (birth env proposal s).keyOf id = some b.key := by
      rw [← hbirth]
      unfold keyOf
      rw [hb]
      rfl
    rw [keyOf_birth] at hkey
    split at hkey
    · exact .inl (Option.some.inj hkey).symm
    · obtain ⟨b', hb', hk⟩ := Option.map_eq_some_iff.mp hkey
      exact .inr (hk ▸ hs.caused id b' hb')
  · intro row hrow
    rw [hbirth] at hrow
    rcases mem_birth hrow with hrow | hrow
    · obtain ⟨k, hk, hc⟩ := hs.audited row hrow
      exact ⟨k, .inr hk, hc⟩
    · exact ⟨proposal.key, .inl rfl, hrow⟩

/-- A later proposal for an event. -/
theorem Handled.again {known : String × String → Prop} {s : DecisionPipeline} (hs : Handled known s)
    (env : Env) {proposal : ActionProposal} (hk : known proposal.key) :
    ((handleProposal env proposal).run s).2 = s := by
  obtain ⟨ids, hids⟩ := hs.handled _ hk
  obtain ⟨id, a, rfl, -⟩ := hs.deduped.find hids
  obtain ⟨a', -, -, -, hrun⟩ := hs.deduped.replay env hids
  rw [hrun]

theorem Handled.congr {known known' : String × String → Prop} {s : DecisionPipeline}
    (h : ∀ k, known k ↔ known' k) (hs : Handled known s) : Handled known' s := by
  have heq : known = known' := funext fun k => propext (h k)
  rwa [← heq]

/-- A published envelope that is delivered again changes no part of the pipeline. -/
theorem Platform.Aligned.redeliver {s : Platform} (hs : s.Aligned rt)
    (hmock : setup.client.name = "mock") {channel : String} {envelope : Envelope} (d : Delivery)
    (hpub : (channel, envelope) ∈ s.stores.bus.published) :
    (s.orchestrator.handle setup d envelope).pipeline = s.orchestrator.pipeline := by
  obtain ⟨e, he, heq⟩ := hs.announced.published _ hpub
  obtain rfl : envelope = envelopeFor e := congrArg Prod.snd heq
  obtain ⟨proposal, hkey, hrun⟩ := handle_eq setup hmock (hs.announced.plannable e he) d
    s.orchestrator
  rw [hrun]
  exact hs.handled.again d.env (hkey ▸ ⟨e, he, rfl⟩)

/-- The store with a new event. -/
theorem Stores.Announced.add {s u : Stores} (hs : s.Announced) {e : Event} (hp : Plannable e)
    (hfree : s.events.byId.get? e.key = none) (hbyId : u.events.byId = s.events.byId.set e.key e)
    (hpub : u.bus.published = s.bus.published ++ [announcement e]) :
    u.Announced ∧ ∀ k, (k = e.key ∨ s.EventKey k) ↔ u.EventKey k := by
  have hget : ∀ k, u.events.byId.get? k = if k = e.key then some e else s.events.byId.get? k := by
    intro k
    rw [hbyId, Dict.get?_set]
  have hstored : ∀ x, u.Stored x ↔ x = e ∨ s.Stored x := by
    intro x
    unfold Stored
    rw [hget]
    split
    · rename_i hk
      rw [Option.some_inj, hk, hfree]
      grind
    · rename_i hk
      grind
  refine ⟨⟨?_, ?_, ?_⟩, ?_⟩
  · intro k x hx
    rw [hget] at hx
    split at hx
    · cases hx
      assumption
    · exact hs.keyed k x hx
  · intro x hx
    rcases (hstored x).mp hx with rfl | hx
    · exact hp
    · exact hs.plannable x hx
  · intro entry hentry
    rw [hpub] at hentry
    rcases List.mem_append.mp hentry with hentry | hentry
    · obtain ⟨x, hx, rfl⟩ := hs.published entry hentry
      exact ⟨x, (hstored x).mpr (.inr hx), rfl⟩
    · rw [List.mem_singleton.mp hentry]
      exact ⟨e, (hstored e).mpr (.inl rfl), rfl⟩
  · intro k
    unfold EventKey
    constructor
    · rintro (rfl | ⟨x, hx, rfl⟩)
      · exact ⟨e, (hstored e).mpr (.inl rfl), rfl⟩
      · exact ⟨x, (hstored x).mpr (.inr hx), rfl⟩
    · rintro ⟨x, hx, rfl⟩
      rcases (hstored x).mp hx with rfl | hx
      · exact .inl rfl
      · exact .inr ⟨x, hx, rfl⟩

/-- One operation of the platform. -/
theorem Platform.Aligned.step (hmock : setup.client.name = "mock") {s : Platform}
    (hs : s.Aligned rt) {op : PlatformOp} (hl : op.Legal rt s) :
    (platformStep rt setup s op).Aligned rt := by
  cases op with
  | redeliver envelope d =>
    obtain ⟨channel, hpub⟩ := hl
    refine ⟨hs.stores, hs.announced, ?_⟩
    have hsame := hs.redeliver hmock d hpub
    show Handled _ (s.orchestrator.handle setup d envelope).pipeline
    rw [hsame]
    exact hs.handled
  | post p d =>
    obtain ⟨hid, hhex, hfree, hfresh, hcatch⟩ := hl
    have hok := postStep_ok hs.stores p
    rcases postStep_cases hs.stores hhex hid with ⟨hevents, hbus⟩ |
      ⟨e, hplan, htenant, heid, hbyId, hpub⟩
    · have hdrop : (postStep rt s.stores p).bus.published.drop s.stores.bus.published.length = [] := by
        rw [hbus, List.drop_length]
      have hsame : platformStep rt setup s (.post p d) =
          ⟨postStep rt s.stores p, s.orchestrator⟩ := by
        unfold platformStep
        simp only [hdrop]
        rfl
      rw [hsame]
      have hstored : ∀ x, (postStep rt s.stores p).Stored x ↔ s.stores.Stored x := by
        intro x
        unfold Stores.Stored
        rw [hevents]
      refine ⟨hok, ⟨?_, ?_, ?_⟩, hs.handled.congr fun k => ?_⟩
      · rw [hevents]
        exact hs.announced.keyed
      · exact fun x hx => hs.announced.plannable x ((hstored x).mp hx)
      · intro entry hentry
        rw [hbus] at hentry
        obtain ⟨x, hx, rfl⟩ := hs.announced.published entry hentry
        exact ⟨x, (hstored x).mpr hx, rfl⟩
      · unfold Stores.EventKey
        simp only [hstored]
    · have hkey : s.stores.events.byId.get? e.key = none := by
        unfold Event.key
        rw [htenant, heid]
        exact hfree
      obtain ⟨hann, hkeys⟩ := hs.announced.add hplan hkey hbyId hpub
      have hdrop : (postStep rt s.stores p).bus.published.drop s.stores.bus.published.length =
          [announcement e] := by
        rw [hpub, List.drop_left]
      obtain ⟨proposal, hpkey, hrun⟩ := handle_eq setup hmock hplan d s.orchestrator
      have hpost : platformStep rt setup s (.post p d) =
          ⟨postStep rt s.stores p, s.orchestrator.handle setup d (envelopeFor e)⟩ := by
        unfold platformStep
        simp only [hdrop]
        rfl
      have hunknown : ¬ s.stores.EventKey proposal.key := by
        rintro ⟨x, hx, hxk⟩
        unfold Stores.Stored at hx
        rw [hxk, hpkey] at hx
        change s.stores.events.byId.get? e.key = some x at hx
        rw [hkey] at hx
        cases hx
      have hfirst := hs.handled.first hunknown hfresh hcatch
      rw [hpost]
      refine ⟨hok, hann, ?_⟩
      show Handled _ (s.orchestrator.handle setup d (envelopeFor e)).pipeline
      rw [hrun]
      apply hfirst.congr
      intro k
      rw [hpkey]
      exact hkeys k

theorem Platform.Aligned.initial (policy : DeclarativePolicyEngine) (quorum : QuorumPolicy) :
    (Platform.initial policy quorum).Aligned rt := by
  have hcalm : Calm {} (Platform.initial policy quorum).orchestrator.pipeline :=
    ⟨policy, quorum, rfl⟩
  refine ⟨⟨RepoOn.empty, Stores.Indexed.empty⟩, ⟨?_, ?_, ?_⟩, ⟨?_, ?_, ?_, ?_⟩⟩
  · exact fun k e h => nomatch h
  · exact fun e h => nomatch h
  · exact fun entry h => nomatch h
  · exact Deduped.empty.of_same (Sound.empty.calm hcalm) rfl rfl
  · rintro k ⟨e, he, -⟩
    cases he
  · exact fun id a h => nomatch h
  · exact fun row h => nomatch h

end Invariant

/-! ## Every run -/

/-- In every state of every run of the platform: each stored event has exactly one action of its tenant
and event id; every action, queue row and audit row is of a stored event and has its tenant; and one
more delivery of a published envelope changes nothing of the pipeline: no action, no queue row, no
audit row and no handler call. -/
theorem one_event_one_action {rt : Runtime} {setup : HandlerSetup}
    (hmock : setup.client.name = "mock") {policy : DeclarativePolicyEngine} {quorum : QuorumPolicy}
    {h : List (Platform × PlatformOp)}
    {s : Platform} (hr : PlatformRun rt setup (Platform.initial policy quorum) h s) :
    let pipeline := s.orchestrator.pipeline
    (∀ e, s.stores.Stored e → ∃ id a, pipeline.actions.byId.get? id = some a ∧ a.key = e.key ∧
      ∀ id' a', pipeline.actions.byId.get? id' = some a' → a'.key = e.key → id' = id) ∧
    (∀ id a, pipeline.actions.byId.get? id = some a →
      ∃ e, s.stores.Stored e ∧ a.eventId.1 = e.id ∧ a.tenantId = e.tenantId) ∧
    (∀ id row, pipeline.queue.byId.get? id = some row →
      ∃ a e, pipeline.actions.byId.get? id = some a ∧ s.stores.Stored e ∧ a.eventId.1 = e.id ∧
        row.tenantId = e.tenantId) ∧
    (∀ row ∈ pipeline.audit.entries,
      ∃ e, s.stores.Stored e ∧ row.eventKey = some e.id ∧ row.tenantId = e.tenantId) ∧
    (∀ channel envelope d, (channel, envelope) ∈ s.stores.bus.published →
      (platformStep rt setup s (.redeliver envelope d)).stores = s.stores ∧
      (platformStep rt setup s (.redeliver envelope d)).orchestrator.pipeline = pipeline) := by
  intro pipeline
  have hs : s.Aligned rt := hr.holds (Platform.Aligned.initial policy quorum) fun s op hs hl =>
    hs.step hmock hl
  have hded := hs.handled.deduped
  have hcaused : ∀ id a, pipeline.actions.byId.get? id = some a →
      ∃ e, s.stores.Stored e ∧ a.eventId.1 = e.id ∧ a.tenantId = e.tenantId := by
    intro id a ha
    obtain ⟨e, he, hk⟩ := hs.handled.caused id a ha
    exact ⟨e, he, (congrArg Prod.snd hk).symm, Subtype.ext (congrArg Prod.fst hk).symm⟩
  refine ⟨?_, hcaused, ?_, ?_, ?_⟩
  · intro e he
    obtain ⟨ids, hids⟩ := hs.handled.handled e.key ⟨e, he, rfl⟩
    obtain ⟨id, a, rfl, ha, -, hk⟩ := hded.find hids
    refine ⟨id, a, ha, hk, fun id' a' ha' hk' => ?_⟩
    have hother := hded.indexed id' e.key (by unfold keyOf; rw [ha', Option.map_some, hk'])
    rw [hids] at hother
    cases hother
    rfl
  · intro id row hrow
    obtain ⟨a, ha, ht⟩ := hded.sound.owner id row hrow
    obtain ⟨e, he, hid, htenant⟩ := hcaused id a ha
    exact ⟨a, e, ha, he, hid, ht.symm.trans htenant⟩
  · intro row hrow
    obtain ⟨k, ⟨e, he, rfl⟩, ht, hev⟩ := hs.handled.audited row hrow
    exact ⟨e, he, hev, Subtype.ext ht⟩
  · exact fun channel envelope d hpub => ⟨rfl, hs.redeliver hmock d hpub⟩

/-- Draws that all differ; the first has 24 digits. -/
def paddedRuntime : Runtime where
  caseData := CaseData.ascii
  hex := fun n => String.ofList (List.replicate (n + 24) 'a')
  hex_inj := fun m n h => by
    have hlen := congrArg String.length h
    simpa only [String.length_ofList, List.length_replicate, Nat.add_right_cancel_iff] using hlen

def mockSetup : HandlerSetup where
  planner := demoPlannerRuntime
  client := { name := "mock", complete := fun _ _ => some "{}" }
  isoformat t := toString t

def demoDelivery : Delivery := ⟨demoUuid, demoEnv (defaultExecutors fun _ => "")⟩

def numberedPost : Post :=
  { demoPost (some keyHeader) with env := { hex := "000000000000000000000000", now := 0 } }

/-- The envelope of the event of `numberedPost`. -/
def numberedEnvelope : Envelope where
  eventId := "evt_000000000000000000000000"
  tenantId := "t1"
  customerId := some ("cust_" ++ paddedRuntime.hex 0)
  channelCode := "email"
  eventType := "message_received"
  receivedAt := 0

/-- A request, and two more deliveries of what it published. -/
theorem one_event_one_action_redelivered :
    let ops : List PlatformOp := [.post numberedPost demoDelivery,
      .redeliver numberedEnvelope demoDelivery, .redeliver numberedEnvelope demoDelivery]
    let s := ops.foldl (platformStep paddedRuntime mockSetup) (Platform.initial {} {})
    s.stores.bus.published.map Prod.snd = [numberedEnvelope] ∧
      ∀ e, s.stores.Stored e → ∃ id a, s.orchestrator.pipeline.actions.byId.get? id = some a ∧
        a.key = e.key := by
  intro ops s
  have hmock : mockSetup.client.name = "mock" := rfl
  have hpost : (PlatformOp.post numberedPost demoDelivery).Legal paddedRuntime
      (Platform.initial {} {}) :=
    ⟨by decide +kernel, by decide +kernel, by decide +kernel, by decide +kernel,
      ActionExecutor.defaultExecutors_catchable _⟩
  have hpub : (channelFor "t1", numberedEnvelope) ∈
      (postStep paddedRuntime {} numberedPost).bus.published := by decide +kernel
  have hr : PlatformRun paddedRuntime mockSetup (Platform.initial {} {})
      (Run.trace (platformStep paddedRuntime mockSetup) (Platform.initial {} {}) ops) s :=
    Run.ofOps ⟨hpost, ⟨_, hpub⟩, ⟨_, hpub⟩, trivial⟩
  refine ⟨by decide +kernel, fun e he => ?_⟩
  obtain ⟨id, a, ha, hk, -⟩ := (one_event_one_action hmock hr).1 e he
  exact ⟨id, a, ha, hk⟩

end PennyCore
