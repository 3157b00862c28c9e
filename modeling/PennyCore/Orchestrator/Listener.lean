import PennyCore.ContextEngine.ApiAtomicity
import PennyCore.Orchestrator.Dedup
import PennyCore.Orchestrator.Planner

/-!
# The event listener

`src/orchestrator/event_listener.py` and `make_planning_handler` of `planner.py`: every envelope that
ingestion publishes on the shared in-memory bus goes to the planner, and the proposal to the pipeline.

* `Orchestrator.handle` is the handler. What it catches leaves no trace but in the log.
* `Platform` is the context engine and the orchestrator on one bus. The listener runs while the
  request publishes; nothing of the handler reads the stores, so `platformStep` runs it after the
  request. An envelope that was published may be delivered again at any time.
-/

namespace PennyCore

open Lib

/-! ## The handler -/

/-- The envelope as a dictionary; `isoformat` writes its time. -/
def Envelope.toDict (isoformat : Time → String) (e : Envelope) : Payload :=
  .of [("event_id", .str e.eventId), ("tenant_id", .str e.tenantId),
    ("customer_id", match e.customerId with | some c => .str c | none => .none),
    ("channel_code", .str e.channelCode), ("event_type", .str e.eventType),
    ("received_at", .str (isoformat e.receivedAt))]

structure ProposalsBuffer where
  max : Nat := 50
  byTenant : Dict String (List ActionProposal) := ∅

/-- `append`: the oldest go when there are more than `max`. -/
def ProposalsBuffer.append (b : ProposalsBuffer) (proposal : ActionProposal) : ProposalsBuffer :=
  let buf := b.byTenant.getList proposal.tenantId.1 ++ [proposal]
  { b with byTenant := b.byTenant.set proposal.tenantId.1 (buf.drop (buf.length - b.max)) }

/-- The planner and its client, as the handler is made with them. -/
structure HandlerSetup where
  planner : PlannerRuntime
  client : LLMClient
  isoformat : Time → String

/-- What one delivery takes from outside. -/
structure Delivery where
  proposalUuid : Uuid
  env : Env

structure Orchestrator where
  proposals : ProposalsBuffer := {}
  pipeline : DecisionPipeline := {}

/-- `make_planning_handler(proposals, pipeline=pipeline)` on one envelope. -/
def Orchestrator.handle (setup : HandlerSetup) (d : Delivery) (envelope : Envelope)
    (o : Orchestrator) : Orchestrator :=
  match proposeAction setup.planner setup.client d.proposalUuid
    ⟨envelope.toDict setup.isoformat, ""⟩ with
  | .error _ => o
  | .ok proposal =>
    { proposals := o.proposals.append proposal
      pipeline := ((DecisionPipeline.handleProposal d.env proposal).run o.pipeline).2 }

/-! ## The platform -/

structure Platform where
  stores : Stores := {}
  orchestrator : Orchestrator := {}

inductive PlatformOp where
  /-- A `POST /events`, and the delivery of what it publishes. -/
  | post (p : Post) (d : Delivery)
  /-- One more delivery of an envelope. -/
  | redeliver (envelope : Envelope) (d : Delivery)

def platformStep (rt : Runtime) (setup : HandlerSetup) (s : Platform) : PlatformOp → Platform
  | .post p d =>
    let stores := postStep rt s.stores p
    { stores
      orchestrator := (stores.bus.published.drop s.stores.bus.published.length).foldl
        (fun o entry => o.handle setup d entry.2) s.orchestrator }
  | .redeliver envelope d => { s with orchestrator := s.orchestrator.handle setup d envelope }

/-- A draw `uuid4().hex[:24]`. -/
def HexDigits (s : String) : Prop :=
  s.length = 24 ∧ ∀ c ∈ s.toList, c ∈ "0123456789abcdef".toList

instance (s : String) : Decidable (HexDigits s) :=
  haveI : Decidable (∀ c ∈ s.toList, c ∈ "0123456789abcdef".toList) := List.decidableBAll _ _
  inferInstanceAs (Decidable (_ ∧ _))

/-- An id with a prefix. -/
theorem HexDigits.upTo {pre s : String} (h : HexDigits s) (hpre : UpTo 40 pre) :
    UpTo 64 (pre ++ s) := by
  refine ⟨?_, hpre.2.append fun c hc => ?_⟩
  · rw [String.length_append, h.1]
    exact Nat.add_le_add_right hpre.1 24
  · have hdigits : ∀ c ∈ "0123456789abcdef".toList, isSurrogate c = false :=
      @of_decide_eq_true _ (List.decidableBAll _ _) (by decide)
    exact hdigits c (h.2 c hc)

/-- The draws `uuid4().hex[:24]` of a request have 24 digits, its event id and action id are not in use,
and no handler raises what the pipeline does not catch. What is delivered again was published. -/
def PlatformOp.Legal (rt : Runtime) (s : Platform) : PlatformOp → Prop
  | .post p d => HexDigits p.env.hex ∧
    (∀ n < (postStep rt s.stores p).customers.drawn, HexDigits (rt.hex n)) ∧
    s.stores.events.byId.get? (p.request.tenantId.1, p.env.newEventId) = none ∧
    s.orchestrator.pipeline.actions.byId.get? d.env.actionId.1 = none ∧ d.env.executor.Catchable
  | .redeliver envelope _ => ∃ channel, (channel, envelope) ∈ s.stores.bus.published

/-- A platform with empty stores; the pipeline has any policies and quorum rules. -/
def Platform.initial (policy : DeclarativePolicyEngine) (quorum : QuorumPolicy) : Platform where
  orchestrator := { pipeline := { policy, quorum } }

abbrev PlatformRun (rt : Runtime) (setup : HandlerSetup) (s₀ : Platform) :
    List (Platform × PlatformOp) → Platform → Prop :=
  Run (platformStep rt setup) (PlatformOp.Legal rt) s₀

/-! ## The plan of an envelope -/

/-- The envelope of an event whose ids the proposal contract takes. -/
structure Plannable (event : Event) : Prop where
  id : 1 ≤ event.id.length ∧ UpTo 64 event.id
  customerId : ∀ c ∈ event.customerId, UpTo 64 c

section Plan

variable (setup : HandlerSetup) {event : Event}

/-- The fields of a dictionary that is made of an envelope. -/
theorem toDict_get (isoformat : Time → String) (e : Envelope) :
    envGet (e.toDict isoformat) "tenant_id" = .str e.tenantId ∧
      envGet (e.toDict isoformat) "event_id" = .str e.eventId ∧
      envGet (e.toDict isoformat) "customer_id" =
        (match e.customerId with | some c => .str c | none => .none) ∧
      (e.toDict isoformat).get? "event_type" = some (.str e.eventType) := by
  unfold envGet Envelope.toDict Payload.of
  simp [Dict.get?_set]

/-- The mock client plans every event that the contract takes. -/
theorem plan_ok (hmock : setup.client.name = "mock") (hp : Plannable event) (u : Uuid) :
    ∃ proposal, proposeAction setup.planner setup.client u
        ⟨(envelopeFor event).toDict setup.isoformat, ""⟩ = .ok proposal ∧
      proposal.key = (event.tenantId.1, event.id) := by
  obtain ⟨htenant, hevent, hcustomer, htype⟩ :=
    toDict_get setup.isoformat (envelopeFor event)
  have hne : ∀ x : String, 1 ≤ x.length → (PyVal.str x).truthy = true := by
    intro x hx
    have hx' : x ≠ "" := by
      rintro rfl
      simp at hx
    simpa [PyVal.truthy] using hx'
  have hcust : ∃ c, proposalCustomer (match event.customerId with
      | some c => .str c
      | none => .none) = .ok c := by
    cases hc : event.customerId with
    | none => exact ⟨none, rfl⟩
    | some c =>
      refine ⟨some ⟨c, Nat.zero_le _, hp.customerId c hc⟩, ?_⟩
      change (Str.checkOpt 64 "ActionProposal" "customer_id" (some c)).mapError _ = _
      rw [Str.checkOpt_ok (hp.customerId c hc)]
      rfl
  obtain ⟨c, hc⟩ := hcust
  have hbuild : ∀ actionType proposedBy payload, ∃ proposal,
      buildProposal u ((envelopeFor event).toDict setup.isoformat) actionType proposedBy payload =
        .ok proposal ∧ proposal.key = (event.tenantId.1, event.id) := by
    intro actionType proposedBy payload
    refine ⟨⟨defaultProposalId u, event.tenantId, ⟨event.id, hp.id⟩, c, actionType, proposedBy,
      payload⟩, ?_, rfl⟩
    unfold buildProposal
    rw [htenant, hevent, hcustomer]
    simp only [envelopeFor, proposalField, Str.check_ok event.tenantId.2, Str.check_ok hp.id, hc]
    rfl
  unfold proposeAction
  simp only [htenant, hevent, hmock, if_true]
  have htruthy : ¬ (¬ (PyVal.str (envelopeFor event).tenantId).truthy = true ∨
      ¬ (PyVal.str (envelopeFor event).eventId).truthy = true) := by
    rintro (h | h)
    · exact h (hne _ event.tenantId.2.1)
    · exact h (hne _ hp.id.1)
  rw [if_neg htruthy]
  unfold fallbackProposal
  simp only [htype, Option.getD_some, fallbackRule, bind, Except.bind]
  exact hbuild _ _ _

/-- The handler of a plannable event hands a proposal for it to the pipeline. -/
theorem handle_eq (hmock : setup.client.name = "mock") (hp : Plannable event) (d : Delivery)
    (o : Orchestrator) : ∃ proposal : ActionProposal,
      proposal.key = (event.tenantId.1, event.id) ∧
      (o.handle setup d (envelopeFor event)).pipeline =
        ((DecisionPipeline.handleProposal d.env proposal).run o.pipeline).2 := by
  obtain ⟨proposal, hplan, hkey⟩ := plan_ok setup hmock hp d.proposalUuid
  refine ⟨proposal, hkey, ?_⟩
  unfold Orchestrator.handle
  rw [hplan]

end Plan
end PennyCore
