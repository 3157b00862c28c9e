import PennyCore.Orchestrator.EventWiring
import PennyCore.Orchestrator.WireFormat

/-!
# The two deployments

The orchestrator listens to a bus in memory (`attach_in_memory_bus`), or to Redis (`lifespan` with
`REDIS_URL`), where it gets each envelope as the JSON text of its dictionary.

* `Orchestrator.handleDict` is the handler on a dictionary.
* `proposeAction_congr`: the planner reads of an envelope what `get` answers.
* `deployments_agree`: after the same publishes both orchestrators are in the same state.
-/

namespace PennyCore

open Lib

/-- `make_planning_handler` on an envelope that came as a dictionary. -/
def Orchestrator.handleDict (setup : HandlerSetup) (d : Delivery) (envelope : Payload)
    (o : Orchestrator) : Orchestrator :=
  match proposeAction setup.planner setup.client d.proposalUuid ⟨envelope, ""⟩ with
  | .error _ => o
  | .ok proposal =>
    { proposals := o.proposals.append proposal
      pipeline := ((DecisionPipeline.handleProposal d.env proposal).run o.pipeline).2 }

/-- The composed handler under the Redis listener: `chain_handlers` lets no exception out. -/
def redisHandler : EventHandler := fun _ _ => none

theorem redisHandler_catchable (seen : List EventEnvelope) (envelope : EventEnvelope) (e : Raised)
    (h : redisHandler seen envelope = some e) : e.isException = true := by
  cases h

section Deployments

variable {env env' : Payload}

theorem envGet_congr (h : ∀ key, env.get? key = env'.get? key) (key : String) :
    envGet env key = envGet env' key := by
  rw [envGet, envGet, h]

theorem buildProposal_congr (h : ∀ key, env.get? key = env'.get? key) (u : Uuid)
    (actionType : ActionType) (proposedBy : ProposedBy) (payload : Payload) :
    buildProposal u env actionType proposedBy payload =
      buildProposal u env' actionType proposedBy payload := by
  unfold buildProposal
  simp only [envGet_congr h]

/-- The planner reads of an envelope what `get` answers. -/
theorem proposeAction_congr (h : ∀ key, env.get? key = env'.get? key) (rt : PlannerRuntime)
    (client : LLMClient) (u : Uuid) (briefText : String) :
    proposeAction rt client u ⟨env, briefText⟩ = proposeAction rt client u ⟨env', briefText⟩ := by
  have hfallback : ∀ flags, fallbackProposal rt u ⟨env, briefText⟩ flags =
      fallbackProposal rt u ⟨env', briefText⟩ flags := by
    intro flags
    unfold fallbackProposal
    simp only [h, buildProposal_congr h]
  have hprompt : plannerPrompt rt ⟨env, briefText⟩ = plannerPrompt rt ⟨env', briefText⟩ := by
    unfold plannerPrompt formatUserPrompt promptHead
    simp only [envGet_congr h]
  unfold proposeAction
  simp only [envGet_congr h, hfallback, hprompt, buildProposal_congr h]

/-- The dictionary that the worker reads has the entries of the envelope. -/
theorem received_payload (isoformat : Time → String) (e : Envelope) (key : String) :
    (objPayload (e.received isoformat)).get? key = (e.toDict isoformat).get? key := by
  obtain ⟨eventId, tenantId, customerId, channelCode, eventType, receivedAt⟩ := e
  simp only [objPayload, Envelope.received, Envelope.toDict, Payload.of, Dict.get?_set,
    List.filterMap_cons, List.filterMap_nil, List.foldl_cons, List.foldl_nil]
  -- the entries stand in another order
  grind

theorem handleDict_received (setup : HandlerSetup) (d : Delivery) (e : Envelope) (o : Orchestrator) :
    o.handleDict setup d (objPayload (e.received setup.isoformat)) = o.handle setup d e := by
  have hplan := proposeAction_congr (received_payload setup.isoformat e) setup.planner setup.client
    d.proposalUuid ""
  unfold Orchestrator.handleDict Orchestrator.handle
  cases hdict : proposeAction setup.planner setup.client d.proposalUuid
      ⟨e.toDict setup.isoformat, ""⟩ with
  | error err => simp only [hplan, hdict]
  | ok proposal => simp only [hplan, hdict]

/-- What is heard of publishes on the attached bus. -/
theorem hear_all {κ : Type} [DecidableEq κ] (setup : HandlerSetup) {t : Hearing κ} {b : κ}
    (ht : t.attached = some b) (calls : List ((String × Envelope) × Delivery)) :
    ((calls.map fun c => WiringOp.publish b c.1.1 c.1.2 c.2).foldl (hearingStep setup)
      t).orchestrator = calls.foldl (fun o c => o.handle setup c.2 c.1.2) t.orchestrator := by
  induction calls generalizing t with
  | nil => rfl
  | cons c calls ih =>
    rw [List.map_cons, List.foldl_cons, List.foldl_cons, hearingStep, if_pos ht]
    exact ih ht

/-- The process with the bus in memory and the one behind Redis: after the same publishes, with
whatever else the subscription met, the worker is up, and the proposals, the queue, the action store
and the audit log are the same. -/
theorem deployments_agree {κ : Type} [DecidableEq κ] {setup : HandlerSetup} {J : JsonValues}
    (hJ : JsonVal.ReadsBack J) (hroom : 0 < J.recursionLimit) {D : Decoders}
    (hD : D.loads = jsonLoads J) {w : Wired κ} (h : w.Detached) (b : κ)
    (calls : List ((String × Envelope) × Delivery)) {events : List PumpEvent}
    (hcarries : Carries D (heard events) ((calls.foldl (fun sent c =>
      RedisEventBus.publish setup.isoformat sent c.1.1 c.1.2) []).map Prod.snd)) :
    let worker := Pump.run D redisHandler {} events
    let process := (.attach b :: calls.map fun c => .publish b c.1.1 c.1.2 c.2).foldl
      (wiringStep setup) w
    Pump.Survived D events worker ∧ worker.handled.length = calls.length ∧
      process.app.orchestrator = (worker.handled.zip (calls.map Prod.snd)).foldl
        (fun o x => o.handleDict setup x.2 (objPayload x.1)) {} := by
  intro worker process
  have hmessages : Carries D (heard events)
      (((calls.map Prod.fst).map Prod.snd).map fun e => (e.toJson setup.isoformat).dumps) := by
    have hpublish := @publish_all setup.isoformat (calls.map Prod.fst) []
    rw [List.foldl_map, List.nil_append] at hpublish
    rw [hpublish, List.map_map] at hcarries
    rw [List.map_map]
    exact hcarries
  obtain ⟨hobjects, hfatal⟩ := hmessages.objects hJ hroom hD
  have hsurvived : Pump.Survived D events worker :=
    (pump_survives redisHandler_catchable events).mpr hfatal
  have hhandled : worker.handled = calls.map fun c => c.1.2.received setup.isoformat := by
    rw [hsurvived.handled, hobjects, List.map_map, List.map_map]
    rfl
  refine ⟨hsurvived, by rw [hhandled, List.length_map], ?_⟩
  rw [(wiring_refines setup h _).orchestrator, List.foldl_cons]
  rw [hear_all setup (show (hearingStep setup {} (.attach b)).attached = some b from rfl) calls,
    hhandled, List.zip_map', List.foldl_map]
  simp only [handleDict_received]
  rfl

/-- A timeout before the message. -/
theorem deployments_agree_timeout :
    let worker := Pump.run wireDecoders redisHandler {}
      [.poll .nothing, .poll (.message (.str (numberedEnvelope.toJson mockSetup.isoformat).dumps))]
    let process := [WiringOp.attach true,
      .publish true (channelFor "t1") numberedEnvelope demoDelivery].foldl
      (wiringStep mockSetup) ⟨fun _ => {}, {}, 0⟩
    worker.handled.length = 1 ∧ process.app.orchestrator =
      (worker.handled.zip [demoDelivery]).foldl
        (fun o x => o.handleDict mockSetup x.2 (objPayload x.1)) {} := by
  have hdetached : (⟨fun _ => {}, {}, 0⟩ : Wired Bool).Detached :=
    ⟨fun _ _ => List.not_mem_nil, fun _ => List.nodup_nil, rfl⟩
  have hcarries : Carries wireDecoders
      [.nothing, .message (.str (numberedEnvelope.toJson mockSetup.isoformat).dumps)]
      [(numberedEnvelope.toJson mockSetup.isoformat).dumps] :=
    .noise rfl rfl (.message rfl .nil)
  exact (deployments_agree JsonVal.pythonValues_readsBack (by decide) rfl hdetached true
    [((channelFor "t1", numberedEnvelope), demoDelivery)] hcarries).2

end Deployments
end PennyCore
