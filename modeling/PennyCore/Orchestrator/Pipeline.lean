import PennyCore.Orchestrator.Audit
import PennyCore.Orchestrator.Executor
import PennyCore.Orchestrator.Policy
import PennyCore.Orchestrator.Queue

/-!
# The decision pipeline

`src/orchestrator/decision_pipeline.py`: a proposal becomes an action, the policy decides on it, and
it is rejected, executed or queued for approval; votes on a queued action execute or reject it.

* `DecisionPipeline` is the state: the policy tables, the quorum rules, the action store, the
  approval queue, the audit log and the dedup index. `calls` is the record of the handler calls,
  each with the audit trail of its action at that moment; the code has no such field and no
  operation reads it.
* `Env` is what one call takes from outside: the two `uuid4()` draws, the clock and the executor.
  The executor is given to each call, so a handler whose answer changes from call to call is
  covered.
* The operations are `handleProposal`, `approveAction`, `rejectAction`, the reads, and the setters
  of policies and quorum rules. `PipelineOp.exec` runs one of them.
-/

namespace PennyCore

open Lib

/-- What the pipeline raises. -/
inductive PipelineError where
  /-- `ActionNotFoundError`: no action with this id. -/
  | actionNotFound (actionId : String)
  | queue (e : QueueError)
  | validation (e : ValidationError)
  /-- What a handler raised outside `Exception`. -/
  | handler (e : Raised)
  /-- What `str()` raised on an exception that was caught. -/
  | unprintable (e : Raised)
  | policy (e : PolicyError)
  | quorum (msg : String)
  deriving DecidableEq, Repr

structure InMemoryActionStore where
  byId : Dict String Action := ∅
  byTenant : Dict String (List String) := ∅

namespace InMemoryActionStore

def put (store : InMemoryActionStore) (action : Action) : InMemoryActionStore where
  byId := store.byId.set action.id.1 action
  byTenant :=
    if (store.byId.get? action.id.1).isSome then store.byTenant
    else store.byTenant.push action.tenantId.1 action.id.1

def listForTenant (store : InMemoryActionStore) (tenantId : String) : List Action :=
  (store.byTenant.getList tenantId).filterMap store.byId.get?

end InMemoryActionStore

/-- A call of a handler: its argument, and the audit rows of the action at that moment. -/
structure HandlerCall where
  action : Action
  trail : List AuditLogEntry

structure DecisionPipeline where
  policy : DeclarativePolicyEngine := {}
  queue : InMemoryApprovalQueue := {}
  audit : InMemoryAuditLog := {}
  actions : InMemoryActionStore := {}
  quorum : QuorumPolicy := {}
  dedup : Dict (String × String) (List String) := ∅
  calls : List HandlerCall := []

/-- What a call takes from outside. -/
structure Env where
  actionUuid : Uuid
  queueUuid : Uuid
  now : Time
  executor : ActionExecutor

/-- `_default_action_id`. -/
def defaultActionId (u : Uuid) : Str 1 64 := u.tagged "act_" (by decide)

/-- The id that the call gives to a new action. -/
def Env.actionId (env : Env) : Str 1 64 := defaultActionId env.actionUuid

namespace DecisionPipeline

abbrev M : Type → Type := Py PipelineError DecisionPipeline

/-- A method of the queue. -/
def onQueue {α : Type} (m : Py QueueError InMemoryApprovalQueue α) : M α :=
  Py.zoom .queue DecisionPipeline.queue (fun q s => { s with queue := q }) m

/-- `self.actions.put(action)`. -/
def putAction (action : Action) : M Unit :=
  Py.modify fun s => { s with actions := s.actions.put action }

/-- `_write_audit`. -/
def writeAudit (now : Time) (kind : AuditKind) (tenantId actionId eventId : Str 1 64)
    (actorKind : AuditActorKind) (actorId : Option String) (payload : Payload) : M Unit := do
  let actorId ← Py.ofExcept ((Str.checkOpt 128 "AuditLogEntry" "actor_id" actorId).mapError
    .validation)
  Py.modify fun s => { s with
    audit := s.audit.write {
      id := none, tenantId, ts := now, kind, actionId := Str.opt actionId
      causedByEventId := Str.opt eventId, actorKind, actorId, payload } }

/-- The record of the handler call that `execute` makes, if it makes one. -/
def recordCall (ex : ActionExecutor) (action : Action) : M Unit :=
  if ex.Invokes action then
    Py.modify fun s => { s with calls := s.calls ++ [⟨action, s.audit.trail action.id.1⟩] }
  else pure ()

/-- `_execute`. An exception of the handler makes a failed action, whose text is then written to the
audit log; what is no `Exception` is raised after the handler call is on record. -/
def execute (env : Env) (action : Action) : M Action := do
  recordCall env.executor action
  match env.executor.execute env.now action with
  | .ok executed => do
    putAction executed
    let executedPayload := (executed.payload.get? "_executed_payload").getD (.dict [])
    writeAudit env.now .execution executed.tenantId executed.id executed.eventId .system none
      (.of [("executed_payload", executedPayload)])
    return executed
  | .error e =>
    if e.isException then do
      let failed := { action with status := .executionFailed, updatedAt := env.now }
      putAction failed
      match e.message with
      | none => Py.raise (.unprintable e)
      | some message => do
        writeAudit env.now .executionFailed action.tenantId action.id action.eventId .system none
          (.of [("error_kind", .str e.kind), ("error_message", .str message)])
        return failed
    else Py.raise (.handler e)

/-- `_materialize_action`. -/
def materializeAction (env : Env) (proposal : ActionProposal) : Action where
  id := env.actionId
  tenantId := proposal.tenantId
  proposalId := proposal.id
  eventId := proposal.eventId
  customerId := proposal.customerId
  actionType := proposal.actionType
  status := .pendingPolicy
  payload := proposal.payload
  createdAt := env.now
  updatedAt := env.now
  executedAt := none

/-- `_apply_decision`. -/
def applyDecision (env : Env) (action : Action) : PolicyDecision → M Action
  | .reject => do
    let rejected := { action with status := .rejected, updatedAt := env.now }
    putAction rejected
    writeAudit env.now .rejection rejected.tenantId rejected.id rejected.eventId .system none
      (.of [("reason", .str "policy=reject"), ("by", .str "policy_engine")])
    return rejected
  | .approvalRequired => do
    let queued := { action with status := .pendingApproval, updatedAt := env.now }
    putAction queued
    let s ← Py.get
    let quorumRule := s.quorum.resolve queued.tenantId.1 queued.actionType
    let _ ← onQueue (InMemoryApprovalQueue.enqueue env.queueUuid env.now queued.id.1
      queued.tenantId.1 none quorumRule.requiredApprovals quorumRule.eligibleApprovers)
    return queued
  | .auto => do
    let pendingExec := { action with status := .pendingExec, updatedAt := env.now }
    putAction pendingExec
    execute env pendingExec

/-- `self.actions.get`. -/
def storedAction (actionId : String) : M Action := do
  let s ← Py.get
  match s.actions.byId.get? actionId with
  | some action => return action
  | none => Py.raise (.actionNotFound actionId)

/-- `[self.actions.get(a) for a in cached_ids]`. -/
def storedActions : List String → M (List Action)
  | [] => return []
  | id :: ids => do
    let action ← storedAction id
    let actions ← storedActions ids
    return action :: actions

def handleProposal (env : Env) (proposal : ActionProposal) : M (List Action) := do
  let key := (proposal.tenantId.1, proposal.eventId.1)
  let s ← Py.get
  match s.dedup.get? key with
  | some cachedIds => storedActions cachedIds
  | none => do
    let action := materializeAction env proposal
    putAction action
    writeAudit env.now .proposal proposal.tenantId action.id proposal.eventId
      (if proposal.proposedBy = .llm then .llm else .fallback) none
      (.of [("proposed_by", .str proposal.proposedBy.value),
        ("action_type", .str proposal.actionType.value),
        ("reasoning", (proposal.payload.get? "_planner_reasoning").getD (.str ""))])
    let s ← Py.get
    let decision := s.policy.decide proposal.tenantId.1 (.inl proposal.actionType)
    writeAudit env.now .decision proposal.tenantId action.id proposal.eventId .system none
      (.of [("decision", .str decision.value), ("action_type", .str proposal.actionType.value)])
    let resolved ← applyDecision env action decision
    Py.modify fun s => { s with dedup := s.dedup.set key [resolved.id.1] }
    return [resolved]

/-- `get_action`: a foreign action is not found. `approveAction` and `rejectAction` start with the
same lookup and the same tenant check. -/
def getAction (actionId : String) (expectedTenantId : Option String) : M Action := do
  let action ← storedAction actionId
  if ∃ t ∈ expectedTenantId, action.tenantId.1 ≠ t then Py.raise (.actionNotFound actionId)
  else return action

def approveAction (env : Env) (actionId decidedBy : String) (expectedTenantId : Option String) :
    M Action := do
  let action ← getAction actionId expectedTenantId
  let rule ← onQueue (InMemoryApprovalQueue.approve env.now actionId (some decidedBy))
  let quorumReached := decide (rule.state = .approved)
  writeAudit env.now .approval action.tenantId action.id action.eventId .human (some decidedBy)
    (.of [("prior_status", .str action.status.value),
      ("approvals_recorded", .int rule.approvals.length),
      ("required_approvals", .int rule.requiredApprovals),
      ("quorum_reached", .bool quorumReached)])
  if ¬ quorumReached then return action
  else do
    let promoted := { action with status := .pendingExec, updatedAt := env.now }
    putAction promoted
    execute env promoted

def rejectAction (env : Env) (actionId reason decidedBy : String)
    (expectedTenantId : Option String) : M Action := do
  let action ← getAction actionId expectedTenantId
  let _ ← onQueue (InMemoryApprovalQueue.reject env.now actionId reason (some decidedBy))
  writeAudit env.now .rejection action.tenantId action.id action.eventId .human (some decidedBy)
    (.of [("prior_status", .str action.status.value), ("reason", .str reason)])
  let rejected := { action with status := .rejected, updatedAt := env.now }
  putAction rejected
  return rejected

def listPendingActions (s : DecisionPipeline) (tenantId : String) : List Action :=
  (s.queue.listPending tenantId).filterMap fun rule => s.actions.byId.get? rule.actionId.1

/-- `policy.set_policies`. -/
def setPolicies (tenantId : String) (policies : Dict String PyVal) : M Unit :=
  Py.zoom .policy DecisionPipeline.policy (fun p s => { s with policy := p })
    (DeclarativePolicyEngine.setPolicies tenantId policies)

/-- `quorum.set_rule`. -/
def setRule (tenantId : String) (actionType : ActionType) (requiredApprovals : Int)
    (eligibleApprovers : Option (List String)) : M QuorumRule :=
  Py.zoom .quorum DecisionPipeline.quorum (fun q s => { s with quorum := q })
    (QuorumPolicy.setRule tenantId actionType requiredApprovals eligibleApprovers)

end DecisionPipeline

/-! ## Operations -/

/-- An operation on the pipeline. The last five are reads. -/
inductive PipelineOp where
  | setPolicies (tenantId : String) (policies : Dict String PyVal)
  | setRule (tenantId : String) (actionType : ActionType) (requiredApprovals : Int)
      (eligibleApprovers : Option (List String))
  | clearRules
  | handleProposal (env : Env) (proposal : ActionProposal)
  | approveAction (env : Env) (actionId decidedBy : String) (expectedTenantId : Option String)
  | rejectAction (env : Env) (actionId reason decidedBy : String) (expectedTenantId : Option String)
  | getAction (actionId : String) (expectedTenantId : Option String)
  | listPendingActions (tenantId : String)
  | listActions (tenantId : String)
  | auditForTenant (tenantId : String)
  | auditForAction (actionId : String) (tenantId : Option String)
  | auditForEvent (eventId : String) (tenantId : Option String)

/-- What an operation returns. -/
inductive Response where
  | unit
  | rule (r : QuorumRule)
  | action (a : Action)
  | actions (as : List Action)
  | rows (es : List AuditLogEntry)

open DecisionPipeline in
def PipelineOp.exec : PipelineOp → Py PipelineError DecisionPipeline Response
  | .setPolicies t policies => do
    DecisionPipeline.setPolicies t policies
    return .unit
  | .setRule t ty n pool => return .rule (← DecisionPipeline.setRule t ty n pool)
  | .clearRules => do
    Py.modify fun s => { s with quorum := s.quorum.clear }
    return .unit
  | .handleProposal env p => return .actions (← DecisionPipeline.handleProposal env p)
  | .approveAction env id by' t => return .action (← DecisionPipeline.approveAction env id by' t)
  | .rejectAction env id reason by' t =>
    return .action (← DecisionPipeline.rejectAction env id reason by' t)
  | .getAction id t => return .action (← DecisionPipeline.getAction id t)
  | .listPendingActions t => return .actions ((← Py.get).listPendingActions t)
  | .listActions t => return .actions ((← Py.get).actions.listForTenant t)
  | .auditForTenant t => return .rows ((← Py.get).audit.entriesForTenant t)
  | .auditForAction id t => return .rows ((← Py.get).audit.entriesForAction id t)
  | .auditForEvent id t => return .rows ((← Py.get).audit.entriesForEvent id t)

/-- The pipeline after an operation. -/
def pipelineStep (s : DecisionPipeline) (op : PipelineOp) : DecisionPipeline := (op.exec.run s).2

/-- The id that the operation may give to a new action is not in use: `uuid4()` does not repeat. -/
def PipelineOp.Fresh (s : DecisionPipeline) : PipelineOp → Prop
  | .handleProposal env _ => s.actions.byId.get? env.actionId.1 = none
  | _ => True

end PennyCore
