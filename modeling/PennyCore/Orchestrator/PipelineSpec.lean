import PennyCore.Orchestrator.Pipeline
import PennyCore.Orchestrator.QueueInvariant

/-!
# What the pipeline's operations do

One lemma for each operation, from which the rest of the development works:

* The writes, as functions on the state: `put`, `log`, `invoke`, `storeRow`, `insertRow`, `remember`.
* `TrailRow`: an audit row without its number, time and action; `TrailRow.entry` makes the row. The
  rows of an action's life are named (`TrailRow.proposal`, …, `TrailRow.veto`).
* `finish`: an execution, from the handler call to the last row (`execute_run`).
* `handleProposal_known`, `handleProposal_new`, `approveAction_run`, `rejectAction_run`: the results
  and the states of the operations, with what they raise.
* `Queued`: the queue is one that a run of the queue reaches, so the queue's invariant holds of it.
-/

namespace PennyCore

open Lib

/-! ## Audit rows of an action -/

/-- An audit row without its number, time and action. -/
structure TrailRow where
  kind : AuditKind
  tenantId : Str 1 64
  eventId : Option (Str 0 64)
  actorKind : AuditActorKind
  actorId : Option (Str 0 128)
  payload : Payload

def TrailRow.entry (r : TrailRow) (now : Time) (actionId : Str 1 64) : AuditLogEntry where
  id := none
  tenantId := r.tenantId
  ts := now
  kind := r.kind
  actionId := actionId.opt
  causedByEventId := r.eventId
  actorKind := r.actorKind
  actorId := r.actorId
  payload := r.payload

def AuditLogEntry.row (e : AuditLogEntry) : TrailRow :=
  ⟨e.kind, e.tenantId, e.causedByEventId, e.actorKind, e.actorId, e.payload⟩

@[simp] theorem TrailRow.actionKey_entry (r : TrailRow) (now : Time) (actionId : Str 1 64) :
    (r.entry now actionId).actionKey = some actionId.1 := rfl

namespace TrailRow

def proposal (p : ActionProposal) : TrailRow where
  kind := .proposal
  tenantId := p.tenantId
  eventId := p.eventId.opt
  actorKind := if p.proposedBy = .llm then .llm else .fallback
  actorId := none
  payload := .of [("proposed_by", .str p.proposedBy.value), ("action_type", .str p.actionType.value),
    ("reasoning", (p.payload.get? "_planner_reasoning").getD (.str ""))]

def decision (p : ActionProposal) (d : PolicyDecision) : TrailRow where
  kind := .decision
  tenantId := p.tenantId
  eventId := p.eventId.opt
  actorKind := .system
  actorId := none
  payload := .of [("decision", .str d.value), ("action_type", .str p.actionType.value)]

/-- A rejection by the policy. -/
def refusal (tenantId eventId : Str 1 64) : TrailRow where
  kind := .rejection
  tenantId := tenantId
  eventId := eventId.opt
  actorKind := .system
  actorId := none
  payload := .of [("reason", .str "policy=reject"), ("by", .str "policy_engine")]

/-- The `k`-th approval of an action that needs `n`. -/
def approval (tenantId eventId : Str 1 64) (voter : Str 0 128) (prior : ActionStatus) (k : Nat)
    (n : Int) (reached : Bool) : TrailRow where
  kind := .approval
  tenantId := tenantId
  eventId := eventId.opt
  actorKind := .human
  actorId := some voter
  payload := .of [("prior_status", .str prior.value), ("approvals_recorded", .int k),
    ("required_approvals", .int n), ("quorum_reached", .bool reached)]

/-- A rejection by a human. -/
def veto (tenantId eventId : Str 1 64) (voter : Str 0 128) (prior : ActionStatus)
    (reason : String) : TrailRow where
  kind := .rejection
  tenantId := tenantId
  eventId := eventId.opt
  actorKind := .human
  actorId := some voter
  payload := .of [("prior_status", .str prior.value), ("reason", .str reason)]

def execution (tenantId eventId : Str 1 64) (result : List (PyVal × PyVal)) : TrailRow where
  kind := .execution
  tenantId := tenantId
  eventId := eventId.opt
  actorKind := .system
  actorId := none
  payload := .of [("executed_payload", .dict result)]

def failure (tenantId eventId : Str 1 64) (kind message : String) : TrailRow where
  kind := .executionFailed
  tenantId := tenantId
  eventId := eventId.opt
  actorKind := .system
  actorId := none
  payload := .of [("error_kind", .str kind), ("error_message", .str message)]

end TrailRow

/-- The action with another status. -/
def Action.withStatus (a : Action) (status : ActionStatus) (now : Time) : Action :=
  { a with status := status, updatedAt := now }

@[simp] theorem Action.withStatus_id (a : Action) (status : ActionStatus) (now : Time) :
    (a.withStatus status now).id = a.id := rfl

@[simp] theorem ActionExecutor.executed_id (a : Action) (now : Time)
    (result : List (PyVal × PyVal)) : (ActionExecutor.executed now a result).id = a.id := rfl

namespace DecisionPipeline

variable {s : DecisionPipeline} {env : Env}

/-! ## Writes -/

def put (s : DecisionPipeline) (a : Action) : DecisionPipeline :=
  { s with actions := s.actions.put a }

def log (s : DecisionPipeline) (e : AuditLogEntry) : DecisionPipeline :=
  { s with audit := s.audit.write e }

/-- The record of the handler call, if a handler is called. -/
def invoke (s : DecisionPipeline) (ex : ActionExecutor) (a : Action) : DecisionPipeline :=
  if ex.Invokes a then { s with calls := s.calls ++ [⟨a, s.audit.trail a.id.1⟩] } else s

/-- A queue row became `row`. -/
def storeRow (s : DecisionPipeline) (row : ApprovalRule) : DecisionPipeline :=
  { s with queue := s.queue.store row }

/-- A new queue row. -/
def insertRow (s : DecisionPipeline) (row : ApprovalRule) : DecisionPipeline :=
  { s with queue := {
      byId := s.queue.byId.set row.actionId.1 row
      pendingByTenant := s.queue.pendingByTenant.push row.tenantId.1 row.actionId.1 } }

/-- The entry of the dedup index. -/
def remember (s : DecisionPipeline) (key : String × String) (actionId : String) :
    DecisionPipeline := { s with dedup := s.dedup.set key [actionId] }

/-- The row that `enqueue` makes for a queued action. -/
def newRow (env : Env) (a : Action) (rule : QuorumRule) : ApprovalRule where
  id := defaultQueueId env.queueUuid
  tenantId := a.tenantId
  actionId := a.id
  state := .pending
  assignedTo := none
  requiredApprovals := rule.requiredApprovals
  requiredApprovals_ge := rule.required_ge
  eligibleApprovers := rule.eligibleApprovers
  approvals := []
  enqueuedAt := env.now
  decidedAt := none
  decidedBy := none
  decisionNote := none
  rowVersion := 1

@[simp] theorem invoke_actions (s : DecisionPipeline) (ex : ActionExecutor) (a : Action) :
    (s.invoke ex a).actions = s.actions := by
  unfold invoke; split <;> rfl

/-- A stored action keeps its tenant in a write of its next version. -/
theorem same_put {a a' b : Action} (hid : a'.id = a.id) (ht : a'.tenantId = a.tenantId)
    (hb : (s.put a).actions.byId.get? a'.id.1 = some b) : b.tenantId = a'.tenantId := by
  change (s.actions.byId.set a.id.1 a).get? a'.id.1 = some b at hb
  rw [hid, Dict.get?_set_self] at hb
  cases hb
  exact ht.symm

theorem putAction_run (a : Action) (s : DecisionPipeline) :
    (putAction a).run s = (.ok (), s.put a) := rfl

/-- A row without an actor id always passes the contract. -/
theorem writeAudit_run (now : Time) (kind : AuditKind) (tenantId actionId eventId : Str 1 64)
    (actorKind : AuditActorKind) (payload : Payload) (s : DecisionPipeline) :
    (writeAudit now kind tenantId actionId eventId actorKind none payload).run s =
      (.ok (), s.log (TrailRow.entry ⟨kind, tenantId, eventId.opt, actorKind, none, payload⟩ now
        actionId)) := rfl

/-- A row with an actor id passes the contract up to 128 characters. -/
theorem writeAudit_actor {voter : String} (h : UpTo 128 voter) (now : Time) (kind : AuditKind)
    (tenantId actionId eventId : Str 1 64) (actorKind : AuditActorKind) (payload : Payload)
    (s : DecisionPipeline) :
    (writeAudit now kind tenantId actionId eventId actorKind (some voter) payload).run s =
      (.ok (), s.log (TrailRow.entry ⟨kind, tenantId, eventId.opt, actorKind,
        some ⟨voter, Nat.zero_le _, h⟩, payload⟩ now actionId)) := by
  unfold writeAudit
  rw [Str.checkOpt_ok h]
  rfl

theorem writeAudit_actor_error {voter : String} (h : ¬ UpTo 128 voter) (now : Time)
    (kind : AuditKind) (tenantId actionId eventId : Str 1 64) (actorKind : AuditActorKind)
    (payload : Payload) (s : DecisionPipeline) :
    (writeAudit now kind tenantId actionId eventId actorKind (some voter) payload).run s =
      (.error (.validation ⟨"AuditLogEntry", "actor_id"⟩), s) := by
  unfold writeAudit
  rw [Str.checkOpt_error h]
  rfl

/-! ## Execution -/

/-- An execution of the action `a`: the result and the state, from `s`. -/
def finish (env : Env) (a : Action) (s : DecisionPipeline) :
    Except PipelineError Action × DecisionPipeline :=
  match env.executor.outcome a with
  | .done result =>
    let executed := ActionExecutor.executed env.now a result
    (.ok executed, ((s.invoke env.executor a).put executed).log
      ((TrailRow.execution a.tenantId a.eventId result).entry env.now a.id))
  | .raised e =>
    if e.isException then
      let failed := a.withStatus .executionFailed env.now
      match e.message with
      | some message => (.ok failed, ((s.invoke env.executor a).put failed).log
          ((TrailRow.failure a.tenantId a.eventId e.kind message).entry env.now a.id))
      | none => (.error (.unprintable e), (s.invoke env.executor a).put failed)
    else (.error (.handler e), s.invoke env.executor a)

theorem execute_run (env : Env) (a : Action) (s : DecisionPipeline) :
    (execute env a).run s = finish env a s := by
  unfold execute finish
  have hinv : (recordCall env.executor a).run s = (.ok (), s.invoke env.executor a) := by
    unfold recordCall invoke
    rw [Py.run_ite]
    split <;> rfl
  rw [Py.run_bind_ok hinv, ActionExecutor.execute_eq]
  cases env.executor.outcome a with
  | done result =>
    have hget : (a.payload.set "_executed_payload" (.dict result)).get? "_executed_payload" =
        some (.dict result) := Dict.get?_set_self _ _ _
    simp only [ActionExecutor.executed, hget]
    rfl
  | raised e =>
    simp only
    rw [Py.run_ite]
    split
    · cases e.message <;> rfl
    · rfl

/-- Handlers whose exceptions are caught let every execution return. -/
theorem finish_ok (env : Env) (a : Action) (s : DecisionPipeline) (h : env.executor.Catchable) :
    ∃ a' s', finish env a s = (.ok a', s') ∧ a'.id = a.id ∧ a'.tenantId = a.tenantId ∧
      a'.eventId = a.eventId := by
  unfold finish
  cases ho : env.executor.outcome a with
  | done result => exact ⟨_, _, rfl, rfl, rfl, rfl⟩
  | raised e =>
    obtain ⟨hexc, htext⟩ := h.outcome ho
    obtain ⟨message, hmessage⟩ := Option.isSome_iff_exists.mp htext
    simp only [hexc, hmessage, ↓reduceIte]
    exact ⟨_, _, rfl, rfl, rfl, rfl⟩

@[simp] theorem materializeAction_id (env : Env) (p : ActionProposal) :
    (materializeAction env p).id = env.actionId := rfl

@[simp] theorem newRow_actionId (env : Env) (a : Action) (rule : QuorumRule) :
    (newRow env a rule).actionId = a.id := rfl

/-! ## Lookups -/

/-- The action, unless another tenant is expected. -/
def lookup (s : DecisionPipeline) (actionId : String) (expectedTenantId : Option String) :
    Option Action :=
  (s.actions.byId.get? actionId).filter fun a => ∀ t ∈ expectedTenantId, a.tenantId.1 = t

theorem lookup_some {actionId : String} {expected : Option String} {a : Action} :
    s.lookup actionId expected = some a ↔
      s.actions.byId.get? actionId = some a ∧ ∀ t ∈ expected, a.tenantId.1 = t := by
  unfold lookup
  rw [Option.filter_eq_some_iff, decide_eq_true_eq]

theorem storedAction_run (s : DecisionPipeline) (actionId : String) :
    (storedAction actionId).run s =
      match s.actions.byId.get? actionId with
      | some a => (.ok a, s)
      | none => (.error (.actionNotFound actionId), s) := by
  unfold storedAction
  rw [Py.run_bind_ok (Py.run_get s)]
  cases s.actions.byId.get? actionId <;> rfl

theorem getAction_run (s : DecisionPipeline) (actionId : String) (expected : Option String) :
    (getAction actionId expected).run s =
      match s.lookup actionId expected with
      | some a => (.ok a, s)
      | none => (.error (.actionNotFound actionId), s) := by
  unfold getAction
  have h := storedAction_run s actionId
  cases hg : s.actions.byId.get? actionId with
  | none =>
    have hl : s.lookup actionId expected = none := by unfold lookup; rw [hg]; rfl
    rw [hg] at h
    rw [Py.run_bind_error h, hl]
  | some a =>
    rw [hg] at h
    rw [Py.run_bind_ok h, Py.run_ite]
    by_cases hm : ∃ t ∈ expected, a.tenantId.1 ≠ t
    · have hl : s.lookup actionId expected = none := by
        rw [Option.eq_none_iff_forall_ne_some]
        intro b hb
        obtain ⟨hb, ht⟩ := lookup_some.mp hb
        obtain ⟨t, hte, hne⟩ := hm
        rw [hg] at hb
        cases hb
        exact hne (ht t hte)
      rw [if_pos hm, hl]
      rfl
    · have hl : s.lookup actionId expected = some a :=
        lookup_some.mpr ⟨hg, fun t ht => by
          by_contra hne
          exact hm ⟨t, ht, hne⟩⟩
      rw [if_neg hm, hl]
      rfl

/-! ## Proposals -/

/-- A proposal whose event was handled. -/
theorem handleProposal_known {p : ActionProposal} {ids : List String}
    (h : s.dedup.get? (p.tenantId.1, p.eventId.1) = some ids) :
    (handleProposal env p).run s = (storedActions ids).run s := by
  unfold handleProposal
  rw [Py.run_bind_ok (Py.run_get s), h]

theorem storedActions_single {id : String} {a : Action} (h : s.actions.byId.get? id = some a) :
    (storedActions [id]).run s = (.ok [a], s) := by
  have h1 := storedAction_run s id
  rw [h] at h1
  unfold storedActions
  rw [Py.run_bind_ok h1]
  rfl

/-- The decision that the policy in force takes on a proposal. -/
def decision (s : DecisionPipeline) (p : ActionProposal) : PolicyDecision :=
  s.policy.decide p.tenantId.1 (.inl p.actionType)

/-- The quorum rule in force for a proposal. -/
def quorumRule (s : DecisionPipeline) (p : ActionProposal) : QuorumRule :=
  s.quorum.resolve p.tenantId.1 p.actionType

/-- The state with the new action and its `PROPOSAL` and `DECISION` rows. -/
def proposed (env : Env) (p : ActionProposal) (s : DecisionPipeline) : DecisionPipeline :=
  ((s.put (materializeAction env p)).log ((TrailRow.proposal p).entry env.now env.actionId)).log
    ((TrailRow.decision p (s.decision p)).entry env.now env.actionId)

/-- A quorum rule passes every check that `enqueue` makes. -/
theorem enqueueChecks_rule (a t : Str 1 64) (rule : QuorumRule) :
    InMemoryApprovalQueue.enqueueChecks a.1 t.1 rule.requiredApprovals rule.eligibleApprovers =
      .ok () := by
  have hne : ∀ x : Str 1 64, x.1 ≠ "" := fun x hx => by
    have hlen := x.2.1
    rw [hx] at hlen
    exact absurd hlen (by decide)
  exact InMemoryApprovalQueue.enqueueChecks_ok.mpr ⟨hne a, hne t, rule.required_ge,
    fun pool hp => ⟨rule.pool_nodup pool hp, rule.pool_fits pool hp⟩⟩

theorem enqueue_new {q : InMemoryApprovalQueue} (env : Env) (a : Action) (rule : QuorumRule)
    (h : q.byId.get? a.id.1 = none) :
    (InMemoryApprovalQueue.enqueue env.queueUuid env.now a.id.1 a.tenantId.1 none
      rule.requiredApprovals rule.eligibleApprovers).run q =
      (.ok (newRow env a rule),
       { byId := q.byId.set a.id.1 (newRow env a rule)
         pendingByTenant := q.pendingByTenant.push a.tenantId.1 a.id.1 }) := by
  have hrow : InMemoryApprovalQueue.newRow env.queueUuid env.now a.id.1 a.tenantId.1 none
      rule.requiredApprovals rule.eligibleApprovers = .ok (newRow env a rule) := by
    unfold InMemoryApprovalQueue.newRow
    rw [Str.check_ok a.tenantId.2, Str.check_ok a.id.2]
    simp only [bind, Except.bind, Str.checkOpt, rule.required_ge, ↓reduceDIte]
    rfl
  rw [InMemoryApprovalQueue.enqueue_spec, enqueueChecks_rule, h, hrow]

/-- The first proposal of an event, given an id that neither the store nor the queue knows. -/
theorem handleProposal_new {p : ActionProposal} (env : Env)
    (h : s.dedup.get? (p.tenantId.1, p.eventId.1) = none)
    (hq : s.queue.byId.get? env.actionId.1 = none) :
    (handleProposal env p).run s =
      let a := materializeAction env p
      let key := (p.tenantId.1, p.eventId.1)
      match s.decision p with
      | .reject =>
        (.ok [a.withStatus .rejected env.now],
          (((proposed env p s).put (a.withStatus .rejected env.now)).log
            ((TrailRow.refusal p.tenantId p.eventId).entry env.now env.actionId)).remember key
              env.actionId.1)
      | .approvalRequired =>
        (.ok [a.withStatus .pendingApproval env.now],
          (((proposed env p s).put (a.withStatus .pendingApproval env.now)).insertRow
            (newRow env (a.withStatus .pendingApproval env.now) (s.quorumRule p))).remember key
              env.actionId.1)
      | .auto =>
        match finish env (a.withStatus .pendingExec env.now)
            ((proposed env p s).put (a.withStatus .pendingExec env.now)) with
        | (.ok resolved, s') => (.ok [resolved], s'.remember key resolved.id.1)
        | (.error e, s') => (.error e, s') := by
  unfold handleProposal
  rw [Py.run_bind_ok (Py.run_get s), h]
  simp only
  rw [Py.run_bind_ok (putAction_run _ _), Py.run_bind_ok (writeAudit_run _ _ _ _ _ _ _ _),
    Py.run_bind_ok (Py.run_get _), Py.run_bind_ok (writeAudit_run _ _ _ _ _ _ _ _)]
  show Py.run (applyDecision env (materializeAction env p) (s.decision p) >>= _)
    (proposed env p s) = _
  cases s.decision p with
  | reject => rfl
  | approvalRequired =>
    have hrun : (applyDecision env (materializeAction env p) .approvalRequired).run
        (proposed env p s) = (.ok ((materializeAction env p).withStatus .pendingApproval env.now),
          ((proposed env p s).put ((materializeAction env p).withStatus .pendingApproval
            env.now)).insertRow (newRow env ((materializeAction env p).withStatus .pendingApproval
              env.now) (s.quorumRule p))) := by
      unfold applyDecision
      have henq := enqueue_new (q := s.queue) env
        ((materializeAction env p).withStatus .pendingApproval env.now) (s.quorumRule p) hq
      rw [Py.run_bind_ok (putAction_run _ _), Py.run_bind_ok (Py.run_get _)]
      refine Py.run_bind_ok (a := newRow env ((materializeAction env p).withStatus
        .pendingApproval env.now) (s.quorumRule p)) ?_
      unfold onQueue
      rw [Py.run_zoom]
      exact congrArg (fun r => (Except.mapError PipelineError.queue r.1,
        { (proposed env p s).put ((materializeAction env p).withStatus .pendingApproval env.now)
          with queue := r.2 })) henq
    rw [Py.run_bind_ok hrun]
    rfl
  | auto =>
    have hrun : (applyDecision env (materializeAction env p) .auto).run (proposed env p s) =
        finish env ((materializeAction env p).withStatus .pendingExec env.now)
          ((proposed env p s).put ((materializeAction env p).withStatus .pendingExec env.now)) := by
      unfold applyDecision
      rw [Py.run_bind_ok (putAction_run _ _)]
      exact execute_run _ _ _
    simp only
    rcases hf : finish env ((materializeAction env p).withStatus .pendingExec env.now)
      ((proposed env p s).put ((materializeAction env p).withStatus .pendingExec env.now)) with
      ⟨e | resolved, s'⟩
    · rw [hf] at hrun
      rw [Py.run_bind_error hrun]
    · rw [hf] at hrun
      rw [Py.run_bind_ok hrun]
      rfl

end DecisionPipeline

/-! ## Votes -/

/-- A run of the queue reaches this state. -/
def Queued (q : InMemoryApprovalQueue) : Prop := ∃ h, QueueRun h q

namespace Queued

variable {q : InMemoryApprovalQueue}

theorem empty : Queued {} := ⟨[], .start⟩

theorem step (h : Queued q) (op : QueueOp) : Queued (queueStep q op) :=
  let ⟨_, hr⟩ := h
  ⟨_, hr.next trivial⟩

theorem key (h : Queued q) {id : String} {row : ApprovalRule} (hrow : q.byId.get? id = some row) :
    row.actionId.1 = id :=
  let ⟨_, hr⟩ := h
  ((inv_run hr).row id row hrow).key

theorem approve (h : Queued q) (now : Time) (id voter : String) :
    (InMemoryApprovalQueue.approve now id (some voter)).run q =
      match q.byId.get? id with
      | none => (.error (.approvalNotFound id), q)
      | some row =>
        if row.Votable voter then (.ok (row.vote now voter), q.store (row.vote now voter))
        else (.error (InMemoryApprovalQueue.voteError row voter), q) := by
  cases hg : q.byId.get? id with
  | none => exact InMemoryApprovalQueue.approve_absent now _ hg
  | some row =>
    obtain rfl := h.key hg
    obtain ⟨hist, hr⟩ := h
    exact InMemoryApprovalQueue.approve_spec now voter hg ((inv_run hr).row _ row hg).open_lt

theorem reject (h : Queued q) (now : Time) (id reason voter : String) :
    (InMemoryApprovalQueue.reject now id reason (some voter)).run q =
      match q.byId.get? id with
      | none => (.error (.approvalNotFound id), q)
      | some row =>
        if row.Vetoable voter then
          (.ok (row.veto now reason voter), q.store (row.veto now reason voter))
        else (.error (InMemoryApprovalQueue.vetoError row voter), q) := by
  cases hg : q.byId.get? id with
  | none => exact InMemoryApprovalQueue.reject_absent now reason _ hg
  | some row =>
    obtain rfl := h.key hg
    exact InMemoryApprovalQueue.reject_spec now reason voter hg

end Queued

namespace DecisionPipeline

variable {s : DecisionPipeline}

/-- An approval that the queue accepted, from the queue's write to the end of the call. -/
def recordVote (env : Env) (a : Action) (row : ApprovalRule) (voter : String)
    (s : DecisionPipeline) : Except PipelineError Action × DecisionPipeline :=
  let voted := s.storeRow (row.vote env.now voter)
  if h : UpTo 128 voter then
    let logged := voted.log ((TrailRow.approval a.tenantId a.eventId ⟨voter, Nat.zero_le _, h⟩
      a.status (row.approvals.length + 1) row.requiredApprovals (decide row.LastVote)).entry env.now
        a.id)
    if row.LastVote then
      finish env (a.withStatus .pendingExec env.now) (logged.put (a.withStatus .pendingExec env.now))
    else (.ok a, logged)
  else (.error (.validation ⟨"AuditLogEntry", "actor_id"⟩), voted)

/-- A rejection that the queue accepted, from the queue's write to the end of the call. -/
def recordVeto (env : Env) (a : Action) (row : ApprovalRule) (reason voter : String)
    (s : DecisionPipeline) : Except PipelineError Action × DecisionPipeline :=
  let vetoed := s.storeRow (row.veto env.now reason voter)
  if h : UpTo 128 voter then
    (.ok (a.withStatus .rejected env.now),
      (vetoed.log ((TrailRow.veto a.tenantId a.eventId ⟨voter, Nat.zero_le _, h⟩ a.status
        reason).entry env.now a.id)).put (a.withStatus .rejected env.now))
  else (.error (.validation ⟨"AuditLogEntry", "actor_id"⟩), vetoed)

/-- An approval or a rejection: the action is looked up, the queue decides on its row, and `rest` goes on
with what the queue has written. -/
theorem decision_run {m : Py QueueError InMemoryApprovalQueue ApprovalRule} {id : String}
    {accepts : ApprovalRule → Prop} [DecidablePred accepts] {write : ApprovalRule → ApprovalRule}
    {refusal : ApprovalRule → QueueError}
    (hm : m.run s.queue =
      match s.queue.byId.get? id with
      | none => (.error (.approvalNotFound id), s.queue)
      | some row =>
        if accepts row then (.ok (write row), s.queue.store (write row))
        else (.error (refusal row), s.queue))
    (expected : Option String) (rest : Action → ApprovalRule → M Action) :
    (getAction id expected >>= fun a => onQueue m >>= rest a).run s =
      match s.lookup id expected with
      | none => (.error (.actionNotFound id), s)
      | some a =>
        match s.queue.byId.get? id with
        | none => (.error (.queue (.approvalNotFound id)), s)
        | some row =>
          if accepts row then (rest a (write row)).run (s.storeRow (write row))
          else (.error (.queue (refusal row)), s) := by
  have hlook := getAction_run s id expected
  cases hl : s.lookup id expected with
  | none =>
    rw [hl] at hlook
    rw [Py.run_bind_error hlook]
  | some a =>
    rw [hl] at hlook
    rw [Py.run_bind_ok hlook]
    -- the queue's method, on the queue inside the pipeline
    have hzoom : (onQueue m).run s = (m.run s.queue).map (Except.mapError .queue)
        (fun q => { s with queue := q }) := Py.run_zoom _ _ _ _ _
    rw [hm] at hzoom
    cases hg : s.queue.byId.get? id with
    | none =>
      rw [hg] at hzoom
      rw [Py.run_bind_error (t := s) hzoom]
    | some row =>
      rw [hg] at hzoom
      simp only at hzoom ⊢
      by_cases hv : accepts row
      · rw [if_pos hv] at hzoom
        rw [if_pos hv, Py.run_bind_ok (t := s.storeRow (write row)) hzoom]
      · rw [if_neg hv] at hzoom
        rw [if_neg hv, Py.run_bind_error (t := s) hzoom]

theorem approveAction_run (hq : Queued s.queue) (env : Env) (id voter : String)
    (expected : Option String) :
    (approveAction env id voter expected).run s =
      match s.lookup id expected with
      | none => (.error (.actionNotFound id), s)
      | some a =>
        match s.queue.byId.get? id with
        | none => (.error (.queue (.approvalNotFound id)), s)
        | some row =>
          if row.Votable voter then recordVote env a row voter s
          else (.error (.queue (InMemoryApprovalQueue.voteError row voter)), s) := by
  unfold approveAction
  refine (decision_run (hq.approve env.now id voter) expected _).trans ?_
  cases s.lookup id expected with
  | none => rfl
  | some a =>
    cases s.queue.byId.get? id with
    | none => rfl
    | some row =>
      simp only
      by_cases hv : row.Votable voter
      · rw [if_pos hv, if_pos hv]
        have hstate : decide ((row.vote env.now voter).state = .approved) = decide row.LastVote := by
          rw [ApprovalRule.vote_state]
          by_cases hlast : row.LastVote <;> simp [hlast, hv.1]
        simp only [hstate, ApprovalRule.vote_approvals, ApprovalRule.vote_requiredApprovals,
          List.length_append, List.length_singleton]
        unfold recordVote
        by_cases hlen : UpTo 128 voter
        · rw [Py.run_bind_ok (writeAudit_actor hlen _ _ _ _ _ _ _ _)]
          rw [dif_pos hlen]
          by_cases hlast : row.LastVote
          · simp only [hlast, decide_true, not_true, ↓reduceIte]
            rw [Py.run_bind_ok (putAction_run _ _)]
            exact execute_run _ _ _
          · simp only [hlast, decide_false, Bool.false_eq_true, not_false_eq_true, ↓reduceIte]
            rfl
        · rw [Py.run_bind_error (writeAudit_actor_error hlen _ _ _ _ _ _ _ _), dif_neg hlen]
      · rw [if_neg hv, if_neg hv]

theorem rejectAction_run (hq : Queued s.queue) (env : Env) (id reason voter : String)
    (expected : Option String) :
    (rejectAction env id reason voter expected).run s =
      match s.lookup id expected with
      | none => (.error (.actionNotFound id), s)
      | some a =>
        match s.queue.byId.get? id with
        | none => (.error (.queue (.approvalNotFound id)), s)
        | some row =>
          if row.Vetoable voter then recordVeto env a row reason voter s
          else (.error (.queue (InMemoryApprovalQueue.vetoError row voter)), s) := by
  unfold rejectAction
  refine (decision_run (hq.reject env.now id reason voter) expected _).trans ?_
  cases s.lookup id expected with
  | none => rfl
  | some a =>
    cases s.queue.byId.get? id with
    | none => rfl
    | some row =>
      simp only
      by_cases hv : row.Vetoable voter
      · rw [if_pos hv, if_pos hv]
        unfold recordVeto
        by_cases hlen : UpTo 128 voter
        · rw [Py.run_bind_ok (writeAudit_actor hlen _ _ _ _ _ _ _ _)]
          rw [dif_pos hlen]
          rfl
        · rw [Py.run_bind_error (writeAudit_actor_error hlen _ _ _ _ _ _ _ _), dif_neg hlen]
      · rw [if_neg hv, if_neg hv]

end DecisionPipeline
end PennyCore
