import PennyCore.Orchestrator.PlannerFallback
import PennyCore.Orchestrator.PipelineInvariant

/-!
# The reserved payload keys

`_injection_flags` is written by the planner and `_executed_payload` by the executor; the payload they
are written into is the model's. A model that writes one of the keys itself is not stopped.

* `flags_stamped_iff`: for which answers the flags on a proposal are the sanitiser's.
* `KeysOwn` is the invariant of the pipeline for the second key, over the runs whose answers came
  without it (`keysOwn_run`); `actionView` is what the API shows of an action.
* `reserved_keys`: the two together. `forged_keys` is an answer that writes both keys.
-/

namespace PennyCore

open Lib DecisionPipeline

/-! ## The flags -/

/-- The payload has the key `_injection_flags` exactly when the sanitiser raised flags, with them. -/
def FlagsStamped (rt : PlannerRuntime) (request : PlanRequest) (proposal : ActionProposal) : Prop :=
  proposal.payload.get? "_injection_flags" =
    if briefFlags rt request = [] then none else some (flagValues (briefFlags rt request))

section

variable {rt : PlannerRuntime} {client : LLMClient} {u : Uuid} {request : PlanRequest}
  {proposal : ActionProposal}

theorem buildProposal_payload {envelope : Payload} {a : ActionType} {by' : ProposedBy} {p : Payload}
    (h : buildProposal u envelope a by' p = .ok proposal) : proposal.payload = p := by
  unfold buildProposal at h
  cases ht : proposalField "tenant_id" (envGet envelope "tenant_id") with
  | error e => rw [ht] at h; cases h
  | ok t =>
    cases he : proposalField "event_id" (envGet envelope "event_id") with
    | error e => rw [ht, he] at h; cases h
    | ok ev =>
      cases hc : proposalCustomer (envGet envelope "customer_id") with
      | error e => rw [ht, he, hc] at h; cases h
      | ok c =>
        rw [ht, he, hc] at h
        cases h
        rfl

/-- A proposal has the model's payload or that of the rule table, stamped. -/
theorem proposal_payload (h : proposeAction rt client u request = .ok proposal) :
    (∃ a p, Proposed rt client request a p ∧
        proposal.payload = stamped (briefFlags rt request) p) ∨
      ((¬ ∃ a p, Proposed rt client request a p) ∧ ∃ rule, proposal.payload =
        fallbackPayload rt (eventTypeOf request.envelope) (briefFlags rt request) rule) := by
  have hpresent : Present request.envelope := by
    intro habsent
    rw [proposeAction, if_pos habsent] at h
    cases h
  by_cases hproposed : ∃ a p, Proposed rt client request a p
  · obtain ⟨a, p, hp⟩ := hproposed
    rw [proposeAction_llm hpresent hp] at h
    exact .inl ⟨a, p, hp, buildProposal_payload h⟩
  · refine .inr ⟨hproposed, ?_⟩
    have hjson : ∀ raw, Responds rt client request raw → raw ≠ "" →
        ∀ kind, rt.loads (answerText raw) ≠ .error (.other kind) := by
      intro raw hresponds hne kind hloads
      rw [proposeAction_raises hpresent hresponds hne hloads] at h
      cases h
    rw [proposeAction_fallback hpresent hproposed hjson] at h
    rcases fallbackProposal_eq rt u request (briefFlags rt request) with
      ⟨e, _, heq⟩ | ⟨rule, _, heq⟩
    · rw [heq] at h
      cases h
    · rw [heq] at h
      exact ⟨rule, buildProposal_payload h⟩

theorem stamped_flags (flags : List InjectionFlag) (p : Payload) :
    (stamped flags p).get? "_injection_flags" =
      if flags = [] then p.get? "_injection_flags" else some (flagValues flags) := by
  unfold stamped
  split
  · rfl
  · exact Dict.get?_set_self _ _ _

theorem stamped_other {key : String} (h : key ≠ "_injection_flags") (flags : List InjectionFlag)
    (p : Payload) : (stamped flags p).get? key = p.get? key := by
  unfold stamped
  split
  · rfl
  · exact Dict.get?_set_ne _ _ h

theorem reasoning_get {key : String} (h : key ≠ "_planner_reasoning") (v : PyVal) :
    (Payload.of [("_planner_reasoning", v)]).get? key = none :=
  (Dict.get?_set_ne ∅ v h).trans rfl

/-- The flags on a proposal are the sanitiser's exactly when it raised some, or the model's payload has
no such key of its own. -/
theorem flags_stamped_iff (h : proposeAction rt client u request = .ok proposal) :
    FlagsStamped rt request proposal ↔
      briefFlags rt request ≠ [] ∨
        ∀ a p, Proposed rt client request a p → p.get? "_injection_flags" = none := by
  unfold FlagsStamped
  rcases proposal_payload h with ⟨a, p, hp, hpayload⟩ | ⟨hno, rule, hpayload⟩
  · rw [hpayload, stamped_flags]
    by_cases hflags : briefFlags rt request = []
    · rw [if_pos hflags, if_pos hflags]
      refine ⟨fun hnone => .inr fun a' p' hp' => ?_, fun hor => ?_⟩
      · obtain ⟨raw, ⟨_, hraw⟩, hund⟩ := hp
        obtain ⟨raw', ⟨_, hraw'⟩, hund'⟩ := hp'
        rw [hraw] at hraw'
        cases hraw'
        rw [← (hund.unique hund').2]
        exact hnone
      · exact hor.resolve_left (fun hne => hne hflags) a p hp
    · rw [if_neg hflags, if_neg hflags]
      exact ⟨fun _ => .inl hflags, fun _ => rfl⟩
  · refine iff_of_true ?_ (.inr fun a p hp => absurd ⟨a, p, hp⟩ hno)
    rw [hpayload, fallbackPayload, stamped_flags, reasoning_get (by decide)]

/-- A proposal has the key `_executed_payload` only where the model's payload has it. -/
theorem proposal_executed_key (h : proposeAction rt client u request = .ok proposal)
    (hclean : ∀ a p, Proposed rt client request a p → p.get? "_executed_payload" = none) :
    proposal.payload.get? "_executed_payload" = none := by
  rcases proposal_payload h with ⟨a, p, hp, hpayload⟩ | ⟨_, rule, hpayload⟩
  · rw [hpayload, stamped_other (by decide), hclean a p hp]
  · rw [hpayload, fallbackPayload, stamped_other (by decide), reasoning_get (by decide)]

end

/-! ## What the API shows -/

/-- The tally of an action's queue row. -/
structure ApprovalProgress where
  state : ApprovalState
  requiredApprovals : Int
  approvalsRecorded : Nat
  approvalsRemaining : Int
  approvers : List String
  eligibleApprovers : Option (List String)

/-- `_approval_progress`. -/
def approvalProgress (s : DecisionPipeline) (action : Action) : Option ApprovalProgress :=
  (s.queue.byId.get? action.id.1).map fun rule => {
    state := rule.state, requiredApprovals := rule.requiredApprovals
    approvalsRecorded := rule.approvals.length
    approvalsRemaining := max 0 (rule.requiredApprovals - rule.approvals.length)
    approvers := rule.approvals, eligibleApprovers := rule.eligibleApprovers }

structure ShownAction where
  actionId : String
  tenantId : String
  eventId : String
  proposalId : String
  customerId : Option String
  actionType : String
  status : String
  reasoning : PyVal
  payload : Payload
  executedPayload : PyVal
  createdAt : Time
  updatedAt : Time
  executedAt : Option Time
  approvalProgress : Option ApprovalProgress
  auditTrail : List AuditLogEntry

/-- `_action_view`. -/
def actionView (s : DecisionPipeline) (action : Action) : ShownAction where
  actionId := action.id.1
  tenantId := action.tenantId.1
  eventId := action.eventId.1
  proposalId := action.proposalId.1
  customerId := action.customerId.map Subtype.val
  actionType := action.actionType.value
  status := action.status.value
  reasoning := (action.payload.get? "_planner_reasoning").getD (.str "")
  payload := (action.payload.erase "_planner_reasoning").erase "_executed_payload"
  executedPayload := ((action.payload.erase "_planner_reasoning").get? "_executed_payload").getD .none
  createdAt := action.createdAt
  updatedAt := action.updatedAt
  executedAt := action.executedAt
  approvalProgress := approvalProgress s action
  auditTrail := s.audit.entriesForAction action.id.1 none

theorem actionView_executed (s : DecisionPipeline) (action : Action) :
    (actionView s action).executedPayload =
      (action.payload.get? "_executed_payload").getD .none := by
  have hget : (action.payload.erase "_planner_reasoning").get? "_executed_payload" =
      action.payload.get? "_executed_payload" := by
    rw [Dict.get?_erase]
    exact if_neg (by decide)
  change ((action.payload.erase "_planner_reasoning").get? "_executed_payload").getD .none = _
  rw [hget]

/-! ## The invariant of the second key -/

/-- The environment that an operation executes in. -/
def PipelineOp.env? : PipelineOp → Option Env
  | .handleProposal env _ => some env
  | .approveAction env _ _ _ => some env
  | .rejectAction env _ _ _ _ => some env
  | _ => none

/-- The payload's `_executed_payload` is the dictionary that a handler returned for the action, in an
operation of the run. -/
def Returned (h : List (DecisionPipeline × PipelineOp)) (s : DecisionPipeline) (a : Action) : Prop :=
  ∃ s' op env call result, (s', op) ∈ h ∧ op.env? = some env ∧ call ∈ s.calls ∧
    call.action.id = a.id ∧ env.executor.outcome call.action = .done result ∧
    a.payload.get? "_executed_payload" = some (.dict result)

/-- The key is on the executed actions only, and there it is the handler's; an action whose row is
pending is not executed. -/
structure KeysOwn (h : List (DecisionPipeline × PipelineOp)) (s : DecisionPipeline) : Prop where
  plain : ∀ id a, s.actions.byId.get? id = some a → a.status ≠ .executed →
    a.payload.get? "_executed_payload" = none
  result : ∀ id a, s.actions.byId.get? id = some a → a.status = .executed → Returned h s a
  waiting : ∀ id row a, s.queue.byId.get? id = some row → row.state = .pending →
    s.actions.byId.get? id = some a → a.status = .pendingApproval

/-- From `s` to `t` nothing was written but the action `a` under `id` and its queue row. -/
structure Rewritten (s t : DecisionPipeline) (id : String) (a : Action) : Prop where
  actions : ∀ k, t.actions.byId.get? k = if k = id then some a else s.actions.byId.get? k
  rows : ∀ k, k ≠ id → t.queue.byId.get? k = s.queue.byId.get? k
  calls : ∀ c ∈ s.calls, c ∈ t.calls

section

variable {h h' : List (DecisionPipeline × PipelineOp)} {s t r : DecisionPipeline} {id : String}
  {a b : Action}

theorem Rewritten.trans (hst : Rewritten s t id a) (htr : Rewritten t r id b) : Rewritten s r id b := by
  refine ⟨fun k => ?_, fun k hk => (htr.rows k hk).trans (hst.rows k hk),
    fun c hc => htr.calls c (hst.calls c hc)⟩
  rw [htr.actions, hst.actions]
  split <;> rfl

theorem Rewritten.put (s : DecisionPipeline) (a : Action) : Rewritten s (s.put a) a.id.1 a :=
  ⟨fun k => Dict.get?_set s.actions.byId a.id.1 k a, fun _ _ => rfl, fun _ hc => hc⟩

theorem Rewritten.putLog (s : DecisionPipeline) (a : Action) (e : AuditLogEntry) :
    Rewritten s ((s.put a).log e) a.id.1 a :=
  ⟨fun k => Dict.get?_set s.actions.byId a.id.1 k a, fun _ _ => rfl, fun _ hc => hc⟩

/-- An action that stays as it is. -/
theorem Rewritten.same (ha : s.actions.byId.get? id = some a) : Rewritten s s id a := by
  refine ⟨fun k => ?_, fun _ _ => rfl, fun _ hc => hc⟩
  split
  · rename_i hk
    rw [hk, ha]
  · rfl

theorem Rewritten.get (hst : Rewritten s t id a) : t.actions.byId.get? id = some a := by
  rw [hst.actions, if_pos rfl]

theorem Returned.mono (hh : ∀ x ∈ h, x ∈ h') (hc : ∀ c ∈ s.calls, c ∈ t.calls)
    (hr : Returned h s a) : Returned h' t a := by
  obtain ⟨s', op, env, call, result, hop, henv, hcall, hrest⟩ := hr
  exact ⟨s', op, env, call, result, hh _ hop, henv, hc _ hcall, hrest⟩

/-- The invariant after a write of one action and its row. -/
theorem KeysOwn.rewrite (hk : KeysOwn h s) (hst : Rewritten s t id a) (hh : ∀ x ∈ h, x ∈ h')
    (hplain : a.status ≠ .executed → a.payload.get? "_executed_payload" = none)
    (hresult : a.status = .executed → Returned h' t a)
    (hwait : ∀ row, t.queue.byId.get? id = some row → row.state = .pending →
      a.status = .pendingApproval) : KeysOwn h' t := by
  refine ⟨fun k b hb hne => ?_, fun k b hb he => ?_, fun k row b hrow hpending hb => ?_⟩
  · rw [hst.actions] at hb
    split at hb
    · cases hb
      exact hplain hne
    · exact hk.plain k b hb hne
  · rw [hst.actions] at hb
    split at hb
    · cases hb
      exact hresult he
    · exact (hk.result k b hb he).mono hh hst.calls
  · rw [hst.actions] at hb
    split at hb
    · rename_i hkid
      cases hb
      exact hwait row (hkid ▸ hrow) hpending
    · rename_i hkid
      rw [hst.rows k hkid] at hrow
      exact hk.waiting k row b hrow hpending hb

/-! ### An execution -/

/-- What an execution leaves of the action `a`. -/
def Finished (env : Env) (a b : Action) (t : DecisionPipeline) : Prop :=
  ((∀ result, env.executor.outcome a ≠ .done result) ∧ b.status ≠ .executed ∧
      b.payload = a.payload) ∨
    ∃ result call, b.status = .executed ∧ call ∈ t.calls ∧ call.action = a ∧ b.id = a.id ∧
      env.executor.outcome a = .done result ∧
      b.payload.get? "_executed_payload" = some (.dict result)

theorem invoke_calls (s : DecisionPipeline) (ex : ActionExecutor) (a : Action) :
    ∀ c ∈ s.calls, c ∈ (s.invoke ex a).calls := by
  intro c hc
  unfold invoke
  split
  · exact List.mem_append_left _ hc
  · exact hc

/-- A handler that returned was called. -/
theorem invoke_called {ex : ActionExecutor} {a : Action} {result : List (PyVal × PyVal)}
    (h : ex.outcome a = .done result) (s : DecisionPipeline) :
    ∃ call ∈ (s.invoke ex a).calls, call.action = a := by
  have hinvokes : ex.Invokes a := by
    unfold ActionExecutor.Invokes
    unfold ActionExecutor.outcome at h
    cases ht : ex.table.get? a.actionType with
    | none => rw [ht] at h; cases h
    | some handler => rfl
  refine ⟨⟨a, s.audit.trail a.id.1⟩, ?_, rfl⟩
  rw [invoke, if_pos hinvokes]
  exact List.mem_append_right _ List.mem_cons_self

theorem finish_rewritten (env : Env) (ha : s.actions.byId.get? a.id.1 = some a)
    (hstatus : a.status = .pendingExec) :
    ∃ b, Rewritten s (finish env a s).2 a.id.1 b ∧ (finish env a s).2.queue = s.queue ∧
      Finished env a b (finish env a s).2 := by
  have hqueue : (s.invoke env.executor a).queue = s.queue := by
    unfold invoke
    split <;> rfl
  have hstart : Rewritten s (s.invoke env.executor a) a.id.1 a := by
    refine ⟨fun k => ?_, fun k _ => by rw [hqueue], invoke_calls _ _ _⟩
    rw [invoke_actions]
    exact (Rewritten.same ha).actions k
  unfold finish
  cases hout : env.executor.outcome a with
  | done result =>
    obtain ⟨call, hcall, hcalled⟩ := invoke_called hout s
    exact ⟨ActionExecutor.executed env.now a result, hstart.trans (Rewritten.putLog _
      (ActionExecutor.executed env.now a result) _), hqueue,
      .inr ⟨result, call, rfl, hcall, hcalled, rfl, hout, Dict.get?_set_self _ _ _⟩⟩
  | raised e =>
    by_cases he : e.isException = true
    · have hfailed : Finished env a (a.withStatus .executionFailed env.now)
          ((s.invoke env.executor a).put (a.withStatus .executionFailed env.now)) :=
        .inl ⟨fun result hdone => (nomatch hout.symm.trans hdone), fun h => (nomatch h), rfl⟩
      simp only [if_pos he]
      cases e.message with
      | none => exact ⟨a.withStatus .executionFailed env.now, hstart.trans (Rewritten.put _
          (a.withStatus .executionFailed env.now)), hqueue, hfailed⟩
      | some message => exact ⟨a.withStatus .executionFailed env.now, hstart.trans (Rewritten.putLog _
          (a.withStatus .executionFailed env.now) _), hqueue, hfailed⟩
    · simp only [if_neg he]
      refine ⟨a, hstart, hqueue, .inl ⟨fun result hdone => (nomatch hout.symm.trans hdone), ?_, rfl⟩⟩
      rw [hstatus]
      decide

/-- The invariant after an execution. -/
theorem KeysOwn.finished {env : Env} {op : PipelineOp} (hk : KeysOwn h s)
    (hst : Rewritten s t id b) (ha : (∀ result, env.executor.outcome a ≠ .done result) →
      a.payload.get? "_executed_payload" = none)
    (hop : op.env? = some env) (hfin : Finished env a b t)
    (hwait : ∀ row, t.queue.byId.get? id = some row → row.state ≠ .pending) :
    KeysOwn (h ++ [(s, op)]) t := by
  refine hk.rewrite hst (fun x hx => List.mem_append_left _ hx) ?_ ?_
    (fun row hrow hpending => absurd hpending (hwait row hrow))
  · intro hne
    rcases hfin with ⟨hfailed, _, hpayload⟩ | ⟨_, _, hexec, _⟩
    · rw [hpayload, ha hfailed]
    · exact absurd hexec hne
  · intro hexec
    rcases hfin with ⟨_, hne, _⟩ | ⟨result, call, _, hcall, hcalled, hid, hout, hget⟩
    · exact absurd hexec hne
    · exact ⟨s, op, env, call, result, List.mem_append_right _ List.mem_cons_self, hop, hcall,
        by rw [hcalled, hid], by rw [hcalled, hout], hget⟩

/-! ### The operations -/

theorem KeysOwn.empty : KeysOwn [] {} :=
  ⟨fun _ _ h => (nomatch h), fun _ _ h => (nomatch h), fun _ _ _ h => (nomatch h)⟩

theorem KeysOwn.calm {op : PipelineOp} (hk : KeysOwn h s) (hc : Calm s t) :
    KeysOwn (h ++ [(s, op)]) t := by
  obtain ⟨p, q, rfl⟩ := hc
  exact ⟨hk.plain, fun id a ha he => (hk.result id a ha he).mono
    (fun x hx => List.mem_append_left _ hx) (fun _ hc => hc), hk.waiting⟩

theorem proposed_rewritten (env : Env) (p : ActionProposal) (s : DecisionPipeline) :
    Rewritten s (proposed env p s) env.actionId.1 (materializeAction env p) :=
  ⟨fun k => Dict.get?_set s.actions.byId env.actionId.1 k (materializeAction env p), fun _ _ => rfl,
    fun _ hc => hc⟩

/-- The payload has no `_executed_payload`, or the action is executed at once, which writes the key. -/
def ExecutedKeyFree (env : Env) (s : DecisionPipeline) (p : ActionProposal) : Prop :=
  p.payload.get? "_executed_payload" = none ∨
    (s.decision p = .auto ∧ ∃ result, env.executor.outcome
      ((materializeAction env p).withStatus .pendingExec env.now) = .done result)

theorem KeysOwn.birth {env : Env} {p : ActionProposal} (hs : Sound s) (hk : KeysOwn h s)
    (hf : s.actions.byId.get? env.actionId.1 = none)
    (hclean : ExecutedKeyFree env s p) :
    KeysOwn (h ++ [(s, .handleProposal env p)]) (birth env p s) := by
  have hrow := hs.row_fresh hf
  have hprop := proposed_rewritten env p s
  have hh : ∀ x ∈ h, x ∈ h ++ [(s, PipelineOp.handleProposal env p)] :=
    fun x hx => List.mem_append_left _ hx
  have hput : ∀ status, Rewritten s ((proposed env p s).put
      ((materializeAction env p).withStatus status env.now)) env.actionId.1
      ((materializeAction env p).withStatus status env.now) := fun status =>
    hprop.trans (Rewritten.put (proposed env p s) ((materializeAction env p).withStatus status env.now))
  unfold PennyCore.birth
  cases hdecision : s.decision p with
  | reject =>
    have hst := hput .rejected
    have hclean := hclean.resolve_right fun hauto => (nomatch hdecision.symm.trans hauto.1)
    have hall : Rewritten s ((((proposed env p s).put ((materializeAction env p).withStatus .rejected
        env.now)).log ((TrailRow.refusal p.tenantId p.eventId).entry env.now env.actionId)).remember
        (p.tenantId.1, p.eventId.1) env.actionId.1) env.actionId.1
        ((materializeAction env p).withStatus .rejected env.now) :=
      ⟨hst.actions, hst.rows, hst.calls⟩
    refine hk.rewrite hall hh (fun _ => hclean) (fun he => (nomatch he)) ?_
    intro row hr _
    have hnone : s.queue.byId.get? env.actionId.1 = some row := hr
    rw [hrow] at hnone
    cases hnone
  | approvalRequired =>
    have hst := hput .pendingApproval
    have hclean := hclean.resolve_right fun hauto => (nomatch hdecision.symm.trans hauto.1)
    have hall : Rewritten s ((((proposed env p s).put ((materializeAction env p).withStatus
        .pendingApproval env.now)).insertRow (newRow env ((materializeAction env p).withStatus
        .pendingApproval env.now) (s.quorumRule p))).remember (p.tenantId.1, p.eventId.1)
        env.actionId.1) env.actionId.1
        ((materializeAction env p).withStatus .pendingApproval env.now) :=
      ⟨hst.actions, fun k hne => Dict.get?_set_ne s.queue.byId _ hne, hst.calls⟩
    exact hk.rewrite hall hh (fun _ => hclean) (fun he => (nomatch he)) (fun _ _ _ => rfl)
  | auto =>
    have hst := hput .pendingExec
    obtain ⟨b, hfin, hqueue, hdone⟩ := finish_rewritten env
      (a := (materializeAction env p).withStatus .pendingExec env.now) hst.get rfl
    have hkeys : KeysOwn (h ++ [(s, .handleProposal env p)]) _ :=
      hk.finished (hst.trans hfin) (fun hfailed => hclean.resolve_right fun hauto =>
        hfailed _ hauto.2.choose_spec) rfl hdone fun row hr => by
        rw [hqueue] at hr
        have hnone : s.queue.byId.get? env.actionId.1 = some row := hr
        rw [hrow] at hnone
        cases hnone
    simp only
    split
    · rename_i resolved s' heq
      rw [heq] at hkeys
      exact ⟨hkeys.plain, hkeys.result, hkeys.waiting⟩
    · rename_i e s' heq
      rw [heq] at hkeys
      exact hkeys

/-- The queue row of an action changed: the other rows and all actions are as they were. -/
theorem stored_rewritten {row : ApprovalRule} (ha : s.actions.byId.get? id = some a)
    (hid : row.actionId.1 = id) : Rewritten s (s.storeRow row) id a := by
  refine ⟨(Rewritten.same ha).actions, fun k hne => ?_, fun _ hc => hc⟩
  exact Dict.get?_set_ne s.queue.byId _ (hid ▸ hne)

theorem stored_row {row : ApprovalRule} (hid : row.actionId.1 = id) :
    (s.storeRow row).queue.byId.get? id = some row := by
  subst hid
  exact Dict.get?_set_self s.queue.byId _ _

/-- The queue row of an action changed, then the action. -/
theorem promoted_rewritten {row : ApprovalRule} (ha : s.actions.byId.get? id = some a)
    (hid : row.actionId.1 = id) (hb : b.id.1 = id) (e : AuditLogEntry) :
    Rewritten s (((s.storeRow row).log e).put b) id b := by
  subst hb
  have hst := stored_rewritten ha hid
  have hlog : Rewritten s ((s.storeRow row).log e) b.id.1 a := ⟨hst.actions, hst.rows, hst.calls⟩
  exact hlog.trans (Rewritten.put ((s.storeRow row).log e) b)

/-- What a vote or a veto finds: an action that waits, without the key. -/
theorem KeysOwn.found {row : ApprovalRule} {expected : Option String} (hk : KeysOwn h s)
    (hl : s.lookup id expected = some a) (hg : s.queue.byId.get? id = some row)
    (hpending : row.state = .pending) :
    s.actions.byId.get? id = some a ∧ a.status = .pendingApproval ∧
      a.payload.get? "_executed_payload" = none := by
  have ha := (lookup_some.mp hl).1
  have hstatus := hk.waiting id row a hg hpending ha
  exact ⟨ha, hstatus, hk.plain id a ha (by rw [hstatus]; decide)⟩

/-- Only the row of a waiting action changed, and the log. -/
theorem KeysOwn.counted {op : PipelineOp} {row : ApprovalRule} (hk : KeysOwn h s)
    (ha : s.actions.byId.get? id = some a) (hstatus : a.status = .pendingApproval)
    (hclean : a.payload.get? "_executed_payload" = none) (hid : row.actionId.1 = id)
    (ht : ∃ audit, t = { s.storeRow row with audit := audit }) :
    KeysOwn (h ++ [(s, op)]) t := by
  obtain ⟨audit, rfl⟩ := ht
  have hst := stored_rewritten ha hid
  have hall : Rewritten s { s.storeRow row with audit := audit } id a :=
    ⟨hst.actions, hst.rows, hst.calls⟩
  refine hk.rewrite hall (fun x hx => List.mem_append_left _ hx) (fun _ => hclean) (fun he => ?_)
    (fun _ _ _ => hstatus)
  rw [hstatus] at he
  cases he

theorem KeysOwn.vote {env : Env} {voter : String} {expected : Option String} {row : ApprovalRule}
    (hs : Sound s) (hk : KeysOwn h s) (hl : s.lookup id expected = some a)
    (hg : s.queue.byId.get? id = some row) (hv : row.Votable voter) :
    KeysOwn (h ++ [(s, .approveAction env id voter expected)]) (recordVote env a row voter s).2 := by
  obtain ⟨ha, hstatus, hclean⟩ := hk.found hl hg hv.1
  have hid : (row.vote env.now voter).actionId.1 = id := by simpa using hs.queued.key hg
  have haid : (a.withStatus .pendingExec env.now).id.1 = id := hs.key id a ha
  unfold recordVote
  split
  · simp only
    split
    · -- the last vote: the row is approved, and the action is executed
      rename_i hlast
      have hst := promoted_rewritten ha hid haid ((TrailRow.approval a.tenantId a.eventId
        ⟨voter, Nat.zero_le _, ‹_›⟩ a.status (row.approvals.length + 1) row.requiredApprovals
        (decide row.LastVote)).entry env.now a.id)
      obtain ⟨b, hfin, hqueue, hdone⟩ := finish_rewritten env (haid ▸ hst.get) rfl
      rw [haid] at hfin
      refine hk.finished (a := a.withStatus .pendingExec env.now) (hst.trans hfin)
        (fun _ => hclean) rfl hdone fun r hr => ?_
      rw [hqueue] at hr
      have hstored := (stored_row (s := s) hid).symm.trans hr
      cases hstored
      rw [ApprovalRule.vote_state, if_pos hlast]
      decide
    · exact hk.counted ha hstatus hclean hid ⟨_, rfl⟩
  · exact hk.counted ha hstatus hclean hid ⟨s.audit, rfl⟩

theorem KeysOwn.veto {env : Env} {reason voter : String} {expected : Option String}
    {row : ApprovalRule} (hs : Sound s) (hk : KeysOwn h s) (hl : s.lookup id expected = some a)
    (hg : s.queue.byId.get? id = some row) (hv : row.Vetoable voter) :
    KeysOwn (h ++ [(s, .rejectAction env id reason voter expected)])
      (recordVeto env a row reason voter s).2 := by
  obtain ⟨ha, hstatus, hclean⟩ := hk.found hl hg hv.1
  have hid : (row.veto env.now reason voter).actionId.1 = id := (hs.queued.key hg :)
  have haid : (a.withStatus .rejected env.now).id.1 = id := hs.key id a ha
  unfold recordVeto
  split
  · have hst := promoted_rewritten ha hid haid ((TrailRow.veto a.tenantId a.eventId
      ⟨voter, Nat.zero_le _, ‹_›⟩ a.status reason).entry env.now a.id)
    refine hk.rewrite hst (fun x hx => List.mem_append_left _ hx) (fun _ => hclean)
      (fun he => (nomatch he)) fun r hr hpending => ?_
    have hstored := (stored_row (s := s) hid).symm.trans hr
    cases hstored
    cases hpending
  · exact hk.counted ha hstatus hclean hid ⟨s.audit, rfl⟩

end

/-- A handled proposal is the planner's; unless its event is known or its action is executed at once,
the answer that it was made of has no key `_executed_payload`. -/
def PlannedClean (s : DecisionPipeline) : PipelineOp → Prop
  | .handleProposal env p => ∃ rt client u request, proposeAction rt client u request = .ok p ∧
      ((s.dedup.get? (p.tenantId.1, p.eventId.1)).isSome ∨
        (s.decision p = .auto ∧ ∃ result, env.executor.outcome
          ((materializeAction env p).withStatus .pendingExec env.now) = .done result) ∨
        ∀ a payload, Proposed rt client request a payload →
          payload.get? "_executed_payload" = none)
  | _ => True

theorem KeysOwn.step {h : List (DecisionPipeline × PipelineOp)} {s : DecisionPipeline}
    {op : PipelineOp} (hs : Sound s) (hk : KeysOwn h s) (hf : op.Fresh s) (hclean : PlannedClean s op) :
    KeysOwn (h ++ [(s, op)]) (pipelineStep s op) := by
  rcases hs.step_cases hf with ⟨hc, -⟩ | ⟨env, p, rfl, hnew, hid, heq⟩ |
    ⟨env, id, voter, expected, a, row, rfl, hl, hg, hv, heq⟩ |
    ⟨env, id, reason, voter, expected, a, row, rfl, hl, hg, hv, heq⟩
  · exact hc ▸ hk.calm (op.configure_calm s)
  · obtain ⟨rt, client, u, request, hp, hor⟩ := hclean
    rw [heq]
    refine hk.birth hs hid ?_
    rcases hor with hknown | hauto | hkey
    · rw [hnew] at hknown
      cases hknown
    · exact .inr hauto
    · exact .inl (proposal_executed_key hp hkey)
  · exact heq ▸ hk.vote hs hl hg hv
  · exact heq ▸ hk.veto hs hl hg hv

theorem keysOwn_run {h : List (DecisionPipeline × PipelineOp)} {s : DecisionPipeline}
    (hr : PipelineRun PlannedClean h s) : KeysOwn h s := by
  induction hr with
  | start => exact KeysOwn.empty
  | next hr hl ih => exact ih.step (sound_run hr) hl.1 hl.2

/-- Both keys. The flags on a proposal are the sanitiser's exactly when it raised some or the answer has
no such key; after a run whose answers have no `_executed_payload`, the key is on the executed actions
only, as the handler's result, and the API shows none for another action. -/
theorem reserved_keys {rt : PlannerRuntime} {client : LLMClient} {u : Uuid} {request : PlanRequest}
    {proposal : ActionProposal} {h : List (DecisionPipeline × PipelineOp)} {s : DecisionPipeline}
    (hok : proposeAction rt client u request = .ok proposal) (hr : PipelineRun PlannedClean h s) :
    (FlagsStamped rt request proposal ↔
      briefFlags rt request ≠ [] ∨
        ∀ a p, Proposed rt client request a p → p.get? "_injection_flags" = none) ∧
    ∀ id a, s.actions.byId.get? id = some a →
      ((a.payload.get? "_executed_payload").isSome ↔ a.status = .executed) ∧
      (a.status = .executed → Returned h s a) ∧
      (a.status ≠ .executed → (actionView s a).executedPayload = .none) := by
  have hk := keysOwn_run hr
  refine ⟨flags_stamped_iff hok, fun id a ha => ⟨⟨fun hsome => ?_, fun he => ?_⟩,
    hk.result id a ha, fun hne => ?_⟩⟩
  · by_contra hne
    rw [hk.plain id a ha hne] at hsome
    cases hsome
  · obtain ⟨_, _, _, _, result, _, _, _, _, _, hget⟩ := hk.result id a ha he
    rw [hget]
    rfl
  · rw [actionView_executed, hk.plain id a ha hne]
    rfl

/-- What is made of an answer with the action `no_op`. -/
def noOpProposal (payload : Payload) : ActionProposal where
  id := defaultProposalId demoEventId
  tenantId := ⟨"t1", t1_str⟩
  eventId := ⟨"evt_1", evt1_str⟩
  customerId := none
  actionType := .noOp
  proposedBy := .llm
  payload := payload

def seenProposal : ActionProposal := noOpProposal (.of [("_planner_reasoning", .str "seen")])

theorem seen_planned : proposeAction (answering demoAnswer demoObject) (answeringClient demoAnswer)
    demoEventId ⟨demoEnvelope, ""⟩ = .ok seenProposal := by
  rw [proposeAction_llm demoEnvelope_addressed.present demoAnswer_proposed]
  rfl

/-- The proposal is handled, and its action approved and executed. -/
def seenOps : List PipelineOp :=
  let env := demoEnv (defaultExecutors fun _ => "")
  [.handleProposal env seenProposal, .approveAction env env.actionId.1 "ann" none]

theorem seen_only {a : ActionType} {p : Payload} (h : Proposed (answering demoAnswer demoObject)
    (answeringClient demoAnswer) ⟨demoEnvelope, ""⟩ a p) :
    p = .of [("_planner_reasoning", .str "seen")] := by
  obtain ⟨raw, ⟨_, hraw⟩, hund⟩ := h
  obtain ⟨raw', ⟨_, hraw'⟩, hund'⟩ := demoAnswer_proposed
  rw [hraw] at hraw'
  cases hraw'
  exact (hund.unique hund').2

theorem seen_run : ∃ h, PipelineRun PlannedClean h (seenOps.foldl pipelineStep {}) := by
  have hclean : PlannedClean {} (.handleProposal (demoEnv (defaultExecutors fun _ => ""))
      seenProposal) := by
    refine ⟨_, _, _, _, seen_planned, .inr (.inr fun a p hp => ?_)⟩
    rw [seen_only hp]
    rfl
  have hfresh : PipelineOp.Fresh {} (.handleProposal (demoEnv (defaultExecutors fun _ => ""))
      seenProposal) := rfl
  exact ⟨_, .next (.next .start ⟨hfresh, hclean⟩) ⟨trivial, trivial⟩⟩

/-- The executed action has the key, as what its handler returned. -/
theorem reserved_keys_demo :
    FlagsStamped (answering demoAnswer demoObject) ⟨demoEnvelope, ""⟩ seenProposal ∧
      ∃ h a, PipelineRun PlannedClean h (seenOps.foldl pipelineStep {}) ∧
        (seenOps.foldl pipelineStep {}).actions.byId.get? (demoEnv ∅).actionId.1 = some a ∧
        a.status = .executed ∧ Returned h (seenOps.foldl pipelineStep {}) a := by
  obtain ⟨h, hr⟩ := seen_run
  obtain ⟨hflags, hkeys⟩ := reserved_keys seen_planned hr
  have ha : (seenOps.foldl pipelineStep {}).actions.byId.get? (demoEnv ∅).actionId.1 = some _ := rfl
  refine ⟨hflags.mpr (.inr fun a p hp => ?_), h, _, hr, ha, rfl, (hkeys _ _ ha).2.1 rfl⟩
  rw [seen_only hp]
  rfl

/-! ## A model that writes the keys -/

/-- The object of the answer. -/
def forgedObject : List (PyVal × PyVal) :=
  [(.str "action_type", .str "no_op"),
    (.str "payload", .dict [(.str "_injection_flags", .list []), (.str "_executed_payload", .str "sent")])]

def forgedAnswer : String :=
  "\x7b\"action_type\": \"no_op\", \"payload\": " ++
    "\x7b\"_injection_flags\": [], \"_executed_payload\": \"sent\"\x7d\x7d"

def forgingPlanner : PlannerRuntime := answering forgedAnswer forgedObject

def forgingClient : LLMClient := answeringClient forgedAnswer

def forgedProposal : ActionProposal :=
  noOpProposal (.of [("_injection_flags", .list []), ("_executed_payload", .str "sent")])

theorem forged_text : answerText forgedAnswer = forgedAnswer := by
  decide +kernel

theorem forged_planned :
    proposeAction forgingPlanner forgingClient demoEventId ⟨demoEnvelope, ""⟩ = .ok forgedProposal := by
  have hproposed : Proposed forgingPlanner forgingClient ⟨demoEnvelope, ""⟩ .noOp
      (.of [("_injection_flags", .list []), ("_executed_payload", .str "sent")]) := by
    refine ⟨forgedAnswer, ⟨(by decide : "anthropic" ≠ "mock"), rfl⟩, by decide, forgedObject, ?_,
      "no_op", _, rfl, rfl, rfl, rfl⟩
    rw [forged_text]
    exact answering_loads _ _
  rw [proposeAction_llm demoEnvelope_addressed.present hproposed]
  rfl

/-- The model writes both keys into the payload of a harmless action: the proposal has flags that the
sanitiser did not raise, and the API shows an execution of an action that waits for its approval. -/
theorem forged_keys :
    proposeAction forgingPlanner forgingClient demoEventId ⟨demoEnvelope, ""⟩ = .ok forgedProposal ∧
      ¬ FlagsStamped forgingPlanner ⟨demoEnvelope, ""⟩ forgedProposal ∧
      ∃ a, (pipelineStep {} (.handleProposal (demoEnv ∅) forgedProposal)).actions.byId.get?
          (demoEnv ∅).actionId.1 = some a ∧
        a.status = .pendingApproval ∧
        ∀ s, (actionView s a).executedPayload = .str "sent" := by
  refine ⟨forged_planned, fun h => ?_, _, rfl, rfl, fun s => rfl⟩
  have hflags : briefFlags forgingPlanner ⟨demoEnvelope, ""⟩ = [] := rfl
  rw [FlagsStamped, if_pos hflags] at h
  cases h

end PennyCore
