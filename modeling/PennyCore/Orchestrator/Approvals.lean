import PennyCore.Orchestrator.Atomicity
import PennyCore.Orchestrator.ReservedKeys

/-!
# The approval endpoints and the approver UI

What `src/orchestrator/api.py` answers on `/approvals` and `/actions`, and what
`src/ui/approver_data.py` gives the dashboard. Both call the pipeline and translate what it raises.

* `Refusal`: the exceptions that are translated, with their texts; `translate` is the `try` statement
  that both surfaces have.
* `ServiceRuntime`: what the API takes from outside. `model_dump(mode="json")` may raise on an audit row,
  and then so does the request (`dumpedView`); `Serialisable` says that it does on none.
* `requests_leave_no_trace`: over any run of the service, its state is that of the requests that were
  answered 2xx, and every other request was refused for a reason that the client may know.
* `approvals_shown`: what the two surfaces show of an action's queue row, in every state.
* `surfaces_agree`: the UI and the API are two views of one service.
-/

namespace PennyCore

open Lib DecisionPipeline

/-- What the API takes from outside: `repr` of a string, and whether `model_dump(mode="json")` takes an
audit row. What it returns is the row. -/
structure ServiceRuntime where
  repr : String → String
  dumps : AuditLogEntry → Bool

/-! ## Exceptions and answers -/

/-- The exceptions that the surfaces translate. -/
inductive Refusal where
  /-- `ActionNotFoundError`. -/
  | actionNotFound
  /-- `ApprovalNotFoundError`. -/
  | approvalNotFound
  /-- `ApprovalStateError`. -/
  | approvalState
  /-- `ApproverNotEligibleError`. -/
  | approverNotEligible
  /-- `DuplicateApproverError`. -/
  | duplicateApprover
  deriving DecidableEq, Repr

/-- The exception and its text, `str(exc)`. -/
def PipelineError.refusal (repr : String → String) : PipelineError → Option (Refusal × String)
  | .actionNotFound id => some (.actionNotFound, "no action with id=" ++ repr id)
  | .queue (.approvalNotFound id) =>
    some (.approvalNotFound, "no approval row for action_id=" ++ repr id)
  | .queue (.approvalState id state action) => some (.approvalState,
    "approval for action_id=" ++ repr id ++ " is already " ++ repr state.value ++ "; cannot " ++ action)
  | .queue (.approverNotEligible decidedBy id) => some (.approverNotEligible,
    (decidedBy.map repr).getD "None" ++ " is not an eligible approver for action_id=" ++ repr id)
  | .queue (.approverUnnamed id n) => some (.approverNotEligible,
    "approval for action_id=" ++ repr id ++ " requires a named approver (decided_by) because it " ++
      "needs " ++ toString n ++ " distinct approvals")
  | .queue (.duplicateApprover decidedBy id) => some (.duplicateApprover,
    repr decidedBy ++ " has already approved action_id=" ++ repr id ++
      "; one approver cannot fill two quorum seats")
  | _ => none

/-- What a surface answers; `κ` is how it tells the exceptions apart. -/
inductive Reply (κ α : Type) where
  | ok (a : α)
  | refused (code : κ) (detail : String)
  /-- 422: the query parameters that are out of bounds. -/
  | invalid (fields : List String)
  /-- What is not translated. -/
  | raised (e : PipelineError)
  /-- The result could not be dumped; not translated either. -/
  | unserialisable

/-- The call, and what the surface makes of its result. `code` is `none` for an exception that no `except`
clause names, and `view` for a result that cannot be dumped. -/
def translate {κ α : Type} (repr : String → String) (code : Refusal → Option κ)
    (view : DecisionPipeline → Action → Option α) (m : M Action) (s : DecisionPipeline) :
    Reply κ α × DecisionPipeline :=
  let r := m.run s
  match r.1 with
  | .ok action =>
    match view r.2 action with
    | some v => (.ok v, r.2)
    | none => (.unserialisable, r.2)
  | .error e =>
    match e.refusal repr with
    | none => (.raised e, r.2)
    | some (kind, detail) =>
      match code kind with
      | none => (.raised e, r.2)
      | some c => (.refused c detail, r.2)

/-- A query parameter with the bounds on its length; one that is absent is not checked. -/
structure QueryParam where
  name : String
  lo : Nat
  hi : Nat
  value : Option String

def QueryParam.Ok (q : QueryParam) : Prop := ∀ v ∈ q.value, q.lo ≤ v.length ∧ UpTo q.hi v

instance (q : QueryParam) : Decidable q.Ok := by unfold QueryParam.Ok; infer_instance

/-- The handler, if every parameter is within its bounds. -/
def checked {κ α : Type} (params : List QueryParam)
    (handler : DecisionPipeline → Reply κ α × DecisionPipeline) (s : DecisionPipeline) :
    Reply κ α × DecisionPipeline :=
  let bad := params.filter fun q => ¬ q.Ok
  if bad = [] then handler s else (.invalid (bad.map QueryParam.name), s)

/-! ## The API -/

namespace OrchestratorApi

def approveStatus : Refusal → Option Nat
  | .actionNotFound | .approvalNotFound => some 404
  | .approverNotEligible => some 403
  | .approvalState | .duplicateApprover => some 409

/-- `approvals_reject` has no clause for a second vote. -/
def rejectStatus : Refusal → Option Nat
  | .actionNotFound | .approvalNotFound => some 404
  | .approverNotEligible => some 403
  | .approvalState => some 409
  | .duplicateApprover => none

def getStatus : Refusal → Option Nat
  | .actionNotFound => some 404
  | _ => none

def tenantParam (tenantId : Option String) : QueryParam := ⟨"tenant_id", 1, 64, tenantId⟩

def decidedByParam (decidedBy : String) : QueryParam := ⟨"decided_by", 1, 128, some decidedBy⟩

def reasonParam (reason : String) : QueryParam := ⟨"reason", 0, 2048, some reason⟩

/-- `_action_view`: the rows of the audit trail are dumped. -/
def dumpedView (dumps : AuditLogEntry → Bool) (s : DecisionPipeline) (action : Action) :
    Option ShownAction :=
  if (s.audit.entriesForAction action.id.1 none).all dumps then some (actionView s action) else none

def approvalsApprove (rt : ServiceRuntime) (env : Env) (actionId decidedBy : String)
    (tenantId : Option String) : DecisionPipeline → Reply Nat ShownAction × DecisionPipeline :=
  checked [decidedByParam decidedBy, tenantParam tenantId]
    (translate rt.repr approveStatus (dumpedView rt.dumps)
      (approveAction env actionId decidedBy tenantId))

def approvalsReject (rt : ServiceRuntime) (env : Env) (actionId reason decidedBy : String)
    (tenantId : Option String) : DecisionPipeline → Reply Nat ShownAction × DecisionPipeline :=
  checked [reasonParam reason, decidedByParam decidedBy, tenantParam tenantId]
    (translate rt.repr rejectStatus (dumpedView rt.dumps)
      (rejectAction env actionId reason decidedBy tenantId))

def actionsGet (rt : ServiceRuntime) (actionId : String) (tenantId : Option String) :
    DecisionPipeline → Reply Nat ShownAction × DecisionPipeline :=
  checked [tenantParam tenantId]
    (translate rt.repr getStatus (dumpedView rt.dumps) (getAction actionId tenantId))

/-- The body of `approvals_list`. -/
def shownPending (rt : ServiceRuntime) (tenantId : String) (s : DecisionPipeline) :
    Reply Nat (List ShownAction) × DecisionPipeline :=
  match (s.listPendingActions tenantId).mapM (dumpedView rt.dumps s) with
  | some views => (.ok views, s)
  | none => (.unserialisable, s)

def approvalsList (rt : ServiceRuntime) (tenantId : String) :
    DecisionPipeline → Reply Nat (List ShownAction) × DecisionPipeline :=
  checked [tenantParam (some tenantId)] (shownPending rt tenantId)

/-- `model_dump(mode="json")` takes every row of the audit log. -/
def Serialisable (rt : ServiceRuntime) (s : DecisionPipeline) : Prop :=
  ∀ id, ∀ e ∈ s.audit.entriesForAction id none, rt.dumps e = true

theorem Serialisable.view {rt : ServiceRuntime} {s : DecisionPipeline} (h : Serialisable rt s)
    (action : Action) : dumpedView rt.dumps s action = some (actionView s action) :=
  if_pos (List.all_eq_true.mpr (h action.id.1))

theorem Serialisable.list {rt : ServiceRuntime} {s : DecisionPipeline} (h : Serialisable rt s)
    (tenantId : String) : shownPending rt tenantId s =
      (.ok ((s.listPendingActions tenantId).map (actionView s)), s) := by
  have hview : dumpedView rt.dumps s = fun action => pure (actionView s action) := funext h.view
  unfold shownPending
  rw [hview, List.mapM_pure]
  rfl

end OrchestratorApi

/-! ## The UI -/

namespace ApproverData

/-- The category of an `ApproverActionError`. -/
inductive Category where
  | notFound | alreadyDecided | notEligible | duplicateVote
  deriving DecidableEq, Repr

def approveCategory : Refusal → Option Category
  | .actionNotFound | .approvalNotFound => some .notFound
  | .approvalState => some .alreadyDecided
  | .approverNotEligible => some .notEligible
  | .duplicateApprover => some .duplicateVote

def rejectCategory : Refusal → Option Category
  | .actionNotFound | .approvalNotFound => some .notFound
  | .approvalState => some .alreadyDecided
  | .approverNotEligible => some .notEligible
  | .duplicateApprover => none

structure PanelDict where
  actionId : String
  tenantId : String
  eventId : String
  customerId : Option String
  actionType : String
  status : String
  reasoning : PyVal
  createdAt : Time
  updatedAt : Time
  approvalProgress : Option ApprovalProgress

/-- `_action_to_panel_dict`. -/
def actionToPanelDict (s : DecisionPipeline) (action : Action) : PanelDict where
  actionId := action.id.1
  tenantId := action.tenantId.1
  eventId := action.eventId.1
  customerId := action.customerId.map Subtype.val
  actionType := action.actionType.value
  status := action.status.value
  reasoning := (action.payload.get? "_planner_reasoning").getD (.str "")
  createdAt := action.createdAt
  updatedAt := action.updatedAt
  approvalProgress := approvalProgress s action

/-- `k.startswith("_")`. -/
def isPrivate (key : String) : Bool := key.toList.head? == some '_'

structure DetailDict extends PanelDict where
  auditTrail : List AuditLogEntry
  payload : List (String × PyVal)

/-- `_action_to_detail_dict`: the keys that start with an underscore are left out. -/
def actionToDetailDict (s : DecisionPipeline) (action : Action) : DetailDict where
  toPanelDict := actionToPanelDict s action
  auditTrail := s.audit.entriesForAction action.id.1 none
  payload := action.payload.entries.filter fun e => ¬ isPrivate e.1

def listPending (tenantId : String) (s : DecisionPipeline) : List PanelDict :=
  (s.listPendingActions tenantId).map (actionToPanelDict s)

/-- `None` for an action that the tenant does not have. -/
def getActionDetail (actionId tenantId : String) (s : DecisionPipeline) : Option DetailDict :=
  match ((getAction actionId (some tenantId)).run s).1 with
  | .ok action => some (actionToDetailDict s action)
  | .error _ => none

def approve (repr : String → String) (env : Env) (actionId decidedBy tenantId : String) :
    DecisionPipeline → Reply Category PanelDict × DecisionPipeline :=
  translate repr approveCategory (fun s action => some (actionToPanelDict s action))
    (approveAction env actionId decidedBy (some tenantId))

def reject (repr : String → String) (env : Env) (actionId reason decidedBy tenantId : String) :
    DecisionPipeline → Reply Category PanelDict × DecisionPipeline :=
  translate repr rejectCategory (fun s action => some (actionToPanelDict s action))
    (rejectAction env actionId reason decidedBy (some tenantId))

end ApproverData

/-! ## What the pipeline tells a caller -/

section Caller

variable {repr : String → String} {s : DecisionPipeline} {env : Env} {id voter reason : String}
  {expected : Option String}

/-- Why a call on the action is refused, with the exception and its text; `action` is what the caller
tried. -/
inductive Because (repr : String → String) (s : DecisionPipeline) (id voter : String)
    (expected : Option String) (action : String) : Refusal → String → Prop
  | unseen (hl : s.lookup id expected = none) :
      Because repr s id voter expected action .actionNotFound ("no action with id=" ++ repr id)
  | unqueued {a : Action} (hl : s.lookup id expected = some a)
      (hg : s.queue.byId.get? id = none) :
      Because repr s id voter expected action .approvalNotFound
        ("no approval row for action_id=" ++ repr id)
  | decided {a : Action} {row : ApprovalRule} (hl : s.lookup id expected = some a)
      (hg : s.queue.byId.get? id = some row) (hstate : row.state ≠ .pending) :
      Because repr s id voter expected action .approvalState ("approval for action_id=" ++ repr id ++
        " is already " ++ repr row.state.value ++ "; cannot " ++ action)
  | outsider {a : Action} {row : ApprovalRule} (hl : s.lookup id expected = some a)
      (hg : s.queue.byId.get? id = some row) (hstate : row.state = .pending)
      (hout : ¬ row.Eligible voter) :
      Because repr s id voter expected action .approverNotEligible
        (repr voter ++ " is not an eligible approver for action_id=" ++ repr id)
  | twice {a : Action} {row : ApprovalRule} (hl : s.lookup id expected = some a)
      (hg : s.queue.byId.get? id = some row) (hstate : row.state = .pending)
      (hin : row.Eligible voter) (htwice : voter ∈ row.approvals) (haction : action = "approve") :
      Because repr s id voter expected action .duplicateApprover
        (repr voter ++ " has already approved action_id=" ++ repr id ++
          "; one approver cannot fill two quorum seats")

/-- The call returned an action, or was refused for a reason of `Because` and changed nothing. -/
def Told (repr : String → String) (s : DecisionPipeline) (id voter : String)
    (expected : Option String) (action : String) (m : M Action) : Prop :=
  (∃ a s', m.run s = (.ok a, s')) ∨ ∃ e kind detail, m.run s = (.error e, s) ∧
    e.refusal repr = some (kind, detail) ∧ Because repr s id voter expected action kind detail

theorem recordVote_ok (hc : env.executor.Catchable) (hlen : UpTo 128 voter) (a : Action)
    (row : ApprovalRule) (s : DecisionPipeline) :
    ∃ a' s', recordVote env a row voter s = (.ok a', s') := by
  unfold recordVote
  rw [dif_pos hlen]
  simp only
  split
  · obtain ⟨a', s', hfin, -⟩ := finish_ok env (a.withStatus .pendingExec env.now)
      (((s.storeRow (row.vote env.now voter)).log _).put (a.withStatus .pendingExec env.now)) hc
    exact ⟨a', s', hfin⟩
  · exact ⟨_, _, rfl⟩

theorem approveAction_told (repr : String → String) (id : String) (expected : Option String)
    (hs : Sound s) (hc : env.executor.Catchable) (hlen : UpTo 128 voter) :
    Told repr s id voter expected "approve" (approveAction env id voter expected) := by
  have hrun := approveAction_run hs.queued env id voter expected
  cases hl : s.lookup id expected with
  | none =>
    rw [hl] at hrun
    exact .inr ⟨_, _, _, hrun, rfl, .unseen hl⟩
  | some a =>
    cases hg : s.queue.byId.get? id with
    | none =>
      rw [hl, hg] at hrun
      exact .inr ⟨_, _, _, hrun, rfl, .unqueued hl hg⟩
    | some row =>
      rw [hl, hg] at hrun
      simp only at hrun
      by_cases hv : row.Votable voter
      · rw [if_pos hv] at hrun
        obtain ⟨a', s', hok⟩ := recordVote_ok hc hlen a row s
        exact .inl ⟨a', s', hrun.trans hok⟩
      · rw [if_neg hv] at hrun
        have hid := hs.queued.key hg
        unfold InMemoryApprovalQueue.voteError at hrun
        by_cases hstate : row.state = .pending
        · rw [if_neg (not_not.mpr hstate)] at hrun
          by_cases hin : row.Eligible voter
          · rw [if_neg (not_not.mpr hin), hid] at hrun
            have htwice : voter ∈ row.approvals := by
              by_contra hno
              exact hv ⟨hstate, hin, hno⟩
            exact .inr ⟨_, _, _, hrun, rfl, .twice hl hg hstate hin htwice rfl⟩
          · rw [if_pos hin, hid] at hrun
            exact .inr ⟨_, _, _, hrun, rfl, .outsider hl hg hstate hin⟩
        · rw [if_pos hstate, hid] at hrun
          exact .inr ⟨_, _, _, hrun, rfl, .decided hl hg hstate⟩

theorem rejectAction_told (repr : String → String) (env : Env) (id reason : String)
    (expected : Option String) (hs : Sound s) (hlen : UpTo 128 voter) :
    Told repr s id voter expected "reject" (rejectAction env id reason voter expected) := by
  have hrun := rejectAction_run hs.queued env id reason voter expected
  cases hl : s.lookup id expected with
  | none =>
    rw [hl] at hrun
    exact .inr ⟨_, _, _, hrun, rfl, .unseen hl⟩
  | some a =>
    cases hg : s.queue.byId.get? id with
    | none =>
      rw [hl, hg] at hrun
      exact .inr ⟨_, _, _, hrun, rfl, .unqueued hl hg⟩
    | some row =>
      rw [hl, hg] at hrun
      simp only at hrun
      by_cases hv : row.Vetoable voter
      · rw [if_pos hv, recordVeto, dif_pos hlen] at hrun
        exact .inl ⟨_, _, hrun⟩
      · rw [if_neg hv] at hrun
        have hid := hs.queued.key hg
        unfold InMemoryApprovalQueue.vetoError at hrun
        by_cases hstate : row.state = .pending
        · rw [if_neg (not_not.mpr hstate), hid] at hrun
          exact .inr ⟨_, _, _, hrun, rfl, .outsider hl hg hstate fun hin => hv ⟨hstate, hin⟩⟩
        · rw [if_pos hstate, hid] at hrun
          exact .inr ⟨_, _, _, hrun, rfl, .decided hl hg hstate⟩

end Caller

/-! ## Runs of the service -/

def Reply.map {κ α β : Type} (f : α → β) : Reply κ α → Reply κ β
  | .ok a => .ok (f a)
  | .refused code detail => .refused code detail
  | .invalid fields => .invalid fields
  | .raised e => .raised e
  | .unserialisable => .unserialisable

/-- What the service does: the listener's proposals and the configuration, and the requests. -/
inductive ServiceOp where
  | internal (op : PipelineOp)
  | approve (env : Env) (actionId decidedBy : String) (tenantId : Option String)
  | reject (env : Env) (actionId reason decidedBy : String) (tenantId : Option String)
  | get (actionId : String) (tenantId : Option String)
  | list (tenantId : String)

namespace ServiceOp

open OrchestratorApi

/-- The actions that the answer shows, and the service after it. -/
def answer (rt : ServiceRuntime) :
    ServiceOp → DecisionPipeline → Reply Nat (List ShownAction) × DecisionPipeline
  | .internal op, s => (.ok [], pipelineStep s op)
  | .approve env id voter t, s =>
    let r := approvalsApprove rt env id voter t s
    (r.1.map fun v => [v], r.2)
  | .reject env id reason voter t, s =>
    let r := approvalsReject rt env id reason voter t s
    (r.1.map fun v => [v], r.2)
  | .get id t, s =>
    let r := actionsGet rt id t s
    (r.1.map fun v => [v], r.2)
  | .list t, s => approvalsList rt t s

/-- The request was answered 2xx. -/
def isOk (rt : ServiceRuntime) (s : DecisionPipeline) (op : ServiceOp) : Bool :=
  match (op.answer rt s).1 with
  | .ok _ => true
  | _ => false

/-- Ids are fresh, and what a handler raises is caught. What comes from inside is a proposal or a
setting. -/
def Legal (s : DecisionPipeline) : ServiceOp → Prop
  | .internal (.approveAction ..) | .internal (.rejectAction ..) => False
  | .internal op => op.Fresh s ∧ op.Catchable
  | .approve env _ _ _ => env.executor.Catchable
  | _ => True

end ServiceOp

/-- The note of a rejection fits the row. -/
def PipelineOp.Noted : PipelineOp → Prop
  | .rejectAction _ _ reason _ _ => UpTo 2048 reason
  | _ => True

def serviceStep (rt : ServiceRuntime) (s : DecisionPipeline) (op : ServiceOp) : DecisionPipeline :=
  (op.answer rt s).2

abbrev ServiceRun (rt : ServiceRuntime) :
    List (DecisionPipeline × ServiceOp) → DecisionPipeline → Prop :=
  Run (serviceStep rt) ServiceOp.Legal {}

section Service

variable {repr : String → String} {rt : ServiceRuntime} {s : DecisionPipeline}

theorem checked_ok {κ α : Type} {params : List QueryParam} (h : ∀ q ∈ params, q.Ok)
    (handler : DecisionPipeline → Reply κ α × DecisionPipeline) (s : DecisionPipeline) :
    checked params handler s = handler s := by
  unfold checked
  rw [if_pos (List.filter_eq_nil_iff.mpr fun q hq => by simpa using h q hq)]

/-- The check of the parameters refuses without a call, or all are within their bounds. -/
theorem checked_cases {κ α : Type} (params : List QueryParam)
    (handler : DecisionPipeline → Reply κ α × DecisionPipeline) (s : DecisionPipeline) :
    (∃ fields, checked params handler s = (.invalid fields, s)) ∨
      (∀ q ∈ params, q.Ok) ∧ checked params handler s = handler s := by
  unfold checked
  by_cases hbad : (params.filter fun q => ¬ q.Ok) = []
  · refine .inr ⟨fun q hq => ?_, if_pos hbad⟩
    simpa using List.filter_eq_nil_iff.mp hbad q hq
  · exact .inl ⟨_, if_neg hbad⟩

theorem translate_state {κ α : Type} (repr : String → String) (code : Refusal → Option κ)
    (view : DecisionPipeline → Action → Option α) (m : M Action) (s : DecisionPipeline) :
    (translate repr code view m s).2 = (m.run s).2 := by
  unfold translate
  cases hrun : (m.run s).1 with
  | ok action => cases hview : view (m.run s).2 action <;> simp only [hrun, hview]
  | error e =>
    cases he : e.refusal repr with
    | none => simp only [hrun, he]
    | some kd =>
      cases hcode : code kd.1 with
      | none => simp only [hrun, he, hcode]
      | some c => simp only [hrun, he, hcode]

/-- What a surface with a code for every reason answers. -/
theorem Told.translate {κ α : Type} {id voter action : String} {expected : Option String}
    {m : M Action} (h : Told repr s id voter expected action m) (code : Refusal → Option κ)
    (view : DecisionPipeline → Action → Option α)
    (hview : ∀ a, ∃ v, view (m.run s).2 a = some v)
    (hcode : ∀ kind detail, Because repr s id voter expected action kind detail →
      ∃ c, code kind = some c) :
    (∃ a s', translate repr code view m s = (.ok a, s')) ∨
      ∃ kind detail c, Because repr s id voter expected action kind detail ∧ code kind = some c ∧
        translate repr code view m s = (.refused c detail, s) := by
  unfold PennyCore.translate
  rcases h with ⟨a, s', hrun⟩ | ⟨e, kind, detail, hrun, he, hwhy⟩
  · obtain ⟨v, hv⟩ := hview a
    rw [hrun] at hv ⊢
    simp only [hv]
    exact .inl ⟨v, s', rfl⟩
  · obtain ⟨c, hc⟩ := hcode kind detail hwhy
    refine .inr ⟨kind, detail, c, hwhy, hc, ?_⟩
    simp only [hrun, he, hc]

namespace ServiceOp

open OrchestratorApi

/-- Why a request is refused with `code` and `detail`. -/
def Refused (repr : String → String) (s : DecisionPipeline) (code : Nat) (detail : String) :
    ServiceOp → Prop
  | .approve _ id voter t => ∃ kind, Because repr s id voter t "approve" kind detail ∧
      approveStatus kind = some code
  | .reject _ id _ voter t => ∃ kind, Because repr s id voter t "reject" kind detail ∧
      rejectStatus kind = some code
  | .get id t => s.lookup id t = none ∧ code = 404 ∧ detail = "no action with id=" ++ repr id
  | _ => False

theorem decidedBy_ok {voter : String} (h : (decidedByParam voter).Ok) : UpTo 128 voter :=
  (h voter rfl).2

theorem rejectStatus_because {id voter : String} {t : Option String} {kind : Refusal}
    {detail : String} (h : Because repr s id voter t "reject" kind detail) :
    ∃ c, rejectStatus kind = some c := by
  cases h with
  | twice _ _ _ _ _ haction => exact absurd haction (by decide)
  | _ => exact ⟨_, rfl⟩

/-- An operation is answered 2xx, or changes nothing and says why. -/
theorem answer_cases (rt : ServiceRuntime) (hs : Sound s) {op : ServiceOp} (hl : op.Legal s)
    (hd : Serialisable rt (serviceStep rt s op)) :
    op.isOk rt s = true ∨ (op.answer rt s).2 = s ∧
      ((∃ fields, (op.answer rt s).1 = .invalid fields) ∨
        ∃ code detail, (op.answer rt s).1 = .refused code detail ∧ op.Refused rt.repr s code detail) := by
  cases op with
  | internal op => exact .inl rfl
  | approve env id voter t =>
    rcases checked_cases [decidedByParam voter, tenantParam t]
      (translate rt.repr approveStatus (dumpedView rt.dumps) (approveAction env id voter t)) s with
      ⟨fields, h⟩ | ⟨hok, h⟩
    · refine .inr ?_
      simp only [answer, approvalsApprove, h, Reply.map]
      exact ⟨trivial, .inl ⟨_, rfl⟩⟩
    · have hlen := decidedBy_ok (hok _ (List.mem_cons_self ..))
      have hd : Serialisable rt ((approveAction env id voter t).run s).2 := by
        rw [← translate_state rt.repr approveStatus (dumpedView rt.dumps), ← h]
        exact hd
      rcases (approveAction_told rt.repr id t hs hl hlen).translate
        approveStatus (dumpedView rt.dumps) (fun a => ⟨_, hd.view a⟩)
        (fun kind _ _ => by cases kind <;> exact ⟨_, rfl⟩) with
        ⟨v, s', hrun⟩ | ⟨kind, detail, c, hwhy, hc, hrun⟩
      · refine .inl ?_
        simp only [isOk, answer, approvalsApprove, h, hrun, Reply.map]
      · refine .inr ?_
        simp only [answer, approvalsApprove, h, hrun, Reply.map]
        exact ⟨trivial, .inr ⟨_, _, rfl, kind, hwhy, hc⟩⟩
  | reject env id reason voter t =>
    rcases checked_cases [reasonParam reason, decidedByParam voter, tenantParam t]
      (translate rt.repr rejectStatus (dumpedView rt.dumps) (rejectAction env id reason voter t)) s with
      ⟨fields, h⟩ | ⟨hok, h⟩
    · refine .inr ?_
      simp only [answer, approvalsReject, h, Reply.map]
      exact ⟨trivial, .inl ⟨_, rfl⟩⟩
    · have hlen := decidedBy_ok (hok _ (List.mem_cons_of_mem _ (List.mem_cons_self ..)))
      have hd : Serialisable rt ((rejectAction env id reason voter t).run s).2 := by
        rw [← translate_state rt.repr rejectStatus (dumpedView rt.dumps), ← h]
        exact hd
      rcases (rejectAction_told rt.repr env id reason t hs hlen).translate rejectStatus
        (dumpedView rt.dumps) (fun a => ⟨_, hd.view a⟩) (fun _ _ => rejectStatus_because) with
        ⟨v, s', hrun⟩ | ⟨kind, detail, c, hwhy, hc, hrun⟩
      · refine .inl ?_
        simp only [isOk, answer, approvalsReject, h, hrun, Reply.map]
      · refine .inr ?_
        simp only [answer, approvalsReject, h, hrun, Reply.map]
        exact ⟨trivial, .inr ⟨_, _, rfl, kind, hwhy, hc⟩⟩
  | get id t =>
    rcases checked_cases [tenantParam t]
      (translate rt.repr getStatus (dumpedView rt.dumps) (getAction id t)) s with
      ⟨fields, h⟩ | ⟨-, h⟩
    · refine .inr ?_
      simp only [answer, actionsGet, h, Reply.map]
      exact ⟨trivial, .inl ⟨_, rfl⟩⟩
    · have hrun := getAction_run s id t
      cases hlook : s.lookup id t with
      | none =>
        rw [hlook] at hrun
        refine .inr ?_
        simp only [answer, actionsGet, h, translate, hrun, PipelineError.refusal, getStatus, Reply.map]
        exact ⟨trivial, .inr ⟨_, _, rfl, hlook, rfl, rfl⟩⟩
      | some a =>
        rw [hlook] at hrun
        have hd : Serialisable rt s := by
          have hstate := translate_state rt.repr getStatus (dumpedView rt.dumps)
            (getAction id t) s
          rw [hrun, ← h] at hstate
          exact Eq.subst (motive := Serialisable rt) hstate hd
        refine .inl ?_
        simp only [isOk, answer, actionsGet, h, translate, hrun, hd.view a, Reply.map]
  | list t =>
    rcases checked_cases [tenantParam (some t)] (shownPending rt t) s with ⟨fields, h⟩ | ⟨-, h⟩
    · refine .inr ?_
      simp only [answer, approvalsList, h]
      exact ⟨trivial, .inl ⟨_, rfl⟩⟩
    · refine .inl ?_
      have hd : Serialisable rt s := by
        have hstate : (shownPending rt t s).2 = s := by
          unfold shownPending
          split <;> rfl
        rw [← h] at hstate
        exact Eq.subst (motive := Serialisable rt) hstate hd
      simp only [isOk, answer, approvalsList, h, hd.list t]

/-- A step of the service is a step of the pipeline, or none. -/
theorem step_pipeline (rt : ServiceRuntime) {op : ServiceOp} (hl : op.Legal s) :
    serviceStep rt s op = s ∨ ∃ p : PipelineOp, p.Fresh s ∧ p.Named ∧ p.Catchable ∧ p.Noted ∧
      serviceStep rt s op = pipelineStep s p := by
  cases op with
  | internal op =>
    cases op with
    | approveAction env id voter t => exact hl.elim
    | rejectAction env id reason voter t => exact hl.elim
    | _ => exact .inr ⟨_, hl.1, trivial, hl.2, trivial, rfl⟩
  | approve env id voter t =>
    rcases checked_cases [decidedByParam voter, tenantParam t]
      (translate rt.repr approveStatus (dumpedView rt.dumps) (approveAction env id voter t)) s with
      ⟨fields, h⟩ | ⟨hok, h⟩
    · exact .inl (congrArg Prod.snd h)
    · refine .inr ⟨.approveAction env id voter t, trivial,
        decidedBy_ok (hok _ (List.mem_cons_self ..)), hl, trivial, ?_⟩
      refine (congrArg Prod.snd h).trans ?_
      rw [translate_state]
      exact (state_of_wrap _ _ s).symm
  | reject env id reason voter t =>
    rcases checked_cases [reasonParam reason, decidedByParam voter, tenantParam t]
      (translate rt.repr rejectStatus (dumpedView rt.dumps) (rejectAction env id reason voter t)) s with
      ⟨fields, h⟩ | ⟨hok, h⟩
    · exact .inl (congrArg Prod.snd h)
    · refine .inr ⟨.rejectAction env id reason voter t, trivial,
        decidedBy_ok (hok _ (List.mem_cons_of_mem _ (List.mem_cons_self ..))), trivial,
        (hok _ (List.mem_cons_self ..) reason rfl).2, ?_⟩
      refine (congrArg Prod.snd h).trans ?_
      rw [translate_state]
      exact (state_of_wrap _ _ s).symm
  | get id t =>
    rcases checked_cases [tenantParam t]
      (translate rt.repr getStatus (dumpedView rt.dumps) (getAction id t)) s with
      ⟨fields, h⟩ | ⟨-, h⟩
    · exact .inl (congrArg Prod.snd h)
    · refine .inl ((congrArg Prod.snd h).trans ?_)
      rw [translate_state, getAction_run]
      cases s.lookup id t <;> rfl
  | list t =>
    rcases checked_cases [tenantParam (some t)] (shownPending rt t) s with ⟨fields, h⟩ | ⟨-, h⟩
    · exact .inl (congrArg Prod.snd h)
    · refine .inl ((congrArg Prod.snd h).trans ?_)
      unfold shownPending
      split <;> rfl

end ServiceOp

/-- Runs of the service are runs of the pipeline whose voters fit the audit log. -/
theorem service_pipeline {h : List (DecisionPipeline × ServiceOp)} (hr : ServiceRun rt h s) :
    ∃ h', PipelineRun (fun _ op => op.Named ∧ op.Catchable) h' s := by
  refine hr.holds (I := fun s => ∃ h', PipelineRun (fun _ op => op.Named ∧ op.Catchable) h' s)
    ⟨[], .start⟩ fun s op hi hl => ?_
  obtain ⟨h', hp⟩ := hi
  rcases ServiceOp.step_pipeline rt hl with hsame | ⟨p, hfresh, hnamed, hcatch, -, hstep⟩
  · rw [hsame]
    exact ⟨h', hp⟩
  · rw [hstep]
    exact ⟨_, hp.next ⟨hfresh, hnamed, hcatch⟩⟩

theorem ServiceRun.sound {h : List (DecisionPipeline × ServiceOp)} (hr : ServiceRun rt h s) :
    Sound s := by
  obtain ⟨h', hp⟩ := service_pipeline hr
  exact sound_run hp

/-- The requests of a run that were answered 2xx, with what came from inside. -/
def acceptedIn (rt : ServiceRuntime) (h : List (DecisionPipeline × ServiceOp)) : List ServiceOp :=
  (h.filter fun x => x.2.isOk rt x.1).map Prod.snd

/-- Over every run of the service whose audit rows can be dumped: its state is that of the requests that
were answered 2xx alone, in their order. Every other request had parameters out of bounds, or was refused
for the reason that its status and text name, and none raises what is not translated. An action of another
tenant is refused as one that does not exist. -/
theorem requests_leave_no_trace {h : List (DecisionPipeline × ServiceOp)}
    (hr : ServiceRun rt h s)
    (hd : ∀ u op, (u, op) ∈ h → OrchestratorApi.Serialisable rt (serviceStep rt u op)) :
    s = (acceptedIn rt h).foldl (serviceStep rt) {} ∧
    ∀ u op, (u, op) ∈ h → op.isOk rt u = true ∨ (op.answer rt u).2 = u ∧
      ((∃ fields, (op.answer rt u).1 = .invalid fields) ∨
        ∃ code detail, (op.answer rt u).1 = .refused code detail ∧
          op.Refused rt.repr u code detail) := by
  let Dumped (h : List (DecisionPipeline × ServiceOp)) : Prop :=
    ∀ u op, (u, op) ∈ h → OrchestratorApi.Serialisable rt (serviceStep rt u op)
  refine hr.invariant (I := fun h s => Dumped h → s = (acceptedIn rt h).foldl (serviceStep rt) {} ∧
    ∀ u op, (u, op) ∈ h → op.isOk rt u = true ∨ (op.answer rt u).2 = u ∧
      ((∃ fields, (op.answer rt u).1 = .invalid fields) ∨
        ∃ code detail, (op.answer rt u).1 = .refused code detail ∧
          op.Refused rt.repr u code detail)) (fun _ => ⟨rfl, fun _ _ hx => nomatch hx⟩)
    (fun h s op hrun hi hl hd => ?_) hd
  have hcases := ServiceOp.answer_cases rt (ServiceRun.sound hrun) hl
    (hd s op (List.mem_append_right _ (List.mem_singleton_self _)))
  have hi := hi fun u op hx => hd u op (List.mem_append_left _ hx)
  refine ⟨?_, fun u op' hx => ?_⟩
  · unfold acceptedIn at hi ⊢
    rw [List.filter_append, List.map_append, List.foldl_append, ← hi.1]
    cases hok : op.isOk rt s with
    | true => simp [hok]
    | false =>
      rw [hok] at hcases
      simp only [List.filter_cons, hok]
      exact (hcases.resolve_left Bool.false_ne_true).1
  · rcases List.mem_append.mp hx with hx | hx
    · exact hi.2 u op' hx
    · rw [List.mem_singleton] at hx
      cases hx
      exact hcases

/-- An action of `t1` waits; `t2` tries to approve it, and then `ann` approves it for `t1`. -/
def foreignVote : List ServiceOp :=
  [.internal (.setPolicies "t1" (everything "approval_required")),
    .internal (.handleProposal (demoEnv ∅) demoProposal),
    .approve (demoEnv ∅) (demoEnv ∅).actionId.1 "ann" (some "t2"),
    .approve (demoEnv ∅) (demoEnv ∅).actionId.1 "ann" (some "t1")]

theorem noHandlers_catchable : (demoEnv ∅).executor.Catchable := by
  intro ty handler action e hg
  cases hg

theorem foreignVote_run (rt : ServiceRuntime) :
    ServiceRun rt (Run.trace (serviceStep rt) {} foreignVote)
      (foreignVote.foldl (serviceStep rt) {}) :=
  Run.ofOps ⟨⟨trivial, trivial⟩, ⟨rfl, noHandlers_catchable⟩, noHandlers_catchable,
    noHandlers_catchable, trivial⟩

/-- Strings are shown as they are, and every row can be dumped. -/
def demoService : ServiceRuntime := ⟨id, fun _ => true⟩

theorem requests_leave_no_trace_foreign :
    let h := Run.trace (serviceStep demoService) {} foreignVote
    foreignVote.foldl (serviceStep demoService) {} =
        (acceptedIn demoService h).foldl (serviceStep demoService) {} ∧
      (acceptedIn demoService h).length = 3 :=
  ⟨(requests_leave_no_trace (foreignVote_run demoService) fun _ _ _ _ _ _ => rfl).1, rfl⟩

end Service

/-! ## What is shown -/

/-- What the tally of an action's queue row tells, next to the action's status. -/
def Shows (a : Action) : Option ApprovalProgress → Prop
  | none => a.status = .rejected ∨ a.status = .executed ∨ a.status = .executionFailed
  | some p =>
    p.approvalsRecorded = p.approvers.length ∧ p.approvers.Nodup ∧
    (∀ pool ∈ p.eligibleApprovers, ∀ v ∈ p.approvers, v ∈ pool) ∧
    p.approvalsRemaining = p.requiredApprovals - p.approvalsRecorded ∧
    ((p.state = .pending ∧ a.status = .pendingApproval ∧ 0 < p.approvalsRemaining) ∨
      (p.state = .approved ∧ (a.status = .executed ∨ a.status = .executionFailed) ∧
        p.approvalsRemaining = 0) ∨
      (p.state = .rejected ∧ a.status = .rejected ∧ 0 < p.approvalsRemaining))

section Shown

variable {rt : ServiceRuntime} {s : DecisionPipeline} {a : Action} {t : String}

theorem Life.shows {b : Birth} {id : String} {p : Phase} (h : Life b id p (s.slice id))
    (hend : ∀ e ∈ p.ending, e.status = .executed ∨ e.status = .executionFailed)
    (ha : s.actions.byId.get? id = some a) :
    Shows a (approvalProgress s a) := by
  obtain ⟨a', ha', hid, -, -, -, hst⟩ := h.action
  rw [show (s.slice id).action = some a from ha] at ha'
  cases ha'
  have hrow := h.row
  have hvalid := h.valid
  have hnone : (s.slice id).row = none → approvalProgress s a = none := fun hr => by
    unfold approvalProgress
    rw [hid, show s.queue.byId.get? id = none from hr]
    rfl
  have htally : ∀ (state : ApprovalState) (voters : List (Str 0 128)),
      (∃ r, (s.slice id).row = some r ∧ r.actionId.1 = id ∧ r.state = state ∧
        r.approvals = voters.map Subtype.val ∧
        r.requiredApprovals = b.rule.requiredApprovals ∧
        r.eligibleApprovers = b.rule.eligibleApprovers) →
      approvalProgress s a = some ⟨state, b.rule.requiredApprovals, voters.length,
        max 0 (b.rule.requiredApprovals - voters.length), voters.map Subtype.val,
        b.rule.eligibleApprovers⟩ := by
    rintro state voters ⟨r, hr, -, h2, h3, h4, h5⟩
    unfold approvalProgress
    rw [hid, show s.queue.byId.get? id = some r from hr, Option.map_some, h2, h3, h4, h5,
      List.length_map]
  have hpool : ∀ {voters : List (Str 0 128)}, b.Electorate voters →
      ∀ pool ∈ b.rule.eligibleApprovers, ∀ v ∈ voters.map Subtype.val, v ∈ pool := by
    intro voters hel pool hpool v hv
    obtain ⟨w, hw, rfl⟩ := List.mem_map.mp hv
    exact hel.inPool pool hpool w hw
  cases p with
  | refused =>
    rw [hnone hrow]
    exact .inl hst
  | automatic called e =>
    rw [hnone hrow]
    refine .inr ?_
    rw [show a.status = e.status from hst]
    exact hend e rfl
  | voting voters =>
    obtain ⟨-, hel, hlt⟩ := hvalid
    rw [htally _ _ hrow]
    refine ⟨by simp, hel.nodup, hpool hel, max_eq_right (by omega), .inl ⟨rfl, hst, ?_⟩⟩
    exact lt_max_of_lt_right (by omega)
  | approved voters called e =>
    obtain ⟨-, hel, heq⟩ := hvalid
    rw [htally _ _ hrow]
    refine ⟨by simp, hel.nodup, hpool hel, max_eq_right (by omega), .inr (.inl ⟨rfl, ?_, ?_⟩)⟩
    · rw [show a.status = e.status from hst]
      exact hend e rfl
    · exact max_eq_left (by omega)
  | vetoed voters v reason =>
    obtain ⟨-, hel, hlt⟩ := hvalid
    rw [htally _ _ hrow]
    refine ⟨by simp, hel.nodup, hpool hel, max_eq_right (by omega), .inr (.inr ⟨rfl, hst, ?_⟩)⟩
    exact lt_max_of_lt_right (by omega)

/-- In every state of the service an action shows its tally. -/
theorem ServiceRun.shows {h : List (DecisionPipeline × ServiceOp)} (hr : ServiceRun rt h s)
    {id : String} (ha : s.actions.byId.get? id = some a) : Shows a (approvalProgress s a) := by
  obtain ⟨h', hp⟩ := service_pipeline hr
  have hi := lockstep_run (NamedRun.recordable (hp.mono fun _ _ hl => ⟨hl.1, hl.2.1⟩))
  obtain ⟨b, hb⟩ := hi.birth_of_action ha
  obtain ⟨p, hlife, hend⟩ := hi.born id b hb
  have hcatch := hp.invariant (I := fun h _ => ∀ x ∈ h, x.2.Catchable) (fun _ hx => nomatch hx)
    fun h s op _ hi hl x hx => by
      rcases List.mem_append.mp hx with hx | hx
      · exact hi x hx
      · rw [List.mem_singleton.mp hx]
        exact hl.2.2
  refine hlife.shows (fun e he => ?_) ha
  obtain ⟨x, hx, o, hex, rfl⟩ := hend e he
  exact Ending.status_of (hex.isException (hcatch x hx))

/-- Lookups one after the other that all find something, which has the key it was found by. -/
theorem map_filterMap_filterMap {α β γ : Type} {f : α → Option β} {g : β → Option γ} {key : γ → α}
    (l : List α) (h : ∀ x ∈ l, ∃ y z, f x = some y ∧ g y = some z ∧ key z = x) :
    ((l.filterMap f).filterMap g).map key = l := by
  induction l with
  | nil => rfl
  | cons x l ih =>
    obtain ⟨y, z, hy, hz, hkey⟩ := h x (List.mem_cons_self ..)
    rw [List.filterMap_cons_some hy, List.filterMap_cons_some hz, List.map_cons, hkey,
      ih fun x hx => h x (List.mem_cons_of_mem _ hx)]

theorem Sound.pendingList (hs : Sound s) (t : String) :
    s.queue.pendingByTenant.getList t = s.queue.byId.keysWhere (pendingOf t) := by
  obtain ⟨hq, hqr⟩ := hs.queued
  exact (inv_run hqr).pending t

/-- The pending actions of a tenant, in the order in which they were queued. -/
theorem Sound.listPending_ids (hs : Sound s) (t : String) :
    (s.listPendingActions t).map (fun a => a.id.1) = s.queue.byId.keysWhere (pendingOf t) := by
  unfold listPendingActions InMemoryApprovalQueue.listPending
  rw [hs.pendingList t]
  refine map_filterMap_filterMap _ fun id hid => ?_
  obtain ⟨row, hrow, -⟩ := Dict.mem_keysWhere.mp hid
  obtain ⟨a, ha, -⟩ := hs.owner id row hrow
  refine ⟨row, a, hrow, ?_, hs.key id a ha⟩
  rw [hs.queued.key hrow]
  exact ha

theorem Sound.mem_listPending (hs : Sound s) : a ∈ s.listPendingActions t ↔
    s.actions.byId.get? a.id.1 = some a ∧
      ∃ row, s.queue.byId.get? a.id.1 = some row ∧ row.state = .pending ∧ a.tenantId.1 = t := by
  unfold listPendingActions InMemoryApprovalQueue.listPending
  rw [hs.pendingList t, List.mem_filterMap]
  constructor
  · rintro ⟨row, hrow, ha⟩
    obtain ⟨id, hid, hget⟩ := List.mem_filterMap.mp hrow
    obtain ⟨row', hrow', hp⟩ := Dict.mem_keysWhere.mp hid
    rw [hget] at hrow'
    cases hrow'
    have hkey := hs.queued.key hget
    rw [hkey] at ha
    have haid := hs.key id a ha
    obtain ⟨a', ha', htenant⟩ := hs.owner id row hget
    rw [ha] at ha'
    cases ha'
    simp only [pendingOf, decide_eq_true_eq] at hp
    rw [haid]
    exact ⟨ha, row, hget, hp.1, by rw [htenant]; exact hp.2⟩
  · rintro ⟨ha, row, hget, hstate, htenant⟩
    obtain ⟨a', ha', hown⟩ := hs.owner _ row hget
    rw [ha] at ha'
    cases ha'
    refine ⟨row, List.mem_filterMap.mpr ⟨a.id.1, Dict.mem_keysWhere.mpr ⟨row, hget, ?_⟩, hget⟩, ?_⟩
    · simp only [pendingOf, decide_eq_true_eq]
      exact ⟨hstate, by rw [← hown]; exact htenant⟩
    · rw [hs.queued.key hget]
      exact ha

/-- In every state of the service: the tally that is shown with an action fits its status, the voters
are distinct and in the pool, and what remains is what the quorum lacks. `/approvals` shows the tenant's
actions that wait for approval, each once, in the order in which they were queued, if the audit rows can
be dumped. -/
theorem approvals_shown {h : List (DecisionPipeline × ServiceOp)} (hr : ServiceRun rt h s) :
    (∀ id a, s.actions.byId.get? id = some a → Shows a (actionView s a).approvalProgress) ∧
    (OrchestratorApi.Serialisable rt s → ∀ t, (OrchestratorApi.tenantParam (some t)).Ok → ∃ views,
      (OrchestratorApi.approvalsList rt t s).1 = .ok views ∧
      views.map ShownAction.actionId = s.queue.byId.keysWhere (pendingOf t) ∧
      (views.map ShownAction.actionId).Nodup ∧
      ∀ v, v ∈ views ↔ ∃ a, s.actions.byId.get? a.id.1 = some a ∧ a.tenantId.1 = t ∧
        a.status = .pendingApproval ∧ v = actionView s a) := by
  have hs := hr.sound
  refine ⟨fun id a ha => hr.shows ha, fun hd t ht =>
    ⟨(s.listPendingActions t).map (actionView s), ?_, ?_, ?_, fun v => ?_⟩⟩
  · rw [OrchestratorApi.approvalsList, checked_ok (by simp [ht]), hd.list t]
  · rw [List.map_map]
    exact hs.listPending_ids t
  · rw [List.map_map]
    exact (hs.listPending_ids t).symm ▸ Dict.nodup_keysWhere _ _
  · rw [List.mem_map]
    constructor
    · rintro ⟨a, ha, rfl⟩
      obtain ⟨hget, row, hrow, hstate, htenant⟩ := hs.mem_listPending.mp ha
      refine ⟨a, hget, htenant, ?_, rfl⟩
      have hshows := hr.shows hget
      unfold approvalProgress at hshows
      rw [hrow] at hshows
      obtain ⟨-, -, -, -, ⟨-, hst, -⟩ | ⟨hst, -⟩ | ⟨hst, -⟩⟩ := hshows
      · exact hst
      · rw [show row.state = .approved from hst] at hstate
        cases hstate
      · rw [show row.state = .rejected from hst] at hstate
        cases hstate
    · rintro ⟨a, hget, htenant, hst, rfl⟩
      refine ⟨a, hs.mem_listPending.mpr ⟨hget, ?_⟩, rfl⟩
      have hshows := hr.shows hget
      unfold approvalProgress at hshows
      cases hrow : s.queue.byId.get? a.id.1 with
      | none =>
        rw [hrow] at hshows
        rcases hshows with h | h | h <;> rw [hst] at h <;> cases h
      | some row =>
        rw [hrow] at hshows
        obtain ⟨-, -, -, -, ⟨hstate, -, -⟩ | ⟨-, h | h, -⟩ | ⟨-, h, -⟩⟩ := hshows
        · exact ⟨row, rfl, hstate, htenant⟩
        · rw [hst] at h
          cases h
        · rw [hst] at h
          cases h
        · rw [hst] at h
          cases h

/-- Before `ann` has approved it, the action of `t1` waits. -/
theorem approvals_shown_foreign :
    let ops := foreignVote.take 3
    let s := ops.foldl (serviceStep demoService) {}
    ∃ views, (OrchestratorApi.approvalsList demoService "t1" s).1 = .ok views ∧
      views.map ShownAction.actionId = [(demoEnv ∅).actionId.1] := by
  intro ops s
  have hr : ServiceRun demoService (Run.trace (serviceStep demoService) {} ops) s :=
    Run.ofOps ⟨⟨trivial, trivial⟩, ⟨rfl, noHandlers_catchable⟩, noHandlers_catchable, trivial⟩
  obtain ⟨views, hviews, hids, -⟩ :=
    (approvals_shown hr).2 (fun _ _ _ => rfl) "t1" (by decide)
  exact ⟨views, hviews, hids⟩

end Shown

/-! ## The UI and the API -/

namespace ApproverData

open OrchestratorApi

/-- The status with which the API answers where the UI has the category. -/
def Category.status : Category → Nat
  | .notFound => 404
  | .notEligible => 403
  | .alreadyDecided | .duplicateVote => 409

/-- The part of what the API shows that a panel has. -/
def panelOf (v : ShownAction) : PanelDict where
  actionId := v.actionId
  tenantId := v.tenantId
  eventId := v.eventId
  customerId := v.customerId
  actionType := v.actionType
  status := v.status
  reasoning := v.reasoning
  createdAt := v.createdAt
  updatedAt := v.updatedAt
  approvalProgress := v.approvalProgress

/-- The answers of the UI and of the API tell the same. -/
inductive Agrees : Reply Category PanelDict → Reply Nat ShownAction → Prop
  | ok (v : ShownAction) : Agrees (.ok (panelOf v)) (.ok v)
  | refused (c : Category) (detail : String) : Agrees (.refused c detail) (.refused c.status detail)
  | raised (e : PipelineError) : Agrees (.raised e) (.raised e)

theorem translate_agrees (repr : String → String) {code : Refusal → Option Category}
    {code' : Refusal → Option Nat} (hcode : ∀ kind, code' kind = (code kind).map Category.status)
    (m : M Action) (s : DecisionPipeline) {rt : ServiceRuntime} (hd : Serialisable rt (m.run s).2) :
    (translate repr code (fun s action => some (actionToPanelDict s action)) m s).2 =
        (translate repr code' (dumpedView rt.dumps) m s).2 ∧
      Agrees (translate repr code (fun s action => some (actionToPanelDict s action)) m s).1
        (translate repr code' (dumpedView rt.dumps) m s).1 := by
  refine ⟨(translate_state _ code _ m s).trans (translate_state _ code' _ m s).symm, ?_⟩
  unfold translate
  cases hrun : (m.run s).1 with
  | ok action =>
    simp only [hrun, hd.view action]
    exact .ok (actionView _ action)
  | error e =>
    cases he : e.refusal repr with
    | none =>
      simp only [hrun, he]
      exact .raised e
    | some kd =>
      cases hc : code kd.1 with
      | none =>
        simp only [hrun, he, hc, hcode, Option.map_none]
        exact .raised e
      | some c =>
        simp only [hrun, he, hc, hcode, Option.map_some]
        exact .refused c _

/-- A payload without its own keys loses no key that a panel shows. -/
theorem payload_shown (payload : Payload) :
    (((payload.erase "_planner_reasoning").erase "_executed_payload").entries.filter
      fun e => ¬ isPrivate e.1) = payload.entries.filter fun e => ¬ isPrivate e.1 := by
  simp only [Dict.erase, List.filter_filter]
  refine List.filter_congr fun e _ => ?_
  by_cases hp : isPrivate e.1 = true
  · simp [hp]
  · have h1 : e.1 ≠ "_planner_reasoning" := fun h => hp (by rw [h]; decide)
    have h2 : e.1 ≠ "_executed_payload" := fun h => hp (by rw [h]; decide)
    simp [hp, h1, h2]

/-- For a tenant and a voter that the API takes, and as long as the audit rows can be dumped, the UI and
the API are two views of one service: a vote or a veto leaves the same state and is answered alike, the
queue of the UI is the list of the API, and the details that the UI has are those of the API without the
keys that start with an underscore. -/
theorem surfaces_agree (rt : ServiceRuntime) (env : Env) (s : DecisionPipeline)
    (id voter reason t : String) (ht : (tenantParam (some t)).Ok) (hv : (decidedByParam voter).Ok)
    (hreason : (reasonParam reason).Ok) (hd : Serialisable rt s)
    (hdv : Serialisable rt ((approveAction env id voter (some t)).run s).2)
    (hdr : Serialisable rt ((rejectAction env id reason voter (some t)).run s).2) :
    ((approve rt.repr env id voter t s).2 = (approvalsApprove rt env id voter (some t) s).2 ∧
      Agrees (approve rt.repr env id voter t s).1 (approvalsApprove rt env id voter (some t) s).1) ∧
    ((reject rt.repr env id reason voter t s).2 =
        (approvalsReject rt env id reason voter (some t) s).2 ∧
      Agrees (reject rt.repr env id reason voter t s).1
        (approvalsReject rt env id reason voter (some t) s).1) ∧
    (∃ views, (approvalsList rt t s).1 = .ok views ∧ listPending t s = views.map panelOf) ∧
    ((∃ v d, (actionsGet rt id (some t) s).1 = .ok v ∧ getActionDetail id t s = some d ∧
        d.toPanelDict = panelOf v ∧ d.auditTrail = v.auditTrail ∧
        d.payload = v.payload.entries.filter fun e => ¬ isPrivate e.1) ∨
      (∃ detail, (actionsGet rt id (some t) s).1 = .refused 404 detail) ∧
        getActionDetail id t s = none) := by
  refine ⟨?_, ?_, ?_, ?_⟩
  · rw [approvalsApprove, checked_ok (by simp [ht, hv])]
    exact translate_agrees rt.repr (fun kind => by cases kind <;> rfl) _ s hdv
  · rw [approvalsReject, checked_ok (by simp [ht, hv, hreason])]
    exact translate_agrees rt.repr (fun kind => by cases kind <;> rfl) _ s hdr
  · refine ⟨(s.listPendingActions t).map (actionView s), ?_, ?_⟩
    · rw [approvalsList, checked_ok (by simp [ht]), hd.list t]
    · rw [listPending, List.map_map]
      rfl
  · rw [actionsGet, checked_ok (by simp [ht])]
    unfold getActionDetail translate
    rw [getAction_run]
    cases s.lookup id (some t) with
    | none => exact .inr ⟨⟨_, rfl⟩, rfl⟩
    | some a =>
      simp only [hd.view a]
      exact .inl ⟨_, _, rfl, rfl, rfl, rfl, (payload_shown a.payload).symm⟩

/-- On the waiting action of `t1`, a vote of `ann` is accepted on both surfaces. -/
theorem surfaces_agree_waiting :
    let s := (foreignVote.take 3).foldl (serviceStep demoService) {}
    let env := demoEnv ∅
    (listPending "t1" s).length = 1 ∧
      (approve id env env.actionId.1 "ann" "t1" s).2 =
        (approvalsApprove demoService env env.actionId.1 "ann" (some "t1") s).2 ∧
      Agrees (approve id env env.actionId.1 "ann" "t1" s).1
        (approvalsApprove demoService env env.actionId.1 "ann" (some "t1") s).1 := by
  intro s env
  obtain ⟨hvote, -⟩ := surfaces_agree demoService env s env.actionId.1 "ann" "" "t1" (by decide)
    (by decide) (by decide) (fun _ _ _ => rfl) (fun _ _ _ => rfl) (fun _ _ _ => rfl)
  exact ⟨rfl, hvote⟩

end ApproverData
end PennyCore
