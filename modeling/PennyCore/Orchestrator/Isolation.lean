import Mathlib.Data.List.Basic
import Mathlib.Logic.Equiv.Basic
import PennyCore.Orchestrator.Tenancy

/-!
# Similar shares of a tenant

Two runs of the pipeline draw different ids and read different clocks; `ρ` takes the ids of the first
run to those of the second.

* `Action.view`, `AuditLogEntry.view`, …: a record with its ids renamed and without what may differ
  (timestamps, the row number of the audit log, the id of a queue row).
* `Sim ρ x y`: two shares of a tenant with equal views. The tenant's writes, made in both runs, keep
  it (`Sim.put`, …).
-/

namespace PennyCore

open Lib DecisionPipeline

/-! ## Views -/

/-- An action without its timestamps. -/
structure ActionView where
  id : String
  tenantId : Str 1 64
  proposalId : Str 1 64
  eventId : Str 1 64
  customerId : Option (Str 0 64)
  actionType : ActionType
  status : ActionStatus
  payload : Payload
  executed : Bool

def Action.view (ρ : String → String) (a : Action) : ActionView where
  id := ρ a.id.1
  tenantId := a.tenantId
  proposalId := a.proposalId
  eventId := a.eventId
  customerId := a.customerId
  actionType := a.actionType
  status := a.status
  payload := a.payload
  executed := a.executedAt.isSome

/-- A queue row without its id and timestamps. -/
structure RowView where
  tenantId : Str 1 64
  actionId : String
  state : ApprovalState
  assignedTo : Option (Str 0 128)
  requiredApprovals : Int
  eligibleApprovers : Option (List String)
  approvals : List String
  decided : Bool
  decidedBy : Option String
  decisionNote : Option String
  rowVersion : Nat

def ApprovalRule.view (ρ : String → String) (row : ApprovalRule) : RowView where
  tenantId := row.tenantId
  actionId := ρ row.actionId.1
  state := row.state
  assignedTo := row.assignedTo
  requiredApprovals := row.requiredApprovals
  eligibleApprovers := row.eligibleApprovers
  approvals := row.approvals
  decided := row.decidedAt.isSome
  decidedBy := row.decidedBy
  decisionNote := row.decisionNote
  rowVersion := row.rowVersion

/-- An audit row without its number and time. -/
structure EntryView where
  tenantId : Str 1 64
  kind : AuditKind
  actionId : Option String
  eventId : Option String
  actorKind : AuditActorKind
  actorId : Option (Str 0 128)
  payload : Payload

def AuditLogEntry.view (ρ : String → String) (e : AuditLogEntry) : EntryView where
  tenantId := e.tenantId
  kind := e.kind
  actionId := e.actionKey.map ρ
  eventId := e.eventKey
  actorKind := e.actorKind
  actorId := e.actorId
  payload := e.payload

def QueueError.view (ρ : String → String) : QueueError → QueueError
  | .approvalNotFound id => .approvalNotFound (ρ id)
  | .approvalState id state action => .approvalState (ρ id) state action
  | .approverNotEligible voter id => .approverNotEligible voter (ρ id)
  | .approverUnnamed id n => .approverUnnamed (ρ id) n
  | .duplicateApprover voter id => .duplicateApprover voter (ρ id)
  | e => e

def PipelineError.view (ρ : String → String) : PipelineError → PipelineError
  | .actionNotFound id => .actionNotFound (ρ id)
  | .queue e => .queue (e.view ρ)
  | e => e

inductive ResponseView where
  | unit
  | rule (r : QuorumRule)
  | action (a : ActionView)
  | actions (as : List ActionView)
  | rows (es : List EntryView)

def Response.view (ρ : String → String) : Response → ResponseView
  | .unit => .unit
  | .rule r => .rule r
  | .action a => .action (a.view ρ)
  | .actions as => .actions (as.map (Action.view ρ))
  | .rows es => .rows (es.map (AuditLogEntry.view ρ))

/-- The view of a result. -/
def viewResult {α β : Type} (ρ : String → String) (f : (String → String) → α → β) :
    Except PipelineError α → Except PipelineError β
  | .ok a => .ok (f ρ a)
  | .error e => .error (e.view ρ)

/-- Two results, of the first and of the second run, with the same view. -/
def Alike {α β : Type} (ρ : String → String) (f : (String → String) → α → β)
    (r r' : Except PipelineError α) : Prop := viewResult id f r' = viewResult ρ f r

/-! ## Similar shares -/

/-- Shares of the first and of the second run with equal views. -/
structure Sim (ρ : String → String) (x y : Share) : Prop where
  policy : y.policy = x.policy
  rule : y.rule = x.rule
  dedup : ∀ ev, y.dedup ev = (x.dedup ev).map (List.map ρ)
  action : ∀ i, (y.action (ρ i)).map (Action.view id) = (x.action i).map (Action.view ρ)
  listed : y.listed = x.listed.map ρ
  row : ∀ i, (y.row (ρ i)).map (ApprovalRule.view id) = (x.row i).map (ApprovalRule.view ρ)
  pending : y.pending = x.pending.map ρ
  audit : y.audit.map (AuditLogEntry.view id) = x.audit.map (AuditLogEntry.view ρ)

theorem map_eq_cases {α β γ : Type} {f : α → γ} {g : β → γ} {u : Option α} {v : Option β}
    (h : u.map f = v.map g) : (u = none ∧ v = none) ∨ ∃ a b, u = some a ∧ v = some b ∧ f a = g b := by
  cases u with
  | none =>
    cases v with
    | none => exact .inl ⟨rfl, rfl⟩
    | some b => cases h
  | some a =>
    cases v with
    | none => cases h
    | some b => exact .inr ⟨a, b, rfl, rfl, Option.some.inj h⟩

namespace Sim

variable {ρ : String → String} {A : String} {s t : DecisionPipeline}

/-- The actions of a list of ids. -/
theorem filterMap_action {x y : Share} (h : Sim ρ x y) (ids : List String) :
    ((ids.map ρ).filterMap y.action).map (Action.view id) =
      (ids.filterMap x.action).map (Action.view ρ) := by
  induction ids with
  | nil => rfl
  | cons i ids ih =>
    rcases map_eq_cases (h.action i) with ⟨h1, h2⟩ | ⟨a', a, h1, h2, hv⟩
    · simpa [h1, h2] using ih
    · simpa [h1, h2, hv] using ih

theorem put (hρ : Function.Injective ρ) (h : Sim ρ (share A s) (share A t)) {a a' : Action}
    (hv : a'.view id = a.view ρ) (ht : a.tenantId.1 = A)
    (hs : ∀ b, s.actions.byId.get? a.id.1 = some b → b.tenantId = a.tenantId)
    (hs' : ∀ b, t.actions.byId.get? a'.id.1 = some b → b.tenantId = a'.tenantId) :
    Sim ρ (share A (s.put a)) (share A (t.put a')) := by
  have hid : a'.id.1 = ρ a.id.1 := congrArg ActionView.id hv
  have htenant : a'.tenantId = a.tenantId := congrArg ActionView.tenantId hv
  rw [share_put_own ht hs, share_put_own (htenant ▸ ht) hs']
  refine ⟨h.policy, h.rule, h.dedup, fun i => ?_, ?_, h.row, h.pending, h.audit⟩
  · simp only [hid, hρ.eq_iff]
    split
    · exact congrArg some hv
    · exact h.action i
  · have hsome := congrArg Option.isSome (h.action a.id.1)
    rw [Option.isSome_map, Option.isSome_map] at hsome
    simp only [hid, hsome]
    split
    · exact h.listed
    · rw [h.listed, List.map_append]
      rfl

theorem log (h : Sim ρ (share A s) (share A t)) (r : TrailRow) (ht : r.tenantId.1 = A)
    (now now' : Time) {i i' : Str 1 64} (hi : i'.1 = ρ i.1) :
    Sim ρ (share A (s.log (r.entry now i))) (share A (t.log (r.entry now' i'))) := by
  rw [share_log_own (by exact ht), share_log_own (by exact ht)]
  refine ⟨h.policy, h.rule, h.dedup, h.action, h.listed, h.row, h.pending, ?_⟩
  simp only [List.map_append, h.audit]
  refine congrArg (_ ++ ·) (congrArg (fun k => [EntryView.mk r.tenantId r.kind k
    (r.eventId.map Subtype.val) r.actorKind r.actorId r.payload]) ?_)
  exact congrArg some hi

theorem invoke (h : Sim ρ (share A s) (share A t)) (ex ex' : ActionExecutor) (a a' : Action) :
    Sim ρ (share A (s.invoke ex a)) (share A (t.invoke ex' a')) := by
  rw [share_invoke, share_invoke]
  exact h

theorem remember (h : Sim ρ (share A s) (share A t)) (ev i : String) :
    Sim ρ (share A (s.remember (A, ev) i)) (share A (t.remember (A, ev) (ρ i))) := by
  rw [share_remember_own, share_remember_own]
  refine ⟨h.policy, h.rule, fun ev' => ?_, h.action, h.listed, h.row, h.pending, h.audit⟩
  simp only
  split
  · rfl
  · exact h.dedup ev'

theorem storeRow (hρ : Function.Injective ρ) (h : Sim ρ (share A s) (share A t))
    {row row' : ApprovalRule} (hv : row'.view id = row.view ρ) (ht : row.tenantId.1 = A) :
    Sim ρ (share A (s.storeRow row)) (share A (t.storeRow row')) := by
  have hid : row'.actionId.1 = ρ row.actionId.1 := congrArg RowView.actionId hv
  have htenant : row'.tenantId = row.tenantId := congrArg RowView.tenantId hv
  have hstate : row'.state = row.state := congrArg RowView.state hv
  rw [share_storeRow_own ht, share_storeRow_own (htenant ▸ ht)]
  refine ⟨h.policy, h.rule, h.dedup, h.action, h.listed, fun i => ?_, ?_, h.audit⟩
  · simp only [hid, hρ.eq_iff]
    split
    · exact congrArg some hv
    · exact h.row i
  · simp only [hid, hstate, h.pending]
    split
    · rfl
    · exact (List.map_erase hρ _).symm

theorem insertRow (hρ : Function.Injective ρ) (h : Sim ρ (share A s) (share A t))
    {row row' : ApprovalRule} (hv : row'.view id = row.view ρ) (ht : row.tenantId.1 = A) :
    Sim ρ (share A (s.insertRow row)) (share A (t.insertRow row')) := by
  have hid : row'.actionId.1 = ρ row.actionId.1 := congrArg RowView.actionId hv
  have htenant : row'.tenantId = row.tenantId := congrArg RowView.tenantId hv
  rw [share_insertRow_own ht, share_insertRow_own (htenant ▸ ht)]
  refine ⟨h.policy, h.rule, h.dedup, h.action, h.listed, fun i => ?_, ?_, h.audit⟩
  · simp only [hid, hρ.eq_iff]
    split
    · exact congrArg some hv
    · exact h.row i
  · simp only [hid, h.pending, List.map_append, List.map_cons, List.map_nil]

end Sim

/-! ## Views of updated records -/

theorem view_withStatus {ρ : String → String} {a a' : Action} (hv : a'.view id = a.view ρ)
    (status : ActionStatus) (now now' : Time) :
    (a'.withStatus status now').view id = (a.withStatus status now).view ρ := by
  unfold Action.view at hv ⊢
  simp only [ActionView.mk.injEq] at hv
  simp only [Action.withStatus, hv]

theorem view_executed {ρ : String → String} {a a' : Action} (hv : a'.view id = a.view ρ)
    (now now' : Time) (result : List (PyVal × PyVal)) :
    (ActionExecutor.executed now' a' result).view id =
      (ActionExecutor.executed now a result).view ρ := by
  unfold Action.view at hv ⊢
  simp only [ActionView.mk.injEq] at hv
  simp only [ActionExecutor.executed, hv, Option.isSome_some]

theorem view_vote {ρ : String → String} {row row' : ApprovalRule} (hv : row'.view id = row.view ρ)
    (now now' : Time) (voter : String) :
    (row'.vote now' voter).view id = (row.vote now voter).view ρ := by
  unfold ApprovalRule.view at hv ⊢
  simp only [RowView.mk.injEq] at hv
  obtain ⟨h1, h2, h3, h4, h5, h6, h7, h8, h9, h10, h11⟩ := hv
  have hlast : row'.LastVote ↔ row.LastVote := by
    unfold ApprovalRule.LastVote
    rw [h5, h7]
  by_cases hl : row.LastVote
  · have hl' := hlast.mpr hl
    simp only [ApprovalRule.vote, hl, hl', ↓reduceIte, h1, h2, h4, h5, h6, h7, h11,
      Option.isSome_some]
  · have hl' : ¬ row'.LastVote := fun h => hl (hlast.mp h)
    simp only [ApprovalRule.vote, hl, hl', ↓reduceIte, h1, h2, h3, h4, h5, h6, h7, h8, h9, h10,
      h11]

theorem view_veto {ρ : String → String} {row row' : ApprovalRule} (hv : row'.view id = row.view ρ)
    (now now' : Time) (reason voter : String) :
    (row'.veto now' reason voter).view id = (row.veto now reason voter).view ρ := by
  unfold ApprovalRule.view at hv ⊢
  simp only [RowView.mk.injEq] at hv
  simp only [ApprovalRule.veto, hv, Option.isSome_some]

end PennyCore
