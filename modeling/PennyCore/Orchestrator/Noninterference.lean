import PennyCore.Lib.Unwinding
import PennyCore.Orchestrator.Isolation

/-!
# Tenant noninterference

Two runs with the same operations of tenant `A` and any operations of the others give `A` the same
answers and leave it the same records.

* `Corresponds A ρ`: an operation of `A` in the first run and the one in its place in the second:
  the same, but for ids, clock and `uuid4()` draws. Both runs execute with the same handlers, whose
  results depend on what an action is for (`ActionExecutor.Blind`).
* `InStep ρ A f x y`: two calls with equal views of their results, which leave similar shares.
  `…_inStep` says it of each operation of `A` on similar shares.
* With `share_foreign` this is an `Unwinding` (`tenant_unwinding`), and `tenant_noninterference` is
  its consequence.
-/

namespace PennyCore

open Lib DecisionPipeline

/-! ## Operations of the tenant -/

/-- An operation of tenant `A`. -/
def PipelineOp.Own (A : String) : PipelineOp → Prop
  | .setPolicies t _ => t = A
  | .setRule t _ _ _ => t = A
  | .clearRules => False
  | .handleProposal _ p => p.tenantId.1 = A
  | .approveAction _ _ _ expected => expected = some A
  | .rejectAction _ _ _ _ expected => expected = some A
  | .getAction _ expected => expected = some A
  | .listPendingActions t => t = A
  | .listActions t => t = A
  | .auditForTenant t => t = A
  | .auditForAction _ t => t = some A
  | .auditForEvent _ t => t = some A

instance (A : String) : DecidablePred (PipelineOp.Own A) := fun op => by
  cases op <;> unfold PipelineOp.Own <;> infer_instance

/-- The surroundings of a call in the first run and in the second: the same handlers, blind to ids
and timestamps. -/
structure SameHandlers (env env' : Env) : Prop where
  same : env'.executor = env.executor
  blind : env.executor.Blind

/-- An operation of `A` in the first run, and the one in its place in the second. -/
inductive Corresponds (A : String) (ρ : String → String) : PipelineOp → PipelineOp → Prop
  | setPolicies {t : String} {policies : Dict String PyVal} :
      t = A → Corresponds A ρ (.setPolicies t policies) (.setPolicies t policies)
  | setRule {t : String} {ty : ActionType} {n : Int} {pool : Option (List String)} :
      t = A → Corresponds A ρ (.setRule t ty n pool) (.setRule t ty n pool)
  | handleProposal {env env' : Env} {p : ActionProposal} :
      p.tenantId.1 = A → SameHandlers env env' → env'.actionId.1 = ρ env.actionId.1 →
      Corresponds A ρ (.handleProposal env p) (.handleProposal env' p)
  | approveAction {env env' : Env} {id voter : String} :
      SameHandlers env env' →
      Corresponds A ρ (.approveAction env id voter (some A)) (.approveAction env' (ρ id) voter (some A))
  | rejectAction {env env' : Env} {id reason voter : String} :
      Corresponds A ρ (.rejectAction env id reason voter (some A))
        (.rejectAction env' (ρ id) reason voter (some A))
  | getAction {id : String} : Corresponds A ρ (.getAction id (some A)) (.getAction (ρ id) (some A))
  | listPendingActions : Corresponds A ρ (.listPendingActions A) (.listPendingActions A)
  | listActions : Corresponds A ρ (.listActions A) (.listActions A)
  | auditForTenant : Corresponds A ρ (.auditForTenant A) (.auditForTenant A)
  | auditForAction {id : String} :
      Corresponds A ρ (.auditForAction id (some A)) (.auditForAction (ρ id) (some A))
  | auditForEvent {ev : String} :
      Corresponds A ρ (.auditForEvent ev (some A)) (.auditForEvent ev (some A))

theorem Corresponds.own {A : String} {ρ : String → String} {op op' : PipelineOp}
    (h : Corresponds A ρ op op') : op.Own A ∧ op'.Own A := by
  cases h with
  | setPolicies ht => exact ⟨ht, ht⟩
  | setRule ht => exact ⟨ht, ht⟩
  | handleProposal ht => exact ⟨ht, ht⟩
  | _ => exact ⟨rfl, rfl⟩

theorem PipelineOp.Foreign.not_own {A : String} {op : PipelineOp} (h : op.Foreign A) :
    ¬ op.Own A := by
  cases op with
  | approveAction env id voter expected =>
    obtain ⟨B, rfl, hne⟩ := h
    exact fun ho => hne (Option.some.inj ho)
  | rejectAction env id reason voter expected =>
    obtain ⟨B, rfl, hne⟩ := h
    exact fun ho => hne (Option.some.inj ho)
  | clearRules => exact id
  | _ => exact h

/-! ## Calls in step -/

/-- Results with equal views, and similar shares. -/
def InStep {α β : Type} (ρ : String → String) (A : String) (f : (String → String) → α → β)
    (x y : Except PipelineError α × DecisionPipeline) : Prop :=
  Alike ρ f x.1 y.1 ∧ Sim ρ (share A x.2) (share A y.2)

section InStep

variable {ρ : String → String} {A : String} {s t : DecisionPipeline}

/-- A method in step, its result wrapped. -/
theorem InStep.wrap {α β : Type} {f : (String → String) → α → β} {m m' : M α}
    {g : α → Response} {k : β → ResponseView} (hk : ∀ τ a, (g a).view τ = k (f τ a))
    (h : InStep ρ A f (m.run s) (m'.run t)) :
    InStep ρ A Response.view ((m >>= fun a => pure (g a)).run s)
      ((m' >>= fun a => pure (g a)).run t) := by
  rw [Py.run_bind_pure, Py.run_bind_pure]
  refine ⟨?_, h.2⟩
  have hr := h.1
  revert hr
  unfold Alike
  rcases (m.run s).1 with e | a <;> rcases (m'.run t).1 with e' | a' <;> intro hr
  · exact congrArg Except.error (Except.error.inj hr)
  · cases hr
  · cases hr
  · exact congrArg Except.ok (by rw [hk, hk, Except.ok.inj hr])

/-- A read of views that are equal. -/
theorem InStep.read {α β : Type} {f : (String → String) → α → β} {a a' : α}
    (h : f id a' = f ρ a) (hsim : Sim ρ (share A s) (share A t)) :
    InStep ρ A f (.ok a, s) (.ok a', t) := ⟨congrArg Except.ok h, hsim⟩

theorem finish_inStep (hρ : Function.Injective ρ) (h : Sim ρ (share A s) (share A t))
    {env env' : Env} (hex : SameHandlers env env') {a a' : Action}
    (hv : a'.view id = a.view ρ) (ht : a.tenantId.1 = A)
    (hs : ∀ b, s.actions.byId.get? a.id.1 = some b → b.tenantId = a.tenantId)
    (hs' : ∀ b, t.actions.byId.get? a'.id.1 = some b → b.tenantId = a'.tenantId) :
    InStep ρ A Action.view (finish env a s) (finish env' a' t) := by
  have hid : a'.id.1 = ρ a.id.1 := congrArg ActionView.id hv
  have htenant : a'.tenantId = a.tenantId := congrArg ActionView.tenantId hv
  have hevent : a'.eventId = a.eventId := congrArg ActionView.eventId hv
  have hout : env'.executor.outcome a' = env.executor.outcome a := by
    rw [hex.same]
    exact hex.blind a' a htenant (congrArg ActionView.proposalId hv) hevent
      (congrArg ActionView.customerId hv) (congrArg ActionView.actionType hv)
      (congrArg ActionView.payload hv)
  have hi := h.invoke env.executor env'.executor a a'
  have hsi : ∀ b, (s.invoke env.executor a).actions.byId.get? a.id.1 = some b →
      b.tenantId = a.tenantId := by rwa [invoke_actions]
  have hti : ∀ b, (t.invoke env'.executor a').actions.byId.get? a'.id.1 = some b →
      b.tenantId = a'.tenantId := by rwa [invoke_actions]
  unfold finish
  rw [hout, htenant, hevent]
  cases env.executor.outcome a with
  | done result =>
    have hvx := view_executed hv env.now env'.now result
    exact ⟨congrArg Except.ok hvx,
      (hi.put hρ hvx ht hsi hti).log (.execution a.tenantId a.eventId result) ht _ _ hid⟩
  | raised e =>
    simp only
    split
    · have hvf := view_withStatus hv .executionFailed env.now env'.now
      have hput := hi.put hρ hvf ht hsi hti
      cases e.message with
      | none => exact ⟨rfl, hput⟩
      | some message =>
        exact ⟨congrArg Except.ok hvf,
          hput.log (.failure a.tenantId a.eventId e.kind message) ht _ _ hid⟩
    · exact ⟨rfl, hi⟩

/-! ### Votes and vetoes -/

theorem vote_inStep (hρ : Function.Injective ρ) (hs : Sound s) (ht : Sound t)
    (h : Sim ρ (share A s) (share A t)) {env env' : Env} (hex : SameHandlers env env')
    {i voter : String} {a a' : Action} {row row' : ApprovalRule}
    (hl : s.lookup i (some A) = some a) (hl' : t.lookup (ρ i) (some A) = some a')
    (hva : a'.view id = a.view ρ) (hrt : row.tenantId.1 = A) (hvr : row'.view id = row.view ρ) :
    InStep ρ A Action.view (recordVote env a row voter s) (recordVote env' a' row' voter t) := by
  have hat : a.tenantId.1 = A := (lookup_some.mp hl).2 A rfl
  have hstore := h.storeRow hρ (view_vote hvr env.now env'.now voter) (by simpa using hrt)
  have htenant : a'.tenantId = a.tenantId := congrArg ActionView.tenantId hva
  have hevent : a'.eventId = a.eventId := congrArg ActionView.eventId hva
  have hstatus : a'.status = a.status := congrArg ActionView.status hva
  have happrovals : row'.approvals = row.approvals := congrArg RowView.approvals hvr
  have hneeded : row'.requiredApprovals = row.requiredApprovals :=
    congrArg RowView.requiredApprovals hvr
  have hlast : row'.LastVote ↔ row.LastVote := by
    unfold ApprovalRule.LastVote
    rw [happrovals, hneeded]
  unfold recordVote
  by_cases hlen : UpTo 128 voter
  · rw [dif_pos hlen, dif_pos hlen]
    simp only [htenant, hevent, hstatus, happrovals, hneeded, hlast]
    have hid : a'.id.1 = ρ a.id.1 := congrArg ActionView.id hva
    have hlog := hstore.log (.approval a.tenantId a.eventId ⟨voter, Nat.zero_le _, hlen⟩ a.status
      (row.approvals.length + 1) row.requiredApprovals (decide row.LastVote)) hat env.now env'.now hid
    split
    · have hvp := view_withStatus hva .pendingExec env.now env'.now
      exact finish_inStep hρ (hlog.put hρ hvp hat (hs.stored hl).2 (ht.stored hl').2) hex hvp hat
        (fun _ => same_put rfl rfl) (fun _ => same_put rfl rfl)
    · exact ⟨congrArg Except.ok hva, hlog⟩
  · rw [dif_neg hlen, dif_neg hlen]
    exact ⟨rfl, hstore⟩

theorem veto_inStep (hρ : Function.Injective ρ) (hs : Sound s) (ht : Sound t)
    (h : Sim ρ (share A s) (share A t)) (env env' : Env) {i reason voter : String}
    {a a' : Action} {row row' : ApprovalRule}
    (hl : s.lookup i (some A) = some a) (hl' : t.lookup (ρ i) (some A) = some a')
    (hva : a'.view id = a.view ρ) (hrt : row.tenantId.1 = A) (hvr : row'.view id = row.view ρ) :
    InStep ρ A Action.view (recordVeto env a row reason voter s)
      (recordVeto env' a' row' reason voter t) := by
  have hat : a.tenantId.1 = A := (lookup_some.mp hl).2 A rfl
  have hstore := h.storeRow hρ (view_veto hvr env.now env'.now reason voter) hrt
  have htenant : a'.tenantId = a.tenantId := congrArg ActionView.tenantId hva
  have hevent : a'.eventId = a.eventId := congrArg ActionView.eventId hva
  have hstatus : a'.status = a.status := congrArg ActionView.status hva
  unfold recordVeto
  by_cases hlen : UpTo 128 voter
  · rw [dif_pos hlen, dif_pos hlen]
    simp only [htenant, hevent, hstatus]
    have hid : a'.id.1 = ρ a.id.1 := congrArg ActionView.id hva
    have hlog := hstore.log (.veto a.tenantId a.eventId ⟨voter, Nat.zero_le _, hlen⟩ a.status reason)
      hat env.now env'.now hid
    have hvj := view_withStatus hva .rejected env.now env'.now
    exact ⟨congrArg Except.ok hvj, hlog.put hρ hvj hat (hs.stored hl).2 (ht.stored hl').2⟩
  · rw [dif_neg hlen, dif_neg hlen]
    exact ⟨rfl, hstore⟩

theorem eligible_view {row row' : ApprovalRule} (hv : row'.view id = row.view ρ) (voter : String) :
    row'.Eligible voter ↔ row.Eligible voter := by
  unfold ApprovalRule.Eligible
  rw [show row'.eligibleApprovers = row.eligibleApprovers from
    congrArg RowView.eligibleApprovers hv]

/-- What the pipeline looks up for a vote of `A`: nothing in either run, or an action without a row,
or an action with its row. -/
theorem lookup_inStep (hs : Sound s) (ht : Sound t) (h : Sim ρ (share A s) (share A t))
    (i : String) :
    (s.lookup i (some A) = none ∧ t.lookup (ρ i) (some A) = none) ∨
    ∃ a a', s.lookup i (some A) = some a ∧ t.lookup (ρ i) (some A) = some a' ∧
      a'.view id = a.view ρ ∧
      ((s.queue.byId.get? i = none ∧ t.queue.byId.get? (ρ i) = none) ∨
        ∃ row row', s.queue.byId.get? i = some row ∧ t.queue.byId.get? (ρ i) = some row' ∧
          row.tenantId.1 = A ∧ row'.view id = row.view ρ) := by
  simp only [lookup_share]
  rcases map_eq_cases (h.action i) with ⟨h1, h2⟩ | ⟨a', a, ha', ha, hva⟩
  · exact .inl ⟨h2, h1⟩
  · refine .inr ⟨a, a', ha, ha', hva, ?_⟩
    rw [row_share hs ha, row_share ht ha']
    rcases map_eq_cases (h.row i) with ⟨h1, h2⟩ | ⟨row', row, hr', hr, hvr⟩
    · exact .inl ⟨h2, h1⟩
    · exact .inr ⟨row, row', hr, hr', (share_row.mp hr).2, hvr⟩

/-- A vote or a veto in step: the lookups agree, the rows are accepted alike, and what the queue then
records, or raises, is in step. -/
theorem decided_inStep (hs : Sound s) (ht : Sound t) (h : Sim ρ (share A s) (share A t)) (i : String)
    {accepts : ApprovalRule → Prop} [DecidablePred accepts] {refusal : ApprovalRule → QueueError}
    {record record' : Action → ApprovalRule → Except PipelineError Action × DecisionPipeline}
    (haccepts : ∀ row row' : ApprovalRule, row'.view id = row.view ρ → (accepts row' ↔ accepts row))
    (hrecord : ∀ a a' row row', s.lookup i (some A) = some a → t.lookup (ρ i) (some A) = some a' →
      a'.view id = a.view ρ → row.tenantId.1 = A → row'.view id = row.view ρ →
      InStep ρ A Action.view (record a row) (record' a' row'))
    (hrefusal : ∀ row row' : ApprovalRule, row'.view id = row.view ρ →
      Alike ρ Action.view (.error (.queue (refusal row))) (.error (.queue (refusal row')))) :
    InStep ρ A Action.view
      (match s.lookup i (some A) with
        | none => (.error (.actionNotFound i), s)
        | some a =>
          match s.queue.byId.get? i with
          | none => (.error (.queue (.approvalNotFound i)), s)
          | some row =>
            if accepts row then record a row else (.error (.queue (refusal row)), s))
      (match t.lookup (ρ i) (some A) with
        | none => (.error (.actionNotFound (ρ i)), t)
        | some a =>
          match t.queue.byId.get? (ρ i) with
          | none => (.error (.queue (.approvalNotFound (ρ i))), t)
          | some row =>
            if accepts row then record' a row else (.error (.queue (refusal row)), t)) := by
  rcases lookup_inStep hs ht h i with ⟨h1, h2⟩ | ⟨a, a', hl, hl', hva, hrow⟩
  · rw [h1, h2]
    exact ⟨rfl, h⟩
  · rw [hl, hl']
    rcases hrow with ⟨h1, h2⟩ | ⟨row, row', hg, hg', hrt, hvr⟩
    · rw [h1, h2]
      exact ⟨rfl, h⟩
    · rw [hg, hg']
      simp only [haccepts row row' hvr]
      split
      · exact hrecord a a' row row' hl hl' hva hrt hvr
      · exact ⟨hrefusal row row' hvr, h⟩

theorem approveAction_inStep (hρ : Function.Injective ρ) (hs : Sound s) (ht : Sound t)
    (h : Sim ρ (share A s) (share A t)) {env env' : Env} (hex : SameHandlers env env')
    (i voter : String) :
    InStep ρ A Action.view ((approveAction env i voter (some A)).run s)
      ((approveAction env' (ρ i) voter (some A)).run t) := by
  rw [approveAction_run hs.queued, approveAction_run ht.queued]
  refine decided_inStep hs ht h i (fun row row' hvr => ?_)
    (fun _ _ _ _ hl hl' hva hrt hvr => vote_inStep hρ hs ht h hex hl hl' hva hrt hvr)
    (fun row row' hvr => ?_)
  · unfold ApprovalRule.Votable
    rw [eligible_view hvr voter, show row'.state = row.state from congrArg RowView.state hvr,
      show row'.approvals = row.approvals from congrArg RowView.approvals hvr]
  · have hid : row'.actionId.1 = ρ row.actionId.1 := congrArg RowView.actionId hvr
    have hstate : row'.state = row.state := congrArg RowView.state hvr
    refine congrArg Except.error (congrArg PipelineError.queue ?_)
    simp only [InMemoryApprovalQueue.voteError, hstate, eligible_view hvr voter, hid]
    split
    · rfl
    · split <;> rfl

theorem rejectAction_inStep (hρ : Function.Injective ρ) (hs : Sound s) (ht : Sound t)
    (h : Sim ρ (share A s) (share A t)) (env env' : Env) (i reason voter : String) :
    InStep ρ A Action.view ((rejectAction env i reason voter (some A)).run s)
      ((rejectAction env' (ρ i) reason voter (some A)).run t) := by
  rw [rejectAction_run hs.queued, rejectAction_run ht.queued]
  refine decided_inStep hs ht h i (fun row row' hvr => ?_)
    (fun _ _ _ _ hl hl' hva hrt hvr => veto_inStep hρ hs ht h env env' hl hl' hva hrt hvr)
    (fun row row' hvr => ?_)
  · unfold ApprovalRule.Vetoable
    rw [eligible_view hvr voter, show row'.state = row.state from congrArg RowView.state hvr]
  · have hid : row'.actionId.1 = ρ row.actionId.1 := congrArg RowView.actionId hvr
    have hstate : row'.state = row.state := congrArg RowView.state hvr
    refine congrArg Except.error (congrArg PipelineError.queue ?_)
    simp only [InMemoryApprovalQueue.vetoError, hstate, hid]
    split <;> rfl

/-! ### Proposals -/

theorem view_materialize {env env' : Env} (hid : env'.actionId.1 = ρ env.actionId.1)
    (p : ActionProposal) :
    (materializeAction env' p).view id = (materializeAction env p).view ρ := by
  unfold Action.view
  simp only [materializeAction_id, hid]
  rfl

theorem view_newRow {a a' : Action} (hv : a'.view id = a.view ρ) (env env' : Env)
    (rule : QuorumRule) : (newRow env' a' rule).view id = (newRow env a rule).view ρ := by
  have hid : a'.id.1 = ρ a.id.1 := congrArg ActionView.id hv
  have htenant : a'.tenantId = a.tenantId := congrArg ActionView.tenantId hv
  unfold ApprovalRule.view
  simp only [newRow_actionId, hid]
  simp only [newRow, htenant, id]

/-- An id without an action keeps whatever tenant is stored there. -/
theorem same_fresh {i : Str 1 64} {a : Action} (hi : a.id = i)
    (hf : s.actions.byId.get? i.1 = none) :
    ∀ b, s.actions.byId.get? a.id.1 = some b → b.tenantId = a.tenantId := fun b hb => by
  rw [hi, hf] at hb
  cases hb

/-- A listing of stored ids returns their actions. -/
theorem storedActions_all {ids : List String}
    (h : ∀ i ∈ ids, ∃ a, s.actions.byId.get? i = some a) :
    (storedActions ids).run s = (.ok (ids.filterMap s.actions.byId.get?), s) := by
  induction ids with
  | nil => rfl
  | cons i ids ih =>
    obtain ⟨a, ha⟩ := h i List.mem_cons_self
    have hone := storedAction_run s i
    rw [ha] at hone
    have hrest := ih fun j hj => h j (List.mem_cons_of_mem i hj)
    unfold storedActions
    rw [Py.run_bind_ok hone, Py.run_bind_ok hrest, List.filterMap_cons, ha]
    rfl

/-- Ids of actions of `A` are read off the share. -/
theorem filterMap_share {ids : List String}
    (h : ∀ i ∈ ids, ∃ a, s.actions.byId.get? i = some a ∧ a.tenantId.1 = A) :
    ids.filterMap s.actions.byId.get? = ids.filterMap (share A s).action :=
  List.filterMap_congr fun i hi => by
    obtain ⟨a, ha, ht⟩ := h i hi
    exact ha.trans (share_action.mpr ⟨ha, ht⟩).symm

theorem handleProposal_inStep (hρ : Function.Injective ρ) (hs : Sound s) (ht : Sound t)
    (h : Sim ρ (share A s) (share A t)) {env env' : Env} (hex : SameHandlers env env')
    {p : ActionProposal} (hp : p.tenantId.1 = A) (hid : env'.actionId.1 = ρ env.actionId.1)
    (hf : s.actions.byId.get? env.actionId.1 = none)
    (hf' : t.actions.byId.get? env'.actionId.1 = none) :
    InStep ρ A (fun τ as => as.map (Action.view τ)) ((handleProposal env p).run s)
      ((handleProposal env' p).run t) := by
  have hdedup := h.dedup p.eventId.1
  change t.dedup.get? (A, _) = (s.dedup.get? (A, _)).map (List.map ρ) at hdedup
  rw [← hp] at hdedup
  cases hd : s.dedup.get? (p.tenantId.1, p.eventId.1) with
  | some ids =>
    rw [hd] at hdedup
    have hin := hs.indexed _ _ ids hd
    have hin' := ht.indexed _ _ (ids.map ρ) hdedup
    rw [handleProposal_known hd, handleProposal_known hdedup,
      storedActions_all fun i hi => (hin i hi).imp fun _ => And.left,
      storedActions_all fun i hi => (hin' i hi).imp fun _ => And.left,
      filterMap_share hin, filterMap_share hin', hp]
    exact InStep.read (h.filterMap_action ids) h
  | none =>
    rw [hd] at hdedup
    have hdecision : t.decision p = s.decision p := by
      have hpolicy := h.policy
      rw [← hp] at hpolicy
      exact DeclarativePolicyEngine.decide_congr hpolicy _
    have hrule : t.quorumRule p = s.quorumRule p := by
      have hrules : t.quorum.rules.get? (A, _) = s.quorum.rules.get? (A, _) :=
        congrFun h.rule p.actionType
      rw [← hp] at hrules
      exact congrArg (fun r => Option.getD r QuorumRule.single) hrules
    have hva := view_materialize hid p
    -- the new action with its first two rows
    have hprop : Sim ρ (share A (proposed env p s)) (share A (proposed env' p t)) := by
      unfold proposed
      rw [hdecision]
      exact ((h.put hρ hva hp (same_fresh rfl hf) (same_fresh rfl hf')).log (.proposal p) hp _ _
        hid).log (.decision p (s.decision p)) hp _ _ hid
    have hput : ∀ status, Sim ρ
        (share A ((proposed env p s).put ((materializeAction env p).withStatus status env.now)))
        (share A ((proposed env' p t).put ((materializeAction env' p).withStatus status
          env'.now))) := fun status =>
      hprop.put hρ (view_withStatus hva status env.now env'.now) hp
        (fun _ => same_put (s := s) (a := materializeAction env p) rfl rfl)
        (fun _ => same_put (s := t) (a := materializeAction env' p) rfl rfl)
    have hall : ∀ status, [((materializeAction env' p).withStatus status env'.now).view id] =
        [((materializeAction env p).withStatus status env.now).view ρ] := fun status =>
      congrArg (fun v => [v]) (view_withStatus hva status env.now env'.now)
    rw [handleProposal_new env hd (hs.row_fresh hf), handleProposal_new env' hdedup
      (ht.row_fresh hf'), hdecision, hp]
    cases s.decision p with
    | reject =>
      refine ⟨congrArg Except.ok (hall .rejected), ?_⟩
      simp only [hid]
      exact ((hput .rejected).log (.refusal p.tenantId p.eventId) hp _ _ hid).remember _ _
    | approvalRequired =>
      refine ⟨congrArg Except.ok (hall .pendingApproval), ?_⟩
      simp only [hid, hrule]
      exact ((hput .pendingApproval).insertRow hρ (view_newRow (view_withStatus hva .pendingApproval
        env.now env'.now) env env' (s.quorumRule p)) hp).remember _ _
    | auto =>
      have hfin := finish_inStep hρ (hput .pendingExec) hex
        (view_withStatus hva .pendingExec env.now env'.now) hp (fun _ => same_put rfl rfl)
        (fun _ => same_put rfl rfl)
      simp only
      revert hfin
      rcases finish env ((materializeAction env p).withStatus .pendingExec env.now)
        ((proposed env p s).put ((materializeAction env p).withStatus .pendingExec env.now)) with
        ⟨e | a, s'⟩ <;>
      rcases finish env' ((materializeAction env' p).withStatus .pendingExec env'.now)
        ((proposed env' p t).put ((materializeAction env' p).withStatus .pendingExec env'.now)) with
        ⟨e' | a', t'⟩ <;> intro hfin
      · exact ⟨congrArg Except.error (Except.error.inj hfin.1), hfin.2⟩
      · cases hfin.1
      · cases hfin.1
      · have hv := Except.ok.inj hfin.1
        refine ⟨congrArg Except.ok (congrArg (fun v => [v]) hv), ?_⟩
        simp only [show a'.id.1 = ρ a.id.1 from congrArg ActionView.id hv]
        exact hfin.2.remember _ _

/-! ### Setters and reads -/

theorem setPolicies_inStep (h : Sim ρ (share A s) (share A t)) (policies : Dict String PyVal) :
    InStep ρ A (fun _ u => u) ((DecisionPipeline.setPolicies A policies).run s)
      ((DecisionPipeline.setPolicies A policies).run t) := by
  unfold DecisionPipeline.setPolicies DeclarativePolicyEngine.setPolicies
  rw [Py.run_zoom, Py.run_zoom, Py.run_ite, Py.run_ite]
  split
  · exact ⟨rfl, h⟩
  · rw [Py.run_ofExcept_bind, Py.run_ofExcept_bind]
    cases DeclarativePolicyEngine.normalizeAll ∅ policies.entries with
    | error e => exact ⟨rfl, h⟩
    | ok table =>
      refine ⟨rfl, ?_, h.rule, h.dedup, h.action, h.listed, h.row, h.pending, h.audit⟩
      exact (Dict.get?_set_self _ _ _).trans (Dict.get?_set_self _ _ _).symm

theorem setRule_inStep (h : Sim ρ (share A s) (share A t)) (ty : ActionType) (n : Int)
    (pool : Option (List String)) :
    InStep ρ A (fun _ r => r) ((DecisionPipeline.setRule A ty n pool).run s)
      ((DecisionPipeline.setRule A ty n pool).run t) := by
  unfold DecisionPipeline.setRule QuorumPolicy.setRule
  rw [Py.run_zoom, Py.run_zoom, Py.run_ite, Py.run_ite]
  split
  · exact ⟨rfl, h⟩
  · rw [Py.run_ofExcept_bind, Py.run_ofExcept_bind]
    cases QuorumRule.new n pool with
    | error e => exact ⟨rfl, h⟩
    | ok rule =>
      refine ⟨rfl, h.policy, funext fun ty' => ?_, h.dedup, h.action, h.listed, h.row, h.pending,
        h.audit⟩
      show (t.quorum.rules.set (A, ty) rule).get? (A, ty') =
        (s.quorum.rules.set (A, ty) rule).get? (A, ty')
      rw [Dict.get?_set, Dict.get?_set]
      split
      · rfl
      · exact congrFun h.rule ty'

theorem getAction_inStep (h : Sim ρ (share A s) (share A t)) (i : String) :
    InStep ρ A Action.view ((getAction i (some A)).run s) ((getAction (ρ i) (some A)).run t) := by
  rw [getAction_run, getAction_run, lookup_share, lookup_share]
  rcases map_eq_cases (h.action i) with ⟨h1, h2⟩ | ⟨a', a, h1, h2, hv⟩
  · rw [h1, h2]
    exact ⟨rfl, h⟩
  · rw [h1, h2]
    exact InStep.read hv h

/-- The pending actions of `A` are those of its pending list. -/
theorem listPendingActions_share (hs : Sound s) :
    s.listPendingActions A = (share A s).pending.filterMap (share A s).action := by
  obtain ⟨hist, hr⟩ := hs.queued
  unfold listPendingActions InMemoryApprovalQueue.listPending
  rw [List.filterMap_filterMap]
  apply List.filterMap_congr
  intro i hi
  rw [(inv_run hr).pending A, Dict.mem_keysWhere] at hi
  obtain ⟨row, hrow, hp⟩ := hi
  obtain ⟨a, ha, ht⟩ := hs.owner i row hrow
  have hrt : row.tenantId.1 = A := (of_decide_eq_true hp).2
  rw [hrow, share_action.mpr ⟨ha, by rw [ht, hrt]⟩]
  exact (congrArg s.actions.byId.get? (hs.queued.key hrow)).trans ha

theorem listForTenant_share (hs : Sound s) :
    s.actions.listForTenant A = (share A s).listed.filterMap (share A s).action :=
  filterMap_share (hs.listed A)

theorem listPendingActions_view (hs : Sound s) (ht : Sound t) (h : Sim ρ (share A s) (share A t)) :
    (t.listPendingActions A).map (Action.view id) =
      (s.listPendingActions A).map (Action.view ρ) := by
  rw [listPendingActions_share hs, listPendingActions_share ht, h.pending]
  exact h.filterMap_action _

theorem listForTenant_view (hs : Sound s) (ht : Sound t) (h : Sim ρ (share A s) (share A t)) :
    (t.actions.listForTenant A).map (Action.view id) =
      (s.actions.listForTenant A).map (Action.view ρ) := by
  rw [listForTenant_share hs, listForTenant_share ht, h.listed]
  exact h.filterMap_action _

/-- Rows selected by something that their views tell. -/
theorem filter_view {α γ : Type} {f g : α → γ} {xs ys : List α} (h : ys.map f = xs.map g)
    (k : γ → Bool) : (ys.filter (k ∘ f)).map f = (xs.filter (k ∘ g)).map g := by
  rw [← List.filter_map, ← List.filter_map, h]

theorem entriesForAction_view (hρ : Function.Injective ρ) (hs : Sound s) (ht : Sound t)
    (h : Sim ρ (share A s) (share A t)) (i : String) :
    (t.audit.entriesForAction (ρ i) (some A)).map (AuditLogEntry.view id) =
      (s.audit.entriesForAction i (some A)).map (AuditLogEntry.view ρ) := by
  rw [InMemoryAuditLog.entriesForAction_eq hs.log, InMemoryAuditLog.entriesForAction_eq ht.log]
  have hview := filter_view h.audit fun v => decide (v.actionId = some (ρ i))
  have hleft : ((fun v : EntryView => decide (v.actionId = some (ρ i))) ∘ AuditLogEntry.view id) =
      fun e => decide (e.actionKey = some (ρ i)) := by
    funext e
    simp only [Function.comp_apply, AuditLogEntry.view, Option.map_id_fun, id]
  have hright : ((fun v : EntryView => decide (v.actionId = some (ρ i))) ∘ AuditLogEntry.view ρ) =
      fun e => decide (e.actionKey = some i) := by
    funext e
    simp only [Function.comp_apply, AuditLogEntry.view, ← Option.map_some,
      (Option.map_injective hρ).eq_iff]
  rwa [hleft, hright] at hview

theorem entriesForEvent_view (hs : Sound s) (ht : Sound t) (h : Sim ρ (share A s) (share A t))
    (ev : String) :
    (t.audit.entriesForEvent ev (some A)).map (AuditLogEntry.view id) =
      (s.audit.entriesForEvent ev (some A)).map (AuditLogEntry.view ρ) := by
  rw [InMemoryAuditLog.entriesForEvent_eq hs.log, InMemoryAuditLog.entriesForEvent_eq ht.log]
  exact filter_view h.audit fun v => decide (v.eventId = some ev)

/-- Every operation of `A` answers alike on similar shares and leaves them similar. -/
theorem own_inStep (hρ : Function.Injective ρ) (hs : Sound s) (ht : Sound t) {op op' : PipelineOp}
    (hf : op.Fresh s) (hf' : op'.Fresh t) (hc : Corresponds A ρ op op')
    (h : Sim ρ (share A s) (share A t)) :
    InStep ρ A Response.view (op.exec.run s) (op'.exec.run t) := by
  cases hc with
  | setPolicies hA =>
    subst hA
    exact (setPolicies_inStep h _).wrap (k := fun _ => .unit) fun _ _ => rfl
  | setRule hA =>
    subst hA
    exact (setRule_inStep h _ _ _).wrap (k := .rule) fun _ _ => rfl
  | handleProposal hp hex hid =>
    exact (handleProposal_inStep hρ hs ht h hex hp hid hf hf').wrap (k := .actions) fun _ _ => rfl
  | approveAction hex =>
    exact (approveAction_inStep hρ hs ht h hex _ _).wrap (k := .action) fun _ _ => rfl
  | rejectAction =>
    exact (rejectAction_inStep hρ hs ht h _ _ _ _ _).wrap (k := .action) fun _ _ => rfl
  | getAction => exact (getAction_inStep h _).wrap (k := .action) fun _ _ => rfl
  | listPendingActions =>
    exact .read (congrArg ResponseView.actions (listPendingActions_view hs ht h)) h
  | listActions => exact .read (congrArg ResponseView.actions (listForTenant_view hs ht h)) h
  | auditForTenant => exact .read (congrArg ResponseView.rows h.audit) h
  | auditForAction =>
    exact .read (congrArg ResponseView.rows (entriesForAction_view hρ hs ht h _)) h
  | auditForEvent => exact .read (congrArg ResponseView.rows (entriesForEvent_view hs ht h _)) h

end InStep

/-! ## Two runs -/

/-- What an operation answers. -/
def PipelineOp.answer (s : DecisionPipeline) (op : PipelineOp) : Except PipelineError Response :=
  (op.exec.run s).1

/-- The answers that `A` gets from the operations `ops` on the empty pipeline. -/
def answersOf (A : String) (ops : List PipelineOp) : List (Except PipelineError Response) :=
  Run.outputs pipelineStep PipelineOp.answer (PipelineOp.Own A) {} ops

theorem tenant_unwinding {ρ : String → String} (hρ : Function.Injective ρ) (A : String) :
    Unwinding pipelineStep (fun s op => op.Fresh s) PipelineOp.answer (PipelineOp.Own A)
      (PipelineOp.Foreign A) (Corresponds A ρ) Sound (share A) (Sim ρ) (Alike ρ Response.view) where
  keeps := fun hs hf => hs.step hf
  frame := fun hs hf ho => share_foreign hs hf ho
  sync := fun hs ht hf hf' hc h => own_inStep hρ hs ht hf hf' hc h
  not_own := PipelineOp.Foreign.not_own
  own := Corresponds.own

/-- Two runs with the same operations of `A`, each with any operations of other tenants, draw unused
action ids. `A` gets the same answers, and ends with the same actions, pending actions and audit
rows. The repository's own handlers are blind to ids and timestamps, as both runs need. In every
state, an approval, a rejection or a read of an action that is absent or another tenant's is
answered with the same error and changes nothing. -/
theorem tenant_noninterference {A : String} {ρ : String → String} (hρ : Function.Injective ρ)
    {ops ops' : List PipelineOp} (htwin : Twin (PipelineOp.Foreign A) (Corresponds A ρ) ops ops')
    (hl : Run.Legal pipelineStep (fun s op => op.Fresh s) {} ops)
    (hl' : Run.Legal pipelineStep (fun s op => op.Fresh s) {} ops') :
    let s := ops.foldl pipelineStep {}
    let t := ops'.foldl pipelineStep {}
    List.Forall₂ (Alike ρ Response.view) (answersOf A ops) (answersOf A ops') ∧
    (t.actions.listForTenant A).map (Action.view id) =
      (s.actions.listForTenant A).map (Action.view ρ) ∧
    (t.listPendingActions A).map (Action.view id) =
      (s.listPendingActions A).map (Action.view ρ) ∧
    (t.audit.entriesForTenant A).map (AuditLogEntry.view id) =
      (s.audit.entriesForTenant A).map (AuditLogEntry.view ρ) ∧
    (∀ str, (⟨defaultExecutors str⟩ : ActionExecutor).Blind) ∧
    (∀ (u : DecisionPipeline) (env : Env) (i voter reason B : String),
      (∀ a, u.actions.byId.get? i = some a → a.tenantId.1 ≠ B) →
      (approveAction env i voter (some B)).run u = (.error (.actionNotFound i), u) ∧
      (rejectAction env i reason voter (some B)).run u = (.error (.actionNotFound i), u) ∧
      (getAction i (some B)).run u = (.error (.actionNotFound i), u)) := by
  have hs : Sound (ops.foldl pipelineStep {}) :=
    (Run.ofOps hl).holds Sound.empty fun _ _ hs hf => hs.step hf
  have ht : Sound (ops'.foldl pipelineStep {}) :=
    (Run.ofOps hl').holds Sound.empty fun _ _ hs hf => hs.step hf
  have hstart : Sim ρ (share A {}) (share A {}) :=
    ⟨rfl, rfl, fun _ => rfl, fun _ => rfl, rfl, fun _ => rfl, rfl, rfl⟩
  obtain ⟨hanswers, hsim⟩ := (tenant_unwinding hρ A).run htwin Sound.empty Sound.empty hl hl' hstart
  refine ⟨hanswers, listForTenant_view hs ht hsim, listPendingActions_view hs ht hsim, hsim.audit,
    ActionExecutor.defaultExecutors_blind, fun u env i voter reason B hB => ?_⟩
  have hnone : u.lookup i (some B) = none := by
    rw [Option.eq_none_iff_forall_ne_some]
    intro a ha
    obtain ⟨hget, ht⟩ := lookup_some.mp ha
    exact hB a hget (ht B rfl)
  have hget := getAction_run u i (some B)
  rw [hnone] at hget
  exact ⟨Py.run_bind_error hget, Py.run_bind_error hget, hget⟩

def otherUuid : Uuid := ⟨"11111111111111111111111111111111", by decide⟩

/-- The surroundings of a call that draws `u` for its action, with the default handlers. -/
def uuidEnv (u : Uuid) : Env := { demoEnv (defaultExecutors fun _ => "") with actionUuid := u }

/-- The demo proposal, of tenant `t2`. -/
def otherProposal : ActionProposal := { demoProposal with tenantId := ⟨"t2", t2_str⟩ }

/-- The id of `t1`'s action in the first run, and in the second. -/
def idSwap : Equiv.Perm String :=
  Equiv.swap (uuidEnv demoUuid).actionId.1 (uuidEnv otherUuid).actionId.1

def aloneOps : List PipelineOp :=
  [.handleProposal (uuidEnv demoUuid) demoProposal,
    .getAction (uuidEnv demoUuid).actionId.1 (some "t1")]

/-- Tenant `t2` handles the same event first, gets the id that `t1` has in the first run, and votes
on the action of `t1`. -/
def crowdedOps : List PipelineOp :=
  [.handleProposal (uuidEnv demoUuid) otherProposal, .handleProposal (uuidEnv otherUuid) demoProposal,
    .approveAction (uuidEnv demoUuid) (uuidEnv otherUuid).actionId.1 "eve" (some "t2"),
    .getAction (idSwap (uuidEnv demoUuid).actionId.1) (some "t1")]

theorem tenant_noninterference_sameEvent :
    List.Forall₂ (Alike idSwap Response.view) (answersOf "t1" aloneOps)
      (answersOf "t1" crowdedOps) :=
  have hne : ("t2" : String) ≠ "t1" := by decide
  have hex : SameHandlers (uuidEnv demoUuid) (uuidEnv otherUuid) :=
    ⟨rfl, ActionExecutor.defaultExecutors_blind _⟩
  have hid : (uuidEnv otherUuid).actionId.1 = idSwap (uuidEnv demoUuid).actionId.1 :=
    (Equiv.swap_apply_left _ _).symm
  have hfirst : PipelineOp.Foreign "t1" (.handleProposal (uuidEnv demoUuid) otherProposal) := hne
  have hvote : PipelineOp.Foreign "t1"
      (.approveAction (uuidEnv demoUuid) (uuidEnv otherUuid).actionId.1 "eve" (some "t2")) :=
    ⟨"t2", rfl, hne⟩
  have htwin : Twin (PipelineOp.Foreign "t1") (Corresponds "t1" idSwap) aloneOps crowdedOps :=
    .right hfirst (.both (.handleProposal rfl hex hid) (.right hvote (.both .getAction .nil)))
  have hl : Run.Legal pipelineStep (fun s op => op.Fresh s) {} aloneOps := ⟨rfl, trivial, trivial⟩
  have hl' : Run.Legal pipelineStep (fun s op => op.Fresh s) {} crowdedOps :=
    ⟨rfl, rfl, trivial, trivial, trivial⟩
  (tenant_noninterference idSwap.injective htwin hl hl').1

end PennyCore
