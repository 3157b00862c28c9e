import PennyCore.Lib.Run
import PennyCore.Orchestrator.PipelineSpec

/-!
# Runs of the pipeline

* `PipelineRun legal`: the runs from the empty pipeline whose operations are legal. Every run here
  draws unused action ids (`Fresh`).
* `Sound`: what holds after any such run, also after calls that raised in the middle: the queue is
  one that a run of the queue reaches, every queue row, every entry of the dedup index and every
  entry of a tenant's list of actions belongs to an action of its tenant, and the audit log's counter
  and indexes are right.
* `Sound.step_cases`: what one operation can do. It changes the policy tables or quorum rules or
  nothing (`PipelineOp.configure`), or it handles a new event (`birth`), or the queue accepts a vote
  (`recordVote`) or a veto (`recordVeto`).
-/

namespace PennyCore

open Lib DecisionPipeline

/-- The runs from the empty pipeline with unused ids and `legal` operations. -/
abbrev PipelineRun (legal : DecisionPipeline → PipelineOp → Prop) :
    List (DecisionPipeline × PipelineOp) → DecisionPipeline → Prop :=
  Run pipelineStep (fun s op => op.Fresh s ∧ legal s op) {}

/-- Nothing but the policy tables and the quorum rules differs. -/
def Calm (s t : DecisionPipeline) : Prop := ∃ p q, t = { s with policy := p, quorum := q }

/-- What the setters of policies and quorum rules do; no other operation is one. -/
def PipelineOp.configure (s : DecisionPipeline) : PipelineOp → DecisionPipeline
  | .setPolicies t policies =>
    { s with policy := ((DeclarativePolicyEngine.setPolicies t policies).run s.policy).2 }
  | .setRule t ty n pool => { s with quorum := ((QuorumPolicy.setRule t ty n pool).run s.quorum).2 }
  | .clearRules => { s with quorum := s.quorum.clear }
  | _ => s

theorem PipelineOp.configure_calm (s : DecisionPipeline) (op : PipelineOp) :
    Calm s (op.configure s) := by
  cases op <;> exact ⟨_, _, rfl⟩

structure Sound (s : DecisionPipeline) : Prop where
  queued : Queued s.queue
  owner : ∀ id row, s.queue.byId.get? id = some row →
    ∃ a, s.actions.byId.get? id = some a ∧ a.tenantId = row.tenantId
  key : ∀ id a, s.actions.byId.get? id = some a → a.id.1 = id
  listed : ∀ t, ∀ id ∈ s.actions.byTenant.getList t,
    ∃ a, s.actions.byId.get? id = some a ∧ a.tenantId.1 = t
  indexed : ∀ t ev ids, s.dedup.get? (t, ev) = some ids → ∀ id ∈ ids,
    ∃ a, s.actions.byId.get? id = some a ∧ a.tenantId.1 = t
  log : s.audit.Ok

/-! ## What an operation does -/

/-- The state after a new event was handled. -/
def birth (env : Env) (p : ActionProposal) (s : DecisionPipeline) : DecisionPipeline :=
  let a := materializeAction env p
  let key := (p.tenantId.1, p.eventId.1)
  match s.decision p with
  | .reject =>
    (((proposed env p s).put (a.withStatus .rejected env.now)).log
      ((TrailRow.refusal p.tenantId p.eventId).entry env.now env.actionId)).remember key
        env.actionId.1
  | .approvalRequired =>
    (((proposed env p s).put (a.withStatus .pendingApproval env.now)).insertRow
      (newRow env (a.withStatus .pendingApproval env.now) (s.quorumRule p))).remember key
        env.actionId.1
  | .auto =>
    match finish env (a.withStatus .pendingExec env.now)
        ((proposed env p s).put (a.withStatus .pendingExec env.now)) with
    | (.ok resolved, s') => s'.remember key resolved.id.1
    | (.error _, s') => s'

/-- The vote is one that the queue accepts, on an action that the caller may see. -/
def AcceptsVote (s : DecisionPipeline) (id voter : String) (expected : Option String) : Prop :=
  ∃ a row, s.lookup id expected = some a ∧ s.queue.byId.get? id = some row ∧ row.Votable voter

/-- The veto is one that the queue accepts, on an action that the caller may see. -/
def AcceptsVeto (s : DecisionPipeline) (id voter : String) (expected : Option String) : Prop :=
  ∃ a row, s.lookup id expected = some a ∧ s.queue.byId.get? id = some row ∧ row.Vetoable voter

theorem storedActions_reads (ids : List String) : (storedActions ids).Reads := by
  have hone : ∀ id, (storedAction id).Reads := fun id => Py.Reads.bind Py.reads_get fun s => by
    cases s.actions.byId.get? id with
    | none => exact Py.reads_raise _
    | some a => exact Py.reads_pure a
  induction ids with
  | nil => exact Py.reads_pure _
  | cons id ids ih =>
    exact Py.Reads.bind (hone id) fun _ => Py.Reads.bind ih fun _ => Py.reads_pure _

theorem approveAction_refused {s : DecisionPipeline} (hs : Sound s) {id voter : String}
    {expected : Option String} (env : Env) (h : ¬ AcceptsVote s id voter expected) :
    ((approveAction env id voter expected).run s).2 = s ∧
      ∃ e, ((approveAction env id voter expected).run s).1 = .error e := by
  rw [approveAction_run hs.queued]
  cases hl : s.lookup id expected with
  | none => exact ⟨rfl, _, rfl⟩
  | some a =>
    cases hg : s.queue.byId.get? id with
    | none => exact ⟨rfl, _, rfl⟩
    | some row =>
      simp only
      rw [if_neg fun hv => h ⟨a, row, hl, hg, hv⟩]
      exact ⟨rfl, _, rfl⟩

theorem rejectAction_refused {s : DecisionPipeline} (hs : Sound s) {id voter : String}
    {expected : Option String} (env : Env) (reason : String) (h : ¬ AcceptsVeto s id voter expected) :
    ((rejectAction env id reason voter expected).run s).2 = s ∧
      ∃ e, ((rejectAction env id reason voter expected).run s).1 = .error e := by
  rw [rejectAction_run hs.queued]
  cases hl : s.lookup id expected with
  | none => exact ⟨rfl, _, rfl⟩
  | some a =>
    cases hg : s.queue.byId.get? id with
    | none => exact ⟨rfl, _, rfl⟩
    | some row =>
      simp only
      rw [if_neg fun hv => h ⟨a, row, hl, hg, hv⟩]
      exact ⟨rfl, _, rfl⟩

theorem approveAction_accepted {s : DecisionPipeline} (hs : Sound s) {id voter : String}
    {expected : Option String} (env : Env) {a : Action} {row : ApprovalRule}
    (hl : s.lookup id expected = some a) (hg : s.queue.byId.get? id = some row)
    (hv : row.Votable voter) :
    (approveAction env id voter expected).run s = recordVote env a row voter s := by
  rw [approveAction_run hs.queued, hl, hg]
  exact if_pos hv

theorem rejectAction_accepted {s : DecisionPipeline} (hs : Sound s) {id voter : String}
    {expected : Option String} (env : Env) (reason : String) {a : Action} {row : ApprovalRule}
    (hl : s.lookup id expected = some a) (hg : s.queue.byId.get? id = some row)
    (hv : row.Vetoable voter) :
    (rejectAction env id reason voter expected).run s = recordVeto env a row reason voter s := by
  rw [rejectAction_run hs.queued, hl, hg]
  exact if_pos hv

/-- A fresh id has no queue row. -/
theorem Sound.row_fresh {s : DecisionPipeline} (hs : Sound s) {id : String}
    (h : s.actions.byId.get? id = none) : s.queue.byId.get? id = none := by
  rw [Option.eq_none_iff_forall_ne_some]
  intro row hrow
  obtain ⟨a, ha, -⟩ := hs.owner id row hrow
  rw [h] at ha
  cases ha

theorem handleProposal_birth {s : DecisionPipeline} (hs : Sound s) {env : Env} {p : ActionProposal}
    (hf : s.actions.byId.get? env.actionId.1 = none)
    (hd : s.dedup.get? (p.tenantId.1, p.eventId.1) = none) :
    ((handleProposal env p).run s).2 = birth env p s := by
  rw [handleProposal_new env hd (hs.row_fresh hf)]
  unfold birth
  cases s.decision p with
  | reject => rfl
  | approvalRequired => rfl
  | auto =>
    simp only
    rcases finish env ((materializeAction env p).withStatus .pendingExec env.now)
      ((proposed env p s).put ((materializeAction env p).withStatus .pendingExec env.now)) with
      ⟨e | resolved, s'⟩ <;> rfl

/-- The state after an operation that only wraps its method's result. -/
theorem state_of_wrap {α : Type} (m : M α) (f : α → Response) (s : DecisionPipeline) :
    ((m >>= fun a => pure (f a)).run s).2 = (m.run s).2 := by
  rw [Py.run_bind_pure]

/-- What one operation can do (module doc). -/
theorem Sound.step_cases {s : DecisionPipeline} (hs : Sound s) {op : PipelineOp} (hf : op.Fresh s) :
    (pipelineStep s op = op.configure s ∧ ∀ env p, op = .handleProposal env p →
      ∃ ids, s.dedup.get? (p.tenantId.1, p.eventId.1) = some ids) ∨
    (∃ env p, op = .handleProposal env p ∧ s.dedup.get? (p.tenantId.1, p.eventId.1) = none ∧
      s.actions.byId.get? env.actionId.1 = none ∧ pipelineStep s op = birth env p s) ∨
    (∃ env id voter expected a row, op = .approveAction env id voter expected ∧
      s.lookup id expected = some a ∧ s.queue.byId.get? id = some row ∧ row.Votable voter ∧
      pipelineStep s op = (recordVote env a row voter s).2) ∨
    (∃ env id reason voter expected a row, op = .rejectAction env id reason voter expected ∧
      s.lookup id expected = some a ∧ s.queue.byId.get? id = some row ∧ row.Vetoable voter ∧
      pipelineStep s op = (recordVeto env a row reason voter s).2) := by
  unfold pipelineStep PipelineOp.exec
  cases op with
  | handleProposal env p =>
    simp only [state_of_wrap]
    cases hd : s.dedup.get? (p.tenantId.1, p.eventId.1) with
    | some ids =>
      refine .inl ⟨?_, fun env' p' h => ?_⟩
      · rw [handleProposal_known hd, storedActions_reads ids s]
        rfl
      · cases h
        exact ⟨ids, hd⟩
    | none => exact .inr (.inl ⟨env, p, rfl, hd, hf, handleProposal_birth hs hf hd⟩)
  | approveAction env id voter expected =>
    simp only [state_of_wrap]
    by_cases h : AcceptsVote s id voter expected
    · obtain ⟨a, row, hl, hg, hv⟩ := h
      exact .inr (.inr (.inl ⟨env, id, voter, expected, a, row, rfl, hl, hg, hv,
        congrArg Prod.snd (approveAction_accepted hs env hl hg hv)⟩))
    · refine .inl ⟨?_, fun _ _ h => by cases h⟩
      rw [(approveAction_refused hs env h).1]
      rfl
  | rejectAction env id reason voter expected =>
    simp only [state_of_wrap]
    by_cases h : AcceptsVeto s id voter expected
    · obtain ⟨a, row, hl, hg, hv⟩ := h
      exact .inr (.inr (.inr ⟨env, id, reason, voter, expected, a, row, rfl, hl, hg, hv,
        congrArg Prod.snd (rejectAction_accepted hs env reason hl hg hv)⟩))
    · refine .inl ⟨?_, fun _ _ h => by cases h⟩
      rw [(rejectAction_refused hs env reason h).1]
      rfl
  | setPolicies t policies =>
    refine .inl ⟨?_, fun _ _ h => by cases h⟩
    exact state_of_wrap (DecisionPipeline.setPolicies t policies) (fun _ => .unit) s
  | setRule t ty n pool =>
    refine .inl ⟨?_, fun _ _ h => by cases h⟩
    exact state_of_wrap (DecisionPipeline.setRule t ty n pool) .rule s
  | getAction id t =>
    refine .inl ⟨?_, fun _ _ h => by cases h⟩
    simp only [state_of_wrap, getAction_run]
    cases s.lookup id t <;> rfl
  | _ => exact .inl ⟨rfl, fun _ _ h => by cases h⟩

/-! ## The invariant is kept by the writes -/

namespace Sound

variable {s : DecisionPipeline}

theorem empty : Sound {} :=
  ⟨Queued.empty, fun _ _ h => (by cases h), fun _ _ h => (by cases h), fun _ _ h => (by cases h),
    fun _ _ _ h => (by cases h), InMemoryAuditLog.Ok.empty⟩

theorem calm {t : DecisionPipeline} (hs : Sound s) (h : Calm s t) : Sound t := by
  obtain ⟨p, q, rfl⟩ := h
  exact ⟨hs.queued, hs.owner, hs.key, hs.listed, hs.indexed, hs.log⟩

/-- Storing an action whose id is new or keeps its tenant. -/
theorem put (hs : Sound s) {a : Action}
    (h : ∀ b, s.actions.byId.get? a.id.1 = some b → b.tenantId = a.tenantId) : Sound (s.put a) := by
  -- an action of a tenant stays one
  have hkept : ∀ t id, (∃ b, s.actions.byId.get? id = some b ∧ b.tenantId.1 = t) →
      ∃ b, (s.put a).actions.byId.get? id = some b ∧ b.tenantId.1 = t := by
    rintro t id ⟨b, hb, ht⟩
    by_cases hid : id = a.id.1
    · subst hid
      exact ⟨a, Dict.get?_set_self _ _ _, h b hb ▸ ht⟩
    · exact ⟨b, (Dict.get?_set_ne _ _ hid).trans hb, ht⟩
  refine ⟨hs.queued, fun id row hrow => ?_, fun id b hb => ?_, fun t id hid => ?_,
    fun t ev ids hids id hid => hkept t id (hs.indexed t ev ids hids id hid), hs.log⟩
  · obtain ⟨b, hb, ht⟩ := hs.owner id row hrow
    obtain ⟨b', hb', ht'⟩ := hkept _ id ⟨b, hb, rfl⟩
    exact ⟨b', hb', (Subtype.ext ht').trans ht⟩
  · change (s.actions.byId.set a.id.1 a).get? id = some b at hb
    rw [Dict.get?_set] at hb
    split at hb
    · subst id
      cases hb
      rfl
    · exact hs.key id b hb
  · change id ∈ Dict.getList (if (s.actions.byId.get? a.id.1).isSome then s.actions.byTenant
      else s.actions.byTenant.push a.tenantId.1 a.id.1) t at hid
    split at hid
    · exact hkept t id (hs.listed t id hid)
    · rw [Dict.getList_push] at hid
      split at hid
      · subst t
        rcases List.mem_append.mp hid with hid | hid
        · exact hkept _ id (hs.listed _ id hid)
        · rw [List.mem_singleton.mp hid]
          exact ⟨a, Dict.get?_set_self _ _ _, rfl⟩
      · exact hkept t id (hs.listed t id hid)

theorem logged (hs : Sound s) (e : AuditLogEntry) : Sound (s.log e) :=
  ⟨hs.queued, hs.owner, hs.key, hs.listed, hs.indexed, hs.log.write e⟩

theorem invoke (hs : Sound s) (ex : ActionExecutor) (a : Action) : Sound (s.invoke ex a) := by
  unfold DecisionPipeline.invoke
  split
  · exact ⟨hs.queued, hs.owner, hs.key, hs.listed, hs.indexed, hs.log⟩
  · exact hs

/-- A dedup entry for a stored action of its tenant. -/
theorem remember (hs : Sound s) {key : String × String} {id : String}
    (h : ∃ a, s.actions.byId.get? id = some a ∧ a.tenantId.1 = key.1) :
    Sound (s.remember key id) := by
  refine ⟨hs.queued, hs.owner, hs.key, hs.listed, fun t ev ids hids id' hid => ?_, hs.log⟩
  change (s.dedup.set key [id]).get? (t, ev) = some ids at hids
  rw [Dict.get?_set] at hids
  split at hids
  · subst key
    cases hids
    rw [List.mem_singleton.mp hid]
    exact h
  · exact hs.indexed t ev ids hids id' hid

/-- A new queue row for a stored action of its tenant. -/
theorem insertRow (hs : Sound s) {row : ApprovalRule} {a : Action}
    (ha : s.actions.byId.get? row.actionId.1 = some a) (ht : a.tenantId = row.tenantId)
    (hq : Queued (s.insertRow row).queue) : Sound (s.insertRow row) := by
  refine ⟨hq, fun id r hr => ?_, hs.key, hs.listed, hs.indexed, hs.log⟩
  change (s.queue.byId.set row.actionId.1 row).get? id = some r at hr
  rw [Dict.get?_set] at hr
  split at hr
  · subst id
    cases hr
    exact ⟨a, ha, ht⟩
  · exact hs.owner id r hr

/-- The next version of a queue row. -/
theorem storeRow (hs : Sound s) {row row' : ApprovalRule}
    (hrow : s.queue.byId.get? row.actionId.1 = some row) (hid : row'.actionId = row.actionId)
    (ht : row'.tenantId = row.tenantId) (hq : Queued (s.storeRow row').queue) :
    Sound (s.storeRow row') := by
  refine ⟨hq, fun id r hr => ?_, hs.key, hs.listed, hs.indexed, hs.log⟩
  change (s.queue.byId.set row'.actionId.1 row').get? id = some r at hr
  rw [Dict.get?_set, hid] at hr
  split at hr
  · subst id
    cases hr
    rw [ht]
    exact hs.owner _ row hrow
  · exact hs.owner id r hr

theorem finish (hs : Sound s) (env : Env) {a : Action}
    (h : ∀ b, s.actions.byId.get? a.id.1 = some b → b.tenantId = a.tenantId) :
    Sound (finish env a s).2 := by
  have hi := hs.invoke env.executor a
  unfold DecisionPipeline.finish
  cases env.executor.outcome a with
  | done result => exact (hi.put (by rw [invoke_actions]; exact h)).logged _
  | raised e =>
    have hput : Sound ((s.invoke env.executor a).put (a.withStatus .executionFailed env.now)) :=
      hi.put (by rw [invoke_actions]; exact h)
    simp only
    split
    · cases e.message with
      | none => exact hput
      | some message => exact hput.logged _
    · exact hi

/-- An execution that returns leaves the action that it returned in the store. -/
theorem finish_stored {env : Env} {a a' : Action} {s' : DecisionPipeline}
    (h : DecisionPipeline.finish env a s = (.ok a', s')) :
    s'.actions.byId.get? a'.id.1 = some a' ∧ a'.tenantId = a.tenantId := by
  unfold DecisionPipeline.finish at h
  cases ho : env.executor.outcome a with
  | done result =>
    rw [ho] at h
    cases h
    exact ⟨Dict.get?_set_self _ _ _, rfl⟩
  | raised e =>
    rw [ho] at h
    by_cases he : e.isException = true
    · cases hm : e.message with
      | none =>
        simp only [he, hm, ↓reduceIte] at h
        cases h
      | some message =>
        simp only [he, hm, ↓reduceIte] at h
        cases h
        exact ⟨Dict.get?_set_self _ _ _, rfl⟩
    · simp only [he, Bool.false_eq_true, ↓reduceIte] at h
      cases h

/-- The queue after an accepted vote is one that a run reaches. -/
theorem queued_vote (hs : Sound s) {id voter : String} {row : ApprovalRule} (now : Time)
    (hg : s.queue.byId.get? id = some row) (hv : row.Votable voter) :
    Queued (s.storeRow (row.vote now voter)).queue := by
  have hrun := hs.queued.approve now id voter
  rw [hg] at hrun
  simp only at hrun
  rw [if_pos hv] at hrun
  have hstep := hs.queued.step (.approve now id voter)
  unfold queueStep QueueOp.exec at hstep
  rwa [hrun] at hstep

theorem queued_veto (hs : Sound s) {id voter : String} {row : ApprovalRule} (now : Time)
    (reason : String) (hg : s.queue.byId.get? id = some row) (hv : row.Vetoable voter) :
    Queued (s.storeRow (row.veto now reason voter)).queue := by
  have hrun := hs.queued.reject now id reason voter
  rw [hg] at hrun
  simp only at hrun
  rw [if_pos hv] at hrun
  have hstep := hs.queued.step (.reject now id reason voter)
  unfold queueStep QueueOp.exec at hstep
  rwa [hrun] at hstep

theorem queued_insert (hs : Sound s) (env : Env) (a : Action) (rule : QuorumRule)
    (h : s.queue.byId.get? a.id.1 = none) : Queued (s.insertRow (newRow env a rule)).queue := by
  have hrun := enqueue_new (q := s.queue) env a rule h
  have hstep := hs.queued.step (.enqueue env.queueUuid env.now a.id.1 a.tenantId.1 none
    rule.requiredApprovals rule.eligibleApprovers)
  unfold queueStep QueueOp.exec at hstep
  rwa [hrun] at hstep

/-! ## The invariant is kept by the operations -/

theorem birth (hs : Sound s) {env : Env} {p : ActionProposal}
    (hf : s.actions.byId.get? env.actionId.1 = none) : Sound (birth env p s) := by
  have hfresh : ∀ b, s.actions.byId.get? (materializeAction env p).id.1 = some b →
      b.tenantId = (materializeAction env p).tenantId := fun b hb => by
    rw [show (materializeAction env p).id.1 = env.actionId.1 from rfl, hf] at hb
    cases hb
  have hprop : Sound (proposed env p s) := ((hs.put hfresh).logged _).logged _
  -- from here on the id names the new action
  have hput : ∀ status b, (proposed env p s).actions.byId.get?
      ((materializeAction env p).withStatus status env.now).id.1 = some b →
      b.tenantId = ((materializeAction env p).withStatus status env.now).tenantId :=
    fun status b hb => same_put (s := s) (a := materializeAction env p) rfl rfl hb
  unfold PennyCore.birth
  cases s.decision p with
  | reject =>
    exact ((hprop.put (hput .rejected)).logged _).remember ⟨_, Dict.get?_set_self _ _ _, rfl⟩
  | approvalRequired =>
    refine Sound.remember ?_ ⟨_, Dict.get?_set_self _ _ _, rfl⟩
    refine (hprop.put (hput _)).insertRow (a := (materializeAction env p).withStatus
      .pendingApproval env.now) (Dict.get?_set_self _ _ _) rfl ?_
    exact (hprop.put (hput _)).queued_insert _ _ _ (hs.row_fresh hf)
  | auto =>
    have hfin := (hprop.put (hput .pendingExec)).finish env (a := (materializeAction env p).withStatus
      .pendingExec env.now) fun _ => same_put rfl rfl
    simp only
    split
    · rename_i resolved s' heq
      rw [heq] at hfin
      obtain ⟨hget, ht⟩ := finish_stored heq
      exact hfin.remember ⟨resolved, hget, congrArg Subtype.val ht⟩
    · rename_i e s' heq
      rw [heq] at hfin
      exact hfin

/-- The stored action of a lookup has the id and keeps its tenant. -/
theorem stored (hs : Sound s) {id : String} {expected : Option String} {a : Action}
    (hl : s.lookup id expected = some a) :
    a.id.1 = id ∧ ∀ b, s.actions.byId.get? a.id.1 = some b → b.tenantId = a.tenantId := by
  have ha := (lookup_some.mp hl).1
  have hid := hs.key id a ha
  refine ⟨hid, fun b hb => ?_⟩
  rw [hid, ha] at hb
  cases hb
  rfl

theorem vote (hs : Sound s) (env : Env) {id voter : String} {expected : Option String} {a : Action}
    {row : ApprovalRule} (hl : s.lookup id expected = some a)
    (hg : s.queue.byId.get? id = some row) (hv : row.Votable voter) :
    Sound (recordVote env a row voter s).2 := by
  obtain rfl := hs.queued.key hg
  have hq := hs.queued_vote env.now hg hv
  have hstored : Sound (s.storeRow (row.vote env.now voter)) :=
    hs.storeRow hg (by simp) (by simp) hq
  have hsame := (hs.stored hl).2
  unfold recordVote
  split
  · simp only
    split
    · refine Sound.finish ((hstored.logged _).put (a := a.withStatus .pendingExec env.now) hsame)
        env fun _ => same_put rfl rfl
    · exact hstored.logged _
  · exact hstored

theorem veto (hs : Sound s) (env : Env) {id reason voter : String} {expected : Option String}
    {a : Action} {row : ApprovalRule} (hl : s.lookup id expected = some a)
    (hg : s.queue.byId.get? id = some row) (hv : row.Vetoable voter) :
    Sound (recordVeto env a row reason voter s).2 := by
  obtain rfl := hs.queued.key hg
  have hq := hs.queued_veto env.now reason hg hv
  have hstored : Sound (s.storeRow (row.veto env.now reason voter)) := hs.storeRow hg rfl rfl hq
  unfold recordVeto
  split
  · exact (hstored.logged _).put (hs.stored hl).2
  · exact hstored

theorem step (hs : Sound s) {op : PipelineOp} (hf : op.Fresh s) : Sound (pipelineStep s op) := by
  rcases hs.step_cases hf with ⟨hc, -⟩ | ⟨env, p, rfl, -, hid, heq⟩ |
    ⟨env, id, voter, expected, a, row, rfl, hl, hg, hv, heq⟩ |
    ⟨env, id, reason, voter, expected, a, row, rfl, hl, hg, hv, heq⟩
  · exact hc ▸ hs.calm (op.configure_calm s)
  · rw [heq]; exact hs.birth hid
  · rw [heq]; exact hs.vote env hl hg hv
  · rw [heq]; exact hs.veto env hl hg hv

end Sound

/-- Every run keeps the invariant. -/
theorem sound_run {legal : DecisionPipeline → PipelineOp → Prop}
    {h : List (DecisionPipeline × PipelineOp)} {s : DecisionPipeline} (hr : PipelineRun legal h s) :
    Sound s := hr.holds Sound.empty fun _ _ hs hl => hs.step hl.1

/-! ## Inputs for concrete runs -/

/-- A table that sends every action type to `value`. -/
def everything (value : String) : Dict String PyVal := Dict.set ∅ "default" (.str value)

def demoUuid : Uuid := ⟨"00000000000000000000000000000000", zeros_uuid⟩

def demoProposal : ActionProposal where
  id := ⟨"prop_1", by decide⟩
  tenantId := ⟨"t1", t1_str⟩
  eventId := ⟨"evt_1", evt1_str⟩
  customerId := none
  actionType := .noOp
  proposedBy := .llm
  payload := ∅

/-- The surroundings of a call, with the given executors. -/
def demoEnv (table : Dict ActionType ExecutorFn) : Env := ⟨demoUuid, demoUuid, 0, ⟨table⟩⟩

end PennyCore
