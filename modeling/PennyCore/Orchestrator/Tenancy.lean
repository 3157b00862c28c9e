import PennyCore.Orchestrator.PipelineInvariant

/-!
# A tenant's share of the pipeline

`share A s` is all that the state holds for tenant `A`: its policy table and quorum rules, its entries
of the dedup index, its actions and queue rows with their lists, and its audit rows. The lookups are
filtered by the tenant of what they find.

* A write for another tenant leaves the share as it is (`share_put_foreign`, …); a write for `A`
  changes it as `share_put_own`, … say.
* `Foreign A op`: an operation of another tenant, which names its own tenant wherever the pipeline
  takes one. `share_foreign`: it leaves the share of `A` as it is.
-/

namespace PennyCore

open Lib DecisionPipeline

/-- What the state holds for one tenant. -/
@[ext] structure Share where
  policy : Option (Dict String PolicyDecision)
  rule : ActionType → Option QuorumRule
  dedup : String → Option (List String)
  action : String → Option Action
  listed : List String
  row : String → Option ApprovalRule
  pending : List String
  audit : List AuditLogEntry

def share (A : String) (s : DecisionPipeline) : Share where
  policy := s.policy.byTenant.get? A
  rule := fun ty => s.quorum.rules.get? (A, ty)
  dedup := fun ev => s.dedup.get? (A, ev)
  action := fun id => (s.actions.byId.get? id).filter fun a => a.tenantId.1 = A
  listed := s.actions.byTenant.getList A
  row := fun id => (s.queue.byId.get? id).filter fun row => row.tenantId.1 = A
  pending := s.queue.pendingByTenant.getList A
  audit := s.audit.entriesForTenant A

section Lookups

variable {A : String} {s : DecisionPipeline}

theorem share_action {id : String} {a : Action} :
    (share A s).action id = some a ↔ s.actions.byId.get? id = some a ∧ a.tenantId.1 = A := by
  unfold share
  rw [Option.filter_eq_some_iff, decide_eq_true_eq]

theorem share_row {id : String} {row : ApprovalRule} :
    (share A s).row id = some row ↔ s.queue.byId.get? id = some row ∧ row.tenantId.1 = A := by
  unfold share
  rw [Option.filter_eq_some_iff, decide_eq_true_eq]

/-- A lookup that expects `A` sees the share only. -/
theorem lookup_share (s : DecisionPipeline) (A id : String) :
    s.lookup id (some A) = (share A s).action id := by
  unfold lookup share
  simp only [Option.mem_some_iff, forall_eq']

/-- The queue row of an action of `A` is in the share. -/
theorem row_share (hs : Sound s) {id : String} {a : Action}
    (ha : (share A s).action id = some a) : s.queue.byId.get? id = (share A s).row id := by
  obtain ⟨hget, ht⟩ := share_action.mp ha
  cases hg : s.queue.byId.get? id with
  | none =>
    unfold share
    simp only [hg]
    rfl
  | some row =>
    obtain ⟨a', ha', hrow⟩ := hs.owner id row hg
    rw [hget] at ha'
    cases ha'
    exact (share_row.mpr ⟨hg, by rw [← hrow]; exact ht⟩).symm

/-- Nothing of another tenant is stored at an id that is free or `A`'s. -/
theorem action_share {id : String}
    (h : ∀ b, s.actions.byId.get? id = some b → b.tenantId.1 = A) :
    (share A s).action id = s.actions.byId.get? id := by
  cases hg : s.actions.byId.get? id with
  | none =>
    unfold share
    simp only [hg]
    rfl
  | some b => exact share_action.mpr ⟨hg, h b hg⟩

end Lookups

/-! ## Writes -/

/-- A filtered lookup that hits another tenant finds nothing. -/
theorem filter_foreign {α : Type} (f : α → String) {A : String} {x : α} (h : f x ≠ A) :
    (some x).filter (fun y => f y = A) = none :=
  Option.filter_some_neg (decide_eq_false h)

section Writes

variable {A : String} {s : DecisionPipeline}

theorem share_put_foreign {a : Action} (ht : a.tenantId.1 ≠ A)
    (h : ∀ b, s.actions.byId.get? a.id.1 = some b → b.tenantId = a.tenantId) :
    share A (s.put a) = share A s := by
  have haction : ∀ id, ((s.actions.byId.set a.id.1 a).get? id).filter (fun b => b.tenantId.1 = A) =
      (s.actions.byId.get? id).filter fun b => b.tenantId.1 = A := fun id => by
    rw [Dict.get?_set]
    split
    · subst id
      cases hg : s.actions.byId.get? a.id.1 with
      | none => exact filter_foreign (fun b : Action => b.tenantId.1) ht
      | some b =>
        have hb : ¬ b.tenantId.1 = A := h b hg ▸ ht
        exact (filter_foreign (fun b : Action => b.tenantId.1) ht).trans
          (filter_foreign (fun b : Action => b.tenantId.1) hb).symm
    · rfl
  have hlisted : (s.actions.put a).byTenant.getList A = s.actions.byTenant.getList A := by
    unfold InMemoryActionStore.put
    simp only
    split
    · rfl
    · rw [Dict.getList_push, if_neg fun e => ht e.symm]
  exact Share.ext rfl rfl rfl (funext haction) hlisted rfl rfl rfl

theorem share_put_own {a : Action} (ht : a.tenantId.1 = A)
    (h : ∀ b, s.actions.byId.get? a.id.1 = some b → b.tenantId = a.tenantId) :
    share A (s.put a) = { share A s with
      action := fun id => if id = a.id.1 then some a else (share A s).action id
      listed := if ((share A s).action a.id.1).isSome then (share A s).listed
        else (share A s).listed ++ [a.id.1] } := by
  have haction : ∀ id, ((s.actions.byId.set a.id.1 a).get? id).filter (fun b => b.tenantId.1 = A) =
      if id = a.id.1 then some a else (share A s).action id := fun id => by
    rw [Dict.get?_set]
    split
    · exact Option.filter_some_pos (decide_eq_true ht)
    · rfl
  have hlisted : (s.actions.put a).byTenant.getList A =
      if ((share A s).action a.id.1).isSome then (share A s).listed
      else (share A s).listed ++ [a.id.1] := by
    rw [action_share fun b hb => by rw [h b hb, ht]]
    unfold InMemoryActionStore.put
    simp only
    split
    · rfl
    · rw [Dict.getList_push, if_pos ht.symm, ht]
      rfl
  exact Share.ext rfl rfl rfl (funext haction) hlisted rfl rfl rfl

theorem share_log_foreign {e : AuditLogEntry} (ht : e.tenantId.1 ≠ A) :
    share A (s.log e) = share A s := by
  refine Share.ext rfl rfl rfl rfl rfl rfl rfl ?_
  show Dict.getList (s.audit.byTenant.push e.tenantId.1 _) A = _
  rw [Dict.getList_push, if_neg fun h => ht h.symm]
  rfl

theorem share_log_own {e : AuditLogEntry} (ht : e.tenantId.1 = A) :
    share A (s.log e) = { share A s with
      audit := (share A s).audit ++ [{ e with id := some s.audit.nextId }] } := by
  refine Share.ext rfl rfl rfl rfl rfl rfl rfl ?_
  show Dict.getList (s.audit.byTenant.push e.tenantId.1 _) A = _
  rw [Dict.getList_push, if_pos ht.symm, ht]
  rfl

theorem share_invoke (s : DecisionPipeline) (ex : ActionExecutor) (a : Action) :
    share A (s.invoke ex a) = share A s := by
  unfold invoke; split <;> rfl

theorem share_remember_foreign {key : String × String} (id : String) (ht : key.1 ≠ A) :
    share A (s.remember key id) = share A s := by
  refine Share.ext rfl rfl (funext fun ev => ?_) rfl rfl rfl rfl rfl
  exact Dict.get?_set_ne _ _ fun h => ht (congrArg Prod.fst h).symm

theorem share_remember_own (ev id : String) :
    share A (s.remember (A, ev) id) = { share A s with
      dedup := fun ev' => if ev' = ev then some [id] else (share A s).dedup ev' } := by
  have hdedup : ∀ ev', (s.dedup.set (A, ev) [id]).get? (A, ev') =
      if ev' = ev then some [id] else (share A s).dedup ev' := fun ev' => by
    rw [Dict.get?_set]
    by_cases hev : ev' = ev
    · rw [if_pos (by rw [hev]), if_pos hev]
    · rw [if_neg fun h => hev (congrArg Prod.snd h), if_neg hev]
      rfl
  exact Share.ext rfl rfl (funext hdedup) rfl rfl rfl rfl rfl

theorem share_storeRow_foreign {id : String} {row row' : ApprovalRule} (ht : row.tenantId.1 ≠ A)
    (hg : s.queue.byId.get? id = some row) (hid : row'.actionId.1 = id)
    (ht' : row'.tenantId = row.tenantId) : share A (s.storeRow row') = share A s := by
  have hrow : ∀ id', ((s.queue.byId.set row'.actionId.1 row').get? id').filter
      (fun r => r.tenantId.1 = A) = (s.queue.byId.get? id').filter fun r => r.tenantId.1 = A :=
    fun id' => by
      rw [Dict.get?_set, hid]
      split
      · subst id'
        have hr : ¬ row'.tenantId.1 = A := ht' ▸ ht
        rw [hg]
        exact (filter_foreign (fun r : ApprovalRule => r.tenantId.1) hr).trans
          (filter_foreign (fun r : ApprovalRule => r.tenantId.1) ht).symm
      · rfl
  refine Share.ext rfl rfl rfl rfl rfl (funext hrow) ?_ rfl
  show Dict.getList (if row'.state = .pending then _ else _) A = _
  split
  · rfl
  · rw [getList_dropPending, if_neg fun h => ht (by rw [← ht', ← h])]
    rfl

theorem share_storeRow_own {row' : ApprovalRule} (ht : row'.tenantId.1 = A) :
    share A (s.storeRow row') = { share A s with
      row := fun id => if id = row'.actionId.1 then some row' else (share A s).row id
      pending := if row'.state = .pending then (share A s).pending
        else (share A s).pending.erase row'.actionId.1 } := by
  have hrow : ∀ id, ((s.queue.byId.set row'.actionId.1 row').get? id).filter
      (fun r => r.tenantId.1 = A) =
      if id = row'.actionId.1 then some row' else (share A s).row id := fun id => by
    rw [Dict.get?_set]
    split
    · exact Option.filter_some_pos (decide_eq_true ht)
    · rfl
  refine Share.ext rfl rfl rfl rfl rfl (funext hrow) ?_ rfl
  show Dict.getList (if row'.state = .pending then _ else _) A = _
  split
  · rfl
  · rw [getList_dropPending, if_pos ht.symm, ht]
    rfl

theorem share_insertRow_foreign {row : ApprovalRule} (ht : row.tenantId.1 ≠ A)
    (hg : s.queue.byId.get? row.actionId.1 = none) : share A (s.insertRow row) = share A s := by
  have hrow : ∀ id, ((s.queue.byId.set row.actionId.1 row).get? id).filter
      (fun r => r.tenantId.1 = A) = (s.queue.byId.get? id).filter fun r => r.tenantId.1 = A :=
    fun id => by
      rw [Dict.get?_set]
      split
      · subst id
        rw [hg]
        exact filter_foreign (fun r : ApprovalRule => r.tenantId.1) ht
      · rfl
  refine Share.ext rfl rfl rfl rfl rfl (funext hrow) ?_ rfl
  show Dict.getList (s.queue.pendingByTenant.push row.tenantId.1 row.actionId.1) A = _
  rw [Dict.getList_push, if_neg fun h => ht h.symm]
  rfl

theorem share_insertRow_own {row : ApprovalRule} (ht : row.tenantId.1 = A) :
    share A (s.insertRow row) = { share A s with
      row := fun id => if id = row.actionId.1 then some row else (share A s).row id
      pending := (share A s).pending ++ [row.actionId.1] } := by
  have hrow : ∀ id, ((s.queue.byId.set row.actionId.1 row).get? id).filter
      (fun r => r.tenantId.1 = A) =
      if id = row.actionId.1 then some row else (share A s).row id := fun id => by
    rw [Dict.get?_set]
    split
    · exact Option.filter_some_pos (decide_eq_true ht)
    · rfl
  refine Share.ext rfl rfl rfl rfl rfl (funext hrow) ?_ rfl
  show Dict.getList (s.queue.pendingByTenant.push row.tenantId.1 row.actionId.1) A = _
  rw [Dict.getList_push, if_pos ht.symm, ht]
  rfl

end Writes

/-! ## Operations of other tenants -/

/-- An operation of another tenant than `A`. A vote, a veto or a read by id names its caller's
tenant; `clear` of the quorum rules is nobody's. -/
def PipelineOp.Foreign (A : String) : PipelineOp → Prop
  | .setPolicies t _ => t ≠ A
  | .setRule t _ _ _ => t ≠ A
  | .clearRules => False
  | .handleProposal _ p => p.tenantId.1 ≠ A
  | .approveAction _ _ _ expected => ∃ B, expected = some B ∧ B ≠ A
  | .rejectAction _ _ _ _ expected => ∃ B, expected = some B ∧ B ≠ A
  | .getAction _ expected => expected ≠ some A
  | .listPendingActions t => t ≠ A
  | .listActions t => t ≠ A
  | .auditForTenant t => t ≠ A
  | .auditForAction _ t => t ≠ some A
  | .auditForEvent _ t => t ≠ some A

section Foreign

variable {A : String} {s : DecisionPipeline}

theorem share_finish_foreign (env : Env) {a : Action} (ht : a.tenantId.1 ≠ A)
    (h : ∀ b, s.actions.byId.get? a.id.1 = some b → b.tenantId = a.tenantId) :
    share A (finish env a s).2 = share A s := by
  have hi := share_invoke (A := A) s env.executor a
  unfold finish
  cases env.executor.outcome a with
  | done result =>
    simp only
    rw [share_log_foreign (by exact ht),
      share_put_foreign (by exact ht) (by rw [invoke_actions]; exact h), hi]
  | raised e =>
    have hput : share A ((s.invoke env.executor a).put (a.withStatus .executionFailed env.now)) =
        share A s := by
      rw [share_put_foreign (by exact ht) (by rw [invoke_actions]; exact h), hi]
    simp only
    split
    · cases e.message with
      | none => exact hput
      | some message =>
        simp only
        rw [share_log_foreign (by exact ht), hput]
    · exact hi

theorem share_birth_foreign (hs : Sound s) (env : Env) {p : ActionProposal}
    (ht : p.tenantId.1 ≠ A) (hf : s.actions.byId.get? env.actionId.1 = none) :
    share A (birth env p s) = share A s := by
  have hprop : share A (proposed env p s) = share A s := by
    unfold proposed
    rw [share_log_foreign (by exact ht), share_log_foreign (by exact ht),
      share_put_foreign (by exact ht) fun b hb => by
        rw [materializeAction_id, hf] at hb
        cases hb]
  have hput : ∀ status, share A ((proposed env p s).put ((materializeAction env p).withStatus status
      env.now)) = share A s := fun status => by
    rw [share_put_foreign (by exact ht) (by
      exact fun b hb => same_put (s := s) (a := materializeAction env p) rfl rfl hb), hprop]
  unfold birth
  cases s.decision p with
  | reject =>
    simp only
    rw [share_remember_foreign _ (by exact ht), share_log_foreign (by exact ht), hput]
  | approvalRequired =>
    simp only
    rw [share_remember_foreign _ (by exact ht),
      share_insertRow_foreign (by exact ht) (by exact hs.row_fresh hf), hput]
  | auto =>
    have hfin := share_finish_foreign (A := A) (s := (proposed env p s).put
      ((materializeAction env p).withStatus .pendingExec env.now)) env
      (a := (materializeAction env p).withStatus .pendingExec env.now) ht fun _ =>
        same_put rfl rfl
    rw [hput] at hfin
    simp only
    split <;> rename_i heq <;> rw [heq] at hfin
    · rw [share_remember_foreign _ (by exact ht)]
      exact hfin
    · exact hfin

/-- An action that another tenant finds is another tenant's, and so is its row in the queue. -/
theorem foreign_row (hs : Sound s) {id B : String} {a : Action} {row : ApprovalRule} (hne : B ≠ A)
    (hl : s.lookup id (some B) = some a) (hg : s.queue.byId.get? id = some row) :
    a.tenantId.1 ≠ A ∧ row.tenantId.1 ≠ A := by
  have hat : a.tenantId.1 ≠ A := by
    rw [(lookup_some.mp hl).2 B rfl]
    exact hne
  obtain ⟨a', ha', ht⟩ := hs.owner id row hg
  rw [(lookup_some.mp hl).1] at ha'
  cases ha'
  exact ⟨hat, ht ▸ hat⟩

theorem share_vote_foreign (hs : Sound s) (env : Env) {id voter B : String} {a : Action}
    {row : ApprovalRule} (hne : B ≠ A) (hl : s.lookup id (some B) = some a)
    (hg : s.queue.byId.get? id = some row) :
    share A (recordVote env a row voter s).2 = share A s := by
  obtain ⟨hat, hrt⟩ := foreign_row hs hne hl hg
  obtain ⟨hid, hsame⟩ := hs.stored hl
  have hrid := hs.queued.key hg
  have hstore : share A (s.storeRow (row.vote env.now voter)) = share A s :=
    share_storeRow_foreign hrt hg (by simpa using hrid) (by simp)
  unfold recordVote
  split
  · simp only
    split
    · rw [share_finish_foreign env (by exact hat) fun _ => same_put rfl rfl,
        share_put_foreign (by exact hat) (by exact hsame), share_log_foreign (by exact hat),
        hstore]
    · rw [share_log_foreign (by exact hat), hstore]
  · exact hstore

theorem share_veto_foreign (hs : Sound s) (env : Env) {id reason voter B : String} {a : Action}
    {row : ApprovalRule} (hne : B ≠ A) (hl : s.lookup id (some B) = some a)
    (hg : s.queue.byId.get? id = some row) :
    share A (recordVeto env a row reason voter s).2 = share A s := by
  obtain ⟨hat, hrt⟩ := foreign_row hs hne hl hg
  obtain ⟨hid, hsame⟩ := hs.stored hl
  have hrid := hs.queued.key hg
  have hstore : share A (s.storeRow (row.veto env.now reason voter)) = share A s :=
    share_storeRow_foreign hrt hg hrid rfl
  unfold recordVeto
  split
  · simp only
    rw [share_put_foreign (by exact hat) (by exact hsame), share_log_foreign (by exact hat), hstore]
  · exact hstore

/-- An operation of another tenant leaves the share of `A` as it is. -/
theorem share_foreign (hs : Sound s) {op : PipelineOp} (hf : op.Fresh s) (ho : op.Foreign A) :
    share A (pipelineStep s op) = share A s := by
  rcases hs.step_cases hf with ⟨hc, -⟩ | ⟨env, p, rfl, hd, hid, heq⟩ |
    ⟨env, id, voter, expected, a, row, rfl, hl, hg, hv, heq⟩ |
    ⟨env, id, reason, voter, expected, a, row, rfl, hl, hg, hv, heq⟩
  · rw [hc]
    cases op with
    | setPolicies t policies =>
      have hpol := DeclarativePolicyEngine.setPolicies_frame policies s.policy (Ne.symm ho)
      exact Share.ext hpol rfl rfl rfl rfl rfl rfl rfl
    | setRule t ty n pool =>
      have hrule := QuorumPolicy.setRule_frame ty n pool s.quorum (Ne.symm ho)
      exact Share.ext rfl (funext hrule) rfl rfl rfl rfl rfl rfl
    | clearRules => exact ho.elim
    | _ => rfl
  · rw [heq]
    exact share_birth_foreign hs env ho hid
  · obtain ⟨B, rfl, hne⟩ := ho
    rw [heq]
    exact share_vote_foreign hs env hne hl hg
  · obtain ⟨B, rfl, hne⟩ := ho
    rw [heq]
    exact share_veto_foreign hs env hne hl hg

end Foreign

end PennyCore
