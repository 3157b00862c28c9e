import PennyCore.Orchestrator.Approvals

/-!
# The stored records and their contracts

The stores change their records with `model_copy`, which runs no validator.

* `Action.Contract` and `ApprovalRule.Contract`: what the validators and bounds of
  `src/contracts/actions.py` and `policies.py` ask, with what the fields of a decision mean.
* `Contracted` is the invariant. An action that still waits for votes was never executed, which is why
  the copies that promote or reject it are valid.
* `stored_records_valid`: in every state of the service all stored actions and rows are.
-/

namespace PennyCore

open Lib DecisionPipeline

/-- `_executed_at_consistent`. The time of the execution is that of the last update, and what the
handler returned is in the payload. -/
structure Action.Contract (a : Action) : Prop where
  consistent : a.status = .executed ↔ a.executedAt.isSome
  stamped : ∀ t ∈ a.executedAt, t = a.updatedAt
  recorded : a.status = .executed → ∃ result, a.payload.get? "_executed_payload" = some (.dict result)

/-- The bounds of the columns, and a decision exactly where the row is decided. -/
structure ApprovalRule.Contract (row : ApprovalRule) : Prop where
  decidedBy_max : ∀ voter ∈ row.decidedBy, UpTo 128 voter
  decisionNote_max : ∀ note ∈ row.decisionNote, UpTo 2048 note
  rowVersion_ge : 1 ≤ row.rowVersion
  decidedAt_iff : row.decidedAt.isSome ↔ row.state ≠ .pending
  decidedBy_iff : row.decidedBy.isSome ↔ row.state ≠ .pending
  live : row.state ≠ .expired

/-- The action was not executed, so far. -/
theorem Action.contract_unexecuted {a : Action} (hstatus : a.status ≠ .executed)
    (hnone : a.executedAt = none) : a.Contract := by
  constructor
  · simp [hstatus, hnone]
  · simp [hnone]
  · exact fun h => absurd h hstatus

theorem ActionExecutor.executed_contract (now : Time) (a : Action) (result : List (PyVal × PyVal)) :
    (ActionExecutor.executed now a result).Contract := by
  constructor
  · simp [ActionExecutor.executed]
  · simp [ActionExecutor.executed]
  · exact fun _ => ⟨result, Dict.get?_set_self _ _ _⟩

namespace ApprovalRule.Contract

variable {row : ApprovalRule}

theorem vote (h : row.Contract) (now : Time) {voter : String} (hv : UpTo 128 voter) :
    (row.vote now voter).Contract := by
  unfold ApprovalRule.vote
  split
  · refine ⟨fun v hmem => ?_, ?_, ?_, ?_, ?_, ?_⟩
    · cases hmem
      exact hv
    all_goals simp
  · exact ⟨h.decidedBy_max, h.decisionNote_max, Nat.le_succ_of_le h.rowVersion_ge, h.decidedAt_iff,
      h.decidedBy_iff, h.live⟩

theorem veto (row : ApprovalRule) (now : Time) {reason voter : String} (hr : UpTo 2048 reason)
    (hv : UpTo 128 voter) : (row.veto now reason voter).Contract := by
  have hnote : ∀ note ∈ (if reason = "" then none else some reason), UpTo 2048 note := by
    intro note hmem
    split at hmem
    · cases hmem
    · cases hmem
      exact hr
  refine ⟨fun v hmem => ?_, hnote, ?_, ?_, ?_, ?_⟩
  · cases hmem
    exact hv
  all_goals simp [ApprovalRule.veto]

theorem newRow (env : Env) (a : Action) (rule : QuorumRule) : (newRow env a rule).Contract := by
  refine ⟨?_, ?_, ?_, ?_, ?_, ?_⟩ <;> simp [DecisionPipeline.newRow]

end ApprovalRule.Contract

/-! ## The invariant -/

structure Contracted (s : DecisionPipeline) : Prop where
  actions : ∀ id a, s.actions.byId.get? id = some a → a.Contract
  rows : ∀ id row, s.queue.byId.get? id = some row → row.Contract
  waiting : ∀ id row a, s.queue.byId.get? id = some row → row.state = .pending →
    s.actions.byId.get? id = some a → a.executedAt = none

namespace Contracted

variable {s : DecisionPipeline}

theorem empty : Contracted {} :=
  ⟨fun _ _ h => (by cases h), fun _ _ h => (by cases h), fun _ _ _ h => (by cases h)⟩

theorem calm {t : DecisionPipeline} (hs : Contracted s) (h : Calm s t) : Contracted t := by
  obtain ⟨p, q, rfl⟩ := h
  exact ⟨hs.actions, hs.rows, hs.waiting⟩

theorem logged (hs : Contracted s) (e : AuditLogEntry) : Contracted (s.log e) :=
  ⟨hs.actions, hs.rows, hs.waiting⟩

theorem remember (hs : Contracted s) (key : String × String) (id : String) :
    Contracted (s.remember key id) :=
  ⟨hs.actions, hs.rows, hs.waiting⟩

theorem invoke (hs : Contracted s) (ex : ActionExecutor) (a : Action) :
    Contracted (s.invoke ex a) := by
  unfold DecisionPipeline.invoke
  split
  · exact ⟨hs.actions, hs.rows, hs.waiting⟩
  · exact hs

/-- An action is stored. If its row waits, it was not executed. -/
theorem put (hs : Contracted s) {a : Action} (ha : a.Contract)
    (hw : ∀ row, s.queue.byId.get? a.id.1 = some row → row.state = .pending → a.executedAt = none) :
    Contracted (s.put a) := by
  refine ⟨fun id b hb => ?_, hs.rows, fun id row b hrow hp hb => ?_⟩
  · change (s.actions.byId.set a.id.1 a).get? id = some b at hb
    rw [Dict.get?_set] at hb
    split at hb
    · cases hb
      exact ha
    · exact hs.actions id b hb
  · change (s.actions.byId.set a.id.1 a).get? id = some b at hb
    rw [Dict.get?_set] at hb
    split at hb
    · subst id
      cases hb
      exact hw row hrow hp
    · exact hs.waiting id row b hrow hp hb

/-- A row is stored. If it waits, its action was not executed. -/
theorem setRow {t : DecisionPipeline} (hs : Contracted s) {row : ApprovalRule} (hr : row.Contract)
    (hw : ∀ a, s.actions.byId.get? row.actionId.1 = some a → row.state = .pending →
      a.executedAt = none)
    (hactions : t.actions = s.actions) (hqueue : t.queue.byId = s.queue.byId.set row.actionId.1 row) :
    Contracted t := by
  have hget : ∀ id row', t.queue.byId.get? id = some row' →
      (id = row.actionId.1 ∧ row' = row) ∨ s.queue.byId.get? id = some row' := by
    intro id row' h
    rw [hqueue, Dict.get?_set] at h
    split at h
    · next hid => exact .inl ⟨hid, (Option.some.inj h).symm⟩
    · exact .inr h
  refine ⟨fun id a ha => hs.actions id a (hactions ▸ ha), fun id row' h => ?_,
    fun id row' a h hp ha => ?_⟩
  · rcases hget id row' h with ⟨-, rfl⟩ | h
    · exact hr
    · exact hs.rows id row' h
  · rw [hactions] at ha
    rcases hget id row' h with ⟨rfl, rfl⟩ | h
    · exact hw a ha hp
    · exact hs.waiting id row' a h hp ha

theorem insertRow (hs : Contracted s) {row : ApprovalRule} (hr : row.Contract)
    (hw : ∀ a, s.actions.byId.get? row.actionId.1 = some a → row.state = .pending →
      a.executedAt = none) : Contracted (s.insertRow row) :=
  hs.setRow hr hw rfl rfl

theorem storeRow (hs : Contracted s) {row : ApprovalRule} (hr : row.Contract)
    (hw : ∀ a, s.actions.byId.get? row.actionId.1 = some a → row.state = .pending →
      a.executedAt = none) : Contracted (s.storeRow row) :=
  hs.setRow hr hw rfl rfl

/-- An execution of an action whose row does not wait. -/
theorem finish (hs : Contracted s) (env : Env) {a : Action} (hnone : a.executedAt = none)
    (hrow : ∀ row, s.queue.byId.get? a.id.1 = some row → row.state ≠ .pending) :
    Contracted (finish env a s).2 := by
  have hi := hs.invoke env.executor a
  have hkeep : ∀ row, (s.invoke env.executor a).queue.byId.get? a.id.1 = some row →
      row.state ≠ .pending := by
    unfold DecisionPipeline.invoke
    split <;> exact hrow
  unfold DecisionPipeline.finish
  cases env.executor.outcome a with
  | done result =>
    exact (hi.put (ActionExecutor.executed_contract _ _ _)
      fun row h hp => absurd hp (hkeep row h)).logged _
  | raised e =>
    simp only
    split
    · have hfailed : (a.withStatus .executionFailed env.now).Contract :=
        Action.contract_unexecuted (by simp [Action.withStatus]) hnone
      have hput := hi.put hfailed fun _ _ _ => hnone
      cases e.message with
      | none => exact hput
      | some message => exact hput.logged _
    · exact hi

theorem birth (hs : Contracted s) (env : Env) (p : ActionProposal)
    (hq : s.queue.byId.get? env.actionId.1 = none) : Contracted (birth env p s) := by
  have hstatus : ∀ status, status ≠ .executed →
      ((materializeAction env p).withStatus status env.now).Contract := fun status h =>
    Action.contract_unexecuted h rfl
  have hfirst : (materializeAction env p).Contract :=
    Action.contract_unexecuted (by simp [materializeAction]) rfl
  have hprop : Contracted (proposed env p s) :=
    ((hs.put hfirst fun _ _ _ => rfl).logged _).logged _
  unfold PennyCore.birth
  cases s.decision p with
  | reject =>
    exact ((hprop.put (hstatus .rejected (by decide)) fun _ _ _ => rfl).logged _).remember _ _
  | approvalRequired =>
    have hput := hprop.put (hstatus .pendingApproval (by decide)) fun _ _ _ => rfl
    refine (hput.insertRow (.newRow env _ _) fun a ha _ => ?_).remember _ _
    cases (Dict.get?_set_self _ _ _).symm.trans ha
    rfl
  | auto =>
    have hput := hprop.put (hstatus .pendingExec (by decide)) fun _ _ _ => rfl
    have hfin := hput.finish env (a := (materializeAction env p).withStatus .pendingExec env.now) rfl
      fun row hrow => by
        change s.queue.byId.get? env.actionId.1 = some row at hrow
        rw [hq] at hrow
        cases hrow
    simp only
    split
    · rename_i resolved s' heq
      rw [heq] at hfin
      exact hfin.remember _ _
    · rename_i e s' heq
      rw [heq] at hfin
      exact hfin

theorem vote (hs : Contracted s) (env : Env) {voter : String} {a : Action} {row : ApprovalRule}
    (ha : s.actions.byId.get? row.actionId.1 = some a) (hid : a.id.1 = row.actionId.1)
    (hg : s.queue.byId.get? row.actionId.1 = some row) (hp : row.state = .pending)
    (hlen : UpTo 128 voter) : Contracted (recordVote env a row voter s).2 := by
  have hnone := hs.waiting _ row a hg hp ha
  have hvoted : Contracted (s.storeRow (row.vote env.now voter)) := by
    refine hs.storeRow ((hs.rows _ _ hg).vote env.now hlen) fun b hb _ => ?_
    rw [ApprovalRule.vote_actionId, ha] at hb
    cases hb
    exact hnone
  unfold recordVote
  rw [dif_pos hlen]
  simp only
  split
  · next hlast =>
    have hpromoted : (a.withStatus .pendingExec env.now).Contract :=
      Action.contract_unexecuted (by simp [Action.withStatus]) hnone
    refine ((hvoted.logged _).put hpromoted fun _ _ _ => hnone).finish env hnone fun row' hrow' => ?_
    -- the last vote has approved the row
    change (s.queue.byId.set (row.vote env.now voter).actionId.1 (row.vote env.now voter)).get?
      a.id.1 = some row' at hrow'
    rw [ApprovalRule.vote_actionId, hid, Dict.get?_set_self] at hrow'
    cases hrow'
    rw [ApprovalRule.vote_state, if_pos hlast]
    decide
  · exact hvoted.logged _

theorem veto (hs : Contracted s) (env : Env) {reason voter : String} {a : Action}
    {row : ApprovalRule} (ha : s.actions.byId.get? row.actionId.1 = some a)
    (hg : s.queue.byId.get? row.actionId.1 = some row) (hp : row.state = .pending)
    (hreason : UpTo 2048 reason) (hlen : UpTo 128 voter) :
    Contracted (recordVeto env a row reason voter s).2 := by
  have hnone := hs.waiting _ row a hg hp ha
  have hvetoed : Contracted (s.storeRow (row.veto env.now reason voter)) :=
    hs.storeRow (.veto row env.now hreason hlen) fun _ _ h => nomatch h
  have hrejected : (a.withStatus .rejected env.now).Contract :=
    Action.contract_unexecuted (by simp [Action.withStatus]) hnone
  unfold recordVeto
  rw [dif_pos hlen]
  exact (hvetoed.logged _).put hrejected fun _ _ _ => hnone

end Contracted

theorem Contracted.step {s : DecisionPipeline} (hc : Contracted s) (hs : Sound s) {op : PipelineOp}
    (hf : op.Fresh s) (hn : op.Named) (hb : op.Noted) : Contracted (pipelineStep s op) := by
  rcases hs.step_cases hf with ⟨heq, -⟩ | ⟨env, p, rfl, -, hid, heq⟩ |
    ⟨env, id, voter, expected, a, row, rfl, hl, hg, hv, heq⟩ |
    ⟨env, id, reason, voter, expected, a, row, rfl, hl, hg, hv, heq⟩
  · exact heq ▸ hc.calm (op.configure_calm s)
  · rw [heq]
    exact hc.birth env p (hs.row_fresh hid)
  · rw [heq]
    obtain rfl := hs.queued.key hg
    exact hc.vote env (lookup_some.mp hl).1 (hs.stored hl).1 hg hv.1 hn
  · rw [heq]
    obtain rfl := hs.queued.key hg
    exact hc.veto env (lookup_some.mp hl).1 hg hv.1 hb hn

/-- In every state that the service reaches, all stored actions and all rows of the approval queue pass
the contracts that built them, although no validator has run since. -/
theorem stored_records_valid {rt : ServiceRuntime} {h : List (DecisionPipeline × ServiceOp)}
    {s : DecisionPipeline} (hr : ServiceRun rt h s) :
    (∀ id a, s.actions.byId.get? id = some a → a.Contract) ∧
      ∀ id row, s.queue.byId.get? id = some row → row.Contract := by
  have hboth : Sound s ∧ Contracted s := by
    refine hr.holds (I := fun s => Sound s ∧ Contracted s) ⟨Sound.empty, .empty⟩ fun s op hi hl => ?_
    rcases ServiceOp.step_pipeline rt hl with hsame | ⟨p, hfresh, hnamed, -, hnoted, hstep⟩
    · rw [hsame]
      exact hi
    · rw [hstep]
      exact ⟨hi.1.step hfresh, hi.2.step hi.1 hfresh hnamed hnoted⟩
  exact ⟨hboth.2.actions, hboth.2.rows⟩

theorem stored_records_valid_foreign :
    let s := foreignVote.foldl (serviceStep demoService) {}
    ∃ a row, s.actions.byId.get? (demoEnv ∅).actionId.1 = some a ∧ a.Contract ∧
      s.queue.byId.get? (demoEnv ∅).actionId.1 = some row ∧ row.Contract := by
  intro s
  obtain ⟨hactions, hrows⟩ := stored_records_valid (foreignVote_run demoService)
  have haction : (s.actions.byId.get? (demoEnv ∅).actionId.1).isSome = true := by decide
  have hrow : (s.queue.byId.get? (demoEnv ∅).actionId.1).isSome = true := by decide
  obtain ⟨a, ha⟩ := Option.isSome_iff_exists.mp haction
  obtain ⟨row, hrow⟩ := Option.isSome_iff_exists.mp hrow
  exact ⟨a, row, ha, hactions _ a ha, hrow, hrows _ row hrow⟩

end PennyCore
