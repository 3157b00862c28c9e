import PennyCore.Orchestrator.Lockstep

/-!
# One action per event

The dedup index of the pipeline over whole runs with any voters, as long as the handlers that
`handle_proposal` calls raise only exceptions that it catches (`DedupRun`; the default executors do,
`ActionExecutor.defaultExecutors_catchable`).

* `keyOf s id`: the tenant and the event of the action `id`. Only a birth changes it
  (`keyOf_birth`); a vote, a veto and an execution keep it (`keyOf_recordVote`, `keyOf_finish`).
* `Deduped`: the index holds exactly the actions of the store, each under its key.
* `handle_step`: `handle_proposal` returns one action and leaves its id in the index.
* `proposal_dedup`: what follows for replays.
-/

namespace PennyCore

open Lib DecisionPipeline

/-- What an event is known by. -/
def ActionProposal.key (p : ActionProposal) : String × String := (p.tenantId.1, p.eventId.1)

def Action.key (a : Action) : String × String := (a.tenantId.1, a.eventId.1)

/-- The handlers of a `handle_proposal` raise only what the pipeline catches. -/
def PipelineOp.Handles : PipelineOp → Prop
  | .handleProposal env _ => env.executor.Catchable
  | _ => True

abbrev DedupRun : List (DecisionPipeline × PipelineOp) → DecisionPipeline → Prop :=
  PipelineRun fun _ op => op.Handles

namespace DecisionPipeline

variable {s : DecisionPipeline}

/-- The tenant and the event of an action. -/
def keyOf (s : DecisionPipeline) (id : String) : Option (String × String) :=
  (s.actions.byId.get? id).map Action.key

theorem keyOf_put (s : DecisionPipeline) (a : Action) (id : String) :
    (s.put a).keyOf id = if id = a.id.1 then some a.key else s.keyOf id := by
  show ((s.actions.byId.set a.id.1 a).get? id).map _ = _
  rw [Dict.get?_set]
  split <;> rfl

/-- Storing the next version of an action keeps its key. -/
theorem keyOf_put_same {a : Action} (h : s.keyOf a.id.1 = some a.key) :
    (s.put a).keyOf = s.keyOf := by
  funext id
  rw [keyOf_put]
  split
  · subst id; exact h.symm
  · rfl

theorem invoke_dedup (s : DecisionPipeline) (ex : ActionExecutor) (a : Action) :
    (s.invoke ex a).dedup = s.dedup := by
  unfold invoke; split <;> rfl

theorem keyOf_invoke (s : DecisionPipeline) (ex : ActionExecutor) (a : Action) :
    (s.invoke ex a).keyOf = s.keyOf := by
  unfold keyOf; rw [invoke_actions]

theorem keyOf_finish (env : Env) {a : Action} (h : s.keyOf a.id.1 = some a.key) :
    (finish env a s).2.keyOf = s.keyOf := by
  have hi : (s.invoke env.executor a).keyOf a.id.1 = some a.key := by rw [keyOf_invoke, h]
  unfold finish
  cases env.executor.outcome a with
  | done result =>
    exact (keyOf_put_same (a := ActionExecutor.executed env.now a result) hi).trans
      (keyOf_invoke s _ _)
  | raised e =>
    have hput := (keyOf_put_same (a := a.withStatus .executionFailed env.now) hi).trans
      (keyOf_invoke s _ _)
    simp only
    split
    · cases e.message with
      | none => exact hput
      | some message => exact hput
    · exact keyOf_invoke s _ _

theorem dedup_finish (env : Env) (a : Action) (s : DecisionPipeline) :
    (finish env a s).2.dedup = s.dedup := by
  unfold finish
  cases env.executor.outcome a with
  | done result => exact invoke_dedup s _ _
  | raised e =>
    simp only
    split
    · cases e.message with
      | none => exact invoke_dedup s _ _
      | some message => exact invoke_dedup s _ _
    · exact invoke_dedup s _ _

theorem keyOf_recordVote (env : Env) {a : Action} (row : ApprovalRule) (voter : String)
    (h : s.keyOf a.id.1 = some a.key) : (recordVote env a row voter s).2.keyOf = s.keyOf := by
  unfold recordVote
  split
  · simp only
    split
    · refine (keyOf_finish env (a := a.withStatus .pendingExec env.now) ?_).trans
        (keyOf_put_same (a := a.withStatus .pendingExec env.now) h)
      exact (congrFun (keyOf_put_same (a := a.withStatus .pendingExec env.now) h) a.id.1).trans h
    · rfl
  · rfl

theorem dedup_recordVote (env : Env) (a : Action) (row : ApprovalRule) (voter : String)
    (s : DecisionPipeline) : (recordVote env a row voter s).2.dedup = s.dedup := by
  unfold recordVote
  split
  · simp only
    split
    · rw [dedup_finish]
      rfl
    · rfl
  · rfl

theorem keyOf_recordVeto (env : Env) {a : Action} (row : ApprovalRule) (reason voter : String)
    (h : s.keyOf a.id.1 = some a.key) :
    (recordVeto env a row reason voter s).2.keyOf = s.keyOf := by
  unfold recordVeto
  split
  · exact keyOf_put_same (a := a.withStatus .rejected env.now) h
  · rfl

theorem dedup_recordVeto (env : Env) (a : Action) (row : ApprovalRule) (reason voter : String)
    (s : DecisionPipeline) : (recordVeto env a row reason voter s).2.dedup = s.dedup := by
  unfold recordVeto; split <;> rfl

/-- A birth gives the new action its key. -/
theorem keyOf_birth (env : Env) (p : ActionProposal) (s : DecisionPipeline) (id : String) :
    (birth env p s).keyOf id = if id = env.actionId.1 then some p.key else s.keyOf id := by
  have hput : ∀ status, ((proposed env p s).put ((materializeAction env p).withStatus status
      env.now)).keyOf id = if id = env.actionId.1 then some p.key else s.keyOf id :=
    fun status => by
      have hprop : (proposed env p s).keyOf id =
          if id = env.actionId.1 then some p.key else s.keyOf id :=
        keyOf_put s (materializeAction env p) id
      rw [keyOf_put, hprop, Action.withStatus_id, materializeAction_id]
      by_cases hid : id = env.actionId.1
      · rw [if_pos hid, if_pos hid]
        rfl
      · rw [if_neg hid]
  unfold birth
  cases s.decision p with
  | reject => exact hput .rejected
  | approvalRequired => exact hput .pendingApproval
  | auto =>
    have hself : ((proposed env p s).put ((materializeAction env p).withStatus .pendingExec
        env.now)).keyOf ((materializeAction env p).withStatus .pendingExec env.now).id.1 =
        some ((materializeAction env p).withStatus .pendingExec env.now).key := by
      rw [keyOf_put, if_pos rfl]
    have hfin := congrFun (keyOf_finish env hself) id
    rw [hput] at hfin
    simp only
    split <;> rename_i heq <;> rw [heq] at hfin <;> exact hfin

end DecisionPipeline

/-! ## The invariant -/

/-- The index holds exactly the actions of the store, each under its key. -/
structure Deduped (s : DecisionPipeline) : Prop where
  sound : Sound s
  known : ∀ k ids, s.dedup.get? k = some ids → ∃ id, ids = [id] ∧ s.keyOf id = some k
  indexed : ∀ id k, s.keyOf id = some k → s.dedup.get? k = some [id]

namespace Deduped

variable {s t : DecisionPipeline}

theorem empty : Deduped {} := ⟨Sound.empty, fun _ _ h => (by cases h), fun _ _ h => (by cases h)⟩

theorem of_same (hi : Deduped s) (hs : Sound t) (hk : t.keyOf = s.keyOf) (hd : t.dedup = s.dedup) :
    Deduped t :=
  ⟨hs, fun k ids h => by rw [hk]; exact hi.known k ids (hd ▸ h),
    fun id k h => by rw [hd]; exact hi.indexed id k (by rw [← hk]; exact h)⟩

/-- The index entry of a stored action leads to it. -/
theorem find (hi : Deduped s) {k : String × String} {ids : List String}
    (h : s.dedup.get? k = some ids) :
    ∃ id a, ids = [id] ∧ s.actions.byId.get? id = some a ∧ a.id.1 = id ∧ a.key = k := by
  obtain ⟨id, rfl, hk⟩ := hi.known k ids h
  obtain ⟨a, ha, hkey⟩ := Option.map_eq_some_iff.mp hk
  exact ⟨id, a, rfl, ha, hi.sound.key id a ha, hkey⟩

/-- A replay returns the action of the event as it is now, and changes nothing. -/
theorem replay (hi : Deduped s) (env : Env) {p : ActionProposal} {id : String}
    (h : s.dedup.get? p.key = some [id]) :
    ∃ a, s.actions.byId.get? id = some a ∧ a.id.1 = id ∧ a.key = p.key ∧
      (handleProposal env p).run s = (.ok [a], s) := by
  obtain ⟨id', a, hids, ha, hid, hk⟩ := hi.find h
  cases hids
  exact ⟨a, ha, hid, hk, (handleProposal_known h).trans (storedActions_single ha)⟩

end Deduped

/-- `handle_proposal` returns one action and leaves its id in the index. -/
theorem handle_step {s : DecisionPipeline} (hi : Deduped s) {env : Env} {p : ActionProposal}
    (hf : s.actions.byId.get? env.actionId.1 = none) (hc : env.executor.Catchable) :
    ∃ a, ((handleProposal env p).run s).1 = .ok [a] ∧ a.key = p.key ∧
      ((handleProposal env p).run s).2.dedup.get? p.key = some [a.id.1] ∧
      (s.dedup.get? p.key = none → a.id = env.actionId ∧
        ((handleProposal env p).run s).2.dedup = s.dedup.set p.key [env.actionId.1]) := by
  cases hd : s.dedup.get? p.key with
  | some ids =>
    obtain ⟨id, a, rfl, -⟩ := hi.find hd
    obtain ⟨a, -, hid, hk, hrun⟩ := hi.replay env hd
    rw [hrun]
    exact ⟨a, rfl, hk, by rw [hid]; exact hd, fun h => by cases h⟩
  | none =>
    rw [handleProposal_new env hd (hi.sound.row_fresh hf)]
    cases s.decision p with
    | reject => exact ⟨_, rfl, rfl, Dict.get?_set_self _ _ _, fun _ => ⟨rfl, rfl⟩⟩
    | approvalRequired => exact ⟨_, rfl, rfl, Dict.get?_set_self _ _ _, fun _ => ⟨rfl, rfl⟩⟩
    | auto =>
      obtain ⟨a', s', hfin, hid, ht, hev⟩ := finish_ok env ((materializeAction env p).withStatus
        .pendingExec env.now) ((proposed env p s).put ((materializeAction env p).withStatus
          .pendingExec env.now)) hc
      have hk : a'.key = p.key := Prod.ext (congrArg Subtype.val ht) (congrArg Subtype.val hev)
      have hded := dedup_finish env ((materializeAction env p).withStatus .pendingExec env.now)
        ((proposed env p s).put ((materializeAction env p).withStatus .pendingExec env.now))
      rw [hfin] at hded
      simp only at hded ⊢
      rw [hfin]
      refine ⟨a', rfl, hk, Dict.get?_set_self _ _ _, fun _ => ⟨hid, ?_⟩⟩
      show s'.dedup.set p.key [a'.id.1] = _
      rw [hded, hid]
      rfl

/-- What one step does to the index: it keeps every entry. -/
theorem dedup_step {s : DecisionPipeline} (hi : Deduped s) {op : PipelineOp} (hf : op.Fresh s)
    (hc : op.Handles) : Deduped (pipelineStep s op) ∧
      ∀ k ids, s.dedup.get? k = some ids → (pipelineStep s op).dedup.get? k = some ids := by
  have hs' := hi.sound.step hf
  rcases hi.sound.step_cases hf with ⟨hc, -⟩ | ⟨env, p, rfl, hd, hid, heq⟩ |
    ⟨env, id, voter, expected, a, row, rfl, hl, hg, hv, heq⟩ |
    ⟨env, id, reason, voter, expected, a, row, rfl, hl, hg, hv, heq⟩
  · obtain ⟨pol, quo, heq⟩ := op.configure_calm s
    rw [hc, heq] at hs' ⊢
    exact ⟨hi.of_same hs' rfl rfl, fun k ids h => h⟩
  · have hnone : s.keyOf env.actionId.1 = none := by unfold keyOf; rw [hid]; rfl
    obtain ⟨a, -, -, -, hnew⟩ := handle_step (p := p) hi hid hc
    have hded : (birth env p s).dedup = s.dedup.set p.key [env.actionId.1] := by
      rw [← handleProposal_birth hi.sound hid hd]
      exact (hnew hd).2
    rw [heq] at hs' ⊢
    refine ⟨⟨hs', fun k ids h => ?_, fun id k h => ?_⟩, fun k ids h => ?_⟩
    · rw [hded, Dict.get?_set] at h
      split at h
      · subst k
        cases h
        exact ⟨env.actionId.1, rfl, by rw [keyOf_birth, if_pos rfl]⟩
      · obtain ⟨id, rfl, hk⟩ := hi.known k ids h
        refine ⟨id, rfl, ?_⟩
        rw [keyOf_birth, if_neg]
        · exact hk
        · rintro rfl
          rw [hnone] at hk
          cases hk
    · rw [keyOf_birth] at h
      rw [hded, Dict.get?_set]
      split at h
      · subst id
        cases h
        rw [if_pos rfl]
      · have hk := hi.indexed id k h
        rw [if_neg]
        · exact hk
        · rintro rfl
          rw [show s.dedup.get? p.key = none from hd] at hk
          cases hk
    · rw [hded, Dict.get?_set, if_neg]
      · exact h
      · rintro rfl
        rw [show s.dedup.get? p.key = none from hd] at h
        cases h
  · have hkey : s.keyOf a.id.1 = some a.key := by
      unfold keyOf
      rw [(hi.sound.stored hl).1, (lookup_some.mp hl).1]
      rfl
    rw [heq] at hs' ⊢
    refine ⟨hi.of_same hs' (keyOf_recordVote env row voter hkey) (dedup_recordVote _ _ _ _ _), ?_⟩
    intro k ids h
    rw [dedup_recordVote]
    exact h
  · have hkey : s.keyOf a.id.1 = some a.key := by
      unfold keyOf
      rw [(hi.sound.stored hl).1, (lookup_some.mp hl).1]
      rfl
    rw [heq] at hs' ⊢
    refine ⟨hi.of_same hs' (keyOf_recordVeto env row reason voter hkey)
      (dedup_recordVeto _ _ _ _ _ _), ?_⟩
    intro k ids h
    rw [dedup_recordVeto]
    exact h

/-- The index after a run: it is that of the store, and every event that was handled is in it with
the action that was returned. -/
theorem deduped_run {h : List (DecisionPipeline × PipelineOp)} {s : DecisionPipeline}
    (hr : DedupRun h s) : Deduped s ∧ ∀ s₀ env p, (s₀, .handleProposal env p) ∈ h →
      ∃ a₀, ((handleProposal env p).run s₀).1 = .ok [a₀] ∧
        s.dedup.get? p.key = some [a₀.id.1] := by
  refine hr.invariant (I := fun h s => Deduped s ∧ ∀ s₀ env p, (s₀, .handleProposal env p) ∈ h →
    ∃ a₀, ((handleProposal env p).run s₀).1 = .ok [a₀] ∧ s.dedup.get? p.key = some [a₀.id.1])
    ⟨Deduped.empty, fun _ _ _ h => (by cases h)⟩ fun h s op _ hi hl => ?_
  obtain ⟨hd, hkept⟩ := dedup_step hi.1 hl.1 hl.2
  refine ⟨hd, fun s₀ env p hmem => ?_⟩
  rcases List.mem_append.mp hmem with hmem | hmem
  · obtain ⟨a₀, hok, hin⟩ := hi.2 s₀ env p hmem
    exact ⟨a₀, hok, hkept _ _ hin⟩
  · rw [List.mem_singleton] at hmem
    cases hmem
    obtain ⟨a, hok, -, hin, -⟩ := handle_step (p := p) hi.1 hl.1 hl.2
    refine ⟨a, hok, ?_⟩
    unfold pipelineStep PipelineOp.exec
    simp only [state_of_wrap]
    exact hin

/-- In every state of every run: the index has every action of the store, and there is one action per
tenant and event; a proposal of an event that was
handled before returns the current version of the action that was returned then and changes
nothing, whatever it proposes; every proposal returns an action, and leaves the actions of other
events, with their queue rows, audit rows and handler calls, as they are. Every quorum rule passes
the checks of `enqueue`, and the default executors satisfy what a `DedupRun` asks of handlers. -/
theorem proposal_dedup {h : List (DecisionPipeline × PipelineOp)} {s : DecisionPipeline}
    (hr : DedupRun h s) :
    (∀ id a, s.actions.byId.get? id = some a → s.dedup.get? a.key = some [id] ∧
      ∀ id' a', s.actions.byId.get? id' = some a' → a'.key = a.key → id' = id) ∧
    (∀ s₀ env p, (s₀, .handleProposal env p) ∈ h →
      ∃ a₀ a, ((handleProposal env p).run s₀).1 = .ok [a₀] ∧ a.id = a₀.id ∧ a.key = p.key ∧
        s.actions.byId.get? a.id.1 = some a ∧
        ∀ env' p', p'.key = p.key → (handleProposal env' p').run s = (.ok [a], s)) ∧
    (∀ env p, s.actions.byId.get? env.actionId.1 = none → env.executor.Catchable →
      ∃ a, ((handleProposal env p).run s).1 = .ok [a] ∧ a.key = p.key ∧
        ∀ id b, s.actions.byId.get? id = some b → b.key ≠ p.key →
          id ≠ a.id.1 ∧ ((handleProposal env p).run s).2.slice id = s.slice id) ∧
    (∀ (a t : Str 1 64) (rule : QuorumRule), InMemoryApprovalQueue.enqueueChecks a.1 t.1
      rule.requiredApprovals rule.eligibleApprovers = .ok ()) ∧
    ∀ str, (⟨defaultExecutors str⟩ : ActionExecutor).Catchable := by
  obtain ⟨hi, hhandled⟩ := deduped_run hr
  refine ⟨fun id a ha => ⟨hi.indexed id a.key (by unfold keyOf; rw [ha]; rfl),
    fun id' a' ha' hk => ?_⟩, fun s₀ env p hmem => ?_, fun env p hf hc => ?_,
    enqueueChecks_rule, ActionExecutor.defaultExecutors_catchable⟩
  · have h1 := hi.indexed id a.key (by unfold keyOf; rw [ha]; rfl)
    have h2 := hi.indexed id' a.key (by unfold keyOf; rw [ha', Option.map_some, hk])
    rw [h1] at h2
    cases h2
    rfl
  · obtain ⟨a₀, hok, hin⟩ := hhandled s₀ env p hmem
    obtain ⟨a, ha, hid, hk, -⟩ := hi.replay env hin
    refine ⟨a₀, a, hok, Subtype.ext hid, hk, by rw [hid]; exact ha, fun env' p' hp => ?_⟩
    obtain ⟨a', ha', -, -, hrun⟩ := hi.replay env' (p := p') (by rw [hp]; exact hin)
    rw [ha] at ha'
    cases ha'
    exact hrun
  · obtain ⟨a, hok, hk, -, hnew⟩ := handle_step (p := p) hi hf hc
    cases hd : s.dedup.get? p.key with
    | some ids =>
      obtain ⟨id, -, rfl, -⟩ := hi.find hd
      obtain ⟨a', ha', hid, -, hrun⟩ := hi.replay env hd
      rw [hrun] at hok ⊢
      cases hok
      refine ⟨a, rfl, hk, fun id' b hb hne => ⟨?_, rfl⟩⟩
      rintro rfl
      rw [hid, ha'] at hb
      cases hb
      exact hne hk
    | none =>
      have haid : a.id = env.actionId := (hnew hd).1
      refine ⟨a, hok, hk, fun id b hb hne => ?_⟩
      have hne' : id ≠ env.actionId.1 := by
        rintro rfl
        rw [hf] at hb
        cases hb
      rw [haid, handleProposal_birth hi.sound hf hd]
      exact ⟨hne', slice_birth_other env p s hne'⟩

/-- An event that is delivered twice, with a change of policy in between. -/
def redelivered (str : PyVal → String) : List PipelineOp :=
  let env := demoEnv (defaultExecutors str)
  [.setPolicies "t1" (everything "auto"), .handleProposal env demoProposal,
    .setPolicies "t1" (everything "reject")]

theorem proposal_dedup_redelivered :
    let s := (redelivered fun _ => "").foldl pipelineStep {}
    let env := demoEnv (defaultExecutors fun _ => "")
    ∃ a : Action, (handleProposal env { demoProposal with actionType := .updateStatus }).run s =
      (.ok [a], s) :=
  have hr : DedupRun (Run.trace pipelineStep {} (redelivered fun _ => ""))
      ((redelivered fun _ => "").foldl pipelineStep {}) :=
    Run.ofOps ⟨⟨trivial, trivial⟩, ⟨rfl, ActionExecutor.defaultExecutors_catchable _⟩,
      ⟨trivial, trivial⟩, trivial⟩
  let ⟨_, a, _, _, _, _, hreplay⟩ := (proposal_dedup hr).2.1 _ _ _
    (List.mem_cons_of_mem _ List.mem_cons_self)
  ⟨a, hreplay _ _ rfl⟩

end PennyCore
