import PennyCore.Orchestrator.Lifecycle
import PennyCore.Orchestrator.PipelineInvariant

/-!
# The stores move in lockstep with the lives of the actions

* `Slice`: what the stores hold for one action id. Each write changes the slice of its own action
  (`slice_put`, `slice_log`, …), an execution as `slice_finish` says.
* `Life b id p sl`: the slice `sl` is that of an action at phase `p` of the life born as `b`.
* `birthsIn h`: the births of a run, read off its history.
* `Lockstep`: after every run whose recorded voters have at most 128 characters, each birth has its
  life and no other id has anything. A step starts a life (`life_birth`), moves one
  (`life_vote`, `life_veto`) or leaves them all (`lockstep_step`).
* `gated_execution`: what this says about the handler calls. `status_trail_lockstep`: what it says
  about status, queue row and audit trail.
-/

namespace PennyCore

open Lib DecisionPipeline

/-! ## Slices -/

/-- What the stores hold for one action id; of each handler call, the trail that stood then. -/
structure Slice where
  action : Option Action
  row : Option ApprovalRule
  trail : List TrailRow
  calls : List (List TrailRow)

/-- The slice of an id that was never used. -/
def Slice.blank : Slice := ⟨none, none, [], []⟩

namespace DecisionPipeline

/-- The audit rows of an action. -/
def trailOf (s : DecisionPipeline) (id : String) : List TrailRow :=
  (s.audit.trail id).map AuditLogEntry.row

/-- The handler calls for an action. -/
def callsOf (s : DecisionPipeline) (id : String) : List HandlerCall :=
  s.calls.filter fun c => c.action.id.1 = id

def slice (s : DecisionPipeline) (id : String) : Slice where
  action := s.actions.byId.get? id
  row := s.queue.byId.get? id
  trail := s.trailOf id
  calls := (s.callsOf id).map fun c => c.trail.map AuditLogEntry.row

variable {s : DecisionPipeline}

theorem slice_calm {t : DecisionPipeline} (h : Calm s t) (id : String) : t.slice id = s.slice id := by
  obtain ⟨p, q, rfl⟩ := h
  rfl

theorem slice_remember (s : DecisionPipeline) (key : String × String) (a id : String) :
    (s.remember key a).slice id = s.slice id := rfl

theorem slice_put (s : DecisionPipeline) (a : Action) (id : String) :
    (s.put a).slice id =
      if id = a.id.1 then { s.slice id with action := some a } else s.slice id := by
  show Slice.mk ((s.actions.byId.set a.id.1 a).get? id) _ _ _ = _
  rw [Dict.get?_set]
  split <;> rfl

theorem slice_log (s : DecisionPipeline) (r : TrailRow) (now : Time) (a : Str 1 64) (id : String) :
    (s.log (r.entry now a)).slice id =
      if id = a.1 then { s.slice id with trail := (s.slice id).trail ++ [r] } else s.slice id := by
  have htrail : (s.log (r.entry now a)).trailOf id =
      if id = a.1 then s.trailOf id ++ [r] else s.trailOf id := by
    unfold trailOf log
    simp only
    rw [InMemoryAuditLog.trail_write, TrailRow.actionKey_entry]
    by_cases hid : id = a.1
    · rw [if_pos (congrArg some hid.symm), if_pos hid, List.map_append]
      rfl
    · rw [if_neg fun h => hid (Option.some.inj h).symm, if_neg hid]
  show Slice.mk _ _ ((s.log (r.entry now a)).trailOf id) _ = _
  rw [htrail]
  split <;> rfl

theorem slice_invoke (s : DecisionPipeline) (ex : ActionExecutor) (a : Action) (id : String) :
    (s.invoke ex a).slice id =
      if id = a.id.1 ∧ ex.Invokes a then
        { s.slice id with calls := (s.slice id).calls ++ [(s.slice id).trail] }
      else s.slice id := by
  unfold invoke
  by_cases hc : ex.Invokes a
  · by_cases hid : id = a.id.1
    · subst hid
      simp [hc, slice, callsOf, trailOf]
    · simp [hc, hid, slice, callsOf, trailOf, Ne.symm hid]
  · simp [hc]

theorem slice_storeRow (s : DecisionPipeline) (row : ApprovalRule) (id : String) :
    (s.storeRow row).slice id =
      if id = row.actionId.1 then { s.slice id with row := some row } else s.slice id := by
  show Slice.mk _ ((s.queue.byId.set row.actionId.1 row).get? id) _ _ = _
  rw [Dict.get?_set]
  split <;> rfl

theorem slice_insertRow (s : DecisionPipeline) (row : ApprovalRule) (id : String) :
    (s.insertRow row).slice id =
      if id = row.actionId.1 then { s.slice id with row := some row } else s.slice id := by
  show Slice.mk _ ((s.queue.byId.set row.actionId.1 row).get? id) _ _ = _
  rw [Dict.get?_set]
  split <;> rfl

/-- How the execution of an action ends. -/
def ending (ex : ActionExecutor) (a : Action) : Ending := .of (ex.outcome a)

theorem slice_finish_other (env : Env) {a : Action} (s : DecisionPipeline) {id : String}
    (h : id ≠ a.id.1) : (finish env a s).2.slice id = s.slice id := by
  have hi : (s.invoke env.executor a).slice id = s.slice id := by
    rw [slice_invoke, if_neg fun hc => h hc.1]
  unfold finish
  cases env.executor.outcome a with
  | done result =>
    simp only
    rw [slice_log, if_neg h, slice_put, ActionExecutor.executed_id, if_neg h, hi]
  | raised e =>
    have hput : ((s.invoke env.executor a).put (a.withStatus .executionFailed env.now)).slice id =
        s.slice id := by
      rw [slice_put, Action.withStatus_id, if_neg h, hi]
    simp only
    split
    · cases e.message with
      | none => exact hput
      | some message =>
        simp only
        rw [slice_log, if_neg h, hput]
    · exact hi

/-- The slice after an execution of the stored action `a`. -/
theorem slice_finish (env : Env) {a : Action} (ha : (s.slice a.id.1).action = some a)
    (hst : a.status = .pendingExec) :
    ∃ a', (finish env a s).2.slice a.id.1 =
        { action := some a', row := (s.slice a.id.1).row
          trail := (s.slice a.id.1).trail ++ (ending env.executor a).rows a.tenantId a.eventId
          calls := (s.slice a.id.1).calls ++
            if env.executor.Invokes a then [(s.slice a.id.1).trail] else [] } ∧
      a'.id = a.id ∧ a'.tenantId = a.tenantId ∧ a'.eventId = a.eventId ∧
      a'.actionType = a.actionType ∧ a'.status = (ending env.executor a).status := by
  have hi : (s.invoke env.executor a).slice a.id.1 =
      { s.slice a.id.1 with calls := (s.slice a.id.1).calls ++
          if env.executor.Invokes a then [(s.slice a.id.1).trail] else [] } := by
    rw [slice_invoke]
    by_cases hc : env.executor.Invokes a
    · rw [if_pos ⟨rfl, hc⟩, if_pos hc]
    · rw [if_neg fun h => hc h.2, if_neg hc, List.append_nil]
  unfold finish ending Ending.of
  cases env.executor.outcome a with
  | done result =>
    refine ⟨ActionExecutor.executed env.now a result, ?_, rfl, rfl, rfl, rfl, rfl⟩
    simp only
    rw [slice_log, if_pos rfl, slice_put, ActionExecutor.executed_id, if_pos rfl, hi]
    rfl
  | raised e =>
    by_cases he : e.isException = true
    · refine ⟨a.withStatus .executionFailed env.now, ?_, rfl, rfl, rfl, rfl, ?_⟩
      · cases hm : e.message with
        | none =>
          simp only [he, hm, ↓reduceIte]
          rw [slice_put, Action.withStatus_id, if_pos rfl, hi, Ending.rows, List.append_nil]
        | some message =>
          simp only [he, hm, ↓reduceIte]
          rw [slice_log, if_pos rfl, slice_put, Action.withStatus_id, if_pos rfl, hi]
          rfl
      · simp only [he, ↓reduceIte]
        cases e.message <;> rfl
    · refine ⟨a, ?_, rfl, rfl, rfl, rfl, ?_⟩
      · simp only [he, Bool.false_eq_true, ↓reduceIte]
        rw [hi, Ending.rows, List.append_nil, ← ha]
      · simp only [he, Bool.false_eq_true, ↓reduceIte]
        exact hst

end DecisionPipeline

/-! ## Lives -/

/-- The slice is that of an action at phase `p` of the life born as `b`. -/
structure Life (b : Birth) (id : String) (p : Phase) (sl : Slice) : Prop where
  action : ∃ a, sl.action = some a ∧ a.id.1 = id ∧ a.tenantId = b.proposal.tenantId ∧
    a.eventId = b.proposal.eventId ∧ a.actionType = b.proposal.actionType ∧ a.status = p.status
  row : match p.ballot with
    | none => sl.row = none
    | some (state, voters) => ∃ r, sl.row = some r ∧ r.actionId.1 = id ∧ r.state = state ∧
        r.approvals = voters ∧ r.requiredApprovals = b.rule.requiredApprovals ∧
        r.eligibleApprovers = b.rule.eligibleApprovers
  trail : sl.trail = p.trail b
  calls : sl.calls = p.calls b
  valid : p.Valid b

namespace Life

variable {b : Birth} {id : String} {p : Phase} {sl : Slice}

/-- A pending row is the row of a vote in progress. -/
theorem voting (h : Life b id p sl) {row : ApprovalRule} (hrow : sl.row = some row)
    (hs : row.state = .pending) :
    ∃ voters, p = .voting voters ∧ row.approvals = voters.map Subtype.val ∧
      row.requiredApprovals = b.rule.requiredApprovals ∧
      row.eligibleApprovers = b.rule.eligibleApprovers ∧ row.actionId.1 = id := by
  have hb := h.row
  have hstate : ∀ (st : ApprovalState) (voters : List String),
      (∃ r, sl.row = some r ∧ r.actionId.1 = id ∧ r.state = st ∧ r.approvals = voters ∧
        r.requiredApprovals = b.rule.requiredApprovals ∧
        r.eligibleApprovers = b.rule.eligibleApprovers) →
      row.state = st ∧ row.approvals = voters ∧
        row.requiredApprovals = b.rule.requiredApprovals ∧
        row.eligibleApprovers = b.rule.eligibleApprovers ∧ row.actionId.1 = id := by
    rintro st voters ⟨r, hr, h1, h2, h3, h4, h5⟩
    rw [hrow] at hr
    cases hr
    exact ⟨h2, h3, h4, h5, h1⟩
  cases p with
  | refused => rw [show sl.row = none from hb] at hrow; cases hrow
  | automatic called e => rw [show sl.row = none from hb] at hrow; cases hrow
  | voting voters => exact ⟨voters, rfl, (hstate _ _ hb).2⟩
  | approved voters called e =>
    have hst := (hstate .approved (voters.map Subtype.val) hb).1
    rw [hs] at hst
    cases hst
  | vetoed voters v reason =>
    have hst := (hstate .rejected (voters.map Subtype.val) hb).1
    rw [hs] at hst
    cases hst

/-- The electorate with one more voter whom the row accepts. -/
theorem electorate_snoc {voters : List (Str 0 128)} {row : ApprovalRule} {voter : String}
    (hel : b.Electorate voters) (hap : row.approvals = voters.map Subtype.val)
    (hpool : row.eligibleApprovers = b.rule.eligibleApprovers) (hv : row.Votable voter)
    (hlen : UpTo 128 voter) : b.Electorate (voters ++ [⟨voter, Nat.zero_le _, hlen⟩]) := by
  refine ⟨?_, fun pool hp v hmem => ?_⟩
  · rw [List.map_append, List.map_cons, List.map_nil, ← hap]
    have hnot : voter ∉ row.approvals := hv.2.2
    refine List.nodup_append.mpr ⟨hap ▸ hel.nodup, List.nodup_singleton _, fun x hx y hy hxy => ?_⟩
    rw [List.mem_singleton] at hy
    subst hxy hy
    exact hnot hx
  · rcases List.mem_append.mp hmem with hmem | hmem
    · exact hel.inPool pool hp v hmem
    · rw [List.mem_singleton.mp hmem]
      exact hv.2.1 pool (hpool ▸ hp)

end Life

/-! ## Births -/

/-- The birth, if the operation handled a new event. -/
def birthOf : DecisionPipeline × PipelineOp → Option (String × Birth)
  | (s, .handleProposal env p) =>
    if s.dedup.get? (p.tenantId.1, p.eventId.1) = none then
      some (env.actionId.1, ⟨p, s.decision p, s.quorumRule p⟩)
    else none
  | _ => none

/-- The actions that were made, in order, each with its birth. -/
def birthsIn (h : List (DecisionPipeline × PipelineOp)) : List (String × Birth) :=
  h.filterMap birthOf

theorem birthsIn_snoc (h : List (DecisionPipeline × PipelineOp)) (x : DecisionPipeline × PipelineOp) :
    birthsIn (h ++ [x]) = birthsIn h ++ (birthOf x).toList := by
  unfold birthsIn
  rw [List.filterMap_append]
  cases hx : birthOf x <;> simp [hx]

/-- What the operation's handlers raise is caught. -/
def PipelineOp.Catchable : PipelineOp → Prop
  | .handleProposal env _ => env.executor.Catchable
  | .approveAction env _ _ _ => env.executor.Catchable
  | _ => True

/-- The voter fits the audit log, unless the vote is refused anyway. -/
def PipelineOp.Recordable (s : DecisionPipeline) : PipelineOp → Prop
  | .approveAction _ id voter expected => UpTo 128 voter ∨ ¬ AcceptsVote s id voter expected
  | .rejectAction _ id _ voter expected => UpTo 128 voter ∨ ¬ AcceptsVeto s id voter expected
  | _ => True

/-- The operation executes the action `id`, and `o` is what the execution comes to. -/
inductive Executes (id : String) (o : Outcome) : DecisionPipeline × PipelineOp → Prop
  | automatic {s : DecisionPipeline} {env : Env} {p : ActionProposal} :
      s.dedup.get? (p.tenantId.1, p.eventId.1) = none → s.decision p = .auto → env.actionId.1 = id →
      env.executor.outcome ((materializeAction env p).withStatus .pendingExec env.now) = o →
      Executes id o (s, .handleProposal env p)
  | approved {s : DecisionPipeline} {env : Env} {voter : String} {expected : Option String}
      {a : Action} {row : ApprovalRule} : s.lookup id expected = some a →
      s.queue.byId.get? id = some row → row.Votable voter → row.LastVote →
      env.executor.outcome (a.withStatus .pendingExec env.now) = o →
      Executes id o (s, .approveAction env id voter expected)

/-- Handlers whose exceptions are caught raise within `Exception`. -/
theorem Executes.isException {id : String} {o : Outcome} {x : DecisionPipeline × PipelineOp}
    (h : Executes id o x) (hc : x.2.Catchable) (e : Raised) (ho : o = .raised e) :
    e.isException = true := by
  cases h with
  | automatic _ _ _ hout => exact (ActionExecutor.Catchable.outcome hc (hout.trans ho)).1
  | approved _ _ _ _ hout => exact (ActionExecutor.Catchable.outcome hc (hout.trans ho)).1

/-- The execution that ended the phase is one of the run. -/
def EndedIn (h : List (DecisionPipeline × PipelineOp)) (id : String) (p : Phase) : Prop :=
  ∀ e ∈ p.ending, ∃ x ∈ h, ∃ o, Executes id o x ∧ e = .of o

/-- The birth of an action has a life at some phase, whose execution, if any, is one of the run. -/
def Lives (h : List (DecisionPipeline × PipelineOp)) (s : DecisionPipeline) (id : String)
    (b : Birth) : Prop :=
  ∃ p, Life b id p (s.slice id) ∧ EndedIn h id p

/-- The invariant (module doc). -/
structure Lockstep (h : List (DecisionPipeline × PipelineOp)) (s : DecisionPipeline) : Prop where
  sound : Sound s
  born : ∀ id b, (id, b) ∈ birthsIn h → Lives h s id b
  unborn : ∀ id, (∀ b, (id, b) ∉ birthsIn h) → s.slice id = Slice.blank
  once : ((birthsIn h).map Prod.fst).Nodup

namespace Lockstep

variable {h : List (DecisionPipeline × PipelineOp)} {s t : DecisionPipeline}

theorem start : Lockstep [] {} :=
  ⟨Sound.empty, fun _ _ hb => (by cases hb), fun _ _ => rfl, List.nodup_nil⟩

/-- A life that the last operation did not touch. -/
theorem lives_frame {id : String} {b : Birth} (hl : Lives h s id b)
    (heq : t.slice id = s.slice id) (x : DecisionPipeline × PipelineOp) :
    Lives (h ++ [x]) t id b := by
  obtain ⟨p, hp, hi⟩ := hl
  refine ⟨p, heq ▸ hp, fun e he => ?_⟩
  obtain ⟨y, hy, hex⟩ := hi e he
  exact ⟨y, List.mem_append_left _ hy, hex⟩

/-- An id with an action is that of a birth. -/
theorem birth_of_action (hi : Lockstep h s) {id : String} {a : Action}
    (ha : s.actions.byId.get? id = some a) : ∃ b, (id, b) ∈ birthsIn h := by
  by_contra hno
  have hblank := hi.unborn id fun b hb => hno ⟨b, hb⟩
  have hslice : (s.slice id).action = some a := ha
  rw [hblank] at hslice
  cases hslice

/-- A step that touches no slice but that of `id`, which has a birth already. -/
theorem frame (hi : Lockstep h s) {x : DecisionPipeline × PipelineOp} (hs : Sound t)
    (hx : birthOf x = none) (id : String) (hframe : ∀ id', id' ≠ id → t.slice id' = s.slice id')
    (hid : ∀ b, (id, b) ∈ birthsIn h → Lives (h ++ [x]) t id b)
    (hborn : ∃ b, (id, b) ∈ birthsIn h) : Lockstep (h ++ [x]) t := by
  have heq : birthsIn (h ++ [x]) = birthsIn h := by
    rw [birthsIn_snoc, hx]; exact List.append_nil _
  refine ⟨hs, fun id' b hb => ?_, fun id' hno => ?_, by rw [heq]; exact hi.once⟩
  · rw [heq] at hb
    by_cases hne : id' = id
    · subst hne
      exact hid b hb
    · exact lives_frame (hi.born id' b hb) (hframe id' hne) x
  · rw [heq] at hno
    have hne : id' ≠ id := by
      rintro rfl
      obtain ⟨b, hb⟩ := hborn
      exact hno b hb
    rw [hframe id' hne]
    exact hi.unborn id' hno

/-- A vote or a veto that was looked up and recorded: it touches the slice of its action only. -/
theorem decided (hi : Lockstep h s) {x : DecisionPipeline × PipelineOp} (hs : Sound t)
    (hx : birthOf x = none) {id : String} {expected : Option String} {a : Action} {row : ApprovalRule}
    (hl : s.lookup id expected = some a) (hg : s.queue.byId.get? id = some row)
    (hother : ∀ id', id' ≠ a.id.1 → id' ≠ row.actionId.1 → t.slice id' = s.slice id')
    (hown : ∀ b, Lives h s id b → Lives (h ++ [x]) t id b) : Lockstep (h ++ [x]) t := by
  have ha := (lookup_some.mp hl).1
  have haid := hi.sound.key id a ha
  have hrid := hi.sound.queued.key hg
  refine hi.frame hs hx id (fun id' hne => ?_) (fun b hb => hown b (hi.born id b hb))
    (hi.birth_of_action ha)
  exact hother id' (by rw [haid]; exact hne) (by rw [hrid]; exact hne)

end Lockstep

/-! ## The first phase -/

theorem slice_proposed (env : Env) (p : ActionProposal) (s : DecisionPipeline) (id : String) :
    (proposed env p s).slice id =
      if id = env.actionId.1 then
        { s.slice id with
          action := some (materializeAction env p)
          trail := (s.slice id).trail ++ [.proposal p, .decision p (s.decision p)] }
      else s.slice id := by
  unfold proposed
  rw [slice_log, slice_log, slice_put, materializeAction_id]
  by_cases hid : id = env.actionId.1
  · simp only [hid, ↓reduceIte, List.append_assoc]
    rfl
  · rw [if_neg hid, if_neg hid, if_neg hid, if_neg hid]

theorem slice_birth_other (env : Env) (p : ActionProposal) (s : DecisionPipeline) {id : String}
    (h : id ≠ env.actionId.1) : (birth env p s).slice id = s.slice id := by
  have hprop : (proposed env p s).slice id = s.slice id := by rw [slice_proposed, if_neg h]
  have hput : ∀ status, ((proposed env p s).put ((materializeAction env p).withStatus status
      env.now)).slice id = s.slice id := fun status => by
    rw [slice_put, Action.withStatus_id, materializeAction_id, if_neg h, hprop]
  unfold birth
  cases s.decision p with
  | reject =>
    simp only
    rw [slice_remember, slice_log, if_neg h, hput]
  | approvalRequired =>
    simp only
    rw [slice_remember, slice_insertRow, newRow_actionId, Action.withStatus_id,
      materializeAction_id, if_neg h, hput]
  | auto =>
    have hfin := slice_finish_other env (a := (materializeAction env p).withStatus .pendingExec
      env.now) ((proposed env p s).put ((materializeAction env p).withStatus .pendingExec env.now)) h
    rw [hput] at hfin
    simp only
    split <;> rename_i heq <;> rw [heq] at hfin
    · rw [slice_remember, hfin]
    · exact hfin

/-- A new event starts a life. -/
theorem life_birth (env : Env) (p : ActionProposal) {s : DecisionPipeline}
    (hblank : s.slice env.actionId.1 = Slice.blank) :
    ∃ ph, Phase.Start ⟨p, s.decision p, s.quorumRule p⟩ ph ∧
      Life ⟨p, s.decision p, s.quorumRule p⟩ env.actionId.1 ph
        ((birth env p s).slice env.actionId.1) ∧
      ∀ e ∈ ph.ending, s.decision p = .auto ∧ e = ending env.executor
        ((materializeAction env p).withStatus .pendingExec env.now) := by
  -- the slice once the action is stored with its next status
  have hput : ∀ status, ((proposed env p s).put ((materializeAction env p).withStatus status
      env.now)).slice env.actionId.1 =
      ⟨some ((materializeAction env p).withStatus status env.now), none,
        [.proposal p, .decision p (s.decision p)], []⟩ := fun status => by
    rw [slice_put, Action.withStatus_id, materializeAction_id, if_pos rfl, slice_proposed,
      if_pos rfl, hblank]
    rfl
  unfold birth
  cases hd : s.decision p with
  | reject =>
    rw [hd] at hput
    refine ⟨.refused, .refused rfl, ?_, fun e he => nomatch he⟩
    simp only
    rw [slice_remember, slice_log, if_pos rfl, hput]
    exact ⟨⟨_, rfl, rfl, rfl, rfl, rfl, rfl⟩, rfl, rfl, rfl, rfl⟩
  | approvalRequired =>
    rw [hd] at hput
    refine ⟨.voting [], .voting rfl, ?_, fun e he => nomatch he⟩
    have hstart := (Phase.Start.voting (b := ⟨p, .approvalRequired, s.quorumRule p⟩) rfl).valid
    simp only
    rw [slice_remember, slice_insertRow, newRow_actionId, Action.withStatus_id,
      materializeAction_id, if_pos rfl, hput]
    exact ⟨⟨_, rfl, rfl, rfl, rfl, rfl, rfl⟩, ⟨_, rfl, rfl, rfl, rfl, rfl, rfl⟩,
      (List.append_nil _).symm, rfl, hstart⟩
  | auto =>
    rw [hd] at hput
    -- the executed action keeps the id, whatever its ending
    obtain ⟨a', hsl, hid, ht, hev, hty, hst⟩ := slice_finish (s := (proposed env p s).put
      ((materializeAction env p).withStatus .pendingExec env.now)) env
      (a := (materializeAction env p).withStatus .pendingExec env.now)
      (congrArg Slice.action (hput .pendingExec)) rfl
    rw [Action.withStatus_id, materializeAction_id, hput] at hsl
    refine ⟨.automatic (decide (env.executor.Invokes ((materializeAction env p).withStatus
      .pendingExec env.now))) (ending env.executor ((materializeAction env p).withStatus
        .pendingExec env.now)), .automatic rfl, ?_, fun e he => ⟨rfl, (Option.some.inj he).symm⟩⟩
    · have hlife : Life ⟨p, .auto, s.quorumRule p⟩ env.actionId.1 (.automatic
          (decide (env.executor.Invokes ((materializeAction env p).withStatus .pendingExec env.now)))
          (ending env.executor ((materializeAction env p).withStatus .pendingExec env.now)))
          ((finish env ((materializeAction env p).withStatus .pendingExec env.now)
            ((proposed env p s).put ((materializeAction env p).withStatus .pendingExec
              env.now))).2.slice env.actionId.1) := by
        rw [hsl]
        refine ⟨⟨a', rfl, congrArg Subtype.val hid, ht, hev, hty, hst⟩, rfl, rfl, ?_, rfl⟩
        by_cases hc : env.executor.Invokes ((materializeAction env p).withStatus .pendingExec
          env.now)
        · simp only [hc, ↓reduceIte, decide_true]
          rfl
        · simp only [hc, ↓reduceIte, decide_false]
          rfl
      simp only
      split <;> rename_i heq <;> rw [heq] at hlife
      · rw [slice_remember]
        exact hlife
      · exact hlife

/-! ## The steps of a life -/

/-- The action that a lookup finds is that of the life. -/
theorem Life.looked {b : Birth} {id : String} {p : Phase} {s : DecisionPipeline}
    {expected : Option String} {a : Action} (h : Life b id p (s.slice id))
    (hl : s.lookup id expected = some a) : a.id.1 = id ∧ a.tenantId = b.proposal.tenantId ∧
      a.eventId = b.proposal.eventId ∧ a.actionType = b.proposal.actionType ∧
      a.status = p.status := by
  obtain ⟨a', ha', hrest⟩ := h.action
  have ha : (s.slice id).action = some a := (lookup_some.mp hl).1
  rw [ha] at ha'
  cases ha'
  exact hrest

theorem slice_recordVote_other (env : Env) {a : Action} {row : ApprovalRule} (voter : String)
    (s : DecisionPipeline) {id : String} (ha : id ≠ a.id.1) (hr : id ≠ row.actionId.1) :
    (recordVote env a row voter s).2.slice id = s.slice id := by
  have hstore : (s.storeRow (row.vote env.now voter)).slice id = s.slice id := by
    rw [slice_storeRow, ApprovalRule.vote_actionId, if_neg hr]
  unfold recordVote
  split
  · simp only
    split
    · rw [slice_finish_other env _ (by exact ha), slice_put, Action.withStatus_id, if_neg ha,
        slice_log, if_neg ha, hstore]
    · rw [slice_log, if_neg ha, hstore]
  · exact hstore

theorem slice_recordVeto_other (env : Env) {a : Action} {row : ApprovalRule}
    (reason voter : String) (s : DecisionPipeline) {id : String} (ha : id ≠ a.id.1)
    (hr : id ≠ row.actionId.1) : (recordVeto env a row reason voter s).2.slice id = s.slice id := by
  have hstore : (s.storeRow (row.veto env.now reason voter)).slice id = s.slice id := by
    rw [slice_storeRow, if_neg (show ¬ id = (row.veto env.now reason voter).actionId.1 from hr)]
  unfold recordVeto
  split
  · simp only
    rw [slice_put, Action.withStatus_id, if_neg ha, slice_log, if_neg ha, hstore]
  · exact hstore

/-- An accepted vote moves the life of its action. -/
theorem life_vote {b : Birth} {id : String} {p : Phase} {s : DecisionPipeline} (env : Env)
    {voter : String} {expected : Option String} {a : Action} {row : ApprovalRule}
    (h : Life b id p (s.slice id)) (hl : s.lookup id expected = some a)
    (hg : s.queue.byId.get? id = some row) (hv : row.Votable voter) (hlen : UpTo 128 voter) :
    ∃ p', Phase.Step b p p' ∧ Life b id p' ((recordVote env a row voter s).2.slice id) ∧
      ∀ e ∈ p'.ending, row.LastVote ∧ e = ending env.executor (a.withStatus .pendingExec env.now) := by
  obtain ⟨haid, hat, hae, hay, hast⟩ := h.looked hl
  obtain ⟨voters, rfl, hap, hreq, hpool, hrid⟩ := h.voting hg hv.1
  obtain ⟨hd, hel, hlt⟩ := h.valid
  have hcount : row.approvals.length = voters.length := by rw [hap, List.length_map]
  have hel' := Life.electorate_snoc hel hap hpool hv hlen
  have hlast : row.LastVote ↔ (voters.length : Int) + 1 = b.rule.requiredApprovals := by
    unfold ApprovalRule.LastVote
    rw [hcount, hreq]
    omega
  -- the row that is logged is the next ballot of the life
  have hballot : TrailRow.approval a.tenantId a.eventId ⟨voter, Nat.zero_le _, hlen⟩ a.status
      (row.approvals.length + 1) row.requiredApprovals (decide row.LastVote) =
      b.ballot ⟨voter, Nat.zero_le _, hlen⟩ voters.length := by
    unfold Birth.ballot
    rw [hat, hae, hast, hcount, hreq, decide_eq_decide.mpr hlast]
    rfl
  have hlogged : ((s.storeRow (row.vote env.now voter)).log ((b.ballot ⟨voter, Nat.zero_le _, hlen⟩
      voters.length).entry env.now a.id)).slice id =
      { s.slice id with
        row := some (row.vote env.now voter)
        trail := (s.slice id).trail ++ [b.ballot ⟨voter, Nat.zero_le _, hlen⟩ voters.length] } := by
    rw [slice_log, if_pos haid.symm, slice_storeRow, ApprovalRule.vote_actionId, if_pos hrid.symm]
  have htrail : (s.slice id).trail ++ [b.ballot ⟨voter, Nat.zero_le _, hlen⟩ voters.length] =
      b.head ++ b.ballots (voters ++ [⟨voter, Nat.zero_le _, hlen⟩]) := by
    rw [h.trail, Birth.ballots_snoc, ← List.append_assoc]
    rfl
  have hrow : ∀ state, (row.vote env.now voter).state = state →
      ∃ r, some (row.vote env.now voter) = some r ∧ r.actionId.1 = id ∧ r.state = state ∧
        r.approvals = (voters ++ [(⟨voter, Nat.zero_le _, hlen⟩ : Str 0 128)]).map Subtype.val ∧
        r.requiredApprovals = b.rule.requiredApprovals ∧
        r.eligibleApprovers = b.rule.eligibleApprovers := fun state hst =>
    ⟨_, rfl, by simpa using hrid, hst, by simp [hap], by simpa using hreq, by simpa using hpool⟩
  unfold recordVote
  rw [dif_pos hlen, hballot]
  simp only
  by_cases hl' : row.LastVote
  · rw [if_pos hl']
    have hput : (((s.storeRow (row.vote env.now voter)).log ((b.ballot ⟨voter, Nat.zero_le _,
        hlen⟩ voters.length).entry env.now a.id)).put (a.withStatus .pendingExec env.now)).slice id =
        { action := some (a.withStatus .pendingExec env.now)
          row := some (row.vote env.now voter)
          trail := b.head ++ b.ballots (voters ++ [⟨voter, Nat.zero_le _, hlen⟩])
          calls := [] } := by
      rw [slice_put, Action.withStatus_id, if_pos haid.symm, hlogged, htrail]
      exact congrArg (Slice.mk _ _ _) h.calls
    subst haid
    obtain ⟨a', hsl, hid', ht', hev', hty', hst'⟩ := slice_finish env
      (a := a.withStatus .pendingExec env.now) (congrArg Slice.action hput) rfl
    rw [Action.withStatus_id, hput] at hsl
    refine ⟨.approved (voters ++ [⟨voter, Nat.zero_le _, hlen⟩])
      (decide (env.executor.Invokes (a.withStatus .pendingExec env.now)))
      (ending env.executor (a.withStatus .pendingExec env.now)), .approve hel' (hlast.mp hl'), ?_,
      fun e he => ⟨hl', (Option.some.inj he).symm⟩⟩
    · rw [hsl]
      refine ⟨⟨a', rfl, congrArg Subtype.val hid', ht'.trans hat, hev'.trans hae, hty'.trans hay,
        hst'⟩, hrow .approved ?_, ?_, ?_, (Phase.Step.approve hel' (hlast.mp hl')).valid
        ⟨hd, hel, hlt⟩⟩
      · rw [ApprovalRule.vote_state, if_pos hl']
      · show _ ++ Ending.rows a.tenantId a.eventId _ = _
        rw [hat, hae]
        rfl
      · by_cases hc : env.executor.Invokes (a.withStatus .pendingExec env.now)
        · simp only [hc, ↓reduceIte, decide_true]
          rfl
        · simp only [hc, ↓reduceIte, decide_false]
          rfl
  · rw [if_neg hl', hlogged]
    have hlt' : (voters.length : Int) + 1 < b.rule.requiredApprovals := by
      have hne : ¬ (voters.length : Int) + 1 = b.rule.requiredApprovals :=
        fun heq => hl' (hlast.mpr heq)
      omega
    refine ⟨.voting (voters ++ [⟨voter, Nat.zero_le _, hlen⟩]), .vote hel' hlt', ?_,
      fun e he => nomatch he⟩
    refine ⟨h.action, hrow .pending ?_, htrail, h.calls,
      (Phase.Step.vote hel' hlt').valid ⟨hd, hel, hlt⟩⟩
    rw [ApprovalRule.vote_state, if_neg hl', hv.1]

/-- An accepted veto ends the life of its action. -/
theorem life_veto {b : Birth} {id : String} {p : Phase} {s : DecisionPipeline} (env : Env)
    {reason voter : String} {expected : Option String} {a : Action} {row : ApprovalRule}
    (h : Life b id p (s.slice id)) (hl : s.lookup id expected = some a)
    (hg : s.queue.byId.get? id = some row) (hv : row.Vetoable voter) (hlen : UpTo 128 voter) :
    ∃ p', Phase.Step b p p' ∧ Life b id p' ((recordVeto env a row reason voter s).2.slice id) ∧
      p'.ending = none := by
  obtain ⟨haid, hat, hae, hay, hast⟩ := h.looked hl
  obtain ⟨voters, rfl, hap, hreq, hpool, hrid⟩ := h.voting hg hv.1
  have hslice : (recordVeto env a row reason voter s).2.slice id =
      { action := some (a.withStatus .rejected env.now)
        row := some (row.veto env.now reason voter)
        trail := (s.slice id).trail ++ [.veto a.tenantId a.eventId ⟨voter, Nat.zero_le _, hlen⟩
          a.status reason]
        calls := (s.slice id).calls } := by
    unfold recordVeto
    rw [dif_pos hlen]
    simp only
    rw [slice_put, Action.withStatus_id, if_pos haid.symm, slice_log, if_pos haid.symm,
      slice_storeRow, if_pos (show id = (row.veto env.now reason voter).actionId.1 from hrid.symm)]
  refine ⟨.vetoed voters ⟨voter, Nat.zero_le _, hlen⟩ reason, .veto, ?_, rfl⟩
  rw [hslice]
  refine ⟨⟨_, rfl, haid, hat, hae, hay, rfl⟩, ⟨_, rfl, hrid, rfl, hap, hreq, hpool⟩, ?_, h.calls,
    Phase.Step.veto.valid h.valid⟩
  show (s.slice id).trail ++ _ = _
  rw [h.trail, hat, hae, hast]
  rfl

/-! ## The simulation -/

/-- The operations whose voters fit the audit log. -/
abbrev RecordableRun : List (DecisionPipeline × PipelineOp) → DecisionPipeline → Prop :=
  PipelineRun fun s op => op.Recordable s

/-- One operation starts a life, moves one, or leaves all of them. -/
theorem lockstep_step {h : List (DecisionPipeline × PipelineOp)} {s : DecisionPipeline}
    (hi : Lockstep h s) {op : PipelineOp} (hf : op.Fresh s) (hrec : op.Recordable s) :
    Lockstep (h ++ [(s, op)]) (pipelineStep s op) := by
  have hs' := hi.sound.step hf
  rcases hi.sound.step_cases hf with ⟨hc, hknown⟩ | ⟨env, p, rfl, hd, hid, heq⟩ |
    ⟨env, id, voter, expected, a, row, rfl, hl, hg, hv, heq⟩ |
    ⟨env, id, reason, voter, expected, a, row, rfl, hl, hg, hv, heq⟩
  · have hx : birthOf (s, op) = none := by
      cases op with
      | handleProposal env p =>
        obtain ⟨ids, hids⟩ := hknown env p rfl
        exact if_neg fun hno => by rw [hids] at hno; cases hno
      | _ => rfl
    have heq : birthsIn (h ++ [(s, op)]) = birthsIn h := by
      rw [birthsIn_snoc, hx]; exact List.append_nil _
    have hcalm : Calm s (pipelineStep s op) := hc ▸ op.configure_calm s
    exact ⟨hs', fun id b hb => Lockstep.lives_frame (hi.born id b (heq ▸ hb)) (slice_calm hcalm id)
      _, fun id hno => (slice_calm hcalm id).trans (hi.unborn id (heq ▸ hno)), heq ▸ hi.once⟩
  · -- the new id is that of no earlier birth
    have hnew : ∀ b, (env.actionId.1, b) ∉ birthsIn h := fun b hb => by
      obtain ⟨ph, hlife, -⟩ := hi.born _ b hb
      obtain ⟨a, ha, -⟩ := hlife.action
      rw [show (s.slice env.actionId.1).action = none from hid] at ha
      cases ha
    have hx : birthOf (s, .handleProposal env p) =
        some (env.actionId.1, ⟨p, s.decision p, s.quorumRule p⟩) := if_pos hd
    have hbirths : birthsIn (h ++ [(s, .handleProposal env p)]) =
        birthsIn h ++ [(env.actionId.1, ⟨p, s.decision p, s.quorumRule p⟩)] := by
      rw [birthsIn_snoc, hx]; rfl
    obtain ⟨ph, -, hlife, hint⟩ := life_birth env p (hi.unborn _ hnew)
    refine ⟨hs', fun id b hb => ?_, fun id hno => ?_, ?_⟩
    · rw [hbirths, List.mem_append, List.mem_singleton] at hb
      rcases hb with hb | hb
      · have hne : id ≠ env.actionId.1 := fun e => hnew b (e ▸ hb)
        refine Lockstep.lives_frame (hi.born id b hb) ?_ _
        rw [heq, slice_birth_other env p s hne]
      · cases hb
        refine ⟨ph, heq ▸ hlife, fun e he => ?_⟩
        obtain ⟨hauto, hend⟩ := hint e he
        exact ⟨_, List.mem_append_right _ (List.mem_singleton_self _), _,
          .automatic hd hauto rfl rfl, hend⟩
    · rw [hbirths] at hno
      have hne : id ≠ env.actionId.1 := by
        rintro rfl
        exact hno _ (List.mem_append_right _ (List.mem_singleton_self _))
      rw [heq, slice_birth_other env p s hne]
      exact hi.unborn id fun b hb => hno b (List.mem_append_left _ hb)
    · rw [hbirths, List.map_append, List.map_cons, List.map_nil]
      refine List.nodup_append.mpr ⟨hi.once, List.nodup_singleton _, fun x hx y hy hxy => ?_⟩
      rw [List.mem_singleton] at hy
      subst hxy hy
      obtain ⟨⟨id, b⟩, hb, rfl⟩ := List.mem_map.mp hx
      exact hnew b hb
  · have hlen : UpTo 128 voter := hrec.resolve_right fun hno => hno ⟨a, row, hl, hg, hv⟩
    refine hi.decided hs' rfl hl hg (fun id' ha hr => ?_) ?_
    · rw [heq, slice_recordVote_other env voter s ha hr]
    · rintro b ⟨ph, hlife, -⟩
      obtain ⟨ph', -, hlife', hint⟩ := life_vote env hlife hl hg hv hlen
      refine ⟨ph', heq ▸ hlife', fun e he => ?_⟩
      obtain ⟨hlast, hend⟩ := hint e he
      exact ⟨_, List.mem_append_right _ (List.mem_singleton_self _), _,
        .approved hl hg hv hlast rfl, hend⟩
  · have hlen : UpTo 128 voter := hrec.resolve_right fun hno => hno ⟨a, row, hl, hg, hv⟩
    refine hi.decided hs' rfl hl hg (fun id' ha hr => ?_) ?_
    · rw [heq, slice_recordVeto_other env reason voter s ha hr]
    · rintro b ⟨ph, hlife, -⟩
      obtain ⟨ph', -, hlife', hint⟩ := life_veto env hlife hl hg hv hlen
      exact ⟨ph', heq ▸ hlife', fun e he => nomatch hint.symm.trans he⟩

/-- Every run keeps the stores in lockstep with the lives. -/
theorem lockstep_run {h : List (DecisionPipeline × PipelineOp)} {s : DecisionPipeline}
    (hr : RecordableRun h s) : Lockstep h s :=
  hr.invariant (I := Lockstep) Lockstep.start fun _ _ _ _ hi hl => lockstep_step hi hl.1 hl.2

end PennyCore
