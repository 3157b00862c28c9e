import PennyCore.Orchestrator.Lockstep

/-!
# Gated execution and the audit trail

What the lockstep of the stores with the lives of the actions (`lockstep_run`) says to a caller of
the pipeline, for voters of at most 128 characters, as the HTTP layer enforces (`NamedRun`):

* `gated_execution`: a handler is called at most once for an action, and only after the policy said
  so or the whole quorum approved; never for a rejected action.
* `status_trail_lockstep`: the audit trail of an action has one of a few shapes, and its status and
  its queue row are those that the trail tells.
* `interrupted_run`: a handler that raises outside `Exception` leaves its action in `pending_exec`.
-/

namespace PennyCore

open Lib DecisionPipeline

/-- The voter has at most 128 characters. -/
def PipelineOp.Named : PipelineOp → Prop
  | .approveAction _ _ voter _ => UpTo 128 voter
  | .rejectAction _ _ _ voter _ => UpTo 128 voter
  | _ => True

abbrev NamedRun : List (DecisionPipeline × PipelineOp) → DecisionPipeline → Prop :=
  PipelineRun fun _ op => op.Named

theorem NamedRun.recordable {h : List (DecisionPipeline × PipelineOp)} {s : DecisionPipeline}
    (hr : NamedRun h s) : RecordableRun h s :=
  hr.mono fun s op hl => ⟨hl.1, by
    cases op with
    | approveAction env id voter expected => exact .inl hl.2
    | rejectAction env id reason voter expected => exact .inl hl.2
    | _ => trivial⟩

namespace Phase

variable {b : Birth} {p : Phase}

theorem calls_length (b : Birth) (p : Phase) : (p.calls b).length ≤ 1 := by
  cases p with
  | automatic called e => cases called <;> simp [calls]
  | approved voters called e => cases called <;> simp [calls]
  | _ => simp [calls]

/-- The trail that stood at a handler call: the decision was automatic, or the whole quorum had
approved. -/
theorem calls_gated (hv : p.Valid b) {trail : List TrailRow} (hc : trail ∈ p.calls b) :
    (b.decision = .auto ∨ b.decision = .approvalRequired ∧
      ((approvers trail).length : Int) = b.rule.requiredApprovals ∧ (approvers trail).Nodup ∧
      ∀ pool ∈ b.rule.eligibleApprovers, ∀ v ∈ approvers trail, v ∈ pool) ∧
    (∀ r ∈ trail, r.kind ≠ .rejection) ∧ ∀ r ∈ p.trail b, r.kind ≠ .rejection := by
  have hhead : ∀ r ∈ b.head, r.kind ≠ .rejection := fun r hr => by
    rcases List.mem_cons.mp hr with rfl | hr
    · exact AuditKind.noConfusion
    · rw [List.mem_singleton.mp hr]
      exact AuditKind.noConfusion
  have hballots : ∀ voters, ∀ r ∈ b.ballots voters, r.kind ≠ .rejection := fun voters r hr => by
    rw [kind_ballots b voters r hr]
    decide
  have hrows : ∀ e : Ending, ∀ r ∈ e.rows b.proposal.tenantId b.proposal.eventId,
      r.kind ≠ .rejection := fun e r hr => by
    rcases kind_rows _ _ e r hr with h | h <;> rw [h] <;> decide
  cases p with
  | automatic called e =>
    cases called with
    | false => cases hc
    | true =>
      rw [List.mem_singleton.mp hc]
      exact ⟨.inl hv, hhead, fun r hr => (List.mem_append.mp hr).elim (hhead r) (hrows e r)⟩
  | approved voters called e =>
    cases called with
    | false => cases hc
    | true =>
      obtain ⟨hd, hel, hlen⟩ := hv
      have hap : approvers (b.head ++ b.ballots voters) = voters.map Subtype.val := by
        rw [approvers_append, approvers_head, approvers_ballots, List.nil_append]
      have hkind : ∀ r ∈ b.head ++ b.ballots voters, r.kind ≠ .rejection := fun r hr =>
        (List.mem_append.mp hr).elim (hhead r) (hballots voters r)
      rw [List.mem_singleton.mp hc, hap]
      refine ⟨.inr ⟨hd, by rw [List.length_map, hlen], hel.nodup, fun pool hp v hv => ?_⟩, hkind,
        fun r hr => (List.mem_append.mp hr).elim (hkind r) (hrows e r)⟩
      obtain ⟨w, hw, rfl⟩ := List.mem_map.mp hv
      exact hel.inPool pool hp w hw
  | refused => cases hc
  | voting voters => cases hc
  | vetoed voters v reason => cases hc

/-- An action that the policy refused has no handler call. -/
theorem calls_refused (hv : p.Valid b) (hd : b.decision = .reject) : p.calls b = [] := by
  cases p with
  | refused => rfl
  | automatic called e => exact absurd (hd.symm.trans hv) (by decide)
  | voting voters => rfl
  | approved voters called e => exact absurd (hd.symm.trans hv.1) (by decide)
  | vetoed voters v reason => rfl

end Phase

/-- The handler calls for an action, as its slice has them. -/
theorem mem_slice_calls {s : DecisionPipeline} {id : String} {c : HandlerCall}
    (hc : c ∈ s.callsOf id) : c.trail.map AuditLogEntry.row ∈ (s.slice id).calls :=
  List.mem_map.mpr ⟨c, hc, rfl⟩

/-- An id has the slice of a life, or none. -/
theorem Lockstep.cases {h : List (DecisionPipeline × PipelineOp)} {s : DecisionPipeline}
    (hi : Lockstep h s) (id : String) :
    s.slice id = Slice.blank ∨ ∃ b, (id, b) ∈ birthsIn h ∧ Lives h s id b := by
  by_cases hb : ∃ b, (id, b) ∈ birthsIn h
  · obtain ⟨b, hb⟩ := hb
    exact .inr ⟨b, hb, hi.born id b hb⟩
  · exact .inl (hi.unborn id fun b h => hb ⟨b, h⟩)

/-- In every state of every run: at most one handler call for an action, made after an automatic
decision or after exactly `N` distinct voters of the pool approved, `N` and the pool being those in
force when the action was made; none for an action that was rejected, by the policy or by a human.
The executors are arbitrary. -/
theorem gated_execution {h : List (DecisionPipeline × PipelineOp)} {s : DecisionPipeline}
    (hr : NamedRun h s) :
    ((birthsIn h).map Prod.fst).Nodup ∧ ∀ id,
      (s.callsOf id).length ≤ 1 ∧
      (∀ c ∈ s.callsOf id, ∃ b, (id, b) ∈ birthsIn h ∧
        let voters := Phase.approvers (c.trail.map AuditLogEntry.row)
        (b.decision = .auto ∨ b.decision = .approvalRequired ∧
          (voters.length : Int) = b.rule.requiredApprovals ∧ voters.Nodup ∧
          ∀ pool ∈ b.rule.eligibleApprovers, ∀ v ∈ voters, v ∈ pool) ∧
        ∀ e ∈ c.trail, e.kind ≠ .rejection) ∧
      (∀ b, (id, b) ∈ birthsIn h → b.decision = .reject → s.callsOf id = []) ∧
      ((∃ e ∈ s.audit.trail id, e.kind = .rejection) → s.callsOf id = []) := by
  have hi := lockstep_run hr.recordable
  refine ⟨hi.once, fun id => ?_⟩
  have hlen : (s.callsOf id).length = (s.slice id).calls.length := (List.length_map _).symm
  have hempty : (s.slice id).calls = [] → s.callsOf id = [] := fun h => List.map_eq_nil_iff.mp h
  rcases hi.cases id with hblank | ⟨b, hb, p, hlife, -⟩
  · rw [hblank] at hlen hempty
    have hnone := hempty rfl
    rw [hnone]
    exact ⟨Nat.zero_le _, fun c hc => (by cases hc), fun _ _ _ => rfl, fun _ => rfl⟩
  · refine ⟨?_, fun c hc => ⟨b, hb, ?_⟩, fun b' hb' hd => hempty ?_, fun ⟨e, he, hk⟩ => hempty ?_⟩
    · rw [hlen, hlife.calls]
      exact Phase.calls_length b p
    · obtain ⟨hgate, hkinds, -⟩ := Phase.calls_gated hlife.valid
        (hlife.calls ▸ mem_slice_calls hc)
      exact ⟨hgate, fun e he => hkinds e.row (List.mem_map_of_mem he)⟩
    · obtain ⟨p', hlife', -⟩ := hi.born id b' hb'
      rw [hlife'.calls]
      exact Phase.calls_refused hlife'.valid hd
    · rw [hlife.calls]
      by_contra hne
      obtain ⟨trail, htrail⟩ := List.exists_mem_of_ne_nil _ hne
      have hrow : e.row ∈ (s.slice id).trail := List.mem_map_of_mem he
      exact (Phase.calls_gated hlife.valid htrail).2.2 e.row (hlife.trail ▸ hrow) hk

/-- An action that needs two approvals: one voter votes twice, then the other one. -/
def quorumOfTwo (str : PyVal → String) : List PipelineOp :=
  let env := demoEnv (defaultExecutors str)
  let id := env.actionId.1
  [.setPolicies "t1" (everything "approval_required"), .setRule "t1" .noOp 2 (some ["ann", "bob"]),
    .handleProposal env demoProposal, .approveAction env id "ann" (some "t1"),
    .approveAction env id "ann" (some "t1"), .approveAction env id "bob" (some "t1")]

theorem gated_execution_quorumOfTwo :
    let s := (quorumOfTwo fun _ => "").foldl pipelineStep {}
    let id := (demoEnv ∅).actionId.1
    (s.callsOf id).length ≤ 1 ∧ (s.callsOf id).length = 1 :=
  have ann : UpTo 128 "ann" := by decide
  have hr : NamedRun (Run.trace pipelineStep {} (quorumOfTwo fun _ => ""))
      ((quorumOfTwo fun _ => "").foldl pipelineStep {}) :=
    Run.ofOps ⟨⟨trivial, trivial⟩, ⟨trivial, trivial⟩, ⟨rfl, trivial⟩, ⟨trivial, ann⟩,
      ⟨trivial, ann⟩, ⟨trivial, (by decide : UpTo 128 "bob")⟩, trivial⟩
  ⟨((gated_execution hr).2 _).1, rfl⟩

/-! ## Status, queue row and audit trail -/

/-- The state and the approvals of an action's queue row. -/
def DecisionPipeline.ballotOf (s : DecisionPipeline) (id : String) :
    Option (ApprovalState × List String) :=
  (s.queue.byId.get? id).map fun row => (row.state, row.approvals)

theorem Life.ballotOf {b : Birth} {id : String} {p : Phase} {s : DecisionPipeline}
    (h : Life b id p (s.slice id)) : s.ballotOf id = p.ballot := by
  have hrow := h.row
  unfold DecisionPipeline.ballotOf
  show (s.slice id).row.map _ = p.ballot
  cases hb : p.ballot with
  | none =>
    rw [hb] at hrow
    rw [show (s.slice id).row = none from hrow]
    rfl
  | some sv =>
    rw [hb] at hrow
    obtain ⟨r, hr, -, hstate, hap, -⟩ := hrow
    rw [hr, Option.map_some, hstate, hap]

/-- The action `a` is at some phase of a life, and its rows, its status and its queue row are those
of the phase; `allowed` says which phases count. -/
def InLockstep (h : List (DecisionPipeline × PipelineOp)) (s : DecisionPipeline)
    (allowed : String → Phase → Prop) : Prop :=
  ∀ id a, s.actions.byId.get? id = some a → ∃ b p, (id, b) ∈ birthsIn h ∧ p.Valid b ∧
    s.trailOf id = p.trail b ∧ a.status = p.status ∧ s.ballotOf id = p.ballot ∧ allowed id p

/-- If the action's own execution raised an `Exception`, then one with a text. -/
def Recorded (h : List (DecisionPipeline × PipelineOp)) (id : String) : Prop :=
  ∀ x ∈ h, ∀ e, Executes id (.raised e) x → e.isException = true → e.message.isSome

theorem EndedIn.recorded {h : List (DecisionPipeline × PipelineOp)} {id : String} {p : Phase}
    (hend : EndedIn h id p) (hrec : Recorded h id) (e : Raised) :
    p.ending ≠ some (.unrecorded e) := by
  intro he
  obtain ⟨x, hx, o, hex, heq⟩ := hend _ he
  obtain ⟨rfl, hexc, hnone⟩ := Ending.unrecorded_of heq.symm
  have htext := hrec x hx e hex hexc
  rw [hnone] at htext
  cases htext

/-- In every state of every run, for every action: the audit rows are numbered in order, and they
are the trail of a phase of the action's life, which is also that of its status and its queue row;
the ending of the phase, if it has one, is that of the action's own execution. The trail alone tells
the status and the queue row, unless that execution raised an `Exception` without a text. An id
without an action has nothing. -/
theorem status_trail_lockstep {h : List (DecisionPipeline × PipelineOp)} {s : DecisionPipeline}
    (hr : NamedRun h s) :
    InLockstep h s (EndedIn h) ∧
    (∀ id, s.audit.entriesForAction id none = s.audit.trail id ∧
      ((s.audit.trail id).map fun e => e.id.getD 0).Pairwise (· < ·)) ∧
    (∀ id a, s.actions.byId.get? id = some a → Recorded h id →
      Phase.told (s.trailOf id) = some (a.status, s.ballotOf id)) ∧
    (∀ id, s.actions.byId.get? id = none → s.audit.trail id = [] ∧ s.ballotOf id = none) := by
  have hi := lockstep_run hr.recordable
  have hlife : ∀ id a, s.actions.byId.get? id = some a → ∃ b p, (id, b) ∈ birthsIn h ∧
      Life b id p (s.slice id) ∧ a.status = p.status ∧ EndedIn h id p := fun id a ha => by
    obtain ⟨b, hb⟩ := hi.birth_of_action ha
    obtain ⟨p, hp, hend⟩ := hi.born id b hb
    obtain ⟨a', ha', -, -, -, -, hst⟩ := hp.action
    rw [show (s.slice id).action = some a from ha] at ha'
    cases ha'
    exact ⟨b, p, hb, hp, hst, hend⟩
  refine ⟨fun id a ha => ?_, fun id => ⟨InMemoryAuditLog.entriesForAction_trail hi.sound.log id,
    hi.sound.log.trail_ids id⟩, fun id a ha hrec => ?_, fun id ha => ?_⟩
  · obtain ⟨b, p, hb, hp, hst, hend⟩ := hlife id a ha
    exact ⟨b, p, hb, hp.valid, hp.trail, hst, hp.ballotOf, hend⟩
  · obtain ⟨b, p, -, hp, hst, hend⟩ := hlife id a ha
    rw [hp.ballotOf, hst, show s.trailOf id = p.trail b from hp.trail]
    exact Phase.told_trail hp.valid (hend.recorded hrec)
  · rcases hi.cases id with hblank | ⟨b, -, p, hp, -⟩
    · have htrail : s.trailOf id = [] := congrArg Slice.trail hblank
      refine ⟨List.map_eq_nil_iff.mp htrail, ?_⟩
      unfold DecisionPipeline.ballotOf
      rw [show s.queue.byId.get? id = none from congrArg Slice.row hblank]
      rfl
    · obtain ⟨a, ha', -⟩ := hp.action
      rw [show (s.slice id).action = none from ha] at ha'
      cases ha'

theorem status_trail_lockstep_quorumOfTwo :
    let s := (quorumOfTwo fun _ => "").foldl pipelineStep {}
    let id := (demoEnv ∅).actionId.1
    s.audit.entriesForAction id none = s.audit.trail id ∧
      (s.audit.trail id).map AuditLogEntry.kind =
        [.proposal, .decision, .approval, .approval, .execution] :=
  have ann : UpTo 128 "ann" := by decide
  have hr : NamedRun (Run.trace pipelineStep {} (quorumOfTwo fun _ => ""))
      ((quorumOfTwo fun _ => "").foldl pipelineStep {}) :=
    Run.ofOps ⟨⟨trivial, trivial⟩, ⟨trivial, trivial⟩, ⟨rfl, trivial⟩, ⟨trivial, ann⟩,
      ⟨trivial, ann⟩, ⟨trivial, (by decide : UpTo 128 "bob")⟩, trivial⟩
  ⟨((status_trail_lockstep hr).2.1 _).1, rfl⟩

/-- An automatic action whose handler raises `SystemExit`. -/
def interruptedOps : List PipelineOp :=
  [.setPolicies "t1" (everything "auto"),
    .handleProposal (demoEnv (Dict.set ∅ .noOp fun _ => .raised ⟨"SystemExit", some "", false⟩))
      demoProposal]

/-- A handler that raises outside `Exception` leaves an action in `pending_exec` whose trail ends
with the decision: no phase but an interrupted one has that status. -/
theorem interrupted_run :
    ¬ ∀ h s, NamedRun h s → InLockstep h s fun _ p => ∀ e, p.ending ≠ some (.interrupted e) := by
  intro hall
  have hr : NamedRun (Run.trace pipelineStep {} interruptedOps)
      (interruptedOps.foldl pipelineStep {}) :=
    Run.ofOps ⟨⟨trivial, trivial⟩, ⟨rfl, trivial⟩, trivial⟩
  have hst : ((interruptedOps.foldl pipelineStep {}).actions.byId.get?
      (demoEnv ∅).actionId.1).map Action.status = some .pendingExec := rfl
  obtain ⟨a, ha, hpe⟩ := Option.map_eq_some_iff.mp hst
  obtain ⟨b, p, -, -, -, hp, -, hni⟩ := hall _ _ hr _ a ha
  rw [hpe] at hp
  cases p with
  | refused => cases hp
  | automatic called e =>
    cases e with
    | interrupted e => exact hni e rfl
    | _ => cases hp
  | voting voters => cases hp
  | approved voters called e =>
    cases e with
    | interrupted e => exact hni e rfl
    | _ => cases hp
  | vetoed voters v reason => cases hp

end PennyCore
