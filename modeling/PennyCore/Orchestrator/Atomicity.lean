import PennyCore.Orchestrator.Guarantees

/-!
# Votes and vetoes that raise

`approve_action` and `reject_action` change the queue first. What they raise before that leaves the
stores as they were; what they raise after it does not:

* the audit row is refused when the voter has more than 128 characters (`ApprovalRule.decided_by`
  has the same bound, but `model_copy` checks nothing);
* an execution that completes a quorum raises when its handler raises outside `Exception`.

`VoteSafe` and `VetoSafe` say of a call that neither happens. `vote_veto_atomic`: exactly these calls
are atomic, and as long as all calls are safe no queue row is resolved while its action still waits.
-/

namespace PennyCore

open Lib DecisionPipeline

/-- The queue, the action store and the audit log are the same. -/
def Unchanged (s t : DecisionPipeline) : Prop :=
  t.queue = s.queue ∧ t.actions = s.actions ∧ t.audit = s.audit

/-- If `approve_action` raises, the stores are as before. -/
def VoteAtomic (s : DecisionPipeline) (env : Env) (id voter : String) (expected : Option String) :
    Prop :=
  ∀ e, ((approveAction env id voter expected).run s).1 = .error e →
    Unchanged s ((approveAction env id voter expected).run s).2

/-- If `reject_action` raises, the stores are as before. -/
def VetoAtomic (s : DecisionPipeline) (env : Env) (id reason voter : String)
    (expected : Option String) : Prop :=
  ∀ e, ((rejectAction env id reason voter expected).run s).1 = .error e →
    Unchanged s ((rejectAction env id reason voter expected).run s).2

/-- If the queue accepts the vote, then the voter fits the audit log and, if it completes the quorum,
what the execution of the action raises is caught. -/
def VoteSafe (s : DecisionPipeline) (env : Env) (id voter : String) (expected : Option String) :
    Prop :=
  ∀ a row, s.lookup id expected = some a → s.queue.byId.get? id = some row → row.Votable voter →
    UpTo 128 voter ∧ (row.LastVote → ∀ e,
      env.executor.outcome (a.withStatus .pendingExec env.now) = .raised e → e.Caught)

/-- If the queue accepts the veto, then the voter fits the audit log. -/
def VetoSafe (s : DecisionPipeline) (id voter : String) (expected : Option String) : Prop :=
  AcceptsVeto s id voter expected → UpTo 128 voter

/-- Votes and vetoes are safe. -/
def PipelineOp.Safe (s : DecisionPipeline) : PipelineOp → Prop
  | .approveAction env id voter expected => VoteSafe s env id voter expected
  | .rejectAction _ id _ voter expected => VetoSafe s id voter expected
  | _ => True

theorem PipelineOp.Safe.recordable {s : DecisionPipeline} {op : PipelineOp} (h : op.Safe s) :
    op.Recordable s := by
  cases op with
  | approveAction env id voter expected =>
    by_cases hacc : AcceptsVote s id voter expected
    · obtain ⟨a, row, hl, hg, hv⟩ := hacc
      exact .inl (h a row hl hg hv).1
    · exact .inr hacc
  | rejectAction env id reason voter expected =>
    by_cases hacc : AcceptsVeto s id voter expected
    · exact .inl (h hacc)
    · exact .inr hacc
  | _ => trivial

/-! ## One call -/

/-- A row with a new version is another row. -/
theorem storeRow_changes {s : DecisionPipeline} {id : String} {row row' : ApprovalRule}
    (hg : s.queue.byId.get? id = some row) (hid : row'.actionId.1 = id)
    (hv : row'.rowVersion ≠ row.rowVersion) : (s.storeRow row').queue ≠ s.queue := by
  intro heq
  have hnew : (s.storeRow row').queue.byId.get? id = some row' := by
    subst hid
    exact Dict.get?_set_self _ _ _
  rw [heq, hg] at hnew
  exact hv (congrArg ApprovalRule.rowVersion (Option.some.inj hnew.symm))

theorem queue_invoke (s : DecisionPipeline) (ex : ActionExecutor) (a : Action) :
    (s.invoke ex a).queue = s.queue := by
  unfold invoke; split <;> rfl

/-- A vote is atomic exactly if it is safe. -/
theorem voteAtomic_iff {s : DecisionPipeline} (hs : Sound s) (env : Env) (id voter : String)
    (expected : Option String) :
    VoteAtomic s env id voter expected ↔ VoteSafe s env id voter expected := by
  by_cases hacc : AcceptsVote s id voter expected
  swap
  · -- a refused call changes nothing
    have hsame := (approveAction_refused hs env hacc).1
    refine ⟨fun _ a row hl hg hv => absurd ⟨a, row, hl, hg, hv⟩ hacc, fun _ e _ => ?_⟩
    rw [hsame]
    exact ⟨rfl, rfl, rfl⟩
  obtain ⟨a, row, hl, hg, hv⟩ := hacc
  have hrun := approveAction_accepted hs env hl hg hv
  have hrid := hs.queued.key hg
  have hchanged : (s.storeRow (row.vote env.now voter)).queue ≠ s.queue :=
    storeRow_changes hg (by simpa using hrid) (by simp)
  -- safety at the one action and row that the call is about
  have hsafe : VoteSafe s env id voter expected ↔ UpTo 128 voter ∧ (row.LastVote → ∀ e,
      env.executor.outcome (a.withStatus .pendingExec env.now) = .raised e → e.Caught) := by
    refine ⟨fun h => h a row hl hg hv, fun h a' row' hl' hg' _ => ?_⟩
    rw [hl] at hl'
    rw [hg] at hg'
    cases hl'
    cases hg'
    exact h
  unfold VoteAtomic
  rw [hsafe, hrun]
  unfold recordVote
  by_cases hlen : UpTo 128 voter
  swap
  · rw [dif_neg hlen]
    exact ⟨fun h => absurd (h _ rfl).1 hchanged, fun h => absurd h.1 hlen⟩
  rw [dif_pos hlen]
  simp only
  by_cases hlast : row.LastVote
  swap
  · rw [if_neg hlast]
    exact ⟨fun _ => ⟨hlen, fun h => absurd h hlast⟩, fun _ e he => by cases he⟩
  rw [if_pos hlast]
  unfold finish
  cases ho : env.executor.outcome (a.withStatus .pendingExec env.now) with
  | done result => exact ⟨fun _ => ⟨hlen, fun _ e he => by cases he⟩, fun _ e he => by cases he⟩
  | raised e =>
    by_cases hexc : e.isException = true
    · cases hm : e.message with
      | some message =>
        simp only [hexc, hm, ↓reduceIte]
        refine ⟨fun _ => ⟨hlen, fun _ e' he' => ?_⟩, fun _ e' he' => by cases he'⟩
        cases he'
        exact ⟨hexc, by rw [hm]; rfl⟩
      | none =>
        simp only [hexc, hm, ↓reduceIte]
        refine ⟨fun h => absurd ?_ hchanged, fun h => ?_⟩
        · have hq := (h _ rfl).1
          change (DecisionPipeline.invoke _ _ _).queue = s.queue at hq
          rw [queue_invoke] at hq
          exact hq
        · have htext := (h.2 hlast e rfl).2
          rw [hm] at htext
          cases htext
    · simp only [hexc, Bool.false_eq_true, ↓reduceIte]
      refine ⟨fun h => absurd ?_ hchanged, fun h => absurd (h.2 hlast e rfl).1 hexc⟩
      have hq := (h _ rfl).1
      rw [queue_invoke] at hq
      exact hq

/-- A veto is atomic exactly if it is safe. -/
theorem vetoAtomic_iff {s : DecisionPipeline} (hs : Sound s) (env : Env) (id reason voter : String)
    (expected : Option String) :
    VetoAtomic s env id reason voter expected ↔ VetoSafe s id voter expected := by
  by_cases hacc : AcceptsVeto s id voter expected
  swap
  · have hsame := (rejectAction_refused hs env reason hacc).1
    refine ⟨fun _ h => absurd h hacc, fun _ e _ => ?_⟩
    rw [hsame]
    exact ⟨rfl, rfl, rfl⟩
  obtain ⟨a, row, hl, hg, hv⟩ := hacc
  have hrun := rejectAction_accepted hs env reason hl hg hv
  have hrid := hs.queued.key hg
  have hchanged : (s.storeRow (row.veto env.now reason voter)).queue ≠ s.queue :=
    storeRow_changes hg hrid (Nat.succ_ne_self _)
  unfold VetoAtomic
  rw [hrun]
  unfold recordVeto
  by_cases hlen : UpTo 128 voter
  · rw [dif_pos hlen]
    exact ⟨fun _ _ => hlen, fun _ e he => by cases he⟩
  · rw [dif_neg hlen]
    exact ⟨fun h => absurd (h _ rfl).1 hchanged, fun h => absurd (h ⟨a, row, hl, hg, hv⟩) hlen⟩

/-! ## Runs -/

/-- No queue row is approved or rejected while its action waits for approval. -/
def Settled (s : DecisionPipeline) : Prop :=
  ∀ id a row, s.actions.byId.get? id = some a → s.queue.byId.get? id = some row →
    row.state = .approved ∨ row.state = .rejected → a.status ≠ .pendingApproval

theorem Lockstep.settled {h : List (DecisionPipeline × PipelineOp)} {s : DecisionPipeline}
    (hi : Lockstep h s) : Settled s := by
  intro id a row ha hg hstate hwait
  obtain ⟨b, hb⟩ := hi.birth_of_action ha
  obtain ⟨p, hp, -⟩ := hi.born id b hb
  obtain ⟨a', ha', -, -, -, -, hst⟩ := hp.action
  rw [show (s.slice id).action = some a from ha] at ha'
  cases ha'
  rw [hwait] at hst
  have hballot := hp.ballotOf
  unfold DecisionPipeline.ballotOf at hballot
  rw [hg] at hballot
  cases p with
  | refused => cases hst
  | automatic called e => cases hballot
  | voting voters =>
    have hpending : row.state = .pending := congrArg Prod.fst (Option.some.inj hballot)
    rcases hstate with h | h <;> rw [hpending] at h <;> cases h
  | approved voters called e => cases e <;> cases hst
  | vetoed voters v reason => cases hst

/-- In every reachable state a vote or a veto is atomic exactly if it is safe; and in every run of
safe calls no queue row is resolved while its action still waits. -/
theorem vote_veto_atomic {h : List (DecisionPipeline × PipelineOp)} {s : DecisionPipeline}
    (hr : PipelineRun (fun _ _ => True) h s) :
    (∀ env id reason voter expected,
      (VoteAtomic s env id voter expected ↔ VoteSafe s env id voter expected) ∧
      (VetoAtomic s env id reason voter expected ↔ VetoSafe s id voter expected)) ∧
    (PipelineRun (fun s op => op.Safe s) h s → Settled s) := by
  refine ⟨fun env id reason voter expected => ?_, fun hsafe => ?_⟩
  · have hs := sound_run hr
    exact ⟨voteAtomic_iff hs env id voter expected, vetoAtomic_iff hs env id reason voter expected⟩
  · have hr' : RecordableRun h s := hsafe.mono fun s op hl => ⟨hl.1, hl.2.recordable⟩
    exact (lockstep_run hr').settled

/-- A voter of 129 characters. -/
def longVoter : String := String.ofList (List.replicate 129 'v')

/-- An action that waits for one approval. -/
def waiting (str : PyVal → String) : List PipelineOp :=
  [.setPolicies "t1" (everything "approval_required"),
    .handleProposal (demoEnv (defaultExecutors str)) demoProposal]

theorem vote_veto_atomic_waiting :
    let s := (waiting fun _ => "").foldl pipelineStep {}
    VoteAtomic s (demoEnv (defaultExecutors fun _ => "")) "act_unknown" "ann" none ∧
      s.lookup "act_unknown" none = none :=
  have hr : PipelineRun (fun _ _ => True) (Run.trace pipelineStep {} (waiting fun _ => ""))
      ((waiting fun _ => "").foldl pipelineStep {}) :=
    Run.ofOps ⟨⟨trivial, trivial⟩, ⟨rfl, trivial⟩, trivial⟩
  have hno : ((waiting fun _ => "").foldl pipelineStep {}).lookup "act_unknown" none = none := rfl
  ⟨((vote_veto_atomic hr).1 _ _ "" _ _).1.mpr fun a row hl _ _ => (by rw [hno] at hl; cases hl),
    hno⟩

/-- The vote of a 129-character voter raises, and leaves the queue row approved and the action
waiting. -/
theorem longVoter_not_atomic :
    (¬ ∀ h s, PipelineRun (fun _ _ => True) h s → ∀ env id voter expected,
      VoteAtomic s env id voter expected) ∧
    ¬ Settled ((waiting (fun _ => "") ++ [PipelineOp.approveAction (demoEnv (defaultExecutors fun _ => ""))
      (demoEnv ∅).actionId.1 longVoter none]).foldl pipelineStep {}) := by
  have hr : PipelineRun (fun _ _ => True) (Run.trace pipelineStep {} (waiting fun _ => ""))
      ((waiting fun _ => "").foldl pipelineStep {}) :=
    Run.ofOps ⟨⟨trivial, trivial⟩, ⟨rfl, trivial⟩, trivial⟩
  have hs := sound_run hr
  have hlen : ¬ UpTo 128 longVoter := by
    rintro ⟨hle, -⟩
    unfold longVoter at hle
    rw [String.length_ofList, List.length_replicate] at hle
    omega
  obtain ⟨a, ha, hst⟩ : ∃ a, ((waiting fun _ => "").foldl pipelineStep {}).lookup
      (demoEnv ∅).actionId.1 none = some a ∧ a.status = .pendingApproval := ⟨_, rfl, rfl⟩
  obtain ⟨row, hg, hpending, hpool, hvotes, hreq⟩ : ∃ row, ((waiting fun _ => "").foldl
      pipelineStep {}).queue.byId.get? (demoEnv ∅).actionId.1 = some row ∧ row.state = .pending ∧
        row.eligibleApprovers = none ∧ row.approvals = [] ∧ row.requiredApprovals = 1 :=
    ⟨_, rfl, rfl, rfl, rfl, rfl⟩
  have hv : row.Votable longVoter :=
    ⟨hpending, fun pool hp => (by rw [hpool] at hp; cases hp), by rw [hvotes]; exact
      List.not_mem_nil⟩
  have hlast : row.LastVote := by
    unfold ApprovalRule.LastVote
    rw [hreq, hvotes]
    decide
  refine ⟨fun hall => ?_, fun hsettled => ?_⟩
  · have hat := hall _ _ hr (demoEnv (defaultExecutors fun _ => "")) (demoEnv ∅).actionId.1
      longVoter none
    exact hlen (((voteAtomic_iff hs _ _ _ _).mp hat) a row ha hg hv).1
  · have hrun := approveAction_accepted hs (demoEnv (defaultExecutors fun _ => "")) ha hg hv
    unfold recordVote at hrun
    rw [dif_neg hlen] at hrun
    have hrid := hs.queued.key hg
    rw [List.foldl_append] at hsettled
    have hstate : pipelineStep ((waiting fun _ => "").foldl pipelineStep {})
        (.approveAction (demoEnv (defaultExecutors fun _ => "")) (demoEnv ∅).actionId.1 longVoter
          none) = ((waiting fun _ => "").foldl pipelineStep {}).storeRow
            (row.vote 0 longVoter) := by
      unfold pipelineStep PipelineOp.exec
      simp only [state_of_wrap]
      exact congrArg Prod.snd hrun
    refine hsettled (demoEnv ∅).actionId.1 a (row.vote 0 longVoter) ?_ ?_ (.inl ?_) hst
    · rw [List.foldl_cons, List.foldl_nil, hstate]
      exact (lookup_some.mp ha).1
    · rw [List.foldl_cons, List.foldl_nil, hstate, ← hrid]
      show (Dict.set _ (row.vote 0 longVoter).actionId.1 _).get? _ = _
      rw [ApprovalRule.vote_actionId]
      exact Dict.get?_set_self _ _ _
    · rw [ApprovalRule.vote_state, if_pos hlast]

end PennyCore
