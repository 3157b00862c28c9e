import PennyCore.Orchestrator.PipelineSpec

/-!
# The life of an action

What the pipeline is for, without its stores. An action is born with a proposal, the policy's
decision and the quorum rule in force (`Birth`); its life is at a `Phase`:

* `refused` by the policy, `automatic` with the ending of its execution, or `voting`;
* from `voting`, each accepted vote adds a voter, the last one leads to `approved` with the ending
  of the execution, and a veto leads to `vetoed` (`Phase.Step`).

A phase determines the action's status, the state and the voters of its queue row, its audit trail
and the handler calls made for it (`status`, `ballot`, `trail`, `calls`), and `told` reads the first
two back off the trail (`told_trail`). `Phase.Valid` is what every phase of a life satisfies
(`Phase.Start.valid`, `Phase.Step.valid`): in particular the voters are distinct and in the pool,
and exactly as many as the rule asks for when the action was approved.
-/

namespace PennyCore

open Lib

/-- What is fixed when a proposal is handled. -/
structure Birth where
  proposal : ActionProposal
  decision : PolicyDecision
  rule : QuorumRule

/-- How an execution ended. An `interrupted` one raised outside `Exception`; an `unrecorded` one raised
an `Exception` without a text, and the failed action was stored. -/
inductive Ending where
  | executed (result : List (PyVal × PyVal))
  | failed (kind message : String)
  | interrupted (e : Raised)
  | unrecorded (e : Raised)

/-- Where the life of an action is. `called` says whether a handler was called. -/
inductive Phase where
  | refused
  | automatic (called : Bool) (ending : Ending)
  | voting (voters : List (Str 0 128))
  | approved (voters : List (Str 0 128)) (called : Bool) (ending : Ending)
  | vetoed (voters : List (Str 0 128)) (voter : Str 0 128) (reason : String)

namespace Ending

/-- The ending that an execution comes to. -/
def of : Outcome → Ending
  | .done result => .executed result
  | .raised e =>
    if e.isException then
      match e.message with
      | some message => .failed e.kind message
      | none => .unrecorded e
    else .interrupted e

def status : Ending → ActionStatus
  | .executed _ => .executed
  | .failed _ _ => .executionFailed
  | .interrupted _ => .pendingExec
  | .unrecorded _ => .executionFailed

/-- The last audit row, if there is one. -/
def rows (tenantId eventId : Str 1 64) : Ending → List TrailRow
  | .executed result => [.execution tenantId eventId result]
  | .failed kind message => [.failure tenantId eventId kind message]
  | .interrupted _ => []
  | .unrecorded _ => []

/-- What raised within `Exception`, or nothing, ends the action. -/
theorem status_of {o : Outcome} (h : ∀ e, o = .raised e → e.isException = true) :
    (of o).status = .executed ∨ (of o).status = .executionFailed := by
  cases o with
  | done result => exact .inl rfl
  | raised e =>
    unfold of
    simp only [h e rfl, ↓reduceIte]
    cases e.message <;> exact .inr rfl

/-- An unrecorded ending is that of an `Exception` without a text. -/
theorem unrecorded_of {o : Outcome} {e : Raised} (h : of o = .unrecorded e) :
    o = .raised e ∧ e.isException = true ∧ e.message = none := by
  cases o with
  | done result => cases h
  | raised e' =>
    unfold of at h
    by_cases he : e'.isException = true
    · cases hm : e'.message with
      | none =>
        simp only [he, hm, ↓reduceIte] at h
        cases h
        exact ⟨rfl, he, hm⟩
      | some message =>
        simp only [he, hm, ↓reduceIte] at h
        cases h
    · simp only [he, Bool.false_eq_true, ↓reduceIte] at h
      cases h

end Ending

namespace Birth

/-- The first two audit rows of every action. -/
def head (b : Birth) : List TrailRow :=
  [.proposal b.proposal, .decision b.proposal b.decision]

/-- The approval row of the voter with `k` voters before it. -/
def ballot (b : Birth) (voter : Str 0 128) (k : Nat) : TrailRow :=
  .approval b.proposal.tenantId b.proposal.eventId voter .pendingApproval (k + 1)
    b.rule.requiredApprovals (decide (((k + 1 : Nat) : Int) = b.rule.requiredApprovals))

def ballots (b : Birth) (voters : List (Str 0 128)) : List TrailRow :=
  voters.zipIdx.map fun v => b.ballot v.1 v.2

theorem ballots_nil (b : Birth) : b.ballots [] = [] := rfl

theorem ballots_snoc (b : Birth) (voters : List (Str 0 128)) (v : Str 0 128) :
    b.ballots (voters ++ [v]) = b.ballots voters ++ [b.ballot v voters.length] := by
  unfold ballots
  simp [List.zipIdx_append]

/-- Distinct voters of the pool. -/
structure Electorate (b : Birth) (voters : List (Str 0 128)) : Prop where
  nodup : (voters.map Subtype.val).Nodup
  inPool : ∀ pool ∈ b.rule.eligibleApprovers, ∀ v ∈ voters, v.1 ∈ pool

end Birth

namespace Phase

def status : Phase → ActionStatus
  | .refused => .rejected
  | .automatic _ e => e.status
  | .voting _ => .pendingApproval
  | .approved _ _ e => e.status
  | .vetoed _ _ _ => .rejected

/-- The state of the queue row and its approvals, if there is a row. -/
def ballot : Phase → Option (ApprovalState × List String)
  | .refused => none
  | .automatic _ _ => none
  | .voting voters => some (.pending, voters.map Subtype.val)
  | .approved voters _ _ => some (.approved, voters.map Subtype.val)
  | .vetoed voters _ _ => some (.rejected, voters.map Subtype.val)

/-- The audit trail. -/
def trail (b : Birth) : Phase → List TrailRow
  | .refused => b.head ++ [.refusal b.proposal.tenantId b.proposal.eventId]
  | .automatic _ e => b.head ++ e.rows b.proposal.tenantId b.proposal.eventId
  | .voting voters => b.head ++ b.ballots voters
  | .approved voters _ e =>
    b.head ++ b.ballots voters ++ e.rows b.proposal.tenantId b.proposal.eventId
  | .vetoed voters v reason => b.head ++ b.ballots voters ++
      [.veto b.proposal.tenantId b.proposal.eventId v .pendingApproval reason]

/-- The handler calls, each as the trail that stood when it was made. -/
def calls (b : Birth) : Phase → List (List TrailRow)
  | .automatic true _ => [b.head]
  | .approved voters true _ => [b.head ++ b.ballots voters]
  | _ => []

/-- The ending of the execution, if there was one. -/
def ending : Phase → Option Ending
  | .automatic _ e => some e
  | .approved _ _ e => some e
  | _ => none

/-- What every phase of a life satisfies. -/
def Valid (b : Birth) : Phase → Prop
  | .refused => b.decision = .reject
  | .automatic _ _ => b.decision = .auto
  | .voting voters => b.decision = .approvalRequired ∧ b.Electorate voters ∧
      (voters.length : Int) < b.rule.requiredApprovals
  | .approved voters _ _ => b.decision = .approvalRequired ∧ b.Electorate voters ∧
      (voters.length : Int) = b.rule.requiredApprovals
  | .vetoed voters _ _ => b.decision = .approvalRequired ∧ b.Electorate voters ∧
      (voters.length : Int) < b.rule.requiredApprovals

/-- The first phase of a life. -/
inductive Start (b : Birth) : Phase → Prop
  | refused : b.decision = .reject → Start b .refused
  | automatic {called : Bool} {e : Ending} : b.decision = .auto → Start b (.automatic called e)
  | voting : b.decision = .approvalRequired → Start b (.voting [])

/-- The steps of a life. -/
inductive Step (b : Birth) : Phase → Phase → Prop
  | vote {voters : List (Str 0 128)} {v : Str 0 128} : b.Electorate (voters ++ [v]) →
      (voters.length : Int) + 1 < b.rule.requiredApprovals →
      Step b (.voting voters) (.voting (voters ++ [v]))
  | approve {voters : List (Str 0 128)} {v : Str 0 128} {called : Bool} {e : Ending} :
      b.Electorate (voters ++ [v]) → (voters.length : Int) + 1 = b.rule.requiredApprovals →
      Step b (.voting voters) (.approved (voters ++ [v]) called e)
  | veto {voters : List (Str 0 128)} {v : Str 0 128} {reason : String} :
      Step b (.voting voters) (.vetoed voters v reason)

variable {b : Birth} {p p' : Phase}

theorem Start.valid (h : Start b p) : p.Valid b := by
  cases h with
  | refused h => exact h
  | automatic h => exact h
  | voting h =>
    have hge := b.rule.required_ge
    refine ⟨h, ⟨List.nodup_nil, fun _ _ _ hv => by cases hv⟩, ?_⟩
    simp only [List.length_nil]
    omega

theorem Step.valid (h : Step b p p') (hv : p.Valid b) : p'.Valid b := by
  obtain ⟨hd, he, hlt⟩ : b.decision = .approvalRequired ∧ ∃ voters, p = .voting voters ∧
      b.Electorate voters ∧ (voters.length : Int) < b.rule.requiredApprovals := by
    cases h <;> exact ⟨hv.1, _, rfl, hv.2⟩
  cases h with
  | vote hel hlen => exact ⟨hd, hel, by rw [List.length_append, List.length_singleton]; omega⟩
  | approve hel hlen => exact ⟨hd, hel, by rw [List.length_append, List.length_singleton]; omega⟩
  | veto => exact hv

/-! ## What a trail tells -/

/-- The voters of the approval rows. -/
def approvers (rows : List TrailRow) : List String :=
  rows.filterMap fun r => if r.kind = .approval then r.actorId.map Subtype.val else none

/-- The row is a decision that a human has to approve. -/
def gate (r : TrailRow) : Bool :=
  match r.kind, r.payload.get? "decision" with
  | .decision, some (.str d) => d == PolicyDecision.approvalRequired.value
  | _, _ => false

def gated (rows : List TrailRow) : Bool := rows.any gate

/-- The status of an action whose last audit row is `last`. -/
def statusAfter (gate : Bool) (last : TrailRow) : ActionStatus :=
  match last.kind with
  | .execution => .executed
  | .executionFailed => .executionFailed
  | .rejection => .rejected
  | .decision => if gate then .pendingApproval else .pendingExec
  | .approval =>
    match last.payload.get? "quorum_reached" with
    | some (.bool true) => .pendingExec
    | _ => .pendingApproval
  | _ => .pendingPolicy

/-- The state of the queue row of a gated action with this status. -/
def rowState : ActionStatus → ApprovalState
  | .pendingApproval => .pending
  | .rejected => .rejected
  | _ => .approved

/-- The status of the action and the state and approvals of its queue row, read off its trail. -/
def told (rows : List TrailRow) : Option (ActionStatus × Option (ApprovalState × List String)) :=
  rows.getLast?.map fun last =>
    let status := statusAfter (gated rows) last
    (status, if gated rows then some (rowState status, approvers rows) else none)

theorem approvers_append (xs ys : List TrailRow) :
    approvers (xs ++ ys) = approvers xs ++ approvers ys := List.filterMap_append

theorem approvers_head (b : Birth) : approvers b.head = [] := rfl

theorem approvers_ballots (b : Birth) (voters : List (Str 0 128)) :
    approvers (b.ballots voters) = voters.map Subtype.val := by
  unfold approvers Birth.ballots
  rw [List.filterMap_map]
  have hf : ((fun r : TrailRow => if r.kind = .approval then r.actorId.map Subtype.val else none) ∘
      fun v : Str 0 128 × Nat => b.ballot v.1 v.2) = fun v => some v.1.1 := by
    funext v
    rfl
  rw [hf, List.filterMap_eq_map' (f := fun v : Str 0 128 × Nat => v.1.1)]
  rw [show (fun v : Str 0 128 × Nat => v.1.1) = Subtype.val ∘ Prod.fst from rfl, ← List.map_map,
    List.zipIdx_map_fst]

theorem approvers_rows (t ev : Str 1 64) (e : Ending) : approvers (e.rows t ev) = [] := by
  cases e <;> rfl

/-- Every trail starts with the two rows of the birth. -/
theorem gated_head (b : Birth) (rest : List TrailRow) (h : ∀ r ∈ rest, r.kind ≠ .decision) :
    gated (b.head ++ rest) = decide (b.decision = .approvalRequired) := by
  have hrest : rest.any gate = false := by
    rw [List.any_eq_false]
    intro r hr
    unfold gate
    split
    · exact absurd ‹_› (h r hr)
    · decide
  unfold gated
  rw [List.any_append, hrest, Bool.or_false]
  obtain ⟨p, d, rule⟩ := b
  cases d <;> rfl

theorem kind_ballots (b : Birth) (voters : List (Str 0 128)) :
    ∀ r ∈ b.ballots voters, r.kind = .approval := by
  intro r hr
  obtain ⟨v, -, rfl⟩ := List.mem_map.mp hr
  rfl

theorem kind_rows (t ev : Str 1 64) (e : Ending) :
    ∀ r ∈ e.rows t ev, r.kind = .execution ∨ r.kind = .executionFailed := by
  intro r hr
  cases e with
  | executed result => exact .inl (by rw [List.mem_singleton.mp hr]; rfl)
  | failed kind message => exact .inr (by rw [List.mem_singleton.mp hr]; rfl)
  | interrupted e => cases hr
  | unrecorded e => cases hr

theorem told_snoc (rows : List TrailRow) (last : TrailRow) :
    told (rows ++ [last]) = some (statusAfter (gated (rows ++ [last])) last,
      if gated (rows ++ [last]) then
        some (rowState (statusAfter (gated (rows ++ [last])) last), approvers (rows ++ [last]))
      else none) := by
  unfold told
  rw [List.getLast?_concat]
  rfl

/-- The trail of a phase tells its status and its queue row, unless its ending is not on record. -/
theorem told_trail (hv : p.Valid b) (hrec : ∀ e, p.ending ≠ some (.unrecorded e)) :
    told (p.trail b) = some (p.status, p.ballot) := by
  have hb : ∀ vs, ∀ r ∈ b.ballots vs, r.kind ≠ .decision := fun vs r hr => by
    rw [kind_ballots b vs r hr]; decide
  cases p with
  | refused =>
    have hg := gated_head b [.refusal b.proposal.tenantId b.proposal.eventId] fun r hr => by
      rw [List.mem_singleton.mp hr]; exact AuditKind.noConfusion
    have hv : b.decision = .reject := hv
    rw [trail, told_snoc, hg, hv]
    rfl
  | automatic called e =>
    have hv : b.decision = .auto := hv
    have hg := gated_head b (e.rows b.proposal.tenantId b.proposal.eventId) fun r hr => by
      rcases kind_rows _ _ e r hr with h | h <;> rw [h] <;> decide
    rw [hv] at hg
    cases e with
    | executed result => rw [trail, Ending.rows, told_snoc]; rw [Ending.rows] at hg; rw [hg]; rfl
    | failed kind message => rw [trail, Ending.rows, told_snoc]; rw [Ending.rows] at hg; rw [hg]; rfl
    | interrupted e =>
      rw [Ending.rows] at hg
      unfold told
      rw [trail, Ending.rows, hg]
      rfl
    | unrecorded e => exact absurd rfl (hrec e)
  | voting voters =>
    obtain ⟨hd, -, hlt⟩ := hv
    have hg := gated_head b (b.ballots voters) (hb voters)
    rw [hd] at hg
    rcases List.eq_nil_or_concat' voters with rfl | ⟨vs, v, rfl⟩
    · rw [Birth.ballots_nil] at hg
      unfold told
      rw [trail, Birth.ballots_nil, hg]
      rfl
    · have hne : ¬ ((vs.length + 1 : Nat) : Int) = b.rule.requiredApprovals := by
        rw [List.length_append, List.length_singleton] at hlt
        omega
      have ha : approvers (b.head ++ b.ballots (vs ++ [v])) = (vs ++ [v]).map Subtype.val := by
        rw [approvers_append, approvers_head, approvers_ballots, List.nil_append]
      rw [Birth.ballots_snoc, ← List.append_assoc] at hg ha
      rw [trail, Birth.ballots_snoc, ← List.append_assoc, told_snoc, hg, ha]
      unfold statusAfter Birth.ballot
      simp only [TrailRow.approval, hne, decide_false]
      rfl
  | approved voters called e =>
    obtain ⟨hd, -, hlen⟩ := hv
    have hge := b.rule.required_ge
    have hg := gated_head b (b.ballots voters ++ e.rows b.proposal.tenantId b.proposal.eventId)
      fun r hr => by
        rcases List.mem_append.mp hr with hr | hr
        · exact hb voters r hr
        · rcases kind_rows _ _ e r hr with h | h <;> rw [h] <;> decide
    rw [hd, ← List.append_assoc] at hg
    have ha : approvers (b.head ++ b.ballots voters ++
        e.rows b.proposal.tenantId b.proposal.eventId) = voters.map Subtype.val := by
      rw [approvers_append, approvers_append, approvers_head, approvers_ballots, approvers_rows,
        List.nil_append, List.append_nil]
    cases e with
    | executed result =>
      rw [Ending.rows] at hg ha
      rw [trail, Ending.rows, told_snoc, hg, ha]
      rfl
    | failed kind message =>
      rw [Ending.rows] at hg ha
      rw [trail, Ending.rows, told_snoc, hg, ha]
      rfl
    | interrupted e =>
      rcases List.eq_nil_or_concat' voters with rfl | ⟨vs, v, rfl⟩
      · simp only [List.length_nil] at hlen
        omega
      · have heq : ((vs.length + 1 : Nat) : Int) = b.rule.requiredApprovals := by
          rw [← hlen, List.length_append, List.length_singleton]
        rw [Ending.rows, List.append_nil, Birth.ballots_snoc, ← List.append_assoc] at hg ha
        rw [trail, Ending.rows, List.append_nil, Birth.ballots_snoc, ← List.append_assoc,
          told_snoc, hg, ha]
        unfold statusAfter Birth.ballot
        simp only [TrailRow.approval, heq, decide_true]
        rfl
    | unrecorded e => exact absurd rfl (hrec e)
  | vetoed voters v reason =>
    obtain ⟨hd, -, -⟩ := hv
    have hg := gated_head b (b.ballots voters ++ [.veto b.proposal.tenantId b.proposal.eventId v
      .pendingApproval reason]) fun r hr => by
        rcases List.mem_append.mp hr with hr | hr
        · exact hb voters r hr
        · rw [List.mem_singleton.mp hr]; exact AuditKind.noConfusion
    rw [hd, ← List.append_assoc] at hg
    have ha : approvers (b.head ++ b.ballots voters ++ [.veto b.proposal.tenantId
        b.proposal.eventId v .pendingApproval reason]) = voters.map Subtype.val := by
      rw [approvers_append, approvers_append, approvers_head, approvers_ballots, List.nil_append]
      exact List.append_nil _
    rw [trail, told_snoc, hg, ha]
    rfl

end Phase
end PennyCore
