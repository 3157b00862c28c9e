import PennyCore.Contracts.Actions
import PennyCore.Lib.Py

/-!
# The approval queue

`src/orchestrator/approval_queue.py`: the rows of actions that wait for a human, and for each
tenant the list of its pending action ids, oldest first.

* The operations `enqueue`, `approve`, `reject` and their helpers, as the code has them.
* `ApprovalRule.vote` and `ApprovalRule.veto`: the row after an accepted approval or rejection;
  `InMemoryApprovalQueue.store`: the queue after a row changed.
* One lemma for each operation (`enqueue_spec`, `approve_spec`, `reject_spec`) gives its result and
  the state it leaves, with the exception it raises in each case. The rest of the development uses
  these and not the code.
-/

namespace PennyCore

open Lib

/-- What the queue raises. -/
inductive QueueError where
  | valueError (msg : String)
  | validation (e : ValidationError)
  /-- `ApprovalNotFoundError`. -/
  | approvalNotFound (actionId : String)
  /-- `ApprovalStateError`: the row is already `state`; cannot `action`. -/
  | approvalState (actionId : String) (state : ApprovalState) (action : String)
  /-- `ApproverNotEligibleError`: the voter is outside the row's pool. -/
  | approverNotEligible (decidedBy : Option String) (actionId : String)
  /-- `ApproverNotEligibleError`: a row with a quorum needs a named voter. -/
  | approverUnnamed (actionId : String) (requiredApprovals : Int)
  /-- `DuplicateApproverError`. -/
  | duplicateApprover (decidedBy actionId : String)
  deriving DecidableEq, Repr

/-- `_default_queue_id`. -/
def defaultQueueId (u : Uuid) : Str 1 64 := u.tagged "appr_" (by decide)

structure InMemoryApprovalQueue where
  byId : Dict String ApprovalRule := ∅
  pendingByTenant : Dict String (List String) := ∅

namespace InMemoryApprovalQueue

/-! ## Operations -/

/-- The argument checks at the head of `enqueue`. -/
def enqueueChecks (actionId tenantId : String) (requiredApprovals : Int)
    (eligibleApprovers : Option (List String)) : Except QueueError Unit :=
  if actionId = "" then .error (.valueError "action_id must be non-empty")
  else if tenantId = "" then .error (.valueError "tenant_id must be non-empty")
  else if requiredApprovals < 1 then .error (.valueError "required_approvals must be >= 1")
  else
    match eligibleApprovers with
    | none => .ok ()
    | some pool =>
      if ¬ pool.Nodup then .error (.valueError "eligible_approvers must not contain duplicates")
      else if (pool.length : Int) < requiredApprovals then
        let size := pool.length
        .error (.valueError (s!"required_approvals={requiredApprovals} exceeds the " ++
          s!"eligible pool size {size} — quorum could never be reached"))
      else .ok ()

/-- The construction of a pending `ApprovalRule`, with the checks of its contract. -/
def newRow (queueId : Uuid) (now : Time) (actionId tenantId : String) (assignedTo : Option String)
    (requiredApprovals : Int) (eligibleApprovers : Option (List String)) :
    Except ValidationError ApprovalRule := do
  let tenantId ← Str.check 1 64 "ApprovalRule" "tenant_id" tenantId
  let actionId ← Str.check 1 64 "ApprovalRule" "action_id" actionId
  let assignedTo ← Str.checkOpt 128 "ApprovalRule" "assigned_to" assignedTo
  if h : 1 ≤ requiredApprovals then
    return {
      id := defaultQueueId queueId
      tenantId, actionId, state := .pending, assignedTo, requiredApprovals
      requiredApprovals_ge := h
      eligibleApprovers, approvals := [], enqueuedAt := now, decidedAt := none, decidedBy := none
      decisionNote := none, rowVersion := 1 }
  else .error ⟨"ApprovalRule", "required_approvals"⟩

def enqueue (queueId : Uuid) (now : Time) (actionId tenantId : String) (assignedTo : Option String)
    (requiredApprovals : Int) (eligibleApprovers : Option (List String)) :
    Py QueueError InMemoryApprovalQueue ApprovalRule := do
  Py.ofExcept (enqueueChecks actionId tenantId requiredApprovals eligibleApprovers)
  let q ← Py.get
  match q.byId.get? actionId with
  | some existing => return existing
  | none => do
    let rule ← Py.ofExcept ((newRow queueId now actionId tenantId assignedTo requiredApprovals
      eligibleApprovers).mapError .validation)
    Py.modify fun q => {
      byId := q.byId.set actionId rule
      pendingByTenant := q.pendingByTenant.push tenantId actionId }
    return rule

/-- `_require_pending`. -/
def requirePending (actionId action : String) : Py QueueError InMemoryApprovalQueue ApprovalRule := do
  let q ← Py.get
  match q.byId.get? actionId with
  | none => Py.raise (.approvalNotFound actionId)
  | some rule =>
    if rule.state ≠ .pending then Py.raise (.approvalState actionId rule.state action)
    else return rule

/-- `_check_eligible`. -/
def checkEligible (rule : ApprovalRule) (decidedBy : Option String) : Except QueueError Unit :=
  match rule.eligibleApprovers with
  | none => .ok ()
  | some pool =>
    match decidedBy with
    | none => .error (.approverNotEligible none rule.actionId.1)
    | some voter =>
      if voter ∈ pool then .ok () else .error (.approverNotEligible (some voter) rule.actionId.1)

/-- The tenant's pending list without the action (`pending.remove`, if it is there). -/
def dropPending (pending : Dict String (List String)) (tenantId actionId : String) :
    Dict String (List String) :=
  match pending.get? tenantId with
  | some ids => pending.set tenantId (ids.erase actionId)
  | none => pending

/-- `_resolve`. -/
def resolve (now : Time) (rule : ApprovalRule) (targetState : ApprovalState)
    (decidedBy note : Option String) (approvals : List String) :
    Py QueueError InMemoryApprovalQueue ApprovalRule := do
  let resolved := { rule with
    state := targetState, approvals := approvals, decidedAt := some now, decidedBy := decidedBy,
    decisionNote := note, rowVersion := rule.rowVersion + 1 }
  Py.modify fun q => {
    byId := q.byId.set rule.actionId.1 resolved
    pendingByTenant := dropPending q.pendingByTenant rule.tenantId.1 rule.actionId.1 }
  return resolved

def approve (now : Time) (actionId : String) (decidedBy : Option String) :
    Py QueueError InMemoryApprovalQueue ApprovalRule := do
  let rule ← requirePending actionId "approve"
  Py.ofExcept (checkEligible rule decidedBy)
  if rule.requiredApprovals ≤ 1 then
    let recorded := match decidedBy with
      | some voter => if voter ∈ rule.approvals then rule.approvals else rule.approvals ++ [voter]
      | none => rule.approvals
    resolve now rule .approved decidedBy none recorded
  else
    match decidedBy with
    | none => Py.raise (.approverUnnamed actionId rule.requiredApprovals)
    | some voter =>
      if voter ∈ rule.approvals then Py.raise (.duplicateApprover voter actionId)
      else do
        let recorded := rule.approvals ++ [voter]
        if rule.requiredApprovals ≤ recorded.length then
          resolve now rule .approved decidedBy none recorded
        else do
          let updated := { rule with approvals := recorded, rowVersion := rule.rowVersion + 1 }
          Py.modify fun q => { q with byId := q.byId.set actionId updated }
          return updated

def reject (now : Time) (actionId reason : String) (decidedBy : Option String) :
    Py QueueError InMemoryApprovalQueue ApprovalRule := do
  let rule ← requirePending actionId "reject"
  Py.ofExcept (checkEligible rule decidedBy)
  resolve now rule .rejected decidedBy (if reason = "" then none else some reason) rule.approvals

def listPending (q : InMemoryApprovalQueue) (tenantId : String) : List ApprovalRule :=
  (q.pendingByTenant.getList tenantId).filterMap q.byId.get?

def get (q : InMemoryApprovalQueue) (actionId : String) : Option ApprovalRule := q.byId.get? actionId

end InMemoryApprovalQueue

/-! ## Rows -/

namespace ApprovalRule

/-- The voter is allowed by the row's pool. -/
def Eligible (row : ApprovalRule) (voter : String) : Prop := ∀ pool ∈ row.eligibleApprovers, voter ∈ pool

instance (row : ApprovalRule) (voter : String) : Decidable (row.Eligible voter) := by
  unfold Eligible; infer_instance

/-- One more approval reaches the quorum. -/
def LastVote (row : ApprovalRule) : Prop := row.requiredApprovals ≤ row.approvals.length + 1

instance (row : ApprovalRule) : Decidable row.LastVote := by unfold LastVote; infer_instance

/-- The row after the accepted approval of `voter`. -/
def vote (row : ApprovalRule) (now : Time) (voter : String) : ApprovalRule :=
  if row.LastVote then
    { row with
      state := .approved, approvals := row.approvals ++ [voter], decidedAt := some now,
      decidedBy := some voter, decisionNote := none, rowVersion := row.rowVersion + 1 }
  else { row with approvals := row.approvals ++ [voter], rowVersion := row.rowVersion + 1 }

/-- The row after the accepted rejection by `voter`. -/
def veto (row : ApprovalRule) (now : Time) (reason voter : String) : ApprovalRule :=
  { row with
    state := .rejected, decidedAt := some now, decidedBy := some voter,
    decisionNote := if reason = "" then none else some reason, rowVersion := row.rowVersion + 1 }

/-- `voter` can approve the row. -/
def Votable (row : ApprovalRule) (voter : String) : Prop :=
  row.state = .pending ∧ row.Eligible voter ∧ voter ∉ row.approvals

/-- `voter` can reject the row. -/
def Vetoable (row : ApprovalRule) (voter : String) : Prop := row.state = .pending ∧ row.Eligible voter

instance (row : ApprovalRule) (voter : String) : Decidable (row.Votable voter) := by
  unfold Votable; infer_instance

instance (row : ApprovalRule) (voter : String) : Decidable (row.Vetoable voter) := by
  unfold Vetoable; infer_instance

@[simp] theorem vote_actionId (row : ApprovalRule) (now : Time) (voter : String) :
    (row.vote now voter).actionId = row.actionId := by unfold vote; split <;> rfl

@[simp] theorem vote_tenantId (row : ApprovalRule) (now : Time) (voter : String) :
    (row.vote now voter).tenantId = row.tenantId := by unfold vote; split <;> rfl

@[simp] theorem vote_approvals (row : ApprovalRule) (now : Time) (voter : String) :
    (row.vote now voter).approvals = row.approvals ++ [voter] := by unfold vote; split <;> rfl

@[simp] theorem vote_requiredApprovals (row : ApprovalRule) (now : Time) (voter : String) :
    (row.vote now voter).requiredApprovals = row.requiredApprovals := by unfold vote; split <;> rfl

@[simp] theorem vote_eligibleApprovers (row : ApprovalRule) (now : Time) (voter : String) :
    (row.vote now voter).eligibleApprovers = row.eligibleApprovers := by unfold vote; split <;> rfl

@[simp] theorem vote_rowVersion (row : ApprovalRule) (now : Time) (voter : String) :
    (row.vote now voter).rowVersion = row.rowVersion + 1 := by unfold vote; split <;> rfl

theorem vote_state (row : ApprovalRule) (now : Time) (voter : String) :
    (row.vote now voter).state = if row.LastVote then .approved else row.state := by
  unfold vote; split <;> rfl

end ApprovalRule

namespace InMemoryApprovalQueue

/-- The queue after the row of `row.actionId` became `row`: a row that is no longer pending leaves
its tenant's pending list. -/
def store (q : InMemoryApprovalQueue) (row : ApprovalRule) : InMemoryApprovalQueue where
  byId := q.byId.set row.actionId.1 row
  pendingByTenant :=
    if row.state = .pending then q.pendingByTenant
    else dropPending q.pendingByTenant row.tenantId.1 row.actionId.1

/-! ## What each operation does -/

theorem checkEligible_of {rule : ApprovalRule} {voter : String} (h : rule.Eligible voter) :
    checkEligible rule (some voter) = .ok () := by
  unfold checkEligible
  cases hp : rule.eligibleApprovers with
  | none => rfl
  | some pool => exact if_pos (h pool hp)

theorem checkEligible_error {rule : ApprovalRule} {voter : String} (h : ¬ rule.Eligible voter) :
    checkEligible rule (some voter) = .error (.approverNotEligible (some voter) rule.actionId.1) := by
  unfold checkEligible
  cases hp : rule.eligibleApprovers with
  | none => exact absurd (fun pool hpool => by rw [hp] at hpool; cases hpool) h
  | some pool =>
    refine if_neg fun hmem => h fun pool' hpool' => ?_
    rw [hp] at hpool'
    cases hpool'
    exact hmem

/-- What an approval by `voter` raises on `row`. -/
def voteError (row : ApprovalRule) (voter : String) : QueueError :=
  if row.state ≠ .pending then .approvalState row.actionId.1 row.state "approve"
  else if ¬ row.Eligible voter then .approverNotEligible (some voter) row.actionId.1
  else .duplicateApprover voter row.actionId.1

/-- What a rejection by `voter` raises on `row`. -/
def vetoError (row : ApprovalRule) (voter : String) : QueueError :=
  if row.state ≠ .pending then .approvalState row.actionId.1 row.state "reject"
  else .approverNotEligible (some voter) row.actionId.1

theorem requirePending_absent {q : InMemoryApprovalQueue} {actionId : String} (action : String)
    (h : q.byId.get? actionId = none) :
    (requirePending actionId action).run q = (.error (.approvalNotFound actionId), q) := by
  unfold requirePending
  rw [Py.run_bind_ok (Py.run_get q), h]
  rfl

theorem requirePending_found {q : InMemoryApprovalQueue} {actionId : String} {row : ApprovalRule}
    (action : String) (h : q.byId.get? actionId = some row) :
    (requirePending actionId action).run q =
      if row.state ≠ .pending then (.error (.approvalState actionId row.state action), q)
      else (.ok row, q) := by
  unfold requirePending
  rw [Py.run_bind_ok (Py.run_get q), h]
  exact Py.run_ite _ _ _

theorem approve_absent {q : InMemoryApprovalQueue} {actionId : String} (now : Time)
    (decidedBy : Option String) (h : q.byId.get? actionId = none) :
    (approve now actionId decidedBy).run q = (.error (.approvalNotFound actionId), q) :=
  Py.run_bind_error (requirePending_absent _ h)

theorem reject_absent {q : InMemoryApprovalQueue} {actionId : String} (now : Time) (reason : String)
    (decidedBy : Option String) (h : q.byId.get? actionId = none) :
    (reject now actionId reason decidedBy).run q = (.error (.approvalNotFound actionId), q) :=
  Py.run_bind_error (requirePending_absent _ h)

theorem resolve_run (q : InMemoryApprovalQueue) (now : Time) (row : ApprovalRule)
    (target : ApprovalState) (decidedBy note : Option String) (approvals : List String)
    (h : target ≠ .pending) :
    (resolve now row target decidedBy note approvals).run q =
      (.ok { row with
        state := target, approvals := approvals, decidedAt := some now, decidedBy := decidedBy,
        decisionNote := note, rowVersion := row.rowVersion + 1 },
       q.store { row with
        state := target, approvals := approvals, decidedAt := some now, decidedBy := decidedBy,
        decisionNote := note, rowVersion := row.rowVersion + 1 }) := by
  simp only [resolve, store, h, ↓reduceIte]
  rfl

/-- An approval of a row whose approvals are still fewer than `N` while it is pending: accepted
exactly if the row is `Votable`, with the next row `vote`; refused with `voteError` and no change
otherwise. -/
theorem approve_spec {q : InMemoryApprovalQueue} {row : ApprovalRule} (now : Time) (voter : String)
    (hrow : q.byId.get? row.actionId.1 = some row)
    (hlt : row.state = .pending → (row.approvals.length : Int) < row.requiredApprovals) :
    (approve now row.actionId.1 (some voter)).run q =
      if row.Votable voter then (.ok (row.vote now voter), q.store (row.vote now voter))
      else (.error (voteError row voter), q) := by
  have hp := requirePending_found "approve" hrow
  by_cases hs : row.state = .pending
  · rw [if_neg (not_not.mpr hs)] at hp
    unfold approve
    rw [Py.run_bind_ok hp, Py.run_ofExcept_bind]
    by_cases he : row.Eligible voter
    · rw [checkEligible_of he]
      simp only [Py.run_ite]
      have hlt := hlt hs
      by_cases h1 : row.requiredApprovals ≤ 1
      · -- A pending row with `N = 1` has no approval yet, so the voter is new.
        have hnil : row.approvals = [] := List.eq_nil_of_length_eq_zero (by omega)
        have hv : row.Votable voter := ⟨hs, he, by rw [hnil]; exact List.not_mem_nil⟩
        have hlast : row.LastVote := by unfold ApprovalRule.LastVote; omega
        rw [if_pos h1, if_pos hv, resolve_run _ _ _ _ _ _ _ (by decide)]
        simp [ApprovalRule.vote, hlast, hnil]
      · rw [if_neg h1]
        by_cases hd : voter ∈ row.approvals
        · have hv : ¬ row.Votable voter := fun h => h.2.2 hd
          simp [hd, hv, voteError, hs, he]
        · have hv : row.Votable voter := ⟨hs, he, hd⟩
          have hlen : ((row.approvals ++ [voter]).length : Int) = row.approvals.length + 1 := by simp
          rw [if_neg hd, if_pos hv]
          simp only [hlen]
          by_cases hlast : row.LastVote
          · have hl : row.requiredApprovals ≤ (row.approvals.length : Int) + 1 := hlast
            rw [if_pos hl, resolve_run _ _ _ _ _ _ _ (by decide)]
            simp [ApprovalRule.vote, hlast]
          · have hl : ¬ row.requiredApprovals ≤ (row.approvals.length : Int) + 1 := hlast
            rw [if_neg hl, Py.run_bind_ok (Py.run_modify _ _)]
            simp [ApprovalRule.vote, hlast, store, hs]
    · rw [checkEligible_error he]
      have hv : ¬ row.Votable voter := fun h => he h.2.1
      simp [hv, voteError, hs, he]
  · rw [if_pos hs] at hp
    have hv : ¬ row.Votable voter := fun h => hs h.1
    rw [if_neg hv]
    unfold approve
    rw [Py.run_bind_error hp]
    simp [voteError, hs]

/-- A rejection: accepted exactly if the row is `Vetoable`, with the next row `veto`. -/
theorem reject_spec {q : InMemoryApprovalQueue} {row : ApprovalRule} (now : Time)
    (reason voter : String) (hrow : q.byId.get? row.actionId.1 = some row) :
    (reject now row.actionId.1 reason (some voter)).run q =
      if row.Vetoable voter then (.ok (row.veto now reason voter), q.store (row.veto now reason voter))
      else (.error (vetoError row voter), q) := by
  have hp := requirePending_found "reject" hrow
  by_cases hs : row.state = .pending
  · rw [if_neg (not_not.mpr hs)] at hp
    unfold reject
    rw [Py.run_bind_ok hp, Py.run_ofExcept_bind]
    by_cases he : row.Eligible voter
    · have hv : row.Vetoable voter := ⟨hs, he⟩
      rw [checkEligible_of he, if_pos hv]
      exact resolve_run _ _ _ _ _ _ _ (by decide)
    · have hv : ¬ row.Vetoable voter := fun h => he h.2
      rw [checkEligible_error he, if_neg hv]
      simp [vetoError, hs]
  · rw [if_pos hs] at hp
    have hv : ¬ row.Vetoable voter := fun h => hs h.1
    rw [if_neg hv]
    unfold reject
    rw [Py.run_bind_error hp]
    simp [vetoError, hs]

/-- The pool can reach the quorum, and names nobody twice. -/
def PoolOk (requiredApprovals : Int) (eligibleApprovers : Option (List String)) : Prop :=
  ∀ pool ∈ eligibleApprovers, pool.Nodup ∧ requiredApprovals ≤ pool.length

theorem enqueueChecks_ok {actionId tenantId : String} {n : Int} {pool : Option (List String)} :
    enqueueChecks actionId tenantId n pool = .ok () ↔
      actionId ≠ "" ∧ tenantId ≠ "" ∧ 1 ≤ n ∧ PoolOk n pool := by
  unfold enqueueChecks PoolOk
  by_cases ha : actionId = ""
  · simp [ha]
  by_cases ht : tenantId = ""
  · simp [ha, ht]
  by_cases hn : n < 1
  · have hn' : ¬ 1 ≤ n := Int.not_le.mpr hn
    simp [ha, ht, hn, hn']
  cases pool with
  | none => simp [ha, ht, hn, Int.not_lt.mp hn]
  | some pool =>
    by_cases hd : pool.Nodup
    · by_cases hl : (pool.length : Int) < n
      · simp [ha, ht, hn, hd, hl]
      · simp [ha, ht, hn, hd, hl, Int.not_lt.mp hn, Int.not_lt.mp hl]
    · simp [ha, ht, hn, hd]

/-- `enqueue`: an argument check raises and changes nothing; a known action returns its row and
changes nothing; a row the contract refuses raises and changes nothing; else the new row is stored
and its action goes to the end of the tenant's pending list. -/
theorem enqueue_spec (q : InMemoryApprovalQueue) (queueId : Uuid) (now : Time)
    (actionId tenantId : String) (assignedTo : Option String) (n : Int)
    (pool : Option (List String)) :
    (enqueue queueId now actionId tenantId assignedTo n pool).run q =
      match enqueueChecks actionId tenantId n pool with
      | .error e => (.error e, q)
      | .ok () =>
        match q.byId.get? actionId with
        | some existing => (.ok existing, q)
        | none =>
          match newRow queueId now actionId tenantId assignedTo n pool with
          | .error e => (.error (.validation e), q)
          | .ok row =>
            (.ok row,
             { byId := q.byId.set actionId row
               pendingByTenant := q.pendingByTenant.push tenantId actionId }) := by
  unfold enqueue
  rw [Py.run_ofExcept_bind]
  cases enqueueChecks actionId tenantId n pool with
  | error e => rfl
  | ok u =>
    simp only
    rw [Py.run_bind_ok (Py.run_get q)]
    cases q.byId.get? actionId with
    | some existing => rfl
    | none =>
      simp only
      rw [Py.run_ofExcept_bind]
      cases newRow queueId now actionId tenantId assignedTo n pool <;> rfl

end InMemoryApprovalQueue
end PennyCore
