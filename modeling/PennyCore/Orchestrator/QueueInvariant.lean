import PennyCore.Lib.Run
import PennyCore.Orchestrator.Queue

/-!
# The approval queue over whole runs

A run of the queue is any sequence of `enqueue`, `approve` and `reject` calls with named voters,
the ones that raise included, from the empty queue (`QueueRun`).

* **History.** `approvalsIn h id` are the voters whose approvals of `id` were accepted, in order;
  `vetoesIn h id` counts the accepted rejections; `enqueuedIn h` are the ids whose `enqueue` made
  a row, in order. All three are read off the history, not off the queue.
* **Invariant** (`QueueInv`). Each row records exactly its history (`RowOk`), the rows are in
  enqueue order, and each tenant's pending list is the list of its pending rows
  (`Dict.keysWhere`), so the list that the code maintains by hand is a view of the rows.
* **Steps.** `inv_insert` (a new row) and `inv_store` (an accepted vote or veto) are the only two
  ways the queue changes (`QueueInv.step_cases`); `inv_run` is the induction.
-/

namespace PennyCore

open Lib InMemoryApprovalQueue

/-! ## Operations and histories -/

/-- A call with a named voter. -/
inductive QueueOp where
  | enqueue (queueId : Uuid) (now : Time) (actionId tenantId : String) (assignedTo : Option String)
      (requiredApprovals : Int) (eligibleApprovers : Option (List String))
  | approve (now : Time) (actionId decidedBy : String)
  | reject (now : Time) (actionId reason decidedBy : String)

namespace QueueOp

def exec : QueueOp → Py QueueError InMemoryApprovalQueue ApprovalRule
  | .enqueue u now a t assigned n pool => InMemoryApprovalQueue.enqueue u now a t assigned n pool
  | .approve now a by' => InMemoryApprovalQueue.approve now a (some by')
  | .reject now a reason by' => InMemoryApprovalQueue.reject now a reason (some by')

/-- The call returned. -/
def Accepted (q : InMemoryApprovalQueue) (op : QueueOp) : Prop := ∃ row, (op.exec.run q).1 = .ok row

instance (q : InMemoryApprovalQueue) (op : QueueOp) : Decidable (op.Accepted q) :=
  match h : (op.exec.run q).1 with
  | .ok row => .isTrue ⟨row, h⟩
  | .error e => .isFalse fun ⟨row, hr⟩ => by rw [h] at hr; cases hr

end QueueOp

/-- The queue after a call. -/
def queueStep (q : InMemoryApprovalQueue) (op : QueueOp) : InMemoryApprovalQueue := (op.exec.run q).2

/-- A run of the queue from the empty one. -/
abbrev QueueRun : List (InMemoryApprovalQueue × QueueOp) → InMemoryApprovalQueue → Prop :=
  Run queueStep (fun _ _ => True) {}

/-- The voter, if the call is an accepted approval of `id`. -/
def approvalOf (id : String) : InMemoryApprovalQueue × QueueOp → Option String
  | (q, .approve now a voter) =>
    if a = id ∧ (QueueOp.approve now a voter).Accepted q then some voter else none
  | _ => none

/-- The call is an accepted rejection of `id`. -/
def vetoOf (id : String) : InMemoryApprovalQueue × QueueOp → Bool
  | (q, .reject now a reason voter) =>
    decide (a = id ∧ (QueueOp.reject now a reason voter).Accepted q)
  | _ => false

/-- The id, if the call is an `enqueue` that made a row. -/
def insertOf : InMemoryApprovalQueue × QueueOp → Option String
  | (q, .enqueue u now a t assigned n pool) =>
    if q.byId.get? a = none ∧ (QueueOp.enqueue u now a t assigned n pool).Accepted q then some a
    else none
  | _ => none

/-- The voters whose approvals of `id` were accepted, in order. -/
def approvalsIn (h : List (InMemoryApprovalQueue × QueueOp)) (id : String) : List String :=
  h.filterMap (approvalOf id)

/-- How many rejections of `id` were accepted. -/
def vetoesIn (h : List (InMemoryApprovalQueue × QueueOp)) (id : String) : Nat := h.countP (vetoOf id)

/-- The ids that were enqueued, in order. -/
def enqueuedIn (h : List (InMemoryApprovalQueue × QueueOp)) : List String := h.filterMap insertOf

/-- What one call adds to the history: an approval, a veto or a row, or nothing. -/
theorem approvalsIn_snoc (h : List (InMemoryApprovalQueue × QueueOp)) (id : String)
    (p : InMemoryApprovalQueue × QueueOp) :
    approvalsIn (h ++ [p]) id = approvalsIn h id ++ (approvalOf id p).toList := by
  unfold approvalsIn
  rw [List.filterMap_append]
  cases hp : approvalOf id p <;> simp [hp]

theorem vetoesIn_snoc (h : List (InMemoryApprovalQueue × QueueOp)) (id : String)
    (p : InMemoryApprovalQueue × QueueOp) :
    vetoesIn (h ++ [p]) id = vetoesIn h id + if vetoOf id p then 1 else 0 := by
  unfold vetoesIn
  rw [List.countP_append]
  cases hp : vetoOf id p <;> simp [hp]

theorem enqueuedIn_snoc (h : List (InMemoryApprovalQueue × QueueOp))
    (p : InMemoryApprovalQueue × QueueOp) :
    enqueuedIn (h ++ [p]) = enqueuedIn h ++ (insertOf p).toList := by
  unfold enqueuedIn
  rw [List.filterMap_append]
  cases hp : insertOf p <;> simp [hp]

/-! ## The invariant -/

/-- The row is pending and belongs to tenant `t`. -/
def pendingOf (t : String) (row : ApprovalRule) : Bool := row.state = .pending ∧ row.tenantId.1 = t

/-- The row of `id` after the accepted approvals `as` and `v` accepted rejections. -/
structure RowOk (id : String) (as : List String) (v : Nat) (row : ApprovalRule) : Prop where
  key : row.actionId.1 = id
  approvals : row.approvals = as
  nodup : row.approvals.Nodup
  inPool : ∀ voter ∈ row.approvals, row.Eligible voter
  pool : PoolOk row.requiredApprovals row.eligibleApprovers
  pending : row.state = .pending ↔ v = 0 ∧ (row.approvals.length : Int) < row.requiredApprovals
  approved : row.state = .approved → (row.approvals.length : Int) = row.requiredApprovals
  rejected : row.state = .rejected ↔ v ≠ 0
  live : row.state ≠ .expired
  version : row.rowVersion = 1 + row.approvals.length + v

/-- The invariant of the queue after the history `h` (module doc). -/
structure QueueInv (h : List (InMemoryApprovalQueue × QueueOp)) (q : InMemoryApprovalQueue) :
    Prop where
  row : ∀ id row, q.byId.get? id = some row → RowOk id (approvalsIn h id) (vetoesIn h id) row
  absent : ∀ id, q.byId.get? id = none → approvalsIn h id = [] ∧ vetoesIn h id = 0
  order : q.byId.keys = enqueuedIn h
  pending : ∀ t, q.pendingByTenant.getList t = q.byId.keysWhere (pendingOf t)

theorem RowOk.open_lt {id : String} {as : List String} {v : Nat} {row : ApprovalRule}
    (h : RowOk id as v row) (hs : row.state = .pending) :
    (row.approvals.length : Int) < row.requiredApprovals := (h.pending.mp hs).2

/-- An accepted approval. -/
theorem RowOk.vote {id : String} {as : List String} {v : Nat} {row : ApprovalRule}
    (h : RowOk id as v row) {voter : String} (hv : row.Votable voter) (now : Time) :
    RowOk id (as ++ [voter]) v (row.vote now voter) := by
  obtain ⟨hs, he, hn⟩ := hv
  obtain ⟨hv0, hlt⟩ := h.pending.mp hs
  have hlast : row.LastVote ↔ row.requiredApprovals ≤ (row.approvals.length : Int) + 1 := Iff.rfl
  refine ⟨by simp [h.key], by simp [h.approvals], ?_, ?_, by simpa using h.pool, ?_, ?_, ?_, ?_, ?_⟩
  · rw [ApprovalRule.vote_approvals]
    exact List.nodup_append.mpr ⟨h.nodup, List.nodup_singleton _, fun a ha b hb hab => by
      rw [List.mem_singleton] at hb
      exact hn (hb ▸ hab ▸ ha)⟩
  · intro w hw
    rw [ApprovalRule.vote_approvals, List.mem_append, List.mem_singleton] at hw
    unfold ApprovalRule.Eligible
    rw [ApprovalRule.vote_eligibleApprovers]
    rcases hw with hw | rfl
    · exact h.inPool w hw
    · exact he
  · rw [ApprovalRule.vote_state, ApprovalRule.vote_approvals, ApprovalRule.vote_requiredApprovals]
    split <;> rename_i hl <;> rw [hlast] at hl <;> simp [hs, hv0] <;> omega
  · rw [ApprovalRule.vote_state, ApprovalRule.vote_approvals, ApprovalRule.vote_requiredApprovals]
    split <;> rename_i hl <;> rw [hlast] at hl <;> simp [hs]
    omega
  · rw [ApprovalRule.vote_state]
    split <;> simp [hs, hv0]
  · rw [ApprovalRule.vote_state]
    split <;> simp [hs]
  · simp only [ApprovalRule.vote_rowVersion, ApprovalRule.vote_approvals, List.length_append,
      List.length_singleton, h.version]
    omega

/-- An accepted rejection. -/
theorem RowOk.veto {id : String} {as : List String} {v : Nat} {row : ApprovalRule}
    (h : RowOk id as v row) {voter : String} (hv : row.Vetoable voter) (now : Time)
    (reason : String) : RowOk id as (v + 1) (row.veto now reason voter) := by
  obtain ⟨hs, -⟩ := hv
  obtain ⟨rfl, -⟩ := h.pending.mp hs
  refine ⟨h.key, h.approvals, h.nodup, h.inPool, h.pool, ?_, ?_, ?_, ?_, ?_⟩
  · simp [ApprovalRule.veto]
  · simp [ApprovalRule.veto]
  · simp [ApprovalRule.veto]
  · simp [ApprovalRule.veto]
  · simp [ApprovalRule.veto, h.version]

/-! ## What a step can do -/

/-- Every call leaves the queue as it was or inserts a new row or stores an accepted vote or veto;
in each case with what it adds to the history. -/
theorem QueueInv.step_cases {h : List (InMemoryApprovalQueue × QueueOp)} {q : InMemoryApprovalQueue}
    (hi : QueueInv h q) (op : QueueOp) :
    (queueStep q op = q ∧ (∀ id, approvalOf id (q, op) = none ∧ vetoOf id (q, op) = false) ∧
      insertOf (q, op) = none) ∨
    (∃ u now a t assigned n pool row, op = .enqueue u now a t assigned n pool ∧
      q.byId.get? a = none ∧ enqueueChecks a t n pool = .ok () ∧
      newRow u now a t assigned n pool = .ok row ∧
      queueStep q op = { byId := q.byId.set a row, pendingByTenant := q.pendingByTenant.push t a } ∧
      insertOf (q, op) = some a) ∨
    (∃ now a voter row, op = .approve now a voter ∧ q.byId.get? a = some row ∧ row.Votable voter ∧
      queueStep q op = q.store (row.vote now voter) ∧ op.Accepted q) ∨
    (∃ now a reason voter row, op = .reject now a reason voter ∧ q.byId.get? a = some row ∧
      row.Vetoable voter ∧ queueStep q op = q.store (row.veto now reason voter) ∧
      op.Accepted q) := by
  cases op with
  | enqueue u now a t assigned n pool =>
    have hs := enqueue_spec q u now a t assigned n pool
    cases hc : enqueueChecks a t n pool with
    | error e =>
      rw [hc] at hs
      refine .inl ⟨congrArg Prod.snd hs, fun _ => ⟨rfl, rfl⟩, if_neg fun hacc => ?_⟩
      obtain ⟨row, hrow⟩ := hacc.2
      rw [QueueOp.exec, hs] at hrow
      cases hrow
    | ok u' =>
      rw [hc] at hs
      cases hg : q.byId.get? a with
      | some existing =>
        rw [hg] at hs
        exact .inl ⟨congrArg Prod.snd hs, fun _ => ⟨rfl, rfl⟩, if_neg fun hacc => by
          rw [hg] at hacc; cases hacc.1⟩
      | none =>
        rw [hg] at hs
        cases hn : newRow u now a t assigned n pool with
        | error e =>
          rw [hn] at hs
          refine .inl ⟨congrArg Prod.snd hs, fun _ => ⟨rfl, rfl⟩, if_neg fun hacc => ?_⟩
          obtain ⟨row, hrow⟩ := hacc.2
          rw [QueueOp.exec, hs] at hrow
          cases hrow
        | ok row =>
          rw [hn] at hs
          exact .inr (.inl ⟨u, now, a, t, assigned, n, pool, row, rfl, hg, hc, hn,
            congrArg Prod.snd hs, if_pos ⟨hg, row, congrArg Prod.fst hs⟩⟩)
  | approve now a voter =>
    cases hg : q.byId.get? a with
    | none =>
      have hs := approve_absent now (some voter) hg
      refine .inl ⟨congrArg Prod.snd hs, fun id => ⟨if_neg fun hacc => ?_, rfl⟩, rfl⟩
      obtain ⟨row, hrow⟩ := hacc.2
      rw [QueueOp.exec, hs] at hrow
      cases hrow
    | some row =>
      have hok := hi.row a row hg
      obtain rfl : row.actionId.1 = a := hok.key
      have hs := approve_spec now voter hg hok.open_lt
      by_cases hv : row.Votable voter
      · rw [if_pos hv] at hs
        exact .inr (.inr (.inl ⟨now, _, voter, row, rfl, hg, hv, congrArg Prod.snd hs,
          _, congrArg Prod.fst hs⟩))
      · rw [if_neg hv] at hs
        refine .inl ⟨congrArg Prod.snd hs, fun id => ⟨if_neg fun hacc => ?_, rfl⟩, rfl⟩
        obtain ⟨row', hrow⟩ := hacc.2
        rw [QueueOp.exec, hs] at hrow
        cases hrow
  | reject now a reason voter =>
    cases hg : q.byId.get? a with
    | none =>
      have hs := reject_absent now reason (some voter) hg
      refine .inl ⟨congrArg Prod.snd hs, fun id => ⟨rfl, decide_eq_false fun hacc => ?_⟩, rfl⟩
      obtain ⟨row, hrow⟩ := hacc.2
      rw [QueueOp.exec, hs] at hrow
      cases hrow
    | some row =>
      obtain rfl : row.actionId.1 = a := (hi.row a row hg).key
      have hs := reject_spec now reason voter hg
      by_cases hv : row.Vetoable voter
      · rw [if_pos hv] at hs
        exact .inr (.inr (.inr ⟨now, _, reason, voter, row, rfl, hg, hv, congrArg Prod.snd hs,
          _, congrArg Prod.fst hs⟩))
      · rw [if_neg hv] at hs
        refine .inl ⟨congrArg Prod.snd hs, fun id => ⟨rfl, decide_eq_false fun hacc => ?_⟩, rfl⟩
        obtain ⟨row', hrow⟩ := hacc.2
        rw [QueueOp.exec, hs] at hrow
        cases hrow

/-! ## The invariant is kept -/

theorem getList_dropPending (pending : Dict String (List String)) (tenantId actionId t : String) :
    (dropPending pending tenantId actionId).getList t =
      if t = tenantId then (pending.getList tenantId).erase actionId else pending.getList t := by
  unfold dropPending
  cases hg : pending.get? tenantId with
  | some ids =>
    have hl : pending.getList tenantId = ids := by unfold Dict.getList; rw [hg]; rfl
    rw [Dict.getList_set, hl]
  | none =>
    have hl : pending.getList tenantId = [] := by unfold Dict.getList; rw [hg]; rfl
    by_cases ht : t = tenantId
    · simp [ht, hl]
    · simp [ht]

/-- The row that `enqueue` makes. -/
theorem newRow_ok {u : Uuid} {now : Time} {a t : String} {assigned : Option String} {n : Int}
    {pool : Option (List String)} {row : ApprovalRule}
    (h : newRow u now a t assigned n pool = .ok row) :
    row.actionId.1 = a ∧ row.tenantId.1 = t ∧ row.state = .pending ∧ row.approvals = [] ∧
      row.requiredApprovals = n ∧ row.eligibleApprovers = pool ∧ row.rowVersion = 1 := by
  unfold newRow at h
  by_cases ht : 1 ≤ t.length ∧ UpTo 64 t
  swap
  · rw [Str.check_error ht] at h; cases h
  by_cases ha : 1 ≤ a.length ∧ UpTo 64 a
  swap
  · rw [Str.check_ok ht, Str.check_error ha] at h; cases h
  rw [Str.check_ok ht, Str.check_ok ha] at h
  cases hs : Str.checkOpt 128 "ApprovalRule" "assigned_to" assigned with
  | error e => rw [hs] at h; cases h
  | ok who =>
    rw [hs] at h
    by_cases hn : 1 ≤ n
    · simp only [bind, Except.bind, hn, ↓reduceDIte, pure, Except.pure, Except.ok.injEq] at h
      subst h
      exact ⟨rfl, rfl, rfl, rfl, rfl, rfl, rfl⟩
    · simp [bind, Except.bind, hn] at h

/-- A new row and its place at the end of the tenant's list. -/
theorem inv_insert {h : List (InMemoryApprovalQueue × QueueOp)} {q : InMemoryApprovalQueue}
    (hi : QueueInv h q) {u : Uuid} {now : Time} {a t : String} {assigned : Option String} {n : Int}
    {pool : Option (List String)} {row : ApprovalRule} (ha : q.byId.get? a = none)
    (hc : enqueueChecks a t n pool = .ok ()) (hn : newRow u now a t assigned n pool = .ok row)
    (hop : insertOf (q, .enqueue u now a t assigned n pool) = some a) :
    QueueInv (h ++ [(q, .enqueue u now a t assigned n pool)])
      { byId := q.byId.set a row, pendingByTenant := q.pendingByTenant.push t a } := by
  obtain ⟨hra, hrt, hrs, hrv, hrn, hrp, hrow⟩ := newRow_ok hn
  obtain ⟨-, -, hn1, hpool⟩ := enqueueChecks_ok.mp hc
  have hap : ∀ id, approvalsIn (h ++ [(q, .enqueue u now a t assigned n pool)]) id =
      approvalsIn h id := fun id => by rw [approvalsIn_snoc]; exact List.append_nil _
  have hve : ∀ id, vetoesIn (h ++ [(q, .enqueue u now a t assigned n pool)]) id =
      vetoesIn h id := fun id => by rw [vetoesIn_snoc]; rfl
  refine ⟨fun id row' hrow' => ?_, fun id hid => ?_, ?_, fun t' => ?_⟩
  · rw [hap, hve]
    simp only [Dict.get?_set] at hrow'
    split at hrow'
    · subst id
      cases hrow'
      obtain ⟨h1, h2⟩ := hi.absent a ha
      rw [h1, h2]
      exact ⟨hra, hrv, by rw [hrv]; exact List.nodup_nil, by rw [hrv]; simp,
        by rw [hrn, hrp]; exact hpool, by rw [hrs, hrv, hrn]; simp; omega, by rw [hrs]; simp,
        by rw [hrs]; simp, by rw [hrs]; simp, by rw [hrow, hrv]; rfl⟩
    · exact hi.row id row' hrow'
  · rw [hap, hve]
    simp only [Dict.get?_set] at hid
    split at hid
    · cases hid
    · exact hi.absent id hid
  · rw [enqueuedIn_snoc, hop, Dict.keys_set, if_neg (Dict.get?_eq_none.mp ha), hi.order]
    rfl
  · have hk := Dict.keysWhere_set_new (p := pendingOf t') (v := row) ha
    have hpo : pendingOf t' row = decide (t' = t) := by
      unfold pendingOf
      rw [hrs, hrt]
      simp [eq_comm]
    rw [Dict.getList_push, hk, hpo, hi.pending t', hi.pending t]
    by_cases ht : t' = t
    · subst ht; simp
    · simp [ht]

/-- Storing the next version of a pending row keeps the lists in step with the rows. -/
theorem pending_store {q : InMemoryApprovalQueue} {row row' : ApprovalRule}
    (hp : ∀ t, q.pendingByTenant.getList t = q.byId.keysWhere (pendingOf t))
    (hrow : q.byId.get? row.actionId.1 = some row) (hs : row.state = .pending)
    (hid : row'.actionId = row.actionId) (ht : row'.tenantId = row.tenantId) (t : String) :
    (q.store row').pendingByTenant.getList t = (q.store row').byId.keysWhere (pendingOf t) := by
  unfold store
  rw [hid, ht]
  by_cases hs' : row'.state = .pending
  · have hsame : pendingOf t row' = pendingOf t row := by unfold pendingOf; rw [hs, hs', ht]
    simp only [hs', ↓reduceIte]
    rw [Dict.keysWhere_set_keep hrow hsame, hp t]
  · have hno : pendingOf t row' = false := by unfold pendingOf; simp [hs']
    simp only [hs', ↓reduceIte]
    rw [getList_dropPending]
    by_cases htt : t = row.tenantId.1
    · rw [if_pos htt, Dict.keysWhere_set_drop hrow hno, hp, htt]
    · have hsame : pendingOf t row' = pendingOf t row := by
        unfold pendingOf
        simp [hs', Ne.symm htt]
      rw [if_neg htt, Dict.keysWhere_set_keep hrow hsame, hp t]

/-- An accepted vote or veto. -/
theorem inv_store {h : List (InMemoryApprovalQueue × QueueOp)} {q : InMemoryApprovalQueue}
    (hi : QueueInv h q) {op : QueueOp} {row row' : ApprovalRule}
    (hrow : q.byId.get? row.actionId.1 = some row) (hs : row.state = .pending)
    (hid : row'.actionId = row.actionId) (ht : row'.tenantId = row.tenantId)
    (hok : RowOk row.actionId.1 (approvalsIn (h ++ [(q, op)]) row.actionId.1)
      (vetoesIn (h ++ [(q, op)]) row.actionId.1) row')
    (hother : ∀ id, id ≠ row.actionId.1 → approvalOf id (q, op) = none ∧ vetoOf id (q, op) = false)
    (hop : insertOf (q, op) = none) : QueueInv (h ++ [(q, op)]) (q.store row') := by
  have hframe : ∀ id, id ≠ row.actionId.1 → approvalsIn (h ++ [(q, op)]) id = approvalsIn h id ∧
      vetoesIn (h ++ [(q, op)]) id = vetoesIn h id := fun id hne => by
    obtain ⟨h1, h2⟩ := hother id hne
    rw [approvalsIn_snoc, vetoesIn_snoc, h1, h2]
    exact ⟨List.append_nil _, rfl⟩
  refine ⟨fun id r hr => ?_, fun id hr => ?_, ?_, pending_store hi.pending hrow hs hid ht⟩
  · rw [store, hid, Dict.get?_set] at hr
    split at hr
    · subst id
      cases hr
      exact hok
    · rename_i hne
      rw [(hframe id hne).1, (hframe id hne).2]
      exact hi.row id r hr
  · rw [store, hid, Dict.get?_set] at hr
    split at hr
    · cases hr
    · rename_i hne
      rw [(hframe id hne).1, (hframe id hne).2]
      exact hi.absent id hr
  · rw [enqueuedIn_snoc, hop, store, hid, Dict.keys_set,
      if_pos (Dict.mem_keys.mpr ⟨row, hrow⟩), hi.order]
    exact (List.append_nil _).symm

/-- One call keeps the invariant. -/
theorem inv_step {h : List (InMemoryApprovalQueue × QueueOp)} {q : InMemoryApprovalQueue}
    (hi : QueueInv h q) (op : QueueOp) : QueueInv (h ++ [(q, op)]) (queueStep q op) := by
  rcases hi.step_cases op with ⟨hq, hv, hn⟩ |
    ⟨u, now, a, t, assigned, n, pool, row, rfl, ha, hc, hnew, hq, hop⟩ |
    ⟨now, a, voter, row, rfl, hrow, hv, hq, hacc⟩ |
    ⟨now, a, reason, voter, row, rfl, hrow, hv, hq, hacc⟩
  · rw [hq]
    have hap : ∀ id, approvalsIn (h ++ [(q, op)]) id = approvalsIn h id := fun id => by
      rw [approvalsIn_snoc, (hv id).1]; exact List.append_nil _
    have hve : ∀ id, vetoesIn (h ++ [(q, op)]) id = vetoesIn h id := fun id => by
      rw [vetoesIn_snoc, (hv id).2]; rfl
    exact ⟨fun id row hrow => by rw [hap, hve]; exact hi.row id row hrow,
      fun id hid => by rw [hap, hve]; exact hi.absent id hid,
      by rw [enqueuedIn_snoc, hn, hi.order]; exact (List.append_nil _).symm, hi.pending⟩
  · rw [hq]
    exact inv_insert hi ha hc hnew hop
  · have hok := hi.row a row hrow
    obtain rfl : row.actionId.1 = a := hok.key
    rw [hq]
    refine inv_store hi hrow hv.1 (by simp) (by simp) ?_
      (fun id hne => ⟨if_neg fun hc => hne hc.1.symm, rfl⟩) rfl
    have happ : approvalOf row.actionId.1 (q, .approve now row.actionId.1 voter) = some voter :=
      if_pos ⟨rfl, hacc⟩
    rw [approvalsIn_snoc, vetoesIn_snoc, happ]
    exact hok.vote hv now
  · have hok := hi.row a row hrow
    obtain rfl : row.actionId.1 = a := hok.key
    rw [hq]
    refine inv_store hi hrow hv.1 rfl rfl ?_
      (fun id hne => ⟨rfl, decide_eq_false fun hc => hne hc.1.symm⟩) rfl
    have hveto : vetoOf row.actionId.1 (q, .reject now row.actionId.1 reason voter) = true :=
      decide_eq_true ⟨rfl, hacc⟩
    rw [approvalsIn_snoc, vetoesIn_snoc, hveto, if_pos rfl]
    simpa [approvalOf] using hok.veto hv now reason

/-- Every run keeps the invariant. -/
theorem inv_run {h : List (InMemoryApprovalQueue × QueueOp)} {q : InMemoryApprovalQueue}
    (hr : QueueRun h q) : QueueInv h q :=
  hr.invariant (I := QueueInv)
    ⟨fun _ _ hrow => (by cases hrow), fun _ _ => ⟨rfl, rfl⟩, rfl, fun _ => rfl⟩
    fun _ _ o _ hi _ => inv_step hi o

/-! ## What follows -/

/-- A call that raises changes nothing, named voter or not. -/
theorem enqueue_atomic (u : Uuid) (now : Time) (a t : String) (assigned : Option String) (n : Int)
    (pool : Option (List String)) :
    (InMemoryApprovalQueue.enqueue u now a t assigned n pool).Atomic := by
  refine Py.Atomic.bind (Py.reads_ofExcept _) fun _ => Py.Atomic.bind Py.reads_get fun q => ?_
  cases q.byId.get? a with
  | some existing => exact (Py.reads_pure existing).atomic
  | none => exact Py.Atomic.bind (Py.reads_ofExcept _) fun _ => Py.atomic_of_ok fun _ => ⟨_, rfl⟩

theorem reads_requirePending (actionId action : String) :
    (requirePending actionId action).Reads := by
  apply Py.Reads.bind Py.reads_get
  intro q
  cases q.byId.get? actionId with
  | none => exact Py.reads_raise _
  | some rule => exact Py.Reads.ite (Py.reads_raise _) (Py.reads_pure rule)

theorem resolve_atomic (now : Time) (rule : ApprovalRule) (target : ApprovalState)
    (decidedBy note : Option String) (approvals : List String) :
    (resolve now rule target decidedBy note approvals).Atomic :=
  Py.atomic_of_ok fun _ => ⟨_, rfl⟩

theorem approve_atomic (now : Time) (actionId : String) (decidedBy : Option String) :
    (InMemoryApprovalQueue.approve now actionId decidedBy).Atomic := by
  refine Py.Atomic.bind (reads_requirePending _ _) fun rule =>
    Py.Atomic.bind (Py.reads_ofExcept _) fun _ => Py.Atomic.ite (resolve_atomic _ _ _ _ _ _) ?_
  cases decidedBy with
  | none => exact (Py.reads_raise _).atomic
  | some voter =>
    refine Py.Atomic.ite (Py.reads_raise _).atomic (Py.Atomic.ite (resolve_atomic _ _ _ _ _ _) ?_)
    exact Py.atomic_of_ok fun _ => ⟨_, rfl⟩

theorem reject_atomic (now : Time) (actionId reason : String) (decidedBy : Option String) :
    (InMemoryApprovalQueue.reject now actionId reason decidedBy).Atomic :=
  Py.Atomic.bind (reads_requirePending _ _) fun _ =>
    Py.Atomic.bind (Py.reads_ofExcept _) fun _ => resolve_atomic _ _ _ _ _ _

theorem QueueOp.exec_atomic (op : QueueOp) : op.exec.Atomic := by
  cases op with
  | enqueue u now a t assigned n pool => exact enqueue_atomic u now a t assigned n pool
  | approve now a voter => exact approve_atomic now a (some voter)
  | reject now a reason voter => exact reject_atomic now a reason (some voter)

/-- A resolved row survives every call. -/
theorem resolved_step {h : List (InMemoryApprovalQueue × QueueOp)} {q : InMemoryApprovalQueue}
    (hi : QueueInv h q) (op : QueueOp) {id : String} {row : ApprovalRule}
    (hrow : q.byId.get? id = some row) (hs : row.state ≠ .pending) :
    (queueStep q op).byId.get? id = some row := by
  have hstored : ∀ r r' : ApprovalRule, q.byId.get? r.actionId.1 = some r → r.state = .pending →
      r'.actionId = r.actionId → (q.store r').byId.get? id = some row := fun r r' hr hp hid => by
    rw [store, hid, Dict.get?_set_ne]
    · exact hrow
    · rintro rfl
      rw [hr] at hrow
      cases hrow
      exact hs hp
  rcases hi.step_cases op with ⟨hq, -, -⟩ | ⟨u, now, a, t, assigned, n, pool, r, -, ha, -, -, hq, -⟩ |
    ⟨now, a, voter, r, -, hr, hv, hq, -⟩ | ⟨now, a, reason, voter, r, -, hr, hv, hq, -⟩
  · rw [hq]
    exact hrow
  · rw [hq]
    refine (Dict.get?_set_ne _ _ ?_).trans hrow
    rintro rfl
    rw [ha] at hrow
    cases hrow
  · obtain rfl : r.actionId.1 = a := (hi.row a r hr).key
    rw [hq]
    exact hstored r _ hr hv.1 (by simp)
  · obtain rfl : r.actionId.1 = a := (hi.row a r hr).key
    rw [hq]
    exact hstored r _ hr hv.1 rfl

theorem resolved_run {h h' : List (InMemoryApprovalQueue × QueueOp)} {q q' : InMemoryApprovalQueue}
    (hr : QueueRun h q) (hr' : Run queueStep (fun _ _ => True) q h' q') {id : String}
    {row : ApprovalRule} (hrow : q.byId.get? id = some row) (hs : row.state ≠ .pending) :
    q'.byId.get? id = some row := by
  induction hr' with
  | start => exact hrow
  | next hr'' _ ih => exact resolved_step (inv_run (hr.append hr'')) _ ih hs

/-- The listing is the pending rows of the tenant in enqueue order. -/
theorem listPending_eq {h : List (InMemoryApprovalQueue × QueueOp)} {q : InMemoryApprovalQueue}
    (hi : QueueInv h q) (t : String) :
    q.listPending t = ((enqueuedIn h).filterMap q.byId.get?).filter (pendingOf t) := by
  unfold listPending
  rw [hi.pending t, ← hi.order]
  have hval : ∀ e ∈ q.byId.entries, q.byId.get? e.1 = some e.2 := fun e he =>
    Dict.get?_eq_some.mpr he
  unfold Dict.keysWhere Dict.keys
  generalize q.byId.entries = es at hval
  induction es with
  | nil => rfl
  | cons e es ih =>
    have hrest := ih fun e' he' => hval e' (List.mem_cons_of_mem e he')
    have he := hval e List.mem_cons_self
    cases hp : pendingOf t e.2 <;> simp [hp, he, hrest]

/-- The voters that a row with a pool still lacks are among the members who have not voted. -/
theorem RowOk.live_pool {id : String} {as : List String} {v : Nat} {row : ApprovalRule}
    (h : RowOk id as v row) {pool : List String} (hp : row.eligibleApprovers = some pool) :
    row.requiredApprovals - row.approvals.length ≤
      ((pool.filter fun voter => voter ∉ row.approvals).length : Int) := by
  obtain ⟨hnd, hfit⟩ := h.pool pool hp
  have hsub : row.approvals ⊆ pool := fun voter hv => h.inPool voter hv pool hp
  -- both lists are free of duplicates, so the ones who voted are as many members of the pool
  have hvoted : (pool.filter fun voter => voter ∈ row.approvals).length = row.approvals.length :=
    ((List.perm_ext_iff_of_nodup (hnd.filter _) h.nodup).mpr fun voter => by
      simp only [List.mem_filter, decide_eq_true_eq]
      exact ⟨fun hv => hv.2, fun hv => ⟨hsub hv, hv⟩⟩).length_eq
  have hsplit := List.length_eq_length_filter_add (l := pool) fun voter => decide (voter ∈ row.approvals)
  rw [hvoted] at hsplit
  have hneg : (pool.filter fun voter => !decide (voter ∈ row.approvals)) =
      pool.filter fun voter => decide (voter ∉ row.approvals) :=
    List.filter_congr fun voter _ => by simp
  rw [hneg] at hsplit
  omega

/-- The rows of a list of ids, in order, as long as each row is stored under its own id. -/
theorem actionIds_sublist {f : String → Option ApprovalRule} {p : ApprovalRule → Bool}
    (hkey : ∀ id row, f id = some row → row.actionId.1 = id) (ids : List String) :
    (((ids.filterMap f).filter p).map fun row => row.actionId.1).Sublist ids := by
  induction ids with
  | nil => exact .slnil
  | cons id ids ih =>
    cases hf : f id with
    | none => simpa [hf] using ih.cons id
    | some row =>
      cases hp : p row with
      | false => simpa [hf, hp] using ih.cons id
      | true => simpa [hf, hp, hkey id row hf] using ih.cons_cons id

/-! ## The queue's contract -/

/-- What holds of the approval queue after any run of `enqueue`, `approve` and `reject` calls. -/
theorem approvalQueue_contract {h : List (InMemoryApprovalQueue × QueueOp)}
    {q : InMemoryApprovalQueue} (hr : QueueRun h q) :
    -- votes are distinct and inside the pool
    (∀ id row, q.byId.get? id = some row → row.approvals = approvalsIn h id ∧
      row.approvals.Nodup ∧ ∀ pool ∈ row.eligibleApprovers, ∀ voter ∈ row.approvals, voter ∈ pool) ∧
    -- pending, approved and rejected are functions of the votes
    (∀ id row, q.byId.get? id = some row →
      (row.state = .pending ↔
        vetoesIn h id = 0 ∧ (row.approvals.length : Int) < row.requiredApprovals) ∧
      (row.state = .approved → (row.approvals.length : Int) = row.requiredApprovals) ∧
      (row.state = .rejected ↔ vetoesIn h id ≠ 0)) ∧
    -- a resolved row is final
    (∀ h' q', Run queueStep (fun _ _ => True) q h' q' → ∀ id row, q.byId.get? id = some row →
      row.state = .approved ∨ row.state = .rejected → q'.byId.get? id = some row) ∧
    -- the listing is the pending rows of the tenant, each once, in enqueue order
    (enqueuedIn h).Nodup ∧
    (∀ t, q.listPending t = ((enqueuedIn h).filterMap q.byId.get?).filter (pendingOf t) ∧
      ((q.listPending t).map fun row => row.actionId.1).Nodup) ∧
    -- the version counts the accepted votes
    (∀ id row, q.byId.get? id = some row →
      row.rowVersion = 1 + (approvalsIn h id).length + vetoesIn h id) ∧
    -- a second enqueue that passes the argument checks returns the row and changes nothing
    (∀ u now id t assigned n pool row, q.byId.get? id = some row →
      (InMemoryApprovalQueue.enqueue u now id t assigned n pool).run q =
        match enqueueChecks id t n pool with
        | .ok () => (.ok row, q)
        | .error e => (.error e, q)) ∧
    -- a call that raises changes nothing
    (∀ op : QueueOp, ∀ e, (op.exec.run q).1 = .error e → (op.exec.run q).2 = q) ∧
    -- no pending row is stuck
    (∀ id row pool, q.byId.get? id = some row → row.state = .pending →
      row.eligibleApprovers = some pool →
      row.requiredApprovals - row.approvals.length ≤
        ((pool.filter fun voter => voter ∉ row.approvals).length : Int)) := by
  have hi := inv_run hr
  have hnd : (enqueuedIn h).Nodup := hi.order ▸ q.byId.nodup
  refine ⟨fun id row hrow => ?_, fun id row hrow => ?_, fun h' q' hr' id row hrow hs => ?_, hnd,
    fun t => ⟨listPending_eq hi t, ?_⟩, fun id row hrow => ?_,
    fun u now id t assigned n pool row hrow => ?_, fun op e he => op.exec_atomic q e he,
    fun id row pool hrow _ hp => (hi.row id row hrow).live_pool hp⟩
  · have hok := hi.row id row hrow
    exact ⟨hok.approvals, hok.nodup, fun pool hp voter hv => hok.inPool voter hv pool hp⟩
  · have hok := hi.row id row hrow
    exact ⟨hok.pending, hok.approved, hok.rejected⟩
  · exact resolved_run hr hr' hrow (by rcases hs with hs | hs <;> rw [hs] <;> decide)
  · rw [listPending_eq hi]
    exact hnd.sublist (actionIds_sublist (fun id row hrow => (hi.row id row hrow).key) _)
  · have hok := hi.row id row hrow
    rw [hok.version, hok.approvals]
  · rw [enqueue_spec, hrow]
    cases enqueueChecks id t n pool <;> rfl

/-- Two actions of one tenant; the first is approved by both members of its pool, a vote for an
unknown action and a double vote in between. -/
def twoActions : List QueueOp :=
  let u : Uuid := ⟨"00000000000000000000000000000000", zeros_uuid⟩
  [.enqueue u 1 "act_a" "t1" none 2 (some ["ann", "bob"]), .enqueue u 2 "act_b" "t1" none 1 none,
    .approve 3 "act_a" "ann", .approve 4 "act_c" "ann", .approve 5 "act_a" "ann",
    .approve 6 "act_a" "bob"]

theorem approvalQueue_contract_twoActions :
    (((twoActions.foldl queueStep {}).listPending "t1").map fun row => row.actionId.1).Nodup ∧
      ((twoActions.foldl queueStep {}).listPending "t1").map (fun row => row.actionId.1) =
        ["act_b"] :=
  have hr : QueueRun (Run.trace queueStep {} twoActions) (twoActions.foldl queueStep {}) :=
    Run.ofOps ⟨trivial, trivial, trivial, trivial, trivial, trivial, trivial⟩
  ⟨((approvalQueue_contract hr).2.2.2.2.1 "t1").2, by decide⟩

end PennyCore
