import PennyCore.Lib.Fifo
import PennyCore.Lib.Py
import PennyCore.ContextEngine.Timeouts

/-!
# The defer queue

`src/context_engine/slow_call_queue.py`: a bounded buffer of deferred calls for each tenant, and
`with_deadline_and_defer`, which defers a call whose result is degraded.

* `SlowCallQueue`: the queue and its methods, as the code has them. The capacity is positive by
  construction (`SlowCallQueue.new` refuses any other).
* `SlowCallOp`, `SlowCallOp.step`: the calls of the public surface, and what one does to the queue. For a
  call and the queue it was applied to, `came` is what it deferred for a tenant, `drained` and
  `dropped` what left.
* `SlowCallQueue.conservation`: over any sequence of calls the deferred ones are those that left
  followed by those still queued, and the reads, the bound and the isolation of tenants.
-/

namespace PennyCore

open Lib

inductive DeferReason where
  | deadlineExceeded
  | transientError
  | explicitDefer
  deriving DecidableEq, Repr

structure DeferredCall where
  id : String
  tenantId : String
  operation : String
  reason : DeferReason
  detail : String
  payload : Payload
  deferredAt : Time
  elapsedMs : ℚ
  context : Payload

structure SlowCallQueue where
  max : { n : Nat // 0 < n }
  byTenant : Dict String (List DeferredCall)

/-- The arguments of one `defer` call. -/
structure DeferRequest where
  tenantId : String
  operation : String
  reason : DeferReason
  detail : String
  payload : Option Payload
  elapsedMs : ℚ
  context : Option Payload

namespace SlowCallQueue

def new (maxPerTenant : Int) : Except ValueError SlowCallQueue :=
  if h : maxPerTenant ≤ 0 then
    .error ⟨s!"max_per_tenant must be positive, got {maxPerTenant}"⟩
  else
    .ok { max := ⟨maxPerTenant.toNat, Fifo.capacity_pos h⟩, byTenant := ∅ }

/-- The queued calls of a tenant, oldest first. -/
def buf (q : SlowCallQueue) (tenantId : String) : List DeferredCall := q.byTenant.getList tenantId

/-- The entry of a `defer` call, with the id and the time that it is stamped with. -/
def entry (id : String) (now : Time) (r : DeferRequest) : DeferredCall where
  id := id
  tenantId := r.tenantId
  operation := r.operation
  reason := r.reason
  detail := r.detail
  payload := r.payload.getD ∅
  deferredAt := now
  elapsedMs := r.elapsedMs
  context := r.context.getD ∅

def defer (id : String) (now : Time) (r : DeferRequest) :
    Py ValueError SlowCallQueue DeferredCall := do
  if r.tenantId = "" then
    Py.raise ⟨"tenant_id required (use a sentinel if unknown)"⟩
  else
    let e := entry id now r
    Py.modify fun q =>
      { q with byTenant := q.byTenant.set r.tenantId (Fifo.push q.max e (q.buf r.tenantId)) }
    pure e

def pending (q : SlowCallQueue) (tenantId : String) (limit : Int) : List DeferredCall :=
  if limit ≤ 0 then [] else Fifo.newest limit.toNat (q.buf tenantId)

/-- What is drained, and the queue after it. -/
def drain (q : SlowCallQueue) (tenantId : String) (limit : Int) :
    List DeferredCall × SlowCallQueue :=
  if limit ≤ 0 then ([], q)
  else
    let buf := q.buf tenantId
    (buf.take limit.toNat,
      { q with byTenant := q.byTenant.set tenantId (buf.drop limit.toNat) })

def count (q : SlowCallQueue) (tenantId : String) : Nat := (q.buf tenantId).length

/-! ## What one call does -/

variable {q : SlowCallQueue} {id : String} {now : Time} {r : DeferRequest}

theorem defer_run (h : r.tenantId ≠ "") :
    (defer id now r).run q =
      (.ok (entry id now r),
        { q with
          byTenant := q.byTenant.set r.tenantId
            (Fifo.push q.max (entry id now r) (q.buf r.tenantId)) }) := by
  unfold defer
  rw [if_neg h]
  rfl

/-- A call for no tenant is refused and leaves the queue as it was. -/
theorem defer_refused (h : r.tenantId = "") :
    (defer id now r).run q = (.error ⟨"tenant_id required (use a sentinel if unknown)"⟩, q) := by
  unfold defer
  rw [if_pos h]
  rfl

theorem buf_set (q : SlowCallQueue) (t t' : String) (calls : List DeferredCall) :
    ({ q with byTenant := q.byTenant.set t calls } : SlowCallQueue).buf t' =
      if t' = t then calls else q.buf t' := by
  unfold buf
  exact Dict.getList_set q.byTenant t t' calls

theorem buf_drain (q : SlowCallQueue) (t t' : String) (limit : Int) :
    (q.drain t limit).2.buf t' =
      if t' = t then (q.buf t).drop limit.toNat else q.buf t' := by
  unfold drain
  split
  · rename_i h
    rw [Int.toNat_of_nonpos h, List.drop_zero]
    split
    · next heq => rw [heq]
    · rfl
  · exact buf_set ..

theorem drain_fst (q : SlowCallQueue) (t : String) (limit : Int) :
    (q.drain t limit).1 = (q.buf t).take limit.toNat := by
  unfold drain
  split
  · rename_i h
    rw [Int.toNat_of_nonpos h, List.take_zero]
  · rfl

/-- The newest `limit` calls, newest first, or all of them if there are fewer. -/
theorem pending_eq (q : SlowCallQueue) (t : String) (limit : Int) :
    q.pending t limit = (q.buf t).reverse.take limit.toNat := by
  unfold pending
  split
  · rename_i h
    rw [Int.toNat_of_nonpos h, List.take_zero]
  · exact Fifo.newest_eq ..

end SlowCallQueue

/-! ## Runs -/

/-- One call on the queue. `defer` comes with the id and the time that it draws. -/
inductive SlowCallOp where
  | defer (id : String) (now : Time) (r : DeferRequest)
  | drain (tenantId : String) (limit : Int)
  | pending (tenantId : String) (limit : Int)

namespace SlowCallOp

/-- The tenant that the call names. -/
def tenantId : SlowCallOp → String
  | .defer _ _ r => r.tenantId
  | .drain t _ => t
  | .pending t _ => t

/-- The queue after the call. -/
def step (q : SlowCallQueue) : SlowCallOp → SlowCallQueue
  | .defer id now r => ((SlowCallQueue.defer id now r).run q).2
  | .drain t limit => (q.drain t limit).2
  | .pending _ _ => q

/-- What the call `c.2` on the queue `c.1` defers for the tenant `t`. -/
def came (t : String) (c : SlowCallQueue × SlowCallOp) : List DeferredCall :=
  match c.2 with
  | .defer id now r =>
    match ((SlowCallQueue.defer id now r).run c.1).1 with
    | .ok e => if e.tenantId = t then [e] else []
    | .error _ => []
  | _ => []

/-- What it returns to a reconciler of the tenant. -/
def drained (t : String) (c : SlowCallQueue × SlowCallOp) : List DeferredCall :=
  match c.2 with
  | .drain t' limit => if t' = t then (c.1.drain t' limit).1 else []
  | _ => []

/-- What overflow deletes from the tenant's buffer. -/
def dropped (t : String) (c : SlowCallQueue × SlowCallOp) : List DeferredCall :=
  match c.2 with
  | .defer id now r =>
    if r.tenantId = t ∧ t ≠ "" then
      Fifo.evicted c.1.max (SlowCallQueue.entry id now r) (c.1.buf t)
    else []
  | _ => []

/-- What leaves the tenant's buffer, either way. -/
def went (t : String) (c : SlowCallQueue × SlowCallOp) : List DeferredCall :=
  drained t c ++ dropped t c

end SlowCallOp

namespace SlowCallQueue

open SlowCallOp

@[simp] theorem max_step (q : SlowCallQueue) (o : SlowCallOp) : (o.step q).max = q.max := by
  cases o with
  | pending t limit => rfl
  | drain t limit =>
    simp only [step, drain]
    split <;> rfl
  | defer id now r =>
    simp only [step]
    by_cases h : r.tenantId = ""
    · rw [defer_refused h]
    · rw [defer_run h]

/-- A call for one tenant leaves the buffers of the others as they were. -/
theorem buf_step_of_ne {q : SlowCallQueue} {o : SlowCallOp} {t : String} (h : o.tenantId ≠ t) :
    (o.step q).buf t = q.buf t := by
  have ht : ¬ t = o.tenantId := fun heq => h heq.symm
  cases o with
  | pending t' limit => rfl
  | drain t' limit => exact (buf_drain q t' t limit).trans (if_neg ht)
  | defer id now r =>
    simp only [step]
    by_cases hr : r.tenantId = ""
    · rw [defer_refused hr]
    · rw [defer_run hr]
      exact (buf_set ..).trans (if_neg ht)

/-- One call: what was queued and what it defers is what leaves and what is queued after it. -/
theorem step_conserves (t : String) (q : SlowCallQueue) (o : SlowCallOp) :
    q.buf t ++ came t (q, o) = went t (q, o) ++ (o.step q).buf t := by
  by_cases ht : o.tenantId = t
  · subst ht
    cases o with
    | pending t limit => exact List.append_nil _
    | drain t limit =>
      simp only [came, went, drained, dropped, tenantId, step, if_true, drain_fst, buf_drain,
        List.append_nil]
      exact (List.take_append_drop ..).symm
    | defer id now r =>
      simp only [came, went, drained, dropped, tenantId, step, List.nil_append]
      by_cases hr : r.tenantId = ""
      · simp [defer_refused hr, hr]
      · simp only [defer_run hr, buf_set, entry, ne_eq, hr, not_false_eq_true, and_self, if_true]
        exact (Fifo.evicted_append_push ..).symm
  · rw [buf_step_of_ne ht]
    have hcame : came t (q, o) = [] := by
      cases o with
      | pending t' limit => rfl
      | drain t' limit => rfl
      | defer id now r =>
        simp only [came]
        by_cases hr : r.tenantId = ""
        · rw [defer_refused hr]
        · rw [defer_run hr]
          exact if_neg ht
    have hwent : went t (q, o) = [] := by
      cases o with
      | pending t' limit => rfl
      | drain t' limit => simp [went, drained, dropped, show ¬ t' = t from ht]
      | defer id now r => simp [went, drained, dropped, show ¬ r.tenantId = t from ht]
    rw [hcame, hwent, List.append_nil, List.nil_append]

/-- No buffer is over the capacity. -/
def Bounded (q : SlowCallQueue) : Prop := ∀ t, (q.buf t).length ≤ q.max

theorem Bounded.step {q : SlowCallQueue} (hq : q.Bounded) (o : SlowCallOp) :
    (o.step q).Bounded := by
  intro t
  rw [max_step]
  by_cases ht : o.tenantId = t
  · subst ht
    cases o with
    | pending t limit => exact hq t
    | drain t limit =>
      have hlen := hq t
      simp only [SlowCallOp.step, tenantId, buf_drain, if_true, List.length_drop]
      omega
    | defer id now r =>
      simp only [SlowCallOp.step, tenantId]
      by_cases hr : r.tenantId = ""
      · rw [defer_refused hr]
        exact hq _
      · rw [defer_run hr, buf_set, if_pos rfl]
        exact Fifo.length_push_le ..
  · rw [buf_step_of_ne ht]
    exact hq t

theorem new_ok {maxPerTenant : Int} {q : SlowCallQueue} (h : new maxPerTenant = .ok q) :
    (q.max : Int) = maxPerTenant ∧ ∀ t, q.buf t = [] := by
  unfold new at h
  split at h
  · nomatch h
  · rename_i hpos
    cases h
    exact ⟨Int.toNat_of_nonneg (by omega), fun _ => rfl⟩

/-- The queues that the calls of a run were applied to are within the capacity of the first. -/
theorem run_bounded {q₀ q : SlowCallQueue} {h : List (SlowCallQueue × SlowCallOp)}
    (hq : q₀.Bounded) (hr : Run (fun q o => SlowCallOp.step q o) (fun _ _ => True) q₀ h q) :
    (q.Bounded ∧ q.max = q₀.max) ∧ ∀ c ∈ h, c.1.Bounded ∧ c.1.max = q₀.max := by
  apply hr.invariant (I := fun h q =>
    (q.Bounded ∧ q.max = q₀.max) ∧ ∀ c ∈ h, c.1.Bounded ∧ c.1.max = q₀.max)
  · exact ⟨⟨hq, rfl⟩, fun c hc => absurd hc List.not_mem_nil⟩
  · intro h q o _ ⟨hi, hall⟩ _
    refine ⟨⟨hi.1.step o, (max_step q o).trans hi.2⟩, ?_⟩
    intro c hc
    rcases List.mem_append.mp hc with hc | hc
    · exact hall c hc
    · exact List.mem_singleton.mp hc ▸ hi

/-- A call is dropped by overflow alone: the buffer is full and its oldest call goes. -/
theorem dropped_oldest {q : SlowCallQueue} (hq : q.Bounded) (o : SlowCallOp) {t : String}
    (h : dropped t (q, o) ≠ []) :
    (q.buf t).length = q.max ∧ dropped t (q, o) = (q.buf t).take 1 := by
  cases o with
  | drain t' limit => exact absurd rfl h
  | pending t' limit => exact absurd rfl h
  | defer id now r =>
    simp only [dropped] at h ⊢
    split at h
    · next ht =>
      rw [Fifo.evicted_eq q.max.2 _ (hq t)] at h ⊢
      by_cases hfull : (q.buf t).length = q.max
      · exact ⟨hfull, by rw [if_pos ht, if_pos hfull]⟩
      · rw [if_neg hfull] at h
        exact absurd rfl h
    · exact absurd rfl h

/-- Over any calls, from a new queue: for each tenant, the calls deferred are those that left, in the
order in which they left, and then those still queued; each of them was drained, dropped or is still
queued, once; a dropped one was the oldest of a full buffer; the capacity holds; a drain takes the
oldest; a read is the newest, newest first, and changes nothing; and a call for one tenant does
nothing to another. -/
theorem conservation {maxPerTenant : Int} {q₀ q : SlowCallQueue}
    {h : List (SlowCallQueue × SlowCallOp)} (hnew : new maxPerTenant = .ok q₀)
    (hr : Run (fun q o => SlowCallOp.step q o) (fun _ _ => True) q₀ h q) (t : String) :
    h.flatMap (came t) = h.flatMap (went t) ++ q.buf t ∧
      (h.flatMap (came t)).Perm (h.flatMap (drained t) ++ h.flatMap (dropped t) ++ q.buf t) ∧
      (∀ c ∈ h, dropped t c ≠ [] →
        (c.1.buf t).length = maxPerTenant ∧ dropped t c = (c.1.buf t).take 1) ∧
      (q.buf t).length ≤ maxPerTenant ∧
      (∀ limit : Int, (q.drain t limit).1 = (q.buf t).take limit.toNat) ∧
      (∀ limit : Int, q.pending t limit = (q.buf t).reverse.take limit.toNat ∧
        (q.pending t limit).length = min limit.toNat (q.buf t).length ∧
        (SlowCallOp.pending t limit).step q = q) ∧
      ∀ o : SlowCallOp, o.tenantId ≠ t → (o.step q).buf t = q.buf t := by
  obtain ⟨hmax, hempty⟩ := new_ok hnew
  have hzero : q₀.Bounded := fun t => by
    rw [hempty t]
    exact Nat.zero_le _
  obtain ⟨⟨hbound, hcap⟩, hall⟩ := run_bounded hzero hr
  have hfifo : h.flatMap (came t) = h.flatMap (went t) ++ q.buf t := by
    have hlaw := hr.conserves (B := fun q => q.buf t) (step_conserves t)
    rwa [hempty t, List.nil_append] at hlaw
  refine ⟨hfifo, ?_, ?_, ?_, fun limit => drain_fst q t limit, ?_, fun o ho => buf_step_of_ne ho⟩
  · rw [hfifo]
    exact (List.flatMap_append_perm h (drained t) (dropped t)).symm.append_right _
  · intro c hc hdrop
    obtain ⟨hb, hm⟩ := hall c hc
    obtain ⟨hfull, hold⟩ := dropped_oldest hb c.2 hdrop
    rw [hm] at hfull
    exact ⟨by omega, hold⟩
  · have hle := hbound t
    rw [hcap] at hle
    omega
  · intro limit
    refine ⟨pending_eq q t limit, ?_, rfl⟩
    rw [pending_eq, List.length_take, List.length_reverse]

/-- A `defer` call for the tenant `t`. -/
def sampleDefer (id : String) : SlowCallOp :=
  .defer id 0 { tenantId := "t", operation := "op", reason := .explicitDefer, detail := ""
                payload := none, elapsedMs := 0, context := none }

/-- Three calls on a queue for two, then a drain of one: the first is dropped, the second drained. -/
def sampleOps : List SlowCallOp :=
  [sampleDefer "a", sampleDefer "b", sampleDefer "c", .drain "t" 1]

theorem conservation_overflow :
    let q₀ : SlowCallQueue := { max := ⟨2, by decide⟩, byTenant := ∅ }
    let h := Run.trace (fun q o => SlowCallOp.step q o) q₀ sampleOps
    let q := sampleOps.foldl (fun q o => SlowCallOp.step q o) q₀
    (h.flatMap (dropped "t")).map DeferredCall.id = ["a"] ∧
      (h.flatMap (drained "t")).map DeferredCall.id = ["b"] ∧
      (q.buf "t").map DeferredCall.id = ["c"] ∧
      h.flatMap (came "t") = h.flatMap (went "t") ++ q.buf "t" := by
  refine ⟨by decide, by decide, by decide, ?_⟩
  have hlegal : Run.Legal (fun q o => SlowCallOp.step q o) (fun _ _ => True)
      { max := ⟨2, by decide⟩, byTenant := ∅ } sampleOps :=
    Run.Legal.of_forall (fun _ _ => trivial) _ _
  have hnew : new 2 = .ok { max := ⟨2, by decide⟩, byTenant := ∅ } := rfl
  exact (conservation hnew (Run.ofOps hlegal) "t").1

end SlowCallQueue

/-! ## Deadlines with deferral -/

section Deferral

variable {α : Type}

/-- What `with_deadline_and_defer` raises: the refusal of the deadline, or what `str()` raised on the
error of the result. -/
inductive DeferError where
  | refused (e : ValueError)
  | unprintable (e : DeadlineError)

/-- `try: ... except Exception: pass` around a `defer` call. -/
def deferQuietly (id : String) (now : Time) (r : DeferRequest) : Py DeferError SlowCallQueue Unit :=
  fun q => (.ok (), ((SlowCallQueue.defer id now r).run q).2)

/-- The detail of a degraded result. -/
def DeadlineResult.detail (result : DeadlineResult α) : Except DeferError String :=
  match result.error with
  | some e =>
    match e.text with
    | some text => .ok s!"{e.typeName}: {text}"
    | none => .error (.unprintable e)
  | none => .ok s!"{result.operation} returned degraded result without explicit error"

/-- The request that a degraded result of a call is deferred with. -/
def DeadlineResult.deferRequest (result : DeadlineResult α) (tenantId detail : String)
    (deferPayload deferContext : Option Payload) : DeferRequest where
  tenantId := tenantId
  operation := result.operation
  reason :=
    match result.error with
    | some e => if e.isDeadlineExceeded then .deadlineExceeded else .transientError
    | none => .transientError
  detail := detail
  payload := some (deferPayload.getD ∅)
  elapsedMs := result.elapsedMs
  context := some (deferContext.getD ∅)

-- how long the platform can wait
variable (limit : WaitLimit)

def withDeadlineAndDefer (elapsedMs : ℚ) (id : String) (now : Time) (func : CallOutcome α)
    (timeoutMs : Int) (fallback : α) (operation tenantId : String)
    (deferPayload deferContext : Option Payload) : Py DeferError SlowCallQueue (DeadlineResult α) := do
  let result ← Py.ofExcept
    ((withDeadline limit elapsedMs func timeoutMs fallback operation).mapError .refused)
  if result.degraded then do
    let detail ← Py.ofExcept result.detail
    deferQuietly id now (result.deferRequest tenantId detail deferPayload deferContext)
    pure result
  else pure result

/-- What the two layers say of a call: `result` is what `with_deadline` returns for the outcome, and
`q'` the defer queue after it, which was `q`. -/
structure Classified (func : CallOutcome α) (fallback : α) (tenantId : String)
    (result : DeadlineResult α) (q q' : SlowCallQueue) : Prop where
  /-- An error of its own making means that the call was still running, and the other way round. -/
  own : (result.value = fallback ∧ ∃ text, result.error = some (.made text)) ↔ func = .running
  raised : ∀ e early, func = .raised e early →
    result.value = fallback ∧ result.degraded = true ∧ result.error = some (.caught (.own e))
  value : ∀ v early, func = .value v early →
    result.value = v ∧ result.degraded = false ∧ result.error = none
  deferred : result.degraded = true → ∃ e : DeferredCall, e.tenantId = tenantId ∧
    q' = { q with byTenant := q.byTenant.set tenantId (Fifo.push q.max e (q.buf tenantId)) } ∧
    (e.reason = .deadlineExceeded ↔ func = .running) ∧
    (e.reason = .transientError ↔ ∃ err early, func = .raised err early)
  kept : result.degraded = false → q' = q

/-- The callable raises no `TimeoutError`, and nothing that has no text. -/
def CallOutcome.Reportable (func : CallOutcome α) : Prop :=
  ∀ e early, func = .raised e early → e.isInstance .timeoutError = false ∧ e.text.isSome

variable {limit : WaitLimit} {elapsedMs : ℚ} {id : String} {now : Time} {func : CallOutcome α}
  {timeoutMs : Int} {fallback : α} {operation tenantId : String}
  {deferPayload deferContext : Option Payload}

theorem deferQuietly_run {r : DeferRequest} (h : r.tenantId ≠ "") (q : SlowCallQueue) :
    (deferQuietly id now r).run q =
      (.ok (), { q with
        byTenant := q.byTenant.set r.tenantId
          (Fifo.push q.max (SlowCallQueue.entry id now r) (q.buf r.tenantId)) }) := by
  show (Except.ok (), ((SlowCallQueue.defer id now r).run q).2) = _
  rw [SlowCallQueue.defer_run h]

/-- A value leaves the queue as it was. -/
theorem withDeadlineAndDefer_value (ht : 0 < timeoutMs) {v : α}
    (hres : func.result limit timeoutMs = .ok v) (q : SlowCallQueue) :
    (withDeadlineAndDefer limit elapsedMs id now func timeoutMs fallback operation tenantId deferPayload
        deferContext).run q =
      (.ok (deadlineResult elapsedMs timeoutMs fallback operation (.ok v)), q) := by
  unfold withDeadlineAndDefer
  rw [withDeadline_eq limit ht, hres]
  rfl

/-- A degraded result whose error has a text is deferred. -/
theorem withDeadlineAndDefer_error (ht : 0 < timeoutMs) (htenant : tenantId ≠ "") {exc : WaitError}
    (hres : func.result limit timeoutMs = .error exc) {detail : String}
    (hdetail : (deadlineResult elapsedMs timeoutMs fallback operation
      (.error exc : Except WaitError α)).detail = .ok detail) (q : SlowCallQueue) :
    let r := deadlineResult elapsedMs timeoutMs fallback operation (.error exc : Except WaitError α)
    (withDeadlineAndDefer limit elapsedMs id now func timeoutMs fallback operation tenantId deferPayload
        deferContext).run q =
      (.ok r, { q with
        byTenant := q.byTenant.set tenantId (Fifo.push q.max (SlowCallQueue.entry id now
          (r.deferRequest tenantId detail deferPayload deferContext)) (q.buf tenantId)) }) := by
  intro r
  unfold withDeadlineAndDefer
  rw [withDeadline_eq limit ht, hres]
  show ((Py.ofExcept r.detail >>= _ : Py DeferError SlowCallQueue _).run q) = _
  rw [Py.run_ofExcept_bind, show r.detail = .ok detail from hdetail]
  exact Py.run_bind_ok (deferQuietly_run (r := r.deferRequest tenantId detail deferPayload
    deferContext) htenant q)

/-- One whose error has none is not. -/
theorem withDeadlineAndDefer_unprintable (ht : 0 < timeoutMs) {exc : WaitError}
    (hres : func.result limit timeoutMs = .error exc) {err : DeferError}
    (hdetail : (deadlineResult elapsedMs timeoutMs fallback operation
      (.error exc : Except WaitError α)).detail = .error err) (q : SlowCallQueue) :
    (withDeadlineAndDefer limit elapsedMs id now func timeoutMs fallback operation tenantId deferPayload
        deferContext).run q = (.error err, q) := by
  unfold withDeadlineAndDefer
  rw [withDeadline_eq limit ht, hres]
  show ((Py.ofExcept (deadlineResult elapsedMs timeoutMs fallback operation
    (.error exc : Except WaitError α)).detail >>= _ : Py DeferError SlowCallQueue _).run q) = _
  rw [Py.run_ofExcept_bind, hdetail]

/-- The detail of an error that is reported as it is. -/
theorem detail_caught (elapsedMs : ℚ) (timeoutMs : Int) (fallback : α) (operation : String)
    (exc : WaitError) (h : exc.obj.isInstance .timeoutError = false) :
    (deadlineResult elapsedMs timeoutMs fallback operation (.error exc : Except WaitError α)).detail =
      match exc.obj.text with
      | some text => .ok s!"{exc.obj.cls.name}: {text}"
      | none => .error (.unprintable (.caught exc)) := by
  unfold DeadlineResult.detail
  simp only [deadlineResult, deadlineError_other _ h]
  rfl

/-- A refused wait is reported as an `OverflowError`, whatever the callable came to. -/
theorem not_classified_overflow {text : String} {q q' : SlowCallQueue} :
    ¬ Classified func fallback tenantId (deadlineResult elapsedMs timeoutMs fallback operation
      (.error (.overflow text))) q q' := by
  intro h
  cases func with
  | value v early => cases (h.value v early rfl).2.1
  | raised e early => cases (h.raised e early rfl).2.2
  | running =>
    obtain ⟨-, text, herr⟩ := h.own.mpr rfl
    cases herr

/-- What the callable raised is classified as its own, unless it is a `TimeoutError`. -/
theorem classified_raised {e : Thrown} {early : Bool} (hto : e.isInstance .timeoutError = false)
    (detail : String) (q : SlowCallQueue) :
    let r := deadlineResult elapsedMs timeoutMs fallback operation (.error (.own e) : Except WaitError α)
    Classified (.raised e early) fallback tenantId r q { q with
      byTenant := q.byTenant.set tenantId (Fifo.push q.max (SlowCallQueue.entry id now
        (r.deferRequest tenantId detail deferPayload deferContext)) (q.buf tenantId)) } := by
  intro r
  have herr : r.error = some (.caught (.own e)) :=
    deadlineError_other (α := α) (.own e) hto operation timeoutMs elapsedMs
  have hdead : e.isInstance .deadlineExceeded = false := by
    by_contra hde
    have hsub := Thrown.isInstance_timeoutError (Bool.eq_true_of_not_eq_false hde)
    rw [hto] at hsub
    cases hsub
  have hreason : (r.deferRequest tenantId detail deferPayload deferContext).reason
      = .transientError := by
    simp only [DeadlineResult.deferRequest, herr, DeadlineError.isDeadlineExceeded, WaitError.obj,
      hdead]
    rfl
  refine ⟨⟨?_, fun hr => (by cases hr)⟩, ?_, fun v early hv => (by cases hv), fun _ => ?_,
    fun hd => (by cases hd)⟩
  · rintro ⟨-, text, hmade⟩
    cases herr.symm.trans hmade
  · intro e' early' he
    cases he
    exact ⟨rfl, rfl, herr⟩
  · refine ⟨_, rfl, rfl, ⟨fun hr => ?_, fun hr => (by cases hr)⟩,
      ⟨fun _ => ⟨e, early, rfl⟩, fun _ => hreason⟩⟩
    cases hreason.symm.trans hr

/-- For every positive deadline and every tenant `with_deadline` returns, and both layers classify the
outcome correctly if and only if the deadline is one that can be waited for, or the callable had
finished, and the callable raises no `TimeoutError` and nothing on which `str()` raises. -/
theorem withDeadlineAndDefer_classified (limit : WaitLimit) (ht : 0 < timeoutMs)
    (htenant : tenantId ≠ "") (elapsedMs : ℚ) (id : String) (now : Time) (func : CallOutcome α)
    (fallback : α) (operation : String)
    (deferPayload deferContext : Option Payload) (q : SlowCallQueue) :
    ∃ result,
      withDeadline limit elapsedMs func timeoutMs fallback operation = .ok result ∧
      ((∃ q', (withDeadlineAndDefer limit elapsedMs id now func timeoutMs fallback operation tenantId
          deferPayload deferContext).run q = (.ok result, q') ∧
        Classified func fallback tenantId result q q') ↔
      func.Awaited limit timeoutMs ∧ func.Reportable) := by
  refine ⟨_, withDeadline_eq limit ht .., ?_⟩
  by_cases haw : func.Awaited limit timeoutMs
  swap
  · obtain ⟨text, hres⟩ := CallOutcome.result_overflow haw
    rw [hres]
    exact ⟨fun ⟨_, _, h⟩ => absurd h not_classified_overflow, fun h => absurd h.1 haw⟩
  have hres := CallOutcome.result_awaited haw
  cases func with
  | value v early =>
    rw [hres]
    refine ⟨fun _ => ⟨haw, fun e early he => (by cases he)⟩, fun _ =>
      ⟨q, withDeadlineAndDefer_value ht hres q, ⟨⟨?_, fun hr => (by cases hr)⟩,
        fun e early he => (by cases he), ?_, fun hd => (by cases hd), fun _ => rfl⟩⟩⟩
    · rintro ⟨-, text, herr⟩
      cases herr
    · intro w early hw
      cases hw
      exact ⟨rfl, rfl, rfl⟩
  | running =>
    rw [hres]
    refine ⟨fun _ => ⟨haw, fun e early he => (by cases he)⟩, fun _ =>
      ⟨_, withDeadlineAndDefer_error ht htenant hres rfl q, ⟨⟨fun _ => rfl, fun _ => ⟨rfl, _, rfl⟩⟩,
        fun e early he => (by cases he), fun v early hv => (by cases hv), fun _ => ?_,
        fun hd => (by cases hd)⟩⟩⟩
    refine ⟨_, rfl, rfl, ⟨fun _ => rfl, fun _ => rfl⟩, ⟨fun hreason => (by cases hreason), ?_⟩⟩
    rintro ⟨err, early, herr⟩
    cases herr
  | raised e early =>
    rw [hres]
    constructor
    · rintro ⟨q', hrun, h⟩
      refine ⟨haw, fun e' early' he => ?_⟩
      cases he
      have hto : e.isInstance .timeoutError = false := by
        by_contra hyes
        have hmade := deadlineError_timeout (α := α) (.own e)
          (Bool.eq_true_of_not_eq_false hyes) operation timeoutMs elapsedMs
        cases h.own.mp ⟨rfl, _, hmade⟩
      refine ⟨hto, ?_⟩
      cases htext : e.text with
      | some text => rfl
      | none =>
        -- the call raises before anything is queued
        have hdetail := detail_caught elapsedMs timeoutMs fallback operation (.own e) hto
        simp only [WaitError.obj, htext] at hdetail
        rw [withDeadlineAndDefer_unprintable ht hres hdetail] at hrun
        cases hrun
    · rintro ⟨-, hrep⟩
      obtain ⟨hto, htext⟩ := hrep e early rfl
      obtain ⟨text, htext⟩ := Option.isSome_iff_exists.mp htext
      have hdetail := detail_caught elapsedMs timeoutMs fallback operation (.own e) hto
      simp only [WaitError.obj, htext] at hdetail
      exact ⟨_, withDeadlineAndDefer_error ht htenant hres hdetail q, classified_raised hto _ q⟩

/-- A 64-bit Linux. -/
def linuxWait : WaitLimit := ⟨9223372036854, "timestamp too large to convert to C _PyTime_t"⟩

/-- A `TimeoutError` that a client library raises on its own socket timeout. -/
def readTimedOut : Thrown where
  cls := .timeoutError
  bases := Thrown.waitExpired.bases
  text := some "read timed out after 30s"
  isSub := by decide

/-- The callable raised at once, and the result says that it was cut off. -/
theorem readTimedOut_misclassified :
    ¬ ∀ result q',
      withDeadline linuxWait 1 (.raised readTimedOut true : CallOutcome Unit) 250 () "op" = .ok result →
      (withDeadlineAndDefer linuxWait 1 "def_1" 0 (.raised readTimedOut true : CallOutcome Unit) 250 ()
        "op" "t" none none).run { max := ⟨500, by decide⟩, byTenant := ∅ } = (.ok result, q') →
      Classified (.raised readTimedOut true) () "t" result { max := ⟨500, by decide⟩, byTenant := ∅ }
        q' := by
  intro h
  have haw : (CallOutcome.raised readTimedOut true : CallOutcome Unit).Awaited linuxWait 250 :=
    ⟨lt_floatBound (by decide), .inr rfl⟩
  have hres := CallOutcome.result_awaited haw
  have hwith := withDeadline_eq linuxWait (show (0 : Int) < 250 by decide) 1
    (.raised readTimedOut true : CallOutcome Unit) () "op"
  rw [hres] at hwith
  have hrunning := (h _ _ hwith (withDeadlineAndDefer_error (by decide) (by decide) hres rfl _)).own.mp
    ⟨rfl, _, rfl⟩
  cases hrunning

/-- A `ConnectionError` is classified as what it is. -/
def connectionReset : Thrown where
  cls := .other "ConnectionResetError"
  bases := [.other "ConnectionError", .other "OSError", .other "Exception", .other "BaseException",
    .other "object"]
  text := some "connection reset by peer"
  isSub := by decide

theorem connectionReset_classified :
    ∃ result, withDeadline linuxWait 1 (.raised connectionReset false : CallOutcome Unit) 250 () "op" =
        .ok result ∧
      ∃ q', (withDeadlineAndDefer linuxWait 1 "def_1" 0 (.raised connectionReset false :
          CallOutcome Unit) 250 () "op" "t" none none).run { max := ⟨500, by decide⟩, byTenant := ∅ } =
            (.ok result, q') ∧
        Classified (.raised connectionReset false) () "t" result
          { max := ⟨500, by decide⟩, byTenant := ∅ } q' := by
  obtain ⟨result, hres, hiff⟩ :=
    withDeadlineAndDefer_classified linuxWait (show (0 : Int) < 250 by decide)
      (show "t" ≠ "" by decide) 1 "def_1" 0 (.raised connectionReset false) () "op" none none
      { max := ⟨500, by decide⟩, byTenant := ∅ }
  refine ⟨result, hres, hiff.mpr ⟨⟨lt_floatBound (by decide), .inl (by decide)⟩, fun e early he => ?_⟩⟩
  cases he
  exact ⟨by decide, rfl⟩

end Deferral

end PennyCore
