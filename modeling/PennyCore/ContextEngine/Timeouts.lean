import Mathlib.Data.Rat.Floor
import PennyCore.Contracts.Value

/-!
# Deadlines

`src/context_engine/timeouts.py`: `with_deadline` runs a callable on a worker thread, waits for it
for at most the deadline, and returns its value or a fallback.

* `CallOutcome`: what the callable comes to, as far as the wait can tell. It may raise anything
  (`Thrown`); a class of exceptions is known by the classes it inherits from.
* `CallOutcome.result`: `future.result(timeout)`. When the wait expires it raises the builtin
  `TimeoutError`, the same class that the callable may raise, and a wait that is too long for a float
  or for the platform (`WaitLimit`) is refused with an `OverflowError`.
* `withDeadline`, as the code has it.
-/

namespace PennyCore

open Lib

/-! ## Exceptions of the callable -/

/-- The classes of exceptions. The two that the code tests for have names of their own. -/
inductive ExcClass where
  | timeoutError
  | deadlineExceeded
  | other (name : String)
  deriving DecidableEq, Repr

/-- `cls.__name__`. -/
def ExcClass.name : ExcClass → String
  | .timeoutError => "TimeoutError"
  | .deadlineExceeded => "DeadlineExceeded"
  | .other name => name

/-- An exception object: its class, the classes that one inherits from, and its text, if `str()` does
not raise on it. A `DeadlineExceeded` is a `TimeoutError`. -/
structure Thrown where
  cls : ExcClass
  bases : List ExcClass
  text : Option String
  isSub : .deadlineExceeded ∈ cls :: bases → .timeoutError ∈ cls :: bases

/-- `isinstance(e, cls)`. -/
def Thrown.isInstance (e : Thrown) (cls : ExcClass) : Bool := cls ∈ e.cls :: e.bases

theorem Thrown.isInstance_timeoutError {e : Thrown} (h : e.isInstance .deadlineExceeded = true) :
    e.isInstance .timeoutError = true :=
  decide_eq_true (e.isSub (of_decide_eq_true h))

/-- A fresh `TimeoutError()`, as the wait raises it. -/
def Thrown.waitExpired : Thrown where
  cls := .timeoutError
  bases := [.other "OSError", .other "Exception", .other "BaseException", .other "object"]
  text := some ""
  isSub := by decide

/-- A fresh `OverflowError`. -/
def Thrown.overflow (text : String) : Thrown where
  cls := .other "OverflowError"
  bases := [.other "ArithmeticError", .other "Exception", .other "BaseException", .other "object"]
  text := some text
  isSub := by decide

/-- What a submitted callable comes to by the deadline; `early` if it already has when the wait would
begin. -/
inductive CallOutcome (α : Type) where
  | value (v : α) (early : Bool)
  | raised (e : Thrown) (early : Bool)
  | running

def CallOutcome.isEarly {α : Type} : CallOutcome α → Bool
  | .value _ early => early
  | .raised _ early => early
  | .running => false

/-- How long the platform can wait: `threading.TIMEOUT_MAX` in milliseconds, and the text of the
`OverflowError` for a longer wait. -/
structure WaitLimit where
  maxMs : Int
  text : String

/-- The least `int` that `/ 1000.0` finds too large for a float: half a step above the largest one. -/
def floatBound : Int := 2 ^ 970 * (2 ^ 54 - 1)

theorem lt_floatBound {t : Int} (h : t < 2 ^ 54 - 1) : t < floatBound :=
  lt_of_lt_of_le h (le_mul_of_one_le_left (by decide) (one_le_pow₀ (by decide)))

/-- What `future.result` raises: an exception of the wait, or the one that the callable raised. -/
inductive WaitError where
  | expired
  | overflow (text : String)
  | own (e : Thrown)

/-- The exception object. -/
def WaitError.obj : WaitError → Thrown
  | .expired => .waitExpired
  | .overflow text => .overflow text
  | .own e => e

/-- What a wait to the deadline finds. -/
def CallOutcome.found {α : Type} : CallOutcome α → Except WaitError α
  | .value v _ => .ok v
  | .raised e _ => .error (.own e)
  | .running => .error .expired

/-- `future.result(timeout=timeout_ms / 1000.0)`. Nothing is waited for when the future is finished. -/
def CallOutcome.result {α : Type} (limit : WaitLimit) (timeoutMs : Int) (func : CallOutcome α) :
    Except WaitError α :=
  if floatBound ≤ timeoutMs then .error (.overflow "int too large to convert to float")
  else if limit.maxMs < timeoutMs ∧ func.isEarly = false then .error (.overflow limit.text)
  else func.found

/-- The wait takes the deadline, or is not needed. -/
def CallOutcome.Awaited {α : Type} (limit : WaitLimit) (timeoutMs : Int) (func : CallOutcome α) : Prop :=
  timeoutMs < floatBound ∧ (timeoutMs ≤ limit.maxMs ∨ func.isEarly = true)

section Wait

variable {α : Type} {limit : WaitLimit} {timeoutMs : Int} {func : CallOutcome α}

theorem CallOutcome.result_awaited (h : func.Awaited limit timeoutMs) :
    func.result limit timeoutMs = func.found := by
  have hlim : ¬ (limit.maxMs < timeoutMs ∧ func.isEarly = false) := by
    rintro ⟨hlt, hno⟩
    rcases h.2 with hle | hyes
    · omega
    · rw [hno] at hyes
      cases hyes
  unfold result
  rw [if_neg (Int.not_le.mpr h.1), if_neg hlim]

theorem CallOutcome.result_overflow (h : ¬ func.Awaited limit timeoutMs) :
    ∃ text, func.result limit timeoutMs = .error (.overflow text) := by
  unfold result
  by_cases hf : floatBound ≤ timeoutMs
  · exact ⟨_, if_pos hf⟩
  · rw [if_neg hf]
    have hlim : limit.maxMs < timeoutMs ∧ func.isEarly = false := by
      unfold Awaited at h
      rw [not_and_or, not_or, Bool.not_eq_true] at h
      rcases h with h | ⟨hle, hno⟩
      · omega
      · exact ⟨by omega, hno⟩
    exact ⟨_, if_pos hlim⟩

end Wait

/-! ## The result -/

/-- The error of a result: a new `DeadlineExceeded` made by the call itself, with its text, or the
exception it caught. -/
inductive DeadlineError where
  | made (text : String)
  | caught (exc : WaitError)

/-- `type(error).__name__`. -/
def DeadlineError.typeName : DeadlineError → String
  | .made _ => ExcClass.deadlineExceeded.name
  | .caught exc => exc.obj.cls.name

/-- `str(error)`. -/
def DeadlineError.text : DeadlineError → Option String
  | .made text => some text
  | .caught exc => exc.obj.text

/-- `isinstance(error, DeadlineExceeded)`. -/
def DeadlineError.isDeadlineExceeded : DeadlineError → Bool
  | .made _ => true
  | .caught exc => exc.obj.isInstance .deadlineExceeded

structure DeadlineResult (α : Type) where
  value : α
  degraded : Bool
  elapsedMs : ℚ
  error : Option DeadlineError
  operation : String

/-- `f"{q:.1f}"`. -/
def fixed1 (q : ℚ) : String :=
  let tenths := (roundHalfEven (10 * q)).natAbs
  let sign := if q < 0 then "-" else ""
  s!"{sign}{tenths / 10}.{tenths % 10}"

section Deadline

variable {α : Type}

/-- The text of the `DeadlineExceeded` that the call makes. -/
def deadlineText (operation : String) (timeoutMs : Int) (elapsedMs : ℚ) : String :=
  s!"{operation} exceeded {timeoutMs}ms deadline (elapsed {fixed1 elapsedMs}ms)"

variable (limit : WaitLimit)

def withDeadline (elapsedMs : ℚ) (func : CallOutcome α) (timeoutMs : Int) (fallback : α)
    (operation : String) : Except ValueError (DeadlineResult α) :=
  if timeoutMs ≤ 0 then .error ⟨s!"timeout_ms must be positive, got {timeoutMs}"⟩
  else
    match func.result limit timeoutMs with
    | .error exc =>
      -- `concurrent.futures.TimeoutError` is the builtin class: the first handler takes the expiry
      -- of the wait and whatever `TimeoutError` the callable raised
      if exc.obj.isInstance .timeoutError then
        .ok { value := fallback, degraded := true, elapsedMs, operation
              error := some (.made (deadlineText operation timeoutMs elapsedMs)) }
      else
        .ok { value := fallback, degraded := true, elapsedMs, operation, error := some (.caught exc) }
    | .ok value => .ok { value, degraded := false, elapsedMs, error := none, operation }

/-- The error of a result, from what the wait came to. -/
def deadlineError (operation : String) (timeoutMs : Int) (elapsedMs : ℚ) :
    Except WaitError α → Option DeadlineError
  | .ok _ => none
  | .error exc =>
    some (if exc.obj.isInstance .timeoutError then .made (deadlineText operation timeoutMs elapsedMs)
      else .caught exc)

/-- The result, from what the wait came to. -/
def deadlineResult (elapsedMs : ℚ) (timeoutMs : Int) (fallback : α) (operation : String)
    (r : Except WaitError α) : DeadlineResult α where
  value := r.toOption.getD fallback
  degraded := (deadlineError operation timeoutMs elapsedMs r).isSome
  elapsedMs := elapsedMs
  error := deadlineError operation timeoutMs elapsedMs r
  operation := operation

/-- With a positive deadline the call returns. -/
theorem withDeadline_eq {timeoutMs : Int} (ht : 0 < timeoutMs) (elapsedMs : ℚ) (func : CallOutcome α)
    (fallback : α) (operation : String) :
    withDeadline limit elapsedMs func timeoutMs fallback operation =
      .ok (deadlineResult elapsedMs timeoutMs fallback operation (func.result limit timeoutMs)) := by
  unfold withDeadline
  rw [if_neg (Int.not_le.mpr ht)]
  cases hr : func.result limit timeoutMs with
  | ok v => rfl
  | error exc =>
    simp only [deadlineResult, deadlineError]
    split <;> rfl

/-- An exception that is no `TimeoutError` is reported as it is. -/
theorem deadlineError_other (exc : WaitError) (h : exc.obj.isInstance .timeoutError = false)
    (operation : String) (timeoutMs : Int) (elapsedMs : ℚ) :
    deadlineError operation timeoutMs elapsedMs (.error exc : Except WaitError α) =
      some (.caught exc) := by
  simp only [deadlineError, h]
  rfl

/-- A `TimeoutError` is reported as cut off. -/
theorem deadlineError_timeout (exc : WaitError) (h : exc.obj.isInstance .timeoutError = true)
    (operation : String) (timeoutMs : Int) (elapsedMs : ℚ) :
    deadlineError operation timeoutMs elapsedMs (.error exc : Except WaitError α) =
      some (.made (deadlineText operation timeoutMs elapsedMs)) := by
  simp only [deadlineError, h]
  rfl

end Deadline
end PennyCore
