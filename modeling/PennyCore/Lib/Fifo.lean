import PennyCore.Lib.Run

/-!
# Bounded first-in first-out buffers

A buffer of capacity `cap` is a list, oldest first. `Fifo.push cap x` appends and then deletes
the oldest until at most `cap` are left; what it deletes is `Fifo.evicted`. `Fifo.newest n` is the
read `reversed(buf[-n:])`.

* `Fifo.evicted_append_push`: nothing is lost but what is evicted, and that from the front.
* `Fifo.length_push_le`, `Fifo.evicted_eq`: the capacity holds, and a buffer within its capacity
  loses its oldest item, when it is full, and no other.
* `Fifo.newest_eq`: the read is the newest items, newest first.
* `Run.conserves`: a machine each of whose steps keeps the law "what was there and what came in is
  what went out and what is there now" keeps it over every run.
-/

namespace Lib
namespace Fifo

variable {α : Type}

/-- `buf[-n:]` for a positive `n`. -/
def lastN (n : Nat) (buf : List α) : List α := buf.drop (buf.length - n)

/-- Append `x`, then delete from the front what is over the capacity. -/
def push (cap : Nat) (x : α) (buf : List α) : List α :=
  let buf := buf ++ [x]
  if cap < buf.length then buf.drop (buf.length - cap) else buf

/-- What `push` deletes. -/
def evicted (cap : Nat) (x : α) (buf : List α) : List α :=
  let buf := buf ++ [x]
  if cap < buf.length then buf.take (buf.length - cap) else []

/-- `reversed(buf[-n:])`. -/
def newest (n : Nat) (buf : List α) : List α := (lastN n buf).reverse

theorem capacity_pos {n : Int} (h : ¬ n ≤ 0) : 0 < n.toNat := by omega

theorem evicted_append_push (cap : Nat) (x : α) (buf : List α) :
    evicted cap x buf ++ push cap x buf = buf ++ [x] := by
  unfold evicted push
  simp only
  split
  · exact List.take_append_drop ..
  · rfl

theorem length_push_le (cap : Nat) (x : α) (buf : List α) : (push cap x buf).length ≤ cap := by
  unfold push
  simp only
  split
  · rw [List.length_drop]
    omega
  · omega

/-- A buffer that is not full loses nothing, a full one its oldest item. -/
theorem evicted_eq {cap : Nat} (hcap : 0 < cap) (x : α) {buf : List α} (h : buf.length ≤ cap) :
    evicted cap x buf = if buf.length = cap then buf.take 1 else [] := by
  unfold evicted
  simp only [List.length_append, List.length_cons, List.length_nil]
  by_cases hfull : buf.length = cap
  · have hone : buf.length + (0 + 1) - cap = 1 := by omega
    rw [if_pos (by omega), if_pos hfull, hone, List.take_append_of_le_length (by omega)]
  · rw [if_neg (by omega), if_neg hfull]

theorem newest_eq (n : Nat) (buf : List α) : newest n buf = buf.reverse.take n := by
  rw [newest, lastN, List.take_reverse]

end Fifo

/-! ## Conservation over runs -/

variable {σ ω α : Type} {step : σ → ω → σ} {legal : σ → ω → Prop} {s₀ s : σ} {h : List (σ × ω)}

/-- What comes into the buffer `B` (`C`) and leaves it (`W`) at each step adds up over a run. -/
theorem Run.conserves {B : σ → List α} {C W : σ × ω → List α}
    (hstep : ∀ s o, B s ++ C (s, o) = W (s, o) ++ B (step s o))
    (hr : Run step legal s₀ h s) : B s₀ ++ h.flatMap C = h.flatMap W ++ B s := by
  induction hr with
  | start => exact List.append_nil _
  | @next h s o _ _ ih =>
    calc B s₀ ++ (h ++ [(s, o)]).flatMap C
        = (B s₀ ++ h.flatMap C) ++ C (s, o) := by simp
      _ = h.flatMap W ++ (B s ++ C (s, o)) := by rw [ih, List.append_assoc]
      _ = (h ++ [(s, o)]).flatMap W ++ B (step s o) := by rw [hstep]; simp

end Lib
