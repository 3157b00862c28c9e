import PennyCore.Lib.Fifo
import PennyCore.Lib.Dict

/-!
# A bounded buffer for each key

A dictionary of buffers of capacity `cap`, one for each key, as diagnostic feeds have them.

* `Ring.push` appends to the buffer of one key and deletes its oldest items.
* `Ring.Feed cap d log`: for every key, the buffer in `d` is the newest `cap` items that `log` has for
  the key. What is pushed for other keys does not matter.
* `Feed.push` keeps it, and `Feed.newest` is what a read of the newest items answers.
-/

namespace Lib

/-! ## The newest items of a list -/

namespace Fifo

variable {α : Type}

theorem lastN_eq (n : Nat) (xs : List α) : lastN n xs = (xs.reverse.take n).reverse := by
  rw [lastN, List.take_reverse, List.reverse_reverse]

/-- The newest items are found in the newest of a first part. -/
theorem lastN_append (n : Nat) (xs ys : List α) : lastN n (lastN n xs ++ ys) = lastN n (xs ++ ys) := by
  rw [lastN_eq, lastN_eq n (xs ++ ys), lastN_eq n xs]
  simp only [List.reverse_append, List.reverse_reverse, List.take_append, List.take_take]
  rw [Nat.min_eq_left (Nat.sub_le n _)]

theorem push_eq (cap : Nat) (x : α) (buf : List α) : push cap x buf = lastN cap (buf ++ [x]) := by
  unfold push lastN
  simp only
  split
  · rfl
  · next h => rw [Nat.sub_eq_zero_of_le (Nat.not_lt.mp h), List.drop_zero]

/-- The newest `n` of the newest `cap`, newest first. -/
theorem newest_lastN (n cap : Nat) (xs : List α) :
    newest n (lastN cap xs) = xs.reverse.take (min n cap) := by
  rw [newest_eq, lastN_eq, List.reverse_reverse, List.take_take]

end Fifo

namespace Ring

variable {κ α : Type} [DecidableEq κ]

def push (cap : Nat) (d : Dict κ (List α)) (k : κ) (x : α) : Dict κ (List α) :=
  d.set k (Fifo.push cap x (d.getList k))

/-- The items of `log` for `k`. -/
def sent (k : κ) (log : List (κ × α)) : List α :=
  log.filterMap fun p => if p.1 = k then some p.2 else none

/-- The buffers hold the newest `cap` items of each key. -/
def Feed (cap : Nat) (d : Dict κ (List α)) (log : List (κ × α)) : Prop :=
  ∀ k, d.getList k = Fifo.lastN cap (sent k log)

theorem sent_append (k : κ) (xs ys : List (κ × α)) : sent k (xs ++ ys) = sent k xs ++ sent k ys :=
  List.filterMap_append

theorem sent_tagged (k k' : κ) (xs : List α) :
    sent k (xs.map fun x => (k', x)) = if k' = k then xs else [] := by
  unfold sent
  rw [List.filterMap_map]
  split
  · next h => simp [h]
  · next h => simp [h]

namespace Feed

variable {cap : Nat} {d : Dict κ (List α)} {log : List (κ × α)}

theorem empty (cap : Nat) : Feed cap (∅ : Dict κ (List α)) [] := by
  intro k
  simp [Dict.getList, sent, Fifo.lastN]

theorem push (h : Feed cap d log) (k : κ) (x : α) : Feed cap (Ring.push cap d k x) (log ++ [(k, x)]) := by
  intro k'
  rw [Ring.push, Dict.getList_set, sent_append]
  by_cases hk : k' = k
  · subst hk
    rw [if_pos rfl, Fifo.push_eq, h, Fifo.lastN_append]
    simp [sent]
  · have hother : sent k' [(k, x)] = [] := by simp [sent, Ne.symm hk]
    rw [if_neg hk, h, hother, List.append_nil]

/-- A read of the `n` newest. -/
theorem newest (h : Feed cap d log) (n : Nat) (k : κ) :
    Fifo.newest n (d.getList k) = (sent k log).reverse.take (min n cap) := by
  rw [h k, Fifo.newest_lastN]

end Feed
end Ring

end Lib
