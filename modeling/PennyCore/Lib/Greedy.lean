import Mathlib.Algebra.BigOperators.Group.List.Basic
import Mathlib.Algebra.GroupWithZero.Nat

/-!
# Greedy selection under a budget

The items of a list are looked at once, in order. An item is taken when its cost fits into the room
that is left, and passed over otherwise; passing over one does not stop the selection.

* `greedy_append`: the selection from a list is the one from its front, then the one from its rest
  with the room the front has left.
* `total_greedy_le`: the costs taken stay within the room.
* `greedy_maximal`: no item that was passed over fits into the room left at the end.
-/

namespace Lib

variable {α : Type} (cost : α → Nat)

/-- The items that are taken, with `room` left. -/
def greedy (room : Nat) : List α → List α
  | [] => []
  | x :: xs => if cost x ≤ room then x :: greedy (room - cost x) xs else greedy room xs

/-- What the items cost together. -/
def total (xs : List α) : Nat := (xs.map cost).sum

variable {cost}

@[simp] theorem total_nil : total cost [] = 0 := rfl

@[simp] theorem total_cons (x : α) (xs : List α) : total cost (x :: xs) = cost x + total cost xs := by
  simp [total]

@[simp] theorem total_append (xs ys : List α) :
    total cost (xs ++ ys) = total cost xs + total cost ys := by
  simp [total]

@[simp] theorem greedy_nil (room : Nat) : greedy cost room [] = [] := rfl

theorem greedy_take {room : Nat} {x : α} (xs : List α) (h : cost x ≤ room) :
    greedy cost room (x :: xs) = x :: greedy cost (room - cost x) xs := if_pos h

theorem greedy_skip {room : Nat} {x : α} (xs : List α) (h : ¬ cost x ≤ room) :
    greedy cost room (x :: xs) = greedy cost room xs := if_neg h

theorem greedy_sublist (room : Nat) (xs : List α) : (greedy cost room xs).Sublist xs := by
  induction xs generalizing room with
  | nil => exact .slnil
  | cons x xs ih =>
    by_cases h : cost x ≤ room
    · rw [greedy_take xs h]
      exact (ih _).cons_cons x
    · rw [greedy_skip xs h]
      exact (ih room).cons x

theorem greedy_map {β : Type} (f : β → α) (room : Nat) (xs : List β) :
    greedy cost room (xs.map f) = (greedy (fun x => cost (f x)) room xs).map f := by
  induction xs generalizing room with
  | nil => rfl
  | cons x xs ih =>
    rw [List.map_cons]
    by_cases h : cost (f x) ≤ room
    · have htake : greedy (fun x => cost (f x)) room (x :: xs) =
          x :: greedy (fun x => cost (f x)) (room - cost (f x)) xs := greedy_take xs h
      rw [greedy_take _ h, htake, List.map_cons, ih]
    · have hskip : greedy (fun x => cost (f x)) room (x :: xs) =
          greedy (fun x => cost (f x)) room xs := greedy_skip xs h
      rw [greedy_skip _ h, hskip, ih]

theorem total_greedy_le (room : Nat) (xs : List α) : total cost (greedy cost room xs) ≤ room := by
  induction xs generalizing room with
  | nil => simp
  | cons x xs ih =>
    by_cases h : cost x ≤ room
    · have hrest := ih (room - cost x)
      rw [greedy_take xs h, total_cons]
      omega
    · rw [greedy_skip xs h]
      exact ih room

theorem greedy_append (room : Nat) (xs ys : List α) :
    greedy cost room (xs ++ ys) =
      greedy cost room xs ++ greedy cost (room - total cost (greedy cost room xs)) ys := by
  induction xs generalizing room with
  | nil => simp
  | cons x xs ih =>
    rw [List.cons_append]
    by_cases h : cost x ≤ room
    · rw [greedy_take _ h, greedy_take _ h, ih, total_cons, Nat.sub_add_eq, List.cons_append]
    · rw [greedy_skip _ h, greedy_skip _ h, ih]

/-- The room only shrinks, so what did not fit when it was looked at does not fit at the end. -/
theorem greedy_maximal {room : Nat} {before after : List α} {x : α}
    (h : room - total cost (greedy cost room before) < cost x) :
    room - total cost (greedy cost room (before ++ x :: after)) < cost x := by
  rw [greedy_append, total_append]
  omega

end Lib
