import Mathlib.Data.List.Sort
import Mathlib.Order.Basic

/-!
# Lists ranked by a key

`ranked key l` is `l`, sorted by descending key; the sort is stable.

* `ranked_pairwise`, `ranked_perm`: what the ranking is.
* `ranked_pair`: stability, for two items that need not be exchanged.
* `ranked_append`: bands. A list whose keys are not below those of a second one is ranked by itself,
  and stays before it.
* `ranked_split`: the same for two parts that stand mixed in the list.
* `pair_of_lt`: in a ranked list, the item with the greater key comes first.
* `sliceTo`, `sliceFrom`: the two parts of a list at an index, which may be counted from the end.
-/

namespace Lib

variable {α β K : Type} [LinearOrder K]

/-- `sorted(l, key=key, reverse=True)`. -/
def ranked (key : α → K) (l : List α) : List α := l.insertionSort fun a b => key b ≤ key a

variable {key : α → K} {l : List α}

theorem ranked_perm (key : α → K) (l : List α) : (ranked key l).Perm l := List.perm_insertionSort _ l

@[simp] theorem ranked_nil (key : α → K) : ranked key [] = [] := rfl

@[simp] theorem mem_ranked {x : α} : x ∈ ranked key l ↔ x ∈ l := (ranked_perm key l).mem_iff

theorem ranked_pairwise (key : α → K) (l : List α) :
    (ranked key l).Pairwise fun a b => key b ≤ key a := by
  have : Std.Total fun a b : α => key b ≤ key a := ⟨fun a b => le_total (key b) (key a)⟩
  have : IsTrans α fun a b => key b ≤ key a := ⟨fun _ _ _ hab hbc => le_trans hbc hab⟩
  exact List.pairwise_insertionSort _ l

/-- Two items in the order of their keys are not exchanged. -/
theorem ranked_pair {a b : α} (hkey : key b ≤ key a) (h : [a, b].Sublist l) :
    [a, b].Sublist (ranked key l) :=
  List.pair_sublist_insertionSort hkey h

theorem ranked_map (key : β → K) (f : α → β) (l : List α) :
    ranked key (l.map f) = (ranked (fun a => key (f a)) l).map f :=
  (List.map_insertionSort _ _ f l fun _ _ _ _ => Iff.rfl).symm

/-- An item that belongs before all of the second list is put into the first. -/
theorem orderedInsert_append {r : α → α → Prop} [DecidableRel r] {a : α} {l₂ : List α}
    (l₁ : List α) (h : ∀ b ∈ l₂, r a b) :
    (l₁ ++ l₂).orderedInsert r a = l₁.orderedInsert r a ++ l₂ := by
  induction l₁ with
  | nil =>
    cases l₂ with
    | nil => rfl
    | cons b l₂ => exact List.orderedInsert_cons_of_le r l₂ (h b List.mem_cons_self)
  | cons c l₁ ih =>
    rw [List.cons_append, List.orderedInsert_cons, List.orderedInsert_cons, ih]
    split <;> rfl

theorem ranked_append {l₁ l₂ : List α} (h : ∀ a ∈ l₁, ∀ b ∈ l₂, key b ≤ key a) :
    ranked key (l₁ ++ l₂) = ranked key l₁ ++ ranked key l₂ := by
  induction l₁ with
  | nil => rfl
  | cons a l₁ ih =>
    have hrest := ih fun x hx => h x (List.mem_cons_of_mem a hx)
    have hfirst : ∀ b ∈ ranked key l₂, key b ≤ key a := fun b hb =>
      h a List.mem_cons_self b (mem_ranked.mp hb)
    unfold ranked at hrest hfirst ⊢
    rw [List.cons_append, List.insertionSort_cons, hrest, List.insertionSort_cons,
      orderedInsert_append _ hfirst]

/-- An item is put behind those that it does not belong before. -/
theorem orderedInsert_behind {r : α → α → Prop} [DecidableRel r] {a : α} {l₁ : List α} (l₂ : List α)
    (h : ∀ b ∈ l₁, ¬ r a b) : (l₁ ++ l₂).orderedInsert r a = l₁ ++ l₂.orderedInsert r a := by
  induction l₁ with
  | nil => rfl
  | cons b l₁ ih =>
    have hrest := ih fun x hx => h x (List.mem_cons_of_mem b hx)
    rw [List.cons_append, List.orderedInsert_of_not_le r _ (h b List.mem_cons_self), hrest,
      List.cons_append]

/-- A ranking in two parts: the items with `p` come first, where no two items of the list say
otherwise. Each part is ranked by itself. -/
theorem ranked_split {p : α → Prop} [DecidablePred p]
    (h : l.Pairwise fun x y =>
      (p x → ¬ p y → key y ≤ key x) ∧ (¬ p x → p y → key x < key y)) :
    ranked key l = ranked key (l.filter p) ++ ranked key (l.filter (¬ p ·)) := by
  induction l with
  | nil => rfl
  | cons x l ih =>
    obtain ⟨hx, hl⟩ := List.pairwise_cons.mp h
    have hrest := ih hl
    unfold ranked at hrest ⊢
    rw [List.insertionSort_cons, hrest]
    by_cases hp : p x
    · have hfront : ∀ y ∈ (l.filter (¬ p ·)).insertionSort fun a b => key b ≤ key a,
          key y ≤ key x := by
        intro y hy
        obtain ⟨hmem, hnot⟩ := List.mem_filter.mp ((List.perm_insertionSort _ _).mem_iff.mp hy)
        exact (hx y hmem).1 hp (of_decide_eq_true hnot)
      rw [orderedInsert_append _ hfront, List.filter_cons_of_pos (by simpa using hp),
        List.insertionSort_cons, List.filter_cons_of_neg (by simpa using hp)]
    · have hbehind : ∀ y ∈ (l.filter p).insertionSort fun a b => key b ≤ key a,
          ¬ key y ≤ key x := by
        intro y hy
        obtain ⟨hmem, hyes⟩ := List.mem_filter.mp ((List.perm_insertionSort _ _).mem_iff.mp hy)
        exact not_le_of_gt ((hx y hmem).2 hp (of_decide_eq_true hyes))
      rw [orderedInsert_behind _ hbehind, List.filter_cons_of_neg (by simpa using hp),
        List.filter_cons_of_pos (by simpa using hp), List.insertionSort_cons]

/-- Bands on the two sides of a key. -/
theorem ranked_append_of_bound {l₁ l₂ : List α} (c : K) (h₁ : ∀ a ∈ l₁, c ≤ key a)
    (h₂ : ∀ b ∈ l₂, key b ≤ c) : ranked key (l₁ ++ l₂) = ranked key l₁ ++ ranked key l₂ :=
  ranked_append fun a ha b hb => (h₂ b hb).trans (h₁ a ha)

theorem pair_of_lt {a b : α} (hl : l.Pairwise fun x y => key y ≤ key x) (ha : a ∈ l) (hb : b ∈ l)
    (hlt : key b < key a) : [a, b].Sublist l := by
  induction l with
  | nil => cases ha
  | cons c l ih =>
    obtain ⟨hc, hl⟩ := List.pairwise_cons.mp hl
    cases hb with
    | head =>
      -- nothing in the list has a key above that of its head
      cases ha with
      | head => exact absurd hlt (lt_irrefl _)
      | tail _ ha => exact absurd hlt (not_lt_of_ge (hc a ha))
    | tail _ hb =>
      cases ha with
      | head => exact (List.singleton_sublist.mpr hb).cons_cons a
      | tail _ ha => exact (ih hl ha hb).cons c

/-! ## Slices -/

/-- Where the index `n` cuts a list of `length` items. -/
def sliceIndex (n : Int) (length : Nat) : Nat := if n < 0 then (length + n).toNat else n.toNat

/-- `l[:n]`. -/
def sliceTo (n : Int) (l : List α) : List α := l.take (sliceIndex n l.length)

/-- `l[n:]`. -/
def sliceFrom (n : Int) (l : List α) : List α := l.drop (sliceIndex n l.length)

theorem sliceTo_append_sliceFrom (n : Int) (l : List α) : sliceTo n l ++ sliceFrom n l = l :=
  List.take_append_drop _ l

theorem sliceIndex_min (n length : Nat) : sliceIndex (min (n : Int) length) length = min n length := by
  have hnonneg : ¬ min (n : Int) length < 0 := by omega
  rw [sliceIndex, if_neg hnonneg]
  omega

/-- A slice that is capped at the length. -/
theorem sliceTo_min (n : Nat) (l : List α) : sliceTo (min (n : Int) l.length) l = l.take n := by
  rw [sliceTo, sliceIndex_min, ← List.take_eq_take_min]

theorem sliceFrom_min (n : Nat) (l : List α) : sliceFrom (min (n : Int) l.length) l = l.drop n := by
  rw [sliceFrom, sliceIndex_min, ← List.drop_eq_drop_min]

end Lib
