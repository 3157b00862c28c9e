import Mathlib.Data.List.Induction
import Mathlib.Order.Lattice

/-!
# The first maximum of a list

`scanMax f floor l` goes through `l` once and keeps the best item so far, an item replacing it only if it
is strictly better; it starts from `floor` with no item.

* `FirstMax f l e`: `e` is a greatest item of `l` by `f`, and the first of them.
* `scanMax_cases`: the scan ends with the first maximum, or with no item if none is above the floor.
* `FirstMax.unique`: there is at most one.
-/

namespace Lib

variable {α F : Type} [LinearOrder F] {f : α → F} {floor : F} {l : List α} {e e' : α}

def scanMax (f : α → F) (floor : F) (l : List α) : Option α × F :=
  l.foldl (fun best e => if best.2 < f e then (some e, f e) else best) (none, floor)

/-- The items before `e` are less, those after it not greater. -/
def FirstMax (f : α → F) (l : List α) (e : α) : Prop :=
  ∃ before after, l = before ++ e :: after ∧ (∀ b ∈ before, f b < f e) ∧ ∀ a ∈ after, f a ≤ f e

theorem FirstMax.mem (h : FirstMax f l e) : e ∈ l := by
  obtain ⟨before, after, rfl, -, -⟩ := h
  exact List.mem_append_right _ List.mem_cons_self

theorem FirstMax.le (h : FirstMax f l e) {x : α} (hx : x ∈ l) : f x ≤ f e := by
  obtain ⟨before, after, rfl, hbefore, hafter⟩ := h
  rcases List.mem_append.mp hx with hx | hx
  · exact le_of_lt (hbefore x hx)
  · rcases List.mem_cons.mp hx with rfl | hx
    · exact le_refl _
    · exact hafter x hx

/-- A better item at the end is the new maximum. -/
theorem FirstMax.append_gt (x : α) (h : ∀ y ∈ l, f y < f x) : FirstMax f (l ++ [x]) x :=
  ⟨l, [], rfl, h, fun _ ha => absurd ha List.not_mem_nil⟩

/-- Another one is not. -/
theorem FirstMax.append_le (h : FirstMax f l e) {x : α} (hx : f x ≤ f e) :
    FirstMax f (l ++ [x]) e := by
  obtain ⟨before, after, rfl, hbefore, hafter⟩ := h
  refine ⟨before, after ++ [x], by simp, hbefore, fun a ha => ?_⟩
  rcases List.mem_append.mp ha with ha | ha
  · exact hafter a ha
  · exact List.mem_singleton.mp ha ▸ hx

theorem scanMax_append (f : α → F) (floor : F) (l : List α) (x : α) :
    scanMax f floor (l ++ [x]) =
      if (scanMax f floor l).2 < f x then (some x, f x) else scanMax f floor l := by
  unfold scanMax
  rw [List.foldl_append]
  rfl

/-- The induction is on the items scanned so far, so from the end of the list. -/
theorem scanMax_cases (f : α → F) (floor : F) (l : List α) :
    (scanMax f floor l = (none, floor) ∧ ∀ e ∈ l, f e ≤ floor) ∨
      ∃ e, scanMax f floor l = (some e, f e) ∧ floor < f e ∧ FirstMax f l e := by
  induction l using List.reverseRecOn with
  | nil => exact .inl ⟨rfl, fun e he => absurd he List.not_mem_nil⟩
  | append_singleton l x ih =>
    rw [scanMax_append]
    rcases ih with ⟨hscan, hle⟩ | ⟨e, hscan, hfloor, hmax⟩
    · rw [hscan]
      by_cases hx : floor < f x
      · rw [if_pos hx]
        exact .inr ⟨x, rfl, hx, .append_gt x fun y hy => lt_of_le_of_lt (hle y hy) hx⟩
      · rw [if_neg hx]
        refine .inl ⟨rfl, fun y hy => ?_⟩
        rcases List.mem_append.mp hy with hy | hy
        · exact hle y hy
        · exact List.mem_singleton.mp hy ▸ le_of_not_gt hx
    · rw [hscan]
      by_cases hx : f e < f x
      · rw [if_pos hx]
        exact .inr ⟨x, rfl, lt_trans hfloor hx,
          .append_gt x fun y hy => lt_of_le_of_lt (hmax.le hy) hx⟩
      · rw [if_neg hx]
        exact .inr ⟨e, rfl, hfloor, hmax.append_le (le_of_not_gt hx)⟩

/-- The first maximum is the first of the greatest items. -/
theorem FirstMax.unique (h : FirstMax f l e) (h' : FirstMax f l e') : e = e' := by
  obtain ⟨before, after, rfl, hbefore, hafter⟩ := h
  obtain ⟨before', after', heq, hbefore', hafter'⟩ := h'
  rcases List.append_eq_append_iff.mp heq with ⟨mid, hb', ha⟩ | ⟨mid, hb, ha⟩
  · cases mid with
    | nil =>
      rw [List.nil_append] at ha
      exact (List.cons.inj ha).1
    | cons m mid =>
      obtain ⟨rfl, hafter_eq⟩ := List.cons.inj ha
      have hlt : f e < f e' := hbefore' e (by rw [hb']; simp)
      have hle : f e' ≤ f e := hafter e' (by rw [hafter_eq]; simp)
      exact absurd hlt (not_lt_of_ge hle)
  · cases mid with
    | nil =>
      rw [List.nil_append] at ha
      exact (List.cons.inj ha).1.symm
    | cons m mid =>
      obtain ⟨rfl, hafter_eq⟩ := List.cons.inj ha
      have hlt : f e' < f e := hbefore e' (by rw [hb]; simp)
      have hle : f e ≤ f e' := hafter' e (by rw [hafter_eq]; simp)
      exact absurd hlt (not_lt_of_ge hle)

/-- A first maximum of the images is the image of one. -/
theorem FirstMax.of_map {β : Type} {f : β → F} {g : α → β} {p : β}
    (h : FirstMax f (l.map g) p) : ∃ e, p = g e ∧ FirstMax (fun a => f (g a)) l e := by
  obtain ⟨before, after, heq, hbefore, hafter⟩ := h
  obtain ⟨l₁, l₂, rfl, rfl, htail⟩ := List.map_eq_append_iff.mp heq
  obtain ⟨e, l₃, rfl, rfl, rfl⟩ := List.map_eq_cons_iff.mp htail
  exact ⟨e, rfl, l₁, l₃, rfl, fun b hb => hbefore _ (List.mem_map_of_mem hb),
    fun a ha => hafter _ (List.mem_map_of_mem ha)⟩

end Lib
