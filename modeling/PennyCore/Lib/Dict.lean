import Mathlib.Algebra.GroupWithZero.Nat
import Mathlib.Data.List.Nodup
import Mathlib.Data.List.Perm.Subperm

/-!
# Insertion-ordered dictionaries

A `Dict κ υ` is a finite map that remembers the order in which its keys were first set, as the
dictionaries of a scripting language do: setting a key that is there replaces the value in place,
setting a new key appends it. The keys are distinct by construction (`Dict.nodup`).

* `Dict.get?`, `Dict.set`: lookup and assignment, with the read-over-write lemmas (`get?_set`) and
  what a write does to the order (`entries_set`).
* `Dict.erase`, `Dict.moveToEnd`, `Dict.tail`: deletion, and the two moves of an ordered dictionary.
* `Dict.total f`: the sum of `f` over the values.
* `Dict.getD`, `Dict.push`: a dictionary of lists and its "append to the list at `k`, which starts
  empty" step.
* `Dict.IsIndex`: the dictionary of lists `d` is the secondary index of the list `xs` by `key`.
  `IsIndex.push` and `IsIndex.skip` are the two ways to keep it in step when `xs` grows.
-/

namespace Lib

/-- A dictionary with distinct keys, in the order of their first assignment. -/
structure Dict (κ υ : Type) where
  entries : List (κ × υ)
  nodup : (entries.map Prod.fst).Nodup

namespace Dict

variable {κ υ : Type}

def keys (d : Dict κ υ) : List κ := d.entries.map Prod.fst

def values (d : Dict κ υ) : List υ := d.entries.map Prod.snd

def empty : Dict κ υ := ⟨[], List.nodup_nil⟩

instance : EmptyCollection (Dict κ υ) := ⟨empty⟩

instance : Inhabited (Dict κ υ) := ⟨empty⟩

@[ext] theorem ext {d e : Dict κ υ} (h : d.entries = e.entries) : d = e := by
  cases d; cases e; cases h; rfl

instance [DecidableEq κ] [DecidableEq υ] : DecidableEq (Dict κ υ) := fun d e =>
  decidable_of_iff (d.entries = e.entries) ⟨ext, fun h => by rw [h]⟩

@[simp] theorem entries_empty : (∅ : Dict κ υ).entries = [] := rfl

@[simp] theorem keys_empty : (∅ : Dict κ υ).keys = [] := rfl

@[simp] theorem values_empty : (∅ : Dict κ υ).values = [] := rfl

/-- `{k: f(v) for k, v in d.items()}`. -/
def mapValues {ν : Type} (f : υ → ν) (d : Dict κ υ) : Dict κ ν where
  entries := d.entries.map fun e => (e.1, f e.2)
  nodup := by
    rw [List.map_map]
    exact d.nodup

variable [DecidableEq κ]

/-- The value of the first entry with key `k`. -/
def getEntries (k : κ) : List (κ × υ) → Option υ
  | [] => none
  | p :: ps => if p.1 = k then some p.2 else getEntries k ps

/-- The entries after `d[k] = v`. -/
def setEntries (k : κ) (v : υ) : List (κ × υ) → List (κ × υ)
  | [] => [(k, v)]
  | p :: ps => if p.1 = k then (k, v) :: ps else p :: setEntries k v ps

theorem keys_setEntries (k : κ) (v : υ) (ps : List (κ × υ)) :
    (setEntries k v ps).map Prod.fst =
      if k ∈ ps.map Prod.fst then ps.map Prod.fst else ps.map Prod.fst ++ [k] := by
  induction ps with
  | nil => rfl
  | cons p ps ih =>
    simp only [setEntries]
    by_cases hp : p.1 = k
    · simp [hp]
    · have hk : ¬ k = p.1 := fun h => hp h.symm
      simp only [hp, ↓reduceIte, List.map_cons, ih, List.mem_cons, hk, false_or]
      split <;> simp

theorem nodup_setEntries (k : κ) (v : υ) {ps : List (κ × υ)} (h : (ps.map Prod.fst).Nodup) :
    ((setEntries k v ps).map Prod.fst).Nodup := by
  rw [keys_setEntries]
  split
  · exact h
  · rename_i hk
    exact List.nodup_append.mpr ⟨h, List.nodup_singleton k, fun a ha b hb hab => by
      rw [List.mem_singleton] at hb
      exact hk (hb ▸ hab ▸ ha)⟩

/-- The value at `k`. -/
def get? (d : Dict κ υ) (k : κ) : Option υ := getEntries k d.entries

/-- `d[k] = v`. -/
def set (d : Dict κ υ) (k : κ) (v : υ) : Dict κ υ :=
  ⟨setEntries k v d.entries, nodup_setEntries k v d.nodup⟩

/-! ## Lookup -/

@[simp] theorem get?_empty (k : κ) : (∅ : Dict κ υ).get? k = none := rfl

theorem getEntries_setEntries (k k' : κ) (v : υ) (ps : List (κ × υ)) :
    getEntries k' (setEntries k v ps) = if k' = k then some v else getEntries k' ps := by
  induction ps with
  | nil => simp [setEntries, getEntries, eq_comm]
  | cons p ps ih =>
    simp only [setEntries]
    by_cases hp : p.1 = k
    · by_cases hk : k = k' <;> simp [hp, getEntries, hk, eq_comm]
    · simp only [hp, ↓reduceIte, getEntries, ih]
      by_cases hk : k' = k
      · simp [hk, hp]
      · simp [hk]

/-- Read over write. -/
theorem get?_set (d : Dict κ υ) (k k' : κ) (v : υ) :
    (d.set k v).get? k' = if k' = k then some v else d.get? k' :=
  getEntries_setEntries k k' v d.entries

@[simp] theorem get?_set_self (d : Dict κ υ) (k : κ) (v : υ) : (d.set k v).get? k = some v := by
  rw [get?_set, if_pos rfl]

theorem get?_set_ne (d : Dict κ υ) {k k' : κ} (v : υ) (h : k' ≠ k) :
    (d.set k v).get? k' = d.get? k' := by
  rw [get?_set, if_neg h]

theorem getD_set (d : Dict κ υ) (k k' : κ) (v w : υ) :
    ((d.set k v).get? k').getD w = if k' = k then v else (d.get? k').getD w := by
  rw [get?_set]
  split <;> rfl

theorem get?_eq_some {d : Dict κ υ} {k : κ} {v : υ} : d.get? k = some v ↔ (k, v) ∈ d.entries := by
  have hnd := d.nodup
  simp only [get?]
  generalize d.entries = ps at hnd
  induction ps with
  | nil => simp [getEntries]
  | cons p ps ih =>
    simp only [List.map_cons, List.nodup_cons] at hnd
    simp only [getEntries, List.mem_cons]
    by_cases hp : p.1 = k
    · have hno : (k, v) ∉ ps := fun h => hnd.1 (hp ▸ List.mem_map_of_mem (f := Prod.fst) h)
      subst hp
      simp [hno, Prod.ext_iff, eq_comm]
    · have hne : (k, v) ≠ p := fun h => hp (by rw [← h])
      simp [hp, hne, ih hnd.2]

theorem get?_eq_none {d : Dict κ υ} {k : κ} : d.get? k = none ↔ k ∉ d.keys := by
  rw [Option.eq_none_iff_forall_ne_some]
  simp only [ne_eq, get?_eq_some, keys, List.mem_map, Prod.exists, exists_and_right,
    exists_eq_right, not_exists]

theorem mem_keys {d : Dict κ υ} {k : κ} : k ∈ d.keys ↔ ∃ v, d.get? k = some v := by
  simp only [get?_eq_some, keys, List.mem_map, Prod.exists, exists_and_right, exists_eq_right]

/-- A lookup among entries that are given by the elements of a list. -/
theorem get?_map {α : Type} {d : Dict κ υ} {l : List α} {f : α → κ} {v : α → υ}
    (h : d.entries = l.map fun x => (f x, v x)) (k : κ) :
    d.get? k = (l.find? fun x => f x = k).map v := by
  unfold get?
  rw [h]
  clear h
  induction l with
  | nil => rfl
  | cons x l ih =>
    rw [List.map_cons, getEntries, List.find?_cons]
    by_cases hx : f x = k
    · simp [hx]
    · simp only [hx, ↓reduceIte, decide_false]
      exact ih

/-! ## Order -/

theorem keys_set (d : Dict κ υ) (k : κ) (v : υ) :
    (d.set k v).keys = if k ∈ d.keys then d.keys else d.keys ++ [k] :=
  keys_setEntries k v d.entries

theorem setEntries_new {k : κ} (v : υ) {ps : List (κ × υ)} (h : k ∉ ps.map Prod.fst) :
    setEntries k v ps = ps ++ [(k, v)] := by
  induction ps with
  | nil => rfl
  | cons p ps ih =>
    simp only [List.map_cons, List.mem_cons, not_or] at h
    have hp : ¬ p.1 = k := fun e => h.1 e.symm
    simp [setEntries, hp, ih h.2]

/-- A new key goes to the end. -/
theorem entries_set_new {d : Dict κ υ} {k : κ} (v : υ) (h : d.get? k = none) :
    (d.set k v).entries = d.entries ++ [(k, v)] :=
  setEntries_new v (get?_eq_none.mp h)

theorem length_set_new {d : Dict κ υ} {k : κ} (v : υ) (h : d.get? k = none) :
    (d.set k v).entries.length = d.entries.length + 1 := by
  rw [entries_set_new v h, List.length_append, List.length_singleton]

/-- A dictionary that has an entry for each key of another. -/
theorem length_le_of_injective {ν : Type} {d : Dict κ υ} {e : Dict κ ν} {f : κ → κ}
    (hf : Function.Injective f) (h : ∀ k v, d.get? k = some v → ∃ w, e.get? (f k) = some w) :
    d.entries.length ≤ e.entries.length := by
  have hsub : d.keys.map f ⊆ e.keys := fun x hx => by
    obtain ⟨k, hk, rfl⟩ := List.mem_map.mp hx
    obtain ⟨v, hv⟩ := mem_keys.mp hk
    exact mem_keys.mpr (h k v hv)
  have hle := (List.subperm_of_subset (List.Nodup.map hf d.nodup) hsub).length_le
  simpa [keys] using hle

/-- A dictionary that has at least the entries of another. -/
theorem length_le {d e : Dict κ υ} (h : ∀ k v, d.get? k = some v → e.get? k = some v) :
    d.entries.length ≤ e.entries.length :=
  length_le_of_injective Function.injective_id fun k v hk => ⟨v, h k v hk⟩

theorem setEntries_old {k : κ} (v : υ) {ps : List (κ × υ)} (hnd : (ps.map Prod.fst).Nodup)
    (h : k ∈ ps.map Prod.fst) :
    setEntries k v ps = ps.map fun p => if p.1 = k then (k, v) else p := by
  induction ps with
  | nil => simp at h
  | cons p ps ih =>
    simp only [List.map_cons, List.nodup_cons, List.mem_cons] at hnd h
    by_cases hp : p.1 = k
    · have hrest : ∀ q ∈ ps, (if q.1 = k then (k, v) else q) = q := fun q hq => if_neg fun e =>
        hnd.1 (List.mem_map.mpr ⟨q, hq, e.trans hp.symm⟩)
      simp only [setEntries, hp, ↓reduceIte, List.map_cons, List.map_congr_left hrest, List.map_id']
    · have hk : k ∈ ps.map Prod.fst := h.resolve_left fun e => hp e.symm
      simp only [setEntries, hp, ↓reduceIte, List.map_cons, ih hnd.2 hk]

/-- A known key keeps its place. -/
theorem entries_set_old {d : Dict κ υ} {k : κ} (v : υ) (h : k ∈ d.keys) :
    (d.set k v).entries = d.entries.map fun p => if p.1 = k then (k, v) else p :=
  setEntries_old v d.nodup h

/-! ## Deletion and order -/

/-- `del d[k]`. -/
def erase (d : Dict κ υ) (k : κ) : Dict κ υ :=
  ⟨d.entries.filter fun e => e.1 ≠ k, d.nodup.sublist (List.filter_sublist.map _)⟩

theorem get?_erase (d : Dict κ υ) (k k' : κ) :
    (d.erase k).get? k' = if k' = k then none else d.get? k' := by
  apply Option.ext
  intro v
  rw [get?_eq_some, erase, List.mem_filter]
  split
  · rename_i h
    simp [h]
  · rename_i h
    rw [get?_eq_some]
    simp [h]

/-- `d.move_to_end(k)`. -/
def moveToEnd (d : Dict κ υ) (k : κ) : Dict κ υ :=
  match d.get? k with
  | none => d
  | some v => (d.erase k).set k v

theorem get?_moveToEnd (d : Dict κ υ) (k k' : κ) : (d.moveToEnd k).get? k' = d.get? k' := by
  unfold moveToEnd
  cases hk : d.get? k with
  | none => rfl
  | some v =>
    simp only
    rw [get?_set, get?_erase]
    split
    · rename_i h
      rw [h, hk]
    · rfl

theorem entries_moveToEnd {d : Dict κ υ} {k : κ} {v : υ} (h : d.get? k = some v) :
    (d.moveToEnd k).entries = (d.entries.filter fun e => e.1 ≠ k) ++ [(k, v)] := by
  unfold moveToEnd
  rw [h]
  exact entries_set_new v (by rw [get?_erase, if_pos rfl])

theorem filter_setEntries (k : κ) (v : υ) (ps : List (κ × υ)) :
    (setEntries k v ps).filter (fun e => e.1 ≠ k) = ps.filter fun e => e.1 ≠ k := by
  induction ps with
  | nil => simp [setEntries]
  | cons p ps ih =>
    by_cases hp : p.1 = k
    · simp [setEntries, hp]
    · simp only [setEntries, hp, ↓reduceIte, List.filter_cons]
      rw [ih]

/-- A key that is set and moved to the end. -/
theorem entries_set_moveToEnd (d : Dict κ υ) (k : κ) (v : υ) :
    ((d.set k v).moveToEnd k).entries = (d.entries.filter fun e => e.1 ≠ k) ++ [(k, v)] := by
  rw [entries_moveToEnd (get?_set_self d k v)]
  exact congrArg (· ++ [(k, v)]) (filter_setEntries k v d.entries)

/-- The dictionary without its first entry. -/
def tail (d : Dict κ υ) : Dict κ υ :=
  ⟨d.entries.tail, d.nodup.sublist ((List.tail_sublist _).map _)⟩

theorem get?_tail {d : Dict κ υ} {k k' : κ} {v : υ} {rest : List (κ × υ)}
    (h : d.entries = (k, v) :: rest) : d.tail.get? k' = if k' = k then none else d.get? k' := by
  have hnd := d.nodup
  rw [h, List.map_cons, List.nodup_cons] at hnd
  apply Option.ext
  intro w
  rw [get?_eq_some]
  change (k', w) ∈ d.entries.tail ↔ _
  rw [h, List.tail_cons]
  split
  · rename_i heq
    subst heq
    exact ⟨fun hm => absurd (List.mem_map_of_mem (f := Prod.fst) hm) hnd.1, fun hm => nomatch hm⟩
  · rename_i hne
    rw [get?_eq_some, h, List.mem_cons]
    simp [hne]

/-! ## Totals -/

/-- The sum of `f` over the values. -/
def total (f : υ → Nat) (d : Dict κ υ) : Nat := (d.values.map f).sum

theorem total_set (f : υ → Nat) (d : Dict κ υ) (k : κ) (v : υ) :
    (d.set k v).total f + ((d.get? k).map f).getD 0 = d.total f + f v := by
  change (((setEntries k v d.entries).map Prod.snd).map f).sum +
    ((getEntries k d.entries).map f).getD 0 = ((d.entries.map Prod.snd).map f).sum + f v
  generalize d.entries = ps
  induction ps with
  | nil => simp [setEntries, getEntries]
  | cons p ps ih =>
    by_cases hp : p.1 = k
    · simp only [setEntries, getEntries, hp, ↓reduceIte, List.map_cons, List.sum_cons,
        Option.map_some, Option.getD_some]
      omega
    · simp only [setEntries, getEntries, hp, ↓reduceIte, List.map_cons, List.sum_cons]
      omega

/-! ## The keys of the values with a property -/

/-- The keys whose values satisfy `p`, in the order of the dictionary. -/
def keysWhere (p : υ → Bool) (d : Dict κ υ) : List κ :=
  (d.entries.filter fun e => p e.2).map Prod.fst

theorem mem_keysWhere {p : υ → Bool} {d : Dict κ υ} {k : κ} :
    k ∈ d.keysWhere p ↔ ∃ v, d.get? k = some v ∧ p v = true := by
  simp only [keysWhere, List.mem_map, List.mem_filter, Prod.exists, exists_and_right,
    exists_eq_right, get?_eq_some]

omit [DecidableEq κ] in
theorem nodup_keysWhere (p : υ → Bool) (d : Dict κ υ) : (d.keysWhere p).Nodup :=
  d.nodup.sublist (List.filter_sublist.map Prod.fst)

theorem keysWhere_set_new {p : υ → Bool} {d : Dict κ υ} {k : κ} {v : υ} (h : d.get? k = none) :
    (d.set k v).keysWhere p = d.keysWhere p ++ if p v then [k] else [] := by
  unfold keysWhere
  rw [entries_set_new v h, List.filter_append, List.map_append]
  cases hp : p v <;> simp [hp]

/-- Replacing a value by one with the same property changes nothing. -/
theorem keysWhere_set_keep {p : υ → Bool} {d : Dict κ υ} {k : κ} {v w : υ}
    (h : d.get? k = some w) (hp : p v = p w) : (d.set k v).keysWhere p = d.keysWhere p := by
  unfold keysWhere
  rw [entries_set_old v (mem_keys.mpr ⟨w, h⟩)]
  have hval : ∀ e ∈ d.entries, e.1 = k → e.2 = w := fun e he hk =>
    Option.some.inj ((get?_eq_some.mpr (hk ▸ he : (k, e.2) ∈ d.entries)).symm.trans h)
  generalize d.entries = es at hval
  induction es with
  | nil => rfl
  | cons e es ih =>
    have ih := ih fun e' he' => hval e' (List.mem_cons_of_mem e he')
    by_cases hk : e.1 = k
    · have he : p e.2 = p v := by rw [hval e List.mem_cons_self hk, hp]
      cases hv : p v <;> simp [hk, he, hv, ih]
    · cases he : p e.2 <;> simp [hk, he, ih]

/-- Replacing a value by one without the property takes its key out. -/
theorem keysWhere_set_drop {p : υ → Bool} {d : Dict κ υ} {k : κ} {v w : υ}
    (h : d.get? k = some w) (hp : p v = false) :
    (d.set k v).keysWhere p = (d.keysWhere p).erase k := by
  have hnd := nodup_keysWhere p d
  unfold keysWhere at hnd ⊢
  rw [List.Nodup.erase_eq_filter hnd, entries_set_old v (mem_keys.mpr ⟨w, h⟩)]
  generalize d.entries = es
  induction es with
  | nil => rfl
  | cons e es ih =>
    by_cases hk : e.1 = k
    · cases he : p e.2 <;> simp [hk, he, hp, ih]
    · cases he : p e.2 <;> simp [hk, he, ih]

/-! ## Dictionaries of lists -/

/-- `d.get(k, [])`. -/
def getList {α : Type} (d : Dict κ (List α)) (k : κ) : List α := (d.get? k).getD []

/-- `d.setdefault(k, []).append(x)`. -/
def push {α : Type} (d : Dict κ (List α)) (k : κ) (x : α) : Dict κ (List α) :=
  d.set k (d.getList k ++ [x])

variable {α : Type}

theorem getList_set (d : Dict κ (List α)) (k k' : κ) (xs : List α) :
    (d.set k xs).getList k' = if k' = k then xs else d.getList k' :=
  getD_set d k k' xs []

theorem getList_push (d : Dict κ (List α)) (k k' : κ) (x : α) :
    (d.push k x).getList k' = if k' = k then d.getList k ++ [x] else d.getList k' :=
  getList_set d k k' _

/-- `d` is the index of `xs` by `key`: the list at `k` is the part of `xs` with key `k`, in the
order of `xs`. -/
def IsIndex (key : α → Option κ) (xs : List α) (d : Dict κ (List α)) : Prop :=
  ∀ k, d.getList k = xs.filter fun x => key x = some k

theorem IsIndex.empty (key : α → Option κ) : IsIndex key [] (∅ : Dict κ (List α)) := fun _ => rfl

/-- Appending an element with a key appends it to the list at that key. -/
theorem IsIndex.push {key : α → Option κ} {xs : List α} {d : Dict κ (List α)} {k : κ} {x : α}
    (h : IsIndex key xs d) (hx : key x = some k) : IsIndex key (xs ++ [x]) (d.push k x) := by
  intro k'
  rw [getList_push, List.filter_append, h k']
  by_cases hk : k' = k
  · subst hk; simp [hx, h k']
  · have hne : ¬ k = k' := fun e => hk e.symm
    simp [hk, hx, hne]

/-- Appending an element without a key leaves the index as it is. -/
theorem IsIndex.skip {key : α → Option κ} {xs : List α} {d : Dict κ (List α)} {x : α}
    (h : IsIndex key xs d) (hx : key x = none) : IsIndex key (xs ++ [x]) d := by
  intro k
  rw [List.filter_append, h k]
  simp [hx]

end Dict
end Lib
