import Mathlib.Data.List.Nodup

/-!
# Caches in the order of use

A cache of bounded size is a list of entries, from the least to the most recently used.

* `touch l k v`: the entry of `k` becomes the most recent one, with value `v`.
* `put cap l k v`: the same for a key that may be new; if the cache then has more than `cap` entries,
  the least recent ones go.
* `Recent uses ks`: the keys `ks` are in the order of their last uses. `Recent.touch` and `Recent.put`
  keep it.
-/

namespace Lib.Lru

variable {κ υ : Type} [DecidableEq κ]

/-- The keys, from the least to the most recently used. -/
def keys (l : List (κ × υ)) : List κ := l.map Prod.fst

def touch (l : List (κ × υ)) (k : κ) (v : υ) : List (κ × υ) := (l.filter fun e => e.1 ≠ k) ++ [(k, v)]

def put (cap : Nat) (l : List (κ × υ)) (k : κ) (v : υ) : List (κ × υ) :=
  (touch l k v).drop ((touch l k v).length - cap)

variable {l : List (κ × υ)} {k k' : κ} {v w : υ} {cap : Nat}

theorem keys_touch (l : List (κ × υ)) (k : κ) (v : υ) :
    keys (touch l k v) = ((keys l).filter fun x => x ≠ k) ++ [k] := by
  unfold keys touch
  rw [List.map_append, List.filter_map]
  rfl

/-- A new key. -/
theorem touch_new (h : k ∉ keys l) (v : υ) : touch l k v = l ++ [(k, v)] := by
  unfold touch
  rw [List.filter_eq_self.mpr]
  rintro ⟨x, w⟩ hx
  have hne : x ≠ k := fun heq => h (heq ▸ List.mem_map_of_mem (f := Prod.fst) hx)
  simpa using hne

theorem mem_touch {e : κ × υ} : e ∈ touch l k v ↔ (e ∈ l ∧ e.1 ≠ k) ∨ e = (k, v) := by
  unfold touch
  simp

/-- A key that is there keeps the length. -/
theorem length_touch (hnd : (keys l).Nodup) (h : k ∈ keys l) (v : υ) :
    (touch l k v).length = l.length := by
  induction l with
  | nil => cases h
  | cons e l ih =>
    obtain ⟨hnot, hnd'⟩ := List.nodup_cons.mp hnd
    have hcons : (touch (e :: l) k v).length =
        (if e.1 ≠ k then 1 else 0) + (touch l k v).length := by
      unfold touch
      rw [List.filter_cons]
      by_cases he : e.1 = k <;> simp [he]; omega
    by_cases he : e.1 = k
    · rw [hcons, touch_new (l := l) (by rw [← he]; exact hnot)]
      simp [he]
    · have hmem : k ∈ keys l := (List.mem_cons.mp h).resolve_left fun heq => he heq.symm
      rw [hcons, ih hnd' hmem, if_pos he, List.length_cons]
      omega

/-- A key that is there is refreshed. -/
theorem put_old (hnd : (keys l).Nodup) (h : k ∈ keys l) (hcap : l.length ≤ cap) (v : υ) :
    put cap l k v = touch l k v := by
  unfold put
  rw [length_touch hnd h, Nat.sub_eq_zero_of_le hcap, List.drop_zero]

/-- A new key, while there is room. -/
theorem put_room (h : k ∉ keys l) (hcap : l.length < cap) (v : υ) :
    put cap l k v = l ++ [(k, v)] := by
  unfold put
  rw [touch_new h, List.length_append, List.length_singleton, Nat.sub_eq_zero_of_le hcap,
    List.drop_zero]

/-- A new key in a full cache takes the place of the least recent one. -/
theorem put_full (h : k ∉ keys l) (hcap : l.length = cap) (hpos : 0 < cap) (v : υ) :
    put cap l k v = l.tail ++ [(k, v)] := by
  unfold put
  rw [touch_new h, List.length_append, List.length_singleton, hcap, Nat.add_sub_cancel_left]
  cases l with
  | nil => simp at hcap; omega
  | cons e l => rfl

/-! ## Lookup -/

theorem lookup_touch (l : List (κ × υ)) (k k' : κ) (v : υ) :
    (touch l k v).lookup k' = if k' = k then some v else l.lookup k' := by
  unfold touch
  induction l with
  | nil =>
    by_cases h : k' = k
    · simp [h]
    · simp [List.lookup_cons, h, beq_eq_false_iff_ne.mpr h]
  | cons e l ih =>
    obtain ⟨a, w⟩ := e
    rw [List.filter_cons]
    by_cases he : a = k
    · rw [if_neg (by simpa using he), ih]
      by_cases h : k' = k
      · simp [h]
      · have hne : ¬ k' = a := fun heq => h (heq.trans he)
        simp [List.lookup_cons, h, beq_eq_false_iff_ne.mpr hne]
    · rw [if_pos (by simpa using he), List.cons_append]
      by_cases hk' : k' = a
      · simp [hk', he]
      · have hbeq : (k' == a) = false := by simpa using hk'
        simp only [List.lookup_cons, hbeq]
        exact ih

theorem lookup_of_mem (hnd : (keys l).Nodup) (h : (k, v) ∈ l) : l.lookup k = some v := by
  induction l with
  | nil => cases h
  | cons e l ih =>
    obtain ⟨a, w⟩ := e
    obtain ⟨hnot, hnd'⟩ := List.nodup_cons.mp hnd
    rcases List.mem_cons.mp h with heq | h
    · cases heq
      simp
    · have hne : ¬ k = a := fun heq => hnot (List.mem_map.mpr ⟨(k, v), h, heq⟩)
      simp only [List.lookup_cons, beq_eq_false_iff_ne.mpr hne]
      exact ih hnd' h

theorem mem_of_lookup (h : l.lookup k = some v) : (k, v) ∈ l := by
  obtain ⟨l₁, l₂, rfl, -⟩ := List.lookup_eq_some_iff.mp h
  exact List.mem_append_right _ List.mem_cons_self

theorem lookup_eq_none : l.lookup k = none ↔ k ∉ keys l := by
  unfold keys
  rw [List.lookup_eq_none_iff]
  simp only [List.mem_map, Prod.exists, exists_and_right, exists_eq_right, not_exists]
  constructor
  · intro h x hx
    simpa using h (k, x) hx
  · rintro h ⟨y, w⟩ hy
    have hne : k ≠ y := fun heq => h w (heq ▸ hy)
    simpa using hne

/-- A put drops the least recent entry if its key is new and the cache is full. -/
theorem lookup_put (hnd : (keys l).Nodup) (hlen : l.length ≤ cap) (hpos : 0 < cap) (k k' : κ) (v : υ) :
    (put cap l k v).lookup k' = if k' = k then some v
      else if k ∉ keys l ∧ (keys l).length = cap ∧ (keys l).head? = some k' then none
      else l.lookup k' := by
  have hkeys : (keys l).length = l.length := List.length_map _
  by_cases hk : k ∈ keys l
  · rw [put_old hnd hk hlen, lookup_touch]
    simp [hk]
  by_cases hfull : l.length = cap
  · cases l with
    | nil => exact absurd hfull (Nat.ne_of_lt hpos)
    | cons e l =>
      obtain ⟨a, w⟩ := e
      obtain ⟨hnot, hnd'⟩ := List.nodup_cons.mp hnd
      have hnew : k ∉ keys l := fun h => hk (List.mem_cons_of_mem _ h)
      rw [put_full hk hfull hpos, List.tail_cons, ← touch_new hnew, lookup_touch, hkeys]
      refine congrArg (fun r => if k' = k then some v else r) ?_
      by_cases he : a = k'
      · subst he
        rw [if_pos ⟨hk, hfull, rfl⟩, lookup_eq_none.mpr hnot]
      · have hne : ¬ k' = a := fun heq => he heq.symm
        rw [if_neg (fun h => he (Option.some.inj h.2.2))]
        simp only [List.lookup_cons, beq_eq_false_iff_ne.mpr hne]
  · rw [put_room hk (Nat.lt_of_le_of_ne hlen hfull), ← touch_new hk, lookup_touch, hkeys]
    simp [hfull]

/-! ## Order -/

/-- `a` was used last before `b` was. -/
def Before (uses : List κ) (a b : κ) : Prop := uses.reverse.idxOf b < uses.reverse.idxOf a

/-- The keys are in the order of their last uses, and were used. -/
structure Recent (uses ks : List κ) : Prop where
  used : ∀ k ∈ ks, k ∈ uses
  ordered : ks.Pairwise (Before uses)

theorem Recent.nil (uses : List κ) : Recent uses ([] : List κ) :=
  ⟨(fun _ h => nomatch h), List.Pairwise.nil⟩

theorem Recent.sublist {uses ks ks' : List κ} (h : Recent uses ks) (hs : ks'.Sublist ks) :
    Recent uses ks' :=
  ⟨fun k hk => h.used k (hs.subset hk), h.ordered.sublist hs⟩

/-- A use of `k`. -/
theorem Recent.use {uses ks : List κ} (h : Recent uses ks) (k : κ) :
    Recent (uses ++ [k]) ((ks.filter fun x => x ≠ k) ++ [k]) := by
  have hidx : ∀ x, (uses ++ [k]).reverse.idxOf x = if k = x then 0 else uses.reverse.idxOf x + 1 :=
    fun x => by
      rw [List.reverse_append, List.reverse_singleton, List.singleton_append, List.idxOf_cons]
      by_cases hx : k = x
      · simp [hx]
      · simp [hx, beq_eq_false_iff_ne.mpr hx]
  refine ⟨fun x hx => ?_, List.pairwise_append.mpr ⟨?_, List.pairwise_singleton _ _, ?_⟩⟩
  · rcases List.mem_append.mp hx with hx | hx
    · exact List.mem_append_left _ (h.used x (List.mem_filter.mp hx).1)
    · exact List.mem_append_right _ hx
  · refine (h.ordered.sublist List.filter_sublist).imp_of_mem fun {a b} ha hb hab => ?_
    have ha' : ¬ k = a := fun heq => by simpa [heq] using (List.mem_filter.mp ha).2
    have hb' : ¬ k = b := fun heq => by simpa [heq] using (List.mem_filter.mp hb).2
    unfold Before at hab ⊢
    rw [hidx, hidx, if_neg ha', if_neg hb']
    omega
  · intro a ha b hb
    have ha' : ¬ k = a := fun heq => by simpa [heq] using (List.mem_filter.mp ha).2
    rw [List.mem_singleton.mp hb]
    unfold Before
    rw [hidx, hidx, if_pos rfl, if_neg ha']
    omega

theorem Recent.touch {uses : List κ} (h : Recent uses (keys l)) (k : κ) (v : υ) :
    Recent (uses ++ [k]) (keys (touch l k v)) := by
  rw [keys_touch]
  exact h.use k

theorem Recent.put {uses : List κ} (h : Recent uses (keys l)) (cap : Nat) (k : κ) (v : υ) :
    Recent (uses ++ [k]) (keys (put cap l k v)) := by
  refine (h.touch k v).sublist ?_
  unfold Lru.put keys
  rw [List.map_drop]
  exact List.drop_sublist _ _

end Lib.Lru
