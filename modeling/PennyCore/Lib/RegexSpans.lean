import PennyCore.Lib.Regex

/-!
# Where an expression matches

The matches of `Lib.Regex` as a relation, and what a chain of substitutions does to them.

* `Regex.Matches b m a`: the expression matches the text `m` between the characters `b` and `a`, by
  recursion on the expression. `Regex.mem_ends` says that the matcher finds these matches.
* `Regex.Edged`: a match does not begin or end inside a word, and what is next to it does not matter
  beyond that. Expressions between word boundaries, or between characters that are in no word, are
  such ones.
* `Carried`: a passage of the text that none of a chain of substitutions meets. It is a match after
  the chain exactly if it was one before (`Carried.matches_iff`), so where all matches after the chain
  are such passages, they are matches before it that no substitution met (`occurs_iff_escapes`).
* `Carried.not_match`: a substitution of the chain leaves no match of its own uncarried.
-/

namespace Lib

/-! ## The matches of an expression -/

/-- The expression matches `m` between the characters `b` and `a`. -/
def Regex.Matches : Regex → Option Char → List Char → Option Char → Prop
  | .empty, _, m, _ => m = []
  | .char p, _, m, _ => ∃ c, m = [c] ∧ p c = true
  | .seq r s, b, m, a => ∃ m₁ m₂, m = m₁ ++ m₂ ∧ r.Matches b m₁ (m₂.head?.or a) ∧
      s.Matches (m₁.getLast?.or b) m₂ a
  | .alt r s, b, m, a => r.Matches b m a ∨ s.Matches b m a
  | .opt r, b, m, a => r.Matches b m a ∨ m = []
  | .many p min max, _, m, _ =>
    (∀ c ∈ m, p c = true) ∧ min ≤ m.length ∧ ∀ n ∈ max, m.length ≤ n
  | .boundary word, b, m, a => m = [] ∧ b.any word ≠ a.any word
  | .start, b, m, _ => m = [] ∧ b = none

theorem getLast?_cons_or (c : Char) (m : List Char) (b : Option Char) :
    (c :: m).getLast?.or b = m.getLast?.or (some c) := by
  cases m with
  | nil => rfl
  | cons d m => simp [List.getLast?_cons]

/-- The cursor stays where it is. -/
theorem Cursor.stays {b : Option Char} {cs : List Char} {e : Cursor} :
    e = ⟨b, cs⟩ ↔ cs = [] ++ e.rest ∧ e.before = ([] : List Char).getLast?.or b := by
  obtain ⟨b', cs'⟩ := e
  simp only [Cursor.mk.injEq, List.nil_append, List.getLast?_nil, Option.none_or]
  exact ⟨fun h => ⟨h.2.symm, h.1⟩, fun h => ⟨h.2, h.1.symm⟩⟩

/-- The cursor that a class reaches with no character. -/
theorem Cursor.head_upTo (p : Char → Bool) (n : Nat) (b : Option Char) (cs : List Char) :
    (Cursor.upTo p n b cs)[0]? = some ⟨b, cs⟩ := by
  cases n with
  | zero => rfl
  | succ n => cases cs <;> rfl

theorem Cursor.getElem?_upTo_zero {p : Char → Bool} {n : Nat} {b : Option Char} {cs : List Char}
    {e : Cursor} :
    (Cursor.upTo p n b cs)[0]? = some e ↔
      ∃ m, cs = m ++ e.rest ∧ e.before = m.getLast?.or b ∧ (∀ c ∈ m, p c = true) ∧ m.length = 0 ∧
        0 ≤ n := by
  rw [head_upTo, Option.some.injEq, eq_comm, Cursor.stays]
  constructor
  · rintro ⟨hcs, hb⟩
    exact ⟨[], hcs, hb, fun _ h => (nomatch h), rfl, Nat.zero_le n⟩
  · rintro ⟨m, hcs, hb, _, hlen, _⟩
    obtain rfl := List.eq_nil_of_length_eq_zero hlen
    exact ⟨hcs, hb⟩

/-- The cursor that a class reaches with `k` characters. -/
theorem Cursor.getElem?_upTo {p : Char → Bool} {n k : Nat} {b : Option Char} {cs : List Char}
    {e : Cursor} :
    (Cursor.upTo p n b cs)[k]? = some e ↔
      ∃ m, cs = m ++ e.rest ∧ e.before = m.getLast?.or b ∧ (∀ c ∈ m, p c = true) ∧ m.length = k ∧
        k ≤ n := by
  induction n generalizing b cs k with
  | zero =>
    cases k with
    | zero => exact getElem?_upTo_zero
    | succ k => simp [upTo]
  | succ n ih =>
    cases cs with
    | nil =>
      cases k with
      | zero => exact getElem?_upTo_zero
      | succ k =>
        refine ⟨fun h => by simp [upTo] at h, ?_⟩
        rintro ⟨m, hcs, _, _, hlen, _⟩
        obtain ⟨rfl, _⟩ := List.append_eq_nil_iff.mp hcs.symm
        cases hlen
    | cons c cs =>
      cases k with
      | zero => exact getElem?_upTo_zero
      | succ k =>
        rw [upTo, List.getElem?_cons_succ]
        by_cases hp : p c = true
        · rw [if_pos hp, ih]
          constructor
          · rintro ⟨m, rfl, hb, hall, hlen, hk⟩
            refine ⟨c :: m, rfl, by rw [hb, getLast?_cons_or], ?_, by simp [hlen], by omega⟩
            intro d hd
            rcases List.mem_cons.mp hd with rfl | hd
            · exact hp
            · exact hall d hd
          · rintro ⟨m, hcs, hb, hall, hlen, hk⟩
            obtain ⟨d, m, rfl⟩ := List.exists_cons_of_length_eq_add_one hlen
            rw [List.cons_append, List.cons.injEq] at hcs
            obtain ⟨rfl, rfl⟩ := hcs
            exact ⟨m, rfl, by rw [hb, getLast?_cons_or],
              fun d hd => hall d (List.mem_cons_of_mem _ hd), by simpa using hlen, by omega⟩
        · rw [if_neg hp]
          refine ⟨fun h => by simp at h, ?_⟩
          rintro ⟨m, hcs, _, hall, hlen, _⟩
          obtain ⟨d, m, rfl⟩ := List.exists_cons_of_length_eq_add_one hlen
          rw [List.cons_append, List.cons.injEq] at hcs
          obtain ⟨rfl, rfl⟩ := hcs
          exact absurd (hall c List.mem_cons_self) hp

/-- The cursors that a class reaches with `min` characters at least. -/
theorem Cursor.mem_upTo {p : Char → Bool} {n min : Nat} {b : Option Char} {cs : List Char}
    {e : Cursor} :
    e ∈ (Cursor.upTo p n b cs).drop min ↔
      ∃ m, cs = m ++ e.rest ∧ e.before = m.getLast?.or b ∧ (∀ c ∈ m, p c = true) ∧ min ≤ m.length ∧
        m.length ≤ n := by
  rw [List.mem_iff_getElem?]
  simp only [List.getElem?_drop, Cursor.getElem?_upTo]
  constructor
  · rintro ⟨i, m, hcs, hb, hall, hlen, hk⟩
    exact ⟨m, hcs, hb, hall, by omega, by omega⟩
  · rintro ⟨m, hcs, hb, hall, hmin, hlen⟩
    exact ⟨m.length - min, m, hcs, hb, hall, by omega, by omega⟩

/-- The matcher finds the matches. -/
theorem Regex.mem_ends (r : Regex) {b : Option Char} {cs : List Char} {e : Cursor} :
    e ∈ r.ends ⟨b, cs⟩ ↔
      ∃ m, cs = m ++ e.rest ∧ e.before = m.getLast?.or b ∧ r.Matches b m e.rest.head? := by
  induction r generalizing b cs e with
  | empty =>
    rw [ends, List.mem_singleton, Cursor.stays]
    exact ⟨fun ⟨hcs, hb⟩ => ⟨[], hcs, hb, rfl⟩, fun ⟨m, hcs, hb, hm⟩ => hm ▸ ⟨hcs, hb⟩⟩
  | char p =>
    cases cs with
    | nil =>
      refine ⟨fun h => by simp [ends] at h, ?_⟩
      rintro ⟨m, hcs, _, c, rfl, _⟩
      cases hcs
    | cons c cs =>
      obtain ⟨b', cs'⟩ := e
      simp only [ends]
      constructor
      · intro h
        split at h
        · rename_i hp
          rw [List.mem_singleton, Cursor.mk.injEq] at h
          obtain ⟨rfl, rfl⟩ := h
          exact ⟨[c], rfl, rfl, c, rfl, hp⟩
        · cases h
      · rintro ⟨m, hcs, hb, d, rfl, hp⟩
        rw [List.singleton_append, List.cons.injEq] at hcs
        obtain ⟨rfl, rfl⟩ := hcs
        rw [if_pos hp, List.mem_singleton, Cursor.mk.injEq]
        exact ⟨hb, rfl⟩
  | seq r s ihr ihs =>
    rw [ends, List.mem_flatMap]
    constructor
    · rintro ⟨⟨b₁, cs₁⟩, hr, hs⟩
      obtain ⟨m₁, rfl, hb₁, hm₁⟩ := ihr.mp hr
      obtain ⟨m₂, hcs₁, hb, hm₂⟩ := ihs.mp hs
      simp only at hb₁ hcs₁ hm₁
      subst hb₁ hcs₁
      rw [List.head?_append] at hm₁
      refine ⟨m₁ ++ m₂, by rw [List.append_assoc], ?_, m₁, m₂, rfl, hm₁, hm₂⟩
      rw [hb, List.getLast?_append, Option.or_assoc]
    · rintro ⟨m, rfl, hb, m₁, m₂, rfl, hm₁, hm₂⟩
      refine ⟨⟨m₁.getLast?.or b, m₂ ++ e.rest⟩, ihr.mpr ⟨m₁, by rw [List.append_assoc], rfl, ?_⟩,
        ihs.mpr ⟨m₂, rfl, ?_, hm₂⟩⟩
      · rw [List.head?_append]
        exact hm₁
      · rw [hb, List.getLast?_append, Option.or_assoc]
  | alt r s ihr ihs =>
    rw [ends, List.mem_append, @ihr b cs e, @ihs b cs e]
    constructor
    · rintro (⟨m, hcs, hb, hm⟩ | ⟨m, hcs, hb, hm⟩)
      · exact ⟨m, hcs, hb, .inl hm⟩
      · exact ⟨m, hcs, hb, .inr hm⟩
    · rintro ⟨m, hcs, hb, hm | hm⟩
      · exact .inl ⟨m, hcs, hb, hm⟩
      · exact .inr ⟨m, hcs, hb, hm⟩
  | opt r ihr =>
    rw [ends, List.mem_append, @ihr b cs e, List.mem_singleton, Cursor.stays]
    constructor
    · rintro (⟨m, hcs, hb, hm⟩ | ⟨hcs, hb⟩)
      · exact ⟨m, hcs, hb, .inl hm⟩
      · exact ⟨[], hcs, hb, .inr rfl⟩
    · rintro ⟨m, hcs, hb, hm | rfl⟩
      · exact .inl ⟨m, hcs, hb, hm⟩
      · exact .inr ⟨hcs, hb⟩
  | many p min max =>
    rw [ends, List.mem_reverse, Cursor.mem_upTo]
    constructor
    · rintro ⟨m, hcs, hb, hall, hmin, hmax⟩
      refine ⟨m, hcs, hb, hall, hmin, ?_⟩
      rintro n rfl
      exact hmax
    · rintro ⟨m, hcs, hb, hall, hmin, hmax⟩
      refine ⟨m, hcs, hb, hall, hmin, ?_⟩
      cases max with
      | none =>
        rw [Option.getD_none, hcs, List.length_append]
        exact Nat.le_add_right _ _
      | some n => exact hmax n rfl
  | boundary word =>
    rw [ends]
    constructor
    · intro h
      split at h
      · rename_i hat
        rw [List.mem_singleton] at h
        subst h
        exact ⟨[], rfl, rfl, rfl, by simpa [Cursor.atBoundary] using hat⟩
      · cases h
    · rintro ⟨m, hcs, hb, rfl, hne⟩
      have he : e = ⟨b, cs⟩ := Cursor.stays.mpr ⟨hcs, hb⟩
      subst he
      rw [if_pos (by simpa [Cursor.atBoundary] using hne)]
      exact List.mem_cons_self
  | start =>
    rw [ends]
    constructor
    · intro h
      split at h
      · rename_i hat
        rw [List.mem_singleton] at h
        subst h
        exact ⟨[], rfl, rfl, rfl, by simpa using hat⟩
      · cases h
    · rintro ⟨m, hcs, hb, rfl, rfl⟩
      have he : e = ⟨none, cs⟩ := Cursor.stays.mpr ⟨hcs, hb⟩
      subst he
      exact List.mem_cons_self

namespace Regex

variable {r : Regex} {b : Option Char} {cs m post : List Char}

/-! ## The pieces of a text -/

/-- The expression does not match the empty text. -/
def Solid (r : Regex) : Prop := ∀ b m a, r.Matches b m a → m ≠ []

theorem matchLength_some {n : Nat} (h : r.matchLength ⟨b, cs⟩ = some n) :
    ∃ m post, cs = m ++ post ∧ m.length = n ∧ r.Matches b m post.head? := by
  unfold matchLength at h
  cases hends : r.ends ⟨b, cs⟩ with
  | nil =>
    rw [hends] at h
    cases h
  | cons e es =>
    have he : e ∈ r.ends ⟨b, cs⟩ := hends ▸ List.mem_cons_self
    obtain ⟨m, hcs, _, hm⟩ := r.mem_ends.mp he
    rw [hends] at h
    simp only [List.head?_cons, Option.map_some, Option.some.injEq] at h
    refine ⟨m, e.rest, hcs, ?_, hm⟩
    rw [← h, hcs, List.length_append]
    omega

theorem matchLength_of_match (hsolid : r.Solid) (h : r.Matches b m post.head?) :
    ∃ n, r.matchLength ⟨b, m ++ post⟩ = some (n + 1) := by
  have hmem : (⟨m.getLast?.or b, post⟩ : Cursor) ∈ r.ends ⟨b, m ++ post⟩ :=
    r.mem_ends.mpr ⟨m, rfl, rfl, h⟩
  cases hlen : r.matchLength ⟨b, m ++ post⟩ with
  | none =>
    unfold matchLength at hlen
    rw [Option.map_eq_none_iff, List.head?_eq_none_iff] at hlen
    rw [hlen] at hmem
    cases hmem
  | some n =>
    obtain ⟨m', post', _, hlength, hm'⟩ := matchLength_some hlen
    cases n with
    | zero => exact absurd (List.eq_nil_of_length_eq_zero hlength) (hsolid _ _ _ hm')
    | succ n => exact ⟨n, rfl⟩

/-- Each piece is the first one from its own place on: the induction is on the text. -/
theorem scan_split {skip : Nat} {p : Piece} {ps qs : List Piece} (h : r.scan b skip cs = ps ++ p :: qs) :
    ∃ c rest, r.scan ((cs.take skip ++ ps.flatMap Piece.source).getLast?.or b) 0 (c :: rest) =
      p :: qs := by
  induction cs generalizing b skip ps with
  | nil => simp [scan] at h
  | cons c cs ih =>
    cases skip with
    | succ skip =>
      rw [scan] at h
      rw [List.take_succ_cons, List.cons_append, getLast?_cons_or]
      exact ih h
    | zero =>
      cases ps with
      | nil => exact ⟨c, cs, by simpa using h⟩
      | cons p' ps =>
        unfold scan at h
        rw [List.take_zero, List.nil_append, List.flatMap_cons]
        split at h
        · rw [List.cons_append, List.cons.injEq] at h
          obtain ⟨rfl, h⟩ := h
          rw [Piece.source, List.take_succ_cons, List.cons_append, getLast?_cons_or]
          exact ih h
        · rw [List.cons_append, List.cons.injEq] at h
          obtain ⟨rfl, h⟩ := h
          rw [Piece.source, List.singleton_append, getLast?_cons_or]
          exact ih h

/-- A hit is a match. -/
theorem scan_hit {c : Char} {qs : List Piece} {s : List Char}
    (h : r.scan b 0 (c :: cs) = .hit s :: qs) :
    s ≠ [] ∧ r.Matches b s (qs.flatMap Piece.source).head? := by
  unfold scan at h
  split at h
  · rename_i n hlen
    rw [List.cons.injEq, Piece.hit.injEq] at h
    obtain ⟨rfl, rfl⟩ := h
    obtain ⟨m, post, hcs, hlength, hm⟩ := matchLength_some hlen
    rw [Nat.succ_eq_add_one] at hlength
    have htake : (c :: cs).take (n + 1) = m := by rw [hcs, ← hlength, List.take_left]
    have hdrop : cs.drop n = post := by
      rw [← List.drop_succ_cons, hcs, ← hlength, List.drop_left]
    rw [htake, scan_source, hdrop]
    refine ⟨?_, hm⟩
    rintro rfl
    cases hlength
  · cases h

/-- No match begins at a character that is kept. -/
theorem scan_kept (hsolid : r.Solid) {c d : Char} {qs : List Piece}
    (h : r.scan b 0 (c :: cs) = .kept d :: qs) (hm : d :: qs.flatMap Piece.source = m ++ post) :
    ¬ r.Matches b m post.head? := by
  unfold scan at h
  split at h
  · cases h
  · rename_i hnone
    rw [List.cons.injEq, Piece.kept.injEq] at h
    obtain ⟨rfl, rfl⟩ := h
    rw [scan_source, List.drop_zero] at hm
    intro hmatch
    obtain ⟨n, hn⟩ := matchLength_of_match hsolid hmatch
    rw [← hm] at hn
    exact hnone n hn

theorem pieces_hit {ps qs : List Piece} {s : List Char} (h : r.pieces cs = ps ++ .hit s :: qs) :
    s ≠ [] ∧ r.Matches (ps.flatMap Piece.source).getLast? s (qs.flatMap Piece.source).head? := by
  obtain ⟨c, rest, hscan⟩ := scan_split h
  simpa using scan_hit hscan

/-- A match whose characters are all kept is none. -/
theorem pieces_kept (hsolid : r.Solid) {ps qs : List Piece}
    (h : r.pieces cs = ps ++ m.map Piece.kept ++ qs) :
    ¬ r.Matches (ps.flatMap Piece.source).getLast? m (qs.flatMap Piece.source).head? := by
  intro hmatch
  obtain ⟨c, m, rfl⟩ := List.exists_cons_of_ne_nil (hsolid _ _ _ hmatch)
  have hcut : r.scan none 0 cs = ps ++ .kept c :: (m.map Piece.kept ++ qs) := by
    simpa [pieces] using h
  have hsource : c :: (m.map Piece.kept ++ qs).flatMap Piece.source =
      (c :: m) ++ qs.flatMap Piece.source := by simp
  obtain ⟨d, rest, hscan⟩ := scan_split hcut
  refine scan_kept hsolid hscan hsource ?_
  simpa using hmatch

/-- The expression matches a part of the text. -/
def Occurs (r : Regex) (cs : List Char) : Prop :=
  ∃ pre m post, cs = pre ++ m ++ post ∧ r.Matches pre.getLast? m post.head?

/-- `regex.search`, from a place on. -/
def searchFrom (r : Regex) : Option Char → List Char → Bool
  | before, [] => !(r.ends ⟨before, []⟩).isEmpty
  | before, c :: cs => !(r.ends ⟨before, c :: cs⟩).isEmpty || r.searchFrom (some c) cs

/-- `regex.search(text)`. -/
def search (r : Regex) (cs : List Char) : Bool := r.searchFrom none cs

theorem ends_ne_iff : (!(r.ends ⟨b, cs⟩).isEmpty) = true ↔
    ∃ m post, cs = m ++ post ∧ r.Matches b m post.head? := by
  rw [Bool.not_eq_true', List.isEmpty_eq_false_iff_exists_mem]
  constructor
  · rintro ⟨e, he⟩
    obtain ⟨m, hcs, _, hm⟩ := r.mem_ends.mp he
    exact ⟨m, e.rest, hcs, hm⟩
  · rintro ⟨m, post, hcs, hm⟩
    exact ⟨⟨m.getLast?.or b, post⟩, r.mem_ends.mpr ⟨m, hcs, rfl, hm⟩⟩

theorem searchFrom_iff : r.searchFrom b cs = true ↔
    ∃ pre m post, cs = pre ++ m ++ post ∧ r.Matches (pre.getLast?.or b) m post.head? := by
  induction cs generalizing b with
  | nil =>
    rw [searchFrom, ends_ne_iff]
    constructor
    · rintro ⟨m, post, hcs, hm⟩
      exact ⟨[], m, post, hcs, hm⟩
    · rintro ⟨pre, m, post, hcs, hm⟩
      obtain ⟨rfl, -⟩ := List.append_eq_nil_iff.mp (List.append_eq_nil_iff.mp hcs.symm).1
      exact ⟨m, post, hcs, hm⟩
  | cons c cs ih =>
    rw [searchFrom, Bool.or_eq_true, ends_ne_iff, ih]
    constructor
    · rintro (⟨m, post, hcs, hm⟩ | ⟨pre, m, post, rfl, hm⟩)
      · exact ⟨[], m, post, hcs, hm⟩
      · exact ⟨c :: pre, m, post, rfl, by rwa [getLast?_cons_or]⟩
    · rintro ⟨pre, m, post, hcs, hm⟩
      cases pre with
      | nil => exact .inl ⟨m, post, hcs, hm⟩
      | cons d pre =>
        simp only [List.cons_append, List.cons.injEq] at hcs
        obtain ⟨rfl, rfl⟩ := hcs
        exact .inr ⟨pre, m, post, rfl, by rwa [getLast?_cons_or] at hm⟩

theorem search_iff : r.search cs = true ↔ r.Occurs cs := by
  unfold search Occurs
  rw [searchFrom_iff]
  simp only [Option.or_none]

end Regex

theorem Piece.kept_of_no_hit {ps : List Piece} (h : ∀ p ∈ ps, p.isHit = false) :
    ps = (ps.flatMap Piece.source).map Piece.kept := by
  induction ps with
  | nil => rfl
  | cons p ps ih =>
    cases p with
    | kept c =>
      have hps := ih fun q hq => h q (List.mem_cons_of_mem _ hq)
      rw [List.flatMap_cons, Piece.source, List.singleton_append, List.map_cons, ← hps]
    | hit s => exact absurd (h (.hit s) List.mem_cons_self) (by simp [Piece.isHit])

/-- A substitution makes replacements exactly where its expression occurs. -/
theorem Rewrite.subn_pos_iff {w : Rewrite} (hsolid : w.regex.Solid) {cs : List Char} :
    0 < (w.subn cs).2 ↔ w.regex.Occurs cs := by
  rw [subn, List.countP_pos_iff]
  constructor
  · rintro ⟨p, hp, hhit⟩
    cases p with
    | kept c => cases hhit
    | hit s =>
      obtain ⟨ps, qs, hps⟩ := List.append_of_mem hp
      refine ⟨ps.flatMap Piece.source, s, qs.flatMap Piece.source, ?_, (Regex.pieces_hit hps).2⟩
      rw [← w.regex.pieces_source cs, hps]
      simp [Piece.source]
  · rintro ⟨pre, m, post, hcs, hm⟩
    by_contra hno
    have hkept : w.regex.pieces cs = cs.map Piece.kept := by
      have hall : ∀ p ∈ w.regex.pieces cs, p.isHit = false := fun p hp => by
        by_contra hhit
        exact hno ⟨p, hp, by simpa using hhit⟩
      have hmap := Piece.kept_of_no_hit hall
      rwa [w.regex.pieces_source] at hmap
    rw [hcs, List.map_append, List.map_append] at hkept
    refine Regex.pieces_kept hsolid hkept ?_
    simpa using hm

/-! ## What is next to a match -/

namespace Regex

/-- A match begins no later than at the edge of its word, and what comes before it does not matter
beyond that. -/
structure HeadEdge (word : Char → Bool) (r : Regex) : Prop where
  solid : r.Solid
  edge : ∀ b m a, r.Matches b m a → ∀ c ∈ m.head?, word c = true → b.any word = false
  move : ∀ b m a b', r.Matches b m a → (∀ c ∈ m.head?, word c = true → b'.any word = false) →
    (b = none → b' = none) → r.Matches b' m a

/-- The same for the end of a match. -/
structure TailEdge (word : Char → Bool) (r : Regex) : Prop where
  solid : r.Solid
  edge : ∀ b m a, r.Matches b m a → ∀ c ∈ m.getLast?, word c = true → a.any word = false
  move : ∀ b m a a', r.Matches b m a → (∀ c ∈ m.getLast?, word c = true → a'.any word = false) →
    r.Matches b m a'

structure Edged (word : Char → Bool) (r : Regex) : Prop where
  head : HeadEdge word r
  tail : TailEdge word r

end Regex

/-- A text that neither begins nor ends with a character of a word. -/
structure Mute (word : Char → Bool) (cs : List Char) : Prop where
  ne_nil : cs ≠ []
  head : ∀ c ∈ cs.head?, word c = false
  last : ∀ c ∈ cs.getLast?, word c = false

/-- A substitution of an edged expression by a mute text. -/
structure Rewrite.Guarded (word : Char → Bool) (w : Rewrite) : Prop where
  regex : w.regex.Edged word
  replacement : Mute word w.replacement

theorem any_eq_false_iff {p : Char → Bool} {o : Option Char} :
    o.any p = false ↔ ∀ c ∈ o, p c = false := by
  cases o <;> simp

theorem getLast?_append_ne {l s : List Char} (h : s ≠ []) : (l ++ s).getLast? = s.getLast? := by
  rw [List.getLast?_append, List.getLast?_eq_some_getLast h]
  rfl

theorem head?_append_ne {l s : List Char} (h : s ≠ []) : (s ++ l).head? = s.head? := by
  obtain ⟨c, s, rfl⟩ := List.exists_cons_of_ne_nil h
  rfl

section Spares

variable {word : Char → Bool} {w : Rewrite} {m pre post pre' post' : List Char}

/-- What comes before a passage that is spared: the same character, or a match and its replacement. -/
theorem Rewrite.Spares.head (hw : w.Guarded word) (hs : w.Spares m pre post pre' post') (hne : m ≠ []) :
    (pre = [] ↔ pre' = []) ∧
      ((∀ c ∈ m.head?, word c = true → pre.getLast?.any word = false) ↔
        ∀ c ∈ m.head?, word c = true → pre'.getLast?.any word = false) := by
  obtain ⟨ps, qs, hps, hpre, _, hpre', _⟩ := hs
  rcases List.eq_nil_or_concat ps with rfl | ⟨ps, p, rfl⟩
  · rw [← hpre, ← hpre']
    exact ⟨Iff.rfl, Iff.rfl⟩
  · cases p with
    | kept d =>
      rw [← hpre, ← hpre']
      simp [Piece.source, Piece.put]
    | hit s =>
      have hcut : w.regex.pieces (pre ++ m ++ post) = ps ++ .hit s :: (m.map Piece.kept ++ qs) := by
        rw [hps]
        simp
      obtain ⟨hsne, hmatch⟩ := Regex.pieces_hit hcut
      rw [List.flatMap_append, Piece.source_kept, head?_append_ne hne] at hmatch
      have hpre : pre = ps.flatMap Piece.source ++ s := by
        rw [← hpre]
        simp [Piece.source]
      have hpre' : pre' = w.output ps ++ w.replacement := by
        rw [← hpre']
        simp [Piece.put]
      refine ⟨iff_of_false ?_ ?_, iff_of_true (fun c hc hword => ?_) fun c _ _ => ?_⟩
      · rw [hpre]
        exact List.append_ne_nil_of_right_ne_nil _ hsne
      · rw [hpre']
        exact List.append_ne_nil_of_right_ne_nil _ hw.replacement.ne_nil
      · rw [hpre, getLast?_append_ne hsne, any_eq_false_iff]
        intro d hd
        by_contra htrue
        have hedge := hw.regex.tail.edge _ _ _ hmatch d hd (by simpa using htrue)
        rw [any_eq_false_iff.mp hedge c hc] at hword
        cases hword
      · rw [hpre', getLast?_append_ne hw.replacement.ne_nil, any_eq_false_iff]
        exact hw.replacement.last

/-- What comes after it. -/
theorem Rewrite.Spares.tail (hw : w.Guarded word) (hs : w.Spares m pre post pre' post') (hne : m ≠ []) :
    (∀ c ∈ m.getLast?, word c = true → post.head?.any word = false) ↔
      ∀ c ∈ m.getLast?, word c = true → post'.head?.any word = false := by
  obtain ⟨ps, qs, hps, _, hpost, _, hpost'⟩ := hs
  cases qs with
  | nil =>
    rw [← hpost, ← hpost']
    exact Iff.rfl
  | cons p qs =>
    cases p with
    | kept d =>
      rw [← hpost, ← hpost']
      simp [Piece.source, Piece.put]
    | hit s =>
      obtain ⟨hsne, hmatch⟩ := Regex.pieces_hit hps
      rw [List.flatMap_append, Piece.source_kept, getLast?_append_ne hne] at hmatch
      have hpost : post = s ++ qs.flatMap Piece.source := by
        rw [← hpost]
        rfl
      have hpost' : post' = w.replacement ++ w.output qs := by
        rw [← hpost']
        rfl
      refine iff_of_true (fun c hc hword => ?_) fun c _ _ => ?_
      · rw [hpost, head?_append_ne hsne, any_eq_false_iff]
        intro d hd
        by_contra htrue
        have hedge := hw.regex.head.edge _ _ _ hmatch d hd (by simpa using htrue)
        rw [any_eq_false_iff.mp hedge c hc] at hword
        cases hword
      · rw [hpost', head?_append_ne hw.replacement.ne_nil, any_eq_false_iff]
        exact hw.replacement.head

/-- A spared passage is a match after the substitution exactly if it was one before. -/
theorem Rewrite.Spares.matches_iff {r : Regex} (hr : r.Edged word) (hw : w.Guarded word)
    (hs : w.Spares m pre post pre' post') :
    r.Matches pre.getLast? m post.head? ↔ r.Matches pre'.getLast? m post'.head? := by
  constructor
  · intro h
    have hne := hr.head.solid _ _ _ h
    obtain ⟨hnil, hhead⟩ := hs.head hw hne
    have hmoved : r.Matches pre'.getLast? m post.head? :=
      hr.head.move _ _ _ _ h (hhead.mp (hr.head.edge _ _ _ h)) fun hnone => by
        rw [List.getLast?_eq_none_iff] at hnone ⊢
        exact hnil.mp hnone
    exact hr.tail.move _ _ _ _ hmoved ((hs.tail hw hne).mp (hr.tail.edge _ _ _ h))
  · intro h
    have hne := hr.head.solid _ _ _ h
    obtain ⟨hnil, hhead⟩ := hs.head hw hne
    have hmoved : r.Matches pre.getLast? m post'.head? :=
      hr.head.move _ _ _ _ h (hhead.mpr (hr.head.edge _ _ _ h)) fun hnone => by
        rw [List.getLast?_eq_none_iff] at hnone ⊢
        exact hnil.mpr hnone
    exact hr.tail.move _ _ _ _ hmoved ((hs.tail hw hne).mpr (hr.tail.edge _ _ _ h))

/-- A match of the substitution's own expression is not spared. -/
theorem Rewrite.Spares.not_match (hsolid : w.regex.Solid) (hs : w.Spares m pre post pre' post') :
    ¬ w.regex.Matches pre.getLast? m post.head? := by
  obtain ⟨ps, qs, hps, rfl, rfl, _, _⟩ := hs
  exact Regex.pieces_kept hsolid hps

end Spares

/-! ## A chain of substitutions -/

/-- No substitution of the chain meets the passage `m` between `pre` and `post`, and the chain leaves it
between `pre'` and `post'`. -/
inductive Carried (m : List Char) :
    List Rewrite → List Char → List Char → List Char → List Char → Prop where
  | nil (pre post : List Char) : Carried m [] pre post pre post
  | cons {w : Rewrite} {ws : List Rewrite} {pre post pre₁ post₁ pre' post' : List Char}
    (spares : w.Spares m pre post pre₁ post₁) (rest : Carried m ws pre₁ post₁ pre' post') :
    Carried m (w :: ws) pre post pre' post'

section Carried

variable {word : Char → Bool} {ws : List Rewrite} {m pre post pre' post' cs : List Char}

theorem Carried.rewriteAll (h : Carried m ws pre post pre' post') :
    rewriteAll ws (pre ++ m ++ post) = pre' ++ m ++ post' := by
  induction h with
  | nil => rfl
  | cons spares _ ih =>
    rw [← ih, ← Rewrite.subn_spared spares]
    rfl

theorem spared_iff_carried : Spared m ws pre post ↔ ∃ pre' post', Carried m ws pre post pre' post' := by
  constructor
  · intro h
    induction h with
    | nil pre post => exact ⟨pre, post, .nil pre post⟩
    | cons spares _ ih =>
      obtain ⟨pre', post', hrest⟩ := ih
      exact ⟨pre', post', .cons spares hrest⟩
  · rintro ⟨pre', post', h⟩
    induction h with
    | nil pre post => exact .nil pre post
    | cons spares _ ih => exact .cons spares ih

theorem Carried.matches_iff {r : Regex} (hr : r.Edged word) (hws : ∀ w ∈ ws, w.Guarded word)
    (h : Carried m ws pre post pre' post') :
    r.Matches pre.getLast? m post.head? ↔ r.Matches pre'.getLast? m post'.head? := by
  induction h with
  | nil => exact Iff.rfl
  | cons spares _ ih =>
    exact (spares.matches_iff hr (hws _ List.mem_cons_self)).trans
      (ih fun w hw => hws w (List.mem_cons_of_mem _ hw))

/-- No match of an expression of the chain is carried through the chain. -/
theorem Carried.not_match (hws : ∀ w ∈ ws, w.Guarded word) (h : Carried m ws pre post pre' post')
    {w : Rewrite} (hw : w ∈ ws) : ¬ w.regex.Matches pre.getLast? m post.head? := by
  induction h with
  | nil => cases hw
  | cons spares _ ih =>
    rename_i w' ws _ _ _ _ _ _ _
    rcases List.mem_cons.mp hw with rfl | hw
    · exact spares.not_match (hws w List.mem_cons_self).regex.head.solid
    · intro hmatch
      have hrest := ih (fun v hv => hws v (List.mem_cons_of_mem _ hv)) hw
      exact hrest ((spares.matches_iff (hws w (List.mem_cons_of_mem _ hw)).regex
        (hws w' List.mem_cons_self)).mp hmatch)

/-- The passage `m` of the result, between `pre'` and `post'`, is one of the text that no substitution
of the chain met. -/
def Original (ws : List Rewrite) (cs m pre' post' : List Char) : Prop :=
  ∃ pre post, cs = pre ++ m ++ post ∧ Carried m ws pre post pre' post'

/-- A match in the text is spared by the chain. -/
def Escapes (ws : List Rewrite) (r : Regex) (cs : List Char) : Prop :=
  ∃ pre m post, cs = pre ++ m ++ post ∧ r.Matches pre.getLast? m post.head? ∧ Spared m ws pre post

/-- Where all matches in the result are passages of the text, an expression occurs in the result exactly
if a match of it in the text escapes the chain. -/
theorem occurs_iff_escapes {r : Regex} (hr : r.Edged word) (hws : ∀ w ∈ ws, w.Guarded word)
    (horig : ∀ pre m post, rewriteAll ws cs = pre ++ m ++ post →
      r.Matches pre.getLast? m post.head? → Original ws cs m pre post) :
    r.Occurs (rewriteAll ws cs) ↔ Escapes ws r cs := by
  constructor
  · rintro ⟨pre', m, post', hcs, hm⟩
    obtain ⟨pre, post, htext, hcarried⟩ := horig pre' m post' hcs hm
    exact ⟨pre, m, post, htext, (hcarried.matches_iff hr hws).mpr hm,
      spared_iff_carried.mpr ⟨pre', post', hcarried⟩⟩
  · rintro ⟨pre, m, post, rfl, hm, hspared⟩
    obtain ⟨pre', post', hcarried⟩ := spared_iff_carried.mp hspared
    exact ⟨pre', m, post', hcarried.rewriteAll, (hcarried.matches_iff hr hws).mp hm⟩

/-- A chain whose expressions do not occur leaves the text as it is. -/
theorem rewriteAll_of_none (hsolid : ∀ w ∈ ws, w.regex.Solid) (h : ∀ w ∈ ws, ¬ w.regex.Occurs cs) :
    rewriteAll ws cs = cs := by
  induction ws with
  | nil => rfl
  | cons w ws ih =>
    have hzero : (w.subn cs).2 = 0 := Nat.eq_zero_of_not_pos fun hpos =>
      h w List.mem_cons_self ((Rewrite.subn_pos_iff (hsolid w List.mem_cons_self)).mp hpos)
    change rewriteAll ws (w.subn cs).1 = cs
    rw [Rewrite.subn_no_hit hzero]
    exact ih (fun v hv => hsolid v (List.mem_cons_of_mem _ hv))
      fun v hv => h v (List.mem_cons_of_mem _ hv)

theorem rewriteAll_nil : rewriteAll ws [] = [] := by
  induction ws with
  | nil => rfl
  | cons w ws ih => exact ih

end Carried

end Lib
