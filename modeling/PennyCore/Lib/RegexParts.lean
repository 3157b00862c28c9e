import PennyCore.Lib.RegexEdges

/-!
# Where the words of a rewritten text come from

* `Regex.mayBeEmpty`, `avoids`, `headAvoids`, `lastAvoids`: tests for what no match of an expression
  is, has, begins with or ends with.
* `original_of_onlyKeeps`: what every substitution of a chain only keeps is a passage of the text.
* `Planted`: a passage of the result that a replacement of the chain brought. An `Unbroken` word of
  the result is a passage of the text or planted (`original_or_planted`).
* `Pins`: a description of all matches of an expression in a text. Expressions with a gap between them
  are described part by part (`Pins.apart`), each by where its match comes from (`Pins.own`,
  `Pins.placed`).
-/

namespace Lib
namespace Regex

variable {r s : Regex} {b a : Option Char} {c : Char} {m t : List Char}

/-! ## What no match has -/

def mayBeEmpty : Regex → Bool
  | .empty => true
  | .char _ => false
  | .seq r s => r.mayBeEmpty && s.mayBeEmpty
  | .alt r s => r.mayBeEmpty || s.mayBeEmpty
  | .opt _ => true
  | .many _ min _ => min == 0
  | .boundary _ => true
  | .start => true

/-- No match has the character `c`. -/
def avoids (c : Char) : Regex → Bool
  | .empty => true
  | .char p => !p c
  | .seq r s => r.avoids c && s.avoids c
  | .alt r s => r.avoids c && s.avoids c
  | .opt r => r.avoids c
  | .many p _ _ => !p c
  | .boundary _ => true
  | .start => true

/-- No match begins with `c`. -/
def headAvoids (c : Char) : Regex → Bool
  | .empty => true
  | .char p => !p c
  | .seq r s => r.headAvoids c && (!r.mayBeEmpty || s.headAvoids c)
  | .alt r s => r.headAvoids c && s.headAvoids c
  | .opt r => r.headAvoids c
  | .many p _ _ => !p c
  | .boundary _ => true
  | .start => true

/-- No match ends with `c`. -/
def lastAvoids (c : Char) : Regex → Bool
  | .empty => true
  | .char p => !p c
  | .seq r s => s.lastAvoids c && (!s.mayBeEmpty || r.lastAvoids c)
  | .alt r s => r.lastAvoids c && s.lastAvoids c
  | .opt r => r.lastAvoids c
  | .many p _ _ => !p c
  | .boundary _ => true
  | .start => true

theorem solid_of_mayBeEmpty (h : r.mayBeEmpty = false) : r.Solid := by
  induction r with
  | empty => cases h
  | char p =>
    rintro b m a ⟨c, rfl, _⟩ hnil
    cases hnil
  | seq r s ihr ihs =>
    rintro b m a ⟨m₁, m₂, rfl, hr, hs⟩ hnil
    obtain ⟨rfl, rfl⟩ := List.append_eq_nil_iff.mp hnil
    rcases Bool.and_eq_false_iff.mp h with h | h
    · exact ihr h _ _ _ hr rfl
    · exact ihs h _ _ _ hs rfl
  | alt r s ihr ihs =>
    obtain ⟨hr, hs⟩ := Bool.or_eq_false_iff.mp h
    rintro b m a (hm | hm)
    · exact ihr hr _ _ _ hm
    · exact ihs hs _ _ _ hm
  | opt r => cases h
  | many p min max =>
    rintro b m a ⟨_, hmin, _⟩ rfl
    simp [mayBeEmpty] at h
    simp at hmin
    exact h hmin
  | boundary word => cases h
  | start => cases h

theorem Matches.not_mem (hm : r.Matches b m a) (h : r.avoids c = true) : c ∉ m := by
  induction r generalizing b m a with
  | empty =>
    cases hm
    exact List.not_mem_nil
  | char p =>
    obtain ⟨d, rfl, hd⟩ := hm
    rintro hc
    cases List.mem_singleton.mp hc
    simp [avoids, hd] at h
  | seq r s ihr ihs =>
    obtain ⟨hr, hs⟩ := Bool.and_eq_true_iff.mp h
    obtain ⟨m₁, m₂, rfl, hm₁, hm₂⟩ := hm
    rw [List.mem_append, not_or]
    exact ⟨ihr hm₁ hr, ihs hm₂ hs⟩
  | alt r s ihr ihs =>
    obtain ⟨hr, hs⟩ := Bool.and_eq_true_iff.mp h
    exact hm.elim (ihr · hr) (ihs · hs)
  | opt r ihr =>
    rcases hm with hm | rfl
    · exact ihr hm h
    · exact List.not_mem_nil
  | many p min max =>
    intro hc
    simp [avoids, hm.1 c hc] at h
  | boundary word =>
    rw [hm.1]
    exact List.not_mem_nil
  | start =>
    rw [hm.1]
    exact List.not_mem_nil

theorem Matches.head_ne (hm : r.Matches b m a) (h : r.headAvoids c = true) : m.head? ≠ some c := by
  induction r generalizing b m a with
  | empty =>
    cases hm
    simp
  | char p =>
    obtain ⟨d, rfl, hd⟩ := hm
    rintro ⟨⟩
    simp [headAvoids, hd] at h
  | seq r s ihr ihs =>
    obtain ⟨hr, hs⟩ := Bool.and_eq_true_iff.mp h
    obtain ⟨m₁, m₂, rfl, hm₁, hm₂⟩ := hm
    by_cases hnil : m₁ = []
    · subst hnil
      have hempty : r.mayBeEmpty = true := by
        by_contra hno
        exact solid_of_mayBeEmpty (Bool.not_eq_true _ ▸ hno) _ _ _ hm₁ rfl
      rw [hempty] at hs
      exact ihs hm₂ hs
    · rw [head?_append_ne hnil]
      exact ihr hm₁ hr
  | alt r s ihr ihs =>
    obtain ⟨hr, hs⟩ := Bool.and_eq_true_iff.mp h
    exact hm.elim (ihr · hr) (ihs · hs)
  | opt r ihr =>
    rcases hm with hm | rfl
    · exact ihr hm h
    · simp
  | many p min max =>
    intro hc
    simp [headAvoids, hm.1 c (List.mem_of_head? hc)] at h
  | boundary word =>
    rw [hm.1]
    simp
  | start =>
    rw [hm.1]
    simp

theorem Matches.last_ne (hm : r.Matches b m a) (h : r.lastAvoids c = true) :
    m.getLast? ≠ some c := by
  induction r generalizing b m a with
  | empty =>
    cases hm
    simp
  | char p =>
    obtain ⟨d, rfl, hd⟩ := hm
    rintro ⟨⟩
    simp [lastAvoids, hd] at h
  | seq r s ihr ihs =>
    obtain ⟨hs, hr⟩ := Bool.and_eq_true_iff.mp h
    obtain ⟨m₁, m₂, rfl, hm₁, hm₂⟩ := hm
    by_cases hnil : m₂ = []
    · subst hnil
      have hempty : s.mayBeEmpty = true := by
        by_contra hno
        exact solid_of_mayBeEmpty (Bool.not_eq_true _ ▸ hno) _ _ _ hm₂ rfl
      rw [hempty] at hr
      rw [List.append_nil]
      exact ihr hm₁ hr
    · rw [getLast?_append_ne hnil]
      exact ihs hm₂ hs
  | alt r s ihr ihs =>
    obtain ⟨hr, hs⟩ := Bool.and_eq_true_iff.mp h
    exact hm.elim (ihr · hr) (ihs · hs)
  | opt r ihr =>
    rcases hm with hm | rfl
    · exact ihr hm h
    · simp
  | many p min max =>
    intro hc
    simp [lastAvoids, hm.1 c (List.mem_of_getLast? hc)] at h
  | boundary word =>
    rw [hm.1]
    simp
  | start =>
    rw [hm.1]
    simp

/-- A match is in no text that the expression does not match. -/
theorem Matches.not_infix (hm : r.Matches b m a) (hp : r.plain = true) (hs : r.search t = false) :
    ¬ m <:+: t := by
  rintro ⟨pre, post, rfl⟩
  have hocc : r.Occurs (pre ++ m ++ post) := ⟨pre, m, post, rfl, hm.of_plain hp _ _⟩
  rw [search_iff.mpr hocc] at hs
  cases hs

/-- A match of one of several expressions is a match of one of them. -/
theorem Matches.of_oneOf {rs : List Regex} (h : (oneOf rs).Matches b m a) :
    ∃ r ∈ rs, r.Matches b m a := by
  induction rs with
  | nil =>
    obtain ⟨_, _, hc⟩ := h
    cases hc
  | cons r rs ih =>
    cases rs with
    | nil => exact ⟨r, List.mem_cons_self, h⟩
    | cons s rs =>
      rcases h with h | h
      · exact ⟨r, List.mem_cons_self, h⟩
      · obtain ⟨t, ht, hm⟩ := ih h
        exact ⟨t, List.mem_cons_of_mem _ ht, hm⟩

end Regex

/-! ## Where a passage of the result comes from -/

/-- The passage `m` of the result, between `pre'` and `post'`, is inside a replacement that one of the
substitutions made, and the later ones left it alone. -/
def Planted (ws : List Rewrite) (cs m pre' post' : List Char) : Prop :=
  ∃ ws₁ w ws₂ ps s qs r₁ r₂, ws = ws₁ ++ w :: ws₂ ∧
    w.regex.pieces (rewriteAll ws₁ cs) = ps ++ .hit s :: qs ∧ w.replacement = r₁ ++ m ++ r₂ ∧
    Carried m ws₂ (w.output ps ++ r₁) (r₂ ++ w.output qs) pre' post'

section Sources

variable {ws : List Rewrite} {cs m o g k pre post : List Char}

theorem rewriteAll_append (ws₁ ws₂ : List Rewrite) (cs : List Char) :
    rewriteAll (ws₁ ++ ws₂) cs = rewriteAll ws₂ (rewriteAll ws₁ cs) := List.foldl_append

theorem Original.in_result (h : Original ws cs m pre post) : rewriteAll ws cs = pre ++ m ++ post := by
  obtain ⟨_, _, rfl, hcarried⟩ := h
  exact hcarried.rewriteAll

theorem Planted.in_result (h : Planted ws cs m pre post) : rewriteAll ws cs = pre ++ m ++ post := by
  obtain ⟨ws₁, w, ws₂, ps, s, qs, r₁, r₂, rfl, hps, hrep, hcarried⟩ := h
  have hsub : (w.subn (rewriteAll ws₁ cs)).1 =
      w.output ps ++ r₁ ++ m ++ (r₂ ++ w.output qs) := by
    rw [Rewrite.subn, hps, Rewrite.output_append, Rewrite.output_cons, Piece.put, hrep]
    simp
  rw [rewriteAll_append, ← hcarried.rewriteAll, ← hsub]
  rfl

/-- What every substitution only keeps is a passage of the text. -/
theorem original_of_onlyKeeps (h : ∀ w ∈ ws, w.OnlyKeeps m)
    (hcs : rewriteAll ws cs = pre ++ m ++ post) : Original ws cs m pre post := by
  induction ws generalizing cs with
  | nil => exact ⟨pre, post, hcs, .nil pre post⟩
  | cons w ws ih =>
    obtain ⟨pre₁, post₁, hsub, hcarried⟩ := ih (fun v hv => h v (List.mem_cons_of_mem _ hv)) hcs
    obtain ⟨pre₀, post₀, rfl, hspares⟩ := Rewrite.spared_of_subn (h w List.mem_cons_self) hsub
    exact ⟨pre₀, post₀, rfl, .cons hspares hcarried⟩

/-- What the result begins with, and what runs into no replacement, is the beginning of the text. -/
theorem original_of_clear (h : ∀ w ∈ ws, ClearOf m w.replacement)
    (hcs : rewriteAll ws cs = m ++ post) : Original ws cs m [] post := by
  suffices hfront : ∃ post₀, cs = m ++ post₀ ∧ Carried m ws [] post₀ [] post by
    obtain ⟨post₀, rfl, hcarried⟩ := hfront
    exact ⟨[], post₀, rfl, hcarried⟩
  induction ws generalizing cs with
  | nil => exact ⟨post, hcs, .nil [] post⟩
  | cons w ws ih =>
    obtain ⟨post₁, hsub, hcarried⟩ := ih (fun v hv => h v (List.mem_cons_of_mem _ hv)) hcs
    obtain ⟨qs, hps, hpost⟩ := Rewrite.kept_of_prefix (h w List.mem_cons_self) hsub
    have htext : cs = m ++ qs.flatMap Piece.source := by
      rw [← w.regex.pieces_source cs, hps]
      simp
    refine ⟨_, htext, .cons ⟨[], qs, ?_, rfl, rfl, rfl, hpost⟩ hcarried⟩
    rw [List.nil_append, ← htext, hps, List.nil_append]

/-- An unbroken word of the result is a passage of the text or planted. -/
theorem original_or_planted (h : ∀ w ∈ ws, Unbroken m w.replacement)
    (hcs : rewriteAll ws cs = pre ++ m ++ post) :
    Original ws cs m pre post ∨ Planted ws cs m pre post := by
  induction ws generalizing cs with
  | nil => exact .inl ⟨pre, post, hcs, .nil pre post⟩
  | cons w ws ih =>
    rcases ih (fun v hv => h v (List.mem_cons_of_mem _ hv)) hcs with
      ⟨pre₁, post₁, hsub, hcarried⟩ | ⟨ws₁, v, ws₂, ps, s, qs, r₁, r₂, rfl, hps, hrest⟩
    · rcases Rewrite.output_cases (h w List.mem_cons_self) hsub with
        ⟨ps, qs, hps, rfl, rfl⟩ | ⟨ps, s, qs, r₁, r₂, hps, hrep, rfl, rfl⟩
      · have htext : cs = ps.flatMap Piece.source ++ m ++ qs.flatMap Piece.source := by
          rw [← w.regex.pieces_source cs, hps]
          simp
        refine .inl ⟨_, _, htext, .cons ⟨ps, qs, ?_, rfl, rfl, rfl, rfl⟩ hcarried⟩
        rw [← htext, hps]
      · exact .inr ⟨[], w, ws, ps, s, qs, r₁, r₂, rfl, hps, hrep, hcarried⟩
    · exact .inr ⟨w :: ws₁, v, ws₂, ps, s, qs, r₁, r₂, rfl, hps, hrest⟩

/-- In an output that is shorter than the replacement there is no replacement. -/
theorem Rewrite.kept_of_short {w : Rewrite} {ps : List Piece}
    (h : (w.output ps).length < w.replacement.length) : ps = (w.output ps).map Piece.kept := by
  induction ps with
  | nil => rfl
  | cons p ps ih =>
    rw [output_cons, List.length_append] at h
    cases p with
    | kept c => rw [output_cons, Piece.put, List.singleton_append, List.map_cons, ← ih (by omega)]
    | hit s =>
      rw [Piece.put] at h
      omega

/-- Two texts that are only kept, with less between them than a replacement. -/
theorem Rewrite.OnlyKeeps.gap {w : Rewrite} (ho : w.OnlyKeeps o) (hk : w.OnlyKeeps k)
    (hg : g.length < w.replacement.length) : w.OnlyKeeps (o ++ g ++ k) := by
  intro ps pre post h
  obtain ⟨ps₁, ps₂, rfl, rfl, hrest⟩ := ho ps pre (g ++ k ++ post) (by simpa using h)
  obtain ⟨ps₃, ps₄, rfl, rfl, rfl⟩ := hk ps₂ g post hrest
  refine ⟨ps₁, ps₄, ?_, rfl, rfl⟩
  rw [List.map_append, List.map_append, ← kept_of_short hg]
  simp

end Sources

/-! ## The matches in a text, part by part -/

/-- A description of a passage between what comes before it and what comes after it. -/
abbrev Passage := List Char → List Char → List Char → Prop

def Regex.At (r : Regex) : Passage := fun pre m post => r.Matches pre.getLast? m post.head?

/-- The description holds of the matches of the expression in the text, and of nothing else. -/
def Pins (text : List Char) (r : Regex) (P : Passage) : Prop :=
  ∀ pre m post, (text = pre ++ m ++ post ∧ r.At pre m post) ↔ P pre m post

/-- Two passages with at most `n` characters of the class between them. -/
def Apart (p : Char → Bool) (n : Nat) (A B : Passage) : Passage := fun pre m post =>
  ∃ o g k, m = o ++ g ++ k ∧ A pre o (g ++ k ++ post) ∧ (∀ c ∈ g, p c = true) ∧ g.length ≤ n ∧
    B (pre ++ o ++ g) k post

/-- A match of the expression in the text that the chain of substitutions leaves alone, and where it
is in the result. -/
def Own (ws : List Rewrite) (cs : List Char) (r : Regex) : Passage := fun pre' m post' =>
  ∃ pre post, cs = pre ++ m ++ post ∧ r.At pre m post ∧ Carried m ws pre post pre' post'

/-- Such a match, or one that is a passage of a replacement. -/
def Placed (ws : List Rewrite) (cs : List Char) (r : Regex) : Passage := fun pre' m post' =>
  Own ws cs r pre' m post' ∨ (r.At pre' m post' ∧ Planted ws cs m pre' post')

/-- It makes no difference whether it is a match in the text or in the result. -/
theorem own_iff {word : Char → Bool} {ws : List Rewrite} {cs pre m post : List Char} {r : Regex}
    (hr : r.Edged word) (hws : ∀ w ∈ ws, w.Guarded word) :
    Own ws cs r pre m post ↔ r.At pre m post ∧ Original ws cs m pre post := by
  constructor
  · rintro ⟨pre₀, post₀, hcs, hm, hcarried⟩
    exact ⟨(hcarried.matches_iff hr hws).mp hm, pre₀, post₀, hcs, hcarried⟩
  · rintro ⟨hm, pre₀, post₀, hcs, hcarried⟩
    exact ⟨pre₀, post₀, hcs, (hcarried.matches_iff hr hws).mpr hm, hcarried⟩

namespace Pins

variable {word p : Char → Bool} {text cs : List Char} {ws : List Rewrite} {r s : Regex}
  {A B : Passage} {n : Nat}

theorem occurs (h : Pins text r A) : r.Occurs text ↔ ∃ pre m post, A pre m post :=
  exists_congr fun pre => exists_congr fun m => exists_congr fun post => h pre m post

theorem own (hr : r.Edged word) (hws : ∀ w ∈ ws, w.Guarded word)
    (h : ∀ b m a, r.Matches b m a → ∀ w ∈ ws, w.OnlyKeeps m) :
    Pins (rewriteAll ws cs) r (Own ws cs r) := fun _ _ _ =>
  ⟨fun ⟨hcs, hm⟩ => (own_iff hr hws).mpr ⟨hm, original_of_onlyKeeps (h _ _ _ hm) hcs⟩,
    fun hown => ((own_iff hr hws).mp hown).symm.imp_left (·.in_result)⟩

theorem placed (hr : r.Edged word) (hws : ∀ w ∈ ws, w.Guarded word)
    (h : ∀ b m a, r.Matches b m a → ∀ w ∈ ws, Unbroken m w.replacement) :
    Pins (rewriteAll ws cs) r (Placed ws cs r) := by
  refine fun pre m post => ⟨fun ⟨hcs, hm⟩ => ?_, ?_⟩
  · rcases original_or_planted (h _ _ _ hm) hcs with horig | hplanted
    · exact .inl ((own_iff hr hws).mpr ⟨hm, horig⟩)
    · exact .inr ⟨hm, hplanted⟩
  · rintro (hown | ⟨hm, hplanted⟩)
    · exact ((own_iff hr hws).mp hown).symm.imp_left (·.in_result)
    · exact ⟨hplanted.in_result, hm⟩

/-- The last part of a sequence. -/
theorem last (h : Pins text r A) : Pins text (.seq r .empty) A := by
  intro pre m post
  rw [← h pre m post]
  refine and_congr_right fun _ => ⟨?_, fun hm => ⟨m, [], (List.append_nil m).symm, hm, rfl⟩⟩
  rintro ⟨m₁, _, rfl, hm, rfl⟩
  rw [List.append_nil]
  exact hm

/-- One expression, a gap, and another one. -/
theorem apart (hr : Pins text r A) (hs : Pins text s B) :
    Pins text (.seq r (.seq (.many p 0 (some n)) s)) (Apart p n A B) := by
  intro pre m post
  constructor
  · rintro ⟨hcs, o, _, rfl, ho, g, k, rfl, ⟨hg, _, hn⟩, hk⟩
    refine ⟨o, g, k, (List.append_assoc o g k).symm, (hr _ _ _).mp ⟨?_, ?_⟩, hg, hn n rfl,
      (hs _ _ _).mp ⟨?_, ?_⟩⟩
    · simpa using hcs
    · rw [Regex.At, List.head?_append]
      exact ho
    · simpa using hcs
    · rw [Regex.At, List.getLast?_append, List.getLast?_append]
      exact hk
  · rintro ⟨o, g, k, rfl, ho, hg, hn, hk⟩
    obtain ⟨hcs, ho⟩ := (hr _ _ _).mpr ho
    obtain ⟨_, hk⟩ := (hs _ _ _).mpr hk
    refine ⟨by simpa using hcs, o, g ++ k, List.append_assoc o g k, ?_, g, k, rfl,
      ⟨hg, Nat.zero_le _, fun n' hn' => Option.some.inj hn' ▸ hn⟩, ?_⟩
    · rw [Regex.At, List.head?_append] at ho
      exact ho
    · rw [Regex.At, List.getLast?_append, List.getLast?_append] at hk
      exact hk

end Pins
end Lib
