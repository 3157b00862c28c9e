import PennyCore.Lib.Text

/-!
# Regular expressions and their substitution

The backtracking matcher of Python's `re`, for the operators used here, and `re.subn`.

* `Regex.ends` lists the ends of the matches at a `Cursor`, in the order in which backtracking finds
  them; a match is the first one.
* `scan` cuts a text into `Piece`s: the matches from the left, and each character between them.
  `sub` puts a replacement for every match. A match of the empty text counts as none.
* `Spared`: a copy of a word in the text that none of a chain of substitutions meets.
* `Rewrite.output_cases`: a copy of a word in the result of a substitution, to which the replacement
  is `Unbroken`, is text or lies inside a replacement.
* `word_in_rewriteAll`: a word is in the result of the chain exactly if a copy of it in the text is
  spared, provided that the replacements are `Foreign` to it.
-/

namespace Lib

/-! ## The matcher -/

/-- A place in a text: the character before it, and the text after it. -/
structure Cursor where
  before : Option Char
  rest : List Char

inductive Regex where
  /-- The empty text. -/
  | empty
  /-- A character of a class. -/
  | char (p : Char → Bool)
  | seq (r s : Regex)
  | alt (r s : Regex)
  /-- `r?`. -/
  | opt (r : Regex)
  /-- A class with `{min,max}`, or without an upper bound. -/
  | many (p : Char → Bool) (min : Nat) (max : Option Nat)
  /-- `\b`, for a class of word characters. -/
  | boundary (word : Char → Bool)
  /-- `^`. -/
  | start

/-- The cursors after `0, 1, ..., n` characters of the class. -/
def Cursor.upTo (p : Char → Bool) : Nat → Option Char → List Char → List Cursor
  | 0, before, cs => [⟨before, cs⟩]
  | _ + 1, before, [] => [⟨before, []⟩]
  | n + 1, before, c :: cs =>
    ⟨before, c :: cs⟩ :: if p c then Cursor.upTo p n (some c) cs else []

/-- Exactly one side of the cursor is a word character. -/
def Cursor.atBoundary (word : Char → Bool) (k : Cursor) : Bool :=
  k.before.any word != k.rest.head?.any word

def Regex.ends : Regex → Cursor → List Cursor
  | .empty, k => [k]
  | .char p, k =>
    match k.rest with
    | [] => []
    | c :: cs => if p c then [⟨some c, cs⟩] else []
  | .seq r s, k => (r.ends k).flatMap s.ends
  | .alt r s, k => r.ends k ++ s.ends k
  | .opt r, k => r.ends k ++ [k]
  | .many p min max, k =>
    ((Cursor.upTo p (max.getD k.rest.length) k.before k.rest).drop min).reverse
  | .boundary word, k => if k.atBoundary word then [k] else []
  | .start, k => if k.before.isNone then [k] else []

/-- One expression after the other. -/
def Regex.concat (rs : List Regex) : Regex := rs.foldr .seq .empty

/-- The first of the expressions that lets the rest match. -/
def Regex.oneOf : List Regex → Regex
  | [] => .char fun _ => false
  | [r] => r
  | r :: rs => .alt r (Regex.oneOf rs)

/-- The length of the match at the cursor. -/
def Regex.matchLength (r : Regex) (k : Cursor) : Option Nat :=
  (r.ends k).head?.map fun e => k.rest.length - e.rest.length

/-! ## Substitution -/

inductive Piece where
  | kept (c : Char)
  | hit (matched : List Char)

namespace Piece

def source : Piece → List Char
  | .kept c => [c]
  | .hit s => s

def put (replacement : List Char) : Piece → List Char
  | .kept c => [c]
  | .hit _ => replacement

def isHit : Piece → Bool
  | .kept _ => false
  | .hit _ => true

end Piece

/-- The pieces of a text; `skip` characters belong to the last match. -/
def Regex.scan (r : Regex) : Option Char → Nat → List Char → List Piece
  | _, _, [] => []
  | _, skip + 1, c :: cs => r.scan (some c) skip cs
  | before, 0, c :: cs =>
    match r.matchLength ⟨before, c :: cs⟩ with
    | some (n + 1) => .hit ((c :: cs).take (n + 1)) :: r.scan (some c) n cs
    | _ => .kept c :: r.scan (some c) 0 cs

/-- The pieces of a whole text. -/
def Regex.pieces (r : Regex) (cs : List Char) : List Piece := r.scan none 0 cs

theorem Regex.scan_source (r : Regex) (before : Option Char) (skip : Nat) (cs : List Char) :
    (r.scan before skip cs).flatMap Piece.source = cs.drop skip := by
  induction cs generalizing before skip with
  | nil => simp [scan]
  | cons c cs ih =>
    cases skip with
    | succ skip => rw [scan, ih, List.drop_succ_cons]
    | zero =>
      unfold scan
      split
      · rename_i n _
        rw [List.flatMap_cons, ih, Piece.source, List.take_succ_cons, List.cons_append,
          List.take_append_drop, List.drop_zero]
      · rw [List.flatMap_cons, ih, Piece.source, List.drop_zero, List.drop_zero,
          List.singleton_append]

/-- The pieces make up the text. -/
theorem Regex.pieces_source (r : Regex) (cs : List Char) :
    (r.pieces cs).flatMap Piece.source = cs := r.scan_source none 0 cs

/-- A substitution: an expression, and what replaces its matches. -/
structure Rewrite where
  regex : Regex
  replacement : List Char

namespace Rewrite

variable (w : Rewrite)

def output (ps : List Piece) : List Char := ps.flatMap (Piece.put w.replacement)

/-- `regex.subn(replacement, text)`. -/
def subn (cs : List Char) : List Char × Nat :=
  (w.output (w.regex.pieces cs), (w.regex.pieces cs).countP Piece.isHit)

/-- The substitution meets no character of the `word` after `pre`; around it, it makes `pre'` of
`pre` and `post'` of `post`. -/
def Spares (word pre post pre' post' : List Char) : Prop :=
  ∃ ps qs, w.regex.pieces (pre ++ word ++ post) = ps ++ word.map Piece.kept ++ qs ∧
    ps.flatMap Piece.source = pre ∧ qs.flatMap Piece.source = post ∧
    w.output ps = pre' ∧ w.output qs = post'

end Rewrite

/-- One substitution after the other. -/
def rewriteAll (ws : List Rewrite) (cs : List Char) : List Char :=
  ws.foldl (fun cs w => (w.subn cs).1) cs

/-- No substitution of the chain meets the `word` between `pre` and `post`. -/
inductive Spared (word : List Char) : List Rewrite → List Char → List Char → Prop where
  | nil (pre post : List Char) : Spared word [] pre post
  | cons {w : Rewrite} {ws : List Rewrite} {pre post pre' post' : List Char}
    (spares : w.Spares word pre post pre' post') (rest : Spared word ws pre' post') :
    Spared word (w :: ws) pre post

/-! ## Separated words -/

/-- A word does not span a character that it does not have. -/
theorem infix_of_infix_separated {word front back : List Char} {c : Char} (hc : c ∉ word)
    (h : word <:+: front ++ c :: back) : word <:+: front ∨ word <:+: back := by
  rcases List.infix_append_iff_ne_nil.mp h with hfront | hback | ⟨t, u, -, hu, rfl, -, hpre⟩
  · exact .inl hfront
  · rcases List.infix_cons_iff.mp hback with hpre | hback
    · cases word with
      | nil => exact .inr List.nil_infix
      | cons d word =>
        obtain ⟨rfl, -⟩ := List.cons_prefix_cons.mp hpre
        exact absurd (List.mem_cons_self ..) hc
    · exact .inr hback
  · obtain ⟨d, u, rfl⟩ := List.exists_cons_of_ne_nil hu
    obtain ⟨rfl, -⟩ := List.cons_prefix_cons.mp hpre
    exact absurd (by simp) hc

section Framed

variable {word body other pre post : List Char} {c : Char}

/-- A word that is the first of three separated parts, and not in the others, is nowhere else. -/
theorem eq_nil_of_framed_front (hc : c ∉ word) (hbody : ¬ word <:+: body) (hother : ¬ word <:+: other)
    (h : pre ++ word ++ post = word ++ c :: (body ++ c :: other)) : pre = [] := by
  cases pre with
  | nil => rfl
  | cons x pre =>
    cases word with
    | nil => exact absurd List.nil_infix hbody
    | cons d word =>
      simp only [List.cons_append, List.cons.injEq] at h
      have hin : d :: word <:+: word ++ c :: (body ++ c :: other) := ⟨pre, post, h.2⟩
      rcases infix_of_infix_separated hc hin with hself | hin
      · have hlen := hself.length_le
        rw [List.length_cons] at hlen
        omega
      · rcases infix_of_infix_separated hc hin with hin | hin
        · exact absurd hin hbody
        · exact absurd hin hother

/-- The same for the last part: read backwards. -/
theorem eq_nil_of_framed_back (hc : c ∉ word) (hbody : ¬ word <:+: body) (hother : ¬ word <:+: other)
    (h : pre ++ word ++ post = other ++ c :: (body ++ c :: word)) : post = [] := by
  have hrev : post.reverse ++ word.reverse ++ pre.reverse =
      word.reverse ++ c :: (body.reverse ++ c :: other.reverse) := by
    have := congrArg List.reverse h
    simpa using this
  have hnil := eq_nil_of_framed_front (by simpa using hc) (by rwa [ List.reverse_infix])
    (by rwa [ List.reverse_infix]) hrev
  simpa using hnil

end Framed

/-! ## What a substitution can bring about -/

/-- The word does not run into the replacement: no end of the word is how the replacement begins, or
begins with all of it. -/
def ClearOf (word replacement : List Char) : Prop :=
  ∀ t, t ≠ [] → t <:+ word → ¬ t <+: replacement ∧ ¬ replacement <+: t

/-- Neither does the replacement run into the word, unless the word is inside it. -/
structure Unbroken (word replacement : List Char) : Prop where
  word_ne_nil : word ≠ []
  tail : ClearOf word replacement
  head : ∀ t, t ≠ [] → t <:+ replacement → ¬ t <+: word

/-- A copy of the word can neither begin in the replacement nor run into it. -/
structure Foreign (word replacement : List Char) : Prop where
  word_ne_nil : word ≠ []
  head_notMem : ∀ c ∈ word.head?, c ∉ replacement
  replacement_ne_nil : replacement ≠ []
  notMem_word : ∀ d ∈ replacement.head?, d ∉ word

/-- The conditions as a test. -/
def foreignTest (word replacement : List Char) : Bool :=
  !word.isEmpty && (word.head?.all fun c => !replacement.contains c) && !replacement.isEmpty &&
    (replacement.head?.all fun d => !word.contains d)

theorem foreignTest_iff {word replacement : List Char} :
    foreignTest word replacement = true ↔ Foreign word replacement := by
  unfold foreignTest
  refine ⟨fun h => ?_, fun h => ?_⟩
  · simp only [Bool.and_eq_true, Bool.not_eq_true', List.isEmpty_eq_false_iff,
      Option.all_eq_true, List.contains_eq_mem, decide_eq_false_iff_not] at h
    obtain ⟨⟨⟨hne, hhead⟩, hne'⟩, hhead'⟩ := h
    exact ⟨hne, hhead, hne', hhead'⟩
  · simp only [Bool.and_eq_true, Bool.not_eq_true', List.isEmpty_eq_false_iff,
      Option.all_eq_true, List.contains_eq_mem, decide_eq_false_iff_not]
    exact ⟨⟨⟨h.word_ne_nil, h.head_notMem⟩, h.replacement_ne_nil⟩, h.notMem_word⟩

section Foreign

variable {word replacement t : List Char}

/-- What begins with a text has its first character. -/
theorem head_mem_of_front {c : Char} {cs : List Char} (h : c :: cs <+: t) : c ∈ t :=
  h.subset List.mem_cons_self

theorem Foreign.unbroken (hf : Foreign word replacement) : Unbroken word replacement := by
  obtain ⟨c, word, rfl⟩ := List.exists_cons_of_ne_nil hf.word_ne_nil
  obtain ⟨d, replacement, rfl⟩ := List.exists_cons_of_ne_nil hf.replacement_ne_nil
  refine ⟨hf.word_ne_nil, fun t hne ht => ⟨fun hpre => ?_, fun hpre => ?_⟩, fun t hne ht hpre => ?_⟩
  · obtain ⟨x, t, rfl⟩ := List.exists_cons_of_ne_nil hne
    obtain ⟨rfl, -⟩ := List.cons_prefix_cons.mp hpre
    exact hf.notMem_word x rfl (ht.subset List.mem_cons_self)
  · exact hf.notMem_word d rfl (ht.subset (head_mem_of_front hpre))
  · obtain ⟨x, t, rfl⟩ := List.exists_cons_of_ne_nil hne
    obtain ⟨rfl, -⟩ := List.cons_prefix_cons.mp hpre
    exact hf.head_notMem x rfl (ht.subset List.mem_cons_self)

theorem Foreign.not_infix (hf : Foreign word replacement) : ¬ word <:+: replacement := by
  intro hin
  obtain ⟨c, word, rfl⟩ := List.exists_cons_of_ne_nil hf.word_ne_nil
  exact hf.head_notMem c rfl (hin.subset List.mem_cons_self)

end Foreign

namespace Rewrite

/-- Every copy of the word in an output is kept text. -/
def OnlyKeeps (w : Rewrite) (word : List Char) : Prop :=
  ∀ ps pre post, w.output ps = pre ++ word ++ post →
    ∃ ps₁ ps₂, ps = ps₁ ++ word.map Piece.kept ++ ps₂ ∧ w.output ps₁ = pre ∧ w.output ps₂ = post

end Rewrite

section Output

variable {w : Rewrite} {word pre post : List Char}

@[simp] theorem Rewrite.output_nil : w.output [] = [] := rfl

@[simp] theorem Rewrite.output_cons (p : Piece) (ps : List Piece) :
    w.output (p :: ps) = p.put w.replacement ++ w.output ps := rfl

@[simp] theorem Rewrite.output_append (ps qs : List Piece) :
    w.output (ps ++ qs) = w.output ps ++ w.output qs := by
  simp [Rewrite.output]

@[simp] theorem Rewrite.output_kept (cs : List Char) : w.output (cs.map Piece.kept) = cs := by
  induction cs with
  | nil => rfl
  | cons c cs ih => simp [Piece.put, ih]

@[simp] theorem Piece.source_kept (cs : List Char) :
    (cs.map Piece.kept).flatMap Piece.source = cs := by
  induction cs with
  | nil => rfl
  | cons c cs ih => simp [Piece.source, ih]

/-- A word at the front of the output, which cannot run into a replacement, is kept text. -/
theorem Rewrite.kept_of_prefix (htail : ClearOf word w.replacement) {ps : List Piece}
    (h : w.output ps = word ++ post) :
    ∃ qs, ps = word.map Piece.kept ++ qs ∧ w.output qs = post := by
  induction word generalizing ps with
  | nil => exact ⟨ps, rfl, h⟩
  | cons c word ih =>
    cases ps with
    | nil => simp at h
    | cons p ps =>
      cases p with
      | kept d =>
        simp only [output_cons, Piece.put, List.cons_append, List.nil_append, List.cons.injEq] at h
        obtain ⟨rfl, h⟩ := h
        obtain ⟨qs, rfl, hqs⟩ := ih (fun t hne ht => htail t hne (ht.trans (List.suffix_cons _ _))) h
        exact ⟨qs, rfl, hqs⟩
      | hit s =>
        have hself := htail (c :: word) (List.cons_ne_nil _ _) List.suffix_rfl
        rcases List.prefix_or_prefix_of_prefix (List.prefix_append w.replacement (w.output ps))
          (h ▸ List.prefix_append (c :: word) post) with hpre | hpre
        · exact absurd hpre hself.2
        · exact absurd hpre hself.1

/-- A word in the output is kept text, or it lies in one replacement: the induction is on the pieces,
and the word is in the first one, or begins in it, or comes after it. -/
theorem Rewrite.output_cases (hu : Unbroken word w.replacement) {ps : List Piece}
    (h : w.output ps = pre ++ word ++ post) :
    (∃ ps₁ ps₂, ps = ps₁ ++ word.map Piece.kept ++ ps₂ ∧ w.output ps₁ = pre ∧ w.output ps₂ = post) ∨
      ∃ ps₁ s ps₂ r₁ r₂, ps = ps₁ ++ .hit s :: ps₂ ∧ w.replacement = r₁ ++ word ++ r₂ ∧
        pre = w.output ps₁ ++ r₁ ∧ post = r₂ ++ w.output ps₂ := by
  induction ps generalizing pre with
  | nil =>
    have hnil : word = [] := by
      rw [output_nil] at h
      simp_all
    exact absurd hnil hu.word_ne_nil
  | cons p ps ih =>
    have hafter : ∀ pre₂, pre = p.put w.replacement ++ pre₂ → w.output ps = pre₂ ++ word ++ post →
        (∃ ps₁ ps₂, p :: ps = ps₁ ++ word.map Piece.kept ++ ps₂ ∧ w.output ps₁ = pre ∧
            w.output ps₂ = post) ∨
          ∃ ps₁ s ps₂ r₁ r₂, p :: ps = ps₁ ++ .hit s :: ps₂ ∧ w.replacement = r₁ ++ word ++ r₂ ∧
            pre = w.output ps₁ ++ r₁ ∧ post = r₂ ++ w.output ps₂ := by
      rintro pre₂ rfl hrest
      rcases ih hrest with ⟨ps₁, ps₂, rfl, rfl, hpost⟩ | ⟨ps₁, s, ps₂, r₁, r₂, rfl, hrep, rfl, hpost⟩
      · exact .inl ⟨p :: ps₁, ps₂, rfl, rfl, hpost⟩
      · exact .inr ⟨p :: ps₁, s, ps₂, r₁, r₂, rfl, hrep, by simp, hpost⟩
    cases p with
    | kept c =>
      cases pre with
      | nil =>
        obtain ⟨qs, hqs, hpost⟩ := kept_of_prefix hu.tail h
        exact .inl ⟨[], qs, hqs, rfl, hpost⟩
      | cons d pre =>
        simp only [output_cons, Piece.put, List.cons_append, List.nil_append, List.cons.injEq] at h
        obtain ⟨rfl, h⟩ := h
        exact hafter pre rfl h
    | hit s =>
      rw [output_cons, Piece.put, List.append_assoc, List.append_eq_append_iff] at h
      rcases h with ⟨pre₂, hpre, hrest⟩ | ⟨tail, hrep, hrest⟩
      · exact hafter pre₂ hpre (by rw [hrest, List.append_assoc])
      · by_cases hnil : tail = []
        · subst hnil
          refine hafter [] (by simpa [Piece.put] using hrep.symm) ?_
          simpa using hrest.symm
        · have hsuffix : tail <:+ w.replacement := ⟨pre, hrep.symm⟩
          rcases List.prefix_or_prefix_of_prefix (List.prefix_append word post)
            (hrest ▸ List.prefix_append tail (w.output ps)) with ⟨r₂, rfl⟩ | hpre
          · refine .inr ⟨[], s, ps, pre, r₂, rfl, by rw [hrep, List.append_assoc], rfl, ?_⟩
            rwa [List.append_assoc, List.append_cancel_left_eq] at hrest
          · exact absurd hpre (hu.head tail hnil hsuffix)

theorem Unbroken.onlyKeeps (hu : Unbroken word w.replacement) (hin : ¬ word <:+: w.replacement) :
    w.OnlyKeeps word := by
  intro ps pre post h
  rcases Rewrite.output_cases hu h with hkept | ⟨_, _, _, r₁, r₂, _, hrep, _⟩
  · exact hkept
  · exact absurd ⟨r₁, r₂, hrep.symm⟩ hin

theorem Foreign.onlyKeeps (hf : Foreign word w.replacement) : w.OnlyKeeps word :=
  hf.unbroken.onlyKeeps hf.not_infix

theorem Rewrite.subn_spared {pre' post' : List Char}
    (h : w.Spares word pre post pre' post') :
    (w.subn (pre ++ word ++ post)).1 = pre' ++ word ++ post' := by
  obtain ⟨ps, qs, hps, -, -, rfl, rfl⟩ := h
  rw [subn, hps]
  simp

/-- Without a match the text stays. -/
theorem Rewrite.subn_no_hit {cs : List Char} (h : (w.subn cs).2 = 0) : (w.subn cs).1 = cs := by
  have hsource := w.regex.pieces_source cs
  unfold subn at h ⊢
  generalize w.regex.pieces cs = ps at h hsource
  subst hsource
  induction ps with
  | nil => rfl
  | cons p ps ih =>
    cases p with
    | kept c => simpa [Piece.put, Piece.source, Piece.isHit] using ih (by simpa [Piece.isHit] using h)
    | hit s => simp [Piece.isHit] at h

/-- A copy of the word in the output comes from one that the substitution spares. -/
theorem Rewrite.spared_of_subn (hk : w.OnlyKeeps word) {cs pre' post' : List Char}
    (h : (w.subn cs).1 = pre' ++ word ++ post') :
    ∃ pre post, cs = pre ++ word ++ post ∧ w.Spares word pre post pre' post' := by
  obtain ⟨ps, qs, hps, rfl, rfl⟩ := hk _ _ _ h
  have hcs : cs = ps.flatMap Piece.source ++ word ++ qs.flatMap Piece.source := by
    rw [← w.regex.pieces_source cs, hps]
    simp
  refine ⟨_, _, hcs, ps, qs, ?_, rfl, rfl, rfl, rfl⟩
  rw [← hcs, hps]

end Output

/-- A word is in the result of a chain of substitutions exactly if a copy of it is spared. -/
theorem word_in_rewriteAll {word : List Char} {ws : List Rewrite}
    (hf : ∀ w ∈ ws, Foreign word w.replacement) (cs : List Char) :
    word <:+: rewriteAll ws cs ↔ ∃ pre post, cs = pre ++ word ++ post ∧ Spared word ws pre post := by
  induction ws generalizing cs with
  | nil =>
    refine ⟨?_, ?_⟩
    · rintro ⟨pre, post, h⟩
      exact ⟨pre, post, h.symm, .nil pre post⟩
    · rintro ⟨pre, post, rfl, -⟩
      exact ⟨pre, post, rfl⟩
  | cons w ws ih =>
    have hrest := ih (fun w' hw' => hf w' (List.mem_cons_of_mem _ hw')) (w.subn cs).1
    refine hrest.trans ⟨?_, ?_⟩
    · rintro ⟨pre', post', hsub, hun⟩
      obtain ⟨pre, post, hcs, hsp⟩ := Rewrite.spared_of_subn (hf w (List.mem_cons_self ..)).onlyKeeps hsub
      exact ⟨pre, post, hcs, .cons hsp hun⟩
    · rintro ⟨pre, post, rfl, hun⟩
      cases hun with
      | cons hsp hun => exact ⟨_, _, Rewrite.subn_spared hsp, hun⟩

end Lib
