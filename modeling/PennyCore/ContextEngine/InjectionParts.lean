import Mathlib.Data.List.Infix
import PennyCore.Lib.RegexParts
import PennyCore.ContextEngine.InjectionEdges

/-!
# The words of the patterns and the replacement texts

* `Bracketed`: every replacement text is in brackets, and says `flagged` first
  (`replacement_bracketed`).
* `Regex.keyword`: an expression whose matches have no brackets, and no blanks at their ends. A match
  does not run into a replacement (`keyword_unbroken`). So in a rewritten text it is a word of the text
  or of a replacement (`pins_placed`), and of the text where no replacement has it (`pins_own`).
* `roleImpersonation_original`, `delimiterAbuse_onlyKeeps`: the matches of role markers and delimiters
  are passages of the text.
-/

namespace PennyCore

open Lib

/-! ## The replacement texts -/

/-- A text in brackets, possibly with a blank on both sides, with one opening bracket and no character
that a marker of a role or a delimiter begins with. -/
structure Bracketed (t : List Char) : Prop where
  opens : ∃ r, t = '[' :: r ∨ t = ' ' :: '[' :: r
  closes : ∃ r, t = r ++ [']'] ∨ t = r ++ [']', ' ']
  flagged : ∀ s, s <:+ t → s.head? = some '[' → ∃ r, s = '[' :: 'f' :: r
  quiet : ∀ c ∈ t, c ∉ ['`', '<', '\n', '.', '!', '?']

/-- The texts of the bank. -/
def replacements : List (List Char) := (bank .ascii).map Rewrite.replacement

section Brackets

variable {t m : List Char} {c : Char}

/-- The conditions as a test. -/
def bracketTest (t : List Char) : Bool :=
  (t.take 1 == ['['] || t.take 2 == [' ', '[']) &&
    (t.reverse.take 1 == [']'] || t.reverse.take 2 == [' ', ']']) &&
    (t.tails.all fun s => s.head? != some '[' || s.take 2 == ['[', 'f']) &&
    t.all fun c => not (['`', '<', '\n', '.', '!', '?'].contains c)

theorem bracketTest_sound (h : bracketTest t = true) : Bracketed t := by
  have htake : ∀ {l s : List Char} {n : Nat}, s.take n = l → s = l ++ s.drop n := by
    rintro l s n rfl
    exact (List.take_append_drop n s).symm
  simp only [bracketTest, Bool.and_eq_true, Bool.or_eq_true, beq_iff_eq, List.all_eq_true,
    bne_iff_ne] at h
  obtain ⟨⟨⟨hopens, hcloses⟩, hflagged⟩, hquiet⟩ := h
  refine ⟨?_, ?_, fun s hs hhead => ?_, fun c hc => by simpa using hquiet c hc⟩
  · rcases hopens with h | h
    · exact ⟨_, .inl (htake h)⟩
    · exact ⟨_, .inr (htake h)⟩
  · rcases hcloses with h | h
    · refine ⟨(t.reverse.drop 1).reverse, .inl ?_⟩
      simpa using congrArg List.reverse (htake h)
    · refine ⟨(t.reverse.drop 2).reverse, .inr ?_⟩
      simpa using congrArg List.reverse (htake h)
  · rcases hflagged s ((List.mem_tails s t).mpr hs) with hne | heq
    · exact absurd hhead hne
    · exact ⟨_, htake heq⟩

theorem replacements_bracketed : replacements.all bracketTest = true := by
  decide

theorem replacement_bracketed (ht : t ∈ replacements) : Bracketed t :=
  bracketTest_sound (List.all_eq_true.mp replacements_bracketed t ht)

/-! ## Words that do not run into a replacement -/

/-- What has no opening bracket and no blank at its end. -/
theorem Bracketed.clearOf (ht : Bracketed t) (hopen : '[' ∉ m) (hlast : m.getLast? ≠ some ' ') :
    ClearOf m t := by
  intro s hne hs
  have hfree : '[' ∉ s := fun h => hopen (hs.subset h)
  obtain ⟨x, s, rfl⟩ := List.exists_cons_of_ne_nil hne
  obtain ⟨r, rfl | rfl⟩ := ht.opens
  · refine ⟨fun hpre => hfree ?_, fun hpre => hfree (head_mem_of_front hpre)⟩
    rw [← (List.cons_prefix_cons.mp hpre).1]
    exact List.mem_cons_self
  · refine ⟨fun hpre => ?_, fun hpre => hfree (hpre.subset (by simp))⟩
    obtain ⟨rfl, hnext⟩ := List.cons_prefix_cons.mp hpre
    cases s with
    | nil =>
      -- the whole end is the blank
      obtain ⟨m₁, rfl⟩ := hs
      exact hlast List.getLast?_concat
    | cons y s =>
      obtain ⟨rfl, -⟩ := List.cons_prefix_cons.mp hnext
      exact hfree (by simp)

/-- What has no closing bracket and no blank at its beginning. -/
theorem Bracketed.not_runs_out (ht : Bracketed t) (hclose : ']' ∉ m) (hhead : m.head? ≠ some ' ') :
    ∀ s, s ≠ [] → s <:+ t → ¬ s <+: m := by
  intro s hne hs hpre
  have hfree : ']' ∉ s := fun h => hclose (hpre.subset h)
  obtain ⟨r, rfl | rfl⟩ := ht.closes
  · rcases List.suffix_concat_iff.mp hs with rfl | ⟨s, rfl, _⟩
    · exact hne rfl
    · exact hfree (by simp)
  · rw [← List.singleton_append, ← List.append_assoc] at hs
    rcases List.suffix_concat_iff.mp hs with rfl | ⟨s, rfl, hs'⟩
    · exact hne rfl
    · rcases List.suffix_concat_iff.mp hs' with hnil | ⟨s, rfl, _⟩
      · subst hnil
        obtain ⟨m, rfl⟩ := hpre
        exact hhead rfl
      · exact hfree (by simp)

/-- What begins with a character that is in no replacement. -/
theorem Bracketed.onlyKeeps_of_head {w : Rewrite} (hw : Bracketed w.replacement) (hopen : '[' ∉ m)
    (hlast : m.getLast? ≠ some ' ') (hhead : ∃ c ∈ m.head?, c ∉ w.replacement) : w.OnlyKeeps m := by
  obtain ⟨c, hc, hmem⟩ := hhead
  obtain ⟨m, rfl⟩ : ∃ m', m = c :: m' := by
    cases m with
    | nil => cases hc
    | cons d m =>
      cases hc
      exact ⟨m, rfl⟩
  have hunbroken : Unbroken (c :: m) w.replacement := by
    refine ⟨List.cons_ne_nil c m, hw.clearOf hopen hlast, fun s hne hs hpre => hmem ?_⟩
    obtain ⟨x, s, rfl⟩ := List.exists_cons_of_ne_nil hne
    obtain ⟨rfl, -⟩ := List.cons_prefix_cons.mp hpre
    exact hs.subset List.mem_cons_self
  exact hunbroken.onlyKeeps fun hin => hmem (hin.subset List.mem_cons_self)

/-- What begins with an opening bracket, its only one, and no `f` behind it. -/
theorem Bracketed.onlyKeeps_of_tag {w : Rewrite} (hw : Bracketed w.replacement) {x : Char}
    (hx : x ≠ 'f') (hopen : '[' ∉ x :: m) (hlast : (x :: m).getLast? ≠ some ' ') :
    w.OnlyKeeps ('[' :: x :: m) := by
  -- an end of the replacement that begins as the tag does says `[f`
  have hnot : ∀ s u, '[' :: s <:+ w.replacement → '[' :: s <+: u → ¬ ('[' :: x :: m <+: u) := by
    intro s u hs hpre htag
    obtain ⟨r, hr⟩ := hw.flagged _ hs rfl
    rw [hr] at hpre
    obtain ⟨r₁, rfl⟩ := hpre
    simp only [List.cons_append, List.cons_prefix_cons] at htag
    exact hx htag.2.1
  have hfirst : ∀ {s}, s <+: '[' :: x :: m → s ≠ [] → ∃ s', s = '[' :: s' := by
    intro s hpre hne
    obtain ⟨y, s, rfl⟩ := List.exists_cons_of_ne_nil hne
    exact ⟨s, by rw [(List.cons_prefix_cons.mp hpre).1]⟩
  have hclear : ClearOf ('[' :: x :: m) w.replacement := by
    intro s hne hs
    rcases List.suffix_cons_iff.mp hs with rfl | hs
    · refine ⟨fun hpre => ?_, fun hpre => ?_⟩
      · obtain ⟨r, hr⟩ := hpre
        obtain ⟨r', hr'⟩ := hw.flagged _ List.suffix_rfl (by rw [← hr]; rfl)
        rw [hr'] at hr
        simp only [List.cons_append, List.cons.injEq] at hr
        exact hx hr.2.1
      · obtain ⟨r, hr⟩ := hw.opens
        have hne : w.replacement ≠ [] := by
          rcases hr with hr | hr <;> rw [hr] <;> exact List.cons_ne_nil _ _
        obtain ⟨s, hs⟩ := hfirst hpre hne
        exact hnot s _ (hs ▸ List.suffix_rfl) (hs ▸ hpre) List.prefix_rfl
    · exact hw.clearOf hopen hlast s hne hs
  refine Unbroken.onlyKeeps ⟨List.cons_ne_nil _ _, hclear, fun s hne hs hpre => ?_⟩ ?_
  · obtain ⟨s, rfl⟩ := hfirst hpre hne
    exact hnot s _ hs hpre List.prefix_rfl
  · rintro ⟨pre, post, hin⟩
    have hs : '[' :: (x :: m ++ post) <:+ w.replacement := ⟨pre, by rw [← hin]; simp⟩
    exact hnot _ _ hs List.prefix_rfl ⟨post, rfl⟩

end Brackets

/-! ## Keywords -/

/-- The matches of the expression are not empty, have no brackets, and no blank at their ends. -/
def Regex.keyword (r : Lib.Regex) : Bool :=
  !r.mayBeEmpty && r.avoids '[' && r.avoids ']' && r.headAvoids ' ' && r.lastAvoids ' '

theorem patternWords_keyword : ∀ r ∈ patternWords, Regex.keyword r = true := by
  decide

/-- What no replacement has. -/
theorem replacements_lack : ∀ t ∈ replacements,
    ∀ r ∈ [overrideScope, leakObject, personaCall, personaRole], r.search t = false := by
  decide

/-- What the first two replacements do not have, and what does not fit into the gap of a request. -/
theorem first_lack : ∀ t ∈ replacements.take 2, leakRequest.search t = false ∧ 30 < t.length := by
  decide

/-- What none but the last one has. -/
theorem earlier_lack : ∀ t ∈ replacements.take 5, policyObject.search t = false := by
  decide

section Words

variable {W : WordData} {ws : List Rewrite} {cs m pre post t : List Char} {b a : Option Char}
  {r : Lib.Regex} {w : Rewrite}

theorem mem_replacements (hw : w ∈ bank W) : w.replacement ∈ replacements := by
  have hsame : (bank W).map Rewrite.replacement = replacements := rfl
  rw [← hsame]
  exact List.mem_map_of_mem hw

theorem word_match (h : (Regex.word W r).Matches b m a) : ∃ b' a', r.Matches b' m a' := by
  obtain ⟨_, _, rfl, ⟨rfl, _⟩, m, _, rfl, hm, _, _, rfl, ⟨rfl, _⟩, rfl⟩ := h
  exact ⟨_, _, by simpa using hm⟩

/-- A word of a pattern does not run into a replacement. -/
theorem keyword_unbroken (hr : r ∈ patternWords) (ht : Bracketed t)
    (hm : (Regex.word W r).Matches b m a) : Unbroken m t := by
  obtain ⟨b', a', hm⟩ := word_match hm
  have hk := patternWords_keyword r hr
  simp only [Regex.keyword, Bool.and_eq_true, Bool.not_eq_true'] at hk
  obtain ⟨⟨⟨⟨hsolid, hopen⟩, hclose⟩, hhead⟩, hlast⟩ := hk
  exact ⟨Regex.solid_of_mayBeEmpty hsolid _ _ _ hm,
    ht.clearOf (hm.not_mem hopen) (hm.last_ne hlast),
    ht.not_runs_out (hm.not_mem hclose) (hm.head_ne hhead)⟩

theorem pins_placed (hr : r ∈ patternWords) (hedged : (Regex.word W r).Edged W.isWord)
    (hg : ∀ w ∈ ws, w.Guarded W.isWord) (hws : ∀ w ∈ ws, w.replacement ∈ replacements) :
    Pins (rewriteAll ws cs) (Regex.word W r) (Placed ws cs (Regex.word W r)) :=
  .placed hedged hg fun _ _ _ hm w hw => keyword_unbroken hr (replacement_bracketed (hws w hw)) hm

/-- A word that the replacement does not have is only kept. -/
theorem keyword_onlyKeeps (hr : r ∈ patternWords) (ht : w.replacement ∈ replacements)
    (hs : r.search w.replacement = false) (hm : (Regex.word W r).Matches b m a) : w.OnlyKeeps m := by
  obtain ⟨b', a', hplain⟩ := word_match hm
  exact (keyword_unbroken hr (replacement_bracketed ht) hm).onlyKeeps
    (hplain.not_infix (patternWords_plain r hr) hs)

theorem pins_own (hr : r ∈ patternWords) (hedged : (Regex.word W r).Edged W.isWord)
    (hg : ∀ w ∈ ws, w.Guarded W.isWord) (hws : ∀ w ∈ ws, w.replacement ∈ replacements)
    (hs : ∀ w ∈ ws, r.search w.replacement = false) :
    Pins (rewriteAll ws cs) (Regex.word W r) (Own ws cs (Regex.word W r)) :=
  .own hedged hg fun _ _ _ hm w hw => keyword_onlyKeeps hr (hws w hw) (hs w hw) hm

/-! ## Markers of roles and delimiters -/

/-- What begins with a symbol that no replacement has. -/
theorem symbol_onlyKeeps (ht : w.replacement ∈ replacements)
    (hstarts : r.Starts (· ∈ ['`', '<', '\n', '.', '!', '?'])) (hopen : r.avoids '[' = true)
    (hlast : r.lastAvoids ' ' = true) (hm : r.Matches b m a) : w.OnlyKeeps m := by
  have hw := replacement_bracketed ht
  obtain ⟨c, hc, hsymbol⟩ := hstarts _ _ _ hm
  exact hw.onlyKeeps_of_head (hm.not_mem hopen) (hm.last_ne hlast)
    ⟨c, hc, fun hmem => hw.quiet c hmem hsymbol⟩

theorem texts_match {S : List String} (h : (Regex.texts S).Matches b m a) :
    ∃ s ∈ S, (Regex.text s).Matches b m a := by
  obtain ⟨r, hr, hm⟩ := h.of_oneOf
  obtain ⟨s, hs, rfl⟩ := List.mem_map.mp hr
  exact ⟨s, hs, hm⟩

/-- A tag in angle brackets, or in square brackets without an `f` at its beginning. -/
def tagTest (s : String) : Bool :=
  match s.toList with
  | [] => false
  | c :: cs =>
    let rest : Lib.Regex := .concat (cs.map fun c => .char (ignoreCase c))
    rest.avoids '[' && rest.lastAvoids ' ' && !rest.mayBeEmpty &&
      (c == '<' || (c == '[' && rest.headAvoids 'f'))

theorem tag_onlyKeeps {s : String} (ht : w.replacement ∈ replacements) (hs : tagTest s = true)
    (hm : (Regex.text s).Matches b m a) : w.OnlyKeeps m := by
  have hw := replacement_bracketed ht
  unfold tagTest at hs
  unfold Regex.text at hm
  cases hchars : s.toList with
  | nil => simp [hchars] at hs
  | cons c cs =>
    rw [hchars] at hs hm
    simp only [Bool.and_eq_true, Bool.not_eq_true', Bool.or_eq_true, beq_iff_eq] at hs
    obtain ⟨⟨⟨hopen, hlast⟩, hsolid⟩, hfirst⟩ := hs
    obtain ⟨_, m, rfl, ⟨d, rfl, hd⟩, hrest⟩ := hm
    have hne := Regex.solid_of_mayBeEmpty hsolid _ _ _ hrest
    have hend : m.getLast? ≠ some ' ' := hrest.last_ne hlast
    have hfree : '[' ∉ m := hrest.not_mem hopen
    have hsymbol : c ∈ symbols := by
      rcases hfirst with rfl | ⟨rfl, _⟩ <;> decide
    rw [symbol_only hsymbol hd, List.singleton_append]
    rcases hfirst with rfl | ⟨rfl, hf⟩
    · refine hw.onlyKeeps_of_head ?_ ?_ ⟨'<', rfl, fun hmem => hw.quiet _ hmem (by decide)⟩
      · simpa using hfree
      · rwa [← List.singleton_append, getLast?_append_ne hne]
    · obtain ⟨x, m, rfl⟩ := List.exists_cons_of_ne_nil hne
      refine hw.onlyKeeps_of_tag (fun hx => ?_) hfree hend
      exact hrest.head_ne hf (by rw [hx]; rfl)

/-- A match of the role markers in a rewritten text is a passage of the text. -/
theorem roleImpersonation_original (hws : ∀ w ∈ ws, w.replacement ∈ replacements)
    (hcs : rewriteAll ws cs = pre ++ m ++ post)
    (hm : roleImpersonation.Matches pre.getLast? m post.head?) : Original ws cs m pre post := by
  rcases hm with ⟨_, m, rfl, ⟨rfl, hnone⟩ | ⟨c, rfl, hc⟩, hrest⟩ | htag
  · -- at the beginning of the text
    obtain rfl := List.getLast?_eq_none_iff.mp hnone
    refine original_of_clear (fun w hw => ?_) hcs
    exact (replacement_bracketed (hws w hw)).clearOf (hrest.not_mem (by decide))
      (hrest.last_ne (by decide))
  · refine original_of_onlyKeeps (fun w hw => ?_) hcs
    have hin : c ∈ ['`', '<', '\n', '.', '!', '?'] := by
      simp only [Bool.or_eq_true, beq_iff_eq] at hc
      rcases hc with ((rfl | rfl) | rfl) | rfl <;> decide
    have hw := replacement_bracketed (hws w hw)
    have hne : m ≠ [] := Regex.solid_of_mayBeEmpty (by decide) _ _ _ hrest
    refine hw.onlyKeeps_of_head ?_ ?_ ⟨c, rfl, fun hmem => hw.quiet c hmem hin⟩
    · rw [List.singleton_append, List.mem_cons, not_or]
      refine ⟨?_, hrest.not_mem (by decide)⟩
      rintro rfl
      cases hc
    · rw [getLast?_append_ne hne]
      exact hrest.last_ne (by decide)
  · obtain ⟨s, hs, hm⟩ := texts_match htag
    have htags : ∀ s ∈ ["<|im_start|>", "<|im_end|>", "<|system|>", "[inst]", "[/inst]", "<<sys>>",
        "<</sys>>"], tagTest s = true := by decide
    exact original_of_onlyKeeps (fun w hw => tag_onlyKeeps (hws w hw) (htags s hs) hm) hcs

theorem delimiterAbuse_onlyKeeps (ht : w.replacement ∈ replacements)
    (hm : (delimiterAbuse W).Matches b m a) : w.OnlyKeeps m := by
  rcases hm with ⟨m₁, _, rfl, hm₁, m₂, _, rfl, hm₂, _, _, rfl, ⟨rfl, _⟩, rfl⟩ | htag
  · have hboth : (Lib.Regex.seq (Regex.text "```")
        (Regex.texts ["system", "user", "assistant", "prompt", "instructions"])).Matches b (m₁ ++ m₂) a :=
      ⟨m₁, m₂, rfl, hm₁.of_plain (by decide) _ _, hm₂.of_plain (by decide) _ _⟩
    rw [List.append_nil, List.append_nil]
    refine symbol_onlyKeeps ht (.seq (text_starts ⟨'`', rfl, fun d hd => ?_⟩)) (by decide)
      (by decide) hboth
    rw [symbol_only (by decide) hd]
    decide
  · obtain ⟨s, hs, hm⟩ := texts_match htag
    have htags : ∀ s ∈ ["<system>", "</system>", "<prompt>", "</prompt>"], tagTest s = true := by
      decide
    exact tag_onlyKeeps ht (htags s hs) hm

/-- Until the third pattern's turn, no replacement fits into the gap of a request for the prompt. -/
theorem systemPromptLeak_onlyKeeps (ht : w.replacement ∈ replacements.take 2)
    (hm : (systemPromptLeak W).Matches b m a) : w.OnlyKeeps m := by
  rw [systemPromptLeak_eq] at hm
  obtain ⟨o, _, rfl, ho, g, _, rfl, ⟨_, _, hn⟩, k, _, rfl, hk, rfl⟩ := hm
  obtain ⟨hrequest, hlen⟩ := first_lack _ ht
  have hin := List.mem_of_mem_take ht
  have hobject := replacements_lack _ hin leakObject (by simp)
  have hgap := Rewrite.OnlyKeeps.gap
    (keyword_onlyKeeps (by simp [patternWords]) hin hrequest ho)
    (keyword_onlyKeeps (by simp [patternWords]) hin hobject hk) (lt_of_le_of_lt (hn 30 rfl) hlen)
  simpa using hgap

end Words
end PennyCore
