import PennyCore.Orchestrator.ResponseGrammar

/-!
# A code fence around an answer

Both parsers are to read an answer in a code fence as they read the answer alone. What they parse is the
answer with a newline in place of every line break (`Cut.parsed_object`), and to Python three
characters break a line that JSON allows in a string. So the fence is transparent exactly for the
answers without these three, and for those that neither parser acts on
(`fenceTransparent_iff`).
-/

namespace PennyCore

open Lib
open LLMJudgePolicyEngine (parseJudgeResponse)

/-! ## The fence -/

/-- The text between an opening line and a closing line. -/
def wrapped (s : String) : String := "```json\n" ++ s ++ "\n```"

/-- The parsers read the text in the fence as they read it alone. -/
structure FenceTransparent (loads : String → Except JsonError PyVal) (s : String) : Prop where
  planner : parseLLMResponse loads (wrapped s) = parseLLMResponse loads s
  judge : parseJudgeResponse loads (wrapped s) = parseJudgeResponse loads s

theorem toList_wrapped (s : String) :
    (wrapped s).toList = "```json".toList ++ '\n' :: (s.toList ++ '\n' :: "```".toList) := by
  simp only [wrapped, String.toList_append, List.append_assoc]
  rfl

theorem strip_wrapped (s : String) : strip (wrapped s) = wrapped s := by
  unfold strip
  rw [stripChars_of_stripped ⟨fun c hc => ?_, fun c hc => ?_⟩, String.ofList_toList]
  · rw [toList_wrapped] at hc
    cases hc
    decide
  · have hlast : "\n```".toList.getLast? = some '`' := by decide
    rw [wrapped, String.toList_append, List.getLast?_append, hlast, Option.some_or] at hc
    cases hc
    decide

/-- The text in the fence, with the white space round it. -/
theorem wrapped_cut (s : String) :
    ∃ between tail, Blank between ∧ Tail tail ∧
      Cut (wrapped s) "json".toList '\n' (between ++ (strip s).toList ++ tail) := by
  obtain ⟨between, back, hsplit, hbetween, hback⟩ := stripChars_split s.toList
  have hblank : Blank (back ++ ['\n']) := by
    intro c hc
    rcases List.mem_append.mp hc with hc | hc
    · exact hback c hc
    · rw [List.mem_singleton.mp hc]
      decide
  refine ⟨between, back ++ ['\n'] ++ "```".toList, hbetween,
    .fence hblank (List.mem_append_right _ List.mem_cons_self) (by decide), ?_, fun c hc => ?_,
    by decide⟩
  swap
  · have hline : ("json".toList.all fun c => !isLineBreak c) = true := by decide +kernel
    simpa using List.all_eq_true.mp hline c hc
  have hstrip := congrArg String.toList (strip_wrapped s)
  rw [strip, String.toList_ofList, toList_wrapped] at hstrip
  rw [toList_wrapped, hstrip]
  nth_rewrite 1 [hsplit]
  have htext : (strip s).toList = stripChars s.toList := by rw [strip, String.toList_ofList]
  rw [htext]
  simp only [List.append_assoc, List.cons_append, List.nil_append]
  rfl

section

variable {J : JsonValues} {s : String} {v : PyVal}

theorem stripped_strip (s : String) : StrippedChars (strip s).toList := by
  rw [strip, String.toList_ofList]
  exact stripped_stripChars _

/-- A text that begins with a fence is no JSON. -/
theorem not_fenced (h : jsonLoads J (strip s) = .ok v) : ¬ Fenced s := by
  intro hfenced
  rw [Fenced, String.isPrefixOf, String.startsWith_string_iff] at hfenced
  obtain ⟨rest, hrest⟩ := hfenced
  rw [jsonLoads, ← hrest] at h
  cases h

/-- The parsers read the same value of two texts. -/
theorem parsers_congr {loads : String → Except JsonError PyVal} {raw raw' : String} (hne : raw ≠ "")
    (hne' : raw' ≠ "") (h : loads (answerText raw) = loads (answerText raw')) :
    parseLLMResponse loads raw = parseLLMResponse loads raw' ∧
      parseJudgeResponse loads raw = parseJudgeResponse loads raw' := by
  constructor
  · unfold answerText at h
    rw [parseLLMResponse, parseLLMResponse, if_neg hne, if_neg hne', h]
  · unfold answerText at h
    rw [parseJudgeResponse, parseJudgeResponse, if_neg hne, if_neg hne', h]

theorem isQuotedBreak_iff {c : Char} : isQuotedBreak c = true ↔ c.toNat ∈ [0x85, 0x2028, 0x2029] := by
  have hall : ∀ n ∈ lineBreaks,
      (isQuotedBreak (Char.ofNat n) = true ↔ n ∈ [0x85, 0x2028, 0x2029]) := by decide +kernel
  by_cases hbreak : isLineBreak c = true
  · have hc := hall c.toNat (by simpa [isLineBreak] using hbreak)
    rw [Char.ofNat_toNat] at hc
    exact hc
  · constructor
    · intro h
      simp only [isQuotedBreak, Bool.and_eq_true] at h
      exact absurd h.1.1 hbreak
    · intro h
      have hsub : ∀ n ∈ [0x85, 0x2028, 0x2029], lineBreaks.contains n = true := by decide
      exact absurd (hsub c.toNat h) hbreak

end

/-- The fence changes nothing exactly for the texts without the three characters that break a line for
Python alone, and for those that neither parser acts on. -/
theorem fenceTransparent_iff (J : JsonValues) (s : String) {v : PyVal}
    (h : jsonLoads J (strip s) = .ok v) :
    FenceTransparent (jsonLoads J) s ↔
      (∀ c ∈ (strip s).toList, c.toNat ∉ [0x85, 0x2028, 0x2029]) ∨ NotActedOn (jsonLoads J) s := by
  have htext : jsonLoads J (answerText s) = .ok v := by rw [answerText_bare (not_fenced h), h]
  have hne : s ≠ "" := by
    rintro rfl
    cases h
  have hne' : wrapped s ≠ "" := by
    intro hnil
    have hlist := toList_wrapped s
    rw [hnil] at hlist
    cases hlist
  have hchars : (∀ c ∈ (strip s).toList, c.toNat ∉ [0x85, 0x2028, 0x2029]) ↔
      ∀ c ∈ (strip s).toList, isQuotedBreak c = false :=
    forall₂_congr fun c _ => by rw [← isQuotedBreak_iff, Bool.not_eq_true]
  rw [hchars]
  obtain ⟨between, tail, hbetween, htail, hcut⟩ := wrapped_cut s
  by_cases hnone : ∀ c ∈ (strip s).toList, isQuotedBreak c = false
  · refine ⟨fun _ => .inl hnone, fun _ => ?_⟩
    have hwrapped : jsonLoads J (answerText (wrapped s)) = .ok v := by
      rw [jsonLoads, hcut.parsed_object hbetween (stripped_strip s) h htail hnone]
      exact JsonMachine.loads_newlines h hnone
    obtain ⟨hplanner, hjudge⟩ := parsers_congr hne' hne (hwrapped.trans htext.symm)
    exact ⟨hplanner, hjudge⟩
  · obtain ⟨hplanner, hjudge⟩ := parsers_decode (hcut.refused hbetween (stripped_strip s) h hnone)
    rw [or_iff_right hnone, notActedOn_iff hne htext]
    constructor
    · rintro ⟨hp, hj⟩
      exact ⟨hp.symm.trans hplanner, hj.symm.trans hjudge⟩
    · rintro ⟨hp, hj⟩
      exact ⟨hplanner.trans hp.symm, hjudge.trans hj.symm⟩

/-- A decision in two lines. -/
def twoLineDecision : String := "\x7b\"decision\":\r\n\"auto\"\x7d"

/-- It is read in the fence as it is alone. -/
theorem fenceTransparent_decision : FenceTransparent (jsonLoads plainValues) twoLineDecision := by
  have hstrip : strip twoLineDecision = twoLineDecision := by decide +kernel
  have hloads : jsonLoads plainValues (strip twoLineDecision) =
      .ok (.dict [(.str "decision", .str "auto")]) := by
    rw [hstrip]
    rfl
  refine (fenceTransparent_iff plainValues twoLineDecision hloads).mpr (.inl ?_)
  have hascii : (twoLineDecision.toList.all fun c => c.toNat < 0x80) = true := by decide +kernel
  rw [hstrip]
  intro c hc hmem
  have hlow : c.toNat < 0x80 := by simpa using List.all_eq_true.mp hascii c hc
  simp only [List.mem_cons, List.not_mem_nil, or_false] at hmem
  omega

/-- A decision with a line separator in its reasoning. -/
def separatedReasoning : String :=
  "\x7b\"decision\": \"auto\", \"reasoning\": \"a\u2028b\"\x7d"

/-- The judge answers `auto` on it alone, and falls back in the fence. -/
theorem separator_refused :
    parseJudgeResponse (jsonLoads plainValues) separatedReasoning = .ok .auto ∧
      parseJudgeResponse (jsonLoads plainValues) (wrapped separatedReasoning) = .ok .approvalRequired ∧
      ¬ FenceTransparent (jsonLoads plainValues) separatedReasoning := by
  have halone : jsonLoads plainValues (answerText separatedReasoning) =
      .ok (.dict [(.str "decision", .str "auto"), (.str "reasoning", .str "a\u2028b")]) := by
    have htext : answerText separatedReasoning = separatedReasoning := by decide +kernel
    rw [htext]
    rfl
  have hfence : jsonLoads plainValues (answerText (wrapped separatedReasoning)) = .error .decode := by
    have htext : answerText (wrapped separatedReasoning) =
        "\x7b\"decision\": \"auto\", \"reasoning\": \"a\nb\"\x7d" := by decide +kernel
    rw [htext]
    rfl
  have hauto := (parsers_object (by decide +kernel) halone).2
  have happroval := (parsers_decode hfence).2
  refine ⟨hauto, happroval, fun h => ?_⟩
  have hsame := h.judge
  rw [hauto, happroval] at hsame
  exact absurd (Except.ok.inj hsame) (by decide)

end PennyCore
