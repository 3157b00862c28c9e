import PennyCore.Lib.Regex

/-!
# The sanitiser of untrusted text

`src/context_engine/safety/prompt_injection.py`: the pattern bank, the substitutions of
`sanitize_for_prompt`, and the markers that it puts round the result.

* The expressions are matched without regard to case (`Regex.ignoreCase`) by `Lib.Regex`. The letters
  and digits of `\b` are the parameter `WordData`.
* `Sealed`: each marker is in the wrapped text once, at its end of it.
* `MarkersNeutralised`: no copy of a marker in the text is `Spared` by the bank. Exactly then the
  body is `Unmarked` (`unmarked_iff`), and the wrapped text sealed (`wrapped_sealed_iff`).
-/

namespace PennyCore

open Lib

/-! ## Expressions -/

/-- The letters and digits of the Unicode character database (`str.isalnum`). -/
structure WordData where
  alnum : Char → Bool
  alnum_ascii : ∀ c : Char, c.toNat < 128 → alnum c = c.isAlphanum

/-- The ASCII letters and digits only. -/
def WordData.ascii : WordData := ⟨Char.isAlphanum, fun _ _ => rfl⟩

/-- The character class `\w`. -/
def WordData.isWord (W : WordData) (c : Char) : Bool := W.alnum c || c == '_'

/-- The characters that match the character `c` of an expression with `re.IGNORECASE`, for an ASCII
`c` that is no capital letter. Four letters that are not ASCII match ASCII ones. -/
def ignoreCase (c : Char) : Char → Bool := fun d =>
  d == c || d == c.toUpper || (c == 'i' && (d.toNat == 0x130 || d.toNat == 0x131)) ||
    (c == 's' && d.toNat == 0x17F) || (c == 'k' && d.toNat == 0x212A)

namespace Regex

/-- The text `s`, without regard to case. -/
def text (s : String) : Lib.Regex := .concat (s.toList.map fun c => .char (ignoreCase c))

def texts (ss : List String) : Lib.Regex := .oneOf (ss.map text)

/-- `\s+`. -/
def spaces : Lib.Regex := .many isSpace 1 none

/-- The words of a phrase, with `\s+` between them. -/
def phrase (ss : List String) : Lib.Regex := .concat ((ss.map text).intersperse spaces)

/-- `[^.\n]{0,n}`. -/
def gap (n : Nat) : Lib.Regex := .many (fun c => c != '.' && c != '\n') 0 (some n)

/-- `\b(r)\b`. -/
def word (W : WordData) (r : Lib.Regex) : Lib.Regex :=
  .concat [.boundary W.isWord, r, .boundary W.isWord]

end Regex

/-! ## The pattern bank -/

inductive InjectionFlag where
  | instructionOverride | roleImpersonation | systemPromptLeak | jailbreakPersona | delimiterAbuse
  | policyOverride
  deriving DecidableEq, Repr

def InjectionFlag.value : InjectionFlag → String
  | .instructionOverride => "instruction_override"
  | .roleImpersonation => "role_impersonation"
  | .systemPromptLeak => "system_prompt_leak_attempt"
  | .jailbreakPersona => "jailbreak_persona"
  | .delimiterAbuse => "delimiter_abuse"
  | .policyOverride => "policy_override"

section Patterns

open Regex

variable (W : WordData)

def instructionOverride : Lib.Regex := .concat [
  word W (texts ["ignore", "disregard", "forget", "override"]), gap 40,
  word W (texts ["previous", "prior", "above", "earlier", "all"]), gap 30,
  word W (.concat [texts ["instruction", "prompt", "rule", "directive", "message"], .opt (text "s")])]

def roleImpersonation : Lib.Regex :=
  .alt (.concat [.alt .start (.char fun c => c == '\n' || c == '.' || c == '!' || c == '?'),
    .many isSpace 0 none, .oneOf (["system", "assistant", "user", "role"].map fun s =>
      .concat [text s, .many isSpace 0 none, text ":"])])
  (texts ["<|im_start|>", "<|im_end|>", "<|system|>", "[inst]", "[/inst]", "<<sys>>", "<</sys>>"])

/-- `(system\s+)?(prompt|instructions|rules)` after a determiner. -/
def promptOf (determiner : String) : Lib.Regex := .concat [text determiner, spaces,
  .opt (.concat [text "system", spaces]), texts ["prompt", "instructions", "rules"]]

def systemPromptLeak : Lib.Regex := .concat [
  word W (.alt (texts ["reveal", "show", "print", "repeat", "leak"]) (phrase ["tell", "me"])), gap 30,
  word W (.alt (promptOf "your") (promptOf "the"))]

def limits : List String := ["restrictions", "rules", "filters", "limits"]

def jailbreakPersona : Lib.Regex := .concat [
  word W (.oneOf [phrase ["you", "are", "now"], phrase ["act", "as"], phrase ["pretend", "to", "be"],
    phrase ["roleplay", "as"]]), gap 60,
  word W (.oneOf [text "dan",
    .concat [text "developer", .many (fun c => isSpace c || c == '-' || c == '_') 1 none, text "mode"],
    text "jailbroken", text "unrestricted",
    .concat [text "without", spaces, .opt (.concat [text "any", spaces]),
      .alt (texts limits) (.oneOf [.concat [text "filter", .opt (text "s")],
        .concat [text "limit", .opt (text "s")]])],
    .concat [text "with", spaces, text "no", spaces, texts limits],
    .concat [text "no", spaces, texts limits]])]

def delimiterAbuse : Lib.Regex :=
  .alt (.concat [text "```", texts ["system", "user", "assistant", "prompt", "instructions"],
    .boundary W.isWord])
  (texts ["<system>", "</system>", "<prompt>", "</prompt>"])

def policyOverride : Lib.Regex := .concat [
  word W (texts ["skip", "bypass", "override", "disable", "ignore"]), gap 30,
  word W (.oneOf [texts ["approval", "compliance", "policy", "policies", "review", "audit"],
    phrase ["human", "in", "the", "loop"], text "verification"])]

/-- `_PATTERNS`. -/
def PATTERNS : List (InjectionFlag × Rewrite) := [
  (.instructionOverride,
    ⟨instructionOverride W, "[flagged: instruction-override phrase removed]".toList⟩),
  (.roleImpersonation, ⟨roleImpersonation, " [flagged: role marker removed] ".toList⟩),
  (.systemPromptLeak,
    ⟨systemPromptLeak W, "[flagged: system-prompt-leak request removed]".toList⟩),
  (.jailbreakPersona, ⟨jailbreakPersona W, "[flagged: jailbreak persona removed]".toList⟩),
  (.delimiterAbuse, ⟨delimiterAbuse W, "[flagged: delimiter removed]".toList⟩),
  (.policyOverride, ⟨policyOverride W, "[flagged: policy-override phrase removed]".toList⟩)]

end Patterns

/-! ## The sanitiser -/

def BEGIN_UNTRUSTED : String := "<<<BEGIN_UNTRUSTED_CUSTOMER_CONTENT>>>"

def END_UNTRUSTED : String := "<<<END_UNTRUSTED_CUSTOMER_CONTENT>>>"

structure SanitizedText where
  original : String
  sanitized : String
  flags : List InjectionFlag

/-- One turn of the loop: a pattern on the body, and the flags that fired. -/
def applyPattern (acc : List Char × List InjectionFlag) (p : InjectionFlag × Rewrite) :
    List Char × List InjectionFlag :=
  let (newBody, n) := p.2.subn acc.1
  if n > 0 then (newBody, acc.2 ++ [p.1]) else acc

def sanitizeForPrompt (W : WordData) (text : String) (wrapWithMarkers : Bool) : SanitizedText :=
  if text = "" then ⟨"", "", []⟩
  else
    let (chars, fired) := (PATTERNS W).foldl applyPattern (text.toList, [])
    let body := String.ofList chars
    { original := text
      sanitized :=
        if wrapWithMarkers then BEGIN_UNTRUSTED ++ "\n" ++ body ++ "\n" ++ END_UNTRUSTED else body
      flags := fired.eraseDups }

/-- The bank as a chain of substitutions. -/
def bank (W : WordData) : List Rewrite := (PATTERNS W).map Prod.snd

theorem applyPattern_body (acc : List Char × List InjectionFlag) (p : InjectionFlag × Rewrite) :
    (applyPattern acc p).1 = (p.2.subn acc.1).1 := by
  unfold applyPattern
  simp only
  split
  · rfl
  · rename_i hn
    rw [Rewrite.subn_no_hit (by omega)]

theorem applyPatterns_body (patterns : List (InjectionFlag × Rewrite))
    (acc : List Char × List InjectionFlag) :
    (patterns.foldl applyPattern acc).1 = rewriteAll (patterns.map Prod.snd) acc.1 := by
  induction patterns generalizing acc with
  | nil => rfl
  | cons p patterns ih =>
    rw [List.foldl_cons, ih, applyPattern_body]
    rfl

/-! ## What is between the markers -/

/-- The markers are in the text once, at their ends of it. -/
structure Sealed (wrapped : String) : Prop where
  starts : ∃ post, wrapped = BEGIN_UNTRUSTED ++ post
  begin_once : ∀ pre post, wrapped = pre ++ BEGIN_UNTRUSTED ++ post → pre = ""
  ends : ∃ pre, wrapped = pre ++ END_UNTRUSTED
  end_once : ∀ pre post, wrapped = pre ++ END_UNTRUSTED ++ post → post = ""

/-- No marker is in the text. -/
def Unmarked (body : List Char) : Prop :=
  ¬ BEGIN_UNTRUSTED.toList <:+: body ∧ ¬ END_UNTRUSTED.toList <:+: body

/-- No replacement of the bank can bring about a marker. -/
theorem bank_foreign {W : WordData} {marker : String}
    (hm : marker = BEGIN_UNTRUSTED ∨ marker = END_UNTRUSTED) :
    ∀ w ∈ bank W, Foreign marker.toList w.replacement := by
  have hall : ([BEGIN_UNTRUSTED, END_UNTRUSTED].all fun m =>
      (bank .ascii).all fun w => foreignTest m.toList w.replacement) = true := by decide +kernel
  have hsame : (bank W).map Rewrite.replacement = (bank .ascii).map Rewrite.replacement := rfl
  intro w hw
  have hmem : w.replacement ∈ (bank .ascii).map Rewrite.replacement := by
    rw [← hsame]
    exact List.mem_map_of_mem hw
  obtain ⟨w', hw', heq⟩ := List.mem_map.mp hmem
  have htest := List.all_eq_true.mp (List.all_eq_true.mp hall marker (by simpa using hm)) w' hw'
  rw [heq] at htest
  exact foreignTest_iff.mp htest

/-- The wrapped text is sealed exactly if the body is unmarked. -/
theorem wrapped_sealed_iff (body : List Char) :
    Sealed (BEGIN_UNTRUSTED ++ "\n" ++ String.ofList body ++ "\n" ++ END_UNTRUSTED) ↔
      Unmarked body := by
  have hbegin : '\n' ∉ BEGIN_UNTRUSTED.toList := by decide +kernel
  have hend : '\n' ∉ END_UNTRUSTED.toList := by decide +kernel
  have hframe : ∀ pre m post : String,
      BEGIN_UNTRUSTED ++ "\n" ++ String.ofList body ++ "\n" ++ END_UNTRUSTED = pre ++ m ++ post →
        pre.toList ++ m.toList ++ post.toList =
          BEGIN_UNTRUSTED.toList ++ '\n' :: (body ++ '\n' :: END_UNTRUSTED.toList) := by
    intro pre m post h
    have h := congrArg String.toList h
    simp only [String.toList_append, String.toList_ofList] at h
    rw [← h]
    simp
  refine ⟨fun h => ⟨?_, ?_⟩, fun h => ⟨?_, ?_, ?_, ?_⟩⟩
  · rintro ⟨pre, post, rfl⟩
    have hnil := h.begin_once (BEGIN_UNTRUSTED ++ "\n" ++ String.ofList pre)
      (String.ofList post ++ "\n" ++ END_UNTRUSTED) (by simp [String.append_assoc])
    simp [BEGIN_UNTRUSTED] at hnil
  · rintro ⟨pre, post, rfl⟩
    have hnil := h.end_once (BEGIN_UNTRUSTED ++ "\n" ++ String.ofList pre)
      (String.ofList post ++ "\n" ++ END_UNTRUSTED) (by simp [String.append_assoc])
    simp [END_UNTRUSTED] at hnil
  · exact ⟨"\n" ++ String.ofList body ++ "\n" ++ END_UNTRUSTED, by simp [String.append_assoc]⟩
  · intro pre post hw
    have hnil := eq_nil_of_framed_front hbegin h.1 (by decide +kernel) (hframe _ _ _ hw)
    simpa using hnil
  · exact ⟨BEGIN_UNTRUSTED ++ "\n" ++ String.ofList body ++ "\n", rfl⟩
  · intro pre post hw
    have hnil := eq_nil_of_framed_back hend h.2 (by decide +kernel) (hframe _ _ _ hw)
    simpa using hnil

/-- The wrapped text: the bank on the text, between the markers. -/
theorem sanitize_wrapped (W : WordData) {text : String} (hne : text ≠ "") :
    (sanitizeForPrompt W text true).sanitized =
      BEGIN_UNTRUSTED ++ "\n" ++ String.ofList (rewriteAll (bank W) text.toList) ++ "\n" ++
        END_UNTRUSTED := by
  unfold sanitizeForPrompt
  rw [if_neg hne]
  simp only [if_true, applyPatterns_body]
  rfl

/-- No copy of a marker in the text is left as it is by the pattern bank. -/
def MarkersNeutralised (W : WordData) (text : String) : Prop :=
  ∀ marker, marker = BEGIN_UNTRUSTED ∨ marker = END_UNTRUSTED →
    ∀ pre post, text.toList = pre ++ marker.toList ++ post →
      ¬ Spared marker.toList (bank W) pre post

section Markers

variable {W : WordData} {text : String} {body : List Char}

theorem unmarked_iff :
    Unmarked (rewriteAll (bank W) text.toList) ↔ MarkersNeutralised W text := by
  have hmarker : ∀ marker, marker = BEGIN_UNTRUSTED ∨ marker = END_UNTRUSTED →
      (¬ marker.toList <:+: rewriteAll (bank W) text.toList ↔
        ∀ pre post, text.toList = pre ++ marker.toList ++ post →
          ¬ Spared marker.toList (bank W) pre post) := by
    intro marker hm
    rw [word_in_rewriteAll (bank_foreign hm)]
    grind
  refine ⟨fun h marker hm => (hmarker marker hm).mp ?_, fun h => ⟨?_, ?_⟩⟩
  · rcases hm with rfl | rfl
    · exact h.1
    · exact h.2
  · exact (hmarker _ (.inl rfl)).mpr (h _ (.inl rfl))
  · exact (hmarker _ (.inr rfl)).mpr (h _ (.inr rfl))

/-- A text without markers has none to neutralise. -/
theorem Unmarked.neutralised (h : Unmarked text.toList) : MarkersNeutralised W text := by
  rintro marker hm pre post htext -
  rcases hm with rfl | rfl
  · exact h.1 ⟨pre, post, htext.symm⟩
  · exact h.2 ⟨pre, post, htext.symm⟩

/-- Line breaks at the ends bring no marker about. -/
theorem Unmarked.newlines (h : Unmarked body) :
    Unmarked ("\n".toList ++ body ++ "\n".toList) := by
  have hsplit : ∀ marker : String, '\n' ∉ marker.toList → ¬ marker.toList <:+: [] →
      ¬ marker.toList <:+: body → ¬ marker.toList <:+: "\n".toList ++ body ++ "\n".toList := by
    intro marker hnl hne hbody hin
    change marker.toList <:+: '\n' :: body ++ '\n' :: [] at hin
    rcases infix_of_infix_separated hnl hin with hin | hin
    · have hin : marker.toList <:+: [] ++ '\n' :: body := hin
      rcases infix_of_infix_separated hnl hin with hin | hin
      · exact hne hin
      · exact hbody hin
    · exact hne hin
  exact ⟨hsplit _ (by decide +kernel) (by decide +kernel) h.1,
    hsplit _ (by decide +kernel) (by decide +kernel) h.2⟩

end Markers
end PennyCore
