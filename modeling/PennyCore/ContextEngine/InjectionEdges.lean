import PennyCore.Lib.RegexEdges
import PennyCore.ContextEngine.PromptInjection

/-!
# The patterns at the edges of words

Four of the patterns are words with gaps between them (`instructionOverride_eq` and so on). The matches
of these words and of all patterns keep to the edges of words, and no replacement text begins or ends
inside one (`bank_guarded`). So a passage that a substitution leaves alone is a match after it exactly if
it was one before (`Lib.Carried.matches_iff`).
-/

namespace PennyCore

open Lib

/-- The four letters that are not ASCII and match ASCII ones are letters. -/
def WordData.Folds (W : WordData) : Prop :=
  ∀ c : Char, c.toNat = 0x130 ∨ c.toNat = 0x131 ∨ c.toNat = 0x17F ∨ c.toNat = 0x212A →
    W.alnum c = true

/-! ## The patterns keep to the edges of words -/

def lowercase : List Char := "abcdefghijklmnopqrstuvwxyz".toList

def symbols : List Char := "`<>[]:\n.!?".toList

section

variable {W : WordData} {c d : Char}

theorem isWord_ascii (hd : d.toNat < 128) : W.isWord d = (d.isAlphanum || d == '_') := by
  rw [WordData.isWord, W.alnum_ascii d hd]

/-- An ASCII character that is in no word. -/
def muteChar (c : Char) : Bool := decide (c.toNat < 128) && !(c.isAlphanum || c == '_')

theorem isWord_of_muteChar (h : muteChar c = true) : W.isWord c = false := by
  simp only [muteChar, Bool.and_eq_true, decide_eq_true_eq, Bool.not_eq_true'] at h
  rw [isWord_ascii h.1, h.2]

/-- What matches a letter is part of a word. -/
theorem word_of_lowercase (hW : W.Folds) (hc : c ∈ lowercase) (h : ignoreCase c d = true) :
    W.isWord d = true := by
  have hascii : (lowercase.all fun c => (decide (c.toNat < 128) && c.isAlphanum) &&
      (decide (c.toUpper.toNat < 128) && c.toUpper.isAlphanum)) = true := by decide
  have hc := List.all_eq_true.mp hascii c hc
  simp only [Bool.and_eq_true, decide_eq_true_eq] at hc
  obtain ⟨⟨hlow, halnum⟩, hup, hualnum⟩ := hc
  have hfold : ∀ {d : Char}, d.toNat = 0x130 ∨ d.toNat = 0x131 ∨ d.toNat = 0x17F ∨ d.toNat = 0x212A →
      W.isWord d = true := fun {d} hd => by rw [WordData.isWord, hW d hd, Bool.true_or]
  simp only [ignoreCase, Bool.or_eq_true, Bool.and_eq_true, beq_iff_eq] at h
  rcases h with (((rfl | rfl) | ⟨_, h | h⟩) | ⟨_, h⟩) | ⟨_, h⟩
  · rw [isWord_ascii hlow, halnum, Bool.true_or]
  · rw [isWord_ascii hup, hualnum, Bool.true_or]
  · exact hfold (.inl h)
  · exact hfold (.inr (.inl h))
  · exact hfold (.inr (.inr (.inl h)))
  · exact hfold (.inr (.inr (.inr h)))

/-- A symbol matches nothing but itself. -/
theorem symbol_only (hc : c ∈ symbols) (h : ignoreCase c d = true) : d = c := by
  have hall : (symbols.all fun c => c.toUpper == c && !(c == 'i') && !(c == 's') && !(c == 'k')) =
      true := by decide
  have hc := List.all_eq_true.mp hall c hc
  simp only [Bool.and_eq_true, Bool.not_eq_true'] at hc
  obtain ⟨⟨⟨hup, hi⟩, hs⟩, hk⟩ := hc
  have hup : c.toUpper = c := by simpa using hup
  simpa [ignoreCase, hup, hi, hs, hk] using h

/-- What matches a symbol is in no word. -/
theorem not_word_of_symbol (hc : c ∈ symbols) (h : ignoreCase c d = true) : W.isWord d = false := by
  have hmute : symbols.all muteChar = true := by decide
  rw [symbol_only hc h]
  exact isWord_of_muteChar (List.all_eq_true.mp hmute c hc)

end

section Texts

variable {P : Char → Prop} {s : String}

theorem text_starts (h : ∃ c ∈ s.toList.head?, ∀ d, ignoreCase c d = true → P d) :
    (Regex.text s).Starts P := by
  obtain ⟨c, hc, hP⟩ := h
  obtain ⟨cs, hcs⟩ : ∃ cs, s.toList = c :: cs := by
    cases hs : s.toList with
    | nil =>
      rw [hs] at hc
      cases hc
    | cons d cs =>
      rw [hs] at hc
      cases hc
      exact ⟨cs, rfl⟩
  rw [Regex.text, hcs]
  exact .seq (.char hP)

theorem concat_finishes {cs : List Char} (h : ∃ c ∈ cs.getLast?, ∀ d, ignoreCase c d = true → P d) :
    (Lib.Regex.concat (cs.map fun c => .char (ignoreCase c))).Finishes P := by
  induction cs with
  | nil =>
    obtain ⟨c, hc, _⟩ := h
    cases hc
  | cons c cs ih =>
    cases cs with
    | nil =>
      obtain ⟨d, hd, hP⟩ := h
      cases hd
      exact .last (.char hP)
    | cons d cs =>
      refine .seq (ih ?_)
      rwa [List.getLast?_cons_cons] at h

theorem text_finishes (h : ∃ c ∈ s.toList.getLast?, ∀ d, ignoreCase c d = true → P d) :
    (Regex.text s).Finishes P := concat_finishes h

end Texts

/-- The first character of each text is in the list. -/
def headsIn (cs : List Char) (texts : List String) : Bool :=
  texts.all fun s => s.toList.head?.any cs.contains

/-- The last character of each text is in the list. -/
def lastsIn (cs : List Char) (texts : List String) : Bool :=
  texts.all fun s => s.toList.getLast?.any cs.contains

/-! ## The words of the patterns -/

/-- `[^.\n]`. -/
def inGap (c : Char) : Bool := c != '.' && c != '\n'

def overrideVerb : Lib.Regex := Regex.texts ["ignore", "disregard", "forget", "override"]

def overrideScope : Lib.Regex := Regex.texts ["previous", "prior", "above", "earlier", "all"]

def overrideObject : Lib.Regex := .concat
  [Regex.texts ["instruction", "prompt", "rule", "directive", "message"], .opt (Regex.text "s")]

def leakRequest : Lib.Regex :=
  .alt (Regex.texts ["reveal", "show", "print", "repeat", "leak"]) (Regex.phrase ["tell", "me"])

def leakObject : Lib.Regex := .alt (promptOf "your") (promptOf "the")

def personaCall : Lib.Regex := .oneOf [Regex.phrase ["you", "are", "now"], Regex.phrase ["act", "as"],
  Regex.phrase ["pretend", "to", "be"], Regex.phrase ["roleplay", "as"]]

def personaRole : Lib.Regex := .oneOf [Regex.text "dan",
  .concat [Regex.text "developer", .many (fun c => isSpace c || c == '-' || c == '_') 1 none,
    Regex.text "mode"],
  Regex.text "jailbroken", Regex.text "unrestricted",
  .concat [Regex.text "without", Regex.spaces, .opt (.concat [Regex.text "any", Regex.spaces]),
    .alt (Regex.texts limits) (.oneOf [.concat [Regex.text "filter", .opt (Regex.text "s")],
      .concat [Regex.text "limit", .opt (Regex.text "s")]])],
  .concat [Regex.text "with", Regex.spaces, Regex.text "no", Regex.spaces, Regex.texts limits],
  .concat [Regex.text "no", Regex.spaces, Regex.texts limits]]

def policyVerb : Lib.Regex := Regex.texts ["skip", "bypass", "override", "disable", "ignore"]

def policyObject : Lib.Regex := .oneOf
  [Regex.texts ["approval", "compliance", "policy", "policies", "review", "audit"],
    Regex.phrase ["human", "in", "the", "loop"], Regex.text "verification"]

def patternWords : List Lib.Regex := [overrideVerb, overrideScope, overrideObject, leakRequest, leakObject,
  personaCall, personaRole, policyVerb, policyObject]

theorem patternWords_plain : ∀ r ∈ patternWords, r.plain = true := by
  decide

/-- The texts that words of the patterns begin or end with. -/
def wordTexts : List String :=
  ["ignore", "disregard", "forget", "override", "previous", "prior", "above", "earlier", "all",
    "instruction", "prompt", "rule", "directive", "message", "s", "reveal", "show", "print", "repeat",
    "leak", "tell", "me", "your", "the", "instructions", "rules", "you", "now", "act", "as", "pretend",
    "be", "roleplay", "dan", "developer", "mode", "jailbroken", "unrestricted", "without", "with", "no",
    "restrictions", "filters", "limits", "filter", "limit", "skip", "bypass", "disable", "approval",
    "compliance", "policy", "policies", "review", "audit", "human", "loop", "verification", "system",
    "user", "assistant"]

theorem wordTexts_letters : ∀ s ∈ wordTexts, s.toList.head?.any lowercase.contains = true ∧
    s.toList.getLast?.any lowercase.contains = true := by
  decide

section Patterns

variable {W : WordData}

theorem instructionOverride_eq : instructionOverride W = .concat [Regex.word W overrideVerb,
    .many inGap 0 (some 40), Regex.word W overrideScope, .many inGap 0 (some 30),
    Regex.word W overrideObject] := rfl

theorem systemPromptLeak_eq : systemPromptLeak W = .concat [Regex.word W leakRequest,
    .many inGap 0 (some 30), Regex.word W leakObject] := rfl

theorem jailbreakPersona_eq : jailbreakPersona W = .concat [Regex.word W personaCall,
    .many inGap 0 (some 60), Regex.word W personaRole] := rfl

theorem policyOverride_eq : policyOverride W = .concat [Regex.word W policyVerb,
    .many inGap 0 (some 30), Regex.word W policyObject] := rfl

end Patterns

/-! ## Words and patterns between edges -/

section Edges

variable {W : WordData} {P : Char → Prop} {cs : List Char} {S : List String} {r : Lib.Regex}

/-- A character of an option that passes a membership test. -/
theorem exists_of_any_contains {o : Option Char} (h : o.any cs.contains = true) :
    ∃ c ∈ o, c ∈ cs := by
  cases o with
  | none => cases h
  | some c => exact ⟨c, rfl, by simpa using h⟩

theorem texts_starts (h : headsIn cs S = true)
    (hP : ∀ c ∈ cs, ∀ d, ignoreCase c d = true → P d) : (Regex.texts S).Starts P := by
  refine .oneOf fun r hr => ?_
  obtain ⟨s, hs, rfl⟩ := List.mem_map.mp hr
  obtain ⟨c, hc, hin⟩ := exists_of_any_contains (List.all_eq_true.mp h s hs)
  exact text_starts ⟨c, hc, hP c hin⟩

theorem texts_finishes (h : lastsIn cs S = true)
    (hP : ∀ c ∈ cs, ∀ d, ignoreCase c d = true → P d) : (Regex.texts S).Finishes P := by
  refine .oneOf fun r hr => ?_
  obtain ⟨s, hs, rfl⟩ := List.mem_map.mp hr
  obtain ⟨c, hc, hin⟩ := exists_of_any_contains (List.all_eq_true.mp h s hs)
  exact text_finishes ⟨c, hc, hP c hin⟩

theorem letters_start_one (hW : W.Folds) {s : String} (hs : s ∈ wordTexts) :
    (Regex.text s).Starts (W.isWord · = true) := by
  obtain ⟨c, hc, hin⟩ := exists_of_any_contains (wordTexts_letters s hs).1
  exact text_starts ⟨c, hc, fun _ => word_of_lowercase hW hin⟩

theorem letters_finish_one (hW : W.Folds) {s : String} (hs : s ∈ wordTexts) :
    (Regex.text s).Finishes (W.isWord · = true) := by
  obtain ⟨c, hc, hin⟩ := exists_of_any_contains (wordTexts_letters s hs).2
  exact text_finishes ⟨c, hc, fun _ => word_of_lowercase hW hin⟩

theorem letters_start (hW : W.Folds) (hS : ∀ s ∈ S, s ∈ wordTexts) :
    (Regex.texts S).Starts (W.isWord · = true) := by
  refine .oneOf fun r hr => ?_
  obtain ⟨s, hs, rfl⟩ := List.mem_map.mp hr
  exact letters_start_one hW (hS s hs)

theorem letters_finish (hW : W.Folds) (hS : ∀ s ∈ S, s ∈ wordTexts) :
    (Regex.texts S).Finishes (W.isWord · = true) := by
  refine .oneOf fun r hr => ?_
  obtain ⟨s, hs, rfl⟩ := List.mem_map.mp hr
  exact letters_finish_one hW (hS s hs)

theorem symbols_start (h : headsIn symbols S = true) :
    (Regex.texts S).Starts (W.isWord · = false) :=
  texts_starts h fun _ hc _ => not_word_of_symbol hc

theorem symbols_finish (h : lastsIn symbols S = true) :
    (Regex.texts S).Finishes (W.isWord · = false) :=
  texts_finishes h fun _ hc _ => not_word_of_symbol hc

/-- A text in brackets of any kind. -/
theorem symbols_edged (hp : (Regex.texts S).plain = true)
    (hhead : headsIn symbols S = true) (hlast : lastsIn symbols S = true) :
    (Regex.texts S).Edged W.isWord :=
  ⟨.of_plain hp (symbols_start hhead), .of_plain hp (symbols_finish hlast)⟩

/-- A word that begins and ends with letters. -/
theorem word_edged (hr : r ∈ patternWords) (hstart : r.Starts (W.isWord · = true))
    (hfinish : r.Finishes (W.isWord · = true)) : (Regex.word W r).Edged W.isWord :=
  ⟨.bounded (patternWords_plain r hr) hstart, .seq (.bounded (patternWords_plain r hr) hfinish)⟩

theorem texts_edged (hW : W.Folds) (hr : Regex.texts S ∈ patternWords) (hS : ∀ s ∈ S, s ∈ wordTexts) :
    (Regex.word W (Regex.texts S)).Edged W.isWord :=
  word_edged hr (letters_start hW hS) (letters_finish hW hS)

theorem overrideVerb_edged (hW : W.Folds) : (Regex.word W overrideVerb).Edged W.isWord :=
  texts_edged hW (by simp [patternWords, overrideVerb]) (by simp [wordTexts])

theorem overrideScope_edged (hW : W.Folds) : (Regex.word W overrideScope).Edged W.isWord :=
  texts_edged hW (by simp [patternWords, overrideScope]) (by simp [wordTexts])

theorem overrideObject_edged (hW : W.Folds) : (Regex.word W overrideObject).Edged W.isWord :=
  word_edged (by simp [patternWords]) (.seq (letters_start hW (by simp [wordTexts])))
    (.last_opt (letters_finish hW (by simp [wordTexts])) (letters_finish_one hW (by simp [wordTexts])))

theorem leakRequest_edged (hW : W.Folds) : (Regex.word W leakRequest).Edged W.isWord := by
  refine word_edged (by simp [patternWords]) (.alt (letters_start hW (by simp [wordTexts])) (.seq ?_))
    (.alt (letters_finish hW (by simp [wordTexts])) (.seq (.seq (.last ?_))))
  · exact letters_start_one hW (by simp [wordTexts])
  · exact letters_finish_one hW (by simp [wordTexts])

theorem leakObject_edged (hW : W.Folds) : (Regex.word W leakObject).Edged W.isWord := by
  have hprompt : ∀ determiner, (promptOf determiner).Finishes (W.isWord · = true) := fun determiner =>
    .seq (.seq (.seq (.last (letters_finish hW (by simp [wordTexts])))))
  refine word_edged (by simp [patternWords]) (.alt (.seq ?_) (.seq ?_)) (.alt (hprompt _) (hprompt _))
  · exact letters_start_one hW (by simp [wordTexts])
  · exact letters_start_one hW (by simp [wordTexts])

theorem personaCall_edged (hW : W.Folds) : (Regex.word W personaCall).Edged W.isWord := by
  refine word_edged (by simp [patternWords]) (.oneOf fun r hr => ?_) (.oneOf fun r hr => ?_)
  · simp only [List.mem_cons, List.not_mem_nil, or_false] at hr
    rcases hr with rfl | rfl | rfl | rfl <;> exact .seq (letters_start_one hW (by simp [wordTexts]))
  · simp only [List.mem_cons, List.not_mem_nil, or_false] at hr
    rcases hr with rfl | rfl | rfl | rfl
    · exact .seq (.seq (.seq (.seq (.last (letters_finish_one hW (by simp [wordTexts]))))))
    · exact .seq (.seq (.last (letters_finish_one hW (by simp [wordTexts]))))
    · exact .seq (.seq (.seq (.seq (.last (letters_finish_one hW (by simp [wordTexts]))))))
    · exact .seq (.seq (.last (letters_finish_one hW (by simp [wordTexts]))))

theorem personaRole_edged (hW : W.Folds) : (Regex.word W personaRole).Edged W.isWord := by
  have hlimits : (Regex.texts limits).Finishes (W.isWord · = true) :=
    letters_finish hW (by simp [limits, wordTexts])
  have hone : ∀ {s : String}, s ∈ wordTexts → (Regex.text s).Finishes (W.isWord · = true) :=
    letters_finish_one hW
  refine word_edged (by simp [patternWords]) (.oneOf fun r hr => ?_) (.oneOf fun r hr => ?_)
  · simp only [List.mem_cons, List.not_mem_nil, or_false] at hr
    rcases hr with rfl | rfl | rfl | rfl | rfl | rfl | rfl
    · exact letters_start_one hW (by simp [wordTexts])
    · exact .seq (letters_start_one hW (by simp [wordTexts]))
    · exact letters_start_one hW (by simp [wordTexts])
    · exact letters_start_one hW (by simp [wordTexts])
    · exact .seq (letters_start_one hW (by simp [wordTexts]))
    · exact .seq (letters_start_one hW (by simp [wordTexts]))
    · exact .seq (letters_start_one hW (by simp [wordTexts]))
  · simp only [List.mem_cons, List.not_mem_nil, or_false] at hr
    rcases hr with rfl | rfl | rfl | rfl | rfl | rfl | rfl
    · exact hone (by simp [wordTexts])
    · exact .seq (.seq (.last (hone (by simp [wordTexts]))))
    · exact hone (by simp [wordTexts])
    · exact hone (by simp [wordTexts])
    · refine .seq (.seq (.seq (.last (.alt hlimits (.alt ?_ ?_)))))
      · exact .last_opt (hone (by simp [wordTexts])) (hone (by simp [wordTexts]))
      · exact .last_opt (hone (by simp [wordTexts])) (hone (by simp [wordTexts]))
    · exact .seq (.seq (.seq (.seq (.last hlimits))))
    · exact .seq (.seq (.last hlimits))

theorem policyVerb_edged (hW : W.Folds) : (Regex.word W policyVerb).Edged W.isWord :=
  texts_edged hW (by simp [patternWords, policyVerb]) (by simp [wordTexts])

theorem policyObject_edged (hW : W.Folds) : (Regex.word W policyObject).Edged W.isWord := by
  refine word_edged (by simp [patternWords]) (.oneOf fun r hr => ?_) (.oneOf fun r hr => ?_)
  · simp only [List.mem_cons, List.not_mem_nil, or_false] at hr
    rcases hr with rfl | rfl | rfl
    · exact letters_start hW (by simp [wordTexts])
    · exact .seq (letters_start_one hW (by simp [wordTexts]))
    · exact letters_start_one hW (by simp [wordTexts])
  · simp only [List.mem_cons, List.not_mem_nil, or_false] at hr
    rcases hr with rfl | rfl | rfl
    · exact letters_finish hW (by simp [wordTexts])
    · exact .seq (.seq (.seq (.seq (.seq (.seq (.last
        (letters_finish_one hW (by simp [wordTexts]))))))))
    · exact letters_finish_one hW (by simp [wordTexts])

theorem instructionOverride_edged (hW : W.Folds) : (instructionOverride W).Edged W.isWord :=
  ⟨.seq (overrideVerb_edged hW).head, .seq (.seq (.seq (.seq (.last (overrideObject_edged hW).tail))))⟩

theorem roleImpersonation_edged : roleImpersonation.Edged W.isWord := by
  have hmarker : (Lib.Regex.seq (.many isSpace 0 none) (.seq
      (.oneOf (["system", "assistant", "user", "role"].map fun s =>
        .concat [Regex.text s, .many isSpace 0 none, Regex.text ":"])) .empty)).Finishes
      (W.isWord · = false) := by
    refine .seq (.last (.oneOf fun r hr => ?_))
    obtain ⟨s, _, rfl⟩ := List.mem_map.mp hr
    exact .seq (.seq (.last (symbols_finish (S := [":"]) (by decide))))
  have htags : (Regex.texts ["<|im_start|>", "<|im_end|>", "<|system|>", "[inst]", "[/inst]", "<<sys>>",
      "<</sys>>"]).Edged W.isWord :=
    symbols_edged (by decide) (by decide) (by decide)
  refine ⟨.alt (.line (fun c hc => ?_) (by decide) hmarker.solid) htags.head,
    .alt (.seq (.of_plain (by decide) hmarker)) htags.tail⟩
  have hline : (['\n', '.', '!', '?'].all fun c => symbols.contains c && ignoreCase c c) = true := by
    decide
  have hin : c ∈ ['\n', '.', '!', '?'] := by simpa [or_assoc] using hc
  have hboth := List.all_eq_true.mp hline c hin
  rw [Bool.and_eq_true] at hboth
  exact not_word_of_symbol (by simpa using hboth.1) hboth.2

theorem systemPromptLeak_edged (hW : W.Folds) : (systemPromptLeak W).Edged W.isWord :=
  ⟨.seq (leakRequest_edged hW).head, .seq (.seq (.last (leakObject_edged hW).tail))⟩

theorem jailbreakPersona_edged (hW : W.Folds) : (jailbreakPersona W).Edged W.isWord :=
  ⟨.seq (personaCall_edged hW).head, .seq (.seq (.last (personaRole_edged hW).tail))⟩

theorem delimiterAbuse_edged (hW : W.Folds) : (delimiterAbuse W).Edged W.isWord := by
  have htags : (Regex.texts ["<system>", "</system>", "<prompt>", "</prompt>"]).Edged W.isWord :=
    symbols_edged (by decide) (by decide) (by decide)
  refine ⟨.alt (.seq (.of_plain (by decide) ?_)) htags.head,
    .alt (.seq (.bounded (by decide) (letters_finish hW (by simp [wordTexts])))) htags.tail⟩
  exact symbols_start (S := ["```"]) (by decide)

theorem policyOverride_edged (hW : W.Folds) : (policyOverride W).Edged W.isWord :=
  ⟨.seq (policyVerb_edged hW).head, .seq (.seq (.last (policyObject_edged hW).tail))⟩

/-- No replacement begins or ends inside a word. -/
theorem replacement_mute {w : Rewrite} (hw : w ∈ bank W) : Mute W.isWord w.replacement := by
  have hall : (((bank .ascii).map Rewrite.replacement).all fun t => !t.isEmpty &&
      t.head?.all muteChar && t.getLast?.all muteChar) = true := by decide
  have hsame : (bank W).map Rewrite.replacement = (bank .ascii).map Rewrite.replacement := rfl
  have htest := List.all_eq_true.mp hall w.replacement (hsame ▸ List.mem_map_of_mem hw)
  simp only [Bool.and_eq_true, Bool.not_eq_true', List.isEmpty_eq_false_iff,
    Option.all_eq_true] at htest
  obtain ⟨⟨hne, hhead⟩, hlast⟩ := htest
  exact ⟨hne, fun c hc => isWord_of_muteChar (hhead c hc), fun c hc => isWord_of_muteChar (hlast c hc)⟩

theorem bank_guarded (hW : W.Folds) : ∀ w ∈ bank W, w.Guarded W.isWord := by
  intro w hw
  refine ⟨?_, replacement_mute hw⟩
  simp only [bank, PATTERNS, List.map_cons, List.map_nil, List.mem_cons, List.not_mem_nil,
    or_false] at hw
  rcases hw with rfl | rfl | rfl | rfl | rfl | rfl
  · exact instructionOverride_edged hW
  · exact roleImpersonation_edged
  · exact systemPromptLeak_edged hW
  · exact jailbreakPersona_edged hW
  · exact delimiterAbuse_edged hW
  · exact policyOverride_edged hW

end Edges

end PennyCore
