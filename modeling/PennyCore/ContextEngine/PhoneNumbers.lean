import PennyCore.ContextEngine.Linking

/-!
# Phone numbers

A normalized phone is to be the key under which all spellings of one number meet: digits with at most
one plus sign before them. It is the digits and signs of the raw text from the first digit on, behind a
plus sign if the trimmed text begins with one (`normalizePhone_eq`). So it is canonical exactly on the
texts with no sign after the first digit, no sign without a digit, and no sign behind punctuation.
-/

namespace PennyCore

open Lib

/-- The characters of the text that are digits or plus signs. -/
def digitsAndSigns (raw : String) : List Char := raw.toList.filter fun c => isDecimal c || c = '+'

/-- The digits and signs from the first digit on. -/
def fromFirstDigit (raw : String) : List Char := (digitsAndSigns raw).dropWhile (· = '+')

/-- The trimmed text begins with a plus sign. -/
def Signed (raw : String) : Prop := (strip raw).toList.head? = some '+'

instance (raw : String) : Decidable (Signed raw) :=
  inferInstanceAs (Decidable ((strip raw).toList.head? = some '+'))

/-- Nothing, or one or more digits with at most a plus sign before them. -/
def PhoneShape (v : String) : Prop :=
  v = "" ∨ ∃ digits : List Char, digits ≠ [] ∧ (∀ c ∈ digits, isDecimal c = true) ∧
    (v.toList = digits ∨ v.toList = '+' :: digits)

/-- No plus sign of the text stands after a digit, and a text that begins with one has a digit. -/
structure SignLeads (raw : String) : Prop where
  noneAfter : raw.toList.Pairwise fun c d => isDecimal c = true → d ≠ '+'
  digit : Signed raw → ∃ c ∈ raw.toList, isDecimal c = true

/-- The canonical phone of a text, and that it is the one of another spelling. -/
structure PhoneCanonical (D : CaseData) (raw raw' : String) : Prop where
  shape : PhoneShape (normalizeIdentityValue D .phone raw)
  again : normalizeIdentityValue D .phone (normalizeIdentityValue D .phone raw) =
    normalizeIdentityValue D .phone raw
  spelling : digitsAndSigns raw = digitsAndSigns raw' →
    normalizeIdentityValue D .phone raw = normalizeIdentityValue D .phone raw'

section

variable {D : CaseData} {raw raw' : String}

theorem isDecimal_plus : isDecimal '+' = false := by decide

/-- White space is neither a digit nor a sign. -/
theorem digitsAndSigns_strip (raw : String) : digitsAndSigns (strip raw) = digitsAndSigns raw := by
  unfold digitsAndSigns strip
  rw [String.toList_ofList]
  refine filter_stripChars fun c hc => ?_
  rcases Bool.or_eq_true_iff.mp hc with hdigit | hsign
  · exact isSpace_of_isDecimal hdigit
  · rw [of_decide_eq_true hsign]
    rfl

theorem mem_digitsAndSigns {c : Char} (hc : c ∈ digitsAndSigns raw) :
    isDecimal c = true ∨ c = '+' := by
  have hf := (List.mem_filter.mp hc).2
  simpa using hf

theorem mem_fromFirstDigit {c : Char} (hc : c ∈ fromFirstDigit raw) :
    isDecimal c = true ∨ c = '+' :=
  mem_digitsAndSigns ((List.dropWhile_sublist _).subset hc)

/-- What is left of the signs in front begins with a digit. -/
theorem head_fromFirstDigit : (fromFirstDigit raw).head? ≠ some '+' := by
  intro hhead
  have hnot := List.head?_dropWhile_not (fun c => decide (c = '+')) (digitsAndSigns raw)
  unfold fromFirstDigit at hhead
  rw [hhead] at hnot
  exact absurd hnot (by decide)

theorem fromFirstDigit_ne_nil : fromFirstDigit raw ≠ [] ↔ ∃ c ∈ raw.toList, isDecimal c = true := by
  unfold fromFirstDigit
  rw [ne_eq, List.dropWhile_eq_nil_iff]
  constructor
  · intro h
    obtain ⟨c, hc⟩ := not_forall.mp h
    obtain ⟨hmem, hsign⟩ := Classical.not_imp.mp hc
    refine ⟨c, (List.mem_filter.mp hmem).1, (mem_digitsAndSigns hmem).resolve_right ?_⟩
    simpa using hsign
  · rintro ⟨c, hc, hdigit⟩ hall
    have hsign := hall c (List.mem_filter.mpr ⟨hc, by rw [hdigit]; rfl⟩)
    rw [of_decide_eq_true hsign, isDecimal_plus] at hdigit
    cases hdigit

/-- No sign is left exactly if none stands after a digit. -/
theorem plus_fromFirstDigit :
    '+' ∉ fromFirstDigit raw ↔ raw.toList.Pairwise fun c d => isDecimal c = true → d ≠ '+' := by
  unfold fromFirstDigit digitsAndSigns
  induction raw.toList with
  | nil => simp
  | cons c cs ih =>
    rw [List.pairwise_cons]
    by_cases hdigit : isDecimal c = true
    · have hne : c ≠ '+' := by
        rintro rfl
        rw [isDecimal_plus] at hdigit
        cases hdigit
      rw [List.filter_cons_of_pos (by rw [hdigit]; rfl),
        List.dropWhile_cons_of_neg (by simpa using hne)]
      constructor
      · intro h
        have hnone : ∀ d ∈ cs, d ≠ '+' := by
          rintro d hd rfl
          exact h (List.mem_cons_of_mem c (List.mem_filter.mpr ⟨hd, by decide⟩))
        exact ⟨fun d hd _ => hnone d hd, List.pairwise_of_forall_mem_list fun _ _ d hd _ => hnone d hd⟩
      · rintro ⟨hnone, -⟩ hmem
        rcases List.mem_cons.mp hmem with heq | hmem
        · exact hne heq.symm
        · exact hnone '+' (List.mem_filter.mp hmem).1 hdigit rfl
    · have hfirst : ∀ d ∈ cs, isDecimal c = true → d ≠ '+' := fun _ _ hd => absurd hd hdigit
      by_cases hsign : c = '+'
      · rw [List.filter_cons_of_pos (by simp [hsign]),
          List.dropWhile_cons_of_pos (by simpa using hsign), ih]
        exact ⟨fun h => ⟨hfirst, h⟩, And.right⟩
      · rw [List.filter_cons_of_neg (by simp [hdigit, hsign]), ih]
        exact ⟨fun h => ⟨hfirst, h⟩, And.right⟩

/-- The normalized phone of every text, blank or not. -/
theorem normalizePhone_eq (D : CaseData) (raw : String) :
    (normalizeIdentityValue D .phone raw).toList =
      (if Signed raw then ['+'] else []) ++ fromFirstDigit raw := by
  unfold normalizeIdentityValue
  by_cases hblank : strip raw = ""
  · have hsigned : ¬ Signed raw := by
      unfold Signed
      rw [hblank]
      decide
    have hnil : digitsAndSigns raw = [] := by
      rw [← digitsAndSigns_strip, hblank]
      rfl
    simp only [if_neg hsigned, fromFirstDigit, hnil, hblank]
    rfl
  · simp only [if_neg hblank, normalizePhone, String.toList_append, String.toList_ofList]
    have hrest : ((strip raw).toList.filter fun c => isDecimal c || c = '+') = digitsAndSigns raw :=
      digitsAndSigns_strip raw
    rw [hrest]
    by_cases hsigned : Signed raw
    · rw [if_pos hsigned, if_pos (show (strip raw).toList.head? = some '+' from hsigned)]
      rfl
    · rw [if_neg hsigned, if_neg (show ¬ (strip raw).toList.head? = some '+' from hsigned)]
      rfl

/-- The sign in front of a normalized phone is the one of the text. -/
theorem head_normalized :
    (normalizeIdentityValue D .phone raw).toList.head? = some '+' ↔ Signed raw := by
  rw [normalizePhone_eq]
  by_cases hsigned : Signed raw
  · simp [hsigned]
  · simp [hsigned, head_fromFirstDigit]

/-- Normalizing again changes nothing. -/
theorem normalizePhone_again (D : CaseData) (raw : String) :
    normalizeIdentityValue D .phone (normalizeIdentityValue D .phone raw) =
      normalizeIdentityValue D .phone raw := by
  have hchars : ∀ c ∈ (normalizeIdentityValue D .phone raw).toList, isDecimal c = true ∨ c = '+' := by
    intro c hc
    rw [normalizePhone_eq] at hc
    rcases List.mem_append.mp hc with hc | hc
    · split at hc
      · exact .inr (List.mem_singleton.mp hc)
      · cases hc
    · exact mem_fromFirstDigit hc
  have hstrip := strip_of_digitsAndSigns hchars
  have hsigned : Signed (normalizeIdentityValue D .phone raw) ↔ Signed raw := by
    rw [Signed, hstrip, head_normalized]
  have hall : digitsAndSigns (normalizeIdentityValue D .phone raw) =
      (normalizeIdentityValue D .phone raw).toList := by
    refine List.filter_eq_self.mpr fun c hc => ?_
    simpa using hchars c hc
  -- the signs in front are dropped again, and then nothing
  have hdrop : fromFirstDigit (normalizeIdentityValue D .phone raw) = fromFirstDigit raw := by
    have hself : (fromFirstDigit raw).dropWhile (· = '+') = fromFirstDigit raw :=
      List.dropWhile_idempotent _ _
    rw [fromFirstDigit, hall, normalizePhone_eq]
    by_cases hs : Signed raw
    · rw [if_pos hs, List.cons_append, List.nil_append, List.dropWhile_cons_of_pos (by decide), hself]
    · rw [if_neg hs, List.nil_append, hself]
  apply String.toList_injective
  rw [normalizePhone_eq D (normalizeIdentityValue D .phone raw), hdrop, normalizePhone_eq]
  by_cases hs : Signed raw
  · rw [if_pos hs, if_pos (hsigned.mpr hs)]
  · rw [if_neg hs, if_neg fun h => hs (hsigned.mp h)]

theorem phoneShape_iff : PhoneShape (normalizeIdentityValue D .phone raw) ↔ SignLeads raw := by
  constructor
  · intro hshape
    rcases hshape with hempty | ⟨digits, hne, hdigits, hlist⟩
    · -- nothing is left, so there is neither a sign in front nor a digit
      have hlist := normalizePhone_eq D raw
      rw [hempty] at hlist
      obtain ⟨hsign, hnil⟩ := List.append_eq_nil_iff.mp hlist.symm
      refine ⟨plus_fromFirstDigit.mp (by rw [hnil]; exact List.not_mem_nil), fun hs => ?_⟩
      rw [if_pos hs] at hsign
      cases hsign
    · have hplus : '+' ∉ digits := by
        intro hmem
        have hd := hdigits '+' hmem
        rw [isDecimal_plus] at hd
        cases hd
      have hbody : fromFirstDigit raw = digits := by
        have heq := normalizePhone_eq D raw
        by_cases hs : Signed raw
        · rw [if_pos hs] at heq
          rcases hlist with hlist | hlist
          · rw [hlist] at heq
            exact absurd (heq ▸ List.mem_cons_self) hplus
          · rw [hlist] at heq
            exact (List.cons.inj heq).2.symm
        · rw [if_neg hs, List.nil_append] at heq
          rcases hlist with hlist | hlist
          · rw [← heq, hlist]
          · rw [hlist] at heq
            have hhead : (fromFirstDigit raw).head? = some '+' := by
              rw [← heq]
              rfl
            exact absurd hhead head_fromFirstDigit
      exact ⟨plus_fromFirstDigit.mp (hbody ▸ hplus), fun _ => fromFirstDigit_ne_nil.mp (hbody ▸ hne)⟩
  · intro h
    by_cases hnil : fromFirstDigit raw = []
    · left
      have hs : ¬ Signed raw := fun hs => fromFirstDigit_ne_nil.mpr (h.digit hs) hnil
      rw [← String.toList_eq_nil_iff, normalizePhone_eq, if_neg hs, hnil]
      rfl
    · refine .inr ⟨fromFirstDigit raw, hnil, fun c hc => ?_, ?_⟩
      · refine (mem_fromFirstDigit hc).resolve_right ?_
        rintro rfl
        exact plus_fromFirstDigit.mpr h.noneAfter hc
      · rw [normalizePhone_eq]
        by_cases hs : Signed raw
        · exact .inr (by rw [if_pos hs]; rfl)
        · exact .inl (by rw [if_neg hs]; rfl)

/-- Two spellings with the same digits and signs meet exactly if both or neither begin with a sign. -/
theorem spelling_iff (hsame : digitsAndSigns raw = digitsAndSigns raw') :
    normalizeIdentityValue D .phone raw = normalizeIdentityValue D .phone raw' ↔
      (Signed raw ↔ Signed raw') := by
  constructor
  · intro heq
    rw [← head_normalized (D := D), heq, head_normalized]
  · intro hsigned
    apply String.toList_injective
    rw [normalizePhone_eq, normalizePhone_eq, fromFirstDigit, fromFirstDigit, hsame]
    by_cases hs : Signed raw
    · rw [if_pos hs, if_pos (hsigned.mp hs)]
    · rw [if_neg hs, if_neg fun h => hs (hsigned.mpr h)]

end

/-- A phone is canonical exactly where its signs lead, and exactly with the spellings that begin with a
sign as it does. -/
theorem phoneCanonical_iff (D : CaseData) (raw raw' : String) :
    PhoneCanonical D raw raw' ↔
      SignLeads raw ∧
        (digitsAndSigns raw = digitsAndSigns raw' → (Signed raw ↔ Signed raw')) := by
  constructor
  · intro h
    exact ⟨phoneShape_iff.mp h.shape, fun hsame => (spelling_iff hsame).mp (h.spelling hsame)⟩
  · rintro ⟨hleads, hsigned⟩
    exact ⟨phoneShape_iff.mpr hleads, normalizePhone_again D raw,
      fun hsame => (spelling_iff hsame).mpr (hsigned hsame)⟩

/-- A sign in the middle stays, a sign alone is a phone, and a sign in brackets is lost. -/
theorem phone_notCanonical :
    normalizeIdentityValue .ascii .phone "+1+5" = "+1+5" ∧
      ¬ PhoneShape (normalizeIdentityValue .ascii .phone "+1+5") ∧
      normalizeIdentityValue .ascii .phone "+" = "+" ∧
      ¬ PhoneShape (normalizeIdentityValue .ascii .phone "+") ∧
      digitsAndSigns "(+1) 555" = digitsAndSigns "+1 555" ∧
      normalizeIdentityValue .ascii .phone "(+1) 555" ≠
        normalizeIdentityValue .ascii .phone "+1 555" := by
  refine ⟨by decide +kernel, fun hshape => ?_, by decide +kernel, fun hshape => ?_,
    by decide +kernel, by decide +kernel⟩
  · exact absurd (phoneShape_iff.mp hshape).noneAfter (by decide +kernel)
  · obtain ⟨c, hc, hdigit⟩ := (phoneShape_iff.mp hshape).digit (by decide +kernel)
    have hplus : c = '+' := List.mem_singleton.mp hc
    rw [hplus, isDecimal_plus] at hdigit
    cases hdigit

end PennyCore
