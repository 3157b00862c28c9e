import Mathlib.Data.List.DropRight

/-!
# Python's text methods

`str.strip`, `str.lower` and the digits of a regular expression, on strings of Unicode scalar values.

* `isSpace` and `isDecimal` are the characters that `str.isspace` and `\d` accept, in full.
* `strip` drops white space at both ends; a `Stripped` string is one that it leaves as it is.
* `CaseData.lower` is `str.lower` with its rule for a final sigma. The case tables of the Unicode
  character database are a parameter, `CaseData`, with what is used of them: a lower-case mapping is
  not empty, consists of characters that are their own mapping, and neither makes nor removes white
  space. `CaseData.ascii` has the ASCII letters (and the sigmas) only.
* `lower` is idempotent (`lower_lower`) and keeps a stripped string stripped (`strip_lower`).
* `readInt` reads a decimal integer, and what `str` wrote of one (`readInt_toString`).
-/

namespace Lib

/-! ## Character classes -/

/-- The characters that `str.strip` removes. -/
def spaces : List Nat :=
  [0x09, 0x0A, 0x0B, 0x0C, 0x0D, 0x1C, 0x1D, 0x1E, 0x1F, 0x20, 0x85, 0xA0, 0x1680, 0x2000, 0x2001,
    0x2002, 0x2003, 0x2004, 0x2005, 0x2006, 0x2007, 0x2008, 0x2009, 0x200A, 0x2028, 0x2029, 0x202F,
    0x205F, 0x3000]

def isSpace (c : Char) : Bool := spaces.contains c.toNat

/-- The zeros of the decimal digits; each is followed by its nine other digits. -/
def decimalZeros : List Nat :=
  [0x30, 0x660, 0x6F0, 0x7C0, 0x966, 0x9E6, 0xA66, 0xAE6, 0xB66, 0xBE6, 0xC66, 0xCE6, 0xD66, 0xDE6,
    0xE50, 0xED0, 0xF20, 0x1040, 0x1090, 0x17E0, 0x1810, 0x1946, 0x19D0, 0x1A80, 0x1A90, 0x1B50,
    0x1BB0, 0x1C40, 0x1C50, 0xA620, 0xA8D0, 0xA900, 0xA9D0, 0xA9F0, 0xAA50, 0xABF0, 0xFF10, 0x104A0,
    0x10D30, 0x11066, 0x110F0, 0x11136, 0x111D0, 0x112F0, 0x11450, 0x114D0, 0x11650, 0x116C0, 0x11730,
    0x118E0, 0x11950, 0x11C50, 0x11D50, 0x11DA0, 0x16A60, 0x16AC0, 0x16B50, 0x1D7CE, 0x1D7D8, 0x1D7E2,
    0x1D7EC, 0x1D7F6, 0x1E140, 0x1E2F0, 0x1E950, 0x1FBF0]

/-- The character class `\d`. -/
def isDecimal (c : Char) : Bool := decimalZeros.any fun z => z ≤ c.toNat && c.toNat < z + 10

theorem isSpace_of_isDecimal {c : Char} (h : isDecimal c = true) : isSpace c = false := by
  have hall : ∀ n ∈ spaces, (decimalZeros.any fun z => z ≤ n && n < z + 10) = false := by decide
  cases hs : isSpace c with
  | false => rfl
  | true =>
    have hdec := hall c.toNat (by simpa [isSpace] using hs)
    unfold isDecimal at h
    rw [hdec] at h
    cases h

/-! ## `str.strip` -/

def stripChars (cs : List Char) : List Char := (cs.dropWhile isSpace).rdropWhile isSpace

/-- `s.strip()`. -/
def strip (s : String) : String := String.ofList (stripChars s.toList)

/-- No white space at either end. -/
structure StrippedChars (cs : List Char) : Prop where
  head : ∀ c, cs.head? = some c → isSpace c = false
  last : ∀ c, cs.getLast? = some c → isSpace c = false

theorem stripChars_of_stripped {cs : List Char} (h : StrippedChars cs) : stripChars cs = cs := by
  have hdrop : cs.dropWhile isSpace = cs := by
    cases cs with
    | nil => rfl
    | cons c cs => simp [h.head c rfl]
  unfold stripChars
  rw [hdrop, List.rdropWhile_eq_self_iff]
  intro hne
  simp [h.last _ (List.getLast?_eq_some_getLast hne)]

theorem stripped_stripChars (cs : List Char) : StrippedChars (stripChars cs) := by
  refine ⟨fun c hc => ?_, fun c hc => ?_⟩
  · obtain ⟨rest, hrest⟩ := List.rdropWhile_prefix isSpace (cs.dropWhile isSpace)
    have hhead : (cs.dropWhile isSpace).head? = some c := by
      rw [← hrest, List.head?_append_of_ne_nil]
      · exact hc
      · rintro hnil
        rw [stripChars, hnil] at hc
        cases hc
    have hnot := List.head?_dropWhile_not isSpace cs
    rw [hhead] at hnot
    exact hnot
  · have hne : stripChars cs ≠ [] := by
      rintro hnil
      rw [hnil] at hc
      cases hc
    have hlast := List.rdropWhile_last_not isSpace (cs.dropWhile isSpace) hne
    rw [List.getLast?_eq_some_getLast hne] at hc
    cases hc
    exact Bool.eq_false_iff.mpr hlast

theorem strip_strip (s : String) : strip (strip s) = strip s := by
  unfold strip
  rw [String.toList_ofList, stripChars_of_stripped (stripped_stripChars _)]

/-- Text without white space is stripped. -/
theorem strip_of_no_space {s : String} (h : ∀ c ∈ s.toList, isSpace c = false) : strip s = s := by
  unfold strip
  rw [stripChars_of_stripped ⟨fun c hc => h c (List.mem_of_head? hc),
    fun c hc => h c (List.mem_of_getLast? hc)⟩, String.ofList_toList]

theorem filter_dropWhile_of_disjoint {α : Type} {p q : α → Bool} (h : ∀ x, p x = true → q x = false) :
    ∀ l : List α, (l.dropWhile q).filter p = l.filter p
  | [] => rfl
  | x :: l => by
    cases hq : q x with
    | true =>
      have hp : p x = false := by
        cases hp : p x with
        | false => rfl
        | true => rw [h x hp] at hq; cases hq
      rw [List.dropWhile_cons_of_pos hq, filter_dropWhile_of_disjoint h l, List.filter_cons, hp]
      rfl
    | false => rw [List.dropWhile_cons_of_neg (by rw [hq]; decide)]

/-- Stripping loses none of the characters that are not white space. -/
theorem filter_stripChars {p : Char → Bool} (h : ∀ c, p c = true → isSpace c = false)
    {cs : List Char} : (stripChars cs).filter p = cs.filter p := by
  unfold stripChars List.rdropWhile
  rw [List.filter_reverse, filter_dropWhile_of_disjoint h, ← List.filter_reverse, List.reverse_reverse,
    filter_dropWhile_of_disjoint h]

/-- What is stripped is white space in front and behind. -/
theorem stripChars_split (cs : List Char) :
    ∃ front back, cs = front ++ stripChars cs ++ back ∧ (∀ c ∈ front, isSpace c = true) ∧
      ∀ c ∈ back, isSpace c = true := by
  refine ⟨cs.takeWhile isSpace, (cs.dropWhile isSpace).rtakeWhile isSpace, ?_,
    fun c hc => List.mem_takeWhile_imp hc, fun c hc => List.mem_rtakeWhile_imp hc⟩
  unfold stripChars
  rw [List.append_assoc, List.rdropWhile_append_rtakeWhile, List.takeWhile_append_dropWhile]

/-- The ends of a string that `strip` leaves as it is. -/
theorem stripped_of_strip {s : String} (h : strip s = s) : StrippedChars s.toList := by
  rw [← h, strip, String.toList_ofList]
  exact stripped_stripChars _

/-! ## `str.splitlines` -/

/-- The characters that end a line. -/
def lineBreaks : List Nat := [0x0A, 0x0B, 0x0C, 0x0D, 0x1C, 0x1D, 0x1E, 0x85, 0x2028, 0x2029]

/-- The lines of `cs`; `line` is what is read of the current one, and `\r\n` is one line break. -/
def splitLinesFrom (line : List Char) : List Char → List String
  | [] => if line.isEmpty then [] else [String.ofList line]
  | '\r' :: '\n' :: cs => String.ofList line :: splitLinesFrom [] cs
  | c :: cs =>
    if lineBreaks.contains c.toNat then String.ofList line :: splitLinesFrom [] cs
    else splitLinesFrom (line ++ [c]) cs

/-- `s.splitlines()`. -/
def splitlines (s : String) : List String := splitLinesFrom [] s.toList

/-- A text that is not empty has a line. -/
theorem splitLinesFrom_ne {line cs : List Char} (h : line ≠ [] ∨ cs ≠ []) :
    splitLinesFrom line cs ≠ [] := by
  fun_induction splitLinesFrom line cs with
  | case1 line hline => simp_all
  | case2 line hline => simp
  | case3 line cs ih => simp
  | case4 line c cs hc hbreak ih => simp
  | case5 line c cs hc hbreak ih => exact ih (.inl (by simp))

/-! ## `str.lower` -/

def capitalSigma : Char := Char.ofNat 0x3A3

def smallSigma : Char := Char.ofNat 0x3C3

/-- The small sigma at the end of a word. -/
def finalSigma : Char := Char.ofNat 0x3C2

/-- What `str.lower` reads of the Unicode character database. -/
structure CaseData where
  lowerChar : Char → List Char
  cased : Char → Bool
  caseIgnorable : Char → Bool
  lowerChar_ne_nil : ∀ c, lowerChar c ≠ []
  lowerChar_fixed : ∀ c, ∀ d ∈ lowerChar c, lowerChar d = [d]
  lowerChar_space : ∀ c, ∀ d ∈ lowerChar c, isSpace d = isSpace c
  lowerChar_sigma : lowerChar capitalSigma = [smallSigma]
  lowerChar_final : lowerChar finalSigma = [finalSigma]

namespace CaseData

variable (D : CaseData)

/-- A capital sigma after a cased letter and not before one, up to ignorable characters. `before` is
read backwards. -/
def endsWord (before after : List Char) : Bool :=
  (match before.dropWhile D.caseIgnorable with
    | [] => false
    | c :: _ => D.cased c) &&
  (match after.dropWhile D.caseIgnorable with
    | [] => true
    | c :: _ => !D.cased c)

/-- The lower case of one character in its place. -/
def lowerAt (before : List Char) (c : Char) (after : List Char) : List Char :=
  if c = capitalSigma then [if D.endsWord before after then finalSigma else smallSigma]
  else D.lowerChar c

def lowerFrom (before : List Char) : List Char → List Char
  | [] => []
  | c :: cs => D.lowerAt before c cs ++ lowerFrom (c :: before) cs

/-- `s.lower()`. -/
def lower (s : String) : String := String.ofList (D.lowerFrom [] s.toList)

variable {D}

theorem lowerAt_ne_nil (before : List Char) (c : Char) (after : List Char) :
    D.lowerAt before c after ≠ [] := by
  unfold lowerAt
  split
  · exact List.cons_ne_nil _ _
  · exact D.lowerChar_ne_nil c

theorem lowerAt_mem {before : List Char} {c : Char} {after : List Char} {d : Char}
    (hd : d ∈ D.lowerAt before c after) : D.lowerChar d = [d] ∧ isSpace d = isSpace c := by
  unfold lowerAt at hd
  split at hd
  · subst c
    rw [List.mem_singleton] at hd
    subst hd
    have hsmall := D.lowerChar_fixed capitalSigma smallSigma (by simp [D.lowerChar_sigma])
    split
    · exact ⟨D.lowerChar_final, rfl⟩
    · exact ⟨hsmall, rfl⟩
  · exact ⟨D.lowerChar_fixed c d hd, D.lowerChar_space c d hd⟩

theorem lowerFrom_mem {before cs : List Char} {d : Char} (hd : d ∈ D.lowerFrom before cs) :
    D.lowerChar d = [d] := by
  induction cs generalizing before with
  | nil => cases hd
  | cons c cs ih =>
    rcases List.mem_append.mp hd with hd | hd
    · exact (lowerAt_mem hd).1
    · exact ih hd

/-- Characters that are their own lower case stay. -/
theorem lowerFrom_fixed {before cs : List Char} (h : ∀ c ∈ cs, D.lowerChar c = [c]) :
    D.lowerFrom before cs = cs := by
  induction cs generalizing before with
  | nil => rfl
  | cons c cs ih =>
    have hc := h c List.mem_cons_self
    have hne : c ≠ capitalSigma := by
      rintro rfl
      rw [D.lowerChar_sigma] at hc
      exact absurd hc (by decide)
    rw [lowerFrom, lowerAt, if_neg hne, hc, ih fun d hd => h d (List.mem_cons_of_mem c hd)]
    rfl

theorem lower_lower (s : String) : D.lower (D.lower s) = D.lower s := by
  unfold lower
  rw [String.toList_ofList, lowerFrom_fixed fun c hc => lowerFrom_mem hc]

theorem lowerFrom_head {before cs : List Char} {d : Char}
    (hd : (D.lowerFrom before cs).head? = some d) :
    ∃ c, cs.head? = some c ∧ isSpace d = isSpace c := by
  cases cs with
  | nil => cases hd
  | cons c cs =>
    rw [lowerFrom, List.head?_append_of_ne_nil _ (lowerAt_ne_nil _ _ _)] at hd
    exact ⟨c, rfl, (lowerAt_mem (List.mem_of_head? hd)).2⟩

theorem lowerFrom_last {before cs : List Char} {d : Char}
    (hd : (D.lowerFrom before cs).getLast? = some d) :
    ∃ c, cs.getLast? = some c ∧ isSpace d = isSpace c := by
  induction cs generalizing before with
  | nil => cases hd
  | cons c cs ih =>
    rw [lowerFrom, List.getLast?_append] at hd
    cases hrest : (D.lowerFrom (c :: before) cs).getLast? with
    | some d' =>
      rw [hrest] at hd
      cases hd
      obtain ⟨c', hc', hspace⟩ := ih hrest
      exact ⟨c', by rw [List.getLast?_cons, hc']; rfl, hspace⟩
    | none =>
      rw [hrest, Option.none_or] at hd
      have hcs : cs = [] := by
        cases cs with
        | nil => rfl
        | cons c' cs =>
          rw [List.getLast?_eq_none_iff, lowerFrom, List.append_eq_nil_iff] at hrest
          exact absurd hrest.1 (lowerAt_ne_nil _ _ _)
      subst hcs
      exact ⟨c, rfl, (lowerAt_mem (List.mem_of_getLast? hd)).2⟩

theorem strip_lower {s : String} (h : strip s = s) : strip (D.lower s) = D.lower s := by
  have hs := stripped_of_strip h
  unfold strip lower
  rw [String.toList_ofList, stripChars_of_stripped ⟨fun d hd => ?_, fun d hd => ?_⟩]
  · obtain ⟨c, hc, hspace⟩ := lowerFrom_head hd
    rw [hspace, hs.head c hc]
  · obtain ⟨c, hc, hspace⟩ := lowerFrom_last hd
    rw [hspace, hs.last c hc]

theorem lower_ne_empty {s : String} (h : s ≠ "") : D.lower s ≠ "" := by
  unfold lower
  rw [ne_eq, String.ofList_eq_empty_iff]
  cases hcs : s.toList with
  | nil => exact absurd (String.toList_eq_nil_iff.mp hcs) h
  | cons c cs =>
    rw [lowerFrom]
    exact fun hnil => lowerAt_ne_nil _ _ _ (List.append_eq_nil_iff.mp hnil).1

/-! ### The ASCII letters -/

def asciiLower (c : Char) : Char :=
  if c = capitalSigma then smallSigma
  else if 65 ≤ c.toNat ∧ c.toNat ≤ 90 then Char.ofNat (c.toNat + 32) else c

theorem asciiLower_cases (c : Char) :
    (asciiLower c = c ∧ c ≠ capitalSigma ∧ ¬ (65 ≤ c.toNat ∧ c.toNat ≤ 90)) ∨
    (asciiLower c = smallSigma ∧ c = capitalSigma) ∨
    (∃ n, 65 ≤ n ∧ n ≤ 90 ∧ c.toNat = n ∧ asciiLower c = Char.ofNat (n + 32)) := by
  unfold asciiLower
  by_cases hc : c = capitalSigma
  · exact .inr (.inl ⟨if_pos hc, hc⟩)
  · rw [if_neg hc]
    by_cases hn : 65 ≤ c.toNat ∧ c.toNat ≤ 90
    · exact .inr (.inr ⟨c.toNat, hn.1, hn.2, rfl, if_pos hn⟩)
    · exact .inl ⟨if_neg hn, hc, hn⟩

/-- The case tables of the ASCII letters. -/
def ascii : CaseData where
  lowerChar := fun c => [asciiLower c]
  cased := fun c => c.isAlpha
  caseIgnorable := fun c => c = '.' || c = ':' || c = '^'
  lowerChar_ne_nil := fun c => List.cons_ne_nil _ _
  lowerChar_fixed := fun c d hd => by
    rw [List.mem_singleton.mp hd]
    rcases asciiLower_cases c with ⟨hc, -⟩ | ⟨hc, -⟩ | ⟨n, h1, h2, -, hc⟩
    · rw [hc, hc]
    · rw [hc]; rfl
    · have hall : ∀ n < 91, 65 ≤ n → asciiLower (Char.ofNat (n + 32)) = Char.ofNat (n + 32) := by
        decide
      rw [hc, hall n (by omega) h1]
  lowerChar_space := fun c d hd => by
    rw [List.mem_singleton.mp hd]
    rcases asciiLower_cases c with ⟨hc, -⟩ | ⟨hc, rfl⟩ | ⟨n, h1, h2, hn, hc⟩
    · rw [hc]
    · rw [hc]; rfl
    · have hall : ∀ n < 91, 65 ≤ n →
          spaces.contains (Char.ofNat (n + 32)).toNat = spaces.contains n := by decide
      rw [hc, isSpace, isSpace, hn, hall n (by omega) h1]
  lowerChar_sigma := rfl
  lowerChar_final := rfl

end CaseData
/-! ## Decimal integers -/

/-- The number that the digits write. -/
def readNat (digits : List Char) : Option Nat :=
  if digits ≠ [] ∧ digits.all Char.isDigit then some (Nat.ofDigitChars 10 digits 0) else none

/-- The integer that a text writes in decimal. -/
def readInt (s : String) : Option Int :=
  match s.toList with
  | '-' :: digits => (readNat digits).map fun (n : Nat) => -(n : Int)
  | digits => (readNat digits).map fun (n : Nat) => (n : Int)

theorem readNat_toDigits (n : Nat) : readNat (Nat.toDigits 10 n) = some n := by
  have hdigits : (Nat.toDigits 10 n).all Char.isDigit := List.all_eq_true.mpr fun c hc =>
    Nat.isDigit_of_mem_toDigits (by decide) (by decide) hc
  rw [readNat, if_pos ⟨Nat.toDigits_ne_nil, hdigits⟩, Nat.ofDigitChars_ten_toDigits]

theorem readInt_toString (n : Int) : readInt (toString n) = some n := by
  rw [Int.toString_eq_repr, Int.repr_eq_if]
  split
  · unfold readInt
    rw [Nat.toList_repr]
    split
    · rename_i digits h
      have hmem : '-' ∈ Nat.toDigits 10 n.toNat := h ▸ List.mem_cons_self
      exact absurd (Nat.isDigit_of_mem_toDigits (by decide) (by decide) hmem) (by decide)
    · rw [readNat_toDigits, Option.map_some, Int.toNat_of_nonneg ‹_›]
  · have htext : ("-" ++ (-n).toNat.repr).toList = '-' :: Nat.toDigits 10 (-n).toNat := by
      rw [String.toList_append, Nat.toList_repr]
      rfl
    unfold readInt
    rw [htext]
    simp only [readNat_toDigits, Option.map_some]
    congr 1
    omega
end Lib
