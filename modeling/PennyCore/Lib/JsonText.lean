import Mathlib.Tactic.IntervalCases
import PennyCore.Lib.JsonScan

/-!
# Writing JSON

The text of JSON tokens, and that the scanner of `Lib.JsonScan` reads them back.

* `escape` writes a string in ASCII (`json.dumps` with `ensure_ascii`); `unescape` reads the body of a
  string literal. `unescape_escape`: nothing is lost.
* `Literal`: the bodies that the scanner reads as one string; `literal_escape`.
* `JsonToken.text`, and `loads_texts`: a text that is made of tokens is read as these tokens, if no
  two atoms stand next to each other (`Apart`).
-/

namespace Lib

/-! ## Escapes -/

/-- Four hexadecimal digits. -/
def hex4 (n : Nat) : List Char :=
  [(n / 4096 % 16).digitChar, (n / 256 % 16).digitChar, (n / 16 % 16).digitChar, (n % 16).digitChar]

def hexValue (c : Char) : Option Nat :=
  if '0' ≤ c ∧ c ≤ '9' then some (c.toNat - 48)
  else if 'a' ≤ c ∧ c ≤ 'f' then some (c.toNat - 87)
  else if 'A' ≤ c ∧ c ≤ 'F' then some (c.toNat - 55)
  else none

/-- The value of the four hexadecimal digits that come first, and what follows them. -/
def hex4Value : List Char → Option (Nat × List Char)
  | a :: b :: c :: d :: rest => do
    let a ← hexValue a
    let b ← hexValue b
    let c ← hexValue c
    let d ← hexValue d
    return (((a * 16 + b) * 16 + c) * 16 + d, rest)
  | _ => none

/-- The letter that stands for the character behind a backslash. -/
def shortEscape (c : Char) : Option Char :=
  if c = '\\' then some '\\'
  else if c = '"' then some '"'
  else if c = '\x08' then some 'b'
  else if c = '\x0c' then some 'f'
  else if c = '\n' then some 'n'
  else if c = '\r' then some 'r'
  else if c = '\t' then some 't'
  else none

def shortUnescape (e : Char) : Option Char :=
  if e = '\\' then some '\\'
  else if e = '"' then some '"'
  else if e = '/' then some '/'
  else if e = 'b' then some '\x08'
  else if e = 'f' then some '\x0c'
  else if e = 'n' then some '\n'
  else if e = 'r' then some '\r'
  else if e = 't' then some '\t'
  else none

/-- A character of the basic plane, or the two surrogates of another. -/
def escapeUnit (n : Nat) : List Char :=
  if n < 0x10000 then '\\' :: 'u' :: hex4 n
  else '\\' :: 'u' :: hex4 (0xd800 + (n - 0x10000) / 0x400) ++
    '\\' :: 'u' :: hex4 (0xdc00 + (n - 0x10000) % 0x400)

def escapeChar (c : Char) : List Char :=
  match shortEscape c with
  | some e => ['\\', e]
  | none => if ' ' ≤ c ∧ c ≤ '~' then [c] else escapeUnit c.toNat

def escape (cs : List Char) : List Char := cs.flatMap escapeChar

def isHighSurrogate (n : Nat) : Bool := 0xd800 ≤ n ∧ n ≤ 0xdbff

def isLowSurrogate (n : Nat) : Bool := 0xdc00 ≤ n ∧ n ≤ 0xdfff

/-- The second half of a surrogate pair. -/
def lowSurrogate : List Char → Option (Nat × List Char)
  | '\\' :: 'u' :: rest => (hex4Value rest).filter fun v => isLowSurrogate v.1
  | _ => none

/-- What stands behind `\u`. A surrogate without its other half is no character. -/
def unescapeUnit (cs : List Char) : Option (Char × List Char) := do
  let (n, rest) ← hex4Value cs
  if isHighSurrogate n then
    let (m, rest) ← lowSurrogate rest
    return (Char.ofNat (0x10000 + ((n - 0xd800) * 0x400 + (m - 0xdc00))), rest)
  else if isLowSurrogate n then none
  else return (Char.ofNat n, rest)

/-- The first character that the body of a literal stands for, and what follows it. -/
def unescapeChar : List Char → Option (Char × List Char)
  | [] => none
  | '\\' :: 'u' :: rest => unescapeUnit rest
  | '\\' :: e :: rest => (shortUnescape e).map fun c => (c, rest)
  | ['\\'] => none
  | c :: rest => some (c, rest)

/-- `fuel` bounds the number of characters. -/
def unescapeAll : Nat → List Char → Option (List Char)
  | _, [] => some []
  | 0, _ :: _ => none
  | fuel + 1, cs => do
    let (c, rest) ← unescapeChar cs
    let cs ← unescapeAll fuel rest
    return c :: cs

/-- The string that the body of a literal stands for. -/
def unescape (cs : List Char) : Option (List Char) := unescapeAll cs.length cs

theorem hexValue_digitChar {n : Nat} (h : n < 16) : hexValue n.digitChar = some n := by
  interval_cases n <;> decide

theorem hex4Value_hex4 {n : Nat} (h : n < 0x10000) (rest : List Char) :
    hex4Value (hex4 n ++ rest) = some (n, rest) := by
  have h16 : ∀ m, m % 16 < 16 := fun m => Nat.mod_lt m (by decide)
  show hex4Value (_ :: _ :: _ :: _ :: rest) = _
  simp only [hex4Value, hexValue_digitChar (h16 _), Option.bind_eq_bind, Option.bind_some,
    Option.pure_def, Option.some.injEq, Prod.mk.injEq, and_true]
  omega

theorem shortUnescape_of {c e : Char} (h : shortEscape c = some e) :
    shortUnescape e = some c ∧ e ≠ 'u' := by
  unfold shortEscape at h
  split_ifs at h with h1 h2 h3 h4 h5 h6 h7 <;> cases h <;> simp only [*] <;> decide

theorem lowSurrogate_hex4 {n : Nat} (hn : n < 0x10000) (hlow : isLowSurrogate n = true)
    (rest : List Char) : lowSurrogate ('\\' :: 'u' :: (hex4 n ++ rest)) = some (n, rest) := by
  simp [lowSurrogate, hex4Value_hex4 hn, hlow]

theorem unescapeUnit_pair {h l : Nat} (hh : h < 0x10000) (hl : l < 0x10000)
    (hhigh : isHighSurrogate h = true) (hlow : isLowSurrogate l = true) (rest : List Char) :
    unescapeUnit (hex4 h ++ '\\' :: 'u' :: (hex4 l ++ rest)) =
      some (Char.ofNat (0x10000 + ((h - 0xd800) * 0x400 + (l - 0xdc00))), rest) := by
  simp [unescapeUnit, hex4Value_hex4 hh, hhigh, lowSurrogate_hex4 hl hlow]

theorem unescapeChar_escapeUnit (c : Char) (rest : List Char) :
    unescapeChar (escapeUnit c.toNat ++ rest) = some (c, rest) := by
  have hvalid : c.toNat < 0xd800 ∨ 0xdfff < c.toNat ∧ c.toNat < 0x110000 := c.valid
  unfold escapeUnit
  by_cases hn : c.toNat < 0x10000
  · rw [if_pos hn]
    have hhigh : isHighSurrogate c.toNat = false := by
      simp only [isHighSurrogate, decide_eq_false_iff_not]
      omega
    have hlow : isLowSurrogate c.toNat = false := by
      simp only [isLowSurrogate, decide_eq_false_iff_not]
      omega
    simp [unescapeChar, unescapeUnit, hex4Value_hex4 hn, hhigh, hlow]
  · rw [if_neg hn]
    have hlt : c.toNat < 0x110000 := by omega
    generalize hm : c.toNat - 0x10000 = m
    have hm' : m < 0x100000 := by omega
    have hh : 0xd800 + m / 0x400 < 0x10000 := by omega
    have hl : 0xdc00 + m % 0x400 < 0x10000 := by omega
    have hhigh : isHighSurrogate (0xd800 + m / 0x400) = true := by
      simp only [isHighSurrogate, decide_eq_true_eq]
      omega
    have hlow : isLowSurrogate (0xdc00 + m % 0x400) = true := by
      simp only [isLowSurrogate, decide_eq_true_eq]
      omega
    have hnum : 0x10000 + ((0xd800 + m / 0x400 - 0xd800) * 0x400 + (0xdc00 + m % 0x400 - 0xdc00)) =
        c.toNat := by omega
    simp only [List.cons_append, List.append_assoc, unescapeChar]
    refine (unescapeUnit_pair hh hl hhigh hlow rest).trans ?_
    rw [hnum, Char.ofNat_toNat]

theorem unescapeChar_escapeChar (c : Char) (rest : List Char) :
    unescapeChar (escapeChar c ++ rest) = some (c, rest) := by
  unfold escapeChar
  cases hs : shortEscape c with
  | some e =>
    obtain ⟨hback, hu⟩ := shortUnescape_of hs
    show unescapeChar ('\\' :: e :: rest) = _
    simp [unescapeChar, hback]
  | none =>
    have hslash : c ≠ '\\' := by
      rintro rfl
      cases hs
    simp only
    split
    · show unescapeChar (c :: rest) = _
      simp [unescapeChar, hslash]
    · exact unescapeChar_escapeUnit c rest

theorem escapeChar_ne (c : Char) : escapeChar c ≠ [] := by
  unfold escapeChar
  cases shortEscape c with
  | some e => exact List.cons_ne_nil _ _
  | none =>
    simp only
    split
    · exact List.cons_ne_nil _ _
    · unfold escapeUnit
      split <;> exact List.cons_ne_nil _ _

theorem unescapeAll_escape (cs : List Char) {fuel : Nat} (h : cs.length ≤ fuel) :
    unescapeAll fuel (escape cs) = some cs := by
  induction cs generalizing fuel with
  | nil => cases fuel <;> rfl
  | cons c cs ih =>
    cases fuel with
    | zero => simp at h
    | succ fuel =>
      have hone := unescapeChar_escapeChar c (escape cs)
      rw [show escape (c :: cs) = escapeChar c ++ escape cs from List.flatMap_cons]
      obtain ⟨d, ds, hd⟩ := List.exists_cons_of_ne_nil (escapeChar_ne c)
      rw [hd] at hone ⊢
      rw [List.cons_append] at hone ⊢
      simp only [unescapeAll, hone, Option.bind_eq_bind, Option.bind_some,
        ih (Nat.le_of_succ_le_succ h)]
      rfl

theorem length_escape (cs : List Char) : cs.length ≤ (escape cs).length := by
  induction cs with
  | nil => exact Nat.le_refl 0
  | cons c cs ih =>
    rw [show escape (c :: cs) = escapeChar c ++ escape cs from List.flatMap_cons,
      List.length_append, List.length_cons]
    have := List.length_pos_of_ne_nil (escapeChar_ne c)
    omega

/-- A string comes back from its literal. -/
@[simp] theorem unescape_escape (cs : List Char) : unescape (escape cs) = some cs :=
  unescapeAll_escape cs (length_escape cs)

/-! ## Literals -/

/-- The body of a string literal: no control character, and no quote but behind a backslash. -/
inductive Literal : List Char → Prop
  | nil : Literal []
  | plain {c : Char} {cs : List Char} (hc : isControl c = false) (hq : c ≠ '"') (hb : c ≠ '\\')
      (h : Literal cs) : Literal (c :: cs)
  | pair {e : Char} {cs : List Char} (he : isControl e = false) (h : Literal cs) :
      Literal ('\\' :: e :: cs)

theorem Literal.append {cs ds : List Char} (h : Literal cs) (hd : Literal ds) :
    Literal (cs ++ ds) := by
  induction h with
  | nil => exact hd
  | plain hc hq hb _ ih => exact .plain hc hq hb ih
  | pair he _ ih => exact .pair he ih

theorem literal_digit {n : Nat} (h : n < 16) {cs : List Char} (hcs : Literal cs) :
    Literal (n.digitChar :: cs) := by
  refine .plain ?_ ?_ ?_ hcs <;> interval_cases n <;> decide

theorem literal_hex4 (n : Nat) : Literal (hex4 n) := by
  have h16 : ∀ m, m % 16 < 16 := fun m => Nat.mod_lt m (by decide)
  exact literal_digit (h16 _)
    (literal_digit (h16 _) (literal_digit (h16 _) (literal_digit (h16 _) .nil)))

theorem literal_escapeChar (c : Char) : Literal (escapeChar c) := by
  unfold escapeChar
  cases hs : shortEscape c with
  | some e =>
    refine .pair ?_ .nil
    unfold shortEscape at hs
    split_ifs at hs <;> cases hs <;> decide
  | none =>
    simp only
    split
    · next hprint =>
      refine .plain ?_ ?_ ?_ .nil
      · have h32 : 32 ≤ c.toNat := hprint.1
        simp only [isControl, decide_eq_false_iff_not]
        omega
      · rintro rfl
        cases hs
      · rintro rfl
        cases hs
    · unfold escapeUnit
      split
      · exact .pair (by decide) (literal_hex4 _)
      · exact (Literal.pair (by decide) (literal_hex4 _)).append (.pair (by decide) (literal_hex4 _))

theorem literal_escape (cs : List Char) : Literal (escape cs) := by
  induction cs with
  | nil => exact .nil
  | cons c cs ih => exact (literal_escapeChar c).append ih

/-! ## Texts made of tokens -/

def JsonToken.text : JsonToken → List Char
  | .punct c => [c]
  | .str raw => '"' :: raw ++ ['"']
  | .atom text => text

/-- The tokens that have a text. -/
def JsonToken.Ok : JsonToken → Prop
  | .punct c => isJsonPunct c = true
  | .str raw => Literal raw
  | .atom text => text ≠ [] ∧ ∀ c ∈ text, isAtomChar c = true

/-- No two atoms are next to each other. -/
def JsonToken.Apart : List JsonToken → Prop
  | [] => True
  | t :: ts => (∀ a, t = .atom a → ∀ b us, ts ≠ .atom b :: us) ∧ JsonToken.Apart ts

def jsonText (ts : List JsonToken) : List Char := ts.flatMap JsonToken.text

theorem JsonToken.apart_one (t : JsonToken) : JsonToken.Apart [t] := by simp [JsonToken.Apart]

theorem JsonToken.apart_punct {ts us : List JsonToken} {c : Char} :
    JsonToken.Apart (ts ++ .punct c :: us) ↔ JsonToken.Apart ts ∧ JsonToken.Apart us := by
  induction ts with
  | nil => simp [JsonToken.Apart]
  | cons t ts ih =>
    rw [List.cons_append, JsonToken.Apart, JsonToken.Apart, ih, and_assoc]
    refine and_congr_left fun _ => forall_congr' fun a => imp_congr_right fun _ =>
      forall_congr' fun b => ?_
    cases ts with
    | nil => simp
    | cons u ts => simp

namespace JsonMachine

variable {σ ε α : Type} (M : JsonMachine σ ε α)

def feedAll (s : σ) : List JsonToken → Except ε σ
  | [] => .ok s
  | t :: ts => (M.feed s t).bind fun s => feedAll s ts

theorem feedAll_append (s : σ) (ts us : List JsonToken) :
    M.feedAll s (ts ++ us) = (M.feedAll s ts).bind fun t => M.feedAll t us := by
  induction ts generalizing s with
  | nil => rfl
  | cons t ts ih =>
    rw [List.cons_append, feedAll, feedAll]
    cases M.feed s t with
    | error e => rfl
    | ok s' => exact ih s'

/-- An atom is read as a part of the one before it. -/
theorem run_atom {text : List Char} (h : ∀ c ∈ text, isAtomChar c = true) (atom rest : List Char)
    (s : σ) : M.run ⟨.outside atom, s⟩ (text ++ rest) = M.run ⟨.outside (atom ++ text), s⟩ rest := by
  induction text generalizing atom with
  | nil => rw [List.nil_append, List.append_nil]
  | cons c text ih =>
    have hstep : M.step ⟨.outside atom, s⟩ c = .ok ⟨.outside (atom ++ [c]), s⟩ :=
      if_pos (h c (List.mem_cons_self ..))
    rw [List.cons_append, run, hstep]
    show M.run _ _ = _
    rw [ih fun c hc => h c (List.mem_cons_of_mem _ hc), List.append_assoc, List.singleton_append]

theorem run_literal {cs : List Char} (h : Literal cs) (raw rest : List Char) (s : σ) :
    M.run ⟨.quoted raw, s⟩ (cs ++ rest) = M.run ⟨.quoted (raw ++ cs), s⟩ rest := by
  induction h generalizing raw with
  | nil => rw [List.nil_append, List.append_nil]
  | @plain c cs hc hq hb _ ih =>
    have hstep : M.step ⟨.quoted raw, s⟩ c = .ok ⟨.quoted (raw ++ [c]), s⟩ := by
      simp [step, hc, hq, hb]
    rw [List.cons_append, run, hstep]
    show M.run _ _ = _
    rw [ih, List.append_assoc, List.singleton_append]
  | @pair e cs he _ ih =>
    have hslash : M.step ⟨.quoted raw, s⟩ '\\' = .ok ⟨.escaped (raw ++ ['\\']), s⟩ := by
      simp [step, show isControl '\\' = false by decide]
    have hstep : M.step ⟨.escaped (raw ++ ['\\']), s⟩ e =
        .ok ⟨.quoted (raw ++ ['\\'] ++ [e]), s⟩ := by
      simp [step, he]
    rw [List.cons_append, List.cons_append, run, hslash]
    show M.run _ _ = _
    rw [run, hstep]
    show M.run _ _ = _
    rw [ih, List.append_assoc, List.append_assoc]
    rfl

/-- The end of an atom at a character that is part of none. -/
theorem run_separate {c : Char} (hc : isAtomChar c = false) (atom rest : List Char) (s : σ) :
    M.run ⟨.outside atom, s⟩ (c :: rest) =
      (M.flush atom s).bind fun s => (M.separate c s).bind fun x => M.run x rest := by
  have hstep : M.step ⟨.outside atom, s⟩ c = (M.flush atom s).bind (M.separate c) := by
    simp [step, hc]
  rw [run, hstep]
  cases M.flush atom s with
  | error e => rfl
  | ok s' => rfl

theorem not_atomChar {c : Char} (h : isJsonPunct c = true) :
    isAtomChar c = false ∧ isJsonSpace c = false ∧ c ≠ '"' := by
  simp only [isJsonPunct, Bool.or_eq_true, decide_eq_true_eq] at h
  rcases h with ((((rfl | rfl) | rfl) | rfl) | rfl) | rfl <;> decide

/-- What is read of a text behind the atom `atom`. -/
theorem run_texts {ts : List JsonToken} (hok : ∀ t ∈ ts, t.Ok) (hapart : JsonToken.Apart ts)
    (atom : List Char) (s : σ) (hatom : atom ≠ [] → ∀ b us, ts ≠ .atom b :: us) :
    (M.run ⟨.outside atom, s⟩ (jsonText ts)).bind M.finish =
      (M.flush atom s).bind fun s => (M.feedAll s ts).bind M.close := by
  induction ts generalizing atom s with
  | nil => rfl
  | cons t ts ih =>
    have hts : ∀ t ∈ ts, t.Ok := fun t ht => hok t (List.mem_cons_of_mem _ ht)
    -- behind a token that is no atom
    have hnext : ∀ s, (M.run ⟨.outside [], s⟩ (jsonText ts)).bind M.finish =
        (M.feedAll s ts).bind M.close := fun s => ih hts hapart.2 [] s fun hne => absurd rfl hne
    rw [show jsonText (t :: ts) = t.text ++ jsonText ts from List.flatMap_cons]
    cases t with
    | punct c =>
      obtain ⟨hc, hspace, hquote⟩ := not_atomChar (hok _ (List.mem_cons_self ..))
      have hsep : ∀ s, M.separate c s = (M.feed s (.punct c)).map (⟨.outside [], ·⟩) := fun s => by
        simp [separate, hspace, hquote, show isJsonPunct c = true from hok _ (List.mem_cons_self ..)]
      show (M.run _ (c :: jsonText ts)).bind _ = _
      rw [M.run_separate hc]
      cases M.flush atom s with
      | error e => rfl
      | ok s' =>
        show ((M.separate c s').bind _).bind _ = ((M.feed s' (.punct c)).bind _).bind _
        rw [hsep]
        cases M.feed s' (.punct c) with
        | error e => rfl
        | ok s'' => exact hnext s''
    | str raw =>
      have hclose : ∀ s, M.step ⟨.quoted raw, s⟩ '"' =
          (M.feed s (.str raw)).map (⟨.outside [], ·⟩) := fun s => by
        simp [step, show isControl '"' = false by decide]
      show (M.run _ ('"' :: ((raw ++ ['"']) ++ jsonText ts))).bind _ = _
      rw [M.run_separate (by decide)]
      cases M.flush atom s with
      | error e => rfl
      | ok s' =>
        show (M.run ⟨.quoted [], s'⟩ _).bind _ = ((M.feed s' (.str raw)).bind _).bind _
        rw [List.append_assoc, M.run_literal (hok _ (List.mem_cons_self ..)), List.nil_append,
          List.singleton_append, run, hclose]
        cases M.feed s' (.str raw) with
        | error e => rfl
        | ok s'' => exact hnext s''
    | atom text =>
      obtain ⟨hne, hall⟩ : text ≠ [] ∧ ∀ c ∈ text, isAtomChar c = true :=
        hok _ (List.mem_cons_self ..)
      obtain rfl : atom = [] := by
        by_contra h
        exact hatom h text ts rfl
      show (M.run _ (text ++ jsonText ts)).bind _ = _
      rw [M.run_atom hall, List.nil_append, ih hts hapart.2 text s fun _ => hapart.1 text rfl]
      show (M.flush text s).bind _ = ((M.feed s (.atom text)).bind _).bind _
      rw [flush, if_neg hne]
      cases M.feed s (.atom text) with
      | error e => rfl
      | ok s' => rfl

/-- A text that is made of tokens is read as these tokens. -/
theorem loads_texts {ts : List JsonToken} (hok : ∀ t ∈ ts, t.Ok) (hapart : JsonToken.Apart ts) :
    M.loads (jsonText ts) = (M.feedAll M.start ts).bind M.close :=
  M.run_texts hok hapart [] M.start fun hne => absurd rfl hne

end JsonMachine
end Lib
