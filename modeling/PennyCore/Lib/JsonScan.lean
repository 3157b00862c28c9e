import PennyCore.Lib.Lines

/-!
# Scanning JSON

A JSON text read one character at a time. What the tokens mean is left to a `JsonMachine`: it takes the
tokens in their order and says what is raised. The scanner knows where a string literal begins and ends.

* White space ends what is before it and is otherwise ignored outside a string literal, and no control
  character stands inside one (`scan_lineBreak`).
* So a text that is accepted keeps its meaning when its line breaks become newlines, if none of them
  stands in a string (`run_newlines`); one that does makes the text invalid, whatever follows
  (`run_quoted`).
-/

namespace Lib

inductive JsonToken where
  /-- One of the brackets, the colon and the comma. -/
  | punct (c : Char)
  /-- What stands between the quotes. -/
  | str (raw : List Char)
  /-- A number or a word. -/
  | atom (text : List Char)

/-- What takes the tokens. `invalid` is raised for a text that has no tokens. -/
structure JsonMachine (σ ε α : Type) where
  start : σ
  feed : σ → JsonToken → Except ε σ
  close : σ → Except ε α
  invalid : ε

/-- Where the scanner is: outside of string literals with the atom read so far, in a literal, or behind
a backslash in one. -/
inductive ScanMode where
  | outside (atom : List Char)
  | quoted (raw : List Char)
  | escaped (raw : List Char)

structure JsonScan (σ : Type) where
  mode : ScanMode
  state : σ

/-- The white space of JSON. -/
def isJsonSpace (c : Char) : Bool := c = ' ' || c = '\t' || c = '\n' || c = '\r'

def isJsonPunct (c : Char) : Bool :=
  c = '[' || c = ']' || c = '\x7b' || c = '\x7d' || c = ':' || c = ','

/-- The characters of numbers and of words. -/
def isAtomChar (c : Char) : Bool := c.isAlphanum || c = '+' || c = '-' || c = '.'

/-- A control character, which a string literal may not contain. -/
def isControl (c : Char) : Bool := c.toNat < 0x20

namespace JsonMachine

variable {σ ε α : Type} (M : JsonMachine σ ε α)

/-- The atom ends. -/
def flush (atom : List Char) (s : σ) : Except ε σ := if atom = [] then .ok s else M.feed s (.atom atom)

/-- A character outside of string literals that is part of no atom. -/
def separate (c : Char) (s : σ) : Except ε (JsonScan σ) :=
  if isJsonSpace c then .ok ⟨.outside [], s⟩
  else if c = '"' then .ok ⟨.quoted [], s⟩
  else if isJsonPunct c then (M.feed s (.punct c)).map (⟨.outside [], ·⟩)
  else .error M.invalid

def step (x : JsonScan σ) (c : Char) : Except ε (JsonScan σ) :=
  match x.mode with
  | .outside atom =>
    if isAtomChar c then .ok ⟨.outside (atom ++ [c]), x.state⟩
    else (M.flush atom x.state).bind (M.separate c)
  | .quoted raw =>
    if isControl c then .error M.invalid
    else if c = '"' then (M.feed x.state (.str raw)).map (⟨.outside [], ·⟩)
    else if c = '\\' then .ok ⟨.escaped (raw ++ [c]), x.state⟩
    else .ok ⟨.quoted (raw ++ [c]), x.state⟩
  | .escaped raw =>
    if isControl c then .error M.invalid else .ok ⟨.quoted (raw ++ [c]), x.state⟩

def run (x : JsonScan σ) : List Char → Except ε (JsonScan σ)
  | [] => .ok x
  | c :: cs => (M.step x c).bind fun x => run x cs

/-- The end of the text. -/
def finish (x : JsonScan σ) : Except ε α :=
  match x.mode with
  | .outside atom => (M.flush atom x.state).bind M.close
  | .quoted _ | .escaped _ => .error M.invalid

def loads (cs : List Char) : Except ε α := (M.run ⟨.outside [], M.start⟩ cs).bind M.finish

end JsonMachine

/-- The scanner is in a string literal. -/
def JsonScan.InString {σ : Type} (x : JsonScan σ) : Prop := ∀ atom, x.mode ≠ .outside atom

/-- A line break that is neither white space of JSON nor a control character. -/
def isQuotedBreak (c : Char) : Bool := isLineBreak c && !isJsonSpace c && !isControl c

section

variable {σ ε α : Type} {M : JsonMachine σ ε α} {x y : JsonScan σ}

namespace JsonMachine

theorem run_append (x : JsonScan σ) (cs ds : List Char) :
    M.run x (cs ++ ds) = (M.run x cs).bind fun y => M.run y ds := by
  induction cs generalizing x with
  | nil => rfl
  | cons c cs ih =>
    rw [List.cons_append, run, run]
    cases M.step x c with
    | error e => rfl
    | ok z => exact ih z

/-- A run that succeeds succeeds on its first part. -/
theorem run_append_ok {cs ds : List Char} (h : M.run x (cs ++ ds) = .ok y) :
    ∃ z, M.run x cs = .ok z ∧ M.run z ds = .ok y := by
  rw [run_append] at h
  cases hz : M.run x cs with
  | error e => rw [hz] at h; cases h
  | ok z => exact ⟨z, rfl, by rw [hz] at h; exact h⟩

theorem run_cons_ok {c : Char} {cs : List Char} (h : M.run x (c :: cs) = .ok y) :
    ∃ z, M.step x c = .ok z ∧ M.run z cs = .ok y := by
  rw [run] at h
  cases hz : M.step x c with
  | error e => rw [hz] at h; cases h
  | ok z => exact ⟨z, rfl, by rw [hz] at h; exact h⟩

/-- White space that is read outside of string literals. -/
theorem step_space {atom : List Char} {c : Char} (hc : isJsonSpace c = true)
    (hx : x.mode = .outside atom) :
    M.step x c = (M.flush atom x.state).map fun s => ⟨.outside [], s⟩ := by
  have hatom : isAtomChar c = false := by
    simp only [isJsonSpace, Bool.or_eq_true, decide_eq_true_eq] at hc
    rcases hc with ((rfl | rfl) | rfl) | rfl <;> decide
  simp only [step, hx, hatom]
  cases M.flush atom x.state with
  | error e => rfl
  | ok s =>
    show M.separate c s = .ok ⟨.outside [], s⟩
    rw [separate, if_pos hc]

/-- A control character in a string literal. -/
theorem step_control {c : Char} (hc : isControl c = true) (hx : x.InString) :
    M.step x c = .error M.invalid := by
  unfold step
  split
  · rename_i atom hmode
    exact absurd hmode (hx atom)
  · rw [if_pos hc]
  · rw [if_pos hc]

/-- Outside of string literals a character that JSON does not know is invalid. -/
theorem step_unknown {atom : List Char} {c : Char} (hatom : isAtomChar c = false)
    (hpunct : isJsonPunct c = false) (hquote : c ≠ '"') (hspace : isJsonSpace c = false)
    (hx : x.mode = .outside atom) : M.step x c ≠ .ok y := by
  intro h
  simp only [step, hx, hatom] at h
  cases hflush : M.flush atom x.state with
  | error e => rw [hflush] at h; cases h
  | ok s =>
    have hsep : M.separate c s = .error M.invalid := by
      simp [separate, hspace, hquote, hpunct]
    rw [hflush] at h
    have hbad : M.separate c s = .ok y := h
    rw [hsep] at hbad
    cases hbad

/-- Of the white space only that of JSON stands outside of string literals, and the scanner stays
there. -/
theorem step_outside {atom : List Char} {c : Char} (hc : isSpace c = true)
    (hx : x.mode = .outside atom) (h : M.step x c = .ok y) :
    isJsonSpace c = true ∧ y.mode = .outside [] := by
  have hnone : ∀ n ∈ spaces, isAtomChar (Char.ofNat n) = false ∧
      isJsonPunct (Char.ofNat n) = false ∧ Char.ofNat n ≠ '"' := by decide +kernel
  obtain ⟨hatom, hpunct, hquote⟩ :=
    Char.ofNat_toNat c ▸ hnone c.toNat (by simpa [isSpace] using hc)
  cases hspace : isJsonSpace c with
  | true =>
    refine ⟨rfl, ?_⟩
    rw [step_space hspace hx] at h
    cases hflush : M.flush atom x.state with
    | error e => rw [hflush] at h; cases h
    | ok s =>
      rw [hflush] at h
      cases h
      rfl
  | false => exact absurd h (step_unknown hatom hpunct hquote hspace hx)

/-- What a line break does: outside of string literals it ends the atom as a newline does, and in one it
is none of the characters that JSON knows. -/
theorem scan_lineBreak {c : Char} (hbreak : isLineBreak c = true) (h : M.step x c = .ok y) :
    (M.step x '\n' = .ok y ∧ y.mode = .outside [] ∧ isQuotedBreak c = false) ∨
      (x.InString ∧ isQuotedBreak c = true) := by
  cases hmode : x.mode with
  | outside atom =>
    obtain ⟨hspace, hy⟩ := step_outside (isSpace_of_isLineBreak hbreak) hmode h
    rw [step_space hspace hmode] at h
    exact .inl ⟨by rw [step_space (by decide) hmode, h], hy, by simp [isQuotedBreak, hspace]⟩
  | quoted raw | escaped raw =>
    have hin : x.InString := fun atom h => by rw [hmode] at h; cases h
    refine .inr ⟨hin, ?_⟩
    cases hcontrol : isControl c with
    | true => rw [step_control hcontrol hin] at h; cases h
    | false =>
      have hspace : isJsonSpace c = false := by
        cases hspace : isJsonSpace c with
        | false => rfl
        | true =>
          simp only [isJsonSpace, Bool.or_eq_true, decide_eq_true_eq] at hspace
          rcases hspace with ((rfl | rfl) | rfl) | rfl
          · exact absurd hbreak (by decide)
          all_goals exact absurd hcontrol (by decide)
      simp [isQuotedBreak, hbreak, hspace, hcontrol]

/-- The line breaks of a text that is read may become newlines, if none stands in a string. -/
theorem run_newlines {cr : Bool} {cs : List Char} (h : M.run x cs = .ok y)
    (hnone : ∀ c ∈ cs, isQuotedBreak c = false) (hcr : cr = true → x.mode = .outside []) :
    M.run x (newlines cr cs) = .ok y := by
  induction cs generalizing x cr with
  | nil => exact h
  | cons c cs ih =>
    obtain ⟨z, hstep, hrun⟩ := run_cons_ok h
    have htail : ∀ d ∈ cs, isQuotedBreak d = false := fun d hd => hnone d (List.mem_cons_of_mem c hd)
    unfold newlines
    split
    · rename_i hc
      -- the newline after `\r` reads nothing
      rw [hc.1, step_space (by decide) (hcr hc.2)] at hstep
      have hx : z = x := by
        have hmode := hcr hc.2
        cases x
        cases hmode
        exact (Except.ok.inj hstep).symm
      subst hx
      exact ih hrun htail (fun h => by cases h)
    · split
      · rename_i hbreak
        rcases scan_lineBreak hbreak hstep with ⟨hnl, hmode, -⟩ | ⟨-, hquoted⟩
        · rw [run, hnl]
          exact ih hrun htail fun _ => hmode
        · rw [hnone c List.mem_cons_self] at hquoted
          cases hquoted
      · rw [run, hstep]
        exact ih hrun htail (fun h => by cases h)

/-- A text of which only the newlines were made of other line breaks of JSON. -/
theorem run_of_newlines {cr : Bool} {cs : List Char} (h : M.run x (newlines cr cs) = .ok y)
    (hjson : ∀ c ∈ cs, isLineBreak c = true → isJsonSpace c = true)
    (hcr : cr = true → x.mode = .outside []) : M.run x cs = .ok y := by
  induction cs generalizing x cr with
  | nil => exact h
  | cons c cs ih =>
    have htail : ∀ d ∈ cs, isLineBreak d = true → isJsonSpace d = true := fun d hd =>
      hjson d (List.mem_cons_of_mem c hd)
    unfold newlines at h
    split at h
    · rename_i hc
      have hstep : M.step x '\n' = .ok x := by
        have hmode := hcr hc.2
        rw [step_space (by decide) hmode]
        cases x
        cases hmode
        rfl
      rw [hc.1, run, hstep]
      exact ih h htail fun h => by cases h
    · split at h
      · rename_i hbreak
        obtain ⟨z, hstep, hrun⟩ := run_cons_ok h
        cases hmode : x.mode with
        | outside atom =>
          have hz := (step_outside (by decide) hmode hstep).2
          rw [step_space (by decide) hmode] at hstep
          rw [run, step_space (hjson c List.mem_cons_self hbreak) hmode, hstep]
          exact ih hrun htail fun _ => hz
        | quoted raw | escaped raw =>
          rw [step_control (by decide) fun atom h => by rw [hmode] at h; cases h] at hstep
          cases hstep
      · obtain ⟨z, hstep, hrun⟩ := run_cons_ok h
        rw [run, hstep]
        exact ih hrun htail fun h => by cases h

/-- The line breaks of a text that is read. -/
theorem run_breaks {cs : List Char} (h : M.run x cs = .ok y) :
    ∀ c ∈ cs, isLineBreak c = true → isJsonSpace c = true ∨ isQuotedBreak c = true := by
  induction cs generalizing x with
  | nil => exact fun c hc => by cases hc
  | cons d cs ih =>
    obtain ⟨z, hstep, hrun⟩ := run_cons_ok h
    refine List.forall_mem_cons.mpr ⟨fun hbreak => ?_, ih hrun⟩
    cases hmode : x.mode with
    | outside atom => exact .inl (step_outside (isSpace_of_isLineBreak hbreak) hmode hstep).1
    | quoted raw | escaped raw =>
      rcases scan_lineBreak hbreak hstep with ⟨hnl, -⟩ | ⟨-, hquoted⟩
      · rw [step_control (by decide) fun atom h => by rw [hmode] at h; cases h] at hnl
        cases hnl
      · exact .inr hquoted

/-- After the text before a line break that stands in a string, a newline is invalid and so is the
end of the text. -/
theorem run_quoted {cs ds : List Char} {c : Char} (h : M.run x (cs ++ c :: ds) = .ok y)
    (hnone : ∀ d ∈ cs, isQuotedBreak d = false) (hc : isQuotedBreak c = true) :
    ∃ z, M.run x (newlines false cs) = .ok z ∧ z.InString ∧
      ∀ rest, M.run x (newlines false cs ++ '\n' :: rest) = .error M.invalid := by
  obtain ⟨z, hz, hrest⟩ := run_append_ok h
  obtain ⟨w, hstep, -⟩ := run_cons_ok hrest
  have hbreak : isLineBreak c = true := by
    simp only [isQuotedBreak, Bool.and_eq_true] at hc
    exact hc.1.1
  have hin : z.InString := by
    rcases scan_lineBreak hbreak hstep with ⟨-, -, hno⟩ | ⟨hin, -⟩
    · rw [hc] at hno
      cases hno
    · exact hin
  have hrun : M.run x (newlines false cs) = .ok z := run_newlines hz hnone fun h => by cases h
  refine ⟨z, hrun, hin, fun rest => ?_⟩
  rw [run_append, hrun]
  show (M.step z '\n').bind _ = _
  rw [step_control (by decide) hin]
  rfl

/-- A text that is accepted, with newlines for its line breaks. -/
theorem loads_newlines {cs : List Char} {v : α} (h : M.loads cs = .ok v)
    (hnone : ∀ c ∈ cs, isQuotedBreak c = false) : M.loads (newlines false cs) = .ok v := by
  unfold loads at h ⊢
  cases hrun : M.run ⟨.outside [], M.start⟩ cs with
  | error e => rw [hrun] at h; cases h
  | ok y =>
    rw [run_newlines hrun hnone (fun h => by cases h), ← hrun]
    exact h

theorem loads_of_newlines {cs : List Char} {v : α} (h : M.loads (newlines false cs) = .ok v)
    (hjson : ∀ c ∈ cs, isLineBreak c = true → isJsonSpace c = true) : M.loads cs = .ok v := by
  unfold loads at h ⊢
  cases hrun : M.run ⟨.outside [], M.start⟩ (newlines false cs) with
  | error e => rw [hrun] at h; cases h
  | ok y =>
    rw [run_of_newlines hrun hjson (fun h => by cases h), ← hrun]
    exact h

theorem loads_breaks {cs : List Char} {v : α} (h : M.loads cs = .ok v) :
    ∀ c ∈ cs, isLineBreak c = true → isJsonSpace c = true ∨ isQuotedBreak c = true := by
  unfold loads at h
  cases hrun : M.run ⟨.outside [], M.start⟩ cs with
  | error e => rw [hrun] at h; cases h
  | ok y => exact run_breaks hrun

/-- White space is read outside of string literals, and the scanner stays where it is. -/
theorem run_outside {atom : List Char} {blanks : List Char} (hb : ∀ c ∈ blanks, isSpace c = true)
    (hx : x.mode = .outside atom) (h : M.run x blanks = .ok y) : ¬ y.InString := by
  induction blanks generalizing x atom with
  | nil =>
    cases h
    exact fun hin => hin atom hx
  | cons c blanks ih =>
    obtain ⟨z, hstep, hrun⟩ := run_cons_ok h
    have hz := (step_outside (hb c List.mem_cons_self) hx hstep).2
    exact ih (fun d hd => hb d (List.mem_cons_of_mem c hd)) hz hrun

/-- A text with a line break in a string, with newlines for its line breaks and cut off behind that one
or in the white space before it, is refused. -/
theorem loads_quoted {cs ds text blanks rest : List Char} {c : Char} {v : α}
    (h : M.loads (cs ++ c :: ds) = .ok v) (hnone : ∀ d ∈ cs, isQuotedBreak d = false)
    (hc : isQuotedBreak c = true) (hrest : rest = [] ∨ ∃ more, rest = '\n' :: more)
    (htext : newlines false cs ++ rest = text ++ blanks) (hblanks : ∀ d ∈ blanks, isSpace d = true) :
    M.loads text = .error M.invalid := by
  unfold loads at h ⊢
  cases hrun : M.run ⟨.outside [], M.start⟩ (cs ++ c :: ds) with
  | error e => rw [hrun] at h; cases h
  | ok y =>
    obtain ⟨z, hz, hin, herror⟩ := run_quoted hrun hnone hc
    -- the text goes past the text before the line break, or ends in white space of it
    rcases List.append_eq_append_iff.mp htext with ⟨more, htext, hmore⟩ | ⟨more, hcs, hblank⟩
    · cases more with
      | nil =>
        rw [htext, List.append_nil, hz]
        cases hmode : z.mode with
        | outside atom => exact absurd hmode (hin atom)
        | quoted raw | escaped raw =>
          show M.finish z = _
          rw [finish, hmode]
      | cons d more =>
        have hd : d = '\n' := by
          rcases hrest with hnil | ⟨tail, htail⟩
          · rw [hnil] at hmore
            cases hmore
          · rw [htail] at hmore
            exact (List.cons.inj hmore).1.symm
        rw [htext, hd, herror]
        rfl
    · rw [hcs] at hz
      obtain ⟨u, hu, hblankrun⟩ := run_append_ok hz
      have hspaces : ∀ d ∈ more, isSpace d = true := fun d hd =>
        hblanks d (hblank ▸ List.mem_append_left _ hd)
      rw [hu]
      show M.finish u = _
      cases hmode : u.mode with
      | outside atom => exact absurd hin (run_outside hspaces hmode hblankrun)
      | quoted raw | escaped raw => rw [finish, hmode]

/-- Outside of string literals there is no backquote, so no line of a text that is read begins with one,
if no line break stands in a string. -/
theorem run_notBegun {cr : Bool} {line cs : List Char} (h : M.run x cs = .ok y)
    (hnone : ∀ c ∈ cs, isQuotedBreak c = false) (hline : NotBegun '`' line)
    (hblank : (∀ c ∈ line, isSpace c = true) → ¬ x.InString) :
    ∀ l ∈ allLines cr line cs, NotBegun '`' l := by
  induction cs generalizing x cr line with
  | nil =>
    intro l hl
    rw [List.mem_singleton.mp hl]
    exact hline
  | cons c cs ih =>
    obtain ⟨z, hstep, hrun⟩ := run_cons_ok h
    have htail : ∀ d ∈ cs, isQuotedBreak d = false := fun d hd => hnone d (List.mem_cons_of_mem c hd)
    have hafter : isLineBreak c = true → ¬ z.InString := by
      intro hbreak
      rcases scan_lineBreak hbreak hstep with ⟨-, hmode, -⟩ | ⟨-, hquoted⟩
      · exact fun hin => hin [] hmode
      · rw [hnone c List.mem_cons_self] at hquoted
        cases hquoted
    rw [allLines]
    split
    · rename_i hcr
      refine ih hrun htail hline fun _ => hafter ?_
      rw [hcr.1]
      decide
    · split
      · rename_i hbreak
        exact List.forall_mem_cons.mpr ⟨hline, ih hrun htail (.nil '`') fun _ => hafter hbreak⟩
      · have hout : (∀ d ∈ line, isSpace d = true) → ∃ atom, x.mode = .outside atom := by
          intro hspaces
          by_contra hno
          exact hblank hspaces fun atom hmode => hno ⟨atom, hmode⟩
        refine ih hrun htail (hline.concat fun hspaces => .inr ?_) fun hspaces => ?_
        · rintro rfl
          obtain ⟨atom, hmode⟩ := hout hspaces
          exact step_unknown (by decide) (by decide) (by decide) (by decide) hmode hstep
        · obtain ⟨atom, hmode⟩ := hout fun d hd => hspaces d (List.mem_append_left _ hd)
          have hspace := hspaces c (List.mem_append_right _ List.mem_cons_self)
          exact fun hin => hin [] (step_outside hspace hmode hstep).2

end JsonMachine
end
end Lib
