import PennyCore.Lib.Text

/-!
# Lines split and joined again

`"\n".join(s.splitlines())` puts one newline in place of every line break (`newlines`) and loses a line
break at the end. `allLines` are the lines read one character at a time: whether the last character was
`\r` is carried along, and an empty line at the end stays.

* `allLines_eq`: they are the lines of `splitlines`, but for an empty last one.
* `intercalate_allLines`: joined they are the text with newlines.
* `stripChars_newlines`: only the inside of the text matters for the stripped result.
-/

namespace Lib

def isLineBreak (c : Char) : Bool := lineBreaks.contains c.toNat

/-- The text with a newline for each line break; `cr` says that `\r` was read just before. -/
def newlines (cr : Bool) : List Char → List Char
  | [] => []
  | c :: cs =>
    if c = '\n' ∧ cr = true then newlines false cs
    else if isLineBreak c = true then '\n' :: newlines (c = '\r') cs
    else c :: newlines false cs

/-- The lines of a text of which `line` is read, the last one also if it is empty. -/
def allLines (cr : Bool) (line : List Char) : List Char → List (List Char)
  | [] => [line]
  | c :: cs =>
    if c = '\n' ∧ cr = true then allLines false line cs
    else if isLineBreak c = true then line :: allLines (c = '\r') [] cs
    else allLines false (line ++ [c]) cs

theorem isSpace_of_isLineBreak {c : Char} (h : isLineBreak c = true) : isSpace c = true := by
  have hall : ∀ n ∈ lineBreaks, spaces.contains n = true := by decide
  exact hall c.toNat (by simpa [isLineBreak] using h)

theorem allLines_ne_nil (cr : Bool) (line cs : List Char) : allLines cr line cs ≠ [] := by
  induction cs generalizing cr line with
  | nil => exact List.cons_ne_nil _ _
  | cons c cs ih =>
    unfold allLines
    split
    · exact ih _ _
    · split
      · exact List.cons_ne_nil _ _
      · exact ih _ _

/-- A `\r` before matters to a newline only. -/
theorem allLines_cr {line cs : List Char} (h : cs.head? ≠ some '\n') :
    allLines true line cs = allLines false line cs := by
  cases cs with
  | nil => rfl
  | cons c cs =>
    have hc : c ≠ '\n' := fun hc => h (congrArg some hc)
    simp [allLines, hc]

/-- The lines of `splitlines`, and an empty line after a line break at the end. -/
theorem allLines_eq (line cs : List Char) :
    (allLines false line cs).map String.ofList = splitLinesFrom line cs ∨
      (allLines false line cs).map String.ofList = splitLinesFrom line cs ++ [""] := by
  fun_induction splitLinesFrom line cs with
  | case1 line hline =>
    rw [List.isEmpty_iff.mp hline]
    exact .inr rfl
  | case2 line hline => exact .inl rfl
  | case3 line cs ih =>
    have hstep : allLines false line ('\r' :: '\n' :: cs) = line :: allLines false [] cs := rfl
    rw [hstep, List.map_cons]
    rcases ih with ih | ih
    · exact .inl (by rw [ih])
    · exact .inr (by rw [ih]; rfl)
  | case4 line c cs hne hbreak ih =>
    have hstep : allLines false line (c :: cs) = line :: allLines false [] cs := by
      rw [allLines, if_neg (by simp), if_pos (show isLineBreak c = true from hbreak)]
      by_cases hc : c = '\r'
      · rw [decide_eq_true hc, allLines_cr]
        intro hhead
        cases cs with
        | nil => cases hhead
        | cons d cs => exact hne cs hc (by rw [Option.some.inj hhead])
      · rw [decide_eq_false hc]
    rw [hstep, List.map_cons]
    rcases ih with ih | ih
    · exact .inl (by rw [ih])
    · exact .inr (by rw [ih]; rfl)
  | case5 line c cs hne hbreak ih =>
    have hstep : allLines false line (c :: cs) = allLines false (line ++ [c]) cs := by
      rw [allLines, if_neg (by simp), if_neg (show ¬ isLineBreak c = true from hbreak)]
    rw [hstep]
    exact ih

/-- Joined again. -/
theorem intercalate_allLines (cr : Bool) (line cs : List Char) :
    ['\n'].intercalate (allLines cr line cs) = line ++ newlines cr cs := by
  induction cs generalizing cr line with
  | nil => simp [allLines, newlines]
  | cons c cs ih =>
    unfold allLines newlines
    split
    · exact ih _ _
    · split
      · rw [List.intercalate_cons_of_ne_nil (allLines_ne_nil _ _ _), ih]
        simp
      · rw [ih]
        simp

/-- One more line. -/
theorem intercalate_concat {lines : List (List Char)} (h : lines ≠ []) (last : List Char) :
    ['\n'].intercalate (lines ++ [last]) = ['\n'].intercalate lines ++ '\n' :: last := by
  induction lines with
  | nil => exact absurd rfl h
  | cons line lines ih =>
    by_cases hnil : lines = []
    · subst hnil
      simp
    · rw [List.cons_append, List.intercalate_cons_of_ne_nil (by simp), ih hnil,
        List.intercalate_cons_of_ne_nil hnil]
      simp only [List.append_assoc]

/-- Further lines are read behind a newline. -/
theorem intercalate_append {lines : List (List Char)} (h : lines ≠ []) (after : List (List Char)) :
    ∃ more, ['\n'].intercalate (lines ++ after) = ['\n'].intercalate lines ++ more ∧
      (more = [] ∨ ∃ tail, more = '\n' :: tail) := by
  induction lines with
  | nil => exact absurd rfl h
  | cons line lines ih =>
    by_cases hnil : lines = []
    · subst hnil
      cases after with
      | nil => exact ⟨[], by simp, .inl rfl⟩
      | cons next after =>
        refine ⟨'\n' :: ['\n'].intercalate (next :: after), ?_, .inr ⟨_, rfl⟩⟩
        rw [List.cons_append, List.intercalate_cons_of_ne_nil (by simp)]
        simp
    · obtain ⟨more, hmore, hends⟩ := ih hnil
      refine ⟨more, ?_, hends⟩
      rw [List.cons_append, List.intercalate_cons_of_ne_nil (by simp [hnil]), hmore,
        List.intercalate_cons_of_ne_nil hnil]
      simp only [List.append_assoc]

/-- What has no line break is one line. -/
theorem allLines_unbroken {cs : List Char} (h : ∀ c ∈ cs, isLineBreak c = false) (cr : Bool)
    (line : List Char) : allLines cr line cs = [line ++ cs] := by
  induction cs generalizing cr line with
  | nil => simp [allLines]
  | cons c cs ih =>
    have hc : ¬ isLineBreak c = true := by rw [h c List.mem_cons_self]; decide
    have hnl : c ≠ '\n' := by
      rintro rfl
      exact hc (by decide)
    rw [allLines, if_neg fun h => hnl h.1, if_neg hc, ih fun d hd => h d (List.mem_cons_of_mem c hd)]
    simp

/-- The first line, if no line break was read before it. -/
theorem allLines_first {cs : List Char} (h : ∀ c ∈ cs, isLineBreak c = false) {c : Char}
    (hc : isLineBreak c = true) (line rest : List Char) :
    allLines false line (cs ++ c :: rest) = (line ++ cs) :: allLines (c = '\r') [] rest := by
  induction cs generalizing line with
  | nil =>
    rw [List.nil_append, allLines, if_neg (by simp), if_pos hc, List.append_nil]
  | cons d cs ih =>
    have hd : ¬ isLineBreak d = true := by rw [h d List.mem_cons_self]; decide
    rw [List.cons_append, allLines, if_neg (by simp), if_neg hd,
      ih fun e he => h e (List.mem_cons_of_mem d he)]
    simp

/-- What has no line break continues the last line. -/
theorem allLines_concat {t : List Char} (ht : ∀ c ∈ t, isLineBreak c = false) (cr : Bool)
    (line cs : List Char) :
    ∃ init last, allLines cr line cs = init ++ [last] ∧
      allLines cr line (cs ++ t) = init ++ [last ++ t] := by
  induction cs generalizing cr line with
  | nil => exact ⟨[], line, rfl, allLines_unbroken ht cr line⟩
  | cons c cs ih =>
    rw [List.cons_append, allLines, allLines]
    split
    · exact ih _ _
    · split
      · obtain ⟨init, last, hcs, hall⟩ := ih (decide (c = '\r')) []
        exact ⟨line :: init, last, by rw [hcs]; rfl, by rw [hall]; rfl⟩
      · exact ih _ _

/-- The last line is the end of the text. -/
theorem allLines_last (cr : Bool) (line : List Char) (hcr : cr = true → line = []) (cs : List Char) :
    ∃ init last, allLines cr line cs = init ++ [last] ∧ last <:+ line ++ cs := by
  induction cs generalizing cr line with
  | nil => exact ⟨[], line, rfl, by simp⟩
  | cons c cs ih =>
    rw [allLines]
    split
    · rename_i hc
      rw [hcr hc.2]
      obtain ⟨init, last, hcs, hlast⟩ := ih false [] fun h => by cases h
      exact ⟨init, last, hcs, hlast.trans (by simp)⟩
    · split
      · obtain ⟨init, last, hcs, hlast⟩ := ih (decide (c = '\r')) [] fun _ => rfl
        exact ⟨line :: init, last, by rw [hcs]; rfl, hlast.trans ⟨line ++ [c], by simp⟩⟩
      · obtain ⟨init, last, hcs, hlast⟩ := ih false (line ++ [c]) fun h => by cases h
        exact ⟨init, last, hcs, by simpa using hlast⟩

/-- The last line is behind every line break. -/
theorem allLines_last_break {d : Char} (hd : isLineBreak d = true) (cr : Bool) (line : List Char)
    (hcr : cr = true → line = []) (cs rest : List Char) :
    ∃ init last, allLines cr line (cs ++ d :: rest) = init ++ [last] ∧ last <:+ rest := by
  induction cs generalizing cr line with
  | nil =>
    rw [List.nil_append, allLines]
    split
    · rename_i hc
      rw [hcr hc.2]
      exact allLines_last false [] (fun h => by cases h) rest
    · obtain ⟨init, last, hcs, hlast⟩ := allLines_last (decide (d = '\r')) [] (fun _ => rfl) rest
      exact ⟨line :: init, last, by rw [hcs]; rfl, hlast⟩
  | cons c cs ih =>
    rw [List.cons_append, allLines]
    split
    · rename_i hc
      rw [hcr hc.2]
      exact ih false [] fun h => by cases h
    · split
      · obtain ⟨init, last, hcs, hlast⟩ := ih (decide (c = '\r')) [] fun _ => rfl
        exact ⟨line :: init, last, by rw [hcs]; rfl, hlast⟩
      · exact ih false (line ++ [c]) fun h => by cases h

/-- The lines of a text that ends with no white space. -/
theorem splitLinesFrom_eq {cs : List Char} (hne : cs ≠ [])
    (hlast : ∀ c, cs.getLast? = some c → isSpace c = false) :
    splitLinesFrom [] cs = (allLines false [] cs).map String.ofList := by
  rcases allLines_eq [] cs with h | h
  · exact h.symm
  · rcases List.eq_nil_or_concat cs with rfl | ⟨cs, c, rfl⟩
    · exact absurd rfl hne
    · have hspace := hlast c (by simp)
      have hc : isLineBreak c = false := by
        rw [← Bool.not_eq_true]
        intro hbreak
        rw [isSpace_of_isLineBreak hbreak] at hspace
        cases hspace
      obtain ⟨init, last, -, hall⟩ := allLines_concat (t := [c])
        (fun d hd => by rw [List.mem_singleton.mp hd, hc]) false [] cs
      rw [List.concat_eq_append, hall, List.map_append] at h
      have hend := List.head_eq_of_cons_eq (List.append_inj' h rfl).2
      have hend := congrArg String.toList hend
      simp at hend

/-- The lines up to a newline and those after it. The newline belongs to the `\r` before it, if the
text before ends so: then its last line is empty and lost. -/
theorem allLines_newline (cr : Bool) (line : List Char) (hcr : cr = true → line = [])
    (cs rest : List Char) :
    ∃ before, (allLines cr line cs = before ∨ allLines cr line cs = before ++ [[]]) ∧
      allLines cr line (cs ++ '\n' :: rest) = before ++ allLines false [] rest := by
  induction cs generalizing cr line with
  | nil =>
    cases cr with
    | true =>
      rw [hcr rfl]
      exact ⟨[], .inr rfl, rfl⟩
    | false => exact ⟨[line], .inl rfl, rfl⟩
  | cons c cs ih =>
    rw [List.cons_append, allLines, allLines]
    split
    · exact ih _ _ (fun h => by cases h)
    · split
      · obtain ⟨before, hbefore, hrest⟩ := ih (decide (c = '\r')) [] (fun _ => rfl)
        refine ⟨line :: before, ?_, by rw [hrest]; rfl⟩
        rcases hbefore with hbefore | hbefore
        · exact .inl (by rw [hbefore])
        · exact .inr (by rw [hbefore]; rfl)
      · exact ih _ _ (fun h => by cases h)

/-- The lines up to a line break of one character and those after it. -/
theorem allLines_break {c : Char} (hc : isLineBreak c = true) (hnl : c ≠ '\n') (hret : c ≠ '\r')
    (cr : Bool) (line cs rest : List Char) :
    allLines cr line (cs ++ c :: rest) = allLines cr line cs ++ allLines false [] rest := by
  induction cs generalizing cr line with
  | nil =>
    have hstep : allLines cr line (c :: rest) = line :: allLines (c = '\r') [] rest := by
      rw [allLines, if_neg fun h => hnl h.1, if_pos hc]
    rw [List.nil_append, hstep, decide_eq_false hret]
    rfl
  | cons d cs ih =>
    rw [List.cons_append, allLines, allLines]
    split
    · exact ih _ _
    · split
      · rw [ih]
        rfl
      · exact ih _ _

/-! ## The first character of a line -/

/-- The line does not begin with `t`, after white space. -/
def NotBegun (t : Char) (line : List Char) : Prop := (line.dropWhile isSpace).head? ≠ some t

theorem NotBegun.nil (t : Char) : NotBegun t [] := by simp [NotBegun]

theorem NotBegun.blank {t : Char} {line : List Char} (h : ∀ c ∈ line, isSpace c = true) :
    NotBegun t line := by
  rw [NotBegun, List.dropWhile_eq_nil_iff.mpr h]
  simp

/-- A line of white space begins with the character that comes next. -/
theorem NotBegun.concat {t c : Char} {line : List Char} (h : NotBegun t line)
    (hc : (∀ d ∈ line, isSpace d = true) → isSpace c = true ∨ c ≠ t) : NotBegun t (line ++ [c]) := by
  unfold NotBegun at h ⊢
  rw [List.dropWhile_append]
  split
  · rename_i hempty
    rw [List.isEmpty_iff, List.dropWhile_eq_nil_iff] at hempty
    cases hspace : isSpace c with
    | true =>
      rw [List.dropWhile_cons_of_pos hspace]
      simp
    | false =>
      have hne : c ≠ t := (hc hempty).resolve_left (by rw [hspace]; decide)
      rw [List.dropWhile_cons_of_neg (by rw [hspace]; decide)]
      simpa using hne
  · rename_i hne
    rw [List.head?_append_of_ne_nil _ fun hnil => hne (List.isEmpty_iff.mpr hnil)]
    exact h

/-- White space in front of a text begins none of its lines. -/
theorem notBegun_front {t : Char} {front cs : List Char} (hfront : ∀ c ∈ front, isSpace c = true)
    (h : ∀ cr line, (∀ c ∈ line, isSpace c = true) → ∀ l ∈ allLines cr line cs, NotBegun t l)
    {cr : Bool} {line : List Char} (hline : ∀ c ∈ line, isSpace c = true) :
    ∀ l ∈ allLines cr line (front ++ cs), NotBegun t l := by
  induction front generalizing cr line with
  | nil => exact h cr line hline
  | cons c front ih =>
    have htail : ∀ d ∈ front, isSpace d = true := fun d hd => hfront d (List.mem_cons_of_mem c hd)
    rw [List.cons_append, allLines]
    split
    · exact ih htail hline
    · split
      · refine List.forall_mem_cons.mpr ⟨.blank hline, ih htail fun d hd => ?_⟩
        cases hd
      · refine ih htail fun d hd => ?_
        rcases List.mem_append.mp hd with hd | hd
        · exact hline d hd
        · rw [List.mem_singleton.mp hd]
          exact hfront c List.mem_cons_self

/-- Nor does white space behind it. -/
theorem notBegun_back {t : Char} {cs back : List Char} (hback : ∀ c ∈ back, isSpace c = true)
    {cr : Bool} {line : List Char} (h : ∀ l ∈ allLines cr line cs, NotBegun t l) :
    ∀ l ∈ allLines cr line (cs ++ back), NotBegun t l := by
  induction cs generalizing cr line with
  | nil =>
    have hline : NotBegun t line := h line (List.mem_singleton.mpr rfl)
    clear h
    rw [List.nil_append]
    induction back generalizing cr line with
    | nil =>
      intro l hl
      rw [List.mem_singleton.mp hl]
      exact hline
    | cons c back ih =>
      have htail : ∀ d ∈ back, isSpace d = true := fun d hd => hback d (List.mem_cons_of_mem c hd)
      rw [allLines]
      split
      · exact ih htail hline
      · split
        · exact List.forall_mem_cons.mpr ⟨hline, ih htail (.nil t)⟩
        · exact ih htail (hline.concat fun _ => .inl (hback c List.mem_cons_self))
  | cons c cs ih =>
    rw [List.cons_append, allLines]
    rw [allLines] at h
    by_cases hcr : c = '\n' ∧ cr = true
    · rw [if_pos hcr] at h ⊢
      exact ih h
    · rw [if_neg hcr] at h ⊢
      by_cases hbreak : isLineBreak c = true
      · rw [if_pos hbreak] at h ⊢
        obtain ⟨hfirst, hrest⟩ := List.forall_mem_cons.mp h
        exact List.forall_mem_cons.mpr ⟨hfirst, ih hrest⟩
      · rw [if_neg hbreak] at h ⊢
        exact ih h

/-! ## Stripped -/

theorem stripChars_concat {cs : List Char} {c : Char} (hc : isSpace c = true) :
    stripChars (cs ++ [c]) = stripChars cs := by
  unfold stripChars
  rw [List.dropWhile_append]
  split
  · rename_i hempty
    rw [List.isEmpty_iff.mp hempty, List.dropWhile_cons_of_pos hc]
    rfl
  · rw [List.rdropWhile_concat_pos _ _ _ hc]

/-- White space at the ends is dropped. -/
theorem stripChars_blanks {front back : List Char} (cs : List Char)
    (hfront : ∀ c ∈ front, isSpace c = true) (hback : ∀ c ∈ back, isSpace c = true) :
    stripChars (front ++ cs ++ back) = stripChars cs := by
  induction back using List.reverseRecOn with
  | nil =>
    unfold stripChars
    rw [List.append_nil, List.dropWhile_append_of_pos hfront]
  | append_singleton back c ih =>
    rw [← List.append_assoc, stripChars_concat (hback c (by simp))]
    exact ih fun d hd => hback d (List.mem_append_left _ hd)

theorem dropWhile_newlines (cr : Bool) (cs : List Char) :
    (newlines cr cs).dropWhile isSpace = newlines false (cs.dropWhile isSpace) := by
  induction cs generalizing cr with
  | nil => rfl
  | cons c cs ih =>
    cases hc : isSpace c with
    | true =>
      rw [List.dropWhile_cons_of_pos hc, newlines]
      split
      · exact ih _
      · split
        · rw [List.dropWhile_cons_of_pos (by decide), ih]
        · rw [List.dropWhile_cons_of_pos hc, ih]
    | false =>
      have hbreak : ¬ isLineBreak c = true := fun h => by
        rw [isSpace_of_isLineBreak h] at hc
        cases hc
      have hnl : c ≠ '\n' := by
        rintro rfl
        exact hbreak (by decide)
      have hstep : ∀ cr, newlines cr (c :: cs) = c :: newlines false cs := fun cr => by
        rw [newlines, if_neg fun h => hnl h.1, if_neg hbreak]
      rw [List.dropWhile_cons_of_neg (by rw [hc]; decide), hstep, hstep,
        List.dropWhile_cons_of_neg (by rw [hc]; decide)]

/-- What one more character adds. -/
theorem newlines_concat (cr : Bool) (cs : List Char) (c : Char) :
    ∃ more, newlines cr (cs ++ [c]) = newlines cr cs ++ more ∧
      (isSpace c = true → ∀ d ∈ more, isSpace d = true) ∧ (isSpace c = false → more = [c]) := by
  induction cs generalizing cr with
  | nil =>
    rw [List.nil_append]
    unfold newlines
    split
    · rename_i hnl
      refine ⟨[], rfl, fun _ d hd => absurd hd List.not_mem_nil, fun hc => ?_⟩
      rw [hnl.1] at hc
      exact absurd hc (by decide)
    · split
      · rename_i hbreak
        refine ⟨['\n'], rfl, fun _ d hd => ?_, fun hc => ?_⟩
        · rw [List.mem_singleton.mp hd]
          decide
        · rw [isSpace_of_isLineBreak hbreak] at hc
          cases hc
      · exact ⟨[c], rfl, fun hc d hd => by rw [List.mem_singleton.mp hd, hc], fun _ => rfl⟩
  | cons b cs ih =>
    rw [List.cons_append, newlines, newlines]
    split
    · exact ih _
    · split
      · obtain ⟨more, hmore, hends⟩ := ih (decide (b = '\r'))
        exact ⟨more, by rw [hmore]; rfl, hends⟩
      · obtain ⟨more, hmore, hends⟩ := ih false
        exact ⟨more, by rw [hmore]; rfl, hends⟩

theorem rdropWhile_newlines (cr : Bool) (cs : List Char) :
    (newlines cr cs).rdropWhile isSpace = newlines cr (cs.rdropWhile isSpace) := by
  induction cs using List.reverseRecOn with
  | nil => rfl
  | append_singleton cs c ih =>
    obtain ⟨more, hmore, hspace, hchar⟩ := newlines_concat cr cs c
    cases hc : isSpace c with
    | true =>
      rw [List.rdropWhile_concat_pos _ _ _ hc, hmore, ← ih]
      clear hmore hchar ih
      have hall := hspace hc
      induction more using List.reverseRecOn with
      | nil => rw [List.append_nil]
      | append_singleton more d ih =>
        rw [← List.append_assoc, List.rdropWhile_concat_pos _ _ _ (hall d (by simp))]
        exact ih (fun h e he => hall e (List.mem_append_left _ he))
          fun e he => hall e (List.mem_append_left _ he)
    | false =>
      have hneg : ¬ isSpace c = true := by rw [hc]; decide
      rw [List.rdropWhile_concat_neg _ _ _ hneg, hmore, hchar hc,
        List.rdropWhile_concat_neg _ _ _ hneg]

theorem stripChars_newlines (cr : Bool) (cs : List Char) :
    stripChars (newlines cr cs) = newlines false (stripChars cs) := by
  unfold stripChars
  rw [dropWhile_newlines, rdropWhile_newlines]

/-- White space in front of a text that begins with none. -/
theorem stripChars_front (cr : Bool) {front cs : List Char} {c : Char} (more : List Char)
    (hfront : ∀ c ∈ front, isSpace c = true) (hhead : cs.head? = some c) (hc : isSpace c = false) :
    ∃ blanks,
      newlines false cs ++ more = stripChars (newlines cr (front ++ cs) ++ more) ++ blanks ∧
      ∀ d ∈ blanks, isSpace d = true := by
  have hne : ¬ isSpace c = true := by rw [hc]; decide
  obtain ⟨tail, rfl⟩ : ∃ tail, cs = c :: tail := by
    cases cs with
    | nil => cases hhead
    | cons d tail => exact ⟨tail, by rw [Option.some.inj hhead]⟩
  have hbreak : ¬ isLineBreak c = true := fun h => hne (isSpace_of_isLineBreak h)
  have hnl : c ≠ '\n' := by
    rintro rfl
    exact hbreak (by decide)
  have hstep : newlines false (c :: tail) = c :: newlines false tail := by
    rw [newlines, if_neg fun h => hnl h.1, if_neg hbreak]
  have hdrop : (newlines cr (front ++ c :: tail)).dropWhile isSpace =
      newlines false (c :: tail) := by
    rw [dropWhile_newlines, List.dropWhile_append_of_pos hfront, List.dropWhile_cons_of_neg hne]
  have hall : (newlines cr (front ++ c :: tail) ++ more).dropWhile isSpace =
      newlines false (c :: tail) ++ more := by
    rw [List.dropWhile_append, hdrop, hstep]
    rfl
  refine ⟨(newlines false (c :: tail) ++ more).rtakeWhile isSpace, ?_, fun d hd =>
    List.mem_rtakeWhile_imp hd⟩
  rw [stripChars, hall, List.rdropWhile_append_rtakeWhile]

end Lib
