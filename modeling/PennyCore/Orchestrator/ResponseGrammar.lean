import PennyCore.Orchestrator.JsonLoads
import PennyCore.Orchestrator.PlannerFallback

/-!
# The grammar of a model's answer

Both parsers of a model's answer are to accept one JSON object, alone or in one code fence, and no prose
(`InGrammar`, on the text as it stands). They cut the answer into lines, drop what follows the closing
fence, and join the rest with newlines before they parse it. So an answer is refused exactly as it should
be when nothing but a closing fence is dropped and every line break in the fence is one of JSON
(`KeptWhole`), or when what remains is no acceptable object (`rejectsProse_iff`).
-/

namespace PennyCore

open Lib
open LLMJudgePolicyEngine (parseJudgeResponse decisionOf)

/-! ## The grammar -/

def Blank (cs : List Char) : Prop := ∀ c ∈ cs, isSpace c = true

theorem blank_nil : Blank [] := fun _ hc => absurd hc List.not_mem_nil

/-- The text of one JSON object, from its first character to its last. -/
structure ObjectText (loads : String → Except JsonError PyVal) (cs : List Char) : Prop where
  stripped : StrippedChars cs
  object : ∃ obj, loads (.ofList cs) = .ok (.dict obj)

/-- What may follow the object: white space, or a line with a closing fence, and white space. -/
inductive Closed : List Char → Prop where
  | open {back : List Char} (hback : Blank back) : Closed back
  | fence {front back : List Char} (hfront : Blank front) {c : Char} (hmem : c ∈ front)
    (hbreak : isLineBreak c = true) (hback : Blank back) : Closed (front ++ "```".toList ++ back)

/-- One JSON object; or one line that begins with a fence, a JSON object, and at most a closing fence.
There is white space before, between and after, and nothing else. -/
inductive InGrammar (loads : String → Except JsonError PyVal) : List Char → Prop where
  | bare {front object back : List Char} (hfront : Blank front) (hobject : ObjectText loads object)
    (hback : Blank back) : InGrammar loads (front ++ object ++ back)
  | fenced {front line between object after : List Char} {c : Char} (hfront : Blank front)
    (hline : ∀ d ∈ line, isLineBreak d = false) (hbreak : isLineBreak c = true)
    (hbetween : Blank between) (hobject : ObjectText loads object) (hafter : Closed after) :
    InGrammar loads (front ++ ("```".toList ++ line ++ c :: (between ++ object)) ++ after)

/-! ## What the parsers keep -/

/-- The trimmed answer begins with a code fence. -/
def Fenced (raw : String) : Prop := "```".isPrefixOf (strip raw) = true

/-- The line begins with a code fence. -/
def isFence (line : String) : Bool := "```".isPrefixOf (strip line)

/-- The lines that are dropped: from the first fence after the first line on. -/
def droppedLines (raw : String) : List String :=
  (splitlines (strip raw)).tail.dropWhile fun line => !isFence line

/-- No line, or one that is a closing fence and nothing else. -/
def IsClosing (lines : List String) : Prop := lines = [] ∨ ∃ line, lines = [line] ∧ strip line = "```"

/-- The answer from the end of its first line on. -/
def afterFence (raw : String) : List Char := (strip raw).toList.dropWhile fun c => !isLineBreak c

/-- The text in the fence. -/
def enclosed (raw : String) : List Char :=
  stripChars (if (droppedLines raw).isEmpty then afterFence raw else (afterFence raw).rdrop 3)

/-- Nothing but a closing fence is dropped, and the lines in the fence end as lines of JSON do. -/
structure KeptWhole (raw : String) : Prop where
  closing : IsClosing (droppedLines raw)
  newlines : ∀ c ∈ enclosed raw, isLineBreak c = true → c = '\n' ∨ c = '\r'

theorem isFence_closing {line : String} (h : strip line = "```") : isFence line = true := by
  rw [isFence, h]
  exact String.startsWith_string_iff.mpr List.prefix_rfl

theorem answerText_fenced {raw : String} (h : Fenced raw) :
    answerText raw = strip ("\n".intercalate
      ((splitlines (strip raw)).tail.takeWhile fun line => !isFence line)) := if_pos h

theorem answerText_bare {raw : String} (h : ¬ Fenced raw) : answerText raw = strip raw := if_neg h

theorem fenced_iff {raw : String} : Fenced raw ↔ "```".toList <+: stripChars raw.toList := by
  rw [Fenced, String.isPrefixOf, String.startsWith_string_iff, strip, String.toList_ofList]
  rw [String.toList_ofList]

/-- No line of the text begins with a fence, if none of its lines begins with a backquote. -/
theorem isFence_of_notBegun {line : List Char} (h : NotBegun '`' line) :
    isFence (String.ofList line) = false := by
  cases hfence : isFence (String.ofList line) with
  | false => rfl
  | true =>
    rw [isFence, String.isPrefixOf, String.startsWith_string_iff, strip, String.toList_ofList,
      String.toList_ofList] at hfence
    rw [String.toList_ofList] at hfence
    obtain ⟨rest, hrest⟩ := hfence
    obtain ⟨tail, htail⟩ := List.rdropWhile_prefix isSpace (line.dropWhile isSpace)
    have hstrip : stripChars line ++ tail = line.dropWhile isSpace := htail
    rw [← hrest] at hstrip
    exact absurd (by rw [← hstrip]; rfl) h

/-- A line of white space and a fence is a closing one. -/
theorem strip_closing {blanks : List Char} (h : Blank blanks) :
    strip (.ofList (blanks ++ "```".toList)) = "```" := by
  have hstrip := stripChars_blanks "```".toList h blank_nil
  rw [List.append_nil] at hstrip
  rw [strip, String.toList_ofList, hstrip]
  decide

/-- A fenced answer and its lines: the trimmed answer is the first line, a line break, and the rest. -/
structure Cut (raw : String) (line : List Char) (c : Char) (rest : List Char) : Prop where
  text : stripChars raw.toList = "```".toList ++ line ++ c :: rest
  oneLine : ∀ d ∈ line, isLineBreak d = false
  isBreak : isLineBreak c = true

section

variable {raw : String} {line rest : List Char} {c : Char}

theorem Cut.fenced (h : Cut raw line c rest) : Fenced raw := by
  rw [fenced_iff, h.text, List.append_assoc]
  exact ⟨line ++ c :: rest, rfl⟩

theorem fence_unbroken : ∀ d ∈ "```".toList, isLineBreak d = false := by
  have hfence : ("```".toList.all fun d => !isLineBreak d) = true := by decide +kernel
  intro d hd
  simpa using List.all_eq_true.mp hfence d hd

theorem fence_oneLine (hline : ∀ d ∈ line, isLineBreak d = false) :
    ∀ d ∈ "```".toList ++ line, isLineBreak d = false := fun d hd =>
  (List.mem_append.mp hd).elim (fence_unbroken d) (hline d)

theorem Cut.lines (h : Cut raw line c rest) :
    (splitlines (strip raw)).tail = (allLines (c = '\r') [] rest).map String.ofList := by
  have hstripped := stripped_stripChars raw.toList
  rw [splitlines, strip, String.toList_ofList,
    splitLinesFrom_eq (by rw [h.text]; simp) hstripped.last, h.text,
    allLines_first (fence_oneLine h.oneLine) h.isBreak]
  rfl

theorem Cut.afterFence (h : Cut raw line c rest) : afterFence raw = c :: rest := by
  rw [PennyCore.afterFence, strip, String.toList_ofList, h.text,
    List.dropWhile_append_of_pos fun d hd => by rw [fence_oneLine h.oneLine d hd]; rfl,
    List.dropWhile_cons_of_neg (by rw [h.isBreak]; decide)]

theorem Cut.dropped (h : Cut raw line c rest) : droppedLines raw =
    ((allLines (c = '\r') [] rest).map String.ofList).dropWhile fun line => !isFence line := by
  rw [droppedLines, h.lines]

theorem Cut.parsed (h : Cut raw line c rest) : (answerText raw).toList =
    stripChars (['\n'].intercalate (((allLines (c = '\r') [] rest).takeWhile
      fun line => !isFence (.ofList line)))) := by
  rw [answerText_fenced h.fenced, h.lines, List.takeWhile_map, strip, String.toList_ofList,
    String.toList_intercalate, List.map_map]
  congr 2
  simp [Function.comp_def]

/-- A fenced answer with more than one line is cut at the end of the first. -/
theorem Fenced.cut (h : Fenced raw) :
    (∃ line c rest, Cut raw line c rest) ∨ (answerText raw).toList = [] := by
  obtain ⟨text, htext⟩ := fenced_iff.mp h
  have hsplit := List.takeWhile_append_dropWhile (p := fun c => !isLineBreak c) (l := text)
  have hline : ∀ d ∈ text.takeWhile fun c => !isLineBreak c, isLineBreak d = false := fun d hd => by
    simpa using List.mem_takeWhile_imp hd
  cases hdrop : text.dropWhile fun c => !isLineBreak c with
  | nil =>
    right
    rw [hdrop, List.append_nil] at hsplit
    rw [hsplit] at hline
    have hlines : splitlines (strip raw) = [strip raw] := by
      have hne : stripChars raw.toList ≠ [] := by
        rw [← htext]
        simp
      rw [splitlines, strip, String.toList_ofList, splitLinesFrom_eq hne (stripped_stripChars _).last,
        ← htext, allLines_unbroken (fence_oneLine hline)]
      rfl
    rw [answerText_fenced h, hlines]
    rfl
  | cons c rest =>
    refine .inl ⟨_, c, rest, ?_, hline, ?_⟩
    · rw [← htext, List.append_assoc, ← hdrop, hsplit]
    · have hnot := List.head?_dropWhile_not (fun c => !isLineBreak c) text
      rw [hdrop] at hnot
      simpa using hnot

end

section

variable {raw : String} {line rest : List Char} {c : Char}

theorem stripChars_blank {cs : List Char} (h : Blank cs) : stripChars cs = [] := by
  rw [stripChars, List.dropWhile_eq_nil_iff.mpr h]
  rfl

/-- If nothing but a closing fence is dropped, then what is parsed is what is in the fence, with newlines
for its line breaks. -/
theorem Cut.kept (h : Cut raw line c rest) (hclosing : IsClosing (droppedLines raw)) :
    ∃ inner tail, rest = inner ++ tail ∧ enclosed raw = stripChars inner ∧
      (answerText raw).toList = newlines false (stripChars inner) ∧
      (tail = [] ∨ tail = "```".toList ∧
        ∃ init last, allLines (c = '\r') [] inner = init ++ [last] ∧ Blank last) := by
  have hbreak : ∀ cs, stripChars (c :: cs) = stripChars cs := fun cs => by
    have hblank : Blank [c] := fun d hd => by
      rw [List.mem_singleton.mp hd, isSpace_of_isLineBreak h.isBreak]
    have hstrip := stripChars_blanks cs hblank blank_nil
    rwa [List.append_nil] at hstrip
  have hsplit := List.takeWhile_append_dropWhile (p := fun line => !isFence (.ofList line))
    (l := allLines (c = '\r') [] rest)
  have hdropped : droppedLines raw = ((allLines (c = '\r') [] rest).dropWhile
      fun line => !isFence (.ofList line)).map String.ofList := by
    rw [h.dropped, List.dropWhile_map]
    rfl
  rcases hclosing with hnil | ⟨closing, hone, hfence⟩
  · refine ⟨rest, [], (List.append_nil _).symm, ?_, ?_, .inl rfl⟩
    · rw [enclosed, hnil, List.isEmpty_nil, if_pos rfl, h.afterFence, hbreak]
    · rw [hdropped, List.map_eq_nil_iff] at hnil
      rw [hnil, List.append_nil] at hsplit
      rw [h.parsed, hsplit, intercalate_allLines, List.nil_append, stripChars_newlines]
  · -- the last line is white space and the closing fence
    rw [hdropped, List.map_eq_singleton_iff] at hone
    obtain ⟨chars, hchars, rfl⟩ := hone
    rw [hchars] at hsplit
    obtain ⟨init, last, hlines, before, hrest⟩ :=
      allLines_last (c = '\r') [] (fun _ => rfl) rest
    rw [List.nil_append] at hrest
    have hlast : last = chars :=
      List.singleton_inj.mp (List.append_inj' (hlines.symm.trans hsplit.symm) rfl).2
    obtain ⟨blanks, back, hsplit', hblanks, hback⟩ := stripChars_split chars
    have hfence' : stripChars chars = "```".toList := by
      rw [strip, String.toList_ofList] at hfence
      rw [← hfence, String.toList_ofList]
    rw [hfence'] at hsplit'
    have hback_nil : back = [] := by
      rcases List.eq_nil_or_concat back with hnil | ⟨back', d, rfl⟩
      · exact hnil
      · have hspace := (stripped_stripChars raw.toList).last d (by
          rw [h.text, ← hrest, hlast, hsplit']
          refine List.getLast?_eq_some_iff.mpr
            ⟨"```".toList ++ line ++ c :: (before ++ (blanks ++ ("```".toList ++ back'))), ?_⟩
          simp only [List.append_assoc, List.cons_append, List.concat_eq_append])
        rw [hback d (by simp)] at hspace
        cases hspace
    rw [hback_nil, List.append_nil] at hsplit'
    have hinner : rest = before ++ blanks ++ "```".toList := by
      rw [← hrest, hlast, hsplit', List.append_assoc]
    obtain ⟨init', last', hinit, hall⟩ :=
      allLines_concat fence_unbroken (c = '\r') [] (before ++ blanks)
    rw [← hinner, ← hsplit, hsplit'] at hall
    obtain ⟨hbody, hend⟩ := List.append_inj' hall rfl
    have hblank : last' = blanks :=
      (List.append_cancel_right (List.singleton_inj.mp hend)).symm
    rw [hblank] at hinit
    refine ⟨before ++ blanks, "```".toList, hinner, ?_, ?_, .inr ⟨rfl, init', blanks, hinit, hblanks⟩⟩
    · have hnot : (droppedLines raw).isEmpty = false := by
        rw [hdropped, hchars]
        rfl
      have hrdrop : (c :: rest).rdrop 3 = c :: (before ++ blanks) := by
        rw [hinner, ← List.cons_append, List.rdrop]
        refine List.take_left' ?_
        rw [List.length_append, show "```".toList.length = 3 from rfl, Nat.add_sub_cancel]
      rw [enclosed, hnot, if_neg (by decide), h.afterFence, hrdrop, hbreak]
    · have hjoin : newlines (c = '\r') (before ++ blanks) = ['\n'].intercalate (init' ++ [blanks]) := by
        rw [← hinit, intercalate_allLines, List.nil_append]
      rw [h.parsed, hbody, ← stripChars_newlines (c = '\r'), hjoin]
      by_cases hnil : init' = []
      · rw [hnil, List.nil_append, List.intercalate_singleton, stripChars_blank hblanks]
        rfl
      · have hstrip := stripChars_blanks (['\n'].intercalate init') blank_nil
          (List.forall_mem_cons.mpr ⟨show isSpace '\n' = true by decide, hblanks⟩)
        rw [List.nil_append] at hstrip
        rw [intercalate_concat hnil, hstrip]

end

/-! ## The grammar and what is kept -/

section

variable {J : JsonValues} {raw : String} {line rest object : List Char} {c : Char}

theorem ObjectText.ne_nil (h : ObjectText (jsonLoads J) object) : object ≠ [] := by
  rintro rfl
  obtain ⟨obj, hobj⟩ := h.object
  cases hobj

/-- A JSON text begins with no fence. -/
theorem ObjectText.not_fence (h : ObjectText (jsonLoads J) object) : ¬ "```".toList <+: object := by
  rintro ⟨rest, rfl⟩
  obtain ⟨obj, hobj⟩ := h.object
  rw [jsonLoads, String.toList_ofList] at hobj
  cases hobj

theorem ObjectText.loads (h : ObjectText (jsonLoads J) object) :
    ∃ v, J.machine.loads object = .ok v := by
  obtain ⟨obj, hobj⟩ := h.object
  rw [jsonLoads, String.toList_ofList] at hobj
  exact ⟨_, hobj⟩

/-- If the answer is kept whole and read as an object, then the object is in the text. -/
theorem KeptWhole.inGrammar (h : KeptWhole raw) (hfenced : Fenced raw) {obj : List (PyVal × PyVal)}
    (hobj : jsonLoads J (answerText raw) = .ok (.dict obj)) : InGrammar (jsonLoads J) raw.toList := by
  rcases hfenced.cut with ⟨line, c, rest, hcut⟩ | hnil
  swap
  · rw [jsonLoads, hnil] at hobj
    cases hobj
  obtain ⟨inner, tail, hrest, henclosed, hparsed, htail⟩ := hcut.kept h.closing
  have hjson : ∀ d ∈ stripChars inner, isLineBreak d = true → isJsonSpace d = true := by
    intro d hd hbreak
    rcases h.newlines d (henclosed ▸ hd) hbreak with rfl | rfl <;> decide
  have hloads : J.machine.loads (stripChars inner) = .ok (.dict obj) := by
    rw [jsonLoads, hparsed] at hobj
    exact JsonMachine.loads_of_newlines hobj hjson
  have hobject : ObjectText (jsonLoads J) (stripChars inner) :=
    ⟨stripped_stripChars inner, obj, by rw [jsonLoads, String.toList_ofList, hloads]⟩
  obtain ⟨front, back, hraw, hfront, hback⟩ := stripChars_split raw.toList
  obtain ⟨between, after, hinner, hbetween, hafter⟩ := stripChars_split inner
  have htext : raw.toList =
      front ++ ("```".toList ++ line ++ c :: (between ++ stripChars inner)) ++ (after ++ tail ++ back) := by
    rw [hraw, hcut.text, hrest]
    nth_rewrite 1 [hinner]
    simp only [List.append_assoc, List.cons_append]
  rw [htext]
  refine .fenced hfront hcut.oneLine hcut.isBreak hbetween hobject ?_
  rcases htail with rfl | ⟨rfl, init, last, hlines, hlast⟩
  · rw [List.append_nil]
    exact .open (List.forall_mem_append.mpr ⟨hafter, hback⟩)
  · -- the closing fence has a line of its own
    by_cases hmem : ∃ d ∈ after, isLineBreak d = true
    · obtain ⟨d, hd, hbreak⟩ := hmem
      exact .fence hafter hd hbreak hback
    · obtain ⟨object, e, hsplit⟩ := (List.eq_nil_or_concat _).resolve_left hobject.ne_nil
      have hspace := hobject.stripped.last e (by rw [hsplit]; simp)
      have hone : ∀ d ∈ e :: after, isLineBreak d = false := by
        refine List.forall_mem_cons.mpr ⟨?_, fun d hd => ?_⟩
        · rw [← Bool.not_eq_true]
          intro hbreak
          rw [isSpace_of_isLineBreak hbreak] at hspace
          cases hspace
        · rw [← Bool.not_eq_true]
          exact fun hbreak => hmem ⟨d, hd, hbreak⟩
      obtain ⟨init', last', -, hall⟩ := allLines_concat hone (c = '\r') [] (between ++ object)
      have hinner' : between ++ object ++ e :: after = inner := by
        rw [hinner, hsplit]
        simp
      rw [hinner', hlines] at hall
      have hend : last = last' ++ e :: after := List.singleton_inj.mp (List.append_inj' hall rfl).2
      have hblank := hlast e (by rw [hend]; simp)
      rw [hspace] at hblank
      cases hblank

/-- No line of the text begins with a backquote, if the text is read and no line break stands in a
string of it. -/
theorem lines_notBegun {cs between : List Char} {v : PyVal} (ds : List Char) (cr : Bool)
    (hbetween : Blank between)
    (h : J.machine.loads (cs ++ ds) = .ok v) (hnone : ∀ d ∈ cs, isQuotedBreak d = false) :
    ∀ line ∈ allLines cr [] (between ++ cs), NotBegun '`' line := by
  unfold JsonMachine.loads at h
  cases hrun : J.machine.run ⟨.outside [], J.machine.start⟩ (cs ++ ds) with
  | error e => rw [hrun] at h; cases h
  | ok y =>
    obtain ⟨z, hz, -⟩ := JsonMachine.run_append_ok hrun
    refine notBegun_front hbetween (fun cr line hline => ?_) fun d hd => absurd hd List.not_mem_nil
    exact JsonMachine.run_notBegun hz hnone (.blank hline) fun _ hin => hin [] rfl

/-- The first of the line breaks in strings. -/
theorem first_quotedBreak {cs : List Char} (h : ¬ ∀ d ∈ cs, isQuotedBreak d = false) :
    ∃ before d after, cs = before ++ d :: after ∧ (∀ e ∈ before, isQuotedBreak e = false) ∧
      isQuotedBreak d = true := by
  have hsplit := List.takeWhile_append_dropWhile (p := fun c => !isQuotedBreak c) (l := cs)
  cases hdrop : cs.dropWhile fun c => !isQuotedBreak c with
  | nil =>
    refine absurd (fun c hc => ?_) h
    simpa using List.dropWhile_eq_nil_iff.mp hdrop c hc
  | cons c after =>
    rw [hdrop] at hsplit
    refine ⟨cs.takeWhile fun c => !isQuotedBreak c, c, after, hsplit.symm, fun d hd => ?_, ?_⟩
    · simpa using List.mem_takeWhile_imp hd
    · have hnot := List.head?_dropWhile_not (fun c => !isQuotedBreak c) cs
      rw [hdrop] at hnot
      simpa using hnot

/-- The fence refuses a JSON text with a line break in a string. -/
theorem Cut.refused {between tail : List Char} {v : PyVal} (hbetween : Blank between)
    (hstripped : StrippedChars object) (hloads : J.machine.loads object = .ok v)
    (h : Cut raw line c (between ++ object ++ tail)) (hquoted : ¬ ∀ d ∈ object, isQuotedBreak d = false) :
    jsonLoads J (answerText raw) = .error .decode := by
  obtain ⟨cs, d, ds, rfl, hnone, hd⟩ := first_quotedBreak hquoted
  have hbreak : isLineBreak d = true ∧ d ≠ '\n' ∧ d ≠ '\r' := by
    refine ⟨?_, ?_, ?_⟩
    · simp only [isQuotedBreak, Bool.and_eq_true] at hd
      exact hd.1.1
    · rintro rfl
      exact absurd hd (by decide)
    · rintro rfl
      exact absurd hd (by decide)
  -- the text before the line break begins with no white space
  obtain ⟨first, hfirst, hspace⟩ : ∃ first, cs.head? = some first ∧ isSpace first = false := by
    have hhead := hstripped.head
    cases cs with
    | nil =>
      have hno := hhead d rfl
      rw [isSpace_of_isLineBreak hbreak.1] at hno
      cases hno
    | cons first cs => exact ⟨first, rfl, hhead first rfl⟩
  have hall : allLines (c = '\r') [] (between ++ (cs ++ d :: ds) ++ tail) =
      allLines (c = '\r') [] (between ++ cs) ++ allLines false [] (ds ++ tail) := by
    rw [← allLines_break hbreak.1 hbreak.2.1 hbreak.2.2]
    simp only [List.append_assoc, List.cons_append]
  have hpass : ∀ line ∈ allLines (c = '\r') [] (between ++ cs), (!isFence (.ofList line)) = true :=
    fun line hline => by rw [isFence_of_notBegun (lines_notBegun _ _ hbetween hloads hnone line hline)]; rfl
  obtain ⟨more, hmore, hends⟩ := intercalate_append
    (allLines_ne_nil (c = '\r') [] (between ++ cs))
    ((allLines false [] (ds ++ tail)).takeWhile fun line => !isFence (.ofList line))
  have hparsed := h.parsed
  rw [hall, List.takeWhile_append_of_pos hpass, hmore, intercalate_allLines, List.nil_append] at hparsed
  obtain ⟨blanks, hblanks, hspaces⟩ := stripChars_front (c = '\r') more hbetween hfirst hspace
  rw [← hparsed] at hblanks
  exact JsonMachine.loads_quoted hloads hnone hd hends hblanks hspaces

/-- What may follow the object in the trimmed answer. -/
inductive Tail : List Char → Prop where
  | nil : Tail []
  | fence {front : List Char} (hfront : Blank front) {d : Char} (hmem : d ∈ front)
    (hbreak : isLineBreak d = true) : Tail (front ++ "```".toList)

theorem Tail.last {tail : List Char} (h : Tail tail) (hstripped : StrippedChars object) :
    ∀ d, (object ++ tail).getLast? = some d → isSpace d = false := by
  intro d hd
  cases h with
  | nil =>
    rw [List.append_nil] at hd
    exact hstripped.last d hd
  | fence _ _ _ =>
    rw [List.getLast?_append, List.getLast?_append] at hd
    cases hd
    decide

/-- The fence keeps a JSON text without a line break in a string. -/
theorem Cut.whole {between tail : List Char} {v : PyVal} (hbetween : Blank between)
    (hstripped : StrippedChars object) (hloads : J.machine.loads object = .ok v)
    (h : Cut raw line c (between ++ object ++ tail)) (htail : Tail tail)
    (hnone : ∀ d ∈ object, isQuotedBreak d = false) :
    IsClosing (droppedLines raw) ∧ enclosed raw = object := by
  have hobject : stripChars object = object := stripChars_of_stripped hstripped
  have hbegun : ∀ line ∈ allLines (c = '\r') [] (between ++ object), NotBegun '`' line :=
    lines_notBegun [] _ hbetween (by rwa [List.append_nil]) hnone
  have hblank : Blank (c :: between) :=
    List.forall_mem_cons.mpr ⟨isSpace_of_isLineBreak h.isBreak, hbetween⟩
  cases htail with
  | nil =>
    rw [List.append_nil] at h
    have hdropped : droppedLines raw = [] := by
      rw [h.dropped, List.dropWhile_eq_nil_iff]
      intro line hline
      obtain ⟨chars, hchars, rfl⟩ := List.mem_map.mp hline
      rw [isFence_of_notBegun (hbegun chars hchars)]
      rfl
    refine ⟨.inl hdropped, ?_⟩
    have hstrip := stripChars_blanks object hblank blank_nil
    rw [List.append_nil, hobject] at hstrip
    rw [enclosed, hdropped, List.isEmpty_nil, if_pos rfl, h.afterFence]
    exact hstrip
  | @fence front hfront d hmem hbreak =>
    rw [← List.append_assoc] at h
    obtain ⟨init, last, hlines, hall⟩ :=
      allLines_concat fence_unbroken (c = '\r') [] (between ++ object ++ front)
    have hlast : Blank last := by
      obtain ⟨g, g', rfl⟩ := List.append_of_mem hmem
      obtain ⟨init', last', hlines', hsuffix⟩ :=
        allLines_last_break hbreak (c = '\r') [] (fun _ => rfl) (between ++ object ++ g) g'
      rw [List.append_assoc (between ++ object)] at hlines'
      have hsame : last = last' :=
        List.singleton_inj.mp (List.append_inj' (hlines.symm.trans hlines') rfl).2
      intro e he
      exact hfront e (List.mem_append_right _ (List.mem_cons_of_mem _ (hsuffix.subset (hsame ▸ he))))
    have hbegun : ∀ line ∈ init, NotBegun '`' line := fun line hline =>
      notBegun_back hfront hbegun line (by rw [hlines]; exact List.mem_append_left _ hline)
    have hpass : ∀ line ∈ init.map String.ofList, (!isFence line) = true := by
      intro line hline
      obtain ⟨chars, hchars, rfl⟩ := List.mem_map.mp hline
      rw [isFence_of_notBegun (hbegun chars hchars)]
      rfl
    have hdropped : droppedLines raw = [.ofList (last ++ "```".toList)] := by
      have hclosing := isFence_closing (strip_closing hlast)
      rw [h.dropped, hall, List.map_append, List.dropWhile_append_of_pos hpass, List.map_singleton,
        List.dropWhile_cons_of_neg (by rw [hclosing]; decide)]
    refine ⟨.inr ⟨_, hdropped, strip_closing hlast⟩, ?_⟩
    have hrdrop : (c :: (between ++ object ++ front ++ "```".toList)).rdrop 3 =
        c :: between ++ object ++ front := by
      rw [← List.cons_append, List.rdrop]
      refine List.take_left' ?_
      rw [List.length_append, show "```".toList.length = 3 from rfl, Nat.add_sub_cancel]
    rw [enclosed, hdropped, List.isEmpty_cons, if_neg (by decide), h.afterFence, hrdrop,
      stripChars_blanks _ hblank hfront, hobject]

/-- An answer in the grammar is an object, or has its first line, the object, and what follows. -/
theorem InGrammar.split (h : InGrammar (jsonLoads J) raw.toList) :
    ObjectText (jsonLoads J) (stripChars raw.toList) ∨
      ∃ line c between object tail, Blank between ∧ ObjectText (jsonLoads J) object ∧ Tail tail ∧
        Cut raw line c (between ++ object ++ tail) := by
  generalize hraw : raw.toList = text at h
  cases h with
  | bare hfront hobject hback =>
    rw [stripChars_blanks _ hfront hback, stripChars_of_stripped hobject.stripped]
    exact .inl hobject
  | @fenced front line between object after c hfront hline hbreak hbetween hobject hafter =>
    obtain ⟨tail, back, rfl, htail, hback⟩ :
        ∃ tail back, after = tail ++ back ∧ Tail tail ∧ Blank back := by
      cases hafter with
      | «open» hback => exact ⟨[], after, rfl, .nil, hback⟩
      | fence hf hmem hb hback => exact ⟨_, _, rfl, .fence hf hmem hb, hback⟩
    refine .inr ⟨line, c, between, object, tail, hbetween, hobject, htail, ?_, hline, hbreak⟩
    have htext : raw.toList = front ++
        ("```".toList ++ line ++ c :: (between ++ object ++ tail)) ++ back := by
      rw [hraw]
      simp only [List.append_assoc, List.cons_append]
    rw [htext, stripChars_blanks _ hfront hback, stripChars_of_stripped ⟨fun d hd => ?_, fun d hd => ?_⟩]
    · cases hd
      decide
    · have hend : "```".toList ++ line ++ c :: (between ++ object ++ tail) =
          ("```".toList ++ line ++ c :: between) ++ (object ++ tail) := by
        simp only [List.append_assoc, List.cons_append]
      rw [hend, List.getLast?_append] at hd
      cases hlast : (object ++ tail).getLast? with
      | none =>
        exact absurd (List.append_eq_nil_iff.mp (List.getLast?_eq_none_iff.mp hlast)).1 hobject.ne_nil
      | some e =>
        rw [hlast] at hd
        cases hd
        exact htail.last hobject.stripped d hlast

/-- If the answer is in the grammar and is read, then it is kept whole. -/
theorem InGrammar.keptWhole (h : InGrammar (jsonLoads J) raw.toList) (hfenced : Fenced raw) {v : PyVal}
    (hv : jsonLoads J (answerText raw) = .ok v) : KeptWhole raw := by
  obtain ⟨line, c, between, object, tail, hbetween, hobject, htail, hcut⟩ :=
    h.split.resolve_left fun hobject => hobject.not_fence (fenced_iff.mp hfenced)
  obtain ⟨w, hw⟩ := hobject.loads
  by_cases hnone : ∀ d ∈ object, isQuotedBreak d = false
  · obtain ⟨hclosing, henclosed⟩ := hcut.whole hbetween hobject.stripped hw htail hnone
    refine ⟨hclosing, fun d hd hbreak => ?_⟩
    rw [henclosed] at hd
    rcases JsonMachine.loads_breaks hw d hd hbreak with hjson | hquoted
    · simp only [isJsonSpace, Bool.or_eq_true, decide_eq_true_eq] at hjson
      rcases hjson with ((rfl | rfl) | rfl) | rfl
      · exact absurd hbreak (by decide)
      · exact absurd hbreak (by decide)
      · exact .inl rfl
      · exact .inr rfl
    · rw [hnone d hd] at hquoted
      cases hquoted
  · rw [hcut.refused hbetween hobject.stripped hw hnone] at hv
    cases hv

/-- What is parsed of a fence with a JSON text, if no line break stands in a string of it. -/
theorem Cut.parsed_object {between tail : List Char} {v : PyVal} (hbetween : Blank between)
    (hstripped : StrippedChars object) (hloads : J.machine.loads object = .ok v)
    (h : Cut raw line c (between ++ object ++ tail)) (htail : Tail tail)
    (hnone : ∀ d ∈ object, isQuotedBreak d = false) :
    (answerText raw).toList = newlines false object := by
  obtain ⟨hclosing, henclosed⟩ := h.whole hbetween hstripped hloads htail hnone
  obtain ⟨inner, -, -, hinner, hparsed, -⟩ := h.kept hclosing
  rw [hparsed, ← hinner, henclosed]

/-- An answer in the grammar is read, or is found to be no JSON. -/
theorem InGrammar.read (h : InGrammar (jsonLoads J) raw.toList) :
    (∃ v, jsonLoads J (answerText raw) = .ok v) ∨ jsonLoads J (answerText raw) = .error .decode := by
  rcases h.split with hobject | ⟨line, c, between, object, tail, hbetween, hobject, htail, hcut⟩
  · obtain ⟨obj, hobj⟩ := hobject.object
    have hbare : ¬ Fenced raw := fun hfenced => hobject.not_fence (fenced_iff.mp hfenced)
    exact .inl ⟨.dict obj, by rw [answerText_bare hbare, strip, hobj]⟩
  · obtain ⟨w, hw⟩ := hobject.loads
    by_cases hnone : ∀ d ∈ object, isQuotedBreak d = false
    · refine .inl ⟨w, ?_⟩
      rw [jsonLoads, hcut.parsed_object hbetween hobject.stripped hw htail hnone]
      exact JsonMachine.loads_newlines hw hnone
    · exact .inr (hcut.refused hbetween hobject.stripped hw hnone)

end

/-! ## The parsers -/

/-- Both parsers refuse the answer, if it is not in the grammar. -/
structure RejectsProse (loads : String → Except JsonError PyVal) (raw : String) : Prop where
  planner : ¬ InGrammar loads raw.toList → parseLLMResponse loads raw = .ok none
  judge : ¬ InGrammar loads raw.toList → parseJudgeResponse loads raw = .ok .approvalRequired

/-- What remains is no object that either parser acts on. -/
def NotActedOn (loads : String → Except JsonError PyVal) (raw : String) : Prop :=
  ∀ obj, loads (answerText raw) = .ok (.dict obj) →
    (¬ ∃ actionType payload, ProposalObject obj actionType payload) ∧
      decisionOf obj = .approvalRequired

/-- The answers on which the parsers keep to the grammar. -/
structure KeepsGrammar (loads : String → Except JsonError PyVal) (raw : String) : Prop where
  json : raw ≠ "" → ∀ kind, loads (answerText raw) ≠ .error (.other kind)
  text : ¬ Fenced raw ∨ KeptWhole raw ∨ NotActedOn loads raw

section

variable {loads : String → Except JsonError PyVal} {raw : String}

/-- Both parsers on an object. -/
theorem parsers_object {obj : List (PyVal × PyVal)} (hne : raw ≠ "")
    (hobj : loads (answerText raw) = .ok (.dict obj)) :
    (parseLLMResponse loads raw = .ok none ↔ ¬ ∃ a p, ProposalObject obj a p) ∧
      parseJudgeResponse loads raw = .ok (decisionOf obj) := by
  constructor
  · have hloads : ({ demoPlannerRuntime with loads := loads } : PlannerRuntime).loads (answerText raw) =
        .ok (.dict obj) := hobj
    have hparse := parse_object hne hloads
    rcases hparse with ⟨a, p, hprop, hparse⟩ | ⟨hno, hparse⟩
    · refine ⟨fun h => ?_, fun h => absurd ⟨a, p, hprop⟩ h⟩
      rw [hparse] at h
      cases h
    · exact ⟨fun _ => hno, fun _ => hparse⟩
  · unfold answerText at hobj
    rw [parseJudgeResponse, if_neg hne, hobj]

/-- Both parsers on what is no object. -/
theorem parsers_refuse (hjson : ∀ kind, loads (answerText raw) ≠ .error (.other kind))
    (hobj : ¬ ∃ obj, loads (answerText raw) = .ok (.dict obj)) :
    parseLLMResponse loads raw = .ok none ∧ parseJudgeResponse loads raw = .ok .approvalRequired := by
  unfold parseJudgeResponse parseLLMResponse
  unfold answerText at hjson hobj
  by_cases hne : raw = ""
  · rw [if_pos hne, if_pos hne]
    exact ⟨rfl, rfl⟩
  rw [if_neg hne, if_neg hne]
  cases hloads : loads (LLMJudgePolicyEngine.unfence (strip raw)) with
  | error e =>
    cases e with
    | decode => exact ⟨rfl, rfl⟩
    | other kind => exact absurd hloads (hjson kind)
  | ok v =>
    cases v with
    | dict obj => exact absurd ⟨obj, hloads⟩ hobj
    | none | bool _ | int _ | str _ | list _ | obj _ _ => exact ⟨rfl, rfl⟩

/-- Both parsers on a text that is no JSON. -/
theorem parsers_decode (h : loads (answerText raw) = .error .decode) :
    parseLLMResponse loads raw = .ok none ∧ parseJudgeResponse loads raw = .ok .approvalRequired := by
  refine parsers_refuse (fun kind hkind => ?_) ?_
  · rw [h] at hkind
    cases hkind
  · rintro ⟨obj, hobj⟩
    rw [h] at hobj
    cases hobj

/-- Both parsers refuse an answer exactly if its value is nothing that they act on. -/
theorem notActedOn_iff {v : PyVal} (hne : raw ≠ "") (h : loads (answerText raw) = .ok v) :
    NotActedOn loads raw ↔
      parseLLMResponse loads raw = .ok none ∧ parseJudgeResponse loads raw = .ok .approvalRequired := by
  constructor
  · intro hno
    by_cases hobj : ∃ obj, loads (answerText raw) = .ok (.dict obj)
    · obtain ⟨obj, hobj⟩ := hobj
      obtain ⟨hacts, hdecision⟩ := hno obj hobj
      obtain ⟨hplanner, hjudge⟩ := parsers_object hne hobj
      exact ⟨hplanner.mpr hacts, by rw [hjudge, hdecision]⟩
    · refine parsers_refuse (fun kind hkind => ?_) hobj
      rw [h] at hkind
      cases hkind
  · rintro ⟨hnone, happroval⟩ obj hobj
    obtain ⟨hplanner, hjudge⟩ := parsers_object hne hobj
    rw [hjudge] at happroval
    exact ⟨hplanner.mp hnone, Except.ok.inj happroval⟩

end

section

variable {J : JsonValues} {raw : String}

/-- A bare answer that is read as an object is one. -/
theorem inGrammar_bare (hbare : ¬ Fenced raw) {obj : List (PyVal × PyVal)}
    (hobj : jsonLoads J (answerText raw) = .ok (.dict obj)) : InGrammar (jsonLoads J) raw.toList := by
  obtain ⟨front, back, hraw, hfront, hback⟩ := stripChars_split raw.toList
  rw [answerText_bare hbare] at hobj
  rw [hraw]
  exact .bare hfront ⟨stripped_stripChars _, obj, hobj⟩ hback

/-- The parsers accept no prose exactly on the answers that are not fenced, on those that are kept whole,
and on those of which what remains is refused anyway. -/
theorem rejectsProse_iff (J : JsonValues) (raw : String) :
    RejectsProse (jsonLoads J) raw ↔ KeepsGrammar (jsonLoads J) raw := by
  have hin : ∀ {obj}, ¬ Fenced raw ∨ KeptWhole raw → jsonLoads J (answerText raw) = .ok (.dict obj) →
      InGrammar (jsonLoads J) raw.toList := fun {obj} hkept hobj => by
    by_cases hfenced : Fenced raw
    · exact (hkept.resolve_left fun h => h hfenced).inGrammar hfenced hobj
    · exact inGrammar_bare hfenced hobj
  constructor
  · intro h
    refine ⟨fun hne kind hkind => ?_, ?_⟩
    · by_cases hgrammar : InGrammar (jsonLoads J) raw.toList
      · rcases hgrammar.read with ⟨v, hv⟩ | hdecode
        · rw [hkind] at hv
          cases hv
        · rw [hkind] at hdecode
          cases hdecode
      · have hjudge := h.judge hgrammar
        unfold answerText at hkind
        rw [parseJudgeResponse, if_neg hne, hkind] at hjudge
        cases hjudge
    · by_cases hfenced : Fenced raw
      swap
      · exact .inl hfenced
      by_cases hwhole : KeptWhole raw
      · exact .inr (.inl hwhole)
      refine .inr (.inr fun obj hobj => ?_)
      have hno : ¬ InGrammar (jsonLoads J) raw.toList := fun hgrammar =>
        hwhole (hgrammar.keptWhole hfenced hobj)
      have hne : raw ≠ "" := by
        rintro rfl
        cases hobj
      exact (notActedOn_iff hne hobj).mpr ⟨h.planner hno, h.judge hno⟩ obj hobj
  · intro h
    have hrefuse : ¬ InGrammar (jsonLoads J) raw.toList →
        parseLLMResponse (jsonLoads J) raw = .ok none ∧
          parseJudgeResponse (jsonLoads J) raw = .ok .approvalRequired := by
      intro hno
      by_cases hne : raw = ""
      · exact ⟨if_pos hne, if_pos hne⟩
      by_cases hobj : ∃ obj, jsonLoads J (answerText raw) = .ok (.dict obj)
      · obtain ⟨obj, hobj⟩ := hobj
        rcases h.text with hbare | hwhole | hacts
        · exact absurd (hin (.inl hbare) hobj) hno
        · exact absurd (hin (.inr hwhole) hobj) hno
        · exact (notActedOn_iff hne hobj).mp hacts
      · exact parsers_refuse (h.json hne) hobj
    exact ⟨fun hno => (hrefuse hno).1, fun hno => (hrefuse hno).2⟩

end

/-- A decision in a fence, and a second thought after it. -/
def secondThought : String :=
  "```json\n\x7b\"decision\": \"auto\"\x7d\n```\nOn reflection, a human should approve this."

/-- A decision in a fence, with a line separator between its tokens. -/
def separatedTokens : String := "```json\n\x7b\"decision\":\u2028\"auto\"\x7d\n```"

/-- The judge answers `auto` on a response with trailing prose, and on one that is no JSON. -/
theorem trailing_prose_accepted :
    (parseJudgeResponse (jsonLoads plainValues) secondThought = .ok .auto ∧
      ¬ RejectsProse (jsonLoads plainValues) secondThought) ∧
    parseJudgeResponse (jsonLoads plainValues) separatedTokens = .ok .auto ∧
      ¬ RejectsProse (jsonLoads plainValues) separatedTokens := by
  have haccepted : ∀ raw, raw ≠ "" → Fenced raw → ¬ KeptWhole raw →
      jsonLoads plainValues (answerText raw) = .ok (.dict [(.str "decision", .str "auto")]) →
      parseJudgeResponse (jsonLoads plainValues) raw = .ok .auto ∧
        ¬ RejectsProse (jsonLoads plainValues) raw := by
    intro raw hne hfenced hcut hloads
    refine ⟨(parsers_object hne hloads).2, fun h => ?_⟩
    rcases ((rejectsProse_iff plainValues raw).mp h).text with hbare | hwhole | hacts
    · exact hbare hfenced
    · exact hcut hwhole
    · exact absurd (hacts _ hloads).2 (by decide)
  refine ⟨haccepted _ (by decide +kernel) (by unfold Fenced; decide +kernel) (fun h => ?_) ?_,
    haccepted _ (by decide +kernel) (by unfold Fenced; decide +kernel) (fun h => ?_) ?_⟩
  · have hdropped : (droppedLines secondThought).length = 2 := by decide +kernel
    rcases h.closing with hnil | ⟨line, hone, -⟩
    · rw [hnil] at hdropped
      cases hdropped
    · rw [hone] at hdropped
      cases hdropped
  · have htext : answerText secondThought = "\x7b\"decision\": \"auto\"\x7d" := by decide +kernel
    rw [htext]
    rfl
  · have hmem : (enclosed separatedTokens).contains '\u2028' = true := by decide +kernel
    rcases h.newlines '\u2028' (by simpa using hmem) (by decide) with heq | heq <;> cases heq
  · have htext : answerText separatedTokens = "\x7b\"decision\":\n\"auto\"\x7d" := by decide +kernel
    rw [htext]
    rfl

end PennyCore
