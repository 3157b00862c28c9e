import PennyCore.Lib.RegexSpans

/-!
# Edges of matches, by the shape of the expression

* `Regex.plain`: an expression that looks at nothing around its match (`Matches.of_plain`).
* `Regex.Starts`, `Regex.Finishes`: the class of the first and of the last character of every match.
* `HeadEdge` and `TailEdge` of sequences, alternatives, expressions inside word boundaries, plain
  expressions that begin or end outside words, and expressions at the start of a line.
-/

namespace Lib
namespace Regex

variable {r s : Regex} {word : Char → Bool} {P : Char → Prop}

/-- The expression has no `\b` and no `^`. -/
def plain : Regex → Bool
  | .empty => true
  | .char _ => true
  | .seq r s => r.plain && s.plain
  | .alt r s => r.plain && s.plain
  | .opt r => r.plain
  | .many _ _ _ => true
  | .boundary _ => false
  | .start => false

theorem Matches.of_plain (hp : r.plain = true) {b a : Option Char} {m : List Char}
    (h : r.Matches b m a) (b' a' : Option Char) : r.Matches b' m a' := by
  induction r generalizing b m a b' a' with
  | empty => exact h
  | char p => exact h
  | seq r s ihr ihs =>
    rw [plain, Bool.and_eq_true] at hp
    obtain ⟨m₁, m₂, rfl, hr, hs⟩ := h
    exact ⟨m₁, m₂, rfl, ihr hp.1 hr _ _, ihs hp.2 hs _ _⟩
  | alt r s ihr ihs =>
    rw [plain, Bool.and_eq_true] at hp
    rcases h with hr | hs
    · exact .inl (ihr hp.1 hr _ _)
    · exact .inr (ihs hp.2 hs _ _)
  | opt r ihr =>
    rcases h with hr | hnil
    · exact .inl (ihr hp hr _ _)
    · exact .inr hnil
  | many p min max => exact h
  | boundary word => cases hp
  | start => cases hp

/-! ## First and last characters -/

/-- Every match begins with a character of the class. -/
def Starts (P : Char → Prop) (r : Regex) : Prop :=
  ∀ b m a, r.Matches b m a → ∃ c ∈ m.head?, P c

/-- Every match ends with a character of the class. -/
def Finishes (P : Char → Prop) (r : Regex) : Prop :=
  ∀ b m a, r.Matches b m a → ∃ c ∈ m.getLast?, P c

theorem Starts.solid (h : r.Starts P) : r.Solid := by
  rintro b m a hm rfl
  obtain ⟨c, hc, _⟩ := h b [] a hm
  cases hc

theorem Finishes.solid (h : r.Finishes P) : r.Solid := by
  rintro b m a hm rfl
  obtain ⟨c, hc, _⟩ := h b [] a hm
  cases hc

theorem Starts.char {p : Char → Bool} (h : ∀ c, p c = true → P c) : (Regex.char p).Starts P := by
  rintro b m a ⟨c, rfl, hc⟩
  exact ⟨c, rfl, h c hc⟩

theorem Finishes.char {p : Char → Bool} (h : ∀ c, p c = true → P c) :
    (Regex.char p).Finishes P := by
  rintro b m a ⟨c, rfl, hc⟩
  exact ⟨c, rfl, h c hc⟩

theorem Starts.seq (h : r.Starts P) : (Regex.seq r s).Starts P := by
  rintro b m a ⟨m₁, m₂, rfl, hr, _⟩
  rw [head?_append_ne (h.solid _ _ _ hr)]
  exact h _ _ _ hr

theorem Finishes.seq (h : s.Finishes P) : (Regex.seq r s).Finishes P := by
  rintro b m a ⟨m₁, m₂, rfl, _, hs⟩
  rw [getLast?_append_ne (h.solid _ _ _ hs)]
  exact h _ _ _ hs

/-- The last part of a sequence. -/
theorem Finishes.last (h : r.Finishes P) : (Regex.seq r .empty).Finishes P := by
  rintro b m a ⟨m₁, m₂, rfl, hr, rfl⟩
  rw [List.append_nil]
  exact h _ _ _ hr

/-- The last part of a sequence, and an optional one after it. -/
theorem Finishes.last_opt (hr : r.Finishes P) (hs : s.Finishes P) :
    (Regex.seq r (.seq (.opt s) .empty)).Finishes P := by
  rintro b m a ⟨m₁, m₂, rfl, hm₁, m₃, m₄, rfl, hm₃ | rfl, rfl⟩
  · rw [List.append_nil, getLast?_append_ne (hs.solid _ _ _ hm₃)]
    exact hs _ _ _ hm₃
  · rw [List.append_nil, List.append_nil]
    exact hr _ _ _ hm₁

theorem Starts.alt (hr : r.Starts P) (hs : s.Starts P) : (Regex.alt r s).Starts P := by
  rintro b m a (h | h)
  · exact hr _ _ _ h
  · exact hs _ _ _ h

theorem Finishes.alt (hr : r.Finishes P) (hs : s.Finishes P) : (Regex.alt r s).Finishes P := by
  rintro b m a (h | h)
  · exact hr _ _ _ h
  · exact hs _ _ _ h

theorem Starts.oneOf {rs : List Regex} (h : ∀ r ∈ rs, r.Starts P) : (Regex.oneOf rs).Starts P := by
  induction rs with
  | nil => exact .char fun c hc => (nomatch hc)
  | cons r rs ih =>
    cases rs with
    | nil => exact h r List.mem_cons_self
    | cons s rs =>
      exact .alt (h r List.mem_cons_self) (ih fun t ht => h t (List.mem_cons_of_mem _ ht))

theorem Finishes.oneOf {rs : List Regex} (h : ∀ r ∈ rs, r.Finishes P) :
    (Regex.oneOf rs).Finishes P := by
  induction rs with
  | nil => exact .char fun c hc => (nomatch hc)
  | cons r rs ih =>
    cases rs with
    | nil => exact h r List.mem_cons_self
    | cons s rs =>
      exact .alt (h r List.mem_cons_self) (ih fun t ht => h t (List.mem_cons_of_mem _ ht))

/-! ## The edge at the head -/

/-- `\br…` for an expression that begins inside a word. -/
theorem HeadEdge.bounded (hp : r.plain = true) (hr : r.Starts (word · = true)) :
    HeadEdge word (.seq (.boundary word) (.seq r s)) := by
  refine ⟨?_, ?_, ?_⟩
  · rintro b m a ⟨_, _, rfl, _, m₁, m₂, rfl, hm, _⟩ hnil
    simp only [List.append_eq_nil_iff] at hnil
    exact hr.solid _ _ _ hm hnil.2.1
  · rintro b m a ⟨_, _, rfl, ⟨rfl, hedge⟩, m₁, m₂, rfl, hm, _⟩ c hc hword
    rw [List.nil_append] at hc
    rw [Option.mem_def.mp hc] at hedge
    simpa [hword] using hedge
  · rintro b m a b' ⟨_, _, rfl, ⟨rfl, hedge⟩, m₁, m₂, rfl, hm, hs⟩ hb' _
    have hne := hr.solid _ _ _ hm
    obtain ⟨c, hc, hword⟩ := hr _ _ _ hm
    have hhead : (m₁ ++ m₂).head? = some c := by
      rw [head?_append_ne hne]
      exact hc
    rw [List.nil_append] at hb'
    refine ⟨[], m₁ ++ m₂, rfl, ⟨rfl, ?_⟩, m₁, m₂, rfl, hm.of_plain hp _ _, ?_⟩
    · rw [hhead, hb' c hhead hword]
      simp [hword]
    · rw [List.getLast?_eq_some_getLast hne] at hs ⊢
      exact hs

theorem HeadEdge.seq (h : HeadEdge word r) : HeadEdge word (.seq r s) := by
  refine ⟨?_, ?_, ?_⟩
  · rintro b m a ⟨m₁, m₂, rfl, hm, _⟩ hnil
    exact h.solid _ _ _ hm (List.append_eq_nil_iff.mp hnil).1
  · rintro b m a ⟨m₁, m₂, rfl, hm, _⟩ c hc
    rw [head?_append_ne (h.solid _ _ _ hm)] at hc
    exact h.edge _ _ _ hm c hc
  · rintro b m a b' ⟨m₁, m₂, rfl, hm, hs⟩ hb' hnone
    have hne := h.solid _ _ _ hm
    rw [head?_append_ne hne] at hb'
    refine ⟨m₁, m₂, rfl, h.move _ _ _ _ hm hb' hnone, ?_⟩
    rw [List.getLast?_eq_some_getLast hne] at hs ⊢
    exact hs

theorem HeadEdge.alt (hr : HeadEdge word r) (hs : HeadEdge word s) : HeadEdge word (.alt r s) := by
  refine ⟨?_, ?_, ?_⟩
  · rintro b m a (h | h)
    · exact hr.solid _ _ _ h
    · exact hs.solid _ _ _ h
  · rintro b m a (h | h)
    · exact hr.edge _ _ _ h
    · exact hs.edge _ _ _ h
  · rintro b m a b' (h | h) hb' hnone
    · exact .inl (hr.move _ _ _ _ h hb' hnone)
    · exact .inr (hs.move _ _ _ _ h hb' hnone)

/-- An expression that begins outside every word. -/
theorem HeadEdge.of_plain (hp : r.plain = true) (hr : r.Starts (word · = false)) :
    HeadEdge word r := by
  refine ⟨hr.solid, fun b m a h c hc hword => ?_, fun b m a b' h _ _ => h.of_plain hp _ _⟩
  obtain ⟨d, hd, hout⟩ := hr _ _ _ h
  cases hc.symm.trans hd
  rw [hword] at hout
  cases hout

/-- `(^|p)s`. -/
theorem HeadEdge.line {p : Char → Bool} (hp : ∀ c, p c = true → word c = false)
    (hs : s.plain = true) (hsolid : s.Solid) :
    HeadEdge word (.seq (.alt .start (.char p)) s) := by
  refine ⟨?_, ?_, ?_⟩
  · rintro b m a ⟨m₁, m₂, rfl, _, hm⟩ hnil
    exact hsolid _ _ _ hm (List.append_eq_nil_iff.mp hnil).2
  · rintro b m a ⟨m₁, m₂, rfl, ⟨rfl, rfl⟩ | ⟨d, rfl, hd⟩, _⟩ c hc hword
    · rfl
    · cases hc
      rw [hp d hd] at hword
      cases hword
  · rintro b m a b' ⟨m₁, m₂, rfl, ⟨rfl, rfl⟩ | ⟨d, rfl, hd⟩, hm⟩ _ hnone
    · exact ⟨[], m₂, rfl, .inl ⟨rfl, hnone rfl⟩, hm.of_plain hs _ _⟩
    · exact ⟨[d], m₂, rfl, .inr ⟨d, rfl, hd⟩, hm.of_plain hs _ _⟩

/-! ## The edge at the tail -/

theorem TailEdge.seq (h : TailEdge word s) : TailEdge word (.seq r s) := by
  refine ⟨?_, ?_, ?_⟩
  · rintro b m a ⟨m₁, m₂, rfl, _, hm⟩ hnil
    exact h.solid _ _ _ hm (List.append_eq_nil_iff.mp hnil).2
  · rintro b m a ⟨m₁, m₂, rfl, _, hm⟩ c hc
    rw [getLast?_append_ne (h.solid _ _ _ hm)] at hc
    exact h.edge _ _ _ hm c hc
  · rintro b m a a' ⟨m₁, m₂, rfl, hr, hm⟩ ha'
    have hne := h.solid _ _ _ hm
    rw [getLast?_append_ne hne] at ha'
    refine ⟨m₁, m₂, rfl, ?_, h.move _ _ _ _ hm ha'⟩
    obtain ⟨c, m₂, rfl⟩ := List.exists_cons_of_ne_nil hne
    exact hr

/-- The last part of a sequence. -/
theorem TailEdge.last (h : TailEdge word r) : TailEdge word (.seq r .empty) := by
  refine ⟨?_, ?_, ?_⟩
  · rintro b m a ⟨m₁, _, rfl, hm, rfl⟩
    rw [List.append_nil]
    exact h.solid _ _ _ hm
  · rintro b m a ⟨m₁, _, rfl, hm, rfl⟩
    rw [List.append_nil]
    exact h.edge _ _ _ hm
  · rintro b m a a' ⟨m₁, _, rfl, hm, rfl⟩ ha'
    rw [List.append_nil] at ha'
    exact ⟨m₁, [], rfl, h.move _ _ _ _ hm ha', rfl⟩

/-- `r\b` for an expression that ends inside a word. -/
theorem TailEdge.bounded (hp : r.plain = true) (hr : r.Finishes (word · = true)) :
    TailEdge word (.seq r (.seq (.boundary word) .empty)) := by
  refine ⟨?_, ?_, ?_⟩
  · rintro b m a ⟨m₁, _, rfl, hm, _⟩ hnil
    exact hr.solid _ _ _ hm (List.append_eq_nil_iff.mp hnil).1
  · rintro b m a ⟨m₁, _, rfl, hm, _, _, rfl, ⟨rfl, hedge⟩, rfl⟩ c hc hword
    have hlast : m₁.getLast? = some c := by simpa using hc
    rw [hlast] at hedge
    simpa [hword] using hedge
  · rintro b m a a' ⟨m₁, _, rfl, hm, _, _, rfl, ⟨rfl, hedge⟩, rfl⟩ ha'
    obtain ⟨c, hc, hword⟩ := hr _ _ _ hm
    have ha'' : a'.any word = false := ha' c (by simpa using hc) hword
    refine ⟨m₁, [], by simp, hm.of_plain hp _ _, [], [], rfl, ⟨rfl, ?_⟩, rfl⟩
    have hlast : m₁.getLast? = some c := hc
    rw [hlast]
    simp [hword, ha'']

theorem TailEdge.alt (hr : TailEdge word r) (hs : TailEdge word s) : TailEdge word (.alt r s) := by
  refine ⟨?_, ?_, ?_⟩
  · rintro b m a (h | h)
    · exact hr.solid _ _ _ h
    · exact hs.solid _ _ _ h
  · rintro b m a (h | h)
    · exact hr.edge _ _ _ h
    · exact hs.edge _ _ _ h
  · rintro b m a a' (h | h) ha'
    · exact .inl (hr.move _ _ _ _ h ha')
    · exact .inr (hs.move _ _ _ _ h ha')

/-- An expression that ends outside every word. -/
theorem TailEdge.of_plain (hp : r.plain = true) (hr : r.Finishes (word · = false)) :
    TailEdge word r := by
  refine ⟨hr.solid, fun b m a h c hc hword => ?_, fun b m a a' h _ => h.of_plain hp _ _⟩
  obtain ⟨d, hd, hout⟩ := hr _ _ _ h
  cases hc.symm.trans hd
  rw [hword] at hout
  cases hout

end Regex
end Lib
