import PennyCore.ContextEngine.RetrievalAccounting

/-!
# The windows of hybrid retrieval

The reference of the two cutoffs is the newest of all messages and actions. The split is that of the
messages alone exactly when no action is so much newer that a message falls out of a window it would
be in without the action; a newest message is shown if, besides, nothing makes the call raise
(`anchored_iff`).
-/

namespace PennyCore

open Lib

section

variable {messages : List MessageLike} {actions : List ActionLike} {reference : Int}

theorem mem_candidates {t : Int} :
    t ∈ candidates messages actions ↔
      (∃ msg ∈ messages, msg.timestamp = t) ∨ ∃ act ∈ actions, act.timestamp = t := by
  simp [candidates]

/-- The reference of a history that is not empty. -/
theorem reference_exists (h : messages ≠ []) (actions : List ActionLike) :
    ∃ reference, (candidates messages actions).max? = some reference := by
  cases hmax : (candidates messages actions).max? with
  | some reference => exact ⟨reference, rfl⟩
  | none =>
    have hempty := List.max?_eq_none_iff.mp hmax
    simp [candidates] at hempty
    exact absurd hempty.1 h

theorem reference_mem (h : (candidates messages actions).max? = some reference) :
    reference ∈ candidates messages actions := (List.max?_eq_some_iff.mp h).1

theorem reference_ge (h : (candidates messages actions).max? = some reference) {t : Int}
    (ht : t ∈ candidates messages actions) : t ≤ reference := (List.max?_eq_some_iff.mp h).2 t ht

theorem hybridSplit_of_reference (h : (candidates messages actions).max? = some reference)
    (warmCutoffHours coldCutoffHours : Int) :
    hybridSplit messages actions warmCutoffHours coldCutoffHours =
      partitionMessages messages (reference - timedeltaHours warmCutoffHours)
        (reference - timedeltaHours coldCutoffHours) := by
  rw [hybridSplit, h]

end

/-! ## The bands -/

section

variable {messages : List MessageLike} {warmCutoff coldCutoff : Int} {msg : MessageLike}

/-- The band of a time, with what it means for the time. -/
theorem band_cases (warmCutoff coldCutoff t : Int) :
    (band warmCutoff coldCutoff t = .warm ∧ warmCutoff ≤ t) ∨
    (band warmCutoff coldCutoff t = .mid ∧ t < warmCutoff ∧ coldCutoff ≤ t) ∨
    (band warmCutoff coldCutoff t = .cold ∧ t < warmCutoff ∧ t < coldCutoff) := by
  unfold band
  split
  · exact .inl ⟨rfl, ‹_›⟩
  · split
    · exact .inr (.inl ⟨rfl, Int.not_le.mp ‹_›, ‹_›⟩)
    · exact .inr (.inr ⟨rfl, Int.not_le.mp ‹_›, Int.not_le.mp ‹_›⟩)

theorem mem_warm :
    msg ∈ (partitionMessages messages warmCutoff coldCutoff).warm ↔
      msg ∈ messages ∧ warmCutoff ≤ msg.timestamp := by
  unfold partitionMessages
  rcases band_cases warmCutoff coldCutoff msg.timestamp with ⟨h, _⟩ | ⟨h, _⟩ | ⟨h, _⟩ <;>
    simp [h] <;> omega

theorem mem_mid :
    msg ∈ (partitionMessages messages warmCutoff coldCutoff).mid ↔
      msg ∈ messages ∧ msg.timestamp < warmCutoff ∧ coldCutoff ≤ msg.timestamp := by
  unfold partitionMessages
  rcases band_cases warmCutoff coldCutoff msg.timestamp with ⟨h, _⟩ | ⟨h, _⟩ | ⟨h, _⟩ <;>
    simp [h] <;> omega

theorem mem_cold :
    msg ∈ (partitionMessages messages warmCutoff coldCutoff).cold ↔
      msg ∈ messages ∧ msg.timestamp < warmCutoff ∧ msg.timestamp < coldCutoff := by
  unfold partitionMessages
  rcases band_cases warmCutoff coldCutoff msg.timestamp with ⟨h, _⟩ | ⟨h, _⟩ | ⟨h, _⟩ <;>
    simp [h] <;> omega

/-- Cutoffs that put each message into the same band split the history alike. -/
theorem partitionMessages_congr {warmCutoff' coldCutoff' : Int}
    (h : ∀ msg ∈ messages, band warmCutoff coldCutoff msg.timestamp =
      band warmCutoff' coldCutoff' msg.timestamp) :
    partitionMessages messages warmCutoff coldCutoff =
      partitionMessages messages warmCutoff' coldCutoff' := by
  have hfilter : ∀ b, messages.filter (fun msg => band warmCutoff coldCutoff msg.timestamp = b) =
      messages.filter (fun msg => band warmCutoff' coldCutoff' msg.timestamp = b) := by
    intro b
    apply List.filter_congr
    intro msg hmsg
    rw [h msg hmsg]
  unfold partitionMessages
  simp only [hfilter]

end

/-! ## The anchor -/

section

variable {K : Type} [Field K] [LinearOrder K] [FloorRing K]

/-- A newest message of the history. -/
def Newest (messages : List MessageLike) (msg : MessageLike) : Prop :=
  msg ∈ messages ∧ ∀ other ∈ messages, other.timestamp ≤ msg.timestamp

/-- The windows are anchored on the newest message: the split is the one without the actions, and a
newest message is warm and has a segment of its own. -/
structure AnchoredOnMessages (R : Renderer) (cosine : String → String → K) (client : SummaryClient)
    (query : String) (messages : List MessageLike) (actions : List ActionLike)
    (warmCutoffHours coldCutoffHours maxTokens : Int) : Prop where
  split : hybridBands messages actions warmCutoffHours coldCutoffHours =
    hybridBands messages [] warmCutoffHours coldCutoffHours
  warm : ∀ msg, Newest messages msg → ∃ split,
    hybridBands messages actions warmCutoffHours coldCutoffHours = .ok split ∧ msg ∈ split.warm
  verbatim : ∀ msg, Newest messages msg →
    ∃ out, hybridSegments R cosine client query messages actions warmCutoffHours coldCutoffHours
        maxTokens = .ok out ∧
      ∃ seg ∈ out.segments, seg.source = .recentMessage ∧ seg.body = formatMessageSegment R msg

/-- No action is so much newer than the newest message that a message within one of its windows is
not within the same window of the action. -/
def NoActionOutruns (messages : List MessageLike) (actions : List ActionLike)
    (warmCutoffHours coldCutoffHours : Int) : Prop :=
  ∀ act ∈ actions, ∀ newest, Newest messages newest → ∀ msg ∈ messages,
    (newest.timestamp - timedeltaHours warmCutoffHours ≤ msg.timestamp →
      act.timestamp - timedeltaHours warmCutoffHours ≤ msg.timestamp) ∧
    (newest.timestamp - timedeltaHours coldCutoffHours ≤ msg.timestamp →
      act.timestamp - timedeltaHours coldCutoffHours ≤ msg.timestamp)

/-- What is shown when the windows end at `coldCutoff` has no lone surrogate. -/
structure Showable (R : Renderer) (client : SummaryClient) (maxTokens : Int)
    (messages : List MessageLike) (actions : List ActionLike) (coldCutoff : Int) : Prop where
  action : ∀ act ∈ actions, WellFormed (formatActionSegment R act)
  message : ∀ msg ∈ messages, coldCutoff ≤ msg.timestamp → WellFormed (formatMessageSegment R msg)
  summary : ∀ text ∈ summaryBodies R client maxTokens (ranked MessageLike.timestamp
    (messages.filter fun msg => msg.timestamp < coldCutoff)), WellFormed text

/-- Neither an action nor a cutoff or a text is in the way of the anchor. -/
structure Anchorable (R : Renderer) (client : SummaryClient) (messages : List MessageLike)
    (actions : List ActionLike) (warmCutoffHours coldCutoffHours maxTokens : Int) : Prop where
  outruns : NoActionOutruns messages actions warmCutoffHours coldCutoffHours
  fit : CutoffsFit messages actions warmCutoffHours coldCutoffHours
  fitAlone : CutoffsFit messages [] warmCutoffHours coldCutoffHours
  texts : ∀ newest, Newest messages newest → Showable R client maxTokens messages actions
    (newest.timestamp - timedeltaHours coldCutoffHours)

/-- Actions that are no newer than the messages outrun none. -/
theorem NoActionOutruns.of_older {messages : List MessageLike} {actions : List ActionLike}
    {warmCutoffHours coldCutoffHours : Int}
    (h : ∀ act ∈ actions, ∃ msg ∈ messages, act.timestamp ≤ msg.timestamp) :
    NoActionOutruns messages actions warmCutoffHours coldCutoffHours := by
  intro act hact newest hnewest msg hmsg
  obtain ⟨other, hother, hle⟩ := h act hact
  have hge := hnewest.2 other hother
  omega

variable {messages : List MessageLike} {actions : List ActionLike} {msg : MessageLike}
  {reference : Int}

/-- Without actions the reference is the time of a newest message. -/
theorem newest_exists (h : messages ≠ []) :
    ∃ newest, Newest messages newest ∧ (candidates messages []).max? = some newest.timestamp := by
  obtain ⟨reference, href⟩ := reference_exists h []
  rcases mem_candidates.mp (reference_mem href) with ⟨newest, hmem, heq⟩ | ⟨_, hact, _⟩
  · subst heq
    refine ⟨newest, ⟨hmem, fun other hother => ?_⟩, href⟩
    exact reference_ge href (mem_candidates.mpr (.inl ⟨other, hother, rfl⟩))
  · cases hact

theorem timedeltaHours_lt {a b : Int} (h : a < b) : timedeltaHours a < timedeltaHours b := by
  unfold timedeltaHours
  omega

theorem timedeltaHours_nonneg {a : Int} (h : 0 ≤ a) : 0 ≤ timedeltaHours a := by
  unfold timedeltaHours
  omega

/-- A warm message has a segment of its own, unless the call raises. -/
theorem warm_verbatim (R : Renderer) (cosine : String → String → K) (client : SummaryClient)
    (query : String) {warmCutoffHours coldCutoffHours : Int} (maxTokens : Int)
    (hlt : warmCutoffHours < coldCutoffHours)
    (hfit : CutoffsFit messages actions warmCutoffHours coldCutoffHours)
    (hwf : ∀ seg ∈ hybridUnsorted R cosine client query actions maxTokens
      (hybridSplit messages actions warmCutoffHours coldCutoffHours), WellFormed seg.body)
    (hwarm : msg ∈ (hybridSplit messages actions warmCutoffHours coldCutoffHours).warm) :
    ∃ out, hybridSegments R cosine client query messages actions warmCutoffHours coldCutoffHours
        maxTokens = .ok out ∧
      ∃ seg ∈ out.segments, seg.source = .recentMessage ∧ seg.body = formatMessageSegment R msg := by
  rw [hybridSegments_fit hlt hfit, constructed, if_pos hwf]
  refine ⟨_, rfl, hybridWarm R msg, mem_ranked.mpr ?_, rfl, rfl⟩
  apply List.mem_append_left
  exact List.mem_append_right _ (List.mem_map_of_mem hwarm)

/-- The segments of a split can be shown if the texts can. -/
theorem showable_iff (R : Renderer) (cosine : String → String → K) (client : SummaryClient)
    (query : String) (maxTokens : Int) (messages : List MessageLike) (actions : List ActionLike)
    {warmCutoff coldCutoff : Int} (hle : coldCutoff ≤ warmCutoff) :
    (∀ seg ∈ hybridUnsorted R cosine client query actions maxTokens
      (partitionMessages messages warmCutoff coldCutoff), WellFormed seg.body) ↔
      Showable R client maxTokens messages actions coldCutoff := by
  have hcold : (partitionMessages messages warmCutoff coldCutoff).cold =
      ranked MessageLike.timestamp (messages.filter fun msg => msg.timestamp < coldCutoff) := by
    unfold partitionMessages
    simp only
    congr 1
    refine List.filter_congr fun msg _ => decide_eq_decide.mpr ?_
    rcases band_cases warmCutoff coldCutoff msg.timestamp with ⟨h, _⟩ | ⟨h, _⟩ | ⟨h, _⟩ <;>
      simp only [h, reduceCtorEq, true_iff, false_iff] <;> omega
  have hkept : ∀ msg, msg ∈ (partitionMessages messages warmCutoff coldCutoff).warm ++
      (partitionMessages messages warmCutoff coldCutoff).mid ↔
        msg ∈ messages ∧ coldCutoff ≤ msg.timestamp := fun msg => by
    rw [List.mem_append, mem_warm, mem_mid]
    constructor
    · rintro (⟨h, hin⟩ | ⟨h, -, hin⟩)
      · exact ⟨h, by omega⟩
      · exact ⟨h, hin⟩
    · rintro ⟨h, hin⟩
      by_cases hw : warmCutoff ≤ msg.timestamp
      · exact .inl ⟨h, hw⟩
      · exact .inr ⟨h, by omega, hin⟩
  have hbodies : (hybridUnsorted R cosine client query actions maxTokens
      (partitionMessages messages warmCutoff coldCutoff)).map BriefSegment.body =
      shownTexts R client maxTokens actions
        ((partitionMessages messages warmCutoff coldCutoff).warm ++
          (partitionMessages messages warmCutoff coldCutoff).mid)
        (partitionMessages messages warmCutoff coldCutoff).cold := by
    have hsnd := congrArg (List.map Prod.snd) (hybridUnsorted_shown R client actions cosine query
      maxTokens (partitionMessages messages warmCutoff coldCutoff))
    simpa only [shownTexts, List.map_append, List.map_map, Function.comp_def, BriefSegment.shown,
      List.map_id'] using hsnd
  have hall : (∀ seg ∈ hybridUnsorted R cosine client query actions maxTokens
      (partitionMessages messages warmCutoff coldCutoff), WellFormed seg.body) ↔
      ∀ text ∈ (hybridUnsorted R cosine client query actions maxTokens
        (partitionMessages messages warmCutoff coldCutoff)).map BriefSegment.body, WellFormed text := by
    simp only [List.mem_map, forall_exists_index, and_imp, forall_apply_eq_imp_iff₂]
  rw [hall, hbodies, hcold, shownTexts, List.forall_mem_append, List.forall_mem_append,
    List.forall_mem_map, List.forall_mem_map]
  constructor
  · rintro ⟨⟨hsum, hact⟩, hmsg⟩
    exact ⟨hact, fun msg hmem hin => hmsg msg ((hkept msg).mpr ⟨hmem, hin⟩), hsum⟩
  · intro h
    exact ⟨⟨h.summary, h.action⟩, fun msg hmem =>
      h.message msg ((hkept msg).mp hmem).1 ((hkept msg).mp hmem).2⟩

/-- The split is that of the messages alone when no action outruns them. -/
theorem split_of_noActionOutruns {warmCutoffHours coldCutoffHours : Int} (hne : messages ≠ [])
    (h : NoActionOutruns messages actions warmCutoffHours coldCutoffHours) :
    hybridSplit messages actions warmCutoffHours coldCutoffHours =
      hybridSplit messages [] warmCutoffHours coldCutoffHours := by
  obtain ⟨newest, hnewest, href₀⟩ := newest_exists hne
  obtain ⟨reference, href⟩ := reference_exists hne actions
  rw [hybridSplit_of_reference href, hybridSplit_of_reference href₀]
  have hge : newest.timestamp ≤ reference :=
    reference_ge href (mem_candidates.mpr (.inl ⟨newest, hnewest.1, rfl⟩))
  -- the reference is the time of a message or of an action
  have hcut : ∀ msg ∈ messages,
      (newest.timestamp - timedeltaHours warmCutoffHours ≤ msg.timestamp →
        reference - timedeltaHours warmCutoffHours ≤ msg.timestamp) ∧
      (newest.timestamp - timedeltaHours coldCutoffHours ≤ msg.timestamp →
        reference - timedeltaHours coldCutoffHours ≤ msg.timestamp) := by
    intro msg hmsg
    rcases mem_candidates.mp (reference_mem href) with ⟨other, hother, heq⟩ | ⟨act, hact, heq⟩
    · have hle := hnewest.2 other hother
      omega
    · rw [← heq]
      exact h act hact newest hnewest msg hmsg
  apply partitionMessages_congr
  intro msg hmsg
  obtain ⟨hwarm, hcold⟩ := hcut msg hmsg
  have hwarm' : msg.timestamp ≥ reference - timedeltaHours warmCutoffHours ↔
      msg.timestamp ≥ newest.timestamp - timedeltaHours warmCutoffHours := by omega
  have hcold' : msg.timestamp ≥ reference - timedeltaHours coldCutoffHours ↔
      msg.timestamp ≥ newest.timestamp - timedeltaHours coldCutoffHours := by omega
  unfold band
  simp only [hwarm', hcold']

/-- An action that moves a message out of a window changes the split. -/
theorem noActionOutruns_of_split {warmCutoffHours coldCutoffHours : Int} (hne : messages ≠ [])
    (hlt : warmCutoffHours < coldCutoffHours)
    (h : hybridSplit messages actions warmCutoffHours coldCutoffHours =
      hybridSplit messages [] warmCutoffHours coldCutoffHours) :
    NoActionOutruns messages actions warmCutoffHours coldCutoffHours := by
  obtain ⟨oldest, holdest, href₀⟩ := newest_exists hne
  obtain ⟨reference, href⟩ := reference_exists hne actions
  rw [hybridSplit_of_reference href, hybridSplit_of_reference href₀] at h
  have hgap := timedeltaHours_lt hlt
  intro act hact newest hnewest msg hmsg
  have hact := reference_ge href (mem_candidates.mpr (.inr ⟨act, hact, rfl⟩))
  have hsame : newest.timestamp = oldest.timestamp :=
    Int.le_antisymm (holdest.2 newest hnewest.1) (hnewest.2 oldest holdest.1)
  constructor
  · intro hin
    have hwarm : msg ∈ (partitionMessages messages
        (reference - timedeltaHours warmCutoffHours)
        (reference - timedeltaHours coldCutoffHours)).warm := by
      rw [h]
      exact mem_warm.mpr ⟨hmsg, by omega⟩
    have hle := (mem_warm.mp hwarm).2
    omega
  · intro hin
    by_contra hout
    have hcold : msg ∈ (partitionMessages messages
        (oldest.timestamp - timedeltaHours warmCutoffHours)
        (oldest.timestamp - timedeltaHours coldCutoffHours)).cold := by
      rw [← h]
      exact mem_cold.mpr ⟨hmsg, by omega, by omega⟩
    have hlt := (mem_cold.mp hcold).2.2
    omega

/-- The split of a history whose windows no action outruns, on its newest message. -/
theorem split_of_newest {warmCutoffHours coldCutoffHours : Int} {newest : MessageLike}
    (h : NoActionOutruns messages actions warmCutoffHours coldCutoffHours)
    (hnewest : Newest messages newest) :
    hybridSplit messages actions warmCutoffHours coldCutoffHours =
      partitionMessages messages (newest.timestamp - timedeltaHours warmCutoffHours)
        (newest.timestamp - timedeltaHours coldCutoffHours) := by
  have hne : messages ≠ [] := fun hnil => by
    rw [hnil] at hnewest
    cases hnewest.1
  obtain ⟨first, hfirst, href⟩ := newest_exists hne
  have hsame : newest.timestamp = first.timestamp :=
    Int.le_antisymm (hfirst.2 newest hnewest.1) (hnewest.2 first hfirst.1)
  rw [split_of_noActionOutruns hne h, hybridSplit_of_reference href, hsame]

/-- The windows are anchored on the newest message exactly when nothing is in the way. -/
theorem anchored_iff (R : Renderer) (cosine : String → String → K) (client : SummaryClient)
    (query : String) (messages : List MessageLike) (actions : List ActionLike)
    {warmCutoffHours coldCutoffHours : Int} (maxTokens : Int) (hne : messages ≠ [])
    (hwarm : 0 ≤ warmCutoffHours) (hlt : warmCutoffHours < coldCutoffHours) :
    AnchoredOnMessages R cosine client query messages actions warmCutoffHours coldCutoffHours
        maxTokens ↔
      Anchorable R client messages actions warmCutoffHours coldCutoffHours maxTokens := by
  have hgap := timedeltaHours_lt hlt
  constructor
  · intro h
    -- the call with a newest message in it returned, so both cutoffs are in range
    obtain ⟨first, hfirst, -⟩ := newest_exists hne
    obtain ⟨out, hout, -⟩ := h.verbatim first hfirst
    obtain ⟨hfit, hwf, -⟩ := hybridSegments_ok hlt hout
    have hfitAlone : CutoffsFit messages [] warmCutoffHours coldCutoffHours := by
      by_contra hno
      have hsplit := h.split
      rw [hybridBands_fit hfit, hybridBands_overflow hno] at hsplit
      cases hsplit
    have hsplit := h.split
    rw [hybridBands_fit hfit, hybridBands_fit hfitAlone] at hsplit
    have houtruns := noActionOutruns_of_split hne hlt (Except.ok.inj hsplit)
    refine ⟨houtruns, hfit, hfitAlone, fun newest hnewest => ?_⟩
    rw [split_of_newest houtruns hnewest] at hwf
    exact (showable_iff R cosine client query maxTokens messages actions (by omega)).mp hwf
  · intro h
    have hbands := hybridBands_fit h.fit
    have hsplit := split_of_noActionOutruns hne h.outruns
    have hnewest : ∀ msg, Newest messages msg →
        msg ∈ (hybridSplit messages actions warmCutoffHours coldCutoffHours).warm := by
      intro msg hmsg
      have hnonneg := timedeltaHours_nonneg hwarm
      rw [split_of_newest h.outruns hmsg]
      exact mem_warm.mpr ⟨hmsg.1, by omega⟩
    refine ⟨?_, fun msg hmsg => ⟨_, hbands, hnewest msg hmsg⟩, fun msg hmsg => ?_⟩
    · rw [hbands, hybridBands_fit h.fitAlone, hsplit]
    · refine warm_verbatim R cosine client query maxTokens hlt h.fit ?_ (hnewest msg hmsg)
      rw [split_of_newest h.outruns hmsg]
      exact (showable_iff R cosine client query maxTokens messages actions (by omega)).mpr
        (h.texts msg hmsg)

theorem band_outruns : NoActionOutruns bandHistory bandActions 24 72 := by
  refine NoActionOutruns.of_older fun act hact => ?_
  rw [List.mem_singleton.mp hact]
  exact ⟨_, List.mem_cons_self, by decide⟩

theorem band_newest {newest : MessageLike} (h : Newest bandHistory newest) :
    newest.timestamp = 360000000000 := by
  have hle : ∀ msg ∈ bandHistory, msg.timestamp ≤ 360000000000 := by decide
  exact Int.le_antisymm (hle newest h.1) (h.2 (demoMessage 360000000000 "hello") List.mem_cons_self)

theorem band_showable : Showable demoRenderer demoClient 256 bandHistory bandActions 100800000000 :=
  ⟨by decide, by decide, by decide⟩

/-- A history with a message in each window, and an action between them. -/
theorem anchored_iff_demo :
    bandHistory ≠ [] ∧ (0 : Int) ≤ 24 ∧ (24 : Int) < 72 ∧
      AnchoredOnMessages (K := ℚ) demoRenderer (fun _ _ => 0) demoClient "rate?" bandHistory
        bandActions 24 72 256 := by
  have hne : bandHistory ≠ [] := List.cons_ne_nil _ _
  have halone : CutoffsFit bandHistory [] 24 72 := by
    intro reference h
    cases (show some (360000000000 : Int) = some reference from h)
    decide
  refine ⟨hne, by decide, by decide, (anchored_iff demoRenderer (fun _ _ => 0) demoClient "rate?"
    bandHistory bandActions 256 hne (by decide) (by decide)).mpr
      ⟨band_outruns, band_fit, halone, fun newest hnewest => ?_⟩⟩
  rw [band_newest hnewest]
  exact band_showable

/-- An action 100 hours after the only message leaves no message warm. -/
theorem action_outruns :
    ¬ AnchoredOnMessages (K := ℚ) demoRenderer (fun _ _ => 0) demoClient "rate?"
      [demoMessage 0 "I moved to a new address"] [demoAction 360000000000] 24 72 256 := by
  intro h
  have hnewest : Newest [demoMessage 0 "I moved to a new address"]
      (demoMessage 0 "I moved to a new address") :=
    ⟨List.mem_singleton_self _, fun other hother => by rw [List.mem_singleton.mp hother]⟩
  obtain ⟨split, hbands, hwarm⟩ := h.warm _ hnewest
  have hbands' : hybridBands [demoMessage 0 "I moved to a new address"] [demoAction 360000000000] 24 72
      = .ok (partitionMessages [demoMessage 0 "I moved to a new address"] 273600000000
        100800000000) := rfl
  cases hbands.symm.trans hbands'
  have hge := (mem_warm.mp hwarm).2
  exact absurd hge (by decide)

end

end PennyCore
