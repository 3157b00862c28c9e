import PennyCore.ContextEngine.Summarized

/-!
# Hybrid retrieval

`src/context_engine/retrieval/hybrid.py`: the warm messages verbatim, those of the middle range scored
against the query, the cold ones as one summary.

* `partitionMessages`: the three bands of a history, each with its newest message first.
* `hybridBands`: the bands of a call. A cutoff out of a `datetime`'s range raises (`cutoff`), and
  `CutoffsFit` says that none is; `hybridSplit` are the bands for cutoffs without bounds.
* The cosine of two texts is the parameter `cosine`.
-/

namespace PennyCore

open Lib

inductive Band where
  | warm | mid | cold
  deriving DecidableEq, Repr

/-- The band of a message, from its time and the two cutoffs. -/
def band (warmCutoff coldCutoff ts : Int) : Band :=
  if ts ≥ warmCutoff then .warm else if ts ≥ coldCutoff then .mid else .cold

/-- A history, split. -/
structure HybridSplit where
  warm : List MessageLike
  mid : List MessageLike
  cold : List MessageLike

/-- `_partition_messages`. -/
def partitionMessages (messages : List MessageLike) (warmCutoff coldCutoff : Int) : HybridSplit :=
  let part (b : Band) := ranked MessageLike.timestamp
    (messages.filter fun msg => band warmCutoff coldCutoff msg.timestamp = b)
  ⟨part .warm, part .mid, part .cold⟩

/-- `timedelta(hours=hours)`. -/
def timedeltaHours (hours : Int) : Int := hours * 3600000000

/-- `reference - timedelta(hours=hours)`. The bound on a `timedelta` is wider than that on the
difference. -/
def cutoff (reference hours : Int) : Except RetrievalError Int :=
  if InYears (reference - timedeltaHours hours) then .ok (reference - timedeltaHours hours)
  else .error .overflow

/-- The times that the reference is the maximum of. -/
def candidates (messages : List MessageLike) (actions : List ActionLike) : List Int :=
  messages.map MessageLike.timestamp ++ actions.map ActionLike.timestamp

/-- The bands of `hybrid_segments`: its reference is the maximum of the candidates. -/
def hybridBands (messages : List MessageLike) (actions : List ActionLike)
    (warmCutoffHours coldCutoffHours : Int) : Except RetrievalError HybridSplit :=
  match (candidates messages actions).max? with
  | none => .ok ⟨[], [], []⟩
  | some reference => do
    let warmCutoff ← cutoff reference warmCutoffHours
    let coldCutoff ← cutoff reference coldCutoffHours
    return partitionMessages messages warmCutoff coldCutoff

/-- The bands for cutoffs without bounds. -/
def hybridSplit (messages : List MessageLike) (actions : List ActionLike)
    (warmCutoffHours coldCutoffHours : Int) : HybridSplit :=
  match (candidates messages actions).max? with
  | none => ⟨[], [], []⟩
  | some reference =>
    partitionMessages messages (reference - timedeltaHours warmCutoffHours)
      (reference - timedeltaHours coldCutoffHours)

/-- Both cutoffs are times of a `datetime`. -/
def CutoffsFit (messages : List MessageLike) (actions : List ActionLike)
    (warmCutoffHours coldCutoffHours : Int) : Prop :=
  ∀ reference, (candidates messages actions).max? = some reference →
    InYears (reference - timedeltaHours warmCutoffHours) ∧
      InYears (reference - timedeltaHours coldCutoffHours)

section

variable {messages : List MessageLike} {actions : List ActionLike}
  {warmCutoffHours coldCutoffHours : Int}

theorem hybridBands_fit (h : CutoffsFit messages actions warmCutoffHours coldCutoffHours) :
    hybridBands messages actions warmCutoffHours coldCutoffHours =
      .ok (hybridSplit messages actions warmCutoffHours coldCutoffHours) := by
  unfold hybridBands hybridSplit cutoff
  cases hmax : (candidates messages actions).max? with
  | none => rfl
  | some reference =>
    obtain ⟨hwarm, hcold⟩ := h reference hmax
    simp only [if_pos hwarm, if_pos hcold]
    rfl

theorem hybridBands_overflow (h : ¬ CutoffsFit messages actions warmCutoffHours coldCutoffHours) :
    hybridBands messages actions warmCutoffHours coldCutoffHours = .error .overflow := by
  unfold CutoffsFit at h
  push Not at h
  obtain ⟨reference, hmax, hno⟩ := h
  unfold hybridBands cutoff
  simp only [hmax]
  by_cases hwarm : InYears (reference - timedeltaHours warmCutoffHours)
  · simp only [if_pos hwarm, if_neg (hno hwarm)]
    rfl
  · simp only [if_neg hwarm]
    rfl

end

section

variable {K : Type} [Field K]

def PRIORITY_WARM_BAND : K := 10 ^ 6

/-- `_build_summary_segment`. -/
def buildSummarySegment (R : Renderer) (client : SummaryClient) (maxTokens : Int)
    (cold : List MessageLike) : Option (BriefSegment K) × List SummaryCall :=
  summaryWith [("tier", .str "cold")] R client maxTokens cold

/-- The segment of a prior action. -/
def hybridAction (R : Renderer) (act : ActionLike) : BriefSegment K :=
  actionSegment R (PRIORITY_ACTION_BAND + epochSeconds K act.timestamp)
    [("action_type", .str act.actionType), ("tier", .str "action")] act

/-- The segment of a warm message. -/
def hybridWarm (R : Renderer) (msg : MessageLike) : BriefSegment K :=
  messageSegment R .recentMessage (PRIORITY_WARM_BAND + epochSeconds K msg.timestamp)
    [("channel", .str msg.channel), ("sender", .str msg.sender), ("tier", .str "warm")] msg

/-- A score, with the time to break ties. -/
def scorePriority (score : K) (t : Int) : K := score + epochSeconds K t * (1 / 10 ^ 12)

variable [LinearOrder K] [FloorRing K]

/-- `round(x, 6)`. -/
def round6 (x : K) : K := (roundHalfEven (x * 10 ^ 6) : K) / 10 ^ 6

/-- The segment of a message of the middle range. -/
def hybridMid (R : Renderer) (cosine : String → String → K) (query : String) (msg : MessageLike) :
    BriefSegment K :=
  let score := cosine query msg.content
  messageSegment R .semanticMatch (scorePriority score msg.timestamp)
    [("channel", .str msg.channel), ("sender", .str msg.sender), ("similarity", .float (round6 score)),
      ("tier", .str "mid")] msg

/-- The segments of a split, before they are sorted. -/
def hybridUnsorted (R : Renderer) (cosine : String → String → K) (client : SummaryClient)
    (query : String) (actions : List ActionLike) (summaryMaxTokens : Int) (split : HybridSplit) :
    List (BriefSegment K) :=
  (buildSummarySegment R client summaryMaxTokens split.cold).1.toList ++
    actions.map (hybridAction R) ++ split.warm.map (hybridWarm R) ++
    split.mid.map (hybridMid R cosine query)

def hybridSegments (R : Renderer) (cosine : String → String → K) (client : SummaryClient)
    (query : String) (messages : List MessageLike) (actions : List ActionLike)
    (warmCutoffHours coldCutoffHours summaryMaxTokens : Int) :
    Except RetrievalError (Retrieval K) :=
  if coldCutoffHours ≤ warmCutoffHours then
    .error (.value ⟨"cold_cutoff_hours (" ++ toString coldCutoffHours ++
      ") must be > warm_cutoff_hours (" ++ toString warmCutoffHours ++ ")"⟩)
  else if messages.isEmpty ∧ actions.isEmpty then .ok ⟨[], []⟩
  else do
    let split ← hybridBands messages actions warmCutoffHours coldCutoffHours
    let segments ← constructed (hybridUnsorted R cosine client query actions summaryMaxTokens split)
    return ⟨ranked BriefSegment.priority segments,
      (buildSummarySegment (K := K) R client summaryMaxTokens split.cold).2⟩

section

variable {R : Renderer} {cosine : String → String → K} {client : SummaryClient} {query : String}
  {messages : List MessageLike} {actions : List ActionLike}
  {warmCutoffHours coldCutoffHours maxTokens : Int}

/-- An empty history is no special case. -/
theorem hybridSegments_eq (h : warmCutoffHours < coldCutoffHours) :
    hybridSegments R cosine client query messages actions warmCutoffHours coldCutoffHours maxTokens =
      (hybridBands messages actions warmCutoffHours coldCutoffHours).bind fun split =>
        (constructed (hybridUnsorted R cosine client query actions maxTokens split)).map fun segments =>
          ⟨ranked BriefSegment.priority segments,
            (buildSummarySegment (K := K) R client maxTokens split.cold).2⟩ := by
  rw [hybridSegments, if_neg (Int.not_le.mpr h)]
  split
  · rename_i hempty
    rw [List.isEmpty_iff.mp hempty.1, List.isEmpty_iff.mp hempty.2]
    rfl
  · rfl

/-- A cutoff out of range raises. -/
theorem hybridSegments_overflow (h : warmCutoffHours < coldCutoffHours)
    (hno : ¬ CutoffsFit messages actions warmCutoffHours coldCutoffHours) :
    hybridSegments R cosine client query messages actions warmCutoffHours coldCutoffHours maxTokens =
      .error .overflow := by
  rw [hybridSegments_eq h, hybridBands_overflow hno]
  rfl

theorem hybridSegments_fit (h : warmCutoffHours < coldCutoffHours)
    (hfit : CutoffsFit messages actions warmCutoffHours coldCutoffHours) :
    hybridSegments R cosine client query messages actions warmCutoffHours coldCutoffHours maxTokens =
      (constructed (hybridUnsorted R cosine client query actions maxTokens
          (hybridSplit messages actions warmCutoffHours coldCutoffHours))).map fun segments =>
        ⟨ranked BriefSegment.priority segments, (buildSummarySegment (K := K) R client maxTokens
          (hybridSplit messages actions warmCutoffHours coldCutoffHours).cold).2⟩ := by
  rw [hybridSegments_eq h, hybridBands_fit hfit]
  rfl

/-- What a call that returns has checked, and what it returns. -/
theorem hybridSegments_ok (h : warmCutoffHours < coldCutoffHours) {out : Retrieval K}
    (hout : hybridSegments R cosine client query messages actions warmCutoffHours coldCutoffHours
      maxTokens = .ok out) :
    CutoffsFit messages actions warmCutoffHours coldCutoffHours ∧
    (∀ seg ∈ hybridUnsorted R cosine client query actions maxTokens
      (hybridSplit messages actions warmCutoffHours coldCutoffHours), WellFormed seg.body) ∧
    out.segments = ranked BriefSegment.priority (hybridUnsorted R cosine client query actions
      maxTokens (hybridSplit messages actions warmCutoffHours coldCutoffHours)) := by
  by_cases hfit : CutoffsFit messages actions warmCutoffHours coldCutoffHours
  · rw [hybridSegments_fit h hfit] at hout
    refine ⟨hfit, ?_⟩
    unfold constructed at hout
    split at hout
    · cases hout
      exact ⟨‹_›, rfl⟩
    · cases hout
  · rw [hybridSegments_overflow h hfit] at hout
    cases hout

end

end

end PennyCore
