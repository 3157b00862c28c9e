import Mathlib.Tactic.Linarith
import Mathlib.Tactic.NormNum
import Mathlib.Tactic.Positivity
import PennyCore.ContextEngine.HybridWindows

/-!
# The order of hybrid retrieval

One number per segment encodes the bands and the order within each. `hybridItems` is the returned list
with the origin of each segment; `Before` is the order that the encoding is meant to give.

* For times up to `10 ^ 10` seconds the bands do not overlap (`hybridItems_bands`).
* The time of a message of the middle range weighs up to `10 ^ 10 * 10 ^ (-12)`, so it decides between
  scores that are closer than that. The order is the intended one exactly when no two messages of the
  middle range have such scores (`hybrid_order_iff`).
-/

namespace PennyCore

open Lib

section

variable {K : Type} [Field K] [LinearOrder K] [FloorRing K]

/-- A returned segment, with what it was made of. -/
inductive HybridItem (K : Type) where
  | summary (seg : BriefSegment K)
  | action (act : ActionLike)
  | warm (msg : MessageLike)
  | mid (msg : MessageLike)

def HybridItem.segment (R : Renderer) (cosine : String → String → K) (query : String) :
    HybridItem K → BriefSegment K
  | .summary seg => seg
  | .action act => hybridAction R act
  | .warm msg => hybridWarm R msg
  | .mid msg => hybridMid R cosine query msg

/-- The order of the kinds. -/
def HybridItem.kind : HybridItem K → Nat
  | .summary _ => 0
  | .action _ => 1
  | .warm _ => 2
  | .mid _ => 3

/-- The intended order: the summary, the actions and the warm messages with the newest first, the
middle range by score, and by time among equal scores. -/
def Before (cosine : String → String → K) (query : String) : HybridItem K → HybridItem K → Prop
  | .action a, .action b => b.timestamp ≤ a.timestamp
  | .warm a, .warm b => b.timestamp ≤ a.timestamp
  | .mid a, .mid b => cosine query b.content < cosine query a.content ∨
      (cosine query b.content = cosine query a.content ∧ b.timestamp ≤ a.timestamp)
  | x, y => x.kind < y.kind

/-- The items in the order in which `hybrid_segments` returns their segments. -/
def hybridItems (R : Renderer) (cosine : String → String → K) (client : SummaryClient)
    (query : String) (messages : List MessageLike) (actions : List ActionLike)
    (warmCutoffHours coldCutoffHours maxTokens : Int) : List (HybridItem K) :=
  let split := hybridSplit messages actions warmCutoffHours coldCutoffHours
  ranked (fun item => (HybridItem.segment R cosine query item).priority)
    ((buildSummarySegment R client maxTokens split.cold).1.toList.map .summary ++
      actions.map .action ++ split.warm.map .warm ++ split.mid.map .mid)

/-- The returned segments are those of the items. -/
theorem hybridItems_segments (R : Renderer) (cosine : String → String → K) (client : SummaryClient)
    (query : String) (messages : List MessageLike) (actions : List ActionLike)
    (warmCutoffHours coldCutoffHours maxTokens : Int) :
    ranked BriefSegment.priority (hybridUnsorted R cosine client query actions maxTokens
      (hybridSplit messages actions warmCutoffHours coldCutoffHours)) =
      (hybridItems R cosine client query messages actions warmCutoffHours coldCutoffHours
        maxTokens).map (HybridItem.segment R cosine query) := by
  rw [hybridItems, ← ranked_map, hybridUnsorted]
  simp only [List.map_append, List.map_map, Function.comp_def, HybridItem.segment, List.map_id']

/-! ## The bands -/

variable [IsStrictOrderedRing K]

theorem epochSeconds_lt {a b : Int} : epochSeconds K a < epochSeconds K b ↔ a < b := by
  unfold epochSeconds
  rw [div_lt_div_iff_of_pos_right (by positivity)]
  exact Int.cast_lt

theorem epochSeconds_le {a b : Int} : epochSeconds K a ≤ epochSeconds K b ↔ a ≤ b := by
  rw [← not_lt, ← not_lt, epochSeconds_lt]

/-- The times for which the bands are made: epoch seconds in `[0, 10 ^ 10)`. -/
def InEpoch (K : Type) [Field K] [LinearOrder K] (t : Int) : Prop :=
  0 ≤ epochSeconds K t ∧ epochSeconds K t < 10 ^ 10

variable {R : Renderer} {cosine : String → String → K} {client : SummaryClient} {query : String}
  {messages : List MessageLike} {actions : List ActionLike}
  {warmCutoffHours coldCutoffHours maxTokens : Int}

omit [LinearOrder K] [FloorRing K] [IsStrictOrderedRing K] in
theorem priority_summary {metadata : List (String × MetaValue K)} {cold : List MessageLike}
    {seg : BriefSegment K} (h : seg ∈ (summaryWith metadata R client maxTokens cold).1.toList) :
    seg.priority = 10 ^ 18 := by
  unfold summaryWith at h
  split at h
  · cases h
  · simp only at h
    split at h
    · cases h
    · rw [Option.toList_some, List.mem_singleton] at h
      rw [h]
      rfl

theorem mem_split {msg : MessageLike} :
    (msg ∈ (hybridSplit messages actions warmCutoffHours coldCutoffHours).warm → msg ∈ messages) ∧
      (msg ∈ (hybridSplit messages actions warmCutoffHours coldCutoffHours).mid → msg ∈ messages) := by
  unfold hybridSplit
  split
  · exact ⟨fun h => (nomatch h), fun h => (nomatch h)⟩
  · exact ⟨fun h => (mem_warm.mp h).1, fun h => (mem_mid.mp h).1⟩

omit [FloorRing K] in
/-- The priority of an action's segment. -/
theorem priority_action {act : ActionLike} (h : InEpoch K act.timestamp) :
    10 ^ 12 ≤ (hybridAction (K := K) R act).priority ∧
      (hybridAction (K := K) R act).priority < 10 ^ 12 + 10 ^ 10 := by
  change 10 ^ 12 ≤ 10 ^ 12 + epochSeconds K act.timestamp ∧
    10 ^ 12 + epochSeconds K act.timestamp < 10 ^ 12 + 10 ^ 10
  exact ⟨le_add_of_nonneg_right h.1, by linarith only [h.2]⟩

omit [FloorRing K] in
/-- The priority of a warm message's segment. -/
theorem priority_warm {msg : MessageLike} (h : InEpoch K msg.timestamp) :
    10 ^ 6 ≤ (hybridWarm (K := K) R msg).priority ∧
      (hybridWarm (K := K) R msg).priority < 10 ^ 6 + 10 ^ 10 := by
  change 10 ^ 6 ≤ 10 ^ 6 + epochSeconds K msg.timestamp ∧
    10 ^ 6 + epochSeconds K msg.timestamp < 10 ^ 6 + 10 ^ 10
  exact ⟨le_add_of_nonneg_right h.1, by linarith only [h.2]⟩

/-- The priority of a segment of the middle range. -/
theorem priority_mid {msg : MessageLike} (h : InEpoch K msg.timestamp)
    (hcos : cosine query msg.content ≤ 1) : (hybridMid R cosine query msg).priority < 10 ^ 6 := by
  change cosine query msg.content + epochSeconds K msg.timestamp * (1 / 10 ^ 12) < 10 ^ 6
  have htie : epochSeconds K msg.timestamp * (1 / 10 ^ 12) < 10 ^ 10 * (1 / 10 ^ 12) :=
    mul_lt_mul_of_pos_right h.2 (by positivity)
  have hnum : (10 : K) ^ 10 * (1 / 10 ^ 12) ≤ 1 := by norm_num
  have hbig : (2 : K) < 10 ^ 6 := by norm_num
  linarith only [htie, hnum, hcos, hbig]

/-- The bands do not overlap: each is ranked by itself. -/
theorem hybridItems_bands (hmsg : ∀ msg ∈ messages, InEpoch K msg.timestamp)
    (hact : ∀ act ∈ actions, InEpoch K act.timestamp)
    (hcos : ∀ q text, 0 ≤ cosine q text ∧ cosine q text ≤ 1) :
    hybridItems R cosine client query messages actions warmCutoffHours coldCutoffHours maxTokens =
      (buildSummarySegment R client maxTokens
          (hybridSplit messages actions warmCutoffHours coldCutoffHours).cold).1.toList.map .summary ++
        (ranked (fun act => (hybridAction (K := K) R act).priority) actions).map .action ++
        (ranked (fun msg => (hybridWarm (K := K) R msg).priority)
          (hybridSplit messages actions warmCutoffHours coldCutoffHours).warm).map .warm ++
        (ranked (fun msg => (hybridMid R cosine query msg).priority)
          (hybridSplit messages actions warmCutoffHours coldCutoffHours).mid).map .mid := by
  have hwarmIn : ∀ msg ∈ (hybridSplit messages actions warmCutoffHours coldCutoffHours).warm,
      InEpoch K msg.timestamp := fun msg h => hmsg msg (mem_split.1 h)
  have hmidIn : ∀ msg ∈ (hybridSplit messages actions warmCutoffHours coldCutoffHours).mid,
      InEpoch K msg.timestamp := fun msg h => hmsg msg (mem_split.2 h)
  have hgap₁ : (10 : K) ^ 12 + 10 ^ 10 ≤ 10 ^ 18 := by norm_num
  have hgap₂ : (10 : K) ^ 6 + 10 ^ 10 ≤ 10 ^ 12 := by norm_num
  have hgap₃ : (10 : K) ^ 6 ≤ 10 ^ 12 := by norm_num
  have hgap₄ : (10 : K) ^ 12 ≤ 10 ^ 18 := by norm_num
  -- the bounds of each band
  have hsummary : ∀ x ∈ (buildSummarySegment R client maxTokens (hybridSplit messages actions
      warmCutoffHours coldCutoffHours).cold).1.toList.map HybridItem.summary,
      10 ^ 18 ≤ (HybridItem.segment R cosine query x).priority := by
    intro x hx
    obtain ⟨seg, hseg, rfl⟩ := List.mem_map.mp hx
    exact (priority_summary hseg).ge
  have hactions : ∀ x ∈ actions.map (HybridItem.action (K := K)),
      10 ^ 12 ≤ (HybridItem.segment R cosine query x).priority ∧
        (HybridItem.segment R cosine query x).priority ≤ 10 ^ 18 := by
    intro x hx
    obtain ⟨act, hmem, rfl⟩ := List.mem_map.mp hx
    obtain ⟨hlow, hhigh⟩ := priority_action (R := R) (hact act hmem)
    exact ⟨hlow, hhigh.le.trans hgap₁⟩
  have hwarms : ∀ x ∈ (hybridSplit messages actions warmCutoffHours coldCutoffHours).warm.map
      (HybridItem.warm (K := K)), 10 ^ 6 ≤ (HybridItem.segment R cosine query x).priority ∧
        (HybridItem.segment R cosine query x).priority ≤ 10 ^ 12 := by
    intro x hx
    obtain ⟨msg, hmem, rfl⟩ := List.mem_map.mp hx
    obtain ⟨hlow, hhigh⟩ := priority_warm (R := R) (hwarmIn msg hmem)
    exact ⟨hlow, hhigh.le.trans hgap₂⟩
  have hmids : ∀ x ∈ (hybridSplit messages actions warmCutoffHours coldCutoffHours).mid.map
      (HybridItem.mid (K := K)), (HybridItem.segment R cosine query x).priority ≤ 10 ^ 6 := by
    intro x hx
    obtain ⟨msg, hmem, rfl⟩ := List.mem_map.mp hx
    exact (priority_mid (hmidIn msg hmem) (hcos query msg.content).2).le
  unfold hybridItems
  rw [ranked_append_of_bound (10 ^ 6) _ hmids,
    ranked_append_of_bound (10 ^ 12) _ fun x hx => (hwarms x hx).2,
    ranked_append_of_bound (10 ^ 18) hsummary fun x hx => (hactions x hx).2,
    ranked_map, ranked_map, ranked_map, ranked_map]
  · congr 3
    cases (buildSummarySegment (K := K) R client maxTokens
        (hybridSplit messages actions warmCutoffHours coldCutoffHours).cold).1 <;> rfl
  · exact List.forall_mem_append.mpr
      ⟨fun x hx => hgap₄.trans (hsummary x hx), fun x hx => (hactions x hx).1⟩
  · refine List.forall_mem_append.mpr ⟨List.forall_mem_append.mpr ⟨fun x hx => ?_, fun x hx => ?_⟩,
      fun x hx => (hwarms x hx).1⟩
    · exact (hgap₃.trans hgap₄).trans (hsummary x hx)
    · exact hgap₃.trans (hactions x hx).1

/-! ## The order within the bands -/

/-- A message of the middle range, in terms of the times. -/
def IsMid (messages : List MessageLike) (actions : List ActionLike)
    (warmCutoffHours coldCutoffHours : Int) (msg : MessageLike) : Prop :=
  msg ∈ messages ∧
    (∃ t ∈ candidates messages actions, msg.timestamp < t - timedeltaHours warmCutoffHours) ∧
    ∀ t ∈ candidates messages actions, t - timedeltaHours coldCutoffHours ≤ msg.timestamp

/-- Two messages of the middle range with different scores: the time that one is newer by, scaled, is
less than what the other's score is greater by. -/
def ScoresApart (cosine : String → String → K) (query : String) (messages : List MessageLike)
    (actions : List ActionLike) (warmCutoffHours coldCutoffHours : Int) : Prop :=
  ∀ a b, IsMid messages actions warmCutoffHours coldCutoffHours a →
    IsMid messages actions warmCutoffHours coldCutoffHours b →
    cosine query a.content < cosine query b.content →
    (epochSeconds K a.timestamp - epochSeconds K b.timestamp) * (1 / 10 ^ 12) <
      cosine query b.content - cosine query a.content

theorem mem_hybridSplit_mid {msg : MessageLike} :
    msg ∈ (hybridSplit messages actions warmCutoffHours coldCutoffHours).mid ↔
      IsMid messages actions warmCutoffHours coldCutoffHours msg := by
  cases hmax : (candidates messages actions).max? with
  | none =>
    have hempty := List.max?_eq_none_iff.mp hmax
    simp [candidates] at hempty
    obtain ⟨rfl, rfl⟩ := hempty
    constructor
    · intro h
      cases h
    · rintro ⟨h, -, -⟩
      cases h
  | some reference =>
    rw [hybridSplit_of_reference hmax, mem_mid]
    constructor
    · rintro ⟨hmem, hwarm, hcold⟩
      refine ⟨hmem, ⟨reference, reference_mem hmax, hwarm⟩, fun t ht => ?_⟩
      have hle := reference_ge hmax ht
      omega
    · rintro ⟨hmem, ⟨t, ht, hwarm⟩, hcold⟩
      have hle := reference_ge hmax ht
      exact ⟨hmem, by omega, hcold reference (reference_mem hmax)⟩

omit [IsStrictOrderedRing K] in
theorem hybridMid_priority (msg : MessageLike) :
    (hybridMid R cosine query msg).priority =
      cosine query msg.content + epochSeconds K msg.timestamp * (1 / 10 ^ 12) := rfl

/-- The middle range, newest first before it is ranked. -/
theorem mid_newest_first :
    (hybridSplit messages actions warmCutoffHours coldCutoffHours).mid.Pairwise
      fun a b => b.timestamp ≤ a.timestamp := by
  unfold hybridSplit
  split
  · exact .nil
  · exact ranked_pairwise _ _

/-- The middle range is in the intended order exactly when its scores are apart. -/
theorem mid_ordered_iff :
    (ranked (fun msg => (hybridMid R cosine query msg).priority)
        (hybridSplit messages actions warmCutoffHours coldCutoffHours).mid).Pairwise
        (fun a b => Before cosine query (.mid a) (.mid b)) ↔
      ScoresApart cosine query messages actions warmCutoffHours coldCutoffHours := by
  constructor
  · intro h a b ha hb hlt
    by_contra hclose
    rw [not_lt] at hclose
    -- then `a` is newer, and its priority is not below that of `b`
    have hnewer : b.timestamp < a.timestamp := by
      by_contra hold
      have hle := (epochSeconds_le (K := K)).mpr (not_lt.mp hold)
      have hneg : (epochSeconds K a.timestamp - epochSeconds K b.timestamp) * (1 / 10 ^ 12) ≤ 0 :=
        mul_nonpos_of_nonpos_of_nonneg (by linarith only [hle]) (by positivity)
      linarith only [hneg, hclose, hlt]
    have hpriority : (hybridMid R cosine query b).priority ≤ (hybridMid R cosine query a).priority := by
      rw [hybridMid_priority, hybridMid_priority]
      linarith only [hclose]
    have hpair : [a, b].Sublist (ranked (fun msg => (hybridMid R cosine query msg).priority)
        (hybridSplit messages actions warmCutoffHours coldCutoffHours).mid) := ranked_pair hpriority
      (pair_of_lt mid_newest_first (mem_hybridSplit_mid.mpr ha) (mem_hybridSplit_mid.mpr hb) hnewer)
    have hbefore := List.pairwise_pair.mp (h.sublist hpair)
    rcases hbefore with hgt | ⟨heq, _⟩
    · exact lt_asymm hlt hgt
    · exact absurd heq (ne_of_gt hlt)
  · intro h
    refine (ranked_pairwise _ _).imp_of_mem fun {a b} ha hb hpriority => ?_
    rw [hybridMid_priority, hybridMid_priority] at hpriority
    have ha := mem_hybridSplit_mid.mp (mem_ranked.mp ha)
    have hb := mem_hybridSplit_mid.mp (mem_ranked.mp hb)
    rcases lt_trichotomy (cosine query a.content) (cosine query b.content) with hlt | heq | hgt
    · have hapart := h a b ha hb hlt
      exact absurd hpriority (not_le_of_gt (by linarith only [hapart]))
    · refine .inr ⟨heq.symm, (epochSeconds_le (K := K)).mp ?_⟩
      have hscaled : epochSeconds K b.timestamp * (1 / 10 ^ 12) ≤
          epochSeconds K a.timestamp * (1 / 10 ^ 12) := by linarith only [hpriority, heq]
      exact le_of_mul_le_mul_right hscaled (by positivity)
    · exact .inl hgt

theorem actions_ordered :
    (ranked (fun act => (hybridAction (K := K) R act).priority) actions).Pairwise
      fun a b => b.timestamp ≤ a.timestamp := by
  refine (ranked_pairwise _ _).imp fun {a b} h => (epochSeconds_le (K := K)).mp ?_
  exact le_of_add_le_add_left h

theorem warm_ordered (messages : List MessageLike) :
    (ranked (fun msg => (hybridWarm (K := K) R msg).priority) messages).Pairwise
      fun a b => b.timestamp ≤ a.timestamp := by
  refine (ranked_pairwise _ _).imp fun {a b} h => (epochSeconds_le (K := K)).mp ?_
  exact le_of_add_le_add_left h

omit [Field K] [FloorRing K] [IsStrictOrderedRing K] in
/-- The four bands, one after the other, are in order when each is. -/
theorem before_bands {summary : Option (BriefSegment K)} {acts : List ActionLike}
    {warm mid : List MessageLike} (hacts : acts.Pairwise fun a b => b.timestamp ≤ a.timestamp)
    (hwarm : warm.Pairwise fun a b => b.timestamp ≤ a.timestamp)
    (hmid : mid.Pairwise fun a b => Before cosine query (.mid a) (.mid b)) :
    (summary.toList.map .summary ++ acts.map .action ++ warm.map .warm ++
      mid.map .mid : List (HybridItem K)).Pairwise (Before cosine query) := by
  refine List.pairwise_append.mpr ⟨List.pairwise_append.mpr ⟨List.pairwise_append.mpr
    ⟨?_, ?_, ?_⟩, ?_, ?_⟩, ?_, ?_⟩
  · cases summary with
    | none => exact .nil
    | some seg => exact List.pairwise_singleton _ _
  · exact List.pairwise_map.mpr hacts
  · intro x hx y hy
    obtain ⟨seg, _, rfl⟩ := List.mem_map.mp hx
    obtain ⟨act, _, rfl⟩ := List.mem_map.mp hy
    exact Nat.zero_lt_one
  · exact List.pairwise_map.mpr hwarm
  · intro x hx y hy
    obtain ⟨msg, _, rfl⟩ := List.mem_map.mp hy
    rcases List.mem_append.mp hx with hx | hx <;> obtain ⟨_, _, rfl⟩ := List.mem_map.mp hx
    · exact Nat.zero_lt_two
    · exact Nat.one_lt_two
  · exact List.pairwise_map.mpr hmid
  · intro x hx y hy
    obtain ⟨msg, _, rfl⟩ := List.mem_map.mp hy
    rcases List.mem_append.mp hx with hx | hx
    · rcases List.mem_append.mp hx with hx | hx <;> obtain ⟨_, _, rfl⟩ := List.mem_map.mp hx
      · exact (by decide : 0 < 3)
      · exact (by decide : 1 < 3)
    · obtain ⟨_, _, rfl⟩ := List.mem_map.mp hx
      exact (by decide : 2 < 3)

/-- The returned list is in the intended order exactly when the scores of the middle range are apart. A
call whose cutoffs are in range and whose texts have no lone surrogate returns. -/
theorem hybrid_order_iff (R : Renderer) (cosine : String → String → K) (client : SummaryClient)
    (query : String) (messages : List MessageLike) (actions : List ActionLike)
    {warmCutoffHours coldCutoffHours : Int} (maxTokens : Int) (hlt : warmCutoffHours < coldCutoffHours)
    (hmsg : ∀ msg ∈ messages, InEpoch K msg.timestamp)
    (hact : ∀ act ∈ actions, InEpoch K act.timestamp)
    (hcos : ∀ q text, 0 ≤ cosine q text ∧ cosine q text ≤ 1) :
    (CutoffsFit messages actions warmCutoffHours coldCutoffHours →
      (∀ seg ∈ hybridUnsorted R cosine client query actions maxTokens (hybridSplit messages actions
        warmCutoffHours coldCutoffHours), WellFormed seg.body) →
      ∃ out, hybridSegments R cosine client query messages actions warmCutoffHours coldCutoffHours
        maxTokens = .ok out) ∧
    (∀ out, hybridSegments R cosine client query messages actions warmCutoffHours coldCutoffHours
        maxTokens = .ok out →
      out.segments = (hybridItems R cosine client query messages actions warmCutoffHours
        coldCutoffHours maxTokens).map (HybridItem.segment R cosine query)) ∧
    ((hybridItems R cosine client query messages actions warmCutoffHours coldCutoffHours
        maxTokens).Pairwise (Before cosine query) ↔
      ScoresApart cosine query messages actions warmCutoffHours coldCutoffHours) := by
  refine ⟨fun hfit hwf => ?_, fun out hout =>
    (hybridSegments_ok hlt hout).2.2.trans (hybridItems_segments ..), ?_⟩
  · rw [hybridSegments_fit hlt hfit, constructed, if_pos hwf]
    exact ⟨_, rfl⟩
  rw [hybridItems_bands hmsg hact hcos, ← mid_ordered_iff (R := R)]
  constructor
  · intro h
    exact List.pairwise_map.mp (List.pairwise_append.mp h).2.1
  · intro h
    exact before_bands actions_ordered (warm_ordered _) h

end

/-- The scores of `hybridOrder_fails`: the older message is the better match, by a hundred-thousandth. -/
def closeScores (_query text : String) : ℚ :=
  if text = "rate rate fee" then 99970 / 100000 else 99969 / 100000

theorem closeScores_unit (q text : String) : 0 ≤ closeScores q text ∧ closeScores q text ≤ 1 := by
  unfold closeScores
  split <;> norm_num

theorem inEpoch_zero : InEpoch ℚ 0 := by
  unfold InEpoch epochSeconds
  norm_num

theorem band_inEpoch : (∀ msg ∈ bandHistory, InEpoch ℚ msg.timestamp) ∧
    ∀ act ∈ bandActions, InEpoch ℚ act.timestamp := by
  simp only [bandHistory, bandActions, List.forall_mem_cons, InEpoch, epochSeconds, demoMessage,
    demoAction]
  norm_num

/-- Four days are too short to weigh against a hundred-thousandth. -/
theorem band_scoresApart : ScoresApart closeScores "rate" bandHistory bandActions 24 72 := by
  intro a b ha hb hlt
  have hscores : closeScores "rate" b.content - closeScores "rate" a.content = 1 / 100000 := by
    have hval : ∀ text, closeScores "rate" text = 99970 / 100000 ∨
        closeScores "rate" text = 99969 / 100000 := fun text => ite_eq_or_eq _ _ _
    rcases hval a.content with hscore | hscore <;> rcases hval b.content with hscore' | hscore' <;>
      rw [hscore, hscore'] at hlt ⊢
    · exact absurd hlt (lt_irrefl _)
    · exact absurd hlt (by norm_num)
    · norm_num
    · exact absurd hlt (lt_irrefl _)
  have htimes : ∀ msg ∈ bandHistory, 0 ≤ epochSeconds ℚ msg.timestamp ∧
      epochSeconds ℚ msg.timestamp ≤ 360000 := by
    simp only [bandHistory, List.forall_mem_cons, epochSeconds, demoMessage]
    norm_num
  have hnew := (htimes a ha.1).2
  have hold := (htimes b hb.1).1
  rw [hscores]
  linarith only [hnew, hold]

/-- A history with two messages of the middle range: the older one is the better match. -/
theorem hybrid_order_iff_demo :
    (24 : Int) < 72 ∧ (∃ out, hybridSegments demoRenderer closeScores demoClient "rate" bandHistory
        bandActions 24 72 256 = .ok out ∧
      out.segments = (hybridItems demoRenderer closeScores demoClient "rate" bandHistory bandActions 24
        72 256).map (HybridItem.segment demoRenderer closeScores "rate")) ∧
      ScoresApart closeScores "rate" bandHistory bandActions 24 72 ∧
      (hybridItems demoRenderer closeScores demoClient "rate" bandHistory bandActions 24 72
        256).Pairwise (Before closeScores "rate") := by
  obtain ⟨hreturns, hitems, hiff⟩ := hybrid_order_iff demoRenderer closeScores demoClient "rate"
    bandHistory bandActions 256 (show (24 : Int) < 72 by decide) band_inEpoch.1 band_inEpoch.2
    closeScores_unit
  have hnewest : Newest bandHistory (demoMessage 360000000000 "hello") :=
    ⟨List.mem_cons_self, by decide⟩
  have hwf : ∀ seg ∈ hybridUnsorted demoRenderer closeScores demoClient "rate" bandActions 256
      (hybridSplit bandHistory bandActions 24 72), WellFormed seg.body := by
    rw [split_of_newest band_outruns hnewest]
    exact (showable_iff demoRenderer closeScores demoClient "rate" 256 bandHistory bandActions
      (by decide)).mpr band_showable
  obtain ⟨out, hout⟩ := hreturns band_fit hwf
  exact ⟨by decide, ⟨out, hout, hitems out hout⟩, band_scoresApart, hiff.mpr band_scoresApart⟩

/-- The second message is 200 days older than the first, the third another year. -/
def closeHistory : List MessageLike :=
  [demoMessage 100000000000000 "hello", demoMessage 82720000000000 "rate fee",
    demoMessage 51184000000000 "rate rate fee"]

/-- The newer of two messages of the middle range precedes one with a higher score. -/
theorem hybridOrder_fails :
    ¬ (hybridItems demoRenderer closeScores demoClient "rate" closeHistory [] 24 20000 256).Pairwise
      (Before closeScores "rate") := by
  intro h
  have hin : ∀ msg ∈ closeHistory, InEpoch ℚ msg.timestamp := by
    simp only [closeHistory, List.forall_mem_cons, InEpoch, epochSeconds, demoMessage]
    norm_num
  rw [hybridItems_bands hin (List.forall_mem_nil _) closeScores_unit] at h
  have hne : "rate fee" ≠ "rate rate fee" := by decide
  have hapart := mid_ordered_iff.mp (List.pairwise_map.mp (List.pairwise_append.mp h).2.1)
  have hclose := hapart (demoMessage 82720000000000 "rate fee")
    (demoMessage 51184000000000 "rate rate fee")
    ⟨by simp [closeHistory], ⟨100000000000000, by simp [candidates, closeHistory, demoMessage],
      by decide⟩, by simp [candidates, closeHistory, demoMessage, timedeltaHours]⟩
    ⟨by simp [closeHistory], ⟨100000000000000, by simp [candidates, closeHistory, demoMessage],
      by decide⟩, by simp [candidates, closeHistory, demoMessage, timedeltaHours]⟩
    (by norm_num [closeScores, demoMessage, hne])
  norm_num [closeScores, demoMessage, epochSeconds, hne] at hclose

end PennyCore
