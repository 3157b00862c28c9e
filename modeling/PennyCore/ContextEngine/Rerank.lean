import Mathlib.Analysis.SpecialFunctions.Pow.Real
import PennyCore.ContextEngine.HybridOrder
import PennyCore.ContextEngine.Semantic
import PennyCore.Lib.Py

/-!
# The order of reranked segments

The bodies are those of semantic retrieval, and the tail keeps its order behind the head
(`Reranked`). The head has new scores and the tail keeps the old priorities, so the whole list is
sorted exactly when every item of the head is young enough for the first item of the tail
(`HeadYoung`, `rerank_sorted_iff`).
-/

namespace PennyCore

open Lib

section

variable {K : Type} [Field K] [LinearOrder K] [FloorRing K]

/-- A message or an action of a history. -/
inductive HistoryItem where
  | message (msg : MessageLike)
  | action (act : ActionLike)

namespace HistoryItem

def timestamp : HistoryItem → Int
  | .message msg => msg.timestamp
  | .action act => act.timestamp

/-- What is rendered. -/
def body (R : Renderer) : HistoryItem → String
  | .message msg => formatMessageSegment R msg
  | .action act => formatActionSegment R act

/-- What is scored. -/
def text (R : Renderer) : HistoryItem → String
  | .message msg => msg.content
  | .action act => actionText R act

def segment (rt : RetrievalRuntime K) (query : String) : HistoryItem → BriefSegment K
  | .message msg => semanticMessage rt query msg
  | .action act => semanticAction rt query act

/-- The similarity to the query. -/
def score (rt : RetrievalRuntime K) (query : String) (item : HistoryItem) : K :=
  rt.cosine query (item.text rt.renderer)

/-- What semantic retrieval ranks by. -/
def semanticPriority (rt : RetrievalRuntime K) (query : String) (item : HistoryItem) : K :=
  scorePriority (item.score rt query) item.timestamp

/-- What the head is ranked by. -/
def rerankScore (rt : RetrievalRuntime K) (query : String) (refNow : Int) (item : HistoryItem) : K :=
  pairwiseScore rt (round6 (item.score rt query)) query (item.body rt.renderer) item.timestamp refNow

/-- The age in units of 30 days. -/
def age (refNow : Int) (item : HistoryItem) : K :=
  recencyAge item.timestamp refNow

/-- By how much `next` is ahead of an item that is reranked, apart from the item's age: by the cosine
and the time of `next`, less the cosine of the item and what its body shares with the query. -/
def lead (rt : RetrievalRuntime K) (query : String) (item next : HistoryItem) : K :=
  scorePriority (rt.cosine query (next.text rt.renderer)) next.timestamp -
    (round6 (rt.cosine query (item.text rt.renderer)) + sharedScore rt query (item.body rt.renderer))

end HistoryItem

/-- The items of a history in the order of semantic retrieval. -/
def semanticItems (rt : RetrievalRuntime K) (query : String) (messages : List MessageLike)
    (actions : List ActionLike) : List HistoryItem :=
  ranked (HistoryItem.semanticPriority rt query)
    (messages.map HistoryItem.message ++ actions.map HistoryItem.action)

variable {rt : RetrievalRuntime K} {query : String} {messages : List MessageLike}
  {actions : List ActionLike} {topK : Nat} {refNow : Int}

theorem segment_priority (rt : RetrievalRuntime K) (query : String) (item : HistoryItem) :
    (item.segment rt query).priority = item.semanticPriority rt query := by
  cases item <;> rfl

theorem segment_body (rt : RetrievalRuntime K) (query : String) (item : HistoryItem) :
    (item.segment rt query).body = item.body rt.renderer := by
  cases item <;> rfl

/-- The segments of semantic retrieval are those of its items. -/
theorem semanticSegments_items :
    semanticSegments rt query messages actions =
      (semanticItems rt query messages actions).map (HistoryItem.segment rt query) := by
  have hkey : HistoryItem.semanticPriority rt query =
      fun item => (HistoryItem.segment rt query item).priority :=
    funext fun item => (segment_priority rt query item).symm
  rw [semanticItems, hkey, ← ranked_map, List.map_append, List.map_map, List.map_map]
  rfl

omit [FloorRing K] in
theorem segTimestamp_of_metadata {rt : RetrievalRuntime K} {metadata : Dict String (MetaValue K)}
    {s : String} {t refNow : Int} (hget : metadata.get? "timestamp" = some (.str s))
    (hiso : rt.fromisoformat s = .ok t) : segTimestampFromMetadata rt metadata refNow = t := by
  unfold segTimestampFromMetadata
  rw [hget]
  simp only [hiso]

/-- The two things that are read back from the metadata. -/
theorem segment_metadata (rt : RetrievalRuntime K) (query : String) (refNow : Int)
    (item : HistoryItem) :
    similarityCarry rt (item.segment rt query).metadata = .ok (round6 (item.score rt query)) ∧
      segTimestampFromMetadata rt (item.segment rt query).metadata refNow = item.timestamp := by
  cases item with
  | message msg =>
    exact ⟨rfl, segTimestamp_of_metadata rfl (rt.fromisoformat_isoformat msg.timestamp)⟩
  | action act =>
    exact ⟨rfl, segTimestamp_of_metadata rfl (rt.fromisoformat_isoformat act.timestamp)⟩

/-- A segment of the head. -/
def HistoryItem.rescored (rt : RetrievalRuntime K) (query : String) (refNow : Int)
    (item : HistoryItem) : BriefSegment K :=
  { item.segment rt query with
    priority := item.rerankScore rt query refNow
    metadata := ((item.segment rt query).metadata.set "rerank_score"
      (.float (round6 (item.rerankScore rt query refNow)))).set "rerank_stage" (.str "head") }

theorem rescore_segment (item : HistoryItem) :
    rescore rt query refNow (item.segment rt query) = .ok (item.rescored rt query refNow) := by
  obtain ⟨hcarry, htime⟩ := segment_metadata rt query refNow item
  unfold rescore HistoryItem.rescored HistoryItem.rerankScore
  rw [hcarry, htime, ← segment_body rt query]
  rfl

/-- What is returned: the head with its new scores, then the tail. -/
theorem rerankSegments_eq (now : Option Int) (clock : Int) (hquery : strip query ≠ "") :
    rerankSegments rt query messages actions topK now clock =
      .ok (ranked BriefSegment.priority (((semanticItems rt query messages actions).take topK).map
          (HistoryItem.rescored rt query (now.getD clock))) ++
        ((semanticItems rt query messages actions).drop topK).map
          fun item => annotateTail (item.segment rt query)) := by
  unfold rerankSegments
  simp only
  rw [semanticSegments_items]
  split
  · rename_i h
    rcases h with h | h
    · have hnil : semanticItems rt query messages actions = [] := by simpa using h
      rw [hnil, List.take_nil, List.drop_nil]
      rfl
    · exact absurd h hquery
  · have hloop : (((semanticItems rt query messages actions).take topK).map
        (HistoryItem.segment rt query)).mapM (rescore rt query (now.getD clock)) =
        .ok (((semanticItems rt query messages actions).take topK).map
          (HistoryItem.rescored rt query (now.getD clock))) := by
      rw [List.mapM_map]
      exact mapM_ok fun item _ => rescore_segment item
    rw [sliceTo_min, sliceFrom_min, ← List.map_take, hloop, ← List.map_drop, List.map_map]
    rfl

/-- What reranking leaves as it is in a segment of the tail. -/
def BriefSegment.carried (seg : BriefSegment K) : SegmentSource × String × Nat × K :=
  (seg.source, seg.body, seg.tokenEstimate, seg.priority)

/-- `out` is the result `semantic` of the first stage with its first `topK` segments reranked: the same
bodies, the head before the tail, and the tail as it was. -/
structure Reranked (semantic out : List (BriefSegment K)) (topK : Nat) : Prop where
  bodies : (out.map BriefSegment.body).Perm (semantic.map BriefSegment.body)
  head : ((out.take topK).map BriefSegment.body).Perm ((semantic.take topK).map BriefSegment.body)
  tail : (out.drop topK).map BriefSegment.carried = (semantic.drop topK).map BriefSegment.carried

/-- The items that are reranked are young enough: what 0.5 to the power of the age is worth makes up for
the lead of the item that comes after them. -/
def HeadYoung (rt : RetrievalRuntime K) (query : String) (messages : List MessageLike)
    (actions : List ActionLike) (topK : Nat) (refNow : Int) : Prop :=
  ∀ next ∈ (semanticItems rt query messages actions)[topK]?,
    ∀ item ∈ (semanticItems rt query messages actions).take topK,
      item.lead rt query next ≤ 2 / 10 * rt.halfPower.pow (item.age refNow)

/-- No new score of the head is below a priority of the tail. -/
def HeadAboveTail (rt : RetrievalRuntime K) (query : String) (messages : List MessageLike)
    (actions : List ActionLike) (topK : Nat) (refNow : Int) : Prop :=
  ∀ x ∈ (semanticItems rt query messages actions).take topK,
    ∀ y ∈ (semanticItems rt query messages actions).drop topK,
      y.semanticPriority rt query ≤ x.rerankScore rt query refNow

theorem lead_le_iff [IsStrictOrderedRing K] {item next : HistoryItem} :
    item.lead rt query next ≤ 2 / 10 * rt.halfPower.pow (item.age refNow) ↔
      next.semanticPriority rt query ≤ item.rerankScore rt query refNow := by
  unfold HistoryItem.lead HistoryItem.age HistoryItem.semanticPriority HistoryItem.rerankScore
    HistoryItem.score pairwiseScore recencyScore recencyAge sharedScore
  simp only [one_mul]
  rw [sub_le_iff_le_add, add_comm (2 / 10 * _), ← add_assoc (round6 _)]

/-- Of the tail the first item has the highest priority. -/
theorem headYoung_iff [IsStrictOrderedRing K] : HeadYoung rt query messages actions topK refNow ↔
    HeadAboveTail rt query messages actions topK refNow := by
  have hsorted := (ranked_pairwise (HistoryItem.semanticPriority rt query)
    (messages.map HistoryItem.message ++ actions.map HistoryItem.action)).sublist
      (List.drop_sublist topK _)
  unfold HeadYoung HeadAboveTail
  change ((semanticItems rt query messages actions).drop topK).Pairwise _ at hsorted
  rw [← List.head?_drop]
  cases htail : (semanticItems rt query messages actions).drop topK with
  | nil => exact iff_of_true (fun _ h => nomatch h) fun _ _ _ h => nomatch h
  | cons next tail =>
    rw [htail, List.pairwise_cons] at hsorted
    constructor
    · intro h x hx y hy
      have hnext := lead_le_iff.mp (h next rfl x hx)
      rcases List.mem_cons.mp hy with rfl | hy
      · exact hnext
      · exact (hsorted.1 y hy).trans hnext
    · intro h y hy x hx
      cases hy
      exact lead_le_iff.mpr (h x hx next List.mem_cons_self)

omit [Field K] [LinearOrder K] [FloorRing K] in
theorem Reranked.refl (semantic : List (BriefSegment K)) (topK : Nat) :
    Reranked semantic semantic topK := ⟨.refl _, .refl _, rfl⟩

/-- A head that is a permutation of the rescored items, and the annotated rest. -/
theorem Reranked.of_head {items : List HistoryItem} {head : List (BriefSegment K)}
    (hhead : head.Perm ((items.take topK).map (HistoryItem.rescored rt query refNow))) :
    Reranked (items.map (HistoryItem.segment rt query))
      (head ++ (items.drop topK).map fun item => annotateTail (item.segment rt query)) topK := by
  have hbody : (head.map BriefSegment.body).Perm
      ((items.take topK).map fun item => (item.segment rt query).body) := by
    have hmap := hhead.map BriefSegment.body
    rwa [List.map_map] at hmap
  have hlength : head.length = (items.take topK).length := by
    rw [hhead.length_eq, List.length_map]
  have hcut : (items.take topK).length < topK → items.drop topK = [] := fun hlt =>
    List.drop_eq_nil_of_le (by rw [List.length_take] at hlt; omega)
  have htake : (head ++ (items.drop topK).map fun item => annotateTail (item.segment rt query)).take
      topK = head := by
    by_cases hlt : (items.take topK).length < topK
    · rw [hcut hlt, List.map_nil, List.append_nil, List.take_of_length_le (by omega)]
    · have hk : head.length = topK := by rw [hlength, List.length_take] at *; omega
      rw [List.take_left' hk]
  have hdrop : (head ++ (items.drop topK).map fun item => annotateTail (item.segment rt query)).drop
      topK = (items.drop topK).map fun item => annotateTail (item.segment rt query) := by
    by_cases hlt : (items.take topK).length < topK
    · rw [hcut hlt, List.map_nil, List.append_nil, List.drop_eq_nil_of_le (by omega)]
    · have hk : head.length = topK := by rw [hlength, List.length_take] at *; omega
      rw [List.drop_left' hk]
  refine ⟨?_, ?_, ?_⟩
  · have hsplit : items.map (HistoryItem.segment rt query) =
        (items.take topK).map (HistoryItem.segment rt query) ++
          (items.drop topK).map (HistoryItem.segment rt query) := by
      rw [← List.map_append, List.take_append_drop]
    rw [hsplit, List.map_append, List.map_append, List.map_map, List.map_map, List.map_map]
    exact hbody.append (.refl _)
  · rw [htake, ← List.map_take, List.map_map]
    exact hbody
  · rw [hdrop, ← List.map_drop, List.map_map, List.map_map]
    rfl

/-- The list is sorted exactly when the head is above the tail. -/
theorem sorted_iff_headAboveTail :
    (ranked BriefSegment.priority (((semanticItems rt query messages actions).take topK).map
        (HistoryItem.rescored rt query refNow)) ++
      ((semanticItems rt query messages actions).drop topK).map
        fun item => annotateTail (item.segment rt query)).Pairwise
      (fun a b => b.priority ≤ a.priority) ↔
    HeadAboveTail rt query messages actions topK refNow := by
  rw [List.pairwise_append]
  constructor
  · intro h x hx y hy
    have hle := h.2.2 _ (mem_ranked.mpr (List.mem_map_of_mem hx)) _ (List.mem_map_of_mem hy)
    rw [← segment_priority rt query]
    exact hle
  · intro h
    refine ⟨ranked_pairwise _ _, ?_, ?_⟩
    · have htail := (ranked_pairwise (HistoryItem.semanticPriority rt query)
        (messages.map HistoryItem.message ++ actions.map HistoryItem.action)).sublist
          (List.drop_sublist topK _)
      refine List.pairwise_map.mpr (htail.imp fun {a b} hab => ?_)
      rw [← segment_priority rt query, ← segment_priority rt query] at hab
      exact hab
    · intro a ha b hb
      obtain ⟨x, hx, rfl⟩ := List.mem_map.mp (mem_ranked.mp ha)
      obtain ⟨y, hy, rfl⟩ := List.mem_map.mp hb
      have hle := h x hx y hy
      rw [← segment_priority rt query] at hle
      exact hle

/-- A blank query leaves the semantic result as it is. -/
theorem rerankSegments_blank (now : Option Int) (clock : Int) (hquery : strip query = "") :
    rerankSegments rt query messages actions topK now clock =
      .ok (semanticSegments rt query messages actions) := by
  unfold rerankSegments
  exact if_pos (.inr hquery)

/-- Reranking permutes the bodies and keeps the tail; the whole list is sorted exactly when the query
is blank or the head is young enough. -/
theorem rerank_sorted_iff [IsStrictOrderedRing K] (rt : RetrievalRuntime K) (query : String)
    (messages : List MessageLike) (actions : List ActionLike) (topK : Nat) (now : Option Int)
    (clock : Int) :
    ∃ out, rerankSegments rt query messages actions topK now clock = .ok out ∧
      Reranked (semanticSegments rt query messages actions) out topK ∧
      (out.Pairwise (fun a b => b.priority ≤ a.priority) ↔
        strip query = "" ∨ HeadYoung rt query messages actions topK (now.getD clock)) := by
  by_cases hquery : strip query = ""
  · refine ⟨_, rerankSegments_blank now clock hquery, Reranked.refl _ _, ?_⟩
    exact iff_of_true (ranked_pairwise _ _) (.inl hquery)
  · refine ⟨_, rerankSegments_eq now clock hquery, ?_, ?_⟩
    · rw [semanticSegments_items]
      exact Reranked.of_head (ranked_perm _ _)
    · rw [sorted_iff_headAboveTail, headYoung_iff]
      exact ⟨.inr, fun h => h.resolve_left hquery⟩

end

/-- `0.5 ** x` over the reals. -/
noncomputable def halfPowerReal : HalfPower ℝ where
  pow x := (1 / 2 : ℝ) ^ x
  anti x y h := Real.rpow_lt_rpow_of_exponent_gt (by norm_num) (by norm_num) h
  unit x h := ⟨Real.rpow_pos_of_pos (by norm_num) x,
    Real.rpow_le_one (by norm_num) (by norm_num) h⟩
  half x := by
    rw [Real.rpow_add (by norm_num), Real.rpow_one]
    ring

noncomputable def demoRetrieval : RetrievalRuntime ℝ where
  renderer := demoRenderer
  caseData := .ascii
  cosine _ _ := 0
  halfPower := halfPowerReal
  parseFloat s := .error ⟨s⟩
  isoformat t := toString t
  fromisoformat s := match readInt s with
    | some t => .ok t
    | none => .error ⟨s⟩
  fromisoformat_isoformat t := by rw [readInt_toString]

theorem jaccard_disjoint {α : Type} [DecidableEq α] {a b : Finset α} (h : a ∩ b = ∅) :
    (jaccard a b : ℝ) = 0 := by
  unfold jaccard
  rw [h, Finset.card_empty, Nat.cast_zero, zero_div, ite_self]

theorem round6_zero : round6 (0 : ℝ) = 0 := by
  simp [round6, roundHalfEven]

/-- Two messages of which neither has a word of the query. -/
def offTopic : List MessageLike :=
  [demoMessage 1780000000000000 "hello", demoMessage 1779990000000000 "thanks"]

theorem offTopic_items :
    semanticItems demoRetrieval "mortgage rate" offTopic [] =
      [.message (demoMessage 1780000000000000 "hello"),
        .message (demoMessage 1779990000000000 "thanks")] := by
  refine List.Pairwise.insertionSort_eq (List.pairwise_pair.mpr ?_)
  change (0 : ℝ) + epochSeconds ℝ 1779990000000000 * (1 / 10 ^ 12) ≤
    0 + epochSeconds ℝ 1780000000000000 * (1 / 10 ^ 12)
  unfold epochSeconds
  norm_num

/-- The newest shares no word with the query. -/
theorem offTopic_shares :
    (jaccard (bigrams (tokens .ascii "mortgage rate")) (bigrams (tokens .ascii
      (formatMessageSegment demoRenderer (demoMessage 1780000000000000 "hello")))) : ℝ) = 0 ∧
    (jaccard (tokens .ascii "mortgage rate").toFinset (tokens .ascii
      (formatMessageSegment demoRenderer (demoMessage 1780000000000000 "hello"))).toFinset : ℝ) = 0 :=
  ⟨jaccard_disjoint (by decide), jaccard_disjoint (by decide)⟩

/-- What counts of the two messages besides their times. -/
theorem offTopic_lead :
    HistoryItem.lead demoRetrieval "mortgage rate" (.message (demoMessage 1780000000000000 "hello"))
      (.message (demoMessage 1779990000000000 "thanks")) = 1779990000 / 10 ^ 12 := by
  change (0 : ℝ) + epochSeconds ℝ 1779990000000000 * (1 / 10 ^ 12) -
    (round6 (0 : ℝ) + (7 / 10 * jaccard (bigrams (tokens .ascii "mortgage rate"))
      (bigrams (tokens .ascii (formatMessageSegment demoRenderer (demoMessage 1780000000000000 "hello")))) +
    4 / 10 * jaccard (tokens .ascii "mortgage rate").toFinset
      (tokens .ascii (formatMessageSegment demoRenderer (demoMessage 1780000000000000 "hello"))).toFinset)) = _
  rw [offTopic_shares.1, offTopic_shares.2, round6_zero]
  unfold epochSeconds
  norm_num

/-- When the newest message arrives, the list is sorted. -/
theorem rerank_sorted_fresh :
    ∃ out, rerankSegments demoRetrieval "mortgage rate" offTopic [] ((1 : Nat) : Int)
        (some 1780000000000000) 0 = .ok out ∧
      Reranked (semanticSegments demoRetrieval "mortgage rate" offTopic []) out 1 ∧
      out.Pairwise fun a b => b.priority ≤ a.priority := by
  obtain ⟨out, hout, hreranked, hiff⟩ := rerank_sorted_iff demoRetrieval "mortgage rate" offTopic [] 1
    (some 1780000000000000) 0
  refine ⟨out, hout, hreranked, hiff.mpr (.inr ?_)⟩
  unfold HeadYoung
  rw [offTopic_items]
  rintro next ⟨⟩ item hitem
  cases List.mem_singleton.mp hitem
  rw [offTopic_lead]
  change _ ≤ 2 / 10 *
    (1 / 2 : ℝ) ^ (max 0 (epochSeconds ℝ (1780000000000000 - 1780000000000000) / 86400) / 30)
  unfold epochSeconds
  norm_num

/-- After 300 days the head has a fifth of `0.5 ** 10`. -/
theorem offTopic_score :
    HistoryItem.rerankScore demoRetrieval "mortgage rate" 1805920000000000
      (.message (demoMessage 1780000000000000 "hello")) = 2 / 10 * (1 / 2) ^ 10 := by
  have hage : max 0 (epochSeconds ℝ (1805920000000000 - 1780000000000000) / 86400) / 30 =
      ((10 : ℕ) : ℝ) := by
    unfold epochSeconds
    norm_num
  have hrecency : recencyScore halfPowerReal 1780000000000000 1805920000000000 = (1 / 2 : ℝ) ^ 10 := by
    change (1 / 2 : ℝ) ^ (max 0 (epochSeconds ℝ (1805920000000000 - 1780000000000000) / 86400) / 30) = _
    rw [hage, Real.rpow_natCast]
  change 1 * round6 (0 : ℝ) + 7 / 10 * jaccard (bigrams (tokens .ascii "mortgage rate"))
      (bigrams (tokens .ascii (formatMessageSegment demoRenderer (demoMessage 1780000000000000 "hello")))) +
    4 / 10 * jaccard (tokens .ascii "mortgage rate").toFinset
      (tokens .ascii (formatMessageSegment demoRenderer (demoMessage 1780000000000000 "hello"))).toFinset +
    2 / 10 * recencyScore halfPowerReal 1780000000000000 1805920000000000 = _
  rw [offTopic_shares.1, offTopic_shares.2, round6_zero, hrecency]
  ring

/-- 300 days after the newest message, its rerank score is below the priority that the older one keeps. -/
theorem rerank_unsorted :
    ¬ ∃ out, rerankSegments demoRetrieval "mortgage rate" offTopic [] 1 (some 1805920000000000) 0 =
        .ok out ∧
      out.Pairwise fun a b => b.priority ≤ a.priority := by
  rintro ⟨out, hout, hsorted⟩
  have hrun : rerankSegments demoRetrieval "mortgage rate" offTopic [] ((1 : Nat) : Int)
      (some 1805920000000000) 0 = .ok _ := rerankSegments_eq _ _ (by decide)
  rw [Nat.cast_one, hout] at hrun
  cases hrun
  have habove := sorted_iff_headAboveTail.mp hsorted
  unfold HeadAboveTail at habove
  rw [offTopic_items] at habove
  have hle := habove _ List.mem_cons_self _ List.mem_cons_self
  rw [Option.getD_some, offTopic_score] at hle
  change (0 : ℝ) + epochSeconds ℝ 1779990000000000 * (1 / 10 ^ 12) ≤ _ at hle
  unfold epochSeconds at hle
  norm_num at hle

end PennyCore
