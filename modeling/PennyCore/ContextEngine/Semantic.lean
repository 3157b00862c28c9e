import Mathlib.Data.Finset.Card
import PennyCore.ContextEngine.Hybrid
import PennyCore.Lib.Text

/-!
# Semantic retrieval and reranking

`src/context_engine/retrieval/semantic.py` and `rerank.py`: every segment scored against the query, and
the best of them scored again.

* The cosine of two texts, the power `0.5 ** x` and the ISO format of a time are parameters, with the
  laws they have. `float(text)` is one too; no segment that is reranked has a text for a number.
* A reranked segment keeps its body; only its priority and its metadata change.
-/

namespace PennyCore

open Lib

/-- `0.5 ** x`: decreasing, in `(0, 1]` for what is not negative, and halved by each step of one. -/
structure HalfPower (K : Type) [Field K] [LinearOrder K] where
  pow : K → K
  anti : ∀ x y, x < y → pow y < pow x
  unit : ∀ x, 0 ≤ x → 0 < pow x ∧ pow x ≤ 1
  half : ∀ x, pow (x + 1) = pow x / 2

/-- What the strategies call. -/
structure RetrievalRuntime (K : Type) [Field K] [LinearOrder K] where
  renderer : Renderer
  caseData : CaseData
  cosine : String → String → K
  halfPower : HalfPower K
  parseFloat : String → Except ValueError K
  isoformat : Int → String
  fromisoformat : String → Except ValueError Int
  fromisoformat_isoformat : ∀ t, fromisoformat (isoformat t) = .ok t

section

variable {K : Type} [Field K] [LinearOrder K] [FloorRing K]

/-- `_action_text`. -/
def actionText (R : Renderer) (act : ActionLike) : String :=
  let detailStr := " ".intercalate (act.details.entries.map fun d => d.1 ++ " " ++ R.str d.2)
  strip (act.actionType ++ " " ++ detailStr)

def semanticMessage (rt : RetrievalRuntime K) (query : String) (msg : MessageLike) : BriefSegment K :=
  let score := rt.cosine query msg.content
  messageSegment rt.renderer .semanticMatch (scorePriority score msg.timestamp)
    [("channel", .str msg.channel), ("sender", .str msg.sender), ("similarity", .float (round6 score)),
      ("timestamp", .str (rt.isoformat msg.timestamp))] msg

def semanticAction (rt : RetrievalRuntime K) (query : String) (act : ActionLike) : BriefSegment K :=
  let score := rt.cosine query (actionText rt.renderer act)
  actionSegment rt.renderer (scorePriority score act.timestamp)
    [("action_type", .str act.actionType), ("similarity", .float (round6 score)),
      ("timestamp", .str (rt.isoformat act.timestamp))] act

def semanticSegments (rt : RetrievalRuntime K) (query : String) (messages : List MessageLike)
    (actions : List ActionLike) : List (BriefSegment K) :=
  ranked BriefSegment.priority
    (messages.map (semanticMessage rt query) ++ actions.map (semanticAction rt query))

/-! ## Reranking -/

def MIN_TOKEN_LEN : Nat := 2

/-- The class `[a-z0-9]`. -/
def isTokenChar (c : Char) : Bool := ('a' ≤ c && c ≤ 'z') || ('0' ≤ c && c ≤ '9')

/-- `_tokens`: the maximal runs of `[a-z0-9]` that are not too short. -/
def tokens (D : CaseData) (text : String) : List String :=
  (((D.lower text).toList.splitOnP fun c => !isTokenChar c).filter
    fun t => MIN_TOKEN_LEN ≤ t.length).map String.ofList

/-- `_bigrams`. -/
def bigrams (ts : List String) : Finset (String × String) := (ts.zip ts.tail).toFinset

/-- `_jaccard`. -/
def jaccard {α : Type} [DecidableEq α] (a b : Finset α) : K :=
  if a ∪ b = ∅ then 0 else ((a ∩ b).card : K) / ((a ∪ b).card : K)

/-- `_recency_score`. -/
def recencyScore (P : HalfPower K) (segTimestamp now : Int) : K :=
  let ageSeconds := epochSeconds K (now - segTimestamp)
  let ageDays := max 0 (ageSeconds / 86400)
  P.pow (ageDays / 30)

/-- `_pairwise_score`, with the weights `_RERANK_WEIGHTS`. -/
def pairwiseScore (rt : RetrievalRuntime K) (cosineCarry : K) (query segText : String)
    (segTimestamp now : Int) : K :=
  let queryTokens := tokens rt.caseData query
  let segTokens := tokens rt.caseData segText
  1 * cosineCarry + 7 / 10 * jaccard (bigrams queryTokens) (bigrams segTokens) +
    4 / 10 * jaccard queryTokens.toFinset segTokens.toFinset +
    2 / 10 * recencyScore rt.halfPower segTimestamp now

/-- The age that the recency score is the power of, in units of 30 days. -/
def recencyAge (segTimestamp now : Int) : K :=
  max 0 (epochSeconds K (now - segTimestamp) / 86400) / 30

/-- What a text gets in `_pairwise_score` for the words it shares with the query. -/
def sharedScore (rt : RetrievalRuntime K) (query segText : String) : K :=
  let queryTokens := tokens rt.caseData query
  let segTokens := tokens rt.caseData segText
  7 / 10 * jaccard (bigrams queryTokens) (bigrams segTokens) +
    4 / 10 * jaccard queryTokens.toFinset segTokens.toFinset

/-- `float(metadata.get("similarity", 0.0))`. -/
def similarityCarry (rt : RetrievalRuntime K) (metadata : Dict String (MetaValue K)) :
    Except ValueError K :=
  match metadata.get? "similarity" with
  | none => .ok 0
  | some (.float x) => .ok x
  | some (.int n) => .ok (n : K)
  | some (.str s) => rt.parseFloat s

/-- `_seg_timestamp_from_metadata`. -/
def segTimestampFromMetadata (rt : RetrievalRuntime K) (metadata : Dict String (MetaValue K))
    (fallback : Int) : Int :=
  match metadata.get? "timestamp" with
  | some (.str s) => match rt.fromisoformat s with
    | .ok t => t
    | .error _ => fallback
  | _ => fallback

/-- One round of the loop over the head. -/
def rescore (rt : RetrievalRuntime K) (query : String) (refNow : Int) (seg : BriefSegment K) :
    Except ValueError (BriefSegment K) := do
  let cosineCarry ← similarityCarry rt seg.metadata
  let segTs := segTimestampFromMetadata rt seg.metadata refNow
  let newScore := pairwiseScore rt cosineCarry query seg.body segTs refNow
  return { seg with
    priority := newScore
    metadata := (seg.metadata.set "rerank_score" (.float (round6 newScore))).set "rerank_stage"
      (.str "head") }

/-- A segment of the tail. -/
def annotateTail (seg : BriefSegment K) : BriefSegment K :=
  { seg with metadata := seg.metadata.set "rerank_stage" (.str "tail") }

/-- `clock` is what `datetime.now()` reads. -/
def rerankSegments (rt : RetrievalRuntime K) (query : String) (messages : List MessageLike)
    (actions : List ActionLike) (topK : Int) (now : Option Int) (clock : Int) :
    Except ValueError (List (BriefSegment K)) :=
  let semanticOut := semanticSegments rt query messages actions
  if semanticOut.isEmpty ∨ strip query = "" then .ok semanticOut
  else do
    let effectiveK := min topK semanticOut.length
    let refNow := now.getD clock
    let rescored ← (sliceTo effectiveK semanticOut).mapM (rescore rt query refNow)
    return ranked BriefSegment.priority rescored ++
      (sliceFrom effectiveK semanticOut).map annotateTail

end

end PennyCore
