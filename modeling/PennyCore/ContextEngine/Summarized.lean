import Mathlib.Algebra.Field.Basic
import PennyCore.ContextEngine.Segments
import PennyCore.Lib.Ranked

/-!
# Summarized retrieval

`src/context_engine/retrieval/summarized.py`: the newest messages verbatim, the rest as one summary.

* The client of the language model is a parameter, with an arbitrary `summarize`. What it is called
  with is part of the result.
* Priorities are numbers of an ordered field `K`.
-/

namespace PennyCore

open Lib

/-- The language model's client, as far as retrieval uses it. -/
structure SummaryClient where
  name : String
  model : String
  summarize : String → Int → String

/-- A call of `summarize`: the text and `max_tokens`. -/
abbrev SummaryCall : Type := String × Int

/-- What retrieval returns, and the calls of `summarize` it made. -/
structure Retrieval (K : Type) where
  segments : List (BriefSegment K)
  calls : List SummaryCall

/-- `timestamp.timestamp()`. -/
def epochSeconds (K : Type) [Field K] (t : Int) : K := (t : K) / 10 ^ 6

/-- `_flatten_for_summary`. -/
def flattenForSummary (R : Renderer) (messages : List MessageLike) : String :=
  "\n".intercalate (messages.map (messageLine R))

section

variable {K : Type} [Field K]

def PRIORITY_SUMMARY : K := 10 ^ 18

def PRIORITY_ACTION_BAND : K := 10 ^ 12

/-- The summary's text, and its segment. -/
def summarySegment (client : SummaryClient) (text : String) (count : Nat)
    (metadata : List (String × MetaValue K)) : BriefSegment K where
  source := .summary
  body := "[summary] " ++ text
  tokenEstimate := estimateTokens ("[summary] " ++ text)
  priority := PRIORITY_SUMMARY
  metadata := metadataOf ([("n_messages_summarized", .int count), ("llm_provider", .str client.name),
    ("llm_model", .str client.model)] ++ metadata)
  body_min := by
    have hlabel : "[summary] ".length = 10 := by decide
    rw [String.length_append, hlabel]
    omega

/-- The summary of the cold messages, if there are any and the summary is not empty. -/
def summaryWith (metadata : List (String × MetaValue K)) (R : Renderer) (client : SummaryClient)
    (maxTokens : Int) (cold : List MessageLike) : Option (BriefSegment K) × List SummaryCall :=
  if cold.isEmpty then (none, [])
  else
    let rawBlock := flattenForSummary R cold
    let summaryText := client.summarize rawBlock maxTokens
    (if summaryText = "" then none
      else some (summarySegment client summaryText cold.length metadata), [(rawBlock, maxTokens)])

/-- `_summary_for_window`. -/
def summaryForWindow (R : Renderer) (client : SummaryClient) (maxTokens : Int)
    (cold : List MessageLike) : Option (BriefSegment K) × List SummaryCall :=
  summaryWith [] R client maxTokens cold

variable [LinearOrder K]

def summarizedSegments (R : Renderer) (client : SummaryClient) (messages : List MessageLike)
    (actions : List ActionLike) (recentWindow summaryMaxTokens : Int) :
    Except RetrievalError (Retrieval K) :=
  if messages.isEmpty ∧ actions.isEmpty then .ok ⟨[], []⟩
  else do
    let sorted := ranked MessageLike.timestamp messages
    let warm := sliceTo recentWindow sorted
    let cold := sliceFrom recentWindow sorted
    let summary := summaryForWindow R client summaryMaxTokens cold
    let actionSegments := actions.map fun act =>
      actionSegment R (PRIORITY_ACTION_BAND + epochSeconds K act.timestamp)
        [("action_type", .str act.actionType)] act
    let warmSegments := warm.map fun msg =>
      messageSegment R .recentMessage (epochSeconds K msg.timestamp)
        [("channel", .str msg.channel), ("sender", .str msg.sender)] msg
    let segments ← constructed (summary.1.toList ++ actionSegments ++ warmSegments)
    return ⟨ranked BriefSegment.priority segments, summary.2⟩

end

end PennyCore
