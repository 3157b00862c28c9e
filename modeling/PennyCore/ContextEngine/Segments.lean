import PennyCore.Contracts.Briefs

/-!
# Segments of a history

`src/context_engine/retrieval/recency.py`: the messages and actions that retrieval reads, and the
texts that it renders them as.

* A `datetime` is an integer: the microseconds since the epoch, which is its resolution. The times of
  one history are all naive, or all aware and in UTC. `InYears` are the times that a `datetime` has.
* The rendering of times and of values of type `Any` is the parameter `Renderer`.
-/

namespace PennyCore

structure MessageLike where
  channel : String
  sender : String
  content : String
  timestamp : Int
  metadata : Payload

structure ActionLike where
  actionType : String
  details : Payload
  timestamp : Int

/-- A time of the years 1 to 9999. -/
abbrev InYears (t : Int) : Prop := -62135596800000000 ≤ t ∧ t ≤ 253402300799999999

/-- What retrieval raises: a bad argument, a `datetime` out of range, or a field that is refused. -/
inductive RetrievalError where
  | value (e : ValueError)
  | overflow
  | validation (e : ValidationError)
  deriving DecidableEq, Repr

/-- `strftime("%Y-%m-%d %H:%M")`, `str` and `repr`. -/
structure Renderer where
  strftime : Int → String
  str : PyVal → String
  repr : PyVal → String

/-- `estimate_tokens`. -/
def estimateTokens (text : String) : Nat := text.length / 4

/-- `[<channel>] <YYYY-MM-DD HH:MM> <sender>: <content>`. -/
def messageLine (R : Renderer) (msg : MessageLike) : String :=
  "[" ++ msg.channel ++ "] " ++ R.strftime msg.timestamp ++ " " ++ msg.sender ++ ": " ++ msg.content

/-- The parts of a message's line that come from its metadata. -/
def messageExtras (R : Renderer) (metadata : Payload) : List String :=
  ((metadata.get? "subject").map fun v => "subject=" ++ R.repr v).toList ++
    ((metadata.get? "attachments").map fun
      | .list atts => "attachments=[" ++ ", ".intercalate (atts.map R.str) ++ "]"
      | atts => "attachments=" ++ R.repr atts).toList

def formatMessageSegment (R : Renderer) (msg : MessageLike) : String :=
  let extras := messageExtras R msg.metadata
  if extras.isEmpty then messageLine R msg
  else messageLine R msg ++ (" (" ++ "; ".intercalate extras ++ ")")

/-- `f"{k}={rendered}"`. -/
def detailPart (R : Renderer) (detail : String × PyVal) : String :=
  detail.1 ++ "=" ++ match detail.2 with
    | .list xs => ", ".intercalate (xs.map R.str)
    | v => R.str v

def formatActionSegment (R : Renderer) (act : ActionLike) : String :=
  let line := "[action] " ++ R.strftime act.timestamp ++ " " ++ act.actionType
  if act.details.entries.isEmpty then line
  else line ++ (" (" ++ "; ".intercalate (act.details.entries.map (detailPart R)) ++ ")")

theorem messageLine_min (R : Renderer) (msg : MessageLike) : 1 ≤ (messageLine R msg).length := by
  have hbracket : "[".length = 1 := by decide
  simp only [messageLine, String.length_append, hbracket]
  omega

theorem formatMessageSegment_min (R : Renderer) (msg : MessageLike) :
    1 ≤ (formatMessageSegment R msg).length := by
  have hline := messageLine_min R msg
  unfold formatMessageSegment
  simp only
  split
  · exact hline
  · rw [String.length_append]
    omega

theorem formatActionSegment_min (R : Renderer) (act : ActionLike) :
    1 ≤ (formatActionSegment R act).length := by
  have haction : "[action] ".length = 9 := by decide
  unfold formatActionSegment
  simp only
  split <;> simp only [String.length_append, haction] <;> omega

section

variable {K : Type}

/-- The segment of a message, with the estimate of its text. -/
def messageSegment (R : Renderer) (source : SegmentSource) (priority : K)
    (metadata : List (String × MetaValue K)) (msg : MessageLike) : BriefSegment K where
  source
  body := formatMessageSegment R msg
  tokenEstimate := estimateTokens (formatMessageSegment R msg)
  priority
  metadata := metadataOf metadata
  body_min := formatMessageSegment_min R msg

/-- The segment of a prior action, with the estimate of its text. -/
def actionSegment (R : Renderer) (priority : K) (metadata : List (String × MetaValue K))
    (act : ActionLike) : BriefSegment K where
  source := .priorAction
  body := formatActionSegment R act
  tokenEstimate := estimateTokens (formatActionSegment R act)
  priority
  metadata := metadataOf metadata
  body_min := formatActionSegment_min R act

/-- The constructions of the segments: `BriefSegment` refuses a body with a lone surrogate. -/
def constructed (segments : List (BriefSegment K)) :
    Except RetrievalError (List (BriefSegment K)) :=
  if ∀ seg ∈ segments, WellFormed seg.body then .ok segments
  else .error (.validation ⟨"BriefSegment", "body"⟩)

end

end PennyCore
