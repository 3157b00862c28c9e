import PennyCore.Contracts.Value

/-!
# The contracts of briefs

`src/contracts/briefs.py`: the segments that retrieval emits and the assembler packs. A priority is a
float in the source; here it is a number of an ordered field, so that sums and products are exact.
-/

namespace PennyCore

open Lib

/-- Where in the customer's history a segment was taken from. -/
inductive SegmentSource where
  | recentMessage
  | semanticMatch
  | summary
  | priorAction
  deriving DecidableEq, Repr

/-- A value of a segment's metadata. -/
inductive MetaValue (K : Type) where
  | str (s : String)
  | int (n : Int)
  | float (x : K)
  deriving DecidableEq

/-- The metadata with the given items. -/
def metadataOf {K : Type} (items : List (String × MetaValue K)) : Dict String (MetaValue K) :=
  items.foldl (fun d p => d.set p.1 p.2) ∅

/-- One chunk of brief content. The contract refuses an empty body and a negative estimate. -/
structure BriefSegment (K : Type) where
  source : SegmentSource
  body : String
  tokenEstimate : Nat
  priority : K
  metadata : Dict String (MetaValue K)
  body_min : 1 ≤ body.length

end PennyCore
