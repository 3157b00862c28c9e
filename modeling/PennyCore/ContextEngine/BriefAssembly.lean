import PennyCore.ContextEngine.Segments
import PennyCore.Lib.Greedy

/-!
# The brief assembler

`src/context_engine/brief_assembly.py`, with the estimator of `retrieval/recency.py`.

* `packSegments`: one pass over the segments in the caller's order (`pack`), the newline join, and
  the loop that trims it from the end (`trim`).
* The pass is the greedy selection of `Lib.Greedy` (`pack_eq`), each segment charged its estimate and
  one token for the newline.
* Where the estimates are those of the bodies, four times the charge covers the joined text
  (`length_joined`), so there is nothing to trim (`trim_fits`).
-/

namespace PennyCore

open Lib

variable {K : Type}

/-- `_NEWLINE_TOKEN_COST`. -/
def NEWLINE_TOKEN_COST : Nat := 1

/-- What a segment is charged. -/
def BriefSegment.cost (seg : BriefSegment K) : Nat := seg.tokenEstimate + NEWLINE_TOKEN_COST

/-- One round of the loop over the segments: the parts and the tokens used so far. -/
def packOne (tokenBudget : Int) (st : List String × Nat) (seg : BriefSegment K) : List String × Nat :=
  if ((st.2 + seg.cost : Nat) : Int) > tokenBudget then st else (st.1 ++ [seg.body], st.2 + seg.cost)

/-- The part for the header, and what it costs. -/
def packHeader (tokenBudget : Int) (header : Option String) : List String × Nat :=
  match header with
  | none => ([], 0)
  | some h =>
    let cost := estimateTokens h + NEWLINE_TOKEN_COST
    if h ≠ "" ∧ (cost : Int) ≤ tokenBudget then ([h], cost) else ([], 0)

/-- The parts before the join. -/
def pack (segments : List (BriefSegment K)) (tokenBudget : Int) (header : Option String) :
    List String × Nat :=
  segments.foldl (packOne tokenBudget) (packHeader tokenBudget header)

/-- The trimming loop, over the parts from the last to the first. -/
def trimRev (tokenBudget : Int) : List String → List String
  | [] => []
  | p :: ps =>
    if (estimateTokens ("\n".intercalate (p :: ps).reverse) : Int) > tokenBudget then
      trimRev tokenBudget ps
    else p :: ps

/-- `while estimate_tokens(brief) > token_budget and parts: parts.pop()`. -/
def trim (tokenBudget : Int) (parts : List String) : List String :=
  (trimRev tokenBudget parts.reverse).reverse

def packSegments (segments : List (BriefSegment K)) (tokenBudget : Int) (header : Option String) :
    Except ValueError String :=
  if tokenBudget ≤ 0 then
    .error ⟨"token_budget must be positive, got " ++ toString tokenBudget⟩
  else
    .ok ("\n".intercalate (trim tokenBudget (pack segments tokenBudget header).1))

/-! ## The trimming loop -/

theorem trimRev_fits {budget : Int} (h : 0 ≤ budget) (ps : List String) :
    (estimateTokens ("\n".intercalate (trimRev budget ps).reverse) : Int) ≤ budget := by
  induction ps with
  | nil => simpa [trimRev, estimateTokens] using h
  | cons p ps ih =>
    rw [trimRev]
    split
    · exact ih
    · exact Int.not_lt.mp ‹_›

/-- The loop ends within the budget, whatever the estimates were. -/
theorem trim_estimate {budget : Int} (h : 0 ≤ budget) (parts : List String) :
    (estimateTokens ("\n".intercalate (trim budget parts)) : Int) ≤ budget :=
  trimRev_fits h parts.reverse

/-- A text within the budget is not trimmed. -/
theorem trim_fits {budget : Int} {parts : List String}
    (h : (estimateTokens ("\n".intercalate parts) : Int) ≤ budget) : trim budget parts = parts := by
  rw [trim]
  cases hrev : parts.reverse with
  | nil =>
    rw [List.reverse_eq_nil_iff.mp hrev]
    rfl
  | cons p ps =>
    have hparts : (p :: ps).reverse = parts := by rw [← hrev, List.reverse_reverse]
    rw [trimRev, hparts, if_neg (Int.not_lt.mpr h), hparts]

/-! ## The pass over the segments -/

/-- The header that is kept. -/
def keptHeader (budget : Nat) (header : Option String) : Option String :=
  header.filter fun h => h ≠ "" ∧ estimateTokens h + NEWLINE_TOKEN_COST ≤ budget

/-- The room that the header leaves for the segments. -/
def segmentRoom (budget : Nat) (header : Option String) : Nat :=
  budget - ((keptHeader budget header).map fun h => estimateTokens h + NEWLINE_TOKEN_COST).getD 0

/-- The segments that are kept. -/
def keptSegments (segments : List (BriefSegment K)) (budget : Nat) (header : Option String) :
    List (BriefSegment K) :=
  greedy BriefSegment.cost (segmentRoom budget header) segments

theorem packHeader_eq (budget : Nat) (header : Option String) :
    (packHeader budget header).1 = (keptHeader budget header).toList ∧
      (packHeader budget header).2 + segmentRoom budget header = budget := by
  cases header with
  | none => simp [packHeader, keptHeader, segmentRoom]
  | some h =>
    by_cases hfit : h ≠ "" ∧ estimateTokens h + NEWLINE_TOKEN_COST ≤ budget
    · have hkept : keptHeader budget (some h) = some h := by simp [keptHeader, hfit]
      have hpack : packHeader budget (some h) = ([h], estimateTokens h + NEWLINE_TOKEN_COST) :=
        if_pos (by exact_mod_cast hfit)
      rw [segmentRoom, hkept, hpack]
      have hle := hfit.2
      exact ⟨rfl, by simp only [Option.map_some, Option.getD_some]; omega⟩
    · have hkept : keptHeader budget (some h) = none := by simpa [keptHeader] using hfit
      have hpack : packHeader budget (some h) = ([], 0) := if_neg (by exact_mod_cast hfit)
      rw [segmentRoom, hkept, hpack]
      exact ⟨rfl, by simp⟩

/-- The loop takes what the greedy selection takes from the room that is left. -/
theorem foldl_packOne (budget : Nat) (segments : List (BriefSegment K)) (parts : List String)
    {used room : Nat} (h : used + room = budget) :
    segments.foldl (packOne budget) (parts, used) =
      (parts ++ (greedy BriefSegment.cost room segments).map BriefSegment.body,
        used + total BriefSegment.cost (greedy BriefSegment.cost room segments)) := by
  induction segments generalizing parts used room with
  | nil => simp
  | cons seg segments ih =>
    rw [List.foldl_cons]
    by_cases hfit : seg.cost ≤ room
    · have hone : packOne budget (parts, used) seg = (parts ++ [seg.body], used + seg.cost) :=
        if_neg (by rw [Int.not_lt]; exact_mod_cast (by omega : used + seg.cost ≤ budget))
      have hrest : used + seg.cost + (room - seg.cost) = budget := by omega
      rw [hone, ih _ hrest, greedy_take segments hfit, total_cons, List.map_cons, List.append_assoc,
        List.singleton_append, Nat.add_assoc]
    · have hone : packOne budget (parts, used) seg = (parts, used) :=
        if_pos (by exact_mod_cast (by omega : budget < used + seg.cost))
      rw [hone, ih _ h, greedy_skip segments hfit]

/-- The pass: the header, then the greedy selection; the charge is that of what was kept. -/
theorem pack_eq (segments : List (BriefSegment K)) (budget : Nat) (header : Option String) :
    (pack segments budget header).1 =
      (keptHeader budget header).toList ++ (keptSegments segments budget header).map BriefSegment.body := by
  obtain ⟨hparts, hroom⟩ := packHeader_eq budget header
  have hfold := foldl_packOne budget segments (packHeader budget header).1 hroom
  unfold pack
  rw [show packHeader budget header = ((packHeader budget header).1, (packHeader budget header).2)
    from rfl, hfold, hparts]
  rfl

/-! ## The charge and the joined text -/

/-- What a part is charged, where the estimate is that of the text. -/
def partCost (part : String) : Nat := estimateTokens part + NEWLINE_TOKEN_COST

/-- A part and its newline are no longer than four times the charge. -/
theorem length_part (part : String) : part.length + 1 ≤ 4 * partCost part := by
  unfold partCost estimateTokens NEWLINE_TOKEN_COST
  omega

theorem length_joined (parts : List String) :
    ("\n".intercalate parts).length ≤ 4 * total partCost parts := by
  induction parts with
  | nil => simp
  | cons p ps ih =>
    have hp := length_part p
    rw [total_cons]
    by_cases hps : ps = []
    · subst hps
      rw [String.intercalate_singleton, total_nil]
      omega
    · have hnl : "\n".length = 1 := by decide
      rw [String.intercalate_cons_of_ne_nil hps, String.length_append, String.length_append, hnl]
      omega

theorem estimateTokens_joined {parts : List String} {budget : Nat} (h : total partCost parts ≤ budget) :
    estimateTokens ("\n".intercalate parts) ≤ budget := by
  have hlen := length_joined parts
  unfold estimateTokens
  omega

/-- The estimates of the segments are those of their bodies. -/
def Estimated (segments : List (BriefSegment K)) : Prop :=
  ∀ seg ∈ segments, seg.tokenEstimate = estimateTokens seg.body

theorem Estimated.total_bodies {segments : List (BriefSegment K)} (h : Estimated segments) :
    total partCost (segments.map BriefSegment.body) = total BriefSegment.cost segments := by
  induction segments with
  | nil => rfl
  | cons seg segments ih =>
    have hseg : partCost seg.body = seg.cost := by
      rw [partCost, BriefSegment.cost, h seg List.mem_cons_self]
    rw [List.map_cons, total_cons, total_cons, hseg,
      ih fun x hx => h x (List.mem_cons_of_mem _ hx)]

theorem Estimated.kept {segments : List (BriefSegment K)} (h : Estimated segments) (budget : Nat)
    (header : Option String) : Estimated (keptSegments segments budget header) :=
  fun seg hseg => h seg ((greedy_sublist _ _).subset hseg)

/-- With honest estimates, what the pass keeps fits the budget before any trimming. -/
theorem Estimated.fits {segments : List (BriefSegment K)} (h : Estimated segments) (budget : Nat)
    (header : Option String) :
    estimateTokens ("\n".intercalate (pack segments budget header).1) ≤ budget := by
  apply estimateTokens_joined
  have hkept : total BriefSegment.cost (keptSegments segments budget header) ≤
      segmentRoom budget header := total_greedy_le _ _
  have hheader : total partCost (keptHeader budget header).toList + segmentRoom budget header =
      budget := by
    obtain ⟨hparts, hroom⟩ := packHeader_eq budget header
    have hcost : total partCost (packHeader budget header).1 = (packHeader budget header).2 := by
      cases header with
      | none => rfl
      | some text => simp only [packHeader]; split <;> simp [partCost]
    rw [← hparts, hcost, hroom]
  rw [pack_eq, total_append, (h.kept budget header).total_bodies]
  omega

/-! ## The guarantee -/

/-- The brief stays within its budget. With honest estimates nothing is trimmed: the brief is the
join of the header, if it fits, and the greedy selection, and no segment that was passed over fits
into what is left at the end. -/
theorem packSegments_greedy (segments : List (BriefSegment K)) (budget : Nat) (header : Option String)
    (hpos : 0 < budget) :
    ∃ brief, packSegments segments budget header = .ok brief ∧ estimateTokens brief ≤ budget ∧
      (Estimated segments →
        trim budget (pack segments budget header).1 = (pack segments budget header).1 ∧
        brief = "\n".intercalate ((keptHeader budget header).toList ++
          (keptSegments segments budget header).map BriefSegment.body) ∧
        ∀ before seg after, segments = before ++ seg :: after →
          segmentRoom budget header - total BriefSegment.cost (keptSegments before budget header) <
            seg.cost →
          segmentRoom budget header - total BriefSegment.cost (keptSegments segments budget header) <
            seg.cost) := by
  have hnot : ¬ ((budget : Int) ≤ 0) := by omega
  refine ⟨_, if_neg hnot, ?_, ?_⟩
  · have htrim := trim_estimate (Int.natCast_nonneg budget) (pack segments budget header).1
    exact_mod_cast htrim
  intro hest
  have htrim : trim budget (pack segments budget header).1 = (pack segments budget header).1 :=
    trim_fits (by exact_mod_cast hest.fits budget header)
  refine ⟨htrim, by rw [htrim, pack_eq], ?_⟩
  intro before seg after heq hskip
  subst heq
  exact greedy_maximal hskip

def demoSegment (body : String) (h : 1 ≤ body.length) : BriefSegment Nat :=
  ⟨.recentMessage, body, estimateTokens body, 0, metadataOf [], h⟩

/-- The second of the segments does not fit into the budget. -/
def demoSegments : List (BriefSegment Nat) :=
  [demoSegment "rate locked" (by decide), demoSegment "please call me about the fees" (by decide),
    demoSegment "ok" (by decide)]

/-- A brief that passes over the second segment, and nothing is trimmed. -/
theorem packSegments_greedy_demo :
    0 < 6 ∧ Estimated demoSegments ∧ packSegments demoSegments (6 : Nat) (some "H") =
        .ok "H\nrate locked\nok" ∧
      ∀ before seg after, demoSegments = before ++ seg :: after →
        segmentRoom 6 (some "H") - total BriefSegment.cost (keptSegments before 6 (some "H")) <
          seg.cost →
        segmentRoom 6 (some "H") - total BriefSegment.cost (keptSegments demoSegments 6 (some "H")) <
          seg.cost := by
  have hest : Estimated demoSegments := by
    simp [Estimated, demoSegments, demoSegment]
  obtain ⟨brief, hok, -, hgreedy⟩ := packSegments_greedy demoSegments 6 (some "H") (by decide)
  obtain ⟨-, hbrief, hskipped⟩ := hgreedy hest
  refine ⟨by decide, hest, ?_, hskipped⟩
  rw [hok, hbrief]
  rfl

end PennyCore
