import Mathlib.Algebra.Field.Rat
import Mathlib.Algebra.Order.Field.Basic
import Mathlib.Algebra.Order.Ring.Rat
import Mathlib.Data.List.Induction
import Mathlib.Tactic.Linarith
import Mathlib.Tactic.NormNum
import Mathlib.Tactic.Positivity
import PennyCore.ContextEngine.BriefAssembly
import PennyCore.ContextEngine.Summarized

/-!
# Recency retrieval

`recency_segments` of `src/context_engine/retrieval/recency.py`, and the memory system of
`src/takehome/context-engine/memory_system.py`, which packs its segments under a budget.

* `recencyItems` is the returned list with the origin of each segment. An action ranks as if it were
  one second newer, and before the messages of that time.
* `recencyItems_split`: the list, cut at a time.
* `assembleContext_run`: the context of a borrower, after any ingestions and records.
* `older_items_yield`: what is shown of the newer items does not depend on the older ones.
-/

namespace PennyCore

open Lib

section

variable (K : Type) [Field K]

/-- The segment of a prior action, with the `+1.0`. -/
def recencyAction (R : Renderer) (act : ActionLike) : BriefSegment K :=
  actionSegment R (epochSeconds K act.timestamp + 1) [("action_type", .str act.actionType)] act

def recencyMessage (R : Renderer) (msg : MessageLike) : BriefSegment K :=
  messageSegment R .recentMessage (epochSeconds K msg.timestamp)
    [("channel", .str msg.channel), ("sender", .str msg.sender)] msg

variable [LinearOrder K]

def recencySegments (R : Renderer) (messages : List MessageLike) (actions : List ActionLike) :
    List (BriefSegment K) :=
  ranked BriefSegment.priority
    (actions.map (recencyAction K R) ++ messages.map (recencyMessage K R))

end

/-! ## The order -/

/-- An item of a borrower's history. -/
inductive RecencyItem where
  | action (act : ActionLike)
  | message (msg : MessageLike)

namespace RecencyItem

def segment (K : Type) [Field K] (R : Renderer) : RecencyItem → BriefSegment K
  | .action act => recencyAction K R act
  | .message msg => recencyMessage K R msg

/-- The line of the brief. -/
def line (R : Renderer) : RecencyItem → String
  | .action act => formatActionSegment R act
  | .message msg => formatMessageSegment R msg

/-- The priority, in microseconds. -/
def rank : RecencyItem → Int
  | .action act => act.timestamp + 1000000
  | .message msg => msg.timestamp

/-- The item ranks before the messages of the time `c`. -/
def Ahead (c : Int) : RecencyItem → Prop
  | .action act => c ≤ act.timestamp + 1000000
  | .message msg => c < msg.timestamp

instance (c : Int) : DecidablePred (Ahead c)
  | .action act => inferInstanceAs (Decidable (c ≤ act.timestamp + 1000000))
  | .message msg => inferInstanceAs (Decidable (c < msg.timestamp))

end RecencyItem

/-- The items of a history, the actions first. -/
def recencyHistory (messages : List MessageLike) (actions : List ActionLike) : List RecencyItem :=
  actions.map .action ++ messages.map .message

/-- The items in the order in which `recency_segments` returns their segments. -/
def recencyItems (messages : List MessageLike) (actions : List ActionLike) : List RecencyItem :=
  ranked RecencyItem.rank (recencyHistory messages actions)

/-- The returned segments are those of the items. -/
theorem recencySegments_items (K : Type) [Field K] [LinearOrder K] [IsStrictOrderedRing K]
    (R : Renderer) (messages : List MessageLike) (actions : List ActionLike) :
    recencySegments K R messages actions =
      (recencyItems messages actions).map (RecencyItem.segment K R) := by
  have hpriority : ∀ x : RecencyItem, (x.segment K R).priority = (x.rank : K) / 10 ^ 6 := by
    intro x
    cases x with
    | action act =>
      have hsum : epochSeconds K act.timestamp + 1 = ((act.timestamp + 1000000 : Int) : K) / 10 ^ 6 := by
        rw [epochSeconds, Int.cast_add, add_div]
        norm_num
      exact hsum
    | message msg => rfl
  have horder : ∀ x y : RecencyItem, y.rank ≤ x.rank ↔
      (y.segment K R).priority ≤ (x.segment K R).priority := by
    intro x y
    rw [hpriority, hpriority, div_le_div_iff_of_pos_right (by positivity), Int.cast_le]
  have hmap : actions.map (recencyAction K R) ++ messages.map (recencyMessage K R) =
      (recencyHistory messages actions).map (RecencyItem.segment K R) := by
    rw [recencyHistory, List.map_append, List.map_map, List.map_map]
    rfl
  rw [recencySegments, hmap]
  exact (List.map_insertionSort _ _ _ _ fun x _ y _ => horder x y).symm

/-- The list is cut at any time: first the items ahead of it, ranked, and then the others. -/
theorem recencyItems_split (c : Int) (messages : List MessageLike) (actions : List ActionLike) :
    recencyItems messages actions =
      ranked RecencyItem.rank ((recencyHistory messages actions).filter (RecencyItem.Ahead c)) ++
        ranked RecencyItem.rank ((recencyHistory messages actions).filter (¬ RecencyItem.Ahead c ·)) := by
  refine ranked_split (List.pairwise_append.mpr ⟨?_, ?_, ?_⟩)
  · refine List.pairwise_map.mpr (List.pairwise_of_forall fun a a' => ?_)
    simp only [RecencyItem.Ahead, RecencyItem.rank]
    omega
  · refine List.pairwise_map.mpr (List.pairwise_of_forall fun m m' => ?_)
    simp only [RecencyItem.Ahead, RecencyItem.rank]
    omega
  · intro x hx y hy
    obtain ⟨a, -, rfl⟩ := List.mem_map.mp hx
    obtain ⟨m, -, rfl⟩ := List.mem_map.mp hy
    simp only [RecencyItem.Ahead, RecencyItem.rank]
    omega

/-- What is ahead of a time stands before what is not. -/
theorem recencyItems_order (messages : List MessageLike) (actions : List ActionLike) :
    (recencyItems messages actions).Pairwise fun x y => ∀ c, y.Ahead c → x.Ahead c := by
  rw [List.pairwise_iff_forall_sublist]
  intro x y hxy c hy
  by_contra hx
  rw [recencyItems_split c] at hxy
  -- `y` is in the first part, and `x` is not
  have hfront : ∀ z ∈ ranked RecencyItem.rank ((recencyHistory messages actions).filter
      (RecencyItem.Ahead c)), z.Ahead c := fun z hz =>
    of_decide_eq_true (List.mem_filter.mp (mem_ranked.mp hz)).2
  have hback : ∀ z ∈ ranked RecencyItem.rank ((recencyHistory messages actions).filter
      (¬ RecencyItem.Ahead c ·)), ¬ z.Ahead c := fun z hz =>
    of_decide_eq_true (List.mem_filter.mp (mem_ranked.mp hz)).2
  obtain ⟨l₁, l₂, hsplit, h₁, h₂⟩ := List.sublist_append_iff.mp hxy
  cases l₁ with
  | nil =>
    rw [List.nil_append] at hsplit
    exact hback y (h₂.subset (by simp [← hsplit])) hy
  | cons z l₁ =>
    obtain ⟨rfl, -⟩ := List.cons_eq_cons.mp hsplit
    exact hx (hfront x (h₁.subset List.mem_cons_self))

/-! ## The memory system -/

/-- A message of a borrower. -/
structure BorrowerMessage extends MessageLike where
  borrowerId : String

/-- `PennyCoreMemorySystem`. -/
structure MemorySystem where
  messages : Dict String (List MessageLike) := ∅
  actions : Dict String (List ActionLike) := ∅

namespace MemorySystem

def ingestMessage (s : MemorySystem) (message : BorrowerMessage) : MemorySystem :=
  { s with messages := s.messages.push message.borrowerId message.toMessageLike }

def recordAction (s : MemorySystem) (borrowerId : String) (action : ActionLike) : MemorySystem :=
  { s with actions := s.actions.push borrowerId action }

def getActions (s : MemorySystem) (borrowerId : String) : List ActionLike :=
  s.actions.getList borrowerId

def assembleContext (K : Type) [Field K] [LinearOrder K] (R : Renderer) (s : MemorySystem)
    (borrowerId : String) (tokenBudget : Int) : Except ValueError String :=
  let messages := s.messages.getList borrowerId
  let actions := s.actions.getList borrowerId
  packSegments (recencySegments K R messages actions) tokenBudget (some ("Borrower: " ++ borrowerId))

end MemorySystem

inductive MemoryOp where
  | ingest (message : BorrowerMessage)
  | record (borrowerId : String) (action : ActionLike)

def MemorySystem.step (s : MemorySystem) : MemoryOp → MemorySystem
  | .ingest message => s.ingestMessage message
  | .record borrowerId action => s.recordAction borrowerId action

def MemorySystem.run (ops : List MemoryOp) : MemorySystem := ops.foldl MemorySystem.step {}

/-- The messages that were ingested for a borrower. -/
def messagesOf (borrowerId : String) (ops : List MemoryOp) : List MessageLike :=
  ops.filterMap fun
    | .ingest message => if message.borrowerId = borrowerId then some message.toMessageLike else none
    | .record _ _ => none

/-- The actions that were recorded for a borrower. -/
def actionsOf (borrowerId : String) (ops : List MemoryOp) : List ActionLike :=
  ops.filterMap fun
    | .ingest _ => none
    | .record b action => if b = borrowerId then some action else none

theorem MemorySystem.run_own (borrowerId : String) (ops : List MemoryOp) :
    (MemorySystem.run ops).messages.getList borrowerId = messagesOf borrowerId ops ∧
      (MemorySystem.run ops).actions.getList borrowerId = actionsOf borrowerId ops := by
  unfold run
  induction ops using List.reverseRecOn with
  | nil => exact ⟨rfl, rfl⟩
  | append_singleton ops op ih =>
    rw [List.foldl_append, List.foldl_cons, List.foldl_nil, messagesOf, actionsOf,
      List.filterMap_append, List.filterMap_append]
    cases op with
    | ingest message =>
      by_cases hb : message.borrowerId = borrowerId
      · simp [step, ingestMessage, Dict.getList_push, hb, ih, messagesOf, actionsOf]
      · simp [step, ingestMessage, Dict.getList_push, hb, Ne.symm hb, ih, messagesOf, actionsOf]
    | record b action =>
      by_cases hb : b = borrowerId
      · simp [step, recordAction, Dict.getList_push, hb, ih, messagesOf, actionsOf]
      · simp [step, recordAction, Dict.getList_push, hb, Ne.symm hb, ih, messagesOf, actionsOf]

/-! ## The context -/

section

variable (R : Renderer)

/-- What the line of an item is charged. -/
def RecencyItem.lineCost (x : RecencyItem) : Nat := partCost (x.line R)

/-- The lines that are kept of the items. -/
def keptLines (room : Nat) (items : List RecencyItem) : List String :=
  (greedy (RecencyItem.lineCost R) room items).map (RecencyItem.line R)

variable (K : Type) [Field K] [LinearOrder K] [IsStrictOrderedRing K]

theorem pack_recency (messages : List MessageLike) (actions : List ActionLike)
    (header : Option String) {budget : Nat} (hpos : 0 < budget) :
    ∃ brief, packSegments (recencySegments K R messages actions) budget header = .ok brief ∧
      estimateTokens brief ≤ budget ∧
      brief = "\n".intercalate ((keptHeader budget header).toList ++
        keptLines R (segmentRoom budget header) (recencyItems messages actions)) := by
  have hbody : ∀ x : RecencyItem, (x.segment K R).body = x.line R := by
    intro x
    cases x <;> rfl
  have hestimated : Estimated (recencySegments K R messages actions) := by
    rw [recencySegments_items]
    intro seg hseg
    obtain ⟨x, -, rfl⟩ := List.mem_map.mp hseg
    cases x <;> rfl
  have hcost : (fun x : RecencyItem => (x.segment K R).cost) = RecencyItem.lineCost R := by
    funext x
    cases x <;> rfl
  have hkept : (keptSegments (recencySegments K R messages actions) budget header).map
      BriefSegment.body = keptLines R (segmentRoom budget header) (recencyItems messages actions) := by
    rw [keptSegments, recencySegments_items, greedy_map, List.map_map, hcost]
    exact List.map_congr_left fun x _ => hbody x
  have hfits := hestimated.fits budget header
  refine ⟨_, if_neg (by omega), ?_, ?_⟩
  · rw [trim_fits (by exact_mod_cast hfits)]
    exact hfits
  · rw [trim_fits (by exact_mod_cast hfits), pack_eq, hkept]

/-- After any ingestions and records, of any borrowers: the context of a borrower is what the greedy
selection keeps of its own messages and actions, in the order of recency, and it stays within the
budget. -/
theorem assembleContext_run (ops : List MemoryOp) (borrowerId : String) {budget : Nat}
    (hpos : 0 < budget) :
    ∃ items : List RecencyItem,
      items.Perm (recencyHistory (messagesOf borrowerId ops) (actionsOf borrowerId ops)) ∧
      (items.Pairwise fun x y => ∀ c, y.Ahead c → x.Ahead c) ∧
      ∃ brief, (MemorySystem.run ops).assembleContext K R borrowerId budget = .ok brief ∧
        estimateTokens brief ≤ budget ∧
        brief = "\n".intercalate ((keptHeader budget (some ("Borrower: " ++ borrowerId))).toList ++
          keptLines R (segmentRoom budget (some ("Borrower: " ++ borrowerId))) items) := by
  obtain ⟨hmessages, hactions⟩ := MemorySystem.run_own borrowerId ops
  refine ⟨_, ranked_perm _ _, recencyItems_order _ _, ?_⟩
  rw [MemorySystem.assembleContext, hmessages, hactions]
  exact pack_recency R K _ _ _ hpos

def checklistSent : ActionLike := ⟨"send_checklist", ∅, 1000⟩

def borrowerReply : MessageLike := ⟨"email", "borrower", "Did you get it?", 900000, ∅⟩

theorem assembleContext_run_demo :
    ∃ items : List RecencyItem, items.Perm [.action checklistSent, .message borrowerReply] ∧
      (items.Pairwise fun x y => ∀ c, y.Ahead c → x.Ahead c) ∧
      ∃ brief, (MemorySystem.run [.ingest ⟨borrowerReply, "b1"⟩, .record "b2" checklistSent,
          .record "b1" checklistSent]).assembleContext ℚ ⟨fun _ => "", fun _ => "", fun _ => ""⟩ "b1"
            (60 : Nat) = .ok brief ∧
        estimateTokens brief ≤ 60 ∧
        brief = "\n".intercalate ((keptHeader 60 (some "Borrower: b1")).toList ++
          keptLines ⟨fun _ => "", fun _ => "", fun _ => ""⟩ (segmentRoom 60 (some "Borrower: b1"))
            items) :=
  assembleContext_run _ ℚ [.ingest ⟨borrowerReply, "b1"⟩, .record "b2" checklistSent,
    .record "b1" checklistSent] "b1" (by decide : 0 < 60)

theorem keptLines_append (room : Nat) (xs ys : List RecencyItem) :
    ∃ left, keptLines R room (xs ++ ys) = keptLines R room xs ++ keptLines R left ys := by
  refine ⟨room - total (RecencyItem.lineCost R) (greedy (RecencyItem.lineCost R) room xs), ?_⟩
  rw [keptLines, greedy_append, List.map_append]
  rfl

theorem filter_recencyHistory (c : Int) (messages : List MessageLike) (actions : List ActionLike) :
    (recencyHistory messages actions).filter (RecencyItem.Ahead c) =
      recencyHistory (messages.filter fun m => c < m.timestamp)
        (actions.filter fun a => c ≤ a.timestamp + 1000000) := by
  rw [recencyHistory, List.filter_append, List.filter_map, List.filter_map]
  rfl

/-- What a borrower's context shows of the messages after the time `c`, and of the actions from one
second before it on, is the same in any two runs that agree on these: no message or action that is
older takes their place, however many there are. -/
theorem older_items_yield (ops ops' : List MemoryOp) (borrowerId : String) (c : Int)
    (hmessages : (messagesOf borrowerId ops).filter (fun m => c < m.timestamp) =
      (messagesOf borrowerId ops').filter fun m => c < m.timestamp)
    (hactions : (actionsOf borrowerId ops).filter (fun a => c ≤ a.timestamp + 1000000) =
      (actionsOf borrowerId ops').filter fun a => c ≤ a.timestamp + 1000000)
    {budget : Nat} (hpos : 0 < budget) :
    let header := some ("Borrower: " ++ borrowerId)
    let shown := (keptHeader budget header).toList ++
      keptLines R (segmentRoom budget header)
        (recencyItems ((messagesOf borrowerId ops).filter fun m => c < m.timestamp)
          ((actionsOf borrowerId ops).filter fun a => c ≤ a.timestamp + 1000000))
    ∃ rest rest', (MemorySystem.run ops).assembleContext K R borrowerId budget =
        .ok ("\n".intercalate (shown ++ rest)) ∧
      (MemorySystem.run ops').assembleContext K R borrowerId budget =
        .ok ("\n".intercalate (shown ++ rest')) := by
  intro header shown
  -- a context is cut where the list is cut
  have hcut : ∀ messages actions, ∃ rest,
      packSegments (recencySegments K R messages actions) budget header = .ok ("\n".intercalate
        ((keptHeader budget header).toList ++ keptLines R (segmentRoom budget header)
          (recencyItems (messages.filter fun m => c < m.timestamp)
            (actions.filter fun a => c ≤ a.timestamp + 1000000)) ++ rest)) := by
    intro messages actions
    obtain ⟨_, hpack, -, rfl⟩ := pack_recency R K messages actions header hpos
    rw [recencyItems_split c, filter_recencyHistory] at hpack
    obtain ⟨left, hleft⟩ := keptLines_append R (segmentRoom budget header)
      (ranked RecencyItem.rank (recencyHistory (messages.filter fun m => c < m.timestamp)
        (actions.filter fun a => c ≤ a.timestamp + 1000000)))
      (ranked RecencyItem.rank ((recencyHistory messages actions).filter (¬ RecencyItem.Ahead c ·)))
    rw [hleft, ← List.append_assoc] at hpack
    exact ⟨_, hpack⟩
  obtain ⟨rest, hrest⟩ := hcut (messagesOf borrowerId ops) (actionsOf borrowerId ops)
  obtain ⟨rest', hrest'⟩ := hcut (messagesOf borrowerId ops') (actionsOf borrowerId ops')
  rw [← hmessages, ← hactions] at hrest'
  refine ⟨rest, rest', ?_, ?_⟩
  · rw [MemorySystem.assembleContext, (MemorySystem.run_own borrowerId ops).1,
      (MemorySystem.run_own borrowerId ops).2]
    exact hrest
  · rw [MemorySystem.assembleContext, (MemorySystem.run_own borrowerId ops').1,
      (MemorySystem.run_own borrowerId ops').2]
    exact hrest'

/-- A message that comes within the second after an action. -/
theorem older_items_yield_message :
    let R : Renderer := ⟨fun _ => "", fun _ => "", fun _ => ""⟩
    let header := some "Borrower: b1"
    let shown := (keptHeader 60 header).toList ++
      keptLines R (segmentRoom 60 header) (recencyItems [] [checklistSent])
    ∃ rest rest', (MemorySystem.run [.record "b1" checklistSent]).assembleContext ℚ R "b1" (60 : Nat) =
        .ok ("\n".intercalate (shown ++ rest)) ∧
      (MemorySystem.run [.ingest ⟨borrowerReply, "b1"⟩, .record "b1" checklistSent]).assembleContext ℚ R
        "b1" (60 : Nat) = .ok ("\n".intercalate (shown ++ rest')) :=
  older_items_yield ⟨fun _ => "", fun _ => "", fun _ => ""⟩ ℚ [.record "b1" checklistSent]
    [.ingest ⟨borrowerReply, "b1"⟩, .record "b1" checklistSent] "b1" 1001000 rfl rfl (by decide : 0 < 60)

end

end PennyCore
