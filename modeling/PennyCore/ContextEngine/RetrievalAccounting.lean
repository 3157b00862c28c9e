import Mathlib.Data.Rat.Floor
import PennyCore.ContextEngine.Hybrid

/-!
# Nothing is lost in retrieval

Hybrid and summarized retrieval account for each message once: it is shown by a segment of its own or
it is a line of the one text that is summarized. `Accounted` states it with permutations, so that
messages that are equal are still counted one by one. A call returns nothing at all when a text that it
would show has a lone surrogate (`Accounts`) or when a cutoff is out of range (`retrieval_accounts`).
-/

namespace PennyCore

open Lib

/-- What a segment is a rendering of. -/
inductive SegmentKind where
  | summary | action | message
  deriving DecidableEq, Repr

def SegmentSource.kind : SegmentSource → SegmentKind
  | .summary => .summary
  | .priorAction => .action
  | .recentMessage => .message
  | .semanticMatch => .message

variable {K : Type}

/-- What a segment shows. -/
def BriefSegment.shown (seg : BriefSegment K) : SegmentKind × String := (seg.source.kind, seg.body)

/-- The bodies of the summaries of the messages `summarized`: one, unless there are no messages or the
summary is empty. -/
def summaryBodies (R : Renderer) (client : SummaryClient) (maxTokens : Int)
    (summarized : List MessageLike) : List String :=
  if summarized = [] ∨ client.summarize (flattenForSummary R summarized) maxTokens = "" then []
  else ["[summary] " ++ client.summarize (flattenForSummary R summarized) maxTokens]

/-- The result accounts for the messages and the actions: the messages `verbatim` have a segment each,
and the messages `summarized` are the lines of the one text that is summarized. -/
structure Accounted (R : Renderer) (client : SummaryClient) (maxTokens : Int)
    (messages : List MessageLike) (actions : List ActionLike) (verbatim summarized : List MessageLike)
    (out : Retrieval K) : Prop where
  once : messages.Perm (verbatim ++ summarized)
  calls : out.calls = if summarized = [] then [] else [(flattenForSummary R summarized, maxTokens)]
  shown : (out.segments.map BriefSegment.shown).Perm
    ((summaryBodies R client maxTokens summarized).map (Prod.mk .summary) ++
      actions.map (fun act => (.action, formatActionSegment R act)) ++
      verbatim.map (fun msg => (.message, formatMessageSegment R msg)))
  summaries : out.segments.countP (fun seg => seg.source = .summary) =
    if summarized = [] ∨ client.summarize (flattenForSummary R summarized) maxTokens = "" then 0 else 1

/-- The bodies of the segments. -/
def shownTexts (R : Renderer) (client : SummaryClient) (maxTokens : Int) (actions : List ActionLike)
    (verbatim summarized : List MessageLike) : List String :=
  summaryBodies R client maxTokens summarized ++ actions.map (formatActionSegment R) ++
    verbatim.map (formatMessageSegment R)

/-- What a call answers: a result that accounts for the messages and the actions, unless one of its
texts has a lone surrogate. -/
def Accounts (R : Renderer) (client : SummaryClient) (maxTokens : Int)
    (messages : List MessageLike) (actions : List ActionLike)
    (r : Except RetrievalError (Retrieval K)) : Prop :=
  ∃ verbatim summarized, messages.Perm (verbatim ++ summarized) ∧
    if ∀ text ∈ shownTexts R client maxTokens actions verbatim summarized, WellFormed text then
      ∃ out, r = .ok out ∧ Accounted R client maxTokens messages actions verbatim summarized out
    else r = .error (.validation ⟨"BriefSegment", "body"⟩)

theorem SegmentSource.kind_summary (source : SegmentSource) :
    source.kind = .summary ↔ source = .summary := by
  cases source <;> decide

/-- The summaries are counted by what is shown. -/
theorem countP_summary {segments : List (BriefSegment K)} {bodies actions messages : List String}
    (h : (segments.map BriefSegment.shown).Perm
      (bodies.map (Prod.mk .summary) ++ actions.map (Prod.mk .action) ++
        messages.map (Prod.mk .message))) :
    segments.countP (fun seg => seg.source = .summary) = bodies.length := by
  have hcount := h.countP_eq fun p => p.1 = .summary
  have hkind : ∀ seg : BriefSegment K,
      (seg.source.kind = .summary) = (seg.source = .summary) := fun seg =>
    propext (SegmentSource.kind_summary seg.source)
  simpa [List.countP_append, List.countP_map, Function.comp_def, BriefSegment.shown, hkind] using hcount

/-- It is enough to account for what is shown: sorting the segments changes nothing. -/
theorem Accounted.of_shown {R : Renderer} {client : SummaryClient} {maxTokens : Int}
    {messages : List MessageLike} {actions : List ActionLike} {verbatim summarized : List MessageLike}
    {segments : List (BriefSegment K)} {out : Retrieval K} (hout : out.segments.Perm segments)
    (honce : messages.Perm (verbatim ++ summarized))
    (hcalls : out.calls = if summarized = [] then [] else [(flattenForSummary R summarized, maxTokens)])
    (hshown : segments.map BriefSegment.shown =
      (summaryBodies R client maxTokens summarized).map (Prod.mk .summary) ++
        actions.map (fun act => (.action, formatActionSegment R act)) ++
        verbatim.map (fun msg => (.message, formatMessageSegment R msg))) :
    Accounted R client maxTokens messages actions verbatim summarized out := by
  have hperm := (hout.map BriefSegment.shown).trans (List.Perm.of_eq hshown)
  refine ⟨honce, hcalls, hperm, ?_⟩
  have hcount : out.segments.countP (fun seg => seg.source = .summary) =
      (summaryBodies R client maxTokens summarized).length := by
    refine countP_summary (?_ : (out.segments.map BriefSegment.shown).Perm
      ((summaryBodies R client maxTokens summarized).map (Prod.mk .summary) ++
        (actions.map (formatActionSegment R)).map (Prod.mk .action) ++
        (verbatim.map (formatMessageSegment R)).map (Prod.mk .message)))
    simpa only [List.map_map, Function.comp_def] using hperm
  rw [hcount, summaryBodies]
  split <;> rfl

/-- It is enough to account for the segments before they are checked and sorted. -/
theorem Accounts.of_shown [LinearOrder K] {R : Renderer} {client : SummaryClient} {maxTokens : Int}
    {messages : List MessageLike} {actions : List ActionLike} (verbatim summarized : List MessageLike)
    {segments : List (BriefSegment K)} {calls : List SummaryCall}
    (honce : messages.Perm (verbatim ++ summarized))
    (hcalls : calls = if summarized = [] then [] else [(flattenForSummary R summarized, maxTokens)])
    (hshown : segments.map BriefSegment.shown =
      (summaryBodies R client maxTokens summarized).map (Prod.mk .summary) ++
        actions.map (fun act => (.action, formatActionSegment R act)) ++
        verbatim.map (fun msg => (.message, formatMessageSegment R msg))) :
    Accounts R client maxTokens messages actions
      ((constructed segments).map fun segments => ⟨ranked BriefSegment.priority segments, calls⟩) := by
  have hbodies : segments.map BriefSegment.body =
      shownTexts R client maxTokens actions verbatim summarized := by
    have hsnd := congrArg (List.map Prod.snd) hshown
    simpa only [shownTexts, List.map_append, List.map_map, Function.comp_def, BriefSegment.shown,
      List.map_id'] using hsnd
  have hchecked : (∀ seg ∈ segments, WellFormed seg.body) ↔
      ∀ text ∈ shownTexts R client maxTokens actions verbatim summarized, WellFormed text := by
    rw [← hbodies]
    simp only [List.mem_map, forall_exists_index, and_imp, forall_apply_eq_imp_iff₂]
  refine ⟨verbatim, summarized, honce, ?_⟩
  unfold constructed
  split
  · rename_i hwf
    rw [if_pos (hchecked.mpr hwf)]
    exact ⟨_, rfl, Accounted.of_shown (ranked_perm _ _) honce hcalls hshown⟩
  · rename_i hno
    rw [if_neg (hchecked.not.mpr hno)]
    rfl

section

variable [Field K]

/-- The summary: its call and what it shows. -/
theorem summaryWith_spec (metadata : List (String × MetaValue K)) (R : Renderer)
    (client : SummaryClient) (maxTokens : Int) (cold : List MessageLike) :
    (summaryWith metadata R client maxTokens cold).2 =
        (if cold = [] then [] else [(flattenForSummary R cold, maxTokens)]) ∧
      (summaryWith metadata R client maxTokens cold).1.toList.map BriefSegment.shown =
        (summaryBodies R client maxTokens cold).map (Prod.mk .summary) := by
  cases cold with
  | nil => simp [summaryWith, summaryBodies]
  | cons msg cold =>
    by_cases htext : client.summarize (flattenForSummary R (msg :: cold)) maxTokens = ""
    · simp [summaryWith, summaryBodies, htext]
    · simp [summaryWith, summaryBodies, htext, summarySegment, BriefSegment.shown,
        SegmentSource.kind]

end

/-! ## The split -/

theorem bands_perm {α : Type} (f : α → Band) (l : List α) :
    l.Perm (l.filter (fun x => f x = .warm) ++ l.filter (fun x => f x = .mid) ++
      l.filter (fun x => f x = .cold)) := by
  induction l with
  | nil => exact .nil
  | cons x l ih =>
    cases hx : f x with
    | warm => simpa [hx] using ih
    | mid =>
      have hmid : (x :: l).Perm (l.filter (fun x => f x = .warm) ++ x ::
          (l.filter (fun x => f x = .mid) ++ l.filter (fun x => f x = .cold))) :=
        (ih.cons x).trans (by rw [List.append_assoc]; exact List.perm_middle.symm)
      simpa [hx] using hmid
    | cold =>
      have hcold := (ih.cons x).trans List.perm_middle.symm
      simpa [hx] using hcold

/-- Each message is in one band. -/
theorem partitionMessages_perm (messages : List MessageLike) (warmCutoff coldCutoff : Int) :
    messages.Perm ((partitionMessages messages warmCutoff coldCutoff).warm ++
      (partitionMessages messages warmCutoff coldCutoff).mid ++
      (partitionMessages messages warmCutoff coldCutoff).cold) :=
  (bands_perm (fun msg => band warmCutoff coldCutoff msg.timestamp) messages).trans
    (((ranked_perm _ _).symm.append (ranked_perm _ _).symm).append (ranked_perm _ _).symm)

theorem hybridSplit_perm (messages : List MessageLike) (actions : List ActionLike)
    (warmCutoffHours coldCutoffHours : Int) :
    messages.Perm ((hybridSplit messages actions warmCutoffHours coldCutoffHours).warm ++
      (hybridSplit messages actions warmCutoffHours coldCutoffHours).mid ++
      (hybridSplit messages actions warmCutoffHours coldCutoffHours).cold) := by
  unfold hybridSplit
  split
  · rename_i hnone
    have hempty := List.max?_eq_none_iff.mp hnone
    simp only [candidates, List.append_eq_nil_iff, List.map_eq_nil_iff] at hempty
    rw [hempty.1]
    exact .nil
  · exact partitionMessages_perm _ _ _

/-! ## Both strategies -/

section

variable [Field K] [LinearOrder K] (R : Renderer) (client : SummaryClient)
  (messages : List MessageLike) (actions : List ActionLike)

theorem summarizedSegments_accounts (recentWindow maxTokens : Int) :
    Accounts R client maxTokens messages actions
      (summarizedSegments (K := K) R client messages actions recentWindow maxTokens) := by
  unfold summarizedSegments
  split
  · rename_i h
    obtain ⟨hm, ha⟩ := h
    rw [List.isEmpty_iff.mp hm, List.isEmpty_iff.mp ha]
    exact (Accounts.of_shown [] [] .nil rfl rfl : Accounts R client maxTokens [] []
      ((constructed ([] : List (BriefSegment K))).map fun segments => ⟨ranked _ segments, []⟩))
  · obtain ⟨hcalls, hsummary⟩ := summaryWith_spec (K := K) [] R client maxTokens
      (sliceFrom recentWindow (ranked MessageLike.timestamp messages))
    refine Accounts.of_shown (sliceTo recentWindow (ranked MessageLike.timestamp messages))
      (sliceFrom recentWindow (ranked MessageLike.timestamp messages)) ?_ hcalls ?_
    · rw [sliceTo_append_sliceFrom]
      exact (ranked_perm _ _).symm
    · rw [summaryForWindow, List.map_append, List.map_append, hsummary, List.map_map, List.map_map]
      rfl

/-- What the segments of a split show. -/
theorem hybridUnsorted_shown [FloorRing K] (cosine : String → String → K) (query : String)
    (maxTokens : Int) (split : HybridSplit) :
    (hybridUnsorted R cosine client query actions maxTokens split).map BriefSegment.shown =
      (summaryBodies R client maxTokens split.cold).map (Prod.mk .summary) ++
        actions.map (fun act => (.action, formatActionSegment R act)) ++
        (split.warm ++ split.mid).map (fun msg => (.message, formatMessageSegment R msg)) := by
  obtain ⟨-, hsummary⟩ := summaryWith_spec (K := K) [("tier", .str "cold")] R client maxTokens
    split.cold
  rw [hybridUnsorted, buildSummarySegment, List.map_append, List.map_append, List.map_append, hsummary,
    List.map_map, List.map_map, List.map_map, List.map_append,
    List.append_assoc _ (List.map _ _) (List.map _ _)]
  rfl

theorem hybridSegments_accounts [FloorRing K] (cosine : String → String → K) (query : String)
    {warmCutoffHours coldCutoffHours : Int} (maxTokens : Int) (h : warmCutoffHours < coldCutoffHours)
    (hfit : CutoffsFit messages actions warmCutoffHours coldCutoffHours) :
    Accounts R client maxTokens messages actions (hybridSegments R cosine client query messages
      actions warmCutoffHours coldCutoffHours maxTokens) := by
  rw [hybridSegments_fit h hfit]
  obtain ⟨hcalls, -⟩ := summaryWith_spec (K := K) [("tier", .str "cold")] R client maxTokens
    (hybridSplit messages actions warmCutoffHours coldCutoffHours).cold
  exact Accounts.of_shown _ _ (hybridSplit_perm messages actions _ _) hcalls
    (hybridUnsorted_shown R client actions cosine query maxTokens _)

/-- Both strategies account for every message and every action, whenever they return; and when they do
not, it is for a lone surrogate or, in hybrid retrieval, for a cutoff out of range. -/
theorem retrieval_accounts [FloorRing K] (cosine : String → String → K) (query : String)
    {warmCutoffHours coldCutoffHours : Int} (maxTokens recentWindow : Int)
    (h : warmCutoffHours < coldCutoffHours) :
    (CutoffsFit messages actions warmCutoffHours coldCutoffHours →
      Accounts R client maxTokens messages actions (hybridSegments R cosine client query messages
        actions warmCutoffHours coldCutoffHours maxTokens)) ∧
    (¬ CutoffsFit messages actions warmCutoffHours coldCutoffHours →
      hybridSegments R cosine client query messages actions warmCutoffHours coldCutoffHours
        maxTokens = .error .overflow) ∧
    Accounts R client maxTokens messages actions
      (summarizedSegments (K := K) R client messages actions recentWindow maxTokens) :=
  ⟨hybridSegments_accounts R client messages actions cosine query maxTokens h,
    hybridSegments_overflow h,
    summarizedSegments_accounts R client messages actions recentWindow maxTokens⟩

end

def demoRenderer : Renderer := ⟨fun _ => "2026-05-20 10:00", fun _ => "", fun _ => ""⟩

/-- The mock client, on short texts. -/
def demoClient : SummaryClient := ⟨"mock", "mock", fun text _ => text ++ "...[mock-summary]"⟩

def demoMessage (timestamp : Int) (content : String) : MessageLike :=
  ⟨"chat", "borrower", content, timestamp, ∅⟩

def demoAction (timestamp : Int) : ActionLike := ⟨"send_checklist", ∅, timestamp⟩

/-- Four messages, of 0, 48, 70 and 100 hours of age, and an action of one hour of age. -/
def bandHistory : List MessageLike :=
  [demoMessage 360000000000 "hello", demoMessage 187200000000 "rate fee",
    demoMessage 108000000000 "rate rate fee", demoMessage 0 "bye"]

def bandActions : List ActionLike := [demoAction 356400000000]

theorem band_fit : CutoffsFit bandHistory bandActions 24 72 := by
  intro reference h
  cases (show some (360000000000 : Int) = some reference from h)
  decide

theorem retrieval_accounts_demo :
    (24 : Int) < 72 ∧ CutoffsFit bandHistory bandActions 24 72 ∧
      Accounts demoRenderer demoClient 256 bandHistory bandActions
        (hybridSegments (K := ℚ) demoRenderer (fun _ _ => 0) demoClient "rate?" bandHistory
          bandActions 24 72 256) ∧
      Accounts demoRenderer demoClient 256 bandHistory bandActions
        (summarizedSegments (K := ℚ) demoRenderer demoClient bandHistory bandActions 2 256) := by
  obtain ⟨hhybrid, -, hsummarized⟩ := retrieval_accounts (K := ℚ) demoRenderer demoClient bandHistory
    bandActions (fun _ _ => 0) "rate?" 256 2 (show (24 : Int) < 72 by decide)
  exact ⟨by decide, band_fit, hhybrid band_fit, hsummarized⟩

/-- With a cold cutoff of 20 million hours nothing is returned. -/
theorem cutoff_overflows :
    ¬ ∃ out, hybridSegments (K := ℚ) demoRenderer (fun _ _ => 0) demoClient "rate?" bandHistory
        bandActions 24 20000000 256 = .ok out ∧
      ∃ verbatim summarized, Accounted demoRenderer demoClient 256 bandHistory bandActions verbatim
        summarized out := by
  rintro ⟨out, hout, -⟩
  have hfit := (hybridSegments_ok (by decide) hout).1
  have hyears := (hfit 360000000000 rfl).2
  exact absurd hyears (by decide)

end PennyCore
