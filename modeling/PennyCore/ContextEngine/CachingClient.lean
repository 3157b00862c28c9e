import Mathlib.Data.List.Induction
import PennyCore.ContextEngine.CacheIsolation

/-!
# The caching client

`CachingLLMClient.complete` over sequences of calls, when only a byte-identical prompt is similar
enough. The cache key is the prompt alone: a call returns what the inner client returns for the
arguments of a call of the same tenant with the same prompt (`complete_answers`), so the wrapper is
transparent exactly for inner clients that read only the prompt (`transparent_iff`).
-/

namespace PennyCore

open Lib

variable {F : Type} [LinearOrder F] [Zero F] [One F] [Add F]

/-- A call of a tenant's wrapper. -/
abbrev CompleteCall (F : Type) : Type := String × CompleteArgs F

/-- The cache after a call. -/
def completeStep (cfg : CacheConfig F) (inner : CompleteArgs F → String) (s : SemanticCache F)
    (c : CompleteCall F) : SemanticCache F :=
  ((complete cfg inner c.1 c.2).run s).2

/-- What the call `c` returns after the calls `before`. -/
def completed (cfg : CacheConfig F) (inner : CompleteArgs F → String) (before : List (CompleteCall F))
    (c : CompleteCall F) : Except CacheKeyError String :=
  ((complete cfg inner c.1 c.2).run (before.foldl (completeStep cfg inner) (SemanticCache.new F))).1

/-- Only the same text is similar enough. -/
def CacheConfig.Strict (cfg : CacheConfig F) : Prop := ∀ a b, a ≠ b → cfg.sim a b < cfg.threshold

/-- Each call returns what the inner client returns for its own arguments. -/
def Transparent (cfg : CacheConfig F) (inner : CompleteArgs F → String) : Prop :=
  ∀ before c, completed cfg inner before c = .ok (inner c.2)

/-- The cached pairs are answers of the inner client to calls of `before`. -/
structure Answers (cfg : CacheConfig F) (inner : CompleteArgs F → String)
    (before : List (CompleteCall F)) (s : SemanticCache F) : Prop where
  ok : CacheOk cfg s
  answers : ∀ t, ∀ e ∈ s.view t, ∃ args, (t, args) ∈ before ∧ args.prompt = e.1 ∧ inner args = e.2

section Client

variable {cfg : CacheConfig F} {inner : CompleteArgs F → String} {before : List (CompleteCall F)}
  {s : SemanticCache F}

omit [Add F] in
/-- A prompt that is not there misses. -/
theorem CacheConfig.Strict.answer_none (hstrict : cfg.Strict) {l : List (String × String)} {q : String}
    (h : l.lookup q = none) : (cfg.answer l q).2 = none := by
  unfold answer
  split
  · rfl
  rw [h]
  simp only
  split
  · rename_i e sim hnear
    obtain ⟨hmem, hsim⟩ := cfg.near_mem q l e (by rw [hnear]; rfl)
    rw [hnear] at hsim
    have hne : q ≠ e.1 := fun heq => Lru.lookup_eq_none.mp h (heq ▸ List.mem_map_of_mem hmem)
    have hlt := hstrict q e.1 hne
    rw [← hsim] at hlt
    rw [if_neg (not_le_of_gt hlt)]
  · rfl

/-- A call returns the stored response, or else what the inner client returns, which it stores. -/
theorem complete_spec (inner : CompleteArgs F → String) (hstrict : cfg.Strict) (hs : CacheOk cfg s)
    (c : CompleteCall F) :
    ((complete cfg inner c.1 c.2).run s).1 =
        .ok (((s.view c.1).lookup c.2.prompt).getD (inner c.2)) ∧
      CacheOk cfg (completeStep cfg inner s c) ∧
      ((completeStep cfg inner s c).view c.1).lookup c.2.prompt =
        some (((s.view c.1).lookup c.2.prompt).getD (inner c.2)) ∧
      ∀ t, ∀ e ∈ (completeStep cfg inner s c).view t,
        e ∈ s.view t ∨ (t = c.1 ∧ e = (c.2.prompt, inner c.2)) := by
  obtain ⟨t, args⟩ := c
  obtain ⟨s₁, hrun, hl⟩ := lookup_spec hs t args.prompt
  obtain ⟨hhit, hresp⟩ := cfg.answer_hit (s.view t) args.prompt
  unfold completeStep complete
  rw [Py.run_bind_ok hrun]
  have hold : ∀ u, ∀ e ∈ s₁.view u, e ∈ s.view u := fun u e he => by
    by_cases hu : u = t
    · subst hu
      rw [hl.view] at he
      exact cfg.mem_used he
    · rwa [hl.others u hu] at he
  cases hlook : (s.view t).lookup args.prompt with
  | some r =>
    rw [cfg.answer_exact hlook] at hl ⊢
    refine ⟨rfl, hl.ok, ?_, fun u e he => .inl (hold u e he)⟩
    change (s₁.view t).lookup args.prompt = some r
    rw [hl.view]
    exact (Lru.lookup_touch _ _ _ r).trans (if_pos rfl)
  | none =>
    have hnone := hstrict.answer_none hlook
    rw [hnone] at hhit hresp
    simp only [hhit, hresp]
    obtain ⟨s₂, hstore, hl₂⟩ := store_spec hl.ok t args.prompt (inner args)
    change ((SemanticCache.store cfg t args.prompt (inner args) >>= _).run s₁).1 = _ ∧
      CacheOk cfg ((SemanticCache.store cfg t args.prompt (inner args) >>= _).run s₁).2 ∧
      (SemanticCache.view
        ((SemanticCache.store cfg t args.prompt (inner args) >>= _).run s₁).2 t).lookup _ = _ ∧
      ∀ u, ∀ e ∈ SemanticCache.view
        ((SemanticCache.store cfg t args.prompt (inner args) >>= _).run s₁).2 u, _
    rw [Py.run_bind_ok hstore]
    refine ⟨rfl, hl₂.ok, ?_, fun u e he => ?_⟩
    · rw [Py.run_pure, hl₂.view, Lru.lookup_put (hl.ok.keys_nodup t) (hl.ok.view_length t)
        cfg.maxEntries_ok, if_pos rfl]
      rfl
    by_cases hu : u = t
    · subst hu
      rw [Py.run_pure, hl₂.view] at he
      rcases Lru.mem_touch.mp (List.mem_of_mem_drop he) with ⟨he, -⟩ | rfl
      · exact .inl (hold u e he)
      · exact .inr ⟨rfl, rfl⟩
    · rw [Py.run_pure, hl₂.others u hu] at he
      exact .inl (hold u e he)

/-- After any calls the cached pairs are their answers. -/
theorem answers_after (hstrict : cfg.Strict) (inner : CompleteArgs F → String)
    (before : List (CompleteCall F)) :
    Answers cfg inner before (before.foldl (completeStep cfg inner) (SemanticCache.new F)) := by
  induction before using List.reverseRecOn with
  | nil => exact ⟨CacheOk.new cfg, fun t e he => absurd he List.not_mem_nil⟩
  | append_singleton before c ih =>
    rw [List.foldl_append, List.foldl_cons, List.foldl_nil]
    obtain ⟨-, hok, -, hview⟩ := complete_spec inner hstrict ih.ok c
    refine ⟨hok, fun t e he => ?_⟩
    rcases hview t e he with he | ⟨rfl, rfl⟩
    · obtain ⟨args, hmem, hargs⟩ := ih.answers t e he
      exact ⟨args, List.mem_append_left _ hmem, hargs⟩
    · exact ⟨c.2, List.mem_append_right _ List.mem_cons_self, rfl, rfl⟩

/-- A call answers what the inner client returns for its own arguments, or for those of an earlier call
of the tenant with the prompt. -/
theorem completed_from (hstrict : cfg.Strict) (inner : CompleteArgs F → String)
    (before : List (CompleteCall F)) (c : CompleteCall F) :
    ∃ args, (args = c.2 ∨ (c.1, args) ∈ before) ∧ args.prompt = c.2.prompt ∧
      completed cfg inner before c = .ok (inner args) := by
  have hans := answers_after hstrict inner before
  obtain ⟨hrun, -⟩ := complete_spec inner hstrict hans.ok c
  have hcompleted : completed cfg inner before c = _ := hrun
  rw [hcompleted]
  cases hlook : (SemanticCache.view
      (before.foldl (completeStep cfg inner) (SemanticCache.new F)) c.1).lookup c.2.prompt with
  | none => exact ⟨c.2, .inl rfl, rfl, rfl⟩
  | some r =>
    obtain ⟨args, hmem, hprompt, hinner⟩ := hans.answers c.1 (c.2.prompt, r)
      (Lru.mem_of_lookup hlook)
    exact ⟨args, .inr hmem, hprompt, by rw [hinner]; rfl⟩

end Client

/-- If only the same text is similar enough, each call returns what the inner client returns for the
arguments of a call of the same tenant with the same prompt, made no later; that is its own answer
if all of them had the same other arguments. -/
theorem complete_answers (cfg : CacheConfig F) (inner : CompleteArgs F → String)
    (hstrict : cfg.Strict) (before : List (CompleteCall F)) (c : CompleteCall F) :
    (∃ args, (c.1, args) ∈ before ++ [c] ∧ args.prompt = c.2.prompt ∧
      completed cfg inner before c = .ok (inner args)) ∧
    ((∀ args, (c.1, args) ∈ before → args.prompt = c.2.prompt →
        args.system = c.2.system ∧ args.maxTokens = c.2.maxTokens ∧
          args.temperature = c.2.temperature) →
      completed cfg inner before c = .ok (inner c.2)) := by
  obtain ⟨args, hargs, hprompt, hcompleted⟩ := completed_from hstrict inner before c
  refine ⟨⟨args, ?_, hprompt, hcompleted⟩, fun hsame => ?_⟩
  · rcases hargs with rfl | hmem
    · exact List.mem_append_right _ List.mem_cons_self
    · exact List.mem_append_left _ hmem
  · have heq : args = c.2 := by
      rcases hargs with rfl | hmem
      · rfl
      · obtain ⟨hsystem, hmax, htemp⟩ := hsame args hmem hprompt
        cases args
        simp only at hprompt hsystem hmax htemp
        rw [hprompt, hsystem, hmax, htemp]
    rw [hcompleted, heq]

/-- The wrapper is transparent exactly for inner clients that read only the prompt. -/
theorem transparent_iff (cfg : CacheConfig F) (inner : CompleteArgs F → String)
    (hstrict : cfg.Strict) :
    Transparent cfg inner ↔ ∀ a a', a.prompt = a'.prompt → inner a = inner a' := by
  refine ⟨fun htransparent a a' hprompt => ?_, fun hprompt before c => ?_⟩
  · -- the first call stores its answer, and the second one gets it
    obtain ⟨-, hok, hstored, -⟩ :=
      complete_spec inner hstrict (CacheOk.new cfg) ("", a)
    obtain ⟨hrun, -⟩ := complete_spec inner hstrict hok ("", a')
    have hcompleted : completed cfg inner [("", a)] ("", a') = _ := hrun
    rw [htransparent, ← hprompt, hstored] at hcompleted
    exact (Except.ok.inj hcompleted).symm
  · obtain ⟨args, -, hargs, hcompleted⟩ := completed_from hstrict inner before c
    rw [hcompleted, hprompt args c.2 hargs]

theorem twoEntries_strict : twoEntries.Strict := fun a b hab => by
  change (if a = b then 1 else 0) < 1
  rw [if_neg hab]
  exact Nat.zero_lt_one

/-- An inner client that answers with its system prompt: the second call gets the first one's. -/
theorem complete_not_transparent :
    ∃ inner : CompleteArgs Nat → String, twoEntries.Strict ∧ ¬ Transparent twoEntries inner := by
  refine ⟨fun a => a.system.getD "", twoEntries_strict, fun htransparent => ?_⟩
  have hcall := htransparent [("t", ⟨"p", some "x", 512, 0⟩)] ("t", ⟨"p", some "y", 512, 0⟩)
  have hx : completed twoEntries (fun a => a.system.getD "") [("t", ⟨"p", some "x", 512, 0⟩)]
      ("t", ⟨"p", some "y", 512, 0⟩) = .ok "x" := rfl
  rw [hx] at hcall
  exact absurd (Except.ok.inj hcall) (by decide)

/-- Two calls with the same arguments. -/
theorem complete_answers_again :
    completed twoEntries (fun a => a.system.getD "") [("t", ⟨"p", some "x", 512, 0⟩)]
      ("t", ⟨"p", some "x", 512, 0⟩) = .ok "x" := by
  refine (complete_answers twoEntries (fun a => a.system.getD "") twoEntries_strict _ _).2
    fun args hargs _ => ?_
  rw [List.mem_singleton] at hargs
  cases hargs
  exact ⟨rfl, rfl, rfl⟩

end PennyCore
