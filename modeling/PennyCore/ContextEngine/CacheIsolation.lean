import PennyCore.ContextEngine.CacheGuarantees
import PennyCore.Lib.Unwinding

/-!
# Tenants of the semantic cache

Two runs with the same calls for tenant `A`, and any calls for the others, show `A` the same answers,
evict the same entries of `A` and leave `A` the same pairs in the same order of use
(`cache_noninterference`). What a lookup of `A` returns was stored for `A`.
-/

namespace PennyCore

open Lib

variable {F : Type} [LinearOrder F] [Zero F] [One F] [Add F]

/-- A lookup or a store for tenant `A`. -/
def CacheOp.Own (A : String) : CacheOp → Prop
  | .lookup t _ => t = A
  | .store t _ _ => t = A
  | .clear => False

/-- A lookup or a store for another tenant. -/
def CacheOp.Foreign (A : String) : CacheOp → Prop
  | .lookup t _ => t ≠ A
  | .store t _ _ => t ≠ A
  | .clear => False

instance (A : String) : DecidablePred (CacheOp.Own A) := fun o => by
  cases o <;> unfold CacheOp.Own <;> infer_instance

/-- What a lookup answers. -/
def SemanticCache.answer (cfg : CacheConfig F) (s : SemanticCache F) :
    CacheOp → Option (Except CacheKeyError (CacheResult F))
  | .lookup t q => some ((SemanticCache.lookup cfg t q).run s).1
  | _ => none

/-- The keys of `A` that are live in `s` and not in `s'`. -/
def evicted (A : String) (s s' : SemanticCache F) : List String :=
  (s.liveKeys A).filter fun k => k ∉ s'.liveKeys A

/-- What a call shows of tenant `A`: its answer, the evicted keys of `A`, and the pairs of `A` after
it. -/
def shown (cfg : CacheConfig F) (A : String) (s : SemanticCache F) (o : CacheOp) :
    Option (Except CacheKeyError (CacheResult F)) × List String × List (String × String) :=
  (s.answer cfg o, evicted A s (s.step cfg o), (s.step cfg o).view A)

/-- The evictions of `A`'s entries over a schedule, whoever calls. -/
def evictions (cfg : CacheConfig F) (A : String) : SemanticCache F → List CacheOp → List String
  | _, [] => []
  | s, o :: ops => evicted A s (s.step cfg o) ++ evictions cfg A (s.step cfg o) ops

section Steps

variable {cfg : CacheConfig F} {A : String} {s t : SemanticCache F} {o : CacheOp}

/-- A call for another tenant leaves the pairs of `A`. -/
theorem view_foreign (hs : CacheOk cfg s) (ho : o.Foreign A) : (s.step cfg o).view A = s.view A := by
  cases o with
  | lookup t q => exact (hs.step_lookup t q).others A (Ne.symm ho)
  | store t k r => exact (hs.step_store t k r).others A (Ne.symm ho)
  | clear => exact absurd ho id

omit [LinearOrder F] [Zero F] [One F] [Add F] in
theorem evicted_view {s' t' : SemanticCache F} (h : s.view A = t.view A) (h' : s'.view A = t'.view A) :
    evicted A s s' = evicted A t t' := by
  unfold evicted
  rw [← keys_view, ← keys_view, ← keys_view, ← keys_view, h, h']

/-- A call for `A` shows what the pairs of `A` determine. -/
theorem shown_own (hs : CacheOk cfg s) (ht : CacheOk cfg t) (ho : o.Own A)
    (hview : s.view A = t.view A) : shown cfg A s o = shown cfg A t o := by
  suffices h : s.answer cfg o = t.answer cfg o ∧ (s.step cfg o).view A = (t.step cfg o).view A by
    unfold shown
    rw [h.1, h.2, evicted_view hview h.2]
  cases o with
  | lookup u q =>
    obtain rfl : u = A := ho
    refine ⟨?_, ?_⟩
    · obtain ⟨s', hrun, -⟩ := lookup_spec hs u q
      obtain ⟨t', hrun', -⟩ := lookup_spec ht u q
      unfold SemanticCache.answer
      simp only [hrun, hrun', hview]
    · rw [(hs.step_lookup u q).view, (ht.step_lookup u q).view, hview]
  | store u k r =>
    obtain rfl : u = A := ho
    exact ⟨rfl, by rw [(hs.step_store u k r).view, (ht.step_store u k r).view, hview]⟩
  | clear => exact absurd ho id

theorem cache_unwinding (cfg : CacheConfig F) (A : String) :
    Unwinding (SemanticCache.step cfg) (fun _ _ => True) (shown cfg A) (CacheOp.Own A)
      (CacheOp.Foreign A) (fun o o' => o = o' ∧ o.Own A) (CacheOk cfg) (fun s => s.view A)
      (· = ·) (· = ·) where
  keeps hs _ := hs.step _
  frame hs _ ho := view_foreign hs ho
  sync hs ht _ _ ho hview := by
    obtain ⟨rfl, ho⟩ := ho
    have h := shown_own hs ht ho hview
    exact ⟨h, congrArg (fun x => x.2.2) h⟩
  not_own {o} ho hown := by cases o <;> first | exact ho hown | exact ho
  own ho := ⟨ho.2, ho.1 ▸ ho.2⟩

/-- Only calls for `A` evict entries of `A`. -/
theorem evictions_own (hs : CacheOk cfg s) {ops : List CacheOp}
    (hops : ∀ o ∈ ops, o.Own A ∨ o.Foreign A) :
    evictions cfg A s ops = (Run.outputs (SemanticCache.step cfg) (shown cfg A) (CacheOp.Own A) s
      ops).flatMap fun x => x.2.1 := by
  induction ops generalizing s with
  | nil => rfl
  | cons o ops ih =>
    have ih := ih (hs.step o) fun o' ho' => hops o' (List.mem_cons_of_mem o ho')
    unfold evictions Run.outputs
    rcases hops o List.mem_cons_self with ho | ho
    · rw [if_pos ho, List.flatMap_cons, ih]
      rfl
    · have hnone : evicted A s (s.step cfg o) = [] := by
        rw [evicted_view rfl (view_foreign hs ho)]
        unfold evicted
        exact List.filter_eq_nil_iff.mpr fun k hk => by simpa using hk
      rw [if_neg ((cache_unwinding cfg A).not_own ho), hnone, List.nil_append, ih]

/-- The pairs of `A` were stored for `A`. -/
theorem view_stored {h : CacheHistory F} (hr : CacheRun cfg h s) (A : String) :
    ∀ e ∈ s.view A, ∃ s', (s', CacheOp.store A e.1 e.2) ∈ h := by
  refine hr.invariant (I := fun h s => ∀ e ∈ s.view A, ∃ s', (s', CacheOp.store A e.1 e.2) ∈ h)
    (fun e he => absurd he List.not_mem_nil) fun h s o hr ih _ e he => ?_
  have hs := (CacheRun.inv hr).ok
  have hold : e ∈ s.view A → ∃ s', (s', CacheOp.store A e.1 e.2) ∈ h ++ [(s, o)] := fun he => by
    obtain ⟨s', hs'⟩ := ih e he
    exact ⟨s', List.mem_append_left _ hs'⟩
  by_cases hf : o.Foreign A
  · exact hold (view_foreign hs hf ▸ he)
  cases o with
  | lookup t q =>
    obtain rfl : t = A := not_not.mp hf
    rw [(hs.step_lookup t q).view] at he
    exact hold (cfg.mem_used he)
  | store t k r =>
    obtain rfl : t = A := not_not.mp hf
    rw [(hs.step_store t k r).view] at he
    rcases Lru.mem_touch.mp (List.mem_of_mem_drop he) with ⟨he, -⟩ | rfl
    · exact hold he
    · exact ⟨s, List.mem_append_right _ List.mem_cons_self⟩
  | clear => exact absurd he (List.not_mem_nil)

end Steps

/-- Tenant `A` sees nothing of the calls for the others, and gets only responses stored for it. -/
theorem cache_noninterference (cfg : CacheConfig F) (A : String) {ops ops' : List CacheOp}
    (ht : Twin (CacheOp.Foreign A) (fun o o' => o = o' ∧ o.Own A) ops ops') :
    Run.outputs (SemanticCache.step cfg) (shown cfg A) (CacheOp.Own A) (SemanticCache.new F) ops =
      Run.outputs (SemanticCache.step cfg) (shown cfg A) (CacheOp.Own A) (SemanticCache.new F) ops' ∧
    (ops.foldl (SemanticCache.step cfg) (SemanticCache.new F)).view A =
      (ops'.foldl (SemanticCache.step cfg) (SemanticCache.new F)).view A ∧
    evictions cfg A (SemanticCache.new F) ops = evictions cfg A (SemanticCache.new F) ops' ∧
    ∀ before q after result r, ops = before ++ .lookup A q :: after →
      ((SemanticCache.lookup cfg A q).run
        (before.foldl (SemanticCache.step cfg) (SemanticCache.new F))).1 = .ok result →
      result.response = some r → ∃ k, CacheOp.store A k r ∈ before := by
  have hnew := CacheOk.new cfg
  have hlegal : ∀ ops, Run.Legal (SemanticCache.step cfg) (fun _ _ => True) (SemanticCache.new F)
      ops := Run.Legal.of_forall (fun _ _ => trivial) _
  obtain ⟨hout, hview⟩ := (cache_unwinding cfg A).run ht hnew hnew (hlegal ops) (hlegal ops') rfl
  have hout := List.forall₂_eq_eq_eq ▸ hout
  have hown : ∀ o : CacheOp, (o.Foreign A ∨ ∃ o', o = o' ∧ o.Own A) → o.Own A ∨ o.Foreign A :=
    fun o ho => ho.symm.imp_left fun h => h.choose_spec.2
  have hown' : ∀ o : CacheOp, (o.Foreign A ∨ ∃ o', o' = o ∧ o'.Own A) → o.Own A ∨ o.Foreign A :=
    fun o ho => ho.symm.imp_left fun ⟨o', heq, h⟩ => heq ▸ h
  refine ⟨hout, hview, ?_, fun before q after result r _ hrun hresp => ?_⟩
  · rw [evictions_own hnew fun o ho => hown o (ht.mem.1 o ho),
      evictions_own hnew fun o ho => hown' o (ht.mem.2 o ho), hout]
  · have hr : CacheRun cfg _ _ := Run.ofOps (hlegal before)
    obtain ⟨s', hlook, -⟩ := lookup_spec hr.inv.ok A q
    rw [hlook] at hrun
    rw [← Except.ok.inj hrun, (cfg.answer_hit _ q).2, Option.map_eq_some_iff] at hresp
    obtain ⟨e, hans, rfl⟩ := hresp
    obtain ⟨s₁, hmem⟩ := view_stored hr A e (cfg.answer_mem hans)
    exact ⟨e.1, Run.mem_of_trace hmem⟩

/-- A tenant alone, and among the calls of another that fill the cache. -/
theorem cache_noninterference_crowded :
    (Run.outputs (SemanticCache.step twoEntries) (shown twoEntries "a") (CacheOp.Own "a")
        (SemanticCache.new Nat) [.store "a" "k" "1", .lookup "a" "k"]).length = 2 ∧
      Run.outputs (SemanticCache.step twoEntries) (shown twoEntries "a") (CacheOp.Own "a")
        (SemanticCache.new Nat) [.store "a" "k" "1", .lookup "a" "k"] =
      Run.outputs (SemanticCache.step twoEntries) (shown twoEntries "a") (CacheOp.Own "a")
        (SemanticCache.new Nat) [.store "b" "k" "2", .store "a" "k" "1", .store "b" "l" "3",
          .store "b" "m" "4", .lookup "a" "k"] := by
  have hb : ∀ k r, (CacheOp.store "b" k r).Foreign "a" := fun _ _ => by
    change "b" ≠ "a"
    decide
  have hstore : (CacheOp.store "a" "k" "1").Own "a" := rfl
  have hlookup : (CacheOp.lookup "a" "k").Own "a" := rfl
  exact ⟨rfl, (cache_noninterference twoEntries "a" (.right (hb _ _) (.both ⟨rfl, hstore⟩
    (.right (hb _ _) (.right (hb _ _) (.both ⟨rfl, hlookup⟩ .nil)))))).1⟩

end PennyCore
