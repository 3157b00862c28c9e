import PennyCore.ContextEngine.CacheGuarantees
import PennyCore.Lib.FirstMax

/-!
# Which entry a near hit returns

A lookup without an exact match scans the tenant's entries for the most similar one. The scan goes in
the order of the last uses, so of several entries that are equally similar it takes the one that was
used least recently, which need not be the one that was inserted first.

* `answer_nearest`: what the scan comes to.
* `NearestHit` is what a lookup is to return, `TiesInOrder` the condition on the entries under which it
  does (`lookup_nearestHit`). Entries in the order of their ids meet it (`tiesInOrder_of_sorted`).
-/

namespace PennyCore

open Lib

variable {F : Type} [LinearOrder F] [Zero F] [One F]

/-- How similar the entry is to the text. -/
def CacheConfig.simTo (cfg : CacheConfig F) (q : String) (e : Nat × CacheEntry) : F :=
  cfg.sim q e.2.keyText

/-- A lookup of `q` on the entries hits exactly if one is similar enough, and then returns the response
of a most similar one, the one of them that was inserted first. -/
structure NearestHit (cfg : CacheConfig F) (entries : List (Nat × CacheEntry)) (q : String)
    (r : CacheResult F) : Prop where
  hit : r.hit = true ↔ ∃ e ∈ entries, cfg.threshold ≤ cfg.simTo q e
  response : r.hit = true → ∃ e ∈ entries, r.response = some e.2.response ∧
    (∀ x ∈ entries, cfg.simTo q x ≤ cfg.simTo q e) ∧
    ∀ x ∈ entries, cfg.simTo q x = cfg.simTo q e → e.1 ≤ x.1

/-- The first of the most similar entries, if it is similar enough, has the response of the one of them
that was inserted first. The entries are in the order of their last uses. -/
def TiesInOrder (cfg : CacheConfig F) (entries : List (Nat × CacheEntry)) (q : String) : Prop :=
  ∀ e, FirstMax (cfg.simTo q) entries e → cfg.threshold ≤ cfg.simTo q e →
    ∃ e' ∈ entries, cfg.simTo q e' = cfg.simTo q e ∧ e'.2.response = e.2.response ∧
      ∀ x ∈ entries, cfg.simTo q x = cfg.simTo q e → e'.1 ≤ x.1

/-- Entries that stand in the order of their ids. -/
theorem tiesInOrder_of_sorted (cfg : CacheConfig F) {entries : List (Nat × CacheEntry)}
    (h : (entries.map Prod.fst).Pairwise (· < ·)) (q : String) : TiesInOrder cfg entries q := by
  intro e hmax _
  refine ⟨e, hmax.mem, rfl, rfl, fun x hx hsim => ?_⟩
  obtain ⟨before, after, rfl, hbefore, -⟩ := hmax
  rw [List.pairwise_map] at h
  rcases List.mem_append.mp hx with hx | hx
  · exact absurd hsim (ne_of_lt (hbefore x hx))
  · rcases List.mem_cons.mp hx with rfl | hx
    · exact Nat.le_refl _
    · have hafter := (List.pairwise_append.mp h).2.1
      exact Nat.le_of_lt ((List.pairwise_cons.mp hafter).1 x hx)

/-! ## The scan -/

/-- What a lookup answers where there is no exact match. -/
theorem answer_nearest (cfg : CacheConfig F) {l : List (String × String)} {q : String}
    (h : l.lookup q = none) :
    ((cfg.answer l q).1.hit = false ∧ ∀ p ∈ l, cfg.sim q p.1 < cfg.threshold) ∨
      ∃ p, FirstMax (fun p => cfg.sim q p.1) l p ∧ cfg.threshold ≤ cfg.sim q p.1 ∧
        (cfg.answer l q).1.hit = true ∧ (cfg.answer l q).1.response = some p.2 := by
  have hscan : cfg.near q l = scanMax (fun p => cfg.sim q p.1) 0 l := rfl
  unfold CacheConfig.answer
  by_cases hnil : l.isEmpty
  · rw [if_pos hnil, List.isEmpty_iff.mp hnil]
    exact .inl ⟨rfl, fun p hp => absurd hp List.not_mem_nil⟩
  rw [if_neg hnil, h, hscan]
  rcases scanMax_cases (fun p => cfg.sim q p.1) 0 l with ⟨heq, hle⟩ | ⟨p, heq, -, hmax⟩
  · rw [heq]
    exact .inl ⟨rfl, fun p hp => lt_of_le_of_lt (hle p hp) cfg.threshold_ok.1⟩
  · rw [heq]
    by_cases hthr : cfg.threshold ≤ cfg.sim q p.1
    · right
      refine ⟨p, hmax, hthr, ?_⟩
      simp only [if_pos hthr]
      exact ⟨rfl, rfl⟩
    · left
      simp only [if_neg hthr]
      exact ⟨rfl, fun x hx => lt_of_le_of_lt (hmax.le hx) (lt_of_not_ge hthr)⟩

/-! ## Lookups -/

section Lookup

variable [Add F] {cfg : CacheConfig F} {h : CacheHistory F} {s : SemanticCache F}

/-- After any calls, a lookup without an exact match returns what it is to return if and only if the
ties are in order. -/
theorem lookup_nearestHit (hr : CacheRun cfg h s) {t q : String} (hq : (s.index t).get? q = none) :
    ∃ r s', (SemanticCache.lookup cfg t q).run s = (.ok r, s') ∧
      (NearestHit cfg (s.ns t).entries q r ↔ TiesInOrder cfg (s.ns t).entries q) := by
  have hok : CacheOk cfg s := hr.inv.ok
  obtain ⟨s', hrun, -⟩ := lookup_spec hok t q
  have hlook : (s.view t).lookup q = none := Lru.lookup_eq_none.mpr ((hok t).lookup_none.mp hq)
  refine ⟨_, s', hrun, ?_⟩
  rcases answer_nearest cfg hlook with ⟨hhit, hless⟩ | ⟨p, hmax, hthr, hhit, hresp⟩
  · -- a miss: no entry is similar enough
    have hnone : ∀ e ∈ (s.ns t).entries, cfg.simTo q e < cfg.threshold := fun e he =>
      hless e.2.pair (List.mem_map_of_mem he)
    refine iff_of_true ⟨?_, fun hyes => ?_⟩ fun e he hthr => ?_
    · rw [hhit]
      refine iff_of_false Bool.false_ne_true ?_
      rintro ⟨e, he, hle⟩
      exact absurd hle (not_le_of_gt (hnone e he))
    · rw [hhit] at hyes
      cases hyes
    · exact absurd hthr (not_le_of_gt (hnone e he.mem))
  · -- a hit of the first of the most similar entries
    obtain ⟨e, rfl, hfirst⟩ := FirstMax.of_map hmax
    have hfirst : FirstMax (cfg.simTo q) (s.ns t).entries e := hfirst
    have hthr : cfg.threshold ≤ cfg.simTo q e := hthr
    have hresp : (cfg.answer (s.view t) q).1.response = some e.2.response := hresp
    constructor
    · intro hnear x hx _
      obtain rfl := hx.unique hfirst
      obtain ⟨e', he', hresp', hmax', hleast⟩ := hnear.response hhit
      have hsim : cfg.simTo q e' = cfg.simTo q x := le_antisymm (hfirst.le he') (hmax' x hfirst.mem)
      refine ⟨e', he', hsim, Option.some.inj (hresp'.symm.trans hresp), fun y hy heq => ?_⟩
      exact hleast y hy (heq.trans hsim.symm)
    · intro hties
      obtain ⟨e', he', hsim, hresp', hleast⟩ := hties e hfirst hthr
      refine ⟨iff_of_true hhit ⟨e, hfirst.mem, hthr⟩, fun _ => ⟨e', he', ?_, ?_, ?_⟩⟩
      · rw [hresp, hresp']
      · exact fun x hx => hsim ▸ hfirst.le hx
      · exact fun x hx heq => hleast x hx (heq.trans hsim)

end Lookup

/-- A cache in which all texts are alike: with an embedding of their words, texts that differ in the
order of the words are. -/
def wordOrder : CacheConfig Nat where
  sim _ _ := 1
  threshold := 1
  exactSim := 1
  entryCost _ _ := 0
  maxEntries := 2
  threshold_ok := twoEntries.threshold_ok
  maxEntries_ok := twoEntries.maxEntries_ok

/-- Two stores: the first answer is returned. -/
theorem lookup_nearestHit_stored :
    ∃ s, s.liveKeys "t" = ["alpha beta gamma", "beta alpha gamma"] ∧
      ∃ r s', (SemanticCache.lookup wordOrder "t" "gamma alpha beta").run s = (.ok r, s') ∧
        NearestHit wordOrder (s.ns "t").entries "gamma alpha beta" r := by
  have hr : CacheRun wordOrder _ _ := Run.ofOps (Run.Legal.of_forall (fun _ _ => trivial) _
    [.store "t" "alpha beta gamma" "first", .store "t" "beta alpha gamma" "second"])
  obtain ⟨r, s', hrun, hiff⟩ := lookup_nearestHit (t := "t") (q := "gamma alpha beta") hr (by decide)
  exact ⟨_, by decide, r, s', hrun, hiff.mpr (tiesInOrder_of_sorted _ (by decide) _)⟩

/-- Two stores and a hit of the first. -/
def hitBetween : SemanticCache Nat :=
  [CacheOp.store "t" "alpha beta gamma" "first", .store "t" "beta alpha gamma" "second",
    .lookup "t" "alpha beta gamma"].foldl (SemanticCache.step wordOrder) (SemanticCache.new Nat)

/-- Both entries are equally similar, and the second answer is returned. -/
theorem hit_changes_answer :
    ∃ r s', (SemanticCache.lookup wordOrder "t" "gamma alpha beta").run hitBetween = (.ok r, s') ∧
      r.hit = true ∧ r.response = some "second" ∧
      ¬ NearestHit wordOrder (hitBetween.ns "t").entries "gamma alpha beta" r := by
  refine ⟨.found "second" 1 .exact, _, rfl, rfl, rfl, fun hnear => ?_⟩
  obtain ⟨e, he, hresp, -, hleast⟩ := hnear.response rfl
  have hids : ∀ e ∈ (hitBetween.ns "t").entries, e.2.response = "second" →
      ∃ x ∈ (hitBetween.ns "t").entries, x.1 < e.1 := by decide
  obtain ⟨x, hx, hlt⟩ := hids e he (Option.some.inj hresp).symm
  exact absurd (hleast x hx rfl) (Nat.not_le.mpr hlt)

end PennyCore
