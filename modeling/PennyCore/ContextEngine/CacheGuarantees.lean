import Mathlib.Data.Nat.Basic
import PennyCore.ContextEngine.CacheRefinement
import PennyCore.Lib.Run

/-!
# The guarantees of the semantic cache

The cache over its runs: any `lookup`, `store` and `clear`, for any tenants, from the empty cache.

* The history of a run says what was used (`uses`), what is stored and not dropped (`served`), and
  how often a new key came in (`inserts`); the last two start anew at a `clear`.
* `CacheInv` ties the state to its history: the pairs of a tenant are in the order of their last uses
  and hold what is served, and the counters count the history.
-/

namespace PennyCore

open Lib

variable {F : Type} [LinearOrder F] [Zero F] [One F] [Add F]

/-- A call of the cache. -/
inductive CacheOp where
  | lookup (tenantId keyText : String)
  | store (tenantId keyText response : String)
  | clear
  deriving DecidableEq, Repr

/-- The cache after a call. -/
def SemanticCache.step (cfg : CacheConfig F) (s : SemanticCache F) : CacheOp → SemanticCache F
  | .lookup t q => ((SemanticCache.lookup cfg t q).run s).2
  | .store t k r => ((SemanticCache.store cfg t k r).run s).2
  | .clear => (SemanticCache.clear.run s).2

abbrev CacheHistory (F : Type) : Type := List (SemanticCache F × CacheOp)

/-- The runs of a cache. -/
abbrev CacheRun (cfg : CacheConfig F) : CacheHistory F → SemanticCache F → Prop :=
  Run (SemanticCache.step cfg) (fun _ _ => True) (SemanticCache.new F)

/-- The key texts of a tenant's entries, in the iteration order. -/
def SemanticCache.liveKeys (s : SemanticCache F) (tenantId : String) : List String :=
  (s.ns tenantId).entries.map fun e => e.2.keyText

omit [LinearOrder F] [Zero F] [One F] [Add F] in
theorem keys_view (s : SemanticCache F) (t : String) : Lru.keys (s.view t) = s.liveKeys t := by
  unfold Lru.keys SemanticCache.view pairs SemanticCache.liveKeys
  rw [List.map_map]
  rfl

/-! ## Histories -/

/-- The key of `t` that a call stores or hits. -/
def usedBy (cfg : CacheConfig F) (t : String) (e : SemanticCache F × CacheOp) : List String :=
  match e.2 with
  | .lookup u q => if u = t then ((cfg.answer (e.1.view t) q).2.map Prod.fst).toList else []
  | .store u k _ => if u = t then [k] else []
  | .clear => []

/-- The keys of `t` as they were stored or hit. -/
def uses (cfg : CacheConfig F) (t : String) (h : CacheHistory F) : List String :=
  h.flatMap (usedBy cfg t)

/-- A store of `k` evicts the key `old`: the namespace is full, and `old` is the first of it. -/
def Evicts (cfg : CacheConfig F) (s : SemanticCache F) (t k old : String) : Prop :=
  k ∉ s.liveKeys t ∧ (s.liveKeys t).length = cfg.maxEntries ∧ (s.liveKeys t).head? = some old

instance (cfg : CacheConfig F) (s : SemanticCache F) (t k old : String) :
    Decidable (Evicts cfg s t k old) := by
  unfold Evicts
  infer_instance

/-- What a call makes of the response `r` that is stored for `k`. -/
def serve (cfg : CacheConfig F) (t k : String) (r : Option String)
    (e : SemanticCache F × CacheOp) : Option String :=
  match e.2 with
  | .lookup _ _ => r
  | .store u k' r' =>
    if u = t then if k' = k then some r' else if Evicts cfg e.1 t k' k then none else r else r
  | .clear => none

/-- The last response stored for `k` and since then neither evicted nor cleared. -/
def served (cfg : CacheConfig F) (t k : String) (h : CacheHistory F) : Option String :=
  h.foldl (serve cfg t k) none

/-- The calls since the last `clear`. -/
def sinceClear (h : CacheHistory F) : CacheHistory F :=
  h.foldl (fun h e => if e.2 = .clear then [] else h ++ [e]) []

/-- The lookups since the last `clear`. -/
def lookups (h : CacheHistory F) : Nat :=
  (sinceClear h).countP fun e => match e.2 with
    | .lookup _ _ => true
    | _ => false

/-- The stores since the last `clear` that inserted a new key. -/
def inserts (h : CacheHistory F) : Nat :=
  (sinceClear h).countP fun e => match e.2 with
    | .store t k _ => decide (k ∉ e.1.liveKeys t)
    | _ => false

structure CacheInv (cfg : CacheConfig F) (h : CacheHistory F) (s : SemanticCache F) : Prop where
  ok : CacheOk cfg s
  recent : ∀ t, Lru.Recent (uses cfg t h) (s.liveKeys t)
  served : ∀ t k, (s.view t).lookup k = served cfg t k h
  lookups : s.stats.lookups = lookups h
  outcomes : s.stats.lookups = s.stats.hits + s.stats.misses
  kinds : s.stats.hits = s.stats.exactHits + s.stats.nearHits
  inserts : inserts h = s.entryCount + s.stats.evictions

section Steps

variable {cfg : CacheConfig F} {h : CacheHistory F} {s : SemanticCache F}

omit [Add F] in
theorem CacheInv.new (cfg : CacheConfig F) : CacheInv cfg [] (SemanticCache.new F) where
  ok := CacheOk.new cfg
  recent _ := Lru.Recent.nil _
  served _ _ := rfl
  lookups := rfl
  outcomes := rfl
  kinds := rfl
  inserts := rfl

theorem CacheInv.clear (cfg : CacheConfig F) (h : CacheHistory F) (s : SemanticCache F) :
    CacheInv cfg (h ++ [(s, .clear)]) (SemanticCache.step cfg s .clear) := by
  have hnew := CacheInv.new cfg
  refine ⟨hnew.ok, fun t => Lru.Recent.nil _, fun t k => ?_, ?_, hnew.outcomes, hnew.kinds, ?_⟩
  · unfold PennyCore.served
    rw [List.foldl_append]
    rfl
  · unfold PennyCore.lookups sinceClear
    rw [List.foldl_append]
    rfl
  · unfold PennyCore.inserts sinceClear
    rw [List.foldl_append]
    rfl

omit [Zero F] [One F] [LinearOrder F] [Add F] in
theorem sinceClear_append (h : CacheHistory F) (s : SemanticCache F) {o : CacheOp} (ho : o ≠ .clear) :
    sinceClear (h ++ [(s, o)]) = sinceClear h ++ [(s, o)] := by
  unfold sinceClear
  rw [List.foldl_append, List.foldl_cons, List.foldl_nil, if_neg ho]

omit [Zero F] [One F] [LinearOrder F] [Add F] in
theorem lookups_append (h : CacheHistory F) (s : SemanticCache F) {o : CacheOp} (ho : o ≠ .clear) :
    lookups (h ++ [(s, o)]) = lookups h + match o with | .lookup _ _ => 1 | _ => 0 := by
  unfold lookups
  rw [sinceClear_append h s ho, List.countP_append]
  cases o <;> rfl

omit [Zero F] [One F] [LinearOrder F] [Add F] in
theorem inserts_append (h : CacheHistory F) (s : SemanticCache F) {o : CacheOp} (ho : o ≠ .clear) :
    inserts (h ++ [(s, o)]) = inserts h +
      match o with | .store t k _ => if k ∈ s.liveKeys t then 0 else 1 | _ => 0 := by
  unfold inserts
  rw [sinceClear_append h s ho, List.countP_append]
  cases o with
  | store t k r => by_cases hk : k ∈ s.liveKeys t <;> simp [hk]
  | lookup => rfl
  | clear => rfl

omit [Add F] in
theorem uses_append (cfg : CacheConfig F) (t : String) (h : CacheHistory F)
    (e : SemanticCache F × CacheOp) : uses cfg t (h ++ [e]) = uses cfg t h ++ usedBy cfg t e := by
  unfold uses
  rw [List.flatMap_append, List.flatMap_singleton]

omit [Add F] in
theorem served_append (cfg : CacheConfig F) (t k : String) (h : CacheHistory F)
    (e : SemanticCache F × CacheOp) :
    served cfg t k (h ++ [e]) = serve cfg t k (served cfg t k h) e := by
  unfold served
  rw [List.foldl_append]
  rfl

theorem CacheOk.step_lookup (hs : CacheOk cfg s) (t q : String) :
    LookedUp cfg s (s.step cfg (.lookup t q)) t (used (s.view t) (cfg.answer (s.view t) q).2)
      (cfg.answer (s.view t) q).1.kind := by
  obtain ⟨s', hrun, hl⟩ := lookup_spec hs t q
  have hstep : s.step cfg (.lookup t q) = s' := congrArg Prod.snd hrun
  rw [hstep]
  exact hl

theorem CacheOk.step_store (hs : CacheOk cfg s) (t k r : String) :
    Stored cfg s (s.step cfg (.store t k r)) t (Lru.put cfg.maxEntries (s.view t) k r)
      (if k ∈ Lru.keys (s.view t) then 0 else 1) := by
  obtain ⟨s', hrun, hl⟩ := store_spec hs t k r
  have hstep : s.step cfg (.store t k r) = s' := congrArg Prod.snd hrun
  rw [hstep]
  exact hl

theorem CacheOk.step (hs : CacheOk cfg s) (o : CacheOp) : CacheOk cfg (s.step cfg o) := by
  cases o with
  | lookup t q => exact (hs.step_lookup t q).ok
  | store t k r => exact (hs.step_store t k r).ok
  | clear => exact CacheOk.new cfg

theorem CacheInv.lookup (hs : CacheInv cfg h s) (t q : String) :
    CacheInv cfg (h ++ [(s, .lookup t q)]) (SemanticCache.step cfg s (.lookup t q)) := by
  have hl := hs.ok.step_lookup t q
  have hno : CacheOp.lookup t q ≠ .clear := nofun
  refine ⟨hl.ok, fun u => ?_, fun u k => ?_, ?_, ?_, ?_, ?_⟩
  · rw [uses_append, ← keys_view]
    unfold usedBy
    by_cases hu : t = u
    · subst hu
      have hrecent := hs.recent t
      rw [← keys_view] at hrecent
      rw [hl.view]
      simp only [↓reduceIte]
      cases (cfg.answer (s.view t) q).2 with
      | none =>
        rw [Option.map_none, Option.toList_none, List.append_nil]
        exact hrecent
      | some e => exact hrecent.touch e.1 e.2
    · rw [hl.others u fun heq => hu heq.symm, keys_view]
      simp only [if_neg hu, List.append_nil]
      exact hs.recent u
  · rw [served_append]
    change _ = PennyCore.served cfg u k h
    rw [← hs.served]
    by_cases hu : u = t
    · subst hu
      rw [hl.view]
      cases hans : (cfg.answer (s.view u) q).2 with
      | none => rfl
      | some e =>
        -- the pair that is used is there already
        have hmem := Lru.lookup_of_mem (hs.ok.keys_nodup u) (cfg.answer_mem hans)
        change (Lru.touch (s.view u) e.1 e.2).lookup k = _
        rw [Lru.lookup_touch]
        split
        · rename_i hk
          rw [hk]
          exact hmem.symm
        · rfl
    · rw [hl.others u hu]
  · rw [hl.lookups, hs.lookups, lookups_append h s hno]
  · rw [hl.lookups, hl.hits, hl.misses, hs.outcomes]
    split <;> omega
  · rw [hl.hits, hl.exactHits, hl.nearHits, hs.kinds]
    cases (cfg.answer (s.view t) q).1.kind <;> simp <;> omega
  · rw [inserts_append h s hno, hs.inserts, hl.entryCount, hl.evictions, Nat.add_zero]

theorem CacheInv.store (hs : CacheInv cfg h s) (t k r : String) :
    CacheInv cfg (h ++ [(s, .store t k r)]) (SemanticCache.step cfg s (.store t k r)) := by
  have hl := hs.ok.step_store t k r
  have hno : CacheOp.store t k r ≠ .clear := nofun
  refine ⟨hl.ok, fun u => ?_, fun u k' => ?_, ?_, ?_, ?_, ?_⟩
  · rw [uses_append, ← keys_view]
    unfold usedBy
    by_cases hu : t = u
    · subst hu
      have hrecent := hs.recent t
      rw [← keys_view] at hrecent
      rw [hl.view]
      simp only [↓reduceIte]
      exact hrecent.put cfg.maxEntries k r
    · rw [hl.others u fun heq => hu heq.symm, keys_view]
      simp only [if_neg hu, List.append_nil]
      exact hs.recent u
  · rw [served_append, ← hs.served]
    change _ = if t = u then if k = k' then some r else if Evicts cfg s u k k' then none
      else (s.view u).lookup k' else (s.view u).lookup k'
    by_cases hu : t = u
    · subst hu
      rw [hl.view, Lru.lookup_put (hs.ok.keys_nodup t) (hs.ok.view_length t) cfg.maxEntries_ok,
        if_pos rfl]
      by_cases hk : k' = k
      · rw [if_pos hk, if_pos hk.symm]
      · rw [if_neg hk, if_neg (Ne.symm hk)]
        refine if_congr ?_ rfl rfl
        unfold Evicts
        rw [← keys_view]
    · rw [hl.others u fun heq => hu heq.symm, if_neg hu]
  · rw [hl.lookups, hs.lookups, lookups_append h s hno, Nat.add_zero]
  · rw [hl.lookups, hl.hits, hl.misses, hs.outcomes]
  · rw [hl.hits, hl.exactHits, hl.nearHits, hs.kinds]
  · rw [inserts_append h s hno, hs.inserts, hl.entryCount, keys_view]

theorem CacheRun.inv (hr : CacheRun cfg h s) : CacheInv cfg h s := by
  apply hr.invariant (CacheInv.new cfg)
  intro h s o _ hs _
  cases o with
  | lookup t q => exact hs.lookup t q
  | store t k r => exact hs.store t k r
  | clear => exact CacheInv.clear cfg h s

end Steps

/-! ## The guarantees -/

/-- The exact index of a namespace is a bijection of its key texts and its entry ids. -/
structure IndexBijective (ns : Dict Nat CacheEntry) (index : Dict String Nat) : Prop where
  sound : ∀ k id, index.get? k = some id → ∃ e, ns.get? id = some e ∧ e.keyText = k
  onto : ∀ id e, ns.get? id = some e → index.get? e.keyText = some id
  injective : ∀ k k' id, index.get? k = some id → index.get? k' = some id → k = k'

theorem NsOk.bijective {cap next : Nat} {ns : Dict Nat CacheEntry} {index : Dict String Nat}
    (h : NsOk cap next ns index) : IndexBijective ns index where
  sound k id hk := (h.index_iff k id).mp hk
  onto id e he := (h.index_iff e.keyText id).mpr ⟨e, he, rfl⟩
  injective k k' id hk hk' := by
    obtain ⟨e, he, rfl⟩ := (h.index_iff k id).mp hk
    obtain ⟨e', he', rfl⟩ := (h.index_iff k' id).mp hk'
    rw [he] at he'
    rw [Option.some.inj he']

/-- A store into a full namespace under a new key evicts the least recently used key, and only it; no
other store evicts anything. -/
def EvictsOldest (cfg : CacheConfig F) (h : CacheHistory F) (s s' : SemanticCache F) (t k : String) :
    Prop :=
  (∀ u, u ≠ t → s'.liveKeys u = s.liveKeys u) ∧
    if k ∉ s.liveKeys t ∧ (s.liveKeys t).length = cfg.maxEntries then
      s'.stats.evictions = s.stats.evictions + 1 ∧
        ∃ old rest, s.liveKeys t = old :: rest ∧
          (∀ k' ∈ rest, Lru.Before (uses cfg t h) old k') ∧ s'.liveKeys t = rest ++ [k]
    else
      s'.stats.evictions = s.stats.evictions ∧
        ∀ k', k' ∈ s'.liveKeys t ↔ k' = k ∨ k' ∈ s.liveKeys t

section Guarantees

variable {cfg : CacheConfig F} {h : CacheHistory F} {s : SemanticCache F}

omit [Add F] in
theorem CacheInv.evicts (hs : CacheInv cfg h s) (t k r : String) :
    ∃ s', (SemanticCache.store cfg t k r).run s = (.ok (), s') ∧ EvictsOldest cfg h s s' t k := by
  obtain ⟨s', hrun, hl⟩ := store_spec hs.ok t k r
  refine ⟨s', hrun, fun u hu => ?_, ?_⟩
  · rw [← keys_view, ← keys_view, hl.others u hu]
  have hlen : (s.liveKeys t).length = (s.view t).length := by
    rw [← keys_view]
    exact List.length_map _
  have hnd := hs.ok.keys_nodup t
  have hbound := hs.ok.view_length t
  have hrecent := (hs.recent t).ordered
  have hput : s'.liveKeys t = Lru.keys (Lru.put cfg.maxEntries (s.view t) k r) := by
    rw [← keys_view, hl.view]
  have hev := hl.evictions
  rw [hput, hev, hlen]
  simp only [← keys_view] at hrecent ⊢
  by_cases hk : k ∈ Lru.keys (s.view t)
  · rw [if_neg (fun hno => hno.1 hk), Lru.put_old hnd hk hbound, Lru.keys_touch, if_pos hk]
    refine ⟨by omega, fun k' => ?_⟩
    simp only [ne_eq, decide_not, List.mem_append, List.mem_filter, Bool.not_eq_eq_eq_not,
      Bool.not_true, decide_eq_false_iff_not, List.mem_singleton]
    tauto
  rw [if_neg hk]
  by_cases hfull : (s.view t).length = cfg.maxEntries
  · rw [if_pos ⟨hk, hfull⟩, Lru.put_full hk hfull cfg.maxEntries_ok]
    refine ⟨by omega, ?_⟩
    cases hview : s.view t with
    | nil =>
      rw [hview] at hfull
      exact absurd hfull (Nat.ne_of_lt cfg.maxEntries_ok)
    | cons e l =>
      rw [hview] at hrecent
      exact ⟨e.1, Lru.keys l, rfl, (List.pairwise_cons.mp hrecent).1, List.map_append⟩
  · rw [if_neg (fun hno => hfull hno.2), Lru.put_room hk (Nat.lt_of_le_of_ne hbound hfull)]
    refine ⟨by omega, fun k' => ?_⟩
    unfold Lru.keys
    rw [List.map_append, List.mem_append, List.map_singleton, List.mem_singleton, or_comm]

/-- In every state of every run the cache keeps its invariants. -/
theorem semanticCache_guarantees (hr : CacheRun cfg h s) :
    (∀ t, IndexBijective (s.ns t) (s.index t)) ∧
    (∀ t, (s.ns t).entries.length ≤ cfg.maxEntries) ∧
    (∀ t, Lru.Recent (uses cfg t h) (s.liveKeys t)) ∧
    (∀ t k r, ∃ s', (SemanticCache.store cfg t k r).run s = (.ok (), s') ∧
      EvictsOldest cfg h s s' t k) ∧
    (∀ t q, ((SemanticCache.lookup cfg t q).run s).1 = .ok (cfg.answer (s.view t) q).1) ∧
    (∀ t k r, served cfg t k h = some r →
      ((SemanticCache.lookup cfg t k).run s).1 = .ok (.found r 1 .exact)) ∧
    s.stats.lookups = lookups h ∧
    s.stats.lookups = s.stats.hits + s.stats.misses ∧
    s.stats.hits = s.stats.exactHits + s.stats.nearHits ∧
    inserts h = s.entryCount + s.stats.evictions := by
  have hs := hr.inv
  have hlookup : ∀ t q, ((SemanticCache.lookup cfg t q).run s).1 =
      .ok (cfg.answer (s.view t) q).1 := fun t q => by
    obtain ⟨s', hrun, -⟩ := lookup_spec hs.ok t q
    rw [hrun]
  refine ⟨fun t => (hs.ok t).bijective, fun t => (hs.ok t).bounded, hs.recent, hs.evicts, hlookup,
    fun t k r hr => ?_, hs.lookups, hs.outcomes, hs.kinds, hs.inserts⟩
  rw [hlookup, cfg.answer_exact ((hs.served t k).trans hr)]

end Guarantees

/-- A cache of two entries in which only the same text is similar. -/
def twoEntries : CacheConfig Nat where
  sim a b := if a = b then 1 else 0
  threshold := 1
  exactSim := 1
  entryCost _ _ := 0
  maxEntries := 2
  threshold_ok := by decide
  maxEntries_ok := by decide

/-- Two stores, a hit of the first and a third store. -/
theorem semanticCache_guarantees_fourCalls :
    ∃ h s, CacheRun twoEntries h s ∧ s.liveKeys "t" = ["a", "c"] ∧
      inserts h = s.entryCount + s.stats.evictions := by
  have hr : CacheRun twoEntries _ _ := Run.ofOps (Run.Legal.of_forall (fun _ _ => trivial) _
    [.store "t" "a" "1", .store "t" "b" "2", .lookup "t" "a", .store "t" "c" "3"])
  exact ⟨_, _, hr, by decide, (semanticCache_guarantees hr).2.2.2.2.2.2.2.2.2⟩

end PennyCore
