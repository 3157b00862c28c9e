import PennyCore.ContextEngine.SemanticCache
import PennyCore.Lib.Lru

/-!
# The semantic cache as a family of caches

For each tenant the cache is a list of pairs of key text and response in the order of use
(`SemanticCache.view`), and its calls are those of such a list:

* `CacheConfig.answer l q`: what a lookup answers on the pairs `l`, and the pair that it uses.
  `lookup_spec`: so answers `lookup`, and the pair becomes the most recent one.
* `store_spec`: `store` puts the pair (`Lru.put`).
* `CacheOk` is the invariant that carries this: the exact index of a tenant and its entries are in
  step.
-/

namespace PennyCore

open Lib

variable {F : Type} [LinearOrder F] [Zero F] [One F]

/-! ## The abstract cache -/

/-- The nearest pair, and its similarity. -/
def CacheConfig.near (cfg : CacheConfig F) (query : String) (l : List (String × String)) :
    Option (String × String) × F :=
  l.foldl (fun best e =>
    if best.2 < cfg.sim query e.1 then (some e, cfg.sim query e.1) else best) (none, 0)

def CacheResult.found (response : String) (similarity : F) (kind : HitKind) : CacheResult F :=
  { hit := true, response := some response, similarity, kind }

def CacheResult.missed (similarity : F) : CacheResult F :=
  { hit := false, response := none, similarity, kind := .miss }

/-- What a lookup answers on the pairs, and the pair that it uses. -/
def CacheConfig.answer (cfg : CacheConfig F) (l : List (String × String)) (q : String) :
    CacheResult F × Option (String × String) :=
  if l.isEmpty then (.missed 0, none)
  else
    match l.lookup q with
    | some r => (.found r 1 .exact, some (q, r))
    | none =>
      match cfg.near q l with
      | (some e, sim) =>
        if cfg.threshold ≤ sim then
          (.found e.2 sim (if cfg.exactSim ≤ sim then .exact else .near), some e)
        else (.missed sim, none)
      | (none, sim) => (.missed sim, none)

/-- The pairs after the use of one. -/
def used (l : List (String × String)) : Option (String × String) → List (String × String)
  | some e => Lru.touch l e.1 e.2
  | none => l

theorem CacheConfig.answer_hit (cfg : CacheConfig F) (l : List (String × String)) (q : String) :
    (cfg.answer l q).1.hit = (cfg.answer l q).2.isSome ∧
      (cfg.answer l q).1.response = (cfg.answer l q).2.map Prod.snd := by
  unfold answer
  split
  · exact ⟨rfl, rfl⟩
  · split
    · exact ⟨rfl, rfl⟩
    · split
      · split <;> exact ⟨rfl, rfl⟩
      · exact ⟨rfl, rfl⟩

/-- A key that is there is found. -/
theorem CacheConfig.answer_exact (cfg : CacheConfig F) {l : List (String × String)} {q r : String}
    (h : l.lookup q = some r) : cfg.answer l q = (.found r 1 .exact, some (q, r)) := by
  have hne : ¬ l.isEmpty := fun hnil => by
    rw [List.isEmpty_iff.mp hnil] at h
    cases h
  unfold answer
  rw [if_neg hne, h]

/-- The nearest pair is one of the pairs. -/
theorem CacheConfig.near_mem (cfg : CacheConfig F) (q : String) (l : List (String × String)) :
    ∀ e ∈ (cfg.near q l).1, e ∈ l ∧ (cfg.near q l).2 = cfg.sim q e.1 := by
  unfold near
  suffices h : ∀ (l : List (String × String)) (b : Option (String × String) × F),
      (∀ e ∈ b.1, b.2 = cfg.sim q e.1) →
      ∀ e ∈ (l.foldl (fun best e =>
        if best.2 < cfg.sim q e.1 then (some e, cfg.sim q e.1) else best) b).1,
      (e ∈ b.1 ∨ e ∈ l) ∧ (l.foldl (fun best e =>
        if best.2 < cfg.sim q e.1 then (some e, cfg.sim q e.1) else best) b).2 = cfg.sim q e.1 by
    intro e he
    obtain ⟨hin, hsim⟩ := h l (none, 0) (fun e he => nomatch he) e he
    exact ⟨hin.resolve_left fun hno => (nomatch hno), hsim⟩
  intro l
  induction l with
  | nil => exact fun b hb e he => ⟨.inl he, hb e he⟩
  | cons x l ih =>
    intro b hb e he
    rw [List.foldl_cons] at he ⊢
    by_cases hlt : b.2 < cfg.sim q x.1
    · rw [if_pos hlt] at he ⊢
      obtain ⟨hin, hsim⟩ := ih (some x, cfg.sim q x.1) (fun y hy => by cases hy; rfl) e he
      refine ⟨.inr ?_, hsim⟩
      rcases hin with hin | hin
      · cases hin
        exact List.mem_cons_self
      · exact List.mem_cons_of_mem x hin
    · rw [if_neg hlt] at he ⊢
      obtain ⟨hin, hsim⟩ := ih b hb e he
      exact ⟨hin.imp_right (List.mem_cons_of_mem x), hsim⟩

/-- The pair that a lookup uses is one of the pairs. -/
theorem CacheConfig.answer_mem (cfg : CacheConfig F) {l : List (String × String)} {q : String}
    {e : String × String} (h : (cfg.answer l q).2 = some e) : e ∈ l := by
  unfold answer at h
  split at h
  · cases h
  · split at h
    · rename_i r hr
      cases h
      exact Lru.mem_of_lookup hr
    · split at h
      · rename_i e' sim hnear
        split at h
        · cases h
          exact (cfg.near_mem q l e (by rw [hnear]; rfl)).1
        · cases h
      · cases h

/-- A lookup adds no pair. -/
theorem CacheConfig.mem_used (cfg : CacheConfig F) {l : List (String × String)} {q : String}
    {e : String × String} (h : e ∈ used l (cfg.answer l q).2) : e ∈ l := by
  cases hans : (cfg.answer l q).2 with
  | none => rwa [hans] at h
  | some e' =>
    rw [hans] at h
    rcases Lru.mem_touch.mp h with ⟨h, -⟩ | rfl
    · exact h
    · exact cfg.answer_mem hans

/-! ## Namespaces -/

/-- Key text and response of an entry. -/
def CacheEntry.pair (e : CacheEntry) : String × String := (e.keyText, e.response)

/-- The pairs of a namespace, from the least to the most recently used. -/
def pairs (ns : Dict Nat CacheEntry) : List (String × String) := ns.entries.map fun e => e.2.pair

/-- The entries of a namespace and its exact index are in step. -/
structure NsOk (maxEntries nextId : Nat) (ns : Dict Nat CacheEntry) (index : Dict String Nat) :
    Prop where
  index_iff : ∀ k id, index.get? k = some id ↔ ∃ e, ns.get? id = some e ∧ e.keyText = k
  fresh : ∀ id e, ns.get? id = some e → id < nextId
  bounded : ns.entries.length ≤ maxEntries

section Namespaces

variable {cap next : Nat} {ns : Dict Nat CacheEntry} {index : Dict String Nat}

theorem NsOk.empty (cap next : Nat) : NsOk cap next ∅ ∅ :=
  ⟨fun _ _ => ⟨(fun h => nomatch h), fun ⟨_, h, _⟩ => nomatch h⟩, (fun _ _ h => nomatch h),
    Nat.zero_le _⟩

/-- Two entries with one key text are the same. -/
theorem NsOk.unique (h : NsOk cap next ns index) {id id' : Nat} {e e' : CacheEntry}
    (he : ns.get? id = some e) (he' : ns.get? id' = some e') (hk : e.keyText = e'.keyText) :
    id = id' := by
  have h1 := (h.index_iff _ _).mpr ⟨e, he, hk⟩
  have h2 := (h.index_iff _ _).mpr ⟨e', he', rfl⟩
  rw [h1] at h2
  exact Option.some.inj h2

theorem NsOk.keys_nodup (h : NsOk cap next ns index) : (Lru.keys (pairs ns)).Nodup := by
  unfold Lru.keys pairs
  rw [List.map_map]
  refine List.Nodup.map_on (fun x hx y hy hxy => ?_) (List.Nodup.of_map _ ns.nodup)
  obtain ⟨id, e⟩ := x
  obtain ⟨id', e'⟩ := y
  rw [← Dict.get?_eq_some] at hx hy
  obtain rfl := h.unique hx hy hxy
  rw [hx] at hy
  rw [Option.some.inj hy]

theorem NsOk.view_length (h : NsOk cap next ns index) : (pairs ns).length ≤ cap :=
  Nat.le_trans (Nat.le_of_eq (List.length_map _)) h.bounded

theorem mem_pairs {k r : String} : (k, r) ∈ pairs ns ↔
    ∃ id e, ns.get? id = some e ∧ e.keyText = k ∧ e.response = r := by
  unfold pairs CacheEntry.pair
  simp only [List.mem_map, Prod.exists, Prod.mk.injEq, Dict.get?_eq_some]

theorem key_mem_pairs {id : Nat} {e : CacheEntry}
    (he : ns.get? id = some e) : e.keyText ∈ Lru.keys (pairs ns) :=
  List.mem_map.mpr ⟨(e.keyText, e.response), mem_pairs.mpr ⟨id, e, he, rfl, rfl⟩, rfl⟩

/-- The exact index finds what a lookup among the pairs finds. -/
theorem NsOk.lookup_some (h : NsOk cap next ns index) {k : String} {id : Nat}
    (hi : index.get? k = some id) :
    ∃ e, ns.get? id = some e ∧ e.keyText = k ∧ (pairs ns).lookup k = some e.response := by
  obtain ⟨e, he, hk⟩ := (h.index_iff _ _).mp hi
  exact ⟨e, he, hk, Lru.lookup_of_mem h.keys_nodup (mem_pairs.mpr ⟨id, e, he, hk, rfl⟩)⟩

theorem NsOk.lookup_none (h : NsOk cap next ns index) {k : String} :
    index.get? k = none ↔ k ∉ Lru.keys (pairs ns) := by
  constructor
  · intro hi hk
    obtain ⟨⟨k', r⟩, hmem, rfl⟩ := List.mem_map.mp hk
    obtain ⟨id, e, he, hkey, -⟩ := mem_pairs.mp hmem
    rw [(h.index_iff _ _).mpr ⟨e, he, hkey⟩] at hi
    cases hi
  · intro hk
    cases hi : index.get? k with
    | none => rfl
    | some id =>
      obtain ⟨e, he, rfl⟩ := (h.index_iff _ _).mp hi
      exact absurd (key_mem_pairs he) hk

/-- An entry that is changed, but for its key, and moved to the end. -/
theorem NsOk.touched (h : NsOk cap next ns index) {id : Nat} {e e' : CacheEntry}
    (he : ns.get? id = some e) (hk : e'.keyText = e.keyText) :
    NsOk cap next ((ns.set id e').moveToEnd id) index ∧
      pairs ((ns.set id e').moveToEnd id) = Lru.touch (pairs ns) e.keyText e'.response := by
  have hpairs : pairs ((ns.set id e').moveToEnd id) = Lru.touch (pairs ns) e.keyText e'.response := by
    unfold pairs Lru.touch
    rw [Dict.entries_set_moveToEnd, List.map_append, List.filter_map]
    refine congrArg₂ (· ++ ·) (congrArg _ (List.filter_congr fun x hx => ?_)) ?_
    · obtain ⟨id', x⟩ := x
      rw [← Dict.get?_eq_some] at hx
      by_cases hid : id' = id
      · subst hid
        rw [he] at hx
        simp [CacheEntry.pair, Option.some.inj hx]
      · have hne : x.keyText ≠ e.keyText := fun heq => hid (h.unique hx he heq)
        simp [CacheEntry.pair, hid, hne]
    · simp [CacheEntry.pair, hk]
  refine ⟨⟨fun k i => ?_, fun i x hx => ?_, ?_⟩, hpairs⟩
  · rw [h.index_iff, Dict.get?_moveToEnd, Dict.get?_set]
    by_cases hi : i = id
    · subst hi
      simp [he, hk]
    · simp [hi]
  · rw [Dict.get?_moveToEnd, Dict.get?_set] at hx
    split at hx
    · rename_i heq
      rw [heq]
      exact h.fresh id e he
    · exact h.fresh i x hx
  · have hlen := congrArg List.length hpairs
    rw [Lru.length_touch h.keys_nodup (key_mem_pairs he)] at hlen
    unfold pairs at hlen
    rw [List.length_map, List.length_map] at hlen
    rw [hlen]
    exact h.bounded

/-- A new entry, before the eviction. -/
theorem NsOk.grown (h : NsOk cap next ns index) {e : CacheEntry}
    (hk : index.get? e.keyText = none) :
    NsOk (cap + 1) (next + 1) ((ns.set next e).moveToEnd next) (index.set e.keyText next) ∧
      pairs ((ns.set next e).moveToEnd next) = pairs ns ++ [e.pair] := by
  have hnew : ns.get? next = none := by
    cases hx : ns.get? next with
    | none => rfl
    | some x => exact absurd (h.fresh next x hx) (Nat.lt_irrefl next)
  have hpairs : pairs ((ns.set next e).moveToEnd next) = pairs ns ++ [e.pair] := by
    unfold pairs
    rw [Dict.entries_set_moveToEnd, List.map_append, List.filter_eq_self.mpr fun x hx => ?_]
    · rfl
    · obtain ⟨id, x⟩ := x
      rw [← Dict.get?_eq_some] at hx
      have hne : id ≠ next := Nat.ne_of_lt (h.fresh id x hx)
      simpa using hne
  refine ⟨⟨fun k i => ?_, fun i x hx => ?_, ?_⟩, hpairs⟩
  · rw [Dict.get?_set, Dict.get?_moveToEnd, Dict.get?_set]
    by_cases hkk : k = e.keyText
    · subst hkk
      by_cases hi : i = next
      · simp [hi]
      · rw [if_pos rfl, if_neg hi]
        refine ⟨fun heq => absurd (Option.some.inj heq).symm hi, fun hx => ?_⟩
        rw [← h.index_iff, hk] at hx
        cases hx
    · by_cases hi : i = next
      · subst hi
        rw [if_neg hkk, if_pos rfl]
        refine ⟨fun hx => ?_, fun ⟨x, hx, hxk⟩ => ?_⟩
        · obtain ⟨x, hx, -⟩ := (h.index_iff _ _).mp hx
          rw [hnew] at hx
          cases hx
        · cases hx
          exact absurd hxk.symm hkk
      · rw [if_neg hkk, if_neg hi]
        exact h.index_iff k i
  · rw [Dict.get?_moveToEnd, Dict.get?_set] at hx
    split at hx
    · rename_i heq
      rw [heq]
      exact Nat.lt_succ_self next
    · exact Nat.lt_succ_of_lt (h.fresh i x hx)
  · have hlen := congrArg List.length hpairs
    unfold pairs at hlen
    rw [List.length_map, List.length_append, List.length_map, List.length_singleton] at hlen
    rw [hlen]
    exact Nat.succ_le_succ h.bounded

/-- The eviction after a new entry drops the least recent one if there is one too many. -/
theorem NsOk.evicted (h : NsOk (cap + 1) next ns index) {turns : Nat} (ht : 0 < turns)
    (evictions : Nat) :
    ∃ ns' index', SemanticCache.evictIfNeeded cap turns ns index evictions =
        (ns', index', evictions + (ns.entries.length - cap)) ∧
      NsOk cap next ns' index' ∧ pairs ns' = (pairs ns).drop (ns.entries.length - cap) := by
  obtain ⟨n, rfl⟩ := Nat.exists_eq_succ_of_ne_zero (Nat.ne_of_gt ht)
  unfold SemanticCache.evictIfNeeded
  by_cases hle : ns.entries.length ≤ cap
  · rw [if_neg (Nat.not_lt.mpr hle), Nat.sub_eq_zero_of_le hle]
    exact ⟨ns, index, rfl, ⟨h.index_iff, h.fresh, hle⟩, rfl⟩
  · have hlen : ns.entries.length = cap + 1 := Nat.le_antisymm h.bounded (Nat.not_le.mp hle)
    rw [if_pos (Nat.not_le.mp hle), hlen, Nat.add_sub_cancel_left]
    obtain ⟨⟨id₀, e₀⟩, rest, hrest⟩ : ∃ x rest, ns.entries = x :: rest :=
      List.exists_cons_of_length_pos (by omega)
    have hget : ns.get? id₀ = some e₀ := by
      rw [Dict.get?_eq_some, hrest]
      exact List.mem_cons_self
    have htail : ns.tail.entries.length = cap := by
      change ns.entries.tail.length = cap
      rw [List.length_tail, hlen]
      rfl
    have hidx : index.get? e₀.keyText = some id₀ := (h.index_iff _ _).mpr ⟨e₀, hget, rfl⟩
    -- the second turn finds nothing to do
    have hstop : ∀ index' evictions', SemanticCache.evictIfNeeded cap n ns.tail index' evictions' =
        (ns.tail, index', evictions') := fun index' evictions' => by
      cases n with
      | zero => rfl
      | succ n =>
        unfold SemanticCache.evictIfNeeded
        rw [if_neg (by omega)]
    refine ⟨ns.tail, index.erase e₀.keyText, ?_,
      ⟨fun k i => ?_, fun i x hx => ?_, Nat.le_of_eq htail⟩, ?_⟩
    · split
      · rename_i hnil
        rw [hrest] at hnil
        cases hnil
      · rename_i i e tl hcons
        rw [hrest] at hcons
        cases hcons
        rw [hstop, if_pos hidx]
    · rw [Dict.get?_erase, Dict.get?_tail hrest]
      by_cases hk : k = e₀.keyText
      · subst hk
        rw [if_pos rfl]
        refine ⟨fun hno => (nomatch hno), fun ⟨x, hx, hxk⟩ => ?_⟩
        split at hx
        · cases hx
        · rename_i hne
          exact absurd (h.unique hx hget hxk) hne
      · rw [if_neg hk, h.index_iff]
        by_cases hi : i = id₀
        · subst hi
          rw [if_pos rfl, hget]
          refine ⟨fun ⟨x, hx, hxk⟩ => ?_, fun ⟨x, hx, _⟩ => nomatch hx⟩
          cases hx
          exact absurd hxk.symm hk
        · rw [if_neg hi]
    · rw [Dict.get?_tail hrest] at hx
      split at hx
      · cases hx
      · exact h.fresh i x hx
    · unfold pairs
      rw [List.drop_one, ← List.map_tail]
      rfl

/-- The scan of the entries finds the nearest pair. -/
theorem nearest_pairs (cfg : CacheConfig F) (q : String) (ns : Dict Nat CacheEntry) :
    (SemanticCache.nearest cfg q ns.entries).2 = (cfg.near q (pairs ns)).2 ∧
      (∀ id ∈ (SemanticCache.nearest cfg q ns.entries).1, ∃ x, ns.get? id = some x ∧
        (cfg.near q (pairs ns)).1 = some x.pair) ∧
      ((SemanticCache.nearest cfg q ns.entries).1 = none → (cfg.near q (pairs ns)).1 = none) := by
  unfold SemanticCache.nearest CacheConfig.near pairs
  suffices h : ∀ (l : List (Nat × CacheEntry)) (b : Option Nat × F)
      (b' : Option (String × String) × F), (∀ x ∈ l, ns.get? x.1 = some x.2) →
      (b.2 = b'.2 ∧ (∀ id ∈ b.1, ∃ x, ns.get? id = some x ∧ b'.1 = some x.pair) ∧
        (b.1 = none → b'.1 = none)) →
      let e := l.foldl (fun best e => if best.2 < cfg.sim q e.2.keyText then
        (some e.1, cfg.sim q e.2.keyText) else best) b
      let e' := (l.map fun e => e.2.pair).foldl (fun best e => if best.2 < cfg.sim q e.1 then
        (some e, cfg.sim q e.1) else best) b'
      e.2 = e'.2 ∧ (∀ id ∈ e.1, ∃ x, ns.get? id = some x ∧ e'.1 = some x.pair) ∧
        (e.1 = none → e'.1 = none) by
    exact h ns.entries (none, 0) (none, 0) (fun x hx => Dict.get?_eq_some.mpr hx)
      ⟨rfl, fun _ h => absurd h (Option.not_mem_none _), fun _ => rfl⟩
  intro l
  induction l with
  | nil => exact fun b b' _ hb => hb
  | cons x l ih =>
    intro b b' hl hb
    refine ih _ _ (fun y hy => hl y (List.mem_cons_of_mem x hy)) ?_
    have hlt : b.2 < cfg.sim q x.2.keyText ↔ b'.2 < cfg.sim q x.2.pair.1 := by
      rw [hb.1]
      rfl
    by_cases h : b.2 < cfg.sim q x.2.keyText
    · simp only
      rw [if_pos h, if_pos (hlt.mp h)]
      refine ⟨rfl, fun id hid => ?_, fun hno => absurd hno (Option.some_ne_none _)⟩
      cases hid
      exact ⟨x.2, hl x List.mem_cons_self, rfl⟩
    · simp only
      rw [if_neg h, if_neg fun h' => h (hlt.mpr h')]
      exact hb

end Namespaces

/-! ## The cache of a tenant -/

/-- The pairs of a tenant. -/
def SemanticCache.view (s : SemanticCache F) (tenantId : String) : List (String × String) :=
  pairs (s.ns tenantId)

def CacheOk (cfg : CacheConfig F) (s : SemanticCache F) : Prop :=
  ∀ t, NsOk cfg.maxEntries s.nextId (s.ns t) (s.index t)

theorem CacheOk.keys_nodup {cfg : CacheConfig F} {s : SemanticCache F} (hs : CacheOk cfg s)
    (t : String) : (Lru.keys (s.view t)).Nodup :=
  NsOk.keys_nodup (hs t)

theorem CacheOk.view_length {cfg : CacheConfig F} {s : SemanticCache F} (hs : CacheOk cfg s)
    (t : String) : (s.view t).length ≤ cfg.maxEntries :=
  NsOk.view_length (hs t)

/-- A call for `t` left the pairs `l` for `t`, and for the others what they had. -/
structure Kept (cfg : CacheConfig F) (s s' : SemanticCache F) (t : String)
    (l : List (String × String)) : Prop where
  ok : CacheOk cfg s'
  view : s'.view t = l
  others : ∀ u, u ≠ t → s'.view u = s.view u

/-- A lookup for `t` used one of its pairs, or none, and was counted. -/
structure LookedUp (cfg : CacheConfig F) (s s' : SemanticCache F) (t : String)
    (l : List (String × String)) (kind : HitKind) : Prop extends Kept cfg s s' t l where
  entryCount : s'.entryCount = s.entryCount
  evictions : s'.stats.evictions = s.stats.evictions
  lookups : s'.stats.lookups = s.stats.lookups + 1
  hits : s'.stats.hits = s.stats.hits + if kind = .miss then 0 else 1
  misses : s'.stats.misses = s.stats.misses + if kind = .miss then 1 else 0
  exactHits : s'.stats.exactHits = s.stats.exactHits + if kind = .exact then 1 else 0
  nearHits : s'.stats.nearHits = s.stats.nearHits + if kind = .near then 1 else 0

/-- A store for `t` put a pair; `n` is the number of keys that were new. -/
structure Stored (cfg : CacheConfig F) (s s' : SemanticCache F) (t : String)
    (l : List (String × String)) (n : Nat) : Prop extends Kept cfg s s' t l where
  entryCount : s'.entryCount + s'.stats.evictions = s.entryCount + s.stats.evictions + n
  evictions : s'.stats.evictions = s.stats.evictions + ((s.view t).length + n - cfg.maxEntries)
  lookups : s'.stats.lookups = s.stats.lookups
  hits : s'.stats.hits = s.stats.hits
  misses : s'.stats.misses = s.stats.misses
  exactHits : s'.stats.exactHits = s.stats.exactHits
  nearHits : s'.stats.nearHits = s.stats.nearHits

theorem CacheOk.new (cfg : CacheConfig F) : CacheOk cfg (SemanticCache.new F) :=
  fun _ => NsOk.empty cfg.maxEntries 0

section Steps

variable {cfg : CacheConfig F} {s s' : SemanticCache F} {t : String} {ns : Dict Nat CacheEntry}
  {index : Dict String Nat}

/-- A step that writes the namespace of `t`, and its index. -/
theorem CacheOk.wrote (hs : CacheOk cfg s) (hns : s'.namespaces = s.namespaces.set t ns)
    (hindex : ∀ u, s'.index u = if u = t then index else s.index u) (hnext : s.nextId ≤ s'.nextId)
    (ok : NsOk cfg.maxEntries s'.nextId ns index) :
    Kept cfg s s' t (pairs ns) ∧
      s'.entryCount + (s.ns t).entries.length = s.entryCount + ns.entries.length := by
  have hget : ∀ u, s'.ns u = if u = t then ns else s.ns u := fun u => by
    unfold SemanticCache.ns
    rw [hns]
    exact Dict.getD_set s.namespaces t u ns ∅
  refine ⟨⟨fun u => ?_, ?_, fun u hu => ?_⟩, ?_⟩
  · rw [hget, hindex]
    by_cases hu : u = t
    · rw [if_pos hu, if_pos hu]
      exact ok
    · rw [if_neg hu, if_neg hu]
      exact ⟨(hs u).index_iff, fun id e he => Nat.lt_of_lt_of_le ((hs u).fresh id e he) hnext,
        (hs u).bounded⟩
  · unfold SemanticCache.view
    rw [hget, if_pos rfl]
  · unfold SemanticCache.view
    rw [hget, if_neg hu]
  · have htotal := Dict.total_set (fun ns => ns.entries.length) s.namespaces t ns
    unfold SemanticCache.entryCount SemanticCache.ns
    rw [hns, ← htotal]
    cases s.namespaces.get? t <;> rfl

/-! ## Lookup -/

theorem recordMiss_spec (hs : CacheOk cfg s) (sim : F) :
    ∃ s', (SemanticCache.recordMiss sim).run
        { s with stats := { s.stats with lookups := s.stats.lookups + 1 } } = (.ok (.missed sim), s') ∧
      LookedUp cfg s s' t (s.view t) .miss :=
  ⟨_, rfl, ⟨⟨hs, rfl, fun _ _ => rfl⟩, rfl, rfl, rfl, rfl, rfl, rfl, rfl⟩⟩

theorem recordHit_spec [Add F] (hs : CacheOk cfg s) {id : Nat} {e : CacheEntry}
    (he : (s.ns t).get? id = some e) (sim : F) {kind : HitKind} (hkind : kind ≠ .miss) :
    ∃ s', (SemanticCache.recordHit cfg t id sim kind).run
        { s with stats := { s.stats with lookups := s.stats.lookups + 1 } } =
          (.ok (.found e.response sim kind), s') ∧
      LookedUp cfg s s' t (Lru.touch (s.view t) e.keyText e.response) kind := by
  let hit : CacheEntry := { e with hits := e.hits + 1 }
  obtain ⟨ok, hpairs⟩ := (hs t).touched he (rfl : hit.keyText = e.keyText)
  have hindex : ∀ u, s.index u = if u = t then s.index t else s.index u := fun u => by
    split
    · rename_i h
      rw [h]
    · rfl
  have hwrote : ∀ stats, Kept cfg s ⟨s.namespaces.set t (((s.ns t).set id hit).moveToEnd id), s.exact,
      s.nextId, stats⟩ t (pairs (((s.ns t).set id hit).moveToEnd id)) ∧ _ := fun stats =>
    hs.wrote rfl hindex (Nat.le_refl _) ok
  have hlen := congrArg List.length hpairs
  rw [Lru.length_touch (hs t).keys_nodup (key_mem_pairs he)] at hlen
  unfold pairs at hlen
  rw [List.length_map, List.length_map] at hlen
  unfold SemanticCache.recordHit
  have hfound : (({ s with stats := { s.stats with lookups := s.stats.lookups + 1 } } :
      SemanticCache F).ns t).get? id = some e := he
  rw [Py.run_bind_ok (Py.run_get _), hfound]
  refine ⟨_, rfl, ⟨⟨(hwrote _).1.ok, (hwrote _).1.view.trans hpairs, (hwrote _).1.others⟩, ?_, rfl,
    rfl, ?_, ?_, ?_, ?_⟩⟩
  · have hcount := (hwrote s.stats).2
    rw [hlen] at hcount
    exact Nat.add_right_cancel hcount
  all_goals cases kind <;> first | rfl | exact absurd rfl hkind

/-- A lookup answers what the pairs answer. -/
theorem lookup_spec [Add F] (hs : CacheOk cfg s) (t q : String) :
    ∃ s', (SemanticCache.lookup cfg t q).run s = (.ok (cfg.answer (s.view t) q).1, s') ∧
      LookedUp cfg s s' t (used (s.view t) (cfg.answer (s.view t) q).2)
        (cfg.answer (s.view t) q).1.kind := by
  unfold SemanticCache.lookup CacheConfig.answer
  rw [Py.run_bind_ok (Py.run_modify _ _), Py.run_bind_ok (Py.run_get _)]
  have hempty : (s.view t).isEmpty = (s.ns t).entries.isEmpty := List.isEmpty_map
  -- counting the lookup leaves the entries and the index as they are
  obtain ⟨counted, hcounted⟩ : ∃ u : SemanticCache F,
      u = { s with stats := { s.stats with lookups := s.stats.lookups + 1 } } := ⟨_, rfl⟩
  have hns : counted.ns t = s.ns t := by
    rw [hcounted]
    rfl
  have hix : counted.index t = s.index t := by
    rw [hcounted]
    rfl
  rw [hempty, ← hcounted, hns, hix]
  subst hcounted
  by_cases hnil : (s.ns t).entries.isEmpty
  · rw [if_pos hnil, if_pos hnil]
    exact recordMiss_spec hs 0
  rw [if_neg hnil, if_neg hnil]
  cases hindex : (s.index t).get? q with
  | some id =>
    obtain ⟨e, he, hk, hlook⟩ := (hs t).lookup_some hindex
    unfold SemanticCache.view
    simp only [hlook, used]
    obtain ⟨s', hrun, hlooked⟩ := recordHit_spec hs he (1 : F) (by decide : HitKind.exact ≠ .miss)
    rw [hk] at hlooked
    exact ⟨s', hrun, hlooked⟩
  | none =>
    have hlook : (s.view t).lookup q = none :=
      Lru.lookup_eq_none.mpr ((hs t).lookup_none.mp hindex)
    obtain ⟨hsim, hsome, hnone⟩ := nearest_pairs cfg q (s.ns t)
    simp only [hlook]
    unfold SemanticCache.view at hlook ⊢
    rcases hnear : SemanticCache.nearest cfg q (s.ns t).entries with ⟨best, sim⟩
    rcases habs : cfg.near q (pairs (s.ns t)) with ⟨best', sim'⟩
    rw [hnear, habs] at hsim hsome hnone
    simp only at hsim hsome hnone ⊢
    subst hsim
    cases best with
    | none =>
      rw [hnone rfl]
      exact recordMiss_spec hs sim
    | some id =>
      obtain ⟨e, he, rfl⟩ := hsome id rfl
      simp only
      by_cases hthr : cfg.threshold ≤ sim
      · rw [if_pos hthr, if_pos hthr]
        have hkind : (if cfg.exactSim ≤ sim then HitKind.exact else .near) ≠ .miss := by
          split <;> decide
        exact recordHit_spec hs he sim hkind
      · rw [if_neg hthr, if_neg hthr]
        exact recordMiss_spec hs sim

/-! ## Store -/

/-- A store of a known key. -/
theorem store_known (hs : CacheOk cfg s) {k : String} (hk : k ∈ Lru.keys (s.view t)) (r : String) :
    ∃ s', (SemanticCache.store cfg t k r).run s = (.ok (), s') ∧
      Stored cfg s s' t (Lru.put cfg.maxEntries (s.view t) k r) 0 := by
  obtain ⟨id, hindex⟩ : ∃ id, (s.index t).get? k = some id :=
    Option.ne_none_iff_exists'.mp fun hno => (hs t).lookup_none.mp hno hk
  obtain ⟨e, he, rfl, -⟩ := (hs t).lookup_some hindex
  let entry : CacheEntry := { e with response := r, outputTokens := estimateTokens r }
  obtain ⟨ok, hpairs⟩ := (hs t).touched he (rfl : entry.keyText = e.keyText)
  have hbound : (s.view t).length ≤ cfg.maxEntries := hs.view_length t
  have hput := Lru.put_old (hs t).keys_nodup hk hbound r
  have hlen := congrArg List.length hpairs
  rw [Lru.length_touch (hs t).keys_nodup hk] at hlen
  unfold pairs at hlen
  rw [List.length_map, List.length_map] at hlen
  have hwrote : ∀ stats, Kept cfg s ⟨s.namespaces.set t (((s.ns t).set id entry).moveToEnd id),
      s.exact.set t (s.index t), s.nextId, stats⟩ t
        (pairs (((s.ns t).set id entry).moveToEnd id)) ∧ _ := fun stats =>
    hs.wrote rfl (fun u => Dict.getD_set s.exact t u _ ∅) (Nat.le_refl _) ok
  unfold SemanticCache.store
  rw [Py.run_bind_ok (Py.run_get _)]
  simp only [hindex, he]
  refine ⟨_, rfl, ⟨⟨(hwrote _).1.ok, ?_, (hwrote _).1.others⟩, ?_, ?_, rfl, rfl, rfl, rfl, rfl⟩⟩
  · exact (hwrote _).1.view.trans (hpairs.trans hput.symm)
  · have hcount := (hwrote s.stats).2
    rw [hlen] at hcount
    exact congrArg (· + s.stats.evictions) (Nat.add_right_cancel hcount)
  · rw [Nat.add_zero, Nat.sub_eq_zero_of_le hbound]
    rfl

/-- A store of a new key. -/
theorem store_new (hs : CacheOk cfg s) {k : String} (hk : k ∉ Lru.keys (s.view t)) (r : String) :
    ∃ s', (SemanticCache.store cfg t k r).run s = (.ok (), s') ∧
      Stored cfg s s' t (Lru.put cfg.maxEntries (s.view t) k r) 1 := by
  have hindex : (s.index t).get? k = none := (hs t).lookup_none.mpr hk
  obtain ⟨hgrown, hpairs⟩ := (hs t).grown (e := {
    keyText := k, response := r, inputTokens := estimateTokens k
    outputTokens := estimateTokens r }) hindex
  have hlen := congrArg List.length hpairs
  unfold pairs at hlen
  rw [List.length_map, List.length_append, List.length_map, List.length_singleton] at hlen
  obtain ⟨ns', index', hevict, ok, hkept⟩ :=
    hgrown.evicted (Nat.lt_of_lt_of_eq (Nat.succ_pos _) hlen.symm) s.stats.evictions
  have hlen' := congrArg List.length hkept
  rw [List.length_drop] at hlen'
  unfold pairs at hlen'
  rw [List.length_map, List.length_map] at hlen'
  have hview : (s.view t).length = (s.ns t).entries.length := List.length_map _
  have hwrote : ∀ stats, Kept cfg s ⟨s.namespaces.set t ns', s.exact.set t index', s.nextId + 1,
      stats⟩ t (pairs ns') ∧ _ := fun stats =>
    hs.wrote rfl (fun u => Dict.getD_set s.exact t u _ ∅) (Nat.le_succ _) ok
  unfold SemanticCache.store
  rw [Py.run_bind_ok (Py.run_get _)]
  simp only [hindex, hevict]
  refine ⟨_, rfl, ⟨⟨(hwrote _).1.ok, ?_, (hwrote _).1.others⟩, ?_, ?_, rfl, rfl, rfl, rfl, rfl⟩⟩
  · refine (hwrote _).1.view.trans (hkept.trans ?_)
    unfold Lru.put
    rw [Lru.touch_new hk, hpairs, hlen, List.length_append, hview]
    rfl
  · have hsum : ∀ n, n + (s.ns t).entries.length = s.entryCount + ns'.entries.length →
        n + (s.stats.evictions + ((s.ns t).entries.length + 1 - cfg.maxEntries)) =
          s.entryCount + s.stats.evictions + 1 := fun n hn => by omega
    rw [← hlen] at hsum
    exact hsum _ (hwrote s.stats).2
  · rw [hview]
    exact congrArg (fun n => s.stats.evictions + (n - cfg.maxEntries)) hlen

/-- A store puts the pair. -/
theorem store_spec (hs : CacheOk cfg s) (t k r : String) :
    ∃ s', (SemanticCache.store cfg t k r).run s = (.ok (), s') ∧
      Stored cfg s s' t (Lru.put cfg.maxEntries (s.view t) k r)
        (if k ∈ Lru.keys (s.view t) then 0 else 1) := by
  split
  · rename_i hk
    exact store_known hs hk r
  · rename_i hk
    exact store_new hs hk r

end Steps
end PennyCore
