import Mathlib.Order.Defs.LinearOrder
import PennyCore.Lib.Dict
import PennyCore.Lib.Py
import PennyCore.ContextEngine.Segments

/-!
# The semantic cache

`src/context_engine/llm/semantic_cache.py`: cached answers of a language model, per tenant, found by
the exact prompt or by the nearest one.

* `SemanticCache` with `lookup`, `store` and `clear`, and the client `complete` that uses it.
* The embedding of a text and the cosine of two embeddings are one function of the two texts, `sim`,
  with values in any linear order `F` (the code's are floats). `entryCost` is the price of an entry.
* A dictionary access with a missing key raises a `CacheKeyError`.
-/

namespace PennyCore

open Lib

/-- The constructor's arguments, with its checks; and the constants `_EXACT_SIM` and the similarity. -/
structure CacheConfig (F : Type) [LinearOrder F] [Zero F] [One F] where
  sim : String → String → F
  threshold : F
  exactSim : F
  entryCost : Nat → Nat → F
  maxEntries : Nat
  threshold_ok : 0 < threshold ∧ threshold ≤ 1
  maxEntries_ok : 0 < maxEntries

/-- A cached pair; its embedding is that of `keyText`. -/
structure CacheEntry where
  keyText : String
  response : String
  inputTokens : Nat
  outputTokens : Nat
  hits : Nat := 0

inductive HitKind where
  | exact | near | miss
  deriving DecidableEq, Repr

structure CacheResult (F : Type) where
  hit : Bool
  response : Option String
  similarity : F
  kind : HitKind

structure CacheStats (F : Type) where
  lookups : Nat
  hits : Nat
  misses : Nat
  exactHits : Nat
  nearHits : Nat
  stores : Nat
  evictions : Nat
  inputTokensSaved : Nat
  outputTokensSaved : Nat
  costSaved : F

/-- `CacheStats()`. -/
def CacheStats.zero (F : Type) [Zero F] : CacheStats F := ⟨0, 0, 0, 0, 0, 0, 0, 0, 0, 0⟩

structure SemanticCache (F : Type) where
  /-- `_store`. -/
  namespaces : Dict String (Dict Nat CacheEntry)
  exact : Dict String (Dict String Nat)
  nextId : Nat
  stats : CacheStats F

/-- `KeyError` of an entry id. -/
structure CacheKeyError where
  entryId : Nat
  deriving DecidableEq, Repr

namespace SemanticCache

variable {F : Type} [LinearOrder F] [Zero F] [One F] [Add F]

/-- A new cache. -/
def new (F : Type) [Zero F] : SemanticCache F := ⟨∅, ∅, 0, CacheStats.zero F⟩

abbrev M (F : Type) : Type → Type := Py CacheKeyError (SemanticCache F)

/-- `_store.get(tenant_id)`, a missing namespace being empty. -/
def ns (s : SemanticCache F) (tenantId : String) : Dict Nat CacheEntry :=
  (s.namespaces.get? tenantId).getD ∅

/-- `_exact.get(tenant_id, {})`. -/
def index (s : SemanticCache F) (tenantId : String) : Dict String Nat :=
  (s.exact.get? tenantId).getD ∅

/-- The nearest-neighbor scan; a tie goes to the earlier entry. -/
def nearest (cfg : CacheConfig F) (query : String) (entries : List (Nat × CacheEntry)) :
    Option Nat × F :=
  entries.foldl (fun best e =>
    if best.2 < cfg.sim query e.2.keyText then (some e.1, cfg.sim query e.2.keyText) else best)
    (none, 0)

/-- `_record_hit`; the entry is changed in place. -/
def recordHit (cfg : CacheConfig F) (tenantId : String) (eid : Nat) (similarity : F)
    (kind : HitKind) : M F (CacheResult F) := do
  let s ← Py.get
  match (s.ns tenantId).get? eid with
  | none => Py.raise ⟨eid⟩
  | some entry => do
    let touched := ((s.ns tenantId).set eid { entry with hits := entry.hits + 1 }).moveToEnd eid
    Py.modify fun s => { s with
      namespaces := s.namespaces.set tenantId touched
      stats := { s.stats with
        hits := s.stats.hits + 1
        exactHits := if kind = .exact then s.stats.exactHits + 1 else s.stats.exactHits
        nearHits := if kind = .exact then s.stats.nearHits else s.stats.nearHits + 1
        inputTokensSaved := s.stats.inputTokensSaved + entry.inputTokens
        outputTokensSaved := s.stats.outputTokensSaved + entry.outputTokens
        costSaved := s.stats.costSaved + cfg.entryCost entry.inputTokens entry.outputTokens } }
    return { hit := true, response := some entry.response, similarity, kind }

def recordMiss (similarity : F) : M F (CacheResult F) := do
  Py.modify fun s => { s with stats := { s.stats with misses := s.stats.misses + 1 } }
  return { hit := false, response := none, similarity, kind := .miss }

def lookup (cfg : CacheConfig F) (tenantId keyText : String) : M F (CacheResult F) := do
  Py.modify fun s => { s with stats := { s.stats with lookups := s.stats.lookups + 1 } }
  let s ← Py.get
  if (s.ns tenantId).entries.isEmpty then recordMiss 0
  else
    match (s.index tenantId).get? keyText with
    | some exactEid => recordHit cfg tenantId exactEid 1 .exact
    | none =>
      match nearest cfg keyText (s.ns tenantId).entries with
      | (some bestId, bestSim) =>
        if cfg.threshold ≤ bestSim then
          recordHit cfg tenantId bestId bestSim (if cfg.exactSim ≤ bestSim then .exact else .near)
        else recordMiss bestSim
      | (none, bestSim) => recordMiss bestSim

/-- The loop of `_evict_if_needed` on a namespace, its index and the eviction counter; each turn drops
an entry. -/
def evictIfNeeded (maxEntries : Nat) :
    Nat → Dict Nat CacheEntry → Dict String Nat → Nat → Dict Nat CacheEntry × Dict String Nat × Nat
  | 0, ns, index, evictions => (ns, index, evictions)
  | turns + 1, ns, index, evictions =>
    if maxEntries < ns.entries.length then
      match ns.entries with
      | [] => (ns, index, evictions)
      | (evictedId, evicted) :: _ =>
        evictIfNeeded maxEntries turns ns.tail
          (if index.get? evicted.keyText = some evictedId then index.erase evicted.keyText else index)
          (evictions + 1)
    else (ns, index, evictions)

def store (cfg : CacheConfig F) (tenantId keyText response : String) : M F Unit := do
  let s ← Py.get
  let ns := s.ns tenantId
  let index := s.index tenantId
  match index.get? keyText with
  | some existingId =>
    match ns.get? existingId with
    | none => Py.raise ⟨existingId⟩
    | some entry => do
      let refreshed := (ns.set existingId { entry with
        response := response, outputTokens := estimateTokens response }).moveToEnd existingId
      Py.modify fun s => { s with
        namespaces := s.namespaces.set tenantId refreshed
        exact := s.exact.set tenantId index
        stats := { s.stats with stores := s.stats.stores + 1 } }
  | none => do
    let grown := (ns.set s.nextId {
      keyText, response, inputTokens := estimateTokens keyText
      outputTokens := estimateTokens response }).moveToEnd s.nextId
    let (kept, keptIndex, evictions) := evictIfNeeded cfg.maxEntries grown.entries.length grown
      (index.set keyText s.nextId) s.stats.evictions
    Py.modify fun s => {
      namespaces := s.namespaces.set tenantId kept
      exact := s.exact.set tenantId keptIndex
      nextId := s.nextId + 1
      stats := { s.stats with stores := s.stats.stores + 1, evictions } }

def clear : M F Unit := Py.modify fun _ => new F

/-- The live entries of all tenants. -/
def entryCount (s : SemanticCache F) : Nat := s.namespaces.total fun ns => ns.entries.length

end SemanticCache

/-! ## The caching client -/

/-- The arguments of `complete`. -/
structure CompleteArgs (F : Type) where
  prompt : String
  system : Option String
  maxTokens : Nat
  temperature : F

section Client

variable {F : Type} [LinearOrder F] [Zero F] [One F] [Add F]

/-- `CachingLLMClient.complete` of a wrapper that is bound to a tenant. -/
def complete (cfg : CacheConfig F) (inner : CompleteArgs F → String) (tenantId : String)
    (args : CompleteArgs F) : SemanticCache.M F String := do
  let result ← SemanticCache.lookup cfg tenantId args.prompt
  match result.hit, result.response with
  | true, some response => return response
  | _, _ => do
    let response := inner args
    SemanticCache.store cfg tenantId args.prompt response
    return response

end Client
end PennyCore
