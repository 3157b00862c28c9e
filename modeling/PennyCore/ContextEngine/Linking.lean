import Mathlib.Data.List.Sort
import PennyCore.ContextEngine.Ingestion

/-!
# Linking

`src/context_engine/linking.py`: which customer an event belongs to.

* `extractIdentityHints` reads the identity hints of a payload, normalized, without duplicates and in
  lookup priority order.
* `resolveCustomer` is the linker, a `Prog` whose calls are the repository's. A sequential call is
  its `Prog.run`; handlers that run at the same time interleave its calls.
* Every hint is `Canonical` (`extractIdentityHints_canonical`): the repository's own normalization
  leaves its value as it is. The priority walk visits the hints in their order (`lookupOrder_eq`).
-/

namespace PennyCore

open Lib

/-! ## Hints -/

/-- `_PAYLOAD_KEY_TO_KIND`. -/
def payloadKeyToKind : List (String × IdentityKind) :=
  [("external_id", .externalId), ("customer_external_id", .externalId), ("from_email", .email),
    ("email", .email), ("sender_email", .email), ("from_phone", .phone), ("phone", .phone),
    ("sender_phone", .phone), ("chat_handle", .chatHandle), ("user_handle", .chatHandle),
    ("username", .chatHandle)]

def LOOKUP_PRIORITY : List IdentityKind := [.externalId, .email, .phone, .chatHandle]

structure IdentityHint where
  kind : IdentityKind
  value : String
  deriving DecidableEq, Repr

/-- The phone branch of `normalize_identity_value`, on stripped text. -/
def normalizePhone (v : String) : String :=
  let leadingPlus := v.toList.head? = some '+'
  let digits := (v.toList.filter fun c => isDecimal c || c = '+').dropWhile (· = '+')
  (if leadingPlus then "+" else "") ++ String.ofList digits

def normalizeIdentityValue (D : CaseData) (kind : IdentityKind) (raw : String) : String :=
  let v := strip raw
  if v = "" then v
  else
    match kind with
    | .phone => normalizePhone v
    | .email | .chatHandle => D.lower v
    | .externalId => v

/-- A hint that is blank or was seen is dropped. -/
def addHint (hints : List IdentityHint) (hint : IdentityHint) : List IdentityHint :=
  if hint.value = "" then hints else if hint ∈ hints then hints else hints ++ [hint]

/-- The loop of `extract_identity_hints`. The hints found so far are also the `seen` set. -/
def collectHints (D : CaseData) (payload : Payload) (hints : List IdentityHint)
    (keys : List (String × IdentityKind)) : List IdentityHint :=
  keys.foldl (fun hints (key, kind) =>
    match payload.get? key with
    | some (.str raw) => addHint hints ⟨kind, normalizeIdentityValue D kind raw⟩
    | _ => hints) hints

def priorityIndex (kind : IdentityKind) : Nat := LOOKUP_PRIORITY.idxOf kind

/-- `extract_identity_hints`; the sort is stable. -/
def extractIdentityHints (D : CaseData) (payload : Payload) : List IdentityHint :=
  (collectHints D payload [] payloadKeyToKind).insertionSort
    fun a b => priorityIndex a.kind ≤ priorityIndex b.kind

/-- The hints that the linker finds in a request. -/
abbrev IngestionRequest.hints (rt : Runtime) (request : IngestionRequest) : List IdentityHint :=
  extractIdentityHints rt.caseData request.payload

/-- `v[:128]`. -/
def truncateName (v : String) : String := String.ofList (v.toList.take 128)

def extractDisplayName (payload : Payload) : Option String :=
  ["display_name", "customer_name", "from_name", "sender_name"].findSome? fun key =>
    match payload.get? key with
    | some (.str raw) => if strip raw = "" then none else some (truncateName (strip raw))
    | _ => none

/-- The display name of the payload has no lone surrogate. -/
def NameFits (payload : Payload) : Prop := ∀ name ∈ extractDisplayName payload, WellFormed name

/-! ## The linker -/

structure LinkingOutcome where
  customerId : String
  customerCreated : Bool
  matchedKind : Option IdentityKind
  matchedValue : Option String
  identitiesAdded : List IdentityHint

section Linker

open InMemoryCustomerRepository

variable (rt : Runtime)

abbrev Link : Type → Type 1 := Prog LinkingError InMemoryCustomerRepository

/-- `_attach_new_identities`. -/
def attachNewIdentities (customerId tenantId : String) :
    List IdentityHint → Link (List IdentityHint)
  | [] => return []
  | hint :: hints => do
    let existing ← Prog.atom (findCustomerByIdentity tenantId hint.kind hint.value)
    match existing with
    | none => do
      let _ ← Prog.atom (addIdentity rt tenantId customerId hint.kind hint.value)
      let added ← attachNewIdentities customerId tenantId hints
      return hint :: added
    | some owner =>
      if owner.id ≠ customerId then
        Prog.raise (.linkedElsewhere hint.kind hint.value owner.id customerId tenantId)
      else attachNewIdentities customerId tenantId hints

/-- The order in which the priority walk visits the hints. -/
def lookupOrder (hints : List IdentityHint) : List IdentityHint :=
  LOOKUP_PRIORITY.flatMap fun kind => hints.filter fun h => h.kind = kind

/-- The priority walk over the hints `todo` of `hints`: the first that is known decides, and the
others are attached to its customer. The linker walks twice, before and after a lost race. -/
def matchHints (tenantId : String) (hints : List IdentityHint) :
    List IdentityHint → Link (Option LinkingOutcome)
  | [] => return none
  | hint :: todo => do
    let found ← Prog.atom (findCustomerByIdentity tenantId hint.kind hint.value)
    match found with
    | some owner => do
      let added ← attachNewIdentities rt owner.id tenantId (hints.filter (· ≠ hint))
      return some {
        customerId := owner.id, customerCreated := false
        matchedKind := some hint.kind, matchedValue := some hint.value, identitiesAdded := added }
    | none => matchHints tenantId hints todo

/-- The last step: create a customer, or on a lost race match again. -/
def createOrMatch (tenantId : String) (hints : List IdentityHint) (displayName : Option String) :
    Link LinkingOutcome := do
  let created ← Prog.attempt (createCustomer rt tenantId (hints.map fun h => (h.kind, h.value))
    displayName)
  match created with
  | .ok customer =>
    return {
      customerId := customer.id, customerCreated := true, matchedKind := none, matchedValue := none
      identitiesAdded := hints }
  | .error e =>
    if e.IsCollision then do
      let matched ← matchHints rt tenantId hints (lookupOrder hints)
      match matched with
      | some outcome => return outcome
      | none => Prog.raise e
    else Prog.raise e

def resolveCustomer (request : IngestionRequest) : Link LinkingOutcome :=
  let tenantId := request.tenantId.1
  let hints := extractIdentityHints rt.caseData request.payload
  match request.customerId with
  | some customerId => do
    let existing ← Prog.atom (getCustomer tenantId customerId.1)
    match existing with
    | none => Prog.raise (.unknownCustomer customerId.1 tenantId)
    | some customer => do
      let added ← attachNewIdentities rt customer.id tenantId hints
      return {
        customerId := customer.id, customerCreated := false, matchedKind := none
        matchedValue := none, identitiesAdded := added }
  | none => do
    let matched ← matchHints rt tenantId hints (lookupOrder hints)
    match matched with
    | some outcome => return outcome
    | none => createOrMatch rt tenantId hints (extractDisplayName request.payload)

end Linker

/-! ## The hints of a payload -/

section Hints

variable {D : CaseData}

theorem strip_of_digitsAndSigns {v : String} (h : ∀ c ∈ v.toList, isDecimal c = true ∨ c = '+') :
    strip v = v := by
  apply strip_of_no_space
  intro c hc
  rcases h c hc with hdigit | rfl
  · exact isSpace_of_isDecimal hdigit
  · rfl

/-- A normalized phone has digits and plus signs only. -/
theorem normalizePhone_chars {v : String} :
    ∀ c ∈ (normalizePhone v).toList, isDecimal c = true ∨ c = '+' := by
  intro c hc
  unfold normalizePhone at hc
  simp only [String.toList_append, String.toList_ofList] at hc
  rcases List.mem_append.mp hc with hc | hc
  · split at hc
    · exact .inr (by simpa using hc)
    · cases hc
  · have hf := (List.mem_filter.mp ((List.dropWhile_sublist _).subset hc)).2
    simpa using hf

theorem normalizeIdentityValue_canonical {kind : IdentityKind} {raw : String}
    (h : normalizeIdentityValue D kind raw ≠ "") :
    Canonical D kind (normalizeIdentityValue D kind raw) := by
  suffices hboth : strip (normalizeIdentityValue D kind raw) = normalizeIdentityValue D kind raw ∧
      identIndexValue D kind (normalizeIdentityValue D kind raw) =
        normalizeIdentityValue D kind raw from ⟨h, hboth.1, hboth.2⟩
  unfold normalizeIdentityValue at h ⊢
  by_cases hv : strip raw = ""
  · simp only [hv, ↓reduceIte, ne_eq, not_true_eq_false] at h
  · have hs := strip_strip raw
    simp only [hv, ↓reduceIte]
    cases kind with
    | phone =>
      have hp := strip_of_digitsAndSigns (normalizePhone_chars (v := strip raw))
      exact ⟨hp, hp⟩
    | externalId => exact ⟨hs, hs⟩
    | _ =>
      have hl := CaseData.strip_lower (D := D) hs
      exact ⟨hl, by simp only [identIndexValue, hl, CaseData.lower_lower]⟩

/-- What `addHint` keeps, the loop keeps. -/
theorem collectHints_keeps {J : List IdentityHint → Prop} {payload : Payload}
    {hints : List IdentityHint} (keys : List (String × IdentityKind))
    (hadd : ∀ hints kind raw, J hints → J (addHint hints ⟨kind, normalizeIdentityValue D kind raw⟩))
    (h : J hints) : J (collectHints D payload hints keys) := by
  unfold collectHints
  induction keys generalizing hints with
  | nil => exact h
  | cons e keys ih =>
    obtain ⟨key, kind⟩ := e
    simp only [List.foldl_cons]
    split
    · exact ih (hadd hints _ _ h)
    · exact ih h

theorem collectHints_canonical (payload : Payload) (keys : List (String × IdentityKind)) :
    ∀ x ∈ collectHints D payload [] keys, Canonical D x.kind x.value := by
  refine collectHints_keeps (J := fun hints => ∀ x ∈ hints, Canonical D x.kind x.value) keys
    (fun hints kind raw h => ?_) fun x hx => absurd hx List.not_mem_nil
  unfold addHint
  split
  · exact h
  · rename_i hne
    split
    · exact h
    · intro x hx
      rcases List.mem_append.mp hx with hx | hx
      · exact h x hx
      · rw [List.mem_singleton.mp hx]
        dsimp only at hne ⊢
        exact normalizeIdentityValue_canonical hne

theorem collectHints_nodup (payload : Payload) (keys : List (String × IdentityKind)) :
    (collectHints D payload [] keys).Nodup := by
  refine collectHints_keeps (J := List.Nodup) keys (fun hints kind raw h => ?_) List.nodup_nil
  unfold addHint
  split
  · exact h
  · split
    · exact h
    · rename_i hmem
      refine List.nodup_append.mpr ⟨h, List.nodup_singleton _, fun a ha b hb => ?_⟩
      rw [List.mem_singleton.mp hb]
      rintro rfl
      exact hmem ha

theorem extractIdentityHints_canonical (payload : Payload) :
    ∀ x ∈ extractIdentityHints D payload, Canonical D x.kind x.value := fun x hx =>
  collectHints_canonical payload payloadKeyToKind x ((List.perm_insertionSort _ _).mem_iff.mp hx)

theorem extractIdentityHints_nodup (payload : Payload) :
    (extractIdentityHints D payload).Nodup :=
  (List.perm_insertionSort _ _).nodup_iff.mpr (collectHints_nodup payload payloadKeyToKind)

/-- Hints in lookup priority order. -/
def Prioritized (hints : List IdentityHint) : Prop :=
  hints.Pairwise fun a b => priorityIndex a.kind ≤ priorityIndex b.kind

theorem extractIdentityHints_prioritized (payload : Payload) :
    Prioritized (extractIdentityHints D payload) := by
  unfold Prioritized extractIdentityHints
  have : Std.Total fun a b : IdentityHint => priorityIndex a.kind ≤ priorityIndex b.kind :=
    ⟨fun a b => Nat.le_total _ _⟩
  have : IsTrans IdentityHint fun a b => priorityIndex a.kind ≤ priorityIndex b.kind :=
    ⟨fun a b c => Nat.le_trans⟩
  exact List.pairwise_insertionSort _ _

/-- No hint of a kind that comes before those of the list. -/
theorem filter_kind_nil (kind kind' : IdentityKind) {hints : List IdentityHint}
    (hlt : priorityIndex kind < priorityIndex kind')
    (h : ∀ x ∈ hints, priorityIndex kind' ≤ priorityIndex x.kind) :
    hints.filter (fun x => x.kind = kind) = [] := by
  apply List.filter_eq_nil_iff.mpr
  intro x hx
  have hle := h x hx
  simp only [decide_eq_true_eq]
  rintro rfl
  omega

theorem lookupOrder_eq {hints : List IdentityHint} (h : Prioritized hints) :
    lookupOrder hints = hints := by
  unfold lookupOrder LOOKUP_PRIORITY
  induction hints with
  | nil => rfl
  | cons x xs ih =>
    obtain ⟨hx, hxs⟩ := List.pairwise_cons.mp h
    have hrest := ih hxs
    simp only [List.flatMap_cons, List.flatMap_nil, List.append_nil, List.filter_cons] at hrest ⊢
    -- the kinds before that of the first hint have none
    cases hk : x.kind with
    | externalId => simpa using hrest
    | email =>
      have h1 := filter_kind_nil .externalId .email (by decide) (hk ▸ hx)
      rw [h1] at hrest ⊢
      simpa using hrest
    | phone =>
      have h1 := filter_kind_nil .externalId .phone (by decide) (hk ▸ hx)
      have h2 := filter_kind_nil .email .phone (by decide) (hk ▸ hx)
      rw [h1, h2] at hrest ⊢
      simpa using hrest
    | chatHandle =>
      have h1 := filter_kind_nil .externalId .chatHandle (by decide) (hk ▸ hx)
      have h2 := filter_kind_nil .email .chatHandle (by decide) (hk ▸ hx)
      have h3 := filter_kind_nil .phone .chatHandle (by decide) (hk ▸ hx)
      rw [h1, h2, h3] at hrest ⊢
      simpa using hrest

end Hints
end PennyCore
