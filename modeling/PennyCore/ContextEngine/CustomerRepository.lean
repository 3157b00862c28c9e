import PennyCore.Contracts.Customers
import PennyCore.Lib.Py

/-!
# The customer repository

`src/context_engine/customer_repository.py`: customers and their identities, and the index from
identity keys (tenant, kind, normalized value) to customers.

* `InMemoryCustomerRepository` with its reads (`findCustomerByIdentity`, `getCustomer`,
  `listIdentities`, `count`) and `createCustomer` and `addIdentity`, as the code has them. Each is one
  atomic call (it runs under the lock).
* `Runtime`: what the process takes from outside, the `uuid4()` draws and the case tables. `drawn`
  counts the draws; the code has no such field.
* The writes are named (`tick`, `insert`, `addCustomer`), and `…_run` says what each call returns or
  raises and which writes it makes, for the values that the linker passes (`Canonical`).
-/

namespace PennyCore

open Lib

/-- The case tables, and the `uuid4()` draws in the order in which they are made: no two are
alike. -/
structure Runtime where
  caseData : CaseData
  hex : Nat → String
  hex_inj : Function.Injective hex

/-- What the linker and the repository raise. -/
inductive LinkingError where
  /-- `IdentityCollision` of `create_customer`. -/
  | alreadyLinked (kind : IdentityKind) (value existing tenantId : String)
  /-- `IdentityCollision` of `add_identity`. -/
  | cannotReattach (kind : IdentityKind) (value existing customerId : String)
  /-- `IdentityCollision` of the linker. -/
  | linkedElsewhere (kind : IdentityKind) (value existing customerId tenantId : String)
  /-- `KeyError` of `add_identity`. -/
  | keyError (customerId tenantId : String)
  /-- `LookupError` of the linker. -/
  | unknownCustomer (customerId tenantId : String)
  | validation (e : ValidationError)
  deriving DecidableEq, Repr

/-- An `IdentityCollision`. -/
def LinkingError.IsCollision : LinkingError → Prop
  | .alreadyLinked .. | .cannotReattach .. | .linkedElsewhere .. => True
  | _ => False

instance : DecidablePred LinkingError.IsCollision := fun e => by
  cases e <;> unfold LinkingError.IsCollision <;> infer_instance

/-- A `LookupError`; `KeyError` is one. -/
def LinkingError.IsLookup : LinkingError → Prop
  | .keyError .. | .unknownCustomer .. => True
  | _ => False

instance : DecidablePred LinkingError.IsLookup := fun e => by
  cases e <;> unfold LinkingError.IsLookup <;> infer_instance

/-- Tenant, kind and normalized value. -/
abbrev IdentityKey : Type := String × IdentityKind × String

structure InMemoryCustomerRepository where
  customers : Dict (String × String) Customer := ∅
  identities : Dict (String × String) CustomerIdentity := ∅
  identityIndex : Dict IdentityKey String := ∅
  drawn : Nat := 0

/-- `_ident_index_value`. -/
def identIndexValue (D : CaseData) (kind : IdentityKind) (value : String) : String :=
  match kind with
  | .email | .chatHandle => D.lower (strip value)
  | .phone | .externalId => strip value

namespace InMemoryCustomerRepository

abbrev M : Type → Type := Py LinkingError InMemoryCustomerRepository

/-! ## Reads -/

def getCustomer (tenantId customerId : String) : M (Option Customer) :=
  return (← Py.get).customers.get? (tenantId, customerId)

def findCustomerByIdentity (tenantId : String) (identityKind : IdentityKind)
    (identityValue : String) : M (Option Customer) := do
  let s ← Py.get
  match s.identityIndex.get? (tenantId, identityKind, identityValue) with
  | none => return none
  | some cid => return s.customers.get? (tenantId, cid)

def listIdentities (tenantId customerId : String) : M (List CustomerIdentity) := do
  let s ← Py.get
  return (s.identities.entries.filter fun e => e.1.1 = tenantId ∧ e.2.customerId = customerId).map
    Prod.snd

def count (tenantId : Option String) : M Nat := do
  let s ← Py.get
  match tenantId with
  | none => return s.customers.entries.length
  | some t => return s.customers.entries.countP fun e => e.1.1 = t

/-! ## Writes -/

section Writes

variable (rt : Runtime)

/-- The digits of `uuid4()`. -/
def draw : M String := do
  let s ← Py.get
  Py.modify fun s => { s with drawn := s.drawn + 1 }
  return rt.hex s.drawn

def newCustomerId : M String := return "cust_" ++ (← draw rt)

def newIdentityId : M String := return "idn_" ++ (← draw rt)

/-- `_insert_identity_locked`. -/
def insertIdentityLocked (tenantId customerId : String) (identityKind : IdentityKind)
    (identityValue : String) : M CustomerIdentity := do
  let id ← newIdentityId rt
  let identity ← Py.ofExcept ((CustomerIdentity.new rt.caseData id tenantId customerId identityKind
    identityValue).mapError .validation)
  Py.modify fun s => { s with
    identities := s.identities.set (tenantId, identity.id) identity
    identityIndex := s.identityIndex.set
      (tenantId, identity.identityKind, identity.identityValue) customerId }
  return identity

/-- The check at the head of `create_customer`. -/
def preflight (tenantId : String) : List (IdentityKind × String) → M Unit
  | [] => return ()
  | (kind, value) :: rest => do
    let s ← Py.get
    match s.identityIndex.get? (tenantId, kind, identIndexValue rt.caseData kind value) with
    | some existing => Py.raise (.alreadyLinked kind value existing tenantId)
    | none => preflight tenantId rest

/-- The loop of `create_customer` over its identities. -/
def insertAll (tenantId customerId : String) : List (IdentityKind × String) → M Unit
  | [] => return ()
  | (kind, value) :: rest => do
    let _ ← insertIdentityLocked rt tenantId customerId kind value
    insertAll tenantId customerId rest

def createCustomer (tenantId : String) (identities : List (IdentityKind × String))
    (displayName : Option String) : M Customer := do
  preflight rt tenantId identities
  let id ← newCustomerId rt
  let customer ← Py.ofExcept ((Customer.new id tenantId displayName).mapError .validation)
  Py.modify fun s => { s with customers := s.customers.set (tenantId, customer.id) customer }
  insertAll rt tenantId customer.id identities
  return customer

/-- The row that makes `add_identity` idempotent. -/
def sameRow (tenantId customerId : String) (kind : IdentityKind) (normalized : String)
    (e : (String × String) × CustomerIdentity) : Bool :=
  e.1.1 = tenantId ∧ e.2.customerId = customerId ∧ e.2.identityKind = kind ∧
    e.2.identityValue = normalized

/-- `add_identity`, once no row answers. -/
def addFresh (tenantId customerId : String) (identityKind : IdentityKind) (identityValue : String) :
    M CustomerIdentity := do
  let s ← Py.get
  match s.customers.get? (tenantId, customerId) with
  | none => Py.raise (.keyError customerId tenantId)
  | some _ => insertIdentityLocked rt tenantId customerId identityKind identityValue

def addIdentity (tenantId customerId : String) (identityKind : IdentityKind)
    (identityValue : String) : M CustomerIdentity := do
  let normalized := identIndexValue rt.caseData identityKind identityValue
  let s ← Py.get
  match s.identityIndex.get? (tenantId, identityKind, normalized) with
  | none => addFresh rt tenantId customerId identityKind identityValue
  | some existing =>
    if existing ≠ customerId then
      Py.raise (.cannotReattach identityKind identityValue existing customerId)
    else
      match s.identities.entries.find? (sameRow tenantId customerId identityKind normalized) with
      | some (_, ident) => return ident
      -- the index has the key, but no row does
      | none => addFresh rt tenantId customerId identityKind identityValue

end Writes

/-! ## The writes -/

/-- An identity id was drawn. -/
def tick (s : InMemoryCustomerRepository) : InMemoryCustomerRepository :=
  { s with drawn := s.drawn + 1 }

/-- A drawn identity row, with its index entry. -/
def insert (s : InMemoryCustomerRepository) (row : CustomerIdentity) : InMemoryCustomerRepository :=
  { s with
    identities := s.identities.set (row.tenantId.1, row.id) row
    identityIndex := s.identityIndex.set
      (row.tenantId.1, row.identityKind, row.identityValue) row.customerId
    drawn := s.drawn + 1 }

/-- A drawn customer. -/
def addCustomer (s : InMemoryCustomerRepository) (c : Customer) : InMemoryCustomerRepository :=
  { s with customers := s.customers.set (c.tenantId.1, c.id) c, drawn := s.drawn + 1 }

end InMemoryCustomerRepository

/-! ## Canonical values -/

/-- The repository's normalization leaves the value as it is. -/
structure Canonical (D : CaseData) (kind : IdentityKind) (value : String) : Prop where
  nonempty : value ≠ ""
  stripped : strip value = value
  index : identIndexValue D kind value = value

theorem normalizeValue_eq (D : CaseData) (kind : IdentityKind) (value : String) :
    CustomerIdentity.normalizeValue D kind value = identIndexValue D kind value := by
  cases kind <;> rfl

/-- The value is not too long for the identity contract, and has no lone surrogate. -/
def Fits (value : String) : Prop := UpTo 256 value

instance (value : String) : Decidable (Fits value) := by unfold Fits; infer_instance

def valueRefused : ValidationError := ⟨"CustomerIdentity", "identity_value"⟩

/-- The identity contract on a canonical value. -/
theorem Canonical.new {D : CaseData} {kind : IdentityKind} {value : String}
    (h : Canonical D kind value) (id customerId : String) (t : Str 1 64) :
    CustomerIdentity.new D id t.1 customerId kind value =
      if Fits value then .ok ⟨id, t, customerId, kind, value⟩ else .error valueRefused := by
  unfold CustomerIdentity.new
  rw [Str.check_ok t.2]
  have hpos : 1 ≤ value.length := by
    rw [Nat.one_le_iff_ne_zero, ne_eq, String.length_eq_zero_iff]
    exact h.nonempty
  by_cases hf : Fits value
  · rw [Str.check_ok ⟨hpos, hf⟩, if_pos hf]
    simp only [bind, Except.bind, h.stripped, h.nonempty, ↓reduceIte, normalizeValue_eq, h.index]
    rfl
  · rw [Str.check_error fun hl => hf hl.2, if_neg hf]
    rfl

end PennyCore
