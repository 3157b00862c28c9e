import PennyCore.ContextEngine.CustomerRepository

/-!
# The Postgres customer repository

`src/context_engine/pg_customer_repository.py`: the two tables that it reads and writes, with the
constraint UNIQUE (tenant_id, identity_kind, identity_value), and its statements.

* `PgTables` and the statements on it. The rows of the tables `tenants` are assumed present, and ids
  are fresh `uuid4()` draws, so that only the UNIQUE constraint on identities can fail.
* `PgCustomerRepository` with its calls, each in a transaction of its own: a raise takes back what the
  transaction wrote (`transaction`), but not the draws. What a row mapper raises comes after the
  commit.
* A statement sees the time at which its transaction began, `NOW()`.
-/

namespace PennyCore

open Lib

structure PgCustomerRow where
  id : String
  tenantId : String
  displayName : Option String

structure PgIdentityRow where
  id : String
  tenantId : String
  customerId : String
  identityKind : IdentityKind
  identityValue : String
  createdAt : Time

/-- The columns of the UNIQUE constraint. -/
def PgIdentityRow.key (row : PgIdentityRow) : IdentityKey :=
  (row.tenantId, row.identityKind, row.identityValue)

/-- The committed rows, in the order of their insertion. -/
structure PgTables where
  customers : List PgCustomerRow := []
  identities : List PgIdentityRow := []

/-- What the repository raises. -/
inductive PgError where
  /-- `IdentityCollision` of `create_customer`. -/
  | creating (tenantId : String)
  /-- `IdentityCollision` of `add_identity`, from its SELECT. -/
  | cannotReattach (kind : IdentityKind) (value existing customerId : String)
  /-- `IdentityCollision` of `add_identity`, from its INSERT. -/
  | concurrentInsert (kind : IdentityKind) (value tenantId : String)
  | keyError (customerId tenantId : String)
  | validation (e : ValidationError)
  /-- The driver cannot send a text. -/
  | dataError
  deriving DecidableEq, Repr

/-- An `IdentityCollision`. -/
def PgError.IsCollision : PgError → Prop
  | .creating _ | .cannotReattach .. | .concurrentInsert .. => True
  | _ => False

/-- A text that the driver sends: UTF-8 has no surrogates, and a text of Postgres no NUL character. -/
def Sendable (s : String) : Prop := WellFormed s ∧ Char.ofNat 0 ∉ s.toList

instance : DecidablePred Sendable := fun s => by unfold Sendable; infer_instance

theorem sendable_pair {a b : String} (ha : Sendable a) (hb : Sendable b) :
    ∀ x ∈ [a, b], Sendable x :=
  List.forall_mem_cons.mpr ⟨ha, List.forall_mem_singleton.mpr hb⟩

/-! ## Statements -/

namespace PgTables

/-- The row with the key, which is unique. -/
def selectIdentity (db : PgTables) (key : IdentityKey) : Option PgIdentityRow :=
  db.identities.find? fun row => row.key = key

def selectCustomer (db : PgTables) (tenantId customerId : String) : Option PgCustomerRow :=
  db.customers.find? fun row => row.tenantId = tenantId ∧ row.id = customerId

/-- The join of `find_customer_by_identity`. -/
def joinCustomer (db : PgTables) (key : IdentityKey) : Option PgCustomerRow :=
  (db.selectIdentity key).bind fun row => db.selectCustomer row.tenantId row.customerId

/-- ORDER BY created_at ASC, id ASC. -/
def rowBefore (a b : PgIdentityRow) : Bool :=
  a.createdAt < b.createdAt || (a.createdAt == b.createdAt && a.id ≤ b.id)

def selectIdentities (db : PgTables) (tenantId customerId : String) : List PgIdentityRow :=
  (db.identities.filter fun row => row.tenantId = tenantId ∧ row.customerId = customerId).mergeSort
    rowBefore

def countCustomers (db : PgTables) : Option String → Nat
  | none => db.customers.length
  | some tenantId => db.customers.countP fun row => row.tenantId = tenantId

def insertCustomer (db : PgTables) (row : PgCustomerRow) : PgTables :=
  { db with customers := db.customers ++ [row] }

/-- INSERT; `none` is the unique violation. -/
def insertIdentity (db : PgTables) (row : PgIdentityRow) : Option PgTables :=
  match db.selectIdentity row.key with
  | some _ => none
  | none => some { db with identities := db.identities ++ [row] }

end PgTables

/-! ## Row mappers -/

/-- `_row_to_customer`. -/
def rowToCustomer (row : PgCustomerRow) : Except PgError Customer :=
  (Customer.new row.id row.tenantId row.displayName).mapError .validation

/-- `_row_to_identity`. -/
def rowToIdentity (D : CaseData) (row : PgIdentityRow) : Except PgError CustomerIdentity :=
  (CustomerIdentity.new D row.id row.tenantId row.customerId row.identityKind
    row.identityValue).mapError .validation

/-- A SELECT that may find a row, and its mapper. -/
def mapFetched {α β : Type} (mapper : α → Except PgError β) : Option α → Except PgError (Option β)
  | none => .ok none
  | some row => (mapper row).map some

/-! ## The repository -/

structure PgCustomerRepository where
  db : PgTables := {}
  drawn : Nat := 0
  /-- The transactions begun so far. -/
  begun : Nat := 0

/-- What the repository takes from outside; `clock` is `NOW()` of the n-th transaction. -/
structure PgRuntime extends Runtime where
  clock : Nat → Time

namespace PgCustomerRepository

abbrev M : Type → Type := Py PgError PgCustomerRepository

/-- A transaction: a raise rolls back. -/
def transaction {α : Type} (m : M α) : M α := fun s =>
  match m.run { s with begun := s.begun + 1 } with
  | (.ok a, s') => (.ok a, s')
  | (.error e, s') => (.error e, { s' with db := s.db })

theorem run_transaction_ok {α : Type} {m : M α} {s s' : PgCustomerRepository} {a : α}
    (h : m.run { s with begun := s.begun + 1 } = (.ok a, s')) :
    (transaction m).run s = (.ok a, s') := by
  change (match m.run { s with begun := s.begun + 1 } with
    | (.ok a, s') => ((.ok a : Except PgError α), s')
    | (.error e, s') => (.error e, { s' with db := s.db })) = _
  rw [h]

theorem run_transaction_error {α : Type} {m : M α} {s s' : PgCustomerRepository} {e : PgError}
    (h : m.run { s with begun := s.begun + 1 } = (.error e, s')) :
    (transaction m).run s = (.error e, { s' with db := s.db }) := by
  change (match m.run { s with begun := s.begun + 1 } with
    | (.ok a, s') => ((.ok a : Except PgError α), s')
    | (.error e, s') => (.error e, { s' with db := s.db })) = _
  rw [h]

/-- The texts of a statement; the ids that are drawn here are hex digits. -/
def send (texts : List String) : M Unit :=
  if ∀ x ∈ texts, Sendable x then return () else Py.raise .dataError

theorem run_send {texts : List String} (h : ∀ x ∈ texts, Sendable x) (s : PgCustomerRepository) :
    (send texts).run s = (.ok (), s) := by
  unfold send
  rw [if_pos h]
  rfl

/-! ### Reads -/

def getCustomer (tenantId customerId : String) : M (Option Customer) := do
  send [tenantId, customerId]
  let s ← Py.get
  Py.ofExcept (mapFetched rowToCustomer (s.db.selectCustomer tenantId customerId))

section Calls

variable (rt : PgRuntime)

def findCustomerByIdentity (tenantId : String) (identityKind : IdentityKind)
    (identityValue : String) : M (Option Customer) := do
  let normalized := identIndexValue rt.caseData identityKind identityValue
  send [tenantId, normalized]
  let s ← Py.get
  Py.ofExcept (mapFetched rowToCustomer (s.db.joinCustomer (tenantId, identityKind, normalized)))

def listIdentities (tenantId customerId : String) : M (List CustomerIdentity) := do
  send [tenantId, customerId]
  let s ← Py.get
  Py.ofExcept ((s.db.selectIdentities tenantId customerId).mapM (rowToIdentity rt.caseData))

def count (tenantId : Option String) : M Nat := do
  send tenantId.toList
  return (← Py.get).db.countCustomers tenantId

/-! ### Writes -/

def draw : M String := do
  let s ← Py.get
  Py.modify fun s => { s with drawn := s.drawn + 1 }
  return rt.hex s.drawn

def newCustomerId : M String := return "cust_" ++ (← draw rt)

def newIdentityId : M String := return "idn_" ++ (← draw rt)

/-- `NOW()` in the current transaction. -/
def now : M Time := return rt.clock (← Py.get).begun

/-- The identity row that is inserted; a unique violation raises `e`. -/
def insertRow (e : PgError) (tenantId customerId : String) (identityKind : IdentityKind)
    (normalized : String) : M PgIdentityRow := do
  let id ← newIdentityId rt
  send [tenantId, normalized]
  let createdAt ← now rt
  let row : PgIdentityRow := ⟨id, tenantId, customerId, identityKind, normalized, createdAt⟩
  let s ← Py.get
  match s.db.insertIdentity row with
  | none => Py.raise e
  | some db => do
    Py.modify fun s => { s with db := db }
    return row

/-- The loop of `create_customer` over its identities. -/
def insertAll (tenantId customerId : String) : List (IdentityKind × String) → M Unit
  | [] => return ()
  | (kind, value) :: rest => do
    let _ ← insertRow rt (.creating tenantId) tenantId customerId kind
      (identIndexValue rt.caseData kind value)
    insertAll tenantId customerId rest

def createCustomer (tenantId : String) (identities : List (IdentityKind × String))
    (displayName : Option String) : M Customer := do
  let customerId ← newCustomerId rt
  let row : PgCustomerRow := ⟨customerId, tenantId, displayName⟩
  transaction (do
    send (tenantId :: displayName.toList)
    Py.modify fun s => { s with db := s.db.insertCustomer row }
    insertAll rt tenantId customerId identities)
  Py.ofExcept (rowToCustomer row)

/-- The statements of `add_identity`: the row that its SELECT finds, or that it inserts. -/
def addRow (tenantId customerId : String) (identityKind : IdentityKind) (identityValue : String) :
    M PgIdentityRow := do
  let normalized := identIndexValue rt.caseData identityKind identityValue
  send [tenantId, normalized]
  let s ← Py.get
  match s.db.selectIdentity (tenantId, identityKind, normalized) with
  | some existing =>
    if existing.customerId ≠ customerId then
      Py.raise (.cannotReattach identityKind identityValue existing.customerId customerId)
    else return existing
  | none => do
    send [tenantId, customerId]
    match s.db.selectCustomer tenantId customerId with
    | none => Py.raise (.keyError customerId tenantId)
    | some _ =>
      insertRow rt (.concurrentInsert identityKind identityValue tenantId) tenantId customerId
        identityKind normalized

def addIdentity (tenantId customerId : String) (identityKind : IdentityKind)
    (identityValue : String) : M CustomerIdentity := do
  let row ← transaction (addRow rt tenantId customerId identityKind identityValue)
  Py.ofExcept (rowToIdentity rt.caseData row)

end Calls

/-! ## What `addIdentity` comes to -/

section AddIdentity

variable {rt : PgRuntime} {s : PgCustomerRepository} {t c value : String} {kind : IdentityKind}

variable (hsent : ∀ x ∈ [t, identIndexValue rt.caseData kind value], Sendable x)

include hsent

/-- The identity is the customer's. -/
theorem addIdentity_again {row : PgIdentityRow}
    (hrow : s.db.selectIdentity (t, kind, identIndexValue rt.caseData kind value) = some row)
    (hown : row.customerId = c) :
    (addIdentity rt t c kind value).run s =
      (rowToIdentity rt.caseData row, { s with begun := s.begun + 1 }) := by
  have hadd : (addRow rt t c kind value).run { s with begun := s.begun + 1 } =
      (.ok row, { s with begun := s.begun + 1 }) := by
    unfold addRow
    simp only
    rw [Py.run_bind_ok (run_send hsent _), Py.run_bind_ok (Py.run_get _)]
    simp only [hrow]
    rw [if_neg (not_not.mpr hown)]
    rfl
  unfold addIdentity
  rw [Py.run_bind_ok (run_transaction_ok hadd)]
  rfl

/-- The identity is another customer's. -/
theorem addIdentity_other {row : PgIdentityRow}
    (hrow : s.db.selectIdentity (t, kind, identIndexValue rt.caseData kind value) = some row)
    (hother : row.customerId ≠ c) :
    (addIdentity rt t c kind value).run s =
      (.error (.cannotReattach kind value row.customerId c), { s with begun := s.begun + 1 }) := by
  have hadd : (addRow rt t c kind value).run { s with begun := s.begun + 1 } =
      (.error (.cannotReattach kind value row.customerId c), { s with begun := s.begun + 1 }) := by
    unfold addRow
    simp only
    rw [Py.run_bind_ok (run_send hsent _), Py.run_bind_ok (Py.run_get _)]
    simp only [hrow]
    rw [if_pos hother]
    rfl
  unfold addIdentity
  exact Py.run_bind_error (run_transaction_error hadd)

/-- Nobody has the identity, and there is no such customer. -/
theorem addIdentity_unknown (hcustomerSent : ∀ x ∈ [t, c], Sendable x)
    (hfree : s.db.selectIdentity (t, kind, identIndexValue rt.caseData kind value) = none)
    (hno : s.db.selectCustomer t c = none) :
    (addIdentity rt t c kind value).run s =
      (.error (.keyError c t), { s with begun := s.begun + 1 }) := by
  have hadd : (addRow rt t c kind value).run { s with begun := s.begun + 1 } =
      (.error (.keyError c t), { s with begun := s.begun + 1 }) := by
    unfold addRow
    simp only
    rw [Py.run_bind_ok (run_send hsent _), Py.run_bind_ok (Py.run_get _)]
    simp only [hfree]
    rw [Py.run_bind_ok (run_send hcustomerSent _)]
    simp only [hno]
    rfl
  unfold addIdentity
  exact Py.run_bind_error (run_transaction_error hadd)

/-- Nobody has the identity, and its row is inserted. -/
theorem addIdentity_insert (hcustomerSent : ∀ x ∈ [t, c], Sendable x) {x : PgCustomerRow}
    {row : PgIdentityRow} {s' : PgCustomerRepository}
    (hfree : s.db.selectIdentity (t, kind, identIndexValue rt.caseData kind value) = none)
    (hcustomer : s.db.selectCustomer t c = some x)
    (hrow : (insertRow rt (.concurrentInsert kind value t) t c kind
      (identIndexValue rt.caseData kind value)).run { s with begun := s.begun + 1 } = (.ok row, s')) :
    (addIdentity rt t c kind value).run s = (rowToIdentity rt.caseData row, s') := by
  have hadd : (addRow rt t c kind value).run { s with begun := s.begun + 1 } = (.ok row, s') := by
    unfold addRow
    simp only
    rw [Py.run_bind_ok (run_send hsent _), Py.run_bind_ok (Py.run_get _)]
    simp only [hfree]
    rw [Py.run_bind_ok (run_send hcustomerSent _)]
    simp only [hcustomer]
    exact hrow
  unfold addIdentity
  rw [Py.run_bind_ok (run_transaction_ok hadd)]
  rfl

end AddIdentity
end PgCustomerRepository
end PennyCore
