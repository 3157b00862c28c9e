import PennyCore.ContextEngine.PgAddIdentity

/-!
# The two customer repositories

The same sequential calls on the in-memory and on the Postgres repository. A call names a customer by
the id that the repository gave it, so the calls of the two runs are the same up to paired ids
(`Paired`), and so are their answers (`Agree`).

* `Twins` relates the stores: two lists of paired customers and identities, of which each store has
  its half, in one order.
* `CallOk` is the condition under which the two adapters do the same. The calls that it leaves out are
  those where they differ: a lookup with a value that is not normalized, values that only the
  contract refuses, duplicates in an identity list, and a listing whose order (creation time, then
  drawn id) is not that of insertion. `CallsOk` adds that the driver can send the texts of the call.
-/

namespace PennyCore

open Lib

/-! ## Calls and answers -/

/-- A call of the protocol. -/
inductive CustomerOp where
  | createCustomer (tenantId : String) (identities : List (IdentityKind × String))
      (displayName : Option String)
  | addIdentity (tenantId customerId : String) (identityKind : IdentityKind) (identityValue : String)
  | findCustomerByIdentity (tenantId : String) (identityKind : IdentityKind) (identityValue : String)
  | getCustomer (tenantId customerId : String)
  | listIdentities (tenantId customerId : String)
  | count (tenantId : Option String)

/-- The kinds of exceptions. -/
inductive ErrorKind where
  | identityCollision | keyError | lookupError | validationError | dataError
  deriving DecidableEq, Repr

def LinkingError.kind : LinkingError → ErrorKind
  | .alreadyLinked .. | .cannotReattach .. | .linkedElsewhere .. => .identityCollision
  | .keyError .. => .keyError
  | .unknownCustomer .. => .lookupError
  | .validation _ => .validationError

def PgError.kind : PgError → ErrorKind
  | .creating _ | .cannotReattach .. | .concurrentInsert .. => .identityCollision
  | .keyError .. => .keyError
  | .validation _ => .validationError
  | .dataError => .dataError

/-- What a call returns. -/
inductive CustomerAnswer where
  | customer (c : Option Customer)
  | identities (is : List CustomerIdentity)
  | count (n : Nat)

/-- The call on the in-memory repository. -/
def InMemoryCustomerRepository.answer (rt : Runtime) (s : InMemoryCustomerRepository) :
    CustomerOp → Except ErrorKind CustomerAnswer × InMemoryCustomerRepository
  | .createCustomer t identities name =>
    let (r, s') := (createCustomer rt t identities name).run s
    (r.mapError LinkingError.kind |>.map fun c => .customer (some c), s')
  | .addIdentity t c kind value =>
    let (r, s') := (addIdentity rt t c kind value).run s
    (r.mapError LinkingError.kind |>.map fun i => .identities [i], s')
  | .findCustomerByIdentity t kind value =>
    let (r, s') := (findCustomerByIdentity t kind value).run s
    (r.mapError LinkingError.kind |>.map .customer, s')
  | .getCustomer t c =>
    let (r, s') := (getCustomer t c).run s
    (r.mapError LinkingError.kind |>.map .customer, s')
  | .listIdentities t c =>
    let (r, s') := (listIdentities t c).run s
    (r.mapError LinkingError.kind |>.map .identities, s')
  | .count t =>
    let (r, s') := (InMemoryCustomerRepository.count t).run s
    (r.mapError LinkingError.kind |>.map .count, s')

/-- The call on the Postgres repository. -/
def PgCustomerRepository.answer (rt : PgRuntime) (s : PgCustomerRepository) :
    CustomerOp → Except ErrorKind CustomerAnswer × PgCustomerRepository
  | .createCustomer t identities name =>
    let (r, s') := (createCustomer rt t identities name).run s
    (r.mapError PgError.kind |>.map fun c => .customer (some c), s')
  | .addIdentity t c kind value =>
    let (r, s') := (addIdentity rt t c kind value).run s
    (r.mapError PgError.kind |>.map fun i => .identities [i], s')
  | .findCustomerByIdentity t kind value =>
    let (r, s') := (findCustomerByIdentity rt t kind value).run s
    (r.mapError PgError.kind |>.map .customer, s')
  | .getCustomer t c =>
    let (r, s') := (getCustomer t c).run s
    (r.mapError PgError.kind |>.map .customer, s')
  | .listIdentities t c =>
    let (r, s') := (listIdentities rt t c).run s
    (r.mapError PgError.kind |>.map .identities, s')
  | .count t =>
    let (r, s') := (PgCustomerRepository.count t).run s
    (r.mapError PgError.kind |>.map .count, s')

/-! ## Up to ids -/

/-- The two stores. -/
abbrev Stores₂ : Type := InMemoryCustomerRepository × PgCustomerRepository

/-- The ids of the customers that were created at the same time. -/
def customerIds (s : Stores₂) : List (String × String) :=
  (s.1.customers.entries.map fun e => e.2.id).zip (s.2.db.customers.map PgCustomerRow.id)

/-- The ids of the identities that were attached at the same time. -/
def identityIds (s : Stores₂) : List (String × String) :=
  (s.1.identities.entries.map fun e => e.2.id).zip (s.2.db.identities.map PgIdentityRow.id)

/-- The two ids are those of one customer, or of none. -/
def PairedId (ids : List (String × String)) (c c' : String) : Prop :=
  (c, c') ∈ ids ∨ (∀ b, (c, b) ∉ ids) ∧ ∀ a, (a, c') ∉ ids

/-- The same call of the two runs. -/
inductive Paired (ids : List (String × String)) : CustomerOp → CustomerOp → Prop
  | createCustomer {t : String} {identities : List (IdentityKind × String)} {name : Option String} :
      Paired ids (.createCustomer t identities name) (.createCustomer t identities name)
  | addIdentity {t c c' : String} {kind : IdentityKind} {value : String} :
      PairedId ids c c' → Paired ids (.addIdentity t c kind value) (.addIdentity t c' kind value)
  | findCustomerByIdentity {t : String} {kind : IdentityKind} {value : String} :
      Paired ids (.findCustomerByIdentity t kind value) (.findCustomerByIdentity t kind value)
  | getCustomer {t c c' : String} :
      PairedId ids c c' → Paired ids (.getCustomer t c) (.getCustomer t c')
  | listIdentities {t c c' : String} :
      PairedId ids c c' → Paired ids (.listIdentities t c) (.listIdentities t c')
  | count {t : Option String} : Paired ids (.count t) (.count t)

/-- The same customer. -/
def SameCustomer (s : Stores₂) (x y : Customer) : Prop :=
  y.tenantId = x.tenantId ∧ y.displayName = x.displayName ∧ (x.id, y.id) ∈ customerIds s

/-- The same identity. -/
def SameIdentity (s : Stores₂) (x y : CustomerIdentity) : Prop :=
  y.tenantId = x.tenantId ∧ y.identityKind = x.identityKind ∧ y.identityValue = x.identityValue ∧
    (x.customerId, y.customerId) ∈ customerIds s ∧ (x.id, y.id) ∈ identityIds s

/-- The same answer, or the same kind of exception; `s` are the stores after the calls. -/
inductive Agree (s : Stores₂) :
    Except ErrorKind CustomerAnswer → Except ErrorKind CustomerAnswer → Prop
  | nobody : Agree s (.ok (.customer none)) (.ok (.customer none))
  | customer {x y : Customer} :
      SameCustomer s x y → Agree s (.ok (.customer (some x))) (.ok (.customer (some y)))
  | identities {xs ys : List CustomerIdentity} :
      List.Forall₂ (SameIdentity s) xs ys → Agree s (.ok (.identities xs)) (.ok (.identities ys))
  | count {n : Nat} : Agree s (.ok (.count n)) (.ok (.count n))
  | error {e : ErrorKind} : Agree s (.error e) (.error e)

/-- Both calls. -/
def step₂ (rt : Runtime) (pg : PgRuntime) (s : Stores₂) (o : CustomerOp × CustomerOp) : Stores₂ :=
  ((s.1.answer rt o.1).2, (s.2.answer pg o.2).2)

/-- The two answers agree. -/
def Agrees (rt : Runtime) (pg : PgRuntime) (s : Stores₂) (o : CustomerOp × CustomerOp) : Prop :=
  Agree (step₂ rt pg s o) (s.1.answer rt o.1).1 (s.2.answer pg o.2).1

/-! ## The condition -/

/-- A value that the contract accepts as it is given and as it is stored. -/
def ValueOk (D : CaseData) (kind : IdentityKind) (value : String) : Prop :=
  (1 ≤ value.length ∧ UpTo 256 value) ∧ strip value ≠ "" ∧ Fits (identIndexValue D kind value)

/-- The condition on a call and the stores before it. -/
def CallOk (D : CaseData) (s : Stores₂) : CustomerOp → Prop
  | .createCustomer t identities name =>
    (∃ x ∈ identities, s.1.identityIndex.get? (t, x.1, identIndexValue D x.1 x.2) ≠ none) ∨
      ((1 ≤ t.length ∧ UpTo 64 t) ∧ (∀ n ∈ name, UpTo 128 n) ∧
        (∀ x ∈ identities, ValueOk D x.1 x.2) ∧
        (identities.map fun x => (x.1, identIndexValue D x.1 x.2)).Nodup)
  | .addIdentity t c kind value =>
    s.1.identityIndex.get? (t, kind, identIndexValue D kind value) ≠ none ∨
      s.1.customers.get? (t, c) = none ∨ ValueOk D kind value
  | .findCustomerByIdentity t kind value =>
    identIndexValue D kind value = value ∨
      s.1.identityIndex.get? (t, kind, identIndexValue D kind value) = none
  | .getCustomer _ _ => True
  | .listIdentities t c =>
    ∀ c', (c, c') ∈ customerIds s → (s.2.db.identities.filter fun row =>
      row.tenantId = t ∧ row.customerId = c').Pairwise fun a b => PgTables.rowBefore a b
  | .count _ => True

/-- The texts that a call sends to Postgres. -/
def CustomerOp.texts (D : CaseData) : CustomerOp → List String
  | .createCustomer t identities name =>
    t :: name.toList ++ identities.map fun x => identIndexValue D x.1 x.2
  | .addIdentity t c kind value => [t, c, identIndexValue D kind value]
  | .findCustomerByIdentity t kind value => [t, identIndexValue D kind value]
  | .getCustomer t c | .listIdentities t c => [t, c]
  | .count t => t.toList

/-- The calls of the two runs are the same, and meet the condition. -/
structure CallsOk (D : CaseData) (s : Stores₂) (o : CustomerOp × CustomerOp) : Prop where
  paired : Paired (customerIds s) o.1 o.2
  ok : CallOk D s o.1
  sent : ∀ x ∈ o.2.texts D, Sendable x

end PennyCore
