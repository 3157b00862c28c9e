import Mathlib.Data.List.Find
import PennyCore.ContextEngine.LinkingAgreement
import PennyCore.ContextEngine.RepositoryAgreement

/-!
# Twin stores

The relation between the two customer stores, and that each pair of calls that meets the condition
keeps it (`Twins`, `step_twins`). Both stores have their customers and identities in one order, so the
relation is a list of twin customers and one of twin identities, each of which has an id in either
store; an index lookup of the one and a SELECT of the other are searches in these lists.
-/

namespace PennyCore

open Lib

/-- A customer in both stores. -/
structure TwinCustomer where
  memId : String
  pgId : String
  tenantId : Str 1 64
  displayName : Option (Str 0 128)

namespace TwinCustomer

def mem (g : TwinCustomer) : Customer := ⟨g.memId, g.tenantId, g.displayName⟩

def pg (g : TwinCustomer) : Customer := ⟨g.pgId, g.tenantId, g.displayName⟩

def row (g : TwinCustomer) : PgCustomerRow := ⟨g.pgId, g.tenantId.1, g.displayName.map Subtype.val⟩

end TwinCustomer

/-- An identity in both stores. -/
structure TwinIdentity where
  memId : String
  pgId : String
  owner : TwinCustomer
  kind : IdentityKind
  value : String
  createdAt : Time

namespace TwinIdentity

def key (x : TwinIdentity) : IdentityKey := (x.owner.tenantId.1, x.kind, x.value)

def mem (x : TwinIdentity) : CustomerIdentity :=
  ⟨x.memId, x.owner.tenantId, x.owner.memId, x.kind, x.value⟩

def pg (x : TwinIdentity) : CustomerIdentity :=
  ⟨x.pgId, x.owner.tenantId, x.owner.pgId, x.kind, x.value⟩

def row (x : TwinIdentity) : PgIdentityRow :=
  ⟨x.pgId, x.owner.tenantId.1, x.owner.pgId, x.kind, x.value, x.createdAt⟩

end TwinIdentity

/-- The stores hold the two halves of the twins `gs` and `xs`. -/
structure Twins (rt : Runtime) (pg : PgRuntime) (gs : List TwinCustomer) (xs : List TwinIdentity)
    (s : Stores₂) : Prop where
  customers : s.1.customers.entries = gs.map fun g => ((g.tenantId.1, g.memId), g.mem)
  customerRows : s.2.db.customers = gs.map TwinCustomer.row
  identities : s.1.identities.entries = xs.map fun x => ((x.owner.tenantId.1, x.memId), x.mem)
  identityRows : s.2.db.identities = xs.map TwinIdentity.row
  index : ∀ key, s.1.identityIndex.get? key =
    (xs.find? fun x => x.key = key).map fun x => x.owner.memId
  keys : (xs.map TwinIdentity.key).Nodup
  memIds : (gs.map TwinCustomer.memId).Nodup
  pgIds : (gs.map TwinCustomer.pgId).Nodup
  owners : ∀ x ∈ xs, x.owner ∈ gs
  memDrawn : ∀ g ∈ gs, ∃ n < s.1.drawn, g.memId = "cust_" ++ rt.hex n
  pgDrawn : ∀ g ∈ gs, ∃ n < s.2.drawn, g.pgId = "cust_" ++ pg.hex n
  identityDrawn : ∀ x ∈ xs, ∃ n < s.1.drawn, x.memId = "idn_" ++ rt.hex n
  canonical : ∀ x ∈ xs, Canonical rt.caseData x.kind x.value ∧ Fits x.value

section Lookups

variable {rt : Runtime} {pg : PgRuntime} {gs : List TwinCustomer} {xs : List TwinIdentity}
  {s : Stores₂}

/-- The only element with a property is found. -/
theorem find?_unique {α : Type} {l : List α} {p : α → Bool} {x : α} (hx : x ∈ l) (hp : p x)
    (h : ∀ y ∈ l, p y → y = x) : l.find? p = some x := by
  cases hf : l.find? p with
  | none => exact absurd hp (by simpa using List.find?_eq_none.mp hf x hx)
  | some y => rw [h y (List.mem_of_find?_eq_some hf) (List.find?_some hf)]

theorem Twins.customerIds_eq (h : Twins rt pg gs xs s) :
    customerIds s = gs.map fun g => (g.memId, g.pgId) := by
  unfold customerIds
  rw [h.customers, h.customerRows, List.map_map, List.map_map, List.zip_map']
  rfl

theorem Twins.identityIds_eq (h : Twins rt pg gs xs s) :
    identityIds s = xs.map fun x => (x.memId, x.pgId) := by
  unfold identityIds
  rw [h.identities, h.identityRows, List.map_map, List.map_map, List.zip_map']
  rfl

/-- Paired ids are those of the same twin. -/
theorem Twins.paired (h : Twins rt pg gs xs s) {c c' : String} (hc : PairedId (customerIds s) c c') :
    ∀ g ∈ gs, g.memId = c ↔ g.pgId = c' := by
  intro g hg
  have hmem : (g.memId, g.pgId) ∈ gs.map fun g => (g.memId, g.pgId) := List.mem_map_of_mem hg
  rw [h.customerIds_eq] at hc
  rcases hc with hc | ⟨hno, hno'⟩
  · obtain ⟨g', hg', heq⟩ := List.mem_map.mp hc
    obtain ⟨rfl, rfl⟩ := Prod.mk.inj heq
    constructor
    · intro hid
      rw [List.inj_on_of_nodup_map h.memIds hg hg' hid]
    · intro hid
      rw [List.inj_on_of_nodup_map h.pgIds hg hg' hid]
  · constructor
    · rintro rfl
      exact absurd hmem (hno _)
    · rintro rfl
      exact absurd hmem (hno' _)

theorem Twins.getCustomer (h : Twins rt pg gs xs s) (t c : String) :
    s.1.customers.get? (t, c) =
      (gs.find? fun g => g.tenantId.1 = t ∧ g.memId = c).map TwinCustomer.mem := by
  rw [Dict.get?_map h.customers]
  refine congrArg _ (List.find?_congr fun g _ => ?_)
  simp

theorem Twins.selectCustomer (h : Twins rt pg gs xs s) (t c : String) :
    s.2.db.selectCustomer t c =
      (gs.find? fun g => g.tenantId.1 = t ∧ g.pgId = c).map TwinCustomer.row := by
  unfold PgTables.selectCustomer
  rw [h.customerRows, List.find?_map]
  rfl

/-- Paired ids find the same twin. -/
theorem Twins.find_paired (h : Twins rt pg gs xs s) {c c' : String}
    (hc : PairedId (customerIds s) c c') (t : String) :
    (gs.find? fun g => g.tenantId.1 = t ∧ g.pgId = c') =
      gs.find? fun g => g.tenantId.1 = t ∧ g.memId = c := by
  refine List.find?_congr fun g hg => ?_
  simp [h.paired hc g hg]

theorem Twins.selectIdentity (h : Twins rt pg gs xs s) (key : IdentityKey) :
    s.2.db.selectIdentity key = (xs.find? fun x => x.key = key).map TwinIdentity.row := by
  unfold PgTables.selectIdentity
  rw [h.identityRows, List.find?_map]
  rfl

/-- The owner of an identity is found by its id. -/
theorem Twins.find_owner (h : Twins rt pg gs xs s) {x : TwinIdentity} (hx : x ∈ xs) :
    (gs.find? fun g => g.tenantId.1 = x.owner.tenantId.1 ∧ g.memId = x.owner.memId) =
      some x.owner := by
  refine find?_unique (h.owners x hx) (by simp) fun g hg hp => ?_
  simp only [decide_eq_true_eq] at hp
  exact List.inj_on_of_nodup_map h.memIds hg (h.owners x hx) hp.2

/-! ## Row mappers -/

theorem rowToCustomer_twin (g : TwinCustomer) : rowToCustomer g.row = .ok g.pg := by
  unfold rowToCustomer TwinCustomer.row TwinCustomer.pg Customer.new
  rw [Str.check_ok g.tenantId.2]
  cases g.displayName with
  | none => rfl
  | some name =>
    simp only [Option.map_some, Str.checkOpt_ok name.2.2]
    rfl

theorem rowToIdentity_twin {D : CaseData} {x : TwinIdentity}
    (hx : Canonical D x.kind x.value ∧ Fits x.value) : rowToIdentity D x.row = .ok x.pg := by
  unfold rowToIdentity TwinIdentity.row
  rw [hx.1.new, if_pos hx.2]
  rfl

/-! ## Reads -/

theorem Twins.sameCustomer (h : Twins rt pg gs xs s) {g : TwinCustomer} (hg : g ∈ gs) :
    SameCustomer s g.mem g.pg := by
  refine ⟨rfl, rfl, ?_⟩
  rw [h.customerIds_eq]
  exact List.mem_map_of_mem hg

theorem Twins.sameIdentity (h : Twins rt pg gs xs s) {x : TwinIdentity} (hx : x ∈ xs) :
    SameIdentity s x.mem x.pg := by
  refine ⟨rfl, rfl, rfl, ?_, ?_⟩
  · exact (h.sameCustomer (h.owners x hx)).2.2
  · rw [h.identityIds_eq]
    exact List.mem_map_of_mem hx

/-- What the two lookups of a customer return. -/
theorem Twins.agree_found (h : Twins rt pg gs xs s) {o : Option TwinCustomer}
    (ho : ∀ g ∈ o, g ∈ gs) : mapFetched rowToCustomer (o.map TwinCustomer.row) =
      .ok (o.map TwinCustomer.pg) ∧
    Agree s (.ok (.customer (o.map TwinCustomer.mem))) (.ok (.customer (o.map TwinCustomer.pg))) := by
  cases o with
  | none => exact ⟨rfl, .nobody⟩
  | some g =>
    refine ⟨?_, .customer (h.sameCustomer (ho g rfl))⟩
    unfold mapFetched
    simp only [Option.map_some, rowToCustomer_twin]
    rfl

theorem Twins.agrees_getCustomer (h : Twins rt pg gs xs s) {t c c' : String}
    (hc : PairedId (customerIds s) c c') (hsent : ∀ x ∈ [t, c'], Sendable x) :
    Agrees rt pg s (.getCustomer t c, .getCustomer t c') ∧
      step₂ rt pg s (.getCustomer t c, .getCustomer t c') = s := by
  obtain ⟨hrow, hagree⟩ := h.agree_found (o := gs.find? fun g => g.tenantId.1 = t ∧ g.memId = c)
    fun g hg => List.mem_of_find?_eq_some hg
  have hmem : (InMemoryCustomerRepository.getCustomer t c).run s.1 =
      (.ok (s.1.customers.get? (t, c)), s.1) := rfl
  have hpg : (PgCustomerRepository.getCustomer t c').run s.2 =
      (mapFetched rowToCustomer (s.2.db.selectCustomer t c'), s.2) :=
    Py.run_bind_ok (PgCustomerRepository.run_send hsent _)
  rw [h.getCustomer] at hmem
  rw [h.selectCustomer, h.find_paired hc, hrow] at hpg
  unfold Agrees step₂ InMemoryCustomerRepository.answer PgCustomerRepository.answer
  simp only [hmem, hpg]
  exact ⟨hagree, trivial⟩

/-- A value that is indexed is normalized. -/
theorem Twins.normalized (h : Twins rt pg gs xs s) {x : TwinIdentity} (hx : x ∈ xs) :
    identIndexValue rt.caseData x.kind x.value = x.value :=
  (h.canonical x hx).1.index

/-- The join finds the owner. -/
theorem Twins.joinCustomer (h : Twins rt pg gs xs s) (key : IdentityKey) :
    s.2.db.joinCustomer key =
      ((xs.find? fun x => x.key = key).map TwinIdentity.owner).map TwinCustomer.row := by
  unfold PgTables.joinCustomer
  rw [h.selectIdentity]
  cases hx : xs.find? fun x => x.key = key with
  | none => rfl
  | some x =>
    have hmem := List.mem_of_find?_eq_some hx
    have hid : PairedId (customerIds s) x.owner.memId x.owner.pgId :=
      .inl (h.sameCustomer (h.owners x hmem)).2.2
    change s.2.db.selectCustomer x.owner.tenantId.1 x.owner.pgId = _
    rw [h.selectCustomer, h.find_paired hid, h.find_owner hmem]
    rfl

theorem Twins.agrees_find (hD : pg.caseData = rt.caseData) (h : Twins rt pg gs xs s) {t : String}
    {kind : IdentityKind} {value : String}
    (hok : CallOk rt.caseData s (.findCustomerByIdentity t kind value))
    (hsent : ∀ x ∈ [t, identIndexValue rt.caseData kind value], Sendable x) :
    Agrees rt pg s (.findCustomerByIdentity t kind value, .findCustomerByIdentity t kind value) ∧
      step₂ rt pg s (.findCustomerByIdentity t kind value, .findCustomerByIdentity t kind value) =
        s := by
  -- the index has the value exactly if the join finds its normalized form
  have hfind : (xs.find? fun x => x.key = (t, kind, identIndexValue rt.caseData kind value)) =
      xs.find? fun x => x.key = (t, kind, value) := by
    rcases hok with heq | hnone
    · rw [heq]
    · rw [h.index, Option.map_eq_none_iff] at hnone
      rw [hnone, eq_comm, List.find?_eq_none]
      intro x hx hkey
      have hkey : x.key = (t, kind, value) := of_decide_eq_true hkey
      have hnorm := h.normalized hx
      obtain ⟨-, hk, hv⟩ : x.owner.tenantId.1 = t ∧ x.kind = kind ∧ x.value = value := by
        simpa [TwinIdentity.key] using hkey
      rw [hk, hv] at hnorm
      refine List.find?_eq_none.mp hnone x hx ?_
      rw [hnorm]
      exact decide_eq_true hkey
  obtain ⟨hrow, hagree⟩ := h.agree_found
    (o := (xs.find? fun x => x.key = (t, kind, value)).map TwinIdentity.owner) fun g hg => by
      obtain ⟨x, hx, rfl⟩ := Option.map_eq_some_iff.mp hg
      exact h.owners x (List.mem_of_find?_eq_some hx)
  have hmem : (InMemoryCustomerRepository.findCustomerByIdentity t kind value).run s.1 =
      (.ok (((xs.find? fun x => x.key = (t, kind, value)).map TwinIdentity.owner).map
        TwinCustomer.mem), s.1) := by
    unfold InMemoryCustomerRepository.findCustomerByIdentity
    rw [Py.run_bind_ok (Py.run_get _), h.index]
    cases hx : xs.find? fun x => x.key = (t, kind, value) with
    | none => rfl
    | some x =>
      have hin : x ∈ xs := List.mem_of_find?_eq_some hx
      have hkey : x.key = (t, kind, value) := by simpa using List.find?_some hx
      have ht : x.owner.tenantId.1 = t := congrArg Prod.fst hkey
      simp only [Option.map_some]
      rw [← ht, h.getCustomer, h.find_owner hin]
      rfl
  have hpg : (PgCustomerRepository.findCustomerByIdentity pg t kind value).run s.2 =
      (.ok (((xs.find? fun x => x.key = (t, kind, value)).map TwinIdentity.owner).map
        TwinCustomer.pg), s.2) := by
    have hrun : (PgCustomerRepository.findCustomerByIdentity pg t kind value).run s.2 =
        (mapFetched rowToCustomer (s.2.db.joinCustomer
          (t, kind, identIndexValue pg.caseData kind value)), s.2) :=
      Py.run_bind_ok (PgCustomerRepository.run_send (hD ▸ hsent) _)
    rw [hrun, h.joinCustomer, hD, hfind, hrow]
  unfold Agrees step₂ InMemoryCustomerRepository.answer PgCustomerRepository.answer
  simp only [hmem, hpg]
  exact ⟨hagree, trivial⟩

/-- The identities of a customer, in the order of insertion. -/
theorem Twins.filter_identities (h : Twins rt pg gs xs s) {c c' : String}
    (hc : PairedId (customerIds s) c c') (t : String) :
    (s.2.db.identities.filter fun row => row.tenantId = t ∧ row.customerId = c') =
      (xs.filter fun x => x.owner.tenantId.1 = t ∧ x.owner.memId = c).map TwinIdentity.row := by
  rw [h.identityRows, List.filter_map]
  refine congrArg _ (List.filter_congr fun x hx => ?_)
  exact decide_eq_decide.mpr (and_congr_right fun _ => (h.paired hc x.owner (h.owners x hx)).symm)

theorem mapM_rowToIdentity {D : CaseData} {ys : List TwinIdentity}
    (h : ∀ x ∈ ys, Canonical D x.kind x.value ∧ Fits x.value) :
    (ys.map TwinIdentity.row).mapM (rowToIdentity D) = .ok (ys.map TwinIdentity.pg) := by
  rw [List.mapM_map]
  exact mapM_ok fun y hy => rowToIdentity_twin (h y hy)

theorem Twins.agrees_list (hD : pg.caseData = rt.caseData) (h : Twins rt pg gs xs s) {t c c' : String}
    (hc : PairedId (customerIds s) c c') (hok : CallOk rt.caseData s (.listIdentities t c))
    (hsent : ∀ x ∈ [t, c'], Sendable x) :
    Agrees rt pg s (.listIdentities t c, .listIdentities t c') ∧
      step₂ rt pg s (.listIdentities t c, .listIdentities t c') = s := by
  have hfilter := h.filter_identities hc t
  have hsort : s.2.db.selectIdentities t c' =
      (xs.filter fun x => x.owner.tenantId.1 = t ∧ x.owner.memId = c).map TwinIdentity.row := by
    unfold PgTables.selectIdentities
    rw [← hfilter]
    refine List.mergeSort_of_pairwise ?_
    rcases hc with hc | ⟨hno, -⟩
    · exact hok c' hc
    · -- nobody has the id
      have hnil : (xs.filter fun x => x.owner.tenantId.1 = t ∧ x.owner.memId = c) = [] := by
        rw [List.filter_eq_nil_iff]
        intro x hx hp
        have hown : (x.owner.memId, x.owner.pgId) ∈ customerIds s :=
          (h.sameCustomer (h.owners x hx)).2.2
        simp only [decide_eq_true_eq] at hp
        exact hno _ (hp.2 ▸ hown)
      rw [hfilter, hnil]
      exact List.Pairwise.nil
  have hmem : (InMemoryCustomerRepository.listIdentities t c).run s.1 = (.ok ((xs.filter fun x =>
      x.owner.tenantId.1 = t ∧ x.owner.memId = c).map TwinIdentity.mem), s.1) := by
    have hrun : (InMemoryCustomerRepository.listIdentities t c).run s.1 = (.ok
        ((s.1.identities.entries.filter fun e => e.1.1 = t ∧ e.2.customerId = c).map Prod.snd),
        s.1) := rfl
    rw [hrun, h.identities, List.filter_map, List.map_map]
    rfl
  have hpg : (PgCustomerRepository.listIdentities pg t c').run s.2 = (.ok ((xs.filter fun x =>
      x.owner.tenantId.1 = t ∧ x.owner.memId = c).map TwinIdentity.pg), s.2) := by
    have hrun : (PgCustomerRepository.listIdentities pg t c').run s.2 =
        ((s.2.db.selectIdentities t c').mapM (rowToIdentity pg.caseData), s.2) :=
      Py.run_bind_ok (PgCustomerRepository.run_send hsent _)
    rw [hrun, hsort, hD, mapM_rowToIdentity fun x hx => h.canonical x (List.mem_filter.mp hx).1]
  unfold Agrees step₂ InMemoryCustomerRepository.answer PgCustomerRepository.answer
  simp only [hmem, hpg]
  refine ⟨.identities ?_, trivial⟩
  rw [List.forall₂_map_left_iff, List.forall₂_map_right_iff, List.forall₂_same]
  exact fun x hx => h.sameIdentity (List.mem_filter.mp hx).1

theorem Twins.agrees_count (h : Twins rt pg gs xs s) {t : Option String}
    (hsent : ∀ x ∈ t.toList, Sendable x) :
    Agrees rt pg s (.count t, .count t) ∧ step₂ rt pg s (.count t, .count t) = s := by
  have hcount : (InMemoryCustomerRepository.count t).run s.1 = (.ok (s.2.db.countCustomers t), s.1) := by
    cases t with
    | none =>
      have hrun : (InMemoryCustomerRepository.count none).run s.1 =
          (.ok s.1.customers.entries.length, s.1) := rfl
      unfold PgTables.countCustomers
      rw [hrun, h.customers, h.customerRows, List.length_map, List.length_map]
    | some t =>
      have hrun : (InMemoryCustomerRepository.count (some t)).run s.1 =
          (.ok (s.1.customers.entries.countP fun e => e.1.1 = t), s.1) := rfl
      have hrows : s.2.db.countCustomers (some t) =
          s.2.db.customers.countP fun row => row.tenantId = t := rfl
      rw [hrun, hrows, h.customers, h.customerRows, List.countP_map, List.countP_map]
      rfl
  have hpg : (PgCustomerRepository.count t).run s.2 = (.ok (s.2.db.countCustomers t), s.2) :=
    Py.run_bind_ok (PgCustomerRepository.run_send hsent _)
  unfold Agrees step₂ InMemoryCustomerRepository.answer PgCustomerRepository.answer
  simp only [hcount, hpg]
  exact ⟨.count, trivial⟩

end Lookups

/-! ## Values -/

/-- A normalized value is canonical. -/
theorem canonical_index {D : CaseData} {kind : IdentityKind} {value : String} (h : strip value ≠ "") :
    Canonical D kind (identIndexValue D kind value) := by
  have hlower := CaseData.strip_lower (D := D) (strip_strip value)
  cases kind
  case email | chatHandle =>
    refine ⟨CaseData.lower_ne_empty h, hlower, ?_⟩
    simp only [identIndexValue, hlower, CaseData.lower_lower]
  case phone | externalId => exact ⟨h, strip_strip value, by simp only [identIndexValue, strip_strip]⟩

/-- The identity contract on a value that it accepts. -/
theorem ValueOk.new {D : CaseData} {kind : IdentityKind} {value : String} (h : ValueOk D kind value)
    (id customerId : String) (t : Str 1 64) :
    CustomerIdentity.new D id t.1 customerId kind value =
      .ok ⟨id, t, customerId, kind, identIndexValue D kind value⟩ := by
  unfold CustomerIdentity.new
  rw [Str.check_ok t.2, Str.check_ok h.1]
  simp only [bind, Except.bind, h.2.1, ↓reduceIte, normalizeValue_eq]
  rfl

section Writes

variable {rt : Runtime} {pg : PgRuntime} {gs : List TwinCustomer} {xs : List TwinIdentity}
  {s : Stores₂}

/-- Ids that were drawn before are not those that come next. -/
theorem Twins.identity_new (h : Twins rt pg gs xs s) (t : String) :
    s.1.identities.get? (t, "idn_" ++ rt.hex s.1.drawn) = none := by
  rw [Dict.get?_map h.identities, Option.map_eq_none_iff, List.find?_eq_none]
  intro x hx hkey
  obtain ⟨n, hn, hid⟩ := h.identityDrawn x hx
  have heq : x.memId = "idn_" ++ rt.hex s.1.drawn :=
    congrArg Prod.snd (of_decide_eq_true hkey : (x.owner.tenantId.1, x.memId) = _)
  exact InMemoryCustomerRepository.drawn_fresh hn (heq.symm.trans hid)

/-- The twin of an identity that both stores insert next. -/
def nextIdentity (rt : Runtime) (pg : PgRuntime) (s : Stores₂) (g : TwinCustomer)
    (kind : IdentityKind) (value : String) : TwinIdentity :=
  ⟨"idn_" ++ rt.hex s.1.drawn, "idn_" ++ pg.hex s.2.drawn, g, kind,
    identIndexValue rt.caseData kind value, pg.clock s.2.begun⟩

/-- The stores after the insertion of a twin identity. -/
def attached₂ (s : Stores₂) (x : TwinIdentity) : Stores₂ :=
  (s.1.insert x.mem,
    { s.2 with db := { s.2.db with identities := s.2.db.identities ++ [x.row] }
               drawn := s.2.drawn + 1 })

theorem Twins.attached (h : Twins rt pg gs xs s) {g : TwinCustomer} (hg : g ∈ gs)
    {kind : IdentityKind} {value : String} (hv : ValueOk rt.caseData kind value)
    (hfree : (xs.find? fun x => x.key =
      (g.tenantId.1, kind, identIndexValue rt.caseData kind value)) = none) :
    Twins rt pg gs (xs ++ [nextIdentity rt pg s g kind value])
      (attached₂ s (nextIdentity rt pg s g kind value)) where
  customers := h.customers
  customerRows := h.customerRows
  identities := by
    have hnew : s.1.identities.get? ((nextIdentity rt pg s g kind value).mem.tenantId.1,
        (nextIdentity rt pg s g kind value).mem.id) = none := h.identity_new g.tenantId.1
    change (s.1.identities.set _ _).entries = _
    rw [Dict.entries_set_new _ hnew, h.identities, List.map_append]
    rfl
  identityRows := by
    change s.2.db.identities ++ _ = _
    rw [h.identityRows, List.map_append]
    rfl
  index key := by
    change (s.1.identityIndex.set (nextIdentity rt pg s g kind value).key g.memId).get? key = _
    rw [Dict.get?_set, h.index, List.find?_append]
    by_cases hkey : key = (nextIdentity rt pg s g kind value).key
    · subst hkey
      rw [if_pos rfl, show (xs.find? fun x => x.key = (nextIdentity rt pg s g kind value).key) = none
        from hfree]
      simp [nextIdentity]
    · have hne : (nextIdentity rt pg s g kind value).key ≠ key := fun heq => hkey heq.symm
      rw [if_neg hkey]
      simp [hne]
  keys := by
    rw [List.map_append]
    refine List.nodup_append.mpr ⟨h.keys, List.nodup_singleton _, fun a ha b hb hab => ?_⟩
    obtain ⟨x, hx, rfl⟩ := List.mem_map.mp ha
    rw [List.map_singleton, List.mem_singleton] at hb
    refine List.find?_eq_none.mp hfree x hx ?_
    rw [hab, hb]
    exact decide_eq_true rfl
  memIds := h.memIds
  pgIds := h.pgIds
  owners x hx := by
    rcases List.mem_append.mp hx with hx | hx
    · exact h.owners x hx
    · rw [List.mem_singleton.mp hx]
      exact hg
  memDrawn g hg := InMemoryCustomerRepository.drawn_later (h.memDrawn g hg)
  pgDrawn g hg := InMemoryCustomerRepository.drawn_later (h.pgDrawn g hg)
  identityDrawn x hx := by
    rcases List.mem_append.mp hx with hx | hx
    · exact InMemoryCustomerRepository.drawn_later (h.identityDrawn x hx)
    · rw [List.mem_singleton.mp hx]
      exact ⟨s.1.drawn, Nat.lt_succ_self _, rfl⟩
  canonical x hx := by
    rcases List.mem_append.mp hx with hx | hx
    · exact h.canonical x hx
    · rw [List.mem_singleton.mp hx]
      exact ⟨canonical_index hv.2.1, hv.2.2⟩

/-- The row that the Postgres repository inserts next. -/
def nextRow (pg : PgRuntime) (p : PgCustomerRepository) (t c : String) (kind : IdentityKind)
    (normalized : String) : PgIdentityRow :=
  ⟨"idn_" ++ pg.hex p.drawn, t, c, kind, normalized, pg.clock p.begun⟩

/-- An insertion draws an id, whether the table takes the row or not. -/
theorem insertRow_run (pg : PgRuntime) (e : PgError) (p : PgCustomerRepository)
    {t normalized : String} (hsent : ∀ x ∈ [t, normalized], Sendable x) (c : String)
    (kind : IdentityKind) :
    (PgCustomerRepository.insertRow pg e t c kind normalized).run p =
      (p.db.insertIdentity (nextRow pg p t c kind normalized)).elim
        (.error e, { p with drawn := p.drawn + 1 })
        fun db => (.ok (nextRow pg p t c kind normalized), ⟨db, p.drawn + 1, p.begun⟩) := by
  have hid : (PgCustomerRepository.newIdentityId pg).run p =
      (.ok ("idn_" ++ pg.hex p.drawn), { p with drawn := p.drawn + 1 }) := rfl
  have hnow : (PgCustomerRepository.now pg).run { p with drawn := p.drawn + 1 } =
      (.ok (pg.clock p.begun), { p with drawn := p.drawn + 1 }) := rfl
  have hrow : ({ p with drawn := p.drawn + 1 } : PgCustomerRepository).db.insertIdentity
      ⟨"idn_" ++ pg.hex p.drawn, t, c, kind, normalized, pg.clock p.begun⟩ =
        p.db.insertIdentity (nextRow pg p t c kind normalized) := rfl
  unfold PgCustomerRepository.insertRow
  rw [Py.run_bind_ok hid, Py.run_bind_ok (PgCustomerRepository.run_send hsent _),
    Py.run_bind_ok hnow, Py.run_bind_ok (Py.run_get _), hrow]
  cases p.db.insertIdentity (nextRow pg p t c kind normalized) with
  | none => rfl
  | some db => rfl

/-- Both stores insert the same identity. -/
theorem Twins.insert_run (h : Twins rt pg gs xs s) {g : TwinCustomer} {kind : IdentityKind}
    {value : String} (hv : ValueOk rt.caseData kind value)
    (hfree : (xs.find? fun x => x.key =
      (g.tenantId.1, kind, identIndexValue rt.caseData kind value)) = none)
    (hsent : ∀ x ∈ [g.tenantId.1, identIndexValue rt.caseData kind value], Sendable x) (e : PgError) :
    (InMemoryCustomerRepository.insertIdentityLocked rt g.tenantId.1 g.memId kind value).run s.1 =
        (.ok (nextIdentity rt pg s g kind value).mem,
          (attached₂ s (nextIdentity rt pg s g kind value)).1) ∧
      (PgCustomerRepository.insertRow pg e g.tenantId.1 g.pgId kind
        (identIndexValue rt.caseData kind value)).run s.2 =
        (.ok (nextIdentity rt pg s g kind value).row,
          (attached₂ s (nextIdentity rt pg s g kind value)).2) := by
  constructor
  · have hid : (InMemoryCustomerRepository.newIdentityId rt).run s.1 =
        (.ok ("idn_" ++ rt.hex s.1.drawn), s.1.tick) := rfl
    unfold InMemoryCustomerRepository.insertIdentityLocked
    rw [Py.run_bind_ok hid, hv.new]
    rfl
  · have hnew : s.2.db.insertIdentity (nextIdentity rt pg s g kind value).row =
        some { s.2.db with identities :=
          s.2.db.identities ++ [(nextIdentity rt pg s g kind value).row] } := by
      unfold PgTables.insertIdentity
      rw [h.selectIdentity, show (xs.find? fun x => x.key =
        (nextIdentity rt pg s g kind value).row.key) = none from hfree]
      rfl
    rw [insertRow_run pg e s.2 hsent]
    exact congrArg (Option.elim · _ _) hnew

/-- Both loops insert the same identities. -/
theorem Twins.insertAll_run (hD : pg.caseData = rt.caseData) {g : TwinCustomer} (hg : g ∈ gs)
    {l : List (IdentityKind × String)} (h : Twins rt pg gs xs s)
    (hv : ∀ x ∈ l, ValueOk rt.caseData x.1 x.2)
    (hnd : (l.map fun x => (x.1, identIndexValue rt.caseData x.1 x.2)).Nodup)
    (hfree : ∀ y ∈ l, (xs.find? fun x => x.key =
      (g.tenantId.1, y.1, identIndexValue rt.caseData y.1 y.2)) = none)
    (htenant : Sendable g.tenantId.1)
    (hsent : ∀ y ∈ l, Sendable (identIndexValue rt.caseData y.1 y.2)) :
    ∃ (ys : List TwinIdentity) (s' : Stores₂), Twins rt pg gs ys s' ∧
      (InMemoryCustomerRepository.insertAll rt g.tenantId.1 g.memId l).run s.1 = (.ok (), s'.1) ∧
      (PgCustomerRepository.insertAll pg g.tenantId.1 g.pgId l).run s.2 = (.ok (), s'.2) := by
  induction l generalizing xs s with
  | nil => exact ⟨xs, s, h, rfl, rfl⟩
  | cons y l ih =>
    obtain ⟨kind, value⟩ := y
    have hvy : ValueOk rt.caseData kind value := hv (kind, value) List.mem_cons_self
    have hfy := hfree (kind, value) List.mem_cons_self
    have hboth : ∀ x ∈ [g.tenantId.1, identIndexValue rt.caseData kind value], Sendable x :=
      sendable_pair htenant (hsent (kind, value) List.mem_cons_self)
    obtain ⟨hmem, hpg⟩ := h.insert_run hvy hfy hboth (.creating g.tenantId.1)
    obtain ⟨hnot, hnd'⟩ := List.nodup_cons.mp hnd
    obtain ⟨ys, s', h', hmem', hpg'⟩ := ih (h.attached hg hvy hfy)
      (fun x hx => hv x (List.mem_cons_of_mem _ hx)) hnd' (fun z hz => by
        have hne : (nextIdentity rt pg s g kind value).key ≠
            (g.tenantId.1, z.1, identIndexValue rt.caseData z.1 z.2) := fun heq =>
          hnot (List.mem_map.mpr ⟨z, hz, (congrArg Prod.snd heq).symm⟩)
        rw [List.find?_append, hfree z (List.mem_cons_of_mem _ hz)]
        simp [hne]) fun z hz => hsent z (List.mem_cons_of_mem _ hz)
    refine ⟨ys, s', h', ?_, ?_⟩
    · unfold InMemoryCustomerRepository.insertAll
      rw [Py.run_bind_ok hmem]
      exact hmem'
    · unfold PgCustomerRepository.insertAll
      rw [hD, Py.run_bind_ok hpg]
      exact hpg'

/-! ### Creation -/

theorem preflight_ok {s : InMemoryCustomerRepository} {t : String} {l : List (IdentityKind × String)}
    (h : ∀ x ∈ l, s.identityIndex.get? (t, x.1, identIndexValue rt.caseData x.1 x.2) = none) :
    (InMemoryCustomerRepository.preflight rt t l).run s = (.ok (), s) := by
  induction l with
  | nil => rfl
  | cons x l ih =>
    unfold InMemoryCustomerRepository.preflight
    rw [Py.run_bind_ok (Py.run_get _), h x List.mem_cons_self]
    exact ih fun y hy => h y (List.mem_cons_of_mem x hy)

theorem preflight_collides {s : InMemoryCustomerRepository} {t : String}
    {l : List (IdentityKind × String)}
    (h : ∃ x ∈ l, s.identityIndex.get? (t, x.1, identIndexValue rt.caseData x.1 x.2) ≠ none) :
    ∃ e, e.kind = .identityCollision ∧
      (InMemoryCustomerRepository.preflight rt t l).run s = (.error e, s) := by
  induction l with
  | nil =>
    obtain ⟨x, hx, -⟩ := h
    cases hx
  | cons x l ih =>
    unfold InMemoryCustomerRepository.preflight
    rw [Py.run_bind_ok (Py.run_get _)]
    cases hx : s.identityIndex.get? (t, x.1, identIndexValue rt.caseData x.1 x.2) with
    | some existing => exact ⟨_, rfl, rfl⟩
    | none =>
      refine ih ?_
      obtain ⟨y, hy, hno⟩ := h
      rcases List.mem_cons.mp hy with rfl | hy
      · exact absurd hx hno
      · exact ⟨y, hy, hno⟩

/-- The loop of a creation ends with a unique violation if a key is taken, wherever it got to. -/
theorem insertAll_collides (pg : PgRuntime) {p : PgCustomerRepository} {t c : String}
    {l : List (IdentityKind × String)}
    (htenant : Sendable t) (hsent : ∀ x ∈ l, Sendable (identIndexValue pg.caseData x.1 x.2))
    (h : ∃ x ∈ l, p.db.selectIdentity (t, x.1, identIndexValue pg.caseData x.1 x.2) ≠ none) :
    ∃ p', (PgCustomerRepository.insertAll pg t c l).run p = (.error (.creating t), p') ∧
      p.drawn ≤ p'.drawn := by
  induction l generalizing p with
  | nil =>
    obtain ⟨x, hx, -⟩ := h
    cases hx
  | cons x l ih =>
    obtain ⟨kind, value⟩ := x
    let row := nextRow pg p t c kind (identIndexValue pg.caseData kind value)
    have hrun := insertRow_run pg (.creating t) p (sendable_pair htenant
      (hsent (kind, value) List.mem_cons_self)) c kind
    unfold PgCustomerRepository.insertAll
    cases hrow : p.db.selectIdentity row.key with
    | some other =>
      have hinsert : p.db.insertIdentity row = none := by
        unfold PgTables.insertIdentity
        rw [hrow]
      rw [show p.db.insertIdentity (nextRow pg p t c kind _) = none from hinsert] at hrun
      exact ⟨{ p with drawn := p.drawn + 1 }, Py.run_bind_error hrun, Nat.le_succ _⟩
    | none =>
      have hinsert : p.db.insertIdentity row =
          some { p.db with identities := p.db.identities ++ [row] } := by
        unfold PgTables.insertIdentity
        rw [hrow]
      obtain ⟨p', hrest, hle⟩ := ih (p := {
        db := { p.db with identities := p.db.identities ++ [row] }
        drawn := p.drawn + 1, begun := p.begun }) (fun y hy => hsent y (List.mem_cons_of_mem _ hy)) (by
          obtain ⟨y, hy, hno⟩ := h
          rcases List.mem_cons.mp hy with rfl | hy
          · exact absurd hrow hno
          · refine ⟨y, hy, ?_⟩
            obtain ⟨z, hz⟩ := Option.ne_none_iff_exists'.mp hno
            rw [select_append, hz]
            simp)
      refine ⟨p', ?_, Nat.le_of_succ_le hle⟩
      rw [show p.db.insertIdentity (nextRow pg p t c kind _) = some _ from hinsert] at hrun
      rw [Py.run_bind_ok hrun]
      exact hrest

/-- The twin of a customer that both stores create next. -/
def nextCustomer (rt : Runtime) (pg : PgRuntime) (s : Stores₂) (t : Str 1 64)
    (name : Option (Str 0 128)) : TwinCustomer :=
  ⟨"cust_" ++ rt.hex s.1.drawn, "cust_" ++ pg.hex s.2.drawn, t, name⟩

/-- The stores in a creation, after the insertion of the customer. -/
def admitted₂ (s : Stores₂) (g : TwinCustomer) : Stores₂ :=
  (s.1.addCustomer g.mem, ⟨s.2.db.insertCustomer g.row, s.2.drawn + 1, s.2.begun + 1⟩)

theorem Twins.admitted (h : Twins rt pg gs xs s) (t : Str 1 64) (name : Option (Str 0 128)) :
    Twins rt pg (gs ++ [nextCustomer rt pg s t name]) xs
      (admitted₂ s (nextCustomer rt pg s t name)) := by
  have hmem : ∀ g ∈ gs, g.memId ≠ "cust_" ++ rt.hex s.1.drawn := fun g hg heq => by
    obtain ⟨n, hn, hid⟩ := h.memDrawn g hg
    exact InMemoryCustomerRepository.drawn_fresh hn (heq.symm.trans hid)
  have hpg : ∀ g ∈ gs, g.pgId ≠ "cust_" ++ pg.hex s.2.drawn := fun g hg heq => by
    obtain ⟨n, hn, hid⟩ := h.pgDrawn g hg
    exact InMemoryCustomerRepository.drawn_fresh hn (heq.symm.trans hid)
  have hnew : s.1.customers.get? ((nextCustomer rt pg s t name).mem.tenantId.1,
      (nextCustomer rt pg s t name).mem.id) = none := by
    rw [Dict.get?_map h.customers, Option.map_eq_none_iff, List.find?_eq_none]
    intro g hg hkey
    exact hmem g hg (congrArg Prod.snd (of_decide_eq_true hkey : (g.tenantId.1, g.memId) = _))
  refine ⟨?_, ?_, h.identities, h.identityRows, h.index, h.keys, ?_, ?_,
    fun x hx => List.mem_append_left _ (h.owners x hx), fun g hg => ?_, fun g hg => ?_, fun x hx => ?_,
    h.canonical⟩
  · change (s.1.customers.set _ _).entries = _
    rw [Dict.entries_set_new _ hnew, h.customers, List.map_append]
    rfl
  · change s.2.db.customers ++ _ = _
    rw [h.customerRows, List.map_append]
    rfl
  · rw [List.map_append]
    refine List.nodup_append.mpr ⟨h.memIds, List.nodup_singleton _, fun a ha b hb hab => ?_⟩
    obtain ⟨g, hg, rfl⟩ := List.mem_map.mp ha
    exact hmem g hg (hab.trans (List.mem_singleton.mp hb))
  · rw [List.map_append]
    refine List.nodup_append.mpr ⟨h.pgIds, List.nodup_singleton _, fun a ha b hb hab => ?_⟩
    obtain ⟨g, hg, rfl⟩ := List.mem_map.mp ha
    exact hpg g hg (hab.trans (List.mem_singleton.mp hb))
  · rcases List.mem_append.mp hg with hg | hg
    · exact InMemoryCustomerRepository.drawn_later (h.memDrawn g hg)
    · rw [List.mem_singleton.mp hg]
      exact ⟨s.1.drawn, Nat.lt_succ_self _, rfl⟩
  · rcases List.mem_append.mp hg with hg | hg
    · exact InMemoryCustomerRepository.drawn_later (h.pgDrawn g hg)
    · rw [List.mem_singleton.mp hg]
      exact ⟨s.2.drawn, Nat.lt_succ_self _, rfl⟩
  · exact InMemoryCustomerRepository.drawn_later (h.identityDrawn x hx)

/-- A failed transaction leaves only draws. -/
theorem Twins.rolledBack (h : Twins rt pg gs xs s) {drawn : Nat} (hd : s.2.drawn ≤ drawn)
    (begun : Nat) : Twins rt pg gs xs (s.1, ⟨s.2.db, drawn, begun⟩) :=
  ⟨h.customers, h.customerRows, h.identities, h.identityRows, h.index, h.keys, h.memIds, h.pgIds,
    h.owners, h.memDrawn, fun g hg => (h.pgDrawn g hg).imp fun _ hn => ⟨Nat.lt_of_lt_of_le hn.1 hd,
      hn.2⟩, h.identityDrawn, h.canonical⟩

/-- The texts of the first statement of a creation, and those of the others. -/
theorem texts_create {D : CaseData} {t : String} {l : List (IdentityKind × String)}
    {name : Option String} (h : ∀ x ∈ (CustomerOp.createCustomer t l name).texts D, Sendable x) :
    (∀ x ∈ t :: name.toList, Sendable x) ∧ ∀ x ∈ l, Sendable (identIndexValue D x.1 x.2) := by
  obtain ⟨hfirst, hvalues⟩ := List.forall_mem_append.mp h
  exact ⟨hfirst, List.forall_mem_map.mp hvalues⟩

/-- A creation in which some identity is taken. -/
theorem Twins.create_collides (hD : pg.caseData = rt.caseData) (h : Twins rt pg gs xs s) {t : String}
    {l : List (IdentityKind × String)} {name : Option String}
    (hsent : ∀ x ∈ (CustomerOp.createCustomer t l name).texts rt.caseData, Sendable x)
    (htaken : ∃ x ∈ l, s.1.identityIndex.get? (t, x.1, identIndexValue rt.caseData x.1 x.2) ≠ none) :
    Agrees rt pg s (.createCustomer t l name, .createCustomer t l name) ∧
      Twins rt pg gs xs (step₂ rt pg s (.createCustomer t l name, .createCustomer t l name)) := by
  obtain ⟨e, he, hpre⟩ := preflight_collides htaken
  have hmem : (InMemoryCustomerRepository.createCustomer rt t l name).run s.1 = (.error e, s.1) :=
    Py.run_bind_error hpre
  obtain ⟨hfirst, hvalues⟩ := texts_create hsent
  let id := "cust_" ++ pg.hex s.2.drawn
  obtain ⟨p', hall, hle⟩ := insertAll_collides pg (t := t) (c := id) (l := l)
    (p := ⟨s.2.db.insertCustomer ⟨id, t, name⟩, s.2.drawn + 1, s.2.begun + 1⟩)
    (hfirst t List.mem_cons_self) (hD ▸ hvalues) (by
      obtain ⟨x, hx, hno⟩ := htaken
      refine ⟨x, hx, fun hnone => hno ?_⟩
      have hsel : s.2.db.selectIdentity (t, x.1, identIndexValue pg.caseData x.1 x.2) = none := hnone
      rw [hD, h.selectIdentity, Option.map_eq_none_iff] at hsel
      rw [h.index, hsel]
      rfl)
  have hpg : (PgCustomerRepository.createCustomer pg t l name).run s.2 =
      (.error (.creating t), ⟨s.2.db, p'.drawn, p'.begun⟩) := by
    have hid : (PgCustomerRepository.newCustomerId pg).run s.2 =
        (.ok id, { s.2 with drawn := s.2.drawn + 1 }) := rfl
    unfold PgCustomerRepository.createCustomer
    rw [Py.run_bind_ok hid]
    refine Py.run_bind_error ?_
    exact PgCustomerRepository.run_transaction_error
      ((Py.run_bind_ok (PgCustomerRepository.run_send hfirst _)).trans
        ((Py.run_bind_ok (Py.run_modify _ _)).trans hall))
  unfold Agrees step₂ InMemoryCustomerRepository.answer PgCustomerRepository.answer
  simp only [hmem, hpg]
  refine ⟨?_, h.rolledBack (Nat.le_of_succ_le hle) _⟩
  change Agree _ (.error e.kind) (.error .identityCollision)
  rw [he]
  exact .error

/-- A creation in which every identity is free and valid. -/
theorem Twins.create_ok (hD : pg.caseData = rt.caseData) (h : Twins rt pg gs xs s) {t : String}
    {l : List (IdentityKind × String)} {name : Option String}
    (hsent : ∀ x ∈ (CustomerOp.createCustomer t l name).texts rt.caseData, Sendable x)
    (ht : 1 ≤ t.length ∧ UpTo 64 t) (hname : ∀ n ∈ name, UpTo 128 n)
    (hv : ∀ x ∈ l, ValueOk rt.caseData x.1 x.2)
    (hnd : (l.map fun x => (x.1, identIndexValue rt.caseData x.1 x.2)).Nodup)
    (hfree : ∀ x ∈ l, s.1.identityIndex.get? (t, x.1, identIndexValue rt.caseData x.1 x.2) = none) :
    Agrees rt pg s (.createCustomer t l name, .createCustomer t l name) ∧
      ∃ gs' xs', Twins rt pg gs' xs'
        (step₂ rt pg s (.createCustomer t l name, .createCustomer t l name)) := by
  obtain ⟨name', hcheck, hval⟩ : ∃ name', Str.checkOpt 128 "Customer" "display_name" name = .ok name' ∧
      name'.map Subtype.val = name := by
    cases name with
    | none => exact ⟨none, rfl, rfl⟩
    | some n => exact ⟨_, Str.checkOpt_ok (hname n rfl), rfl⟩
  obtain ⟨hfirst, hvalues⟩ := texts_create hsent
  let g := nextCustomer rt pg s ⟨t, ht⟩ name'
  have hadmit : Twins rt pg (gs ++ [g]) xs (admitted₂ s g) := h.admitted ⟨t, ht⟩ name'
  have hg : g ∈ gs ++ [g] := List.mem_append_right _ List.mem_cons_self
  obtain ⟨ys, s', hend, hmemAll, hpgAll⟩ := hadmit.insertAll_run hD hg hv hnd (fun y hy => by
    have hno := hfree y hy
    rwa [h.index, Option.map_eq_none_iff] at hno) (hfirst t List.mem_cons_self) hvalues
  have hmem : (InMemoryCustomerRepository.createCustomer rt t l name).run s.1 =
      (.ok g.mem, s'.1) := by
    have hid : (InMemoryCustomerRepository.newCustomerId rt).run s.1 = (.ok g.memId, s.1.tick) := rfl
    have hnew : Customer.new g.memId t name = .ok g.mem := by
      unfold Customer.new
      rw [Str.check_ok ht]
      simp only [bind, Except.bind, hcheck]
      rfl
    unfold InMemoryCustomerRepository.createCustomer
    rw [Py.run_bind_ok (preflight_ok hfree), Py.run_bind_ok hid, hnew]
    exact Py.run_bind_ok hmemAll
  have hpg : (PgCustomerRepository.createCustomer pg t l name).run s.2 = (.ok g.pg, s'.2) := by
    have hid : (PgCustomerRepository.newCustomerId pg).run s.2 =
        (.ok g.pgId, { s.2 with drawn := s.2.drawn + 1 }) := rfl
    have hrow : (⟨g.pgId, t, name⟩ : PgCustomerRow) = g.row := by
      unfold TwinCustomer.row
      rw [show g.displayName.map Subtype.val = name from hval]
      rfl
    unfold PgCustomerRepository.createCustomer
    rw [Py.run_bind_ok hid, hrow, Py.run_bind_ok (PgCustomerRepository.run_transaction_ok
      ((Py.run_bind_ok (PgCustomerRepository.run_send hfirst _)).trans
        ((Py.run_bind_ok (Py.run_modify _ _)).trans hpgAll))), rowToCustomer_twin]
    rfl
  unfold Agrees step₂ InMemoryCustomerRepository.answer PgCustomerRepository.answer
  simp only [hmem, hpg]
  exact ⟨.customer (hend.sameCustomer hg), _, _, hend⟩

/-! ### Attachment -/

/-- The row that makes `add_identity` of the in-memory store idempotent. -/
theorem Twins.find_sameRow (h : Twins rt pg gs xs s) {x : TwinIdentity} (hx : x ∈ xs) :
    s.1.identities.entries.find? (InMemoryCustomerRepository.sameRow x.owner.tenantId.1 x.owner.memId
      x.kind x.value) = some ((x.owner.tenantId.1, x.memId), x.mem) := by
  have hfind : (xs.find? fun y => InMemoryCustomerRepository.sameRow x.owner.tenantId.1 x.owner.memId
      x.kind x.value ((y.owner.tenantId.1, y.memId), y.mem)) = some x := by
    refine find?_unique hx ?_ fun y hy hp => ?_
    · simp [InMemoryCustomerRepository.sameRow, TwinIdentity.mem]
    · obtain ⟨ht, -, hk, hv⟩ : y.owner.tenantId.1 = x.owner.tenantId.1 ∧ y.owner.memId =
          x.owner.memId ∧ y.kind = x.kind ∧ y.value = x.value := of_decide_eq_true hp
      exact List.inj_on_of_nodup_map h.keys hy hx (Prod.ext ht (Prod.ext hk hv))
  rw [h.identities, List.find?_map]
  exact congrArg (Option.map fun y : TwinIdentity => ((y.owner.tenantId.1, y.memId), y.mem)) hfind

/-- An attachment of an identity that the stores have. -/
theorem Twins.add_known (hD : pg.caseData = rt.caseData) (h : Twins rt pg gs xs s) {c c' value : String}
    {x : TwinIdentity} (hx : x ∈ xs) (hc : PairedId (customerIds s) c c')
    (hsent : ∀ y ∈ [x.owner.tenantId.1, identIndexValue rt.caseData x.kind value], Sendable y)
    (hvalue : identIndexValue rt.caseData x.kind value = x.value) :
    Agrees rt pg s (.addIdentity x.owner.tenantId.1 c x.kind value,
        .addIdentity x.owner.tenantId.1 c' x.kind value) ∧
      Twins rt pg gs xs (step₂ rt pg s (.addIdentity x.owner.tenantId.1 c x.kind value,
        .addIdentity x.owner.tenantId.1 c' x.kind value)) := by
  have hfind : (xs.find? fun y => y.key = (x.owner.tenantId.1, x.kind, x.value)) = some x :=
    find?_unique hx (decide_eq_true rfl) fun y hy hp =>
      List.inj_on_of_nodup_map h.keys hy hx (of_decide_eq_true hp)
  have hindex : s.1.identityIndex.get? (x.owner.tenantId.1, x.kind,
      identIndexValue rt.caseData x.kind value) = some x.owner.memId := by
    rw [hvalue, h.index, hfind]
    rfl
  have hselect : s.2.db.selectIdentity (x.owner.tenantId.1, x.kind,
      identIndexValue pg.caseData x.kind value) = some x.row := by
    rw [hD, hvalue, h.selectIdentity, hfind]
    rfl
  have howner := h.paired hc x.owner (h.owners x hx)
  have hend := h.rolledBack (Nat.le_refl _) (s.2.begun + 1)
  unfold Agrees step₂ InMemoryCustomerRepository.answer PgCustomerRepository.answer
  by_cases hown : x.owner.memId = c
  · have hmem : (InMemoryCustomerRepository.addIdentity rt x.owner.tenantId.1 c x.kind value).run
        s.1 = (.ok x.mem, s.1) := by
      unfold InMemoryCustomerRepository.addIdentity
      simp only
      rw [Py.run_bind_ok (Py.run_get _), hindex]
      simp only [hown, ne_eq, not_true_eq_false, ↓reduceIte]
      rw [hvalue, ← hown, h.find_sameRow hx]
      rfl
    have hpg : (PgCustomerRepository.addIdentity pg x.owner.tenantId.1 c' x.kind value).run s.2 =
        (.ok x.pg, ⟨s.2.db, s.2.drawn, s.2.begun + 1⟩) := by
      rw [PgCustomerRepository.addIdentity_again (hD ▸ hsent) hselect (howner.mp hown), hD,
        rowToIdentity_twin (h.canonical x hx)]
    simp only [hmem, hpg]
    exact ⟨.identities (.cons (hend.sameIdentity hx) .nil), hend⟩
  · have hother : x.row.customerId ≠ c' := fun heq => hown (howner.mpr heq)
    have hmem : (InMemoryCustomerRepository.addIdentity rt x.owner.tenantId.1 c x.kind value).run
        s.1 = (.error (.cannotReattach x.kind value x.owner.memId c), s.1) := by
      unfold InMemoryCustomerRepository.addIdentity
      simp only
      rw [Py.run_bind_ok (Py.run_get _), hindex]
      simp only [ne_eq, hown, not_false_eq_true, ↓reduceIte]
      rfl
    have hpg : (PgCustomerRepository.addIdentity pg x.owner.tenantId.1 c' x.kind value).run s.2 =
        (.error (.cannotReattach x.kind value x.owner.pgId c'),
          ⟨s.2.db, s.2.drawn, s.2.begun + 1⟩) :=
      PgCustomerRepository.addIdentity_other (hD ▸ hsent) hselect hother
    simp only [hmem, hpg]
    exact ⟨.error, hend⟩

/-- An attachment of an identity that nobody has. -/
theorem Twins.add_free (hD : pg.caseData = rt.caseData) (h : Twins rt pg gs xs s) {t c c' : String}
    {kind : IdentityKind} {value : String} (hc : PairedId (customerIds s) c c')
    (hfree : (xs.find? fun x => x.key = (t, kind, identIndexValue rt.caseData kind value)) = none)
    (hsent : ∀ x ∈ [t, identIndexValue rt.caseData kind value], Sendable x)
    (hcustomerSent : ∀ x ∈ [t, c'], Sendable x)
    (hok : s.1.customers.get? (t, c) = none ∨ ValueOk rt.caseData kind value) :
    Agrees rt pg s (.addIdentity t c kind value, .addIdentity t c' kind value) ∧
      ∃ gs' xs', Twins rt pg gs' xs'
        (step₂ rt pg s (.addIdentity t c kind value, .addIdentity t c' kind value)) := by
  have hindex : s.1.identityIndex.get? (t, kind, identIndexValue rt.caseData kind value) = none := by
    rw [h.index, hfree]
    rfl
  have hselect : s.2.db.selectIdentity (t, kind, identIndexValue pg.caseData kind value) = none := by
    rw [hD, h.selectIdentity, hfree]
    rfl
  let u : Stores₂ := (s.1, ⟨s.2.db, s.2.drawn, s.2.begun + 1⟩)
  have hbegun : Twins rt pg gs xs u := h.rolledBack (Nat.le_refl _) _
  have haddMem : (InMemoryCustomerRepository.addIdentity rt t c kind value).run s.1 =
      (InMemoryCustomerRepository.addFresh rt t c kind value).run s.1 := by
    unfold InMemoryCustomerRepository.addIdentity
    simp only
    rw [Py.run_bind_ok (Py.run_get _), hindex]
  have hcustomer := h.getCustomer t c
  have hrow := h.selectCustomer t c'
  rw [h.find_paired hc] at hrow
  unfold Agrees step₂ InMemoryCustomerRepository.answer PgCustomerRepository.answer
  cases hg : gs.find? fun g => g.tenantId.1 = t ∧ g.memId = c with
  | none =>
    rw [hg] at hcustomer hrow
    have hmem : (InMemoryCustomerRepository.addIdentity rt t c kind value).run s.1 =
        (.error (.keyError c t), s.1) := by
      rw [haddMem]
      unfold InMemoryCustomerRepository.addFresh
      rw [Py.run_bind_ok (Py.run_get _), hcustomer]
      rfl
    have hpg : (PgCustomerRepository.addIdentity pg t c' kind value).run s.2 =
        (.error (.keyError c' t), ⟨s.2.db, s.2.drawn, s.2.begun + 1⟩) :=
      PgCustomerRepository.addIdentity_unknown (hD ▸ hsent) hcustomerSent hselect hrow
    simp only [hmem, hpg]
    exact ⟨.error, _, _, hbegun⟩
  | some g =>
    rw [hg] at hcustomer hrow
    have hin := List.mem_of_find?_eq_some hg
    obtain ⟨rfl, rfl⟩ : g.tenantId.1 = t ∧ g.memId = c := by simpa using List.find?_some hg
    obtain rfl : g.pgId = c' := (h.paired hc g hin).mp rfl
    have hv : ValueOk rt.caseData kind value := hok.resolve_left fun hno => by
      rw [hcustomer] at hno
      cases hno
    obtain ⟨hmemIns, hpgIns⟩ := hbegun.insert_run hv hfree hsent
      (.concurrentInsert kind value g.tenantId.1)
    have hend := hbegun.attached hin hv hfree
    let x := nextIdentity rt pg u g kind value
    have hx : x ∈ xs ++ [x] := List.mem_append_right _ List.mem_cons_self
    have hmem := haddMem
    unfold InMemoryCustomerRepository.addFresh at hmem
    rw [Py.run_bind_ok (Py.run_get _), hcustomer] at hmem
    replace hmem := hmem.trans hmemIns
    have hpg : (PgCustomerRepository.addIdentity pg g.tenantId.1 g.pgId kind value).run s.2 =
        (.ok x.pg, (attached₂ u x).2) := by
      rw [← hD] at hpgIns
      rw [PgCustomerRepository.addIdentity_insert (hD ▸ hsent) hcustomerSent hselect hrow hpgIns, hD]
      exact congrArg (·, (attached₂ u x).2) (rowToIdentity_twin (hend.canonical _ hx))
    simp only [hmem, hpg]
    exact ⟨.identities (.cons (hend.sameIdentity hx) .nil), _, _, hend⟩

end Writes

/-! ## Runs -/

section Runs

variable {rt : Runtime} {pg : PgRuntime} {gs : List TwinCustomer} {xs : List TwinIdentity}
  {s : Stores₂}

/-- Each pair of calls that meets the condition answers alike and leaves twin stores. -/
theorem step_twins (hD : pg.caseData = rt.caseData) (h : Twins rt pg gs xs s)
    {o : CustomerOp × CustomerOp} (hcalls : CallsOk rt.caseData s o) :
    Agrees rt pg s o ∧ ∃ gs' xs', Twins rt pg gs' xs' (step₂ rt pg s o) := by
  have hread : ∀ {o : CustomerOp × CustomerOp}, (Agrees rt pg s o ∧ step₂ rt pg s o = s) →
      Agrees rt pg s o ∧ ∃ gs' xs', Twins rt pg gs' xs' (step₂ rt pg s o) := fun hr =>
    ⟨hr.1, gs, xs, by rw [hr.2]; exact h⟩
  obtain ⟨hp, hok, hsent⟩ := hcalls
  obtain ⟨o, o'⟩ := o
  cases hp with
  | getCustomer hc => exact hread (h.agrees_getCustomer hc hsent)
  | findCustomerByIdentity => exact hread (h.agrees_find hD hok hsent)
  | listIdentities hc => exact hread (h.agrees_list hD hc hok hsent)
  | count => exact hread (h.agrees_count hsent)
  | @createCustomer t l name =>
    by_cases htaken : ∃ x ∈ l,
        s.1.identityIndex.get? (t, x.1, identIndexValue rt.caseData x.1 x.2) ≠ none
    · obtain ⟨hagree, hend⟩ := h.create_collides hD hsent htaken
      exact ⟨hagree, _, _, hend⟩
    · obtain ⟨ht, hname, hv, hnd⟩ := hok.resolve_left htaken
      exact h.create_ok hD hsent ht hname hv hnd fun x hx => by
        by_contra hno
        exact htaken ⟨x, hx, hno⟩
  | @addIdentity t c c' kind value hc =>
    have ht : Sendable t := hsent t List.mem_cons_self
    have hc' : Sendable c' := hsent c' (List.mem_cons_of_mem t List.mem_cons_self)
    have hvalueSent : Sendable (identIndexValue rt.caseData kind value) :=
      hsent _ (List.mem_cons_of_mem t (List.mem_cons_of_mem c' List.mem_cons_self))
    cases hx : xs.find? fun x => x.key = (t, kind, identIndexValue rt.caseData kind value) with
    | some x =>
      have hin : x ∈ xs := List.mem_of_find?_eq_some hx
      have hkey := List.find?_some hx
      obtain ⟨rfl, rfl, hvalue⟩ : x.owner.tenantId.1 = t ∧ x.kind = kind ∧
          x.value = identIndexValue rt.caseData kind value := by
        simpa [TwinIdentity.key] using hkey
      obtain ⟨hagree, hend⟩ := h.add_known hD hin hc (sendable_pair ht hvalueSent)
        hvalue.symm
      exact ⟨hagree, _, _, hend⟩
    | none =>
      refine h.add_free hD hc hx (sendable_pair ht hvalueSent)
        (sendable_pair ht hc') (hok.resolve_left fun hno => hno ?_)
      rw [h.index, hx]
      rfl

theorem Twins.empty (rt : Runtime) (pg : PgRuntime) : Twins rt pg [] [] ({}, {}) where
  customers := rfl
  customerRows := rfl
  identities := rfl
  identityRows := rfl
  index _ := rfl
  keys := List.nodup_nil
  memIds := List.nodup_nil
  pgIds := List.nodup_nil
  owners _ hx := nomatch hx
  memDrawn _ hg := nomatch hg
  pgDrawn _ hg := nomatch hg
  identityDrawn _ hx := nomatch hx
  canonical _ hx := nomatch hx

/-- In every run in which each call meets the condition, each call so far has got the same answer, or
the same kind of exception, from both repositories, and so will the next one. -/
theorem repositories_agree (hD : pg.caseData = rt.caseData)
    {h : List (Stores₂ × (CustomerOp × CustomerOp))}
    (hr : Run (step₂ rt pg) (CallsOk rt.caseData)
      ({}, {}) h s) :
    (∀ e ∈ h, Agrees rt pg e.1 e.2) ∧
      ∀ o : CustomerOp × CustomerOp, CallsOk rt.caseData s o → Agrees rt pg s o := by
  have hinv : (∃ gs xs, Twins rt pg gs xs s) ∧ ∀ e ∈ h, Agrees rt pg e.1 e.2 := by
    refine hr.invariant (I := fun h s => (∃ gs xs, Twins rt pg gs xs s) ∧
      ∀ e ∈ h, Agrees rt pg e.1 e.2) ⟨⟨[], [], Twins.empty rt pg⟩, fun e he => nomatch he⟩
      fun h s o _ hs hl => ?_
    obtain ⟨⟨gs, xs, htwins⟩, hall⟩ := hs
    obtain ⟨hagree, hend⟩ := step_twins hD htwins hl
    refine ⟨hend, fun e he => ?_⟩
    rcases List.mem_append.mp he with he | he
    · exact hall e he
    · rw [List.mem_singleton.mp he]
      exact hagree
  obtain ⟨⟨gs, xs, htwins⟩, hall⟩ := hinv
  exact ⟨hall, fun o hok => (step_twins hD htwins hok).1⟩

end Runs

/-! ## A creation and a lookup -/

def demoPg : PgRuntime := { demoRuntime with clock := id }

/-- A customer with one e-mail address. -/
def createByEmail : CustomerOp := .createCustomer "t" [(.email, "A")] none

theorem createByEmail_ok : CallOk demoRuntime.caseData ({}, {}) createByEmail := by
  refine .inr ⟨by decide, fun n hn => (nomatch hn), fun x hx => ?_, List.nodup_singleton _⟩
  rw [List.mem_singleton.mp hx]
  exact ⟨by decide, by decide, by decide⟩

theorem lookup_ok (s : Stores₂) :
    CallOk demoRuntime.caseData s (.findCustomerByIdentity "t" .email "a") := Or.inl (by decide)

/-- A lookup with the normalized value. -/
theorem repositories_agree_lookup :
    ∃ h s, Run (step₂ demoRuntime demoPg)
      (CallsOk demoRuntime.caseData) ({}, {}) h s ∧
      h.length = 1 ∧ Agrees demoRuntime demoPg s
        (.findCustomerByIdentity "t" .email "a", .findCustomerByIdentity "t" .email "a") := by
  obtain ⟨h, s, hr, hlen⟩ : ∃ h s, Run (step₂ demoRuntime demoPg)
      (CallsOk demoRuntime.caseData) ({}, {}) h s ∧
      h.length = 1 :=
    ⟨_, _, Run.start.next (o := (createByEmail, createByEmail))
      ⟨.createCustomer, createByEmail_ok, by decide⟩, rfl⟩
  exact ⟨h, s, hr, hlen, (repositories_agree rfl hr).2
    (.findCustomerByIdentity "t" .email "a", .findCustomerByIdentity "t" .email "a")
    ⟨.findCustomerByIdentity, lookup_ok s, by decide⟩⟩

/-- The answer is a customer. -/
def isFound : Except ErrorKind CustomerAnswer → Bool
  | .ok (.customer (some _)) => true
  | _ => false

/-- A lookup with the value as it was given: only the Postgres repository normalizes it. -/
theorem repositories_differ :
    ∃ h s, Run (step₂ demoRuntime demoPg) (fun s o => Paired (customerIds s) o.1 o.2) ({}, {}) h s ∧
      ¬ Agrees demoRuntime demoPg s
        (.findCustomerByIdentity "t" .email "A", .findCustomerByIdentity "t" .email "A") := by
  have hr : Run (step₂ demoRuntime demoPg) (fun s o => Paired (customerIds s) o.1 o.2) ({}, {}) _ _ :=
    Run.start.next (o := (createByEmail, createByEmail)) .createCustomer
  refine ⟨_, _, hr, fun h => ?_⟩
  have hmem : (InMemoryCustomerRepository.answer demoRuntime
      (step₂ demoRuntime demoPg ({}, {}) (createByEmail, createByEmail)).1
      (.findCustomerByIdentity "t" .email "A")).1 = .ok (.customer none) := rfl
  have hpg : isFound (PgCustomerRepository.answer demoPg
      (step₂ demoRuntime demoPg ({}, {}) (createByEmail, createByEmail)).2
      (.findCustomerByIdentity "t" .email "A")).1 = true := by decide +kernel
  unfold Agrees at h
  rw [hmem] at h
  revert hpg
  generalize (PgCustomerRepository.answer demoPg _ _).1 = answer at h ⊢
  cases h
  intro hno
  cases hno

end PennyCore
