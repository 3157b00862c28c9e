import Mathlib.Data.List.Dedup
import PennyCore.ContextEngine.CustomerInvariant
import PennyCore.ContextEngine.LinkingAgreement
import PennyCore.ContextEngine.RepositoryAgreement
import PennyCore.Lib.Run

/-!
# Is a creation all or nothing?

`create_customer` first looks every identity up, then stores the customer, then builds and stores the
rows one by one. The look-up does not compare the list with itself, and a row that its contract refuses
ends the loop with the customer and the rows before it stored.

The values are raw here: of any length, blank, repeated. `AllOrNothing` says what the call promises,
`Creatable` when it keeps it; `create_allOrNothing` proves that the two are one, in every state that
calls of the protocol lead to (`RawOk` is the part of the invariant that raw values keep).
-/

namespace PennyCore

open Lib

/-- The key that an identity is looked up by. -/
def identityKey (D : CaseData) (tenantId : String) (p : IdentityKind × String) : IdentityKey :=
  (tenantId, p.1, identIndexValue D p.1 p.2)

/-- The key of a row. -/
def CustomerIdentity.key (row : CustomerIdentity) : IdentityKey :=
  (row.tenantId.1, row.identityKind, row.identityValue)

/-- The identity contract accepts the value. -/
def Storable (value : String) : Prop := (1 ≤ value.length ∧ UpTo 256 value) ∧ strip value ≠ ""

instance (value : String) : Decidable (Storable value) := by unfold Storable; infer_instance

theorem CustomerIdentity.new_raw (D : CaseData) (id customerId : String) (t : Str 1 64)
    (kind : IdentityKind) (value : String) :
    CustomerIdentity.new D id t.1 customerId kind value =
      if Storable value then .ok ⟨id, t, customerId, kind, identIndexValue D kind value⟩
      else .error valueRefused := by
  unfold CustomerIdentity.new
  rw [Str.check_ok t.2]
  by_cases hlen : 1 ≤ value.length ∧ UpTo 256 value
  · rw [Str.check_ok hlen]
    simp only [bind, Except.bind, normalizeValue_eq]
    by_cases hblank : strip value = ""
    · have hno : ¬ Storable value := fun h => h.2 hblank
      rw [if_pos hblank, if_neg hno]
      rfl
    · have hyes : Storable value := ⟨hlen, hblank⟩
      rw [if_neg hblank, if_pos hyes]
      rfl
  · have hno : ¬ Storable value := fun h => hlen h.1
    rw [Str.check_error hlen, if_neg hno]
    rfl

namespace InMemoryCustomerRepository

variable {rt : Runtime} {s : InMemoryCustomerRepository} {t : Str 1 64} {c : String}
  {identities : List (IdentityKind × String)} {name : Option String}

/-! ## The promise -/

/-- The customer is stored, with one row for each distinct key of the list, indexed to it, and nothing
else is changed. -/
structure StoredWhole (D : CaseData) (s s' : InMemoryCustomerRepository) (tenantId : String)
    (identities : List (IdentityKind × String)) (c : Customer) : Prop where
  fresh : s.customers.get? (tenantId, c.id) = none
  customers : s'.customers = s.customers.set (tenantId, c.id) c
  rows : ((s'.identities.entries.filter fun e => e.2.customerId = c.id).map fun e => e.2.key).Perm
    (identities.map (identityKey D tenantId)).dedup
  others : (s'.identities.entries.filter fun e => e.2.customerId ≠ c.id) = s.identities.entries
  index : ∀ k, s'.identityIndex.get? k =
    if k ∈ identities.map (identityKey D tenantId) then some c.id else s.identityIndex.get? k

/-- The customer is stored whole, or the call raises and nothing is changed. -/
def AllOrNothing (D : CaseData) (s : InMemoryCustomerRepository) (tenantId : String)
    (identities : List (IdentityKind × String))
    (r : Except LinkingError Customer × InMemoryCustomerRepository) : Prop :=
  (∃ c, r.1 = .ok c ∧ StoredWhole D s r.2 tenantId identities c) ∨
    ∃ e, r.1 = .error e ∧ Same s r.2

/-- The call is refused before the first write, or no row can be refused and no key is repeated. -/
def Creatable (D : CaseData) (s : InMemoryCustomerRepository) (tenantId : String)
    (identities : List (IdentityKind × String)) (displayName : Option String) : Prop :=
  (∃ p ∈ identities, s.identityIndex.get? (identityKey D tenantId p) ≠ none) ∨
    ¬ (1 ≤ tenantId.length ∧ UpTo 64 tenantId) ∨
    (∃ name, displayName = some name ∧ ¬ UpTo 128 name) ∨
    ((∀ p ∈ identities, Storable p.2) ∧ (identities.map (identityKey D tenantId)).Nodup)

/-! ## The loop -/

/-- The row of a raw identity. -/
def rawRow (rt : Runtime) (t : Str 1 64) (c : String) (n : Nat) (p : IdentityKind × String) :
    CustomerIdentity :=
  ⟨"idn_" ++ rt.hex n, t, c, p.1, identIndexValue rt.caseData p.1 p.2⟩

def insertRaw (rt : Runtime) (t : Str 1 64) (c : String) (s : InMemoryCustomerRepository)
    (p : IdentityKind × String) : InMemoryCustomerRepository := s.insert (rawRow rt t c s.drawn p)

theorem insertIdentityLocked_raw (rt : Runtime) (s : InMemoryCustomerRepository) (t : Str 1 64)
    (c : String) (p : IdentityKind × String) :
    (insertIdentityLocked rt t.1 c p.1 p.2).run s =
      if Storable p.2 then (.ok (rawRow rt t c s.drawn p), s.insertRaw rt t c p)
      else (.error (.validation valueRefused), s.tick) := by
  have hid : (newIdentityId rt).run s = (.ok ("idn_" ++ rt.hex s.drawn), s.tick) := rfl
  unfold insertIdentityLocked
  rw [Py.run_bind_ok hid, CustomerIdentity.new_raw]
  by_cases h : Storable p.2
  · rw [if_pos h, if_pos h]
    rfl
  · rw [if_neg h, if_neg h]
    rfl

theorem insertAll_ok (h : ∀ p ∈ identities, Storable p.2) :
    (insertAll rt t.1 c identities).run s = (.ok (), identities.foldl (insertRaw rt t c) s) := by
  induction identities generalizing s with
  | nil => rfl
  | cons p rest ih =>
    have hrow := insertIdentityLocked_raw rt s t c p
    rw [if_pos (h p List.mem_cons_self)] at hrow
    unfold insertAll
    rw [Py.run_bind_ok hrow]
    exact ih fun q hq => h q (List.mem_cons_of_mem p hq)

/-- A refused row ends the loop; the customers are not its business. -/
theorem insertAll_refused (rt : Runtime) (s : InMemoryCustomerRepository) (t : Str 1 64) (c : String)
    (h : ¬ ∀ p ∈ identities, Storable p.2) :
    ∃ s', (insertAll rt t.1 c identities).run s = (.error (.validation valueRefused), s') ∧
      s'.customers = s.customers := by
  induction identities generalizing s with
  | nil => exact absurd (fun p hp => nomatch hp) h
  | cons p rest ih =>
    have hrow := insertIdentityLocked_raw rt s t c p
    unfold insertAll
    by_cases hp : Storable p.2
    · rw [if_pos hp] at hrow
      rw [Py.run_bind_ok hrow]
      exact ih (s.insertRaw rt t c p) fun hrest => h (List.forall_mem_cons.mpr ⟨hp, hrest⟩)
    · rw [if_neg hp] at hrow
      rw [Py.run_bind_error hrow]
      exact ⟨s.tick, rfl, rfl⟩

/-! ## What raw values keep -/

/-- The invariant without what only the linker keeps: a key may have several rows, and a stored value
may be too long. -/
abbrev RawOk (rt : Runtime) (s : InMemoryCustomerRepository) : Prop := RepoOn rt (fun _ => False) s

/-- No identity of the list is another customer's. -/
def OwnedBy (D : CaseData) (s : InMemoryCustomerRepository) (t c : String)
    (identities : List (IdentityKind × String)) : Prop :=
  ∀ p ∈ identities, ∀ c', s.identityIndex.get? (identityKey D t p) = some c' → c' = c

theorem OwnedBy.of_free (h : ∀ p ∈ identities, s.identityIndex.get? (identityKey rt.caseData t.1 p) =
    none) (c : String) : OwnedBy rt.caseData s t.1 c identities := by
  intro p hp c' hc'
  rw [h p hp] at hc'
  cases hc'

theorem OwnedBy.insertRaw (h : OwnedBy rt.caseData s t.1 c identities) (p : IdentityKind × String) :
    OwnedBy rt.caseData (s.insertRaw rt t c p) t.1 c identities := by
  intro q hq c' hc'
  simp only [InMemoryCustomerRepository.insertRaw, insert, Dict.get?_set] at hc'
  split at hc'
  · exact (Option.some.inj hc').symm
  · exact h q hq c' hc'

theorem RawOk.insertRaw (h : RawOk rt s) (hc : s.Known t.1 c) (p : IdentityKind × String)
    (hown : OwnedBy rt.caseData s t.1 c [p]) : RawOk rt (s.insertRaw rt t c p) :=
  RepoOn.relink (h := ⟨p.1, identIndexValue rt.caseData p.1 p.2⟩) h hc
    (hown p List.mem_cons_self) fun hno => hno.elim

/-- A row that is inserted, or refused. -/
theorem RawOk.insertIdentityLocked (h : RawOk rt s) {tenantId : String} (hc : s.Known tenantId c)
    (p : IdentityKind × String) (hown : OwnedBy rt.caseData s tenantId c [p]) :
    RawOk rt ((InMemoryCustomerRepository.insertIdentityLocked rt tenantId c p.1 p.2).run s).2 := by
  by_cases ht : 1 ≤ tenantId.length ∧ UpTo 64 tenantId
  · have hrun := insertIdentityLocked_raw rt s ⟨tenantId, ht⟩ c p
    rw [hrun]
    split
    · exact RawOk.insertRaw (t := ⟨tenantId, ht⟩) h hc p hown
    · exact h.tick
  · have hid : (newIdentityId rt).run s = (.ok ("idn_" ++ rt.hex s.drawn), s.tick) := rfl
    unfold InMemoryCustomerRepository.insertIdentityLocked CustomerIdentity.new
    rw [Py.run_bind_ok hid, Str.check_error ht]
    exact h.tick

theorem RawOk.insertAll (h : RawOk rt s) (hc : s.Known t.1 c)
    (hown : OwnedBy rt.caseData s t.1 c identities) :
    RawOk rt ((InMemoryCustomerRepository.insertAll rt t.1 c identities).run s).2 := by
  induction identities generalizing s with
  | nil => exact h
  | cons p rest ih =>
    have hrow := insertIdentityLocked_raw rt s t c p
    have hfirst : OwnedBy rt.caseData s t.1 c [p] := fun q hq =>
      hown q (List.mem_cons.mpr (.inl (List.mem_singleton.mp hq)))
    have hrest : OwnedBy rt.caseData s t.1 c rest := fun q hq => hown q (List.mem_cons_of_mem p hq)
    unfold InMemoryCustomerRepository.insertAll
    by_cases hp : Storable p.2
    · rw [if_pos hp] at hrow
      rw [Py.run_bind_ok hrow]
      exact ih (RawOk.insertRaw h hc p hfirst) hc (hrest.insertRaw p)
    · rw [if_neg hp] at hrow
      rw [Py.run_bind_error hrow]
      exact h.tick

/-- The owner of a row was drawn. -/
theorem RawOk.ownerDrawn (h : RawOk rt s) {k : String × String} {x : CustomerIdentity}
    (hx : s.identities.get? k = some x) : ∃ n < s.drawn, x.customerId = "cust_" ++ rt.hex n := by
  obtain ⟨y, hy⟩ := h.owner _ _ _ _ (h.indexed k.1 k.2 x hx)
  exact h.customerDrawn _ _ y hy

/-! ## The rows of the loop -/

/-- Each row is new: it stands after those that were there. -/
theorem identities_foldl (h : RawOk rt s) (hc : s.Known t.1 c)
    (hown : OwnedBy rt.caseData s t.1 c identities) :
    (identities.foldl (insertRaw rt t c) s).identities.entries =
      s.identities.entries ++ (identities.zipIdx s.drawn).map fun pn =>
        ((t.1, "idn_" ++ rt.hex pn.2), rawRow rt t c pn.2 pn.1) := by
  induction identities generalizing s with
  | nil => exact (List.append_nil _).symm
  | cons p rest ih =>
    have hnew : s.identities.get? (t.1, "idn_" ++ rt.hex s.drawn) = none := by
      cases hx : s.identities.get? (t.1, "idn_" ++ rt.hex s.drawn) with
      | none => rfl
      | some x =>
        obtain ⟨n, hn, heq⟩ := h.identityDrawn _ _ x hx
        exact absurd heq (drawn_fresh hn)
    have hfirst : OwnedBy rt.caseData s t.1 c [p] := fun q hq =>
      hown q (List.mem_cons.mpr (.inl (List.mem_singleton.mp hq)))
    have hlater : OwnedBy rt.caseData s t.1 c rest := fun q hq => hown q (List.mem_cons_of_mem p hq)
    have hrest := ih (RawOk.insertRaw h hc p hfirst) hc (hlater.insertRaw p)
    rw [List.foldl_cons, hrest]
    have hentries : (s.insertRaw rt t c p).identities.entries =
        s.identities.entries ++ [((t.1, "idn_" ++ rt.hex s.drawn), rawRow rt t c s.drawn p)] :=
      Dict.entries_set_new _ hnew
    have hdrawn : (s.insertRaw rt t c p).drawn = s.drawn + 1 := rfl
    rw [hentries, hdrawn, List.zipIdx_cons, List.map_cons, List.append_assoc]
    rfl

theorem identityIndex_foldl (identities : List (IdentityKind × String)) (k : IdentityKey) :
    (identities.foldl (insertRaw rt t c) s).identityIndex.get? k =
      if k ∈ identities.map (identityKey rt.caseData t.1) then some c
      else s.identityIndex.get? k := by
  induction identities generalizing s with
  | nil => simp
  | cons p rest ih =>
    have hfirst : (s.insertRaw rt t c p).identityIndex.get? k =
        if k = identityKey rt.caseData t.1 p then some c else s.identityIndex.get? k :=
      Dict.get?_set ..
    rw [List.foldl_cons, ih, hfirst, List.map_cons]
    by_cases hrest : k ∈ rest.map (identityKey rt.caseData t.1)
    · rw [if_pos hrest, if_pos (List.mem_cons_of_mem _ hrest)]
    · by_cases hk : k = identityKey rt.caseData t.1 p
      · rw [if_neg hrest, if_pos hk, if_pos (List.mem_cons.mpr (.inl hk))]
      · rw [if_neg hrest, if_neg hk, if_neg fun hmem => (List.mem_cons.mp hmem).elim hk hrest]

theorem customers_foldl (identities : List (IdentityKind × String)) :
    (identities.foldl (insertRaw rt t c) s).customers = s.customers := by
  induction identities generalizing s with
  | nil => rfl
  | cons p rest ih => exact ih

/-! ## One call -/

/-- The creation once its look-up has passed and the customer is one. -/
theorem createCustomer_pass {name' : Option (Str 0 128)}
    (hfree : ∀ p ∈ identities, s.identityIndex.get? (identityKey rt.caseData t.1 p) = none)
    (hname : Str.checkOpt 128 "Customer" "display_name" name = .ok name') :
    (createCustomer rt t.1 identities name).run s =
      let r := (insertAll rt t.1 (newCustomer rt t name' s).id identities).run
        (s.addCustomer (newCustomer rt t name' s))
      (r.1.map fun _ => newCustomer rt t name' s, r.2) := by
  have hid : (newCustomerId rt).run s = (.ok ("cust_" ++ rt.hex s.drawn), s.tick) := rfl
  have hnew : Customer.new ("cust_" ++ rt.hex s.drawn) t.1 name = .ok (newCustomer rt t name' s) := by
    unfold Customer.new
    rw [Str.check_ok t.2]
    simp only [bind, Except.bind, hname]
    rfl
  unfold createCustomer
  rw [Py.run_bind_ok (preflight_pass hfree), Py.run_bind_ok hid, hnew]
  exact Py.run_bind_pure (insertAll rt t.1 (newCustomer rt t name' s).id identities)
    (fun _ => newCustomer rt t name' s) (s.addCustomer (newCustomer rt t name' s))

/-- A tenant id or a display name that the customer contract refuses. -/
theorem createCustomer_refused {tenantId : String}
    (hfree : ∀ p ∈ identities, s.identityIndex.get? (identityKey rt.caseData tenantId p) = none)
    (hbad : ¬ (1 ≤ tenantId.length ∧ UpTo 64 tenantId) ∨ ∃ n, name = some n ∧ ¬ UpTo 128 n) :
    ∃ e, (createCustomer rt tenantId identities name).run s = (.error e, s.tick) := by
  have hid : (newCustomerId rt).run s = (.ok ("cust_" ++ rt.hex s.drawn), s.tick) := rfl
  have hnew : ∃ e, Customer.new ("cust_" ++ rt.hex s.drawn) tenantId name = .error e := by
    unfold Customer.new
    by_cases ht : 1 ≤ tenantId.length ∧ UpTo 64 tenantId
    · obtain ⟨n, rfl, hn⟩ := hbad.resolve_left fun h => h ht
      rw [Str.check_ok ht, Str.checkOpt_error hn]
      exact ⟨_, rfl⟩
    · rw [Str.check_error ht]
      exact ⟨_, rfl⟩
  obtain ⟨e, he⟩ := hnew
  unfold createCustomer
  rw [Py.run_bind_ok (preflight_pass hfree), Py.run_bind_ok hid, he]
  exact ⟨_, rfl⟩

theorem createCustomer_collision {tenantId : String} (name : Option String)
    (h : ∃ p ∈ identities, s.identityIndex.get? (identityKey rt.caseData tenantId p) ≠ none) :
    ∃ e, (createCustomer rt tenantId identities name).run s = (.error e, s) := by
  obtain ⟨e, -, he⟩ := preflight_collision h
  exact ⟨e, Py.run_bind_error he⟩

/-- The arguments of a creation: a collision, a bad tenant id or name, or neither. -/
theorem createCustomer_cases (D : CaseData) (s : InMemoryCustomerRepository) (tenantId : String)
    (identities : List (IdentityKind × String)) (name : Option String) :
    (∃ p ∈ identities, s.identityIndex.get? (identityKey D tenantId p) ≠ none) ∨
    ((∀ p ∈ identities, s.identityIndex.get? (identityKey D tenantId p) = none) ∧
      (¬ (1 ≤ tenantId.length ∧ UpTo 64 tenantId) ∨ ∃ n, name = some n ∧ ¬ UpTo 128 n)) ∨
    ((∀ p ∈ identities, s.identityIndex.get? (identityKey D tenantId p) = none) ∧
      (1 ≤ tenantId.length ∧ UpTo 64 tenantId) ∧ (¬ ∃ n, name = some n ∧ ¬ UpTo 128 n) ∧
      ∃ name', Str.checkOpt 128 "Customer" "display_name" name = .ok name') := by
  by_cases hfree : ∀ p ∈ identities, s.identityIndex.get? (identityKey D tenantId p) = none
  · by_cases hbad : ¬ (1 ≤ tenantId.length ∧ UpTo 64 tenantId) ∨ ∃ n, name = some n ∧ ¬ UpTo 128 n
    · exact .inr (.inl ⟨hfree, hbad⟩)
    · rw [not_or, not_not] at hbad
      refine .inr (.inr ⟨hfree, hbad.1, hbad.2, ?_⟩)
      cases name with
      | none => exact ⟨none, rfl⟩
      | some n =>
        have hle : UpTo 128 n := by
          by_contra hno
          exact hbad.2 ⟨n, rfl, hno⟩
        exact ⟨_, Str.checkOpt_ok hle⟩
  · left
    push Not at hfree
    exact hfree

theorem newCustomer_known (s : InMemoryCustomerRepository) (t : Str 1 64) (name : Option (Str 0 128)) :
    (s.addCustomer (newCustomer rt t name s)).Known t.1 (newCustomer rt t name s).id :=
  ⟨_, Dict.get?_set_self _ _ _⟩

theorem RawOk.createCustomer (h : RawOk rt s) (tenantId : String)
    (identities : List (IdentityKind × String)) (name : Option String) :
    RawOk rt ((InMemoryCustomerRepository.createCustomer rt tenantId identities name).run s).2 := by
  rcases createCustomer_cases rt.caseData s tenantId identities name with
    htaken | ⟨hfree, hbad⟩ | ⟨hfree, ht, -, name', hname⟩
  · obtain ⟨e, he⟩ := createCustomer_collision name htaken
    rw [he]
    exact h
  · obtain ⟨e, he⟩ := createCustomer_refused hfree hbad
    rw [he]
    exact h.tick
  · have hrun := createCustomer_pass (t := ⟨tenantId, ht⟩) hfree hname
    have hall := RawOk.insertAll (h.addCustomer (t := ⟨tenantId, ht⟩) name').1
      (newCustomer_known s ⟨tenantId, ht⟩ name') (OwnedBy.of_free hfree _)
    rw [hrun]
    exact hall

theorem RawOk.addFresh (h : RawOk rt s) {tenantId : String} (p : IdentityKind × String)
    (hown : OwnedBy rt.caseData s tenantId c [p]) :
    RawOk rt ((InMemoryCustomerRepository.addFresh rt tenantId c p.1 p.2).run s).2 := by
  unfold InMemoryCustomerRepository.addFresh
  rw [Py.run_bind_ok (Py.run_get s)]
  cases hx : s.customers.get? (tenantId, c) with
  | none => exact h
  | some x => exact RawOk.insertIdentityLocked h ⟨x, hx⟩ p hown

theorem RawOk.addIdentity (h : RawOk rt s) (tenantId customerId : String) (kind : IdentityKind)
    (value : String) :
    RawOk rt ((InMemoryCustomerRepository.addIdentity rt tenantId customerId kind value).run s).2 := by
  unfold InMemoryCustomerRepository.addIdentity
  simp only
  rw [Py.run_bind_ok (Py.run_get s)]
  cases hex : s.identityIndex.get? (identityKey rt.caseData tenantId (kind, value)) with
  | none =>
    have hex' : s.identityIndex.get? (tenantId, kind, identIndexValue rt.caseData kind value) = none := hex
    simp only [hex']
    refine RawOk.addFresh h (kind, value) fun q hq c' hc' => ?_
    rw [List.mem_singleton.mp hq, hex] at hc'
    cases hc'
  | some existing =>
    have hex' : s.identityIndex.get? (tenantId, kind, identIndexValue rt.caseData kind value)
        = some existing := hex
    simp only [hex']
    rw [Py.run_ite]
    by_cases hsame : existing ≠ customerId
    · rw [if_pos hsame]
      exact h
    · rw [if_neg hsame]
      cases hrow : s.identities.entries.find?
          (sameRow tenantId customerId kind (identIndexValue rt.caseData kind value)) with
      | some row =>
        simp only
        exact h
      | none =>
        simp only
        refine RawOk.addFresh h (kind, value) fun q hq c' hc' => ?_
        rw [List.mem_singleton.mp hq] at hc'
        exact (Option.some.inj (hex.symm.trans hc')).symm.trans (not_not.mp hsame)

/-- Every call of the protocol keeps the invariant. -/
theorem RawOk.answer (h : RawOk rt s) (op : CustomerOp) : RawOk rt (s.answer rt op).2 := by
  cases op with
  | createCustomer t identities name => exact RawOk.createCustomer h t identities name
  | addIdentity t c kind value => exact RawOk.addIdentity h t c kind value
  | findCustomerByIdentity t kind value =>
    have hread : (findCustomerByIdentity t kind value).Reads :=
      Py.Reads.bind Py.reads_get fun s => by
        cases s.identityIndex.get? (t, kind, value) <;> exact Py.reads_pure _
    have hs : ((findCustomerByIdentity t kind value).run s).2 = s := hread s
    simp only [InMemoryCustomerRepository.answer, hs]
    exact h
  | getCustomer t c => exact h
  | listIdentities t c => exact h
  | count t =>
    have hread : (InMemoryCustomerRepository.count t).Reads :=
      Py.Reads.bind Py.reads_get fun s => by cases t <;> exact Py.reads_pure _
    have hs : ((InMemoryCustomerRepository.count t).run s).2 = s := hread s
    simp only [InMemoryCustomerRepository.answer, hs]
    exact h

/-- Reached by calls of the protocol, with any arguments. -/
def Reachable (rt : Runtime) (s : InMemoryCustomerRepository) : Prop :=
  ∃ h, Run (fun s op => (answer rt s op).2) (fun _ _ => True) {} h s

theorem Reachable.first (rt : Runtime) (op : CustomerOp) : Reachable rt (answer rt {} op).2 :=
  ⟨_, Run.start.next trivial⟩

theorem Reachable.ok (h : Reachable rt s) : RawOk rt s := by
  obtain ⟨_, hr⟩ := h
  exact hr.holds RepoOn.empty fun s op hs _ => RawOk.answer hs op

/-! ## When the promise is kept -/

/-- The rows of the new customer are the rows of the loop, in the order of the list. -/
theorem rows_foldl (h : RawOk rt s) (name' : Option (Str 0 128))
    (hfree : ∀ p ∈ identities, s.identityIndex.get? (identityKey rt.caseData t.1 p) = none) :
    let c := newCustomer rt t name' s
    let s' := identities.foldl (insertRaw rt t c.id) (s.addCustomer c)
    ((s'.identities.entries.filter fun e => e.2.customerId = c.id).map fun e => e.2.key) =
        identities.map (identityKey rt.caseData t.1) ∧
      (s'.identities.entries.filter fun e => e.2.customerId ≠ c.id) = s.identities.entries := by
  intro c s'
  have hentries := identities_foldl (h.addCustomer (t := t) name').1 (newCustomer_known s t name')
    (OwnedBy.of_free hfree c.id)
  have hs' : s'.identities.entries = s.identities.entries ++
      (identities.zipIdx (s.drawn + 1)).map fun pn =>
        ((t.1, "idn_" ++ rt.hex pn.2), rawRow rt t c.id pn.2 pn.1) := hentries
  have hold : ∀ e ∈ s.identities.entries, e.2.customerId ≠ c.id := by
    intro e he heq
    obtain ⟨n, hn, hid⟩ := RawOk.ownerDrawn h (k := e.1) (x := e.2) (Dict.get?_eq_some.mpr he)
    exact drawn_fresh hn (heq.symm.trans hid)
  constructor
  · rw [hs', List.filter_append, List.filter_eq_nil_iff.mpr fun e he => by simpa using hold e he,
      List.nil_append, List.filter_eq_self.mpr, List.map_map]
    · have hkey : ((fun e : (String × String) × CustomerIdentity => e.2.key) ∘
          fun pn : (IdentityKind × String) × Nat =>
            ((t.1, "idn_" ++ rt.hex pn.2), rawRow rt t c.id pn.2 pn.1)) =
          identityKey rt.caseData t.1 ∘ Prod.fst := rfl
      rw [hkey, ← List.map_map, List.zipIdx_map_fst]
    · intro e he
      obtain ⟨pn, -, rfl⟩ := List.mem_map.mp he
      exact decide_eq_true rfl
  · rw [hs', List.filter_append, List.filter_eq_self.mpr fun e he => by simpa using hold e he,
      List.filter_eq_nil_iff.mpr, List.append_nil]
    intro e he
    obtain ⟨pn, -, rfl⟩ := List.mem_map.mp he
    simp [rawRow]

/-- The new customer's id is not in use. -/
theorem newCustomer_fresh (h : RawOk rt s) (t : Str 1 64) (name' : Option (Str 0 128)) :
    s.customers.get? (t.1, (newCustomer rt t name' s).id) = none := by
  cases hx : s.customers.get? (t.1, (newCustomer rt t name' s).id) with
  | none => rfl
  | some x =>
    obtain ⟨n, hn, heq⟩ := h.customerDrawn _ _ x hx
    exact absurd heq (drawn_fresh hn)

/-- A creation whose values the contract accepts is whole if and only if no key is repeated. -/
theorem allOrNothing_ok (h : RawOk rt s)
    (hfree : ∀ p ∈ identities, s.identityIndex.get? (identityKey rt.caseData t.1 p) = none)
    {name' : Option (Str 0 128)}
    (hname : Str.checkOpt 128 "Customer" "display_name" name = .ok name')
    (hok : ∀ p ∈ identities, Storable p.2) :
    AllOrNothing rt.caseData s t.1 identities ((createCustomer rt t.1 identities name).run s) ↔
      (identities.map (identityKey rt.caseData t.1)).Nodup := by
  rw [createCustomer_pass hfree hname, insertAll_ok hok]
  obtain ⟨hrows, hothers⟩ := rows_foldl (t := t) h name' hfree
  constructor
  · rintro (⟨c, hc, hwhole⟩ | ⟨e, he, -⟩)
    · cases hc
      have hperm := hwhole.rows
      rw [hrows] at hperm
      exact hperm.nodup_iff.mpr (List.nodup_dedup _)
    · cases he
  · intro hnodup
    refine .inl ⟨_, rfl, newCustomer_fresh h t name', customers_foldl identities, ?_, hothers,
      fun k => identityIndex_foldl identities k⟩
    rw [hrows, hnodup.dedup]

/-- A creation with a value that the contract refuses leaves the customer behind. -/
theorem allOrNothing_refused (h : RawOk rt s)
    (hfree : ∀ p ∈ identities, s.identityIndex.get? (identityKey rt.caseData t.1 p) = none)
    {name' : Option (Str 0 128)}
    (hname : Str.checkOpt 128 "Customer" "display_name" name = .ok name')
    (hbad : ¬ ∀ p ∈ identities, Storable p.2) :
    ¬ AllOrNothing rt.caseData s t.1 identities ((createCustomer rt t.1 identities name).run s) := by
  rw [createCustomer_pass hfree hname]
  obtain ⟨s', hrun, hcust⟩ := insertAll_refused rt (s.addCustomer (newCustomer rt t name' s)) t
    (newCustomer rt t name' s).id hbad
  rw [hrun]
  rintro (⟨c, hc, -⟩ | ⟨e, -, hsame⟩)
  · cases hc
  · have hget : s'.customers.get? (t.1, (newCustomer rt t name' s).id) =
        some (newCustomer rt t name' s) := by
      rw [hcust]
      exact Dict.get?_set_self ..
    rw [show s'.customers = s.customers from hsame.customers, newCustomer_fresh h t name'] at hget
    cases hget

/-- In every state that calls of the protocol lead to, and for every list of identities, a creation is
all or nothing if and only if it is refused before its first write, or no row is refused and no key is
repeated. -/
theorem create_allOrNothing {h : List (InMemoryCustomerRepository × CustomerOp)}
    (hr : Run (fun s op => (answer rt s op).2) (fun _ _ => True) {} h s) (tenantId : String)
    (identities : List (IdentityKind × String)) (displayName : Option String) :
    AllOrNothing rt.caseData s tenantId identities
        ((createCustomer rt tenantId identities displayName).run s) ↔
      Creatable rt.caseData s tenantId identities displayName := by
  have hs : RawOk rt s := Reachable.ok ⟨h, hr⟩
  rcases createCustomer_cases rt.caseData s tenantId identities displayName with
    htaken | ⟨hfree, hbad⟩ | ⟨hfree, ht, hn, name', hname⟩
  · obtain ⟨e, he⟩ := createCustomer_collision displayName htaken
    rw [he]
    exact iff_of_true (.inr ⟨e, rfl, Same.refl s⟩) (.inl htaken)
  · obtain ⟨e, he⟩ := createCustomer_refused hfree hbad
    rw [he]
    exact iff_of_true (.inr ⟨e, rfl, Same.tick s⟩) (.inr (or_assoc.mp (.inl hbad)))
  · have hcond : Creatable rt.caseData s tenantId identities displayName ↔
        (∀ p ∈ identities, Storable p.2) ∧
          (identities.map (identityKey rt.caseData tenantId)).Nodup := by
      have hno : ¬ ∃ p ∈ identities,
          s.identityIndex.get? (identityKey rt.caseData tenantId p) ≠ none := by
        rintro ⟨p, hp, hne⟩
        exact hne (hfree p hp)
      unfold Creatable
      rw [or_iff_right hno, or_iff_right (not_not.mpr ht), or_iff_right hn]
    rw [hcond]
    by_cases hok : ∀ p ∈ identities, Storable p.2
    · rw [and_iff_right hok]
      exact allOrNothing_ok (t := ⟨tenantId, ht⟩) hs hfree hname hok
    · exact iff_of_false (allOrNothing_refused (t := ⟨tenantId, ht⟩) hs hfree hname hok)
        fun hcond => hok hcond.1

/-- A second customer, with an address and a telephone number, after a first one. -/
theorem create_allOrNothing_second :
    let s := (answer demoRuntime {} (.createCustomer "t" [(.email, "ann@x.io")] none)).2
    AllOrNothing demoRuntime.caseData s "t" [(.email, "bob@x.io"), (.phone, " 12")]
      ((createCustomer demoRuntime "t" [(.email, "bob@x.io"), (.phone, " 12")] none).run s) := by
  have hlegal : Run.Legal (fun s op => (answer demoRuntime s op).2) (fun _ _ => True) {}
      [.createCustomer "t" [(.email, "ann@x.io")] none] := Run.Legal.of_forall (fun _ _ => trivial) _ _
  apply (create_allOrNothing (Run.ofOps hlegal) "t" _ none).mpr
  exact .inr (.inr (.inr ⟨by decide, by decide⟩))

/-- A blank telephone number leaves the customer and its address behind; a number that is given twice
is stored as two rows. -/
theorem create_partial :
    ¬ AllOrNothing demoRuntime.caseData {} "t" [(.email, "ann@x.io"), (.phone, " ")]
        ((createCustomer demoRuntime "t" [(.email, "ann@x.io"), (.phone, " ")] none).run {}) ∧
      ¬ AllOrNothing demoRuntime.caseData {} "t" [(.phone, "12"), (.phone, "12 ")]
        ((createCustomer demoRuntime "t" [(.phone, "12"), (.phone, "12 ")] none).run {}) := by
  constructor
  · exact allOrNothing_refused (t := ⟨"t", by decide⟩) RepoOn.empty (fun _ _ => rfl) rfl (by decide)
  · intro h
    have hnodup : ([(.phone, "12"), (.phone, "12 ")].map
        (identityKey demoRuntime.caseData "t")).Nodup :=
      (allOrNothing_ok (t := ⟨"t", by decide⟩) RepoOn.empty (fun _ _ => rfl) rfl (by decide)).mp h
    exact absurd hnodup (by decide)

end InMemoryCustomerRepository
end PennyCore
