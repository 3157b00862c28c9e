import Mathlib.Logic.Function.Basic
import PennyCore.ContextEngine.PgCustomerRepository
import PennyCore.Lib.Run

/-!
# Concurrent attachments in Postgres

Any number of `PgCustomerRepository.add_identity` calls whose SQL statements interleave. A call is in a
phase: its next statement, the open transaction after its INSERT, or its end (`AddPhase`). SELECTs read
committed rows only. An INSERT waits while another transaction with the same key is open
(`Blocked`), and fails when a row with the key is committed.

* `AddOk` is the invariant: keys are unique, among the committed and the inserted rows, and a call that
  is done has answered with a committed row (`Answered`).
* `Honours` is the protocol's promise. A call breaks it exactly when its INSERT meets a row of its own
  customer, which another call committed after its SELECT, or when it gives back a row that the
  identity contract refuses (`Clean`).
-/

namespace PennyCore

open Lib

/-- The arguments of a call, and what it takes from outside: the id that it draws and the time of its
transaction. -/
structure AddCall where
  tenantId : String
  customerId : String
  identityKind : IdentityKind
  identityValue : String
  identityId : String
  now : Time

section Machine

variable (D : CaseData)

def AddCall.key (c : AddCall) : IdentityKey :=
  (c.tenantId, c.identityKind, identIndexValue D c.identityKind c.identityValue)

/-- The row that the call inserts. -/
def AddCall.row (c : AddCall) : PgIdentityRow :=
  ⟨c.identityId, c.tenantId, c.customerId, c.identityKind,
    identIndexValue D c.identityKind c.identityValue, c.now⟩

/-- The next statement of a call, or its end. -/
inductive AddPhase where
  | select
  | selectCustomer
  | insert
  /-- The row is inserted and not committed. -/
  | commit
  | done (r : Except PgError CustomerIdentity)

/-- A statement of the call on the committed rows. -/
def AddCall.exec (c : AddCall) (db : PgTables) : AddPhase → PgTables × AddPhase
  | .select =>
    match db.selectIdentity (c.key D) with
    | some existing =>
      if existing.customerId ≠ c.customerId then
        (db, .done (.error (.cannotReattach c.identityKind c.identityValue existing.customerId
          c.customerId)))
      else (db, .done (rowToIdentity D existing))
    | none => (db, .selectCustomer)
  | .selectCustomer =>
    match db.selectCustomer c.tenantId c.customerId with
    | none => (db, .done (.error (.keyError c.customerId c.tenantId)))
    | some _ => (db, .insert)
  | .insert =>
    match db.selectIdentity (c.key D) with
    | some _ =>
      (db, .done (.error (.concurrentInsert c.identityKind c.identityValue c.tenantId)))
    | none => (db, .commit)
  | .commit =>
    ({ db with identities := db.identities ++ [c.row D] }, .done (rowToIdentity D (c.row D)))
  | .done r => (db, .done r)

variable {ι : Type} [DecidableEq ι]

/-- The committed rows, and where each call is. -/
structure AddState (ι : Type) where
  db : PgTables
  phase : ι → AddPhase

/-- The next statement of call `i`. -/
def addStep (calls : ι → AddCall) (s : AddState ι) (i : ι) : AddState ι :=
  ⟨((calls i).exec D s.db (s.phase i)).1,
    Function.update s.phase i ((calls i).exec D s.db (s.phase i)).2⟩

/-- The INSERT of call `i` waits for an open transaction. -/
def Blocked (calls : ι → AddCall) (s : AddState ι) (i : ι) : Prop :=
  s.phase i = .insert ∧ ∃ j, s.phase j = .commit ∧ (calls j).key D = (calls i).key D

/-- The interleavings of the calls' statements from the rows `db`. -/
abbrev AddRun (calls : ι → AddCall) (db : PgTables) : List (AddState ι × ι) → AddState ι → Prop :=
  Run (addStep D calls) (fun s i => ¬ Blocked D calls s i) ⟨db, fun _ => .select⟩

/-- No two rows with one key. -/
def PgTables.Unique (db : PgTables) : Prop := (db.identities.map PgIdentityRow.key).Nodup

/-- The row passes the identity contract. -/
def Accepted (row : PgIdentityRow) : Prop := ∃ identity, rowToIdentity D row = .ok identity

/-- The protocol's promise to a call that is done: the one row of its key is that of its customer, and
it was returned; or it is another customer's, and the call raised an `IdentityCollision`. -/
def Honours (calls : ι → AddCall) (s : AddState ι) (i : ι) : Prop :=
  ∀ r, s.phase i = .done r → ∃ row, s.db.selectIdentity ((calls i).key D) = some row ∧
    ((row.customerId = (calls i).customerId ∧ ∃ identity, rowToIdentity D row = .ok identity ∧
        r = .ok identity) ∨
      (row.customerId ≠ (calls i).customerId ∧ ∃ e, e.IsCollision ∧ r = .error e))

/-- The statement does not take the branch that goes wrong: an INSERT does not meet a row of its own
customer, and the row that the call gives back passes the identity contract. -/
def Clean (calls : ι → AddCall) (s : AddState ι) (i : ι) : Prop :=
  match s.phase i with
  | .select => ∀ row, s.db.selectIdentity ((calls i).key D) = some row →
      row.customerId = (calls i).customerId → Accepted D row
  | .insert => ∀ row, s.db.selectIdentity ((calls i).key D) = some row →
      row.customerId ≠ (calls i).customerId
  | .commit => Accepted D ((calls i).row D)
  | _ => True

/-- The call was to give back a row of its own customer and did not. -/
def Broken (calls : ι → AddCall) (s : AddState ι) (i : ι) : Prop :=
  ∃ r row, s.phase i = .done r ∧ s.db.selectIdentity ((calls i).key D) = some row ∧
    row.customerId = (calls i).customerId ∧
    ¬ ∃ identity, rowToIdentity D row = .ok identity ∧ r = .ok identity

end Machine

/-! ## Rows -/

section Rows

variable {db : PgTables} {row : PgIdentityRow} {key : IdentityKey}

theorem select_append (db : PgTables) (row : PgIdentityRow) (key : IdentityKey) :
    ({ db with identities := db.identities ++ [row] } : PgTables).selectIdentity key =
      (db.selectIdentity key).or (if row.key = key then some row else none) := by
  unfold PgTables.selectIdentity
  rw [List.find?_append]
  by_cases h : row.key = key <;> simp [h]

theorem select_none : db.selectIdentity key = none ↔ key ∉ db.identities.map PgIdentityRow.key := by
  unfold PgTables.selectIdentity
  simp [List.find?_eq_none]

theorem PgTables.Unique.append (h : db.Unique) (hno : db.selectIdentity row.key = none) :
    ({ db with identities := db.identities ++ [row] } : PgTables).Unique := by
  unfold PgTables.Unique
  rw [List.map_append]
  refine List.nodup_append.mpr ⟨h, List.nodup_singleton _, fun a ha b hb hab => ?_⟩
  rw [List.map_singleton, List.mem_singleton] at hb
  exact select_none.mp hno (hb ▸ hab ▸ ha)

end Rows

/-! ## Steps -/

section Steps

variable {D : CaseData} {ι : Type} [DecidableEq ι] {calls : ι → AddCall} {s t : AddState ι} {i j : ι}

theorem phase_self (calls : ι → AddCall) (s : AddState ι) (i : ι) :
    (addStep D calls s i).phase i = ((calls i).exec D s.db (s.phase i)).2 :=
  Function.update_self _ _ _

theorem phase_ne (calls : ι → AddCall) (s : AddState ι) (h : j ≠ i) :
    (addStep D calls s i).phase j = s.phase j :=
  Function.update_of_ne h _ _

/-- A statement leaves the rows, or commits the call's own row. -/
theorem db_step (D : CaseData) (calls : ι → AddCall) (s : AddState ι) (i : ι) :
    (addStep D calls s i).db = s.db ∨
      (s.phase i = .commit ∧ (addStep D calls s i).db =
        { s.db with identities := s.db.identities ++ [(calls i).row D] }) := by
  unfold addStep AddCall.exec
  cases hp : s.phase i with
  | select =>
    left
    simp only
    split
    · split <;> rfl
    · rfl
  | selectCustomer =>
    left
    simp only
    split <;> rfl
  | insert =>
    left
    simp only
    split <;> rfl
  | commit => exact .inr ⟨rfl, rfl⟩
  | done r => exact .inl rfl

/-- Committed rows stay. -/
theorem select_step {key : IdentityKey} {row : PgIdentityRow}
    (h : s.db.selectIdentity key = some row) (i : ι) :
    (addStep D calls s i).db.selectIdentity key = some row := by
  rcases db_step D calls s i with heq | ⟨-, heq⟩
  · rw [heq, h]
  · rw [heq, select_append, h, Option.some_or]

/-- The step of another call keeps what a call was promised. -/
theorem Honours.other (h : Honours D calls s j) (hij : j ≠ i) :
    Honours D calls (addStep D calls s i) j := by
  intro r hr
  rw [phase_ne calls s hij] at hr
  obtain ⟨row, hrow, hcase⟩ := h r hr
  exact ⟨row, select_step hrow i, hcase⟩

theorem Broken.step (h : Broken D calls s j) (i : ι) : Broken D calls (addStep D calls s i) j := by
  obtain ⟨r, row, hr, hrow, hown, hno⟩ := h
  refine ⟨r, row, ?_, select_step hrow i, hown, hno⟩
  by_cases hij : j = i
  · subst hij
    rw [phase_self, hr]
    rfl
  · rw [phase_ne calls s hij, hr]

omit [DecidableEq ι] in
theorem Broken.not_honours (h : Broken D calls s i) : ¬ Honours D calls s i := by
  obtain ⟨r, row, hr, hrow, hown, hno⟩ := h
  intro hh
  obtain ⟨row', hrow', hcase⟩ := hh r hr
  rw [hrow] at hrow'
  cases hrow'
  rcases hcase with ⟨-, hok⟩ | ⟨hother, -⟩
  · exact hno hok
  · exact hother hown

/-- The row that a call commits is the one with its key. -/
theorem select_own (hp : s.phase i = .commit)
    (hopen : s.phase i = .commit → s.db.selectIdentity ((calls i).key D) = none) :
    (addStep D calls s i).db.selectIdentity ((calls i).key D) = some ((calls i).row D) := by
  have hdb : (addStep D calls s i).db =
      { s.db with identities := s.db.identities ++ [(calls i).row D] } := by
    unfold addStep
    rw [hp]
    rfl
  have hkey : ((calls i).row D).key = (calls i).key D := rfl
  rw [hdb, select_append, hopen hp, Option.none_or, if_pos hkey]

/-- A clean statement keeps the promise to its call. -/
theorem Clean.honours (hc : Clean D calls s i) (hh : Honours D calls s i)
    (hopen : s.phase i = .commit → s.db.selectIdentity ((calls i).key D) = none)
    (hcustomer : s.db.selectCustomer (calls i).tenantId (calls i).customerId ≠ none) :
    Honours D calls (addStep D calls s i) i := by
  intro r hr
  rw [phase_self] at hr
  unfold Clean at hc
  cases hp : s.phase i with
  | select =>
    rw [hp] at hr hc
    unfold AddCall.exec at hr
    simp only at hr hc
    cases hrow : s.db.selectIdentity ((calls i).key D) with
    | none =>
      simp only [hrow] at hr
      cases hr
    | some row =>
      simp only [hrow] at hr
      refine ⟨row, select_step hrow i, ?_⟩
      by_cases hown : row.customerId = (calls i).customerId
      · rw [if_neg (not_not.mpr hown)] at hr
        obtain ⟨identity, hid⟩ := hc row hrow hown
        rw [hid] at hr
        cases hr
        exact .inl ⟨hown, identity, hid, rfl⟩
      · rw [if_pos hown] at hr
        cases hr
        refine .inr ⟨hown, _, ?_, rfl⟩
        exact trivial
  | selectCustomer =>
    rw [hp] at hr
    unfold AddCall.exec at hr
    simp only at hr
    split at hr
    · rename_i hnone
      exact absurd hnone hcustomer
    · cases hr
  | insert =>
    rw [hp] at hr hc
    unfold AddCall.exec at hr
    simp only at hr hc
    cases hrow : s.db.selectIdentity ((calls i).key D) with
    | none =>
      simp only [hrow] at hr
      cases hr
    | some row =>
      simp only [hrow] at hr
      cases hr
      refine ⟨row, select_step hrow i, .inr ⟨hc row hrow, _, ?_, rfl⟩⟩
      exact trivial
  | commit =>
    rw [hp] at hr hc
    obtain ⟨identity, hid⟩ := hc
    unfold AddCall.exec at hr
    simp only [hid] at hr
    cases hr
    exact ⟨_, select_own hp hopen, .inl ⟨rfl, identity, hid, rfl⟩⟩
  | done r' =>
    rw [hp] at hr
    obtain ⟨row, hrow, hcase⟩ := hh r (hp.trans hr)
    exact ⟨row, select_step hrow i, hcase⟩

/-- A statement that is not clean breaks it. -/
theorem not_clean (hc : ¬ Clean D calls s i)
    (hopen : s.phase i = .commit → s.db.selectIdentity ((calls i).key D) = none) :
    Broken D calls (addStep D calls s i) i := by
  unfold Clean at hc
  cases hp : s.phase i with
  | select =>
    rw [hp] at hc
    simp only [not_forall] at hc
    obtain ⟨row, hrow, hown, hno⟩ := hc
    refine ⟨rowToIdentity D row, row, ?_, select_step hrow i, hown,
      fun ⟨identity, hid, _⟩ => hno ⟨identity, hid⟩⟩
    rw [phase_self, hp]
    unfold AddCall.exec
    simp only [hrow]
    rw [if_neg (not_not.mpr hown)]
  | selectCustomer =>
    rw [hp] at hc
    exact absurd trivial hc
  | insert =>
    rw [hp] at hc
    simp only [not_forall, not_not] at hc
    obtain ⟨row, hrow, hown⟩ := hc
    refine ⟨.error (.concurrentInsert (calls i).identityKind (calls i).identityValue
      (calls i).tenantId), row, ?_, select_step hrow i, hown, fun ⟨identity, _, hno⟩ => nomatch hno⟩
    rw [phase_self, hp]
    unfold AddCall.exec
    simp only [hrow]
  | commit =>
    rw [hp] at hc
    refine ⟨rowToIdentity D ((calls i).row D), _, ?_, select_own hp hopen, rfl,
      fun ⟨identity, hid, _⟩ => hc ⟨identity, hid⟩⟩
    rw [phase_self, hp]
    rfl
  | done r =>
    rw [hp] at hc
    exact absurd trivial hc

/-! ## Runs -/

/-- The invariant of the interleavings from the rows `db`. -/
structure AddOk (D : CaseData) (calls : ι → AddCall) (db : PgTables) (h : List (AddState ι × ι))
    (s : AddState ι) : Prop where
  unique : s.db.Unique
  customers : s.db.customers = db.customers
  opened : ∀ i, s.phase i = .commit → s.db.selectIdentity ((calls i).key D) = none
  alone : ∀ i j, s.phase i = .commit → s.phase j = .commit →
    (calls i).key D = (calls j).key D → i = j
  clean : ∀ i, (∀ e ∈ h, e.2 = i → Clean D calls e.1 i) → Honours D calls s i
  unclean : ∀ i, (∃ e ∈ h, e.2 = i ∧ ¬ Clean D calls e.1 i) → Broken D calls s i

variable {db : PgTables} {h : List (AddState ι × ι)}

omit [DecidableEq ι] in
theorem AddOk.init (hu : db.Unique) : AddOk D calls db [] ⟨db, fun _ => .select⟩ where
  unique := hu
  customers := rfl
  opened _ hp := nomatch hp
  alone _ _ hp := nomatch hp
  clean _ _ _ hr := nomatch hr
  unclean _ := fun ⟨_, he, _⟩ => nomatch he

omit [DecidableEq ι] in
/-- An INSERT that goes through finds no row with its key. -/
theorem commit_of_step (hp : ((calls i).exec D s.db (s.phase i)).2 = .commit) :
    s.phase i = .insert ∧ s.db.selectIdentity ((calls i).key D) = none := by
  unfold AddCall.exec at hp
  split at hp
  · split at hp
    · split at hp <;> cases hp
    · cases hp
  · split at hp <;> cases hp
  · rename_i heq
    split at hp
    · cases hp
    · rename_i hnone
      exact ⟨heq, hnone⟩
  · cases hp
  · cases hp

theorem AddOk.step (hs : AddOk D calls db h s) (hb : ¬ Blocked D calls s i)
    (hcustomer : db.selectCustomer (calls i).tenantId (calls i).customerId ≠ none) :
    AddOk D calls db (h ++ [(s, i)]) (addStep D calls s i) := by
  -- an open transaction was open before, or is that of the INSERT
  have hopen : ∀ j, (addStep D calls s i).phase j = .commit →
      (j = i ∧ s.phase i = .insert ∧ s.db.selectIdentity ((calls i).key D) = none) ∨
        (j ≠ i ∧ s.phase j = .commit) := fun j hj => by
    by_cases hij : j = i
    · subst hij
      rw [phase_self] at hj
      exact .inl ⟨rfl, commit_of_step hj⟩
    · rw [phase_ne calls s hij] at hj
      exact .inr ⟨hij, hj⟩
  refine ⟨?_, ?_, fun j hj => ?_, fun j k hj hk hkey => ?_, fun j hclean => ?_, fun j hun => ?_⟩
  · rcases db_step D calls s i with heq | ⟨hp, heq⟩
    · rw [heq]
      exact hs.unique
    · rw [heq]
      exact hs.unique.append (hs.opened i hp)
  · rcases db_step D calls s i with heq | ⟨-, heq⟩ <;> rw [heq] <;> exact hs.customers
  · rcases db_step D calls s i with heq | ⟨hp, heq⟩
    · rw [heq]
      rcases hopen j hj with ⟨rfl, -, hnone⟩ | ⟨-, hj'⟩
      · exact hnone
      · exact hs.opened j hj'
    · rcases hopen j hj with ⟨rfl, hp', -⟩ | ⟨hij, hj'⟩
      · rw [hp] at hp'
        cases hp'
      · have hne : ((calls i).row D).key ≠ (calls j).key D := fun hkey =>
          hij (hs.alone j i hj' hp hkey.symm)
        rw [heq, select_append, hs.opened j hj', Option.none_or, if_neg hne]
  · rcases hopen j hj with ⟨rfl, hp, -⟩ | ⟨-, hj'⟩ <;> rcases hopen k hk with ⟨rfl, hp', -⟩ | ⟨-, hk'⟩
    · rfl
    · exact absurd ⟨hp, k, hk', hkey.symm⟩ hb
    · exact absurd ⟨hp', j, hj', hkey⟩ hb
    · exact hs.alone j k hj' hk' hkey
  · have hold := hs.clean j fun e he => hclean e (List.mem_append_left _ he)
    by_cases hij : j = i
    · subst hij
      have hnow := hclean (s, j) (List.mem_append_right _ List.mem_cons_self) rfl
      refine Clean.honours hnow hold (hs.opened j) ?_
      unfold PgTables.selectCustomer at hcustomer ⊢
      rw [hs.customers]
      exact hcustomer
    · exact hold.other hij
  · obtain ⟨e, he, rfl, hno⟩ := hun
    rcases List.mem_append.mp he with he | he
    · exact (hs.unclean e.2 ⟨e, he, rfl, hno⟩).step i
    · obtain rfl := List.mem_singleton.mp he
      exact not_clean hno (hs.opened i)

/-- In every interleaving of calls on existing customers no two rows have one key, and the promise is
kept to all calls exactly if every statement was clean. -/
theorem addIdentity_honours (hu : db.Unique)
    (hcustomers : ∀ i, db.selectCustomer (calls i).tenantId (calls i).customerId ≠ none)
    (hr : AddRun D calls db h s) :
    s.db.Unique ∧ ((∀ i, Honours D calls s i) ↔ ∀ e ∈ h, Clean D calls e.1 e.2) := by
  have hs : AddOk D calls db h s := hr.invariant (AddOk.init hu) fun h s i _ hs hb =>
    hs.step hb (hcustomers i)
  refine ⟨hs.unique, fun hh e he => ?_, fun hclean i => hs.clean i fun e he hi => hi ▸ hclean e he⟩
  by_contra hno
  exact (hs.unclean e.2 ⟨e, he, rfl, hno⟩).not_honours (hh e.2)

end Steps

/-! ## Two calls for one identity of one customer -/

def oneCustomer : PgTables := { customers := [⟨"c", "t", none⟩] }

/-- A call that attaches the phone number `7` to the customer. -/
def attach (identityId : String) : AddCall := ⟨"t", "c", .phone, "7", identityId, 0⟩

def twoCalls (b : Bool) : AddCall := attach (if b then "idn_1" else "idn_2")

theorem oneCustomer_unique : oneCustomer.Unique := List.nodup_nil

/-- The second call begins when the first has committed: both are given the one row. -/
theorem addIdentity_honours_inTurn :
    ∃ (h : List (AddState Bool × Bool)) (s : AddState Bool),
      AddRun CaseData.ascii twoCalls oneCustomer h s ∧ s.db.identities.length = 1 ∧
        ∀ i, (∃ r, s.phase i = .done r) ∧ Honours CaseData.ascii twoCalls s i := by
  have hl : Run.Legal (addStep CaseData.ascii twoCalls)
      (fun s i => ¬ Blocked CaseData.ascii twoCalls s i)
      ⟨oneCustomer, fun _ => .select⟩ [true, true, true, true, false] :=
    ⟨(fun hb => nomatch hb.1), (fun hb => nomatch hb.1),
      (fun ⟨_, j, hj, _⟩ => by cases j <;> cases hj), (fun hb => nomatch hb.1),
      (fun hb => nomatch hb.1), trivial⟩
  have hr := Run.ofOps hl
  refine ⟨_, _, hr, rfl, fun i => ⟨by cases i <;> exact ⟨_, rfl⟩, ?_⟩⟩
  refine (addIdentity_honours oneCustomer_unique (fun b => by cases b <;> decide) hr).2.mpr ?_ i
  intro e he
  rcases he with _ | ⟨_, _ | ⟨_, _ | ⟨_, _ | ⟨_, _ | ⟨_, he⟩⟩⟩⟩⟩
  · exact fun row hrow => nomatch hrow
  · exact trivial
  · exact fun row hrow => nomatch hrow
  · exact ⟨_, rfl⟩
  · rintro row hrow -
    cases hrow
    exact ⟨_, rfl⟩
  · cases he

/-- Both calls look before either inserts: the second one gets an `IdentityCollision`, though the
identity is that of its own customer. -/
theorem addIdentity_race :
    oneCustomer.Unique ∧ (∀ b, oneCustomer.selectCustomer (twoCalls b).tenantId (twoCalls b).customerId
      ≠ none) ∧ ∃ (h : List (AddState Bool × Bool)) (s : AddState Bool),
      AddRun CaseData.ascii twoCalls oneCustomer h s ∧ ¬ Honours CaseData.ascii twoCalls s false := by
  have hl : Run.Legal (addStep CaseData.ascii twoCalls)
      (fun s i => ¬ Blocked CaseData.ascii twoCalls s i)
      ⟨oneCustomer, fun _ => .select⟩ [true, true, false, false, true, true, false] :=
    ⟨(fun hb => nomatch hb.1), (fun hb => nomatch hb.1), (fun hb => nomatch hb.1),
      (fun hb => nomatch hb.1), (fun ⟨_, j, hj, _⟩ => by cases j <;> cases hj),
      (fun hb => nomatch hb.1), (fun ⟨_, j, hj, _⟩ => by cases j <;> cases hj), trivial⟩
  refine ⟨oneCustomer_unique, fun b => by cases b <;> decide, _, _, Run.ofOps hl, fun hh => ?_⟩
  obtain ⟨row, hrow, hcase⟩ := hh (.error (.concurrentInsert .phone "7" "t")) rfl
  have hown : row.customerId = "c" := by
    rw [← Option.some.inj hrow]
    rfl
  rcases hcase with ⟨-, identity, -, hno⟩ | ⟨hother, -⟩
  · cases hno
  · exact hother hown

end PennyCore
