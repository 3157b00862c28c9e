import Mathlib.Data.List.Sort
import Mathlib.Data.String.Basic
import PennyCore.Lib.Transactions

/-!
# The migration runner

`src/scripts/migrate.py`: applies the files of `migrations/versions` in their order, each in a
transaction of its own that also records it in the ledger `schema_migrations`.

* `discoverMigrations` is the listing with its checks, `main` the whole run, as a session on the
  ledger. A row of the ledger stands for what its migration did to the schema, which its transaction
  commits with it. The database may refuse a migration (`MigrateRuntime.refuses`).
* `Pending` is how far a runner is; `Pending.exec` says what each of its statements does.
* `migrate_race`: runners that run at the same time, from whatever checkouts.
* `migrate_alone`: one runner, and the next one after it; `main_alone`: its statements do that.
-/

namespace PennyCore

open Lib

/-- A file of `migrations/versions`. -/
structure Migration where
  name : String
  sql : String
  deriving DecidableEq, Repr

/-- A row of `schema_migrations`. -/
structure AppliedRow where
  filename : String
  checksum : String
  deriving DecidableEq, Repr

/-- `filename TEXT PRIMARY KEY`. -/
def AppliedRow.Clash (r r' : AppliedRow) : Prop := r.filename = r'.filename

instance : DecidableRel AppliedRow.Clash := fun r r' =>
  inferInstanceAs (Decidable (r.filename = r'.filename))

structure MigrateRuntime where
  /-- `\d`. -/
  isDecimal : Char → Bool
  /-- `hashlib.sha256(sql.encode("utf-8")).hexdigest()`. -/
  sha256 : String → String
  /-- `cur.execute(sql)` raises, on the schema that the migrations in the ledger made. -/
  refuses : List AppliedRow → String → Bool

namespace Migrate

variable (rt : MigrateRuntime)

/-! ## The listing -/

/-- `*.sql`. -/
def isSql (name : List Char) : Bool := ".sql".toList.isSuffixOf name

/-- `MIGRATION_FILENAME_RE.match(name)`: the prefix. -/
def filenamePrefix (name : String) : Option String :=
  match name.toList with
  | a :: b :: c :: d :: '_' :: rest =>
    if [a, b, c, d].all rt.isDecimal ∧ 4 < rest.length ∧ isSql rest ∧
        (rest.take (rest.length - 4)).all fun x =>
          ('a' ≤ x ∧ x ≤ 'z') ∨ ('0' ≤ x ∧ x ≤ '9') ∨ x = '_'
    then some (.ofList [a, b, c, d]) else none
  | _ => none

/-- The loop over the files, after the prefixes `seen`. -/
def checkPrefixes (seen : List String) : List Migration → Option Nat
  | [] => none
  | f :: files =>
    match filenamePrefix rt f.name with
    | none => some 2
    | some pre => if pre ∈ seen then some 2 else checkPrefixes (seen ++ [pre]) files

/-- `discover_migrations`, of the directory if there is one; an error is the exit code. -/
def discoverMigrations (directory : Option (List Migration)) : Except Nat (List Migration) :=
  match directory with
  | none => .error 1
  | some listing =>
    let files := (listing.filter fun f => isSql f.name.toList).insertionSort
      fun f g => f.name ≤ g.name
    match checkPrefixes rt [] files with
    | some code => .error code
    | none => .ok files

/-! ## The run -/

def ledgerRow (m : Migration) : AppliedRow := ⟨m.name, rt.sha256 m.sql⟩

/-- The loop over the pending migrations, with `apply_one`. -/
def applyAll : List Migration → Session AppliedRow Nat
  | [] => .commit (.done 0)
  | m :: ms => .select fun rows =>
    if rt.refuses rows m.sql then .rollback (.commit (.done 1))
    else .insert (ledgerRow rt m) fun inWay =>
      if inWay = [] then .commit (applyAll ms) else .rollback (.commit (.done 1))

/-- `m.name not in already`. -/
def pendingOf (files : List Migration) (rows : List AppliedRow) : List Migration :=
  files.filter fun m => m.name ∉ rows.map AppliedRow.filename

/-- The run on a connection: `ensure_ledger`, `applied_filenames`, and the loop. -/
def migrate (files : List Migration) : Session AppliedRow Nat :=
  .commit (.select fun rows => applyAll rt (pendingOf files rows))

/-- `main()`, with `DATABASE_URL`. -/
def main (databaseUrl : Option String) (directory : Option (List Migration)) :
    Session AppliedRow Nat :=
  if databaseUrl.getD "" = "" then .done 1
  else
    match discoverMigrations rt directory with
    | .error code => .done code
    | .ok [] => .done 0
    | .ok files => migrate rt files

/-! ## What a runner does -/

/-- The migrations that are in the ledger. -/
def Recorded (rows : List AppliedRow) (m : Migration) : Prop := m.name ∈ rows.map AppliedRow.filename

/-- Of `files`, the runner is left with `ms`: all others are in the ledger. -/
structure Left (files ms : List Migration) (rows : List AppliedRow) : Prop where
  sub : ms.Sublist files
  rest : ∀ m ∈ files, m ∈ ms ∨ Recorded rows m

/-- How far a runner of `files` is, on the committed rows and those of its transaction. -/
inductive Pending (files : List Migration) (rows : List AppliedRow) :
    List AppliedRow → Session AppliedRow Nat → Prop
  | begun : Pending files rows [] (migrate rt files)
  | ready : Pending files rows [] (.select fun rows => applyAll rt (pendingOf files rows))
  | left {ms : List Migration} (h : Left files ms rows) : Pending files rows [] (applyAll rt ms)
  | executed {m : Migration} {ms : List Migration} (h : Left files (m :: ms) rows) :
      Pending files rows [] (.insert (ledgerRow rt m) fun inWay =>
        if inWay = [] then .commit (applyAll rt ms) else .rollback (.commit (.done 1)))
  | inserted {m : Migration} {ms : List Migration} (h : Left files (m :: ms) rows) :
      Pending files rows [ledgerRow rt m] (.commit (applyAll rt ms))
  | failed : Pending files rows [] (.rollback (.commit (.done 1)))
  | failing : Pending files rows [] (.commit (.done 1))
  | exited {code : Nat} (h : code = 0 → ∀ m ∈ files, Recorded rows m) :
      Pending files rows [] (.done code)

section Runner

variable {rt} {files ms : List Migration} {m : Migration} {rows new pending : List AppliedRow}
  {p : Session AppliedRow Nat}

theorem Recorded.grow (h : Recorded rows m) (new : List AppliedRow) : Recorded (rows ++ new) m := by
  rw [Recorded, List.map_append]
  exact List.mem_append_left _ h

theorem Left.grow (h : Left files ms rows) (new : List AppliedRow) : Left files ms (rows ++ new) :=
  ⟨h.sub, fun m hm => (h.rest m hm).imp_right fun h => h.grow new⟩

theorem left_pendingOf (files : List Migration) (rows : List AppliedRow) :
    Left files (pendingOf files rows) rows where
  sub := List.filter_sublist
  rest m hm := by
    by_cases h : Recorded rows m
    · exact .inr h
    · exact .inl (List.mem_filter.mpr ⟨hm, decide_eq_true h⟩)

theorem Left.next (h : Left files (m :: ms) rows) : Left files ms (rows ++ [ledgerRow rt m]) where
  sub := (List.sublist_cons_self m ms).trans h.sub
  rest m' hm' := by
    rcases h.rest m' hm' with h' | h'
    · rcases List.mem_cons.mp h' with rfl | h'
      · exact .inr (by simp [Recorded, ledgerRow])
      · exact .inl h'
    · exact .inr (h'.grow _)

/-- The files before the next one are in the ledger. -/
theorem Left.before (h : Left files (m :: ms) rows) (hnd : (files.map Migration.name).Nodup)
    {earlier later : List Migration} (hfiles : files = earlier ++ m :: later) :
    ∀ m' ∈ earlier, Recorded rows m' := by
  intro m' hm'
  subst hfiles
  refine (h.rest m' (List.mem_append_left _ hm')).resolve_left fun hleft => ?_
  obtain ⟨-, -, hdisjoint⟩ := List.nodup_append.mp (List.Nodup.of_map _ hnd)
  obtain ⟨front, back, heq, hfront, hback⟩ := List.sublist_append_iff.mp h.sub
  cases front with
  | nil =>
    rw [heq] at hleft
    exact hdisjoint m' hm' m' (hback.subset hleft) rfl
  | cons x front =>
    obtain rfl : m = x := (List.cons.inj heq).1
    exact hdisjoint m (hfront.subset List.mem_cons_self) m List.mem_cons_self rfl

theorem Pending.grow (h : Pending rt files rows pending p) (new : List AppliedRow) :
    Pending rt files (rows ++ new) pending p := by
  cases h with
  | begun => exact .begun
  | ready => exact .ready
  | left h => exact .left (h.grow new)
  | executed h => exact .executed (h.grow new)
  | inserted h => exact .inserted (h.grow new)
  | failed => exact .failed
  | failing => exact .failing
  | exited h => exact .exited fun hcode m hm => (h hcode m hm).grow new

/-- Each statement of a runner takes it on. -/
theorem Pending.exec (h : Pending rt files rows pending p) :
    let next := p.exec AppliedRow.Clash rows pending
    Pending rt files next.1 next.2.1 next.2.2 := by
  intro next
  cases h with
  | begun =>
    simp only [next, migrate, Session.exec, List.append_nil]
    exact .ready
  | ready =>
    simp only [next, Session.exec, List.append_nil]
    exact .left (left_pendingOf files rows)
  | @left ms h =>
    cases ms with
    | nil =>
      simp only [next, applyAll, Session.exec, List.append_nil]
      exact .exited fun _ m hm => (h.rest m hm).resolve_left List.not_mem_nil
    | cons m ms =>
      simp only [next, applyAll, Session.exec, List.append_nil]
      split
      · exact .failed
      · exact .executed h
  | @executed m ms h =>
    simp only [next, Session.exec, List.append_nil, List.nil_append]
    split
    · exact .inserted h
    · exact .failed
  | @inserted m ms h =>
    simp only [next, Session.exec]
    exact .left h.next
  | failed =>
    simp only [next, Session.exec]
    exact .failing
  | failing =>
    simp only [next, Session.exec, List.append_nil]
    exact .exited fun h => nomatch h
  | exited h => exact .exited h

/-- A commit records the next migration, or nothing. -/
theorem Pending.commits {k : Session AppliedRow Nat} (h : Pending rt files rows pending (.commit k)) :
    pending = [] ∨ ∃ m ms, Left files (m :: ms) rows ∧ pending = [ledgerRow rt m] := by
  generalize hp : Session.commit k = p at h
  cases h with
  | inserted h => exact .inr ⟨_, _, h, rfl⟩
  | _ => exact .inl rfl

/-- A transaction with a row is about to end. -/
theorem Pending.ends (h : Pending rt files rows pending p) (hne : pending ≠ []) :
    ∃ k, p = .commit k ∨ p = .rollback k := by
  cases h with
  | inserted h => exact ⟨_, .inl rfl⟩
  | _ => exact absurd rfl hne

/-- A runner that is done has nothing open, and its exit code says whether all is recorded. -/
theorem Pending.exit {code : Nat} (h : Pending rt files rows pending (.done code)) :
    pending = [] ∧ (code = 0 → ∀ m ∈ files, Recorded rows m) := by
  generalize hp : Session.done code = p at h
  cases h with
  | exited h =>
    cases hp
    exact ⟨rfl, h⟩
  | @left ms h => cases ms <;> cases hp
  | _ => cases hp

end Runner

section Listing

variable {rt : MigrateRuntime} {seen : List String} {files : List Migration}

/-- The files of a checkout, if the listing is in order. -/
def checkout (rt : MigrateRuntime) (directory : Option (List Migration)) : List Migration :=
  match discoverMigrations rt directory with
  | .ok files => files
  | .error _ => []

/-- The files that pass the checks: those with different prefixes. -/
theorem checkPrefixes_iff : checkPrefixes rt seen files = none ↔
    (files.map fun f => filenamePrefix rt f.name).Nodup ∧
      ∀ f ∈ files, ∃ pre, filenamePrefix rt f.name = some pre ∧ pre ∉ seen := by
  induction files generalizing seen with
  | nil => exact ⟨fun _ => ⟨List.nodup_nil, fun f hf => absurd hf List.not_mem_nil⟩, fun _ => rfl⟩
  | cons f files ih =>
    rw [checkPrefixes, List.map_cons, List.nodup_cons, List.forall_mem_cons]
    cases hpre : filenamePrefix rt f.name with
    | none => simp
    | some pre =>
      have hmem : some pre ∈ files.map (fun f => filenamePrefix rt f.name) ↔
          ∃ g ∈ files, filenamePrefix rt g.name = some pre := List.mem_map
      by_cases hold : pre ∈ seen
      · simp [hold]
      · simp only [hold, if_false, ih, hmem]
        constructor
        · rintro ⟨hnd, hall⟩
          refine ⟨⟨?_, hnd⟩, ⟨pre, rfl, hold⟩, fun g hg => ?_⟩
          · rintro ⟨g, hg, heq⟩
            obtain ⟨pre', hpre', hnew⟩ := hall g hg
            rw [heq] at hpre'
            cases hpre'
            exact hnew (List.mem_append_right _ (List.mem_singleton_self _))
          · obtain ⟨pre', hpre', hnew⟩ := hall g hg
            exact ⟨pre', hpre', fun hmem => hnew (List.mem_append_left _ hmem)⟩
        · rintro ⟨⟨hne, hnd⟩, -, hall⟩
          refine ⟨hnd, fun g hg => ?_⟩
          obtain ⟨pre', hpre', hnew⟩ := hall g hg
          refine ⟨pre', hpre', fun hmem => ?_⟩
          rcases List.mem_append.mp hmem with h | h
          · exact hnew h
          · rw [List.mem_singleton] at h
            exact hne ⟨g, hg, h ▸ hpre'⟩

theorem discover_ok {directory : Option (List Migration)}
    (h : discoverMigrations rt directory = .ok files) :
    ∃ listing, directory = some listing ∧ checkPrefixes rt [] files = none ∧
      files = (listing.filter fun f => isSql f.name.toList).insertionSort
        fun f g => f.name ≤ g.name := by
  cases directory with
  | none => cases h
  | some listing =>
    rw [discoverMigrations] at h
    split at h
    · cases h
    · next hcheck =>
      cases h
      exact ⟨listing, rfl, hcheck, rfl⟩

theorem lt_of_take_lt {l l' : List Char} {n : Nat} (h : l.take n < l'.take n) : l < l' := by
  induction n generalizing l l' with
  | zero => cases h
  | succ n ih =>
    cases l' with
    | nil =>
      rw [List.take_nil] at h
      generalize l.take (n + 1) = front at h
      cases h
    | cons b l' =>
      cases l with
      | nil => exact List.Lex.nil
      | cons a l =>
        cases h with
        | rel hlt => exact List.Lex.rel hlt
        | cons h => exact List.Lex.cons (ih h)

theorem filenamePrefix_take {name pre : String} (h : filenamePrefix rt name = some pre) :
    pre.toList = name.toList.take 4 := by
  unfold filenamePrefix at h
  split at h
  · next a b c d rest hname =>
    split at h
    · cases h
      rw [hname, String.toList_ofList]
      rfl
    · cases h
  · cases h

/-- The prefixes are in the order of the names. -/
theorem filenamePrefix_mono {name name' pre pre' : String} (h : filenamePrefix rt name = some pre)
    (h' : filenamePrefix rt name' = some pre') (hle : name ≤ name') : pre ≤ pre' := by
  refine le_of_not_gt fun hlt => absurd hle (not_le_of_gt ?_)
  rw [String.lt_iff_toList_lt, filenamePrefix_take h, filenamePrefix_take h'] at hlt
  exact String.lt_iff_toList_lt.mpr (lt_of_take_lt hlt)

/-- Both files have a prefix, and that of `f` comes first. -/
def Increasing (rt : MigrateRuntime) (f g : Migration) : Prop :=
  ∃ pre pre', filenamePrefix rt f.name = some pre ∧ filenamePrefix rt g.name = some pre' ∧ pre < pre'

/-- What is accepted is a listing of well-formed names with different prefixes, and it comes in the
strictly increasing order of the prefixes. -/
theorem discover_iff {listing : List Migration} :
    discoverMigrations rt (some listing) = .ok files ↔
      files.Perm (listing.filter fun f => isSql f.name.toList) ∧
        (∀ f ∈ files, (filenamePrefix rt f.name).isSome) ∧ files.Pairwise (Increasing rt) := by
  have hsort := List.perm_insertionSort (fun f g : Migration => f.name ≤ g.name)
    (listing.filter fun f => isSql f.name.toList)
  have hsorted : ((listing.filter fun f => isSql f.name.toList).insertionSort
      fun f g => f.name ≤ g.name).Pairwise fun f g => f.name ≤ g.name := by
    have htotal : Std.Total fun f g : Migration => f.name ≤ g.name := ⟨fun f g => le_total _ _⟩
    have htrans : IsTrans Migration fun f g => f.name ≤ g.name := ⟨fun _ _ _ => le_trans⟩
    exact List.pairwise_insertionSort _ _
  constructor
  · intro h
    obtain ⟨_, hlisting, hcheck, rfl⟩ := discover_ok h
    cases hlisting
    obtain ⟨hnd, hall⟩ := checkPrefixes_iff.mp hcheck
    refine ⟨hsort, fun f hf => ?_, ?_⟩
    · obtain ⟨pre, hpre, -⟩ := hall f hf
      rw [hpre]
      rfl
    · refine (hsorted.and (List.pairwise_map.mp hnd)).imp_of_mem fun {f g} hf hg hfg => ?_
      obtain ⟨pre, hpre, -⟩ := hall f hf
      obtain ⟨pre', hpre', -⟩ := hall g hg
      refine ⟨pre, pre', hpre, hpre', lt_of_le_of_ne (filenamePrefix_mono hpre hpre' hfg.1) ?_⟩
      rintro rfl
      exact hfg.2 (hpre.trans hpre'.symm)
  · rintro ⟨hperm, hsome, hinc⟩
    have hdiffer : ∀ f ∈ files, ∀ g ∈ files,
        filenamePrefix rt f.name = filenamePrefix rt g.name → f = g := by
      have hsymm : Std.Symm fun f g : Migration =>
          filenamePrefix rt f.name = filenamePrefix rt g.name → f = g :=
        ⟨fun f g h heq => (h heq.symm).symm⟩
      refine List.Pairwise.forall_of_forall (fun _ _ _ => rfl) (hinc.imp fun {f g} hfg heq => ?_)
      obtain ⟨pre, pre', hpre, hpre', hlt⟩ := hfg
      rw [hpre, hpre'] at heq
      exact absurd (Option.some.inj heq) (ne_of_lt hlt)
    have hnames : files.Pairwise fun f g => f.name ≤ g.name := by
      refine hinc.imp fun {f g} hfg => ?_
      obtain ⟨pre, pre', hpre, hpre', hlt⟩ := hfg
      rcases le_total f.name g.name with h | h
      · exact h
      · exact absurd (filenamePrefix_mono hpre' hpre h) (not_le_of_gt hlt)
    have heq : files = (listing.filter fun f => isSql f.name.toList).insertionSort
        fun f g => f.name ≤ g.name :=
      (hperm.trans hsort.symm).eq_of_pairwise (fun f g hf hg h h' => hdiffer f hf g
        (hperm.mem_iff.mpr (hsort.mem_iff.mp hg)) (by rw [le_antisymm h h'])) hnames hsorted
    have hcheck : checkPrefixes rt [] files = none := by
      refine checkPrefixes_iff.mpr
        ⟨List.pairwise_map.mpr (hinc.imp fun {f g} hfg => ?_), fun f hf => ?_⟩
      · obtain ⟨pre, pre', hpre, hpre', hlt⟩ := hfg
        rw [hpre, hpre']
        exact fun h => absurd (Option.some.inj h) (ne_of_lt hlt)
      · obtain ⟨pre, hpre⟩ := Option.isSome_iff_exists.mp (hsome f hf)
        exact ⟨pre, hpre, List.not_mem_nil⟩
    rw [discoverMigrations]
    simp only [← heq, hcheck]

theorem checkout_nodup (rt : MigrateRuntime) (directory : Option (List Migration)) :
    ((checkout rt directory).map Migration.name).Nodup := by
  unfold checkout
  cases hfiles : discoverMigrations rt directory with
  | error code => exact List.nodup_nil
  | ok files =>
    obtain ⟨_, _, hcheck, _⟩ := discover_ok hfiles
    have hprefixes := (checkPrefixes_iff.mp hcheck).1
    rw [← Function.comp_def, ← List.map_map] at hprefixes
    exact List.Nodup.of_map _ hprefixes

/-- A runner at its start. -/
theorem main_pending (rt : MigrateRuntime) (databaseUrl : Option String)
    (directory : Option (List Migration)) (rows : List AppliedRow) :
    Pending rt (checkout rt directory) rows [] (main rt databaseUrl directory) := by
  unfold main checkout
  by_cases hurl : databaseUrl.getD "" = ""
  · rw [if_pos hurl]
    exact .exited fun h => nomatch h
  · rw [if_neg hurl]
    cases hfiles : discoverMigrations rt directory with
    | error code => exact .exited fun _ m hm => absurd hm List.not_mem_nil
    | ok files =>
      cases files with
      | nil => exact .exited fun _ m hm => absurd hm List.not_mem_nil
      | cons f files => exact .begun

end Listing

/-! ## Runners at the same time -/

section Race

variable {ι : Type} [DecidableEq ι] (rt : ι → MigrateRuntime) (urls : ι → Option String)
  (directories : ι → Option (List Migration))

/-- The row `r` records a migration of the runner `i` whose earlier files `before` has all. -/
def InTurn (before : List AppliedRow) (r : AppliedRow) (i : ι) : Prop :=
  ∃ earlier m later, checkout (rt i) (directories i) = earlier ++ m :: later ∧
    r = ledgerRow (rt i) m ∧ ∀ m' ∈ earlier, Recorded before m'

/-- The rows that `rows` has gained are migrations, and each came after the earlier files. -/
structure InOrder (rows₀ rows : List AppliedRow) : Prop where
  grown : rows₀ <+: rows
  turn : ∀ before r after, rows = before ++ r :: after → rows₀.length ≤ before.length →
    ∃ i, InTurn rt directories before r i

/-- What holds of runners whenever their statements are interleaved. -/
structure Migrating (rows₀ : List AppliedRow) (s : Database ι AppliedRow Nat) : Prop where
  once : (s.rows.map AppliedRow.filename).Nodup
  order : InOrder rt directories rows₀ s.rows
  exits : ∀ i code, s.Done i code → s.pending i = [] ∧
    (code = 0 → ∀ m ∈ checkout (rt i) (directories i), Recorded s.rows m)
  live : (∃ i, ∀ code, ¬ s.Done i code) →
    ∃ j, (∀ code, ¬ s.Done j code) ∧ ¬ s.Blocked AppliedRow.Clash j

variable {rt directories} {rows₀ rows : List AppliedRow} {s : Database ι AppliedRow Nat}

omit [DecidableEq ι] in
theorem InOrder.start (rows₀ : List AppliedRow) : InOrder rt directories rows₀ rows₀ where
  grown := List.prefix_refl _
  turn before r after heq hlen := by
    have hlength := congrArg List.length heq
    simp only [List.length_append, List.length_cons] at hlength
    omega

omit [DecidableEq ι] in
theorem InOrder.concat {r : AppliedRow} {i : ι} (h : InOrder rt directories rows₀ rows)
    (hr : InTurn rt directories rows r i) : InOrder rt directories rows₀ (rows ++ [r]) where
  grown := h.grown.trans (List.prefix_append _ _)
  turn before r' after heq hlen := by
    rcases List.eq_nil_or_concat after with rfl | ⟨after', x, rfl⟩
    · obtain ⟨rfl, hlast⟩ := List.append_inj' heq rfl
      cases hlast
      exact ⟨i, hr⟩
    · rw [List.concat_eq_append, ← List.cons_append, ← List.append_assoc] at heq
      exact h.turn before r' after' (List.append_inj' heq rfl).1 hlen

omit [DecidableEq ι] in
/-- The runners keep to their programs. -/
theorem keeps_pending : Database.Keeps AppliedRow.Clash fun (i : ι) rows pending p =>
    Pending (rt i) (checkout (rt i) (directories i)) rows pending p where
  own _ _ _ _ h := h.exec
  others _ _ _ _ _ _ pending' _ h _ := h.grow pending'

/-- A statement of a runner keeps the order of the ledger. -/
theorem InOrder.step (h : InOrder rt directories rows₀ s.rows)
    (hs : ∀ i, Pending (rt i) (checkout (rt i) (directories i)) s.rows (s.pending i) (s.session i))
    (i : ι) : InOrder rt directories rows₀ (s.step AppliedRow.Clash i).rows := by
  rcases Database.rows_step AppliedRow.Clash s i with hrows | ⟨⟨k, hk⟩, hrows⟩
  · rw [hrows]
    exact h
  · rw [hrows]
    have hi := hs i
    rw [hk] at hi
    rcases hi.commits with hnone | ⟨m, ms, hleft, hone⟩
    · rw [hnone, List.append_nil]
      exact h
    · obtain ⟨earlier, later, hfiles⟩ := List.append_of_mem (hleft.sub.subset List.mem_cons_self)
      rw [hone]
      exact h.concat ⟨earlier, m, later, hfiles, rfl,
        hleft.before (checkout_nodup _ _) hfiles⟩

/-- Runners that run at the same time, from whatever checkouts and whatever fails: no migration is
recorded twice, each is recorded after the files before it, an exit code of 0 means that all are
recorded, no runner leaves a transaction open, and some runner can always go on. -/
theorem migrate_race (hrows : (rows₀.map AppliedRow.filename).Nodup)
    {h : List (Database ι AppliedRow Nat × ι)}
    (hr : (Database.start rows₀ fun i => main (rt i) (urls i) (directories i)).Runs
      AppliedRow.Clash h s) : Migrating rt directories rows₀ s := by
  obtain ⟨hpending, horder⟩ := hr.holds
    (I := fun s => (∀ i, Pending (rt i) (checkout (rt i) (directories i)) s.rows (s.pending i)
      (s.session i)) ∧ InOrder rt directories rows₀ s.rows)
    ⟨fun i => main_pending (rt i) (urls i) (directories i) rows₀, InOrder.start rows₀⟩
    fun s i hs _ => ⟨fun j => keeps_pending.step hs.1 j i, hs.2.step hs.1 i⟩
  have hapart := (Database.Apart.start (List.pairwise_map.mp hrows) _).run
    (fun _ _ => Eq.symm) hr
  exact {
    once := List.pairwise_map.mpr hapart.committed
    order := horder
    exits := fun i code hdone => by
      have hi := hpending i
      rw [show s.session i = .done code from hdone] at hi
      exact hi.exit
    live := fun ⟨i, hi⟩ => Database.live (fun j hj => (hpending j).ends hj) hi }

/-- One file, on a database that takes everything. -/
def oneFile : Option (List Migration) := some [⟨"README.md", ""⟩, ⟨"0001_a.sql", "A"⟩]

def plainRuntime : MigrateRuntime := ⟨Char.isDigit, id, fun _ _ => false⟩

/-- The statements in which both runners find the file pending, and one is first. -/
def together : List Bool :=
  [true, true, false, false, true, true, true, false, false, false, false, true]

theorem migrate_race_together :
    let s := together.foldl (Database.step AppliedRow.Clash)
      (Database.start [] fun _ => main plainRuntime (some "postgresql://") oneFile)
    s.Done true 0 ∧ s.Done false 1 ∧ (s.rows.map AppliedRow.filename).Nodup := by
  have hr : (Database.start [] fun _ : Bool =>
      main plainRuntime (some "postgresql://") oneFile).Runs AppliedRow.Clash
      (Run.trace (Database.step AppliedRow.Clash)
        (Database.start [] fun _ => main plainRuntime (some "postgresql://") oneFile) together)
      (together.foldl (Database.step AppliedRow.Clash)
        (Database.start [] fun _ => main plainRuntime (some "postgresql://") oneFile)) := by
    refine Run.ofOps ⟨?_, ?_, ?_, ?_, ?_, ?_, ?_, ?_, ?_, ?_, ?_, ?_, trivial⟩ <;>
      · rintro ⟨_, _, _, j, hj, r, hr, -⟩
        cases j <;> first | exact hj rfl | cases hr
  have hnone : (([] : List AppliedRow).map AppliedRow.filename).Nodup := List.nodup_nil
  exact ⟨rfl, rfl, (migrate_race (fun _ => some "postgresql://") hnone hr).once⟩

end Race

/-! ## One runner after the other -/

section Alone

variable {rt : MigrateRuntime} {files ms : List Migration} {rows : List AppliedRow}

/-- The migrations up to the first that the database refuses. -/
def accepted (rt : MigrateRuntime) (rows : List AppliedRow) : List Migration → List Migration
  | [] => []
  | m :: ms => if rt.refuses rows m.sql then [] else m :: accepted rt (rows ++ [ledgerRow rt m]) ms

theorem accepted_le (rt : MigrateRuntime) (rows : List AppliedRow) (ms : List Migration) :
    accepted rt rows ms <+: ms := by
  induction ms generalizing rows with
  | nil => exact List.prefix_refl _
  | cons m ms ih =>
    rw [accepted]
    split
    · exact ⟨m :: ms, rfl⟩
    · exact List.cons_prefix_cons.mpr ⟨rfl, ih _⟩

theorem recorded_ledger (rt : MigrateRuntime) (rows : List AppliedRow) (ms : List Migration)
    (m : Migration) :
    Recorded (rows ++ ms.map (ledgerRow rt)) m ↔
      Recorded rows m ∨ m.name ∈ ms.map Migration.name := by
  rw [Recorded, List.map_append, List.mem_append, List.map_map]
  rfl

/-- When a first part of the pending migrations is recorded, the rest is pending. -/
theorem pendingOf_append {applied rest : List Migration}
    (hnd : ((applied ++ rest).map Migration.name).Nodup)
    (h : pendingOf files rows = applied ++ rest) :
    pendingOf files (rows ++ applied.map (ledgerRow rt)) = rest := by
  have hboth : pendingOf files (rows ++ applied.map (ledgerRow rt)) =
      (pendingOf files rows).filter fun m => m.name ∉ applied.map Migration.name := by
    unfold pendingOf
    rw [List.filter_filter]
    refine List.filter_congr fun m _ => ?_
    have hiff := recorded_ledger rt rows applied m
    rw [Recorded, Recorded] at hiff
    rw [Bool.eq_iff_iff, Bool.and_eq_true, decide_eq_true_iff, decide_eq_true_iff,
      decide_eq_true_iff, hiff, not_or]
    exact and_comm
  rw [List.map_append, List.nodup_append] at hnd
  rw [hboth, h, List.filter_append, List.filter_eq_nil_iff.mpr, List.filter_eq_self.mpr,
    List.nil_append]
  · intro m hm
    exact decide_eq_true fun hmem => hnd.2.2 _ hmem _ (List.mem_map_of_mem hm) rfl
  · intro m hm
    simpa using ⟨m, hm, rfl⟩

/-- The loop, on migrations that are not in the ledger. -/
theorem run_applyAll (hnd : (ms.map Migration.name).Nodup) (hnew : ∀ m ∈ ms, ¬ Recorded rows m) :
    (applyAll rt ms).run AppliedRow.Clash rows [] =
      (if accepted rt rows ms = ms then 0 else 1,
        rows ++ (accepted rt rows ms).map (ledgerRow rt)) := by
  induction ms generalizing rows with
  | nil => rfl
  | cons m ms ih =>
    have hnd' := List.nodup_cons.mp hnd
    have hfree : ∀ r ∈ rows ++ [], ¬ (ledgerRow rt m).Clash r := by
      intro r hr hclash
      rw [List.append_nil] at hr
      exact hnew m List.mem_cons_self (List.mem_map.mpr ⟨r, hr, hclash.symm⟩)
    have hnew' : ∀ m' ∈ ms, ¬ Recorded (rows ++ [ledgerRow rt m]) m' := by
      intro m' hm' hrec
      rcases (recorded_ledger rt rows [m] m').mp hrec with h | h
      · exact hnew m' (List.mem_cons_of_mem _ hm') h
      · rw [List.map_singleton, List.mem_singleton] at h
        exact hnd'.1 (h ▸ List.mem_map_of_mem hm')
    rw [applyAll, Session.run, List.append_nil, accepted]
    by_cases href : rt.refuses rows m.sql = true
    · simp [href, Session.run]
    · rw [if_neg href, if_neg href, Session.run_insert hfree, if_pos rfl, Session.run,
        List.nil_append, ih hnd'.2 hnew']
      simp

/-- A runner alone records, behind the ledger, the pending migrations up to the first that is refused,
and exits with 0 if there is none. Another runner then starts behind these, and after a success it
does nothing, whatever the database would refuse. -/
theorem migrate_alone (rt rt' : MigrateRuntime) (rows : List AppliedRow)
    (hnd : (files.map Migration.name).Nodup) :
    let first := (migrate rt files).run AppliedRow.Clash rows []
    let applied := accepted rt rows (pendingOf files rows)
    first.2 = rows ++ applied.map (ledgerRow rt) ∧
      (first.1 = 0 ↔ applied = pendingOf files rows) ∧
      pendingOf files rows = applied ++ pendingOf files first.2 ∧
      (first.1 = 0 → (migrate rt' files).run AppliedRow.Clash first.2 [] = (0, first.2)) := by
  intro first applied
  have hsub : (pendingOf files rows).Sublist files := List.filter_sublist
  have hpnd : ((pendingOf files rows).map Migration.name).Nodup := hnd.sublist (hsub.map _)
  have hfirst : first = (if applied = pendingOf files rows then 0 else 1,
      rows ++ applied.map (ledgerRow rt)) := by
    show (migrate rt files).run AppliedRow.Clash rows [] = _
    simp only [migrate, Session.run, List.append_nil]
    exact run_applyAll hpnd fun m hm => by simpa [Recorded] using (List.mem_filter.mp hm).2
  obtain ⟨rest, hrest⟩ := accepted_le rt rows (pendingOf files rows)
  have hleft : pendingOf files first.2 = rest := by
    have happlied : applied ++ rest = pendingOf files rows := hrest
    rw [hfirst]
    exact pendingOf_append (happlied ▸ hpnd) happlied.symm
  have hcode : first.1 = 0 ↔ applied = pendingOf files rows := by
    rw [hfirst]
    simp
  refine ⟨by rw [hfirst], hcode, by rw [hleft]; exact hrest.symm, fun hzero => ?_⟩
  have hnone : rest = [] := by
    have happlied : accepted rt rows (pendingOf files rows) = pendingOf files rows := hcode.mp hzero
    rw [happlied] at hrest
    exact List.append_right_eq_self.mp hrest
  simp only [migrate, Session.run, List.append_nil, hleft, hnone, applyAll]

/-- The run is that of the statements of `main`, on a checkout that is in order, while no other runner
has a transaction with rows. -/
theorem main_alone {ι : Type} [DecidableEq ι] {s : Database ι AppliedRow Nat} {i : ι} {url : String}
    {directory : Option (List Migration)} (hurl : url ≠ "")
    (hfiles : discoverMigrations rt directory = .ok files) (hne : files ≠ [])
    (hi : s.session i = main rt (some url) directory) (hpending : s.pending i = [])
    (halone : ∀ j, j ≠ i → s.pending j = []) :
    ∃ n, let t := (List.replicate n i).foldl (Database.step AppliedRow.Clash) s
      t.Done i ((migrate rt files).run AppliedRow.Clash s.rows []).1 ∧
        t.rows = ((migrate rt files).run AppliedRow.Clash s.rows []).2 := by
  have hmain : main rt (some url) directory = migrate rt files := by
    obtain ⟨f, files, rfl⟩ := List.exists_cons_of_ne_nil hne
    simp only [main, Option.getD_some, if_neg hurl, hfiles]
  obtain ⟨n, _, hdone, hrows⟩ : Database.RunsOut AppliedRow.Clash s i :=
    Database.runsOut_alone halone
  rw [hi, hmain, hpending] at hdone hrows
  exact ⟨n, hdone, hrows⟩

/-- A database that refuses one migration. -/
def refusingB : MigrateRuntime := ⟨Char.isDigit, id, fun _ sql => sql == "B"⟩

/-- The second of two files is refused, and left for the next runner. -/
theorem migrate_alone_refused :
    let files : List Migration := [⟨"0001_a.sql", "A"⟩, ⟨"0002_b.sql", "B"⟩]
    let first := (migrate refusingB files).run AppliedRow.Clash [] []
    first.1 = 1 ∧ files = [⟨"0001_a.sql", "A"⟩] ++ pendingOf files first.2 := by
  have hnd : ([⟨"0001_a.sql", "A"⟩, ⟨"0002_b.sql", "B"⟩].map Migration.name).Nodup := by decide
  exact ⟨rfl, (migrate_alone refusingB plainRuntime [] hnd).2.2.1⟩

end Alone
end Migrate
end PennyCore
