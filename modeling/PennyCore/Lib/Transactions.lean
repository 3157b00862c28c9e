import Mathlib.Data.List.Pairwise
import Mathlib.Logic.Function.Basic
import PennyCore.Lib.Run

/-!
# Transactions on a table with unique constraints

A table of rows `ρ`, two of which may not stand in it together if they `Clash`, and sessions that work
on it at the same time, one statement after the other.

* `Session ρ α`: what a client still has to do. A SELECT reads the committed rows and its own, an INSERT
  is told which rows are in its way and adds its row if there are none, COMMIT and ROLLBACK end the
  transaction.
* `Database` is the table with the sessions, `Database.step` the next statement of one of them. An
  INSERT waits while an open transaction has a row that clashes with it (`Blocked`).
* `Apart`: no two rows clash, committed or not. `Apart.step` keeps it, whatever the sessions are.
* `Keeps.step`: what each statement of a session keeps of it, and the commit of another, every step keeps.
* `Database.live`: no session waits forever if the transactions that have rows are about to end.
* `Session.run` runs a session alone, as its own statements do (`Database.runsOut_alone`).
-/

namespace Lib

inductive Session (ρ α : Type) where
  | done (a : α)
  | select (k : List ρ → Session ρ α)
  /-- `k` is told the rows that are in the way. -/
  | insert (row : ρ) (k : List ρ → Session ρ α)
  | commit (k : Session ρ α)
  | rollback (k : Session ρ α)

/-- The committed rows, and for each session the rows of its open transaction and what it has to do. -/
structure Database (ι ρ α : Type) where
  rows : List ρ
  pending : ι → List ρ
  session : ι → Session ρ α

section Machine

variable {ι ρ α : Type} [DecidableEq ι] (Clash : ρ → ρ → Prop) [DecidableRel Clash]

/-- One statement: the rows that are then committed, those of the transaction, and what is left. -/
def Session.exec (rows pending : List ρ) : Session ρ α → List ρ × List ρ × Session ρ α
  | .done a => (rows, pending, .done a)
  | .select k => (rows, pending, k (rows ++ pending))
  | .insert row k =>
    let inWay := (rows ++ pending).filter fun r => Clash row r
    (rows, if inWay = [] then pending ++ [row] else pending, k inWay)
  | .commit k => (rows ++ pending, [], k)
  | .rollback k => (rows, [], k)

namespace Database

/-- The next statement of session `i`. -/
def step (s : Database ι ρ α) (i : ι) : Database ι ρ α :=
  let next := (s.session i).exec Clash s.rows (s.pending i)
  ⟨next.1, Function.update s.pending i next.2.1, Function.update s.session i next.2.2⟩

/-- The INSERT of session `i` waits for another transaction. -/
def Blocked (s : Database ι ρ α) (i : ι) : Prop :=
  ∃ row k, s.session i = .insert row k ∧ ∃ j, j ≠ i ∧ ∃ r ∈ s.pending j, Clash row r

/-- Sessions that begin together on the rows `rows`. -/
def start (rows : List ρ) (sessions : ι → Session ρ α) : Database ι ρ α :=
  ⟨rows, fun _ => [], sessions⟩

/-- The interleavings of the sessions' statements. -/
abbrev Runs (s₀ : Database ι ρ α) : List (Database ι ρ α × ι) → Database ι ρ α → Prop :=
  Run (step Clash) (fun s i => ¬ s.Blocked Clash i) s₀

/-- Session `i` is done. -/
def Done (s : Database ι ρ α) (i : ι) (a : α) : Prop := s.session i = .done a

/-- No two rows clash, and no two rows of transactions that are open at the same time. -/
structure Apart (s : Database ι ρ α) : Prop where
  committed : s.rows.Pairwise fun r r' => ¬ Clash r r'
  own : ∀ i, (s.rows ++ s.pending i).Pairwise fun r r' => ¬ Clash r r'
  others : ∀ i j, i ≠ j → ∀ r ∈ s.pending i, ∀ r' ∈ s.pending j, ¬ Clash r r'

end Database
end Machine

section Steps

variable {ι ρ α : Type} [DecidableEq ι] {Clash : ρ → ρ → Prop} [DecidableRel Clash]
  {s s₀ : Database ι ρ α} {i j : ι} {h : List (Database ι ρ α × ι)}

namespace Database

theorem session_self (Clash : ρ → ρ → Prop) [DecidableRel Clash] (s : Database ι ρ α) (i : ι) :
    (s.step Clash i).session i = ((s.session i).exec Clash s.rows (s.pending i)).2.2 :=
  Function.update_self ..

theorem pending_self (Clash : ρ → ρ → Prop) [DecidableRel Clash] (s : Database ι ρ α) (i : ι) :
    (s.step Clash i).pending i = ((s.session i).exec Clash s.rows (s.pending i)).2.1 :=
  Function.update_self ..

theorem session_ne (Clash : ρ → ρ → Prop) [DecidableRel Clash] (s : Database ι ρ α) (hij : j ≠ i) :
    (s.step Clash i).session j = s.session j := Function.update_of_ne hij ..

theorem pending_ne (Clash : ρ → ρ → Prop) [DecidableRel Clash] (s : Database ι ρ α) (hij : j ≠ i) :
    (s.step Clash i).pending j = s.pending j := Function.update_of_ne hij ..

/-- A statement commits the rows of its transaction, or none. -/
theorem rows_step (Clash : ρ → ρ → Prop) [DecidableRel Clash] (s : Database ι ρ α) (i : ι) :
    (s.step Clash i).rows = s.rows ∨
      (∃ k, s.session i = .commit k) ∧ (s.step Clash i).rows = s.rows ++ s.pending i := by
  unfold step Session.exec
  cases s.session i with
  | commit k => exact .inr ⟨⟨k, rfl⟩, rfl⟩
  | _ => exact .inl rfl

omit [DecidableEq ι] [DecidableRel Clash] in
theorem Apart.start {rows : List ρ} (hrows : rows.Pairwise fun r r' => ¬ Clash r r')
    (sessions : ι → Session ρ α) : (Database.start rows sessions).Apart Clash where
  committed := hrows
  own := fun _ => by
    show (rows ++ []).Pairwise _
    rw [List.append_nil]
    exact hrows
  others := fun _ _ _ r hr => nomatch hr

omit [DecidableRel Clash] in
/-- The constraints hold if they do between what the statement of session `i` leaves and the rest. -/
theorem Apart.update {rows' pending' : List ρ} (hs : s.Apart Clash) (session : ι → Session ρ α)
    (hown : (rows' ++ pending').Pairwise fun r r' => ¬ Clash r r')
    (hrest : ∀ j, j ≠ i → (rows' ++ s.pending j).Pairwise fun r r' => ¬ Clash r r')
    (hothers : ∀ j, j ≠ i → ∀ r ∈ pending', ∀ r' ∈ s.pending j, ¬ Clash r r' ∧ ¬ Clash r' r) :
    (⟨rows', Function.update s.pending i pending', session⟩ : Database ι ρ α).Apart Clash where
  committed := (List.pairwise_append.mp hown).1
  own := fun j => by
    by_cases hij : j = i
    · subst hij
      simp only [Function.update_self]
      exact hown
    · simp only [Function.update_of_ne hij]
      exact hrest j hij
  others := fun j j' hne r hr r' hr' => by
    simp only at hr hr'
    by_cases hj : j = i
    · subst hj
      rw [Function.update_self] at hr
      rw [Function.update_of_ne (Ne.symm hne)] at hr'
      exact (hothers j' (Ne.symm hne) r hr r' hr').1
    · rw [Function.update_of_ne hj] at hr
      by_cases hj' : j' = i
      · subst hj'
        rw [Function.update_self] at hr'
        exact (hothers j hj r' hr' r hr).2
      · rw [Function.update_of_ne hj'] at hr'
        exact hs.others j j' hne r hr r' hr'

/-- A session that is done stays so. -/
theorem Done.step {a : α} (hdone : s.Done i a) (j : ι) :
    (s.step Clash j).Done i a := by
  by_cases hij : i = j
  · subst hij
    rw [Done, session_self, show s.session i = .done a from hdone]
    rfl
  · rw [Done, session_ne Clash s hij]
    exact hdone

/-- The constraints hold after every statement. -/
theorem Apart.step (hsymm : ∀ r r', Clash r r' → Clash r' r) (hs : s.Apart Clash)
    (hfree : ¬ s.Blocked Clash i) : (s.step Clash i).Apart Clash := by
  have hboth : ∀ j, j ≠ i → ∀ r ∈ s.pending i, ∀ r' ∈ s.pending j, ¬ Clash r r' ∧ ¬ Clash r' r :=
    fun j hj r hr r' hr' => ⟨hs.others i j (Ne.symm hj) r hr r' hr', hs.others j i hj r' hr' r hr⟩
  unfold Database.step Session.exec
  cases hsession : s.session i with
  | done a => exact hs.update _ (hs.own i) (fun j _ => hs.own j) hboth
  | select k => exact hs.update _ (hs.own i) (fun j _ => hs.own j) hboth
  | insert row k =>
    simp only
    split
    · next hclear =>
      have hclear : ∀ r ∈ s.rows ++ s.pending i, ¬ Clash row r := fun r hr hclash =>
        List.filter_eq_nil_iff.mp hclear r hr (by simpa using hclash)
      have hwait : ∀ j, j ≠ i → ∀ r ∈ s.pending j, ¬ Clash row r := fun j hj r hr hclash =>
        hfree ⟨row, k, hsession, j, hj, r, hr, hclash⟩
      refine hs.update _ ?_ (fun j _ => hs.own j) fun j hj r hr r' hr' => ?_
      · rw [← List.append_assoc, List.pairwise_append]
        refine ⟨hs.own i, List.pairwise_singleton _ _, fun r hr r' hr' hclash => ?_⟩
        rw [List.mem_singleton] at hr'
        exact hclear r hr (hr' ▸ hsymm _ _ hclash)
      · rcases List.mem_append.mp hr with hr | hr
        · exact hboth j hj r hr r' hr'
        · rw [List.mem_singleton] at hr
          subst hr
          exact ⟨hwait j hj r' hr', fun hclash => hwait j hj r' hr' (hsymm _ _ hclash)⟩
    · exact hs.update _ (hs.own i) (fun j _ => hs.own j) hboth
  | commit k =>
    refine hs.update _ ?_ (fun j hj => ?_) fun _ _ r hr => nomatch hr
    · rw [List.append_nil]
      exact hs.own i
    · have hj' := hs.own j
      rw [List.append_assoc, List.pairwise_append, List.pairwise_append]
      rw [List.pairwise_append] at hj'
      have hi' := List.pairwise_append.mp (hs.own i)
      refine ⟨hi'.1, ⟨hi'.2.1, hj'.2.1, fun r hr r' hr' => (hboth j hj r hr r' hr').1⟩,
        fun r hr r' hr' => ?_⟩
      rcases List.mem_append.mp hr' with hr' | hr'
      · exact hi'.2.2 r hr r' hr'
      · exact hj'.2.2 r hr r' hr'
  | rollback k =>
    refine hs.update _ ?_ (fun j _ => hs.own j) fun _ _ r hr => nomatch hr
    rw [List.append_nil]
    exact (List.pairwise_append.mp (hs.own i)).1

theorem Apart.run (hsymm : ∀ r r', Clash r r' → Clash r' r) (h0 : s₀.Apart Clash)
    (hr : s₀.Runs Clash h s) : s.Apart Clash :=
  hr.holds h0 fun _ _ hs hfree => hs.step hsymm hfree

/-- What is known, of each session, about the committed rows, the rows of its transaction and what is
left of it: its own statements keep it, and so does the commit of another. -/
structure Keeps (Clash : ρ → ρ → Prop) [DecidableRel Clash]
    (J : ι → List ρ → List ρ → Session ρ α → Prop) : Prop where
  own : ∀ i rows pending p, J i rows pending p →
    let next := p.exec Clash rows pending
    J i next.1 next.2.1 next.2.2
  others : ∀ i j, i ≠ j → ∀ rows pending p pending' p', J i rows pending p →
    J j rows pending' p' → J i (rows ++ pending') pending p

theorem Keeps.step {J : ι → List ρ → List ρ → Session ρ α → Prop} (hJ : Keeps Clash J)
    (hs : ∀ i, J i s.rows (s.pending i) (s.session i)) (i j : ι) :
    J i (s.step Clash j).rows ((s.step Clash j).pending i) ((s.step Clash j).session i) := by
  by_cases hij : i = j
  · subst hij
    rw [pending_self, session_self]
    exact hJ.own _ _ _ _ (hs i)
  · rw [pending_ne Clash s hij, session_ne Clash s hij]
    rcases rows_step Clash s j with h | ⟨-, h⟩
    · rw [h]
      exact hs i
    · rw [h]
      exact hJ.others i j hij _ _ _ _ _ (hs i) (hs j)

omit [DecidableEq ι] [DecidableRel Clash] in
/-- No session waits forever if the transactions that have rows are about to end. -/
theorem live (hends : ∀ j, s.pending j ≠ [] → ∃ k, s.session j = .commit k ∨ s.session j = .rollback k)
    (hi : ∀ a, ¬ s.Done i a) : ∃ j, (∀ a, ¬ s.Done j a) ∧ ¬ s.Blocked Clash j := by
  by_cases hblocked : s.Blocked Clash i
  · obtain ⟨_, _, _, j, _, r, hr, _⟩ := hblocked
    obtain ⟨k, hj⟩ := hends j (List.ne_nil_of_mem hr)
    refine ⟨j, ?_, ?_⟩
    · intro a hdone
      rw [Done] at hdone
      rcases hj with hj | hj <;> rw [hj] at hdone <;> cases hdone
    · rintro ⟨row, k', hins, -⟩
      rcases hj with hj | hj <;> rw [hj] at hins <;> cases hins
  · exact ⟨i, hi, hblocked⟩

end Database
end Steps

/-! ## A session alone -/

section Alone

variable {ρ α : Type} (Clash : ρ → ρ → Prop) [DecidableRel Clash]

/-- Run a session to its end while no other is open: its result and the committed rows. -/
def Session.run (rows pending : List ρ) : Session ρ α → α × List ρ
  | .done a => (a, rows)
  | .select k => (k (rows ++ pending)).run rows pending
  | .insert row k =>
    let inWay := (rows ++ pending).filter fun r => Clash row r
    (k inWay).run rows (if inWay = [] then pending ++ [row] else pending)
  | .commit k => k.run (rows ++ pending) []
  | .rollback k => k.run rows []

variable {Clash}

/-- An INSERT of a row that nothing is in the way of. -/
theorem Session.run_insert {rows pending : List ρ} {row : ρ} (h : ∀ r ∈ rows ++ pending, ¬ Clash row r)
    (k : List ρ → Session ρ α) :
    (Session.insert row k).run Clash rows pending = (k []).run Clash rows (pending ++ [row]) := by
  have hclear : ((rows ++ pending).filter fun r => Clash row r) = [] :=
    List.filter_eq_nil_iff.mpr fun r hr hclash => h r hr (of_decide_eq_true hclash)
  rw [Session.run]
  simp only [hclear, if_true]

/-- Each statement is a step of the run. -/
theorem Session.run_exec (rows pending : List ρ) (p : Session ρ α) :
    let next := p.exec Clash rows pending
    p.run Clash rows pending = next.2.2.run Clash next.1 next.2.1 := by
  cases p <;> rfl

variable {ι : Type} [DecidableEq ι]

namespace Database

/-- The statements of session `i` take it to the end of its run. -/
def RunsOut (Clash : ρ → ρ → Prop) [DecidableRel Clash] (s : Database ι ρ α) (i : ι) : Prop :=
  ∃ n, Run.Legal (step Clash) (fun s i => ¬ s.Blocked Clash i) s (List.replicate n i) ∧
    let t := (List.replicate n i).foldl (step Clash) s
    t.Done i ((s.session i).run Clash s.rows (s.pending i)).1 ∧
      t.rows = ((s.session i).run Clash s.rows (s.pending i)).2

theorem RunsOut.of_step {s : Database ι ρ α} {i : ι} (halone : ∀ j, j ≠ i → s.pending j = [])
    (h : RunsOut Clash (s.step Clash i) i) : RunsOut Clash s i := by
  have hfree : ¬ s.Blocked Clash i := by
    rintro ⟨_, _, _, j, hj, r, hr, _⟩
    rw [halone j hj] at hr
    cases hr
  have hrun : ((s.session i).run Clash s.rows (s.pending i)) =
      ((s.step Clash i).session i).run Clash (s.step Clash i).rows ((s.step Clash i).pending i) := by
    rw [Session.run_exec, pending_self, session_self]
    rfl
  obtain ⟨n, hl, hdone, hrows⟩ := h
  rw [← hrun] at hdone hrows
  exact ⟨n + 1, ⟨hfree, hl⟩, hdone, hrows⟩

/-- While no other session has a transaction with rows: the induction is on what `i` has to do. -/
theorem runsOut_alone {s : Database ι ρ α} {i : ι} (halone : ∀ j, j ≠ i → s.pending j = []) :
    RunsOut Clash s i := by
  have hnext : ∀ {s : Database ι ρ α}, (∀ j, j ≠ i → s.pending j = []) →
      ∀ j, j ≠ i → (s.step Clash i).pending j = [] := fun {s} h j hj => by
    rw [pending_ne Clash s hj, h j hj]
  generalize hp : s.session i = p
  induction p generalizing s with
  | done a =>
    refine ⟨0, trivial, ?_, ?_⟩ <;> rw [hp]
    · exact hp
    · rfl
  | select k ih => exact .of_step halone (ih _ (hnext halone) (by rw [session_self, hp]; rfl))
  | insert row k ih => exact .of_step halone (ih _ (hnext halone) (by rw [session_self, hp]; rfl))
  | commit k ih => exact .of_step halone (ih (hnext halone) (by rw [session_self, hp]; rfl))
  | rollback k ih => exact .of_step halone (ih (hnext halone) (by rw [session_self, hp]; rfl))

end Database

end Alone
end Lib
