import Mathlib.Data.Finset.Dedup
import Mathlib.Data.Fintype.EquivFin
import Mathlib.Logic.Function.Basic
import PennyCore.Lib.Py

/-!
# Programs that share an object, and their interleavings

`Prog ε σ α` is a handler that makes atomic calls on a shared object with state `σ` and computes in
between without touching it: it has returned or raised (`done`), or its next step is a call whose
result it goes on with.

* `Prog.run` runs a program alone. `Prog.zoom` is a program for a component, run on the whole.
* `Pool` is a family of programs over one object, `Pool.exec` runs a schedule: a list that says whose
  call is next. Every interleaving is a schedule, and a prefix of a schedule is a moment of the run.
* `Protocol`: an invariant of the object, and for each thread what it relies on between its calls and
  what each of its calls guarantees. `Safe P i Q p s`: from `s` on, and whatever the others do by
  their guarantees, each call of `p` meets thread `i`'s side, and its result satisfies `Q`.
* `Pool.sound`: if every thread is safe, the invariant holds at every moment of every interleaving,
  and so does `Q` for every thread that is done.
* The rules for `Safe` follow the program: `Safe.done`, `Safe.bind`, `Safe.atom_bind`, `Safe.zoom`,
  `Safe.rely`, `Safe.mono`. `Safe.run` is the case of a program that runs alone.
* `Prog.Pays`: a flagged result comes only after a call that makes the object larger.
  `Pool.one_payer`: if the object has grown by one, at most one thread has a flagged result.
-/

namespace Lib

/-- A program over atomic calls. -/
inductive Prog (ε σ α : Type) : Type 1
  | done (r : Except ε α)
  | call {β : Type} (m : σ → β × σ) (k : β → Prog ε σ α)

namespace Prog

variable {ε ε' σ τ α β : Type}

def bind (f : α → Prog ε σ β) : Prog ε σ α → Prog ε σ β
  | done (.ok a) => f a
  | done (.error e) => done (.error e)
  | call m k => call m fun b => bind f (k b)

instance : Monad (Prog ε σ) where
  pure a := done (.ok a)
  bind p f := p.bind f

/-- Raise an exception. -/
def raise (e : ε) : Prog ε σ α := done (.error e)

/-- One call of a method. -/
def atom (m : Py ε σ α) : Prog ε σ α := call m done

/-- One call of a method, its exception caught. -/
def attempt (m : Py ε' σ α) : Prog ε σ (Except ε' α) := call m fun r => done (.ok r)

/-- A program for the component at `view`/`put`, on the whole; its exceptions become exceptions of
the whole by `wrap`. -/
def zoom (wrap : ε' → ε) (view : σ → τ) (put : τ → σ → σ) : Prog ε' τ α → Prog ε σ α
  | done r => done (r.mapError wrap)
  | call m k =>
    call (fun s => ((m (view s)).1, put (m (view s)).2 s)) fun b => zoom wrap view put (k b)

/-- Run a program alone. -/
def run : Prog ε σ α → Py ε σ α
  | done r => fun s => (r, s)
  | call m k => fun s => run (k (m s).1) (m s).2

@[simp] theorem run_done (r : Except ε α) (s : σ) : run (done r) s = (r, s) := rfl

@[simp] theorem run_pure (a : α) (s : σ) : run (pure a : Prog ε σ α) s = (.ok a, s) := rfl

@[simp] theorem run_raise (e : ε) (s : σ) : run (raise e : Prog ε σ α) s = (.error e, s) := rfl

@[simp] theorem run_atom (m : Py ε σ α) (s : σ) : run (atom m) s = m s := rfl

theorem run_bind (p : Prog ε σ α) (f : α → Prog ε σ β) (s : σ) :
    run (p >>= f) s =
      match run p s with
      | (.ok a, t) => run (f a) t
      | (.error e, t) => (.error e, t) := by
  change run (p.bind f) s = _
  induction p generalizing s with
  | done r =>
    cases r with
    | ok a => rfl
    | error e => rfl
  | call m k ih => exact ih _ _

theorem run_bind_ok {p : Prog ε σ α} {f : α → Prog ε σ β} {s t : σ} {a : α}
    (h : run p s = (.ok a, t)) : run (p >>= f) s = run (f a) t := by
  rw [run_bind, h]

theorem run_bind_error {p : Prog ε σ α} {f : α → Prog ε σ β} {s t : σ} {e : ε}
    (h : run p s = (.error e, t)) : run (p >>= f) s = (.error e, t) := by
  rw [run_bind, h]

theorem run_zoom (wrap : ε' → ε) (view : σ → τ) (put : τ → σ → σ)
    (hview : ∀ t s, view (put t s) = t) (hput : ∀ t u s, put t (put u s) = put t s)
    (hself : ∀ s, put (view s) s = s) (p : Prog ε' τ α) (s : σ) :
    run (zoom wrap view put p) s = ((run p (view s)).1.mapError wrap, put (run p (view s)).2 s) := by
  induction p generalizing s with
  | done r => exact Prod.ext rfl (hself s).symm
  | call m k ih =>
    show run (zoom wrap view put (k _)) _ = _
    rw [ih, hview, hput]
    rfl

end Prog

/-! ## Pools -/

/-- Threads over one object. -/
structure Pool (ι ε σ α : Type) : Type 1 where
  threads : ι → Prog ε σ α
  state : σ

namespace Pool

variable {ι ε σ α : Type} [DecidableEq ι]

/-- The next call of thread `i`; a thread that is done makes none. -/
def step (c : Pool ι ε σ α) (i : ι) : Pool ι ε σ α :=
  match c.threads i with
  | .done _ => c
  | .call m k => ⟨Function.update c.threads i (k (m c.state).1), (m c.state).2⟩

/-- The pool after the calls of a schedule. -/
def exec (c : Pool ι ε σ α) (schedule : List ι) : Pool ι ε σ α := schedule.foldl step c

/-- Thread `i` has returned or raised `r`. -/
def Done (c : Pool ι ε σ α) (i : ι) (r : Except ε α) : Prop := c.threads i = .done r

/-- Every thread is done. -/
def Finished (c : Pool ι ε σ α) : Prop := ∀ i, ∃ r, c.Done i r

theorem exec_append (c : Pool ι ε σ α) (xs ys : List ι) :
    c.exec (xs ++ ys) = (c.exec xs).exec ys := List.foldl_append

/-- What a call does to the pool. -/
theorem step_cases (c : Pool ι ε σ α) (i : ι) :
    c.step i = c ∨ ∃ (β : Type) (m : σ → β × σ) (k : β → Prog ε σ α), c.threads i = .call m k ∧
      c.step i = ⟨Function.update c.threads i (k (m c.state).1), (m c.state).2⟩ := by
  unfold step
  cases h : c.threads i with
  | done r => exact .inl rfl
  | call m k => exact .inr ⟨_, m, k, rfl, rfl⟩

theorem step_call {c : Pool ι ε σ α} {i : ι} {β : Type} {m : σ → β × σ} {k : β → Prog ε σ α}
    (h : c.threads i = .call m k) :
    c.step i = ⟨Function.update c.threads i (k (m c.state).1), (m c.state).2⟩ := by
  unfold step
  rw [h]

/-- The first call of a thread, if it returns. -/
theorem step_atom {β : Type} {c : Pool ι ε σ α} {i : ι} {m : Py ε σ β} {f : β → Prog ε σ α} {b : β}
    {t : σ} (h : c.threads i = Prog.atom m >>= f) (hm : m.run c.state = (.ok b, t)) :
    c.step i = ⟨Function.update c.threads i (f b), t⟩ := by
  have hcall : c.threads i = .call m fun r => Prog.bind f (.done r) := h
  have hm' : m c.state = (.ok b, t) := hm
  rw [step_call hcall, hm']
  rfl

theorem step_done {c : Pool ι ε σ α} {i : ι} {r : Except ε α} (h : c.Done i r) : c.step i = c := by
  unfold step
  rw [show c.threads i = .done r from h]

/-- A call of thread `i` leaves the other threads where they are. -/
theorem step_ne (c : Pool ι ε σ α) {i j : ι} (h : j ≠ i) : (c.step i).threads j = c.threads j := by
  rcases c.step_cases i with hc | ⟨β, m, k, -, hc⟩ <;> rw [hc]
  exact Function.update_of_ne h _ _

/-- A thread that is done stays done. -/
theorem Done.exec {c : Pool ι ε σ α} {i : ι} {r : Except ε α} (h : c.Done i r)
    (schedule : List ι) : (c.exec schedule).Done i r := by
  induction schedule generalizing c with
  | nil => exact h
  | cons j schedule ih =>
    refine ih (c := c.step j) ?_
    by_cases hij : i = j
    · subst hij
      rw [step_done h]
      exact h
    · exact (step_ne c hij).trans h

/-- What is left of a thread comes to the same while only it is scheduled. -/
theorem run_step (c : Pool ι ε σ α) (i : ι) :
    ((c.step i).threads i).run (c.step i).state = (c.threads i).run c.state := by
  rcases c.step_cases i with hc | ⟨β, m, k, hi, hc⟩
  · rw [hc]
  · rw [hc, hi]
    simp only [Function.update_self]
    rfl

/-- The only thread runs alone. -/
theorem Done.alone [Subsingleton ι] {c : Pool ι ε σ α} {i : ι} {r : Except ε α} {schedule : List ι}
    (hd : (c.exec schedule).Done i r) : (c.threads i).run c.state = (r, (c.exec schedule).state) := by
  induction schedule generalizing c with
  | nil =>
    have hi : c.threads i = .done r := hd
    rw [hi]
    rfl
  | cons j schedule ih =>
    obtain rfl : i = j := Subsingleton.elim i j
    exact (c.run_step i).symm.trans (ih hd)

end Pool

/-! ## Rely and guarantee -/

/-- An invariant, and for each thread what it relies on and what its calls guarantee. -/
structure Protocol (ι σ : Type) where
  inv : σ → Prop
  rely : ι → σ → σ → Prop
  guar : ι → σ → σ → Prop
  refl : ∀ i s, rely i s s
  trans : ∀ i {s t u}, rely i s t → rely i t u → rely i s u
  compat : ∀ {i j s t}, i ≠ j → inv s → guar i s t → rely j s t

section Safe

variable {ι ε ε' σ τ α β : Type}

/-- From `s` on, thread `i` can run `p` by the protocol, and its result satisfies `Q`. -/
def Safe (P : Protocol ι σ) (i : ι) (Q : Except ε α → σ → Prop) : Prog ε σ α → σ → Prop
  | .done r, s => ∀ t, P.rely i s t → P.inv t → Q r t
  | .call m k, s => ∀ t, P.rely i s t → P.inv t →
      P.inv (m t).2 ∧ P.guar i t (m t).2 ∧ Safe P i Q (k (m t).1) (m t).2

namespace Safe

variable {P : Protocol ι σ} {i : ι} {Q Q' : Except ε α → σ → Prop} {p : Prog ε σ α} {s t : σ}

theorem done {r : Except ε α} (h : ∀ t, P.rely i s t → P.inv t → Q r t) :
    Safe P i Q (.done r) s := h

/-- A thread stays safe while the others run. -/
theorem rely (h : Safe P i Q p s) (hr : P.rely i s t) : Safe P i Q p t := by
  cases p with
  | done r => exact fun u hu => h u (P.trans i hr hu)
  | call m k => exact fun u hu => h u (P.trans i hr hu)

theorem mono (hQ : ∀ r t, P.inv t → Q r t → Q' r t) (h : Safe P i Q p s) : Safe P i Q' p s := by
  induction p generalizing s with
  | done r => exact fun t ht hi => hQ r t hi (h t ht hi)
  | call m k ih =>
    intro t ht hi
    obtain ⟨h1, h2, h3⟩ := h t ht hi
    exact ⟨h1, h2, ih _ h3⟩

/-- A first part that leaves the rest safe. -/
theorem bind {p : Prog ε σ β} {f : β → Prog ε σ α} (hi : P.inv s)
    (h : Safe P i (fun r t => match r with
      | .ok b => Safe P i Q (f b) t
      | .error e => Safe P i Q (.done (.error e)) t) p s) : Safe P i Q (p >>= f) s := by
  change Safe P i Q (p.bind f) s
  induction p generalizing s with
  | done r =>
    cases r with
    | ok b => exact h s (P.refl i s) hi
    | error e => exact h s (P.refl i s) hi
  | call m k ih =>
    intro t ht hit
    obtain ⟨h1, h2, h3⟩ := h t ht hit
    exact ⟨h1, h2, ih _ h1 h3⟩

/-- A program whose result is wrapped. -/
theorem map {p : Prog ε σ β} {f : β → α}
    (h : Safe P i (fun r t => match r with
      | .ok b => Q (.ok (f b)) t
      | .error e => Q (.error e) t) p s) : Safe P i Q (p >>= fun b => pure (f b)) s := by
  change Safe P i Q (p.bind fun b => .done (.ok (f b))) s
  induction p generalizing s with
  | done r => cases r <;> exact h
  | call m k ih =>
    intro t ht hit
    obtain ⟨h1, h2, h3⟩ := h t ht hit
    exact ⟨h1, h2, ih _ h3⟩

/-- One call, then the rest. -/
theorem atom_bind {m : Py ε σ β} {f : β → Prog ε σ α}
    (h : ∀ t, P.rely i s t → P.inv t → P.inv (m.run t).2 ∧ P.guar i t (m.run t).2 ∧
      match (m.run t).1 with
      | .ok b => Safe P i Q (f b) (m.run t).2
      | .error e => Safe P i Q (.done (.error e)) (m.run t).2) :
    Safe P i Q (Prog.atom m >>= f) s := by
  intro t ht hit
  obtain ⟨h1, h2, h3⟩ := h t ht hit
  refine ⟨h1, h2, ?_⟩
  unfold Py.run at h3
  revert h3
  cases (m t).1 with
  | ok b => exact id
  | error e => exact id

/-- One call whose exception is caught, then the rest. -/
theorem attempt_bind {m : Py ε' σ β} {f : Except ε' β → Prog ε σ α}
    (h : ∀ t, P.rely i s t → P.inv t → P.inv (m.run t).2 ∧ P.guar i t (m.run t).2 ∧
      Safe P i Q (f (m.run t).1) (m.run t).2) : Safe P i Q (Prog.attempt m >>= f) s := h

/-- A program for a component that is safe by the component's protocol. -/
theorem zoom {P' : Protocol ι τ} {Q' : Except ε' α → τ → Prop} {wrap : ε' → ε} {view : σ → τ}
    {put : τ → σ → σ} {p : Prog ε' τ α} (hview : ∀ t s, view (put t s) = t)
    (hinv : ∀ s, P.inv s → P'.inv (view s))
    (hrely : ∀ s t, P.rely i s t → P'.rely i (view s) (view t))
    (hguar : ∀ s t, P.inv s → P'.inv t → P'.guar i (view s) t →
      P.inv (put t s) ∧ P.guar i s (put t s))
    (hQ : ∀ r s, P.inv s → Q' r (view s) → Q (r.mapError wrap) s)
    (h : Safe P' i Q' p (view s)) : Safe P i Q (Prog.zoom wrap view put p) s := by
  induction p generalizing s with
  | done r => exact fun t ht hi => hQ r t hi (h (view t) (hrely s t ht) (hinv t hi))
  | call m k ih =>
    intro t ht hi
    obtain ⟨h1, h2, h3⟩ := h (view t) (hrely s t ht) (hinv t hi)
    obtain ⟨h4, h5⟩ := hguar t _ hi h1 h2
    exact ⟨h4, h5, ih _ (by rw [hview]; exact h3)⟩

/-- A program for a component that the protocol leaves alone: what `J` says of the rest stays. -/
theorem frame {J : σ → Prop} {wrap : ε' → ε} {view : σ → τ} {put : τ → σ → σ} {p : Prog ε' τ α}
    (hrely : ∀ s t, J s → P.rely i s t → J t)
    (hput : ∀ s t, P.inv s → J s → P.inv (put t s) ∧ P.guar i s (put t s) ∧ J (put t s))
    (hQ : ∀ r s, P.inv s → J s → Q r s) (hs : J s) : Safe P i Q (Prog.zoom wrap view put p) s := by
  induction p generalizing s with
  | done r => exact fun t ht hi => hQ _ t hi (hrely s t hs ht)
  | call m k ih =>
    intro t ht hi
    obtain ⟨h1, h2, h3⟩ := hput t (m (view t)).2 hi (hrely s t hs ht)
    exact ⟨h1, h2, ih _ h3⟩

/-- A safe program that runs alone. -/
theorem run (hi : P.inv s) (h : Safe P i Q p s) :
    Q (p.run s).1 (p.run s).2 ∧ P.inv (p.run s).2 := by
  induction p generalizing s with
  | done r => exact ⟨h s (P.refl i s) hi, hi⟩
  | call m k ih =>
    obtain ⟨h1, -, h3⟩ := h s (P.refl i s) hi
    exact ih _ h1 h3

end Safe

/-- Safe threads keep the invariant and stay safe in every interleaving. -/
theorem Pool.sound [DecidableEq ι] {P : Protocol ι σ} {Q : ι → Except ε α → σ → Prop}
    {c : Pool ι ε σ α} (hi : P.inv c.state) (h : ∀ i, Safe P i (Q i) (c.threads i) c.state)
    (schedule : List ι) :
    P.inv (c.exec schedule).state ∧
      ∀ i, Safe P i (Q i) ((c.exec schedule).threads i) (c.exec schedule).state := by
  induction schedule generalizing c with
  | nil => exact ⟨hi, h⟩
  | cons j schedule ih =>
    refine ih (c := c.step j) ?_ fun i => ?_ <;>
      rcases c.step_cases j with hc | ⟨β, m, k, hj, hc⟩ <;> rw [hc]
    · exact hi
    · have hsafe := h j
      rw [hj] at hsafe
      exact (hsafe c.state (P.refl j _) hi).1
    · exact h i
    · have hsafe := h j
      rw [hj] at hsafe
      obtain ⟨-, h2, h3⟩ := hsafe c.state (P.refl j _) hi
      by_cases hij : i = j
      · subst hij
        simp only [Function.update_self]
        exact h3
      · simp only [Function.update_of_ne hij]
        exact (h i).rely (P.compat (Ne.symm hij) hi h2)

/-- The result of a thread that is done. -/
theorem Pool.sound_done [DecidableEq ι] {P : Protocol ι σ} {Q : ι → Except ε α → σ → Prop}
    {c : Pool ι ε σ α} (hi : P.inv c.state) (h : ∀ i, Safe P i (Q i) (c.threads i) c.state)
    {schedule : List ι} {i : ι} {r : Except ε α} (hd : (c.exec schedule).Done i r) :
    Q i r (c.exec schedule).state := by
  obtain ⟨hinv, hsafe⟩ := Pool.sound hi h schedule
  have hd' := hsafe i
  rw [show (c.exec schedule).threads i = .done r from hd] at hd'
  exact hd' _ (P.refl i _) hinv

/-- A call of a safe thread meets its guarantee. -/
theorem Pool.step_guar [DecidableEq ι] {P : Protocol ι σ} {Q : ι → Except ε α → σ → Prop}
    {c : Pool ι ε σ α} (hi : P.inv c.state) (h : ∀ i, Safe P i (Q i) (c.threads i) c.state) (i : ι) :
    c.step i = c ∨ P.guar i c.state (c.step i).state := by
  rcases c.step_cases i with hc | ⟨β, m, k, hthread, hc⟩
  · exact .inl hc
  · have hsafe := h i
    rw [hthread] at hsafe
    rw [hc]
    exact .inr (hsafe c.state (P.refl i _) hi).2.1

/-- What every call does, a run does. -/
theorem Pool.exec_relates [DecidableEq ι] {P : Protocol ι σ} {Q : ι → Except ε α → σ → Prop}
    {R : σ → σ → Prop} (hrefl : ∀ s, R s s) (htrans : ∀ s t u, R s t → R t u → R s u)
    (hR : ∀ i s t, P.guar i s t → R s t) {c : Pool ι ε σ α} (hi : P.inv c.state)
    (h : ∀ i, Safe P i (Q i) (c.threads i) c.state) (schedule : List ι) :
    R c.state (c.exec schedule).state := by
  induction schedule generalizing c with
  | nil => exact hrefl _
  | cons j schedule ih =>
    obtain ⟨hi', h'⟩ := Pool.sound hi h [j]
    refine htrans _ _ _ ?_ (ih hi' h')
    rcases Pool.step_guar hi h j with hc | hg
    · rw [hc]
      exact hrefl _
    · exact hR j _ _ hg

/-! ## Accounting -/

/-- In states that satisfy `I`, a flagged result comes only after a call that pays. -/
def Prog.Pays (I : σ → Prop) (pay : σ → σ → Prop) (flag : α → Prop) : Prog ε σ α → Prop
  | .done r => ∀ a, r = .ok a → ¬ flag a
  | .call m k => ∀ s, I s → pay s (m s).2 ∨ Pays I pay flag (k (m s).1)

/-- Every result satisfies `R`. -/
abbrev Prog.Returns (I : σ → Prop) (R : α → Prop) (p : Prog ε σ α) : Prop :=
  p.Pays I (fun _ _ => False) fun a => ¬ R a

namespace Prog.Pays

variable {I : σ → Prop} {pay : σ → σ → Prop} {flag : α → Prop}

theorem bind {R : β → Prop} {p : Prog ε σ β} {f : β → Prog ε σ α} (hp : p.Returns I R)
    (hf : ∀ b, R b → (f b).Pays I pay flag) : (p >>= f).Pays I pay flag := by
  change (p.bind f).Pays I pay flag
  induction p with
  | done r =>
    cases r with
    | ok b => exact hf b (not_not.mp (hp b rfl))
    | error e => exact fun a ha => nomatch ha
  | call m k ih =>
    intro s hs
    rcases hp s hs with hno | hrest
    · exact hno.elim
    · exact .inr (ih _ hrest)

/-- One call, then the rest. -/
theorem atom_bind {m : Py ε σ β} {f : β → Prog ε σ α}
    (h : ∀ s b, I s → (m.run s).1 = .ok b → (f b).Pays I pay flag) :
    (Prog.atom m >>= f).Pays I pay flag := by
  intro s hs
  have hs' := fun b => h s b hs
  unfold Py.run at hs'
  revert hs'
  cases (m s).1 with
  | ok b => exact fun hs' => .inr (hs' b rfl)
  | error e => exact fun _ => .inr fun a ha => nomatch ha

/-- One call whose exception is caught, then the rest. -/
theorem attempt_bind {m : Py ε' σ β} {f : Except ε' β → Prog ε σ α}
    (h : ∀ s, I s → pay s (m.run s).2 ∨ (f (m.run s).1).Pays I pay flag) :
    (Prog.attempt m >>= f).Pays I pay flag := h

end Prog.Pays

/-- If every pay makes the object larger and no call makes it smaller, there are at most as many
threads with a flagged result as the object has grown. -/
theorem Pool.payers [DecidableEq ι] {P : Protocol ι σ} {Q : ι → Except ε α → σ → Prop}
    {I : σ → Prop} {pay : σ → σ → Prop} {flag : α → Prop} (size : σ → Nat)
    (hI : ∀ s, P.inv s → I s) (hpay : ∀ s t, pay s t → size s < size t)
    (hgrow : ∀ i s t, P.inv s → P.guar i s t → size s ≤ size t) {c : Pool ι ε σ α}
    (hi : P.inv c.state) (h : ∀ i, Safe P i (Q i) (c.threads i) c.state)
    (hp : ∀ i, (c.threads i).Pays I pay flag) (schedule : List ι) :
    ∃ payers : Finset ι, payers.card + size c.state ≤ size (c.exec schedule).state ∧
      ∀ i, i ∉ payers → ((c.exec schedule).threads i).Pays I pay flag := by
  suffices haux : ∀ (c : Pool ι ε σ α) (paid : Finset ι), P.inv c.state →
      (∀ i, Safe P i (Q i) (c.threads i) c.state) →
      (∀ i, i ∉ paid → (c.threads i).Pays I pay flag) →
      ∃ payers : Finset ι, payers.card + size c.state ≤ size (c.exec schedule).state + paid.card ∧
        ∀ i, i ∉ payers → ((c.exec schedule).threads i).Pays I pay flag by
    obtain ⟨payers, hcard, hrest⟩ := haux c ∅ hi h fun i _ => hp i
    exact ⟨payers, by simpa using hcard, hrest⟩
  clear hp h hi c
  intro c paid hi h hp
  induction schedule generalizing c paid with
  | nil => exact ⟨paid, Nat.le_of_eq (Nat.add_comm _ _), hp⟩
  | cons j schedule ih =>
    obtain ⟨hi', h'⟩ := Pool.sound hi h [j]
    have hle : size c.state ≤ size (c.step j).state := by
      rcases Pool.step_guar hi h j with hc | hg
      · rw [hc]
      · exact hgrow j _ _ hi hg
    -- either the call pays, or the thread still has to
    have hstep : ∃ paid' : Finset ι,
        paid'.card + size c.state ≤ size (c.step j).state + paid.card ∧
        ∀ i, i ∉ paid' → ((c.step j).threads i).Pays I pay flag := by
      by_cases hj : j ∈ paid
      · refine ⟨paid, by omega, fun i hni => ?_⟩
        have hne : i ≠ j := fun heq => hni (heq ▸ hj)
        rw [Pool.step_ne c hne]
        exact hp i hni
      · have hother : ∀ i, i ≠ j → i ∉ paid → ((c.step j).threads i).Pays I pay flag :=
          fun i hne hni => by
            rw [Pool.step_ne c hne]
            exact hp i hni
        rcases c.step_cases j with hc | ⟨β, m, k, hthread, hc⟩
        · exact ⟨paid, by omega, fun i hni => by rw [hc]; exact hp i hni⟩
        · have hpays := hp j hj
          rw [hthread] at hpays
          rcases hpays c.state (hI _ hi) with hpd | hrest
          · refine ⟨insert j paid, ?_, fun i hni => ?_⟩
            · have hlt := hpay _ _ hpd
              rw [Finset.card_insert_of_notMem hj, hc]
              simp only
              omega
            · rw [Finset.mem_insert, not_or] at hni
              exact hother i hni.1 hni.2
          · refine ⟨paid, by omega, fun i hni => ?_⟩
            by_cases hij : i = j
            · subst hij
              rw [hc]
              simp only [Function.update_self]
              exact hrest
            · exact hother i hij hni
    obtain ⟨paid', hcard', hp'⟩ := hstep
    obtain ⟨payers, hcard, hrest⟩ := ih (c.step j) paid' hi' h' hp'
    exact ⟨payers, by change _ ≤ size ((c.step j).exec schedule).state + _; omega, hrest⟩

/-- If the object has grown by at most one, at most one thread has a flagged result. -/
theorem Pool.one_payer [DecidableEq ι] {P : Protocol ι σ} {Q : ι → Except ε α → σ → Prop}
    {I : σ → Prop} {pay : σ → σ → Prop} {flag : α → Prop} (size : σ → Nat)
    (hI : ∀ s, P.inv s → I s) (hpay : ∀ s t, pay s t → size s < size t)
    (hgrow : ∀ i s t, P.inv s → P.guar i s t → size s ≤ size t) {c : Pool ι ε σ α}
    (hi : P.inv c.state) (h : ∀ i, Safe P i (Q i) (c.threads i) c.state)
    (hp : ∀ i, (c.threads i).Pays I pay flag) {schedule : List ι}
    (hone : size (c.exec schedule).state ≤ size c.state + 1) {i j : ι} {a b : α}
    (ha : (c.exec schedule).Done i (.ok a)) (hb : (c.exec schedule).Done j (.ok b))
    (hfa : flag a) (hfb : flag b) : i = j := by
  obtain ⟨payers, hcard, hrest⟩ := Pool.payers size hI hpay hgrow hi h hp schedule
  have hmem : ∀ {i : ι} {a : α}, (c.exec schedule).Done i (.ok a) → flag a → i ∈ payers :=
    fun {i a} hd hf => by
      by_contra hni
      have hpays := hrest i hni
      rw [show (c.exec schedule).threads i = .done (.ok a) from hd] at hpays
      exact hpays a rfl hf
  exact Finset.card_le_one.mp (by omega) i (hmem ha hfa) j (hmem hb hfb)

end Safe
end Lib
