import Mathlib.Logic.Basic

/-!
# Stateful computations that may raise

`Py ε σ α` is a method of a mutable object: it reads and writes the object's state `σ` and returns
an `α` or raises an `ε`. What it wrote before it raised stays written, so "the call left the state
unchanged when it raised" is a theorem about a method (`Py.Atomic`), not a feature of the monad.

* `Py.run` and its lemmas evaluate a method step by step.
* `Py.zoom`: a method of a component, run on the component inside the whole.
* `Py.Atomic`: a raise leaves the state as it was. A method that first only checks (`Py.Reads`) and
  then does something atomic is atomic (`Atomic.bind`).
-/

namespace Lib

/-- A computation over the state `σ` that may raise an `ε`; the state is kept at a raise. -/
def Py (ε σ α : Type) : Type := σ → Except ε α × σ

namespace Py

variable {ε σ τ α β : Type}

/-- Run a method on a state: the result, or what it raised, and the state it leaves. -/
def run (m : Py ε σ α) (s : σ) : Except ε α × σ := m s

instance : Monad (Py ε σ) where
  pure a := fun s => (.ok a, s)
  bind m f := fun s =>
    match m s with
    | (.ok a, s') => f a s'
    | (.error e, s') => (.error e, s')

/-- The current state. -/
def get : Py ε σ σ := fun s => (.ok s, s)

/-- Change the state. -/
def modify (f : σ → σ) : Py ε σ Unit := fun s => (.ok (), f s)

/-- Raise an exception. -/
def raise (e : ε) : Py ε σ α := fun s => (.error e, s)

/-- A pure check or constructor that may raise. -/
def ofExcept (x : Except ε α) : Py ε σ α := fun s => (x, s)

/-- A method of the component at `fst`/`put`, as a method of the whole; its exceptions become
exceptions of the whole by `wrap`. -/
def zoom {ε' : Type} (wrap : ε' → ε) (view : σ → τ) (put : τ → σ → σ) (m : Py ε' τ α) : Py ε σ α :=
  fun s => let (r, t) := m (view s); (r.mapError wrap, put t s)

@[simp] theorem run_pure (a : α) (s : σ) : (pure a : Py ε σ α).run s = (.ok a, s) := rfl

theorem run_bind (m : Py ε σ α) (f : α → Py ε σ β) (s : σ) :
    (m >>= f).run s =
      match m.run s with
      | (.ok a, s') => (f a).run s'
      | (.error e, s') => (.error e, s') := rfl

@[simp] theorem run_get (s : σ) : (get : Py ε σ σ).run s = (.ok s, s) := rfl

@[simp] theorem run_modify (f : σ → σ) (s : σ) : (modify f : Py ε σ Unit).run s = (.ok (), f s) := rfl

@[simp] theorem run_raise (e : ε) (s : σ) : (raise e : Py ε σ α).run s = (.error e, s) := rfl

@[simp] theorem run_ofExcept (x : Except ε α) (s : σ) : (ofExcept x : Py ε σ α).run s = (x, s) := rfl

theorem run_zoom {ε' : Type} (wrap : ε' → ε) (view : σ → τ) (put : τ → σ → σ) (m : Py ε' τ α)
    (s : σ) :
    (zoom wrap view put m).run s = ((m.run (view s)).1.mapError wrap, put (m.run (view s)).2 s) := rfl

/-- The steps of a bind whose first part returned `a` and left `s'`. -/
theorem run_bind_ok {m : Py ε σ α} {f : α → Py ε σ β} {s t : σ} {a : α}
    (h : m.run s = (.ok a, t)) : (m >>= f).run s = (f a).run t := by
  rw [run_bind, h]

/-- A bind whose first part raised. -/
theorem run_bind_error {m : Py ε σ α} {f : α → Py ε σ β} {s t : σ} {e : ε}
    (h : m.run s = (.error e, t)) : (m >>= f).run s = (.error e, t) := by
  rw [run_bind, h]

/-- A bind that only wraps the result. -/
theorem run_bind_pure (m : Py ε σ α) (f : α → β) (s : σ) :
    (m >>= fun a => pure (f a)).run s = ((m.run s).1.map f, (m.run s).2) := by
  rcases h : m.run s with ⟨e | a, s'⟩
  · rw [run_bind_error h]; rfl
  · rw [run_bind_ok h]; rfl

/-- A check whose result is bound. -/
theorem run_ofExcept_bind (x : Except ε α) (f : α → Py ε σ β) (s : σ) :
    (ofExcept x >>= f).run s =
      match x with
      | .ok a => (f a).run s
      | .error e => (.error e, s) := by
  cases x <;> rfl

theorem run_ite {c : Prop} [Decidable c] (m n : Py ε σ α) (s : σ) :
    (if c then m else n).run s = if c then m.run s else n.run s := by
  split <;> rfl

/-! ## Atomicity -/

/-- The method does not write. -/
def Reads (m : Py ε σ α) : Prop := ∀ s, (m.run s).2 = s

/-- A raise leaves the state as it was. -/
def Atomic (m : Py ε σ α) : Prop := ∀ s e, (m.run s).1 = .error e → (m.run s).2 = s

theorem Reads.atomic {m : Py ε σ α} (h : m.Reads) : m.Atomic := fun s _ _ => h s

theorem reads_pure (a : α) : (pure a : Py ε σ α).Reads := fun _ => rfl

theorem reads_get : (get : Py ε σ σ).Reads := fun _ => rfl

theorem reads_raise (e : ε) : (raise e : Py ε σ α).Reads := fun _ => rfl

theorem reads_ofExcept (x : Except ε α) : (ofExcept x : Py ε σ α).Reads := fun _ => rfl

theorem Reads.ite {c : Prop} [Decidable c] {m n : Py ε σ α} (hm : m.Reads) (hn : n.Reads) :
    (if c then m else n).Reads := by
  split
  · exact hm
  · exact hn

theorem Atomic.ite {c : Prop} [Decidable c] {m n : Py ε σ α} (hm : m.Atomic) (hn : n.Atomic) :
    (if c then m else n).Atomic := by
  split
  · exact hm
  · exact hn

theorem Reads.bind {m : Py ε σ α} {f : α → Py ε σ β} (hm : m.Reads) (hf : ∀ a, (f a).Reads) :
    (m >>= f).Reads := by
  intro s
  have h := hm s
  rcases hr : m.run s with ⟨_ | a, s'⟩
  · rw [run_bind_error hr]; rw [hr] at h; exact h
  · rw [run_bind_ok hr, hf a s']; rw [hr] at h; exact h

/-- Checks first, then an atomic rest. -/
theorem Atomic.bind {m : Py ε σ α} {f : α → Py ε σ β} (hm : m.Reads) (hf : ∀ a, (f a).Atomic) :
    (m >>= f).Atomic := by
  intro s e
  have h := hm s
  rcases hr : m.run s with ⟨_ | a, s'⟩
  · rw [run_bind_error hr]; rw [hr] at h; exact fun _ => h
  · rw [run_bind_ok hr]
    rw [hr] at h
    simp only at h
    subst h
    exact hf a _ e

/-- A write that cannot raise, then a rest that cannot raise. -/
theorem atomic_of_ok {m : Py ε σ α} (h : ∀ s, ∃ a, (m.run s).1 = .ok a) : m.Atomic := by
  intro s e he
  obtain ⟨a, ha⟩ := h s
  rw [ha] at he
  cases he

end Py

/-- A loop over calls that all return. -/
theorem mapM_ok {ε α β : Type} {f : α → Except ε β} {g : α → β} {l : List α}
    (h : ∀ x ∈ l, f x = .ok (g x)) : l.mapM f = .ok (l.map g) := by
  induction l with
  | nil => rfl
  | cons x l ih =>
    rw [List.mapM_cons, h x List.mem_cons_self, ih fun y hy => h y (List.mem_cons_of_mem x hy)]
    rfl

end Lib
