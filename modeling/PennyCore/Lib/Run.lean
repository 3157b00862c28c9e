import Mathlib.Logic.Basic

/-!
# Runs of a state machine and their histories

A machine is a function `step : σ → ω → σ`; `legal s o` says which operations the environment may
issue in state `s` (an id it draws is unused, for instance). `Run step legal s₀ h s` is a run from
`s₀` to `s`; its history `h` holds each operation with the state it was applied to, so whatever an
operation answered, and whatever rule was in force when it ran, is a function of `h`.

* `Run.invariant`: a property of the history and the state that holds at the start and is kept by
  each legal step holds of every run.
* `Run.relates`: a reflexive and transitive relation that each step satisfies relates the ends of
  every run.
* `Run.append`: runs compose.
* `Run.ofOps`: a list of operations, each legal where it is applied, is a run.
-/

namespace Lib

variable {σ ω η : Type}

/-- A run from `s₀` to a state, with its history: the operations, each with the state before it. -/
inductive Run (step : σ → ω → σ) (legal : σ → ω → Prop) (s₀ : σ) : List (σ × ω) → σ → Prop
  | start : Run step legal s₀ [] s₀
  | next {h : List (σ × ω)} {s : σ} {o : ω} :
      Run step legal s₀ h s → legal s o → Run step legal s₀ (h ++ [(s, o)]) (step s o)

namespace Run

variable {step : σ → ω → σ} {legal : σ → ω → Prop} {s₀ s t : σ} {h h' : List (σ × ω)}

/-- The induction rule for runs. -/
theorem invariant {I : List (σ × ω) → σ → Prop} (h0 : I [] s₀)
    (hstep : ∀ h s o, Run step legal s₀ h s → I h s → legal s o → I (h ++ [(s, o)]) (step s o))
    (hr : Run step legal s₀ h s) : I h s := by
  induction hr with
  | start => exact h0
  | next hr hl ih => exact hstep _ _ _ hr ih hl

/-- An invariant of the states alone. -/
theorem holds {I : σ → Prop} (h0 : I s₀) (hstep : ∀ s o, I s → legal s o → I (step s o))
    (hr : Run step legal s₀ h s) : I s :=
  hr.invariant (I := fun _ s => I s) h0 fun _ s o _ hi hl => hstep s o hi hl

/-- What each step does to an invariant state, the whole run does. -/
theorem relates {I : σ → Prop} {R : σ → σ → Prop} (h0 : I s₀)
    (hstep : ∀ s o, I s → legal s o → I (step s o)) (hrefl : ∀ s, R s s)
    (htrans : ∀ s t u, R s t → R t u → R s u) (hR : ∀ s o, I s → legal s o → R s (step s o))
    (hr : Run step legal s₀ h s) : R s₀ s := by
  induction hr with
  | start => exact hrefl _
  | next hr hl ih => exact htrans _ _ _ ih (hR _ _ (hr.holds h0 hstep) hl)

theorem append (hr : Run step legal s₀ h s) (hr' : Run step legal s h' t) :
    Run step legal s₀ (h ++ h') t := by
  induction hr' with
  | start => rwa [List.append_nil]
  | next _ hl ih => rw [← List.append_assoc]; exact .next ih hl

/-- A run under a stronger restriction on the operations. -/
theorem mono {legal' : σ → ω → Prop} (hl : ∀ s o, legal s o → legal' s o)
    (hr : Run step legal s₀ h s) : Run step legal' s₀ h s := by
  induction hr with
  | start => exact .start
  | next _ h ih => exact .next ih (hl _ _ h)

/-! ## The run of a list of operations -/

/-- The history of the operations `ops` from `s`. -/
def trace (step : σ → ω → σ) : σ → List ω → List (σ × ω)
  | _, [] => []
  | s, o :: ops => (s, o) :: trace step (step s o) ops

theorem mem_of_trace {ops : List ω} {o : ω} (h : (t, o) ∈ trace step s ops) : o ∈ ops := by
  induction ops generalizing s with
  | nil => cases h
  | cons o' ops ih =>
    rcases List.mem_cons.mp h with heq | h
    · exact (Prod.mk.inj heq).2 ▸ List.mem_cons_self
    · exact List.mem_cons_of_mem o' (ih h)

/-- Each operation is legal in the state it is applied to. -/
def Legal (step : σ → ω → σ) (legal : σ → ω → Prop) : σ → List ω → Prop
  | _, [] => True
  | s, o :: ops => legal s o ∧ Legal step legal (step s o) ops

theorem Legal.of_forall (hl : ∀ s o, legal s o) (s : σ) (ops : List ω) : Legal step legal s ops := by
  induction ops generalizing s with
  | nil => exact trivial
  | cons o ops ih => exact ⟨hl s o, ih (step s o)⟩

theorem ofOps {ops : List ω} (hl : Legal step legal s₀ ops) :
    Run step legal s₀ (trace step s₀ ops) (ops.foldl step s₀) := by
  induction ops generalizing s₀ with
  | nil => exact .start
  | cons o ops ih => exact (Run.start.next hl.1).append (ih hl.2)

end Run
end Lib
