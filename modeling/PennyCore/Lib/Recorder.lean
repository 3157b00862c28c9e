import PennyCore.Lib.Prog
import PennyCore.Lib.Ring

/-!
# Programs that keep a record

A program over a large object that runs another program on a part of it, and in between writes items
into a record that the other one does not see.

* `Recorder`: the part that is seen (`view`), and what the record of a state is (`Log`).
* `Records R wrap T acc p q`: `p` makes the calls of `q`, in their order and with their results, and
  calls of its own that only add an item to the record. `acc` is what it has recorded, and `T r` what
  it has recorded when `q` is done with `r`.
* `Records.run`: run alone, `p` answers as `q` and records what `T` says of the answer.
* `Pool.records`: in every interleaving, the pool of the `p` is at every moment where some interleaving
  of the `q` is, and the record is an interleaving of what the threads have recorded.
* `Prog.tryCatch` catches the exceptions of a program; `Records.lift_bind` is the rule for a part that
  is run as it is, with its exceptions caught.
-/

namespace Lib

variable {ι ε ε' ρ σ τ α β : Type}

/-- `p`, and where it raises `e`, `h e`. -/
def Prog.tryCatch (h : ε → Prog ε σ α) : Prog ε σ α → Prog ε σ α
  | .done (.ok a) => .done (.ok a)
  | .done (.error e) => h e
  | .call m k => .call m fun b => tryCatch h (k b)

/-- Every exception that the program raises satisfies `E`. -/
def Prog.Throws (E : ε → Prop) : Prog ε σ α → Prop
  | .done r => ∀ e, r = .error e → E e
  | .call m k => ∀ s, Throws E (k (m s).1)

namespace Prog

theorem tryCatch_raise (p : Prog ε σ α) : p.tryCatch raise = p := by
  induction p with
  | done r => cases r <;> rfl
  | call m k ih => exact congrArg (Prog.call m) (funext ih)

theorem bind_assoc {γ : Type} (p : Prog ε σ α) (f : α → Prog ε σ β) (g : β → Prog ε σ γ) :
    p >>= f >>= g = p >>= fun a => f a >>= g := by
  change (p.bind f).bind g = p.bind fun a => (f a).bind g
  induction p with
  | done r => cases r <;> rfl
  | call m k ih => exact congrArg (Prog.call m) (funext ih)

theorem throws_any (p : Prog ε σ α) : p.Throws fun _ => True := by
  induction p with
  | done r => exact fun _ _ => trivial
  | call m k ih => exact fun s => ih _

theorem throws_atom {E : ε → Prop} {m : Py ε σ α} (h : ∀ s e, (m.run s).1 = .error e → E e) :
    (atom m).Throws E := fun s e he => h s e he

theorem Throws.bind {E : ε → Prop} {p : Prog ε σ β} {f : β → Prog ε σ α} (hp : p.Throws E)
    (hf : ∀ b, (f b).Throws E) : (p >>= f).Throws E := by
  change (p.bind f).Throws E
  induction p with
  | done r =>
    cases r with
    | ok b => exact hf b
    | error e =>
      rintro e' ⟨⟩
      exact hp e rfl
  | call m k ih => exact fun s => ih _ (hp s)

theorem Throws.mono {E E' : ε → Prop} {p : Prog ε σ α} (hE : ∀ e, E e → E' e) (h : p.Throws E) :
    p.Throws E' := by
  induction p with
  | done r => exact fun e he => hE e (h e he)
  | call m k ih => exact fun s => ih _ (h s)

/-- What a part raises is wrapped. -/
theorem throws_zoom {E : ε → Prop} {wrap : ε' → ε} {view : σ → τ} {put : τ → σ → σ}
    (hE : ∀ e, E (wrap e)) (p : Prog ε' τ α) : (zoom wrap view put p).Throws E := by
  induction p with
  | done r =>
    cases r with
    | ok a => exact fun e he => by cases he
    | error e' =>
      rintro e ⟨⟩
      exact hE e'
  | call m k ih => exact fun s => ih _

theorem Throws.run {E : ε → Prop} {p : Prog ε σ α} (h : p.Throws E) {s : σ} {e : ε}
    (he : (p.run s).1 = .error e) : E e := by
  induction p generalizing s with
  | done r => exact h e he
  | call m k ih => exact ih _ (h s) he

end Prog

/-- What is seen of a state, and its record. -/
structure Recorder (ρ σ τ : Type) where
  view : ρ → σ
  Log : ρ → List τ → Prop

inductive Records (R : Recorder ρ σ τ) (wrap : ε' → ε) (T : Except ε' α → List τ) :
    List τ → Prog ε ρ α → Prog ε' σ α → Prop
  | done (r : Except ε' α) : Records R wrap T (T r) (.done (r.mapError wrap)) (.done r)
  /-- A call of the program that is run. -/
  | call {acc : List τ} {β : Type} {m : ρ → β × ρ} {m' : σ → β × σ} {k : β → Prog ε ρ α}
      {k' : β → Prog ε' σ α} (hm : ∀ s, ((m s).1, R.view (m s).2) = m' (R.view s))
      (hlog : ∀ s l, R.Log s l → R.Log (m s).2 l)
      (h : ∀ s, Records R wrap T acc (k (m s).1) (k' (m s).1)) :
      Records R wrap T acc (.call m k) (.call m' k')
  /-- A call that records `x`. -/
  | record {acc : List τ} {x : τ} {β : Type} {m : ρ → β × ρ} {k : β → Prog ε ρ α}
      {q : Prog ε' σ α} (hm : ∀ s, R.view (m s).2 = R.view s)
      (hlog : ∀ s l, R.Log s l → R.Log (m s).2 (l ++ [x]))
      (h : ∀ s, Records R wrap T (acc ++ [x]) (k (m s).1) q) : Records R wrap T acc (.call m k) q

namespace Records

variable {R : Recorder ρ σ τ} {wrap : ε' → ε} {T : Except ε' α → List τ} {acc : List τ}
  {p : Prog ε ρ α} {q : Prog ε' σ α}

/-- A program that is done: so is the other, with the same answer, and all is recorded. -/
theorem done_eq {r : Except ε α} (h : Records R wrap T acc (.done r) q) :
    ∃ r', q = .done r' ∧ r = r'.mapError wrap ∧ acc = T r' := by
  cases h with
  | done r' => exact ⟨r', rfl, rfl, rfl⟩

/-- A part that is run as it is, with what `h` does where it raises, and then the rest. -/
theorem lift_bind {E : ε' → Prop} {put : σ → ρ → ρ} {part : Prog ε' σ β} {h : ε → Prog ε ρ β}
    {f : β → Prog ε ρ α} {g : β → Prog ε' σ α} (hview : ∀ t s, R.view (put t s) = t)
    (hlog : ∀ t s l, R.Log s l → R.Log (put t s) l) (hthrows : part.Throws E)
    (hok : ∀ b, Records R wrap T acc (f b) (g b))
    (herror : ∀ e, E e → Records R wrap T acc (h (wrap e) >>= f) (.done (.error e))) :
    Records R wrap T acc ((Prog.zoom wrap R.view put part).tryCatch h >>= f) (part >>= g) := by
  induction part with
  | done r =>
    cases r with
    | ok b => exact hok b
    | error e => exact herror e (hthrows e rfl)
  | call m k ih =>
    refine Records.call (fun s => ?_) (fun s l hl => hlog _ _ _ hl) fun s => ih _ (hthrows _)
    rw [hview]

/-- A recording program that runs alone. -/
theorem run (h : Records R wrap T acc p q) {s : ρ} {l : List τ} (hl : R.Log s l) :
    (p.run s).1 = (q.run (R.view s)).1.mapError wrap ∧ R.view (p.run s).2 = (q.run (R.view s)).2 ∧
      ∃ xs, acc ++ xs = T (q.run (R.view s)).1 ∧ R.Log (p.run s).2 (l ++ xs) := by
  induction h generalizing s l with
  | done r =>
    refine ⟨rfl, rfl, [], List.append_nil _, ?_⟩
    rw [List.append_nil]
    exact hl
  | @call acc β m m' k k' hm hlog h ih =>
    have hstep : (Prog.call m' k').run (R.view s) = (k' (m s).1).run (R.view (m s).2) := by
      show (k' (m' (R.view s)).1).run (m' (R.view s)).2 = _
      rw [← hm s]
    rw [hstep]
    exact ih s (hlog s l hl)
  | @record acc x β m k q hm hlog h ih =>
    obtain ⟨hr, hv, xs, hxs, hlogged⟩ := ih s (hlog s l hl)
    rw [hm s] at hr hv hxs
    refine ⟨hr, hv, x :: xs, ?_, ?_⟩
    · rw [← hxs, List.append_assoc]
      rfl
    · rw [List.append_assoc] at hlogged
      exact hlogged

end Records

namespace Pool

variable [DecidableEq ι] {R : Recorder ρ σ τ} {wrap : ε' → ε} {T : ι → Except ε' α → List τ}

/-- One call of a recording thread is one of the other thread, or none. -/
theorem step_records {c : Pool ι ε ρ α} {d : Pool ι ε' σ α} {acc : ι → List τ} {l : List τ}
    (hview : R.view c.state = d.state) (hlog : R.Log c.state l)
    (h : ∀ i, Records R wrap (T i) (acc i) (c.threads i) (d.threads i)) (j : ι) :
    ∃ schedule xs, schedule.Sublist [j] ∧ R.view (c.step j).state = (d.exec schedule).state ∧
      R.Log (c.step j).state (l ++ xs) ∧ ∀ i, Records R wrap (T i)
        (acc i ++ if i = j then xs else []) ((c.step j).threads i) ((d.exec schedule).threads i) := by
  have hj := h j
  generalize hp : c.threads j = p at hj
  generalize hq : d.threads j = q at hj
  generalize ha : acc j = a at hj
  have hsame : ∀ i, (if i = j then ([] : List τ) else []) = [] := fun i => by split <;> rfl
  cases hj with
  | done r =>
    have hc : c.step j = c := step_done (show c.Done j _ from hp)
    refine ⟨[], [], List.nil_sublist _, ?_, ?_, fun i => ?_⟩
    · rw [hc]
      exact hview
    · rw [hc, List.append_nil]
      exact hlog
    · rw [hc, hsame, List.append_nil]
      exact h i
  | @call _ β m m' k k' hm hl hk =>
    rw [step_call hp]
    refine ⟨[j], [], List.Sublist.refl _, ?_, ?_, fun i => ?_⟩
    · show R.view (m c.state).2 = (d.step j).state
      rw [step_call hq, ← hview, ← hm c.state]
    · rw [List.append_nil]
      exact hl _ _ hlog
    · show Records R wrap (T i) _ _ ((d.step j).threads i)
      rw [step_call hq, hsame, List.append_nil]
      by_cases hij : i = j
      · subst hij
        simp only [Function.update_self]
        rw [ha, ← hview, ← hm c.state]
        exact hk c.state
      · simp only [Function.update_of_ne hij]
        exact h i
  | @record _ x β m k q hm hl hk =>
    rw [step_call hp]
    refine ⟨[], [x], List.nil_sublist _, ?_, hl _ _ hlog, fun i => ?_⟩
    · show R.view (m c.state).2 = d.state
      rw [hm, hview]
    · show Records R wrap (T i) _ _ (d.threads i)
      by_cases hij : i = j
      · subst hij
        rw [if_pos rfl, ha, hq]
        simp only [Function.update_self]
        exact hk c.state
      · rw [if_neg hij, List.append_nil]
        simp only [Function.update_of_ne hij]
        exact h i

/-- In every interleaving of recording threads. -/
theorem records {c : Pool ι ε ρ α} {d : Pool ι ε' σ α} {acc : ι → List τ} {l : List τ}
    (hview : R.view c.state = d.state) (hlog : R.Log c.state l)
    (h : ∀ i, Records R wrap (T i) (acc i) (c.threads i) (d.threads i)) (schedule : List ι) :
    ∃ (schedule' : List ι) (tagged : List (ι × τ)), schedule'.Sublist schedule ∧
      R.view (c.exec schedule).state = (d.exec schedule').state ∧
      R.Log (c.exec schedule).state (l ++ tagged.map Prod.snd) ∧
      ∀ i, Records R wrap (T i) (acc i ++ Ring.sent i tagged) ((c.exec schedule).threads i)
        ((d.exec schedule').threads i) := by
  induction schedule generalizing c d acc l with
  | nil =>
    refine ⟨[], [], List.nil_sublist _, hview, ?_, fun i => ?_⟩
    · rw [List.map_nil, List.append_nil]
      exact hlog
    · show Records R wrap (T i) (acc i ++ []) _ _
      rw [List.append_nil]
      exact h i
  | cons j schedule ih =>
    obtain ⟨first, xs, hfirst, hview', hlog', h'⟩ := step_records hview hlog h j
    obtain ⟨rest, tagged, hrest, hview'', hlog'', h''⟩ := ih hview' hlog' h'
    refine ⟨first ++ rest, xs.map (fun x => (j, x)) ++ tagged, hfirst.append hrest, ?_, ?_, fun i => ?_⟩
    · rw [exec_append]
      exact hview''
    · have hsnd : (xs.map fun x => (j, x)).map Prod.snd = xs := by simp
      rw [List.map_append, hsnd, ← List.append_assoc]
      exact hlog''
    · have hsent : Ring.sent i (xs.map fun x => (j, x)) = if i = j then xs else [] := by
        rw [Ring.sent_tagged]
        simp only [eq_comm]
      rw [exec_append, Ring.sent_append, hsent, ← List.append_assoc]
      exact h'' i

end Pool
end Lib
