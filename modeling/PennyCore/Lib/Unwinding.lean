import Mathlib.Data.List.Forall2
import PennyCore.Lib.Run

/-!
# Unwinding: two runs with the same operations of one party

A machine serves several parties. One of them is fixed; an operation is its own (`own`) or foreign
(`foreign`). `Twin foreign rel ops ops'` says that the two schedules have the same own operations in
the same order, up to `rel`, with arbitrary foreign operations in between.

`Unwinding` collects what makes the party independent of the others: a share of the state that
foreign operations do not touch (`frame`), and own operations that act alike on similar shares
(`sync`). `Unwinding.run` is the consequence for whole schedules: the party gets the same answers
(`Run.outputs`), and the shares end up similar.
-/

namespace Lib

variable {σ ω β π : Type}

/-- Two schedules with the same own operations, up to `rel`, and any foreign ones. -/
inductive Twin (foreign : ω → Prop) (rel : ω → ω → Prop) : List ω → List ω → Prop
  | nil : Twin foreign rel [] []
  | left {o : ω} {ops ops' : List ω} :
      foreign o → Twin foreign rel ops ops' → Twin foreign rel (o :: ops) ops'
  | right {o : ω} {ops ops' : List ω} :
      foreign o → Twin foreign rel ops ops' → Twin foreign rel ops (o :: ops')
  | both {o o' : ω} {ops ops' : List ω} :
      rel o o' → Twin foreign rel ops ops' → Twin foreign rel (o :: ops) (o' :: ops')

/-- Every operation of twin schedules is foreign or has a counterpart. -/
theorem Twin.mem {foreign : ω → Prop} {rel : ω → ω → Prop} {ops ops' : List ω}
    (h : Twin foreign rel ops ops') :
    (∀ o ∈ ops, foreign o ∨ ∃ o', rel o o') ∧ ∀ o ∈ ops', foreign o ∨ ∃ o', rel o' o := by
  induction h with
  | nil => exact ⟨nofun, nofun⟩
  | left hf _ ih => exact ⟨List.forall_mem_cons.mpr ⟨.inl hf, ih.1⟩, ih.2⟩
  | right hf _ ih => exact ⟨ih.1, List.forall_mem_cons.mpr ⟨.inl hf, ih.2⟩⟩
  | both hr _ ih =>
    exact ⟨List.forall_mem_cons.mpr ⟨.inr ⟨_, hr⟩, ih.1⟩,
      List.forall_mem_cons.mpr ⟨.inr ⟨_, hr⟩, ih.2⟩⟩

/-- The answers to the own operations of a schedule. -/
def Run.outputs (step : σ → ω → σ) (out : σ → ω → β) (own : ω → Prop) [DecidablePred own] :
    σ → List ω → List β
  | _, [] => []
  | s, o :: ops =>
    if own o then out s o :: Run.outputs step out own (step s o) ops
    else Run.outputs step out own (step s o) ops

/-- The party whose operations are `own` is independent of the others (module doc). -/
structure Unwinding (step : σ → ω → σ) (legal : σ → ω → Prop) (out : σ → ω → β)
    (own foreign : ω → Prop) (rel : ω → ω → Prop) (inv : σ → Prop) (share : σ → π)
    (sim : π → π → Prop) (agree : β → β → Prop) : Prop where
  keeps : ∀ {s o}, inv s → legal s o → inv (step s o)
  frame : ∀ {s o}, inv s → legal s o → foreign o → share (step s o) = share s
  sync : ∀ {s t o o'}, inv s → inv t → legal s o → legal t o' → rel o o' → sim (share s) (share t) →
    agree (out s o) (out t o') ∧ sim (share (step s o)) (share (step t o'))
  not_own : ∀ {o}, foreign o → ¬ own o
  own : ∀ {o o'}, rel o o' → own o ∧ own o'

namespace Unwinding

variable {step : σ → ω → σ} {legal : σ → ω → Prop} {out : σ → ω → β} {own foreign : ω → Prop}
  {rel : ω → ω → Prop} {inv : σ → Prop} {share : σ → π} {sim : π → π → Prop} {agree : β → β → Prop}

/-- Twin schedules answer the party alike and leave it similar shares. -/
theorem run [DecidablePred own]
    (U : Unwinding step legal out own foreign rel inv share sim agree) {ops ops' : List ω}
    (ht : Twin foreign rel ops ops') {s t : σ} (hs : inv s) (hinv : inv t)
    (hl : Run.Legal step legal s ops) (hl' : Run.Legal step legal t ops')
    (hsim : sim (share s) (share t)) :
    List.Forall₂ agree (Run.outputs step out own s ops) (Run.outputs step out own t ops') ∧
      sim (share (ops.foldl step s)) (share (ops'.foldl step t)) := by
  induction ht generalizing s t with
  | nil => exact ⟨.nil, hsim⟩
  | left hf _ ih =>
    have hshare := U.frame hs hl.1 hf
    simp only [Run.outputs, if_neg (U.not_own hf), List.foldl_cons]
    exact ih (U.keeps hs hl.1) hinv hl.2 hl' (by rw [hshare]; exact hsim)
  | right hf _ ih =>
    have hshare := U.frame hinv hl'.1 hf
    simp only [Run.outputs, if_neg (U.not_own hf), List.foldl_cons]
    exact ih hs (U.keeps hinv hl'.1) hl hl'.2 (by rw [hshare]; exact hsim)
  | both hr _ ih =>
    obtain ⟨hout, hnext⟩ := U.sync hs hinv hl.1 hl'.1 hr hsim
    obtain ⟨houts, hend⟩ := ih (U.keeps hs hl.1) (U.keeps hinv hl'.1) hl.2 hl'.2 hnext
    obtain ⟨ho, ho'⟩ := U.own hr
    simp only [Run.outputs, if_pos ho, if_pos ho', List.foldl_cons]
    exact ⟨.cons hout houts, hend⟩

end Unwinding
end Lib
