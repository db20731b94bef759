import ViperVault.Foundation.Runs
import Mathlib.Data.List.Nodup
import Mathlib.Tactic.Tauto

/-!
# What a run puts out

The steps of a system put out items, in the order in which they are taken. A value that each step
changes by what it puts out is a fold over the items of the run; and where a step puts out exactly
what it completes for good, a run puts out each item once, and all that it completes.
-/

namespace ViperVault.Foundation

variable {σ ε β γ : Type*} (step : σ → ε → Option σ) (out : σ → ε → List β)

/-- The items of a run, in order. -/
def outputs : σ → List ε → List β
  | _, [] => []
  | s, e :: es => out s e ++ (step s e).elim [] fun s' => outputs s' es

variable {step out}

theorem outputs_cons {s s' : σ} {e : ε} (h : step s e = some s') (es : List ε) :
    outputs step out s (e :: es) = out s e ++ outputs step out s' es := by
  rw [outputs, h, Option.elim_some]

/-- What each step changes by its items is changed by those of the run. -/
theorem foldl_outputs {φ : σ → γ} {f : γ → β → γ} (good : σ → ε → Prop)
    (hstep : ∀ s e s', good s e → step s e = some s' → φ s' = (out s e).foldl f (φ s))
    {s t : σ} {es : List ε} (hgood : EveryStep step good s es) (h : exec step s es = some t) :
    φ t = (outputs step out s es).foldl f (φ s) := by
  induction es generalizing s with
  | nil =>
      cases h
      rfl
  | cons e es ih =>
      obtain ⟨s', hs', h⟩ := exec_cons_eq_some.mp h
      rw [outputs_cons hs', List.foldl_append, ← hstep s e s' hgood.1 hs']
      exact ih (hgood.2 s' hs') h

/-! ## Items that are completed -/

section Completed

variable {Done : β → σ → Prop}
  (hkeep : ∀ b s e s', step s e = some s' → Done b s → Done b s')
  (hout : ∀ b s e s', step s e = some s' → (b ∈ out s e ↔ Done b s' ∧ ¬ Done b s))

include hkeep

theorem done_of_exec {b : β} {s t : σ} {es : List ε} (h : exec step s es = some t)
    (hs : Done b s) : Done b t :=
  exec_invariant (Done b) (fun s e s' hs hs' => hkeep b s e s' hs' hs) hs h

include hout

/-- A run puts out what it completes. -/
theorem mem_outputs_iff {b : β} {s t : σ} {es : List ε} (h : exec step s es = some t) :
    b ∈ outputs step out s es ↔ Done b t ∧ ¬ Done b s := by
  induction es generalizing s with
  | nil =>
      cases h
      simp [outputs]
  | cons e es ih =>
      obtain ⟨s', hs', h⟩ := exec_cons_eq_some.mp h
      rw [outputs_cons hs', List.mem_append, hout b s e s' hs', ih h]
      have hlater : Done b s' → Done b t := done_of_exec hkeep h
      have hsooner : Done b s → Done b s' := hkeep b s e s' hs'
      tauto

/-- No item is put out twice. -/
theorem nodup_outputs (hnodup : ∀ s e, (out s e).Nodup) {s t : σ} {es : List ε}
    (h : exec step s es = some t) : (outputs step out s es).Nodup := by
  induction es generalizing s with
  | nil => exact List.nodup_nil
  | cons e es ih =>
      obtain ⟨s', hs', h⟩ := exec_cons_eq_some.mp h
      rw [outputs_cons hs', List.nodup_append']
      refine ⟨hnodup s e, ih h, fun b hnow hlater => ?_⟩
      have hdone := ((hout b s e s' hs').mp hnow).1
      exact ((mem_outputs_iff hkeep hout h).mp hlater).2 hdone

end Completed

end ViperVault.Foundation
