import ViperVault.Foundation.Runs

/-!
# Simulations between runs

A concrete system whose states have an abstract image, and whose events are abstract events or
nothing. What one step does to the image is what the abstract step does, and so for whole runs.
-/

namespace ViperVault.Foundation

variable {σ τ ε δ : Type*} {step : σ → ε → Option σ} {step' : τ → δ → Option τ}

/-- The abstract step of an event; an event without an image leaves the state alone. -/
def imageStep (step' : τ → δ → Option τ) (t : τ) : Option δ → Option τ
  | none => some t
  | some d => step' t d

theorem exec_filterMap_cons (imageEvent : ε → Option δ) (t : τ) (e : ε) (es : List ε) :
    exec step' t ((e :: es).filterMap imageEvent) =
      (imageStep step' t (imageEvent e)).bind fun t' =>
        exec step' t' (es.filterMap imageEvent) := by
  cases hevent : imageEvent e with
  | none =>
      rw [List.filterMap_cons_none hevent]
      rfl
  | some d =>
      rw [List.filterMap_cons_some hevent]
      rfl

/-- Forward simulation: the image of a run is a run. -/
theorem exec_of_simulation (image : σ → τ) (imageEvent : ε → Option δ)
    (hsim : ∀ s e s', step s e = some s' →
      imageStep step' (image s) (imageEvent e) = some (image s'))
    {s t : σ} {es : List ε} (h : exec step s es = some t) :
    exec step' (image s) (es.filterMap imageEvent) = some (image t) := by
  induction es generalizing s with
  | nil =>
      cases h
      rfl
  | cons e es ih =>
      obtain ⟨s', hstep, hrest⟩ := exec_cons_eq_some.mp h
      rw [exec_filterMap_cons, hsim s e s' hstep]
      exact ih hrest

/-- Simulation both ways, on states of an invariant and on some events: the runs of the concrete
system are those of the abstract one. -/
theorem map_exec_of_bisimulation (image : σ → τ) (imageEvent : ε → Option δ) (inv : σ → Prop)
    (good : ε → Prop) (hinv : ∀ s e s', inv s → good e → step s e = some s' → inv s')
    (hsim : ∀ s e, inv s → good e →
      (step s e).map image = imageStep step' (image s) (imageEvent e))
    {s : σ} {es : List ε} (hs : inv s) (hgood : ∀ e ∈ es, good e) :
    (exec step s es).map image = exec step' (image s) (es.filterMap imageEvent) := by
  induction es generalizing s with
  | nil => rfl
  | cons e es ih =>
      have he := hgood e List.mem_cons_self
      rw [exec_filterMap_cons, ← hsim s e hs he]
      cases hstep : step s e with
      | none => simp [exec, hstep]
      | some s' =>
          have hrest : ∀ e' ∈ es, good e' := fun e' hmem => hgood e' (List.mem_cons_of_mem e hmem)
          simpa [exec, hstep] using ih (hinv s e s' hs he hstep) hrest

end ViperVault.Foundation
