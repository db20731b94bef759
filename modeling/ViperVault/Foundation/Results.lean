import Mathlib.Init

/-!
# Results

The combinators that programs use on fallible results, with a rule for each that says when a
chain of them succeeds.
-/

namespace ViperVault.Foundation

variable {ε ε' α β : Type}

/-- A value that may be absent, with the failure for its absence. -/
def okOr : Option α → ε → Except ε α
  | some a, _ => .ok a
  | none, e => .error e

/-- Fail under a condition. -/
def failIf (c : Prop) [Decidable c] (e : ε) : Except ε Unit := if c then .error e else .ok ()

@[simp] theorem okOr_some (a : α) (e : ε) : okOr (some a) e = .ok a := rfl

@[simp] theorem okOr_none (e : ε) : okOr (none : Option α) e = .error e := rfl

@[simp] theorem okOr_eq_ok {o : Option α} {e : ε} {a : α} : okOr o e = .ok a ↔ o = some a := by
  cases o with
  | none => simp
  | some b => simp

@[simp] theorem failIf_eq_ok {c : Prop} [Decidable c] {e : ε} {u : Unit} :
    failIf c e = .ok u ↔ ¬ c := by
  unfold failIf
  split <;> simp_all

@[simp] theorem mapError_ok (f : ε → ε') (a : α) : (Except.ok a).mapError f = .ok a := rfl

@[simp] theorem mapError_error (f : ε → ε') (e : ε) :
    (Except.error e : Except ε α).mapError f = .error (f e) := rfl

@[simp] theorem mapError_eq_ok {f : ε → ε'} {x : Except ε α} {a : α} :
    x.mapError f = .ok a ↔ x = .ok a := by
  cases x with
  | error e => simp
  | ok b => simp

@[simp] theorem ok_bind (a : α) (f : α → Except ε β) : (Except.ok a >>= f) = f a := rfl

@[simp] theorem error_bind (e : ε) (f : α → Except ε β) :
    ((Except.error e : Except ε α) >>= f) = .error e := rfl

/-- A chain succeeds when both of its parts do. -/
theorem bind_eq_ok {x : Except ε α} {f : α → Except ε β} {b : β} :
    (x >>= f) = .ok b ↔ ∃ a, x = .ok a ∧ f a = .ok b := by
  cases x with
  | error e => simp
  | ok a => simp

/-- A chain that starts with a check. -/
@[simp high] theorem check_bind_eq_ok {x : Except ε Unit} {f : Unit → Except ε β} {b : β} :
    (x >>= f) = .ok b ↔ x = .ok () ∧ f () = .ok b := by
  cases x with
  | error e => simp
  | ok u => simp

theorem pure_eq_ok {a b : α} : (pure a : Except ε α) = .ok b ↔ a = b := by
  constructor
  · intro h
    exact Except.ok.inj h
  · rintro rfl
    rfl

/-! ## Loops -/

/-- The loop rule: what every pass keeps holds where the loop ends. -/
theorem foldlM_invariant {σ : Type} {pass : σ → α → Except ε σ} (inv : σ → Prop)
    (hpass : ∀ s a t, inv s → pass s a = .ok t → inv t) {l : List α} {s t : σ} (hs : inv s)
    (h : l.foldlM pass s = .ok t) : inv t := by
  induction l generalizing s with
  | nil =>
      rw [List.foldlM_nil] at h
      exact pure_eq_ok.mp h ▸ hs
  | cons a l ih =>
      rw [List.foldlM_cons] at h
      obtain ⟨m, hm, h⟩ := bind_eq_ok.mp h
      exact ih (hpass s a m hs hm) h

/-- A list of checks passes exactly if each of them does. -/
theorem forM_eq_ok {check : α → Except ε Unit} {l : List α} :
    l.forM check = .ok () ↔ ∀ a ∈ l, check a = .ok () := by
  induction l with
  | nil => exact ⟨fun _ _ ha => absurd ha List.not_mem_nil, fun _ => rfl⟩
  | cons a l ih =>
      rw [List.forall_mem_cons, ← ih]
      exact check_bind_eq_ok

/-! ## One error -/

/-- The run knows one error only. -/
def FailsOnly (err : ε) (x : Except ε α) : Prop := ∀ e, x = .error e → e = err

theorem failsOnly_failIf (c : Prop) [Decidable c] (err : ε) : FailsOnly err (failIf c err) := by
  intro e h
  unfold failIf at h
  split at h
  · exact (Except.error.inj h).symm
  · cases h

theorem failsOnly_okOr (o : Option α) (err : ε) : FailsOnly err (okOr o err) := by
  intro e h
  cases o with
  | none => exact (Except.error.inj h).symm
  | some a => cases h

theorem failsOnly_pure (err : ε) (a : α) : FailsOnly err (pure a : Except ε α) := by
  intro e h
  cases h

theorem FailsOnly.bind {err : ε} {x : Except ε α} {f : α → Except ε β} (hx : FailsOnly err x)
    (hf : ∀ a, FailsOnly err (f a)) : FailsOnly err (x >>= f) := by
  cases x with
  | error e =>
      intro e' h
      cases h
      exact hx e rfl
  | ok a => exact hf a

/-! ## Two runs -/

/-- If both fail, they fail alike. -/
def SameFailure (x y : Except ε α) : Prop := ∀ e e', x = .error e → y = .error e' → e = e'

theorem SameFailure.refl (x : Except ε α) : SameFailure x x := by
  intro e e' h h'
  exact Except.error.inj (h.symm.trans h')

/-- A common part in front of two runs does not tell them apart. -/
theorem SameFailure.bind (x : Except ε α) {f g : α → Except ε β}
    (h : ∀ a, SameFailure (f a) (g a)) : SameFailure (x >>= f) (x >>= g) := by
  cases x with
  | error err => exact SameFailure.refl _
  | ok a => exact h a

/-- Runs that know one error only fail alike. -/
theorem SameFailure.of_only {x y : Except ε α} (err : ε) (hx : FailsOnly err x)
    (hy : FailsOnly err y) : SameFailure x y := by
  intro e e' h h'
  rw [hx e h, hy e' h']

/-- Neither of two runs that fail alike succeeds: they answer one error. -/
theorem SameFailure.exists_error {x y : Except ε α} (h : SameFailure x y)
    (hx : ∀ a, x ≠ .ok a) (hy : ∀ a, y ≠ .ok a) : ∃ e, x = .error e ∧ y = .error e := by
  cases x with
  | ok a => exact absurd rfl (hx a)
  | error e =>
      cases y with
      | ok b => exact absurd rfl (hy b)
      | error e' => exact ⟨e, rfl, by rw [h e e' rfl rfl]⟩

end ViperVault.Foundation
