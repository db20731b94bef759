import Mathlib.Init

/-!
# Methods that write through a mutable reference and may fail

`Mut σ ε α` is a method body that works on a mutable place of type `σ` and returns
`Result<α, ε>`. An early return keeps whatever was written before it, so a failing body still
has a final place. `Atomic` says that a failing body left the place as it found it.
-/

namespace ViperVault.Foundation

/-- A body that mutates a place of type `σ` and returns a result. -/
def Mut (σ ε α : Type) : Type := σ → Except ε α × σ

namespace Mut

variable {σ ε α β : Type}

/-- Run a body on a place; the second component is the place afterwards. -/
def run (m : Mut σ ε α) (s : σ) : Except ε α × σ := m s

/-- Continue after success; an error skips the rest and keeps the writes made so far. -/
def bind (m : Mut σ ε α) (f : α → Mut σ ε β) : Mut σ ε β := fun s =>
  match m s with
  | (.ok a, s') => f a s'
  | (.error err, s') => (.error err, s')

instance : Monad (Mut σ ε) where
  pure a := fun s => (.ok a, s)
  bind := bind

/-- `return Err(err)`. -/
def fail (err : ε) : Mut σ ε α := fun s => (.error err, s)

/-- Read the place. -/
def read : Mut σ ε σ := fun s => (.ok s, s)

/-- Write the place. -/
def write (f : σ → σ) : Mut σ ε Unit := fun s => (.ok (), f s)

/-- `check?`: a test that does not touch the place. -/
def check (r : Except ε α) : Mut σ ε α := fun s => (r, s)

/-- `if let Some(a) = o { body(a)? }`. -/
def ifSome (o : Option α) (body : α → Mut σ ε Unit) : Mut σ ε Unit :=
  match o with
  | none => pure ()
  | some a => body a

/-- A body with a clean-up, which runs if the body fails; what the clean-up answers is dropped. -/
def withCleanup {ε' : Type} (m : Mut σ ε α) (cleanup : Mut σ ε' β) : Mut σ ε α := fun s =>
  match m s with
  | (.ok a, s') => (.ok a, s')
  | (.error err, s') => (.error err, (cleanup s').2)

@[simp] theorem run_pure (a : α) (s : σ) : (pure a : Mut σ ε α).run s = (.ok a, s) := rfl

@[simp] theorem run_fail (err : ε) (s : σ) :
    (fail err : Mut σ ε α).run s = (.error err, s) := rfl

@[simp] theorem run_read (s : σ) : (read : Mut σ ε σ).run s = (.ok s, s) := rfl

@[simp] theorem run_write (f : σ → σ) (s : σ) :
    (write f : Mut σ ε Unit).run s = (.ok (), f s) := rfl

@[simp] theorem run_check (r : Except ε α) (s : σ) : (check r : Mut σ ε α).run s = (r, s) := rfl

theorem run_bind (m : Mut σ ε α) (f : α → Mut σ ε β) (s : σ) :
    (m >>= f).run s =
      match m.run s with
      | (.ok a, s') => (f a).run s'
      | (.error err, s') => (.error err, s') := rfl

theorem run_bind_ok {m : Mut σ ε α} {f : α → Mut σ ε β} {s s' : σ} {a : α}
    (h : m.run s = (.ok a, s')) : (m >>= f).run s = (f a).run s' := by
  rw [run_bind, h]

theorem run_bind_error {m : Mut σ ε α} {f : α → Mut σ ε β} {s s' : σ} {err : ε}
    (h : m.run s = (.error err, s')) : (m >>= f).run s = (.error err, s') := by
  rw [run_bind, h]

/-- A chain succeeds when both of its parts do. -/
theorem run_bind_eq_ok {m : Mut σ ε α} {f : α → Mut σ ε β} {s s' : σ} {b : β} :
    (m >>= f).run s = (.ok b, s') ↔
      ∃ a mid, m.run s = (.ok a, mid) ∧ (f a).run mid = (.ok b, s') := by
  rw [run_bind]
  cases hrun : m.run s with
  | mk r mid =>
      cases r with
      | error err => simp
      | ok a =>
          constructor
          · exact fun h => ⟨a, mid, rfl, h⟩
          · rintro ⟨a', mid', hrun', h⟩
            cases hrun'
            exact h

/-- A chain that starts with a test. -/
theorem run_check_bind_eq_ok {r : Except ε α} {f : α → Mut σ ε β} {s s' : σ} {b : β} :
    (check r >>= f).run s = (.ok b, s') ↔ ∃ a, r = .ok a ∧ (f a).run s = (.ok b, s') := by
  cases r with
  | error err => simp [run_bind]
  | ok a => simp [run_bind]

/-- A clean-up does not turn a failure into success. -/
theorem run_withCleanup_eq_ok {ε' : Type} {m : Mut σ ε α} {cleanup : Mut σ ε' β} {s s' : σ}
    {a : α} : (withCleanup m cleanup).run s = (.ok a, s') ↔ m.run s = (.ok a, s') := by
  simp only [run, withCleanup]
  split
  · next hrun => rw [hrun]
  · next hrun => simp [hrun]

/-- The body keeps a property of its place, whether it answers or fails. -/
def Keeps (P : σ → Prop) (m : Mut σ ε α) : Prop := ∀ s, P s → P (m.run s).2

section Keeps

variable {P : σ → Prop}

theorem keeps_check (r : Except ε α) : Keeps P (check r : Mut σ ε α) := fun _ h => h

theorem keeps_read : Keeps P (read : Mut σ ε σ) := fun _ h => h

theorem keeps_fail (err : ε) : Keeps P (fail err : Mut σ ε α) := fun _ h => h

theorem keeps_write {f : σ → σ} (hf : ∀ s, P s → P (f s)) : Keeps P (write f : Mut σ ε Unit) := hf

theorem Keeps.bind {m : Mut σ ε α} {f : α → Mut σ ε β} (hm : Keeps P m)
    (hf : ∀ a, Keeps P (f a)) : Keeps P (m >>= f) := by
  intro s hs
  have hmid : P (m.run s).2 := hm s hs
  rw [run_bind]
  cases hrun : m.run s with
  | mk r s' =>
      rw [hrun] at hmid
      cases r with
      | ok a => exact hf a s' hmid
      | error err => exact hmid

theorem keeps_ifSome (o : Option α) {body : α → Mut σ ε Unit} (hbody : ∀ a, Keeps P (body a)) :
    Keeps P (ifSome o body) := by
  cases o with
  | none => exact fun _ h => h
  | some a => exact hbody a

end Keeps

/-- The body answers only where the property holds afterwards. -/
def Establishes (P : σ → Prop) (m : Mut σ ε α) : Prop :=
  ∀ s a s', m.run s = (.ok a, s') → P s'

/-- The last part of a body establishes its property. -/
theorem establishes_bind {P : σ → Prop} (m : Mut σ ε α) {f : α → Mut σ ε β}
    (hf : ∀ a, Establishes P (f a)) : Establishes P (m >>= f) := by
  intro s b s' h
  rw [run_bind] at h
  cases hrun : m.run s with
  | mk r mid =>
      rw [hrun] at h
      cases r with
      | ok a => exact hf a mid b s' h
      | error err => cases h

/-- A failing body left its place unchanged. -/
def Atomic (m : Mut σ ε α) : Prop :=
  ∀ s err s', m.run s = (.error err, s') → s' = s

theorem atomic_write (f : σ → σ) : Atomic (write f : Mut σ ε Unit) := by
  intro s err s' h
  simp at h

end Mut

end ViperVault.Foundation
