import ViperVault.Foundation.Results
import Mathlib.Algebra.Group.Nat.Defs

/-!
# Panics

Computations that may stop the program instead of answering, with the operations on slices and
machine words that can do so. `Follows` compares such a computation with one that cannot stop:
it composes along `bind`, and who follows never panics.
-/

namespace ViperVault.Foundation

variable {ε α α' β β' : Type}

/-- How a computation fails: it stops the program, or it answers an error. -/
inductive Failure (ε : Type)
  | panic
  | err (e : ε)
  deriving DecidableEq

/-- A computation that may stop the program. -/
abbrev Checked (ε α : Type) : Type := Except (Failure ε) α

/-- A computation that does not stop the program, as one that may. -/
def safely (x : Except ε α) : Checked ε α := x.mapError Failure.err

/-- The slice from one index to another. -/
def sliceRange (xs : List α) (start stop : Nat) : Checked ε (List α) :=
  if start ≤ stop ∧ stop ≤ xs.length then .ok ((xs.drop start).take (stop - start))
  else .error .panic

/-- A slice that is overwritten with another one. -/
def copyFromSlice (dst src : List α) : Checked ε (List α) :=
  if dst.length = src.length then .ok src else .error .panic

/-- The element at an index. -/
def elementAt (xs : List α) (i : Nat) : Checked ε α :=
  match xs[i]? with
  | some a => .ok a
  | none => .error .panic

/-- What a number is divided by. -/
def divisor [DecidableEq α] [OfNat α 0] (d : α) : Checked ε α :=
  if d = 0 then .error .panic else .ok d

/-- The result of an operation on `i32`. -/
def asI32 (n : Int) : Checked ε Int :=
  if -2147483648 ≤ n ∧ n < 2147483648 then .ok n else .error .panic

/-- The sum of two machine words, when it is one. -/
def checkedAdd (a b : UInt64) : Option UInt64 :=
  if a.toNat + b.toNat < 2 ^ 64 then some (a + b) else none

theorem checkedAdd_eq_some {a b c : UInt64} :
    checkedAdd a b = some c ↔ c.toNat = a.toNat + b.toNat := by
  unfold checkedAdd
  constructor
  · intro h
    split at h
    · rename_i hlt
      cases h
      rw [UInt64.toNat_add, Nat.mod_eq_of_lt hlt]
    · cases h
  · intro h
    have hlt : a.toNat + b.toNat < 2 ^ 64 := h ▸ c.toNat_lt
    rw [if_pos hlt, Option.some.injEq]
    apply UInt64.toNat_inj.mp
    rw [UInt64.toNat_add, Nat.mod_eq_of_lt hlt, h]

theorem checkedAdd_eq_none {a b : UInt64} :
    checkedAdd a b = none ↔ 2 ^ 64 ≤ a.toNat + b.toNat := by
  unfold checkedAdd
  split
  · simp only [reduceCtorEq, false_iff]
    omega
  · simp only [true_iff]
    omega

theorem elementAt_of_some {xs : List α} {i : Nat} {a : α} (h : xs[i]? = some a) :
    (elementAt xs i : Checked ε α) = .ok a := by
  rw [elementAt, h]

theorem divisor_of_ne [DecidableEq α] [OfNat α 0] {d : α} (h : d ≠ 0) :
    (divisor d : Checked ε α) = .ok d := if_neg h

theorem asI32_of_lt {n : Int} (hlower : -2147483648 ≤ n) (hupper : n < 2147483648) :
    (asI32 n : Checked ε Int) = .ok n := if_pos ⟨hlower, hupper⟩

/-- The computation ends as the other one does, up to a view of its answer. -/
def Follows (view : α → α') (x : Checked ε α) (y : Except ε α') : Prop :=
  x.map view = safely y

theorem follows_id_iff {x : Checked ε α} {y : Except ε α} : Follows id x y ↔ x = safely y := by
  unfold Follows
  cases x with
  | error e => rfl
  | ok a => rfl

theorem Follows.ne_panic {view : α → α'} {x : Checked ε α} {y : Except ε α'}
    (h : Follows view x y) : x ≠ .error .panic := by
  rintro rfl
  cases y with
  | error e => cases h
  | ok a => cases h

theorem follows_map {view : α → α'} {view' : β → β'} {x : Checked ε α} {y : Except ε α'}
    {f : α → β} {g : α' → β'} (hx : Follows view x y) (hf : ∀ a, view' (f a) = g (view a)) :
    Follows view' (x.map f) (y.map g) := by
  cases x with
  | error e =>
      cases y with
      | error e' =>
          cases hx
          rfl
      | ok b => cases hx
  | ok a =>
      cases y with
      | error e' => cases hx
      | ok b =>
          cases hx
          exact congrArg Except.ok (hf a)

theorem follows_pure (view : α → α') (a : α) :
    Follows view (pure a : Checked ε α) (pure (view a)) := rfl

theorem follows_safely (x : Except ε α) : Follows id (safely x) x := by
  cases x with
  | error e => rfl
  | ok a => rfl

theorem follows_bind {view : α → α'} {view' : β → β'} {x : Checked ε α} {y : Except ε α'}
    {f : α → Checked ε β} {g : α' → Except ε β'} (hx : Follows view x y)
    (hf : ∀ a, Follows view' (f a) (g (view a))) : Follows view' (x >>= f) (y >>= g) := by
  cases x with
  | error e =>
      cases y with
      | error e' =>
          cases hx
          rfl
      | ok b => cases hx
  | ok a =>
      cases y with
      | error e' => cases hx
      | ok b =>
          cases hx
          exact hf a

/-- A step that cannot stop the program is taken by both. -/
theorem follows_safely_bind {view : β → β'} {x : Except ε α} {f : α → Checked ε β}
    {g : α → Except ε β'} (hf : ∀ a, Follows view (f a) (g a)) :
    Follows view (safely x >>= f) (x >>= g) :=
  follows_bind (follows_safely x) hf

end ViperVault.Foundation
