import Mathlib.Data.List.DropRight
import ViperVault.Foundation.Reader

/-!
# Base32

Base32 as RFC 4648 has it: five bits a symbol, most significant first, with padding up to eight
symbols or without. The last symbol has spare bits, which belong to no byte; a decoder may refuse
a text where they are not zero.
-/

namespace ViperVault.Foundation.Base32

/-- The five bits of a symbol, as a number. -/
def symbol? (c : Char) : Option Nat :=
  if 'A' ≤ c ∧ c ≤ 'Z' then some (c.toNat - 65)
  else if '2' ≤ c ∧ c ≤ '7' then some (c.toNat - 50 + 26)
  else none

/-- The bits of symbols, as a number; `n` is that of the symbols before them. -/
def value? (n : Nat) : List Char → Option Nat
  | [] => some n
  | c :: s => do
      let d ← symbol? c
      value? (32 * n + d) s

/-- The numbers of symbols in which bytes can be encoded. -/
def IsLength (n : Nat) : Prop := n % 8 ∈ [0, 2, 4, 5, 7]

instance (n : Nat) : Decidable (IsLength n) := inferInstanceAs (Decidable (_ ∈ _))

/-- The spare bits of the last of these symbols are zero. -/
def SpareBitsZero (s : List Char) : Prop :=
  ∀ v ∈ value? 0 s, v % 2 ^ (5 * s.length % 8) = 0

instance (s : List Char) : Decidable (SpareBitsZero s) :=
  inferInstanceAs (Decidable (∀ v ∈ value? 0 s, v % 2 ^ (5 * s.length % 8) = 0))

/-- Decode symbols; `strict` refuses spare bits that are not zero. -/
def decode (strict : Bool) (s : List Char) : Option (List UInt8) := do
  let v ← value? 0 s
  if IsLength s.length ∧ (strict = true → SpareBitsZero s) then
    some (leBytes (5 * s.length / 8) (v / 2 ^ (5 * s.length % 8))).reverse
  else none

/-- A text without the padding at its end. -/
def unpadded (s : List Char) : List Char := s.rdropWhile (· == '=')

/-- The text is filled up with padding to the next multiple of eight. -/
def IsPadded (s : List Char) : Prop := s.length % 8 = 0 ∧ s.length < (unpadded s).length + 8

instance (s : List Char) : Decidable (IsPadded s) := inferInstanceAs (Decidable (_ ∧ _))

/-- Decode symbols that are padded. -/
def decodePadded (strict : Bool) (s : List Char) : Option (List UInt8) :=
  if IsPadded s then decode strict (unpadded s) else none

theorem exists_value?_iff (n : Nat) (s : List Char) :
    (∃ v, value? n s = some v) ↔ ∀ c ∈ s, ∃ d, symbol? c = some d := by
  induction s generalizing n with
  | nil => simp [value?]
  | cons c s ih =>
      cases hc : symbol? c with
      | none => simp [value?, hc]
      | some d => simp [value?, hc, ih]

theorem exists_decode_iff (strict : Bool) (s : List Char) :
    (∃ out, decode strict s = some out) ↔
      (∀ c ∈ s, ∃ d, symbol? c = some d) ∧ IsLength s.length ∧
        (strict = true → SpareBitsZero s) := by
  rw [← exists_value?_iff 0, decode]
  cases value? 0 s with
  | none => simp
  | some v => simp

theorem length_decode {strict : Bool} {s : List Char} {out : List UInt8}
    (h : decode strict s = some out) : out.length = 5 * s.length / 8 := by
  rw [decode] at h
  obtain ⟨v, -, hout⟩ := Option.bind_eq_some_iff.mp h
  split at hout
  · cases hout
    rw [List.length_reverse, length_leBytes]
  · cases hout

theorem decodePadded_eq_some {strict : Bool} {s : List Char} {out : List UInt8} :
    decodePadded strict s = some out ↔ IsPadded s ∧ decode strict (unpadded s) = some out := by
  unfold decodePadded
  split
  · next h => simp [h]
  · next h => simp [h]

example : decode true "MZXW6YTBOI".toList = some [102, 111, 111, 98, 97, 114] := by decide

end ViperVault.Foundation.Base32
