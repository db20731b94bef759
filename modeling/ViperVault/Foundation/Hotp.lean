import ViperVault.Foundation.Reader
import Mathlib.Data.List.Basic

/-!
# One-time codes

The codes of RFC 4226 over a message authentication code: the low half of its last byte says which
four of its bytes are the number, and the code is the last decimal digits of that number. A
verifier accepts the codes of the counters in a window.
-/

namespace ViperVault.Foundation.Hotp

/-- The number that big-endian bytes stand for. -/
def ofBeBytes (bytes : List UInt8) : Nat := ofLeBytes bytes.reverse

/-- The bytes of a number, most significant first. -/
def beBytes (width n : Nat) : List UInt8 := (leBytes width n).reverse

/-- Where in a message authentication code its number begins. -/
def offset (mac : List UInt8) : Nat := (mac.getLastD 0).toNat % 16

/-- The number of a message authentication code: four bytes without their first bit. -/
def number (mac : List UInt8) : Nat := ofBeBytes ((mac.drop (offset mac)).take 4) % 2 ^ 31

/-- The code of a message authentication code. -/
def code (digits : Nat) (mac : List UInt8) : Nat := number mac % 10 ^ digits

/-- The counter is at most so many steps before or after the base. -/
def InWindow (base window counter : Nat) : Prop :=
  counter ≤ base + window ∧ base ≤ counter + window

theorem offset_lt (mac : List UInt8) : offset mac < 16 := Nat.mod_lt _ (by decide)

/-- A window is run through from its lower end; below zero there is only zero. -/
theorem exists_inWindow_iff {base window : Nat} {P : Nat → Prop} :
    (∃ c, InWindow base window c ∧ P c) ↔ ∃ i ≤ 2 * window, P (base + i - window) := by
  constructor
  · rintro ⟨c, ⟨hupper, hlower⟩, hc⟩
    refine ⟨c + window - base, by omega, ?_⟩
    have hstep : base + (c + window - base) - window = c := by omega
    rwa [hstep]
  · rintro ⟨i, hi, hc⟩
    exact ⟨_, ⟨by omega, by omega⟩, hc⟩

/-- The number at an offset, from its four bytes. -/
theorem number_eq {mac : List UInt8} {b₀ b₁ b₂ b₃ : UInt8}
    (h₀ : mac[offset mac]? = some b₀) (h₁ : mac[offset mac + 1]? = some b₁)
    (h₂ : mac[offset mac + 2]? = some b₂) (h₃ : mac[offset mac + 3]? = some b₃) :
    number mac = b₀.toNat % 128 * 2 ^ 24 + b₁.toNat * 2 ^ 16 + b₂.toNat * 2 ^ 8 + b₃.toNat := by
  have hbytes : (mac.drop (offset mac)).take 4 = [b₀, b₁, b₂, b₃] := by
    apply List.ext_getElem?
    intro i
    rw [List.getElem?_take, List.getElem?_drop]
    rcases i with _ | _ | _ | _ | i
    · simpa using h₀
    · simpa using h₁
    · simpa using h₂
    · simpa using h₃
    · rw [if_neg (by omega)]
      rfl
  have hb₀ := b₀.toNat_lt
  have hb₁ := b₁.toNat_lt
  have hb₂ := b₂.toNat_lt
  have hb₃ := b₃.toNat_lt
  rw [number, hbytes, ofBeBytes]
  simp only [List.reverse_cons, List.reverse_nil, List.nil_append, List.cons_append, ofLeBytes]
  omega

theorem code_lt (digits : Nat) (mac : List UInt8) : code digits mac < 10 ^ digits :=
  Nat.mod_lt _ (Nat.pow_pos (by decide))

/-! ## The text of a code -/

/-- A code as it is shown: its decimal digits, with zeros in front up to the width. -/
def text (width n : Nat) : List Char := (Nat.toDigits 10 n).leftpad width '0'

theorem length_text {width n : Nat} (hwidth : 0 < width) (hn : n < 10 ^ width) :
    (text width n).length = width := by
  rw [text, List.length_leftpad]
  exact Nat.max_eq_left ((Nat.length_toDigits_le_iff (by decide) hwidth).mpr hn)

theorem isDigit_of_mem_text {width n : Nat} {c : Char} (hc : c ∈ text width n) : c.isDigit := by
  rcases List.mem_append.mp hc with hzero | hdigit
  · rw [List.eq_of_mem_replicate hzero]
    decide
  · exact Nat.isDigit_of_mem_toDigits (by decide) (by decide) hdigit

/-- The zeros in front do not count. -/
theorem value_text (width n : Nat) : Nat.ofDigitChars 10 (text width n) 0 = n := by
  rw [text, List.leftpad, Nat.ofDigitChars_append, Nat.ofDigitChars_replicate_zero, Nat.mul_zero,
    Nat.ofDigitChars_ten_toDigits]

end ViperVault.Foundation.Hotp
