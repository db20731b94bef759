import ViperVault.Foundation.Results
import Mathlib.Algebra.Group.Nat.Defs
import Mathlib.Data.List.Basic

/-!
# Readers of byte sequences

A reader takes values off the front of a byte sequence and may fail. `Reads` says what a reader
consumed for a value, whatever follows it; it composes along `bind`. Numbers have a fixed
little-endian width.
-/

namespace ViperVault.Foundation

variable {ε α β : Type}

/-- Take a value off the front of a byte sequence, or fail. -/
abbrev Reader (ε α : Type) : Type := StateT (List UInt8) (Except ε) α

namespace Reader

/-- The reader takes exactly these bytes for the value. -/
def Reads (p : Reader ε α) (bytes : List UInt8) (a : α) : Prop :=
  ∀ rest, p.run (bytes ++ rest) = .ok (a, rest)

theorem reads_pure (a : α) : Reads (pure a : Reader ε α) [] a := fun _ => rfl

theorem reads_bind {p : Reader ε α} {f : α → Reader ε β} {bytes more : List UInt8} {a : α} {b : β}
    (hp : Reads p bytes a) (hf : Reads (f a) more b) : Reads (p >>= f) (bytes ++ more) b := by
  intro rest
  rw [List.append_assoc, StateT.run_bind, hp]
  exact hf rest

/-- The answer of a function that takes nothing from the input. -/
def answer (r : Except ε α) : Reader ε α := fun input => r.map fun a => (a, input)

theorem reads_answer {r : Except ε α} {a : α} (hr : r = .ok a) : Reads (answer r) [] a := by
  subst hr
  exact fun _ => rfl

theorem reads_answer_bind {r : Except ε α} {f : α → Reader ε β} {bytes : List UInt8} {a : α}
    {b : β} (hr : r = .ok a) (hf : Reads (f a) bytes b) : Reads (answer r >>= f) bytes b :=
  reads_bind (reads_answer hr) hf

/-- A check that passes takes nothing. -/
theorem reads_failIf_bind {c : Prop} [Decidable c] {e : ε} {f : Unit → Reader ε β}
    {bytes : List UInt8} {b : β} (hc : ¬ c) (hf : Reads (f ()) bytes b) :
    Reads (answer (failIf c e) >>= f) bytes b :=
  reads_answer_bind (failIf_eq_ok.mpr hc) hf

theorem run_answer_eq_ok {r : Except ε α} {input rest : List UInt8} {a : α} :
    (answer r).run input = .ok (a, rest) ↔ r = .ok a ∧ rest = input := by
  change r.map _ = _ ↔ _
  cases r with
  | error e => simp [Except.map]
  | ok b => simp [Except.map, eq_comm]

theorem reads_map (f : α → β) {p : Reader ε α} {bytes : List UInt8} {a : α}
    (hp : Reads p bytes a) : Reads (f <$> p) bytes (f a) := by
  intro rest
  rw [StateT.run_map, hp]
  rfl

theorem reads_bind_pure {p : Reader ε α} {bytes : List UInt8} {a : α} (f : α → β)
    (hp : Reads p bytes a) : Reads (p >>= fun x => pure (f x)) bytes (f a) := by
  have hread := reads_bind (f := fun x => pure (f x)) hp (reads_pure (f a))
  rwa [List.append_nil] at hread

/-- A reader that succeeded after a bind succeeded in both parts. -/
theorem run_bind_eq_ok {p : Reader ε α} {f : α → Reader ε β} {input rest : List UInt8} {b : β} :
    (p >>= f).run input = .ok (b, rest) ↔
      ∃ a mid, p.run input = .ok (a, mid) ∧ (f a).run mid = .ok (b, rest) := by
  rw [StateT.run_bind]
  cases hp : p.run input with
  | error e => simp [bind, Except.bind]
  | ok r =>
      obtain ⟨a, mid⟩ := r
      simp [bind, Except.bind]

theorem run_map_eq_ok {f : α → β} {p : Reader ε α} {input rest : List UInt8} {b : β} :
    (f <$> p).run input = .ok (b, rest) ↔ ∃ a, p.run input = .ok (a, rest) ∧ f a = b := by
  rw [StateT.run_map]
  cases hp : p.run input with
  | error e => simp [Functor.map, Except.map]
  | ok r =>
      obtain ⟨a, mid⟩ := r
      simp [Functor.map, Except.map, and_comm]

/-- Take a number of bytes; `eof` is the failure when there are fewer. -/
def readExact (eof : ε) (n : Nat) : Reader ε (List UInt8) := fun input =>
  if n ≤ input.length then .ok (input.take n, input.drop n) else .error eof

theorem reads_readExact (eof : ε) (bytes : List UInt8) :
    Reads (readExact eof bytes.length) bytes bytes := by
  intro rest
  have hlen : bytes.length ≤ (bytes ++ rest).length := by simp
  change (if _ then _ else _) = _
  rw [if_pos hlen, List.take_left, List.drop_left]

/-- What was taken, and what is left, make up the input. -/
theorem run_readExact_eq_ok {eof : ε} {n : Nat} {input bytes rest : List UInt8} :
    (readExact eof n).run input = .ok (bytes, rest) ↔
      input = bytes ++ rest ∧ bytes.length = n := by
  constructor
  · intro h
    change (if _ then _ else _) = _ at h
    split at h
    · rename_i hn
      simp only [Except.ok.injEq, Prod.mk.injEq] at h
      obtain ⟨rfl, rfl⟩ := h
      exact ⟨(List.take_append_drop n input).symm, List.length_take_of_le hn⟩
    · simp at h
  · rintro ⟨rfl, rfl⟩
    exact reads_readExact eof bytes rest

end Reader

/-! ## Little-endian numbers -/

/-- The bytes of a number at a width, least significant first. -/
def leBytes : Nat → Nat → List UInt8
  | 0, _ => []
  | width + 1, n => UInt8.ofNat n :: leBytes width (n / 256)

/-- The number that little-endian bytes stand for. -/
def ofLeBytes : List UInt8 → Nat
  | [] => 0
  | b :: bs => b.toNat + 256 * ofLeBytes bs

@[simp] theorem length_leBytes (width n : Nat) : (leBytes width n).length = width := by
  induction width generalizing n with
  | zero => rfl
  | succ width ih => simp [leBytes, ih]

/-- A number reads back up to its width. -/
theorem ofLeBytes_leBytes (width n : Nat) : ofLeBytes (leBytes width n) = n % 256 ^ width := by
  induction width generalizing n with
  | zero => simp [leBytes, ofLeBytes, Nat.mod_one]
  | succ width ih =>
      have hsplit : n % 256 ^ (width + 1) = n % 256 + 256 * (n / 256 % 256 ^ width) := by
        rw [Nat.pow_succ', Nat.mod_mul]
      simp [leBytes, ofLeBytes, ih, hsplit]

theorem ofLeBytes_lt (bytes : List UInt8) : ofLeBytes bytes < 256 ^ bytes.length := by
  induction bytes with
  | nil => exact Nat.one_pos
  | cons b bs ih =>
      have hb : b.toNat < 256 := b.toNat_lt
      calc ofLeBytes (b :: bs) = b.toNat + 256 * ofLeBytes bs := rfl
        _ < 256 + 256 * ofLeBytes bs := by omega
        _ ≤ 256 * 256 ^ bs.length := by omega
        _ = 256 ^ (b :: bs).length := by rw [List.length_cons, Nat.pow_succ']

/-- Bytes are those of the number that they stand for. -/
theorem leBytes_ofLeBytes (bytes : List UInt8) :
    leBytes bytes.length (ofLeBytes bytes) = bytes := by
  induction bytes with
  | nil => rfl
  | cons b bs ih =>
      have hb : b.toNat < 256 := b.toNat_lt
      have hrest : (b.toNat + 256 * ofLeBytes bs) / 256 = ofLeBytes bs := by omega
      have hfirst : UInt8.ofNat (b.toNat + 256 * ofLeBytes bs) = b := by
        apply UInt8.toNat_inj.mp
        rw [UInt8.toNat_ofNat']
        omega
      simp only [List.length_cons, ofLeBytes, leBytes, hrest, hfirst, ih]

namespace Reader

/-- Take a little-endian number of a width. -/
def readLe (eof : ε) (width : Nat) : Reader ε Nat := ofLeBytes <$> readExact eof width

theorem reads_readLe (eof : ε) (width n : Nat) :
    Reads (readLe eof width) (leBytes width n) (n % 256 ^ width) := by
  have hread := reads_readExact eof (leBytes width n)
  rw [length_leBytes] at hread
  rw [← ofLeBytes_leBytes]
  exact reads_map ofLeBytes hread

/-- A little-endian number is taken as the bytes of its width, and these are the only ones that
give it. -/
theorem run_readLe_eq_ok {eof : ε} {width n : Nat} {input rest : List UInt8} :
    (readLe eof width).run input = .ok (n, rest) ↔
      n < 256 ^ width ∧ input = leBytes width n ++ rest := by
  rw [readLe, run_map_eq_ok]
  constructor
  · rintro ⟨bytes, hread, rfl⟩
    obtain ⟨rfl, rfl⟩ := run_readExact_eq_ok.mp hread
    rw [leBytes_ofLeBytes]
    exact ⟨ofLeBytes_lt bytes, rfl⟩
  · rintro ⟨hn, rfl⟩
    refine ⟨leBytes width n, run_readExact_eq_ok.mpr ⟨rfl, length_leBytes width n⟩, ?_⟩
    rw [ofLeBytes_leBytes, Nat.mod_eq_of_lt hn]

/-- A number of a type that holds exactly the numbers of a width. -/
theorem run_readLe_map_eq_ok {eof : ε} {width : Nat} {ofNat : Nat → α} {toNat : α → Nat}
    (hofNat : ∀ a, ofNat (toNat a) = a) (htoNat : ∀ n, n < 256 ^ width → toNat (ofNat n) = n)
    (hlt : ∀ a, toNat a < 256 ^ width) {input rest : List UInt8} {a : α} :
    (ofNat <$> readLe eof width).run input = .ok (a, rest) ↔
      input = leBytes width (toNat a) ++ rest := by
  rw [run_map_eq_ok]
  constructor
  · rintro ⟨n, hread, rfl⟩
    obtain ⟨hn, rfl⟩ := run_readLe_eq_ok.mp hread
    rw [htoNat n hn]
  · rintro rfl
    exact ⟨toNat a, run_readLe_eq_ok.mpr ⟨hlt a, rfl⟩, hofNat a⟩

/-! ## The whole input -/

/-- Run a reader on an input that has to end with it; `extra` is the failure when it does not. -/
def runToEnd (extra : ε) (p : Reader ε α) (input : List UInt8) : Except ε α :=
  match p.run input with
  | .error e => .error e
  | .ok (a, rest) => if rest = [] then .ok a else .error extra

theorem runToEnd_of_reads {extra : ε} {p : Reader ε α} {bytes : List UInt8} {a : α}
    (hp : Reads p bytes a) : runToEnd extra p bytes = .ok a := by
  have hrun := hp []
  rw [List.append_nil] at hrun
  rw [runToEnd, hrun]
  rfl

theorem runToEnd_eq_ok {extra : ε} {p : Reader ε α} {input : List UInt8} {a : α} :
    runToEnd extra p input = .ok a ↔ p.run input = .ok (a, []) := by
  unfold runToEnd
  cases hrun : p.run input with
  | error e => simp
  | ok r =>
      obtain ⟨b, rest⟩ := r
      by_cases hrest : rest = []
      · simp [hrest]
      · simp [hrest]

end Reader

end ViperVault.Foundation
