import Mathlib.Init

/-!
# Texts, byte buffers and the secret wrappers around them

A Rust `String` is the list of its Unicode scalar values, a `Vec<u8>` the list of its bytes.
The wrappers of `memory/secret.rs` and of the `secrecy` crate only change how a value is
dropped and printed; each one is a structure around its content, so that the conversions
between wrapped and plain data stay visible.
-/

namespace ViperVault

/-- A Rust `String`. -/
abbrev Text : Type := List Char

/-- A Rust `Vec<u8>` or `&[u8]`. -/
abbrev Bytes : Type := List UInt8

/-- `Uuid`, as its 128 bits. -/
abbrev Uuid : Type := BitVec 128

/-- `str::len`: the length in UTF-8 bytes. -/
def utf8Len (s : Text) : Nat := s.foldl (fun n c => n + c.utf8Size) 0

/-- `str::is_ascii`. -/
def isAscii (s : Text) : Bool := s.all fun c => c.val < 0x80

/-- `SecretString`. -/
structure SecretString where
  /-- `ExposeSecret::expose_secret` -/
  exposeSecret : Text
  deriving DecidableEq

/-- `SecretBox<Zeroizing<Vec<u8>>>`. -/
structure SecretBlob where
  /-- `ExposeSecret::expose_secret` -/
  exposeSecret : Bytes
  deriving DecidableEq

/-- `MasterPassword`. -/
structure MasterPassword where
  asSecret : SecretString
  deriving DecidableEq

/-- `MasterPassword::expose`. -/
def MasterPassword.expose (p : MasterPassword) : Text := p.asSecret.exposeSecret

theorem toNat_lt_of_isAscii {s : Text} (hs : isAscii s = true) {c : Char} (hc : c ∈ s) :
    c.toNat < 128 := by
  have hsmall : c.val < 0x80 := of_decide_eq_true (List.all_eq_true.mp hs c hc)
  exact UInt32.lt_iff_toNat_lt.mp hsmall

theorem utf8Len_of_isAscii {s : Text} (hs : isAscii s = true) : utf8Len s = s.length := by
  have hfold : ∀ n, s.foldl (fun n c => n + c.utf8Size) n = n + s.length := by
    induction s with
    | nil => exact fun n => rfl
    | cons c s ih =>
        rw [isAscii, List.all_cons, Bool.and_eq_true, decide_eq_true_eq] at hs
        have hlt : c.val.toNat < 128 := UInt32.lt_iff_toNat_lt.mp hs.1
        have hc : c.utf8Size = 1 := by
          have hle : c.val ≤ 0x7f := UInt32.le_iff_toNat_le.mpr (Nat.le_of_lt_succ hlt)
          simp [Char.utf8Size, hle]
        intro n
        rw [List.foldl_cons, hc, ih hs.2, List.length_cons, Nat.add_assoc, Nat.add_comm 1]
  rw [utf8Len, hfold, Nat.zero_add]

theorem MasterPassword.expose_inj {p q : MasterPassword} (h : p.expose = q.expose) : p = q := by
  cases p with
  | mk p =>
      cases q with
      | mk q =>
          cases p
          cases q
          cases h
          rfl

end ViperVault
