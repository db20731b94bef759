import ViperVault.Entries.Types
import ViperVault.Foundation.Base32
import ViperVault.Foundation.Results
import ViperVault.Foundation.Strings

/-!
# Base32 secrets

`totp/decode.rs`: the strict decoder of stored secrets, and their canonical form for export. The
decoders of `base32ct` and the HMACs of the RustCrypto crates are parameters; `Rfc4648` and
`AcceptsKeys` say what is relied on.
-/

namespace ViperVault

open Foundation

/-- `TotpError`. -/
inductive TotpError
  | invalidParams
  | invalidSecret
  | cryptoFailure
  deriving DecidableEq, Repr

/-- What `TotpSecret::validate` checks. -/
theorem TotpSecret.validate_eq_ok (t : TotpSecret) :
    t.validate = .ok () ↔
      (t.digits = 6 ∨ t.digits = 7 ∨ t.digits = 8) ∧ (10 ≤ t.periodSecs ∧ t.periodSecs ≤ 120) ∧
        t.secretB32.exposeSecret ≠ [] ∧ utf8Len t.secretB32.exposeSecret ≤ 1024 ∧
        isAscii t.secretB32.exposeSecret = true ∧
        t.secretB32.exposeSecret.all isBase32Char = true := by
  have hok {c : Prop} [Decidable c] {e : EntryError} {x : Except EntryError Unit} :
      (if c then .error e else x) = .ok () ↔ ¬ c ∧ x = .ok () := by
    split <;> simp_all
  simp only [validate, hok, Bool.or_eq_true, decide_eq_true_eq, not_or, Bool.not_eq_true',
    gt_iff_lt, List.isEmpty_iff, Nat.not_lt, UInt32.not_lt, Bool.not_eq_false,
    Bool.or_eq_false_iff, beq_eq_false_iff_ne, and_true, Decidable.not_and_iff_not_or_not,
    Decidable.not_not, or_assoc, ne_eq]

/-- What the engine calls of `base32ct`, `hmac`, `sha1` and `sha2`. -/
structure TotpLibraries where
  /-- `Base32Upper::decode` into a buffer of a length -/
  base32Upper : Text → Nat → Option Bytes
  /-- `Base32UpperUnpadded::decode` into a buffer of a length -/
  base32UpperUnpadded : Text → Nat → Option Bytes
  /-- `Hmac::<Sha1>` on a key and a message -/
  hmacSha1 : Bytes → Bytes → Option (Vector UInt8 20)
  /-- `Hmac::<Sha256>` on a key and a message -/
  hmacSha256 : Bytes → Bytes → Option (Vector UInt8 32)
  /-- `Hmac::<Sha512>` on a key and a message -/
  hmacSha512 : Bytes → Bytes → Option (Vector UInt8 64)

/-- The decoders are those of RFC 4648, when the buffer has the room; whether they refuse spare
bits that are not zero the RFC leaves open. -/
structure TotpLibraries.Rfc4648 (lib : TotpLibraries) (strict : Bool) : Prop where
  padded : ∀ s n, 5 * (Base32.unpadded s).length / 8 ≤ n →
    lib.base32Upper s n = Base32.decodePadded strict s
  unpadded : ∀ s n, 5 * s.length / 8 ≤ n →
    lib.base32UpperUnpadded s n = Base32.decode strict s

/-- HMAC takes keys of every length. -/
structure TotpLibraries.AcceptsKeys (lib : TotpLibraries) : Prop where
  sha1 : ∀ key msg, ∃ mac, lib.hmacSha1 key msg = some mac
  sha256 : ∀ key msg, ∃ mac, lib.hmacSha256 key msg = some mac
  sha512 : ∀ key msg, ∃ mac, lib.hmacSha512 key msg = some mac

namespace Totp

/-- `MAX_SECRET_B32_LEN`. -/
def maxSecretB32Len : Nat := 1024

/-- `MIN_SECRET_RAW_LEN`. -/
def minSecretRawLen : Nat := 16

/-- `trim_end_matches('=')`. -/
def trimPadding (s : Text) : Text := s.rdropWhile (· == '=')

/-- `decode_base32_secret_strict`. -/
def decodeBase32SecretStrict (lib : TotpLibraries) (secretB32 : Text) :
    Except TotpError Bytes := do
  failIf (secretB32 = [] ∨ maxSecretB32Len < utf8Len secretB32) .invalidSecret
  failIf (isAscii secretB32 = false) .invalidSecret
  failIf (secretB32.all isBase32Char = false) .invalidSecret
  let trimmed := trimPadding secretB32
  failIf (trimmed = []) .invalidSecret
  failIf ('=' ∈ trimmed) .invalidSecret
  failIf (utf8Len trimmed % 8 ∉ [0, 2, 4, 5, 7]) .invalidSecret
  -- `div_ceil`
  let maxOut := (utf8Len trimmed * 5 + 7) / 8
  let decoded :=
    if utf8Len trimmed = utf8Len secretB32 then lib.base32UpperUnpadded trimmed maxOut
    else lib.base32Upper secretB32 maxOut
  let out ← okOr decoded .invalidSecret
  failIf (out.length < minSecretRawLen) .invalidSecret
  return out

/-- `canonicalize_base32_for_export`. -/
def canonicalizeBase32ForExport (secretB32 : Text) : Except TotpError Text := do
  failIf (secretB32 = [] ∨ maxSecretB32Len < utf8Len secretB32) .invalidSecret
  failIf (isAscii secretB32 = false) .invalidSecret
  let kept := secretB32.filter fun c => !Strings.isWhitespace c && c != '-'
  -- the loop that pops `=`
  let s := trimPadding (kept.map Char.toUpper)
  failIf (s = []) .invalidSecret
  return s

/-! ## Which secrets are decoded -/

theorem isAscii_trimPadding {s : Text} (hs : isAscii s = true) :
    isAscii (trimPadding s) = true := by
  rw [isAscii, List.all_eq_true] at hs ⊢
  exact fun c hc => hs c ((List.rdropWhile_prefix _ _).subset hc)

theorem all_isBase32Char_trimPadding {s : Text} (hs : s.all isBase32Char = true) :
    (trimPadding s).all isBase32Char = true := by
  rw [List.all_eq_true] at hs ⊢
  exact fun c hc => hs c ((List.rdropWhile_prefix _ _).subset hc)

/-- Only a text without padding is as long as its symbols. -/
theorem length_trimPadding_eq_iff (s : Text) :
    (trimPadding s).length = s.length ↔ trimPadding s = s :=
  ⟨(List.rdropWhile_prefix _ _).eq_of_length, congrArg List.length⟩

/-- A secret is decoded if it is short, in the alphabet, padded as a whole or not at all, and
encodes enough bytes. -/
theorem decodeBase32SecretStrict_eq_ok {lib : TotpLibraries} {strict : Bool}
    (hlib : lib.Rfc4648 strict) {s : Text} {raw : Bytes} :
    decodeBase32SecretStrict lib s = .ok raw ↔
      s.length ≤ maxSecretB32Len ∧ isAscii s = true ∧ s.all isBase32Char = true ∧
        '=' ∉ trimPadding s ∧ (trimPadding s = s ∨ Base32.IsPadded s) ∧
        Base32.decode strict (trimPadding s) = some raw ∧ minSecretRawLen ≤ raw.length := by
  simp only [decodeBase32SecretStrict, check_bind_eq_ok, failIf_eq_ok, Bool.not_eq_false, not_or,
    Nat.not_lt, Decidable.not_not]
  simp only [bind_eq_ok, failIf_eq_ok, okOr_eq_ok, pure_eq_ok, Nat.not_lt, exists_const]
  have hsame (hascii : isAscii s = true) :
      utf8Len (trimPadding s) = utf8Len s ↔ trimPadding s = s := by
    rw [utf8Len_of_isAscii hascii, utf8Len_of_isAscii (isAscii_trimPadding hascii),
      length_trimPadding_eq_iff]
  have hroom : 5 * (trimPadding s).length / 8 ≤ ((trimPadding s).length * 5 + 7) / 8 := by omega
  constructor
  · rintro ⟨⟨-, hle⟩, hascii, halphabet, -, hinner, -, out, hout, hmin, rfl⟩
    have hlen := utf8Len_of_isAscii (isAscii_trimPadding hascii)
    rw [utf8Len_of_isAscii hascii] at hle
    refine ⟨hle, hascii, halphabet, hinner, ?_⟩
    split at hout
    · next hnone =>
        rw [hlib.unpadded _ _ (hlen ▸ hroom)] at hout
        exact ⟨Or.inl ((hsame hascii).mp hnone), hout, hmin⟩
    · rw [hlib.padded _ _ (hlen ▸ hroom), Base32.decodePadded_eq_some] at hout
      exact ⟨Or.inr hout.1, hout.2, hmin⟩
  · rintro ⟨hle, hascii, halphabet, hinner, hpadded, hdecode, hmin⟩
    have hlen := utf8Len_of_isAscii (isAscii_trimPadding hascii)
    have hsymbols : (trimPadding s).length % 8 ∈ [0, 2, 4, 5, 7] :=
      ((Base32.exists_decode_iff strict _).mp ⟨raw, hdecode⟩).2.1
    have hne : trimPadding s ≠ [] := by
      intro hnil
      have hzero := Base32.length_decode hdecode
      rw [hnil] at hzero
      rw [hzero] at hmin
      exact absurd hmin (by decide)
    have hs : s ≠ [] := by
      rintro rfl
      exact hne rfl
    refine ⟨⟨hs, utf8Len_of_isAscii hascii ▸ hle⟩, hascii, halphabet, hne, hinner,
      hlen ▸ hsymbols, raw, ?_, hmin, rfl⟩
    split
    · rw [hlib.unpadded _ _ (hlen ▸ hroom), hdecode]
    · next hother =>
        have hfull := hpadded.resolve_left fun h => hother ((hsame hascii).mpr h)
        rw [hlib.padded _ _ (hlen ▸ hroom), Base32.decodePadded_eq_some]
        exact ⟨hfull, hdecode⟩

/-- Every refusal is the same. -/
theorem failsOnly_decodeBase32SecretStrict (lib : TotpLibraries) (s : Text) :
    FailsOnly .invalidSecret (decodeBase32SecretStrict lib s) := by
  unfold decodeBase32SecretStrict
  refine (failsOnly_failIf _ _).bind fun _ => ?_
  refine (failsOnly_failIf _ _).bind fun _ => ?_
  refine (failsOnly_failIf _ _).bind fun _ => ?_
  refine (failsOnly_failIf _ _).bind fun _ => ?_
  refine (failsOnly_failIf _ _).bind fun _ => ?_
  refine (failsOnly_failIf _ _).bind fun _ => ?_
  refine (failsOnly_okOr _ _).bind fun _ => ?_
  exact (failsOnly_failIf _ _).bind fun _ => failsOnly_pure _ _

end Totp

end ViperVault
