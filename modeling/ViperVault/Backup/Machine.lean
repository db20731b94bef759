import ViperVault.Backup.Codec
import ViperVault.Foundation.Panics

/-!
# The backup decoder on machine words

`decode_signed_backup` with a cursor of 64 bits, in which a range outside of a slice, or a copy
between slices of different lengths, stops the program. It follows the decoder that knows of no
such stop.
-/

namespace ViperVault

open Foundation

namespace Backup.Machine

/-- `read_exact`. -/
def readExact (n : UInt64) (bytes : Bytes) (cursor : UInt64) :
    Checked BackupError (Bytes × UInt64) := do
  let stop ← safely (okOr (checkedAdd cursor n) .invalidFormat)
  safely (failIf (bytes.length < stop.toNat) .invalidFormat)
  let found ← sliceRange bytes cursor.toNat stop.toNat
  let out ← copyFromSlice (List.replicate n.toNat 0) found
  return (out, stop)

/-- `read_slice`. -/
def readSlice (bytes : Bytes) (cursor len : UInt64) : Checked BackupError (Bytes × UInt64) := do
  let stop ← safely (okOr (checkedAdd cursor len) .invalidFormat)
  safely (failIf (bytes.length < stop.toNat) .invalidFormat)
  let out ← sliceRange bytes cursor.toNat stop.toNat
  return (out, stop)

/-- A little-endian number of a width. -/
def readNumber {α : Type} (ofNat : Nat → α) (width : UInt64) (bytes : Bytes) (cursor : UInt64) :
    Checked BackupError (α × UInt64) :=
  (readExact width bytes cursor).map fun r => (ofNat (ofLeBytes r.1), r.2)

/-- `read_u16_le`. -/
def readU16Le : Bytes → UInt64 → Checked BackupError (UInt16 × UInt64) :=
  readNumber UInt16.ofNat 2

/-- `read_u32_le`. -/
def readU32Le : Bytes → UInt64 → Checked BackupError (UInt32 × UInt64) :=
  readNumber UInt32.ofNat 4

/-- `read_u64_le`. -/
def readU64Le : Bytes → UInt64 → Checked BackupError (UInt64 × UInt64) :=
  readNumber UInt64.ofNat 8

section Decoder

variable {Key : Type} (lib : BackupLibraries Key)

/-- `decode_signed_backup`. -/
def decodeSignedBackup (policy : PolicyContext) (password : MasterPassword)
    (backupBytes : Bytes) : Checked BackupError Bytes := do
  safely (failIf (policy.allowSignedBackupTransfer = false) .policyDenied)
  let (found, cursor) ← readExact 8 backupBytes 0
  safely (failIf (found ≠ backupMagic) .invalidFormat)
  let (version, cursor) ← readU16Le backupBytes cursor
  safely (failIf (version ≠ backupVersion) .unsupportedVersion)
  let (headerLen, cursor) ← readU32Le backupBytes cursor
  safely (failIf (headerLen = 0) .invalidFormat)
  let (headerJson, cursor) ← readSlice backupBytes cursor headerLen.toUInt64
  let header ← safely (okOr (lib.headerJson.fromSlice headerJson) .deserialize)
  safely (failIf (header.version ≠ backupVersion) .unsupportedVersion)
  let (payloadLen, cursor) ← readU64Le backupBytes cursor
  safely (failIf (maxBackupPayloadLen < payloadLen) .payloadTooLarge)
  let (payload, cursor) ← readSlice backupBytes cursor payloadLen
  let (sigLen, cursor) ← readU16Le backupBytes cursor
  safely (failIf (sigLen ≠ 64) .invalidFormat)
  let (sigBytes, cursor) ← readSlice backupBytes cursor 64
  safely (failIf (cursor.toNat ≠ backupBytes.length) .invalidFormat)
  let signature ← safely (okOr (lib.signatureFromSlice sigBytes) .invalidFormat)
  safely (failIf (backupBytes.length < 2 + 64) .invalidFormat)
  let signedLen := backupBytes.length - (2 + 64)
  let verifyingKey ← safely (deriveBackupVerifyingKey lib password header)
  let signed ← sliceRange backupBytes 0 signedLen
  safely (failIf (lib.verify verifyingKey signed signature = false) .authFailed)
  return payload

end Decoder

/-- An answer with its cursor as a number. -/
def view {α : Type} : α × UInt64 → α × Nat := Prod.map id UInt64.toNat

/-! ## The readers -/

/-- The range up to a checked end lies within the bytes. -/
theorem sliceRange_of_stop {bytes : Bytes} {cursor len stop : UInt64}
    (hstop : stop.toNat = cursor.toNat + len.toNat) (hinside : ¬ bytes.length < stop.toNat) :
    sliceRange (ε := BackupError) bytes cursor.toNat stop.toNat =
      .ok ((bytes.drop cursor.toNat).take len.toNat) := by
  have hcount : stop.toNat - cursor.toNat = len.toNat := by omega
  rw [sliceRange, if_pos (by omega), hcount]

theorem readSlice_follows (bytes : Bytes) (cursor len : UInt64) :
    Follows view (readSlice bytes cursor len)
      (Backup.readSlice bytes cursor.toNat len.toNat) := by
  unfold readSlice Backup.readSlice
  cases hsum : checkedAdd cursor len with
  | none =>
      rw [failIf, if_pos (checkedAdd_eq_none.mp hsum)]
      rfl
  | some stop =>
      have hstop := checkedAdd_eq_some.mp hsum
      have hfits : ¬ 2 ^ 64 ≤ cursor.toNat + len.toNat := by
        have hlt := stop.toNat_lt
        omega
      rw [failIf, if_neg hfits, ← hstop]
      by_cases hinside : bytes.length < stop.toNat
      · simp only [failIf, if_pos hinside, okOr_some, ok_bind, safely, mapError_ok]
        rfl
      · simp only [failIf, if_neg hinside, okOr_some, ok_bind, safely, mapError_ok,
          sliceRange_of_stop hstop hinside]
        rfl

/-- The array that is filled has the length of the range. -/
theorem readExact_eq_readSlice (n : UInt64) (bytes : Bytes) (cursor : UInt64) :
    readExact n bytes cursor = readSlice bytes cursor n := by
  unfold readExact readSlice
  cases hsum : checkedAdd cursor n with
  | none => rfl
  | some stop =>
      have hstop := checkedAdd_eq_some.mp hsum
      by_cases hinside : bytes.length < stop.toNat
      · simp only [failIf, if_pos hinside, okOr_some, ok_bind, safely, mapError_ok, mapError_error,
          error_bind]
      · have hlen : (List.replicate n.toNat (0 : UInt8)).length =
            ((bytes.drop cursor.toNat).take n.toNat).length := by
          simp only [List.length_replicate, List.length_take, List.length_drop]
          omega
        simp only [failIf, if_neg hinside, okOr_some, ok_bind, safely, mapError_ok,
          sliceRange_of_stop hstop hinside, copyFromSlice, if_pos hlen]

theorem readExact_follows (n : UInt64) (bytes : Bytes) (cursor : UInt64) :
    Follows view (readExact n bytes cursor)
      (Backup.readSlice bytes cursor.toNat n.toNat) := by
  rw [readExact_eq_readSlice]
  exact readSlice_follows bytes cursor n

theorem readNumber_follows {α : Type} (ofNat : Nat → α) (width : UInt64) (bytes : Bytes)
    (cursor : UInt64) :
    Follows view (readNumber ofNat width bytes cursor)
      (Backup.readNumber ofNat width.toNat bytes cursor.toNat) := by
  exact follows_map (readExact_follows width bytes cursor) fun _ => rfl

/-! ## The decoder -/

/-- The decoder on machine words ends as the decoder on numbers does. -/
theorem decodeSignedBackup_follows {Key : Type} (lib : BackupLibraries Key)
    (policy : PolicyContext) (password : MasterPassword) (backupBytes : Bytes) :
    Follows id (decodeSignedBackup lib policy password backupBytes)
      (ViperVault.decodeSignedBackup lib policy password backupBytes) := by
  unfold decodeSignedBackup ViperVault.decodeSignedBackup
  refine follows_safely_bind fun _ => ?_
  refine follows_bind (readExact_follows 8 backupBytes 0) fun ⟨found, cursor⟩ => ?_
  refine follows_safely_bind fun _ => ?_
  refine follows_bind (readNumber_follows _ 2 backupBytes cursor) fun ⟨version, cursor⟩ => ?_
  refine follows_safely_bind fun _ => ?_
  refine follows_bind (readNumber_follows _ 4 backupBytes cursor) fun ⟨headerLen, cursor⟩ => ?_
  refine follows_safely_bind fun _ => ?_
  refine follows_bind (readSlice_follows backupBytes cursor _) fun ⟨headerJson, cursor⟩ => ?_
  refine follows_safely_bind fun header => ?_
  refine follows_safely_bind fun _ => ?_
  refine follows_bind (readNumber_follows _ 8 backupBytes cursor) fun ⟨payloadLen, cursor⟩ => ?_
  refine follows_safely_bind fun _ => ?_
  refine follows_bind (readSlice_follows backupBytes cursor _) fun ⟨payload, cursor⟩ => ?_
  refine follows_bind (readNumber_follows _ 2 backupBytes cursor) fun ⟨sigLen, cursor⟩ => ?_
  refine follows_safely_bind fun _ => ?_
  refine follows_bind (readSlice_follows backupBytes cursor 64) fun ⟨sigBytes, cursor⟩ => ?_
  refine follows_safely_bind fun _ => ?_
  refine follows_safely_bind fun signature => ?_
  refine follows_safely_bind fun _ => ?_
  refine follows_safely_bind fun verifyingKey => ?_
  have hsigned : sliceRange (ε := BackupError) backupBytes 0 (backupBytes.length - (2 + 64)) =
      .ok (backupBytes.take (backupBytes.length - (2 + 64))) := by
    rw [sliceRange, if_pos (by omega), List.drop_zero, Nat.sub_zero]
  rw [hsigned, ok_bind]
  refine follows_safely_bind fun _ => ?_
  exact follows_pure id payload

end Backup.Machine

end ViperVault
