import ViperVault.Core.Session
import ViperVault.Crypto.Primitives
import ViperVault.Foundation.JsonCodec
import ViperVault.Foundation.Reader

/-!
# Signed backups

`backup/types.rs` and `backup/codec.rs`. The decoder walks through the backup with a cursor; it
verifies the signature over everything in front of the last two fields, with a key that is
derived from the password. HKDF and Ed25519 are parameters.
-/

namespace ViperVault

open Foundation

/-- `BACKUP_MAGIC`, the bytes of `VVBAKUP1`. -/
def backupMagic : Bytes := [0x56, 0x56, 0x42, 0x41, 0x4B, 0x55, 0x50, 0x31]

/-- `BACKUP_VERSION`. -/
def backupVersion : UInt16 := 1

/-- `MAX_BACKUP_PAYLOAD_LEN`. -/
def maxBackupPayloadLen : UInt64 := 64 * 1024 * 1024

/-- `BackupKdfPolicy`. -/
structure BackupKdfPolicy where
  memKib : UInt32
  timeCost : UInt32
  lanes : UInt32
  deriving DecidableEq

/-- `BackupHeader`. -/
structure BackupHeader where
  version : UInt16
  kdf : BackupKdfPolicy
  salt : Salt
  deriving DecidableEq

/-- `BackupError`. -/
inductive BackupError
  | policyDenied
  | invalidFormat
  | unsupportedVersion
  | payloadTooLarge
  | serialize
  | deserialize
  | authFailed
  deriving DecidableEq

/-- The seed of an Ed25519 key pair, which is the signing key. -/
abbrev SigningKey : Type := Vector UInt8 32

/-- An Ed25519 verifying key. -/
abbrev VerifyingKey : Type := Vector UInt8 32

/-- An Ed25519 signature. -/
abbrev Signature : Type := Vector UInt8 64

/-- The third-party code under the backup functions: the expansion of a master key to a seed by
HKDF-SHA256 with the info of this program, Ed25519, and the JSON library at backup headers. -/
structure BackupLibraries (Key : Type) where
  argon2 : Argon2 Key
  hkdfExpandSeed : Key → Option SigningKey
  verifyingKey : SigningKey → VerifyingKey
  sign : SigningKey → Bytes → Signature
  signatureFromSlice : Bytes → Option Signature
  verify : VerifyingKey → Bytes → Signature → Bool
  headerJson : Serde BackupHeader

namespace Backup

/-- `read_slice`, and `read_exact` at a length. The cursor is a 64-bit `usize`. -/
def readSlice (bytes : Bytes) (cursor len : Nat) : Except BackupError (Bytes × Nat) := do
  failIf (2 ^ 64 ≤ cursor + len) .invalidFormat
  failIf (bytes.length < cursor + len) .invalidFormat
  return ((bytes.drop cursor).take len, cursor + len)

/-- A little-endian number of a width. -/
def readNumber {α : Type} (ofNat : Nat → α) (width : Nat) (bytes : Bytes) (cursor : Nat) :
    Except BackupError (α × Nat) :=
  (readSlice bytes cursor width).map fun r => (ofNat (ofLeBytes r.1), r.2)

/-- `read_u16_le`. -/
def readU16Le : Bytes → Nat → Except BackupError (UInt16 × Nat) := readNumber UInt16.ofNat 2

/-- `read_u32_le`. -/
def readU32Le : Bytes → Nat → Except BackupError (UInt32 × Nat) := readNumber UInt32.ofNat 4

/-- `read_u64_le`. -/
def readU64Le : Bytes → Nat → Except BackupError (UInt64 × Nat) := readNumber UInt64.ofNat 8

end Backup

section Codec

open Backup

variable {Key : Type} (lib : BackupLibraries Key)

/-- `derive_backup_signing_key`. -/
def deriveBackupSigningKey (password : MasterPassword) (header : BackupHeader) :
    Except BackupError SigningKey := do
  let masterKey ← (deriveMasterKeyFromPassword lib.argon2 password header.salt header.kdf.memKib
    header.kdf.timeCost header.kdf.lanes).mapError fun _ => .authFailed
  okOr (lib.hkdfExpandSeed masterKey) .serialize

/-- `derive_backup_verifying_key`. -/
def deriveBackupVerifyingKey (password : MasterPassword) (header : BackupHeader) :
    Except BackupError VerifyingKey := do
  let signingKey ← deriveBackupSigningKey lib password header
  return lib.verifyingKey signingKey

/-- The fields of a backup that its signature covers, in their order. -/
def signedBytes (headerJson vaultContainerBytes : Bytes) : Bytes :=
  backupMagic ++ (leBytes 2 backupVersion.toNat ++ (leBytes 4 headerJson.length ++ (headerJson ++
    (leBytes 8 vaultContainerBytes.length ++ vaultContainerBytes))))

/-- `encode_signed_backup`, with the answer of the random generator for the salt. -/
def encodeSignedBackup (policy : PolicyContext) (password : MasterPassword)
    (vaultContainerBytes : Bytes) (kdf : BackupKdfPolicy) (salt : Option Salt) :
    Except BackupError Bytes := do
  failIf (policy.allowSignedBackupTransfer = false) .policyDenied
  failIf (maxBackupPayloadLen.toNat < vaultContainerBytes.length) .payloadTooLarge
  let salt ← okOr salt .serialize
  let header : BackupHeader := { version := backupVersion, kdf := kdf, salt := salt }
  let headerJson ← okOr (lib.headerJson.toVec header) .serialize
  failIf (2 ^ 32 ≤ headerJson.length) .invalidFormat
  let out := signedBytes headerJson vaultContainerBytes
  let signingKey ← deriveBackupSigningKey lib password header
  let signature := lib.sign signingKey out
  return out ++ (leBytes 2 64 ++ signature.toList)

/-- `decode_signed_backup`. -/
def decodeSignedBackup (policy : PolicyContext) (password : MasterPassword)
    (backupBytes : Bytes) : Except BackupError Bytes := do
  failIf (policy.allowSignedBackupTransfer = false) .policyDenied
  let (found, cursor) ← readSlice backupBytes 0 8
  failIf (found ≠ backupMagic) .invalidFormat
  let (version, cursor) ← readU16Le backupBytes cursor
  failIf (version ≠ backupVersion) .unsupportedVersion
  let (headerLen, cursor) ← readU32Le backupBytes cursor
  failIf (headerLen = 0) .invalidFormat
  let (headerJson, cursor) ← readSlice backupBytes cursor headerLen.toNat
  let header ← okOr (lib.headerJson.fromSlice headerJson) .deserialize
  failIf (header.version ≠ backupVersion) .unsupportedVersion
  let (payloadLen, cursor) ← readU64Le backupBytes cursor
  failIf (maxBackupPayloadLen < payloadLen) .payloadTooLarge
  let (payload, cursor) ← readSlice backupBytes cursor payloadLen.toNat
  let (sigLen, cursor) ← readU16Le backupBytes cursor
  failIf (sigLen ≠ 64) .invalidFormat
  let (sigBytes, cursor) ← readSlice backupBytes cursor 64
  failIf (cursor ≠ backupBytes.length) .invalidFormat
  let signature ← okOr (lib.signatureFromSlice sigBytes) .invalidFormat
  failIf (backupBytes.length < 2 + 64) .invalidFormat
  let signedLen := backupBytes.length - (2 + 64)
  let verifyingKey ← deriveBackupVerifyingKey lib password header
  failIf (lib.verify verifyingKey (backupBytes.take signedLen) signature = false) .authFailed
  return payload

/-! ## Round trip -/

/-- What the codec relies on: a signature that was made verifies and reads back, and headers are
written lawfully and never as nothing. -/
structure BackupLibraries.Ideal : Prop where
  verify_sign : ∀ (key : SigningKey) (msg : Bytes),
    lib.verify (lib.verifyingKey key) msg (lib.sign key msg) = true
  signatureFromSlice_toList : ∀ signature : Signature,
    lib.signatureFromSlice signature.toList = some signature
  headerJson : lib.headerJson.Lawful
  headerJson_ne_nil : ∀ header, lib.headerJson.toVec header ≠ some []

/-- What encoding relies on in order to succeed: keys and seeds are derived, and a header is short
enough for the width of its length. -/
structure BackupLibraries.Total : Prop where
  argon2 : lib.argon2.Ideal
  hkdfExpandSeed_isSome : ∀ masterKey, (lib.hkdfExpandSeed masterKey).isSome
  exists_headerJson : ∀ header, ∃ headerJson, lib.headerJson.toVec header = some headerJson ∧
    headerJson.length < 2 ^ 32

variable {lib} in
/-- Under a policy that allows it and costs within the bounds, every container that fits into a
backup is put into one. -/
theorem BackupLibraries.Total.exists_encodeSignedBackup (htotal : lib.Total)
    {policy : PolicyContext} {kdf : BackupKdfPolicy}
    (hpolicy : policy.allowSignedBackupTransfer = true)
    (hkdf : validateArgon2idParams kdf.memKib kdf.timeCost kdf.lanes = .ok ())
    (password : MasterPassword) (salt : Salt) {vaultContainerBytes : Bytes}
    (hlen : vaultContainerBytes.length ≤ maxBackupPayloadLen.toNat) :
    ∃ backupBytes, encodeSignedBackup lib policy password vaultContainerBytes kdf (some salt) =
      .ok backupBytes := by
  let header : BackupHeader := { version := backupVersion, kdf := kdf, salt := salt }
  obtain ⟨headerJson, hheader, hheaderLen⟩ := htotal.exists_headerJson header
  obtain ⟨masterKey, hkey⟩ := htotal.argon2.exists_key_of_valid hkdf password salt
  obtain ⟨seed, hseed⟩ := Option.isSome_iff_exists.mp (htotal.hkdfExpandSeed_isSome masterKey)
  have hsigning : deriveBackupSigningKey lib password header = .ok seed := by
    rw [deriveBackupSigningKey, hkey, mapError_ok, ok_bind, hseed, okOr_some]
  have hallowed : ¬ policy.allowSignedBackupTransfer = false := by simp [hpolicy]
  rw [encodeSignedBackup]
  simp only [failIf, if_neg hallowed, if_neg (Nat.not_lt.mpr hlen), ok_bind, okOr_some]
  rw [hheader, okOr_some, ok_bind, if_neg (Nat.not_le.mpr hheaderLen), ok_bind, hsigning]
  exact ⟨_, rfl⟩

/-- Where a field of a concatenation starts. -/
def cursorAt (fields : List Bytes) (k : Nat) : Nat := (fields.take k).flatten.length

/-- The field at the cursor is taken, and the cursor moves to the next one. -/
theorem readSlice_field (fields : List Bytes) (hlen : fields.flatten.length < 2 ^ 64) (k : Nat)
    (hk : k < fields.length) :
    readSlice fields.flatten (cursorAt fields k) fields[k].length =
      .ok (fields[k], cursorAt fields (k + 1)) := by
  have hsplit : fields.flatten =
      (fields.take k).flatten ++ (fields[k] ++ (fields.drop (k + 1)).flatten) := by
    calc fields.flatten = (fields.take k ++ fields.drop k).flatten := by
          rw [List.take_append_drop]
      _ = (fields.take k).flatten ++ (fields[k] ++ (fields.drop (k + 1)).flatten) := by
          rw [List.drop_eq_getElem_cons hk, List.flatten_append, List.flatten_cons]
  have hnext : cursorAt fields (k + 1) = cursorAt fields k + fields[k].length := by
    simp only [cursorAt, List.take_succ_eq_append_getElem hk, List.flatten_append,
      List.flatten_cons, List.flatten_nil, List.append_nil, List.length_append]
  have hinside : ¬ fields.flatten.length < cursorAt fields k + fields[k].length := by
    simp only [hsplit, cursorAt, List.length_append]
    omega
  have hcursor : ¬ 2 ^ 64 ≤ cursorAt fields k + fields[k].length := by omega
  rw [readSlice, failIf, if_neg hcursor, ok_bind, failIf, if_neg hinside, ok_bind, ← hnext, hsplit,
    cursorAt, List.drop_left, List.take_left]
  rfl

theorem readNumber_field {α : Type} (ofNat : Nat → α) (fields : List Bytes)
    (hlen : fields.flatten.length < 2 ^ 64) (k : Nat) (hk : k < fields.length) (width n : Nat)
    (hfield : fields[k] = leBytes width n) :
    readNumber ofNat width fields.flatten (cursorAt fields k) =
      .ok (ofNat (n % 256 ^ width), cursorAt fields (k + 1)) := by
  have hread := readSlice_field fields hlen k hk
  rw [hfield, length_leBytes] at hread
  rw [readNumber, hread, ← ofLeBytes_leBytes]
  rfl

/-- The fields of a backup. -/
def backupFields (headerJson payload : Bytes) (signature : Signature) : List Bytes :=
  [backupMagic, leBytes 2 backupVersion.toNat, leBytes 4 headerJson.length, headerJson,
    leBytes 8 payload.length, payload, leBytes 2 64, signature.toList]

theorem flatten_backupFields (headerJson payload : Bytes) (signature : Signature) :
    (backupFields headerJson payload signature).flatten =
      signedBytes headerJson payload ++ (leBytes 2 64 ++ signature.toList) := by
  simp [backupFields, signedBytes]

theorem length_signedBytes (headerJson payload : Bytes) :
    (signedBytes headerJson payload).length = 22 + headerJson.length + payload.length := by
  simp only [signedBytes, List.length_append, length_leBytes, backupMagic, List.length_cons,
    List.length_nil]
  omega

/-- On a backup in the layout of the encoder, decoding is the verification of the signature. -/
theorem decodeSignedBackup_backupFields {policy : PolicyContext} {password : MasterPassword}
    {header : BackupHeader} {headerJson payload : Bytes} {raw signature : Signature}
    (hpolicy : policy.allowSignedBackupTransfer = true)
    (hheader : lib.headerJson.fromSlice headerJson = some header)
    (hversion : header.version = backupVersion) (hpos : 0 < headerJson.length)
    (hheaderLen : headerJson.length < 2 ^ 32)
    (hpayloadLen : payload.length ≤ maxBackupPayloadLen.toNat)
    (hsignature : lib.signatureFromSlice raw.toList = some signature) :
    decodeSignedBackup lib policy password (backupFields headerJson payload raw).flatten =
      (do
        let verifyingKey ← deriveBackupVerifyingKey lib password header
        failIf (lib.verify verifyingKey (signedBytes headerJson payload) signature = false)
          .authFailed
        return payload) := by
  have hcap : maxBackupPayloadLen.toNat = 67108864 := rfl
  have hlen : (backupFields headerJson payload raw).flatten.length =
      (signedBytes headerJson payload).length + (2 + 64) := by
    simp only [flatten_backupFields, List.length_append, length_leBytes, Vector.length_toList]
  have hsmall := length_signedBytes headerJson payload
  have hfits : (backupFields headerJson payload raw).flatten.length < 2 ^ 64 := by omega
  have hcount : (backupFields headerJson payload raw).length = 8 := rfl
  let bytes : Bytes := (backupFields headerJson payload raw).flatten
  let pos : Nat → Nat := cursorAt (backupFields headerJson payload raw)
  -- What each reader of the decoder answers, in the order of the fields.
  have hmagic : readSlice bytes 0 8 = .ok (backupMagic, pos 1) :=
    readSlice_field _ hfits 0 (by omega)
  have hbackupVersion : Backup.readU16Le bytes (pos 1) = .ok (backupVersion, pos 2) :=
    readNumber_field UInt16.ofNat _ hfits 1 (by omega) 2 backupVersion.toNat rfl
  have hheaderCount : Backup.readU32Le bytes (pos 2) =
      .ok (UInt32.ofNat (headerJson.length % 256 ^ 4), pos 3) :=
    readNumber_field UInt32.ofNat _ hfits 2 (by omega) 4 headerJson.length rfl
  have hheaderJson : readSlice bytes (pos 3) headerJson.length = .ok (headerJson, pos 4) :=
    readSlice_field _ hfits 3 (by omega)
  have hpayloadCount : Backup.readU64Le bytes (pos 4) =
      .ok (UInt64.ofNat (payload.length % 256 ^ 8), pos 5) :=
    readNumber_field UInt64.ofNat _ hfits 4 (by omega) 8 payload.length rfl
  have hpayload : readSlice bytes (pos 5) payload.length = .ok (payload, pos 6) :=
    readSlice_field _ hfits 5 (by omega)
  have hsignatureCount : Backup.readU16Le bytes (pos 6) = .ok (64, pos 7) :=
    readNumber_field UInt16.ofNat _ hfits 6 (by omega) 2 64 rfl
  have hsignatureBytes : readSlice bytes (pos 7) 64 = .ok (raw.toList, pos 8) := by
    have hread : readSlice bytes (pos 7) raw.toList.length = .ok (raw.toList, pos 8) :=
      readSlice_field _ hfits 7 (by omega)
    rwa [Vector.length_toList] at hread
  have hend : pos 8 = bytes.length := rfl
  -- The lengths are read back, and the checks on them pass.
  rw [Nat.mod_eq_of_lt (by omega)] at hheaderCount hpayloadCount
  have hheaderNat : (UInt32.ofNat headerJson.length).toNat = headerJson.length :=
    UInt32.toNat_ofNat_of_lt' hheaderLen
  have hpayloadNat : (UInt64.ofNat payload.length).toNat = payload.length :=
    UInt64.toNat_ofNat_of_lt' (Nat.lt_of_le_of_lt hpayloadLen (by decide))
  have hheaderNonzero : UInt32.ofNat headerJson.length ≠ 0 := by
    intro hzero
    rw [hzero] at hheaderNat
    exact Nat.ne_of_lt hpos hheaderNat
  have hwithin : ¬ maxBackupPayloadLen < UInt64.ofNat payload.length := by
    rw [UInt64.lt_iff_toNat_lt, hpayloadNat]
    omega
  have hbytesLen : bytes.length = (signedBytes headerJson payload).length + (2 + 64) := hlen
  have hlong : ¬ bytes.length < 2 + 64 := by omega
  have hcovered : bytes.take (bytes.length - (2 + 64)) = signedBytes headerJson payload := by
    have hbytes : bytes = signedBytes headerJson payload ++ (leBytes 2 64 ++ raw.toList) :=
      flatten_backupFields headerJson payload raw
    rw [hbytesLen, Nat.add_sub_cancel, hbytes, List.take_left]
  change decodeSignedBackup lib policy password bytes = _
  have hallowed : ¬ policy.allowSignedBackupTransfer = false := by simp [hpolicy]
  simp only [decodeSignedBackup, failIf, if_neg hallowed, ok_bind, hmagic, ne_eq,
    not_true_eq_false, if_false, hbackupVersion, hheaderCount, if_neg hheaderNonzero, hheaderNat,
    hheaderJson, hheader, okOr_some, hversion, hpayloadCount, if_neg hwithin, hpayloadNat, hpayload,
    hsignatureCount, hsignatureBytes, hend, hsignature, if_neg hlong, hcovered]

/-- What was encoded under a policy and a password is decoded under them. -/
theorem decodeSignedBackup_of_encode (hlib : lib.Ideal) {policy : PolicyContext}
    {password : MasterPassword} {vaultContainerBytes backupBytes : Bytes} {kdf : BackupKdfPolicy}
    {salt : Option Salt}
    (h : encodeSignedBackup lib policy password vaultContainerBytes kdf salt = .ok backupBytes) :
    decodeSignedBackup lib policy password backupBytes = .ok vaultContainerBytes := by
  rw [encodeSignedBackup, check_bind_eq_ok, check_bind_eq_ok, failIf_eq_ok, failIf_eq_ok] at h
  obtain ⟨hpolicy, hpayload, h⟩ := h
  obtain ⟨salt, -, h⟩ := bind_eq_ok.mp h
  obtain ⟨headerJson, hheader, h⟩ := bind_eq_ok.mp h
  rw [okOr_eq_ok] at hheader
  rw [check_bind_eq_ok, failIf_eq_ok] at h
  obtain ⟨hheaderLen, h⟩ := h
  obtain ⟨signingKey, hkey, h⟩ := bind_eq_ok.mp h
  rw [pure_eq_ok] at h
  have hne : headerJson ≠ [] := fun hnil => hlib.headerJson_ne_nil _ (hnil ▸ hheader)
  have hverifying : deriveBackupVerifyingKey lib password
      { version := backupVersion, kdf := kdf, salt := salt } =
        .ok (lib.verifyingKey signingKey) := by
    rw [deriveBackupVerifyingKey, hkey]
    rfl
  rw [← h, ← flatten_backupFields,
    decodeSignedBackup_backupFields lib (by simpa using hpolicy)
      (hlib.headerJson.fromSlice_toVec _ _ hheader) rfl (List.length_pos_of_ne_nil hne)
      (by omega) (by omega) (hlib.signatureFromSlice_toList _),
    hverifying, ok_bind, hlib.verify_sign]
  rfl

end Codec

end ViperVault
