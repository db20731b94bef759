import ViperVault.Backup.Machine
import ViperVault.Backup.Symbolic

/-!
# What the signature of a backup covers

The decoder takes the signed region from the end of the backup and the fields from its start.
On what it accepts, the two views of the boundary are one: the region is made up of the fields.
-/

namespace ViperVault

open Foundation Backup

/-- A backup of a payload that was signed with the password, in its parts. -/
structure SignedBackup {Key : Type} (lib : BackupLibraries Key) (password : MasterPassword)
    (backupBytes payload : Bytes) where
  headerJson : Bytes
  header : BackupHeader
  sigBytes : Bytes
  signature : Signature
  verifyingKey : VerifyingKey
  layout : backupBytes = signedBytes headerJson payload ++ (leBytes 2 64 ++ sigBytes)
  headerJson_ne_nil : headerJson ≠ []
  fromSlice_headerJson : lib.headerJson.fromSlice headerJson = some header
  header_version : header.version = backupVersion
  payload_length : payload.length ≤ maxBackupPayloadLen.toNat
  sigBytes_length : sigBytes.length = 64
  signature_of_sigBytes : lib.signatureFromSlice sigBytes = some signature
  verifyingKey_derived : deriveBackupVerifyingKey lib password header = .ok verifyingKey
  verify : lib.verify verifyingKey (signedBytes headerJson payload) signature = true

/-! ## The cursor -/

/-- The bytes in front of the cursor are these. -/
def Consumed (bytes : Bytes) (cursor : Nat) (front : Bytes) : Prop :=
  bytes.take cursor = front

theorem Consumed.readSlice {bytes front field : Bytes} {cursor len next : Nat}
    (hfront : Consumed bytes cursor front)
    (h : readSlice bytes cursor len = .ok (field, next)) :
    Consumed bytes next (front ++ field) ∧ field.length = len := by
  simp only [Backup.readSlice, check_bind_eq_ok, failIf_eq_ok, pure_eq_ok, Prod.mk.injEq] at h
  obtain ⟨-, hinside, rfl, rfl⟩ := h
  constructor
  · rw [Consumed, List.take_add, hfront]
  · rw [List.length_take, List.length_drop]
    omega

/-- A number of a type that holds exactly the numbers of a width. -/
theorem Consumed.readNumber {α : Type} {ofNat : Nat → α} (toNat : α → Nat) {width : Nat}
    (htoNat : ∀ n, n < 256 ^ width → toNat (ofNat n) = n) {bytes front : Bytes}
    {cursor next : Nat} {a : α} (hfront : Consumed bytes cursor front)
    (h : readNumber ofNat width bytes cursor = .ok (a, next)) :
    Consumed bytes next (front ++ leBytes width (toNat a)) := by
  unfold Backup.readNumber at h
  cases hread : Backup.readSlice bytes cursor width with
  | error e => simp [hread, Except.map] at h
  | ok r =>
      obtain ⟨field, stop⟩ := r
      simp only [hread, Except.map, Except.ok.injEq, Prod.mk.injEq] at h
      obtain ⟨rfl, rfl⟩ := h
      obtain ⟨hnext, rfl⟩ := hfront.readSlice hread
      rw [htoNat _ (ofLeBytes_lt field), leBytes_ofLeBytes]
      exact hnext

theorem Consumed.eq_of_end {bytes front : Bytes} (h : Consumed bytes bytes.length front) :
    bytes = front := by
  rw [← h, List.take_length]

/-! ## The decoder -/

section Decoder

variable {Key : Type} {lib : BackupLibraries Key} {policy : PolicyContext}
  {password : MasterPassword}

/-- What the decoder accepts is a backup that was signed with the password, and every byte in
front of the signature is one that the signature covers. -/
theorem signedBackup_of_decode {backupBytes payload : Bytes}
    (h : decodeSignedBackup lib policy password backupBytes = .ok payload) :
    Nonempty (SignedBackup lib password backupBytes payload) := by
  unfold decodeSignedBackup at h
  obtain ⟨-, h⟩ := check_bind_eq_ok.mp h
  obtain ⟨⟨found, cursor₁⟩, hfound, h⟩ := bind_eq_ok.mp h
  obtain ⟨hmagic, h⟩ := check_bind_eq_ok.mp h
  obtain ⟨⟨version, cursor₂⟩, hversion, h⟩ := bind_eq_ok.mp h
  obtain ⟨hsupported, h⟩ := check_bind_eq_ok.mp h
  obtain ⟨⟨headerLen, cursor₃⟩, hheaderLen, h⟩ := bind_eq_ok.mp h
  obtain ⟨hheaderPos, h⟩ := check_bind_eq_ok.mp h
  obtain ⟨⟨headerJson, cursor₄⟩, hheaderJson, h⟩ := bind_eq_ok.mp h
  obtain ⟨header, hheader, h⟩ := bind_eq_ok.mp h
  obtain ⟨hheaderVersion, h⟩ := check_bind_eq_ok.mp h
  obtain ⟨⟨payloadLen, cursor₅⟩, hpayloadLen, h⟩ := bind_eq_ok.mp h
  obtain ⟨hpayloadCap, h⟩ := check_bind_eq_ok.mp h
  obtain ⟨⟨_, cursor₆⟩, hpayload, h⟩ := bind_eq_ok.mp h
  obtain ⟨⟨sigLen, cursor₇⟩, hsigLen, h⟩ := bind_eq_ok.mp h
  obtain ⟨hsig64, h⟩ := check_bind_eq_ok.mp h
  obtain ⟨⟨sigBytes, cursor₈⟩, hsigBytes, h⟩ := bind_eq_ok.mp h
  obtain ⟨hend, h⟩ := check_bind_eq_ok.mp h
  obtain ⟨signature, hsignature, h⟩ := bind_eq_ok.mp h
  obtain ⟨-, h⟩ := check_bind_eq_ok.mp h
  obtain ⟨verifyingKey, hverifyingKey, h⟩ := bind_eq_ok.mp h
  obtain ⟨hverify, h⟩ := check_bind_eq_ok.mp h
  cases pure_eq_ok.mp h
  rw [failIf_eq_ok, not_not] at hmagic hsupported hheaderVersion hsig64 hend
  rw [failIf_eq_ok] at hheaderPos hpayloadCap hverify
  rw [okOr_eq_ok] at hheader hsignature
  subst hmagic hsupported hsig64 hend
  -- What is in front of the cursor after each field.
  have hstart : Consumed backupBytes 0 [] := List.take_zero
  have hfront₁ := (hstart.readSlice hfound).1
  have hfront₂ := hfront₁.readNumber UInt16.toNat
    (fun n hn => UInt16.toNat_ofNat_of_lt' hn) hversion
  have hfront₃ := hfront₂.readNumber UInt32.toNat
    (fun n hn => UInt32.toNat_ofNat_of_lt' hn) hheaderLen
  obtain ⟨hfront₄, hheaderLength⟩ := hfront₃.readSlice hheaderJson
  have hfront₅ := hfront₄.readNumber UInt64.toNat
    (fun n hn => UInt64.toNat_ofNat_of_lt' hn) hpayloadLen
  obtain ⟨hfront₆, hpayloadLength⟩ := hfront₅.readSlice hpayload
  have hfront₇ := hfront₆.readNumber UInt16.toNat
    (fun n hn => UInt16.toNat_ofNat_of_lt' hn) hsigLen
  obtain ⟨hfront₈, hsigLength⟩ := hfront₇.readSlice hsigBytes
  rw [← hheaderLength] at hfront₈
  rw [← hpayloadLength] at hfront₈
  have hlayout : backupBytes =
      signedBytes headerJson payload ++ (leBytes 2 64 ++ sigBytes) := by
    rw [hfront₈.eq_of_end]
    simp only [signedBytes, List.nil_append, List.append_assoc]
    rfl
  have hregion : backupBytes.take (backupBytes.length - (2 + 64)) =
      signedBytes headerJson payload := by
    have hlen : backupBytes.length = (signedBytes headerJson payload).length + (2 + 64) := by
      rw [hlayout, List.length_append, List.length_append, length_leBytes, hsigLength]
    rw [hlen, Nat.add_sub_cancel, hlayout, List.take_left]
  refine ⟨
    { headerJson := headerJson
      header := header
      sigBytes := sigBytes
      signature := signature
      verifyingKey := verifyingKey
      layout := hlayout
      headerJson_ne_nil := ?_
      fromSlice_headerJson := hheader
      header_version := hheaderVersion
      payload_length := ?_
      sigBytes_length := hsigLength
      signature_of_sigBytes := hsignature
      verifyingKey_derived := hverifyingKey
      verify := ?_ }⟩
  · rintro rfl
    apply hheaderPos
    apply UInt32.toNat_inj.mp
    rw [← hheaderLength]
    rfl
  · rw [hpayloadLength]
    exact UInt64.le_iff_toNat_le.mp (UInt64.not_lt.mp hpayloadCap)
  · rw [← hregion]
    simpa using hverify

end Decoder

/-- Payloads within the bound survive a backup. On any bytes at all the decoder neither stops the
program nor wraps its cursor, and what it accepts is a backup signed with the password, each byte
of which is covered. -/
theorem backups_round_trip_and_are_covered {Key : Type} {lib : BackupLibraries Key}
    (hlib : lib.Ideal) (htotal : lib.Total) :
    (∀ (policy : PolicyContext) (password : MasterPassword) (payload : Bytes)
        (kdf : BackupKdfPolicy) (salt : Salt),
      policy.allowSignedBackupTransfer = true →
      payload.length ≤ maxBackupPayloadLen.toNat →
      validateArgon2idParams kdf.memKib kdf.timeCost kdf.lanes = .ok () →
      ∃ backupBytes,
        encodeSignedBackup lib policy password payload kdf (some salt) = .ok backupBytes ∧
        decodeSignedBackup lib policy password backupBytes = .ok payload) ∧
    ∀ (policy : PolicyContext) (password : MasterPassword) (backupBytes : Bytes),
      Backup.Machine.decodeSignedBackup lib policy password backupBytes =
        safely (decodeSignedBackup lib policy password backupBytes) ∧
      Backup.Machine.decodeSignedBackup lib policy password backupBytes ≠ .error .panic ∧
      ∀ payload, Backup.Machine.decodeSignedBackup lib policy password backupBytes = .ok payload →
        Nonempty (SignedBackup lib password backupBytes payload) := by
  constructor
  · intro policy password payload kdf salt hpolicy hlen hkdf
    obtain ⟨backupBytes, hencode⟩ :=
      htotal.exists_encodeSignedBackup hpolicy hkdf password salt hlen
    exact ⟨backupBytes, hencode, decodeSignedBackup_of_encode lib hlib hencode⟩
  · intro policy password backupBytes
    have hfollows := Backup.Machine.decodeSignedBackup_follows lib policy password backupBytes
    have hsame := follows_id_iff.mp hfollows
    refine ⟨hsame, hfollows.ne_panic, ?_⟩
    intro payload hok
    rw [hsame] at hok
    exact signedBackup_of_decode (mapError_eq_ok.mp hok)

/-- Three bytes under the symbolic primitives, and the empty input. -/
theorem backups_round_trip_and_are_covered_sample :
    (∃ backupBytes,
      encodeSignedBackup symbolicBackup samplePolicyContext (samplePassword "north") [1, 2, 3]
        sampleBackupKdf (some (Vector.replicate 32 3)) = .ok backupBytes ∧
      decodeSignedBackup symbolicBackup samplePolicyContext (samplePassword "north") backupBytes =
        .ok [1, 2, 3]) ∧
    Backup.Machine.decodeSignedBackup symbolicBackup samplePolicyContext (samplePassword "north")
      [] ≠ .error .panic := by
  obtain ⟨hround, hcovered⟩ :=
    backups_round_trip_and_are_covered symbolicBackup_ideal symbolicBackup_total
  constructor
  · exact hround samplePolicyContext (samplePassword "north") [1, 2, 3]
      sampleBackupKdf (Vector.replicate 32 3) rfl (by decide) sampleBackupKdf_valid
  · exact (hcovered samplePolicyContext (samplePassword "north") []).2.1

end ViperVault
