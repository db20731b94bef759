import ViperVault.Core.Session
import ViperVault.Foundation.Reader
import ViperVault.Foundation.Results
import ViperVault.Foundation.Serde
import ViperVault.Vault.Json

/-!
# The container codec

`vault/codec.rs` on containers held in memory. The encoder bounds the header only; the decoder
bounds the header and the payload. On a target with 64-bit pointers the conversions of the
lengths to `usize` never fail.
-/

namespace ViperVault

open Foundation Reader

/-- `MAX_VAULT_CONTAINER_PAYLOAD_LEN`. -/
def maxVaultContainerPayloadLen : UInt64 := 16 * 1024 * 1024

/-- The mode that the encoder writes for a storage. -/
def VaultStorage.mode : VaultStorage → StorageMode
  | .encrypted _ => .encrypted
  | .plaintextJson _ => .plaintextJson

/-- The payload that the encoder writes for a storage. -/
def VaultStorage.payloadBytes : VaultStorage → Bytes
  | .encrypted ciphertext => ciphertext
  | .plaintextJson json => json

/-- The fields of a container in their order. -/
def containerBytes (formatVersion : UInt16) (mode : StorageMode) (headerBytes payload : Bytes) :
    Bytes :=
  magic ++ (leBytes 2 formatVersion.toNat ++ ([mode.toByte] ++
    (leBytes 4 (UInt32.ofNat headerBytes.length).toNat ++ (headerBytes ++
      (leBytes 8 (UInt64.ofNat payload.length).toNat ++ payload)))))

theorem length_containerBytes (formatVersion : UInt16) (mode : StorageMode)
    (headerBytes payload : Bytes) :
    (containerBytes formatVersion mode headerBytes payload).length =
      19 + headerBytes.length + payload.length := by
  simp only [containerBytes, List.length_append, length_leBytes, magic, List.length_cons,
    List.length_nil]
  omega

section Codec

variable (headerSerde : Serde VaultHeader)

/-- `serialize_header_json`. -/
def serializeHeaderJson (header : VaultHeader) : Except VaultParseError Bytes :=
  okOr (headerSerde.toVec header) .serialize

/-- `deserialize_header_json`. -/
def deserializeHeaderJson (bytes : Bytes) : Except VaultParseError VaultHeader :=
  okOr (headerSerde.fromSlice bytes) .deserialize

/-- `encode_vault_storage`. -/
def encodeVaultStorage (probe : RuntimeInspectionState) (header : VaultHeader)
    (storage : VaultStorage) (formatVersion : UInt16) : Except VaultParseError Bytes := do
  failIf (formatVersion = 0) .unsupportedVersion
  failIf (header.duress.isSome ∧ storage.mode = .plaintextJson) .plaintextNotAllowed
  failIf (storage.mode = .plaintextJson ∧ allowPlaintextExportUnderRuntimePolicy probe = false)
    .plaintextNotAllowed
  let headerBytes ← serializeHeaderJson headerSerde header
  failIf (maxHeaderLen < UInt32.ofNat headerBytes.length) .headerTooLarge
  return containerBytes formatVersion storage.mode headerBytes storage.payloadBytes

/-- `read_u16_le`. -/
def readU16Le : Reader VaultParseError UInt16 := UInt16.ofNat <$> readLe .io 2

/-- `read_u32_le`. -/
def readU32Le : Reader VaultParseError UInt32 := UInt32.ofNat <$> readLe .io 4

/-- `read_u64_le`. -/
def readU64Le : Reader VaultParseError UInt64 := UInt64.ofNat <$> readLe .io 8

/-- `read_u8`. -/
def readU8 : Reader VaultParseError UInt8 := (fun buf => buf.headD 0) <$> readExact .io 1

/-- The storage mode of a raw byte. -/
def storageModeOf (probe : RuntimeInspectionState) (allowPlaintext : Bool) (raw : UInt8) :
    Except VaultParseError StorageMode :=
  if raw = 1 then .ok .encrypted
  else if raw = 2 then
    if !allowPlaintext || !allowPlaintextExportUnderRuntimePolicy probe then
      .error .plaintextNotAllowed
    else .ok .plaintextJson
  else .error .unsupportedStorageMode

/-- The part of `decode_vault_file` up to the end of the payload. -/
def readVaultFile (probe : RuntimeInspectionState) (expectedFormatVersion : Option UInt16)
    (maxPayloadLen : UInt64) (allowPlaintext : Bool) :
    Reader VaultParseError ParsedVaultFile := do
  let found ← readExact .io 4
  answer (failIf (found ≠ magic) .invalidMagic)
  let formatVersion ← readU16Le
  answer (failIf (formatVersion = 0) .unsupportedVersion)
  answer (failIf (∃ expected ∈ expectedFormatVersion, formatVersion ≠ expected)
    .unsupportedVersion)
  let storageModeRaw ← readU8
  let mode ← answer (storageModeOf probe allowPlaintext storageModeRaw)
  let headerLen ← readU32Le
  answer (failIf (maxHeaderLen < headerLen) .headerTooLarge)
  let headerBytes ← readExact .io headerLen.toNat
  let header ← answer (deserializeHeaderJson headerSerde headerBytes)
  answer (failIf (header.duress.isSome ∧ mode = .plaintextJson) .plaintextNotAllowed)
  let payloadLen ← readU64Le
  answer (failIf (maxPayloadLen < payloadLen) .payloadTooLarge)
  let payload ← readExact .io payloadLen.toNat
  return {
    formatVersion := formatVersion
    header := header
    headerBytes := headerBytes
    mode := mode
    payload := payload }

/-- `decode_vault_file`. -/
def decodeVaultFile (probe : RuntimeInspectionState) (input : Bytes)
    (expectedFormatVersion : Option UInt16) (maxPayloadLen : UInt64) (allowPlaintext : Bool) :
    Except VaultParseError ParsedVaultFile :=
  runToEnd .trailingBytes
    (readVaultFile headerSerde probe expectedFormatVersion maxPayloadLen allowPlaintext) input

/-- A number that fits the width is read back. -/
theorem reads_readNumber {α : Type} (ofNat : Nat → α) (width : Nat) {n : Nat}
    (h : n < 256 ^ width) :
    Reads (ofNat <$> readLe VaultParseError.io width) (leBytes width n) (ofNat n) := by
  have hread := reads_map ofNat (reads_readLe VaultParseError.io width n)
  rwa [Nat.mod_eq_of_lt h] at hread

theorem reads_readU16Le (n : UInt16) : Reads readU16Le (leBytes 2 n.toNat) n := by
  have hread := reads_readNumber UInt16.ofNat 2 n.toNat_lt
  rwa [UInt16.ofNat_toNat] at hread

theorem reads_readU32Le (n : UInt32) : Reads readU32Le (leBytes 4 n.toNat) n := by
  have hread := reads_readNumber UInt32.ofNat 4 n.toNat_lt
  rwa [UInt32.ofNat_toNat] at hread

theorem reads_readU64Le (n : UInt64) : Reads readU64Le (leBytes 8 n.toNat) n := by
  have hread := reads_readNumber UInt64.ofNat 8 n.toNat_lt
  rwa [UInt64.ofNat_toNat] at hread

theorem reads_readU8 (n : UInt8) : Reads readU8 [n] n :=
  reads_map (fun buf : Bytes => buf.headD 0) (reads_readExact VaultParseError.io [n])

/-- A field of a stated length, when the length fits its width. -/
theorem reads_readExact_ofNat32 {bytes : Bytes} (h : bytes.length < 2 ^ 32) :
    Reads (readExact VaultParseError.io (UInt32.ofNat bytes.length).toNat) bytes bytes := by
  rw [UInt32.toNat_ofNat_of_lt' h]
  exact reads_readExact _ bytes

theorem reads_readExact_ofNat64 {bytes : Bytes} (h : bytes.length < 2 ^ 64) :
    Reads (readExact VaultParseError.io (UInt64.ofNat bytes.length).toNat) bytes bytes := by
  rw [UInt64.toNat_ofNat_of_lt' h]
  exact reads_readExact _ bytes

/-- The decoder reads back a container of an allowed mode whose lengths respect the bounds. -/
theorem decodeVaultFile_containerBytes_of_mode {probe : RuntimeInspectionState}
    {formatVersion : UInt16} {expectedFormatVersion : Option UInt16} {maxPayloadLen : UInt64}
    {allowPlaintext : Bool} {header : VaultHeader} {headerBytes payload : Bytes}
    {mode : StorageMode} (hversion : formatVersion ≠ 0)
    (hexpected : ∀ expected ∈ expectedFormatVersion, expected = formatVersion)
    (hmode : storageModeOf probe allowPlaintext mode.toByte = .ok mode)
    (hduress : ¬ (header.duress.isSome ∧ mode = .plaintextJson))
    (hheader : headerSerde.fromSlice headerBytes = some header)
    (hheaderLen : headerBytes.length ≤ maxHeaderLen.toNat)
    (hpayloadLen : payload.length ≤ maxPayloadLen.toNat) :
    decodeVaultFile headerSerde probe
        (containerBytes formatVersion mode headerBytes payload) expectedFormatVersion
        maxPayloadLen allowPlaintext =
      .ok
        { formatVersion := formatVersion
          header := header
          headerBytes := headerBytes
          mode := mode
          payload := payload } := by
  have hheaderLt : headerBytes.length < 2 ^ 32 := by
    have hmax : maxHeaderLen.toNat = 4096 := rfl
    omega
  have hpayloadLt : payload.length < 2 ^ 64 :=
    Nat.lt_of_le_of_lt hpayloadLen maxPayloadLen.toNat_lt
  apply runToEnd_of_reads
  refine reads_bind (reads_readExact _ magic) ?_
  refine reads_failIf_bind (by simp) ?_
  refine reads_bind (reads_readU16Le formatVersion) ?_
  refine reads_failIf_bind hversion ?_
  refine reads_failIf_bind ?_ ?_
  · rintro ⟨expected, hmem, hne⟩
    exact hne (hexpected expected hmem).symm
  refine reads_bind (reads_readU8 _) ?_
  refine reads_answer_bind hmode ?_
  refine reads_bind (reads_readU32Le _) ?_
  refine reads_failIf_bind ?_ ?_
  · rw [UInt32.lt_iff_toNat_lt, UInt32.toNat_ofNat_of_lt' hheaderLt]
    omega
  refine reads_bind (reads_readExact_ofNat32 hheaderLt) ?_
  refine reads_answer_bind (a := header) (by simp [deserializeHeaderJson, hheader]) ?_
  refine reads_failIf_bind hduress ?_
  refine reads_bind (reads_readU64Le _) ?_
  refine reads_failIf_bind ?_ ?_
  · rw [UInt64.lt_iff_toNat_lt, UInt64.toNat_ofNat_of_lt' hpayloadLt]
    omega
  exact reads_bind_pure _ (reads_readExact_ofNat64 hpayloadLt)

/-- The decoder reads back an encrypted container whose lengths respect the bounds. -/
theorem decodeVaultFile_containerBytes (probe : RuntimeInspectionState)
    {formatVersion : UInt16} {expectedFormatVersion : Option UInt16} {maxPayloadLen : UInt64}
    (allowPlaintext : Bool) {header : VaultHeader} {headerBytes payload : Bytes}
    (hversion : formatVersion ≠ 0)
    (hexpected : ∀ expected ∈ expectedFormatVersion, expected = formatVersion)
    (hheader : headerSerde.fromSlice headerBytes = some header)
    (hheaderLen : headerBytes.length ≤ maxHeaderLen.toNat)
    (hpayloadLen : payload.length ≤ maxPayloadLen.toNat) :
    decodeVaultFile headerSerde probe
        (containerBytes formatVersion .encrypted headerBytes payload) expectedFormatVersion
        maxPayloadLen allowPlaintext =
      .ok
        { formatVersion := formatVersion
          header := header
          headerBytes := headerBytes
          mode := .encrypted
          payload := payload } :=
  decodeVaultFile_containerBytes_of_mode headerSerde hversion hexpected rfl (by simp) hheader
    hheaderLen hpayloadLen

/-- The only bytes that a vault is encoded to. -/
theorem eq_containerBytes_of_encode {probe : RuntimeInspectionState} {header : VaultHeader}
    {storage : VaultStorage} {formatVersion : UInt16} {bytes : Bytes}
    (h : encodeVaultStorage headerSerde probe header storage formatVersion = .ok bytes) :
    ∃ headerBytes, formatVersion ≠ 0 ∧ headerSerde.toVec header = some headerBytes ∧
      bytes = containerBytes formatVersion storage.mode headerBytes storage.payloadBytes := by
  simp only [encodeVaultStorage, serializeHeaderJson, bind_eq_ok, failIf_eq_ok, okOr_eq_ok,
    pure_eq_ok] at h
  obtain ⟨-, hversion, -, -, -, -, headerBytes, hheader, -, -, hbytes⟩ := h
  exact ⟨headerBytes, hversion, hheader, hbytes.symm⟩

/-- What the codec relies on of the JSON library at headers: it is lawful, and a header is small
enough for a container. -/
structure HeaderSerde.Ideal : Prop where
  lawful : headerSerde.Lawful
  length_le : ∀ {header : VaultHeader} {bytes : Bytes}, headerSerde.toVec header = some bytes →
    bytes.length ≤ maxHeaderLen.toNat

variable {headerSerde}

/-- A storage of an allowed mode is encoded whatever its length. -/
theorem HeaderSerde.Ideal.encode (hserde : HeaderSerde.Ideal headerSerde)
    {probe : RuntimeInspectionState} {header : VaultHeader} {headerBytes : Bytes}
    (hheader : headerSerde.toVec header = some headerBytes) {storage : VaultStorage}
    {formatVersion : UInt16} (hversion : formatVersion ≠ 0)
    (hmode : storage.mode = .plaintextJson →
      header.duress = none ∧ allowPlaintextExportUnderRuntimePolicy probe = true) :
    encodeVaultStorage headerSerde probe header storage formatVersion =
      .ok (containerBytes formatVersion storage.mode headerBytes storage.payloadBytes) := by
  have hlen := hserde.length_le hheader
  have hlt : headerBytes.length < UInt32.size := Nat.lt_of_le_of_lt hlen (by decide)
  have hsmall : ¬ maxHeaderLen < UInt32.ofNat headerBytes.length := by
    rw [UInt32.lt_iff_toNat_lt, UInt32.toNat_ofNat_of_lt' hlt]
    omega
  have hduress : ¬ (header.duress.isSome ∧ storage.mode = .plaintextJson) := by
    rintro ⟨hsome, hplain⟩
    simp [(hmode hplain).1] at hsome
  have hpolicy : ¬ (storage.mode = .plaintextJson ∧
      allowPlaintextExportUnderRuntimePolicy probe = false) := by
    rintro ⟨hplain, hdenied⟩
    simp [(hmode hplain).2] at hdenied
  simp only [encodeVaultStorage, serializeHeaderJson, bind_eq_ok, failIf_eq_ok, okOr_eq_ok,
    pure_eq_ok]
  exact ⟨(), hversion, (), hduress, (), hpolicy, headerBytes, hheader, (), hsmall, rfl⟩

/-- An encrypted storage is encoded whatever its length. -/
theorem HeaderSerde.Ideal.encode_encrypted (hserde : HeaderSerde.Ideal headerSerde)
    (probe : RuntimeInspectionState) {header : VaultHeader} {headerBytes : Bytes}
    (hheader : headerSerde.toVec header = some headerBytes) (ciphertext : Bytes)
    {formatVersion : UInt16} (hversion : formatVersion ≠ 0) :
    encodeVaultStorage headerSerde probe header (.encrypted ciphertext) formatVersion =
      .ok (containerBytes formatVersion .encrypted headerBytes ciphertext) :=
  hserde.encode hheader hversion (by simp [VaultStorage.mode])

end Codec

/-- The JSON library at headers satisfies what the codec relies on. -/
theorem headerJson_ideal : HeaderSerde.Ideal headerJson where
  lawful := vaultHeaderCodec.serde_lawful
  length_le := by
    intro header bytes h
    cases h
    exact length_headerJson_le header

/-- A header of a vault without a decoy. -/
def sampleHeader : VaultHeader where
  schemaVersion := 1
  vaultId := 7
  crypto := ⟨.argon2id 65536 3 1, .xChaCha20Poly1305, Vector.replicate 32 1, Vector.replicate 24 2⟩
  duress := none

/-- The bytes of the sample header. -/
def sampleHeaderBytes : Bytes := (vaultHeaderCodec.encode sampleHeader).toBytes

end ViperVault
