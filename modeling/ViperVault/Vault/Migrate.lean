import ViperVault.Vault.Lifecycle

/-!
# What a migration accepts

A vault is opened with the bytes of its header as they were stored; a migration writes the
header anew for the same purpose. The two agree on containers whose header is stored as the
serialiser of today writes it, and on no others.
-/

namespace ViperVault

open Foundation Json

section Migrate

variable {Key : Type} {lib : Libraries Key} (hlib : lib.Ideal)

include hlib

/-- A vault sealed under the header that the serialiser writes is migrated. -/
theorem exists_enableDuressOnVault {header : VaultHeader} {headerBytes ciphertext : Bytes}
    {primaryPassword : MasterPassword} {primaryJson : Bytes} {decoyPayload : VaultPayload}
    {kdf : VaultKdfPolicy} (hduress : header.duress = none)
    (hheader : lib.headerJson.toVec header = some headerBytes)
    (hsealed : Sealed lib headerBytes header.crypto ciphertext primaryPassword primaryJson)
    (hprimary : (lib.payloadFromSlice primaryJson).isSome) (hdecoy : decoyPayload.Valid)
    (hkdf : kdf.Valid) (salt1 salt2 : Salt) (nonce1 nonce2 : Nonce)
    (decoyPassword : MasterPassword) :
    ∃ vault, enableDuressOnVault lib ⟨some salt1, some nonce1⟩ ⟨some salt2, some nonce2⟩
      ⟨header, .encrypted ciphertext⟩ primaryPassword decoyPassword decoyPayload kdf =
        .ok vault := by
  obtain ⟨key, hkey, hseal⟩ := hsealed
  have hopen := hlib.aead.decrypt_encrypt hseal
  obtain ⟨primaryPayload, hprimary⟩ := Option.isSome_iff_exists.mp hprimary
  obtain ⟨decoyJson, hdecoyJson⟩ := exists_toVec_payload hlib.payloadJson decoyPayload
  have hdecoyRead := payloadFromSlice_of_toVec hlib hdecoyJson
  rw [if_pos hdecoy] at hdecoyRead
  let newHeader : VaultHeader :=
    { schemaVersion := header.schemaVersion
      vaultId := header.vaultId
      crypto := kdf.cryptoHeader salt1 nonce1
      duress := some ⟨kdf.cryptoHeader salt1 nonce1, kdf.cryptoHeader salt2 nonce2⟩ }
  obtain ⟨newHeaderBytes, hnewHeader⟩ := hlib.headerJson.lawful.exists_toVec newHeader
  obtain ⟨envelope, hencrypt⟩ := exists_envelope hlib hkdf salt1 salt2 nonce1 nonce2
    newHeaderBytes primaryPassword decoyPassword (Option.isSome_of_eq_some hprimary)
    (Option.isSome_of_eq_some hdecoyRead)
  obtain ⟨newCiphertext, henvelope⟩ := hlib.envelopeJson.exists_toVec envelope
  refine ⟨⟨newHeader, .encrypted newCiphertext⟩, ?_⟩
  simp only [enableDuressOnVault, VaultStorage.encryptedCiphertext, ok_bind, hduress, failIf,
    Option.isSome_none, Bool.false_eq_true, if_false, hkey, mapError_ok, hheader, okOr_some,
    decryptXchacha20poly1305, hopen, hprimary, Libraries.payloadToVec, hdecoyJson, hnewHeader,
    newHeader, hencrypt, henvelope]
  rfl

/-- A vault sealed under another text of its header is taken for one with a wrong password. -/
theorem enableDuressOnVault_authFailed {header : VaultHeader}
    {storedBytes headerBytes ciphertext : Bytes} {primaryPassword : MasterPassword}
    {primaryJson : Bytes} (hduress : header.duress = none)
    (hheader : lib.headerJson.toVec header = some headerBytes) (hne : headerBytes ≠ storedBytes)
    (hsealed : Sealed lib storedBytes header.crypto ciphertext primaryPassword primaryJson)
    (fill1 fill2 : SysRngFill) (decoyPassword : MasterPassword) (decoyPayload : VaultPayload)
    (kdf : VaultKdfPolicy) :
    enableDuressOnVault lib fill1 fill2 ⟨header, .encrypted ciphertext⟩ primaryPassword
      decoyPassword decoyPayload kdf = .error .authFailed := by
  obtain ⟨key, hkey, hseal⟩ := hsealed
  have hclosed : lib.aead.decrypt key header.crypto.nonce ciphertext headerBytes = none := by
    cases hopen : lib.aead.decrypt key header.crypto.nonce ciphertext headerBytes with
    | none => rfl
    | some pt => exact absurd ((hlib.aead.decrypt_eq_some_iff hseal).mp hopen).2.1 hne
  simp only [enableDuressOnVault, VaultStorage.encryptedCiphertext, ok_bind, hduress, failIf,
    Option.isSome_none, Bool.false_eq_true, if_false, hkey, mapError_ok, hheader, okOr_some,
    decryptXchacha20poly1305, hclosed, okOr_none, mapError_error, error_bind]

end Migrate

/-! ## A container stored with a header of either age -/

/-- The key of the sample header under a password. -/
def sampleKey : Bytes :=
  keyText 65536 3 1 (samplePassword "north").exposeBytes sampleHeader.crypto.salt

/-- A container of the sample header, stored as these bytes. -/
def storedVault (headerBytes : Bytes) : ParsedVaultFile where
  formatVersion := 1
  header := sampleHeader
  headerBytes := headerBytes
  mode := .encrypted
  payload := sealText sampleKey sampleHeader.crypto.nonce headerBytes ++ payloadBytes samplePayload

theorem storedVault_sealed (headerBytes : Bytes) :
    Sealed symbolic headerBytes sampleHeader.crypto (storedVault headerBytes).payload
      (samplePassword "north") (payloadBytes samplePayload) :=
  ⟨sampleKey, (deriveMasterKeyFromPassword_eq_ok _).mpr ⟨by decide, rfl, rfl⟩, rfl⟩

theorem payloadFromSlice_samplePayload :
    symbolic.payloadFromSlice (payloadBytes samplePayload) = some samplePayload := by
  have hvalid : samplePayload.Valid := by decide
  have hread := payloadFromSlice_of_toVec symbolic_ideal (toVec_payloadJson samplePayload)
  rwa [if_pos hvalid] at hread

/-- However its header is stored, the container opens. -/
theorem unlockVault_storedVault (headerBytes : Bytes) :
    unlockVault symbolic (storedVault headerBytes) (samplePassword "north") =
      .ok samplePayload :=
  (unlockVault_eq_ok symbolic rfl rfl).mpr
    ⟨payloadBytes samplePayload,
      (decryptWithCryptoHeader_eq_ok_iff_sealed symbolic_ideal).mpr
        (storedVault_sealed headerBytes),
      payloadFromSlice_samplePayload⟩

/-- The sample header as it was written before there was a `duress` member. -/
def legacyHeader : Json :=
  .obj
    [("schema_version", Codec.uint16.encode sampleHeader.schemaVersion),
     ("vault_id", Codec.uuid.encode sampleHeader.vaultId),
     ("crypto", cryptoHeaderCodec.encode sampleHeader.crypto)]

theorem length_legacyHeader_le : legacyHeader.toBytes.length ≤ maxHeaderLen.toNat := by
  have hversion := size_uint16_le sampleHeader.schemaVersion
  have hid := size_uuid_le sampleHeader.vaultId
  have hcrypto := size_cryptoHeader_le sampleHeader.crypto
  have hsize := size_obj_le (k := 14) (l :=
    [("schema_version", Codec.uint16.encode sampleHeader.schemaVersion),
     ("vault_id", Codec.uuid.encode sampleHeader.vaultId),
     ("crypto", cryptoHeaderCodec.encode sampleHeader.crypto)]) (by simp +decide)
  simp only [List.map_cons, List.map_nil, List.sum_cons, List.sum_nil] at hsize
  have hmax : maxHeaderLen.toNat = 4096 := rfl
  exact Nat.le_trans (length_toBytes_le legacyHeader) (Nat.le_trans hsize (by omega))

theorem fromSlice_legacyHeader :
    headerJson.fromSlice legacyHeader.toBytes = some sampleHeader := by
  simp [headerJson, Codec.serde, ofBytes_toBytes, legacyHeader, vaultHeaderCodec, members,
    Codec.required, Codec.optional]
  rfl

theorem legacyHeader_ne : sampleHeaderBytes ≠ legacyHeader.toBytes := by
  intro heq
  have hsame := congrArg ofBytes heq
  rw [sampleHeaderBytes, ofBytes_toBytes, ofBytes_toBytes] at hsame
  simp [vaultHeaderCodec, legacyHeader] at hsame

/-! ## The condition -/

/-- A container without a decoy that a password opens is migrated with this password exactly
when its header is stored as the serialiser writes it and the decoy payload is valid. This is
under a valid policy and with a random generator that answers, and however the container was
read. -/
theorem migrates_iff_header_as_written {Key : Type} {lib : Libraries Key} (hlib : lib.Ideal)
    {parsed : ParsedVaultFile}
    (hmode : parsed.mode = .encrypted) (hduress : parsed.header.duress = none)
    {password : MasterPassword} {payload : VaultPayload}
    (hunlock : unlockVault lib parsed password = .ok payload) {kdf : VaultKdfPolicy}
    (hkdf : kdf.Valid) (salt1 salt2 : Salt) (nonce1 nonce2 : Nonce)
    (decoyPassword : MasterPassword) (decoyPayload : VaultPayload) :
    (∃ vault, enableDuressOnVault lib ⟨some salt1, some nonce1⟩ ⟨some salt2, some nonce2⟩
        ⟨parsed.header, .encrypted parsed.payload⟩ password decoyPassword decoyPayload kdf =
          .ok vault) ↔
      lib.headerJson.toVec parsed.header = some parsed.headerBytes ∧ decoyPayload.Valid := by
  obtain ⟨plaintext, hopen, hread⟩ := (unlockVault_eq_ok lib hmode hduress).mp hunlock
  have hsealed := (decryptWithCryptoHeader_eq_ok_iff_sealed hlib).mp hopen
  constructor
  · rintro ⟨vault, hvault⟩
    obtain ⟨ciphertext, headerBytes, primaryJson, decoyJson, hstorage, hheader, hreopen, hdecoy,
      hseals, -⟩ := enableDuressOnVault_seals hvault
    cases hstorage
    have hresealed := (decryptWithCryptoHeader_eq_ok_iff_sealed hlib).mp hreopen
    have hsame : headerBytes = parsed.headerBytes := hresealed.headerBytes_eq hlib hsealed
    have hdecoySome := hseals.payloadFromSlice_decoy
    rw [payloadFromSlice_of_toVec hlib hdecoy] at hdecoySome
    refine ⟨hsame ▸ hheader, ?_⟩
    by_contra hinvalid
    rw [if_neg hinvalid] at hdecoySome
    simp at hdecoySome
  · rintro ⟨hheader, hdecoy⟩
    exact exists_enableDuressOnVault hlib hduress hheader hsealed
      (Option.isSome_of_eq_some hread) hdecoy hkdf salt1 salt2 nonce1 nonce2 decoyPassword

theorem migrates_iff_header_as_written_sample :
    (∃ vault, enableDuressOnVault symbolic (sampleFill 1) (sampleFill 2)
        ⟨sampleHeader, .encrypted (storedVault sampleHeaderBytes).payload⟩ (samplePassword "north")
        (samplePassword "south") ⟨[]⟩ samplePolicy = .ok vault) ↔
      headerJson.toVec sampleHeader = some sampleHeaderBytes ∧ (⟨[]⟩ : VaultPayload).Valid :=
  migrates_iff_header_as_written symbolic_ideal rfl rfl
    (unlockVault_storedVault sampleHeaderBytes) samplePolicy_valid _ _ _ _ _ _

/-- A container with a header of that age is read, opens, and is refused by the migration as if
the password were wrong. -/
theorem legacy_header_is_not_migrated :
    decodeVaultFile headerJson .notDebugged
        (containerBytes 1 .encrypted legacyHeader.toBytes
          (storedVault legacyHeader.toBytes).payload) (some 1)
        maxVaultContainerPayloadLen false = .ok (storedVault legacyHeader.toBytes) ∧
    unlockVault symbolic (storedVault legacyHeader.toBytes) (samplePassword "north") =
      .ok samplePayload ∧
    samplePolicy.Valid ∧ (⟨[]⟩ : VaultPayload).Valid ∧
    enableDuressOnVault symbolic (sampleFill 1) (sampleFill 2)
      ⟨(storedVault legacyHeader.toBytes).header,
        .encrypted (storedVault legacyHeader.toBytes).payload⟩
      (samplePassword "north") (samplePassword "south") ⟨[]⟩ samplePolicy =
        .error .authFailed := by
  have hpayloadLen : (storedVault legacyHeader.toBytes).payload.length ≤
      maxVaultContainerPayloadLen.toNat := by
    have hcap : maxVaultContainerPayloadLen.toNat = 16777216 := rfl
    have hpassword : (samplePassword "north").exposeBytes.length = 5 := by decide
    have hplaintext := length_samplePayload_le
    have hheaderLen : legacyHeader.toBytes.length ≤ 4096 := length_legacyHeader_le
    have hlen := (storedVault_sealed legacyHeader.toBytes).length_symbolic
    omega
  refine ⟨?_, unlockVault_storedVault _, samplePolicy_valid, by decide, ?_⟩
  · exact decodeVaultFile_containerBytes headerJson .notDebugged false (by decide) (by simp)
      fromSlice_legacyHeader length_legacyHeader_le hpayloadLen
  · exact enableDuressOnVault_authFailed symbolic_ideal rfl rfl legacyHeader_ne
      (storedVault_sealed _) _ _ _ _ _

end ViperVault
