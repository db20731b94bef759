import ViperVault.Core.Unlock
import ViperVault.Vault.Create
import ViperVault.Vault.Symbolic

/-!
# The life cycle of a vault

A safe is what a vault is for: a primary content under a password and, if there is one, a decoy
content under another password. The vaults that are created and migrated seal a safe, and a
vault that seals a safe answers every password as the safe does once it was written and read
back.
-/

namespace ViperVault

open Foundation Json

/-- A content under a password and perhaps another one under a second password. -/
structure Safe where
  primaryPassword : MasterPassword
  primaryPlaintext : Bytes
  decoy : Option (MasterPassword × Bytes)

namespace Safe

/-- What the safe shows for a password. The primary content goes first. -/
def answer (safe : Safe) (q : MasterPassword) : Option (UnlockOutcome × Bytes) :=
  if q = safe.primaryPassword then some (.primary, safe.primaryPlaintext)
  else
    match safe.decoy with
    | none => none
    | some (password, plaintext) => if q = password then some (.decoy, plaintext) else none

theorem answer_decoyPassword (primary decoy : MasterPassword) (plaintext decoyPlaintext : Bytes) :
    answer ⟨primary, plaintext, some (decoy, decoyPlaintext)⟩ decoy =
      if decoy = primary then some (.primary, plaintext) else some (.decoy, decoyPlaintext) := by
  simp [answer]

end Safe

section Lifecycle

variable {Key : Type} (lib : Libraries Key)

/-- The storage of the vault was made from the contents of the safe, under its passwords. -/
inductive Seals : VaultFile → Safe → Prop
  | single {header : VaultHeader} {headerBytes ciphertext : Bytes} {password : MasterPassword}
      {plaintext : Bytes}
      (hheader : lib.headerJson.toVec header = some headerBytes)
      (hduress : header.duress = none)
      (hsealed : Sealed lib headerBytes header.crypto ciphertext password plaintext) :
      Seals ⟨header, .encrypted ciphertext⟩ ⟨password, plaintext, none⟩
  | dual {header : VaultHeader} {duressHeader : DualVaultHeader} {headerBytes ciphertext : Bytes}
      {envelope : DualCiphertextEnvelope} {primaryPassword decoyPassword : MasterPassword}
      {primaryJson decoyJson : Bytes}
      (hheader : lib.headerJson.toVec header = some headerBytes)
      (hduress : header.duress = some duressHeader)
      (henvelope : lib.envelopeJson.toVec envelope = some ciphertext)
      (hencrypt : encryptDuressEnvelopeFromPlaintextJson lib headerBytes duressHeader
        primaryPassword decoyPassword primaryJson decoyJson = .ok envelope) :
      Seals ⟨header, .encrypted ciphertext⟩
        ⟨primaryPassword, primaryJson, some (decoyPassword, decoyJson)⟩

/-- Written at any version and read back under a bound that fits it, the vault gives a container
with the property. -/
def ReadBack (vault : VaultFile) (P : ParsedVaultFile → Prop) : Prop :=
  ∀ (probe probe' : RuntimeInspectionState) (formatVersion : UInt16)
    (expectedFormatVersion : Option UInt16) (maxPayloadLen : UInt64) (allowPlaintext : Bool),
    formatVersion ≠ 0 →
    (∀ expected ∈ expectedFormatVersion, expected = formatVersion) →
    vault.storage.payloadBytes.length ≤ maxPayloadLen.toNat →
    ∃ bytes parsed,
      encodeVaultStorage lib.headerJson probe vault.header vault.storage formatVersion =
        .ok bytes ∧
      decodeVaultFile lib.headerJson probe' bytes expectedFormatVersion maxPayloadLen
        allowPlaintext = .ok parsed ∧
      P parsed

/-- Written and read back, the vault answers every password as the safe does. -/
def OpensAs (vault : VaultFile) (safe : Safe) : Prop :=
  ReadBack lib vault fun parsed =>
    ∀ q, unlockVaultToPlaintextJsonWithOutcome lib parsed q = okOr (safe.answer q) .authFailed

variable {lib}

theorem ReadBack.imp {vault : VaultFile} {P Q : ParsedVaultFile → Prop}
    (h : ReadBack lib vault P) (himp : ∀ parsed, P parsed → Q parsed) : ReadBack lib vault Q := by
  intro probe probe' formatVersion expectedFormatVersion maxPayloadLen allowPlaintext hversion
    hexpected hlen
  obtain ⟨bytes, parsed, hencode, hdecode, hparsed⟩ :=
    h probe probe' formatVersion expectedFormatVersion maxPayloadLen allowPlaintext hversion
      hexpected hlen
  exact ⟨bytes, parsed, hencode, hdecode, himp parsed hparsed⟩

/-- A migrated or duress-enabled vault answers from its two sealed ciphertexts. -/
theorem unlockDuressEnvelopeToPlaintextJson_eq (hlib : lib.Ideal) {headerBytes : Bytes}
    {duressHeader : DualVaultHeader} {envelope : DualCiphertextEnvelope}
    {primaryPassword decoyPassword : MasterPassword} {primaryJson decoyJson : Bytes}
    (h : encryptDuressEnvelopeFromPlaintextJson lib headerBytes duressHeader primaryPassword
      decoyPassword primaryJson decoyJson = .ok envelope) (q : MasterPassword) :
    unlockDuressEnvelopeToPlaintextJson lib headerBytes duressHeader envelope q =
      okOr (Safe.answer ⟨primaryPassword, primaryJson, some (decoyPassword, decoyJson)⟩ q)
        .authFailed := by
  obtain ⟨hprimary, hdecoy, hsealed, hsealed'⟩ :=
    (encryptDuressEnvelopeFromPlaintextJson_eq_ok lib).mp h
  have hprimaryValid := (validatePayloadJson_eq_ok lib).mpr hprimary
  have hdecoyValid := (validatePayloadJson_eq_ok lib).mpr hdecoy
  simp only [unlockDuressEnvelopeToPlaintextJson, hsealed.decryptWithCryptoHeader_eq hlib q,
    hsealed'.decryptWithCryptoHeader_eq hlib q, Safe.answer]
  by_cases hq : q = primaryPassword
  · simp only [if_pos hq, hprimaryValid, ok_bind]
    rfl
  · by_cases hq' : q = decoyPassword
    · simp only [if_neg hq, if_pos hq', hdecoyValid, ok_bind]
      rfl
    · simp only [if_neg hq, if_neg hq', okOr_none]

/-- The header bytes that the decoder kept are the associated data of the vault. -/
theorem Seals.unlock_eq (hlib : lib.Ideal) {vault : VaultFile} {safe : Safe}
    (h : Seals lib vault safe) {headerBytes : Bytes}
    (hheaderBytes : lib.headerJson.toVec vault.header = some headerBytes) (formatVersion : UInt16)
    (q : MasterPassword) :
    unlockVaultToPlaintextJsonWithOutcome lib
        { formatVersion := formatVersion
          header := vault.header
          headerBytes := headerBytes
          mode := .encrypted
          payload := vault.storage.payloadBytes } q =
      okOr (safe.answer q) .authFailed := by
  cases h with
  | single hheader hduress hsealed =>
      cases Option.some.inj (hheader.symm.trans hheaderBytes)
      obtain ⟨key, hkey⟩ := hsealed.exists_key hlib q
      have hopen := hsealed.decrypt_eq hlib hkey
      simp only [unlockVaultToPlaintextJsonWithOutcome, hduress, hkey, mapError_ok, ok_bind,
        decryptXchacha20poly1305, VaultStorage.payloadBytes, hopen, Safe.answer]
      split
      · rfl
      · rfl
  | dual hheader hduress henvelope hencrypt =>
      cases Option.some.inj (hheader.symm.trans hheaderBytes)
      have hread := hlib.envelopeJson.fromSlice_toVec _ _ henvelope
      rw [unlockVaultToPlaintextJsonWithOutcome_of_duress lib rfl hduress hread,
        unlockDuressEnvelopeToPlaintextJson_eq hlib hencrypt]
      cases Safe.answer _ q with
      | none => rfl
      | some answer => rfl

/-- A vault that seals a safe opens as the safe. -/
theorem Seals.opensAs (hlib : lib.Ideal) {vault : VaultFile} {safe : Safe}
    (h : Seals lib vault safe) : OpensAs lib vault safe := by
  intro probe probe' formatVersion expectedFormatVersion maxPayloadLen allowPlaintext hversion
    hexpected hlen
  obtain ⟨headerBytes, hheader⟩ := hlib.headerJson.lawful.exists_toVec vault.header
  obtain ⟨ciphertext, hstorage⟩ : ∃ ciphertext, vault.storage = .encrypted ciphertext := by
    cases h with
    | single => exact ⟨_, rfl⟩
    | dual => exact ⟨_, rfl⟩
  have hencode := hlib.headerJson.encode_encrypted probe hheader ciphertext hversion
  rw [← hstorage] at hencode
  have hpayload : vault.storage.payloadBytes = ciphertext := by rw [hstorage]; rfl
  rw [← hpayload] at hencode
  exact ⟨_, _, hencode,
    decodeVaultFile_containerBytes lib.headerJson probe' allowPlaintext hversion hexpected
      (hlib.headerJson.lawful.fromSlice_toVec _ _ hheader) (hlib.headerJson.length_le hheader)
      hlen,
    h.unlock_eq hlib hheader formatVersion⟩

/-- The decoy content of a sealed safe is a payload. -/
theorem Seals.payloadFromSlice_decoy {vault : VaultFile}
    {primaryPassword decoyPassword : MasterPassword} {primaryJson decoyJson : Bytes}
    (h : Seals lib vault ⟨primaryPassword, primaryJson, some (decoyPassword, decoyJson)⟩) :
    (lib.payloadFromSlice decoyJson).isSome := by
  cases h with
  | dual _ _ _ hencrypt =>
      exact ((encryptDuressEnvelopeFromPlaintextJson_eq_ok lib).mp hencrypt).2.1

/-! ## The vaults that are created and migrated -/

theorem createEncryptedVault_seals {fill : SysRngFill} {vaultId : Uuid}
    {password : MasterPassword} {payload : VaultPayload} {schemaVersion : UInt16}
    {kdf : VaultKdfPolicy} {vault : VaultFile}
    (h : createEncryptedVault lib fill vaultId password payload schemaVersion kdf = .ok vault) :
    ∃ json, lib.payloadToVec payload = some json ∧ Seals lib vault ⟨password, json, none⟩ := by
  simp only [createEncryptedVault, bind_eq_ok, okOr_eq_ok, mapError_eq_ok,
    encryptXchacha20poly1305, pure_eq_ok] at h
  obtain ⟨salt, -, nonce, -, headerBytes, hheader, key, hkey, json, hjson, ciphertext, hct, rfl⟩ :=
    h
  exact ⟨json, hjson, .single hheader rfl ⟨key, hkey, hct⟩⟩

theorem createDuressVault_seals {fill1 fill2 : SysRngFill} {vaultId : Uuid}
    {primaryPassword decoyPassword : MasterPassword} {primaryPayload decoyPayload : VaultPayload}
    {schemaVersion : UInt16} {kdf : VaultKdfPolicy} {vault : VaultFile}
    (h : createDuressVault lib fill1 fill2 vaultId primaryPassword decoyPassword primaryPayload
      decoyPayload schemaVersion kdf = .ok vault) :
    ∃ primaryJson decoyJson, lib.payloadToVec primaryPayload = some primaryJson ∧
      lib.payloadToVec decoyPayload = some decoyJson ∧
      Seals lib vault ⟨primaryPassword, primaryJson, some (decoyPassword, decoyJson)⟩ := by
  simp only [createDuressVault, encryptDuressEnvelope, bind_eq_ok, okOr_eq_ok, pure_eq_ok] at h
  obtain ⟨salt1, -, nonce1, -, salt2, -, nonce2, -, headerBytes, hheader, envelope,
    ⟨primaryJson, hprimary, decoyJson, hdecoy, hencrypt⟩, ciphertext, henvelope, rfl⟩ := h
  exact ⟨primaryJson, decoyJson, hprimary, hdecoy, .dual hheader rfl henvelope hencrypt⟩

/-- A migration decrypts the old content under a header written anew, keeps the identity of the
vault, and seals the old content with the decoy. -/
theorem enableDuressOnVault_seals {fill1 fill2 : SysRngFill} {source vault : VaultFile}
    {primaryPassword decoyPassword : MasterPassword} {decoyPayload : VaultPayload}
    {kdf : VaultKdfPolicy}
    (h : enableDuressOnVault lib fill1 fill2 source primaryPassword decoyPassword decoyPayload
      kdf = .ok vault) :
    ∃ ciphertext headerBytes primaryJson decoyJson,
      source.storage = .encrypted ciphertext ∧
      lib.headerJson.toVec source.header = some headerBytes ∧
      decryptWithCryptoHeader lib headerBytes source.header.crypto ciphertext primaryPassword =
        .ok primaryJson ∧
      lib.payloadToVec decoyPayload = some decoyJson ∧
      Seals lib vault ⟨primaryPassword, primaryJson, some (decoyPassword, decoyJson)⟩ ∧
      vault.header.vaultId = source.header.vaultId ∧
      vault.header.schemaVersion = source.header.schemaVersion := by
  simp only [enableDuressOnVault, bind_eq_ok, okOr_eq_ok, mapError_eq_ok,
    decryptXchacha20poly1305, pure_eq_ok] at h
  obtain ⟨ciphertext, hstorage, -, -, key, hkey, headerBytes, hheader, primaryJson, hopen, -, -,
    decoyJson, hdecoy, salt1, -, nonce1, -, salt2, -, nonce2, -, newHeaderBytes, hnewHeader,
    envelope, hencrypt, newCiphertext, henvelope, rfl⟩ := h
  have hencrypted : source.storage = .encrypted ciphertext := by
    cases hsource : source.storage with
    | encrypted ct =>
        rw [hsource] at hstorage
        exact congrArg VaultStorage.encrypted (Except.ok.inj hstorage)
    | plaintextJson json =>
        rw [hsource] at hstorage
        cases hstorage
  exact ⟨ciphertext, headerBytes, primaryJson, decoyJson, hencrypted, hheader,
    (decryptWithCryptoHeader_eq_ok lib).mpr ⟨key, hkey, hopen⟩, hdecoy,
    .dual hnewHeader rfl henvelope hencrypt, rfl, rfl⟩

/-- Under a valid policy every content can be sealed. -/
theorem exists_sealed (hlib : lib.Ideal) {kdf : VaultKdfPolicy} (hkdf : kdf.Valid)
    (salt : Salt) (nonce : Nonce) (headerBytes : Bytes) (password : MasterPassword)
    (plaintext : Bytes) :
    ∃ ciphertext, Sealed lib headerBytes (kdf.cryptoHeader salt nonce) ciphertext password
      plaintext := by
  obtain ⟨key, hkey⟩ := hlib.argon2.exists_key_of_valid hkdf password salt
  obtain ⟨ciphertext, hct⟩ := Option.isSome_iff_exists.mp
    (hlib.aead.encrypt_isSome key nonce plaintext headerBytes)
  exact ⟨ciphertext, key, hkey, hct⟩

/-- Under a valid policy two readable contents can be put into an envelope. -/
theorem exists_envelope (hlib : lib.Ideal) {kdf : VaultKdfPolicy} (hkdf : kdf.Valid)
    (salt1 salt2 : Salt) (nonce1 nonce2 : Nonce) (headerBytes : Bytes)
    (primaryPassword decoyPassword : MasterPassword) {primaryJson decoyJson : Bytes}
    (hprimary : (lib.payloadFromSlice primaryJson).isSome)
    (hdecoy : (lib.payloadFromSlice decoyJson).isSome) :
    ∃ envelope, encryptDuressEnvelopeFromPlaintextJson lib headerBytes
      ⟨kdf.cryptoHeader salt1 nonce1, kdf.cryptoHeader salt2 nonce2⟩ primaryPassword decoyPassword
      primaryJson decoyJson = .ok envelope := by
  obtain ⟨primaryCt, hct⟩ :=
    exists_sealed hlib hkdf salt1 nonce1 headerBytes primaryPassword primaryJson
  obtain ⟨decoyCt, hct'⟩ :=
    exists_sealed hlib hkdf salt2 nonce2 headerBytes decoyPassword decoyJson
  exact ⟨⟨primaryCt, decoyCt⟩, (encryptDuressEnvelopeFromPlaintextJson_eq_ok lib).mpr
    ⟨hprimary, hdecoy, hct, hct'⟩⟩

/-- The JSON of a payload reads back as the payload, or not at all. -/
theorem payloadFromSlice_of_toVec (hlib : lib.Ideal) {payload : VaultPayload} {json : Bytes}
    (h : lib.payloadToVec payload = some json) :
    lib.payloadFromSlice json = if payload.Valid then some payload else none :=
  fromSlice_payload hlib.payloadJson h

/-- Under a valid policy two valid payloads can be put into a vault. -/
theorem exists_createDuressVault (hlib : lib.Ideal) {kdf : VaultKdfPolicy} (hkdf : kdf.Valid)
    (salt1 salt2 : Salt) (nonce1 nonce2 : Nonce) (vaultId : Uuid)
    (primaryPassword decoyPassword : MasterPassword) {primaryPayload decoyPayload : VaultPayload}
    (hprimary : primaryPayload.Valid) (hdecoy : decoyPayload.Valid) (schemaVersion : UInt16) :
    ∃ vault, createDuressVault lib ⟨some salt1, some nonce1⟩ ⟨some salt2, some nonce2⟩ vaultId
      primaryPassword decoyPassword primaryPayload decoyPayload schemaVersion kdf = .ok vault := by
  obtain ⟨primaryJson, hprimaryJson⟩ := exists_toVec_payload hlib.payloadJson primaryPayload
  obtain ⟨decoyJson, hdecoyJson⟩ := exists_toVec_payload hlib.payloadJson decoyPayload
  have hprimaryRead := payloadFromSlice_of_toVec hlib hprimaryJson
  have hdecoyRead := payloadFromSlice_of_toVec hlib hdecoyJson
  rw [if_pos hprimary] at hprimaryRead
  rw [if_pos hdecoy] at hdecoyRead
  let header : VaultHeader :=
    { schemaVersion := schemaVersion
      vaultId := vaultId
      crypto := kdf.cryptoHeader salt1 nonce1
      duress := some ⟨kdf.cryptoHeader salt1 nonce1, kdf.cryptoHeader salt2 nonce2⟩ }
  obtain ⟨headerBytes, hheader⟩ := hlib.headerJson.lawful.exists_toVec header
  obtain ⟨envelope, hencrypt⟩ := exists_envelope hlib hkdf salt1 salt2 nonce1 nonce2 headerBytes
    primaryPassword decoyPassword (Option.isSome_of_eq_some hprimaryRead)
    (Option.isSome_of_eq_some hdecoyRead)
  obtain ⟨ciphertext, henvelope⟩ := hlib.envelopeJson.exists_toVec envelope
  refine ⟨⟨header, .encrypted ciphertext⟩, ?_⟩
  simp only [createDuressVault, encryptDuressEnvelope, okOr_some, ok_bind, hheader, header,
    Libraries.payloadToVec, hprimaryJson, hdecoyJson, hencrypt, henvelope]
  rfl

end Lifecycle

/-! ## A sample vault -/

/-- The default policy. -/
def samplePolicy : VaultKdfPolicy := ⟨65536, 3, 1⟩

/-- A fill of the random generator with one byte throughout. -/
def sampleFill (b : UInt8) : SysRngFill :=
  ⟨some (Vector.replicate 32 b), some (Vector.replicate 24 b)⟩

theorem samplePolicy_valid : samplePolicy.Valid := by
  unfold VaultKdfPolicy.Valid
  decide

/-- A payload with one stored password. -/
def samplePayload : VaultPayload where
  entries :=
    [{ metadata := { id := 1, entryType := .password }
       secret :=
         { title := ⟨"bank".toList⟩, note := none, username := none, secret := ⟨"hunter2".toList⟩
           extra := none, totp := none } }]

theorem length_samplePayload_le : (payloadBytes samplePayload).length ≤ 1000 :=
  Nat.le_trans (length_toBytes_le _) (by decide)

/-- The sample vault holds the sample payload and an empty decoy. -/
theorem exists_sampleVault (primaryPassword decoyPassword : MasterPassword) :
    ∃ vault, createDuressVault symbolic (sampleFill 1) (sampleFill 2) 7 primaryPassword
      decoyPassword samplePayload ⟨[]⟩ 1 samplePolicy = .ok vault :=
  exists_createDuressVault symbolic_ideal samplePolicy_valid _ _ _ _ 7 primaryPassword
    decoyPassword (by decide) (by decide) 1

/-- A symbolic vault is not large. -/
theorem Seals.length_symbolic_le {vault : VaultFile}
    {primaryPassword decoyPassword : MasterPassword} {primaryJson decoyJson : Bytes}
    (h : Seals symbolic vault
      ⟨primaryPassword, primaryJson, some (decoyPassword, decoyJson)⟩) :
    vault.storage.payloadBytes.length ≤
      100000 + 8 * (primaryPassword.exposeBytes.length + decoyPassword.exposeBytes.length) +
        4 * (primaryJson.length + decoyJson.length) := by
  cases h with
  | dual hheader hduress henvelope hencrypt =>
      obtain ⟨-, -, hsealed, hsealed'⟩ :=
        (encryptDuressEnvelopeFromPlaintextJson_eq_ok symbolic).mp hencrypt
      have hheaderLen := symbolic_ideal.headerJson.length_le hheader
      have hmax : maxHeaderLen.toNat = 4096 := rfl
      have hprimary := hsealed.length_symbolic
      have hdecoy := hsealed'.length_symbolic
      cases henvelope
      exact Nat.le_trans (length_envelopeJson_le _) (by omega)

/-- Under two short passwords the sample vault seals its contents and fits into a container. -/
theorem exists_sealedSampleVault (primaryPassword decoyPassword : MasterPassword)
    (hprimaryLen : primaryPassword.exposeBytes.length ≤ 1000)
    (hdecoyLen : decoyPassword.exposeBytes.length ≤ 1000) :
    ∃ vault, createDuressVault symbolic (sampleFill 1) (sampleFill 2) 7 primaryPassword
        decoyPassword samplePayload ⟨[]⟩ 1 samplePolicy = .ok vault ∧
      Seals symbolic vault
        ⟨primaryPassword, payloadBytes samplePayload, some (decoyPassword, payloadBytes ⟨[]⟩)⟩ ∧
      vault.storage.payloadBytes.length ≤ maxVaultContainerPayloadLen.toNat := by
  obtain ⟨vault, hvault⟩ := exists_sampleVault primaryPassword decoyPassword
  obtain ⟨primaryJson, decoyJson, hprimary, hdecoy, hseals⟩ := createDuressVault_seals hvault
  obtain rfl : payloadBytes samplePayload = primaryJson := Option.some.inj hprimary
  obtain rfl : payloadBytes ⟨[]⟩ = decoyJson := Option.some.inj hdecoy
  have hcap : maxVaultContainerPayloadLen.toNat = 16777216 := rfl
  have hpayloadLen := length_samplePayload_le
  have hemptyLen : (payloadBytes ⟨[]⟩).length = 14 := by decide
  have hvaultLen := hseals.length_symbolic_le
  exact ⟨vault, hvault, hseals, by omega⟩

/-! ## The life cycle -/

/-- Every vault that the three constructors return opens, for every password, as the safe of
what it was made from. A migration keeps the content that it decrypted, byte for byte, and the
identity of the vault. -/
theorem constructed_vaults_open_as_safes {Key : Type} {lib : Libraries Key} (hlib : lib.Ideal) :
    (∀ (fill : SysRngFill) (vaultId : Uuid) (password : MasterPassword) (payload : VaultPayload)
        (schemaVersion : UInt16) (kdf : VaultKdfPolicy) (vault : VaultFile),
      createEncryptedVault lib fill vaultId password payload schemaVersion kdf = .ok vault →
      ∃ json, lib.payloadToVec payload = some json ∧
        OpensAs lib vault ⟨password, json, none⟩) ∧
    (∀ (fill1 fill2 : SysRngFill) (vaultId : Uuid) (primaryPassword decoyPassword : MasterPassword)
        (primaryPayload decoyPayload : VaultPayload) (schemaVersion : UInt16)
        (kdf : VaultKdfPolicy) (vault : VaultFile),
      createDuressVault lib fill1 fill2 vaultId primaryPassword decoyPassword primaryPayload
        decoyPayload schemaVersion kdf = .ok vault →
      ∃ primaryJson decoyJson, lib.payloadToVec primaryPayload = some primaryJson ∧
        lib.payloadToVec decoyPayload = some decoyJson ∧
        OpensAs lib vault ⟨primaryPassword, primaryJson, some (decoyPassword, decoyJson)⟩) ∧
    (∀ (fill1 fill2 : SysRngFill) (source vault : VaultFile)
        (primaryPassword decoyPassword : MasterPassword) (decoyPayload : VaultPayload)
        (kdf : VaultKdfPolicy),
      enableDuressOnVault lib fill1 fill2 source primaryPassword decoyPassword decoyPayload kdf =
        .ok vault →
      ∃ ciphertext headerBytes primaryJson decoyJson,
        source.storage = .encrypted ciphertext ∧
        lib.headerJson.toVec source.header = some headerBytes ∧
        decryptWithCryptoHeader lib headerBytes source.header.crypto ciphertext
          primaryPassword = .ok primaryJson ∧
        lib.payloadToVec decoyPayload = some decoyJson ∧
        OpensAs lib vault ⟨primaryPassword, primaryJson, some (decoyPassword, decoyJson)⟩ ∧
        vault.header.vaultId = source.header.vaultId ∧
        vault.header.schemaVersion = source.header.schemaVersion) := by
  refine ⟨?_, ?_, ?_⟩
  · intro fill vaultId password payload schemaVersion kdf vault h
    obtain ⟨json, hjson, hseals⟩ := createEncryptedVault_seals h
    exact ⟨json, hjson, hseals.opensAs hlib⟩
  · intro fill1 fill2 vaultId primaryPassword decoyPassword primaryPayload decoyPayload
      schemaVersion kdf vault h
    obtain ⟨primaryJson, decoyJson, hprimary, hdecoy, hseals⟩ := createDuressVault_seals h
    exact ⟨primaryJson, decoyJson, hprimary, hdecoy, hseals.opensAs hlib⟩
  · intro fill1 fill2 source vault primaryPassword decoyPassword decoyPayload kdf h
    obtain ⟨ciphertext, headerBytes, primaryJson, decoyJson, hstorage, hheader, hopen, hdecoy,
      hseals, hid, hversion⟩ := enableDuressOnVault_seals h
    exact ⟨ciphertext, headerBytes, primaryJson, decoyJson, hstorage, hheader, hopen, hdecoy,
      hseals.opensAs hlib, hid, hversion⟩

/-- The sample vault under two passwords opens as the safe of these. -/
theorem constructed_vaults_open_as_safes_sample :
    ∃ vault, createDuressVault symbolic (sampleFill 1) (sampleFill 2) 7 (samplePassword "north")
        (samplePassword "south") samplePayload ⟨[]⟩ 1 samplePolicy = .ok vault ∧
      OpensAs symbolic vault
        ⟨samplePassword "north", payloadBytes samplePayload,
          some (samplePassword "south", payloadBytes ⟨[]⟩)⟩ := by
  obtain ⟨vault, hvault⟩ := exists_sampleVault (samplePassword "north") (samplePassword "south")
  obtain ⟨primaryJson, decoyJson, hprimary, hdecoy, hopens⟩ :=
    (constructed_vaults_open_as_safes symbolic_ideal).2.1 _ _ _ _ _ _ _ _ _ vault hvault
  cases hprimary
  cases hdecoy
  exact ⟨vault, hvault, hopens⟩

end ViperVault
