import ViperVault.Core.Concurrent
import ViperVault.Vault.Lifecycle

/-!
# Biometric unlock

`core/biometrics.rs`: a backend releases a master key that was stored before, and the key opens the
vault without a password. What a biometric unlock does to the manager is the unlock call that it
makes. The answer of the live probe of the process is an argument.
-/

namespace ViperVault

open Foundation

/-- `BiometricError`. -/
inductive BiometricError
  | policyDenied
  | unavailable
  | authFailed
  | invalidResponse
  | notSupported
  deriving DecidableEq

/-- What a `BiometricBackend` answers. -/
structure BiometricBackend (Key : Type) where
  isAvailable : Bool
  unsealMasterKey : Bytes → Except BiometricError Key

/-- `unlock_with_plaintext_json_with_strength`, where the probe answered `probe`. -/
def UnlockRequest.withStrength (plaintextJson : Bytes) (timeout : Nat)
    (authStrength : AuthenticationStrength) (probe : RuntimeInspectionState) : UnlockRequest where
  plaintextJson := plaintextJson
  timeout := timeout
  authStrength := authStrength
  unlockOutcome := .primary
  runtimeState := probe

section Unlock

variable {Key : Type} (lib : Libraries Key)

/-- `unlock_vault_to_plaintext_json_with_master_key`. -/
def unlockVaultToPlaintextJsonWithMasterKey (parsed : ParsedVaultFile) (masterKey : Key) :
    Except BiometricError Bytes := do
  failIf (parsed.mode ≠ .encrypted) .authFailed
  failIf (parsed.header.duress.isSome = true) .notSupported
  (decryptXchacha20poly1305 lib.aead masterKey parsed.header.crypto.nonce parsed.payload
    parsed.headerBytes).mapError fun _ => .authFailed

/-- `unlock_with_master_key`, up to the unlock call that it makes. -/
def unlockWithMasterKey (policy : PolicyContext) (parsed : ParsedVaultFile) (masterKey : Key)
    (timeout : Nat) (probe : RuntimeInspectionState) : Except BiometricError UnlockRequest := do
  failIf (policy.allowBiometricUnlock = false) .policyDenied
  let plaintextJson ← unlockVaultToPlaintextJsonWithMasterKey lib parsed masterKey
  return .withStrength plaintextJson timeout .biometric probe

/-- `unlock_with_biometrics`, up to the unlock call that it makes. -/
def unlockWithBiometrics (policy : PolicyContext) (parsed : ParsedVaultFile)
    (backend : BiometricBackend Key) (vaultId : Bytes) (timeout : Nat)
    (probe : RuntimeInspectionState) : Except BiometricError UnlockRequest := do
  failIf (policy.allowBiometricUnlock = false) .policyDenied
  failIf (backend.isAvailable = false) .unavailable
  let masterKey ← backend.unsealMasterKey vaultId
  unlockWithMasterKey lib policy parsed masterKey timeout probe

variable {lib} {parsed : ParsedVaultFile} {masterKey : Key}

theorem unlockVaultToPlaintextJsonWithMasterKey_eq_ok {json : Bytes} :
    unlockVaultToPlaintextJsonWithMasterKey lib parsed masterKey = .ok json ↔
      parsed.mode = .encrypted ∧ parsed.header.duress = none ∧
        lib.aead.decrypt masterKey parsed.header.crypto.nonce parsed.payload parsed.headerBytes =
          some json := by
  simp only [unlockVaultToPlaintextJsonWithMasterKey, check_bind_eq_ok, failIf_eq_ok,
    mapError_eq_ok, decryptXchacha20poly1305, okOr_eq_ok, ne_eq, not_not, Bool.not_eq_true,
    Option.isSome_eq_false_iff, Option.isNone_iff_eq_none]

/-- A biometric unlock that gets to the manager asks for a weak session on the primary content. -/
theorem unlockWithBiometrics_eq_ok {policy : PolicyContext} {backend : BiometricBackend Key}
    {vaultId : Bytes} {timeout : Nat} {probe : RuntimeInspectionState} {request : UnlockRequest} :
    unlockWithBiometrics lib policy parsed backend vaultId timeout probe = .ok request ↔
      policy.allowBiometricUnlock = true ∧ backend.isAvailable = true ∧
        ∃ masterKey json, backend.unsealMasterKey vaultId = .ok masterKey ∧
          unlockVaultToPlaintextJsonWithMasterKey lib parsed masterKey = .ok json ∧
          request = .withStrength json timeout .biometric probe := by
  simp only [unlockWithBiometrics, unlockWithMasterKey, failIf_eq_ok, bind_eq_ok, pure_eq_ok,
    Bool.not_eq_false]
  constructor
  · rintro ⟨-, hpolicy, -, havailable, masterKey, hkey, -, -, json, hjson, rfl⟩
    exact ⟨hpolicy, havailable, masterKey, json, hkey, hjson, rfl⟩
  · rintro ⟨hpolicy, havailable, masterKey, json, hkey, hjson, rfl⟩
    exact ⟨(), hpolicy, (), havailable, masterKey, hkey, (), hpolicy, json, hjson, rfl⟩

/-! ## Keys and passwords -/

/-- A key that was derived from a password opens what the password opens, unless there is a
decoy. -/
theorem unlockVaultToPlaintextJsonWithMasterKey_iff {password : MasterPassword} {json : Bytes}
    (hkey : deriveKey lib parsed.header.crypto password = .ok masterKey) :
    unlockVaultToPlaintextJsonWithMasterKey lib parsed masterKey = .ok json ↔
      parsed.header.duress = none ∧
        unlockVaultToPlaintextJsonWithOutcome lib parsed password = .ok (.primary, json) := by
  rw [unlockVaultToPlaintextJsonWithMasterKey_eq_ok]
  constructor
  · rintro ⟨hmode, hduress, hopen⟩
    refine ⟨hduress, (unlockVaultToPlaintextJsonWithOutcome_eq_ok lib hmode hduress).mpr ⟨rfl, ?_⟩⟩
    exact (decryptWithCryptoHeader_eq_ok lib).mpr ⟨masterKey, hkey, hopen⟩
  · rintro ⟨hduress, hunlock⟩
    have hmode : parsed.mode = .encrypted := by
      by_contra hmode
      simp [unlockVaultToPlaintextJsonWithOutcome, failIf, hmode] at hunlock
    obtain ⟨-, hopen⟩ :=
      (unlockVaultToPlaintextJsonWithOutcome_eq_ok lib hmode hduress).mp hunlock
    obtain ⟨key, hderive, hdecrypt⟩ := (decryptWithCryptoHeader_eq_ok lib).mp hopen
    rw [hkey] at hderive
    cases hderive
    exact ⟨hmode, hduress, hdecrypt⟩

variable (lib) in
/-- A biometric unlock opens the primary content of a vault without a decoy, and with the key that
is derived from its password; it asks for a weak session then. -/
def OpensByKey (parsed : ParsedVaultFile) (safe : Safe) : Prop :=
  ∀ (policy : PolicyContext) (backend : BiometricBackend Key) (vaultId : Bytes) (timeout : Nat)
    (probe : RuntimeInspectionState) (request : UnlockRequest),
    unlockWithBiometrics lib policy parsed backend vaultId timeout probe = .ok request ↔
      policy.allowBiometricUnlock = true ∧ backend.isAvailable = true ∧ safe.decoy = none ∧
        (∃ masterKey, backend.unsealMasterKey vaultId = .ok masterKey ∧
          deriveKey lib parsed.header.crypto safe.primaryPassword = .ok masterKey) ∧
        request = .withStrength safe.primaryPlaintext timeout .biometric probe

/-- What the key of a sealed vault is, and what it opens. -/
theorem Seals.unlockWithMasterKey_eq_ok (hlib : lib.Ideal) {vault : VaultFile} {safe : Safe}
    (h : Seals lib vault safe) {headerBytes : Bytes}
    (hheaderBytes : lib.headerJson.toVec vault.header = some headerBytes) (formatVersion : UInt16)
    (key : Key) (json : Bytes) :
    unlockVaultToPlaintextJsonWithMasterKey lib
        { formatVersion := formatVersion
          header := vault.header
          headerBytes := headerBytes
          mode := .encrypted
          payload := vault.storage.payloadBytes } key = .ok json ↔
      safe.decoy = none ∧ deriveKey lib vault.header.crypto safe.primaryPassword = .ok key ∧
        json = safe.primaryPlaintext := by
  rw [unlockVaultToPlaintextJsonWithMasterKey_eq_ok]
  cases h with
  | single hheader hduress hsealed =>
      cases Option.some.inj (hheader.symm.trans hheaderBytes)
      obtain ⟨sealKey, hsealKey, hencrypt⟩ := hsealed
      simp only [hduress, VaultStorage.payloadBytes, true_and,
        hlib.aead.decrypt_eq_some_iff hencrypt, hsealKey, Except.ok.injEq]
      constructor
      · rintro ⟨rfl, rfl⟩
        exact ⟨rfl, rfl⟩
      · rintro ⟨rfl, rfl⟩
        exact ⟨rfl, rfl⟩
  | dual hheader hduress henvelope hencrypt => simp [hduress]

/-- What is read back of a sealed vault is its header, with its bytes, and its payload. -/
theorem Seals.readBack (hlib : lib.Ideal) {vault : VaultFile} {safe : Safe}
    (h : Seals lib vault safe) {P : ParsedVaultFile → Prop}
    (hP : ∀ headerBytes formatVersion, lib.headerJson.toVec vault.header = some headerBytes →
      P { formatVersion := formatVersion
          header := vault.header
          headerBytes := headerBytes
          mode := .encrypted
          payload := vault.storage.payloadBytes }) : ReadBack lib vault P := by
  intro probe probe' formatVersion expectedFormatVersion maxPayloadLen allowPlaintext hversion
    hexpected hlen
  obtain ⟨headerBytes, hheader⟩ := hlib.headerJson.lawful.exists_toVec vault.header
  obtain ⟨ciphertext, hstorage⟩ : ∃ ciphertext, vault.storage = .encrypted ciphertext := by
    cases h with
    | single => exact ⟨_, rfl⟩
    | dual => exact ⟨_, rfl⟩
  have hencode := hlib.headerJson.encode_encrypted probe hheader ciphertext hversion
  have hpayload : vault.storage.payloadBytes = ciphertext := by rw [hstorage]; rfl
  rw [← hstorage, ← hpayload] at hencode
  have hdecode := decodeVaultFile_containerBytes lib.headerJson probe' allowPlaintext hversion
    hexpected (hlib.headerJson.lawful.fromSlice_toVec _ _ hheader)
    (hlib.headerJson.length_le hheader) hlen
  exact ⟨_, _, hencode, hdecode, hP headerBytes formatVersion hheader⟩

theorem Seals.opensByKey (hlib : lib.Ideal) {vault : VaultFile} {safe : Safe}
    (h : Seals lib vault safe) : ReadBack lib vault fun parsed => OpensByKey lib parsed safe := by
  apply h.readBack hlib
  intro headerBytes formatVersion hheader policy backend vaultId timeout probe request
  rw [unlockWithBiometrics_eq_ok]
  constructor
  · rintro ⟨hpolicy, havailable, key, json, hunseal, hjson, rfl⟩
    obtain ⟨hdecoy, hderive, rfl⟩ :=
      (h.unlockWithMasterKey_eq_ok hlib hheader formatVersion key json).mp hjson
    exact ⟨hpolicy, havailable, hdecoy, ⟨key, hunseal, hderive⟩, rfl⟩
  · rintro ⟨hpolicy, havailable, hdecoy, ⟨key, hunseal, hderive⟩, rfl⟩
    refine ⟨hpolicy, havailable, key, _, hunseal, ?_, rfl⟩
    exact (h.unlockWithMasterKey_eq_ok hlib hheader formatVersion key _).mpr
      ⟨hdecoy, hderive, rfl⟩

/-- Under a valid policy every payload can be put into a vault. -/
theorem exists_createEncryptedVault (hlib : lib.Ideal) {kdf : VaultKdfPolicy} (hkdf : kdf.Valid)
    (salt : Salt) (nonce : Nonce) (vaultId : Uuid) (password : MasterPassword)
    (payload : VaultPayload) (schemaVersion : UInt16) :
    ∃ vault, createEncryptedVault lib ⟨some salt, some nonce⟩ vaultId password payload
      schemaVersion kdf = .ok vault := by
  obtain ⟨json, hjson⟩ := exists_toVec_payload hlib.payloadJson payload
  let header : VaultHeader :=
    { schemaVersion := schemaVersion
      vaultId := vaultId
      crypto := kdf.cryptoHeader salt nonce
      duress := none }
  obtain ⟨headerBytes, hheader⟩ := hlib.headerJson.lawful.exists_toVec header
  obtain ⟨ciphertext, key, hkey, hct⟩ :=
    exists_sealed hlib hkdf salt nonce headerBytes password json
  have hderive : deriveMasterKeyFromPassword lib.argon2 password salt kdf.memKib kdf.timeCost
      kdf.lanes = .ok key := hkey
  have hencrypt : lib.aead.encrypt key nonce json headerBytes = some ciphertext := hct
  refine ⟨⟨header, .encrypted ciphertext⟩, ?_⟩
  simp only [createEncryptedVault, okOr_some, ok_bind, header, hheader, hderive, mapError_ok,
    Libraries.payloadToVec, hjson, encryptXchacha20poly1305, hencrypt]
  rfl

/-- Biometric unlock and password unlock agree: a key that was derived from a password opens what
the password opens where there is no decoy, and nothing else; and every vault that was made of a
safe opens by key, once it was written and read back, as its primary content if it has no decoy,
with the key of its primary password, and not otherwise. -/
theorem biometric_unlock_agrees (hlib : lib.Ideal) :
    (∀ (parsed : ParsedVaultFile) (password : MasterPassword) (masterKey : Key) (json : Bytes),
      deriveKey lib parsed.header.crypto password = .ok masterKey →
      (unlockVaultToPlaintextJsonWithMasterKey lib parsed masterKey = .ok json ↔
        parsed.header.duress = none ∧
          unlockVaultToPlaintextJsonWithOutcome lib parsed password = .ok (.primary, json))) ∧
    ∀ (vault : VaultFile) (safe : Safe), Seals lib vault safe →
      ReadBack lib vault fun parsed => OpensByKey lib parsed safe := by
  constructor
  · intro parsed password masterKey json hkey
    exact unlockVaultToPlaintextJsonWithMasterKey_iff hkey
  · intro vault safe hseals
    exact hseals.opensByKey hlib

end Unlock

/-- The theorem on a vault with the sample payload. -/
theorem biometric_unlock_agrees_sample :
    ∃ vault json, createEncryptedVault symbolic (sampleFill 1) 7 (samplePassword "north")
        samplePayload 1 samplePolicy = .ok vault ∧
      ReadBack symbolic vault fun parsed =>
        OpensByKey symbolic parsed ⟨samplePassword "north", json, none⟩ := by
  obtain ⟨vault, hvault⟩ := exists_createEncryptedVault symbolic_ideal samplePolicy_valid
    (Vector.replicate 32 1) (Vector.replicate 24 1) 7 (samplePassword "north") samplePayload 1
  obtain ⟨json, -, hseals⟩ := createEncryptedVault_seals hvault
  exact ⟨vault, json, hvault, (biometric_unlock_agrees symbolic_ideal).2 vault _ hseals⟩

end ViperVault
