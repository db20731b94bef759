import ViperVault.Vault.Duress

/-!
# Creation and migration of vaults

`vault/create.rs` and `vault/migrate.rs`. The answers of the system's random generator and the
identifier of a new vault are arguments.
-/

namespace ViperVault

open Foundation

/-- `VaultKdfPolicy`. -/
structure VaultKdfPolicy where
  memKib : UInt32
  timeCost : UInt32
  lanes : UInt32
  deriving DecidableEq

/-- `VaultKdfPolicy::as_kdf_params`. -/
def VaultKdfPolicy.asKdfParams (kdf : VaultKdfPolicy) : KdfParams :=
  .argon2id kdf.memKib kdf.timeCost kdf.lanes

/-- The policy is within the bounds of `validate_argon2id_params`. -/
def VaultKdfPolicy.Valid (kdf : VaultKdfPolicy) : Prop :=
  validateArgon2idParams kdf.memKib kdf.timeCost kdf.lanes = .ok ()

/-- The answers of `SysRng::try_fill_bytes` for the salt and the nonce of a header section. -/
structure SysRngFill where
  salt : Option Salt
  nonce : Option Nonce

/-- The header section of a policy with a salt and a nonce. -/
def VaultKdfPolicy.cryptoHeader (kdf : VaultKdfPolicy) (salt : Salt) (nonce : Nonce) :
    CryptoHeader where
  kdf := kdf.asKdfParams
  aead := .xChaCha20Poly1305
  salt := salt
  nonce := nonce

section Create

variable {Key : Type} (lib : Libraries Key)

/-- `create_encrypted_vault`. -/
def createEncryptedVault (fill : SysRngFill) (vaultId : Uuid) (password : MasterPassword)
    (payload : VaultPayload) (schemaVersion : UInt16) (kdf : VaultKdfPolicy) :
    Except VaultParseError VaultFile := do
  let salt ← okOr fill.salt .serialize
  let nonce ← okOr fill.nonce .serialize
  let crypto := kdf.cryptoHeader salt nonce
  let header : VaultHeader :=
    { schemaVersion := schemaVersion
      vaultId := vaultId
      crypto := crypto
      duress := none }
  let headerBytes ← okOr (lib.headerJson.toVec header) .serialize
  let masterKey ← (deriveMasterKeyFromPassword lib.argon2 password salt kdf.memKib kdf.timeCost
    kdf.lanes).mapError fun _ => .invalidHeader
  let plaintext ← okOr (lib.payloadToVec payload) .serialize
  let ciphertext ← (encryptXchacha20poly1305 lib.aead masterKey nonce plaintext
    headerBytes).mapError fun _ => .serialize
  return { header := header, storage := .encrypted ciphertext }

/-- `create_duress_vault`. -/
def createDuressVault (fill1 fill2 : SysRngFill) (vaultId : Uuid)
    (primaryPassword decoyPassword : MasterPassword) (primaryPayload decoyPayload : VaultPayload)
    (schemaVersion : UInt16) (kdf : VaultKdfPolicy) : Except VaultParseError VaultFile := do
  let salt1 ← okOr fill1.salt .serialize
  let nonce1 ← okOr fill1.nonce .serialize
  let salt2 ← okOr fill2.salt .serialize
  let nonce2 ← okOr fill2.nonce .serialize
  let duressHeader : DualVaultHeader :=
    { primary := kdf.cryptoHeader salt1 nonce1
      decoy := kdf.cryptoHeader salt2 nonce2 }
  let header : VaultHeader :=
    { schemaVersion := schemaVersion
      vaultId := vaultId
      crypto := duressHeader.primary
      duress := some duressHeader }
  let headerBytes ← okOr (lib.headerJson.toVec header) .serialize
  let envelope ← encryptDuressEnvelope lib headerBytes duressHeader primaryPassword decoyPassword
    primaryPayload decoyPayload
  let ciphertext ← okOr (lib.envelopeJson.toVec envelope) .serialize
  return { header := header, storage := .encrypted ciphertext }

/-- The ciphertext of an encrypted storage, which a migration requires. -/
def VaultStorage.encryptedCiphertext : VaultStorage → Except VaultParseError Bytes
  | .encrypted ciphertext => .ok ciphertext
  | .plaintextJson _ => .error .invalidHeader

/-- `enable_duress_on_vault`. The header is written anew to get the associated data of the old
ciphertext. -/
def enableDuressOnVault (fill1 fill2 : SysRngFill) (vault : VaultFile)
    (primaryPassword decoyPassword : MasterPassword) (decoyPayload : VaultPayload)
    (kdf : VaultKdfPolicy) : Except VaultParseError VaultFile := do
  let legacyCiphertext ← vault.storage.encryptedCiphertext
  failIf (vault.header.duress.isSome = true) .invalidHeader
  let primaryKey ← (deriveKey lib vault.header.crypto primaryPassword).mapError
    fun _ => .authFailed
  let legacyHeaderBytes ← okOr (lib.headerJson.toVec vault.header) .serialize
  let primaryPlaintextJson ← (decryptXchacha20poly1305 lib.aead primaryKey
    vault.header.crypto.nonce legacyCiphertext legacyHeaderBytes).mapError fun _ => .authFailed
  let _validatedPrimaryPayload ← okOr (lib.payloadFromSlice primaryPlaintextJson) .invalidPayload
  let decoyPlaintextJson ← okOr (lib.payloadToVec decoyPayload) .serialize
  let salt1 ← okOr fill1.salt .serialize
  let nonce1 ← okOr fill1.nonce .serialize
  let salt2 ← okOr fill2.salt .serialize
  let nonce2 ← okOr fill2.nonce .serialize
  let duressHeader : DualVaultHeader :=
    { primary := kdf.cryptoHeader salt1 nonce1
      decoy := kdf.cryptoHeader salt2 nonce2 }
  let newHeader : VaultHeader :=
    { schemaVersion := vault.header.schemaVersion
      vaultId := vault.header.vaultId
      crypto := duressHeader.primary
      duress := some duressHeader }
  let headerBytes ← okOr (lib.headerJson.toVec newHeader) .serialize
  let envelope ← encryptDuressEnvelopeFromPlaintextJson lib headerBytes duressHeader
    primaryPassword decoyPassword primaryPlaintextJson decoyPlaintextJson
  let ciphertext ← okOr (lib.envelopeJson.toVec envelope) .serialize
  return { header := newHeader, storage := .encrypted ciphertext }

end Create

end ViperVault
