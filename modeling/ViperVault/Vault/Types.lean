import ViperVault.Memory.Secret

/-!
# Vault containers

The types of `vault/types.rs` and the errors of `vault/error.rs`. The only I/O failure of a
container held in memory is its end, so that `VaultParseError::Io` has no content here.
-/

namespace ViperVault

/-- `[u8; SALT_LEN]`. -/
abbrev Salt : Type := Vector UInt8 32

/-- `[u8; XCHACHA20_NONCE_LEN]`. -/
abbrev Nonce : Type := Vector UInt8 24

/-- `MAGIC`, the bytes of `VLT1`. -/
def magic : Bytes := [0x56, 0x4C, 0x54, 0x31]

/-- `MAX_HEADER_LEN`. -/
def maxHeaderLen : UInt32 := 4096

/-- `KdfParams`. -/
inductive KdfParams
  | argon2id (memKib timeCost lanes : UInt32)
  deriving DecidableEq

/-- `AeadSuite`. -/
inductive AeadSuite
  | xChaCha20Poly1305
  deriving DecidableEq

/-- `CryptoHeader`. -/
structure CryptoHeader where
  kdf : KdfParams
  aead : AeadSuite
  salt : Salt
  nonce : Nonce
  deriving DecidableEq

/-- `DualVaultHeader`. -/
structure DualVaultHeader where
  primary : CryptoHeader
  decoy : CryptoHeader
  deriving DecidableEq

/-- `VaultHeader`. -/
structure VaultHeader where
  schemaVersion : UInt16
  vaultId : Uuid
  crypto : CryptoHeader
  duress : Option DualVaultHeader
  deriving DecidableEq

/-- `DualCiphertextEnvelope`. -/
structure DualCiphertextEnvelope where
  primaryCt : Bytes
  decoyCt : Bytes
  deriving DecidableEq

/-- `StorageMode`. -/
inductive StorageMode
  | encrypted
  | plaintextJson
  deriving DecidableEq

/-- The discriminant of a `StorageMode`. -/
def StorageMode.toByte : StorageMode → UInt8
  | .encrypted => 1
  | .plaintextJson => 2

/-- `VaultStorage`. -/
inductive VaultStorage
  | encrypted (ciphertext : Bytes)
  | plaintextJson (json : Bytes)
  deriving DecidableEq

/-- `VaultFile`. -/
structure VaultFile where
  header : VaultHeader
  storage : VaultStorage
  deriving DecidableEq

/-- `ParsedVaultFile`. -/
structure ParsedVaultFile where
  formatVersion : UInt16
  header : VaultHeader
  headerBytes : Bytes
  mode : StorageMode
  payload : Bytes
  deriving DecidableEq

/-- `VaultParseError`. -/
inductive VaultParseError
  | invalidMagic
  | unsupportedVersion
  | plaintextNotAllowed
  | unsupportedStorageMode
  | headerTooLarge
  | payloadTooLarge
  | ciphertextTooLarge
  | trailingBytes
  | invalidHeader
  | invalidPayload
  | authFailed
  | io
  | serialize
  | deserialize
  deriving DecidableEq

end ViperVault
