import ViperVault.Crypto.Primitives
import ViperVault.Entries.Dto
import ViperVault.Vault.Codec

/-!
# Primary and decoy ciphertexts

`vault/duress.rs` over the third-party code it calls. Both ciphertexts of an envelope are bound
to the header bytes as associated data. `Sealed` says what a ciphertext was made from; under
ideal primitives it opens with one password only.
-/

namespace ViperVault

open Foundation

/-- The third-party code under the vault functions. -/
structure Libraries (Key : Type) where
  argon2 : Argon2 Key
  aead : Aead Key
  headerJson : Serde VaultHeader
  envelopeJson : Serde DualCiphertextEnvelope
  payloadJson : Serde VaultPayloadDto

/-- Ideal primitives and lawful serialisers. -/
structure Libraries.Ideal {Key : Type} (lib : Libraries Key) : Prop where
  argon2 : lib.argon2.Ideal
  aead : lib.aead.Ideal
  headerJson : HeaderSerde.Ideal lib.headerJson
  envelopeJson : lib.envelopeJson.Lawful
  payloadJson : lib.payloadJson.Lawful

section Duress

variable {Key : Type} (lib : Libraries Key)

/-- The payload of plaintext JSON. -/
def Libraries.payloadFromSlice (json : Bytes) : Option VaultPayload :=
  (payloadSerde lib.payloadJson).fromSlice json

/-- The plaintext JSON of a payload. -/
def Libraries.payloadToVec (payload : VaultPayload) : Option Bytes :=
  (payloadSerde lib.payloadJson).toVec payload

/-- `validate_payload_json`. -/
def validatePayloadJson (plaintextJson : Bytes) : Except VaultParseError Unit := do
  let _payload ← okOr (lib.payloadFromSlice plaintextJson) .invalidPayload
  return ()

/-- `derive_master_key_from_password` with the parameters of a header. -/
def deriveKey (ch : CryptoHeader) (password : MasterPassword) : Except KdfError Key :=
  match ch.kdf with
  | .argon2id memKib timeCost lanes =>
      deriveMasterKeyFromPassword lib.argon2 password ch.salt memKib timeCost lanes

/-- `decrypt_with_crypto_header`. -/
def decryptWithCryptoHeader (headerBytes : Bytes) (ch : CryptoHeader) (ciphertext : Bytes)
    (password : MasterPassword) : Except VaultParseError Bytes := do
  let key ← (deriveKey lib ch password).mapError fun _ => .authFailed
  (decryptXchacha20poly1305 lib.aead key ch.nonce ciphertext headerBytes).mapError
    fun _ => .authFailed

/-- `encrypt_with_crypto_header`. -/
def encryptWithCryptoHeader (headerBytes : Bytes) (ch : CryptoHeader) (plaintext : Bytes)
    (password : MasterPassword) : Except VaultParseError Bytes := do
  let key ← (deriveKey lib ch password).mapError fun _ => .authFailed
  (encryptXchacha20poly1305 lib.aead key ch.nonce plaintext headerBytes).mapError
    fun _ => .authFailed

/-- `unlock_duress_envelope_to_plaintext_json`. -/
def unlockDuressEnvelopeToPlaintextJson (headerBytes : Bytes) (duressHeader : DualVaultHeader)
    (envelope : DualCiphertextEnvelope) (password : MasterPassword) :
    Except VaultParseError (UnlockOutcome × Bytes) :=
  match decryptWithCryptoHeader lib headerBytes duressHeader.primary envelope.primaryCt
      password with
  | .ok pt => do
      validatePayloadJson lib pt
      return (.primary, pt)
  | .error _ =>
      match decryptWithCryptoHeader lib headerBytes duressHeader.decoy envelope.decoyCt
          password with
      | .ok pt => do
          validatePayloadJson lib pt
          return (.decoy, pt)
      | .error _ => .error .authFailed

/-- `unlock_duress_envelope`. -/
def unlockDuressEnvelope (headerBytes : Bytes) (duressHeader : DualVaultHeader)
    (envelope : DualCiphertextEnvelope) (password : MasterPassword) :
    Except VaultParseError (UnlockOutcome × VaultPayload) := do
  let (outcome, plaintextJson) ←
    unlockDuressEnvelopeToPlaintextJson lib headerBytes duressHeader envelope password
  let payload ← okOr (lib.payloadFromSlice plaintextJson) .invalidPayload
  return (outcome, payload)

/-- `encrypt_duress_envelope_from_plaintext_json`. -/
def encryptDuressEnvelopeFromPlaintextJson (headerBytes : Bytes) (duressHeader : DualVaultHeader)
    (primaryPassword decoyPassword : MasterPassword)
    (primaryPlaintextJson decoyPlaintextJson : Bytes) :
    Except VaultParseError DualCiphertextEnvelope := do
  validatePayloadJson lib primaryPlaintextJson
  validatePayloadJson lib decoyPlaintextJson
  let primaryCt ← encryptWithCryptoHeader lib headerBytes duressHeader.primary
    primaryPlaintextJson primaryPassword
  let decoyCt ← encryptWithCryptoHeader lib headerBytes duressHeader.decoy
    decoyPlaintextJson decoyPassword
  return { primaryCt := primaryCt, decoyCt := decoyCt }

/-- `encrypt_duress_envelope`. -/
def encryptDuressEnvelope (headerBytes : Bytes) (duressHeader : DualVaultHeader)
    (primaryPassword decoyPassword : MasterPassword) (primaryPayload decoyPayload : VaultPayload) :
    Except VaultParseError DualCiphertextEnvelope := do
  let primaryPt ← okOr (lib.payloadToVec primaryPayload) .serialize
  let decoyPt ← okOr (lib.payloadToVec decoyPayload) .serialize
  encryptDuressEnvelopeFromPlaintextJson lib headerBytes duressHeader primaryPassword
    decoyPassword primaryPt decoyPt

/-! ## What a ciphertext was made from -/

/-- The ciphertext was made from the plaintext under the password, the parameters of the header
section and the header bytes. -/
def Sealed (headerBytes : Bytes) (ch : CryptoHeader) (ciphertext : Bytes)
    (password : MasterPassword) (plaintext : Bytes) : Prop :=
  ∃ key, deriveKey lib ch password = .ok key ∧
    lib.aead.encrypt key ch.nonce plaintext headerBytes = some ciphertext

theorem validatePayloadJson_eq_ok {json : Bytes} :
    validatePayloadJson lib json = .ok () ↔ (lib.payloadFromSlice json).isSome := by
  unfold validatePayloadJson
  cases h : lib.payloadFromSlice json with
  | none => simp
  | some payload => simp

/-- The JSON that an envelope is opened to is that of a payload. -/
theorem payloadFromSlice_of_unlockDuressEnvelope {headerBytes : Bytes}
    {duressHeader : DualVaultHeader} {envelope : DualCiphertextEnvelope}
    {password : MasterPassword} {outcome : UnlockOutcome} {json : Bytes}
    (h : unlockDuressEnvelopeToPlaintextJson lib headerBytes duressHeader envelope password =
      .ok (outcome, json)) : (lib.payloadFromSlice json).isSome := by
  unfold unlockDuressEnvelopeToPlaintextJson at h
  split at h
  · obtain ⟨hvalid, h⟩ := check_bind_eq_ok.mp h
    cases pure_eq_ok.mp h
    exact (validatePayloadJson_eq_ok lib).mp hvalid
  · split at h
    · obtain ⟨hvalid, h⟩ := check_bind_eq_ok.mp h
      cases pure_eq_ok.mp h
      exact (validatePayloadJson_eq_ok lib).mp hvalid
    · cases h

theorem encryptWithCryptoHeader_eq_ok {headerBytes : Bytes} {ch : CryptoHeader}
    {plaintext ciphertext : Bytes} {password : MasterPassword} :
    encryptWithCryptoHeader lib headerBytes ch plaintext password = .ok ciphertext ↔
      Sealed lib headerBytes ch ciphertext password plaintext := by
  simp [encryptWithCryptoHeader, encryptXchacha20poly1305, bind_eq_ok, Sealed]

/-- An envelope is made of two sealed ciphertexts of readable payloads. -/
theorem encryptDuressEnvelopeFromPlaintextJson_eq_ok {headerBytes : Bytes}
    {duressHeader : DualVaultHeader} {primaryPassword decoyPassword : MasterPassword}
    {primaryJson decoyJson : Bytes} {envelope : DualCiphertextEnvelope} :
    encryptDuressEnvelopeFromPlaintextJson lib headerBytes duressHeader primaryPassword
        decoyPassword primaryJson decoyJson = .ok envelope ↔
      (lib.payloadFromSlice primaryJson).isSome ∧ (lib.payloadFromSlice decoyJson).isSome ∧
      Sealed lib headerBytes duressHeader.primary envelope.primaryCt primaryPassword
        primaryJson ∧
      Sealed lib headerBytes duressHeader.decoy envelope.decoyCt decoyPassword decoyJson := by
  obtain ⟨envPrimary, envDecoy⟩ := envelope
  rw [encryptDuressEnvelopeFromPlaintextJson, check_bind_eq_ok, check_bind_eq_ok,
    validatePayloadJson_eq_ok, validatePayloadJson_eq_ok]
  simp only [bind_eq_ok, encryptWithCryptoHeader_eq_ok, pure_eq_ok,
    DualCiphertextEnvelope.mk.injEq]
  constructor
  · rintro ⟨hprimary, hdecoy, ct, hct, ct', hct', rfl, rfl⟩
    exact ⟨hprimary, hdecoy, hct, hct'⟩
  · rintro ⟨hprimary, hdecoy, hct, hct'⟩
    exact ⟨hprimary, hdecoy, envPrimary, hct, envDecoy, hct', rfl, rfl⟩

theorem decryptWithCryptoHeader_eq_ok {headerBytes : Bytes} {ch : CryptoHeader}
    {plaintext ciphertext : Bytes} {password : MasterPassword} :
    decryptWithCryptoHeader lib headerBytes ch ciphertext password = .ok plaintext ↔
      ∃ key, deriveKey lib ch password = .ok key ∧
        lib.aead.decrypt key ch.nonce ciphertext headerBytes = some plaintext := by
  simp [decryptWithCryptoHeader, decryptXchacha20poly1305, bind_eq_ok]

/-- The primary branch is reported when it opens, and the decoy only when it does not. -/
theorem unlockDuressEnvelopeToPlaintextJson_primary_iff {headerBytes : Bytes}
    {duressHeader : DualVaultHeader} {envelope : DualCiphertextEnvelope}
    {password : MasterPassword} {outcome : UnlockOutcome} {json : Bytes}
    (h : unlockDuressEnvelopeToPlaintextJson lib headerBytes duressHeader envelope password =
      .ok (outcome, json)) :
    outcome = .primary ↔ ∃ pt, decryptWithCryptoHeader lib headerBytes duressHeader.primary
      envelope.primaryCt password = .ok pt := by
  unfold unlockDuressEnvelopeToPlaintextJson at h
  cases hprimary : decryptWithCryptoHeader lib headerBytes duressHeader.primary
      envelope.primaryCt password with
  | ok pt =>
      simp only [hprimary, check_bind_eq_ok, pure_eq_ok, Prod.mk.injEq] at h
      simp [← h.2.1]
  | error e =>
      cases hdecoy : decryptWithCryptoHeader lib headerBytes duressHeader.decoy
          envelope.decoyCt password with
      | ok pt =>
          simp only [hprimary, hdecoy, check_bind_eq_ok, pure_eq_ok, Prod.mk.injEq] at h
          simp [← h.2.1]
      | error e => simp [hprimary, hdecoy] at h

variable {lib} (hlib : lib.Ideal)

include hlib

/-- A key was derived once, so every password has one. -/
theorem Sealed.exists_key {headerBytes : Bytes} {ch : CryptoHeader} {ciphertext : Bytes}
    {password : MasterPassword} {plaintext : Bytes}
    (h : Sealed lib headerBytes ch ciphertext password plaintext) (q : MasterPassword) :
    ∃ key, deriveKey lib ch q = .ok key := by
  obtain ⟨key, hkey, -⟩ := h
  exact hlib.argon2.exists_key hkey q ch.salt

/-- A sealed ciphertext opens under one password, to its plaintext. -/
theorem Sealed.decrypt_eq {headerBytes : Bytes} {ch : CryptoHeader} {ciphertext : Bytes}
    {password q : MasterPassword} {plaintext : Bytes} {key : Key}
    (h : Sealed lib headerBytes ch ciphertext password plaintext)
    (hkey : deriveKey lib ch q = .ok key) :
    lib.aead.decrypt key ch.nonce ciphertext headerBytes =
      if q = password then some plaintext else none := by
  obtain ⟨sealKey, hsealKey, hseal⟩ := h
  by_cases hq : q = password
  · subst hq
    have hsame : key = sealKey := Except.ok.inj (hkey.symm.trans hsealKey)
    rw [if_pos rfl, hsame]
    exact hlib.aead.decrypt_encrypt hseal
  · rw [if_neg hq]
    cases hopen : lib.aead.decrypt key ch.nonce ciphertext headerBytes with
    | none => rfl
    | some pt =>
        obtain ⟨hsame, -, -⟩ := (hlib.aead.decrypt_eq_some_iff hseal).mp hopen
        subst hsame
        exact absurd (hlib.argon2.password_eq hkey hsealKey) hq

/-- The branch of an envelope opens under one password, and fails under the others. -/
theorem Sealed.decryptWithCryptoHeader_eq {headerBytes : Bytes} {ch : CryptoHeader}
    {ciphertext : Bytes} {password : MasterPassword} {plaintext : Bytes}
    (h : Sealed lib headerBytes ch ciphertext password plaintext) (q : MasterPassword) :
    decryptWithCryptoHeader lib headerBytes ch ciphertext q =
      if q = password then .ok plaintext else .error .authFailed := by
  obtain ⟨key, hkey⟩ := h.exists_key hlib q
  have hopen := h.decrypt_eq hlib hkey
  unfold decryptWithCryptoHeader decryptXchacha20poly1305
  rw [hkey, mapError_ok, ok_bind, hopen]
  split
  · rfl
  · rfl

/-- What opens was sealed. -/
theorem decryptWithCryptoHeader_eq_ok_iff_sealed {headerBytes : Bytes} {ch : CryptoHeader}
    {ciphertext : Bytes} {password : MasterPassword} {plaintext : Bytes} :
    decryptWithCryptoHeader lib headerBytes ch ciphertext password = .ok plaintext ↔
      Sealed lib headerBytes ch ciphertext password plaintext := by
  rw [decryptWithCryptoHeader_eq_ok]
  constructor
  · rintro ⟨key, hkey, hopen⟩
    exact ⟨key, hkey, hlib.aead.encrypt_of_decrypt hopen⟩
  · rintro ⟨key, hkey, hseal⟩
    exact ⟨key, hkey, hlib.aead.decrypt_encrypt hseal⟩

/-- A ciphertext is bound to one text of its header. -/
theorem Sealed.headerBytes_eq {headerBytes headerBytes' : Bytes} {ch : CryptoHeader}
    {ciphertext : Bytes} {password password' : MasterPassword} {plaintext plaintext' : Bytes}
    (h : Sealed lib headerBytes ch ciphertext password plaintext)
    (h' : Sealed lib headerBytes' ch ciphertext password' plaintext') :
    headerBytes = headerBytes' := by
  obtain ⟨key, -, hseal⟩ := h
  obtain ⟨key', -, hseal'⟩ := h'
  exact (hlib.aead.encrypt_inj hseal hseal').2

end Duress

end ViperVault
