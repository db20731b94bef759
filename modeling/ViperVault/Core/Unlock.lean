import ViperVault.Vault.Duress

/-!
# Unlock flows

The ungated functions of `core/unlock.rs`. The associated data are the header bytes as they
were stored.
-/

namespace ViperVault

open Foundation

/-- `UnlockError`. -/
inductive UnlockError
  | parse (e : VaultParseError)
  | kdf (e : KdfError)
  | authFailed
  | payloadDecode
  | internal
  deriving DecidableEq

section Unlock

variable {Key : Type} (lib : Libraries Key)

/-- `unlock_vault_to_plaintext_json_with_outcome`. -/
def unlockVaultToPlaintextJsonWithOutcome (parsed : ParsedVaultFile)
    (password : MasterPassword) : Except UnlockError (UnlockOutcome × Bytes) := do
  failIf (parsed.mode ≠ .encrypted) .authFailed
  match parsed.header.duress with
  | some duressHeader =>
      let envelope ← okOr (lib.envelopeJson.fromSlice parsed.payload) .payloadDecode
      (unlockDuressEnvelopeToPlaintextJson lib parsed.headerBytes duressHeader envelope
        password).mapError fun _ => .authFailed
  | none =>
      let masterKey ← (deriveKey lib parsed.header.crypto password).mapError .kdf
      let plaintextJson ← (decryptXchacha20poly1305 lib.aead masterKey
        parsed.header.crypto.nonce parsed.payload parsed.headerBytes).mapError fun _ => .authFailed
      return (.primary, plaintextJson)

/-- `unlock_vault_to_plaintext_json`. -/
def unlockVaultToPlaintextJson (parsed : ParsedVaultFile) (password : MasterPassword) :
    Except UnlockError Bytes := do
  let (_outcome, plaintextJson) ← unlockVaultToPlaintextJsonWithOutcome lib parsed password
  return plaintextJson

/-- `unlock_vault`. -/
def unlockVault (parsed : ParsedVaultFile) (password : MasterPassword) :
    Except UnlockError VaultPayload := do
  let plaintext ← unlockVaultToPlaintextJson lib parsed password
  okOr (lib.payloadFromSlice plaintext) .payloadDecode

/-- `unlock_vault_with_outcome`. -/
def unlockVaultWithOutcome (parsed : ParsedVaultFile) (password : MasterPassword) :
    Except UnlockError (UnlockOutcome × VaultPayload) := do
  failIf (parsed.mode ≠ .encrypted) .authFailed
  match parsed.header.duress with
  | some duressHeader =>
      let envelope ← okOr (lib.envelopeJson.fromSlice parsed.payload) .payloadDecode
      (unlockDuressEnvelope lib parsed.headerBytes duressHeader envelope password).mapError
        fun _ => .authFailed
  | none =>
      let payload ← unlockVault lib parsed password
      return (.primary, payload)

theorem unlockVaultToPlaintextJsonWithOutcome_of_duress {parsed : ParsedVaultFile}
    {duressHeader : DualVaultHeader} {envelope : DualCiphertextEnvelope}
    (hmode : parsed.mode = .encrypted) (hduress : parsed.header.duress = some duressHeader)
    (henvelope : lib.envelopeJson.fromSlice parsed.payload = some envelope)
    (password : MasterPassword) :
    unlockVaultToPlaintextJsonWithOutcome lib parsed password =
      (unlockDuressEnvelopeToPlaintextJson lib parsed.headerBytes duressHeader envelope
        password).mapError fun _ => .authFailed := by
  simp [unlockVaultToPlaintextJsonWithOutcome, failIf, hmode, hduress, henvelope]

/-- Without a decoy, unlocking is one decryption under the header's own parameters. -/
theorem unlockVaultToPlaintextJsonWithOutcome_eq_ok {parsed : ParsedVaultFile}
    (hmode : parsed.mode = .encrypted) (hduress : parsed.header.duress = none)
    {password : MasterPassword} {outcome : UnlockOutcome} {plaintext : Bytes} :
    unlockVaultToPlaintextJsonWithOutcome lib parsed password = .ok (outcome, plaintext) ↔
      outcome = .primary ∧
      decryptWithCryptoHeader lib parsed.headerBytes parsed.header.crypto parsed.payload password =
        .ok plaintext := by
  rw [unlockVaultToPlaintextJsonWithOutcome, check_bind_eq_ok, decryptWithCryptoHeader_eq_ok]
  simp only [hmode, hduress, ne_eq, not_true_eq_false, failIf_eq_ok, not_false_eq_true, true_and,
    bind_eq_ok, mapError_eq_ok, decryptXchacha20poly1305, okOr_eq_ok, pure_eq_ok, Prod.mk.injEq]
  constructor
  · rintro ⟨key, hkey, pt, hpt, rfl, rfl⟩
    exact ⟨rfl, key, hkey, hpt⟩
  · rintro ⟨rfl, key, hkey, hpt⟩
    exact ⟨key, hkey, plaintext, hpt, rfl, rfl⟩

theorem unlockVault_eq_ok {parsed : ParsedVaultFile} (hmode : parsed.mode = .encrypted)
    (hduress : parsed.header.duress = none) {password : MasterPassword}
    {payload : VaultPayload} :
    unlockVault lib parsed password = .ok payload ↔
      ∃ plaintext, decryptWithCryptoHeader lib parsed.headerBytes parsed.header.crypto
          parsed.payload password = .ok plaintext ∧
        lib.payloadFromSlice plaintext = some payload := by
  simp only [unlockVault, unlockVaultToPlaintextJson, bind_eq_ok, pure_eq_ok, okOr_eq_ok,
    Prod.exists, unlockVaultToPlaintextJsonWithOutcome_eq_ok lib hmode hduress]
  constructor
  · rintro ⟨plaintext, ⟨outcome, plaintext', ⟨-, hopen⟩, rfl⟩, hread⟩
    exact ⟨plaintext', hopen, hread⟩
  · rintro ⟨plaintext, hopen, hread⟩
    exact ⟨plaintext, ⟨.primary, plaintext, ⟨rfl, hopen⟩, rfl⟩, hread⟩

/-! ## The entry points agree -/

variable (parsed : ParsedVaultFile) (password : MasterPassword)

/-- The payload of an unlock is that of its plaintext JSON. In the duress branch the JSON has been
validated, so the decoding that is mapped to `AuthFailed` there does not fail. -/
theorem unlockVaultWithOutcome_eq :
    unlockVaultWithOutcome lib parsed password = do
      let (outcome, plaintextJson) ← unlockVaultToPlaintextJsonWithOutcome lib parsed password
      let payload ← okOr (lib.payloadFromSlice plaintextJson) .payloadDecode
      return (outcome, payload) := by
  by_cases hmode : parsed.mode = .encrypted
  · cases hduress : parsed.header.duress with
    | none =>
        simp only [unlockVaultWithOutcome, unlockVault, unlockVaultToPlaintextJson,
          unlockVaultToPlaintextJsonWithOutcome, failIf, hmode, hduress, ne_eq, not_true_eq_false,
          if_false, ok_bind]
        cases (deriveKey lib parsed.header.crypto password).mapError UnlockError.kdf with
        | error e => rfl
        | ok key =>
            simp only [ok_bind]
            cases decryptXchacha20poly1305 lib.aead key parsed.header.crypto.nonce parsed.payload
                parsed.headerBytes with
            | error e => rfl
            | ok json => rfl
    | some duressHeader =>
        simp only [unlockVaultWithOutcome, unlockVaultToPlaintextJsonWithOutcome, failIf, hmode,
          hduress, ne_eq, not_true_eq_false, if_false, ok_bind]
        cases lib.envelopeJson.fromSlice parsed.payload with
        | none => rfl
        | some envelope =>
            simp only [okOr_some, ok_bind, unlockDuressEnvelope]
            cases hopen : unlockDuressEnvelopeToPlaintextJson lib parsed.headerBytes duressHeader
                envelope password with
            | error e => rfl
            | ok opened =>
                obtain ⟨outcome, json⟩ := opened
                obtain ⟨payload, hpayload⟩ := Option.isSome_iff_exists.mp
                  (payloadFromSlice_of_unlockDuressEnvelope lib hopen)
                simp [hpayload]
  · simp [unlockVaultWithOutcome, unlockVaultToPlaintextJsonWithOutcome, failIf, hmode]

/-- What the four entry points answer on one file and one password. -/
structure UnlocksAlike : Prop where
  payload_iff : ∀ outcome payload,
    unlockVaultWithOutcome lib parsed password = .ok (outcome, payload) ↔
      ∃ json, unlockVaultToPlaintextJsonWithOutcome lib parsed password = .ok (outcome, json) ∧
        lib.payloadFromSlice json = some payload
  vault_iff : ∀ payload, unlockVault lib parsed password = .ok payload ↔
    ∃ outcome, unlockVaultWithOutcome lib parsed password = .ok (outcome, payload)
  json_iff : ∀ json, unlockVaultToPlaintextJson lib parsed password = .ok json ↔
    ∃ outcome, unlockVaultToPlaintextJsonWithOutcome lib parsed password = .ok (outcome, json)
  json_error : ∀ e, unlockVaultToPlaintextJson lib parsed password = .error e ↔
    unlockVaultToPlaintextJsonWithOutcome lib parsed password = .error e
  vault_error : ∀ e, unlockVault lib parsed password = .error e ↔
    unlockVaultWithOutcome lib parsed password = .error e
  payload_error : ∀ e, unlockVaultWithOutcome lib parsed password = .error e ↔
    unlockVaultToPlaintextJsonWithOutcome lib parsed password = .error e ∨
      (e = .payloadDecode ∧ ∃ outcome json,
        unlockVaultToPlaintextJsonWithOutcome lib parsed password = .ok (outcome, json) ∧
          lib.payloadFromSlice json = none)

/-- The four entry points agree on every file and every password: one payload, one JSON and one
error, up to JSON that does not decode. -/
theorem unlocksAlike : UnlocksAlike lib parsed password := by
  have hpayload := unlockVaultWithOutcome_eq lib parsed password
  have hvault : unlockVault lib parsed password =
      unlockVaultToPlaintextJsonWithOutcome lib parsed password >>= fun opened =>
        okOr (lib.payloadFromSlice opened.2) .payloadDecode := by
    rw [unlockVault, unlockVaultToPlaintextJson]
    cases unlockVaultToPlaintextJsonWithOutcome lib parsed password <;> rfl
  cases hjson : unlockVaultToPlaintextJsonWithOutcome lib parsed password with
  | error e =>
      rw [hjson] at hpayload hvault
      constructor <;> simp [hpayload, hvault, hjson, unlockVaultToPlaintextJson]
  | ok opened =>
      obtain ⟨outcome, json⟩ := opened
      rw [hjson] at hpayload hvault
      cases hdecode : lib.payloadFromSlice json with
      | none =>
          constructor <;>
            simp [hpayload, hvault, hjson, hdecode, unlockVaultToPlaintextJson, eq_comm]
      | some payload =>
          constructor <;>
            simp [hpayload, hvault, hjson, hdecode, unlockVaultToPlaintextJson, eq_comm]

end Unlock

end ViperVault
