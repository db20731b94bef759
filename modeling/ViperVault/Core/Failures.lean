import ViperVault.Backup.Coverage
import ViperVault.Core.AuthGate
import ViperVault.Vault.Symbolic

/-!
# How unlocking fails

A password that opens no ciphertext of a file is answered with an error that depends on the file
alone. Behind the gate an authentication failure is counted; in a vault with a decoy it can stand
for costs that derive no key and for a payload that does not decode.
-/

namespace ViperVault

open Foundation

section Files

variable {Key : Type} (lib : Libraries Key)

/-- The ciphertext opens under the password and the parameters of the header section. -/
def Opens (headerBytes : Bytes) (ch : CryptoHeader) (ciphertext : Bytes)
    (password : MasterPassword) : Prop :=
  ∃ pt, decryptWithCryptoHeader lib headerBytes ch ciphertext password = .ok pt

/-- The password authenticates a ciphertext of the file. -/
def Authenticates (parsed : ParsedVaultFile) (password : MasterPassword) : Prop :=
  match parsed.header.duress with
  | none => Opens lib parsed.headerBytes parsed.header.crypto parsed.payload password
  | some duressHeader =>
      ∃ envelope, lib.envelopeJson.fromSlice parsed.payload = some envelope ∧
        (Opens lib parsed.headerBytes duressHeader.primary envelope.primaryCt password ∨
          Opens lib parsed.headerBytes duressHeader.decoy envelope.decoyCt password)

/-- The password verifies the signature of the backup. -/
def VerifiesBackup {BackupKey : Type} (backupLib : BackupLibraries BackupKey)
    (password : MasterPassword) (backupBytes : Bytes) : Prop :=
  ∃ payload, Nonempty (SignedBackup backupLib password backupBytes payload)

variable {lib}

theorem exists_error_of_not_opens {headerBytes ciphertext : Bytes} {ch : CryptoHeader}
    {password : MasterPassword} (h : ¬ Opens lib headerBytes ch ciphertext password) :
    ∃ e, decryptWithCryptoHeader lib headerBytes ch ciphertext password = .error e := by
  cases hopen : decryptWithCryptoHeader lib headerBytes ch ciphertext password with
  | ok pt => exact absurd ⟨pt, hopen⟩ h
  | error e => exact ⟨e, rfl⟩

/-- An envelope none of whose branches opens. -/
theorem unlockDuressEnvelopeToPlaintextJson_of_not_opens {headerBytes : Bytes}
    {duressHeader : DualVaultHeader} {envelope : DualCiphertextEnvelope}
    {password : MasterPassword}
    (hprimary : ¬ Opens lib headerBytes duressHeader.primary envelope.primaryCt password)
    (hdecoy : ¬ Opens lib headerBytes duressHeader.decoy envelope.decoyCt password) :
    unlockDuressEnvelopeToPlaintextJson lib headerBytes duressHeader envelope password =
      .error .authFailed := by
  obtain ⟨e, he⟩ := exists_error_of_not_opens hprimary
  obtain ⟨e', he'⟩ := exists_error_of_not_opens hdecoy
  simp only [unlockDuressEnvelopeToPlaintextJson, he, he']

/-- Without a decoy, a password that does not open the file fails in the derivation of its key
or in the decryption. -/
theorem unlockVaultToPlaintextJsonWithOutcome_of_not_opens {parsed : ParsedVaultFile}
    {password : MasterPassword} (hmode : parsed.mode = .encrypted)
    (hduress : parsed.header.duress = none)
    (h : ¬ Opens lib parsed.headerBytes parsed.header.crypto parsed.payload password) :
    unlockVaultToPlaintextJsonWithOutcome lib parsed password =
      match deriveKey lib parsed.header.crypto password with
      | .error e => .error (.kdf e)
      | .ok _ => .error .authFailed := by
  cases hkey : deriveKey lib parsed.header.crypto password with
  | error e => simp [unlockVaultToPlaintextJsonWithOutcome, failIf, hmode, hduress, hkey]
  | ok key =>
      have hopen : lib.aead.decrypt key parsed.header.crypto.nonce parsed.payload
          parsed.headerBytes = none := by
        cases hdecrypt : lib.aead.decrypt key parsed.header.crypto.nonce parsed.payload
            parsed.headerBytes with
        | none => rfl
        | some pt =>
            exact absurd ⟨pt, (decryptWithCryptoHeader_eq_ok lib).mpr ⟨key, hkey, hdecrypt⟩⟩ h
      simp [unlockVaultToPlaintextJsonWithOutcome, failIf, hmode, hduress, hkey,
        decryptXchacha20poly1305, hopen]

end Files

/-! ## Wrong passwords -/

section WrongPasswords

variable {Key : Type} {lib : Libraries Key} (hargon2 : lib.argon2.PasswordIndependent)

include hargon2

/-- Two passwords are given a key both under the parameters of a header section, or are refused
alike. -/
theorem deriveKey_pair (ch : CryptoHeader) (p q : MasterPassword) :
    (∃ key key', deriveKey lib ch p = .ok key ∧ deriveKey lib ch q = .ok key') ∨
    (∃ e, deriveKey lib ch p = .error e ∧ deriveKey lib ch q = .error e) := by
  obtain ⟨⟨memKib, timeCost, lanes⟩, suite, salt, nonce⟩ := ch
  exact hargon2.derive p q salt memKib timeCost lanes

/-- Two passwords that open nothing are refused alike on every file. -/
theorem unlockVaultToPlaintextJsonWithOutcome_wrong {parsed : ParsedVaultFile}
    {p q : MasterPassword} (hp : ¬ Authenticates lib parsed p)
    (hq : ¬ Authenticates lib parsed q) :
    ∃ e, unlockVaultToPlaintextJsonWithOutcome lib parsed p = .error e ∧
      unlockVaultToPlaintextJsonWithOutcome lib parsed q = .error e := by
  by_cases hmode : parsed.mode = .encrypted
  · unfold Authenticates at hp hq
    cases hduress : parsed.header.duress with
    | none =>
        simp only [hduress] at hp hq
        rw [unlockVaultToPlaintextJsonWithOutcome_of_not_opens hmode hduress hp,
          unlockVaultToPlaintextJsonWithOutcome_of_not_opens hmode hduress hq]
        rcases deriveKey_pair hargon2 parsed.header.crypto p q with
          ⟨key, key', hkeyp, hkeyq⟩ | ⟨e, hkeyp, hkeyq⟩
        · rw [hkeyp, hkeyq]
          exact ⟨.authFailed, rfl, rfl⟩
        · rw [hkeyp, hkeyq]
          exact ⟨.kdf e, rfl, rfl⟩
    | some duressHeader =>
        simp only [hduress] at hp hq
        cases henvelope : lib.envelopeJson.fromSlice parsed.payload with
        | none =>
            exact ⟨.payloadDecode,
              by simp [unlockVaultToPlaintextJsonWithOutcome, failIf, hmode, hduress, henvelope],
              by simp [unlockVaultToPlaintextJsonWithOutcome, failIf, hmode, hduress, henvelope]⟩
        | some envelope =>
            have hclosed : ∀ {r : MasterPassword}, (¬ ∃ envelope',
                lib.envelopeJson.fromSlice parsed.payload = some envelope' ∧
                (Opens lib parsed.headerBytes duressHeader.primary envelope'.primaryCt r ∨
                  Opens lib parsed.headerBytes duressHeader.decoy envelope'.decoyCt r)) →
                unlockVaultToPlaintextJsonWithOutcome lib parsed r = .error .authFailed := by
              intro r hr
              rw [unlockVaultToPlaintextJsonWithOutcome_of_duress lib hmode hduress henvelope,
                unlockDuressEnvelopeToPlaintextJson_of_not_opens
                  (fun h => hr ⟨envelope, henvelope, Or.inl h⟩)
                  (fun h => hr ⟨envelope, henvelope, Or.inr h⟩)]
              rfl
            exact ⟨.authFailed, hclosed hp, hclosed hq⟩
  · exact ⟨.authFailed, by simp [unlockVaultToPlaintextJsonWithOutcome, failIf, hmode],
      by simp [unlockVaultToPlaintextJsonWithOutcome, failIf, hmode]⟩

end WrongPasswords

section Refusals

variable {Key : Type} {lib : Libraries Key}

theorem unlockVault_of_error {parsed : ParsedVaultFile} {password : MasterPassword}
    {e : UnlockError}
    (h : unlockVaultToPlaintextJsonWithOutcome lib parsed password = .error e) :
    unlockVault lib parsed password = .error e := by
  simp [unlockVault, unlockVaultToPlaintextJson, h]

/-- What is refused as plaintext is refused alike as a payload. -/
theorem unlockVaultWithOutcome_of_error {parsed : ParsedVaultFile} {password : MasterPassword}
    {e : UnlockError}
    (h : unlockVaultToPlaintextJsonWithOutcome lib parsed password = .error e) :
    unlockVaultWithOutcome lib parsed password = .error e := by
  have hvault := unlockVault_of_error h
  by_cases hmode : parsed.mode = .encrypted
  · cases hduress : parsed.header.duress with
    | none => simp [unlockVaultWithOutcome, failIf, hmode, hduress, hvault]
    | some duressHeader =>
        cases henvelope : lib.envelopeJson.fromSlice parsed.payload with
        | none =>
            have he : UnlockError.payloadDecode = e := by
              simpa [unlockVaultToPlaintextJsonWithOutcome, failIf, hmode, hduress, henvelope]
                using h
            simp [unlockVaultWithOutcome, failIf, hmode, hduress, henvelope, he]
        | some envelope =>
            rw [unlockVaultToPlaintextJsonWithOutcome_of_duress lib hmode hduress henvelope] at h
            cases hopen : unlockDuressEnvelopeToPlaintextJson lib parsed.headerBytes duressHeader
                envelope password with
            | ok opened => simp [hopen] at h
            | error err =>
                rw [hopen, mapError_error] at h
                have he : UnlockError.authFailed = e := Except.error.inj h
                simp [unlockVaultWithOutcome, unlockDuressEnvelope, failIf, hmode, hduress,
                  henvelope, hopen, he]
  · have he : UnlockError.authFailed = e := by
      simpa [unlockVaultToPlaintextJsonWithOutcome, failIf, hmode] using h
    simp [unlockVaultWithOutcome, failIf, hmode, he]

end Refusals

section Backups

variable {BackupKey : Type} {backupLib : BackupLibraries BackupKey}
  (hhkdf : ∀ masterKey, (backupLib.hkdfExpandSeed masterKey).isSome)

include hhkdf

/-- Deriving the key of a backup fails in one way. -/
theorem deriveBackupVerifyingKey_error {password : MasterPassword} {header : BackupHeader}
    {e : BackupError} (h : deriveBackupVerifyingKey backupLib password header = .error e) :
    e = .authFailed := by
  unfold deriveBackupVerifyingKey deriveBackupSigningKey at h
  cases hkey : deriveMasterKeyFromPassword backupLib.argon2 password header.salt header.kdf.memKib
      header.kdf.timeCost header.kdf.lanes with
  | error err =>
      simp only [hkey, mapError_error, error_bind, Except.error.injEq] at h
      exact h.symm
  | ok masterKey =>
      obtain ⟨seed, hseed⟩ := Option.isSome_iff_exists.mp (hhkdf masterKey)
      simp [hkey, hseed] at h

/-- From the derivation of the key on, a decoder fails in one way. -/
theorem verification_error {password : MasterPassword} {header : BackupHeader}
    {signed payload : Bytes} {signature : Signature} {e : BackupError}
    (h : (do
      let verifyingKey ← deriveBackupVerifyingKey backupLib password header
      failIf (backupLib.verify verifyingKey signed signature = false) .authFailed
      return payload) = .error e) : e = .authFailed := by
  cases hkey : deriveBackupVerifyingKey backupLib password header with
  | error err =>
      rw [hkey, error_bind] at h
      cases h
      exact deriveBackupVerifyingKey_error hhkdf hkey
  | ok verifyingKey =>
      rw [hkey, ok_bind] at h
      unfold failIf at h
      split at h
      · cases h
        rfl
      · cases h

/-- The decoder of backups refuses any two passwords alike: all that comes before the derivation
of the key is the same for both. -/
theorem decodeSignedBackup_sameFailure (policy : PolicyContext) (p q : MasterPassword)
    (backupBytes : Bytes) :
    SameFailure (decodeSignedBackup backupLib policy p backupBytes)
      (decodeSignedBackup backupLib policy q backupBytes) := by
  unfold decodeSignedBackup
  -- the checks and the fields up to the signature, in the order of the decoder
  refine .bind _ fun _ => .bind _ fun ⟨_, _⟩ => .bind _ fun _ => .bind _ fun ⟨_, _⟩ =>
    .bind _ fun _ => .bind _ fun ⟨_, _⟩ => .bind _ fun _ => .bind _ fun ⟨_, _⟩ =>
    .bind _ fun _ => .bind _ fun _ => .bind _ fun ⟨_, _⟩ => .bind _ fun _ =>
    .bind _ fun ⟨_, _⟩ => .bind _ fun ⟨_, _⟩ => .bind _ fun _ => .bind _ fun ⟨_, _⟩ =>
    .bind _ fun _ => .bind _ fun _ => .bind _ fun _ => ?_
  apply SameFailure.of_only .authFailed
  · exact fun e => verification_error hhkdf
  · exact fun e => verification_error hhkdf

theorem decodeSignedBackup_wrong (policy : PolicyContext) {p q : MasterPassword}
    {backupBytes : Bytes} (hp : ¬ VerifiesBackup backupLib p backupBytes)
    (hq : ¬ VerifiesBackup backupLib q backupBytes) :
    ∃ e, decodeSignedBackup backupLib policy p backupBytes = .error e ∧
      decodeSignedBackup backupLib policy q backupBytes = .error e := by
  apply (decodeSignedBackup_sameFailure hhkdf policy p q backupBytes).exists_error
  · exact fun payload h => hp ⟨payload, signedBackup_of_decode h⟩
  · exact fun payload h => hq ⟨payload, signedBackup_of_decode h⟩

end Backups

/-- Two passwords that authenticate nothing are told apart by none of the unlock functions, on no
file, nor by the decoder of backups. -/
theorem wrong_passwords_indistinguishable {Key BackupKey : Type} {lib : Libraries Key}
    {backupLib : BackupLibraries BackupKey} (hargon2 : lib.argon2.PasswordIndependent)
    (hhkdf : ∀ masterKey, (backupLib.hkdfExpandSeed masterKey).isSome) (p q : MasterPassword) :
    (∀ parsed, ¬ Authenticates lib parsed p → ¬ Authenticates lib parsed q → ∃ e,
      (unlockVault lib parsed p = .error e ∧ unlockVault lib parsed q = .error e) ∧
      (unlockVaultWithOutcome lib parsed p = .error e ∧
        unlockVaultWithOutcome lib parsed q = .error e) ∧
      (unlockVaultToPlaintextJsonWithOutcome lib parsed p = .error e ∧
        unlockVaultToPlaintextJsonWithOutcome lib parsed q = .error e)) ∧
    ∀ policy backupBytes, ¬ VerifiesBackup backupLib p backupBytes →
      ¬ VerifiesBackup backupLib q backupBytes →
      ∃ e, decodeSignedBackup backupLib policy p backupBytes = .error e ∧
        decodeSignedBackup backupLib policy q backupBytes = .error e := by
  refine ⟨?_, fun policy backupBytes hp hq => decodeSignedBackup_wrong hhkdf policy hp hq⟩
  intro parsed hp hq
  obtain ⟨e, hep, heq⟩ := unlockVaultToPlaintextJsonWithOutcome_wrong hargon2 hp hq
  exact ⟨e, ⟨unlockVault_of_error hep, unlockVault_of_error heq⟩,
    ⟨unlockVaultWithOutcome_of_error hep, unlockVaultWithOutcome_of_error heq⟩, hep, heq⟩

/-- The theorem with primitives that can be run. -/
theorem wrong_passwords_indistinguishable_symbolic :
    (∀ parsed, ¬ Authenticates symbolic parsed (samplePassword "north") →
      ¬ Authenticates symbolic parsed (samplePassword "south") → ∃ e,
      (unlockVault symbolic parsed (samplePassword "north") = .error e ∧
        unlockVault symbolic parsed (samplePassword "south") = .error e) ∧
      (unlockVaultWithOutcome symbolic parsed (samplePassword "north") = .error e ∧
        unlockVaultWithOutcome symbolic parsed (samplePassword "south") = .error e) ∧
      (unlockVaultToPlaintextJsonWithOutcome symbolic parsed (samplePassword "north") =
          .error e ∧
        unlockVaultToPlaintextJsonWithOutcome symbolic parsed (samplePassword "south") =
          .error e)) ∧
    ∀ policy backupBytes, ¬ VerifiesBackup symbolicBackup (samplePassword "north") backupBytes →
      ¬ VerifiesBackup symbolicBackup (samplePassword "south") backupBytes →
      ∃ e, decodeSignedBackup symbolicBackup policy (samplePassword "north") backupBytes =
          .error e ∧
        decodeSignedBackup symbolicBackup policy (samplePassword "south") backupBytes =
          .error e :=
  wrong_passwords_indistinguishable symbolicArgon2_ideal.passwordIndependent
    symbolicBackup_total.hkdfExpandSeed_isSome _ _

/-! ## What the gate counts -/

section Counted

variable {Key : Type} (lib : Libraries Key)

/-- A key was derived from the password under the parameters of the header section, and the
ciphertext did not open with it. -/
def FailsDecryption (headerBytes : Bytes) (ch : CryptoHeader) (ciphertext : Bytes)
    (password : MasterPassword) : Prop :=
  ∃ key, deriveKey lib ch password = .ok key ∧
    lib.aead.decrypt key ch.nonce ciphertext headerBytes = none

/-- Authenticated decryption was tried on every ciphertext of the file, and failed. -/
def FailsAuthentication (parsed : ParsedVaultFile) (password : MasterPassword) : Prop :=
  match parsed.header.duress with
  | none => FailsDecryption lib parsed.headerBytes parsed.header.crypto parsed.payload password
  | some duressHeader =>
      ∃ envelope, lib.envelopeJson.fromSlice parsed.payload = some envelope ∧
        FailsDecryption lib parsed.headerBytes duressHeader.primary envelope.primaryCt password ∧
        FailsDecryption lib parsed.headerBytes duressHeader.decoy envelope.decoyCt password

/-- No state of the gate takes a failure or a delay from the call. -/
def LeavesNoFailure {α : Type} (call : UnlockRateLimiter → Gated UnlockError α) : Prop :=
  ∀ limiter, (call limiter).delay = 0 ∧
    ((call limiter).limiter = limiter ∨ (call limiter).limiter = .onSuccess)

/-- Of the gated calls on the file only those are counted in which decryption was tried on all
its ciphertexts. -/
def CountsOnlyWrongPasswords (policy : UnlockThrottlePolicy) (clock : GateClock)
    (parsed : ParsedVaultFile) (password : MasterPassword) : Prop :=
  (¬ LeavesNoFailure (unlockPlaintextJsonGated lib policy clock parsed password) →
    FailsAuthentication lib parsed password) ∧
  (¬ LeavesNoFailure (unlockSessionGated lib policy clock parsed password) →
    FailsAuthentication lib parsed password)

/-- The ciphertext opens to something that is not a payload. -/
def OpensToJunk (headerBytes : Bytes) (ch : CryptoHeader) (ciphertext : Bytes)
    (password : MasterPassword) : Prop :=
  ∃ pt, decryptWithCryptoHeader lib headerBytes ch ciphertext password = .ok pt ∧
    lib.payloadFromSlice pt = none

/-- A vault with a decoy and a readable envelope in which the branch that opens first holds no
payload, or no branch opens and one of them has parameters that derive no key. -/
def HidesMalformation (parsed : ParsedVaultFile) (password : MasterPassword) : Prop :=
  ∃ duressHeader envelope, parsed.header.duress = some duressHeader ∧
    lib.envelopeJson.fromSlice parsed.payload = some envelope ∧
    (OpensToJunk lib parsed.headerBytes duressHeader.primary envelope.primaryCt password ∨
      ¬ Opens lib parsed.headerBytes duressHeader.primary envelope.primaryCt password ∧
        OpensToJunk lib parsed.headerBytes duressHeader.decoy envelope.decoyCt password ∨
      ¬ Opens lib parsed.headerBytes duressHeader.primary envelope.primaryCt password ∧
        ¬ Opens lib parsed.headerBytes duressHeader.decoy envelope.decoyCt password ∧
        ((∃ e, deriveKey lib duressHeader.primary password = .error e) ∨
          ∃ e, deriveKey lib duressHeader.decoy password = .error e))

variable {lib}

/-- The gate counts exactly the authentication failures of the unlock function. -/
theorem leavesNoFailure_unlockPlaintextJsonGated_iff {policy : UnlockThrottlePolicy}
    {clock : GateClock} {parsed : ParsedVaultFile} {password : MasterPassword} :
    LeavesNoFailure (unlockPlaintextJsonGated lib policy clock parsed password) ↔
      unlockVaultToPlaintextJsonWithOutcome lib parsed password ≠ .error .authFailed := by
  constructor
  · intro h hfailed
    obtain ⟨-, hlimiter⟩ := h .onSuccess
    simp [unlockPlaintextJsonGated, AuthGate.run, hfailed, UnlockRateLimiter.onFailureDelay,
      UnlockRateLimiter.onSuccess] at hlimiter
  · intro h limiter
    unfold unlockPlaintextJsonGated AuthGate.run
    cases hopen : unlockVaultToPlaintextJsonWithOutcome lib parsed password with
    | error e =>
        have he : e ≠ .authFailed := fun he => h (he ▸ hopen)
        simp [he]
    | ok opened =>
        obtain ⟨outcome, json⟩ := opened
        cases outcome with
        | primary => simp
        | decoy => simp

theorem leavesNoFailure_unlockSessionGated_iff {policy : UnlockThrottlePolicy}
    {clock : GateClock} {parsed : ParsedVaultFile} {password : MasterPassword} :
    LeavesNoFailure (unlockSessionGated lib policy clock parsed password) ↔
      unlockVaultToPlaintextJsonWithOutcome lib parsed password ≠ .error .authFailed :=
  leavesNoFailure_unlockPlaintextJsonGated_iff

theorem countsOnlyWrongPasswords_iff_authFailed {policy : UnlockThrottlePolicy}
    {clock : GateClock} {parsed : ParsedVaultFile} {password : MasterPassword} :
    CountsOnlyWrongPasswords lib policy clock parsed password ↔
      (unlockVaultToPlaintextJsonWithOutcome lib parsed password = .error .authFailed →
        FailsAuthentication lib parsed password) := by
  rw [CountsOnlyWrongPasswords, leavesNoFailure_unlockPlaintextJsonGated_iff,
    leavesNoFailure_unlockSessionGated_iff, not_not, and_self]

/-- A ciphertext fails to open in its decryption or before it. -/
theorem not_opens_iff {headerBytes ciphertext : Bytes} {ch : CryptoHeader}
    {password : MasterPassword} :
    ¬ Opens lib headerBytes ch ciphertext password ↔
      FailsDecryption lib headerBytes ch ciphertext password ∨
        ∃ e, deriveKey lib ch password = .error e := by
  simp only [Opens, FailsDecryption, decryptWithCryptoHeader_eq_ok]
  cases hkey : deriveKey lib ch password with
  | error e => simp
  | ok key =>
      cases hopen : lib.aead.decrypt key ch.nonce ciphertext headerBytes with
      | none => simp [hopen]
      | some pt => simp [hopen]

theorem failsDecryption_iff {headerBytes ciphertext : Bytes} {ch : CryptoHeader}
    {password : MasterPassword} :
    FailsDecryption lib headerBytes ch ciphertext password ↔
      ¬ Opens lib headerBytes ch ciphertext password ∧
        ¬ ∃ e, deriveKey lib ch password = .error e := by
  constructor
  · intro h
    refine ⟨not_opens_iff.mpr (Or.inl h), ?_⟩
    rintro ⟨e, he⟩
    obtain ⟨key, hkey, -⟩ := h
    rw [hkey] at he
    cases he
  · rintro ⟨hopen, hkey⟩
    exact (not_opens_iff.mp hopen).resolve_right hkey

/-- An envelope is answered with an error when its first branch that opens holds no payload, and
when no branch opens. -/
theorem unlockDuressEnvelopeToPlaintextJson_error_iff {headerBytes : Bytes}
    {duressHeader : DualVaultHeader} {envelope : DualCiphertextEnvelope}
    {password : MasterPassword} :
    (∃ e, unlockDuressEnvelopeToPlaintextJson lib headerBytes duressHeader envelope password =
      .error e) ↔
      OpensToJunk lib headerBytes duressHeader.primary envelope.primaryCt password ∨
      ¬ Opens lib headerBytes duressHeader.primary envelope.primaryCt password ∧
        OpensToJunk lib headerBytes duressHeader.decoy envelope.decoyCt password ∨
      ¬ Opens lib headerBytes duressHeader.primary envelope.primaryCt password ∧
        ¬ Opens lib headerBytes duressHeader.decoy envelope.decoyCt password := by
  unfold unlockDuressEnvelopeToPlaintextJson OpensToJunk Opens
  cases hprimary : decryptWithCryptoHeader lib headerBytes duressHeader.primary
      envelope.primaryCt password with
  | ok pt => cases hread : lib.payloadFromSlice pt <;> simp [validatePayloadJson, hread]
  | error e =>
      cases hdecoy : decryptWithCryptoHeader lib headerBytes duressHeader.decoy
          envelope.decoyCt password with
      | ok pt => cases hread : lib.payloadFromSlice pt <;> simp [validatePayloadJson, hread]
      | error e => simp

/-- Without a decoy the authentication failures are those of the decryption. -/
theorem authFailed_iff_of_legacy {parsed : ParsedVaultFile} {password : MasterPassword}
    (hmode : parsed.mode = .encrypted) (hduress : parsed.header.duress = none) :
    unlockVaultToPlaintextJsonWithOutcome lib parsed password = .error .authFailed ↔
      FailsDecryption lib parsed.headerBytes parsed.header.crypto parsed.payload password := by
  rw [failsDecryption_iff]
  by_cases hopen : Opens lib parsed.headerBytes parsed.header.crypto parsed.payload password
  · obtain ⟨pt, hpt⟩ := hopen
    have hok := (unlockVaultToPlaintextJsonWithOutcome_eq_ok lib hmode hduress).mpr
      ⟨rfl, hpt⟩
    simp [hok, Opens, hpt]
  · rw [unlockVaultToPlaintextJsonWithOutcome_of_not_opens hmode hduress hopen]
    cases hkey : deriveKey lib parsed.header.crypto password with
    | error e => simp
    | ok key => simp [hopen]

/-- With a decoy they are the errors of the envelope. -/
theorem authFailed_iff_of_duress {parsed : ParsedVaultFile} {password : MasterPassword}
    {duressHeader : DualVaultHeader} {envelope : DualCiphertextEnvelope}
    (hmode : parsed.mode = .encrypted) (hduress : parsed.header.duress = some duressHeader)
    (henvelope : lib.envelopeJson.fromSlice parsed.payload = some envelope) :
    unlockVaultToPlaintextJsonWithOutcome lib parsed password = .error .authFailed ↔
      ∃ e, unlockDuressEnvelopeToPlaintextJson lib parsed.headerBytes duressHeader envelope
        password = .error e := by
  rw [unlockVaultToPlaintextJsonWithOutcome_of_duress lib hmode hduress henvelope]
  cases unlockDuressEnvelopeToPlaintextJson lib parsed.headerBytes duressHeader envelope
      password with
  | ok opened => simp
  | error e => simp

/-- The gate counts wrong passwords only, exactly on the files that are no vault with a decoy that
hides its malformation. -/
theorem countsOnlyWrongPasswords_iff {policy : UnlockThrottlePolicy} {clock : GateClock}
    {parsed : ParsedVaultFile} {password : MasterPassword} (hmode : parsed.mode = .encrypted) :
    CountsOnlyWrongPasswords lib policy clock parsed password ↔
      ¬ HidesMalformation lib parsed password := by
  rw [countsOnlyWrongPasswords_iff_authFailed]
  unfold HidesMalformation FailsAuthentication
  cases hduress : parsed.header.duress with
  | none => simp [authFailed_iff_of_legacy hmode hduress]
  | some duressHeader =>
      cases henvelope : lib.envelopeJson.fromSlice parsed.payload with
      | none =>
          simp [unlockVaultToPlaintextJsonWithOutcome, failIf, hmode, hduress, henvelope]
      | some envelope =>
          rw [authFailed_iff_of_duress hmode hduress henvelope,
            unlockDuressEnvelopeToPlaintextJson_error_iff]
          simp only [Option.some.injEq, exists_and_left, exists_eq_left', failsDecryption_iff]
          have hjunk : ∀ {ch ct}, OpensToJunk lib parsed.headerBytes ch ct password →
              Opens lib parsed.headerBytes ch ct password := by
            rintro ch ct ⟨pt, hpt, -⟩
            exact ⟨pt, hpt⟩
          constructor
          · rintro hcounted (hprimary | ⟨hnot, hdecoy⟩ | ⟨hnot, hnot', hkey⟩)
            · exact (hcounted (Or.inl hprimary)).1.1 (hjunk hprimary)
            · exact (hcounted (Or.inr (Or.inl ⟨hnot, hdecoy⟩))).2.1 (hjunk hdecoy)
            · obtain ⟨⟨-, hprimary⟩, -, hdecoy⟩ := hcounted (Or.inr (Or.inr ⟨hnot, hnot'⟩))
              exact hkey.elim hprimary hdecoy
          · rintro hnone (hprimary | hdecoy | ⟨hnot, hnot'⟩)
            · exact absurd (Or.inl hprimary) hnone
            · exact absurd (Or.inr (Or.inl hdecoy)) hnone
            · have hkeys := fun hkey => hnone (Or.inr (Or.inr ⟨hnot, hnot', hkey⟩))
              exact ⟨⟨hnot, fun h => hkeys (Or.inl h)⟩, hnot', fun h => hkeys (Or.inr h)⟩

end Counted

/-- A header section whose memory cost is below the bound. -/
def weakSection : CryptoHeader :=
  ⟨.argon2id 1024 3 1, .xChaCha20Poly1305, Vector.replicate 32 1, Vector.replicate 24 2⟩

/-- The header of a vault with a decoy, one of whose sections is below the bound. -/
def weakHeader : VaultHeader :=
  { sampleHeader with duress := some { primary := weakSection, decoy := sampleHeader.crypto } }

/-- A vault with this header and a readable envelope. -/
def weakVault : ParsedVaultFile where
  formatVersion := 1
  header := weakHeader
  headerBytes := (vaultHeaderCodec.encode weakHeader).toBytes
  mode := .encrypted
  payload := (envelopeCodec.encode { primaryCt := [1], decoyCt := [2] }).toBytes

/-- The theorem on the vault whose costs derive no key. -/
theorem countsOnlyWrongPasswords_iff_weak :
    CountsOnlyWrongPasswords symbolic .default ⟨0, 0⟩ weakVault (samplePassword "north") ↔
      ¬ HidesMalformation symbolic weakVault (samplePassword "north") :=
  countsOnlyWrongPasswords_iff rfl

/-- Costs that no password derives a key under are counted as a wrong password. -/
theorem malformed_vault_counts_as_wrong_password :
    weakVault.mode = .encrypted ∧
    (∀ password, deriveKey symbolic weakSection password = .error .invalidParams) ∧
    (unlockPlaintextJsonGated symbolic .default ⟨0, 0⟩ weakVault (samplePassword "north")
      .onSuccess).limiter.failures = 1 ∧
    ¬ CountsOnlyWrongPasswords symbolic .default ⟨0, 0⟩ weakVault (samplePassword "north") := by
  have hweak : ∀ password, deriveKey symbolic weakSection password = .error .invalidParams :=
    fun _ => rfl
  have henvelope : symbolic.envelopeJson.fromSlice weakVault.payload =
      some { primaryCt := [1], decoyCt := [2] } := envelopeJson_lawful.fromSlice_toVec _ _ rfl
  have hprimary : ¬ Opens symbolic weakVault.headerBytes weakSection [1] (samplePassword "north") :=
    not_opens_iff.mpr (Or.inr ⟨_, hweak _⟩)
  have hdecoy : ¬ Opens symbolic weakVault.headerBytes sampleHeader.crypto [2]
      (samplePassword "north") := not_opens_iff.mpr (Or.inl ⟨_, rfl, rfl⟩)
  have hfailed : unlockVaultToPlaintextJsonWithOutcome symbolic weakVault
      (samplePassword "north") = .error .authFailed := by
    rw [unlockVaultToPlaintextJsonWithOutcome_of_duress symbolic rfl rfl henvelope,
      unlockDuressEnvelopeToPlaintextJson_of_not_opens hprimary hdecoy]
    rfl
  refine ⟨rfl, hweak, ?_, ?_⟩
  · simp [unlockPlaintextJsonGated, AuthGate.run, hfailed, UnlockRateLimiter.onFailureDelay,
      UnlockRateLimiter.onSuccess, UnlockRateLimiter.decayed, saturatingSucc]
  · rw [countsOnlyWrongPasswords_iff_authFailed]
    intro h
    obtain ⟨envelope, -, ⟨key, hkey, -⟩, -⟩ := h hfailed
    exact absurd (hkey.symm.trans (hweak _)) (by simp)

end ViperVault
