import ViperVault.Backup.Symbolic
import ViperVault.Core.AuthGate
import ViperVault.Core.LockState
import ViperVault.Import.Interop
import ViperVault.Vault.Lifecycle

/-!
# Signed imports

`import/signed.rs` and `import/e2e_signed.rs`. The container inside a signed backup is unlocked
behind the gate, and its content is handed to the lock manager by the entry point that opens a
primary session. The unlock knows which branch it opened; the hand-over does not pass it on.
-/

namespace ViperVault

open Foundation

/-- `map_vault_parse`. -/
def mapVaultParse : VaultParseError → ImportError
  | .authFailed => .authFailed
  | .payloadTooLarge => .payloadTooLarge
  | .unsupportedVersion => .invalidFormat
  | _ => .invalidFormat

/-- `unlock_with_plaintext_json`, with the answer of the live probe. -/
def VaultState.unlockWithPlaintextJson (probe : RuntimeInspectionState) (plaintextJson : Bytes) :
    VaultState :=
  .unlockWithPlaintextJsonWithContext plaintextJson .strong .primary probe

/-- What an import answers, the limiter and the delay of its gate, and the state of the manager
that it leaves. -/
structure SignedImport where
  result : Except ImportError Unit
  limiter : UnlockRateLimiter
  delay : Duration
  manager : VaultState

section Signed

variable {Key : Type} (lib : Libraries Key) (backupLib : BackupLibraries Key)

/-- `import_vipervault_from_signed_backup`. -/
def importVipervaultFromSignedBackup (probe : RuntimeInspectionState) (policy : PolicyContext)
    (password : MasterPassword) (signedBackupBytes : Bytes) :
    Except ImportError ParsedVaultFile := do
  failIf (policy.isDecoy = true) .policyDenied
  let vaultBytes ← (decodeSignedBackup backupLib policy password signedBackupBytes).mapError
    fun _ => .authFailed
  let parsed ← (decodeVaultFile lib.headerJson probe vaultBytes none maxVaultContainerPayloadLen
    false).mapError mapVaultParse
  failIf (parsed.mode = .plaintextJson) .invalidFormat
  return parsed

/-- `import_signed_vault_and_unlock`. The probes are those of the decoder and of the manager. -/
def importSignedVaultAndUnlock (decoderProbe managerProbe : RuntimeInspectionState)
    (policy : PolicyContext) (throttle : UnlockThrottlePolicy) (clock : GateClock)
    (password : MasterPassword) (signedBackupBytes : Bytes) (limiter : UnlockRateLimiter)
    (manager : VaultState) : SignedImport :=
  let failed (e : ImportError) : SignedImport :=
    { result := .error e, limiter := limiter, delay := 0, manager := manager }
  if policy.allowSignedBackupTransfer = false then failed .policyDenied
  else
    match importVipervaultFromSignedBackup lib backupLib decoderProbe policy password
        signedBackupBytes with
    | .error e => failed e
    | .ok parsed =>
        let gated := unlockPlaintextJsonGated lib throttle clock parsed password limiter
        match gated.result with
        | .error _ =>
            { result := .error .authFailed
              limiter := gated.limiter
              delay := gated.delay
              manager := manager }
        | .ok (_outcome, plaintextJson) =>
            { result := .ok ()
              limiter := gated.limiter
              delay := gated.delay
              manager := .unlockWithPlaintextJson managerProbe plaintextJson }

/-- The container has no decoy, or the password opens its primary ciphertext. -/
def OpensPrimaryBranch (parsed : ParsedVaultFile) (password : MasterPassword) : Prop :=
  ∀ duressHeader ∈ parsed.header.duress, ∃ envelope json,
    lib.envelopeJson.fromSlice parsed.payload = some envelope ∧
    decryptWithCryptoHeader lib parsed.headerBytes duressHeader.primary envelope.primaryCt
      password = .ok json

variable {lib}

theorem mode_eq_encrypted_of_unlock {parsed : ParsedVaultFile} {password : MasterPassword}
    {opened : UnlockOutcome × Bytes}
    (h : unlockVaultToPlaintextJsonWithOutcome lib parsed password = .ok opened) :
    parsed.mode = .encrypted := by
  rw [unlockVaultToPlaintextJsonWithOutcome, check_bind_eq_ok, failIf_eq_ok, ne_eq, not_not] at h
  exact h.1

/-- The branch that an unlock reports is the primary one when the primary ciphertext opens. -/
theorem outcome_eq_primary_iff {parsed : ParsedVaultFile} {password : MasterPassword}
    {outcome : UnlockOutcome} {json : Bytes}
    (h : unlockVaultToPlaintextJsonWithOutcome lib parsed password = .ok (outcome, json)) :
    outcome = .primary ↔ OpensPrimaryBranch lib parsed password := by
  have hmode := mode_eq_encrypted_of_unlock h
  cases hduress : parsed.header.duress with
  | none =>
      obtain ⟨rfl, -⟩ := (unlockVaultToPlaintextJsonWithOutcome_eq_ok lib hmode hduress).mp h
      simp [OpensPrimaryBranch, hduress]
  | some duressHeader =>
      cases henvelope : lib.envelopeJson.fromSlice parsed.payload with
      | none =>
          simp [unlockVaultToPlaintextJsonWithOutcome, hmode, failIf, hduress, henvelope] at h
      | some envelope =>
          rw [unlockVaultToPlaintextJsonWithOutcome_of_duress lib hmode hduress henvelope,
            mapError_eq_ok] at h
          rw [unlockDuressEnvelopeToPlaintextJson_primary_iff lib h]
          simp [OpensPrimaryBranch, hduress, henvelope]

section Run

variable {backupLib : BackupLibraries Key} {decoderProbe managerProbe : RuntimeInspectionState}
  {policy : PolicyContext} {throttle : UnlockThrottlePolicy} {clock : GateClock}
  {password : MasterPassword} {signedBackupBytes : Bytes} {limiter : UnlockRateLimiter}
  {manager : VaultState}

/-- An import that succeeds found a container, unlocked it, and left a primary session. -/
theorem importSignedVaultAndUnlock_eq_ok
    (h : (importSignedVaultAndUnlock lib backupLib decoderProbe managerProbe policy throttle clock
      password signedBackupBytes limiter manager).result = .ok ()) :
    ∃ parsed outcome json,
      importVipervaultFromSignedBackup lib backupLib decoderProbe policy password
        signedBackupBytes = .ok parsed ∧
      unlockVaultToPlaintextJsonWithOutcome lib parsed password = .ok (outcome, json) ∧
      (importSignedVaultAndUnlock lib backupLib decoderProbe managerProbe policy throttle clock
        password signedBackupBytes limiter manager).manager =
          .unlockWithPlaintextJson managerProbe json := by
  unfold importSignedVaultAndUnlock at h ⊢
  by_cases hpolicy : policy.allowSignedBackupTransfer = false
  · simp [hpolicy] at h
  · simp only [if_neg hpolicy] at h ⊢
    cases hparsed : importVipervaultFromSignedBackup lib backupLib decoderProbe policy password
        signedBackupBytes with
    | error e => simp [hparsed] at h
    | ok parsed =>
        simp only [hparsed, result_unlockPlaintextJsonGated] at h ⊢
        cases hopen : unlockVaultToPlaintextJsonWithOutcome lib parsed password with
        | error e => simp [hopen] at h
        | ok opened =>
            obtain ⟨outcome, json⟩ := opened
            exact ⟨parsed, outcome, json, rfl, hopen, rfl⟩

/-- The container of a backup that was signed with the password is found. -/
theorem importVipervaultFromSignedBackup_of_encode (hbackup : backupLib.Ideal)
    {vaultContainerBytes : Bytes} {kdf : BackupKdfPolicy} {salt : Option Salt}
    {parsed : ParsedVaultFile}
    (hencode : encodeSignedBackup backupLib policy password vaultContainerBytes kdf salt =
      .ok signedBackupBytes)
    (hdecode : decodeVaultFile lib.headerJson decoderProbe vaultContainerBytes none
      maxVaultContainerPayloadLen false = .ok parsed)
    (hmode : parsed.mode = .encrypted) :
    policy.allowSignedBackupTransfer = true ∧
      importVipervaultFromSignedBackup lib backupLib decoderProbe policy password
        signedBackupBytes = .ok parsed := by
  have hallowed : policy.allowSignedBackupTransfer = true := by
    simp only [encodeSignedBackup, check_bind_eq_ok, failIf_eq_ok, Bool.not_eq_false] at hencode
    exact hencode.1
  have hprimary : ¬ policy.isDecoy = true := by
    have houtcome := (policy.allowSignedBackupTransfer_iff.mp hallowed).1
    simp [PolicyContext.isDecoy, houtcome]
  have hencrypted : ¬ parsed.mode = .plaintextJson := by
    rw [hmode]
    decide
  refine ⟨hallowed, ?_⟩
  simp only [importVipervaultFromSignedBackup, failIf, if_neg hprimary, ok_bind,
    decodeSignedBackup_of_encode backupLib hbackup hencode, mapError_ok, hdecode,
    if_neg hencrypted]
  rfl

/-- The container of a backup that was signed with the password is found, unlocked and handed to
the manager. -/
theorem importSignedVaultAndUnlock_of_encode (hbackup : backupLib.Ideal)
    {vaultContainerBytes json : Bytes} {kdf : BackupKdfPolicy} {salt : Option Salt}
    {parsed : ParsedVaultFile} {outcome : UnlockOutcome}
    (hencode : encodeSignedBackup backupLib policy password vaultContainerBytes kdf salt =
      .ok signedBackupBytes)
    (hdecode : decodeVaultFile lib.headerJson decoderProbe vaultContainerBytes none
      maxVaultContainerPayloadLen false = .ok parsed)
    (hopen : unlockVaultToPlaintextJsonWithOutcome lib parsed password = .ok (outcome, json)) :
    importVipervaultFromSignedBackup lib backupLib decoderProbe policy password
        signedBackupBytes = .ok parsed ∧
      (importSignedVaultAndUnlock lib backupLib decoderProbe managerProbe policy throttle clock
        password signedBackupBytes limiter manager).result = .ok () := by
  obtain ⟨hallowed, himport⟩ := importVipervaultFromSignedBackup_of_encode hbackup hencode hdecode
    (mode_eq_encrypted_of_unlock hopen)
  refine ⟨himport, ?_⟩
  simp [importSignedVaultAndUnlock, hallowed, himport, result_unlockPlaintextJsonGated, hopen]

end Run

end Signed

/-! ## A sample import -/

/-- An import into a locked manager, by a limiter without failures. -/
def sampleImport (password : MasterPassword) (signedBackupBytes : Bytes) : SignedImport :=
  importSignedVaultAndUnlock symbolic symbolicBackup .notDebugged .notDebugged samplePolicyContext
    .default ⟨0, 0⟩ password signedBackupBytes .onSuccess .locked

/-- The sample vault with a decoy is written, put into a backup under either of its passwords,
and imported from it. -/
theorem exists_sampleImport (password : MasterPassword) {outcome : UnlockOutcome} {json : Bytes}
    (hanswer : Safe.answer ⟨samplePassword "north", payloadBytes samplePayload,
      some (samplePassword "south", payloadBytes ⟨[]⟩)⟩ password = some (outcome, json)) :
    ∃ vault containerBytes backupBytes parsed,
      createDuressVault symbolic (sampleFill 1) (sampleFill 2) 7 (samplePassword "north")
        (samplePassword "south") samplePayload ⟨[]⟩ 1 samplePolicy = .ok vault ∧
      encodeVaultStorage headerJson .notDebugged vault.header vault.storage 1 =
        .ok containerBytes ∧
      encodeSignedBackup symbolicBackup samplePolicyContext password containerBytes sampleBackupKdf
        (some (Vector.replicate 32 3)) = .ok backupBytes ∧
      importVipervaultFromSignedBackup symbolic symbolicBackup .notDebugged samplePolicyContext
        password backupBytes = .ok parsed ∧
      unlockVaultToPlaintextJsonWithOutcome symbolic parsed password = .ok (outcome, json) ∧
      (sampleImport password backupBytes).result = .ok () := by
  obtain ⟨vault, hvault, hseals, hpayloadLen⟩ :=
    exists_sealedSampleVault (samplePassword "north") (samplePassword "south") (by decide)
      (by decide)
  obtain ⟨containerBytes, parsed, hcontainer, hdecode, hopens⟩ :=
    hseals.opensAs symbolic_ideal .notDebugged .notDebugged 1 none maxVaultContainerPayloadLen
      false (by decide) (by simp) hpayloadLen
  have hopen := hopens password
  rw [hanswer, okOr_some] at hopen
  have hfits : containerBytes.length ≤ maxBackupPayloadLen.toNat := by
    obtain ⟨headerBytes, -, hheader, rfl⟩ := eq_containerBytes_of_encode _ hcontainer
    have hheaderLen := headerJson_ideal.length_le hheader
    have hmax : maxHeaderLen.toNat = 4096 := rfl
    have hcap : maxVaultContainerPayloadLen.toNat = 16777216 := rfl
    have hbackupCap : maxBackupPayloadLen.toNat = 67108864 := rfl
    rw [length_containerBytes]
    omega
  have hallowed : samplePolicyContext.allowSignedBackupTransfer = true := rfl
  obtain ⟨backupBytes, hbackup⟩ := symbolicBackup_total.exists_encodeSignedBackup hallowed
    sampleBackupKdf_valid password (Vector.replicate 32 3) hfits
  obtain ⟨hparsed, himport⟩ :=
    importSignedVaultAndUnlock_of_encode symbolicBackup_ideal hbackup hdecode hopen
  exact ⟨vault, containerBytes, backupBytes, parsed, hvault, hcontainer, hbackup, hparsed, hopen,
    himport⟩

/-! ## The branch that was opened -/

/-- After an import the session carries the outcome with which the container was opened exactly
when that was the primary branch: the hand-over always says so. -/
theorem import_keeps_outcome_iff {Key : Type} {lib : Libraries Key}
    {backupLib : BackupLibraries Key} {decoderProbe managerProbe : RuntimeInspectionState}
    {policy : PolicyContext} {throttle : UnlockThrottlePolicy} {clock : GateClock}
    {password : MasterPassword} {signedBackupBytes : Bytes} {limiter : UnlockRateLimiter}
    {manager : VaultState}
    (h : (importSignedVaultAndUnlock lib backupLib decoderProbe managerProbe policy throttle clock
      password signedBackupBytes limiter manager).result = .ok ()) :
    ∃ parsed outcome session,
      importVipervaultFromSignedBackup lib backupLib decoderProbe policy password
        signedBackupBytes = .ok parsed ∧
      (unlockPlaintextJsonGated lib throttle clock parsed password limiter).result =
        .ok (outcome, session.plaintextJson) ∧
      (importSignedVaultAndUnlock lib backupLib decoderProbe managerProbe policy throttle clock
        password signedBackupBytes limiter manager).manager = .unlocked session ∧
      (session.unlockOutcome = outcome ↔ OpensPrimaryBranch lib parsed password) := by
  obtain ⟨parsed, outcome, json, hparsed, hopen, hmanager⟩ := importSignedVaultAndUnlock_eq_ok h
  have hsession : ∃ session, VaultState.unlockWithPlaintextJson managerProbe json =
      .unlocked session ∧ session.plaintextJson = json ∧ session.unlockOutcome = .primary :=
    ⟨_, rfl, rfl, rfl⟩
  obtain ⟨session, hunlocked, hjson, houtcome⟩ := hsession
  rw [hunlocked] at hmanager
  refine ⟨parsed, outcome, session, hparsed, ?_, hmanager, ?_⟩
  · rw [result_unlockPlaintextJsonGated, hjson, hopen]
  · rw [houtcome, ← outcome_eq_primary_iff hopen, eq_comm]

/-- The sample vault, imported under its primary password. -/
theorem import_keeps_outcome_iff_sample :
    ∃ backupBytes parsed outcome session,
      importVipervaultFromSignedBackup symbolic symbolicBackup .notDebugged samplePolicyContext
        (samplePassword "north") backupBytes = .ok parsed ∧
      (unlockPlaintextJsonGated symbolic .default ⟨0, 0⟩ parsed (samplePassword "north")
        .onSuccess).result = .ok (outcome, session.plaintextJson) ∧
      (sampleImport (samplePassword "north") backupBytes).manager = .unlocked session ∧
      (session.unlockOutcome = outcome ↔
        OpensPrimaryBranch symbolic parsed (samplePassword "north")) := by
  obtain ⟨-, -, backupBytes, -, -, -, -, -, -, himport⟩ :=
    exists_sampleImport (samplePassword "north") rfl
  exact ⟨backupBytes, import_keeps_outcome_iff himport⟩

/-- Imported under the password of the decoy, the decoy is held in a primary session. -/
theorem imported_decoy_is_held_as_primary :
    ∃ vault containerBytes backupBytes parsed,
      createDuressVault symbolic (sampleFill 1) (sampleFill 2) 7 (samplePassword "north")
        (samplePassword "south") samplePayload ⟨[]⟩ 1 samplePolicy = .ok vault ∧
      encodeVaultStorage headerJson .notDebugged vault.header vault.storage 1 =
        .ok containerBytes ∧
      encodeSignedBackup symbolicBackup samplePolicyContext (samplePassword "south")
        containerBytes sampleBackupKdf (some (Vector.replicate 32 3)) = .ok backupBytes ∧
      (sampleImport (samplePassword "south") backupBytes).result = .ok () ∧
      importVipervaultFromSignedBackup symbolic symbolicBackup .notDebugged samplePolicyContext
        (samplePassword "south") backupBytes = .ok parsed ∧
      (unlockPlaintextJsonGated symbolic .default ⟨0, 0⟩ parsed (samplePassword "south")
        .onSuccess).result = .ok (.decoy, payloadBytes ⟨[]⟩) ∧
      (sampleImport (samplePassword "south") backupBytes).manager.currentUnlockOutcome =
        some .primary := by
  have hanswer : Safe.answer ⟨samplePassword "north", payloadBytes samplePayload,
      some (samplePassword "south", payloadBytes ⟨[]⟩)⟩ (samplePassword "south") =
        some (.decoy, payloadBytes ⟨[]⟩) := by
    rw [Safe.answer_decoyPassword, if_neg (by decide)]
  obtain ⟨vault, containerBytes, backupBytes, parsed, hvault, hcontainer, hbackup, hparsed, hopen,
    himport⟩ := exists_sampleImport (samplePassword "south") hanswer
  obtain ⟨-, -, json, -, -, hmanager⟩ := importSignedVaultAndUnlock_eq_ok himport
  refine ⟨vault, containerBytes, backupBytes, parsed, hvault, hcontainer, hbackup, himport,
    hparsed, ?_, ?_⟩
  · rw [result_unlockPlaintextJsonGated, hopen]
  · rw [sampleImport, hmanager]
    rfl

end ViperVault
