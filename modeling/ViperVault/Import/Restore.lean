import ViperVault.Import.Signed
import ViperVault.Vault.Stored

/-!
# Restored backups

A vault that is put into a signed backup and imported from it: the import answers, counts and hands
over as an unlock of the vault itself does.
-/

namespace ViperVault

open Foundation Json

section Restore

variable {Key : Type} {lib : Libraries Key} {backupLib : BackupLibraries Key}
  {decoderProbe managerProbe : RuntimeInspectionState} {policy policy' : PolicyContext}
  {throttle : UnlockThrottlePolicy} {clock : GateClock} {password : MasterPassword}
  {containerBytes signedBackupBytes : Bytes} {limiter : UnlockRateLimiter} {manager : VaultState}

variable (lib) in
/-- The import does with a gate and a manager what the answer of a safe asks for. -/
def SignedImport.Shows (imported : SignedImport) (managerProbe : RuntimeInspectionState)
    (throttle : UnlockThrottlePolicy) (clock : GateClock) (limiter : UnlockRateLimiter)
    (manager : VaultState) : Option (UnlockOutcome × Bytes) → Prop
  | none =>
      imported.result = .error .authFailed ∧ imported.manager = manager ∧
        (imported.delay, imported.limiter) =
          limiter.onFailureDelay throttle clock.now clock.jitter
  | some (outcome, json) =>
      imported.result = .ok () ∧
        imported.manager = .unlockWithPlaintextJson managerProbe json ∧ imported.delay = 0 ∧
        imported.limiter = (if outcome = .primary then .onSuccess else limiter) ∧
        ∀ payload, payload.Valid → lib.payloadToVec payload = some json →
          getPayload lib.payloadJson imported.manager = some payload

/-- Backups are transferred in one context only. -/
theorem eq_of_allowSignedBackupTransfer (h : policy.allowSignedBackupTransfer = true)
    (h' : policy'.allowSignedBackupTransfer = true) : policy = policy' := by
  obtain ⟨outcome, runtimeState⟩ := policy
  obtain ⟨outcome', runtimeState'⟩ := policy'
  obtain ⟨rfl, rfl⟩ := (PolicyContext.allowSignedBackupTransfer_iff _).mp h
  obtain ⟨rfl, rfl⟩ := (PolicyContext.allowSignedBackupTransfer_iff _).mp h'
  rfl

/-- What a gate makes of the answer of a safe. -/
def gatedAnswer (throttle : UnlockThrottlePolicy) (clock : GateClock)
    (limiter : UnlockRateLimiter) :
    Option (UnlockOutcome × Bytes) → Gated UnlockError (UnlockOutcome × Bytes)
  | none =>
      { result := .error .authFailed
        limiter := (limiter.onFailureDelay throttle clock.now clock.jitter).2
        delay := (limiter.onFailureDelay throttle clock.now clock.jitter).1 }
  | some (outcome, json) =>
      { result := .ok (outcome, json)
        limiter := if outcome = .primary then .onSuccess else limiter
        delay := 0 }

theorem unlockPlaintextJsonGated_eq {parsed : ParsedVaultFile}
    {answer : Option (UnlockOutcome × Bytes)}
    (h : unlockVaultToPlaintextJsonWithOutcome lib parsed password = okOr answer .authFailed) :
    unlockPlaintextJsonGated lib throttle clock parsed password limiter =
      gatedAnswer throttle clock limiter answer := by
  rw [unlockPlaintextJsonGated, h]
  cases answer with
  | none => rfl
  | some opened =>
      obtain ⟨outcome, json⟩ := opened
      cases outcome with
      | primary => rfl
      | decoy => rfl

/-- A backup that was made of the container of a sealed vault, under any password, imports as the
vault unlocks: under an allowing policy the answer of the safe decides what the import answers, what
the gate counts and what the manager holds, and a payload that was sealed is there again. Under
another policy nothing happens. -/
theorem backups_restore_their_vaults (hlib : lib.Ideal) (hbackup : backupLib.Ideal) {safe : Safe}
    {kdf : BackupKdfPolicy} {salt : Option Salt} (hsafe : Encodes lib containerBytes safe)
    (hencode : encodeSignedBackup backupLib policy password containerBytes kdf salt =
      .ok signedBackupBytes) :
    (policy'.allowSignedBackupTransfer = true →
      (importSignedVaultAndUnlock lib backupLib decoderProbe managerProbe policy' throttle clock
        password signedBackupBytes limiter manager).Shows lib managerProbe throttle clock limiter
          manager (safe.answer password)) ∧
    (policy'.allowSignedBackupTransfer = false →
      importSignedVaultAndUnlock lib backupLib decoderProbe managerProbe policy' throttle clock
          password signedBackupBytes limiter manager =
        ⟨.error .policyDenied, limiter, 0, manager⟩) := by
  constructor
  · intro hallowed
    obtain ⟨parsed, hdecode, hopens⟩ := hsafe.opensBytes hlib decoderProbe false
    have hmode : parsed.mode = .encrypted := by
      have hprimary := hopens safe.primaryPassword
      rw [Safe.answer, if_pos rfl, okOr_some] at hprimary
      exact mode_eq_encrypted_of_unlock hprimary
    obtain ⟨hexported, himport⟩ := importVipervaultFromSignedBackup_of_encode hbackup hencode
      hdecode hmode
    obtain rfl : policy' = policy := eq_of_allowSignedBackupTransfer hallowed hexported
    have hgated : unlockPlaintextJsonGated lib throttle clock parsed password limiter =
        gatedAnswer throttle clock limiter (safe.answer password) :=
      unlockPlaintextJsonGated_eq (hopens password)
    have hnot : ¬ policy'.allowSignedBackupTransfer = false := by simp [hallowed]
    simp only [importSignedVaultAndUnlock, if_neg hnot, himport, hgated]
    cases safe.answer password with
    | none => exact ⟨rfl, rfl, rfl⟩
    | some opened =>
        obtain ⟨outcome, json⟩ := opened
        refine ⟨rfl, rfl, rfl, rfl, ?_⟩
        intro payload hvalid hjson
        exact (payloadFromSlice_of_toVec hlib hjson).trans (if_pos hvalid)
  · intro hdenied
    simp [importSignedVaultAndUnlock, hdenied]

end Restore

/-- The safe of the sample vault. -/
def sampleSafe : Safe :=
  ⟨samplePassword "north", payloadBytes samplePayload,
    some (samplePassword "south", payloadBytes ⟨[]⟩)⟩

/-- The theorem on the sample vault, imported under the password of its decoy. -/
theorem backups_restore_their_vaults_decoy :
    ∃ backupBytes,
      (importSignedVaultAndUnlock symbolic symbolicBackup .notDebugged .notDebugged
        samplePolicyContext .default ⟨0, 0⟩ (samplePassword "south") backupBytes .onSuccess
        .locked).Shows symbolic .notDebugged .default ⟨0, 0⟩ .onSuccess .locked
          (sampleSafe.answer (samplePassword "south")) ∧
      importSignedVaultAndUnlock symbolic symbolicBackup .notDebugged .notDebugged
        ⟨.decoy, .notDebugged⟩ .default ⟨0, 0⟩ (samplePassword "south") backupBytes .onSuccess
        .locked = ⟨.error .policyDenied, .onSuccess, 0, .locked⟩ := by
  obtain ⟨vault, hvault, hseals, hlen⟩ :=
    exists_sealedSampleVault (samplePassword "north") (samplePassword "south") (by decide)
      (by decide)
  have hanswer : sampleSafe.answer (samplePassword "south") =
      some (.decoy, payloadBytes ⟨[]⟩) := by
    rw [sampleSafe, Safe.answer_decoyPassword, if_neg (by decide)]
  obtain ⟨vault', containerBytes, backupBytes, -, hvault', hcontainer, hbackup, -⟩ :=
    exists_sampleImport (samplePassword "south") hanswer
  obtain rfl : vault = vault' := Except.ok.inj (hvault.symm.trans hvault')
  have hencodes : Encodes symbolic containerBytes sampleSafe :=
    ⟨.notDebugged, vault, 1, hseals, by decide, hlen, hcontainer⟩
  exact ⟨backupBytes,
    (backups_restore_their_vaults symbolic_ideal symbolicBackup_ideal hencodes hbackup).1 rfl,
    (backups_restore_their_vaults symbolic_ideal symbolicBackup_ideal hencodes hbackup).2 rfl⟩

end ViperVault
