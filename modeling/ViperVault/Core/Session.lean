import Mathlib.Init

/-!
# Session posture and the policy matrix

The enumerations of `core/session.rs` and `core/antidebug.rs` with their predicates, and
`PolicyContext` of `core/policy.rs`. The live probe of the process is not modelled: its
answer is an argument wherever the source calls it.
-/

namespace ViperVault

/-- `UnlockOutcome`. -/
inductive UnlockOutcome
  | primary
  | decoy
  deriving DecidableEq, Repr

/-- `RuntimeInspectionState`. -/
inductive RuntimeInspectionState
  | notDebugged
  | debugged
  | unknown
  | tamperSuspected
  deriving DecidableEq, Repr

/-- `RuntimeInspectionState::is_restrictive`. -/
def RuntimeInspectionState.isRestrictive (s : RuntimeInspectionState) : Bool :=
  !(s == .notDebugged)

/-- `AuthenticationStrength`. -/
inductive AuthenticationStrength
  | strong
  | biometric
  | quickUnlock
  deriving DecidableEq, Repr

/-- `AuthenticationStrength::is_strong`. -/
def AuthenticationStrength.isStrong (s : AuthenticationStrength) : Bool := s == .strong

/-- `SensitiveOperation`. -/
inductive SensitiveOperation
  | export
  | signedBackupTransfer
  | revealSecret
  | copySecret
  | copyTotp
  | changeSecuritySettings
  deriving DecidableEq, Repr

/-- `SensitiveOperation::requires_strong_reauth`. -/
def SensitiveOperation.requiresStrongReauth : SensitiveOperation → Bool
  | .export | .signedBackupTransfer | .revealSecret | .copySecret | .copyTotp
  | .changeSecuritySettings => true

/-- `RuntimeSecurityEvent`. -/
inductive RuntimeSecurityEvent
  | appBackgrounded
  | deviceLocked
  | biometricSetChanged
  | quickUnlockInvalidated
  | runtimeBecameRestrictive
  deriving DecidableEq, Repr

/-- `RuntimeSecurityEvent::forces_lock`. -/
def RuntimeSecurityEvent.forcesLock : RuntimeSecurityEvent → Bool
  | .deviceLocked | .biometricSetChanged | .quickUnlockInvalidated
  | .runtimeBecameRestrictive => true
  | .appBackgrounded => false

/-- `RuntimeSecurityEvent::requires_strong_reauth`. -/
def RuntimeSecurityEvent.requiresStrongReauth (ev : RuntimeSecurityEvent) : Bool :=
  ev == .appBackgrounded

/-- `PolicyContext`; `from_parts` is the constructor. -/
structure PolicyContext where
  outcome : UnlockOutcome
  runtimeState : RuntimeInspectionState
  deriving DecidableEq, Repr

namespace PolicyContext

variable (p : PolicyContext)

/-- `PolicyContext::is_decoy`. -/
def isDecoy : Bool := p.outcome == .decoy

/-- `PolicyContext::is_runtime_restrictive`. -/
def isRuntimeRestrictive : Bool := p.runtimeState.isRestrictive

/-- The matrix row that the `allow_…_for_state` methods share. -/
def allowForState (state : RuntimeInspectionState) : Bool :=
  !p.isDecoy && state == .notDebugged

/-- `PolicyContext::allow_plaintext_export`, by way of `allow_secret_export`. -/
def allowPlaintextExport : Bool := p.allowForState p.runtimeState

/-- `PolicyContext::allow_plaintext_import`. -/
def allowPlaintextImport : Bool := p.allowForState p.runtimeState

/-- `PolicyContext::allow_biometric_unlock`. -/
def allowBiometricUnlock : Bool := p.allowForState p.runtimeState

/-- `PolicyContext::allow_signed_backup_transfer`. -/
def allowSignedBackupTransfer : Bool := p.allowForState p.runtimeState

/-- `PolicyContext::allow_otpauth_import`. -/
def allowOtpauthImport : Bool := p.allowForState p.runtimeState

/-- `PolicyContext::allow_clipboard_copy`. -/
def allowClipboardCopy : Bool := p.allowForState p.runtimeState

/-- `PolicyContext::allow_totp_copy`. -/
def allowTotpCopy : Bool := p.allowClipboardCopy

/-- `PolicyContext::allow_secret_reveal`. -/
def allowSecretReveal : Bool := !p.isDecoy && p.runtimeState == .notDebugged

/-- `PolicyContext::allow_sensitive_operation`. -/
def allowSensitiveOperation : SensitiveOperation → Bool
  | .export => p.allowPlaintextExport
  | .signedBackupTransfer => p.allowSignedBackupTransfer
  | .revealSecret => p.allowSecretReveal
  | .copySecret => p.allowClipboardCopy
  | .copyTotp => p.allowTotpCopy
  | .changeSecuritySettings => !p.isDecoy && !p.isRuntimeRestrictive

/-- Every row of the matrix is the same test. -/
theorem allowSensitiveOperation_iff (op : SensitiveOperation) :
    p.allowSensitiveOperation op = true ↔
      p.outcome = .primary ∧ p.runtimeState = .notDebugged := by
  obtain ⟨outcome, runtimeState⟩ := p
  cases op <;> cases outcome <;> cases runtimeState <;> decide

theorem allowPlaintextImport_iff :
    p.allowPlaintextImport = true ↔ p.outcome = .primary ∧ p.runtimeState = .notDebugged :=
  p.allowSensitiveOperation_iff .export

theorem allowSignedBackupTransfer_iff :
    p.allowSignedBackupTransfer = true ↔
      p.outcome = .primary ∧ p.runtimeState = .notDebugged :=
  p.allowSensitiveOperation_iff .signedBackupTransfer

end PolicyContext

/-- `allow_plaintext_export_under_runtime_policy`, on the answer of the live probe. -/
def allowPlaintextExportUnderRuntimePolicy (probe : RuntimeInspectionState) : Bool :=
  (PolicyContext.mk .primary probe).allowPlaintextExport

end ViperVault
