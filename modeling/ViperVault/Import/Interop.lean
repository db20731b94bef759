import ViperVault.Core.Session
import ViperVault.Entries.Dto
import ViperVault.Foundation.Results

/-!
# Quarantined imports

The part of `import/interop.rs` that guards and commits a parsed import. A quarantined import
has private fields and one constructor function, which checks the payload, so it carries that
check as a field. The parser of the plaintext format is a parameter.
-/

namespace ViperVault

open Foundation

/-- `ImportError`. -/
inductive ImportError
  | policyDenied
  | authFailed
  | invalidFormat
  | payloadTooLarge
  | invalidData
  deriving DecidableEq, Repr

/-- `InteropFormat`. -/
inductive InteropFormat
  | otpAuthTotpUriList
  | other
  deriving DecidableEq, Repr

/-- `ImportIntent`. -/
inductive ImportIntent
  | userConfirmed
  deriving DecidableEq, Repr

/-- `MAX_INTEROP_IMPORT_BYTES`. -/
def maxInteropImportBytes : Nat := 16 * 1024 * 1024

/-- `MAX_INTEROP_ENTRIES`. -/
def maxInteropEntries : Nat := 100000

/-- The checks of `validate_payload_invariants` on one entry. -/
def validateImportedEntry (entry : VaultEntry) : Except ImportError Unit :=
  if entry.metadata.entryType ≠ .totp then .error .invalidData
  else
    match entry.secret.totp with
    | none => .error .invalidData
    | some totp =>
        match totp.validate with
        | .error _ => .error .invalidData
        | .ok () =>
            if entry.secret.secret.exposeSecret ≠ totp.secretB32.exposeSecret then
              .error .invalidData
            else .ok ()

/-- `validate_payload_invariants`. -/
def validatePayloadInvariants (payload : VaultPayload) : Except ImportError Unit :=
  if payload.entries.length > maxInteropEntries then .error .payloadTooLarge
  else payload.entries.forM validateImportedEntry

/-- `QuarantinedImport`. -/
structure QuarantinedImport where
  format : InteropFormat
  payload : VaultPayload
  /-- the last check of `import_interop_quarantine` -/
  checked : validatePayloadInvariants payload = .ok ()

/-- `import_interop_quarantine`, with `parse` for `parse_otpauth_totp_list`. -/
def importInteropQuarantine (parse : PolicyContext → Bytes → Except ImportError VaultPayload)
    (policy : PolicyContext) (_intent : ImportIntent) (format : InteropFormat) (bytes : Bytes) :
    Except ImportError QuarantinedImport := do
  failIf (policy.allowPlaintextImport = false) .policyDenied
  failIf (bytes = [] ∨ maxInteropImportBytes < bytes.length) .payloadTooLarge
  let payload ← match format with
    | .otpAuthTotpUriList => parse policy bytes
    | .other => .error .invalidFormat
  match checked : validatePayloadInvariants payload with
  | .error e => .error e
  | .ok () => return { format := format, payload := payload, checked := checked }

/-- When a list of URIs is taken into quarantine. -/
theorem importInteropQuarantine_eq_ok
    {parse : PolicyContext → Bytes → Except ImportError VaultPayload} {policy : PolicyContext}
    {intent : ImportIntent} {bytes : Bytes} {q : QuarantinedImport} :
    importInteropQuarantine parse policy intent .otpAuthTotpUriList bytes = .ok q ↔
      policy.allowPlaintextImport = true ∧ bytes ≠ [] ∧ bytes.length ≤ maxInteropImportBytes ∧
        parse policy bytes = .ok q.payload ∧ q.format = .otpAuthTotpUriList := by
  simp only [importInteropQuarantine, check_bind_eq_ok, failIf_eq_ok, Bool.not_eq_false, not_or,
    Nat.not_lt, and_assoc]
  refine and_congr_right fun _ => and_congr_right fun _ => and_congr_right fun _ => ?_
  rw [bind_eq_ok]
  constructor
  · rintro ⟨payload, hparse, h⟩
    split at h
    · cases h
    · rw [← pure_eq_ok.mp h]
      exact ⟨hparse, rfl⟩
  · rintro ⟨hparse, hformat⟩
    refine ⟨q.payload, hparse, ?_⟩
    split
    · next e he => exact absurd (he.symm.trans q.checked) (by simp)
    · rw [pure_eq_ok, ← hformat]

/-- `commit_quarantined_import_into_payload`. -/
def commitQuarantinedImportIntoPayload (policy : PolicyContext)
    (quarantined : QuarantinedImport) : Mut VaultPayload ImportError Unit := do
  let existing ← Mut.read
  if !policy.allowPlaintextImport then
    Mut.fail .policyDenied
  else if existing.entries.length + quarantined.payload.entries.length > maxInteropEntries then
    Mut.fail .payloadTooLarge
  else
    Mut.write fun p => { p with entries := p.entries ++ quarantined.payload.entries }

theorem valid_of_validateImportedEntry {entry : VaultEntry}
    (h : validateImportedEntry entry = .ok ()) : entry.Valid := by
  unfold validateImportedEntry at h
  by_cases htype : entry.metadata.entryType = .totp
  · cases htotp : entry.secret.totp with
    | none => simp [htype, htotp] at h
    | some totp =>
        cases hvalidate : totp.validate with
        | error err => simp [htype, htotp, hvalidate] at h
        | ok u =>
            have hvalid : ∃ t, entry.secret.totp = some t ∧ t.validate = .ok () :=
              ⟨totp, htotp, hvalidate⟩
            exact (VaultEntry.valid_iff entry).mpr (Or.inl ⟨htype, hvalid⟩)
  · simp [htype] at h

/-- The entries of a quarantined import satisfy the invariants of their type. -/
theorem QuarantinedImport.valid (q : QuarantinedImport) : q.payload.Valid := by
  have hchecked := q.checked
  unfold validatePayloadInvariants at hchecked
  split at hchecked
  · cases hchecked
  · intro e he
    exact valid_of_validateImportedEntry (forM_eq_ok.mp hchecked e he)

/-- A refused commit leaves the payload alone. -/
theorem commit_atomic (policy : PolicyContext) (q : QuarantinedImport) :
    Mut.Atomic (commitQuarantinedImportIntoPayload policy q) := by
  intro p err p' h
  unfold commitQuarantinedImportIntoPayload at h
  rw [Mut.run_bind_ok (Mut.run_read p)] at h
  split at h
  · simpa using (congrArg Prod.snd h).symm
  · split at h
    · simpa using (congrArg Prod.snd h).symm
    · simp at h

/-- A commit keeps the payload valid. -/
theorem commit_valid (policy : PolicyContext) (q : QuarantinedImport) {p : VaultPayload}
    (hp : p.Valid) : ((commitQuarantinedImportIntoPayload policy q).run p).2.Valid := by
  unfold commitQuarantinedImportIntoPayload
  rw [Mut.run_bind_ok (Mut.run_read p)]
  split
  · exact hp
  · split
    · exact hp
    · intro e he
      rcases List.mem_append.mp he with he | he
      · exact hp e he
      · exact q.valid e he

end ViperVault
