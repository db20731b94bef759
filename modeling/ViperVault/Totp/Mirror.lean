import ViperVault.Core.Concurrent
import ViperVault.Entries.UpdateRuns
import ViperVault.Import.OtpauthList

/-!
# The mirrored secret

A TOTP entry holds its secret twice, as its primary secret and in its block. An update does not
compare the two; `Mirrored` holds of the entries that are built, and every accepted write keeps it.
-/

namespace ViperVault

open Foundation VaultEntry

namespace Totp

/-- The primary secret of a TOTP entry is that of its block. -/
structure Mirrored (entry : VaultEntry) : Prop where
  entryType : entry.metadata.entryType = .totp
  mirror : ∃ totp, entry.secret.totp = some totp ∧ entry.secret.secret = totp.secretB32

/-- The TOTP entries that are built: by `new_totp`, or from a list of URIs. -/
inductive Built (lib : InteropLibraries) : VaultEntry → Prop
  | created {id : Uuid} {title : Text} {totp : TotpSecret} {note : Option Text}
      {entry : VaultEntry} (h : newTotp id title totp note = .ok entry) : Built lib entry
  | listed {policy : PolicyContext} {bytes : Bytes} {payload : VaultPayload} {entry : VaultEntry}
      (h : OtpauthList.parseOtpauthTotpList lib policy bytes = .ok payload)
      (hentry : entry ∈ payload.entries) : Built lib entry

/-- What `new_totp` answers mirrors its secret. -/
theorem mirrored_newTotp {id : Uuid} {title : Text} {totp : TotpSecret} {note : Option Text}
    {entry : VaultEntry} (h : newTotp id title totp note = .ok entry) :
    entry.Valid ∧ Mirrored entry := by
  obtain ⟨-, -, hvalid, rfl⟩ := newTotp_eq_ok h
  exact ⟨(valid_iff _).mpr (Or.inl ⟨rfl, totp, rfl, hvalid⟩), ⟨rfl, totp, rfl, rfl⟩⟩

theorem Built.mirrored {lib : InteropLibraries} {entry : VaultEntry} (h : Built lib entry) :
    entry.Valid ∧ Mirrored entry := by
  cases h with
  | created h => exact mirrored_newTotp h
  | listed h hentry =>
      obtain ⟨_, _, _, hnew, -⟩ := OtpauthList.canonical_of_mem h hentry
      exact mirrored_newTotp hnew

/-- An accepted write keeps the mirror: a new secret goes to both places, and so does the secret of
a new block; the removal of the block is not accepted. -/
theorem mirrored_put (entry : VaultEntry) (p : EntryUpdate) (_ : entry.Valid)
    (htest : p.test entry = .ok ()) (h : Mirrored entry) : Mirrored (p.put entry) := by
  obtain ⟨htype, totp, htotp, hsecret⟩ := h
  cases p with
  | setSecret s =>
      have hblock : ((EntryUpdate.setSecret s).put entry).secret.totp =
          some { totp with secretB32 := ⟨s⟩ } := by
        simp [EntryUpdate.put, htotp]
      exact ⟨htype, _, hblock, rfl⟩
  | setTotp t =>
      cases t with
      | none => simp [EntryUpdate.test, htype] at htest
      | some t => exact ⟨htype, t, rfl, rfl⟩
  | _ => exact ⟨htype, totp, htotp, hsecret⟩

/-- A code is computed from what the secret of the block decodes to. -/
theorem exists_raw_of_totpGenerateFromSecret {lib : TotpLibraries} {totp : TotpSecret}
    {time : UInt64} {code : UInt32} (h : totpGenerateFromSecret lib totp time = .ok code) :
    ∃ raw, decodeBase32SecretStrict lib totp.secretB32.exposeSecret = .ok raw ∧
      totpGenerateRaw lib raw time totp.periodSecs totp.digits totp.algorithm = .ok code := by
  obtain ⟨-, h⟩ := check_bind_eq_ok.mp h
  obtain ⟨-, h⟩ := check_bind_eq_ok.mp h
  obtain ⟨raw, hraw, h⟩ := bind_eq_ok.mp h
  exact ⟨raw, mapError_eq_ok.mp hraw, h⟩

/-- The secret that an entry reveals is the one of its block, from which its codes are computed. -/
structure RevealsCodeSecret (entry : VaultEntry) (totp : TotpSecret) : Prop where
  block : entry.secret.totp = some totp
  mirror : entry.secret.secret = totp.secretB32
  revealed : ∀ env st id, getEntry env.serde id st = .ok entry.toView →
    (DisclosureRequest.revealEntrySecret id).read env st = .ok (.secret entry.secret.secret)
  codes : ∀ lib time code, totpGenerateFromSecret lib totp time = .ok code →
    ∃ raw, decodeBase32SecretStrict lib entry.secret.secret.exposeSecret = .ok raw ∧
      totpGenerateRaw lib raw time totp.periodSecs totp.digits totp.algorithm = .ok code

/-- After any run of accepted updates, an entry reveals the secret that its codes are computed
from. -/
theorem mirror_of_run {lib : InteropLibraries} {entry entry' : VaultEntry}
    {updates : List EntryUpdate} (hentry : Built lib entry)
    (hrun : exec EntryUpdate.applied entry updates = some entry') :
    entry'.metadata.entryType = .totp ∧ ∃ totp, RevealsCodeSecret entry' totp := by
  obtain ⟨hvalid, hmirrored⟩ := hentry.mirrored
  obtain ⟨hvalid', htype, totp, htotp, hsecret⟩ :=
    EntryUpdate.exec_applied_invariant Mirrored mirrored_put hvalid hmirrored hrun
  -- a checked secret is not empty
  have hne : totp.secretB32.exposeSecret ≠ [] := by
    rcases entry'.valid_iff.mp hvalid' with ⟨-, t, ht, hcheck⟩ | ⟨hother, -⟩
    · rw [htotp] at ht
      cases ht
      exact (totp.validate_eq_ok.mp hcheck).2.2.1
    · exact absurd htype hother
  refine ⟨htype, totp, htotp, hsecret, ?_, ?_⟩
  · intro env st id hget
    exact read_revealEntrySecret hget (hsecret ▸ hne)
  · intro lib time code hcode
    rw [hsecret]
    exact exists_raw_of_totpGenerateFromSecret hcode

/-- The theorem on a bulk update of secret and block, which leaves the secret of the block. -/
theorem mirror_of_run_replace :
    let update : EntryUpdate :=
      .replace none none none (some "MZXW6YTBOI======".toList) none (some (some shortTotp))
    exec EntryUpdate.applied (sampleEntry sampleTotp) [update] = some (sampleEntry shortTotp) ∧
      (sampleEntry shortTotp).metadata.entryType = .totp ∧
      ∃ totp, RevealsCodeSecret (sampleEntry shortTotp) totp := by
  intro update
  have hnew : newTotp 1 "GitHub".toList sampleTotp none = .ok (sampleEntry sampleTotp) := rfl
  have hbuilt : Built OtpauthList.sampleInteropLibraries (sampleEntry sampleTotp) := .created hnew
  have hrun : exec EntryUpdate.applied (sampleEntry sampleTotp) [update] =
      some (sampleEntry shortTotp) := by decide +kernel
  exact ⟨hrun, mirror_of_run hbuilt hrun⟩

end Totp

end ViperVault
