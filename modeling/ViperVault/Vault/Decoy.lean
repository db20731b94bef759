import ViperVault.Vault.Lifecycle

/-!
# The password of the decoy

When the password of the decoy opens the decoy. The two constructors of duress-enabled vaults
do not compare the two passwords.
-/

namespace ViperVault

open Foundation

section Decoy

variable {Key : Type} (lib : Libraries Key)

/-- The password opens the decoy of the container, which is this payload. -/
def OpensDecoy (parsed : ParsedVaultFile) (password : MasterPassword) (payload : VaultPayload) :
    Prop :=
  ∃ json, unlockVaultToPlaintextJsonWithOutcome lib parsed password = .ok (.decoy, json) ∧
    lib.payloadFromSlice json = some payload

variable {lib}

/-- A sealed safe opens as its decoy under the decoy's password, unless that is the primary
password too. -/
theorem Seals.readBack_opensDecoy_iff (hlib : lib.Ideal) {vault : VaultFile}
    {primaryPassword decoyPassword : MasterPassword} {primaryJson decoyJson : Bytes}
    {decoyPayload : VaultPayload}
    (h : Seals lib vault ⟨primaryPassword, primaryJson, some (decoyPassword, decoyJson)⟩)
    (hdecoy : lib.payloadToVec decoyPayload = some decoyJson) :
    ReadBack lib vault fun parsed =>
      OpensDecoy lib parsed decoyPassword decoyPayload ↔ decoyPassword ≠ primaryPassword := by
  have hread : lib.payloadFromSlice decoyJson = some decoyPayload := by
    have hsome := h.payloadFromSlice_decoy
    rw [payloadFromSlice_of_toVec hlib hdecoy] at hsome ⊢
    split at hsome
    · rw [if_pos (by assumption)]
    · simp at hsome
  apply (h.opensAs hlib).imp
  intro parsed hopens
  have hanswer := hopens decoyPassword
  rw [Safe.answer_decoyPassword] at hanswer
  constructor
  · rintro ⟨json, hopen, -⟩ heq
    rw [hanswer, if_pos heq] at hopen
    cases hopen
  · intro hne
    rw [if_neg hne] at hanswer
    exact ⟨decoyJson, hanswer, hread⟩

/-- The vaults of both constructors open as their decoy under the decoy password exactly when it
is not the primary password. Neither constructor checks this. -/
theorem decoy_opens_iff_passwords_differ (hlib : lib.Ideal) :
    (∀ (fill1 fill2 : SysRngFill) (vaultId : Uuid) (primaryPassword decoyPassword : MasterPassword)
        (primaryPayload decoyPayload : VaultPayload) (schemaVersion : UInt16)
        (kdf : VaultKdfPolicy) (vault : VaultFile),
      createDuressVault lib fill1 fill2 vaultId primaryPassword decoyPassword primaryPayload
        decoyPayload schemaVersion kdf = .ok vault →
      ReadBack lib vault fun parsed =>
        OpensDecoy lib parsed decoyPassword decoyPayload ↔ decoyPassword ≠ primaryPassword) ∧
    (∀ (fill1 fill2 : SysRngFill) (source vault : VaultFile)
        (primaryPassword decoyPassword : MasterPassword) (decoyPayload : VaultPayload)
        (kdf : VaultKdfPolicy),
      enableDuressOnVault lib fill1 fill2 source primaryPassword decoyPassword decoyPayload kdf =
        .ok vault →
      ReadBack lib vault fun parsed =>
        OpensDecoy lib parsed decoyPassword decoyPayload ↔
          decoyPassword ≠ primaryPassword) := by
  constructor
  · intro fill1 fill2 vaultId primaryPassword decoyPassword primaryPayload decoyPayload
      schemaVersion kdf vault h
    obtain ⟨primaryJson, decoyJson, -, hdecoy, hseals⟩ := createDuressVault_seals h
    exact hseals.readBack_opensDecoy_iff hlib hdecoy
  · intro fill1 fill2 source vault primaryPassword decoyPassword decoyPayload kdf h
    obtain ⟨-, -, primaryJson, decoyJson, -, -, -, hdecoy, hseals, -⟩ :=
      enableDuressOnVault_seals h
    exact hseals.readBack_opensDecoy_iff hlib hdecoy

end Decoy

/-- A sample vault under two passwords opens as its decoy under the second. -/
theorem decoy_opens_iff_passwords_differ_sample :
    ∃ vault, createDuressVault symbolic (sampleFill 1) (sampleFill 2) 7 (samplePassword "north")
        (samplePassword "south") samplePayload ⟨[]⟩ 1 samplePolicy = .ok vault ∧
      ReadBack symbolic vault fun parsed =>
        OpensDecoy symbolic parsed (samplePassword "south") ⟨[]⟩ ↔
          samplePassword "south" ≠ samplePassword "north" := by
  obtain ⟨vault, hvault⟩ := exists_sampleVault (samplePassword "north") (samplePassword "south")
  exact ⟨vault, hvault, (decoy_opens_iff_passwords_differ symbolic_ideal).1 _ _ _ _ _ _ _ _ _
    vault hvault⟩

/-- Under one password for both, the real payload is what is shown. -/
theorem shared_password_shows_primary :
    ∃ vault bytes parsed,
      createDuressVault symbolic (sampleFill 1) (sampleFill 2) 7 (samplePassword "north")
        (samplePassword "north") samplePayload ⟨[]⟩ 1 samplePolicy = .ok vault ∧
      encodeVaultStorage headerJson .notDebugged vault.header vault.storage 1 = .ok bytes ∧
      decodeVaultFile headerJson .notDebugged bytes (some 1) maxVaultContainerPayloadLen false =
        .ok parsed ∧
      unlockVaultToPlaintextJsonWithOutcome symbolic parsed (samplePassword "north") =
        .ok (.primary, payloadBytes samplePayload) ∧
      ¬ OpensDecoy symbolic parsed (samplePassword "north") ⟨[]⟩ := by
  have hshort : (samplePassword "north").exposeBytes.length ≤ 1000 := by decide
  obtain ⟨vault, hvault, hseals, hfits⟩ := exists_sealedSampleVault _ _ hshort hshort
  obtain ⟨bytes, parsed, hencode, hdecode, hopens⟩ :=
    hseals.opensAs symbolic_ideal .notDebugged .notDebugged 1 (some 1)
      maxVaultContainerPayloadLen false (by decide) (by simp) hfits
  have hanswer := hopens (samplePassword "north")
  rw [Safe.answer_decoyPassword, if_pos rfl] at hanswer
  refine ⟨vault, bytes, parsed, hvault, hencode, hdecode, hanswer, ?_⟩
  rintro ⟨json, hopen, -⟩
  rw [hanswer] at hopen
  cases hopen

end ViperVault
