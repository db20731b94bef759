import ViperVault.Vault.Lifecycle
import ViperVault.Vault.PowerRuns

/-!
# Vaults in storage

The container format, the unlock flows and the storage together: where only containers of sealed
vaults are written to a path, whatever is found or read there is the container of one of them, and
it opens as its safe.
-/

namespace ViperVault

open Foundation Json

section Containers

variable {Key : Type} (lib : Libraries Key)

/-- The bytes are the container of a vault that seals the safe, and not too long to be read. -/
def Encodes (bytes : Bytes) (safe : Safe) : Prop :=
  ∃ (probe : RuntimeInspectionState) (vault : VaultFile) (formatVersion : UInt16),
    Seals lib vault safe ∧ formatVersion ≠ 0 ∧
    vault.storage.payloadBytes.length ≤ maxVaultContainerPayloadLen.toNat ∧
    encodeVaultStorage lib.headerJson probe vault.header vault.storage formatVersion = .ok bytes

/-- The bytes decode under the bound of the callers, and answer every password as the safe. -/
def OpensBytes (bytes : Bytes) (safe : Safe) : Prop :=
  ∀ (probe : RuntimeInspectionState) (allowPlaintext : Bool), ∃ parsed,
    decodeVaultFile lib.headerJson probe bytes none maxVaultContainerPayloadLen allowPlaintext =
      .ok parsed ∧
    ∀ q, unlockVaultToPlaintextJsonWithOutcome lib parsed q = okOr (safe.answer q) .authFailed

variable {lib} {bytes : Bytes} {safe : Safe}

theorem Encodes.opensBytes (hlib : lib.Ideal) (h : Encodes lib bytes safe) :
    OpensBytes lib bytes safe := by
  obtain ⟨probe, vault, formatVersion, hseals, hversion, hlen, hencode⟩ := h
  intro probe' allowPlaintext
  obtain ⟨bytes', parsed, hencode', hdecode, hunlock⟩ :=
    hseals.opensAs hlib probe probe' formatVersion none maxVaultContainerPayloadLen allowPlaintext
      hversion (by simp) hlen
  rw [hencode] at hencode'
  cases hencode'
  exact ⟨parsed, hdecode, hunlock⟩

end Containers

namespace PowerWorld

open StorageWorld (samplePath)

variable {E Key : Type} {unix : Bool} {path : Path}
  {medium : Option (Path → Option Bytes)} {s : PowerWorld E} {lib : Libraries Key}

/-- The vault file has these bytes, or a read has returned them. -/
def Found (path : Path) (s : PowerWorld E) (bytes : Bytes) : Prop :=
  s.world.disk.files path = some bytes ∨
    ∃ (i : Nat) (trace : StorageTrace E),
      s.world.calls[i]? = some (.read (.returned (.ok bytes)) trace)

/-- What is found was written, or was there at first. -/
theorem found_written {es : List (PowerEvent E)} {bytes : Bytes}
    (h : exec (step unix path) (boot medium []) es = some s) (hfound : Found path s bytes) :
    filesOn medium path = some bytes ∨ Requested es bytes := by
  have hs := persistent_of_boot h
  have hwritten : Written (filesOn medium path) s.journal (some bytes) := by
    rcases hfound with hfile | ⟨i, trace, hcall⟩
    · rw [← hfile, ← hs.view]
      exact hs.target.files
    · exact hs.written_read hcall
  rcases hwritten with hinitial | ⟨bytes', hmem, hsame⟩
  · exact Or.inl hinitial.symm
  · cases hsame
    exact Or.inr ((only_requested h).journal bytes hmem)

/-- A vault is to be written over itself, and the power is lost when its temporary file was made. -/
def writeCutShort (bytes : Bytes) : List (PowerEvent Nat) :=
  [.io (.invoke (.writeVaultAtomic bytes 1)), .io (.advance 0 .done), .io (.advance 0 .done),
   .io (.advance 0 .done), .io (.advance 0 .done), .powerLoss (fun _ => 0) (fun _ => []) false]

/-- Where only containers of sealed vaults were at first and are written, whatever is found or read
is one and opens as its safe, whatever fails and whenever the power is lost. -/
theorem stored_vaults_open (hlib : lib.Ideal) {es : List (PowerEvent E)}
    (hinitial : ∀ bytes, filesOn medium path = some bytes → ∃ safe, Encodes lib bytes safe)
    (hwrites : ∀ bytes, Requested es bytes → ∃ safe, Encodes lib bytes safe)
    (h : exec (step unix path) (boot medium []) es = some s) {bytes : Bytes}
    (hfound : Found path s bytes) : ∃ safe, Encodes lib bytes safe ∧ OpensBytes lib bytes safe := by
  have hencodes : ∃ safe, Encodes lib bytes safe := by
    rcases found_written h hfound with hfirst | hrequested
    · exact hinitial bytes hfirst
    · exact hwrites bytes hrequested
  obtain ⟨safe, hsafe⟩ := hencodes
  exact ⟨safe, hsafe, hsafe.opensBytes hlib⟩

/-- The theorem on the sample vault, which survives a write that is cut short. -/
theorem stored_vaults_open_writeCutShort :
    ∃ (bytes : Bytes) (s : PowerWorld Nat),
      exec (step true samplePath)
        (boot (some (Function.update (fun _ => none) samplePath (some bytes))) [])
        (writeCutShort bytes) = some s ∧ Found samplePath s bytes ∧
      ∃ safe, Encodes symbolic bytes safe ∧ OpensBytes symbolic bytes safe := by
  obtain ⟨vault, -, hseals, hlen⟩ :=
    exists_sealedSampleVault (samplePassword "north") (samplePassword "south") (by decide)
      (by decide)
  obtain ⟨bytes, -, hencode, -⟩ := hseals.opensAs symbolic_ideal .notDebugged .notDebugged 1 none
    maxVaultContainerPayloadLen false (by decide) (by simp) hlen
  have hencodes : ∃ safe, Encodes symbolic bytes safe :=
    ⟨_, .notDebugged, vault, 1, hseals, by decide, hlen, hencode⟩
  have hrun : ∃ s : PowerWorld Nat,
      exec (step true samplePath)
        (boot (some (Function.update (fun _ => none) samplePath (some bytes))) [])
        (writeCutShort bytes) = some s ∧ Found samplePath s bytes := ⟨_, rfl, Or.inl rfl⟩
  obtain ⟨s, hexec, hfound⟩ := hrun
  refine ⟨bytes, s, hexec, hfound, stored_vaults_open symbolic_ideal ?_ ?_ hexec hfound⟩
  · intro other hother
    simp only [filesOn, Option.bind_some, Function.update_self] at hother
    cases hother
    exact hencodes
  · rintro other ⟨suffix, hmem⟩
    simp only [writeCutShort, List.mem_cons, PowerEvent.io.injEq, StorageEvent.invoke.injEq,
      StorageRequest.writeVaultAtomic.injEq, reduceCtorEq, List.not_mem_nil, or_false] at hmem
    rw [hmem.1]
    exact hencodes

end PowerWorld

end ViperVault
