import ViperVault.Vault.Codec

/-!
# The grammar of containers

What a container is, field by field, without a cursor or a reader. The decoder accepts exactly
the containers, and what the encoder writes is one.
-/

namespace ViperVault

open Foundation Reader

/-- The bytes are those of the container, and the container is admissible under the expected
version, the bound on the payload and the policy on plaintext. -/
structure Container (headerSerde : Serde VaultHeader) (probe : RuntimeInspectionState)
    (expectedFormatVersion : Option UInt16) (maxPayloadLen : UInt64) (allowPlaintext : Bool)
    (bytes : Bytes) (p : ParsedVaultFile) : Prop where
  layout : bytes = magic ++ (leBytes 2 p.formatVersion.toNat ++ ([p.mode.toByte] ++
    (leBytes 4 p.headerBytes.length ++ (p.headerBytes ++
      (leBytes 8 p.payload.length ++ p.payload)))))
  formatVersion_ne_zero : p.formatVersion ≠ 0
  formatVersion_expected : ∀ expected ∈ expectedFormatVersion, p.formatVersion = expected
  mode_allowed : p.mode = .encrypted ∨
    p.mode = .plaintextJson ∧ allowPlaintext = true ∧
      allowPlaintextExportUnderRuntimePolicy probe = true ∧ p.header.duress = none
  headerBytes_length : p.headerBytes.length ≤ maxHeaderLen.toNat
  header : headerSerde.fromSlice p.headerBytes = some p.header
  payload_length : p.payload.length ≤ maxPayloadLen.toNat

/-! ## Fields -/

theorem run_readU16Le_eq_ok {input rest : Bytes} {n : UInt16} :
    readU16Le.run input = .ok (n, rest) ↔ input = leBytes 2 n.toNat ++ rest :=
  run_readLe_map_eq_ok (fun _ => UInt16.ofNat_toNat) (fun _ h => UInt16.toNat_ofNat_of_lt' h)
    UInt16.toNat_lt

theorem run_readU32Le_eq_ok {input rest : Bytes} {n : UInt32} :
    readU32Le.run input = .ok (n, rest) ↔ input = leBytes 4 n.toNat ++ rest :=
  run_readLe_map_eq_ok (fun _ => UInt32.ofNat_toNat) (fun _ h => UInt32.toNat_ofNat_of_lt' h)
    UInt32.toNat_lt

theorem run_readU64Le_eq_ok {input rest : Bytes} {n : UInt64} :
    readU64Le.run input = .ok (n, rest) ↔ input = leBytes 8 n.toNat ++ rest :=
  run_readLe_map_eq_ok (fun _ => UInt64.ofNat_toNat) (fun _ h => UInt64.toNat_ofNat_of_lt' h)
    UInt64.toNat_lt

theorem run_readU8_eq_ok {input rest : Bytes} {n : UInt8} :
    readU8.run input = .ok (n, rest) ↔ input = [n] ++ rest := by
  rw [readU8, run_map_eq_ok]
  constructor
  · rintro ⟨bytes, hread, rfl⟩
    obtain ⟨rfl, hlen⟩ := run_readExact_eq_ok.mp hread
    obtain ⟨b, rfl⟩ := List.length_eq_one_iff.mp hlen
    rfl
  · rintro rfl
    exact ⟨[n], run_readExact_eq_ok.mpr ⟨rfl, rfl⟩, rfl⟩

/-- A check takes nothing off the input. -/
theorem run_check_bind_eq_ok {ε β : Type} {c : Prop} [Decidable c] {e : ε}
    {f : Unit → Reader ε β} {input rest : Bytes} {b : β} :
    (answer (failIf c e) >>= f).run input = .ok (b, rest) ↔
      ¬ c ∧ (f ()).run input = .ok (b, rest) := by
  rw [run_bind_eq_ok]
  constructor
  · rintro ⟨⟨⟩, mid, hcheck, hrest⟩
    obtain ⟨hc, rfl⟩ := run_answer_eq_ok.mp hcheck
    exact ⟨failIf_eq_ok.mp hc, hrest⟩
  · rintro ⟨hc, hrest⟩
    exact ⟨(), input, run_answer_eq_ok.mpr ⟨failIf_eq_ok.mpr hc, rfl⟩, hrest⟩

theorem storageModeOf_eq_ok {probe : RuntimeInspectionState} {allowPlaintext : Bool} {raw : UInt8}
    {mode : StorageMode} :
    storageModeOf probe allowPlaintext raw = .ok mode ↔
      raw = mode.toByte ∧ (mode = .encrypted ∨ mode = .plaintextJson ∧ allowPlaintext = true ∧
        allowPlaintextExportUnderRuntimePolicy probe = true) := by
  unfold storageModeOf
  cases mode with
  | encrypted =>
      by_cases hone : raw = 1
      · simp [hone, StorageMode.toByte]
      · simp only [if_neg hone]
        split
        · split <;> simp [StorageMode.toByte, hone]
        · simp [StorageMode.toByte, hone]
  | plaintextJson =>
      by_cases hone : raw = 1
      · simp [hone, StorageMode.toByte]
      · by_cases htwo : raw = 2
        · subst htwo
          simp [StorageMode.toByte]
        · simp [hone, htwo, StorageMode.toByte]

/-! ## The decoder -/

section Decoder

variable {headerSerde : Serde VaultHeader} {probe : RuntimeInspectionState}
  {expectedFormatVersion : Option UInt16} {maxPayloadLen : UInt64} {allowPlaintext : Bool}

/-- What the decoder accepts is a container. -/
theorem container_of_decodeVaultFile {bytes : Bytes} {p : ParsedVaultFile}
    (h : decodeVaultFile headerSerde probe bytes expectedFormatVersion maxPayloadLen
      allowPlaintext = .ok p) :
    Container headerSerde probe expectedFormatVersion maxPayloadLen allowPlaintext bytes p := by
  have hrun := runToEnd_eq_ok.mp h
  obtain ⟨found, _, hfound, hrun⟩ := run_bind_eq_ok.mp hrun
  obtain ⟨hmagic, hrun⟩ := run_check_bind_eq_ok.mp hrun
  obtain ⟨formatVersion, _, hformatVersion, hrun⟩ := run_bind_eq_ok.mp hrun
  obtain ⟨hnonzero, hrun⟩ := run_check_bind_eq_ok.mp hrun
  obtain ⟨hexpected, hrun⟩ := run_check_bind_eq_ok.mp hrun
  obtain ⟨raw, _, hraw, hrun⟩ := run_bind_eq_ok.mp hrun
  obtain ⟨mode, _, hmode, hrun⟩ := run_bind_eq_ok.mp hrun
  obtain ⟨headerLen, _, hheaderLen, hrun⟩ := run_bind_eq_ok.mp hrun
  obtain ⟨hheaderCap, hrun⟩ := run_check_bind_eq_ok.mp hrun
  obtain ⟨headerBytes, _, hheaderBytes, hrun⟩ := run_bind_eq_ok.mp hrun
  obtain ⟨header, _, hheader, hrun⟩ := run_bind_eq_ok.mp hrun
  obtain ⟨hduress, hrun⟩ := run_check_bind_eq_ok.mp hrun
  obtain ⟨payloadLen, _, hpayloadLen, hrun⟩ := run_bind_eq_ok.mp hrun
  obtain ⟨hpayloadCap, hrun⟩ := run_check_bind_eq_ok.mp hrun
  obtain ⟨payload, rest, hpayload, hreturn⟩ := run_bind_eq_ok.mp hrun
  have hend : rest = [] ∧ p = ⟨formatVersion, header, headerBytes, mode, payload⟩ := by
    cases hreturn
    exact ⟨rfl, rfl⟩
  obtain ⟨rfl, rfl⟩ := hend
  -- The fields, from the last one to the first.
  obtain ⟨rfl, hpayloadLength⟩ := run_readExact_eq_ok.mp hpayload
  rw [run_readU64Le_eq_ok, ← hpayloadLength] at hpayloadLen
  obtain ⟨hread, rfl⟩ := run_answer_eq_ok.mp hheader
  obtain ⟨rfl, hheaderLength⟩ := run_readExact_eq_ok.mp hheaderBytes
  rw [run_readU32Le_eq_ok, ← hheaderLength] at hheaderLen
  obtain ⟨hallowed, rfl⟩ := run_answer_eq_ok.mp hmode
  obtain ⟨rfl, hplaintext⟩ := storageModeOf_eq_ok.mp hallowed
  rw [run_readU8_eq_ok] at hraw
  rw [run_readU16Le_eq_ok] at hformatVersion
  obtain ⟨rfl, -⟩ := run_readExact_eq_ok.mp hfound
  have hmagic : found = magic := by simpa using hmagic
  refine
    { layout := ?_
      formatVersion_ne_zero := hnonzero
      formatVersion_expected := ?_
      mode_allowed := ?_
      headerBytes_length := ?_
      header := okOr_eq_ok.mp hread
      payload_length := ?_ }
  · rw [hmagic, hformatVersion, hraw, hheaderLen, hpayloadLen, List.append_nil]
  · intro expected hmem
    by_contra hne
    exact hexpected ⟨expected, hmem, hne⟩
  · refine hplaintext.imp id ?_
    rintro ⟨hplain, hallow, hprobe⟩
    exact ⟨hplain, hallow, hprobe, by simpa [hplain] using hduress⟩
  · rw [hheaderLength]
    exact UInt32.le_iff_toNat_le.mp (UInt32.not_lt.mp hheaderCap)
  · rw [hpayloadLength]
    exact UInt64.le_iff_toNat_le.mp (UInt64.not_lt.mp hpayloadCap)

/-- The decoder accepts every container. -/
theorem Container.decodeVaultFile {bytes : Bytes} {p : ParsedVaultFile}
    (h : Container headerSerde probe expectedFormatVersion maxPayloadLen allowPlaintext bytes p) :
    decodeVaultFile headerSerde probe bytes expectedFormatVersion maxPayloadLen allowPlaintext =
      .ok p := by
  have hheaderLt : p.headerBytes.length < 2 ^ 32 := by
    have hmax : maxHeaderLen.toNat = 4096 := rfl
    have hlen := h.headerBytes_length
    omega
  have hpayloadLt : p.payload.length < 2 ^ 64 :=
    Nat.lt_of_le_of_lt h.payload_length maxPayloadLen.toNat_lt
  have hlayout : bytes = containerBytes p.formatVersion p.mode p.headerBytes p.payload := by
    rw [containerBytes, UInt32.toNat_ofNat_of_lt' hheaderLt, UInt64.toNat_ofNat_of_lt' hpayloadLt,
      h.layout]
  have hmode : storageModeOf probe allowPlaintext p.mode.toByte = .ok p.mode := by
    refine storageModeOf_eq_ok.mpr ⟨rfl, h.mode_allowed.imp id ?_⟩
    rintro ⟨hplain, hallow, hprobe, -⟩
    exact ⟨hplain, hallow, hprobe⟩
  have hduress : ¬ (p.header.duress.isSome ∧ p.mode = .plaintextJson) := by
    rintro ⟨hsome, hplain⟩
    rcases h.mode_allowed with hencrypted | ⟨-, -, -, hnone⟩
    · rw [hencrypted] at hplain
      cases hplain
    · rw [hnone] at hsome
      cases hsome
  rw [hlayout]
  exact decodeVaultFile_containerBytes_of_mode headerSerde h.formatVersion_ne_zero
    (fun expected hmem => (h.formatVersion_expected expected hmem).symm) hmode hduress h.header
    h.headerBytes_length h.payload_length

theorem decodeVaultFile_eq_ok_iff {bytes : Bytes} {p : ParsedVaultFile} :
    decodeVaultFile headerSerde probe bytes expectedFormatVersion maxPayloadLen allowPlaintext =
        .ok p ↔
      Container headerSerde probe expectedFormatVersion maxPayloadLen allowPlaintext bytes p :=
  ⟨container_of_decodeVaultFile, Container.decodeVaultFile⟩

end Decoder

/-! ## The encoder -/

section Encoder

variable {headerSerde : Serde VaultHeader}

/-- What passed the checks of the encoder. -/
theorem checks_of_encode {probe : RuntimeInspectionState} {header : VaultHeader}
    {storage : VaultStorage} {formatVersion : UInt16} {bytes headerBytes : Bytes}
    (hheader : headerSerde.toVec header = some headerBytes)
    (h : encodeVaultStorage headerSerde probe header storage formatVersion = .ok bytes) :
    (storage.mode = .plaintextJson → header.duress = none ∧
        allowPlaintextExportUnderRuntimePolicy probe = true) ∧
      UInt32.ofNat headerBytes.length ≤ maxHeaderLen := by
  simp only [encodeVaultStorage, serializeHeaderJson, bind_eq_ok, failIf_eq_ok, okOr_eq_ok,
    hheader, Option.some.injEq] at h
  obtain ⟨-, -, -, hduress, -, hpolicy, _, rfl, -, hcap, -⟩ := h
  refine ⟨?_, UInt32.not_lt.mp hcap⟩
  intro hplain
  constructor
  · simpa [hplain] using hduress
  · simpa [hplain] using hpolicy

/-- What the encoder writes is the container of its header and its payload, and is admissible
for whoever expects its version, allows its mode and a payload of its length. -/
theorem container_of_encodeVaultStorage (hserde : headerSerde.Lawful)
    (hsize : ∀ header headerBytes, headerSerde.toVec header = some headerBytes →
      headerBytes.length < 2 ^ 32)
    {probe probe' : RuntimeInspectionState} {header : VaultHeader} {storage : VaultStorage}
    {formatVersion : UInt16} {bytes headerBytes : Bytes} {expectedFormatVersion : Option UInt16}
    {maxPayloadLen : UInt64} {allowPlaintext : Bool}
    (h : encodeVaultStorage headerSerde probe header storage formatVersion = .ok bytes)
    (hheader : headerSerde.toVec header = some headerBytes)
    (hexpected : ∀ expected ∈ expectedFormatVersion, formatVersion = expected)
    (hallowed : storage.mode = .plaintextJson → allowPlaintext = true ∧
      allowPlaintextExportUnderRuntimePolicy probe' = true)
    (hfits : storage.payloadBytes.length ≤ maxPayloadLen.toNat) :
    Container headerSerde probe' expectedFormatVersion maxPayloadLen allowPlaintext bytes
      ⟨formatVersion, header, headerBytes, storage.mode, storage.payloadBytes⟩ := by
  obtain ⟨_, hversion, hheader', rfl⟩ := eq_containerBytes_of_encode headerSerde h
  cases Option.some.inj (hheader.symm.trans hheader')
  obtain ⟨hplaintext, hcap⟩ := checks_of_encode hheader h
  have hlt : headerBytes.length < 2 ^ 32 := hsize header headerBytes hheader
  have hpayloadLt : storage.payloadBytes.length < 2 ^ 64 :=
    Nat.lt_of_le_of_lt hfits maxPayloadLen.toNat_lt
  refine
    { layout := ?_
      formatVersion_ne_zero := hversion
      formatVersion_expected := hexpected
      mode_allowed := ?_
      headerBytes_length := ?_
      header := hserde.fromSlice_toVec header headerBytes hheader
      payload_length := hfits }
  · rw [containerBytes, UInt32.toNat_ofNat_of_lt' hlt, UInt64.toNat_ofNat_of_lt' hpayloadLt]
  · cases hmode : storage.mode with
    | encrypted => exact Or.inl rfl
    | plaintextJson =>
        obtain ⟨hallow, hprobe⟩ := hallowed hmode
        exact Or.inr ⟨rfl, hallow, hprobe, (hplaintext hmode).1⟩
  · rw [UInt32.le_iff_toNat_le, UInt32.toNat_ofNat_of_lt' hlt] at hcap
    exact hcap

end Encoder

/-- The decoder accepts exactly the containers, and the encoder writes nothing else: never a
plaintext container of a vault with a decoy or under a restrictive runtime. -/
theorem decodes_exactly_containers {headerSerde : Serde VaultHeader} (hserde : headerSerde.Lawful)
    (hsize : ∀ header headerBytes, headerSerde.toVec header = some headerBytes →
      headerBytes.length < 2 ^ 32) :
    (∀ (probe : RuntimeInspectionState) (bytes : Bytes) (expectedFormatVersion : Option UInt16)
        (maxPayloadLen : UInt64) (allowPlaintext : Bool) (p : ParsedVaultFile),
      decodeVaultFile headerSerde probe bytes expectedFormatVersion maxPayloadLen allowPlaintext =
          .ok p ↔
        Container headerSerde probe expectedFormatVersion maxPayloadLen allowPlaintext bytes p) ∧
    (∀ (probe : RuntimeInspectionState) (header : VaultHeader) (storage : VaultStorage)
        (formatVersion : UInt16) (bytes : Bytes),
      encodeVaultStorage headerSerde probe header storage formatVersion = .ok bytes →
      (storage.mode = .plaintextJson → header.duress = none ∧
        allowPlaintextExportUnderRuntimePolicy probe = true) ∧
      ∃ headerBytes, headerSerde.toVec header = some headerBytes ∧
        ∀ (probe' : RuntimeInspectionState) (expectedFormatVersion : Option UInt16)
          (maxPayloadLen : UInt64) (allowPlaintext : Bool),
          (∀ expected ∈ expectedFormatVersion, formatVersion = expected) →
          (storage.mode = .plaintextJson → allowPlaintext = true ∧
            allowPlaintextExportUnderRuntimePolicy probe' = true) →
          storage.payloadBytes.length ≤ maxPayloadLen.toNat →
          Container headerSerde probe' expectedFormatVersion maxPayloadLen allowPlaintext bytes
            ⟨formatVersion, header, headerBytes, storage.mode, storage.payloadBytes⟩) := by
  constructor
  · intro probe bytes expectedFormatVersion maxPayloadLen allowPlaintext p
    exact decodeVaultFile_eq_ok_iff
  · intro probe header storage formatVersion bytes h
    obtain ⟨headerBytes, hheader⟩ := hserde.exists_toVec header
    refine ⟨(checks_of_encode hheader h).1, headerBytes, hheader, ?_⟩
    intro probe' expectedFormatVersion maxPayloadLen allowPlaintext hexpected hallowed hfits
    exact container_of_encodeVaultStorage hserde hsize h hheader hexpected hallowed hfits

/-- A plaintext container of the sample header, as it is written and for whoever allows it. -/
theorem decodes_exactly_containers_sample :
    ∃ bytes, encodeVaultStorage headerJson .notDebugged sampleHeader (.plaintextJson [1, 2, 3]) 1 =
        .ok bytes ∧
      Container headerJson .notDebugged (some 1) maxVaultContainerPayloadLen true bytes
        ⟨1, sampleHeader, sampleHeaderBytes, .plaintextJson, [1, 2, 3]⟩ ∧
      (decodeVaultFile headerJson .notDebugged bytes none 3 false =
          .ok ⟨1, sampleHeader, sampleHeaderBytes, .plaintextJson, [1, 2, 3]⟩ ↔
        Container headerJson .notDebugged none 3 false bytes
          ⟨1, sampleHeader, sampleHeaderBytes, .plaintextJson, [1, 2, 3]⟩) := by
  have hsize : ∀ header headerBytes, headerJson.toVec header = some headerBytes →
      headerBytes.length < 2 ^ 32 :=
    fun header headerBytes h => Nat.lt_of_le_of_lt (headerJson_ideal.length_le h) (by decide)
  have hencode : encodeVaultStorage headerJson .notDebugged sampleHeader (.plaintextJson [1, 2, 3])
      1 = .ok (containerBytes 1 .plaintextJson sampleHeaderBytes [1, 2, 3]) :=
    headerJson_ideal.encode rfl (by decide) (fun _ => ⟨rfl, rfl⟩)
  have hmain := decodes_exactly_containers headerJson_ideal.lawful hsize
  refine ⟨_, hencode, ?_, hmain.1 _ _ _ _ _ _⟩
  obtain ⟨-, headerBytes, hheader, hcontainer⟩ := hmain.2 _ _ _ _ _ hencode
  cases Option.some.inj hheader
  exact hcontainer .notDebugged (some 1) maxVaultContainerPayloadLen true (by simp)
    (fun _ => ⟨rfl, rfl⟩) (by decide)

/-! ## The bound that the encoder does not check -/

/-- What was encoded reads back, under the bound that the callers of the decoder use, exactly
when the ciphertext is within that bound. The encoder does not check it. -/
theorem decode_encode_iff {headerSerde : Serde VaultHeader}
    (hserde : HeaderSerde.Ideal headerSerde)
    {probe probe' : RuntimeInspectionState} {header : VaultHeader} {ciphertext bytes : Bytes}
    {formatVersion : UInt16}
    (hencode : encodeVaultStorage headerSerde probe header (.encrypted ciphertext) formatVersion =
      .ok bytes) :
    (∃ parsed, decodeVaultFile headerSerde probe' bytes (some formatVersion)
        maxVaultContainerPayloadLen false = .ok parsed ∧ parsed.payload = ciphertext) ↔
      ciphertext.length ≤ maxVaultContainerPayloadLen.toNat := by
  obtain ⟨headerBytes, hversion, hheader, rfl⟩ := eq_containerBytes_of_encode headerSerde hencode
  constructor
  · rintro ⟨parsed, hdecode, rfl⟩
    exact (container_of_decodeVaultFile hdecode).payload_length
  · intro hlen
    refine ⟨_, decodeVaultFile_containerBytes headerSerde probe' false hversion ?_
      (hserde.lawful.fromSlice_toVec header headerBytes hheader) (hserde.length_le hheader)
      hlen, rfl⟩
    simp

theorem decode_encode_iff_sample :
    (∃ parsed, decodeVaultFile headerJson .notDebugged
        (containerBytes 1 .encrypted sampleHeaderBytes [1, 2, 3]) (some 1)
        maxVaultContainerPayloadLen false = .ok parsed ∧ parsed.payload = [1, 2, 3]) ↔
      [(1 : UInt8), 2, 3].length ≤ maxVaultContainerPayloadLen.toNat :=
  have hheader : headerJson.toVec sampleHeader = some sampleHeaderBytes := rfl
  decode_encode_iff headerJson_ideal
    (headerJson_ideal.encode_encrypted .notDebugged hheader [1, 2, 3] (by decide))

/-- One byte over the bound, a vault is written that is never read again. -/
theorem oversized_vault_unreadable :
    ∃ bytes, encodeVaultStorage headerJson .notDebugged sampleHeader
        (.encrypted (List.replicate (2 ^ 24 + 1) 0)) 1 = .ok bytes ∧
      ¬ ∃ parsed, decodeVaultFile headerJson .notDebugged bytes (some 1)
        maxVaultContainerPayloadLen false = .ok parsed ∧
        parsed.payload = List.replicate (2 ^ 24 + 1) 0 := by
  refine ⟨_, headerJson_ideal.encode_encrypted .notDebugged rfl _ (by decide), ?_⟩
  rintro ⟨parsed, hdecode, hpayload⟩
  have hle := (container_of_decodeVaultFile hdecode).payload_length
  have hcap : maxVaultContainerPayloadLen.toNat = 2 ^ 24 := rfl
  rw [hpayload, List.length_replicate, hcap] at hle
  omega

end ViperVault
