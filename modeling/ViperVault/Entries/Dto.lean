import ViperVault.Entries.Update
import ViperVault.Foundation.Serde

/-!
# The serialised form of entries and payloads

The `Serialize` and `Deserialize` implementations of `entries/types.rs` go through transfer
types that hold plain texts and bytes. Writing an entry checks nothing; reading one rebuilds
it and refuses it when `validate_invariants` does. One refused entry refuses the payload.
-/

namespace ViperVault

open Foundation

/-- `TotpSecretDto`. -/
structure TotpSecretDto where
  issuer : Option Text
  accountName : Option Text
  secretB32 : Text
  digits : UInt8
  periodSecs : UInt32
  algorithm : TotpAlgorithm

/-- `EntrySecretDto`. -/
structure EntrySecretDto where
  title : Text
  note : Option Text
  username : Option Text
  secret : Text
  extra : Option Bytes
  totp : Option TotpSecretDto

/-- `VaultEntryDto`. -/
structure VaultEntryDto where
  metadata : EntryMetadata
  secret : EntrySecretDto

/-- `From<&TotpSecret> for TotpSecretDto`. -/
def TotpSecretDto.ofSecret (t : TotpSecret) : TotpSecretDto where
  issuer := t.issuer.map SecretString.exposeSecret
  accountName := t.accountName.map SecretString.exposeSecret
  secretB32 := t.secretB32.exposeSecret
  digits := t.digits
  periodSecs := t.periodSecs
  algorithm := t.algorithm

/-- `From<TotpSecretDto> for TotpSecret`. -/
def TotpSecret.ofDto (dto : TotpSecretDto) : TotpSecret where
  issuer := dto.issuer.map .mk
  accountName := dto.accountName.map .mk
  secretB32 := ⟨dto.secretB32⟩
  digits := dto.digits
  periodSecs := dto.periodSecs
  algorithm := dto.algorithm

/-- `From<&EntrySecret> for EntrySecretDto`. -/
def EntrySecretDto.ofSecret (s : EntrySecret) : EntrySecretDto where
  title := s.title.exposeSecret
  note := s.note.map SecretString.exposeSecret
  username := s.username.map SecretString.exposeSecret
  secret := s.secret.exposeSecret
  extra := s.extra.map SecretBlob.exposeSecret
  totp := s.totp.map TotpSecretDto.ofSecret

/-- `From<EntrySecretDto> for EntrySecret`. -/
def EntrySecret.ofDto (dto : EntrySecretDto) : EntrySecret where
  title := ⟨dto.title⟩
  note := dto.note.map .mk
  username := dto.username.map .mk
  secret := ⟨dto.secret⟩
  extra := dto.extra.map .mk
  totp := dto.totp.map TotpSecret.ofDto

/-- `From<&VaultEntry> for VaultEntryDto`. -/
def VaultEntryDto.ofEntry (e : VaultEntry) : VaultEntryDto where
  metadata := e.metadata
  secret := EntrySecretDto.ofSecret e.secret

/-- `Deserialize for VaultEntry`, from the transfer value on. -/
def VaultEntry.deserialize (dto : VaultEntryDto) : Option VaultEntry :=
  let entry : VaultEntry := { metadata := dto.metadata, secret := EntrySecret.ofDto dto.secret }
  match entry.validateInvariants with
  | .ok () => some entry
  | .error _ => none

/-- `VaultPayload`. -/
structure VaultPayload where
  entries : List VaultEntry
  deriving DecidableEq

/-- The value that the derived implementations of `VaultPayload` write and read. -/
structure VaultPayloadDto where
  entries : List VaultEntryDto

/-- `Serialize for VaultPayload`, down to the transfer value. -/
def VaultPayloadDto.ofPayload (p : VaultPayload) : VaultPayloadDto where
  entries := p.entries.map VaultEntryDto.ofEntry

/-- `Deserialize for VaultPayload`, from the transfer value on. -/
def VaultPayload.deserialize (dto : VaultPayloadDto) : Option VaultPayload :=
  (dto.entries.mapM VaultEntry.deserialize).map .mk

/-- `serde_json` at `VaultPayload`. -/
def payloadSerde (serde : Serde VaultPayloadDto) : Serde VaultPayload :=
  serde.via VaultPayloadDto.ofPayload VaultPayload.deserialize

@[simp] theorem TotpSecret.ofDto_ofSecret (t : TotpSecret) :
    TotpSecret.ofDto (TotpSecretDto.ofSecret t) = t := by
  simp [TotpSecret.ofDto, TotpSecretDto.ofSecret, Function.comp_def]

@[simp] theorem EntrySecret.ofDto_ofSecret (s : EntrySecret) :
    EntrySecret.ofDto (EntrySecretDto.ofSecret s) = s := by
  simp [EntrySecret.ofDto, EntrySecretDto.ofSecret, Function.comp_def]

/-- A written entry reads back exactly when it satisfies the invariants of its type. -/
theorem VaultEntry.deserialize_ofEntry (e : VaultEntry) :
    VaultEntry.deserialize (VaultEntryDto.ofEntry e) = if e.Valid then some e else none := by
  simp only [VaultEntry.deserialize, VaultEntryDto.ofEntry, EntrySecret.ofDto_ofSecret]
  cases hvalid : e.validateInvariants with
  | ok u => simp [VaultEntry.Valid, hvalid]
  | error err => simp [VaultEntry.Valid, hvalid]

theorem VaultEntry.valid_of_deserialize {dto : VaultEntryDto} {e : VaultEntry}
    (h : VaultEntry.deserialize dto = some e) : e.Valid := by
  simp only [VaultEntry.deserialize] at h
  cases hvalid : VaultEntry.validateInvariants ⟨dto.metadata, EntrySecret.ofDto dto.secret⟩ with
  | ok u =>
      simp only [hvalid, Option.some.injEq] at h
      exact h ▸ hvalid
  | error err => simp [hvalid] at h

/-- Reading a list whose items are kept or refused keeps the list or refuses it. -/
private theorem mapM_ite {α : Type} (p : α → Prop) [DecidablePred p] (l : List α) :
    (l.mapM fun a => if p a then some a else none) = if ∀ a ∈ l, p a then some l else none := by
  induction l with
  | nil => simp
  | cons a l ih =>
      rw [List.mapM_cons, ih]
      by_cases ha : p a
      · by_cases hl : ∀ b ∈ l, p b
        · have hcons : ∀ b ∈ a :: l, p b := by simpa [ha] using hl
          rw [if_pos ha, if_pos hl, if_pos hcons]
          rfl
        · have hcons : ¬ ∀ b ∈ a :: l, p b := by simpa [ha] using hl
          rw [if_pos ha, if_neg hl, if_neg hcons]
          rfl
      · simp [ha]

namespace VaultPayload

/-- Every entry of the payload satisfies the invariants of its type. -/
def Valid (p : VaultPayload) : Prop := ∀ e ∈ p.entries, e.Valid

instance (p : VaultPayload) : Decidable p.Valid :=
  inferInstanceAs (Decidable (∀ e ∈ p.entries, e.Valid))

/-- A written payload reads back exactly when all its entries are valid. -/
theorem deserialize_ofPayload (p : VaultPayload) :
    deserialize (VaultPayloadDto.ofPayload p) = if p.Valid then some p else none := by
  have hentry : VaultEntry.deserialize ∘ VaultEntryDto.ofEntry =
      fun e : VaultEntry => if e.Valid then some e else none := by
    ext e : 1
    exact VaultEntry.deserialize_ofEntry e
  simp only [deserialize, VaultPayloadDto.ofPayload, List.mapM_map, hentry, mapM_ite]
  by_cases hvalid : p.Valid
  · have hentries : ∀ e ∈ p.entries, e.Valid := hvalid
    simp only [if_pos hvalid, if_pos hentries, Option.map_some]
  · have hentries : ¬ ∀ e ∈ p.entries, e.Valid := hvalid
    simp only [if_neg hvalid, if_neg hentries, Option.map_none]

/-- A payload that was read is valid, whatever the bytes it was read from. -/
theorem valid_of_deserialize {dto : VaultPayloadDto} {p : VaultPayload}
    (h : deserialize dto = some p) : p.Valid := by
  obtain ⟨dtos⟩ := dto
  simp only [deserialize, Option.map_eq_some_iff] at h
  obtain ⟨entries, hread, rfl⟩ := h
  intro e he
  simp only at he
  induction dtos generalizing entries with
  | nil =>
      simp only [List.mapM_nil, Option.pure_def, Option.some.injEq] at hread
      simp [← hread] at he
  | cons dto dtos ih =>
      simp only [List.mapM_cons, Option.bind_eq_bind, Option.bind_eq_some_iff,
        Option.pure_def, Option.some.injEq] at hread
      obtain ⟨first, hfirst, rest, hrest, rfl⟩ := hread
      rcases List.mem_cons.mp he with rfl | he
      · exact VaultEntry.valid_of_deserialize hfirst
      · exact ih rest hrest he

end VaultPayload

section Payload

variable {serde : Serde VaultPayloadDto} (hserde : serde.Lawful)

include hserde

theorem exists_toVec_payload (p : VaultPayload) :
    ∃ json, (payloadSerde serde).toVec p = some json :=
  Serde.exists_toVec_via hserde _ _ p

/-- The JSON of a payload reads back as the payload, or not at all. -/
theorem fromSlice_payload {p : VaultPayload} {json : Bytes}
    (h : (payloadSerde serde).toVec p = some json) :
    (payloadSerde serde).fromSlice json = if p.Valid then some p else none := by
  rw [payloadSerde, Serde.fromSlice_via hserde h, VaultPayload.deserialize_ofPayload]

end Payload

theorem valid_of_fromSlice {serde : Serde VaultPayloadDto} {p : VaultPayload} {json : Bytes}
    (h : (payloadSerde serde).fromSlice json = some p) : p.Valid := by
  obtain ⟨dto, _, hdto⟩ := Option.bind_eq_some_iff.mp h
  exact VaultPayload.valid_of_deserialize hdto

end ViperVault
