import ViperVault.Core.LockState
import ViperVault.Foundation.JsonCodec

/-!
# Payloads in JSON

The objects that the derived serialisers of `entries/types.rs` write, member by member, and
the serialisation library at payloads that they give.
-/

namespace ViperVault

open Foundation Json

/-- `EntryType`. -/
def entryTypeCodec : Codec EntryType :=
  Codec.unitVariant
    (fun
      | .password => "Password"
      | .secureNote => "SecureNote"
      | .card => "Card"
      | .totp => "Totp")
    (fun
      | "Password" => some .password
      | "SecureNote" => some .secureNote
      | "Card" => some .card
      | "Totp" => some .totp
      | _ => none)
    fun a => by cases a <;> rfl

/-- `TotpAlgorithm`. -/
def totpAlgorithmCodec : Codec TotpAlgorithm :=
  Codec.unitVariant
    (fun
      | .sha1 => "Sha1"
      | .sha256 => "Sha256"
      | .sha512 => "Sha512")
    (fun
      | "Sha1" => some .sha1
      | "Sha256" => some .sha256
      | "Sha512" => some .sha512
      | _ => none)
    fun a => by cases a <;> rfl

def textOptionCodec : Codec (Option Text) := Codec.text.option fun _ => by simp [Codec.text]

def bytesOptionCodec : Codec (Option Bytes) :=
  Codec.bytes.option fun _ => by simp [Codec.bytes, Codec.list]

/-- `TotpSecretDto`. -/
def totpSecretDtoCodec : Codec TotpSecretDto where
  encode t :=
    .obj
      [("issuer", textOptionCodec.encode t.issuer),
       ("account_name", textOptionCodec.encode t.accountName),
       ("secret_b32", Codec.text.encode t.secretB32),
       ("digits", Codec.uint8.encode t.digits),
       ("period_secs", Codec.uint32.encode t.periodSecs),
       ("algorithm", totpAlgorithmCodec.encode t.algorithm)]
  decode j := do
    let ms ← members j
    let issuer ← textOptionCodec.optional "issuer" ms
    let accountName ← textOptionCodec.optional "account_name" ms
    let secretB32 ← Codec.text.required "secret_b32" ms
    let digits ← Codec.uint8.required "digits" ms
    let periodSecs ← Codec.uint32.required "period_secs" ms
    let algorithm ← totpAlgorithmCodec.required "algorithm" ms
    return ⟨issuer, accountName, secretB32, digits, periodSecs, algorithm⟩
  decode_encode t := by
    simp [members, Codec.optional, Codec.required]

def totpOptionCodec : Codec (Option TotpSecretDto) :=
  totpSecretDtoCodec.option fun _ => by simp [totpSecretDtoCodec]

/-- `EntrySecretDto`. -/
def entrySecretDtoCodec : Codec EntrySecretDto where
  encode s :=
    .obj
      [("title", Codec.text.encode s.title),
       ("note", textOptionCodec.encode s.note),
       ("username", textOptionCodec.encode s.username),
       ("secret", Codec.text.encode s.secret),
       ("extra", bytesOptionCodec.encode s.extra),
       ("totp", totpOptionCodec.encode s.totp)]
  decode j := do
    let ms ← members j
    let title ← Codec.text.required "title" ms
    let note ← textOptionCodec.optional "note" ms
    let username ← textOptionCodec.optional "username" ms
    let secret ← Codec.text.required "secret" ms
    let extra ← bytesOptionCodec.optional "extra" ms
    let totp ← totpOptionCodec.optional "totp" ms
    return ⟨title, note, username, secret, extra, totp⟩
  decode_encode s := by
    simp [members, Codec.optional, Codec.required]

/-- `EntryMetadata`. -/
def entryMetadataCodec : Codec EntryMetadata where
  encode m :=
    .obj
      [("id", Codec.uuid.encode m.id),
       ("entry_type", entryTypeCodec.encode m.entryType)]
  decode j := do
    let ms ← members j
    let id ← Codec.uuid.required "id" ms
    let entryType ← entryTypeCodec.required "entry_type" ms
    return ⟨id, entryType⟩
  decode_encode m := by
    simp [members, Codec.required]

/-- `VaultEntryDto`. -/
def vaultEntryDtoCodec : Codec VaultEntryDto where
  encode e :=
    .obj
      [("meta", entryMetadataCodec.encode e.metadata),
       ("secret", entrySecretDtoCodec.encode e.secret)]
  decode j := do
    let ms ← members j
    let metadata ← entryMetadataCodec.required "meta" ms
    let secret ← entrySecretDtoCodec.required "secret" ms
    return ⟨metadata, secret⟩
  decode_encode e := by
    simp [members, Codec.required]

/-- The payload. -/
def vaultPayloadDtoCodec : Codec VaultPayloadDto where
  encode p := .obj [("entries", (Codec.list vaultEntryDtoCodec).encode p.entries)]
  decode j := do
    let ms ← members j
    let entries ← (Codec.list vaultEntryDtoCodec).required "entries" ms
    return ⟨entries⟩
  decode_encode p := by
    simp [members, Codec.required]

/-- The JSON library at payloads. -/
def payloadJson : Serde VaultPayloadDto := vaultPayloadDtoCodec.serde

theorem payloadJson_lawful : payloadJson.Lawful := vaultPayloadDtoCodec.serde_lawful

/-- The bytes of a payload. -/
def payloadBytes (p : VaultPayload) : Bytes :=
  (vaultPayloadDtoCodec.encode (VaultPayloadDto.ofPayload p)).toBytes

theorem toVec_payloadJson (p : VaultPayload) :
    (payloadSerde payloadJson).toVec p = some (payloadBytes p) := rfl

/-- A session on the bytes of a valid payload reads that payload. -/
theorem getPayload_payloadBytes {p : VaultPayload} (hp : p.Valid)
    (authStrength : AuthenticationStrength) (unlockOutcome : UnlockOutcome)
    (runtimeState : RuntimeInspectionState) :
    getPayload payloadJson (.unlockWithPlaintextJsonWithContext (payloadBytes p) authStrength
      unlockOutcome runtimeState) = some p := by
  have hread : (payloadSerde payloadJson).fromSlice (payloadBytes p) =
      if p.Valid then some p else none :=
    fromSlice_payload payloadJson_lawful (toVec_payloadJson p)
  rw [if_pos hp] at hread
  exact hread

/-- Serialisation at payloads: every payload is written, what was written reads back exactly if
every entry satisfies the invariants of its type, and then as the payload it was; whatever bytes
are read, every entry does. -/
structure ExactSerialization (serde : Serde VaultPayloadDto) : Prop where
  written : ∀ p, ∃ json, encodePayloadToPlaintextJson serde p = some json
  reads_iff : ∀ p json, encodePayloadToPlaintextJson serde p = some json →
    ((decodePayloadFromPlaintextJson serde json).isSome ↔
      ∀ e ∈ p.entries, e.validateInvariants = .ok ())
  identical : ∀ p json q, encodePayloadToPlaintextJson serde p = some json →
    decodePayloadFromPlaintextJson serde json = some q → q = p
  closed : ∀ json q, decodePayloadFromPlaintextJson serde json = some q →
    ∀ e ∈ q.entries, e.validateInvariants = .ok ()

/-- Over a library that reads back the transfer values it writes, serialisation is exact on valid
payloads and reads no other. -/
theorem exactSerialization {serde : Serde VaultPayloadDto} (hserde : serde.Lawful) :
    ExactSerialization serde := by
  have hread : ∀ p json, encodePayloadToPlaintextJson serde p = some json →
      decodePayloadFromPlaintextJson serde json = if p.Valid then some p else none :=
    fun p json h => fromSlice_payload hserde h
  refine ⟨exists_toVec_payload hserde, ?_, ?_, fun _ _ h => valid_of_fromSlice h⟩
  · intro p json hjson
    change _ ↔ p.Valid
    rw [hread p json hjson]
    split
    · next hvalid => simp [hvalid]
    · next hvalid => simp [hvalid]
  · intro p json q hjson hq
    rw [hread p json hjson] at hq
    split at hq
    · exact (Option.some.inj hq).symm
    · cases hq

/-- The theorem on the JSON of the derived implementations. -/
theorem exactSerialization_payloadJson :
    payloadJson.Lawful ∧ ExactSerialization payloadJson :=
  ⟨payloadJson_lawful, exactSerialization payloadJson_lawful⟩

end ViperVault
