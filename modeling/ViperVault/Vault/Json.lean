import ViperVault.Foundation.JsonCodec
import ViperVault.Vault.Types

/-!
# Headers and envelopes in JSON

The objects that the derived serialisers of `vault/types.rs` write, member by member, the
serialisation libraries that they give, and the size of a header, which is well below the
bound of the container.
-/

namespace ViperVault

open Foundation Json

/-- `KdfParams`, tagged by its variant. -/
def kdfParamsCodec : Codec KdfParams where
  encode
    | .argon2id memKib timeCost lanes =>
        .obj
          [("Argon2id", .obj
            [("mem_kib", Codec.uint32.encode memKib),
             ("time_cost", Codec.uint32.encode timeCost),
             ("lanes", Codec.uint32.encode lanes)])]
  decode
    | .obj [("Argon2id", v)] => do
        let ms ← members v
        let memKib ← Codec.uint32.required "mem_kib" ms
        let timeCost ← Codec.uint32.required "time_cost" ms
        let lanes ← Codec.uint32.required "lanes" ms
        return .argon2id memKib timeCost lanes
    | _ => none
  decode_encode k := by
    cases k
    simp [members, Codec.required]

/-- `AeadSuite`. -/
def aeadSuiteCodec : Codec AeadSuite :=
  Codec.unitVariant
    (fun
      | .xChaCha20Poly1305 => "XChaCha20Poly1305")
    (fun
      | "XChaCha20Poly1305" => some .xChaCha20Poly1305
      | _ => none)
    fun a => by cases a; rfl

/-- `CryptoHeader`. -/
def cryptoHeaderCodec : Codec CryptoHeader where
  encode c :=
    .obj
      [("kdf", kdfParamsCodec.encode c.kdf),
       ("aead", aeadSuiteCodec.encode c.aead),
       ("salt", (Codec.byteArray 32).encode c.salt),
       ("nonce", (Codec.byteArray 24).encode c.nonce)]
  decode j := do
    let ms ← members j
    let kdf ← kdfParamsCodec.required "kdf" ms
    let aead ← aeadSuiteCodec.required "aead" ms
    let salt ← (Codec.byteArray 32).required "salt" ms
    let nonce ← (Codec.byteArray 24).required "nonce" ms
    return ⟨kdf, aead, salt, nonce⟩
  decode_encode c := by
    simp [members, Codec.required]

/-- `DualVaultHeader`. -/
def dualVaultHeaderCodec : Codec DualVaultHeader where
  encode d :=
    .obj
      [("primary", cryptoHeaderCodec.encode d.primary),
       ("decoy", cryptoHeaderCodec.encode d.decoy)]
  decode j := do
    let ms ← members j
    let primary ← cryptoHeaderCodec.required "primary" ms
    let decoy ← cryptoHeaderCodec.required "decoy" ms
    return ⟨primary, decoy⟩
  decode_encode d := by
    simp [members, Codec.required]

def duressCodec : Codec (Option DualVaultHeader) :=
  dualVaultHeaderCodec.option fun _ => by simp [dualVaultHeaderCodec]

/-- `VaultHeader`. An absent `duress` member reads as `None`. -/
def vaultHeaderCodec : Codec VaultHeader where
  encode h :=
    .obj
      [("schema_version", Codec.uint16.encode h.schemaVersion),
       ("vault_id", Codec.uuid.encode h.vaultId),
       ("crypto", cryptoHeaderCodec.encode h.crypto),
       ("duress", duressCodec.encode h.duress)]
  decode j := do
    let ms ← members j
    let schemaVersion ← Codec.uint16.required "schema_version" ms
    let vaultId ← Codec.uuid.required "vault_id" ms
    let crypto ← cryptoHeaderCodec.required "crypto" ms
    let duress ← duressCodec.optional "duress" ms
    return ⟨schemaVersion, vaultId, crypto, duress⟩
  decode_encode h := by
    simp [members, Codec.optional, Codec.required]

/-- `DualCiphertextEnvelope`. -/
def envelopeCodec : Codec DualCiphertextEnvelope where
  encode e :=
    .obj
      [("primary_ct", Codec.bytes.encode e.primaryCt),
       ("decoy_ct", Codec.bytes.encode e.decoyCt)]
  decode j := do
    let ms ← members j
    let primaryCt ← Codec.bytes.required "primary_ct" ms
    let decoyCt ← Codec.bytes.required "decoy_ct" ms
    return ⟨primaryCt, decoyCt⟩
  decode_encode e := by
    simp [members, Codec.required]

/-- The JSON library at headers. -/
def headerJson : Serde VaultHeader := vaultHeaderCodec.serde

/-- The JSON library at envelopes. -/
def envelopeJson : Serde DualCiphertextEnvelope := envelopeCodec.serde

theorem envelopeJson_lawful : envelopeJson.Lawful := envelopeCodec.serde_lawful

/-! ## The size of a header -/

theorem size_uint8_le (n : UInt8) : Json.size (Codec.uint8.encode n) ≤ 3 :=
  size_num_le (by omega) (Nat.lt_of_lt_of_le n.toNat_lt (by omega))

theorem size_uint16_le (n : UInt16) : Json.size (Codec.uint16.encode n) ≤ 5 :=
  size_num_le (by omega) (Nat.lt_of_lt_of_le n.toNat_lt (by omega))

theorem size_uint32_le (n : UInt32) : Json.size (Codec.uint32.encode n) ≤ 10 :=
  size_num_le (by omega) (Nat.lt_of_lt_of_le n.toNat_lt (by omega))

theorem size_bytes_le (l : Bytes) : Json.size (Codec.bytes.encode l) ≤ 2 + 4 * l.length := by
  have hitems : ∀ j ∈ l.map Codec.uint8.encode, Json.size j ≤ 3 := by
    intro j hj
    obtain ⟨b, -, rfl⟩ := List.mem_map.mp hj
    exact size_uint8_le b
  have hsize := size_arr_le hitems
  rw [List.length_map] at hsize
  exact hsize

theorem size_byteArray_le {n : Nat} (v : Vector UInt8 n) :
    Json.size ((Codec.byteArray n).encode v) ≤ 2 + 4 * n := by
  have hsize := size_bytes_le v.toList
  rw [Vector.length_toList] at hsize
  exact hsize

theorem size_kdfParams_le (k : KdfParams) : Json.size (kdfParamsCodec.encode k) ≤ 270 := by
  obtain ⟨memKib, timeCost, lanes⟩ := k
  have hmem := size_uint32_le memKib
  have htime := size_uint32_le timeCost
  have hlanes := size_uint32_le lanes
  have hcosts := size_obj_le (k := 9) (l :=
    [("mem_kib", Codec.uint32.encode memKib), ("time_cost", Codec.uint32.encode timeCost),
     ("lanes", Codec.uint32.encode lanes)]) (by simp +decide)
  have htagged := size_obj_le (k := 8) (l :=
    [("Argon2id", .obj
      [("mem_kib", Codec.uint32.encode memKib), ("time_cost", Codec.uint32.encode timeCost),
       ("lanes", Codec.uint32.encode lanes)])]) (by simp +decide)
  simp only [List.map_cons, List.map_nil, List.sum_cons, List.sum_nil] at hcosts htagged
  exact Nat.le_trans htagged (by omega)

theorem size_cryptoHeader_le (c : CryptoHeader) :
    Json.size (cryptoHeaderCodec.encode c) ≤ 800 := by
  have hkdf := size_kdfParams_le c.kdf
  have haead : Json.size (aeadSuiteCodec.encode c.aead) = 104 := by
    cases c.aead
    rfl
  have hsalt := size_byteArray_le c.salt
  have hnonce := size_byteArray_le c.nonce
  have hsize := size_obj_le (k := 5) (l :=
    [("kdf", kdfParamsCodec.encode c.kdf), ("aead", aeadSuiteCodec.encode c.aead),
     ("salt", (Codec.byteArray 32).encode c.salt),
     ("nonce", (Codec.byteArray 24).encode c.nonce)]) (by simp +decide)
  simp only [List.map_cons, List.map_nil, List.sum_cons, List.sum_nil] at hsize
  exact Nat.le_trans hsize (by omega)

theorem size_duress_le (d : Option DualVaultHeader) :
    Json.size (duressCodec.encode d) ≤ 1700 := by
  cases d with
  | none => decide
  | some d =>
      have hprimary := size_cryptoHeader_le d.primary
      have hdecoy := size_cryptoHeader_le d.decoy
      have hsize := size_obj_le (k := 7) (l :=
        [("primary", cryptoHeaderCodec.encode d.primary),
         ("decoy", cryptoHeaderCodec.encode d.decoy)]) (by simp +decide)
      simp only [List.map_cons, List.map_nil, List.sum_cons, List.sum_nil] at hsize
      exact Nat.le_trans hsize (by omega)

theorem size_uuid_le (id : Uuid) : Json.size (Codec.uuid.encode id) ≤ 218 := by
  have hlen := length_uuidText id
  have hsize : Json.size (Codec.uuid.encode id) = 2 + 6 * (uuidText id).length :=
    size_str (uuidText id)
  omega

/-- A header is far smaller than a container allows. -/
theorem length_headerJson_le (h : VaultHeader) :
    (vaultHeaderCodec.encode h).toBytes.length ≤ maxHeaderLen.toNat := by
  have hversion := size_uint16_le h.schemaVersion
  have hid := size_uuid_le h.vaultId
  have hcrypto := size_cryptoHeader_le h.crypto
  have hduress := size_duress_le h.duress
  have hsize := size_obj_le (k := 14) (l :=
    [("schema_version", Codec.uint16.encode h.schemaVersion),
     ("vault_id", Codec.uuid.encode h.vaultId),
     ("crypto", cryptoHeaderCodec.encode h.crypto),
     ("duress", duressCodec.encode h.duress)]) (by simp +decide)
  simp only [List.map_cons, List.map_nil, List.sum_cons, List.sum_nil] at hsize
  have hmax : maxHeaderLen.toNat = 4096 := rfl
  have hbytes := length_toBytes_le (vaultHeaderCodec.encode h)
  exact Nat.le_trans hbytes (Nat.le_trans hsize (by omega))

/-- An envelope takes at most four bytes for each byte of its ciphertexts. -/
theorem length_envelopeJson_le (e : DualCiphertextEnvelope) :
    (envelopeCodec.encode e).toBytes.length ≤
      200 + 4 * (e.primaryCt.length + e.decoyCt.length) := by
  have hprimary := size_bytes_le e.primaryCt
  have hdecoy := size_bytes_le e.decoyCt
  have hsize := size_obj_le (k := 10) (l :=
    [("primary_ct", Codec.bytes.encode e.primaryCt),
     ("decoy_ct", Codec.bytes.encode e.decoyCt)]) (by simp +decide)
  simp only [List.map_cons, List.map_nil, List.sum_cons, List.sum_nil] at hsize
  have hbytes := length_toBytes_le (envelopeCodec.encode e)
  exact Nat.le_trans hbytes (Nat.le_trans hsize (by omega))

end ViperVault
