import ViperVault.Backup.Codec
import ViperVault.Vault.Symbolic

/-!
# Signed backups over symbolic primitives

The JSON codec of `BackupHeader` and an instance of the ideal signatures that can be run: the
verifying key is the signing key, and a signature is that key with the sum of the message. As
with the symbolic cipher, it shows only that the assumptions of the codec can be met.
-/

namespace ViperVault

open Foundation Json

/-- `BackupKdfPolicy`. -/
def backupKdfPolicyCodec : Codec BackupKdfPolicy where
  encode k :=
    .obj
      [("mem_kib", Codec.uint32.encode k.memKib),
       ("time_cost", Codec.uint32.encode k.timeCost),
       ("lanes", Codec.uint32.encode k.lanes)]
  decode j := do
    let ms ← members j
    let memKib ← Codec.uint32.required "mem_kib" ms
    let timeCost ← Codec.uint32.required "time_cost" ms
    let lanes ← Codec.uint32.required "lanes" ms
    return ⟨memKib, timeCost, lanes⟩
  decode_encode k := by
    simp [members, Codec.required]

/-- `BackupHeader`. -/
def backupHeaderCodec : Codec BackupHeader where
  encode h :=
    .obj
      [("version", Codec.uint16.encode h.version),
       ("kdf", backupKdfPolicyCodec.encode h.kdf),
       ("salt", (Codec.byteArray 32).encode h.salt)]
  decode j := do
    let ms ← members j
    let version ← Codec.uint16.required "version" ms
    let kdf ← backupKdfPolicyCodec.required "kdf" ms
    let salt ← (Codec.byteArray 32).required "salt" ms
    return ⟨version, kdf, salt⟩
  decode_encode h := by
    simp [members, Codec.required]

theorem size_backupKdfPolicy_le (k : BackupKdfPolicy) :
    Json.size (backupKdfPolicyCodec.encode k) ≤ 220 := by
  have hmem := size_uint32_le k.memKib
  have htime := size_uint32_le k.timeCost
  have hlanes := size_uint32_le k.lanes
  have hsize := size_obj_le (k := 9) (l :=
    [("mem_kib", Codec.uint32.encode k.memKib), ("time_cost", Codec.uint32.encode k.timeCost),
     ("lanes", Codec.uint32.encode k.lanes)]) (by simp +decide)
  simp only [List.map_cons, List.map_nil, List.sum_cons, List.sum_nil] at hsize
  exact Nat.le_trans hsize (by omega)

theorem length_backupHeaderJson_le (h : BackupHeader) :
    (backupHeaderCodec.encode h).toBytes.length ≤ 1000 := by
  have hversion := size_uint16_le h.version
  have hkdf := size_backupKdfPolicy_le h.kdf
  have hsalt := size_byteArray_le h.salt
  have hsize := size_obj_le (k := 7) (l :=
    [("version", Codec.uint16.encode h.version), ("kdf", backupKdfPolicyCodec.encode h.kdf),
     ("salt", (Codec.byteArray 32).encode h.salt)]) (by simp +decide)
  simp only [List.map_cons, List.map_nil, List.sum_cons, List.sum_nil] at hsize
  have hbytes := length_toBytes_le (backupHeaderCodec.encode h)
  exact Nat.le_trans hbytes (Nat.le_trans hsize (by omega))

/-- The signature of a message under a key. -/
def symbolicSign (key : SigningKey) (msg : Bytes) : Signature :=
  key ++ Vector.replicate 32 (msg.foldl (· + ·) 0)

/-- The symbolic signatures and key derivation, with the JSON library. -/
def symbolicBackup : BackupLibraries Bytes where
  argon2 := symbolicArgon2
  hkdfExpandSeed key := some (Vector.ofFn fun i => key.getD i 0)
  verifyingKey key := key
  sign := symbolicSign
  signatureFromSlice bytes :=
    if h : bytes.length = 64 then some ⟨bytes.toArray, by simpa using h⟩ else none
  verify key msg signature := decide (signature = symbolicSign key msg)
  headerJson := backupHeaderCodec.serde

theorem verify_symbolicSign (key : SigningKey) (msg : Bytes) :
    symbolicBackup.verify (symbolicBackup.verifyingKey key) msg (symbolicBackup.sign key msg) =
      true := by
  simp only [symbolicBackup, decide_true]

theorem signatureFromSlice_toList (signature : Signature) :
    symbolicBackup.signatureFromSlice signature.toList = some signature := by
  have hlen : signature.toList.length = 64 := Vector.length_toList
  have harray : signature.toList.toArray = signature.toArray := by
    rw [Vector.toList, Array.toArray_toList]
  simp only [symbolicBackup, dif_pos hlen, harray]

/-- No header is written as nothing, since nothing reads as no header. -/
theorem toVec_backupHeader_ne_nil (header : BackupHeader) :
    backupHeaderCodec.serde.toVec header ≠ some [] := by
  intro h
  have hread := backupHeaderCodec.serde_lawful.fromSlice_toVec header [] h
  have hnothing : ofBytes [] = none := by decide
  simp only [Codec.serde, hnothing, Option.bind_none] at hread
  cases hread

theorem symbolicBackup_ideal : symbolicBackup.Ideal where
  verify_sign := verify_symbolicSign
  signatureFromSlice_toList := signatureFromSlice_toList
  headerJson := backupHeaderCodec.serde_lawful
  headerJson_ne_nil := toVec_backupHeader_ne_nil

theorem symbolicBackup_total : symbolicBackup.Total where
  argon2 := symbolicArgon2_ideal
  hkdfExpandSeed_isSome := fun _ => rfl
  exists_headerJson := by
    intro header
    have hlen := length_backupHeaderJson_le header
    exact ⟨(backupHeaderCodec.encode header).toBytes, rfl, by omega⟩

/-- The policy of a primary session on a target that is not debugged. -/
def samplePolicyContext : PolicyContext := ⟨.primary, .notDebugged⟩

/-- The default policy, for a backup. -/
def sampleBackupKdf : BackupKdfPolicy := ⟨65536, 3, 1⟩

theorem sampleBackupKdf_valid : validateArgon2idParams sampleBackupKdf.memKib
    sampleBackupKdf.timeCost sampleBackupKdf.lanes = .ok () := by
  decide

end ViperVault
