import ViperVault.Entries.Json
import ViperVault.Vault.Duress

/-!
# Symbolic primitives

An instance of the ideal primitives that can be run. A key is the text of the request that
derived it, and a ciphertext shows its key, nonce and associated data in front of the message.
There is nothing secret about them; they show that the assumptions can be met.
-/

namespace ViperVault

open Foundation

/-- A text that says where it ends. -/
def frame : Bytes → Bytes
  | [] => [0]
  | b :: bs => 1 :: b :: frame bs

/-- Framed texts in front of other texts can be told apart. -/
theorem frame_append_inj {a b x y : Bytes} (h : frame a ++ x = frame b ++ y) :
    a = b ∧ x = y := by
  induction a generalizing b with
  | nil =>
      cases b with
      | nil => exact ⟨rfl, by simpa [frame] using h⟩
      | cons c b => simp [frame] at h
  | cons c a ih =>
      cases b with
      | nil => simp [frame] at h
      | cons d b =>
          simp only [frame, List.cons_append, List.cons.injEq, true_and] at h
          obtain ⟨rfl, htail⟩ := h
          obtain ⟨rfl, hrest⟩ := ih htail
          exact ⟨rfl, hrest⟩

/-- What follows a prefix. -/
def stripPrefix (start bytes : Bytes) : Option Bytes :=
  if start <+: bytes then some (bytes.drop start.length) else none

theorem stripPrefix_eq_some {start bytes rest : Bytes} :
    stripPrefix start bytes = some rest ↔ start ++ rest = bytes := by
  unfold stripPrefix
  constructor
  · intro h
    split at h
    · rename_i hprefix
      obtain ⟨tail, rfl⟩ := hprefix
      rw [List.drop_left] at h
      rw [Option.some.inj h]
    · cases h
  · rintro rfl
    rw [if_pos (List.prefix_append start rest), List.drop_left]

/-- The request that derives a key. -/
def keyText (memKib timeCost lanes : UInt32) (password : Bytes) (salt : Salt) : Bytes :=
  leBytes 4 memKib.toNat ++ leBytes 4 timeCost.toNat ++ leBytes 4 lanes.toNat ++ salt.toList ++
    password

/-- The key, the nonce and the associated data in front of a message. -/
def sealText (key : Bytes) (nonce : Nonce) (aad : Bytes) : Bytes :=
  frame key ++ (frame nonce.toList ++ frame aad)

/-- The symbolic key derivation. -/
def symbolicArgon2 : Argon2 Bytes where
  paramsNew _ _ _ := true
  hashPasswordInto memKib timeCost lanes password salt :=
    some (keyText memKib timeCost lanes password salt)

/-- The symbolic cipher. -/
def symbolicAead : Aead Bytes where
  encrypt key nonce msg aad := some (sealText key nonce aad ++ msg)
  decrypt key nonce ciphertext aad := stripPrefix (sealText key nonce aad) ciphertext

theorem symbolicArgon2_ideal : symbolicArgon2.Ideal where
  paramsNew_of_valid _ := rfl
  hash_isSome _ _ _ _ _ := rfl
  hash_inj := by
    intro memKib timeCost lanes password password' salt key h h'
    have hsame := Option.some.inj (h.trans h'.symm)
    exact List.append_cancel_left hsame

theorem symbolicAead_ideal : symbolicAead.Ideal where
  encrypt_isSome _ _ _ _ := rfl
  decrypt_encrypt := by
    intro key nonce msg aad ciphertext h
    exact stripPrefix_eq_some.mpr (Option.some.inj h)
  encrypt_of_decrypt := by
    intro key nonce msg aad ciphertext h
    exact congrArg some (stripPrefix_eq_some.mp h)
  encrypt_inj := by
    intro key key' nonce msg msg' aad aad' ciphertext h h'
    have hsame := Option.some.inj (h.trans h'.symm)
    simp only [sealText, List.append_assoc] at hsame
    obtain ⟨hkey, hrest⟩ := frame_append_inj hsame
    obtain ⟨-, hrest⟩ := frame_append_inj hrest
    obtain ⟨haad, -⟩ := frame_append_inj hrest
    exact ⟨hkey, haad⟩

/-- The symbolic primitives with the JSON library. -/
def symbolic : Libraries Bytes where
  argon2 := symbolicArgon2
  aead := symbolicAead
  headerJson := headerJson
  envelopeJson := envelopeJson
  payloadJson := payloadJson

theorem symbolic_ideal : symbolic.Ideal where
  argon2 := symbolicArgon2_ideal
  aead := symbolicAead_ideal
  headerJson := headerJson_ideal
  envelopeJson := envelopeJson_lawful
  payloadJson := payloadJson_lawful

/-! ## Sizes -/

theorem length_frame (b : Bytes) : (frame b).length = 2 * b.length + 1 := by
  induction b with
  | nil => rfl
  | cons c b ih =>
      simp only [frame, List.length_cons, ih]
      omega

/-- A symbolic ciphertext is as long as what it shows. -/
theorem Sealed.length_symbolic {headerBytes ciphertext plaintext : Bytes} {ch : CryptoHeader}
    {password : MasterPassword} (h : Sealed symbolic headerBytes ch ciphertext password plaintext) :
    ciphertext.length =
      2 * password.exposeBytes.length + 2 * headerBytes.length + plaintext.length + 139 := by
  obtain ⟨⟨memKib, timeCost, lanes⟩, suite, salt, nonce⟩ := ch
  obtain ⟨key, hkey, hct⟩ := h
  obtain ⟨-, -, hhash⟩ := (deriveMasterKeyFromPassword_eq_ok _).mp hkey
  cases hhash
  cases hct
  simp only [sealText, keyText, List.length_append, length_frame, length_leBytes,
    Vector.length_toList]
  omega

/-- A password of a text. -/
def samplePassword (text : String) : MasterPassword := ⟨⟨text.toList⟩⟩

end ViperVault
