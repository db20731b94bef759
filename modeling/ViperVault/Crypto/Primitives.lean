import ViperVault.Foundation.Json
import ViperVault.Foundation.Results
import ViperVault.Vault.Types

/-!
# Key derivation and authenticated encryption

`crypto/kdf.rs` and `crypto/aead.rs` over the Argon2id and XChaCha20-Poly1305 implementations
they call, which are parameters. Keys form a type of their own: what is assumed of an ideal key
derivation, that distinct passwords give distinct keys, holds of no finite type.
-/

namespace ViperVault

open Foundation

/-- `KdfError`. -/
inductive KdfError
  | invalidParams
  | argon2Failure
  | sysRng
  deriving DecidableEq

/-- `AeadError`. -/
inductive AeadError
  | sysRng
  | encrypt
  | decrypt
  deriving DecidableEq

def defaultArgon2idMemKib : UInt32 := 64 * 1024

def defaultArgon2idTimeCost : UInt32 := 3

def defaultArgon2idLanes : UInt32 := 1

def maxArgon2idMemKib : UInt32 := 512 * 1024

def maxArgon2idTimeCost : UInt32 := 5

/-- The Argon2id implementation: whether `Params::new` accepts the costs, and
`hash_password_into` at accepted costs. -/
structure Argon2 (Key : Type) where
  paramsNew : (memKib timeCost lanes : UInt32) → Bool
  hashPasswordInto : (memKib timeCost lanes : UInt32) → (password : Bytes) → Salt → Option Key

/-- The XChaCha20-Poly1305 implementation. -/
structure Aead (Key : Type) where
  encrypt : Key → Nonce → (msg aad : Bytes) → Option Bytes
  decrypt : Key → Nonce → (ciphertext aad : Bytes) → Option Bytes

/-- `validate_argon2id_params`. -/
def validateArgon2idParams (memKib timeCost lanes : UInt32) : Except KdfError Unit :=
  failIf
    (¬ (defaultArgon2idMemKib ≤ memKib ∧ memKib ≤ maxArgon2idMemKib) ∨
      ¬ (defaultArgon2idTimeCost ≤ timeCost ∧ timeCost ≤ maxArgon2idTimeCost) ∨
      lanes ≠ defaultArgon2idLanes)
    .invalidParams

/-- `MasterPassword::expose`, as bytes. -/
def MasterPassword.exposeBytes (password : MasterPassword) : Bytes :=
  Json.utf8 password.expose

theorem MasterPassword.exposeBytes_inj {p q : MasterPassword}
    (h : p.exposeBytes = q.exposeBytes) : p = q := by
  have htext := congrArg Json.utf8? h
  simp only [exposeBytes, Json.utf8?_utf8, Option.some.injEq] at htext
  exact MasterPassword.expose_inj htext

section Kdf

variable {Key : Type} (argon2 : Argon2 Key)

/-- `derive_master_key_from_password`. -/
def deriveMasterKeyFromPassword (password : MasterPassword) (salt : Salt)
    (memKib timeCost lanes : UInt32) : Except KdfError Key := do
  validateArgon2idParams memKib timeCost lanes
  failIf (argon2.paramsNew memKib timeCost lanes = false) .invalidParams
  okOr (argon2.hashPasswordInto memKib timeCost lanes password.exposeBytes salt) .argon2Failure

theorem deriveMasterKeyFromPassword_eq_ok {password : MasterPassword} {salt : Salt}
    {memKib timeCost lanes : UInt32} {key : Key} :
    deriveMasterKeyFromPassword argon2 password salt memKib timeCost lanes = .ok key ↔
      validateArgon2idParams memKib timeCost lanes = .ok () ∧
      argon2.paramsNew memKib timeCost lanes = true ∧
      argon2.hashPasswordInto memKib timeCost lanes password.exposeBytes salt = some key := by
  simp [deriveMasterKeyFromPassword]

/-- What an ideal key derivation does: costs within the bounds are accepted, every password
gives a key, and distinct passwords give distinct keys under the same costs and salt. -/
structure Argon2.Ideal : Prop where
  paramsNew_of_valid : ∀ {memKib timeCost lanes : UInt32},
    validateArgon2idParams memKib timeCost lanes = .ok () →
    argon2.paramsNew memKib timeCost lanes = true
  hash_isSome : ∀ (memKib timeCost lanes : UInt32) (password : Bytes) (salt : Salt),
    (argon2.hashPasswordInto memKib timeCost lanes password salt).isSome
  hash_inj : ∀ {memKib timeCost lanes : UInt32} {password password' : Bytes} {salt : Salt}
    {key : Key}, argon2.hashPasswordInto memKib timeCost lanes password salt = some key →
    argon2.hashPasswordInto memKib timeCost lanes password' salt = some key →
    password = password'

/-- Whether hashing succeeds does not depend on the password. -/
def Argon2.PasswordIndependent : Prop :=
  ∀ (memKib timeCost lanes : UInt32) (password password' : Bytes) (salt : Salt),
    (argon2.hashPasswordInto memKib timeCost lanes password salt).isSome =
      (argon2.hashPasswordInto memKib timeCost lanes password' salt).isSome

variable {argon2}

/-- Then two passwords are given a key both, or are refused alike. -/
theorem Argon2.PasswordIndependent.derive (hargon2 : argon2.PasswordIndependent)
    (p q : MasterPassword) (salt : Salt) (memKib timeCost lanes : UInt32) :
    (∃ key key', deriveMasterKeyFromPassword argon2 p salt memKib timeCost lanes = .ok key ∧
      deriveMasterKeyFromPassword argon2 q salt memKib timeCost lanes = .ok key') ∨
    (∃ e, deriveMasterKeyFromPassword argon2 p salt memKib timeCost lanes = .error e ∧
      deriveMasterKeyFromPassword argon2 q salt memKib timeCost lanes = .error e) := by
  have hsame := hargon2 memKib timeCost lanes p.exposeBytes q.exposeBytes salt
  unfold deriveMasterKeyFromPassword
  cases hvalid : validateArgon2idParams memKib timeCost lanes with
  | error e => exact Or.inr ⟨e, rfl, rfl⟩
  | ok u =>
      rw [ok_bind, ok_bind]
      cases hparams : failIf (argon2.paramsNew memKib timeCost lanes = false)
          KdfError.invalidParams with
      | error e => exact Or.inr ⟨e, rfl, rfl⟩
      | ok u' =>
          rw [ok_bind, ok_bind]
          cases hp : argon2.hashPasswordInto memKib timeCost lanes p.exposeBytes salt with
          | none =>
              cases hq : argon2.hashPasswordInto memKib timeCost lanes q.exposeBytes salt with
              | none => exact Or.inr ⟨.argon2Failure, rfl, rfl⟩
              | some key' => simp [hp, hq] at hsame
          | some key =>
              cases hq : argon2.hashPasswordInto memKib timeCost lanes q.exposeBytes salt with
              | none => simp [hp, hq] at hsame
              | some key' => exact Or.inl ⟨key, key', rfl, rfl⟩

theorem Argon2.Ideal.passwordIndependent (hargon2 : argon2.Ideal) :
    argon2.PasswordIndependent := by
  intro memKib timeCost lanes password password' salt
  rw [hargon2.hash_isSome memKib timeCost lanes password salt,
    hargon2.hash_isSome memKib timeCost lanes password' salt]

/-- Costs that gave one password a key give every password a key. -/
theorem Argon2.Ideal.exists_key (hargon2 : argon2.Ideal) {password : MasterPassword} {salt : Salt}
    {memKib timeCost lanes : UInt32} {key : Key}
    (h : deriveMasterKeyFromPassword argon2 password salt memKib timeCost lanes = .ok key)
    (other : MasterPassword) (otherSalt : Salt) :
    ∃ key', deriveMasterKeyFromPassword argon2 other otherSalt memKib timeCost lanes =
      .ok key' := by
  obtain ⟨hvalid, hparams, -⟩ := (deriveMasterKeyFromPassword_eq_ok argon2).mp h
  obtain ⟨key', hkey'⟩ := Option.isSome_iff_exists.mp
    (hargon2.hash_isSome memKib timeCost lanes other.exposeBytes otherSalt)
  exact ⟨key', (deriveMasterKeyFromPassword_eq_ok argon2).mpr ⟨hvalid, hparams, hkey'⟩⟩

/-- Valid costs give every password a key. -/
theorem Argon2.Ideal.exists_key_of_valid (hargon2 : argon2.Ideal)
    {memKib timeCost lanes : UInt32}
    (hvalid : validateArgon2idParams memKib timeCost lanes = .ok ()) (password : MasterPassword)
    (salt : Salt) :
    ∃ key, deriveMasterKeyFromPassword argon2 password salt memKib timeCost lanes = .ok key := by
  obtain ⟨key, hkey⟩ := Option.isSome_iff_exists.mp
    (hargon2.hash_isSome memKib timeCost lanes password.exposeBytes salt)
  exact ⟨key, (deriveMasterKeyFromPassword_eq_ok argon2).mpr
    ⟨hvalid, hargon2.paramsNew_of_valid hvalid, hkey⟩⟩

/-- A key under given costs and salt belongs to one password. -/
theorem Argon2.Ideal.password_eq (hargon2 : argon2.Ideal) {p q : MasterPassword} {salt : Salt}
    {memKib timeCost lanes : UInt32} {key : Key}
    (hp : deriveMasterKeyFromPassword argon2 p salt memKib timeCost lanes = .ok key)
    (hq : deriveMasterKeyFromPassword argon2 q salt memKib timeCost lanes = .ok key) : p = q := by
  obtain ⟨-, -, hp⟩ := (deriveMasterKeyFromPassword_eq_ok argon2).mp hp
  obtain ⟨-, -, hq⟩ := (deriveMasterKeyFromPassword_eq_ok argon2).mp hq
  exact MasterPassword.exposeBytes_inj (hargon2.hash_inj hp hq)

end Kdf

section Aead

variable {Key : Type} (aead : Aead Key)

/-- `encrypt_xchacha20poly1305`. -/
def encryptXchacha20poly1305 (key : Key) (nonce : Nonce) (plaintext aad : Bytes) :
    Except AeadError Bytes :=
  okOr (aead.encrypt key nonce plaintext aad) .encrypt

/-- `decrypt_xchacha20poly1305`. -/
def decryptXchacha20poly1305 (key : Key) (nonce : Nonce) (ciphertext aad : Bytes) :
    Except AeadError Bytes :=
  okOr (aead.decrypt key nonce ciphertext aad) .decrypt

/-- What an ideal cipher does: every message can be encrypted, a ciphertext opens to the message
it was made from, and only with the key and the associated data it was made with. -/
structure Aead.Ideal : Prop where
  encrypt_isSome : ∀ (key : Key) (nonce : Nonce) (msg aad : Bytes),
    (aead.encrypt key nonce msg aad).isSome
  decrypt_encrypt : ∀ {key : Key} {nonce : Nonce} {msg aad ciphertext : Bytes},
    aead.encrypt key nonce msg aad = some ciphertext →
    aead.decrypt key nonce ciphertext aad = some msg
  encrypt_of_decrypt : ∀ {key : Key} {nonce : Nonce} {msg aad ciphertext : Bytes},
    aead.decrypt key nonce ciphertext aad = some msg →
    aead.encrypt key nonce msg aad = some ciphertext
  encrypt_inj : ∀ {key key' : Key} {nonce : Nonce} {msg msg' aad aad' ciphertext : Bytes},
    aead.encrypt key nonce msg aad = some ciphertext →
    aead.encrypt key' nonce msg' aad' = some ciphertext → key = key' ∧ aad = aad'

variable {aead}

/-- A ciphertext made under a key and associated data opens under these and no others. -/
theorem Aead.Ideal.decrypt_eq_some_iff (haead : aead.Ideal) {key key' : Key} {nonce : Nonce}
    {msg msg' aad aad' ciphertext : Bytes}
    (h : aead.encrypt key nonce msg aad = some ciphertext) :
    aead.decrypt key' nonce ciphertext aad' = some msg' ↔
      key' = key ∧ aad' = aad ∧ msg' = msg := by
  constructor
  · intro hopen
    obtain ⟨rfl, rfl⟩ := haead.encrypt_inj h (haead.encrypt_of_decrypt hopen)
    have hmsg := haead.decrypt_encrypt h
    rw [hopen] at hmsg
    exact ⟨rfl, rfl, Option.some.inj hmsg⟩
  · rintro ⟨rfl, rfl, rfl⟩
    exact haead.decrypt_encrypt h

end Aead

end ViperVault
