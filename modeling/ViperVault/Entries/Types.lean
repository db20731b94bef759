import ViperVault.Entries.Validate
import ViperVault.Foundation.Mutation

/-!
# The entry data model

`entries/types.rs` without its serde part. `VaultEntry::apply_update` takes `&mut self` and
returns early with `?`, so it is a `Mut` body: what it wrote before an early return stays in
the entry. `Uuid::new_v4` is the argument `id` of the constructors.
-/

namespace ViperVault

open Foundation Entries

/-- `EntryType`. -/
inductive EntryType
  | password
  | secureNote
  | card
  | totp
  deriving DecidableEq, Repr

/-- `TotpAlgorithm`. -/
inductive TotpAlgorithm
  | sha1
  | sha256
  | sha512
  deriving DecidableEq, Repr

/-- `TotpSecret`. -/
structure TotpSecret where
  issuer : Option SecretString
  accountName : Option SecretString
  secretB32 : SecretString
  digits : UInt8
  periodSecs : UInt32
  algorithm : TotpAlgorithm
  deriving DecidableEq

/-- The alphabet test `b'A'..=b'Z' | b'2'..=b'7' | b'='` on an ASCII text. -/
def isBase32Char (c : Char) : Bool :=
  ('A' ≤ c && c ≤ 'Z') || ('2' ≤ c && c ≤ '7') || c == '='

/-- `TotpSecret::validate`. -/
def TotpSecret.validate (t : TotpSecret) : Except EntryError Unit :=
  if !(t.digits == 6 || t.digits == 7 || t.digits == 8) then .error .invalidType
  else if t.periodSecs < 10 || t.periodSecs > 120 then .error .invalidType
  else if t.secretB32.exposeSecret.isEmpty then .error .emptyField
  else if utf8Len t.secretB32.exposeSecret > 1024 then .error .fieldTooLarge
  else if !isAscii t.secretB32.exposeSecret then .error .suspiciousUnicode
  else if !t.secretB32.exposeSecret.all isBase32Char then .error .forbiddenChars
  else .ok ()

/-- `EntryMetadata`. -/
structure EntryMetadata where
  id : Uuid
  entryType : EntryType
  deriving DecidableEq

/-- `EntrySecret`. -/
structure EntrySecret where
  title : SecretString
  note : Option SecretString
  username : Option SecretString
  secret : SecretString
  extra : Option SecretBlob
  totp : Option TotpSecret
  deriving DecidableEq

/-- `VaultEntry`; the source's field `meta` is `metadata` here. -/
structure VaultEntry where
  metadata : EntryMetadata
  secret : EntrySecret
  deriving DecidableEq

/-- `EntrySummary`. -/
structure EntrySummary where
  id : Uuid
  entryType : EntryType
  title : SecretString
  deriving DecidableEq

/-- `EntryView`. -/
structure EntryView where
  id : Uuid
  entryType : EntryType
  title : SecretString
  note : Option SecretString
  username : Option SecretString
  secret : SecretString
  extra : Option Bytes
  totp : Option TotpSecret
  deriving DecidableEq

/-- `EntryUpdate`. In `replace` an absent field is left alone, a present one is set. -/
inductive EntryUpdate
  | setTitle (title : Text)
  | setNote (note : Option Text)
  | setUsername (username : Option Text)
  | setSecret (secret : Text)
  | setExtra (extra : Option Bytes)
  | setTotp (totp : Option TotpSecret)
  | replace (title : Option Text) (note : Option (Option Text))
      (username : Option (Option Text)) (secret : Option Text)
      (extra : Option (Option Bytes)) (totp : Option (Option TotpSecret))

namespace VaultEntry

/-- `VaultEntry::validate_invariants`. -/
def validateInvariants (e : VaultEntry) : Except EntryError Unit :=
  match e.metadata.entryType with
  | .totp =>
      match e.secret.totp with
      | none => .error .invalidType
      | some t => t.validate
  | _ => if e.secret.totp.isSome then .error .invalidType else .ok ()

/-- `VaultEntry::new_password`. -/
def newPassword (id : Uuid) (title : Text) (username : Option Text) (password : Text)
    (note : Option Text) : Except EntryError VaultEntry := do
  validateTitle title
  if let some n := note then validateNote n
  if let some u := username then validateUsername u
  validatePassword password
  let entry : VaultEntry :=
    { metadata := { id := id, entryType := .password }
      secret :=
        { title := ⟨title⟩, note := note.map .mk, username := username.map .mk
          secret := ⟨password⟩, extra := none, totp := none } }
  entry.validateInvariants
  return entry

/-- `VaultEntry::new_secure_note`: the text is both `note` and `secret`. -/
def newSecureNote (id : Uuid) (title note : Text) : Except EntryError VaultEntry := do
  validateTitle title
  validateNote note
  let entry : VaultEntry :=
    { metadata := { id := id, entryType := .secureNote }
      secret :=
        { title := ⟨title⟩, note := some ⟨note⟩, username := none
          secret := ⟨note⟩, extra := none, totp := none } }
  entry.validateInvariants
  return entry

/-- `VaultEntry::new_totp`: the base32 secret is also the primary secret. -/
def newTotp (id : Uuid) (title : Text) (totp : TotpSecret) (note : Option Text) :
    Except EntryError VaultEntry := do
  validateTitle title
  if let some n := note then validateNote n
  totp.validate
  let entry : VaultEntry :=
    { metadata := { id := id, entryType := .totp }
      secret :=
        { title := ⟨title⟩, note := note.map .mk, username := none
          secret := totp.secretB32, extra := none, totp := some totp } }
  entry.validateInvariants
  return entry

/-- `VaultEntry::to_summary`. -/
def toSummary (e : VaultEntry) : EntrySummary :=
  { id := e.metadata.id, entryType := e.metadata.entryType, title := e.secret.title }

/-- `VaultEntry::to_view`. -/
def toView (e : VaultEntry) : EntryView :=
  { id := e.metadata.id, entryType := e.metadata.entryType, title := e.secret.title
    note := e.secret.note, username := e.secret.username, secret := e.secret.secret
    extra := e.secret.extra.map SecretBlob.exposeSecret, totp := e.secret.totp }

/-- The `SetTitle` arm of `apply_update`. -/
def applySetTitle (t : Text) : Mut VaultEntry EntryError Unit := do
  Mut.check (validateTitle t)
  Mut.write fun e => { e with secret.title := ⟨t⟩ }

/-- The `SetNote` arm of `apply_update`. -/
def applySetNote (n : Option Text) : Mut VaultEntry EntryError Unit := do
  Mut.ifSome n fun s => Mut.check (validateNote s)
  Mut.write fun e => { e with secret.note := n.map .mk }

/-- The `SetUsername` arm of `apply_update`. -/
def applySetUsername (u : Option Text) : Mut VaultEntry EntryError Unit := do
  Mut.ifSome u fun s => Mut.check (validateUsername s)
  Mut.write fun e => { e with secret.username := u.map .mk }

/-- The `SetSecret` arm of `apply_update`. -/
def applySetSecret (s : Text) : Mut VaultEntry EntryError Unit := do
  let e ← Mut.read
  if e.metadata.entryType = .password then
    Mut.check (validatePassword s)
    Mut.write fun e => { e with secret.secret := ⟨s⟩ }
  else if e.metadata.entryType = .totp then
    match e.secret.totp with
    | none => Mut.fail .invalidType
    | some t =>
        -- `t` is a `ref mut` into the entry: the block is written before it is validated
        Mut.write fun e => { e with secret.totp := some { t with secretB32 := ⟨s⟩ } }
        Mut.check { t with secretB32 := ⟨s⟩ }.validate
        Mut.write fun e => { e with secret.secret := ⟨s⟩ }
  else
    Mut.write fun e => { e with secret.secret := ⟨s⟩ }

/-- The `SetExtra` arm of `apply_update`. -/
def applySetExtra (x : Option Bytes) : Mut VaultEntry EntryError Unit :=
  Mut.write fun e => { e with secret.extra := x.map .mk }

/-- The `SetTotp` arm of `apply_update`. -/
def applySetTotp (t : Option TotpSecret) : Mut VaultEntry EntryError Unit := do
  let e ← Mut.read
  if e.metadata.entryType ≠ .totp then
    Mut.fail .invalidType
  else
    Mut.ifSome t fun tsec => do
      Mut.check tsec.validate
      Mut.write fun e => { e with secret.secret := tsec.secretB32 }
    Mut.write fun e => { e with secret.totp := t }

/-- `self.validate_invariants()?`. -/
def checkInvariants : Mut VaultEntry EntryError Unit := do
  let e ← Mut.read
  Mut.check e.validateInvariants

/-- `VaultEntry::apply_update`. The two recursive calls of the `Replace` arm are calls on
`SetSecret` and on `SetTotp`: the arm, then the closing invariant check. -/
def applyUpdate : EntryUpdate → Mut VaultEntry EntryError Unit
  | .setTitle t => do applySetTitle t; checkInvariants
  | .setNote n => do applySetNote n; checkInvariants
  | .setUsername u => do applySetUsername u; checkInvariants
  | .setSecret s => do applySetSecret s; checkInvariants
  | .setExtra x => do applySetExtra x; checkInvariants
  | .setTotp t => do applySetTotp t; checkInvariants
  | .replace title note username secret extra totp => do
      Mut.ifSome title applySetTitle
      Mut.ifSome note applySetNote
      Mut.ifSome username applySetUsername
      Mut.ifSome secret fun s => do
        applySetSecret s
        checkInvariants
      Mut.ifSome extra applySetExtra
      Mut.ifSome totp fun t => do
        applySetTotp t
        checkInvariants
      checkInvariants

end VaultEntry

end ViperVault
