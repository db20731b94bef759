import ViperVault.Entries.Update
import ViperVault.Foundation.Results

/-!
# What the constructors answer

An entry is built only if every text it stores has passed its validator.
-/

namespace ViperVault

open Foundation Entries VaultEntry

/-- The entry comes from one of the constructors of `VaultEntry`. -/
inductive VaultEntry.Constructed (e : VaultEntry) : Prop
  | newPassword (id : Uuid) (title : Text) (username : Option Text) (password : Text)
      (note : Option Text) (h : newPassword id title username password note = .ok e)
  | newSecureNote (id : Uuid) (title note : Text) (h : newSecureNote id title note = .ok e)
  | newTotp (id : Uuid) (title : Text) (totp : TotpSecret) (note : Option Text)
      (h : newTotp id title totp note = .ok e)

variable {id : Uuid} {title : Text} {entry : VaultEntry}

/-- What `new_password` answers. -/
theorem newPassword_eq_ok {username : Option Text} {password : Text} {note : Option Text}
    (h : newPassword id title username password note = .ok entry) :
    validateTitle title = .ok () ∧ (∀ n ∈ note, validateNote n = .ok ()) ∧
      (∀ u ∈ username, validateUsername u = .ok ()) ∧ validatePassword password = .ok () ∧
      entry =
        { metadata := { id := id, entryType := .password }
          secret :=
            { title := ⟨title⟩, note := note.map .mk, username := username.map .mk
              secret := ⟨password⟩, extra := none, totp := none } } := by
  unfold newPassword at h
  cases note <;> cases username <;> simp only [check_bind_eq_ok, pure_eq_ok] at h <;> grind

/-- What `new_secure_note` answers. -/
theorem newSecureNote_eq_ok {note : Text} (h : newSecureNote id title note = .ok entry) :
    validateTitle title = .ok () ∧ validateNote note = .ok () ∧
      entry =
        { metadata := { id := id, entryType := .secureNote }
          secret :=
            { title := ⟨title⟩, note := some ⟨note⟩, username := none
              secret := ⟨note⟩, extra := none, totp := none } } := by
  unfold newSecureNote at h
  simp only [check_bind_eq_ok, pure_eq_ok] at h
  obtain ⟨htitle, hnote, -, rfl⟩ := h
  exact ⟨htitle, hnote, rfl⟩

/-- What `new_totp` answers. -/
theorem newTotp_eq_ok {totp : TotpSecret} {note : Option Text}
    (h : newTotp id title totp note = .ok entry) :
    validateTitle title = .ok () ∧ (∀ n ∈ note, validateNote n = .ok ()) ∧
      totp.validate = .ok () ∧
      entry =
        { metadata := { id := id, entryType := .totp }
          secret :=
            { title := ⟨title⟩, note := note.map .mk, username := none
              secret := totp.secretB32, extra := none, totp := some totp } } := by
  unfold newTotp at h
  cases note <;> simp only [check_bind_eq_ok, pure_eq_ok] at h <;> grind

/-- The constructors check the entry they return. -/
theorem VaultEntry.Constructed.valid {e : VaultEntry} (h : e.Constructed) : e.Valid := by
  cases h with
  | newPassword id title username password note h =>
      obtain ⟨-, -, -, -, rfl⟩ := newPassword_eq_ok h
      rfl
  | newSecureNote id title note h =>
      obtain ⟨-, -, rfl⟩ := newSecureNote_eq_ok h
      rfl
  | newTotp id title totp note h =>
      obtain ⟨-, -, htotp, rfl⟩ := newTotp_eq_ok h
      exact htotp

end ViperVault
