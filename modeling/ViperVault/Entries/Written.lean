import ViperVault.Entries.UpdateRuns

/-!
# What an accepted update writes

A bulk update is the sequence of the single updates of its present fields, on failure as well.
Where it is accepted, each field of the entry is the one the update carries, or the old one.
-/

namespace ViperVault

open Foundation Entries VaultEntry

namespace EntryUpdate

/-- A secure note, as `new_secure_note` builds it. -/
def sampleNote : VaultEntry where
  metadata := { id := 1, entryType := .secureNote }
  secret :=
    { title := ⟨"note".toList⟩, note := some ⟨"classified".toList⟩, username := none
      secret := ⟨"classified".toList⟩, extra := none, totp := none }

/-- A bulk update answers and leaves behind what the single updates of its present fields do, one
after the other up to the first error. -/
theorem run_applyUpdate_replace {e : VaultEntry} (he : e.Valid) (title : Option Text)
    (note username : Option (Option Text)) (secret : Option Text) (extra : Option (Option Bytes))
    (totp : Option (Option TotpSecret)) :
    (applyUpdate (.replace title note username secret extra totp)).run e =
      (applyEach
        (title.toList.map .setTitle ++ note.toList.map .setNote ++
          username.toList.map .setUsername ++ secret.toList.map .setSecret ++
          extra.toList.map .setExtra ++ totp.toList.map .setTotp)).run e :=
  actsAs_parts (.replace title note username secret extra totp) e he

/-- The theorem on a bulk update that is refused at its last field: both leave the new title and
the new secret behind. -/
theorem run_applyUpdate_replace_refused :
    sampleNote.Valid ∧
      (applyUpdate (.replace (some "t".toList) none none (some "s".toList) none
        (some none))).run sampleNote =
      (applyEach [.setTitle "t".toList, .setSecret "s".toList, .setTotp none]).run sampleNote := by
  have hvalid : sampleNote.Valid := by decide
  exact ⟨hvalid, run_applyUpdate_replace hvalid (some "t".toList) none none (some "s".toList) none
    (some none)⟩

/-! ## The values an update carries -/

/-- The title that the update sets. -/
def newTitle : EntryUpdate → Option Text
  | .setTitle t => some t
  | .replace title .. => title
  | _ => none

/-- The note that the update sets or removes. -/
def newNote : EntryUpdate → Option (Option Text)
  | .setNote n => some n
  | .replace _ note .. => note
  | _ => none

/-- The user name that the update sets or removes. -/
def newUsername : EntryUpdate → Option (Option Text)
  | .setUsername u => some u
  | .replace _ _ username .. => username
  | _ => none

/-- The primary secret that the update sets. -/
def newSecret : EntryUpdate → Option Text
  | .setSecret s => some s
  | .replace _ _ _ secret .. => secret
  | _ => none

variable {e : VaultEntry} {u : EntryUpdate}

theorem setTitle_mem_parts {t : Text} (h : u.newTitle = some t) : .setTitle t ∈ u.parts := by
  cases u with
  | setTitle t' => simpa [newTitle, parts, eq_comm] using h
  | replace title note username secret extra totp => simp_all [newTitle, parts]
  | _ => cases h

theorem setNote_mem_parts {n : Option Text} (h : u.newNote = some n) : .setNote n ∈ u.parts := by
  cases u with
  | setNote n' => simpa [newNote, parts, eq_comm] using h
  | replace title note username secret extra totp => simp_all [newNote, parts]
  | _ => cases h

theorem setUsername_mem_parts {n : Option Text} (h : u.newUsername = some n) :
    .setUsername n ∈ u.parts := by
  cases u with
  | setUsername n' => simpa [newUsername, parts, eq_comm] using h
  | replace title note username secret extra totp => simp_all [newUsername, parts]
  | _ => cases h

theorem setSecret_mem_parts {s : Text} (h : u.newSecret = some s) : .setSecret s ∈ u.parts := by
  cases u with
  | setSecret s' => simpa [newSecret, parts, eq_comm] using h
  | replace title note username secret extra totp => simp_all [newSecret, parts]
  | _ => cases h

/-! ## The fields after an accepted update -/

theorem putAll_append (e : VaultEntry) (us vs : List EntryUpdate) :
    putAll e (us ++ vs) = putAll (putAll e us) vs := List.foldl_append

section Optional

variable (e)

theorem putAll_title (o : Option Text) :
    putAll e (o.toList.map .setTitle) = { e with secret.title := o.elim e.secret.title .mk } := by
  cases o <;> rfl

theorem putAll_note (o : Option (Option Text)) :
    putAll e (o.toList.map .setNote) =
      { e with secret.note := o.elim e.secret.note (Option.map .mk) } := by
  cases o <;> rfl

theorem putAll_username (o : Option (Option Text)) :
    putAll e (o.toList.map .setUsername) =
      { e with secret.username := o.elim e.secret.username (Option.map .mk) } := by
  cases o <;> rfl

theorem putAll_extra (o : Option (Option Bytes)) :
    putAll e (o.toList.map .setExtra) =
      { e with secret.extra := o.elim e.secret.extra (Option.map .mk) } := by
  cases o <;> rfl

end Optional

/-- The texts beside the secret after all parts of an update. -/
theorem texts_putAll_parts (e : VaultEntry) (u : EntryUpdate) :
    (putAll e u.parts).secret.title = u.newTitle.elim e.secret.title .mk ∧
      (putAll e u.parts).secret.note = u.newNote.elim e.secret.note (Option.map .mk) ∧
      (putAll e u.parts).secret.username =
        u.newUsername.elim e.secret.username (Option.map .mk) := by
  cases u with
  | replace title note username secret extra totp =>
      simp only [parts, putAll_append, putAll_title, putAll_note, putAll_username, putAll_extra]
      cases secret <;> cases totp with
        | none => exact ⟨rfl, rfl, rfl⟩
        | some t => cases t <;> exact ⟨rfl, rfl, rfl⟩
  | setTotp t => cases t <;> exact ⟨rfl, rfl, rfl⟩
  | _ => exact ⟨rfl, rfl, rfl⟩

/-- A block is not accepted on an entry of another type. -/
theorem Accepted.setTotp_notMem (hacc : u.Accepted e) (htype : e.metadata.entryType ≠ .totp)
    (t : Option TotpSecret) : .setTotp t ∉ u.parts := by
  intro hmem
  have htest := hacc _ hmem
  simp [test, htype] at htest

/-- The primary secret after all parts of an accepted update, where no block can bring another. -/
theorem secret_putAll_parts (hacc : u.Accepted e) (htype : e.metadata.entryType ≠ .totp) :
    (putAll e u.parts).secret.secret = u.newSecret.elim e.secret.secret .mk := by
  have hblock := hacc.setTotp_notMem htype
  cases u with
  | setTotp t => exact absurd List.mem_cons_self (hblock t)
  | replace title note username secret extra totp =>
      cases totp with
      | some t => exact absurd (by simp [parts]) (hblock t)
      | none =>
          simp only [parts, putAll_append, putAll_title, putAll_note, putAll_username, putAll_extra]
          cases secret <;> rfl
  | _ => rfl

@[simp] theorem putAll_entryType (e : VaultEntry) (us : List EntryUpdate) :
    (putAll e us).metadata.entryType = e.metadata.entryType := by
  induction us generalizing e with
  | nil => rfl
  | cons u us ih => exact (ih (u.put e)).trans (put_entryType e u)

end EntryUpdate

end ViperVault
