import ViperVault.Core.LockState
import ViperVault.Import.Interop

/-!
# CRUD operations on the unlocked vault

`core/entries.rs` and `core/import.rs`: each operation is a closure on the payload, run by
`with_unlocked_payload_mut`. The closures are `Mut` bodies, since what they have written
before an early return is stored.
-/

namespace ViperVault

open Foundation

/-- `iter_mut().find(|e| e.meta.id == entry_id)` followed by a body on the found slot. -/
def findMut {ε : Type} (entryId : Uuid) (body : Mut VaultEntry ε Unit) :
    List VaultEntry → Option (Except ε Unit × List VaultEntry)
  | [] => none
  | e :: es =>
      if e.metadata.id = entryId then some ((body.run e).1, (body.run e).2 :: es)
      else (findMut entryId body es).map fun r => (r.1, e :: r.2)

/-- `find(..).ok_or(EntryNotFound)?` and the rest of the closure. -/
def onFound (entryId : Uuid) (body : Mut VaultEntry EntryError Unit) :
    Mut VaultPayload EntryError Unit := fun payload =>
  match findMut entryId body payload.entries with
  | none => (.error .entryNotFound, payload)
  | some (result, entries) => (result, { payload with entries := entries })

/-- The closure of `add_entry`. -/
def addEntryBody (entry : VaultEntry) : Mut VaultPayload EntryError Unit := do
  let payload ← Mut.read
  if payload.entries.any fun e => e.metadata.id == entry.metadata.id then
    Mut.fail .duplicateEntry
  else
    Mut.write fun p => { p with entries := p.entries ++ [entry] }

/-- The closure of `update_entry`. -/
def updateEntryBody (entryId : Uuid) (newEntry : VaultEntry) :
    Mut VaultPayload EntryError Unit :=
  onFound entryId (Mut.write fun _ => newEntry)

/-- The closure of `update_entry_fields`. -/
def updateEntryFieldsBody (entryId : Uuid) (update : EntryUpdate) :
    Mut VaultPayload EntryError Unit :=
  onFound entryId (VaultEntry.applyUpdate update)

/-- The closure of `delete_entry`: it writes before it finds that nothing was deleted. -/
def deleteEntryBody (entryId : Uuid) : Mut VaultPayload EntryError Unit := do
  let original ← Mut.read
  Mut.write fun p => { p with entries := p.entries.filter fun e => e.metadata.id != entryId }
  let payload ← Mut.read
  if payload.entries.length = original.entries.length then
    Mut.fail .entryNotFound
  else
    pure ()

/-- A call that changes the payload of the manager. -/
inductive StoreCall
  | addEntry (entry : VaultEntry)
  | updateEntry (entryId : Uuid) (newEntry : VaultEntry)
  | updateEntryFields (entryId : Uuid) (update : EntryUpdate)
  | deleteEntry (entryId : Uuid)
  | commitQuarantineImport (policy : PolicyContext) (quarantined : QuarantinedImport)

/-- The error type of the calls: those of the CRUD operations and that of the commit. -/
inductive StoreError
  | entry (err : EntryError)
  | import (err : ImportError)
  deriving DecidableEq

/-- Map the error of a body. -/
def Foundation.Mut.mapError {σ ε ε' α : Type} (f : ε → ε') (m : Mut σ ε α) : Mut σ ε' α :=
  fun s => ((m.run s).1.mapError f, (m.run s).2)

namespace StoreCall

/-- The closure of the call. -/
def body : StoreCall → Mut VaultPayload StoreError Unit
  | .addEntry entry => (addEntryBody entry).mapError .entry
  | .updateEntry entryId newEntry => (updateEntryBody entryId newEntry).mapError .entry
  | .updateEntryFields entryId update => (updateEntryFieldsBody entryId update).mapError .entry
  | .deleteEntry entryId => (deleteEntryBody entryId).mapError .entry
  | .commitQuarantineImport policy quarantined =>
      (commitQuarantinedImportIntoPayload policy quarantined).mapError .import

/-- The error that stands for the answer `None` of `with_unlocked_payload_mut`. -/
def unavailable : StoreCall → StoreError
  | .commitQuarantineImport .. => .import .policyDenied
  | _ => .entry .vaultLocked

/-- `add_entry`, `update_entry`, `update_entry_fields`, `delete_entry` and
`commit_quarantine_import`. -/
def run (serde : Serde VaultPayloadDto) (call : StoreCall) (st : VaultState) :
    Except StoreError Unit × VaultState :=
  let (answer, st') := withUnlockedPayloadMut serde call.body.run st
  (answer.getD (.error call.unavailable), st')

end StoreCall

/-- `list_entries`. -/
def listEntries (serde : Serde VaultPayloadDto) (st : VaultState) : Option (List EntrySummary) :=
  withUnlockedPayload serde (fun payload => payload.entries.map VaultEntry.toSummary) st

/-- `get_entry`. -/
def getEntry (serde : Serde VaultPayloadDto) (entryId : Uuid) (st : VaultState) :
    Except EntryError EntryView :=
  let answer := withUnlockedPayload serde (fun payload =>
    match payload.entries.find? fun e => e.metadata.id == entryId with
    | none => .error EntryError.entryNotFound
    | some e => .ok e.toView) st
  answer.getD (.error .vaultLocked)

/-! ## What the closures do -/

theorem findMut_eq_none_iff {ε : Type} {entryId : Uuid} {body : Mut VaultEntry ε Unit}
    {entries : List VaultEntry} :
    findMut entryId body entries = none ↔
      entries.find? (fun e => e.metadata.id == entryId) = none := by
  induction entries with
  | nil => simp [findMut]
  | cons e es ih =>
      by_cases hid : e.metadata.id = entryId
      · simp [findMut, hid]
      · simp [findMut, hid, ih]

/-- The body runs on the first entry with the identifier; the others keep their places. -/
theorem findMut_eq_some {ε : Type} {entryId : Uuid} {body : Mut VaultEntry ε Unit}
    {entries entries' : List VaultEntry} {result : Except ε Unit}
    (h : findMut entryId body entries = some (result, entries')) :
    ∃ pre e post, entries = pre ++ e :: post ∧
      entries.find? (fun e => e.metadata.id == entryId) = some e ∧
      body.run e = (result, (body.run e).2) ∧ entries' = pre ++ (body.run e).2 :: post := by
  induction entries generalizing entries' with
  | nil => simp [findMut] at h
  | cons e es ih =>
      by_cases hid : e.metadata.id = entryId
      · simp only [findMut, hid, if_true, Option.some.injEq, Prod.mk.injEq] at h
        obtain ⟨rfl, rfl⟩ := h
        exact ⟨[], e, es, rfl, by simp [hid], rfl, rfl⟩
      · simp only [findMut, hid, if_false, Option.map_eq_some_iff, Prod.mk.injEq] at h
        obtain ⟨⟨result', es'⟩, htail, rfl, rfl⟩ := h
        obtain ⟨pre, f, post, hsplit, hfind, hrun, hes'⟩ := ih htail
        refine ⟨e :: pre, f, post, by rw [hsplit]; rfl, ?_, hrun, by rw [hes']; rfl⟩
        simpa [hid] using hfind

end ViperVault
