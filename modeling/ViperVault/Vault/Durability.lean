import ViperVault.Foundation.WriteBack
import ViperVault.Vault.StorageRuns

/-!
# Storage under loss of power

The calls of `vault/storage.rs` on a disk with a write-back cache: what they have synced is on the
medium, and the rest may be lost, or torn, whenever power is lost. Then all calls are gone, with
the lock, and the next ones find what the medium has. `create_dir_all` makes the directory where
there is none, and nobody syncs its parent. Where directories cannot be synced, `sync_parent_dir`
does nothing.
-/

namespace ViperVault

open Foundation

variable {E : Type}

/-! ## What the calls do to the cache -/

/-- `open_lock_file`: an existing lock file is left as it is. -/
def openLockFileOn (path : Path) (volume : Volume Path UInt8) :
    IoAnswer E → Volume Path UInt8
  | .done =>
      match (lockPathFor path : Except (VaultStorageError E) Path) with
      | .ok lockPath =>
          match volume.current lockPath with
          | some _ => volume
          | none => volume.create lockPath
      | .error _ => volume
  | _ => volume

/-- What a step of `write_vault_atomic` does. -/
def WritePc.persist (unix : Bool) (path : Path) (bytes : Bytes) (suffix : Uuid)
    (volume : Volume Path UInt8) (answer : IoAnswer E) : WritePc E → Volume Path UInt8
  | .openingLock => openLockFileOn path volume answer
  | .creating =>
      match tempPathOf path suffix, answer with
      | some tmpPath, .done => volume.create tmpPath
      | _, _ => volume
  | .writing tmpPath written =>
      match answer with
      | .moved n => volume.append tmpPath ((bytes.drop written).take n)
      | _ => volume
  | .syncing tmpPath =>
      match answer with
      | .done => volume.syncFile tmpPath
      | _ => volume
  | .committing tmpPath =>
      match answer with
      | .done => volume.rename tmpPath path
      | _ => volume
  | .syncingDir _ =>
      match answer with
      | .done => if unix then volume.syncDir else volume
      | _ => volume
  | .cleaning tmpPath _ =>
      match answer with
      | .done => volume.remove tmpPath
      | _ => volume
  | _ => volume

/-- What a step of `read_vault_locked` does. -/
def ReadPc.persist (path : Path) (volume : Volume Path UInt8) (answer : IoAnswer E) :
    ReadPc E → Volume Path UInt8
  | .openingLock => openLockFileOn path volume answer
  | _ => volume

/-- What a step of a call does. -/
def StorageCall.persist (unix : Bool) (path : Path) (volume : Volume Path UInt8)
    (answer : IoAnswer E) : StorageCall E → Volume Path UInt8
  | .write bytes suffix pc _ => pc.persist unix path bytes suffix volume answer
  | .read pc _ => pc.persist path volume answer

/-- What a step of a write does to the entry of the directory. -/
def WritePc.persistDir (path : Path) (entry : DirEntry) (answer : IoAnswer E) :
    WritePc E → DirEntry
  | .start =>
      match path.parent, answer with
      | some _, .done => entry.mkdir
      | _, _ => entry
  | _ => entry

/-- What a step of a call does to the entry of the directory. -/
def StorageCall.persistDir (path : Path) (entry : DirEntry) (answer : IoAnswer E) :
    StorageCall E → DirEntry
  | .write _ _ pc _ => pc.persistDir path entry answer
  | .read _ _ => entry

/-- The step opens the lock file, which takes the directory. -/
def StorageCall.opensLockFile : IoAnswer E → StorageCall E → Bool
  | .done, .write _ _ .openingLock _ => true
  | .done, .read .openingLock _ => true
  | _, _ => false

/-- An event, or a loss of power with what it leaves. -/
inductive PowerEvent (E : Type)
  | io (event : StorageEvent E)
  | powerLoss (pick : Path → Nat) (torn : Path → Bytes) (chance : Bool)

/-- The calls since the last boot, the disk with the directory, and the bytes of all writes whose
rename succeeded, in their order. Nothing reads the journal. -/
structure PowerWorld (E : Type) where
  world : StorageWorld E
  volume : Volume Path UInt8
  directory : DirEntry
  journal : List Bytes

/-- The files of a directory, or of none. -/
def filesOn (medium : Option (Path → Option Bytes)) : Path → Option Bytes :=
  fun p => medium.bind fun files => files p

namespace PowerWorld

/-- The machine boots with a directory and its files on the medium, or without the directory. -/
def boot (medium : Option (Path → Option Bytes)) (journal : List Bytes) : PowerWorld E where
  world := .new (filesOn medium)
  volume := .ofFiles (filesOn medium)
  directory := if medium.isSome then .durable else .absent
  journal := journal

/-- The disk after an event. -/
def persist (unix : Bool) (path : Path) (s : PowerWorld E) : StorageEvent E → Volume Path UInt8
  | .invoke _ => s.volume
  | .advance i answer =>
      match s.world.calls[i]? with
      | some call => call.persist unix path s.volume answer
      | none => s.volume

/-- The entry of the directory after an event. -/
def persistDir (path : Path) (s : PowerWorld E) : StorageEvent E → DirEntry
  | .invoke _ => s.directory
  | .advance i answer =>
      match s.world.calls[i]? with
      | some call => call.persistDir path s.directory answer
      | none => s.directory

/-- The event opens the lock file. -/
def opensLockFile (s : PowerWorld E) : StorageEvent E → Bool
  | .invoke _ => false
  | .advance i answer => (s.world.calls[i]?).any (StorageCall.opensLockFile answer)

/-- One event. -/
def step (unix : Bool) (path : Path) (s : PowerWorld E) : PowerEvent E → Option (PowerWorld E)
  | .io event =>
      if s.directory = .absent ∧ s.opensLockFile event then none
      else (s.world.step path event).map fun world =>
        { world
          volume := s.persist unix path event
          directory := s.persistDir path event
          journal := s.journal ++
            (world.committed.drop s.world.committed.length).map Prod.snd }
  | .powerLoss pick torn chance =>
      some (boot (s.directory.crash chance (s.volume.crash pick torn)) s.journal)

end PowerWorld

/-! ## The steps -/

/-- The call is about to return that it has succeeded, or has done so. -/
def WritePc.succeeds : WritePc E → Bool
  | .leaving (.ok ()) | .returned (.ok ()) => true
  | _ => false

/-- The call is about to rename. -/
def WritePc.commits : WritePc E → Bool
  | .committing _ => true
  | _ => false

/-- No step of a write puts a new directory on the medium. -/
theorem WritePc.persistDir_eq_durable {path : Path} {entry : DirEntry} {answer : IoAnswer E}
    {pc : WritePc E} : pc.persistDir path entry answer = .durable ↔ entry = .durable := by
  cases pc with
  | start =>
      simp only [persistDir]
      split
      · exact DirEntry.mkdir_eq_durable
      · exact Iff.rfl
  | _ => exact Iff.rfl

/-- What a step of a write can do to the disk. -/
inductive PersistMoves (unix : Bool) (path : Path) (bytes : Bytes) (suffix : Uuid)
    (files : Path → Option Bytes) (volume : Volume Path UInt8) :
    WritePc E → WritePc E → (Path → Option Bytes) → StorageTrace E → Volume Path UInt8 → Prop
  | keep (pc pc' : WritePc E) (ops : StorageTrace E) (hrenames : ops.renames = false)
      (hcommits : pc'.commits = false) (hsucceeds : pc'.succeeds = true → pc.succeeds = true) :
      PersistMoves unix path bytes suffix files volume pc pc' files ops volume
  | openLock (lockPath : Path)
      (hlock : lockPathFor path = (.ok lockPath : Except (VaultStorageError E) Path)) :
      PersistMoves unix path bytes suffix files volume .openingLock .locking
        (Function.update files lockPath (some ((files lockPath).getD []))) [(.openLockFile, none)]
        (openLockFileOn path volume (.done : IoAnswer E))
  | create (tmpPath : Path) (htmp : tempPathOf path suffix = some tmpPath) :
      PersistMoves unix path bytes suffix files volume .creating (.writing tmpPath 0)
        (Function.update files tmpPath (some [])) [(.createTempFile, none)]
        (volume.create tmpPath)
  | append (tmpPath : Path) (written n : Nat) :
      PersistMoves unix path bytes suffix files volume (.writing tmpPath written)
        (.writing tmpPath (written + n))
        (Function.update files tmpPath
          ((files tmpPath).map (· ++ (bytes.drop written).take n))) []
        (volume.append tmpPath ((bytes.drop written).take n))
  | sync (tmpPath : Path) :
      PersistMoves unix path bytes suffix files volume (.syncing tmpPath) (.committing tmpPath)
        files [(.syncTempFile, none)] (volume.syncFile tmpPath)
  | rename (tmpPath : Path) (content : Bytes) (hcontent : files tmpPath = some content) :
      PersistMoves unix path bytes suffix files volume (.committing tmpPath) (.syncingDir tmpPath)
        (Function.update (Function.update files path (some content)) tmpPath none)
        [(.rename, none)] (volume.rename tmpPath path)
  | syncDir (tmpPath : Path) :
      PersistMoves unix path bytes suffix files volume (.syncingDir tmpPath) (.leaving (.ok ()))
        files [(.syncParentDir, none)] (if unix then volume.syncDir else volume)
  | remove (tmpPath : Path) (e : VaultStorageError E) :
      PersistMoves unix path bytes suffix files volume (.cleaning tmpPath e) (.leaving (.error e))
        (Function.update files tmpPath none) [(.removeFile, none)] (volume.remove tmpPath)

/-- The answer of an operation says whether it is done or has failed. -/
theorem ioStep_answer {Pc : Type} {op : StorageOp} {toError : E → VaultStorageError E}
    {disk disk' : Disk} {onDone : Option (Pc × Disk)} {onError : VaultStorageError E → Pc}
    {answer : IoAnswer E} {pc' : Pc} {ops : StorageTrace E}
    (h : ioStep op toError disk onDone onError answer = some (pc', disk', ops)) :
    (answer = .done ∧ onDone = some (pc', disk') ∧ ops = [(op, none)]) ∨
      ∃ e, answer = .failed e ∧ pc' = onError (toError e) ∧ disk' = disk ∧
        ops = [(op, some (toError e))] := by
  cases answer with
  | done =>
      rcases ioStep_eq_some h with hdone | ⟨e, -, -, -⟩
      · exact Or.inl ⟨rfl, hdone⟩
      · obtain ⟨⟨pc, disk₁⟩, hdone, hsame⟩ := Option.map_eq_some_iff.mp h
        cases hsame
        exact Or.inl ⟨rfl, hdone, rfl⟩
  | failed e =>
      cases h
      exact Or.inr ⟨e, rfl, rfl, rfl, rfl⟩
  | moved n => cases h

section Steps

variable {unix : Bool} {path : Path} {i : Nat} {bytes : Bytes} {suffix : Uuid}
  {disk disk' : Disk} {answer : IoAnswer E} {ops : StorageTrace E}

/-- The lock file is opened, or nothing happens. -/
theorem openLockFile_answer {Pc : Type} {onDone pc' : Pc} {onError : VaultStorageError E → Pc}
    (volume : Volume Path UInt8)
    (h : openLockFile path disk onDone onError answer = some (pc', disk', ops)) :
    (∃ lockPath, lockPathFor path = (.ok lockPath : Except (VaultStorageError E) Path) ∧
        pc' = onDone ∧
        disk'.files = Function.update disk.files lockPath (some ((disk.files lockPath).getD [])) ∧
        ops = [(.openLockFile, none)] ∧ answer = .done) ∨
      ∃ op e, pc' = onError e ∧ disk' = disk ∧ ops = [(op, some e)] ∧
        openLockFileOn path volume answer = volume := by
  simp only [openLockFile] at h
  split at h
  · rename_i e hlock
    cases h
    refine Or.inr ⟨_, _, rfl, rfl, rfl, ?_⟩
    cases answer with
    | done => simp only [openLockFileOn, hlock]
    | _ => rfl
  · rename_i lockPath hlock
    rcases ioStep_answer h with ⟨rfl, hdone, rfl⟩ | ⟨e, rfl, rfl, rfl, rfl⟩
    · cases hdone
      exact Or.inl ⟨lockPath, hlock, rfl, rfl, rfl, rfl⟩
    · exact Or.inr ⟨_, _, rfl, rfl, rfl, rfl⟩

theorem WritePc.persistMoves {pc pc' : WritePc E} (volume : Volume Path UInt8)
    (h : pc.advance path i bytes suffix disk answer = some (pc', disk', ops)) :
    PersistMoves unix path bytes suffix disk.files volume pc pc' disk'.files ops
      (pc.persist unix path bytes suffix volume answer) := by
  cases pc with
  | start =>
      simp only [advance] at h
      split at h
      · cases h
        exact .keep _ _ _ (by simp) rfl (by simp [succeeds])
      · rcases ioStep_answer h with ⟨rfl, hdone, rfl⟩ | ⟨e, rfl, rfl, rfl, rfl⟩
        · cases hdone
          exact .keep _ _ _ (by simp) rfl (by simp [succeeds])
        · exact .keep _ _ _ (by simp) rfl (by simp [succeeds])
  | openingLock =>
      rcases openLockFile_answer volume h with
        ⟨lockPath, hlock, rfl, hfiles, rfl, rfl⟩ | ⟨op, e, rfl, rfl, rfl, hkeep⟩
      · rw [hfiles]
        exact .openLock lockPath hlock
      · rw [persist, hkeep]
        exact .keep _ _ _ (by simp) rfl (by simp [succeeds])
  | locking =>
      simp only [advance] at h
      rcases ioStep_answer h with ⟨rfl, hdone, rfl⟩ | ⟨e, rfl, rfl, rfl, rfl⟩
      · obtain ⟨l, -, hsame⟩ := Option.map_eq_some_iff.mp hdone
        cases hsame
        exact .keep _ _ _ (by simp) rfl (by simp [succeeds])
      · exact .keep _ _ _ (by simp) rfl (by simp [succeeds])
  | creating =>
      simp only [advance] at h
      split at h
      · rename_i htmp
        cases h
        simp only [persist, htmp]
        exact .keep _ _ _ (by simp) rfl (by simp [succeeds])
      · rename_i tmpPath htmp
        rcases ioStep_answer h with ⟨rfl, hdone, rfl⟩ | ⟨e, rfl, rfl, rfl, rfl⟩
        · obtain ⟨-, hsame⟩ := Option.ite_none_right_eq_some.mp hdone
          cases hsame
          simp only [persist, htmp]
          exact .create tmpPath htmp
        · simp only [persist, htmp]
          exact .keep _ _ _ (by simp) rfl (by simp [succeeds])
  | writing tmpPath written =>
      simp only [advance] at h
      split at h
      · rename_i n
        obtain ⟨-, hsame⟩ := Option.ite_none_right_eq_some.mp h
        cases hsame
        exact .append tmpPath written n
      · rcases ioStep_answer h with ⟨rfl, hdone, rfl⟩ | ⟨e, rfl, rfl, rfl, rfl⟩
        · obtain ⟨-, hsame⟩ := Option.ite_none_right_eq_some.mp hdone
          cases hsame
          exact .keep _ _ _ (by simp) rfl (by simp [succeeds])
        · exact .keep _ _ _ (by simp) rfl (by simp [succeeds])
  | syncing tmpPath =>
      simp only [advance] at h
      rcases ioStep_answer h with ⟨rfl, hdone, rfl⟩ | ⟨e, rfl, rfl, rfl, rfl⟩
      · cases hdone
        exact .sync tmpPath
      · exact .keep _ _ _ (by simp) rfl (by simp [succeeds])
  | committing tmpPath =>
      simp only [advance] at h
      rcases ioStep_answer h with ⟨rfl, hdone, rfl⟩ | ⟨e, rfl, rfl, rfl, rfl⟩
      · obtain ⟨content, hcontent, hsame⟩ := Option.map_eq_some_iff.mp hdone
        cases hsame
        exact .rename tmpPath content hcontent
      · exact .keep _ _ _ (by simp) rfl (by simp [succeeds])
  | syncingDir tmpPath =>
      simp only [advance] at h
      rcases ioStep_answer h with ⟨rfl, hdone, rfl⟩ | ⟨e, rfl, rfl, rfl, rfl⟩
      · cases hdone
        exact .syncDir tmpPath
      · exact .keep _ _ _ (by simp) rfl (by simp [succeeds])
  | cleaning tmpPath e =>
      simp only [advance] at h
      rcases ioStep_answer h with ⟨rfl, hdone, rfl⟩ | ⟨e', rfl, rfl, rfl, rfl⟩
      · obtain ⟨content, -, hsame⟩ := Option.map_eq_some_iff.mp hdone
        cases hsame
        exact .remove tmpPath e
      · exact .keep _ _ _ (by simp) rfl (by simp [succeeds])
  | leaving result =>
      cases h
      refine .keep _ _ _ rfl rfl ?_
      cases result <;> exact id
  | returned result => cases h

section LockFile

variable {lockPath : Path} {volume : Volume Path UInt8}

theorem files_openLockFileOn
    (hlock : lockPathFor path = (.ok lockPath : Except (VaultStorageError E) Path)) :
    (openLockFileOn path volume (.done : IoAnswer E)).files =
      Function.update volume.files lockPath (some ((volume.files lockPath).getD [])) := by
  simp only [openLockFileOn, hlock]
  cases hfile : volume.current lockPath with
  | some file =>
      have hcontent : volume.files lockPath = some file.content := by simp [Volume.files, hfile]
      rw [hcontent, Option.getD_some, ← hcontent, Function.update_eq_self]
  | none =>
      have hcontent : volume.files lockPath = none := by simp [Volume.files, hfile]
      rw [hcontent, Option.getD_none]
      exact Volume.files_create volume lockPath

theorem sameAt_openLockFileOn {p : Path}
    (hlock : lockPathFor path = (.ok lockPath : Except (VaultStorageError E) Path))
    (hne : p ≠ lockPath) : volume.SameAt (openLockFileOn path volume (.done : IoAnswer E)) p := by
  simp only [openLockFileOn, hlock]
  cases volume.current lockPath with
  | some file => exact ⟨rfl, rfl⟩
  | none => exact Volume.sameAt_link _ hne

end LockFile

section Writes

variable {files files' : Path → Option Bytes} {volume volume' : Volume Path UInt8}
  {pc pc' : WritePc E} {trace : StorageTrace E}

/-- The users of the disk see the files. -/
theorem PersistMoves.files_eq
    (h : PersistMoves unix path bytes suffix files volume pc pc' files' ops volume')
    (hview : volume.files = files) : volume'.files = files' := by
  subst hview
  cases h with
  | keep => rfl
  | openLock lockPath hlock => exact files_openLockFileOn hlock
  | create tmpPath htmp => exact Volume.files_create volume tmpPath
  | append tmpPath written n => exact Volume.files_append volume tmpPath _
  | sync tmpPath => exact Volume.files_syncFile volume tmpPath
  | rename tmpPath content hcontent => rw [Volume.files_rename, hcontent]
  | syncDir tmpPath => cases unix <;> rfl
  | remove tmpPath e => exact Volume.files_remove volume tmpPath

/-- The temporary files of the other calls are as synced as they were. -/
theorem PersistMoves.current_of_ne {p : Path} {other : Uuid}
    (h : PersistMoves unix path bytes suffix files volume pc pc' files' ops volume')
    (hstands : WriteStands path bytes suffix files trace pc)
    (hother : tempPathOf path other = some p) (hne : tempPathOf path suffix ≠ some p) :
    volume'.current p = volume.current p := by
  have hapart : ∀ tmpPath, tempPathOf path suffix = some tmpPath → p ≠ tmpPath := by
    rintro tmpPath htmp rfl
    exact hne htmp
  cases h with
  | keep => rfl
  | openLock lockPath hlock =>
      exact (sameAt_openLockFileOn hlock (lockPathFor_ne_tempPathOf hlock hother).symm).1
  | create tmpPath htmp => exact (Volume.sameAt_link _ (hapart tmpPath htmp)).1
  | append tmpPath written n => exact (Volume.sameAt_modify _ (hapart tmpPath hstands.2.2.1)).1
  | sync tmpPath => exact (Volume.sameAt_modify _ (hapart tmpPath hstands.2.2.1)).1
  | rename tmpPath content hcontent =>
      exact (Volume.sameAt_rename (hapart tmpPath hstands.2.2.1) (tempPathOf_ne_path hother)).1
  | syncDir tmpPath => cases unix <;> rfl
  | remove tmpPath e => exact (Volume.sameAt_link _ (hapart tmpPath hstands.2)).1

/-- The temporary file of a call that is about to rename is on the medium. -/
def TempSynced (volume : Volume Path UInt8) : WritePc E → Prop
  | .committing tmpPath => ∃ file, volume.current tmpPath = some file ∧ file.synced = true
  | _ => True

theorem tempSynced_of_not_commits (hpc : pc.commits = false) : TempSynced volume pc := by
  cases pc with
  | committing tmpPath => cases hpc
  | _ => trivial

theorem PersistMoves.tempSynced
    (h : PersistMoves unix path bytes suffix files volume pc pc' files' ops volume')
    (hstands : WriteStands path bytes suffix files trace pc) (hview : volume.files = files) :
    TempSynced volume' pc' := by
  cases h with
  | keep _ _ _ _ hcommits => exact tempSynced_of_not_commits hcommits
  | sync tmpPath =>
      obtain ⟨-, -, -, hfile⟩ := hstands
      rw [← hview] at hfile
      obtain ⟨file, hcurrent, -⟩ := Option.map_eq_some_iff.mp hfile
      refine ⟨⟨file.content, true⟩, ?_, rfl⟩
      simp [Volume.syncFile, Volume.modify, hcurrent]
  | _ => trivial

/-- What is settled of the vault file stays so, and a rename adds the bytes of the call. -/
theorem PersistMoves.settled {good : Option Bytes → Prop}
    (h : PersistMoves unix path bytes suffix files volume pc pc' files' ops volume')
    (hstands : WriteStands path bytes suffix files trace pc) (hview : volume.files = files)
    (hsynced : TempSynced volume pc) (hgood : ops.renames = true → good (some bytes))
    (hsettled : volume.Settled good path) : volume'.Settled good path := by
  cases h with
  | keep => exact hsettled
  | openLock lockPath hlock =>
      exact hsettled.congr (sameAt_openLockFileOn hlock (lockPathFor_ne_path hlock).symm)
  | create tmpPath htmp =>
      exact hsettled.congr (Volume.sameAt_link _ (tempPathOf_ne_path htmp).symm)
  | append tmpPath written n =>
      exact hsettled.congr (Volume.sameAt_modify _ (tempPathOf_ne_path hstands.2.2.1).symm)
  | sync tmpPath =>
      exact hsettled.congr (Volume.sameAt_modify _ (tempPathOf_ne_path hstands.2.2.1).symm)
  | rename tmpPath content hcontent =>
      obtain ⟨-, -, htmp, hfile⟩ := hstands
      obtain ⟨file, hcurrent, hfsynced⟩ := hsynced
      refine hsettled.rename (tempPathOf_ne_path htmp).symm ?_ ?_
      · intro other hother
        rw [hcurrent] at hother
        cases hother
        exact hfsynced
      · rw [hview, hfile]
        exact hgood rfl
  | syncDir tmpPath =>
      cases unix with
      | true => exact hsettled.syncDir
      | false => exact hsettled
  | remove tmpPath e =>
      exact hsettled.congr (Volume.sameAt_link _ (tempPathOf_ne_path hstands.2).symm)

/-- A call comes to succeed by syncing the directory. -/
theorem PersistMoves.succeeds
    (h : PersistMoves unix path bytes suffix files volume pc pc' files' ops volume')
    (hsucceeds : pc'.succeeds = true) :
    pc.succeeds = true ∨ ∃ tmpPath, pc = .syncingDir tmpPath ∧ ops.renames = false ∧
      volume' = if unix then volume.syncDir else volume := by
  cases h with
  | keep _ _ _ _ _ hkeep => exact Or.inl (hkeep hsucceeds)
  | syncDir tmpPath => exact Or.inr ⟨tmpPath, rfl, rfl, rfl⟩
  | _ => cases hsucceeds

end Writes

/-- A read does nothing to the disk, or it makes the lock file. -/
theorem ReadPc.persist_cases {pc pc' : ReadPc E} (volume : Volume Path UInt8)
    (h : pc.advance path i disk answer = some (pc', disk', ops)) :
    (disk'.files = disk.files ∧ pc.persist path volume answer = volume) ∨
      ∃ lockPath, lockPathFor path = (.ok lockPath : Except (VaultStorageError E) Path) ∧
        disk'.files = Function.update disk.files lockPath (some ((disk.files lockPath).getD [])) ∧
        pc.persist path volume answer = openLockFileOn path volume (.done : IoAnswer E) := by
  cases pc with
  | openingLock =>
      rcases openLockFile_answer volume h with
        ⟨lockPath, hlock, -, hfiles, -, rfl⟩ | ⟨op, e, -, rfl, -, hkeep⟩
      · exact Or.inr ⟨lockPath, hlock, hfiles, rfl⟩
      · exact Or.inl ⟨rfl, hkeep⟩
  | _ =>
      left
      refine ⟨?_, rfl⟩
      cases ReadPc.moves_of_advance h <;> rfl

end Steps

end ViperVault
