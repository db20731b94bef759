import ViperVault.Vault.Storage

/-!
# The steps of storage calls

What each step of a write and of a read can be, what it does to the files and to the lock, and
what a call has done by the time that it stands where it stands.
-/

namespace ViperVault

open Foundation

/-! ## Names -/

section Names

variable {path p tmpPath : Path} {suffix : Uuid}

theorem Path.fileName_join (dir : Path) (name : Text) : (dir.join name).fileName = some name := by
  simp [fileName, join]

theorem fileName_lockPathFor {E : Type} {lockPath : Path}
    (h : lockPathFor path = (.ok lockPath : Except (VaultStorageError E) Path)) :
    ∃ baseName, path.fileName = some baseName ∧
      lockPath.fileName = some (baseName ++ ".lock".toList) := by
  obtain ⟨dir, -, h⟩ := bind_eq_ok.mp h
  obtain ⟨baseName, hbase, h⟩ := bind_eq_ok.mp h
  rw [okOr_eq_ok] at hbase
  rw [← pure_eq_ok.mp h]
  exact ⟨baseName, hbase, Path.fileName_join dir _⟩

theorem fileName_tempPathOf (h : tempPathOf path suffix = some tmpPath) :
    ∃ baseName, path.fileName = some baseName ∧ ∃ name, tmpPath.fileName = some name ∧
      baseName.length + 6 ≤ name.length := by
  obtain ⟨dir, -, h⟩ := Option.bind_eq_some_iff.mp h
  obtain ⟨baseName, hbase, h⟩ := Option.bind_eq_some_iff.mp h
  refine ⟨baseName, hbase,
    ".".toList ++ baseName ++ ".tmp.".toList ++ Json.uuidText suffix, ?_, ?_⟩
  · rw [← Option.some.inj h]
    exact Path.fileName_join dir _
  · have hdot : ".".toList.length = 1 := by decide
    have htmp : ".tmp.".toList.length = 5 := by decide
    simp only [List.length_append, hdot, htmp]
    omega

/-- The temporary file is not the vault file. -/
theorem tempPathOf_ne_path (h : tempPathOf path suffix = some tmpPath) : tmpPath ≠ path := by
  rintro rfl
  obtain ⟨baseName, hbase, name, hname, hlen⟩ := fileName_tempPathOf h
  rw [hbase] at hname
  cases hname
  omega

/-- The lock file is not the vault file. -/
theorem lockPathFor_ne_path {E : Type} {lockPath : Path}
    (h : lockPathFor path = (.ok lockPath : Except (VaultStorageError E) Path)) :
    lockPath ≠ path := by
  rintro rfl
  obtain ⟨baseName, hbase, hname⟩ := fileName_lockPathFor h
  rw [hbase] at hname
  have hlen := congrArg List.length (Option.some.inj hname)
  have hlock : ".lock".toList.length = 5 := by decide
  simp only [List.length_append, hlock] at hlen
  omega

/-- The lock file is not a temporary file. -/
theorem lockPathFor_ne_tempPathOf {E : Type} {lockPath : Path}
    (h : lockPathFor path = (.ok lockPath : Except (VaultStorageError E) Path))
    (htmp : tempPathOf path suffix = some tmpPath) : lockPath ≠ tmpPath := by
  rintro rfl
  obtain ⟨baseName, hbase, hname⟩ := fileName_lockPathFor h
  obtain ⟨baseName', hbase', name, hname', hlen⟩ := fileName_tempPathOf htmp
  rw [hbase] at hbase'
  rw [hname] at hname'
  cases hbase'
  have hsame := congrArg List.length (Option.some.inj hname')
  have hlock : ".lock".toList.length = 5 := by decide
  simp only [List.length_append, hlock] at hsame
  omega

end Names

/-! ## Traces -/

namespace StorageTrace

variable {E : Type}

/-- What the operations make a call return: the first error, or nothing to complain of. -/
def result (trace : StorageTrace E) : Except (VaultStorageError E) Unit :=
  match trace.firstError with
  | some e => .error e
  | none => .ok ()

/-- The operations contain a removal that failed. -/
def removeFails (trace : StorageTrace E) : Bool :=
  trace.any fun r => r.1 = .removeFile ∧ r.2.isSome

@[simp] theorem firstError_append (trace more : StorageTrace E) :
    StorageTrace.firstError (trace ++ more) = trace.firstError.or more.firstError :=
  List.findSome?_append

@[simp] theorem renames_append (trace more : StorageTrace E) :
    StorageTrace.renames (trace ++ more) = (trace.renames || more.renames) :=
  List.any_append

@[simp] theorem removeFails_append (trace more : StorageTrace E) :
    removeFails (trace ++ more) = (trace.removeFails || more.removeFails) :=
  List.any_append

@[simp] theorem firstError_nil : StorageTrace.firstError ([] : StorageTrace E) = none := rfl

@[simp] theorem renames_nil : StorageTrace.renames ([] : StorageTrace E) = false := rfl

@[simp] theorem renames_failed (op : StorageOp) (e : VaultStorageError E) :
    StorageTrace.renames [(op, some e)] = false := by
  simp [StorageTrace.renames]

@[simp] theorem renames_done (op : StorageOp) :
    StorageTrace.renames [(op, (none : Option (VaultStorageError E)))] = decide (op = .rename) := by
  simp [StorageTrace.renames]

/-- The first error stays the first. -/
theorem result_append_of_error {trace : StorageTrace E} {e : VaultStorageError E}
    (h : trace.firstError = some e) (more : StorageTrace E) :
    StorageTrace.result (trace ++ more) = .error e := by
  rw [result, firstError_append, h]
  rfl

theorem firstError_append_done {trace : StorageTrace E} (h : trace.firstError = none)
    (op : StorageOp) : StorageTrace.firstError (trace ++ [(op, none)]) = none := by
  rw [firstError_append, h]
  rfl

theorem firstError_append_failed {trace : StorageTrace E} (h : trace.firstError = none)
    (op : StorageOp) (e : VaultStorageError E) :
    StorageTrace.firstError (trace ++ [(op, some e)]) = some e := by
  rw [firstError_append, h]
  rfl

theorem result_append_failed {trace : StorageTrace E} (h : trace.firstError = none)
    (op : StorageOp) (e : VaultStorageError E) :
    StorageTrace.result (trace ++ [(op, some e)]) = .error e := by
  rw [result, firstError_append_failed h]

theorem result_append_done {trace : StorageTrace E} (h : trace.firstError = none)
    (op : StorageOp) : StorageTrace.result (trace ++ [(op, none)]) = .ok () := by
  rw [result, firstError_append_done h]

end StorageTrace

/-! ## The steps of a write -/

section Writes

variable {E : Type}

/-- What the next step of a write can be. -/
inductive WriteMoves (path : Path) (i : Nat) (bytes : Bytes) (suffix : Uuid) (disk : Disk) :
    WritePc E → WritePc E → Disk → StorageTrace E → Prop
  | noParent : WriteMoves path i bytes suffix disk .start (.returned (.error .invalidPath)) disk
      [(.checkPath, some .invalidPath)]
  | makeDir : WriteMoves path i bytes suffix disk .start .openingLock disk [(.createDirAll, none)]
  | noDir (e : VaultStorageError E) :
      WriteMoves path i bytes suffix disk .start (.returned (.error e)) disk
        [(.createDirAll, some e)]
  | openLock (lockPath : Path)
      (hlock : lockPathFor path = (.ok lockPath : Except (VaultStorageError E) Path)) :
      WriteMoves path i bytes suffix disk .openingLock .locking
        (disk.put lockPath (some ((disk.files lockPath).getD []))) [(.openLockFile, none)]
  | noLockFile (op : StorageOp) (e : VaultStorageError E) :
      WriteMoves path i bytes suffix disk .openingLock (.returned (.error e)) disk [(op, some e)]
  | lock (l : RwLock Nat) (hlock : disk.fileLock.acquireExclusive i = some l) :
      WriteMoves path i bytes suffix disk .locking .creating { disk with fileLock := l }
        [(.lockFile, none)]
  | noLock (e : VaultStorageError E) :
      WriteMoves path i bytes suffix disk .locking (.returned (.error e)) disk
        [(.lockFile, some e)]
  | noTemp (htmp : tempPathOf path suffix = none) :
      WriteMoves path i bytes suffix disk .creating (.leaving (.error .invalidPath)) disk
        [(.checkPath, some .invalidPath)]
  | create (tmpPath : Path) (htmp : tempPathOf path suffix = some tmpPath) :
      WriteMoves path i bytes suffix disk .creating (.writing tmpPath 0)
        (disk.put tmpPath (some [])) [(.createTempFile, none)]
  | noCreate (tmpPath : Path) (e : VaultStorageError E)
      (htmp : tempPathOf path suffix = some tmpPath) :
      WriteMoves path i bytes suffix disk .creating (.cleaning tmpPath e) disk
        [(.createTempFile, some e)]
  | write (tmpPath : Path) (written n : Nat) (hn : written + n ≤ bytes.length) :
      WriteMoves path i bytes suffix disk (.writing tmpPath written)
        (.writing tmpPath (written + n))
        (disk.put tmpPath ((disk.files tmpPath).map (· ++ (bytes.drop written).take n))) []
  | writeAll (tmpPath : Path) :
      WriteMoves path i bytes suffix disk (.writing tmpPath bytes.length) (.syncing tmpPath) disk
        [(.writeAll, none)]
  | noWrite (tmpPath : Path) (written : Nat) (e : VaultStorageError E) :
      WriteMoves path i bytes suffix disk (.writing tmpPath written) (.cleaning tmpPath e) disk
        [(.writeAll, some e)]
  | sync (tmpPath : Path) :
      WriteMoves path i bytes suffix disk (.syncing tmpPath) (.committing tmpPath) disk
        [(.syncTempFile, none)]
  | noSync (tmpPath : Path) (e : VaultStorageError E) :
      WriteMoves path i bytes suffix disk (.syncing tmpPath) (.cleaning tmpPath e) disk
        [(.syncTempFile, some e)]
  | rename (tmpPath : Path) (content : Bytes) (hcontent : disk.files tmpPath = some content) :
      WriteMoves path i bytes suffix disk (.committing tmpPath) (.syncingDir tmpPath)
        ((disk.put path (some content)).put tmpPath none) [(.rename, none)]
  | noRename (tmpPath : Path) (e : VaultStorageError E) :
      WriteMoves path i bytes suffix disk (.committing tmpPath) (.cleaning tmpPath e) disk
        [(.rename, some e)]
  | syncDir (tmpPath : Path) :
      WriteMoves path i bytes suffix disk (.syncingDir tmpPath) (.leaving (.ok ())) disk
        [(.syncParentDir, none)]
  | noSyncDir (tmpPath : Path) (e : VaultStorageError E) :
      WriteMoves path i bytes suffix disk (.syncingDir tmpPath) (.cleaning tmpPath e) disk
        [(.syncParentDir, some e)]
  | remove (tmpPath : Path) (e : VaultStorageError E) :
      WriteMoves path i bytes suffix disk (.cleaning tmpPath e) (.leaving (.error e))
        (disk.put tmpPath none) [(.removeFile, none)]
  | noRemove (tmpPath : Path) (e e' : VaultStorageError E) :
      WriteMoves path i bytes suffix disk (.cleaning tmpPath e) (.leaving (.error e)) disk
        [(.removeFile, some e')]
  | leave (result : Except (VaultStorageError E) Unit) :
      WriteMoves path i bytes suffix disk (.leaving result) (.returned result)
        { disk with fileLock := disk.fileLock.release i } []

/-- An operation is done or has failed. -/
theorem ioStep_eq_some {Pc : Type} {op : StorageOp} {toError : E → VaultStorageError E}
    {disk disk' : Disk} {onDone : Option (Pc × Disk)} {onError : VaultStorageError E → Pc}
    {answer : IoAnswer E} {pc' : Pc} {more : StorageTrace E}
    (h : ioStep op toError disk onDone onError answer = some (pc', disk', more)) :
    (onDone = some (pc', disk') ∧ more = [(op, none)]) ∨
      ∃ e, pc' = onError (toError e) ∧ disk' = disk ∧ more = [(op, some (toError e))] := by
  cases answer with
  | done =>
      obtain ⟨⟨pc, disk₁⟩, hdone, hsame⟩ := Option.map_eq_some_iff.mp h
      cases hsame
      exact Or.inl ⟨hdone, rfl⟩
  | failed e =>
      cases h
      exact Or.inr ⟨e, rfl, rfl, rfl⟩
  | moved n => cases h

/-- The lock file is there and has what it had, or nothing has happened to the files. -/
theorem openLockFile_eq_some {Pc : Type} {path : Path} {disk disk' : Disk} {onDone pc' : Pc}
    {onError : VaultStorageError E → Pc} {answer : IoAnswer E} {more : StorageTrace E}
    (h : openLockFile path disk onDone onError answer = some (pc', disk', more)) :
    (∃ lockPath, lockPathFor path = (.ok lockPath : Except (VaultStorageError E) Path) ∧
        pc' = onDone ∧ disk' = disk.put lockPath (some ((disk.files lockPath).getD [])) ∧
        more = [(.openLockFile, none)]) ∨
      ∃ op e, pc' = onError e ∧ disk' = disk ∧ more = [(op, some e)] := by
  simp only [openLockFile] at h
  split at h
  · cases h
    exact Or.inr ⟨_, _, rfl, rfl, rfl⟩
  · rename_i lockPath hlock
    rcases ioStep_eq_some h with ⟨hdone, rfl⟩ | ⟨e, rfl, rfl, rfl⟩
    · cases hdone
      exact Or.inl ⟨lockPath, hlock, rfl, rfl, rfl⟩
    · exact Or.inr ⟨_, _, rfl, rfl, rfl⟩

theorem WritePc.moves_of_advance {path : Path} {i : Nat} {bytes : Bytes} {suffix : Uuid}
    {disk disk' : Disk} {answer : IoAnswer E} {pc pc' : WritePc E} {more : StorageTrace E}
    (h : pc.advance path i bytes suffix disk answer = some (pc', disk', more)) :
    WriteMoves path i bytes suffix disk pc pc' disk' more := by
  cases pc with
  | start =>
      simp only [advance] at h
      split at h
      · cases h
        exact .noParent
      · rcases ioStep_eq_some h with ⟨hdone, rfl⟩ | ⟨e, rfl, rfl, rfl⟩
        · cases hdone
          exact .makeDir
        · exact .noDir _
  | openingLock =>
      rcases openLockFile_eq_some h with ⟨lockPath, hlock, rfl, rfl, rfl⟩ | ⟨op, e, rfl, rfl, rfl⟩
      · exact .openLock lockPath hlock
      · exact .noLockFile op e
  | locking =>
      simp only [advance] at h
      rcases ioStep_eq_some h with ⟨hdone, rfl⟩ | ⟨e, rfl, rfl, rfl⟩
      · obtain ⟨l, hl, hsame⟩ := Option.map_eq_some_iff.mp hdone
        cases hsame
        exact .lock l hl
      · exact .noLock _
  | creating =>
      simp only [advance] at h
      split at h
      · rename_i htmp
        cases h
        exact .noTemp htmp
      · rename_i tmpPath htmp
        rcases ioStep_eq_some h with ⟨hdone, rfl⟩ | ⟨e, rfl, rfl, rfl⟩
        · obtain ⟨-, hsame⟩ := Option.ite_none_right_eq_some.mp hdone
          cases hsame
          exact .create tmpPath htmp
        · exact .noCreate tmpPath _ htmp
  | writing tmpPath written =>
      simp only [advance] at h
      split at h
      · rename_i n
        obtain ⟨⟨-, hn⟩, hsame⟩ := Option.ite_none_right_eq_some.mp h
        cases hsame
        exact .write tmpPath written n hn
      · rcases ioStep_eq_some h with ⟨hdone, rfl⟩ | ⟨e, rfl, rfl, rfl⟩
        · obtain ⟨rfl, hsame⟩ := Option.ite_none_right_eq_some.mp hdone
          cases hsame
          exact .writeAll tmpPath
        · exact .noWrite tmpPath written _
  | syncing tmpPath =>
      simp only [advance] at h
      rcases ioStep_eq_some h with ⟨hdone, rfl⟩ | ⟨e, rfl, rfl, rfl⟩
      · cases hdone
        exact .sync tmpPath
      · exact .noSync tmpPath _
  | committing tmpPath =>
      simp only [advance] at h
      rcases ioStep_eq_some h with ⟨hdone, rfl⟩ | ⟨e, rfl, rfl, rfl⟩
      · obtain ⟨content, hcontent, hsame⟩ := Option.map_eq_some_iff.mp hdone
        cases hsame
        exact .rename tmpPath content hcontent
      · exact .noRename tmpPath _
  | syncingDir tmpPath =>
      simp only [advance] at h
      rcases ioStep_eq_some h with ⟨hdone, rfl⟩ | ⟨e, rfl, rfl, rfl⟩
      · cases hdone
        exact .syncDir tmpPath
      · exact .noSyncDir tmpPath _
  | cleaning tmpPath e =>
      simp only [advance] at h
      rcases ioStep_eq_some h with ⟨hdone, rfl⟩ | ⟨e', rfl, rfl, rfl⟩
      · obtain ⟨content, -, hsame⟩ := Option.map_eq_some_iff.mp hdone
        cases hsame
        exact .remove tmpPath e
      · exact .noRemove tmpPath e _
  | leaving result =>
      cases h
      exact .leave result
  | returned result => cases h

/-! ## What a write has done so far -/

/-- The call has no temporary file. -/
def NoTemp (path : Path) (suffix : Uuid) (files : Path → Option Bytes) : Prop :=
  ∀ tmpPath, tempPathOf path suffix = some tmpPath → files tmpPath = none

/-- What holds of the files and of the trace where a write stands. -/
def WriteStands (path : Path) (bytes : Bytes) (suffix : Uuid) (files : Path → Option Bytes)
    (trace : StorageTrace E) : WritePc E → Prop
  | .start | .openingLock | .locking | .creating =>
      trace.firstError = none ∧ trace.renames = false ∧ NoTemp path suffix files
  | .writing tmpPath written =>
      trace.firstError = none ∧ trace.renames = false ∧ tempPathOf path suffix = some tmpPath ∧
        files tmpPath = some (bytes.take written)
  | .syncing tmpPath | .committing tmpPath =>
      trace.firstError = none ∧ trace.renames = false ∧ tempPathOf path suffix = some tmpPath ∧
        files tmpPath = some bytes
  | .syncingDir tmpPath =>
      trace.firstError = none ∧ trace.renames = true ∧ tempPathOf path suffix = some tmpPath ∧
        files tmpPath = none
  | .cleaning tmpPath e =>
      trace.firstError = some e ∧ tempPathOf path suffix = some tmpPath
  | .leaving result | .returned result =>
      result = trace.result ∧ (result = .ok () → trace.renames = true) ∧
        (NoTemp path suffix files ∨ trace.removeFails = true)

section Stands

variable {path : Path} {i : Nat} {bytes : Bytes} {suffix : Uuid} {disk disk' : Disk}
  {files files' : Path → Option Bytes} {pc pc' : WritePc E} {trace more : StorageTrace E}

theorem noTemp_update {p : Path} {content : Option Bytes}
    (hp : ∀ tmpPath, tempPathOf path suffix = some tmpPath → tmpPath ≠ p) :
    NoTemp path suffix (Function.update files p content) ↔ NoTemp path suffix files := by
  refine forall_congr' fun tmpPath => imp_congr_right fun htmp => ?_
  rw [Function.update_of_ne (hp tmpPath htmp)]

/-- Only the temporary file of the call matters. -/
theorem WriteStands.congr
    (hsame : ∀ tmpPath, tempPathOf path suffix = some tmpPath → files' tmpPath = files tmpPath)
    (h : WriteStands path bytes suffix files trace pc) :
    WriteStands path bytes suffix files' trace pc := by
  have hnone : NoTemp path suffix files → NoTemp path suffix files' := by
    intro hnone tmpPath htmp
    rw [hsame tmpPath htmp]
    exact hnone tmpPath htmp
  cases pc with
  | start => exact ⟨h.1, h.2.1, hnone h.2.2⟩
  | openingLock => exact ⟨h.1, h.2.1, hnone h.2.2⟩
  | locking => exact ⟨h.1, h.2.1, hnone h.2.2⟩
  | creating => exact ⟨h.1, h.2.1, hnone h.2.2⟩
  | writing tmpPath written =>
      obtain ⟨herror, hrenames, htmp, hfile⟩ := h
      exact ⟨herror, hrenames, htmp, (hsame tmpPath htmp).trans hfile⟩
  | syncing tmpPath =>
      obtain ⟨herror, hrenames, htmp, hfile⟩ := h
      exact ⟨herror, hrenames, htmp, (hsame tmpPath htmp).trans hfile⟩
  | committing tmpPath =>
      obtain ⟨herror, hrenames, htmp, hfile⟩ := h
      exact ⟨herror, hrenames, htmp, (hsame tmpPath htmp).trans hfile⟩
  | syncingDir tmpPath =>
      obtain ⟨herror, hrenames, htmp, hfile⟩ := h
      exact ⟨herror, hrenames, htmp, (hsame tmpPath htmp).trans hfile⟩
  | cleaning tmpPath e => exact h
  | leaving result => exact ⟨h.1, h.2.1, h.2.2.imp_left hnone⟩
  | returned result => exact ⟨h.1, h.2.1, h.2.2.imp_left hnone⟩

/-- A call without a temporary file that has failed for the first time is on its way out. -/
theorem stands_of_failed (bytes : Bytes) {op : StorageOp} {e : VaultStorageError E}
    (herror : trace.firstError = none) (hnone : NoTemp path suffix files) :
    WriteStands path bytes suffix files (trace ++ [(op, some e)]) (.leaving (.error e)) := by
  refine ⟨(StorageTrace.result_append_failed herror op e).symm, ?_, Or.inl hnone⟩
  intro h
  cases h

/-- After a first failure the temporary file is to be removed. -/
theorem stands_cleaning {op : StorageOp} {e : VaultStorageError E} {tmpPath : Path}
    (herror : trace.firstError = none) (htmp : tempPathOf path suffix = some tmpPath) :
    WriteStands path bytes suffix files (trace ++ [(op, some e)]) (.cleaning tmpPath e) := by
  exact ⟨StorageTrace.firstError_append_failed herror op e, htmp⟩

/-- An operation that is done adds no error, and no rename unless it is one. -/
theorem StorageTrace.append_done (op : StorageOp) (herror : trace.firstError = none)
    (hrenames : trace.renames = false) (hop : op ≠ .rename) :
    StorageTrace.firstError (trace ++ [(op, none)]) = none ∧
      StorageTrace.renames (trace ++ [(op, none)]) = false := by
  refine ⟨firstError_append_done herror op, ?_⟩
  rw [renames_append, hrenames, renames_done, decide_eq_false hop]
  rfl

/-- A step of a write does what its place asks for. -/
theorem WriteMoves.stands (h : WriteStands path bytes suffix disk.files trace pc)
    (hmove : WriteMoves path i bytes suffix disk pc pc' disk' more) :
    WriteStands path bytes suffix disk'.files (trace ++ more) pc' := by
  cases hmove with
  | noParent => exact stands_of_failed bytes h.1 h.2.2
  | makeDir =>
      obtain ⟨herror, hrenames⟩ := StorageTrace.append_done .createDirAll h.1 h.2.1 (by decide)
      exact ⟨herror, hrenames, h.2.2⟩
  | noDir e => exact stands_of_failed bytes h.1 h.2.2
  | openLock lockPath hlock =>
      obtain ⟨herror, hrenames⟩ := StorageTrace.append_done .openLockFile h.1 h.2.1 (by decide)
      refine ⟨herror, hrenames, (noTemp_update ?_).mpr h.2.2⟩
      intro tmpPath htmp
      exact (lockPathFor_ne_tempPathOf hlock htmp).symm
  | noLockFile op e => exact stands_of_failed bytes h.1 h.2.2
  | lock l hlock =>
      obtain ⟨herror, hrenames⟩ := StorageTrace.append_done .lockFile h.1 h.2.1 (by decide)
      exact ⟨herror, hrenames, h.2.2⟩
  | noLock e => exact stands_of_failed bytes h.1 h.2.2
  | noTemp htmp => exact stands_of_failed bytes h.1 h.2.2
  | create tmpPath htmp =>
      obtain ⟨herror, hrenames⟩ := StorageTrace.append_done .createTempFile h.1 h.2.1 (by decide)
      refine ⟨herror, hrenames, htmp, ?_⟩
      rw [Disk.files_put, Function.update_self, List.take_zero]
  | noCreate tmpPath e htmp => exact stands_cleaning h.1 htmp
  | write tmpPath written n hn =>
      obtain ⟨herror, hrenames, htmp, hfile⟩ := h
      rw [List.append_nil]
      refine ⟨herror, hrenames, htmp, ?_⟩
      rw [Disk.files_put, Function.update_self, hfile, Option.map_some, ← List.take_add]
  | writeAll tmpPath =>
      obtain ⟨herror, hrenames, htmp, hfile⟩ := h
      obtain ⟨herror', hrenames'⟩ := StorageTrace.append_done .writeAll herror hrenames (by decide)
      refine ⟨herror', hrenames', htmp, ?_⟩
      rw [hfile, List.take_length]
  | noWrite tmpPath written e => exact stands_cleaning h.1 h.2.2.1
  | sync tmpPath =>
      obtain ⟨herror, hrenames, htmp, hfile⟩ := h
      obtain ⟨herror', hrenames'⟩ :=
        StorageTrace.append_done .syncTempFile herror hrenames (by decide)
      exact ⟨herror', hrenames', htmp, hfile⟩
  | noSync tmpPath e => exact stands_cleaning h.1 h.2.2.1
  | rename tmpPath content hcontent =>
      obtain ⟨herror, -, htmp, -⟩ := h
      refine ⟨StorageTrace.firstError_append_done herror .rename, ?_, htmp, ?_⟩
      · rw [StorageTrace.renames_append]
        exact Bool.or_true _
      · rw [Disk.files_put, Function.update_self]
  | noRename tmpPath e => exact stands_cleaning h.1 h.2.2.1
  | syncDir tmpPath =>
      obtain ⟨herror, hrenames, htmp, hfile⟩ := h
      refine ⟨(StorageTrace.result_append_done herror .syncParentDir).symm, ?_, Or.inl ?_⟩
      · intro _
        rw [StorageTrace.renames_append, hrenames, Bool.true_or]
      · intro tmpPath' htmp'
        rw [htmp] at htmp'
        cases htmp'
        exact hfile
  | noSyncDir tmpPath e => exact stands_cleaning h.1 h.2.2.1
  | remove tmpPath e =>
      obtain ⟨herror, htmp⟩ := h
      refine ⟨(StorageTrace.result_append_of_error herror _).symm, ?_, Or.inl ?_⟩
      · intro hok
        cases hok
      · intro tmpPath' htmp'
        rw [htmp] at htmp'
        cases htmp'
        rw [Disk.files_put, Function.update_self]
  | noRemove tmpPath e e' =>
      obtain ⟨herror, htmp⟩ := h
      refine ⟨(StorageTrace.result_append_of_error herror _).symm, ?_, Or.inr ?_⟩
      · intro hok
        cases hok
      · rw [StorageTrace.removeFails_append]
        exact Bool.or_true _
  | leave result =>
      rw [List.append_nil]
      exact h

/-- The vault file changes with a rename that is done, and then it holds the bytes of the call. -/
theorem WriteMoves.files_path (h : WriteStands path bytes suffix disk.files trace pc)
    (hmove : WriteMoves path i bytes suffix disk pc pc' disk' more) :
    disk'.files path = if more.renames then some bytes else disk.files path := by
  cases hmove with
  | openLock lockPath hlock =>
      rw [Disk.files_put, Function.update_of_ne (lockPathFor_ne_path hlock).symm]
      rfl
  | create tmpPath htmp =>
      rw [Disk.files_put, Function.update_of_ne (tempPathOf_ne_path htmp).symm]
      rfl
  | write tmpPath written n hn =>
      obtain ⟨-, -, htmp, -⟩ := h
      rw [Disk.files_put, Function.update_of_ne (tempPathOf_ne_path htmp).symm]
      rfl
  | rename tmpPath content hcontent =>
      obtain ⟨-, -, htmp, hfile⟩ := h
      rw [hcontent] at hfile
      rw [Disk.files_put, Function.update_of_ne (tempPathOf_ne_path htmp).symm, Disk.files_put,
        Function.update_self, hfile]
      rfl
  | remove tmpPath e =>
      obtain ⟨-, htmp⟩ := h
      rw [Disk.files_put, Function.update_of_ne (tempPathOf_ne_path htmp).symm]
      rfl
  | _ => simp

/-- The temporary files of the other calls are left alone. -/
theorem WriteMoves.files_of_ne {p : Path} {other : Uuid}
    (h : WriteStands path bytes suffix disk.files trace pc)
    (hmove : WriteMoves path i bytes suffix disk pc pc' disk' more)
    (hother : tempPathOf path other = some p) (hne : tempPathOf path suffix ≠ some p) :
    disk'.files p = disk.files p := by
  have hapart : ∀ tmpPath, tempPathOf path suffix = some tmpPath → p ≠ tmpPath := by
    rintro tmpPath htmp rfl
    exact hne htmp
  cases hmove with
  | openLock lockPath hlock =>
      rw [Disk.files_put,
        Function.update_of_ne (lockPathFor_ne_tempPathOf hlock hother).symm]
  | create tmpPath htmp => rw [Disk.files_put, Function.update_of_ne (hapart tmpPath htmp)]
  | write tmpPath written n hn =>
      rw [Disk.files_put, Function.update_of_ne (hapart tmpPath h.2.2.1)]
  | rename tmpPath content hcontent =>
      rw [Disk.files_put, Function.update_of_ne (hapart tmpPath h.2.2.1), Disk.files_put,
        Function.update_of_ne (tempPathOf_ne_path hother)]
  | remove tmpPath e => rw [Disk.files_put, Function.update_of_ne (hapart tmpPath h.2)]
  | _ => rfl

end Stands

/-- The call is between the acquisition and the release of the lock. -/
def WritePc.holdsLock : WritePc E → Bool
  | .creating | .writing _ _ | .syncing _ | .committing _ | .syncingDir _ | .cleaning _ _
  | .leaving _ => true
  | _ => false

/-- What a step can do to the lock: nothing, or what takes a call into or out of its critical
section. -/
inductive LockMoves (i : Nat) (acquire : RwLock Nat → Option (RwLock Nat)) (l : RwLock Nat) :
    Bool → Bool → RwLock Nat → Prop
  | keep (holds : Bool) : LockMoves i acquire l holds holds l
  | acquire (l' : RwLock Nat) (h : acquire l = some l') : LockMoves i acquire l false true l'
  | release : LockMoves i acquire l true false (l.release i)

theorem WriteMoves.lockMoves {path : Path} {i : Nat} {bytes : Bytes} {suffix : Uuid}
    {disk disk' : Disk} {pc pc' : WritePc E} {more : StorageTrace E}
    (h : WriteMoves path i bytes suffix disk pc pc' disk' more) :
    LockMoves i (RwLock.acquireExclusive i) disk.fileLock pc.holdsLock pc'.holdsLock
      disk'.fileLock := by
  cases h with
  | lock l hlock => exact .acquire l hlock
  | leave result => exact .release
  | _ => exact .keep _

/-- A rename is done inside the critical section. -/
theorem WriteMoves.holdsLock_of_renames {path : Path} {i : Nat} {bytes : Bytes} {suffix : Uuid}
    {disk disk' : Disk} {pc pc' : WritePc E} {more : StorageTrace E}
    (h : WriteMoves path i bytes suffix disk pc pc' disk' more) (hrenames : more.renames = true) :
    pc.holdsLock = true := by
  cases h with
  | rename tmpPath content hcontent => rfl
  | _ => simp at hrenames

/-- A call leaves its critical section by returning. -/
theorem WriteMoves.holdsLock_or_returned {path : Path} {i : Nat} {bytes : Bytes} {suffix : Uuid}
    {disk disk' : Disk} {pc pc' : WritePc E} {more : StorageTrace E}
    (h : WriteMoves path i bytes suffix disk pc pc' disk' more) (hpc : pc.holdsLock = true) :
    pc'.holdsLock = true ∨ ∃ result, pc' = .returned result := by
  cases h with
  | leave result => exact Or.inr ⟨result, rfl⟩
  | noParent => cases hpc
  | makeDir => cases hpc
  | noDir e => cases hpc
  | openLock lockPath hlock => cases hpc
  | noLockFile op e => cases hpc
  | lock l hlock => cases hpc
  | noLock e => cases hpc
  | _ => exact Or.inl rfl

end Writes

/-! ## Reads -/

section Reads

variable {E : Type}

/-- What the next step of a read can be. -/
inductive ReadMoves (path : Path) (i : Nat) (disk : Disk) :
    ReadPc E → ReadPc E → Disk → StorageTrace E → Prop
  | openLock (lockPath : Path)
      (hlock : lockPathFor path = (.ok lockPath : Except (VaultStorageError E) Path)) :
      ReadMoves path i disk .openingLock .locking
        (disk.put lockPath (some ((disk.files lockPath).getD []))) [(.openLockFile, none)]
  | noLockFile (op : StorageOp) (e : VaultStorageError E) :
      ReadMoves path i disk .openingLock (.returned (.error e)) disk [(op, some e)]
  | lock (l : RwLock Nat) (hlock : disk.fileLock.acquireShared i = some l) :
      ReadMoves path i disk .locking .opening { disk with fileLock := l } [(.lockFile, none)]
  | noLock (e : VaultStorageError E) :
      ReadMoves path i disk .locking (.returned (.error e)) disk [(.lockFile, some e)]
  | openFile (content : Bytes) (hcontent : disk.files path = some content) :
      ReadMoves path i disk .opening .seeking disk [(.openFile, none)]
  | noFile (e : VaultStorageError E) :
      ReadMoves path i disk .opening (.leaving (.error e)) disk [(.openFile, some e)]
  | seek : ReadMoves path i disk .seeking (.reading []) disk [(.seek, none)]
  | noSeek (e : VaultStorageError E) :
      ReadMoves path i disk .seeking (.leaving (.error e)) disk [(.seek, some e)]
  | read (buf content : Bytes) (n : Nat) (hcontent : disk.files path = some content) :
      ReadMoves path i disk (.reading buf)
        (.reading (buf ++ (content.drop buf.length).take n)) disk []
  | finish (buf content : Bytes) (hcontent : disk.files path = some content)
      (hend : content.length ≤ buf.length) :
      ReadMoves path i disk (.reading buf) (.leaving (.ok buf)) disk [(.readToEnd, none)]
  | noRead (buf : Bytes) (e : VaultStorageError E) :
      ReadMoves path i disk (.reading buf) (.leaving (.error e)) disk [(.readToEnd, some e)]
  | leave (result : Except (VaultStorageError E) Bytes) :
      ReadMoves path i disk (.leaving result) (.returned result)
        { disk with fileLock := disk.fileLock.release i } []

theorem ReadPc.moves_of_advance {path : Path} {i : Nat} {disk disk' : Disk} {answer : IoAnswer E}
    {pc pc' : ReadPc E} {more : StorageTrace E}
    (h : pc.advance path i disk answer = some (pc', disk', more)) :
    ReadMoves path i disk pc pc' disk' more := by
  cases pc with
  | openingLock =>
      rcases openLockFile_eq_some h with ⟨lockPath, hlock, rfl, rfl, rfl⟩ | ⟨op, e, rfl, rfl, rfl⟩
      · exact .openLock lockPath hlock
      · exact .noLockFile op e
  | locking =>
      simp only [advance] at h
      rcases ioStep_eq_some h with ⟨hdone, rfl⟩ | ⟨e, rfl, rfl, rfl⟩
      · obtain ⟨l, hl, hsame⟩ := Option.map_eq_some_iff.mp hdone
        cases hsame
        exact .lock l hl
      · exact .noLock _
  | opening =>
      simp only [advance] at h
      rcases ioStep_eq_some h with ⟨hdone, rfl⟩ | ⟨e, rfl, rfl, rfl⟩
      · obtain ⟨content, hcontent, hsame⟩ := Option.map_eq_some_iff.mp hdone
        cases hsame
        exact .openFile content hcontent
      · exact .noFile _
  | seeking =>
      simp only [advance] at h
      rcases ioStep_eq_some h with ⟨hdone, rfl⟩ | ⟨e, rfl, rfl, rfl⟩
      · cases hdone
        exact .seek
      · exact .noSeek _
  | reading buf =>
      simp only [advance] at h
      split at h
      · rename_i n
        obtain ⟨content, hcontent, h⟩ := Option.bind_eq_some_iff.mp h
        obtain ⟨-, hsame⟩ := Option.ite_none_right_eq_some.mp h
        cases hsame
        exact .read buf content n hcontent
      · rcases ioStep_eq_some h with ⟨hdone, rfl⟩ | ⟨e, rfl, rfl, rfl⟩
        · obtain ⟨content, hcontent, hdone⟩ := Option.bind_eq_some_iff.mp hdone
          obtain ⟨hend, hsame⟩ := Option.ite_none_right_eq_some.mp hdone
          cases hsame
          exact .finish buf content hcontent hend
        · exact .noRead buf _
  | leaving result =>
      cases h
      exact .leave result
  | returned result => cases h

/-- What holds of the vault file and of the trace where a read stands, for what counts as a
complete content. -/
def ReadStands (path : Path) (complete : Bytes → Prop) (files : Path → Option Bytes)
    (trace : StorageTrace E) : ReadPc E → Prop
  | .openingLock | .locking | .opening => trace.firstError = none
  | .seeking => trace.firstError = none ∧ ∃ content, files path = some content
  | .reading buf =>
      trace.firstError = none ∧ ∃ content, files path = some content ∧ buf <+: content
  | .leaving (.ok buf) | .returned (.ok buf) => trace.firstError = none ∧ complete buf
  | .leaving (.error e) | .returned (.error e) => trace.firstError = some e

/-- The call is between the acquisition and the release of the lock. -/
def ReadPc.holdsLock : ReadPc E → Bool
  | .opening | .seeking | .reading _ | .leaving _ => true
  | _ => false

section Stands

variable {path : Path} {i : Nat} {complete complete' : Bytes → Prop} {disk disk' : Disk}
  {files files' : Path → Option Bytes} {pc pc' : ReadPc E} {trace more : StorageTrace E}

theorem ReadMoves.lockMoves (h : ReadMoves path i disk pc pc' disk' more) :
    LockMoves i (RwLock.acquireShared i) disk.fileLock pc.holdsLock pc'.holdsLock
      disk'.fileLock := by
  cases h with
  | lock l hlock => exact .acquire l hlock
  | leave result => exact .release
  | _ => exact .keep _

/-- A read changes no file but the lock file, and that one at most from nothing to empty. -/
theorem ReadMoves.files_of_ne {p : Path}
    (hp : ∀ lockPath, lockPathFor path = (.ok lockPath : Except (VaultStorageError E) Path) →
      p ≠ lockPath) (h : ReadMoves path i disk pc pc' disk' more) :
    disk'.files p = disk.files p := by
  cases h with
  | openLock lockPath hlock => rw [Disk.files_put, Function.update_of_ne (hp lockPath hlock)]
  | _ => rfl

/-- Only the vault file matters, and only inside the critical section. -/
theorem ReadStands.congr (hsame : pc.holdsLock = true → files' path = files path)
    (hmono : ∀ buf, complete buf → complete' buf)
    (h : ReadStands path complete files trace pc) :
    ReadStands path complete' files' trace pc := by
  cases pc with
  | openingLock => exact h
  | locking => exact h
  | opening => exact h
  | seeking =>
      obtain ⟨herror, content, hcontent⟩ := h
      exact ⟨herror, content, (hsame rfl).trans hcontent⟩
  | reading buf =>
      obtain ⟨herror, content, hcontent, hprefix⟩ := h
      exact ⟨herror, content, (hsame rfl).trans hcontent, hprefix⟩
  | leaving result =>
      cases result with
      | ok buf => exact ⟨h.1, hmono buf h.2⟩
      | error e => exact h
  | returned result =>
      cases result with
      | ok buf => exact ⟨h.1, hmono buf h.2⟩
      | error e => exact h

/-- A step of a read does what its place asks for. -/
theorem ReadMoves.stands (hcomplete : ∀ content, disk.files path = some content → complete content)
    (h : ReadStands path complete disk.files trace pc)
    (hmove : ReadMoves path i disk pc pc' disk' more) :
    ReadStands path complete disk'.files (trace ++ more) pc' := by
  cases hmove with
  | openLock lockPath hlock => exact StorageTrace.firstError_append_done h _
  | noLockFile op e => exact StorageTrace.firstError_append_failed h op e
  | lock l hlock => exact StorageTrace.firstError_append_done h _
  | noLock e => exact StorageTrace.firstError_append_failed h _ e
  | openFile content hcontent => exact ⟨StorageTrace.firstError_append_done h _, content, hcontent⟩
  | noFile e => exact StorageTrace.firstError_append_failed h _ e
  | seek =>
      obtain ⟨herror, content, hcontent⟩ := h
      exact ⟨StorageTrace.firstError_append_done herror _, content, hcontent, List.nil_prefix⟩
  | noSeek e => exact StorageTrace.firstError_append_failed h.1 _ e
  | read buf content n hcontent =>
      obtain ⟨herror, content', hcontent', hprefix⟩ := h
      rw [hcontent] at hcontent'
      cases hcontent'
      rw [List.append_nil]
      refine ⟨herror, content, hcontent, ?_⟩
      obtain ⟨rest, rfl⟩ := hprefix
      rw [List.drop_left]
      exact (List.prefix_append_right_inj buf).mpr (List.take_prefix n rest)
  | finish buf content hcontent hend =>
      obtain ⟨herror, content', hcontent', hprefix⟩ := h
      rw [hcontent] at hcontent'
      cases hcontent'
      obtain rfl : buf = content := hprefix.eq_of_length_le hend
      exact ⟨StorageTrace.firstError_append_done herror _, hcomplete buf hcontent⟩
  | noRead buf e => exact StorageTrace.firstError_append_failed h.1 _ e
  | leave result =>
      rw [List.append_nil]
      cases result with
      | ok buf => exact h
      | error e => exact h

end Stands

end Reads

end ViperVault
