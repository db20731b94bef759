import ViperVault.Foundation.JsonCodec
import ViperVault.Foundation.Results
import ViperVault.Foundation.Runs
import ViperVault.Foundation.RwLock
import ViperVault.Memory.Secret
import Mathlib.Logic.Function.Basic

/-!
# Vault storage

`vault/storage.rs`: `write_vault_atomic` and `read_vault_locked` on one vault path, any number of
calls of them, one operation on the file system at a time. Any operation may fail, and a write or
a read may move any part of the bytes. A file system maps paths to contents. A journal holds the
writes whose rename succeeded; nothing reads it, nor the traces of the calls.
-/

namespace ViperVault

open Foundation

/-! ## Paths -/

/-- A component of a path. -/
inductive PathComponent
  | curDir
  | parentDir
  | normal (name : Text)
  deriving DecidableEq

/-- A path, which the standard library compares by its components. -/
structure Path where
  rooted : Bool
  components : List PathComponent
  deriving DecidableEq

namespace Path

/-- `Path::parent`. -/
def parent (p : Path) : Option Path :=
  if p.components = [] then none else some { p with components := p.components.dropLast }

/-- `Path::file_name`. -/
def fileName (p : Path) : Option Text :=
  match p.components.getLast? with
  | some (.normal name) => some name
  | _ => none

/-- `Path::join`, for one name. -/
def join (p : Path) (name : Text) : Path :=
  { p with components := p.components ++ [.normal name] }

end Path

/-- `VaultStorageError`, over the errors of the operating system. -/
inductive VaultStorageError (E : Type)
  | invalidPath
  | io (e : E)
  | lock (e : E)
  deriving DecidableEq

section Names

variable {E : Type}

/-- `lock_path_for`. -/
def lockPathFor (vaultPath : Path) : Except (VaultStorageError E) Path := do
  let dir ← okOr vaultPath.parent .invalidPath
  let baseName ← okOr vaultPath.fileName .invalidPath
  return dir.join (baseName ++ ".lock".toList)

/-- `temp_path_for`, with the identifier that was drawn. -/
def tempPathFor (dir : Path) (baseName : Text) (suffix : Uuid) : Path :=
  dir.join (".".toList ++ baseName ++ ".tmp.".toList ++ Json.uuidText suffix)

/-- The temporary path that `write_vault_atomic_with_backend` takes. -/
def tempPathOf (path : Path) (suffix : Uuid) : Option Path := do
  let dir ← path.parent
  let baseName ← path.fileName
  return tempPathFor dir baseName suffix

end Names

/-! ## Calls -/

/-- The operations of the calls on the file system, with the check of the path. -/
inductive StorageOp
  | checkPath
  | createDirAll
  | openLockFile
  | lockFile
  | createTempFile
  | writeAll
  | syncTempFile
  | rename
  | syncParentDir
  | removeFile
  | openFile
  | seek
  | readToEnd
  deriving DecidableEq

/-- The operations that a call has carried out, with the errors of those that failed. -/
abbrev StorageTrace (E : Type) : Type := List (StorageOp × Option (VaultStorageError E))

/-- What the operating system answers: the operation is done, it has moved some bytes, or it has
failed. -/
inductive IoAnswer (E : Type)
  | done
  | moved (n : Nat)
  | failed (e : E)

/-- Where a write stands. -/
inductive WritePc (E : Type)
  | start
  | openingLock
  | locking
  | creating
  | writing (tmpPath : Path) (written : Nat)
  | syncing (tmpPath : Path)
  | committing (tmpPath : Path)
  | syncingDir (tmpPath : Path)
  /-- an operation has failed, and the temporary file is to be removed -/
  | cleaning (tmpPath : Path) (e : VaultStorageError E)
  /-- the lock is to be dropped -/
  | leaving (result : Except (VaultStorageError E) Unit)
  | returned (result : Except (VaultStorageError E) Unit)

/-- Where a read stands. -/
inductive ReadPc (E : Type)
  | openingLock
  | locking
  | opening
  | seeking
  | reading (buf : Bytes)
  | leaving (result : Except (VaultStorageError E) Bytes)
  | returned (result : Except (VaultStorageError E) Bytes)

/-- A call in progress, or returned. The identifier of a write is the one that names its temporary
file. -/
inductive StorageCall (E : Type)
  | write (bytes : Bytes) (suffix : Uuid) (pc : WritePc E) (trace : StorageTrace E)
  | read (pc : ReadPc E) (trace : StorageTrace E)

/-- The calls that can be made. -/
inductive StorageRequest
  | writeVaultAtomic (bytes : Bytes) (suffix : Uuid)
  | readVaultLocked

/-- The files, and who holds the lock of the lock file. -/
structure Disk where
  files : Path → Option Bytes
  fileLock : RwLock Nat

/-- Set the content of a file, or remove it. -/
def Disk.put (disk : Disk) (path : Path) (content : Option Bytes) : Disk :=
  { disk with files := Function.update disk.files path content }

@[simp] theorem Disk.files_put (disk : Disk) (path : Path) (content : Option Bytes) :
    (disk.put path content).files = Function.update disk.files path content := rfl

section Steps

variable {E : Type}

/-- An operation that is done or fails as a whole. -/
def ioStep {Pc : Type} (op : StorageOp) (toError : E → VaultStorageError E) (disk : Disk)
    (onDone : Option (Pc × Disk)) (onError : VaultStorageError E → Pc) :
    IoAnswer E → Option (Pc × Disk × StorageTrace E)
  | .done => onDone.map fun r => (r.1, r.2, [(op, none)])
  | .failed e => some (onError (toError e), disk, [(op, some (toError e))])
  | .moved _ => none

/-- `open_lock_file`, at the path that `lock_path_for` answers. -/
def openLockFile {Pc : Type} (path : Path) (disk : Disk) (onDone : Pc)
    (onError : VaultStorageError E → Pc) (answer : IoAnswer E) :
    Option (Pc × Disk × StorageTrace E) :=
  match lockPathFor path with
  | .error e => some (onError e, disk, [(.checkPath, some e)])
  | .ok lockPath =>
      -- an existing lock file is not truncated
      ioStep .openLockFile .io disk
        (some (onDone, disk.put lockPath (some ((disk.files lockPath).getD [])))) onError answer

/-- The next step of `write_vault_atomic`, which is the call `i`. -/
def WritePc.advance (path : Path) (i : Nat) (bytes : Bytes) (suffix : Uuid) (disk : Disk)
    (answer : IoAnswer E) : WritePc E → Option (WritePc E × Disk × StorageTrace E)
  | .start =>
      match path.parent with
      | none => some (.returned (.error .invalidPath), disk, [(.checkPath, some .invalidPath)])
      | some _ =>
          ioStep .createDirAll .io disk (some (.openingLock, disk)) (fun e => .returned (.error e))
            answer
  | .openingLock => openLockFile path disk .locking (fun e => .returned (.error e)) answer
  | .locking =>
      ioStep .lockFile .lock disk
        ((disk.fileLock.acquireExclusive i).map fun l => (.creating, { disk with fileLock := l }))
        (fun e => .returned (.error e)) answer
  | .creating =>
      match tempPathOf path suffix with
      | none => some (.leaving (.error .invalidPath), disk, [(.checkPath, some .invalidPath)])
      | some tmpPath =>
          -- `create_new` is not done where the file exists
          ioStep .createTempFile .io disk
            (if disk.files tmpPath = none then some (.writing tmpPath 0, disk.put tmpPath (some []))
              else none)
            (.cleaning tmpPath) answer
  | .writing tmpPath written =>
      match answer with
      | .moved n =>
          if 0 < n ∧ written + n ≤ bytes.length then
            some (.writing tmpPath (written + n),
              disk.put tmpPath ((disk.files tmpPath).map (· ++ (bytes.drop written).take n)), [])
          else none
      | answer =>
          ioStep .writeAll .io disk
            (if written = bytes.length then some (.syncing tmpPath, disk) else none)
            (.cleaning tmpPath) answer
  | .syncing tmpPath =>
      ioStep .syncTempFile .io disk (some (.committing tmpPath, disk)) (.cleaning tmpPath) answer
  | .committing tmpPath =>
      ioStep .rename .io disk
        ((disk.files tmpPath).map fun content =>
          (.syncingDir tmpPath, (disk.put path (some content)).put tmpPath none))
        (.cleaning tmpPath) answer
  | .syncingDir tmpPath =>
      ioStep .syncParentDir .io disk (some (.leaving (.ok ()), disk)) (.cleaning tmpPath) answer
  | .cleaning tmpPath e =>
      -- the error of the removal is dropped
      ioStep .removeFile .io disk
        ((disk.files tmpPath).map fun _ => (.leaving (.error e), disk.put tmpPath none))
        (fun _ => .leaving (.error e)) answer
  | .leaving result =>
      some (.returned result, { disk with fileLock := disk.fileLock.release i }, [])
  | .returned _ => none

/-- The next step of `read_vault_locked`, which is the call `i`. -/
def ReadPc.advance (path : Path) (i : Nat) (disk : Disk) (answer : IoAnswer E) :
    ReadPc E → Option (ReadPc E × Disk × StorageTrace E)
  | .openingLock => openLockFile path disk .locking (fun e => .returned (.error e)) answer
  | .locking =>
      ioStep .lockFile .lock disk
        ((disk.fileLock.acquireShared i).map fun l => (.opening, { disk with fileLock := l }))
        (fun e => .returned (.error e)) answer
  | .opening =>
      ioStep .openFile .io disk ((disk.files path).map fun _ => (.seeking, disk))
        (fun e => .leaving (.error e)) answer
  | .seeking =>
      ioStep .seek .io disk (some (.reading [], disk)) (fun e => .leaving (.error e)) answer
  | .reading buf =>
      match answer with
      | .moved n =>
          (disk.files path).bind fun content =>
            if 0 < n ∧ buf.length + n ≤ content.length then
              some (.reading (buf ++ (content.drop buf.length).take n), disk, [])
            else none
      | answer =>
          ioStep .readToEnd .io disk
            ((disk.files path).bind fun content =>
              if content.length ≤ buf.length then some (.leaving (.ok buf), disk) else none)
            (fun e => .leaving (.error e)) answer
  | .leaving result =>
      some (.returned result, { disk with fileLock := disk.fileLock.release i }, [])
  | .returned _ => none

end Steps

/-! ## The system -/

section System

variable {E : Type}

/-- The operations contain a rename that was done. -/
def StorageTrace.renames (trace : StorageTrace E) : Bool :=
  trace.any fun r => r.1 = .rename ∧ r.2.isNone

/-- The first error of the operations. -/
def StorageTrace.firstError (trace : StorageTrace E) : Option (VaultStorageError E) :=
  trace.findSome? Prod.snd

/-- The call as it is made. -/
def StorageRequest.start : StorageRequest → StorageCall E
  | .writeVaultAtomic bytes suffix => .write bytes suffix .start []
  | .readVaultLocked => .read .openingLock []

/-- The temporary path of a write. -/
def StorageCall.tempPath (path : Path) : StorageCall E → Option Path
  | .write _ suffix _ _ => tempPathOf path suffix
  | .read _ _ => none

/-- The next step of the call `i`, with the write that it commits. -/
def StorageCall.advance (path : Path) (i : Nat) (disk : Disk) (answer : IoAnswer E) :
    StorageCall E → Option (StorageCall E × Disk × List (Nat × Bytes))
  | .write bytes suffix pc trace =>
      (pc.advance path i bytes suffix disk answer).map fun r =>
        (.write bytes suffix r.1 (trace ++ r.2.2), r.2.1,
          if r.2.2.renames then [(i, bytes)] else [])
  | .read pc trace =>
      (pc.advance path i disk answer).map fun r => (.read r.1 (trace ++ r.2.2), r.2.1, [])

/-- A step of the system. -/
inductive StorageEvent (E : Type)
  | invoke (request : StorageRequest)
  | advance (i : Nat) (answer : IoAnswer E)

/-- The disk, the calls made so far, and the writes whose rename succeeded, in their order. -/
structure StorageWorld (E : Type) where
  disk : Disk
  calls : List (StorageCall E)
  committed : List (Nat × Bytes)

namespace StorageWorld

/-- Files, with no calls. -/
def new (files : Path → Option Bytes) : StorageWorld E := ⟨⟨files, .free⟩, [], []⟩

/-- The temporary name of the call is fresh: no file and no other call has it. -/
def fresh (path : Path) (w : StorageWorld E) (call : StorageCall E) : Bool :=
  (call.tempPath path).all fun tmpPath =>
    (w.disk.files tmpPath).isNone && w.calls.all fun other => other.tempPath path ≠ some tmpPath

/-- One event. -/
def step (path : Path) (w : StorageWorld E) : StorageEvent E → Option (StorageWorld E)
  | .invoke request =>
      if w.fresh path request.start then some { w with calls := w.calls ++ [request.start] }
      else none
  | .advance i answer =>
      (w.calls[i]?).bind fun call =>
        (call.advance path i w.disk answer).map fun r =>
          { disk := r.2.1
            calls := w.calls.set i r.1
            committed := w.committed ++ r.2.2 }

end StorageWorld

end System

end ViperVault
