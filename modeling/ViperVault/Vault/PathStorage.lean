import ViperVault.Foundation.FileTree
import ViperVault.Foundation.LossyText
import ViperVault.Vault.Storage

/-!
# Vault storage on a file tree

`vault/storage.rs` for paths as they are given: strings of bytes, which the system calls resolve
from the working directory. One process makes its calls one after the other; so a lock is free when
a call asks for it, and dropped when the call returns.
-/

namespace ViperVault

open Foundation OsPath FileTree

namespace PathStorage

/-- A body that works on the files. -/
abbrev OnFiles (α : Type) : Type := Mut FileTree (VaultStorageError Errno) α

/-- A system call, with `map_err(VaultStorageError::Io)`. -/
def io {α : Type} (m : Mut FileTree Errno α) : OnFiles α := fun t =>
  ((m.run t).1.mapError .io, (m.run t).2)

/-- The name of the lock file of a file. -/
def lockName (baseName : Bytes) : Bytes := Json.utf8 (toStringLossy baseName ++ ".lock".toList)

/-- The name of a temporary file of a file. -/
def tempName (baseName : Bytes) (suffix : Uuid) : Bytes :=
  Json.utf8 (".".toList ++ toStringLossy baseName ++ ".tmp.".toList ++ Json.uuidText suffix)

/-- `lock_path_for`. -/
def lockPathFor (vaultPath : Bytes) : Except (VaultStorageError Errno) Bytes := do
  let dir ← okOr (parent vaultPath) .invalidPath
  let baseName ← okOr (fileName vaultPath) .invalidPath
  return join dir (lockName baseName)

/-- `temp_path_for`, with the identifier that was drawn. -/
def tempPathFor (dir baseName : Bytes) (suffix : Uuid) : Bytes :=
  join dir (tempName baseName suffix)

section Calls

variable (cwd : Location)

/-- `VaultFileLock::lock_shared` and `VaultFileLock::lock_exclusive`. -/
def lock (vaultPath : Bytes) : OnFiles Unit := do
  let lockPath ← Mut.check (lockPathFor vaultPath)
  io (openCreate cwd lockPath)

/-- `read_vault_bytes`. -/
def readVaultBytes (path : Bytes) : OnFiles Bytes := do
  let t ← Mut.read
  io (Mut.check (t.readFile cwd path))

/-- `read_vault_locked`. -/
def readVaultLocked (path : Bytes) : OnFiles Bytes := do
  lock cwd path
  readVaultBytes cwd path

/-- `sync_parent_dir`: what is opened is synced. -/
def syncParentDir (dir : Bytes) : OnFiles Unit := do
  let t ← Mut.read
  let _ ← io (Mut.check (t.stat cwd dir))

/-- The steps of `write_vault_atomic_with_backend` up to its result. -/
def commit (path tmpPath dir bytes : Bytes) : OnFiles Unit := do
  let tmp ← io (openNew cwd tmpPath)
  io (writeAll tmp bytes)
  io (rename cwd tmpPath path)
  syncParentDir cwd dir

/-- `write_vault_atomic_with_backend`, on the real file system. -/
def writeVaultAtomicWithBackend (path bytes : Bytes) (suffix : Uuid) : OnFiles Unit := do
  let dir ← Mut.check (okOr (parent path) .invalidPath)
  let baseName ← Mut.check (okOr (fileName path) .invalidPath)
  let tmpPath := tempPathFor dir baseName suffix
  (commit cwd path tmpPath dir bytes).withCleanup (unlink cwd tmpPath)

/-- `write_vault_atomic`. -/
def writeVaultAtomic (path bytes : Bytes) (suffix : Uuid) : OnFiles Unit := do
  let dir ← Mut.check (okOr (parent path) .invalidPath)
  io (createDirAll cwd dir)
  lock cwd path
  writeVaultAtomicWithBackend cwd path bytes suffix

end Calls

/-! ## Names -/

/-- The two bytes that no name holds. -/
def IsForbidden (b : UInt8) : Prop := b = slash ∨ b = 0

/-- No forbidden byte comes with the conversion of a name. -/
theorem mem_of_mem_utf8_toStringLossy {b : UInt8} (hb : IsForbidden b) {name : Bytes}
    (h : b ∈ Json.utf8 (toStringLossy name)) : b ∈ name := by
  refine (mem_utf8_toStringLossy h).resolve_right ?_
  rcases hb with rfl | rfl <;> decide

theorem not_mem_utf8_uuidText {b : UInt8} (hb : IsForbidden b) (id : Uuid) :
    b ∉ Json.utf8 (Json.uuidText id) := by
  intro h
  obtain ⟨c, hc, h⟩ := List.mem_flatMap.mp h
  have hdigits : ∀ d < 16, slash ∉ String.utf8EncodeChar d.digitChar ∧
      (0 : UInt8) ∉ String.utf8EncodeChar d.digitChar := by decide
  rcases Json.mem_uuidText hc with rfl | ⟨d, hd, rfl⟩
  · rcases hb with rfl | rfl <;> exact absurd h (by decide)
  · rcases hb with rfl | rfl
    · exact (hdigits d hd).1 h
    · exact (hdigits d hd).2 h

theorem mem_of_mem_lockName {b : UInt8} (hb : IsForbidden b) {name : Bytes}
    (h : b ∈ lockName name) : b ∈ name := by
  rw [lockName, Json.utf8_append] at h
  refine mem_of_mem_utf8_toStringLossy hb ((List.mem_append.mp h).resolve_right ?_)
  rcases hb with rfl | rfl <;> decide

theorem mem_of_mem_tempName {b : UInt8} (hb : IsForbidden b) {name : Bytes} {suffix : Uuid}
    (h : b ∈ tempName name suffix) : b ∈ name := by
  rw [tempName, Json.utf8_append, Json.utf8_append, Json.utf8_append] at h
  have hfront := (List.mem_append.mp h).resolve_right (not_mem_utf8_uuidText hb suffix)
  have hname := (List.mem_append.mp hfront).resolve_right (by rcases hb with rfl | rfl <;> decide)
  exact mem_of_mem_utf8_toStringLossy hb
    ((List.mem_append.mp hname).resolve_left (by rcases hb with rfl | rfl <;> decide))

theorem length_lockName (name : Bytes) :
    (lockName name).length = (Json.utf8 (toStringLossy name)).length + 5 := by
  rw [lockName, Json.utf8_append, List.length_append]
  rfl

theorem length_tempName (name : Bytes) (suffix : Uuid) :
    (Json.utf8 (toStringLossy name)).length + 6 ≤ (tempName name suffix).length := by
  have hdot : (Json.utf8 ".".toList).length = 1 := rfl
  have htmp : (Json.utf8 ".tmp.".toList).length = 5 := rfl
  rw [tempName, Json.utf8_append, Json.utf8_append, Json.utf8_append, List.length_append,
    List.length_append, List.length_append, hdot, htmp]
  omega

theorem tempName_ne_lockName (name : Bytes) (suffix : Uuid) :
    tempName name suffix ≠ lockName name := by
  intro h
  have hlock := length_lockName name
  have htemp := length_tempName name suffix
  rw [h] at htemp
  omega

/-- A long name is the name of an entry. -/
theorem isEntryName_of_length {name : Bytes} (hinner : slash ∉ name) (hlen : 2 < name.length) :
    IsEntryName name where
  inner := hinner
  nonempty := by
    rintro rfl
    exact absurd hlen (by decide)
  ne_dot := by
    rintro rfl
    exact absurd hlen (by decide)
  ne_dotDot := by
    rintro rfl
    exact absurd hlen (by decide)

theorem isEntryName_lockName {name : Bytes} (h : IsEntryName name) :
    IsEntryName (lockName name) := by
  refine isEntryName_of_length (fun hmem => h.inner (mem_of_mem_lockName (Or.inl rfl) hmem)) ?_
  rw [length_lockName]
  omega

theorem isEntryName_tempName {name : Bytes} (h : IsEntryName name) (suffix : Uuid) :
    IsEntryName (tempName name suffix) := by
  refine isEntryName_of_length (fun hmem => h.inner (mem_of_mem_tempName (Or.inl rfl) hmem)) ?_
  have hlen := length_tempName name suffix
  omega

/-! ## The paths of the concurrent calls -/

/-- A component of a path, as text. -/
def component (step : Bytes) : PathComponent :=
  if step = dotDot then .parentDir else .normal (toStringLossy step)

/-- The components of a path. -/
def toPath (p : Bytes) : Path where
  rooted := isAbsolute p
  components := (if firstPiece p = dot then [.curDir] else []) ++ (steps p).map component

/-- A path in a directory. -/
theorem toPath_join {p : Bytes} {s : Text} (h : IsEntryName (Json.utf8 s)) :
    toPath (join p (Json.utf8 s)) = (toPath p).join s := by
  have hname : component (Json.utf8 s) = .normal s := by
    rw [component, if_neg h.ne_dotDot, toStringLossy_utf8]
  simp only [toPath, Path.join, isAbsolute_join h, firstPiece_join h, steps_join h,
    List.map_append, List.map_cons, List.map_nil, hname, List.append_assoc]

/-- The parent and the file name of a path are those of its components. -/
theorem parent_toPath {p dir name : Bytes} (hdir : parent p = some dir)
    (hname : fileName p = some name) :
    (toPath p).parent = some (toPath dir) ∧ (toPath p).fileName = some (toStringLossy name) := by
  obtain ⟨hsteps, habsolute⟩ := steps_of_parent hdir hname
  have hentry : component name = .normal (toStringLossy name) :=
    if_neg (isEntryName_of_fileName hname).ne_dotDot
  have hpath : toPath p = (toPath dir).join (toStringLossy name) := by
    simp only [toPath, Path.join, ← habsolute, firstPiece_of_parent hdir hname, hsteps,
      List.map_append, List.map_cons, List.map_nil, hentry, List.append_assoc]
  rw [hpath]
  constructor
  · simp [Path.parent, Path.join]
  · simp [Path.fileName, Path.join]

/-- The lock file and the temporary file are those of the concurrent calls. -/
theorem names_toPath {p dir name : Bytes} (suffix : Uuid) (hdir : parent p = some dir)
    (hname : fileName p = some name) :
    (lockPathFor p).map toPath = ViperVault.lockPathFor (toPath p) ∧
      some (toPath (tempPathFor dir name suffix)) = tempPathOf (toPath p) suffix := by
  have hentry := isEntryName_of_fileName hname
  obtain ⟨hparent, hfileName⟩ := parent_toPath hdir hname
  constructor
  · rw [lockPathFor, ViperVault.lockPathFor, hdir, hname, hparent, hfileName]
    exact congrArg Except.ok (toPath_join (isEntryName_lockName hentry))
  · rw [tempPathOf, hparent, hfileName]
    exact congrArg some (toPath_join (isEntryName_tempName hentry suffix))

/-! ## A file in a directory -/

/-- The path names a file in a directory that exists. -/
structure AtPath (t : FileTree) (cwd : Location) (path dir name : Bytes) (loc : Location) :
    Prop where
  parent_eq : parent path = some dir
  fileName_eq : fileName path = some name
  resolve_eq : t.resolve cwd dir = .ok loc

variable {t t' : FileTree} {cwd loc : Location} {path dir name bytes : Bytes} {suffix : Uuid}

namespace AtPath

theorem same (h : AtPath t cwd path dir name loc) (hsame : SameDirectories t t') :
    AtPath t' cwd path dir name loc :=
  ⟨h.parent_eq, h.fileName_eq, hsame.walk_eq_ok h.resolve_eq⟩

theorem isEntryName (h : AtPath t cwd path dir name loc) : IsEntryName name :=
  isEntryName_of_fileName h.fileName_eq

theorem lockPathFor_eq (h : AtPath t cwd path dir name loc) :
    lockPathFor path = .ok (join dir (lockName name)) := by
  rw [lockPathFor, h.parent_eq, h.fileName_eq]
  rfl

/-- The path denotes the file, if it ends in its name. -/
theorem locate_eq (h : AtPath t cwd path dir name loc)
    (hlast : (pieces path).getLast? = fileName path) (hnul : 0 ∉ path) :
    t.locate cwd path = .ok (.entry loc name false) := by
  obtain ⟨hsteps, habsolute⟩ := steps_of_parent h.parent_eq h.fileName_eq
  refine locate_entry h.isEntryName (hlast.trans h.fileName_eq) hnul ?_
  rw [start, ← habsolute, hsteps, List.dropLast_concat]
  exact h.resolve_eq

/-- A path that denotes an entry denotes the file. -/
theorem of_locate (h : AtPath t cwd path dir name loc) {loc' : Location} {name' : Bytes}
    (hlocate : t.locate cwd path = .ok (.entry loc' name' false)) :
    0 ∉ path ∧ (pieces path).getLast? = fileName path ∧ loc' = loc ∧ name' = name := by
  obtain ⟨hnul, hname, hlast, -⟩ := of_locate_entry hlocate
  have hends := hlast.trans hname.symm
  have htarget := hlocate.symm.trans (h.locate_eq hends hnul)
  simp only [Except.ok.injEq, PathTarget.entry.injEq, and_true] at htarget
  exact ⟨hnul, hends, htarget⟩

/-- No forbidden byte comes with the names of the files beside it. -/
theorem zero_not_mem (h : AtPath t cwd path dir name loc) (hnul : 0 ∉ path) {other : Bytes}
    (hother : (0 : UInt8) ∈ other → 0 ∈ name) : 0 ∉ join dir other := by
  intro hmem
  have hcomponent := (mem_join (by decide) hmem).imp_right hother
  exact hnul (mem_of_component (by decide) h.parent_eq h.fileName_eq hcomponent)

theorem locate_lock (h : AtPath t cwd path dir name loc) (hnul : 0 ∉ path) :
    t.locate cwd (join dir (lockName name)) = .ok (.entry loc (lockName name) false) :=
  locate_join (isEntryName_lockName h.isEntryName)
    (h.zero_not_mem hnul (mem_of_mem_lockName (Or.inr rfl))) h.resolve_eq

theorem locate_temp (h : AtPath t cwd path dir name loc) (hnul : 0 ∉ path) :
    t.locate cwd (tempPathFor dir name suffix) = .ok (.entry loc (tempName name suffix) false) :=
  locate_join (isEntryName_tempName h.isEntryName suffix)
    (h.zero_not_mem hnul (mem_of_mem_tempName (Or.inr rfl))) h.resolve_eq

end AtPath

theorem run_io_eq_ok {α : Type} {m : Mut FileTree Errno α} {a : α} :
    (io m).run t = (.ok a, t') ↔ m.run t = (.ok a, t') := by
  rw [Mut.run, io, Prod.ext_iff, Prod.ext_iff, mapError_eq_ok]

/-- The tree with the lock file. -/
def locked (t : FileTree) (loc : Location) (name : Bytes) : FileTree :=
  t.put loc (lockName name) (some ((t.node (loc ++ [lockName name])).getD (.file [])))

/-- When the lock is taken. -/
theorem run_lock_eq_ok (h : AtPath t cwd path dir name loc) (hnul : 0 ∉ path) :
    (lock cwd path).run t = (.ok (), t') ↔
      t.node (loc ++ [lockName name]) ≠ some .directory ∧ t' = locked t loc name := by
  rw [lock, h.lockPathFor_eq, Mut.run_check_bind_eq_ok]
  simp only [Except.ok.injEq, exists_eq_left', run_io_eq_ok, openCreate_eq_ok,
    h.locate_lock hnul, PathTarget.entry.injEq, and_true]
  constructor
  · rintro ⟨_, _, ⟨rfl, rfl⟩, hnode, rfl⟩
    exact ⟨hnode, rfl⟩
  · rintro ⟨hnode, rfl⟩
    exact ⟨loc, lockName name, ⟨rfl, rfl⟩, hnode, rfl⟩

/-- The tree with the temporary file. -/
def staged (t : FileTree) (loc : Location) (name bytes : Bytes) (suffix : Uuid) : FileTree :=
  t.put loc (tempName name suffix) (some (.file bytes))

/-- The tree after the rename. -/
def committed (t : FileTree) (loc : Location) (name bytes : Bytes) (suffix : Uuid) : FileTree :=
  if loc ++ [name] = loc ++ [tempName name suffix] then staged t loc name bytes suffix
  else
    ((staged t loc name bytes suffix).put loc name (some (.file bytes))).put loc
      (tempName name suffix) none

theorem sameDirectories_locked (h : t.node (loc ++ [lockName name]) ≠ some .directory) :
    SameDirectories t (locked t loc name) := by
  refine sameDirectories_put h ?_
  cases hnode : t.node (loc ++ [lockName name]) with
  | none => simp
  | some x => simpa [hnode] using h

theorem node_locked_temp : (locked t loc name).node (loc ++ [tempName name suffix]) =
    t.node (loc ++ [tempName name suffix]) := by
  rw [locked, node_put, Function.update_of_ne (by simp [tempName_ne_lockName])]

theorem sameDirectories_staged (bytes : Bytes)
    (h : t.node (loc ++ [tempName name suffix]) = none) :
    SameDirectories t (staged t loc name bytes suffix) :=
  sameDirectories_put (by simp [h]) (by simp)

theorem sameDirectories_committed (bytes : Bytes)
    (htemp : t.node (loc ++ [tempName name suffix]) = none)
    (hname : t.node (loc ++ [name]) ≠ some .directory) :
    SameDirectories t (committed t loc name bytes suffix) := by
  have hstaged := sameDirectories_staged bytes htemp
  unfold committed
  split
  · exact hstaged
  · next hne =>
      have hput : SameDirectories (staged t loc name bytes suffix)
          ((staged t loc name bytes suffix).put loc name (some (.file bytes))) :=
        sameDirectories_put (fun hdir => hname ((hstaged _).mpr hdir)) (by simp)
      refine (hstaged.trans hput).trans ?_
      refine sameDirectories_put ?_ (by simp)
      rw [node_put, Function.update_of_ne (Ne.symm hne), staged, node_put, Function.update_self]
      simp

/-- After the rename the file holds the bytes. -/
theorem node_committed :
    (committed t loc name bytes suffix).node (loc ++ [name]) = some (.file bytes) := by
  unfold committed
  split
  · next hsame => rw [staged, node_put, hsame, Function.update_self]
  · next hne =>
      rw [node_put, Function.update_of_ne hne, node_put, Function.update_self]

/-- A rename to the path goes through only if the path is that of a file. -/
theorem run_rename_eq_ok (h : AtPath t cwd path dir name loc) (hnul : 0 ∉ path)
    (htemp : t.node (loc ++ [tempName name suffix]) = none) :
    (rename cwd (tempPathFor dir name suffix) path).run (staged t loc name bytes suffix) =
        (.ok (), t') ↔
      (pieces path).getLast? = fileName path ∧ t.node (loc ++ [name]) ≠ some .directory ∧
        t' = committed t loc name bytes suffix := by
  have hsame := sameDirectories_staged bytes htemp
  have hstaged := h.same hsame
  have hsource : (staged t loc name bytes suffix).locateFile cwd (tempPathFor dir name suffix) =
      .ok (loc, tempName name suffix, bytes) := by
    refine locateFile_eq_ok.mpr ⟨hstaged.locate_temp hnul, ?_⟩
    rw [staged, node_put, Function.update_self]
  simp only [rename_eq_ok, hsource, Except.ok.injEq, Prod.mk.injEq]
  constructor
  · rintro ⟨_, _, _, ⟨rfl, rfl, rfl⟩, loc', name', htarget, hnode, rfl⟩
    obtain ⟨-, hends, rfl, rfl⟩ := hstaged.of_locate htarget
    exact ⟨hends, fun hdir => hnode ((hsame _).mp hdir), rfl⟩
  · rintro ⟨hends, hnode, rfl⟩
    exact ⟨loc, _, bytes, ⟨rfl, rfl, rfl⟩, loc, name, hstaged.locate_eq hends hnul,
      fun hdir => hnode ((hsame _).mpr hdir), rfl⟩

/-- The directory is synced if the path names it. -/
theorem run_syncParentDir_eq_ok (h : AtPath t cwd path dir name loc) (hnul : 0 ∉ path) :
    (syncParentDir cwd dir).run t = (.ok (), t') ↔ dir ≠ [] ∧ t' = t := by
  have hstat : (∃ x, t.stat cwd dir = .ok x) ↔ dir ≠ [] := by
    constructor
    · rintro ⟨x, hx⟩ rfl
      cases hx
    · intro hne
      have hzero : 0 ∉ dir := fun hmem =>
        hnul (mem_of_component (by decide) h.parent_eq h.fileName_eq (Or.inl hmem))
      exact ⟨_, stat_of_resolve hne hzero h.resolve_eq⟩
  rw [syncParentDir, Mut.run_bind_ok (Mut.run_read t), Mut.run_bind_eq_ok, ← hstat]
  simp only [run_io_eq_ok, Mut.run_check, Mut.run_pure, Prod.mk.injEq, true_and]
  constructor
  · rintro ⟨x, _, ⟨hx, rfl⟩, rfl⟩
    exact ⟨⟨x, hx⟩, rfl⟩
  · rintro ⟨⟨x, hx⟩, rfl⟩
    exact ⟨x, _, ⟨hx, rfl⟩, rfl⟩

/-- When the commit goes through, and what it leaves. -/
theorem run_commit_eq_ok (h : AtPath t cwd path dir name loc) (hnul : 0 ∉ path) :
    (commit cwd path (tempPathFor dir name suffix) dir bytes).run t = (.ok (), t') ↔
      t.node (loc ++ [tempName name suffix]) = none ∧
        (pieces path).getLast? = fileName path ∧ t.node (loc ++ [name]) ≠ some .directory ∧
        dir ≠ [] ∧ t' = committed t loc name bytes suffix := by
  have hwrite : (writeAll (loc, tempName name suffix) bytes).run
      (t.put loc (tempName name suffix) (some (.file []))) =
        (.ok (), staged t loc name bytes suffix) := by
    have hempty : (t.put loc (tempName name suffix) (some (.file []))).node
        (loc ++ [tempName name suffix]) = some (.file []) := by rw [node_put, Function.update_self]
    rw [run_writeAll hempty, put_put, List.drop_nil, List.append_nil, staged]
  rw [commit, Mut.run_bind_eq_ok]
  simp only [run_io_eq_ok, openNew_eq_ok, h.locate_temp hnul, Except.ok.injEq,
    PathTarget.entry.injEq, and_true]
  constructor
  · rintro ⟨⟨_, _⟩, _, ⟨⟨rfl, rfl⟩, hfree, rfl⟩, hrest⟩
    obtain ⟨_, _, hwritten, hrest⟩ := Mut.run_bind_eq_ok.mp hrest
    obtain rfl := (Prod.mk.inj (hwrite.symm.trans (run_io_eq_ok.mp hwritten))).2
    obtain ⟨_, _, hrename, hsync⟩ := Mut.run_bind_eq_ok.mp hrest
    obtain ⟨hends, hnode, rfl⟩ := (run_rename_eq_ok h hnul hfree).mp (run_io_eq_ok.mp hrename)
    have hcommitted := h.same (sameDirectories_committed bytes hfree hnode)
    obtain ⟨hne, rfl⟩ := (run_syncParentDir_eq_ok hcommitted hnul).mp hsync
    exact ⟨hfree, hends, hnode, hne, rfl⟩
  · rintro ⟨hfree, hends, hnode, hne, rfl⟩
    have hcommitted := h.same (sameDirectories_committed bytes hfree hnode)
    refine ⟨(loc, tempName name suffix), _, ⟨⟨rfl, rfl⟩, hfree, rfl⟩, ?_⟩
    refine Mut.run_bind_eq_ok.mpr ⟨(), _, run_io_eq_ok.mpr hwrite, ?_⟩
    refine Mut.run_bind_eq_ok.mpr
      ⟨(), _, run_io_eq_ok.mpr ((run_rename_eq_ok h hnul hfree).mpr ⟨hends, hnode, rfl⟩), ?_⟩
    exact (run_syncParentDir_eq_ok hcommitted hnul).mpr ⟨hne, rfl⟩

/-- A write goes through only on a path that system calls take. -/
theorem zero_not_mem_of_run
    (h : (writeVaultAtomicWithBackend cwd path bytes suffix).run t = (.ok (), t')) : 0 ∉ path := by
  obtain ⟨_, -, h⟩ := Mut.run_check_bind_eq_ok.mp h
  obtain ⟨_, -, h⟩ := Mut.run_check_bind_eq_ok.mp h
  obtain ⟨_, _, -, h⟩ := Mut.run_bind_eq_ok.mp (Mut.run_withCleanup_eq_ok.mp h)
  obtain ⟨_, _, -, h⟩ := Mut.run_bind_eq_ok.mp h
  obtain ⟨_, _, hrename, -⟩ := Mut.run_bind_eq_ok.mp h
  obtain ⟨_, _, _, -, _, _, hlocate, -⟩ := rename_eq_ok.mp (run_io_eq_ok.mp hrename)
  exact (of_locate_entry hlocate).1

theorem run_writeVaultAtomicWithBackend_eq_ok (h : AtPath t cwd path dir name loc) :
    (writeVaultAtomicWithBackend cwd path bytes suffix).run t = (.ok (), t') ↔
      (commit cwd path (tempPathFor dir name suffix) dir bytes).run t = (.ok (), t') := by
  rw [writeVaultAtomicWithBackend, h.parent_eq, h.fileName_eq]
  simp only [okOr_some, Mut.run_check_bind_eq_ok, Except.ok.injEq, exists_eq_left',
    Mut.run_withCleanup_eq_ok]

/-! ## Writing and reading -/

/-- The path ends in a file name behind the name of a directory; it is not that of a directory, nor
is that of its lock file, and the name of its temporary file is free. The longer names of these two
files are no condition: the tree sets no limit to the length of a name. -/
structure Usable (t : FileTree) (cwd : Location) (path : Bytes) (suffix : Uuid) : Prop where
  namesDir : parent path ≠ some []
  endsInName : (pieces path).getLast? = fileName path
  noNul : 0 ∉ path
  notDir : t.isDir cwd path = false
  lockNotDir : ∀ lockPath, lockPathFor path = .ok lockPath → t.isDir cwd lockPath = false
  tempFree : ∀ dir name, parent path = some dir → fileName path = some name →
    t.stat cwd (tempPathFor dir name suffix) = .error .noEntry

/-- What the paths denote, in the directory. -/
theorem usable_iff (h : AtPath t cwd path dir name loc) :
    Usable t cwd path suffix ↔
      dir ≠ [] ∧ (pieces path).getLast? = fileName path ∧ 0 ∉ path ∧
        t.node (loc ++ [name]) ≠ some .directory ∧
        t.node (loc ++ [lockName name]) ≠ some .directory ∧
        t.node (loc ++ [tempName name suffix]) = none := by
  have hparent : parent path ≠ some [] ↔ dir ≠ [] := by rw [h.parent_eq, ne_eq, Option.some.injEq]
  have hlocked (hnul : 0 ∉ path) : t.isDir cwd (join dir (lockName name)) = false ↔
      t.node (loc ++ [lockName name]) ≠ some .directory :=
    isDir_entry (h.locate_lock hnul)
  have hfree (hnul : 0 ∉ path) : t.stat cwd (tempPathFor dir name suffix) = .error .noEntry ↔
      t.node (loc ++ [tempName name suffix]) = none := by
    rw [stat_entry (h.locate_temp hnul)]
    cases t.node (loc ++ [tempName name suffix]) with
    | none => simp
    | some x => simp
  constructor
  · rintro ⟨hdir, hends, hnul, hname, hlock, htemp⟩
    exact ⟨hparent.mp hdir, hends, hnul, (isDir_entry (h.locate_eq hends hnul)).mp hname,
      (hlocked hnul).mp (hlock _ h.lockPathFor_eq),
      (hfree hnul).mp (htemp dir name h.parent_eq h.fileName_eq)⟩
  · rintro ⟨hdir, hends, hnul, hname, hlock, htemp⟩
    refine ⟨hparent.mpr hdir, hends, hnul, (isDir_entry (h.locate_eq hends hnul)).mpr hname, ?_, ?_⟩
    · intro lockPath hlockPath
      obtain rfl := Except.ok.inj (h.lockPathFor_eq.symm.trans hlockPath)
      exact (hlocked hnul).mpr hlock
    · intro dir' name' hdir' hname'
      obtain rfl := Option.some.inj (h.parent_eq.symm.trans hdir')
      obtain rfl := Option.some.inj (h.fileName_eq.symm.trans hname')
      exact (hfree hnul).mpr htemp

/-- When a write goes through, and what it leaves. -/
theorem run_writeVaultAtomic_eq_ok (h : AtPath t cwd path dir name loc) :
    (writeVaultAtomic cwd path bytes suffix).run t = (.ok (), t') ↔
      Usable t cwd path suffix ∧ t' = committed (locked t loc name) loc name bytes suffix := by
  have hdirs := createDirAll_of_resolve h.resolve_eq
  rw [writeVaultAtomic, h.parent_eq, okOr_some, Mut.run_check_bind_eq_ok, usable_iff h]
  simp only [Except.ok.injEq, exists_eq_left', Mut.run_bind_eq_ok, run_io_eq_ok, hdirs]
  constructor
  · rintro ⟨_, _, hcreate, _, t₁, hlock, hwrite⟩
    obtain rfl := (Prod.mk.inj hcreate).2
    have hnul := zero_not_mem_of_run hwrite
    obtain ⟨hlockNode, rfl⟩ := (run_lock_eq_ok h hnul).mp hlock
    have hsame := sameDirectories_locked hlockNode
    rw [run_writeVaultAtomicWithBackend_eq_ok (h.same hsame),
      run_commit_eq_ok (h.same hsame) hnul] at hwrite
    obtain ⟨htemp, hends, hname, hdir, rfl⟩ := hwrite
    exact ⟨⟨hdir, hends, hnul, fun h => hname ((hsame _).mp h), hlockNode,
      node_locked_temp.symm.trans htemp⟩, rfl⟩
  · rintro ⟨⟨hdir, hends, hnul, hname, hlock, htemp⟩, rfl⟩
    have hsame := sameDirectories_locked hlock
    have hzero : 0 ∉ dir := fun hmem =>
      hnul (mem_of_component (by decide) h.parent_eq h.fileName_eq (Or.inl hmem))
    refine ⟨(), t, by rw [if_neg hzero], (), _, (run_lock_eq_ok h hnul).mpr ⟨hlock, rfl⟩, ?_⟩
    rw [run_writeVaultAtomicWithBackend_eq_ok (h.same hsame),
      run_commit_eq_ok (h.same hsame) hnul]
    exact ⟨node_locked_temp.trans htemp, hends, fun h => hname ((hsame _).mpr h), hdir, rfl⟩

/-- What is read of a file. -/
theorem run_readVaultLocked (h : AtPath t cwd path dir name loc)
    (hends : (pieces path).getLast? = fileName path) (hnul : 0 ∉ path)
    (hlock : t.node (loc ++ [lockName name]) ≠ some .directory)
    (hnode : t.node (loc ++ [name]) = some (.file bytes)) :
    ((readVaultLocked cwd path).run t).1 = .ok bytes := by
  have hlocked := h.same (sameDirectories_locked hlock)
  have hsame : (locked t loc name).node (loc ++ [name]) = some (.file bytes) := by
    rw [locked, node_put]
    by_cases hloc : loc ++ [name] = loc ++ [lockName name]
    · rw [hloc, Function.update_self, ← hloc, hnode, Option.getD_some]
    · rw [Function.update_of_ne hloc, hnode]
  have hread : (locked t loc name).readFile cwd path = .ok bytes := by
    rw [readFile, stat_entry (hlocked.locate_eq hends hnul), hsame, okOr_some, ok_bind]
    rfl
  rw [readVaultLocked, Mut.run_bind_ok ((run_lock_eq_ok h hnul).mpr ⟨hlock, rfl⟩), readVaultBytes,
    Mut.run_bind_ok (Mut.run_read _), hread]
  rfl

/-- A tree with one directory, `data`. -/
def sampleTree : FileTree where
  node loc := if loc = [] ∨ loc = [Json.utf8 "data".toList] then some .directory else none
  root := rfl

/-- A write to a path that `lock_path_for` accepts, whose directory exists, goes through and is read
back exactly if the path is usable. -/
theorem write_read_iff {lockPath : Bytes} (hlock : lockPathFor path = .ok lockPath)
    (hdir : parent path = some dir) (hloc : t.resolve cwd dir = .ok loc) :
    (∃ t', (writeVaultAtomic cwd path bytes suffix).run t = (.ok (), t') ∧
        ((readVaultLocked cwd path).run t').1 = .ok bytes) ↔
      Usable t cwd path suffix := by
  obtain ⟨name, hname⟩ : ∃ name, fileName path = some name := by
    rw [lockPathFor, hdir, okOr_some, ok_bind] at hlock
    obtain ⟨name, hname, -⟩ := bind_eq_ok.mp hlock
    exact ⟨name, okOr_eq_ok.mp hname⟩
  have hat : AtPath t cwd path dir name loc := ⟨hdir, hname, hloc⟩
  constructor
  · rintro ⟨t', hwrite, -⟩
    exact ((run_writeVaultAtomic_eq_ok hat).mp hwrite).1
  · intro husable
    refine ⟨_, (run_writeVaultAtomic_eq_ok hat).mpr ⟨husable, rfl⟩, ?_⟩
    obtain ⟨-, hends, hnul, hnode, hlockNode, htemp⟩ := (usable_iff hat).mp husable
    have hlocked := sameDirectories_locked hlockNode
    have hcommitted := hlocked.trans (sameDirectories_committed bytes
      (node_locked_temp.trans htemp) fun h => hnode ((hlocked _).mpr h))
    exact run_readVaultLocked (hat.same hcommitted) hends hnul
      (fun h => hlockNode ((hcommitted _).mpr h)) node_committed

/-- The theorem on `data/vault.bin`, written from the root. -/
theorem write_read_iff_data :
    (∃ t', (writeVaultAtomic [] (Json.utf8 "data/vault.bin".toList) [1, 2, 3] 7).run sampleTree =
          (.ok (), t') ∧
        ((readVaultLocked [] (Json.utf8 "data/vault.bin".toList)).run t').1 = .ok [1, 2, 3]) ↔
      Usable sampleTree [] (Json.utf8 "data/vault.bin".toList) 7 := by
  have hparent : parent (Json.utf8 "data/vault.bin".toList) = some (Json.utf8 "data".toList) := by
    decide
  have hname : fileName (Json.utf8 "data/vault.bin".toList) =
      some (Json.utf8 "vault.bin".toList) := by decide
  have hlock : lockPathFor (Json.utf8 "data/vault.bin".toList) =
      .ok (join (Json.utf8 "data".toList) (lockName (Json.utf8 "vault.bin".toList))) := by
    rw [lockPathFor, hparent, hname]
    rfl
  have hloc : sampleTree.resolve [] (Json.utf8 "data".toList) = .ok [Json.utf8 "data".toList] := by
    decide
  exact write_read_iff hlock hparent hloc

/-- A write to a bare file name never goes through. -/
theorem not_written_bare :
    lockPathFor (Json.utf8 "vault.bin".toList) = .ok (Json.utf8 "vault.bin.lock".toList) ∧
      parent (Json.utf8 "vault.bin".toList) = some [] ∧ sampleTree.resolve [] [] = .ok [] ∧
      ¬ ∃ t', (writeVaultAtomic [] (Json.utf8 "vault.bin".toList) [1, 2, 3] 7).run sampleTree =
          (.ok (), t') ∧
        ((readVaultLocked [] (Json.utf8 "vault.bin".toList)).run t').1 = .ok [1, 2, 3] := by
  have hparent : parent (Json.utf8 "vault.bin".toList) = some [] := by decide
  have hname : fileName (Json.utf8 "vault.bin".toList) =
      some (Json.utf8 "vault.bin".toList) := by decide
  refine ⟨?_, hparent, rfl, ?_⟩
  · rw [lockPathFor, hparent, hname, okOr_some, okOr_some, ok_bind, ok_bind, lockName,
      toStringLossy_utf8]
    rfl
  · rintro ⟨t', hwrite, -⟩
    have hat : AtPath sampleTree [] (Json.utf8 "vault.bin".toList) []
        (Json.utf8 "vault.bin".toList) [] := ⟨hparent, hname, rfl⟩
    exact ((run_writeVaultAtomic_eq_ok hat).mp hwrite).1.namesDir hparent

end PathStorage

end ViperVault
