import Mathlib.Logic.Function.Basic
import ViperVault.Foundation.Mutation
import ViperVault.Foundation.OsPath
import ViperVault.Foundation.Results

/-!
# File trees

Directories and files without links, and the system calls of one process on them: a path is resolved
step by step, from the root or from the working directory. Nothing that exists refuses access, names
and paths may have any length, and a call that fails leaves the tree alone.
-/

namespace ViperVault.Foundation

open OsPath

/-- Why a system call fails. -/
inductive Errno
  | noEntry
  | notDirectory
  | isDirectory
  | alreadyExists
  /-- the path holds a byte that ends it -/
  | invalidInput
  deriving DecidableEq, Repr

/-- What is found at a location. -/
inductive TreeNode
  | directory
  | file (content : List UInt8)
  deriving DecidableEq

/-- The names on the way from the root. -/
abbrev Location : Type := List (List UInt8)

/-- A tree, whose root is a directory. -/
@[ext] structure FileTree where
  node : Location → Option TreeNode
  root : node [] = some .directory

/-- What a path denotes for a system call: a directory, or the entry of a directory that has a name,
with a slash behind it or not. -/
inductive PathTarget
  | directory (loc : Location)
  | entry (dir : Location) (name : List UInt8) (slash : Bool)

namespace FileTree

/-- Set what an entry of a directory is, or remove it. -/
def put (t : FileTree) (dir : Location) (name : List UInt8) (x : Option TreeNode) : FileTree where
  node := Function.update t.node (dir ++ [name]) x
  root := by
    rw [Function.update_of_ne (by simp)]
    exact t.root

@[simp] theorem node_put (t : FileTree) (dir : Location) (name : List UInt8)
    (x : Option TreeNode) :
    (t.put dir name x).node = Function.update t.node (dir ++ [name]) x := rfl

/-- To put what is there changes nothing. -/
theorem put_self {t : FileTree} {dir : Location} {name : List UInt8} {x : Option TreeNode}
    (h : t.node (dir ++ [name]) = x) : t.put dir name x = t := by
  ext1
  rw [node_put, ← h, Function.update_eq_self]

theorem put_put (t : FileTree) (dir : Location) (name : List UInt8) (x y : Option TreeNode) :
    (t.put dir name x).put dir name y = t.put dir name y := by
  ext1
  rw [node_put, node_put, node_put, Function.update_idem]

/-! ## Resolution -/

/-- Go into a directory. -/
def enter (t : FileTree) (loc : Location) : Except Errno Location :=
  match t.node loc with
  | some .directory => .ok loc
  | some (.file _) => .error .notDirectory
  | none => .error .noEntry

/-- Take steps from a directory to a directory. -/
def walk (t : FileTree) (loc : Location) : List (List UInt8) → Except Errno Location
  | [] => t.enter loc
  | step :: rest => do
      let loc ← t.enter loc
      t.walk (if step = dotDot then loc.dropLast else loc ++ [step]) rest

/-- Where a path starts. -/
def start (cwd : Location) (p : List UInt8) : Location := if isAbsolute p then [] else cwd

/-- The directory that a path denotes; the empty path denotes the working directory. -/
def resolve (t : FileTree) (cwd : Location) (p : List UInt8) : Except Errno Location :=
  t.walk (start cwd p) (steps p)

/-- What a path denotes for a system call; the empty path denotes nothing. -/
def locate (t : FileTree) (cwd : Location) (p : List UInt8) : Except Errno PathTarget := do
  failIf (0 ∈ p) .invalidInput
  failIf (p = []) .noEntry
  if isSkipped (lastPiece p) ∨ lastPiece p = dotDot then
    return .directory (← t.resolve cwd p)
  else
    return .entry (← t.walk (start cwd p) (steps p).dropLast) (lastPiece p) (endsInSlash p)

/-! ## System calls -/

/-- `stat`, and `open` for reading. -/
def stat (t : FileTree) (cwd : Location) (p : List UInt8) : Except Errno TreeNode := do
  match ← t.locate cwd p with
  | .directory _ => return .directory
  | .entry dir name slash =>
      match t.node (dir ++ [name]), slash with
      | none, _ => .error .noEntry
      | some (.file _), true => .error .notDirectory
      | some x, _ => return x

/-- `is_dir`. -/
def isDir (t : FileTree) (cwd : Location) (p : List UInt8) : Bool :=
  decide (t.stat cwd p = .ok .directory)

/-- `open` for reading, and `read` to the end. -/
def readFile (t : FileTree) (cwd : Location) (p : List UInt8) : Except Errno (List UInt8) := do
  match ← t.stat cwd p with
  | .directory => .error .isDirectory
  | .file content => return content

/-- `mkdir`. -/
def mkdir (cwd : Location) (p : List UInt8) : Mut FileTree Errno Unit := do
  let t ← Mut.read
  match ← Mut.check (t.locate cwd p) with
  | .directory _ => Mut.fail .alreadyExists
  | .entry dir name _ =>
      if t.node (dir ++ [name]) = none then Mut.write fun t => t.put dir name (some .directory)
      else Mut.fail .alreadyExists

/-- `open` with `O_CREAT`, for writing. -/
def openCreate (cwd : Location) (p : List UInt8) : Mut FileTree Errno Unit := do
  let t ← Mut.read
  match ← Mut.check (t.locate cwd p) with
  | .directory _ => Mut.fail .isDirectory
  | .entry dir name slash =>
      match t.node (dir ++ [name]), slash with
      | some .directory, _ => Mut.fail .isDirectory
      | some (.file _), true => Mut.fail .notDirectory
      | some (.file _), false => pure ()
      | none, true => Mut.fail .isDirectory
      | none, false => Mut.write fun t => t.put dir name (some (.file []))

/-- `open` with `O_CREAT` and `O_EXCL`, for writing; the answer is the file that is open. -/
def openNew (cwd : Location) (p : List UInt8) : Mut FileTree Errno (Location × List UInt8) := do
  let t ← Mut.read
  match ← Mut.check (t.locate cwd p) with
  | .directory _ => Mut.fail .alreadyExists
  | .entry dir name slash =>
      if t.node (dir ++ [name]) ≠ none then Mut.fail .alreadyExists
      else if slash then Mut.fail .isDirectory
      else do
        Mut.write fun t => t.put dir name (some (.file []))
        return (dir, name)

/-- `write` of all bytes to an open file, from its start. -/
def writeAll (file : Location × List UInt8) (bytes : List UInt8) : Mut FileTree Errno Unit := do
  let t ← Mut.read
  match t.node (file.1 ++ [file.2]) with
  | some (.file content) =>
      Mut.write fun t =>
        t.put file.1 file.2 (some (.file (bytes ++ content.drop bytes.length)))
  | _ => Mut.fail .noEntry

/-- The file that a path denotes, with its content. -/
def locateFile (t : FileTree) (cwd : Location) (p : List UInt8) :
    Except Errno (Location × List UInt8 × List UInt8) := do
  match ← t.locate cwd p with
  | .directory _ => .error .isDirectory
  | .entry dir name slash =>
      match t.node (dir ++ [name]), slash with
      | none, _ => .error .noEntry
      | some .directory, _ => .error .isDirectory
      | some (.file _), true => .error .notDirectory
      | some (.file content), false => return (dir, name, content)

/-- `rename` of a file. -/
def rename (cwd : Location) (source target : List UInt8) : Mut FileTree Errno Unit := do
  let t ← Mut.read
  let (dir, name, content) ← Mut.check (t.locateFile cwd source)
  match ← Mut.check (t.locate cwd target) with
  | .directory _ => Mut.fail .isDirectory
  | .entry dir' name' slash =>
      if t.node (dir' ++ [name']) = some .directory then Mut.fail .isDirectory
      else if slash then Mut.fail .notDirectory
      -- a file that is renamed to itself stays
      else if dir' ++ [name'] = dir ++ [name] then pure ()
      else Mut.write fun t => (t.put dir' name' (some (.file content))).put dir name none

/-- `unlink`. -/
def unlink (cwd : Location) (p : List UInt8) : Mut FileTree Errno Unit := do
  let t ← Mut.read
  let (dir, name, _) ← Mut.check (t.locateFile cwd p)
  Mut.write fun t => t.put dir name none

/-- Run `mkdir`; that a directory is there already is no failure. -/
def ensureDir (cwd : Location) (p : List UInt8) : Mut FileTree Errno Unit := fun t =>
  match (mkdir cwd p).run t with
  | (.ok (), t') => (.ok (), t')
  | (.error e, t') => if t'.isDir cwd p then (.ok (), t') else (.error e, t')

/-- `create_dir_all`. -/
def createDirAll (cwd : Location) (p : List UInt8) : Mut FileTree Errno Unit := fun t =>
  if p = [] then (.ok (), t)
  else
    match (mkdir cwd p).run t with
    | (.ok (), t') => (.ok (), t')
    | (.error .noEntry, t') =>
        match _hparent : parent p with
        | none => (.error .noEntry, t')
        | some dir =>
            match (createDirAll cwd dir).run t' with
            | (.ok (), t'') => (ensureDir cwd p).run t''
            | (.error e, t'') => (.error e, t'')
    | (.error e, t') => if t'.isDir cwd p then (.ok (), t') else (.error e, t')
termination_by p.length
decreasing_by exact length_parent_lt ‹_›

/-! ## The same directories -/

/-- What is a directory in one tree is one in the other. -/
def SameDirectories (t t' : FileTree) : Prop :=
  ∀ loc, t.node loc = some .directory ↔ t'.node loc = some .directory

variable {t t' : FileTree} {cwd dir loc : Location} {p name : List UInt8}

theorem SameDirectories.trans {t'' : FileTree} (h : SameDirectories t t')
    (h' : SameDirectories t' t'') : SameDirectories t t'' :=
  fun loc => (h loc).trans (h' loc)

/-- Files come and go without a change to the directories. -/
theorem sameDirectories_put {x : Option TreeNode} (h : t.node (dir ++ [name]) ≠ some .directory)
    (hx : x ≠ some .directory) : SameDirectories t (t.put dir name x) := by
  intro loc
  by_cases hloc : loc = dir ++ [name]
  · rw [node_put, hloc, Function.update_self]
    exact iff_of_false h hx
  · rw [node_put, Function.update_of_ne hloc]

theorem enter_eq_ok : t.enter loc = .ok dir ↔ t.node loc = some .directory ∧ loc = dir := by
  unfold enter
  split
  · next hnode => simp [hnode]
  · next hnode => simp [hnode]
  · next hnode => simp [hnode]

theorem SameDirectories.walk_eq_ok (h : SameDirectories t t') {l : List (List UInt8)}
    (hwalk : t.walk loc l = .ok dir) : t'.walk loc l = .ok dir := by
  induction l generalizing loc with
  | nil =>
      obtain ⟨hnode, rfl⟩ := enter_eq_ok.mp hwalk
      exact enter_eq_ok.mpr ⟨(h loc).mp hnode, rfl⟩
  | cons step l ih =>
      obtain ⟨loc', hloc, hwalk⟩ := bind_eq_ok.mp hwalk
      obtain ⟨hnode, rfl⟩ := enter_eq_ok.mp hloc
      exact bind_eq_ok.mpr ⟨loc, enter_eq_ok.mpr ⟨(h loc).mp hnode, rfl⟩, ih hwalk⟩

/-- A walk with one more step. -/
theorem walk_concat {l : List (List UInt8)} {step : List UInt8} :
    t.walk loc (l ++ [step]) = .ok dir ↔
      ∃ mid, t.walk loc l = .ok mid ∧
        t.enter (if step = dotDot then mid.dropLast else mid ++ [step]) = .ok dir := by
  induction l generalizing loc with
  | nil => exact bind_eq_ok
  | cons first l ih =>
      rw [List.cons_append, walk, bind_eq_ok]
      simp only [ih, walk, bind_eq_ok]
      constructor
      · rintro ⟨loc', hloc, mid, hmid, hstep⟩
        exact ⟨mid, ⟨loc', hloc, hmid⟩, hstep⟩
      · rintro ⟨mid, ⟨loc', hloc, hmid⟩, hstep⟩
        exact ⟨loc', hloc, mid, hmid, hstep⟩

/-! ## What a path denotes -/

/-- When a path denotes something for system calls, and what. -/
theorem locate_eq_ok {target : PathTarget} :
    t.locate cwd p = .ok target ↔ 0 ∉ p ∧ p ≠ [] ∧
      if isSkipped (lastPiece p) = true ∨ lastPiece p = dotDot then
        ∃ loc, t.resolve cwd p = .ok loc ∧ .directory loc = target
      else
        ∃ dir, t.walk (start cwd p) (steps p).dropLast = .ok dir ∧
          .entry dir (lastPiece p) (endsInSlash p) = target := by
  rw [locate, check_bind_eq_ok, check_bind_eq_ok, failIf_eq_ok, failIf_eq_ok]
  split
  · simp only [bind_eq_ok, pure_eq_ok, ne_eq]
  · simp only [bind_eq_ok, pure_eq_ok, ne_eq]

/-- A path whose last piece is a name denotes an entry. -/
theorem locate_entry (hname : IsEntryName name) (hlast : (pieces p).getLast? = some name)
    (hnul : 0 ∉ p) (hwalk : t.walk (start cwd p) (steps p).dropLast = .ok dir) :
    t.locate cwd p = .ok (.entry dir name false) := by
  obtain ⟨hslash, hpiece⟩ := endsInSlash_of_getLast? hname hlast
  have hp : p ≠ [] := by
    rintro rfl
    exact hname.nonempty (Option.some.inj hlast).symm
  have hentry : ¬ (isSkipped (lastPiece p) = true ∨ lastPiece p = dotDot) := by
    rw [hpiece, hname.isSkipped_eq_false]
    simpa using hname.ne_dotDot
  rw [locate_eq_ok, if_neg hentry, hslash, hpiece]
  exact ⟨hnul, hp, dir, hwalk, rfl⟩

/-- A path that denotes an entry, with no slash behind it, ends in the name. -/
theorem of_locate_entry (h : t.locate cwd p = .ok (.entry dir name false)) :
    0 ∉ p ∧ fileName p = some name ∧ (pieces p).getLast? = some name ∧
      t.walk (start cwd p) (steps p).dropLast = .ok dir := by
  obtain ⟨hnul, -, h⟩ := locate_eq_ok.mp h
  split at h
  · obtain ⟨loc, -, h⟩ := h
    cases h
  · next hentry =>
      obtain ⟨loc, hwalk, h⟩ := h
      obtain ⟨rfl, rfl, hslash⟩ := PathTarget.entry.inj h
      rw [not_or, Bool.not_eq_true] at hentry
      have hlast : (pieces p).getLast? = some (lastPiece p) := by
        rw [lastPiece_of_endsInSlash_eq_false hslash, List.getLastD_eq_getLast?,
          List.getLast?_eq_some_getLast (pieces_ne_nil p), Option.getD_some]
      exact ⟨hnul, fileName_of_getLast? hlast hentry.1 hentry.2, hlast, hwalk⟩

/-- A path in a directory denotes an entry of it. -/
theorem locate_join (hname : IsEntryName name) (hnul : 0 ∉ join p name)
    (hdir : t.resolve cwd p = .ok dir) :
    t.locate cwd (join p name) = .ok (.entry dir name false) := by
  obtain ⟨init, hpieces, -, -⟩ := pieces_join (p := p) hname
  refine locate_entry hname ?_ hnul ?_
  · rw [hpieces, List.getLast?_concat]
  · rw [start, isAbsolute_join hname, steps_join hname, List.dropLast_concat]
    exact hdir

/-- An entry is what the tree holds. -/
theorem stat_entry (h : t.locate cwd p = .ok (.entry dir name false)) :
    t.stat cwd p = okOr (t.node (dir ++ [name])) .noEntry := by
  rw [stat, h, ok_bind]
  cases hnode : t.node (dir ++ [name]) with
  | none => simp [hnode]
  | some x =>
      cases x with
      | directory => simp [hnode, pure_eq_ok]
      | file content => simp [hnode, pure_eq_ok]

theorem isDir_entry (h : t.locate cwd p = .ok (.entry dir name false)) :
    t.isDir cwd p = false ↔ t.node (dir ++ [name]) ≠ some .directory := by
  rw [isDir, stat_entry h, decide_eq_false_iff_not, okOr_eq_ok]

/-- A path to a directory, which is not empty, denotes it for system calls too. -/
theorem locate_of_resolve (hp : p ≠ []) (hnul : 0 ∉ p) (hdir : t.resolve cwd p = .ok dir) :
    t.locate cwd p = .ok (.directory dir) ∨
      ∃ dir' name slash, t.locate cwd p = .ok (.entry dir' name slash) ∧
        t.node (dir' ++ [name]) = some .directory := by
  by_cases hpiece : isSkipped (lastPiece p) = true ∨ lastPiece p = dotDot
  · left
    rw [locate_eq_ok, if_pos hpiece]
    exact ⟨hnul, hp, dir, hdir, rfl⟩
  · right
    rw [not_or, Bool.not_eq_true] at hpiece
    rw [resolve, steps_eq_dropLast_append hpiece.1] at hdir
    obtain ⟨mid, hwalk, henter⟩ := walk_concat.mp hdir
    rw [if_neg hpiece.2] at henter
    refine ⟨mid, lastPiece p, endsInSlash p, ?_, (enter_eq_ok.mp henter).1⟩
    rw [locate_eq_ok, if_neg (by simp [hpiece])]
    exact ⟨hnul, hp, mid, hwalk, rfl⟩

theorem stat_of_resolve (hp : p ≠ []) (hnul : 0 ∉ p) (hdir : t.resolve cwd p = .ok dir) :
    t.stat cwd p = .ok .directory := by
  rcases locate_of_resolve hp hnul hdir with hlocate | ⟨dir', name, slash, hlocate, hnode⟩
  · rw [stat, hlocate]
    rfl
  · rw [stat, hlocate, ok_bind]
    simp [hnode, pure_eq_ok]

/-- Where the directory is there, nothing is made. -/
theorem createDirAll_of_resolve (hdir : t.resolve cwd p = .ok dir) :
    (createDirAll cwd p).run t = (if 0 ∈ p then .error .invalidInput else .ok (), t) := by
  rw [Mut.run, createDirAll]
  by_cases hp : p = []
  · rw [if_pos hp, if_neg (by simp [hp])]
  · rw [if_neg hp, mkdir, Mut.run_bind_ok (Mut.run_read t)]
    by_cases hnul : 0 ∈ p
    · have hlocate : t.locate cwd p = .error .invalidInput := by simp [locate, failIf, hnul]
      have hdir : t.isDir cwd p = false := by simp [isDir, stat, hlocate]
      simp [Mut.run_bind, hlocate, hdir, hnul]
    · have hisDir : t.isDir cwd p = true := decide_eq_true (stat_of_resolve hp hnul hdir)
      rcases locate_of_resolve hp hnul hdir with hlocate | ⟨dir', name, slash, hlocate, hnode⟩
      · simp [Mut.run_bind, hlocate, hisDir, hnul]
      · simp [Mut.run_bind, hlocate, hnode, hisDir, hnul]

/-! ## Calls on entries -/

/-- When a file is opened or created. -/
theorem openCreate_eq_ok :
    (openCreate cwd p).run t = (.ok (), t') ↔
      ∃ dir name, t.locate cwd p = .ok (.entry dir name false) ∧
        t.node (dir ++ [name]) ≠ some .directory ∧
        t' = t.put dir name (some ((t.node (dir ++ [name])).getD (.file []))) := by
  rw [openCreate, Mut.run_bind_ok (Mut.run_read t)]
  constructor
  · intro h
    obtain ⟨target, hlocate, h⟩ := Mut.run_check_bind_eq_ok.mp h
    cases target with
    | directory loc => cases h
    | entry dir name slash =>
        refine ⟨dir, name, ?_⟩
        cases hnode : t.node (dir ++ [name]) with
        | none =>
            cases slash with
            | true => simp [hnode] at h
            | false =>
                simp only [hnode, Mut.run_write, Prod.mk.injEq] at h
                exact ⟨hlocate, by simp, h.2.symm⟩
        | some x =>
            cases x with
            | directory => simp [hnode] at h
            | file content =>
                cases slash with
                | true => simp [hnode] at h
                | false =>
                    simp only [hnode, Mut.run_pure, Prod.mk.injEq] at h
                    exact ⟨hlocate, by simp, h.2.symm.trans (put_self hnode).symm⟩
  · rintro ⟨dir, name, hlocate, hdir, rfl⟩
    refine Mut.run_check_bind_eq_ok.mpr ⟨_, hlocate, ?_⟩
    cases hnode : t.node (dir ++ [name]) with
    | none => simp [hnode]
    | some x =>
        cases x with
        | directory => exact absurd hnode hdir
        | file content => simp [hnode, put_self]

/-- When a file is created, and which. -/
theorem openNew_eq_ok {file : Location × List UInt8} :
    (openNew cwd p).run t = (.ok file, t') ↔
      t.locate cwd p = .ok (.entry file.1 file.2 false) ∧ t.node (file.1 ++ [file.2]) = none ∧
        t' = t.put file.1 file.2 (some (.file [])) := by
  rw [openNew, Mut.run_bind_ok (Mut.run_read t)]
  constructor
  · intro h
    obtain ⟨target, hlocate, h⟩ := Mut.run_check_bind_eq_ok.mp h
    cases target with
    | directory loc => cases h
    | entry dir name slash =>
        by_cases hnode : t.node (dir ++ [name]) = none
        · cases slash with
          | true => simp [hnode] at h
          | false =>
              simp [hnode, Mut.run_bind] at h
              obtain ⟨rfl, rfl⟩ := h
              exact ⟨hlocate, hnode, rfl⟩
        · simp [hnode] at h
  · rintro ⟨hlocate, hnode, rfl⟩
    refine Mut.run_check_bind_eq_ok.mpr ⟨_, hlocate, ?_⟩
    simp [hnode, Mut.run_bind]

/-- What a write leaves of a file. -/
theorem run_writeAll {file : Location × List UInt8} {bytes content : List UInt8}
    (hnode : t.node (file.1 ++ [file.2]) = some (.file content)) :
    (writeAll file bytes).run t =
      (.ok (), t.put file.1 file.2 (some (.file (bytes ++ content.drop bytes.length)))) := by
  rw [writeAll, Mut.run_bind_ok (Mut.run_read t), hnode]
  rfl

/-- Which file a path denotes. -/
theorem locateFile_eq_ok {content : List UInt8} :
    t.locateFile cwd p = .ok (dir, name, content) ↔
      t.locate cwd p = .ok (.entry dir name false) ∧
        t.node (dir ++ [name]) = some (.file content) := by
  constructor
  · intro h
    obtain ⟨target, hlocate, h⟩ := bind_eq_ok.mp h
    cases target with
    | directory loc => cases h
    | entry dir' name' slash =>
        cases hnode : t.node (dir' ++ [name']) with
        | none => simp [hnode] at h
        | some x =>
            cases x with
            | directory => simp [hnode] at h
            | file content' =>
                cases slash with
                | true => simp [hnode] at h
                | false =>
                    simp only [hnode, pure_eq_ok, Prod.mk.injEq] at h
                    obtain ⟨rfl, rfl, rfl⟩ := h
                    exact ⟨hlocate, hnode⟩
  · rintro ⟨hlocate, hnode⟩
    rw [locateFile, hlocate, ok_bind]
    simp [hnode, pure_eq_ok]

/-- When a file is renamed. -/
theorem rename_eq_ok {source target : List UInt8} :
    (rename cwd source target).run t = (.ok (), t') ↔
      ∃ dir name content, t.locateFile cwd source = .ok (dir, name, content) ∧
        ∃ dir' name', t.locate cwd target = .ok (.entry dir' name' false) ∧
          t.node (dir' ++ [name']) ≠ some .directory ∧
          t' = if dir' ++ [name'] = dir ++ [name] then t
            else (t.put dir' name' (some (.file content))).put dir name none := by
  rw [rename, Mut.run_bind_ok (Mut.run_read t)]
  constructor
  · intro h
    obtain ⟨⟨dir, name, content⟩, hsource, h⟩ := Mut.run_check_bind_eq_ok.mp h
    obtain ⟨target', htarget, h⟩ := Mut.run_check_bind_eq_ok.mp h
    refine ⟨dir, name, content, hsource, ?_⟩
    cases target' with
    | directory loc => cases h
    | entry dir' name' slash =>
        dsimp only at h
        split at h
        · cases h
        · next hdir =>
            cases slash with
            | true => cases h
            | false =>
                refine ⟨dir', name', htarget, hdir, ?_⟩
                rw [if_neg Bool.false_ne_true] at h
                split at h
                · next hsame => rw [if_pos hsame]; exact (congrArg Prod.snd h).symm
                · next hother => rw [if_neg hother]; exact (congrArg Prod.snd h).symm
  · rintro ⟨dir, name, content, hsource, dir', name', htarget, hdir, rfl⟩
    refine Mut.run_check_bind_eq_ok.mpr ⟨_, hsource, ?_⟩
    refine Mut.run_check_bind_eq_ok.mpr ⟨_, htarget, ?_⟩
    dsimp only
    rw [if_neg hdir, if_neg Bool.false_ne_true]
    split
    · rfl
    · rfl

end FileTree

end ViperVault.Foundation
