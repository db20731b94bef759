import Mathlib.Logic.Function.Basic

/-!
# Files behind a write-back cache

A volume is the directory of files that its users see, with what the medium may have instead. The
content of a file is on the medium once the file is synced. Until the directory is synced, a name
may lead on the medium to what it led to before. When power is lost, each name leads to one of
these files, and a file that was not synced may then have any content. The directory itself is a
name in its parent: as long as the parent is not synced, a new directory may be lost with all that
is in it.
-/

namespace ViperVault.Foundation

/-- The entry of a directory in its parent. -/
inductive DirEntry
  | absent
  /-- made, and the parent was not synced since -/
  | made
  | durable
  deriving DecidableEq

namespace DirEntry

/-- `mkdir`, unless the directory is there. -/
def mkdir : DirEntry → DirEntry
  | .absent => .made
  | .made => .made
  | .durable => .durable

/-- Power is lost: what is in the directory afterwards, if there is one. An entry that was not
synced is on the medium by chance. -/
def crash {β : Type*} (entry : DirEntry) (chance : Bool) (contents : β) : Option β :=
  match entry with
  | .absent => none
  | .made => if chance then some contents else none
  | .durable => some contents

@[simp] theorem mkdir_eq_durable {entry : DirEntry} :
    entry.mkdir = .durable ↔ entry = .durable := by
  cases entry <;> simp [mkdir]

/-- What is lost was not durable. -/
theorem ne_durable_of_crash {β : Type*} {entry : DirEntry} {chance : Bool} {contents : β}
    (h : entry.crash chance contents = none) : entry ≠ .durable := by
  rintro rfl
  cases h

/-- What is there was in the directory. -/
theorem eq_of_crash {β : Type*} {entry : DirEntry} {chance : Bool} {contents found : β}
    (h : entry.crash chance contents = some found) : found = contents := by
  cases entry with
  | absent => cases h
  | made =>
      obtain ⟨-, hsame⟩ := Option.ite_none_right_eq_some.mp h
      exact (Option.some.inj hsame).symm
  | durable => exact (Option.some.inj h).symm

end DirEntry

/-- A file, and whether the medium has all of its content. -/
structure CachedFile (α : Type*) where
  content : List α
  synced : Bool

/-- A directory of files. -/
structure Volume (P α : Type*) where
  current : P → Option (CachedFile α)
  /-- where the names have led since the directory was synced -/
  older : P → List (Option (CachedFile α))

namespace Volume

variable {P α : Type*}

/-- A medium that has just these files. -/
def ofFiles (files : P → Option (List α)) : Volume P α where
  current := fun p => (files p).map fun content => ⟨content, true⟩
  older := fun _ => []

/-- The files as their users see them. -/
def files (v : Volume P α) : P → Option (List α) := fun p => (v.current p).map CachedFile.content

/-- Where a name may lead on the medium. -/
def candidates (v : Volume P α) (p : P) : List (Option (CachedFile α)) := v.current p :: v.older p

/-- Power is lost: which candidate each name leads to, and what a file has that was not synced. -/
def crash (v : Volume P α) (pick : P → Nat) (torn : P → List α) : P → Option (List α) := fun p =>
  ((v.candidates p)[pick p]?.getD (v.current p)).map fun file =>
    if file.synced then file.content else torn p

/-- `fsync` of the directory. -/
def syncDir (v : Volume P α) : Volume P α := { v with older := fun _ => [] }

section Updates

variable [DecidableEq P]

/-- Make a name lead to this file. -/
def link (v : Volume P α) (p : P) (file : Option (CachedFile α)) : Volume P α where
  current := Function.update v.current p file
  older := Function.update v.older p (v.candidates p)

/-- Change the file that a name leads to. -/
def modify (v : Volume P α) (p : P) (change : CachedFile α → CachedFile α) : Volume P α :=
  { v with current := Function.update v.current p ((v.current p).map change) }

/-- A new, empty file. -/
def create (v : Volume P α) (p : P) : Volume P α := v.link p (some ⟨[], false⟩)

/-- `write` at the end of a file. -/
def append (v : Volume P α) (p : P) (more : List α) : Volume P α :=
  v.modify p fun file => ⟨file.content ++ more, false⟩

/-- `fsync` of a file. -/
def syncFile (v : Volume P α) (p : P) : Volume P α := v.modify p fun file => ⟨file.content, true⟩

/-- `rename`. -/
def rename (v : Volume P α) (p q : P) : Volume P α := (v.link q (v.current p)).link p none

/-- `unlink`. -/
def remove (v : Volume P α) (p : P) : Volume P α := v.link p none

end Updates

/-! ## What users see -/

section Files

variable (v : Volume P α)

@[simp] theorem files_ofFiles (files : P → Option (List α)) : (ofFiles files).files = files := by
  funext p
  cases h : files p <;> simp [Volume.files, ofFiles, h]

variable [DecidableEq P]

@[simp] theorem files_link (p : P) (file : Option (CachedFile α)) :
    (v.link p file).files = Function.update v.files p (file.map CachedFile.content) := by
  funext q
  by_cases hq : q = p
  · subst hq
    simp [files, link]
  · simp [files, link, hq]

@[simp] theorem files_create (p : P) :
    (v.create p).files = Function.update v.files p (some []) :=
  files_link v p _

@[simp] theorem files_append (p : P) (more : List α) :
    (v.append p more).files = Function.update v.files p ((v.files p).map (· ++ more)) := by
  funext q
  by_cases hq : q = p
  · subst hq
    cases h : v.current q <;> simp [files, append, modify, h]
  · simp [files, append, modify, hq]

@[simp] theorem files_syncFile (p : P) : (v.syncFile p).files = v.files := by
  funext q
  by_cases hq : q = p
  · subst hq
    cases h : v.current q <;> simp [files, syncFile, modify, h]
  · simp [files, syncFile, modify, hq]

@[simp] theorem files_rename (p q : P) :
    (v.rename p q).files = Function.update (Function.update v.files q (v.files p)) p none := by
  rw [rename, files_link, files_link]
  rfl

@[simp] theorem files_remove (p : P) : (v.remove p).files = Function.update v.files p none :=
  files_link v p none

end Files

/-! ## What is left after a crash -/

/-- Whatever file the name may lead to is synced, and this holds of its content. -/
def Settled (v : Volume P α) (good : Option (List α) → Prop) (p : P) : Prop :=
  ∀ entry ∈ v.candidates p,
    (∀ file, entry = some file → file.synced = true) ∧ good (entry.map CachedFile.content)

/-- Nothing that may be on the medium under this name has changed. -/
def SameAt (v v' : Volume P α) (p : P) : Prop :=
  v'.current p = v.current p ∧ v'.older p = v.older p

variable {v v' : Volume P α} {good good' : Option (List α) → Prop} {p q : P}

theorem settled_ofFiles {files : P → Option (List α)} (h : good (files p)) :
    (ofFiles files).Settled good p := by
  intro entry hentry
  obtain rfl := List.mem_singleton.mp hentry
  constructor
  · intro file hfile
    obtain ⟨content, -, rfl⟩ := Option.map_eq_some_iff.mp hfile
    rfl
  · change good ((ofFiles files).files p)
    rwa [files_ofFiles]

theorem Settled.mono (h : v.Settled good p) (himp : ∀ content, good content → good' content) :
    v.Settled good' p :=
  fun entry hentry => (h entry hentry).imp_right (himp _)

theorem Settled.congr (h : v.Settled good p) (hsame : v.SameAt v' p) : v'.Settled good p := by
  intro entry hentry
  rw [candidates, hsame.1, hsame.2] at hentry
  exact h entry hentry

theorem Settled.files (h : v.Settled good p) : good (v.files p) :=
  (h (v.current p) List.mem_cons_self).2

/-- A crash leaves one of the settled contents. -/
theorem Settled.crash (h : v.Settled good p) (pick : P → Nat) (torn : P → List α) :
    good (v.crash pick torn p) := by
  have hentry : (v.candidates p)[pick p]?.getD (v.current p) ∈ v.candidates p := by
    cases hpick : (v.candidates p)[pick p]? with
    | none => exact List.mem_cons_self
    | some entry => exact List.mem_of_getElem? hpick
  obtain ⟨hsynced, hgood⟩ := h _ hentry
  rw [Volume.crash]
  cases hfile : (v.candidates p)[pick p]?.getD (v.current p) with
  | none =>
      rw [hfile] at hgood
      exact hgood
  | some file =>
      rw [hfile] at hgood
      rw [Option.map_some, if_pos (hsynced file hfile)]
      exact hgood

theorem Settled.syncDir (h : v.Settled good p) : v.syncDir.Settled good p := by
  intro entry hentry
  obtain rfl := List.mem_singleton.mp hentry
  exact h (v.current p) List.mem_cons_self

/-- Syncing the directory leaves a name with the one file that it leads to. -/
theorem settled_syncDir (hsynced : ∀ file, v.current p = some file → file.synced = true)
    (hgood : good (v.files p)) : v.syncDir.Settled good p := by
  intro entry hentry
  obtain rfl := List.mem_singleton.mp hentry
  exact ⟨hsynced, hgood⟩

theorem Settled.current_synced (h : v.Settled good p) {file : CachedFile α}
    (hfile : v.current p = some file) : file.synced = true :=
  (h (v.current p) List.mem_cons_self).1 file hfile

variable [DecidableEq P]

/-- A name that is led to a synced file keeps what it had as a candidate. -/
theorem Settled.link (h : v.Settled good p) {file : Option (CachedFile α)}
    (hsynced : ∀ f, file = some f → f.synced = true)
    (hgood : good (file.map CachedFile.content)) : (v.link p file).Settled good p := by
  intro entry hentry
  simp only [candidates, Volume.link, Function.update_self, List.mem_cons] at hentry
  rcases hentry with rfl | hold
  · exact ⟨hsynced, hgood⟩
  · exact h entry (List.mem_cons.mpr hold)

theorem sameAt_link (file : Option (CachedFile α)) (hne : q ≠ p) : v.SameAt (v.link p file) q :=
  ⟨Function.update_of_ne hne _ _, Function.update_of_ne hne _ _⟩

theorem sameAt_modify (change : CachedFile α → CachedFile α) (hne : q ≠ p) :
    v.SameAt (v.modify p change) q :=
  ⟨Function.update_of_ne hne _ _, rfl⟩

theorem sameAt_rename {r : P} (hp : r ≠ p) (hq : r ≠ q) : v.SameAt (v.rename p q) r := by
  have hlink := sameAt_link (v := v) (v.current p) hq
  have hremove := sameAt_link (v := v.link q (v.current p)) none hp
  exact ⟨hremove.1.trans hlink.1, hremove.2.trans hlink.2⟩

/-- A file that was synced before it is renamed is all that a crash can add. -/
theorem Settled.rename (h : v.Settled good q) (hne : q ≠ p)
    (hsynced : ∀ file, v.current p = some file → file.synced = true) (hgood : good (v.files p)) :
    (v.rename p q).Settled good q :=
  (h.link hsynced hgood).congr (sameAt_link none hne)

end Volume

end ViperVault.Foundation
