import ViperVault.Vault.Durability

/-!
# Runs with losses of power

In every run of writes, reads, failures and losses of power, the vault file has the initial content
or all the bytes of one write. Where directories can be synced, a write that has returned with
success into a directory that is on the medium is never lost: from then on the vault file has its
bytes or those of a later write. A write into a directory that it has made itself may be lost with
the directory.
-/

namespace ViperVault

open Foundation

variable {E : Type}

/-! ## Positions in the journal -/

/-- The content is the initial one, or that of a write in the journal. -/
def Written (initial : Option Bytes) (journal : List Bytes) (content : Option Bytes) : Prop :=
  content = initial ∨ ∃ bytes ∈ journal, content = some bytes

/-- The content is that of a write that does not come before the position. -/
def WrittenFrom (n : Nat) (journal : List Bytes) (content : Option Bytes) : Prop :=
  ∃ k bytes, n ≤ k ∧ journal[k]? = some bytes ∧ content = some bytes

section Journal

variable {initial content : Option Bytes} {journal : List Bytes} {bytes : Bytes} {n : Nat}

theorem Written.mono (h : Written initial journal content) (more : List Bytes) :
    Written initial (journal ++ more) content := by
  refine h.imp_right ?_
  rintro ⟨bytes, hbytes, hcontent⟩
  exact ⟨bytes, List.mem_append_left more hbytes, hcontent⟩

theorem getElem?_append_of_eq_some (h : journal[n]? = some bytes) (more : List Bytes) :
    (journal ++ more)[n]? = some bytes := by
  rw [List.getElem?_append_left (List.getElem?_eq_some_iff.mp h).1]
  exact h

theorem WrittenFrom.mono (h : WrittenFrom n journal content) (more : List Bytes) :
    WrittenFrom n (journal ++ more) content := by
  obtain ⟨k, bytes, hk, hbytes, hcontent⟩ := h
  exact ⟨k, bytes, hk, getElem?_append_of_eq_some hbytes more, hcontent⟩

theorem written_last : Written initial (journal ++ [bytes]) (some bytes) :=
  Or.inr ⟨bytes, by simp, rfl⟩

/-- The last write comes after everything that is in the journal. -/
theorem writtenFrom_last {old : Bytes} (h : journal[n]? = some old) :
    WrittenFrom n (journal ++ [bytes]) (some bytes) := by
  have hn : n < journal.length := (List.getElem?_eq_some_iff.mp h).1
  exact ⟨journal.length, bytes, hn.le, by simp, rfl⟩

variable (initial) in
/-- The latest of the writes since the last boot comes after each of them. -/
theorem writtenFrom_latest {committed : List (Nat × Bytes)} {i : Nat}
    (hsuffix : committed.map Prod.snd <:+ journal) (hmem : (i, bytes) ∈ committed) :
    ∃ n, journal[n]? = some bytes ∧ WrittenFrom n journal (latest initial committed) := by
  obtain ⟨past, rfl⟩ := hsuffix
  obtain ⟨j, hj⟩ := List.mem_iff_getElem?.mp hmem
  have hlt : j < committed.length := (List.getElem?_eq_some_iff.mp hj).1
  cases hlast : committed.getLast? with
  | none =>
      rw [List.getLast?_eq_none_iff.mp hlast] at hlt
      cases hlt
  | some r =>
      have hend : committed[committed.length - 1]? = some r := by
        rw [← List.getLast?_eq_getElem?]
        exact hlast
      refine ⟨past.length + j, ?_, past.length + (committed.length - 1), r.2, by omega, ?_, ?_⟩
      · rw [List.getElem?_append_right (by omega), Nat.add_sub_cancel_left, List.getElem?_map, hj]
        rfl
      · rw [List.getElem?_append_right (by omega), Nat.add_sub_cancel_left, List.getElem?_map, hend]
        rfl
      · rw [latest, hlast]
        rfl

end Journal

namespace PowerWorld

open StorageWorld (samplePath)

variable {unix : Bool} {path : Path} {initial : Option Bytes}
  {medium : Option (Path → Option Bytes)} {s s' : PowerWorld E}

/-! ## One step -/

/-- An event makes a call, moves a write or a read, or takes the power away. -/
theorem step_cases {ev : PowerEvent E} (h : s.step unix path ev = some s') :
    (∃ request, ev = .io (.invoke request) ∧ s.world.fresh path request.start = true ∧
        s' = ⟨{ s.world with calls := s.world.calls ++ [request.start] }, s.volume, s.directory,
          s.journal⟩) ∨
      (∃ i answer bytes suffix pc pc' trace ops disk' volume' directory',
        ev = .io (.advance i answer) ∧
        s.world.calls[i]? = some (.write bytes suffix pc trace) ∧
        WriteMoves path i bytes suffix s.world.disk pc pc' disk' ops ∧
        PersistMoves unix path bytes suffix s.world.disk.files s.volume pc pc' disk'.files ops
          volume' ∧
        (directory' = .durable ↔ s.directory = .durable) ∧
        s' = ⟨⟨disk', s.world.calls.set i (.write bytes suffix pc' (trace ++ ops)),
            s.world.committed ++ if ops.renames then [(i, bytes)] else []⟩, volume', directory',
          s.journal ++ if ops.renames then [bytes] else []⟩) ∨
      (∃ i answer pc pc' trace ops disk', ev = .io (.advance i answer) ∧
        s.world.calls[i]? = some (.read pc trace) ∧
        pc.advance path i s.world.disk answer = some (pc', disk', ops) ∧
        s' = ⟨⟨disk', s.world.calls.set i (.read pc' (trace ++ ops)), s.world.committed⟩,
          pc.persist path s.volume answer, s.directory, s.journal⟩) ∨
      ∃ pick torn chance, ev = .powerLoss pick torn chance ∧
        s' = boot (s.directory.crash chance (s.volume.crash pick torn)) s.journal := by
  cases ev with
  | powerLoss pick torn chance =>
      cases h
      exact Or.inr (Or.inr (Or.inr ⟨pick, torn, chance, rfl, rfl⟩))
  | io event =>
      obtain ⟨-, hmap⟩ := Option.ite_none_left_eq_some.mp h
      obtain ⟨world, hworld, rfl⟩ := Option.map_eq_some_iff.mp hmap
      rcases StorageWorld.step_cases hworld with ⟨request, rfl, hfresh, rfl⟩ |
        ⟨i, answer, call, call', disk', more, rfl, hcall, hadvance, rfl⟩
      · exact Or.inl ⟨request, rfl, hfresh, by simp [persist, persistDir]⟩
      · cases call with
        | write bytes suffix pc trace =>
            obtain ⟨⟨pc', disk₁, ops⟩, hpc, hsame⟩ := Option.map_eq_some_iff.mp hadvance
            cases hsame
            refine Or.inr (Or.inl ⟨i, answer, bytes, suffix, pc, pc', trace, ops, disk₁, _,
              pc.persistDir path s.directory answer, rfl, hcall, WritePc.moves_of_advance hpc,
              WritePc.persistMoves s.volume hpc, WritePc.persistDir_eq_durable, ?_⟩)
            cases hrenames : ops.renames <;>
              simp [persist, persistDir, hcall, StorageCall.persist, StorageCall.persistDir]
        | read pc trace =>
            obtain ⟨⟨pc', disk₁, ops⟩, hpc, hsame⟩ := Option.map_eq_some_iff.mp hadvance
            cases hsame
            refine Or.inr (Or.inr (Or.inl ⟨i, answer, pc, pc', trace, ops, disk₁, rfl, hcall, hpc,
              ?_⟩))
            simp [persist, persistDir, hcall, StorageCall.persist, StorageCall.persistDir]

/-! ## The invariant -/

/-- What holds in every state of a run. -/
structure Persistent (unix : Bool) (path : Path) (initial : Option Bytes) (s : PowerWorld E) :
    Prop where
  /-- the calls since the last boot found a content that was written -/
  sound : ∃ files, StorageWorld.Sound path files s.world ∧ Written initial s.journal (files path)
  view : s.volume.files = s.world.disk.files
  target : s.volume.Settled (Written initial s.journal) path
  synced : ∀ (i : Nat) bytes suffix pc trace,
    s.world.calls[i]? = some (.write bytes suffix pc trace) → TempSynced s.volume pc
  journaled : s.world.committed.map Prod.snd <:+ s.journal
  /-- a directory that may be lost was not there at first -/
  directory : s.directory ≠ .durable → initial = none
  /-- a crash takes nothing back that a call has reported -/
  kept : unix = true → ∀ (i : Nat) bytes suffix pc trace,
    s.world.calls[i]? = some (.write bytes suffix pc trace) → pc.succeeds = true →
      ∃ n, s.journal[n]? = some bytes ∧ s.volume.Settled (WrittenFrom n s.journal) path

theorem persistent_boot {journal : List Bytes} (h : Written initial journal (filesOn medium path))
    (hmedium : medium = none → initial = none) :
    Persistent unix path initial (boot medium journal : PowerWorld E) where
  sound := ⟨filesOn medium, StorageWorld.sound_new, h⟩
  view := Volume.files_ofFiles (filesOn medium)
  target := Volume.settled_ofFiles h
  synced := by
    intro i bytes suffix pc trace hcall
    cases hcall
  journaled := List.nil_suffix
  directory := by
    intro hlost
    cases medium with
    | none => exact hmedium rfl
    | some files => exact absurd rfl hlost
  kept := by
    intro _ i bytes suffix pc trace hcall
    cases hcall

/-- The power is lost, and with it a directory that was not there at first, or none. -/
theorem persistent_powerLoss (hs : Persistent unix path initial s) (pick : Path → Nat)
    (torn : Path → Bytes) (chance : Bool) :
    Persistent unix path initial
      (boot (s.directory.crash chance (s.volume.crash pick torn)) s.journal : PowerWorld E) := by
  cases hcrash : s.directory.crash chance (s.volume.crash pick torn) with
  | none =>
      have hinitial : initial = none := hs.directory (DirEntry.ne_durable_of_crash hcrash)
      exact persistent_boot (Or.inl hinitial.symm) fun _ => hinitial
  | some files =>
      obtain rfl := DirEntry.eq_of_crash hcrash
      exact persistent_boot (hs.target.crash pick torn) (by rintro ⟨⟩)

theorem persistent_invoke {request : StorageRequest} (hs : Persistent unix path initial s)
    (hfresh : s.world.fresh path request.start = true) :
    Persistent unix path initial
      ⟨{ s.world with calls := s.world.calls ++ [request.start] }, s.volume, s.directory,
        s.journal⟩ := by
  obtain ⟨files, hsound, hboot⟩ := hs.sound
  refine
    { sound := ⟨files, StorageWorld.sound_invoke hsound hfresh, hboot⟩
      view := hs.view
      target := hs.target
      synced := ?_
      journaled := hs.journaled
      directory := hs.directory
      kept := ?_ }
  · intro i bytes suffix pc trace hcall
    rcases getElem?_append_singleton hcall with hold | ⟨-, hnew⟩
    · exact hs.synced i bytes suffix pc trace hold
    · cases request <;> cases hnew
      trivial
  · intro hunix i bytes suffix pc trace hcall hsucceeds
    rcases getElem?_append_singleton hcall with hold | ⟨-, hnew⟩
    · exact hs.kept hunix i bytes suffix pc trace hold hsucceeds
    · cases request <;> cases hnew
      cases hsucceeds

/-- The temporary files of the other calls are as they were. -/
theorem tempSynced_other {volume' : Volume Path UInt8} {suffix : Uuid} {bytes : Bytes}
    {pc : WritePc E} {trace : StorageTrace E} {disk : Disk}
    (hstands : WriteStands path bytes suffix disk.files trace pc)
    (hcurrent : ∀ tmpPath, tempPathOf path suffix = some tmpPath →
      volume'.current tmpPath = s.volume.current tmpPath)
    (h : TempSynced s.volume pc) : TempSynced volume' pc := by
  cases pc with
  | committing tmpPath =>
      obtain ⟨file, hfile, hsynced⟩ := h
      exact ⟨file, (hcurrent tmpPath hstands.2.2.1).trans hfile, hsynced⟩
  | _ => trivial

section Writes

variable {i : Nat} {bytes : Bytes} {suffix : Uuid} {pc pc' : WritePc E}
  {trace ops : StorageTrace E} {disk' : Disk} {volume' : Volume Path UInt8}

/-- What is settled of the vault file stays settled if it allows for the rename of the call. -/
theorem settled_write {good : Option Bytes → Prop} (hs : Persistent unix path initial s)
    (hcall : s.world.calls[i]? = some (.write bytes suffix pc trace))
    (hpersist : PersistMoves unix path bytes suffix s.world.disk.files s.volume pc pc' disk'.files
      ops volume') (hgood : ops.renames = true → good (some bytes))
    (hsettled : s.volume.Settled good path) : volume'.Settled good path := by
  obtain ⟨files, hsound, -⟩ := hs.sound
  have hstands : WriteStands path bytes suffix s.world.disk.files trace pc :=
    hsound.stands i _ hcall
  exact hpersist.settled hstands hs.view (hs.synced i bytes suffix pc trace hcall) hgood hsettled

/-- The vault file does not go back before a position in the journal. -/
theorem writtenFrom_write {n : Nat} {old : Bytes} (hs : Persistent unix path initial s)
    (hcall : s.world.calls[i]? = some (.write bytes suffix pc trace))
    (hpersist : PersistMoves unix path bytes suffix s.world.disk.files s.volume pc pc' disk'.files
      ops volume') (hold : s.journal[n]? = some old)
    (hsettled : s.volume.Settled (WrittenFrom n s.journal) path) :
    volume'.Settled (WrittenFrom n (s.journal ++ if ops.renames then [bytes] else [])) path := by
  apply settled_write hs hcall hpersist
  · intro hrenames
    rw [if_pos hrenames]
    exact writtenFrom_last hold
  · exact hsettled.mono fun content hcontent => hcontent.mono _

theorem persistent_write (hs : Persistent unix path initial s)
    (hcall : s.world.calls[i]? = some (.write bytes suffix pc trace))
    (hmove : WriteMoves path i bytes suffix s.world.disk pc pc' disk' ops)
    (hpersist : PersistMoves unix path bytes suffix s.world.disk.files s.volume pc pc' disk'.files
      ops volume') {directory' : DirEntry}
    (hdirectory : directory' = .durable ↔ s.directory = .durable) :
    Persistent unix path initial
      ⟨⟨disk', s.world.calls.set i (.write bytes suffix pc' (trace ++ ops)),
        s.world.committed ++ if ops.renames then [(i, bytes)] else []⟩, volume', directory',
        s.journal ++ if ops.renames then [bytes] else []⟩ := by
  obtain ⟨files, hsound, hboot⟩ := hs.sound
  have hstands : WriteStands path bytes suffix s.world.disk.files trace pc :=
    hsound.stands i _ hcall
  refine
    { sound := ⟨files, StorageWorld.sound_write hsound hcall hmove, hboot.mono _⟩
      view := hpersist.files_eq hs.view
      target := ?_
      synced := ?_
      journaled := ?_
      directory := fun hlost => hs.directory (mt hdirectory.mpr hlost)
      kept := ?_ }
  · apply settled_write hs hcall hpersist
    · intro hrenames
      change Written initial (s.journal ++ if ops.renames then [bytes] else []) (some bytes)
      rw [if_pos hrenames]
      exact written_last
    · exact hs.target.mono fun content hcontent => hcontent.mono _
  · intro j bytes' suffix' pc₀ trace₀ hj
    rcases getElem?_set_cases hj with ⟨rfl, hsame⟩ | ⟨hne, hold⟩
    · cases hsame
      exact hpersist.tempSynced hstands hs.view
    · refine tempSynced_other (hsound.stands j _ hold) ?_ (hs.synced j _ _ _ _ hold)
      intro tmpPath htmp
      apply hpersist.current_of_ne hstands htmp
      exact hsound.distinct j i _ _ (Ne.symm hne) hold hcall tmpPath htmp
  · rw [List.map_append]
    cases ops.renames with
    | true =>
        obtain ⟨past, hpast⟩ := hs.journaled
        exact ⟨past, by rw [← hpast]; simp⟩
    | false => simpa using hs.journaled
  · intro hunix j bytes' suffix' pc₀ trace₀ hj hsucceeds
    have hkept : ∀ (k : Nat) b sfx pc₁ trace₁,
        s.world.calls[k]? = some (.write b sfx pc₁ trace₁) → pc₁.succeeds = true →
        ∃ n, (s.journal ++ if ops.renames then [bytes] else [])[n]? = some b ∧
          volume'.Settled
            (WrittenFrom n (s.journal ++ if ops.renames then [bytes] else [])) path := by
      intro k b sfx pc₁ trace₁ hk hk'
      obtain ⟨n, hn, hfrom⟩ := hs.kept hunix k b sfx pc₁ trace₁ hk hk'
      exact ⟨n, getElem?_append_of_eq_some hn _, writtenFrom_write hs hcall hpersist hn hfrom⟩
    rcases getElem?_set_cases hj with ⟨rfl, hsame⟩ | ⟨-, hold⟩
    · cases hsame
      rcases hpersist.succeeds hsucceeds with hbefore | ⟨tmpPath, rfl, -, rfl⟩
      · exact hkept i bytes suffix pc trace hcall hbefore
      · -- nobody else has renamed since this call did
        have hcommitted : (i, bytes) ∈ s.world.committed :=
          (hsound.committed i bytes).mpr ⟨suffix, _, trace, hcall, hstands.2.1⟩
        obtain ⟨n, hn, hlast⟩ :=
          writtenFrom_latest (files path) hs.journaled hcommitted
        have hsettles : s.volume.syncDir.Settled (WrittenFrom n s.journal) path := by
          apply Volume.settled_syncDir
          · intro file hfile
            exact hs.target.current_synced hfile
          · rw [hs.view, hsound.target]
            exact hlast
        refine ⟨n, getElem?_append_of_eq_some hn _, ?_⟩
        rw [hunix, if_pos rfl]
        exact hsettles.mono fun content hcontent => hcontent.mono _
    · exact hkept j bytes' suffix' pc₀ trace₀ hold hsucceeds

end Writes

section Reads

variable {i : Nat} {pc pc' : ReadPc E} {trace ops : StorageTrace E} {disk' : Disk}
  {answer : IoAnswer E}

/-- At most the lock file is new after a step of a read. -/
theorem persist_read (hview : s.volume.files = s.world.disk.files)
    (hadvance : pc.advance path i s.world.disk answer = some (pc', disk', ops)) :
    (pc.persist path s.volume answer).files = disk'.files ∧
      s.volume.SameAt (pc.persist path s.volume answer) path ∧
      ∀ suffix tmpPath, tempPathOf path suffix = some tmpPath →
        (pc.persist path s.volume answer).current tmpPath = s.volume.current tmpPath := by
  rcases ReadPc.persist_cases s.volume hadvance with
    ⟨hfiles, hkeep⟩ | ⟨lockPath, hlock, hfiles, hmade⟩
  · rw [hkeep, hfiles]
    exact ⟨hview, ⟨rfl, rfl⟩, fun _ _ _ => rfl⟩
  · rw [hmade, hfiles, files_openLockFileOn hlock, hview]
    refine ⟨rfl, sameAt_openLockFileOn hlock (lockPathFor_ne_path hlock).symm, ?_⟩
    intro suffix tmpPath htmp
    exact (sameAt_openLockFileOn hlock (lockPathFor_ne_tempPathOf hlock htmp).symm).1

theorem persistent_read (hs : Persistent unix path initial s)
    (hcall : s.world.calls[i]? = some (.read pc trace))
    (hadvance : pc.advance path i s.world.disk answer = some (pc', disk', ops)) :
    Persistent unix path initial
      ⟨⟨disk', s.world.calls.set i (.read pc' (trace ++ ops)), s.world.committed⟩,
        pc.persist path s.volume answer, s.directory, s.journal⟩ := by
  obtain ⟨files, hsound, hboot⟩ := hs.sound
  have hmove := ReadPc.moves_of_advance hadvance
  obtain ⟨hview, htarget, htemps⟩ := persist_read hs.view hadvance
  have hwrite : ∀ (j : Nat) bytes suffix pc₀ trace₀,
      (s.world.calls.set i (.read pc' (trace ++ ops)))[j]? = some (.write bytes suffix pc₀ trace₀) →
      s.world.calls[j]? = some (.write bytes suffix pc₀ trace₀) := by
    intro j bytes suffix pc₀ trace₀ hj
    rcases getElem?_set_cases hj with ⟨-, hsame⟩ | ⟨-, hold⟩
    · cases hsame
    · exact hold
  refine
    { sound := ⟨files, StorageWorld.sound_read hsound hcall hmove, hboot⟩
      view := hview
      target := hs.target.congr htarget
      synced := ?_
      journaled := hs.journaled
      directory := hs.directory
      kept := ?_ }
  · intro j bytes suffix pc₀ trace₀ hj
    have hold := hwrite j bytes suffix pc₀ trace₀ hj
    exact tempSynced_other (hsound.stands j _ hold) (htemps suffix) (hs.synced j _ _ _ _ hold)
  · intro hunix j bytes suffix pc₀ trace₀ hj hsucceeds
    obtain ⟨n, hn, hfrom⟩ := hs.kept hunix j _ _ _ _ (hwrite j _ _ _ _ hj) hsucceeds
    exact ⟨n, hn, hfrom.congr htarget⟩

end Reads

theorem persistent_step {ev : PowerEvent E} (hs : Persistent unix path initial s)
    (hstep : s.step unix path ev = some s') : Persistent unix path initial s' := by
  rcases step_cases hstep with ⟨request, rfl, hfresh, rfl⟩ |
    ⟨i, answer, bytes, suffix, pc, pc', trace, ops, disk', volume', directory', rfl, hcall, hmove,
      hpersist, hdirectory, rfl⟩ |
    ⟨i, answer, pc, pc', trace, ops, disk', rfl, hcall, hadvance, rfl⟩ |
    ⟨pick, torn, chance, rfl, rfl⟩
  · exact persistent_invoke hs hfresh
  · exact persistent_write hs hcall hmove hpersist hdirectory
  · exact persistent_read hs hcall hadvance
  · exact persistent_powerLoss hs pick torn chance

theorem persistent_of_run {m : PowerWorld E} {es : List (PowerEvent E)}
    (hm : Persistent unix path initial m) (h : exec (step unix path) m es = some s) :
    Persistent unix path initial s :=
  exec_invariant (Persistent unix path initial) (fun _ _ _ => persistent_step) hm h

/-! ## Nothing goes back -/

/-- A write of these bytes was asked for in the run. -/
def Requested (es : List (PowerEvent E)) (bytes : Bytes) : Prop :=
  ∃ suffix, .io (.invoke (.writeVaultAtomic bytes suffix)) ∈ es

/-- The writes and the journal have bytes of this kind only. -/
structure Only (asked : Bytes → Prop) (s : PowerWorld E) : Prop where
  calls : ∀ (i : Nat) bytes suffix pc trace,
    s.world.calls[i]? = some (.write bytes suffix pc trace) → asked bytes
  journal : ∀ bytes ∈ s.journal, asked bytes

theorem only_step {asked : Bytes → Prop} {ev : PowerEvent E}
    (hasked : ∀ bytes suffix, ev = .io (.invoke (.writeVaultAtomic bytes suffix)) → asked bytes)
    (hs : Only asked s) (hstep : s.step unix path ev = some s') : Only asked s' := by
  rcases step_cases hstep with ⟨request, rfl, -, rfl⟩ |
    ⟨i, answer, bytes, suffix, pc, pc', trace, ops, disk', volume', directory', rfl, hcall, -, -,
      -, rfl⟩ |
    ⟨i, answer, pc, pc', trace, ops, disk', rfl, hcall, -, rfl⟩ |
    ⟨pick, torn, chance, rfl, rfl⟩
  · refine ⟨?_, hs.journal⟩
    intro j bytes suffix pc trace hj
    rcases getElem?_append_singleton hj with hbefore | ⟨-, hnew⟩
    · exact hs.calls j bytes suffix pc trace hbefore
    · cases request <;> cases hnew
      exact hasked bytes suffix rfl
  · have hbytes := hs.calls i bytes suffix pc trace hcall
    constructor
    · intro j bytes' suffix' pc₀ trace₀ hj
      rcases getElem?_set_cases hj with ⟨-, hsame⟩ | ⟨-, hbefore⟩
      · cases hsame
        exact hbytes
      · exact hs.calls j bytes' suffix' pc₀ trace₀ hbefore
    · intro b hb
      rcases List.mem_append.mp hb with hbefore | hnew
      · exact hs.journal b hbefore
      · split at hnew
        · rwa [List.mem_singleton.mp hnew]
        · cases hnew
  · refine ⟨?_, hs.journal⟩
    intro j bytes suffix pc₀ trace₀ hj
    rcases getElem?_set_cases hj with ⟨-, hsame⟩ | ⟨-, hbefore⟩
    · cases hsame
    · exact hs.calls j bytes suffix pc₀ trace₀ hbefore
  · refine ⟨?_, hs.journal⟩
    intro j bytes suffix pc trace hj
    cases hj

theorem only_requested {es : List (PowerEvent E)}
    (h : exec (step unix path) (boot medium []) es = some s) : Only (Requested es) s := by
  refine exec_invariant_of_everyStep
    (fun _ ev => ∀ bytes suffix, ev = .io (.invoke (.writeVaultAtomic bytes suffix)) →
      Requested es bytes)
    (Only (Requested es)) ?_ ⟨?_, ?_⟩ (everyStep_of_forall_mem ?_) h
  · intro s ev s' hs hasked hstep
    exact only_step hasked hs hstep
  · intro i bytes suffix pc trace hcall
    cases hcall
  · intro bytes hbytes
    cases hbytes
  · rintro ev hev bytes suffix rfl
    exact ⟨suffix, hev⟩

/-! ## What a run with losses of power leaves -/

/-- What the vault file has at the end of a run, and what its reads have returned. -/
structure AllOrNothing (path : Path) (medium : Option (Path → Option Bytes))
    (es : List (PowerEvent E)) (s : PowerWorld E) : Prop where
  content : Written (filesOn medium path) s.journal (s.world.disk.files path)
  requested : ∀ bytes ∈ s.journal, Requested es bytes
  reads : ∀ (i : Nat) buf trace, s.world.calls[i]? = some (.read (.returned (.ok buf)) trace) →
    Written (filesOn medium path) s.journal (some buf)

/-- A write that succeeds; a write that loses the power after its rename; a read. -/
def writesAndPowerLoss (survivor : Nat) : List (PowerEvent Nat) :=
  [.io (.invoke (.writeVaultAtomic [1, 2] 1)), .io (.advance 0 .done), .io (.advance 0 .done),
   .io (.advance 0 .done), .io (.advance 0 .done), .io (.advance 0 (.moved 2)),
   .io (.advance 0 .done), .io (.advance 0 .done), .io (.advance 0 .done),
   .io (.advance 0 .done), .io (.advance 0 .done),
   .io (.invoke (.writeVaultAtomic [3] 2)), .io (.advance 1 .done), .io (.advance 1 .done),
   .io (.advance 1 .done), .io (.advance 1 .done), .io (.advance 1 (.moved 1)),
   .io (.advance 1 .done), .io (.advance 1 .done), .io (.advance 1 .done),
   .powerLoss (fun _ => survivor) (fun _ => [0]) false,
   -- the directory was not synced after the second rename
   .io (.invoke .readVaultLocked), .io (.advance 0 .done), .io (.advance 0 .done),
   .io (.advance 0 .done), .io (.advance 0 .done), .io (.advance 0 (.moved 1)),
   .io (.advance 0 (.moved 1)), .io (.advance 0 .done), .io (.advance 0 .done)]

/-- A read has returned the initial content or that of a write. -/
theorem Persistent.written_read {i : Nat} {buf : Bytes} {trace : StorageTrace E}
    (hs : Persistent unix path initial s)
    (hcall : s.world.calls[i]? = some (.read (.returned (.ok buf)) trace)) :
    Written initial s.journal (some buf) := by
  obtain ⟨files, hsound, hboot⟩ := hs.sound
  obtain ⟨-, hinitial | ⟨j, hcommitted⟩⟩ := hsound.stands i _ hcall
  · rwa [hinitial] at hboot
  · right
    refine ⟨buf, ?_, rfl⟩
    exact hs.journaled.subset (List.mem_map.mpr ⟨(j, buf), hcommitted, rfl⟩)

theorem persistent_of_boot {es : List (PowerEvent E)}
    (h : exec (step unix path) (boot medium []) es = some s) :
    Persistent unix path (filesOn medium path) s := by
  refine persistent_of_run (persistent_boot (Or.inl rfl) ?_) h
  rintro rfl
  rfl

/-- Writes are all-or-nothing, whatever fails, whatever the interleaving and whenever the power
is lost. -/
theorem writes_are_all_or_nothing_after_power_loss {es : List (PowerEvent E)}
    (h : exec (step unix path) (boot medium []) es = some s) : AllOrNothing path medium es s := by
  have hs := persistent_of_boot h
  refine
    { content := ?_
      requested := (only_requested h).journal
      reads := ?_ }
  · rw [← hs.view]
    exact hs.target.files
  · intro i buf trace hcall
    exact hs.written_read hcall

/-- The theorem on a run in which the second of two writes is lost. -/
theorem writes_are_all_or_nothing_after_power_loss_writesAndPowerLoss :
    ∃ s : PowerWorld Nat,
      AllOrNothing samplePath (some fun _ => none) (writesAndPowerLoss 1) s ∧
      s.journal = [[1, 2], [3]] ∧ s.world.disk.files samplePath = some [1, 2] ∧
      ∃ trace, s.world.calls[0]? = some (.read (.returned (.ok [1, 2])) trace) := by
  have hrun : ∃ s : PowerWorld Nat,
      exec (step true samplePath) (boot (some fun _ => none) []) (writesAndPowerLoss 1) =
        some s ∧
      s.journal = [[1, 2], [3]] ∧ s.world.disk.files samplePath = some [1, 2] ∧
      ∃ trace, s.world.calls[0]? = some (.read (.returned (.ok [1, 2])) trace) :=
    ⟨_, rfl, rfl, rfl, _, rfl⟩
  obtain ⟨s, h, hfacts⟩ := hrun
  exact ⟨s, writes_are_all_or_nothing_after_power_loss h, hfacts⟩

-- A write that has returned with success may be lost where directories cannot be synced,
example :
    ((exec (step false samplePath) (boot (some fun _ => none) [])
      ((writesAndPowerLoss 1).take 11 ++
        [.powerLoss (fun _ => 1) (fun _ => [0]) false])).map
        fun s => s.world.disk.files samplePath) = some none := by
  rfl

-- and with the directory that it has made.
example :
    ((exec (step true samplePath) (boot none [])
      ((writesAndPowerLoss 1).take 11 ++
        [.powerLoss (fun _ => 0) (fun _ => [0]) false])).map
        fun s => s.world.disk.files samplePath) = some none := by
  rfl

end PowerWorld

end ViperVault
