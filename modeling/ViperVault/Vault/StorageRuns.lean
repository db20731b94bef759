import ViperVault.Vault.StorageSteps

/-!
# Storage under failures and interleavings

Whatever fails and whatever the interleaving, the vault file holds what it held at first or the
bytes of the last write that renamed. Each call is described by what it has done so far; the lock
and the names of the temporary files keep the others away from it.
-/

namespace ViperVault

open Foundation

variable {E : Type}

/-- The content of the vault file after these writes. -/
def latest (initial : Option Bytes) (committed : List (Nat × Bytes)) : Option Bytes :=
  (committed.getLast?.map Prod.snd).or initial

/-- The bytes are the initial content or those of a write that renamed. -/
def Complete (initial : Option Bytes) (committed : List (Nat × Bytes)) (bytes : Bytes) : Prop :=
  initial = some bytes ∨ ∃ i, (i, bytes) ∈ committed

theorem complete_of_latest {initial : Option Bytes} {committed : List (Nat × Bytes)}
    {bytes : Bytes} (h : latest initial committed = some bytes) :
    Complete initial committed bytes := by
  cases hlast : committed.getLast? with
  | none =>
      rw [latest, hlast] at h
      exact Or.inl h
  | some r =>
      rw [latest, hlast] at h
      right
      refine ⟨r.1, ?_⟩
      rw [← Option.some.inj h]
      exact List.mem_of_getLast? hlast

@[simp] theorem latest_append_singleton (initial : Option Bytes) (committed : List (Nat × Bytes))
    (i : Nat) (bytes : Bytes) : latest initial (committed ++ [(i, bytes)]) = some bytes := by
  simp [latest]

theorem Complete.mono {initial : Option Bytes} {committed : List (Nat × Bytes)} {bytes : Bytes}
    (h : Complete initial committed bytes) (more : List (Nat × Bytes)) :
    Complete initial (committed ++ more) bytes := by
  refine Or.imp_right ?_ h
  rintro ⟨i, hi⟩
  exact ⟨i, List.mem_append_left more hi⟩

namespace StorageCall

/-- The call holds the lock for writing. -/
def writes : StorageCall E → Bool
  | .write _ _ pc _ => pc.holdsLock
  | .read _ _ => false

/-- The call holds the lock for reading. -/
def reads : StorageCall E → Bool
  | .write _ _ _ _ => false
  | .read pc _ => pc.holdsLock

/-- What holds of the files where a call stands. -/
def Stands (path : Path) (complete : Bytes → Prop) (files : Path → Option Bytes) :
    StorageCall E → Prop
  | .write bytes suffix pc trace => WriteStands path bytes suffix files trace pc
  | .read pc trace => ReadStands path complete files trace pc

/-- A step of a call is one of a write or one of a read. -/
theorem advance_cases {path : Path} {i : Nat} {disk disk' : Disk} {answer : IoAnswer E}
    {call call' : StorageCall E} {more : List (Nat × Bytes)}
    (h : call.advance path i disk answer = some (call', disk', more)) :
    (∃ bytes suffix pc pc' trace ops, call = .write bytes suffix pc trace ∧
        call' = .write bytes suffix pc' (trace ++ ops) ∧
        WriteMoves path i bytes suffix disk pc pc' disk' ops ∧
        more = if ops.renames then [(i, bytes)] else []) ∨
      (∃ pc pc' trace ops, call = .read pc trace ∧ call' = .read pc' (trace ++ ops) ∧
        ReadMoves path i disk pc pc' disk' ops ∧ more = []) := by
  cases call with
  | write bytes suffix pc trace =>
      left
      obtain ⟨⟨pc', disk₁, ops⟩, hadvance, hsame⟩ := Option.map_eq_some_iff.mp h
      cases hsame
      exact ⟨bytes, suffix, pc, pc', trace, ops, rfl, rfl, WritePc.moves_of_advance hadvance, rfl⟩
  | read pc trace =>
      right
      obtain ⟨⟨pc', disk₁, ops⟩, hadvance, hsame⟩ := Option.map_eq_some_iff.mp h
      cases hsame
      exact ⟨pc, pc', trace, ops, rfl, rfl, ReadPc.moves_of_advance hadvance, rfl⟩

end StorageCall

namespace StorageWorld

variable {path : Path} {files : Path → Option Bytes} {w w' : StorageWorld E}

/-- The call `i` is one of those. -/
def Holding (p : StorageCall E → Bool) (calls : List (StorageCall E)) (i : Nat) : Prop :=
  ∃ call, calls[i]? = some call ∧ p call = true

/-- What holds in every state of a run. -/
structure Sound (path : Path) (files : Path → Option Bytes) (w : StorageWorld E) : Prop where
  target : w.disk.files path = latest (files path) w.committed
  committed : ∀ i bytes, (i, bytes) ∈ w.committed ↔
    ∃ suffix pc trace, w.calls[i]? = some (.write bytes suffix pc trace) ∧ trace.renames = true
  stands : ∀ (i : Nat) (call : StorageCall E), w.calls[i]? = some call →
    call.Stands path (Complete (files path) w.committed) w.disk.files
  honours : w.disk.fileLock.Honours (Holding StorageCall.writes w.calls)
    (Holding StorageCall.reads w.calls)
  distinct : ∀ (i j : Nat) (a b : StorageCall E), i ≠ j → w.calls[i]? = some a →
    w.calls[j]? = some b → ∀ tmpPath, a.tempPath path = some tmpPath →
    b.tempPath path ≠ some tmpPath

/-- An event appends a call with a fresh name, or it moves one. -/
theorem step_cases {ev : StorageEvent E} (h : w.step path ev = some w') :
    (∃ request, ev = .invoke request ∧ w.fresh path request.start = true ∧
        w' = { w with calls := w.calls ++ [request.start] }) ∨
      (∃ i answer call call' disk' more, ev = .advance i answer ∧ w.calls[i]? = some call ∧
        call.advance path i w.disk answer = some (call', disk', more) ∧
        w' = ⟨disk', w.calls.set i call', w.committed ++ more⟩) := by
  cases ev with
  | invoke request =>
      left
      obtain ⟨hfresh, hsame⟩ := Option.ite_none_right_eq_some.mp h
      exact ⟨request, rfl, hfresh, (Option.some.inj hsame).symm⟩
  | advance i answer =>
      right
      obtain ⟨call, hcall, h⟩ := Option.bind_eq_some_iff.mp h
      obtain ⟨⟨call', disk', more⟩, hadvance, hsame⟩ := Option.map_eq_some_iff.mp h
      exact ⟨i, answer, call, call', disk', more, rfl, hcall, hadvance, hsame.symm⟩

theorem fresh_iff {call : StorageCall E} :
    w.fresh path call = true ↔ ∀ tmpPath, call.tempPath path = some tmpPath →
      w.disk.files tmpPath = none ∧ ∀ other ∈ w.calls, other.tempPath path ≠ some tmpPath := by
  simp [fresh, Option.all_eq_true]

theorem holding_append {p : StorageCall E → Bool} {calls : List (StorageCall E)}
    {call : StorageCall E} (hcall : p call = false) {j : Nat}
    (h : Holding p (calls ++ [call]) j) : Holding p calls j := by
  obtain ⟨other, hother, hp⟩ := h
  rcases getElem?_append_singleton hother with hold | ⟨-, rfl⟩
  · exact ⟨other, hold, hp⟩
  · rw [hcall] at hp
    cases hp

/-- After a step of the call `i`. -/
theorem holding_set {p : StorageCall E → Bool} {calls : List (StorageCall E)}
    {call' : StorageCall E} {i j : Nat} (h : Holding p (calls.set i call') j) :
    (Holding p calls j ∧ i ≠ j) ∨ (i = j ∧ p call' = true) := by
  obtain ⟨other, hother, hp⟩ := h
  rcases getElem?_set_cases hother with ⟨rfl, rfl⟩ | ⟨hne, hold⟩
  · exact Or.inr ⟨rfl, hp⟩
  · exact Or.inl ⟨⟨other, hold, hp⟩, hne⟩

theorem holding_set_of_eq_false {p : StorageCall E → Bool} {calls : List (StorageCall E)}
    {call' : StorageCall E} {i j : Nat} (hcall' : p call' = false)
    (h : Holding p (calls.set i call') j) : Holding p calls j ∧ i ≠ j := by
  apply (holding_set h).resolve_right
  rintro ⟨-, hp⟩
  rw [hcall'] at hp
  cases hp

theorem sound_new : Sound path files (new files : StorageWorld E) where
  target := rfl
  committed := by
    intro i bytes
    simp [new]
  stands := by
    intro i call hcall
    cases hcall
  honours := by
    refine ⟨RwLock.excludes_free, ?_, ?_⟩
    · rintro i ⟨call, hcall, -⟩
      cases hcall
    · rintro i ⟨call, hcall, -⟩
      cases hcall
  distinct := by
    intro i j a b _ ha
    cases ha

theorem sound_invoke {request : StorageRequest} (hw : Sound path files w)
    (hfresh : w.fresh path request.start = true) :
    Sound path files { w with calls := w.calls ++ [request.start] } := by
  rw [fresh_iff] at hfresh
  refine
    { target := hw.target
      committed := ?_
      stands := ?_
      honours := ?_
      distinct := ?_ }
  · intro i bytes
    rw [hw.committed i bytes]
    constructor
    · rintro ⟨suffix, pc, trace, hcall, hrenames⟩
      have hi : i < w.calls.length := (List.getElem?_eq_some_iff.mp hcall).1
      refine ⟨suffix, pc, trace, ?_, hrenames⟩
      rw [List.getElem?_append_left hi]
      exact hcall
    · rintro ⟨suffix, pc, trace, hcall, hrenames⟩
      rcases getElem?_append_singleton hcall with hold | ⟨-, hnew⟩
      · exact ⟨suffix, pc, trace, hold, hrenames⟩
      · cases request with
        | writeVaultAtomic bytes suffix =>
            cases hnew
            cases hrenames
        | readVaultLocked => cases hnew
  · intro i call hcall
    rcases getElem?_append_singleton hcall with hold | ⟨-, rfl⟩
    · exact hw.stands i call hold
    · cases request with
      | writeVaultAtomic bytes suffix =>
          refine ⟨rfl, rfl, ?_⟩
          intro tmpPath htmp
          exact (hfresh tmpPath htmp).1
      | readVaultLocked => exact StorageTrace.firstError_nil
  · refine hw.honours.mono (fun j => holding_append ?_) (fun j => holding_append ?_)
    · cases request <;> rfl
    · cases request <;> rfl
  · intro i j a b hij ha hb tmpPath htmp
    rcases getElem?_append_singleton ha with ha | ⟨rfl, rfl⟩
    · rcases getElem?_append_singleton hb with hb | ⟨rfl, rfl⟩
      · exact hw.distinct i j a b hij ha hb tmpPath htmp
      · intro hnew
        exact (hfresh tmpPath hnew).2 a (List.mem_of_getElem? ha) htmp
    · rcases getElem?_append_singleton hb with hb | ⟨rfl, -⟩
      · exact (hfresh tmpPath htmp).2 b (List.mem_of_getElem? hb)
      · exact absurd rfl hij

/-- What a step of a write does to the lock is what the others expect. -/
theorem honours_write {i : Nat} {bytes : Bytes} {suffix : Uuid} {pc pc' : WritePc E}
    {trace trace' : StorageTrace E} {holds holds' : Bool} {l : RwLock Nat}
    (hw : w.disk.fileLock.Honours (Holding StorageCall.writes w.calls)
      (Holding StorageCall.reads w.calls))
    (hcall : w.calls[i]? = some (.write bytes suffix pc trace)) (hpc : pc.holdsLock = holds)
    (hpc' : pc'.holdsLock = holds')
    (hmove : LockMoves i (RwLock.acquireExclusive i) w.disk.fileLock holds holds' l) :
    l.Honours (Holding StorageCall.writes (w.calls.set i (.write bytes suffix pc' trace')))
      (Holding StorageCall.reads (w.calls.set i (.write bytes suffix pc' trace'))) := by
  have hreads : ∀ j, Holding StorageCall.reads (w.calls.set i (.write bytes suffix pc' trace')) j →
      Holding StorageCall.reads w.calls j ∧ i ≠ j := by
    intro j
    apply holding_set_of_eq_false
    rfl
  cases hmove with
  | keep holds =>
      refine hw.mono ?_ fun j hj => (hreads j hj).1
      intro j hj
      rcases holding_set hj with ⟨hj, -⟩ | ⟨rfl, hnew⟩
      · exact hj
      · exact ⟨_, hcall, (hpc.trans hpc'.symm).trans hnew⟩
  | acquire l' hlock =>
      refine hw.acquireExclusive hlock ?_ fun j hj => (hreads j hj).1
      intro j hj
      exact (holding_set hj).imp And.left fun h => h.1.symm
  | release =>
      exact hw.release (fun j => holding_set_of_eq_false hpc') hreads

/-- What a step of a read does to the lock is what the others expect. -/
theorem honours_read {i : Nat} {pc pc' : ReadPc E} {trace trace' : StorageTrace E}
    {holds holds' : Bool} {l : RwLock Nat}
    (hw : w.disk.fileLock.Honours (Holding StorageCall.writes w.calls)
      (Holding StorageCall.reads w.calls))
    (hcall : w.calls[i]? = some (.read pc trace)) (hpc : pc.holdsLock = holds)
    (hpc' : pc'.holdsLock = holds')
    (hmove : LockMoves i (RwLock.acquireShared i) w.disk.fileLock holds holds' l) :
    l.Honours (Holding StorageCall.writes (w.calls.set i (.read pc' trace')))
      (Holding StorageCall.reads (w.calls.set i (.read pc' trace'))) := by
  have hwrites : ∀ j, Holding StorageCall.writes (w.calls.set i (.read pc' trace')) j →
      Holding StorageCall.writes w.calls j ∧ i ≠ j := by
    intro j
    apply holding_set_of_eq_false
    rfl
  cases hmove with
  | keep holds =>
      refine hw.mono (fun j hj => (hwrites j hj).1) ?_
      intro j hj
      rcases holding_set hj with ⟨hj, -⟩ | ⟨rfl, hnew⟩
      · exact hj
      · exact ⟨_, hcall, (hpc.trans hpc'.symm).trans hnew⟩
  | acquire l' hlock =>
      refine hw.acquireShared hlock (fun j hj => (hwrites j hj).1) ?_
      intro j hj
      exact (holding_set hj).imp And.left fun h => h.1.symm
  | release =>
      exact hw.release hwrites fun j => holding_set_of_eq_false hpc'

/-- A step keeps the name of a call. -/
theorem distinct_set {i : Nat} {call call' : StorageCall E}
    (hw : ∀ (i j : Nat) (a b : StorageCall E), i ≠ j → w.calls[i]? = some a →
      w.calls[j]? = some b → ∀ tmpPath, a.tempPath path = some tmpPath →
      b.tempPath path ≠ some tmpPath)
    (hcall : w.calls[i]? = some call) (hname : call'.tempPath path = call.tempPath path)
    (j k : Nat) (a b : StorageCall E) (hjk : j ≠ k) (ha : (w.calls.set i call')[j]? = some a)
    (hb : (w.calls.set i call')[k]? = some b) (tmpPath : Path)
    (htmp : a.tempPath path = some tmpPath) : b.tempPath path ≠ some tmpPath := by
  have hold : ∀ (j : Nat) (a : StorageCall E), (w.calls.set i call')[j]? = some a →
      ∃ a', w.calls[j]? = some a' ∧ a.tempPath path = a'.tempPath path := by
    intro j a ha
    rcases getElem?_set_cases ha with ⟨rfl, rfl⟩ | ⟨-, ha⟩
    · exact ⟨call, hcall, hname⟩
    · exact ⟨a, ha, rfl⟩
  obtain ⟨a', ha', hsameA⟩ := hold j a ha
  obtain ⟨b', hb', hsameB⟩ := hold k b hb
  rw [hsameB]
  exact hw j k a' b' hjk ha' hb' tmpPath (hsameA ▸ htmp)

theorem sound_write {i : Nat} {bytes : Bytes} {suffix : Uuid} {pc pc' : WritePc E}
    {trace ops : StorageTrace E} {disk' : Disk} (hw : Sound path files w)
    (hcall : w.calls[i]? = some (.write bytes suffix pc trace))
    (hmove : WriteMoves path i bytes suffix w.disk pc pc' disk' ops) :
    Sound path files ⟨disk', w.calls.set i (.write bytes suffix pc' (trace ++ ops)),
      w.committed ++ if ops.renames then [(i, bytes)] else []⟩ := by
  have hstands : WriteStands path bytes suffix w.disk.files trace pc := hw.stands i _ hcall
  have hpath := hmove.files_path hstands
  have hi : i < w.calls.length := (List.getElem?_eq_some_iff.mp hcall).1
  refine
    { target := ?_
      committed := ?_
      stands := ?_
      honours := honours_write hw.honours hcall rfl rfl hmove.lockMoves
      distinct := distinct_set hw.distinct hcall rfl }
  · cases hrenames : ops.renames with
    | true =>
        rw [hrenames] at hpath
        exact hpath.trans (latest_append_singleton _ _ i bytes).symm
    | false =>
        rw [hrenames] at hpath
        simpa using hpath.trans hw.target
  · intro j b
    simp only [List.mem_append]
    constructor
    · rintro (hold | hnew)
      · obtain ⟨suffix', pc₀, trace₀, hj, hrenames⟩ := (hw.committed j b).mp hold
        by_cases hij : i = j
        · subst hij
          rw [hcall] at hj
          cases hj
          refine ⟨suffix, pc', trace ++ ops, List.getElem?_set_self hi, ?_⟩
          rw [StorageTrace.renames_append, hrenames, Bool.true_or]
        · exact ⟨suffix', pc₀, trace₀, (List.getElem?_set_ne hij).trans hj, hrenames⟩
      · split at hnew
        · rename_i hrenames
          cases List.mem_singleton.mp hnew
          refine ⟨suffix, pc', trace ++ ops, List.getElem?_set_self hi, ?_⟩
          rw [StorageTrace.renames_append, hrenames, Bool.or_true]
        · cases hnew
    · rintro ⟨suffix', pc₀, trace₀, hj, hrenames⟩
      rcases getElem?_set_cases hj with ⟨rfl, hsame⟩ | ⟨-, hold⟩
      · cases hsame
        rw [StorageTrace.renames_append, Bool.or_eq_true] at hrenames
        rcases hrenames with hbefore | hnow
        · exact Or.inl ((hw.committed i bytes).mpr ⟨_, _, _, hcall, hbefore⟩)
        · right
          rw [if_pos hnow]
          exact List.mem_singleton.mpr rfl
      · exact Or.inl ((hw.committed j b).mpr ⟨suffix', pc₀, trace₀, hold, hrenames⟩)
  · intro j a ha
    rcases getElem?_set_cases ha with ⟨rfl, rfl⟩ | ⟨hij, ha⟩
    · exact hmove.stands hstands
    · have hother := hw.stands j a ha
      cases a with
      | write bytes' suffix' pc₀ trace₀ =>
          refine WriteStands.congr ?_ hother
          intro tmpPath htmp
          refine hmove.files_of_ne hstands htmp ?_
          exact hw.distinct j i _ _ (Ne.symm hij) ha hcall tmpPath htmp
      | read pc₀ trace₀ =>
          refine ReadStands.congr ?_ (fun buf hbuf => hbuf.mono _) hother
          intro hholds
          rw [hpath, if_neg]
          intro hrenames
          have hwriter : Holding StorageCall.writes w.calls i :=
            ⟨_, hcall, hmove.holdsLock_of_renames hrenames⟩
          exact hw.honours.not_reads hwriter j ⟨_, ha, hholds⟩

theorem sound_read {i : Nat} {pc pc' : ReadPc E} {trace ops : StorageTrace E} {disk' : Disk}
    (hw : Sound path files w) (hcall : w.calls[i]? = some (.read pc trace))
    (hmove : ReadMoves path i w.disk pc pc' disk' ops) :
    Sound path files ⟨disk', w.calls.set i (.read pc' (trace ++ ops)), w.committed⟩ := by
  have hstands : ReadStands path (Complete (files path) w.committed) w.disk.files trace pc :=
    hw.stands i _ hcall
  have hpath : disk'.files path = w.disk.files path :=
    hmove.files_of_ne fun lockPath hlock => (lockPathFor_ne_path hlock).symm
  have hcomplete : ∀ content, w.disk.files path = some content →
      Complete (files path) w.committed content := by
    intro content hcontent
    exact complete_of_latest (hw.target.symm.trans hcontent)
  refine
    { target := hpath.trans hw.target
      committed := ?_
      stands := ?_
      honours := honours_read hw.honours hcall rfl rfl hmove.lockMoves
      distinct := distinct_set hw.distinct hcall rfl }
  · intro j b
    rw [hw.committed j b]
    refine exists_congr fun suffix => exists_congr fun pc₀ => exists_congr fun trace₀ =>
      and_congr_left fun _ => ?_
    constructor
    · intro hj
      refine (List.getElem?_set_ne ?_).trans hj
      rintro rfl
      rw [hcall] at hj
      cases hj
    · intro hj
      rcases getElem?_set_cases hj with ⟨-, hsame⟩ | ⟨-, hold⟩
      · cases hsame
      · exact hold
  · intro j a ha
    rcases getElem?_set_cases ha with ⟨rfl, rfl⟩ | ⟨-, ha⟩
    · exact hmove.stands hcomplete hstands
    · have hother := hw.stands j a ha
      cases a with
      | write bytes' suffix' pc₀ trace₀ =>
          refine WriteStands.congr ?_ hother
          intro tmpPath htmp
          exact hmove.files_of_ne fun lockPath hlock =>
            (lockPathFor_ne_tempPathOf hlock htmp).symm
      | read pc₀ trace₀ =>
          exact ReadStands.congr (fun _ => hpath) (fun buf hbuf => hbuf) hother

theorem sound_step {ev : StorageEvent E} (hw : Sound path files w)
    (hstep : w.step path ev = some w') : Sound path files w' := by
  rcases step_cases hstep with ⟨request, rfl, hfresh, rfl⟩ |
    ⟨i, answer, call, call', disk', more, rfl, hcall, hadvance, rfl⟩
  · exact sound_invoke hw hfresh
  · rcases StorageCall.advance_cases hadvance with
      ⟨bytes, suffix, pc, pc', trace, ops, rfl, rfl, hmove, rfl⟩ |
      ⟨pc, pc', trace, ops, rfl, rfl, hmove, rfl⟩
    · exact sound_write hw hcall hmove
    · rw [List.append_nil]
      exact sound_read hw hcall hmove

theorem sound_of_run {es : List (StorageEvent E)} (h : exec (step path) (new files) es = some w) :
    Sound path files w :=
  exec_invariant (Sound path files) (fun _ _ _ => sound_step) sound_new h

/-! ## What a run does to the vault file -/

/-- The write `i` is in its critical section and nothing was committed since `m`, unless by itself,
or it has returned. -/
def Secluded (i : Nat) (m s : StorageWorld E) : Prop :=
  (Holding StorageCall.writes s.calls i ∧
      (s.committed = m.committed ∨ ∃ bytes, (i, bytes) ∈ s.committed)) ∨
    ∃ bytes suffix result trace,
      s.calls[i]? = some (.write bytes suffix (.returned result) trace)

theorem committed_grows {ev : StorageEvent E} (hstep : w.step path ev = some w') :
    ∃ more, w'.committed = w.committed ++ more := by
  rcases step_cases hstep with ⟨request, rfl, -, rfl⟩ |
    ⟨i, answer, call, call', disk', more, rfl, -, -, rfl⟩
  · exact ⟨[], (List.append_nil _).symm⟩
  · exact ⟨more, rfl⟩

/-- Only the holder of the lock commits, and its own steps are those of a write. -/
theorem committed_step {i : Nat} {s s' : StorageWorld E} {ev : StorageEvent E}
    (hs : Sound path files s) (hi : Holding StorageCall.writes s.calls i)
    (hstep : s.step path ev = some s') :
    s'.committed = s.committed ∨ ∃ bytes, (i, bytes) ∈ s'.committed := by
  rcases step_cases hstep with ⟨request, rfl, -, rfl⟩ |
    ⟨j, answer, call, call', disk', more, rfl, hcall, hadvance, rfl⟩
  · exact Or.inl rfl
  · rcases StorageCall.advance_cases hadvance with
      ⟨bytes, suffix, pc, pc', trace, ops, rfl, rfl, hmove, rfl⟩ |
      ⟨pc, pc', trace, ops, rfl, rfl, hmove, rfl⟩
    · cases hrenames : ops.renames with
      | false => exact Or.inl (List.append_nil _)
      | true =>
          have hj : Holding StorageCall.writes s.calls j :=
            ⟨_, hcall, hmove.holdsLock_of_renames hrenames⟩
          obtain rfl := hs.honours.writer_unique hi hj
          exact Or.inr ⟨bytes, by simp⟩
    · exact Or.inl (List.append_nil _)

/-- A write stays in its critical section until it returns. -/
theorem holding_or_returned_step {i : Nat} {s s' : StorageWorld E} {ev : StorageEvent E}
    (hi : Holding StorageCall.writes s.calls i) (hstep : s.step path ev = some s') :
    Holding StorageCall.writes s'.calls i ∨ ∃ bytes suffix result trace,
      s'.calls[i]? = some (.write bytes suffix (.returned result) trace) := by
  obtain ⟨call, hcall, hwrites⟩ := hi
  have hlt : i < s.calls.length := (List.getElem?_eq_some_iff.mp hcall).1
  rcases step_cases hstep with ⟨request, rfl, -, rfl⟩ |
    ⟨j, answer, b, b', disk', more, rfl, hb, hadvance, rfl⟩
  · exact Or.inl ⟨call, (List.getElem?_append_left hlt).trans hcall, hwrites⟩
  · by_cases hji : j = i
    · subst hji
      rw [hcall] at hb
      cases hb
      rcases StorageCall.advance_cases hadvance with
        ⟨bytes, suffix, pc, pc', trace, ops, rfl, rfl, hmove, rfl⟩ |
        ⟨pc, pc', trace, ops, rfl, rfl, -, -⟩
      · rcases hmove.holdsLock_or_returned hwrites with hholds | ⟨result, rfl⟩
        · exact Or.inl ⟨_, List.getElem?_set_self hlt, hholds⟩
        · exact Or.inr ⟨bytes, suffix, result, trace ++ ops, List.getElem?_set_self hlt⟩
      · cases hwrites
    · exact Or.inl ⟨call, (List.getElem?_set_ne hji).trans hcall, hwrites⟩

/-- A call that has returned stays as it is. -/
theorem returned_step {i : Nat} {s s' : StorageWorld E} {ev : StorageEvent E} {bytes : Bytes}
    {suffix : Uuid} {result : Except (VaultStorageError E) Unit} {trace : StorageTrace E}
    (hcall : s.calls[i]? = some (.write bytes suffix (.returned result) trace))
    (hstep : s.step path ev = some s') :
    s'.calls[i]? = some (.write bytes suffix (.returned result) trace) := by
  rcases step_cases hstep with ⟨request, rfl, -, rfl⟩ |
    ⟨j, answer, b, b', disk', more, rfl, hb, hadvance, rfl⟩
  · have hlt : i < s.calls.length := (List.getElem?_eq_some_iff.mp hcall).1
    exact (List.getElem?_append_left hlt).trans hcall
  · by_cases hji : j = i
    · subst hji
      rw [hcall] at hb
      cases hb
      cases hadvance
    · exact (List.getElem?_set_ne hji).trans hcall

theorem secluded_step {i : Nat} {m s s' : StorageWorld E} {ev : StorageEvent E}
    (hs : Sound path files s) (h : Secluded i m s) (hstep : s.step path ev = some s') :
    Secluded i m s' := by
  rcases h with ⟨hholds, hcommitted⟩ | ⟨bytes, suffix, result, trace, hcall⟩
  · refine (holding_or_returned_step hholds hstep).imp_left fun hholds' => ⟨hholds', ?_⟩
    rcases hcommitted with hsame | ⟨bytes, hmem⟩
    · exact (committed_step hs hholds hstep).imp_left fun h => h.trans hsame
    · obtain ⟨more, hmore⟩ := committed_grows hstep
      right
      refine ⟨bytes, ?_⟩
      rw [hmore]
      exact List.mem_append_left more hmem
  · exact Or.inr ⟨bytes, suffix, result, trace, returned_step hcall hstep⟩

/-- Between two states in which a write holds the lock, the vault file stays as it is unless the
write renames. -/
theorem files_path_of_holding {i : Nat} {es : List (StorageEvent E)} {m : StorageWorld E}
    (hm : Sound path files m) (hi : Holding StorageCall.writes m.calls i)
    (h : exec (step path) m es = some w) (hi' : Holding StorageCall.writes w.calls i)
    (hnot : ∀ bytes, (i, bytes) ∉ w.committed) : w.disk.files path = m.disk.files path := by
  have hrun : Sound path files w ∧ Secluded i m w := by
    refine exec_invariant (fun s => Sound path files s ∧ Secluded i m s) ?_ ?_ h
    · rintro s ev s' ⟨hs, hsecluded⟩ hstep
      exact ⟨sound_step hs hstep, secluded_step hs hsecluded hstep⟩
    · exact ⟨hm, Or.inl ⟨hi, Or.inl rfl⟩⟩
  obtain ⟨hw, ⟨-, hsame | ⟨bytes, hmem⟩⟩ | ⟨_, _, _, _, hreturned⟩⟩ := hrun
  · rw [hw.target, hm.target, hsame]
  · exact absurd hmem (hnot bytes)
  · obtain ⟨call, hcall, hwrites⟩ := hi'
    rw [hreturned] at hcall
    cases hcall
    cases hwrites

theorem committed_grows_run {es : List (StorageEvent E)} {m : StorageWorld E} {r : Nat × Bytes}
    (h : exec (step path) m es = some w) (hmem : r ∈ m.committed) : r ∈ w.committed := by
  refine exec_invariant (fun s => r ∈ s.committed) ?_ hmem h
  intro s ev s' hs hstep
  obtain ⟨more, hmore⟩ := committed_grows hstep
  rw [hmore]
  exact List.mem_append_left more hs

/-- A step of the call `i` that is not a rename leaves the vault file alone. -/
theorem files_path_step {i : Nat} {answer : IoAnswer E} (hw : Sound path files w)
    (hstep : w.step path (.advance i answer) = some w')
    (hnot : ∀ bytes, (i, bytes) ∉ w'.committed) : w'.disk.files path = w.disk.files path := by
  have hsame : w'.committed = w.committed := by
    rcases step_cases hstep with ⟨request, hev, -, -⟩ |
      ⟨j, answer', call, call', disk', more, hev, -, hadvance, rfl⟩
    · cases hev
    · cases hev
      rcases StorageCall.advance_cases hadvance with
        ⟨bytes, suffix, pc, pc', trace, ops, rfl, rfl, -, rfl⟩ | ⟨_, _, _, _, -, -, -, rfl⟩
      · cases hrenames : ops.renames with
        | false => exact List.append_nil _
        | true => exact absurd (by simp [hrenames]) (hnot bytes)
      · exact List.append_nil _
  rw [(sound_step hw hstep).target, hw.target, hsame]

/-- Every write that is in the journal has renamed in a step of its own, and then the vault file
held its bytes. -/
theorem exists_rename {i : Nat} {bytes : Bytes} {es : List (StorageEvent E)}
    (h : exec (step path) (new files) es = some w) (hmem : (i, bytes) ∈ w.committed) :
    ∃ es₁ answer es₂ m m', es = es₁ ++ .advance i answer :: es₂ ∧
      exec (step path) (new files) es₁ = some m ∧ m.step path (.advance i answer) = some m' ∧
      m'.committed = m.committed ++ [(i, bytes)] ∧ m'.disk.files path = some bytes := by
  obtain ⟨es₁, ev, es₂, m, m', rfl, hm, hstep, hbefore, hafter⟩ :=
    exists_step_of_exec (P := fun s => (i, bytes) ∈ s.committed) List.not_mem_nil hmem h
  have htarget := (sound_step (sound_of_run hm) hstep).target
  rcases step_cases hstep with ⟨request, rfl, -, rfl⟩ |
    ⟨j, answer, call, call', disk', more, rfl, -, hadvance, rfl⟩
  · exact absurd hafter hbefore
  · have hnew := (List.mem_append.mp hafter).resolve_left hbefore
    have hmore : j = i ∧ more = [(i, bytes)] := by
      rcases StorageCall.advance_cases hadvance with
        ⟨bytes', suffix, pc, pc', trace, ops, rfl, rfl, -, rfl⟩ | ⟨_, _, _, _, -, -, -, rfl⟩
      · split at hnew
        · cases List.mem_singleton.mp hnew
          rename_i hrenames
          exact ⟨rfl, if_pos hrenames⟩
        · cases hnew
      · cases hnew
    obtain ⟨rfl, rfl⟩ := hmore
    refine ⟨es₁, answer, es₂, m, _, rfl, hm, hstep, rfl, ?_⟩
    rw [htarget, latest_append_singleton]

/-- The call has read this to the end. -/
def HasRead (buf : Bytes) : StorageCall E → Prop
  | .read (.leaving (.ok found)) _ | .read (.returned (.ok found)) _ => found = buf
  | _ => False

/-- A read comes to the end of the file where it has all of its content. -/
theorem hasRead_of_moves {i : Nat} {buf : Bytes} {disk disk' : Disk} {pc pc' : ReadPc E}
    {trace trace' ops : StorageTrace E} {complete : Bytes → Prop}
    (hstands : ReadStands path complete disk.files trace pc)
    (hmove : ReadMoves path i disk pc pc' disk' ops) (hbefore : ¬ HasRead buf (.read pc trace))
    (hafter : HasRead buf (.read pc' trace')) :
    pc = .reading buf ∧ disk.files path = some buf := by
  cases hmove with
  | finish found content hcontent hend =>
      obtain rfl : found = buf := hafter
      obtain ⟨-, content', hcontent', hprefix⟩ := hstands
      rw [hcontent] at hcontent'
      cases hcontent'
      obtain rfl := hprefix.eq_of_length_le hend
      exact ⟨rfl, hcontent⟩
  | leave result =>
      cases result with
      | ok found => exact absurd hafter hbefore
      | error e => exact hafter.elim
  | _ => exact hafter.elim

/-- Every read that has succeeded came to the end of the vault file in a state in which that held
just what the read returns. -/
theorem exists_read {i : Nat} {buf : Bytes} {trace : StorageTrace E} {es : List (StorageEvent E)}
    (h : exec (step path) (new files) es = some w)
    (hcall : w.calls[i]? = some (.read (.returned (.ok buf)) trace)) :
    ∃ es₁ es₂ m trace', es = es₁ ++ es₂ ∧ exec (step path) (new files) es₁ = some m ∧
      m.calls[i]? = some (.read (.reading buf) trace') ∧ m.disk.files path = some buf := by
  have hstart : ¬ ∃ call, (new files : StorageWorld E).calls[i]? = some call ∧
      HasRead buf call := by
    rintro ⟨call, hnone, -⟩
    cases hnone
  have hend : ∃ call, w.calls[i]? = some call ∧ HasRead buf call := ⟨_, hcall, rfl⟩
  obtain ⟨es₁, ev, es₂, m, m', rfl, hm, hstep, hbefore, call', hcall', hafter⟩ :=
    exists_step_of_exec (P := fun s => ∃ call, s.calls[i]? = some call ∧ HasRead buf call) hstart
      hend h
  have hread : ∃ trace', m.calls[i]? = some (.read (.reading buf) trace') ∧
      m.disk.files path = some buf := by
    rcases step_cases hstep with ⟨request, rfl, -, rfl⟩ |
      ⟨j, answer, b, b', disk', more, rfl, hb, hadvance, rfl⟩
    · rcases getElem?_append_singleton hcall' with hold | ⟨-, rfl⟩
      · exact absurd ⟨call', hold, hafter⟩ hbefore
      · cases request <;> exact hafter.elim
    · rcases getElem?_set_cases hcall' with ⟨rfl, rfl⟩ | ⟨-, hold⟩
      · rcases StorageCall.advance_cases hadvance with
          ⟨_, _, _, _, _, _, -, rfl, -, -⟩ | ⟨pc, pc', trace₀, ops, rfl, rfl, hmove, -⟩
        · exact hafter.elim
        · have hstands := (sound_of_run hm).stands j _ hb
          obtain ⟨rfl, hcontent⟩ := hasRead_of_moves hstands hmove
            (fun h => hbefore ⟨_, hb, h⟩) hafter
          exact ⟨trace₀, hb, hcontent⟩
      · exact absurd ⟨call', hold, hafter⟩ hbefore
  obtain ⟨trace', hreading, hcontent⟩ := hread
  exact ⟨es₁, ev :: es₂, m, trace', rfl, hm, hreading, hcontent⟩

/-- The call `i` leaves the vault file alone: none of its steps changes it, and nobody does from a
state in which the call holds the lock to another one. -/
def KeepsTarget (path : Path) (files : Path → Option Bytes) (es : List (StorageEvent E)) (i : Nat) :
    Prop :=
  (∀ es₁ answer es₂ m m', es = es₁ ++ .advance i answer :: es₂ →
      exec (step path) (new files) es₁ = some m → m.step path (.advance i answer) = some m' →
      m'.disk.files path = m.disk.files path) ∧
    ∀ es₁ es₂ es₃ m m', es = es₁ ++ (es₂ ++ es₃) → exec (step path) (new files) es₁ = some m →
      exec (step path) m es₂ = some m' → Holding StorageCall.writes m.calls i →
      Holding StorageCall.writes m'.calls i → m'.disk.files path = m.disk.files path

theorem keepsTarget {i : Nat} {es : List (StorageEvent E)}
    (h : exec (step path) (new files) es = some w) (hnot : ∀ bytes, (i, bytes) ∉ w.committed) :
    KeepsTarget path files es i := by
  constructor
  · rintro es₁ answer es₂ m m' rfl hm hstep
    obtain ⟨m₁, hm₁, hrest⟩ := exec_append_eq_some.mp h
    rw [hm] at hm₁
    cases hm₁
    obtain ⟨m₂, hm₂, hrest⟩ := exec_cons_eq_some.mp hrest
    rw [hstep] at hm₂
    cases hm₂
    apply files_path_step (sound_of_run hm) hstep
    intro bytes hmem
    exact hnot bytes (committed_grows_run hrest hmem)
  · rintro es₁ es₂ es₃ m m' rfl hm hm' hi hi'
    obtain ⟨m₁, hm₁, hrest⟩ := exec_append_eq_some.mp h
    rw [hm] at hm₁
    cases hm₁
    obtain ⟨m₂, hm₂, hrest⟩ := exec_append_eq_some.mp hrest
    rw [hm'] at hm₂
    cases hm₂
    apply files_path_of_holding (sound_of_run hm) hi hm' hi'
    intro bytes hmem
    exact hnot bytes (committed_grows_run hrest hmem)

/-- What a run leaves in the vault file, and what its calls return. -/
structure Transactional (path : Path) (files : Path → Option Bytes) (es : List (StorageEvent E))
    (w : StorageWorld E) : Prop where
  /-- the vault file has its initial content, or the bytes of the last write that renamed -/
  target : w.disk.files path = latest (files path) w.committed
  committed : ∀ i bytes, (i, bytes) ∈ w.committed ↔
    ∃ suffix pc trace, w.calls[i]? = some (.write bytes suffix pc trace) ∧ trace.renames = true
  /-- a read returns what the vault file held in a state in which the read had the lock -/
  reads : ∀ (i : Nat) buf trace, w.calls[i]? = some (.read (.returned (.ok buf)) trace) →
    Complete (files path) w.committed buf ∧ ∃ es₁ es₂ m trace', es = es₁ ++ es₂ ∧
      exec (step path) (new files) es₁ = some m ∧
      m.calls[i]? = some (.read (.reading buf) trace') ∧ m.disk.files path = some buf
  /-- a write returns the first error of its operations -/
  result : ∀ (i : Nat) bytes suffix result trace,
    w.calls[i]? = some (.write bytes suffix (.returned result) trace) → result = trace.result
  /-- a write that fails at or before its rename -/
  failed : ∀ (i : Nat) bytes suffix e trace,
    w.calls[i]? = some (.write bytes suffix (.returned (.error e)) trace) →
      trace.renames = false → KeepsTarget path files es i
  /-- a write that succeeds had its bytes in the vault file when it renamed -/
  succeeded : ∀ (i : Nat) bytes suffix trace,
    w.calls[i]? = some (.write bytes suffix (.returned (.ok ())) trace) →
      ∃ es₁ answer es₂ m m', es = es₁ ++ .advance i answer :: es₂ ∧
        exec (step path) (new files) es₁ = some m ∧ m.step path (.advance i answer) = some m' ∧
        m'.committed = m.committed ++ [(i, bytes)] ∧ m'.disk.files path = some bytes
  /-- nothing is left of the temporary file of a write that has returned -/
  cleaned : ∀ (i : Nat) bytes suffix result trace,
    w.calls[i]? = some (.write bytes suffix (.returned result) trace) →
      NoTemp path suffix w.disk.files ∨ trace.removeFails = true

/-- A vault file in a directory. -/
def samplePath : Path where
  rooted := true
  components := [.normal "home".toList, .normal "vault.bin".toList]

/-- Two writes and a read: the first write succeeds, the second one waits for the lock and fails to
write its file, and the read takes the content in two parts. -/
def twoWritesAndRead : List (StorageEvent Nat) :=
  [.invoke (.writeVaultAtomic [1, 2] 1), .invoke (.writeVaultAtomic [3] 2), .advance 0 .done,
   .advance 1 .done, .advance 0 .done, .advance 1 .done, .advance 0 .done, .advance 0 .done,
   .advance 0 (.moved 1), .advance 0 (.moved 1), .advance 0 .done, .advance 0 .done,
   .advance 0 .done, .advance 0 .done, .advance 0 .done,
   -- the lock is free again
   .advance 1 .done, .advance 1 .done, .advance 1 (.failed 28), .advance 1 .done,
   .advance 1 .done, .invoke .readVaultLocked, .advance 2 .done, .advance 2 .done,
   .advance 2 .done, .advance 2 .done, .advance 2 (.moved 1), .advance 2 (.moved 1),
   .advance 2 .done, .advance 2 .done]

/-- Whatever fails and whatever the interleaving, writes are all-or-nothing. -/
theorem writes_are_transactional {es : List (StorageEvent E)}
    (h : exec (step path) (new files) es = some w) : Transactional path files es w := by
  have hw := sound_of_run h
  refine
    { target := hw.target
      committed := hw.committed
      reads := ?_
      result := ?_
      failed := ?_
      succeeded := ?_
      cleaned := ?_ }
  · intro i buf trace hcall
    exact ⟨(hw.stands i _ hcall).2, exists_read h hcall⟩
  · intro i bytes suffix result trace hcall
    exact (hw.stands i _ hcall).1
  · intro i bytes suffix e trace hcall hrenames
    apply keepsTarget h
    intro bytes' hmem
    obtain ⟨_, _, _, hcall', hrenames'⟩ := (hw.committed i bytes').mp hmem
    rw [hcall] at hcall'
    cases hcall'
    rw [hrenames] at hrenames'
    cases hrenames'
  · intro i bytes suffix trace hcall
    apply exists_rename h
    exact (hw.committed i bytes).mpr ⟨suffix, _, trace, hcall, (hw.stands i _ hcall).2.1 rfl⟩
  · intro i bytes suffix result trace hcall
    exact (hw.stands i _ hcall).2.2

/-- The theorem on two writes and a read. -/
theorem writes_are_transactional_twoWritesAndRead :
    ∃ w : StorageWorld Nat, Transactional samplePath (fun _ => none) twoWritesAndRead w ∧
      w.committed = [(0, [1, 2])] ∧ w.disk.files samplePath = some [1, 2] ∧
      (∃ trace, w.calls[1]? = some (.write [3] 2 (.returned (.error (.io 28))) trace)) ∧
      ∃ trace, w.calls[2]? = some (.read (.returned (.ok [1, 2])) trace) := by
  have hrun : ∃ w : StorageWorld Nat,
      exec (step samplePath) (new fun _ => none) twoWritesAndRead = some w ∧
      w.committed = [(0, [1, 2])] ∧ w.disk.files samplePath = some [1, 2] ∧
      (∃ trace, w.calls[1]? = some (.write [3] 2 (.returned (.error (.io 28))) trace)) ∧
      ∃ trace, w.calls[2]? = some (.read (.returned (.ok [1, 2])) trace) :=
    ⟨_, rfl, rfl, rfl, ⟨_, rfl⟩, _, rfl⟩
  obtain ⟨w, h, hfacts⟩ := hrun
  exact ⟨w, writes_are_transactional h, hfacts⟩

end StorageWorld

end ViperVault
