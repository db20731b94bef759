import ViperVault.Foundation.Weights
import ViperVault.Vault.StorageRuns

/-!
# Storage calls come to an end

The lock is held by calls in their critical sections only, so no failure leaves it behind and no
call waits for ever: where nothing fails that could be done, the calls go on until all of them have
returned, and there is a bound on the steps that this takes.
-/

namespace ViperVault

open Foundation

variable {E : Type}

namespace StorageCall

/-- The call has returned. -/
def HasReturned : StorageCall E → Prop
  | .write _ _ (.returned _) _ => True
  | .read (.returned _) _ => True
  | _ => False

/-- The call has returned with success. -/
def Succeeded : StorageCall E → Prop
  | .write _ _ (.returned (.ok ())) _ => True
  | .read (.returned (.ok _)) _ => True
  | _ => False

/-- No operation of the call has failed, and there is something to read. -/
def Unspoiled (path : Path) (files : Path → Option Bytes) : StorageCall E → Prop
  | .write _ _ _ trace => trace.firstError = none
  | .read _ trace => trace.firstError = none ∧ files path ≠ none

/-- The next operation needs a file that is not there. -/
def Lacks (path : Path) (files : Path → Option Bytes) : StorageCall E → Prop
  | .write _ _ (.cleaning tmpPath _) _ => files tmpPath = none
  | .read .opening _ => files path = none
  | _ => False

/-- The bytes that the call writes. -/
def size : StorageCall E → Nat
  | .write bytes _ _ _ => bytes.length
  | .read _ _ => 0

end StorageCall

/-! ## Steps that are left -/

/-- The steps that a write takes at most. -/
def WritePc.stepsLeft (bytes : Bytes) : WritePc E → Nat
  | .start => bytes.length + 10
  | .openingLock => bytes.length + 9
  | .locking => bytes.length + 8
  | .creating => bytes.length + 7
  | .writing _ written => bytes.length - written + 6
  | .syncing _ => 5
  | .committing _ => 4
  | .syncingDir _ => 3
  | .cleaning _ _ => 2
  | .leaving _ => 1
  | .returned _ => 0

/-- The steps that a read takes at most, of a file of at most so many bytes. -/
def ReadPc.stepsLeft (longest : Nat) : ReadPc E → Nat
  | .openingLock => longest + 6
  | .locking => longest + 5
  | .opening => longest + 4
  | .seeking => longest + 3
  | .reading buf => longest - buf.length + 2
  | .leaving _ => 1
  | .returned _ => 0

/-- The steps that a call takes at most. -/
def StorageCall.stepsLeft (longest : Nat) : StorageCall E → Nat
  | .write bytes _ pc _ => pc.stepsLeft bytes
  | .read pc _ => pc.stepsLeft longest

section Steps

variable {path : Path} {i : Nat} {bytes : Bytes} {suffix : Uuid} {disk disk' : Disk}
  {answer : IoAnswer E} {more : StorageTrace E}

theorem WritePc.stepsLeft_lt {pc pc' : WritePc E}
    (h : pc.advance path i bytes suffix disk answer = some (pc', disk', more)) :
    pc'.stepsLeft bytes < pc.stepsLeft bytes := by
  cases moves_of_advance h with
  | write tmpPath written n hn =>
      -- the write has moved, so the operating system took some bytes
      have hpos : 0 < n := by
        cases answer with
        | moved m =>
            obtain ⟨⟨hm, -⟩, hsame⟩ := Option.ite_none_right_eq_some.mp h
            simp only [Option.some.injEq, Prod.mk.injEq, WritePc.writing.injEq] at hsame
            omega
        | done =>
            simp only [advance] at h
            rcases ioStep_eq_some h with ⟨-, hmore⟩ | ⟨e, -, -, hmore⟩ <;> cases hmore
        | failed e => cases h
      simp only [stepsLeft]
      omega
  | _ =>
      simp only [stepsLeft]
      omega

theorem ReadPc.stepsLeft_lt {longest : Nat} {pc pc' : ReadPc E}
    (hlong : ∀ content, disk.files path = some content → content.length ≤ longest)
    (h : pc.advance path i disk answer = some (pc', disk', more)) :
    pc'.stepsLeft longest < pc.stepsLeft longest := by
  cases moves_of_advance h with
  | read buf content n hcontent =>
      have hle := hlong content hcontent
      -- the buffer has grown, so the operating system gave some bytes of the file
      have hgrown : buf.length < (buf ++ (content.drop buf.length).take n).length ∧
          (buf ++ (content.drop buf.length).take n).length ≤ content.length := by
        cases answer with
        | moved m =>
            simp only [advance, hcontent, Option.bind_some] at h
            obtain ⟨⟨hm, hend⟩, hsame⟩ := Option.ite_none_right_eq_some.mp h
            simp only [Option.some.injEq, Prod.mk.injEq, ReadPc.reading.injEq] at hsame
            rw [← hsame.1, List.length_append, List.length_take, List.length_drop]
            omega
        | done =>
            simp only [advance] at h
            rcases ioStep_eq_some h with ⟨-, hmore⟩ | ⟨e, -, -, hmore⟩ <;> cases hmore
        | failed e => cases h
      simp only [stepsLeft]
      omega
  | _ =>
      simp only [stepsLeft, List.length_nil]
      omega

end Steps

namespace StorageWorld

variable {path : Path} {files : Path → Option Bytes} {w w' : StorageWorld E}

/-- At least as long as every content that the vault file can have. -/
def longest (initial : Option Bytes) (w : StorageWorld E) : Nat :=
  initial.elim 0 List.length + weight StorageCall.size w.calls

/-- The steps that the calls take at most. -/
def stepsLeft (initial : Option Bytes) (w : StorageWorld E) : Nat :=
  weight (StorageCall.stepsLeft (w.longest initial)) w.calls

/-- The event is not a new call. -/
def IsAdvance : StorageEvent E → Prop
  | .invoke _ => False
  | .advance _ _ => True

theorem length_le_longest (hw : Sound path files w) {content : Bytes}
    (h : w.disk.files path = some content) : content.length ≤ w.longest (files path) := by
  rcases complete_of_latest (hw.target.symm.trans h) with hinitial | ⟨i, hi⟩
  · rw [longest, hinitial]
    exact Nat.le_add_right _ _
  · obtain ⟨suffix, pc, trace, hcall, -⟩ := (hw.committed i content).mp hi
    have hsize : content.length ≤ weight StorageCall.size w.calls :=
      le_weight (f := StorageCall.size) (List.mem_of_getElem? hcall)
    exact hsize.trans (Nat.le_add_left _ _)

/-- A call takes one of the steps that are left. -/
theorem stepsLeft_step {ev : StorageEvent E} (hw : Sound path files w) (hev : IsAdvance ev)
    (h : w.step path ev = some w') :
    w'.stepsLeft (files path) < w.stepsLeft (files path) := by
  rcases step_cases h with ⟨request, rfl, -, -⟩ |
    ⟨i, answer, call, call', disk', more, rfl, hcall, hadvance, rfl⟩
  · exact hev.elim
  · have hfewer : call'.size = call.size ∧ call'.stepsLeft (w.longest (files path)) <
        call.stepsLeft (w.longest (files path)) := by
      cases call with
      | write bytes suffix pc trace =>
          obtain ⟨⟨pc', disk₁, ops⟩, hpc, hsame⟩ := Option.map_eq_some_iff.mp hadvance
          cases hsame
          exact ⟨rfl, WritePc.stepsLeft_lt hpc⟩
      | read pc trace =>
          obtain ⟨⟨pc', disk₁, ops⟩, hpc, hsame⟩ := Option.map_eq_some_iff.mp hadvance
          cases hsame
          exact ⟨rfl, ReadPc.stepsLeft_lt (fun _ => length_le_longest hw) hpc⟩
    obtain ⟨hsize, hfewer⟩ := hfewer
    have hsizes := weight_set (f := StorageCall.size) hcall call'
    have hlongest : longest (files path) ⟨disk', w.calls.set i call', w.committed ++ more⟩ =
        w.longest (files path) := by
      simp only [longest]
      omega
    have hsteps := weight_set (f := StorageCall.stepsLeft (w.longest (files path))) hcall call'
    simp only [stepsLeft, hlongest]
    omega

/-- However the calls go on, they do not take more steps than are left. -/
theorem length_le_stepsLeft {es : List (StorageEvent E)} (hw : Sound path files w)
    (hes : ∀ ev ∈ es, IsAdvance ev) (h : exec (step path) w es = some w') :
    es.length + w'.stepsLeft (files path) ≤ w.stepsLeft (files path) := by
  induction es generalizing w with
  | nil =>
      cases h
      exact (Nat.zero_add _).le
  | cons ev es ih =>
      obtain ⟨m, hm, h⟩ := exec_cons_eq_some.mp h
      obtain ⟨hev, hes⟩ := List.forall_mem_cons.mp hes
      have hfirst := stepsLeft_step hw hev hm
      have hrest := ih (sound_step hw hm) hes h
      rw [List.length_cons]
      omega

/-! ## Who holds the lock -/

/-- Every holder of the lock is in its critical section. -/
def Accounted (w : StorageWorld E) : Prop :=
  w.disk.fileLock.Accounts (Holding StorageCall.writes w.calls) (Holding StorageCall.reads w.calls)

theorem holding_append_left {p : StorageCall E → Bool} {calls : List (StorageCall E)} {j : Nat}
    (call : StorageCall E) (h : Holding p calls j) : Holding p (calls ++ [call]) j := by
  obtain ⟨other, hother, hp⟩ := h
  exact ⟨other, (List.getElem?_append_left (List.getElem?_eq_some_iff.mp hother).1).trans hother,
    hp⟩

theorem holding_set_of_ne {p : StorageCall E → Bool} {calls : List (StorageCall E)} {i j : Nat}
    (call : StorageCall E) (hij : i ≠ j) (h : Holding p calls j) :
    Holding p (calls.set i call) j := by
  obtain ⟨other, hother, hp⟩ := h
  exact ⟨other, (List.getElem?_set_ne hij).trans hother, hp⟩

theorem holding_set_self {p : StorageCall E → Bool} {calls : List (StorageCall E)} {i : Nat}
    {call call' : StorageCall E} (hcall : calls[i]? = some call) (hp : p call' = true) :
    Holding p (calls.set i call') i :=
  ⟨call', List.getElem?_set_self (List.getElem?_eq_some_iff.mp hcall).1, hp⟩

/-- A step of a call that holds as before keeps the holders. -/
theorem holding_set_of_eq {p : StorageCall E → Bool} {calls : List (StorageCall E)} {i j : Nat}
    {call call' : StorageCall E} (hcall : calls[i]? = some call) (hp : p call' = p call)
    (h : Holding p calls j) : Holding p (calls.set i call') j := by
  by_cases hij : i = j
  · subst hij
    obtain ⟨other, hother, hholds⟩ := h
    obtain rfl : call = other := Option.some.inj (hcall.symm.trans hother)
    exact holding_set_self hcall (hp.trans hholds)
  · exact holding_set_of_ne call' hij h

/-- A write that acquires the lock is in its critical section, and one that leaves it has released
the lock. -/
theorem accounts_write {i : Nat} {bytes : Bytes} {suffix : Uuid} {pc pc' : WritePc E}
    {trace trace' : StorageTrace E} {holds holds' : Bool} {l : RwLock Nat} (hw : Accounted w)
    (hcall : w.calls[i]? = some (.write bytes suffix pc trace)) (hpc : pc.holdsLock = holds)
    (hpc' : pc'.holdsLock = holds')
    (hmove : LockMoves i (RwLock.acquireExclusive i) w.disk.fileLock holds holds' l) :
    l.Accounts (Holding StorageCall.writes (w.calls.set i (.write bytes suffix pc' trace')))
      (Holding StorageCall.reads (w.calls.set i (.write bytes suffix pc' trace'))) := by
  cases hmove with
  | keep holds =>
      refine hw.mono (fun j => holding_set_of_eq hcall ?_) fun j => holding_set_of_eq hcall rfl
      exact hpc'.trans hpc.symm
  | acquire l' hlock => exact RwLock.accounts_acquireExclusive hlock (holding_set_self hcall hpc')
  | release =>
      exact hw.release (fun j hj hne => holding_set_of_ne _ hne hj)
        fun j hj hne => holding_set_of_ne _ hne hj

/-- The same for a read. -/
theorem accounts_read {i : Nat} {pc pc' : ReadPc E} {trace trace' : StorageTrace E}
    {holds holds' : Bool} {l : RwLock Nat} (hw : Accounted w)
    (hcall : w.calls[i]? = some (.read pc trace)) (hpc : pc.holdsLock = holds)
    (hpc' : pc'.holdsLock = holds')
    (hmove : LockMoves i (RwLock.acquireShared i) w.disk.fileLock holds holds' l) :
    l.Accounts (Holding StorageCall.writes (w.calls.set i (.read pc' trace')))
      (Holding StorageCall.reads (w.calls.set i (.read pc' trace'))) := by
  cases hmove with
  | keep holds =>
      refine hw.mono (fun j => holding_set_of_eq hcall rfl) fun j => holding_set_of_eq hcall ?_
      exact hpc'.trans hpc.symm
  | acquire l' hlock =>
      have hself : Holding StorageCall.reads (w.calls.set i (.read pc' trace')) i :=
        holding_set_self hcall hpc'
      refine hw.acquireShared hlock hself fun j hj => ?_
      by_cases hij : i = j
      · exact hij ▸ hself
      · exact holding_set_of_ne _ hij hj
  | release =>
      exact hw.release (fun j hj hne => holding_set_of_ne _ hne hj)
        fun j hj hne => holding_set_of_ne _ hne hj

theorem accounted_step {ev : StorageEvent E} (hw : Accounted w) (h : w.step path ev = some w') :
    Accounted w' := by
  rcases step_cases h with ⟨request, rfl, -, rfl⟩ |
    ⟨i, answer, call, call', disk', more, rfl, hcall, hadvance, rfl⟩
  · exact hw.mono (fun j => holding_append_left _) fun j => holding_append_left _
  · rcases StorageCall.advance_cases hadvance with
      ⟨bytes, suffix, pc, pc', trace, ops, rfl, rfl, hmove, -⟩ |
      ⟨pc, pc', trace, ops, rfl, rfl, hmove, -⟩
    · exact accounts_write hw hcall rfl rfl hmove.lockMoves
    · exact accounts_read hw hcall rfl rfl hmove.lockMoves

/-- Nobody who holds the lock: it is free. -/
theorem Accounted.free (hw : Accounted w)
    (h : ∀ call ∈ w.calls, call.writes = false ∧ call.reads = false) :
    w.disk.fileLock = .free := by
  refine hw.eq_free ?_ ?_
  · rintro i ⟨call, hcall, hwrites⟩
    rw [(h call (List.mem_of_getElem? hcall)).1] at hwrites
    cases hwrites
  · rintro i ⟨call, hcall, hreads⟩
    rw [(h call (List.mem_of_getElem? hcall)).2] at hreads
    cases hreads

/-! ## Progress -/

/-- The write has not written more than its bytes. -/
def InBounds : StorageCall E → Prop
  | .write bytes _ (.writing _ written) _ => written ≤ bytes.length
  | _ => True

theorem inBounds_step {ev : StorageEvent E} (hw : ∀ call ∈ w.calls, InBounds call)
    (h : w.step path ev = some w') : ∀ call ∈ w'.calls, InBounds call := by
  rcases step_cases h with ⟨request, rfl, -, rfl⟩ |
    ⟨i, answer, call, call', disk', more, rfl, hcall, hadvance, rfl⟩
  · intro call hcall
    rcases List.mem_append.mp hcall with hold | hnew
    · exact hw call hold
    · rw [List.mem_singleton.mp hnew]
      cases request <;> trivial
  · intro b hb
    rcases List.mem_or_eq_of_mem_set hb with hold | rfl
    · exact hw b hold
    · rcases StorageCall.advance_cases hadvance with
        ⟨bytes, suffix, pc, pc', trace, ops, rfl, rfl, hmove, -⟩ |
        ⟨pc, pc', trace, ops, rfl, rfl, hmove, -⟩
      · cases hmove with
        | write tmpPath written n hn => exact hn
        | create tmpPath htmp => exact Nat.zero_le _
        | _ => trivial
      · trivial

/-- The operation does not fail, or it could not be done. -/
def Faultless (path : Path) (w : StorageWorld E) : StorageEvent E → Prop
  | .advance i (.failed _) => ∃ call, w.calls[i]? = some call ∧ call.Lacks path w.disk.files
  | _ => True

/-- The call can go on without a fault. -/
def CanAdvance (path : Path) (i : Nat) (disk : Disk) (call : StorageCall E) : Prop :=
  ∃ answer, (call.advance path i disk answer).isSome ∧
    ((∀ e, answer ≠ .failed e) ∨ call.Lacks path disk.files)

/-- What a write in its critical section waits for is there. -/
theorem canAdvance_write {i : Nat} {bytes : Bytes} {suffix : Uuid} {pc : WritePc E}
    {trace : StorageTrace E} {disk : Disk} (notFound : E)
    (hstands : WriteStands path bytes suffix disk.files trace pc)
    (hbounds : InBounds (.write bytes suffix pc trace)) (hholds : pc.holdsLock = true) :
    CanAdvance path i disk (.write bytes suffix pc trace) := by
  cases pc with
  | start => cases hholds
  | openingLock => cases hholds
  | locking => cases hholds
  | returned result => cases hholds
  | creating =>
      refine ⟨.done, ?_, Or.inl fun e => by rintro ⟨⟩⟩
      cases htmp : tempPathOf path suffix with
      | none => simp [StorageCall.advance, WritePc.advance, htmp]
      | some tmpPath =>
          have hnone : disk.files tmpPath = none := hstands.2.2 tmpPath htmp
          simp [StorageCall.advance, WritePc.advance, htmp, hnone, ioStep]
  | writing tmpPath written =>
      have hle : written ≤ bytes.length := hbounds
      by_cases hall : written = bytes.length
      · refine ⟨.done, ?_, Or.inl fun e => by rintro ⟨⟩⟩
        simp [StorageCall.advance, WritePc.advance, ioStep, hall]
      · refine ⟨.moved (bytes.length - written), ?_, Or.inl fun e => by rintro ⟨⟩⟩
        have hmove : 0 < bytes.length - written ∧
            written + (bytes.length - written) ≤ bytes.length := by omega
        simp only [StorageCall.advance, WritePc.advance, if_pos hmove]
        rfl
  | syncing tmpPath => exact ⟨.done, rfl, Or.inl fun e => by rintro ⟨⟩⟩
  | committing tmpPath =>
      refine ⟨.done, ?_, Or.inl fun e => by rintro ⟨⟩⟩
      simp [StorageCall.advance, WritePc.advance, ioStep, hstands.2.2.2]
  | syncingDir tmpPath => exact ⟨.done, rfl, Or.inl fun e => by rintro ⟨⟩⟩
  | cleaning tmpPath e =>
      cases hfile : disk.files tmpPath with
      | none => exact ⟨.failed notFound, rfl, Or.inr hfile⟩
      | some content =>
          refine ⟨.done, ?_, Or.inl fun e => by rintro ⟨⟩⟩
          simp [StorageCall.advance, WritePc.advance, ioStep, hfile]
  | leaving result => exact ⟨.done, rfl, Or.inl fun e => by rintro ⟨⟩⟩

/-- What a read in its critical section waits for is there. -/
theorem canAdvance_read {i : Nat} {complete : Bytes → Prop} {pc : ReadPc E}
    {trace : StorageTrace E} {disk : Disk} (notFound : E)
    (hstands : ReadStands path complete disk.files trace pc) (hholds : pc.holdsLock = true) :
    CanAdvance path i disk (.read pc trace) := by
  cases pc with
  | openingLock => cases hholds
  | locking => cases hholds
  | returned result => cases hholds
  | opening =>
      cases hfile : disk.files path with
      | none => exact ⟨.failed notFound, rfl, Or.inr hfile⟩
      | some content =>
          refine ⟨.done, ?_, Or.inl fun e => by rintro ⟨⟩⟩
          simp [StorageCall.advance, ReadPc.advance, ioStep, hfile]
  | seeking => exact ⟨.done, rfl, Or.inl fun e => by rintro ⟨⟩⟩
  | reading buf =>
      obtain ⟨-, content, hfile, hprefix⟩ := hstands
      by_cases hend : content.length ≤ buf.length
      · refine ⟨.done, ?_, Or.inl fun e => by rintro ⟨⟩⟩
        simp [StorageCall.advance, ReadPc.advance, ioStep, hfile, hend]
      · refine ⟨.moved (content.length - buf.length), ?_, Or.inl fun e => by rintro ⟨⟩⟩
        have hmove : 0 < content.length - buf.length ∧
            buf.length + (content.length - buf.length) ≤ content.length := by omega
        simp only [StorageCall.advance, ReadPc.advance, hfile, Option.bind_some, if_pos hmove]
        rfl
  | leaving result => exact ⟨.done, rfl, Or.inl fun e => by rintro ⟨⟩⟩

/-- A call outside its critical section goes on if the lock is free. -/
theorem canAdvance_outside {i : Nat} {call : StorageCall E} {disk : Disk}
    (hfree : disk.fileLock = .free) (hwrites : call.writes = false) (hreads : call.reads = false)
    (hopen : ¬ call.HasReturned) : CanAdvance path i disk call := by
  have hopenLock {Pc : Type} (onDone : Pc) (onError : VaultStorageError E → Pc) :
      (openLockFile path disk onDone onError .done).isSome := by
    unfold openLockFile
    split <;> rfl
  cases call with
  | write bytes suffix pc trace =>
      cases pc with
      | start =>
          refine ⟨.done, ?_, Or.inl fun e => by rintro ⟨⟩⟩
          simp only [StorageCall.advance, WritePc.advance, Option.isSome_map]
          split <;> rfl
      | openingLock =>
          refine ⟨.done, ?_, Or.inl fun e => by rintro ⟨⟩⟩
          simp only [StorageCall.advance, WritePc.advance, Option.isSome_map]
          exact hopenLock _ _
      | locking =>
          refine ⟨.done, ?_, Or.inl fun e => by rintro ⟨⟩⟩
          simp [StorageCall.advance, WritePc.advance, ioStep, hfree, RwLock.free,
            RwLock.acquireExclusive]
      | returned result => exact absurd trivial hopen
      | _ => cases hwrites
  | read pc trace =>
      cases pc with
      | openingLock =>
          refine ⟨.done, ?_, Or.inl fun e => by rintro ⟨⟩⟩
          simp only [StorageCall.advance, ReadPc.advance, Option.isSome_map]
          exact hopenLock _ _
      | locking =>
          refine ⟨.done, ?_, Or.inl fun e => by rintro ⟨⟩⟩
          simp [StorageCall.advance, ReadPc.advance, ioStep, hfree, RwLock.free,
            RwLock.acquireShared]
      | returned result => exact absurd trivial hopen
      | _ => cases hreads

theorem CanAdvance.exists_step {i : Nat} {call : StorageCall E} (hcall : w.calls[i]? = some call)
    (h : CanAdvance path i w.disk call) :
    ∃ answer, Faultless path w (.advance i answer) ∧ (w.step path (.advance i answer)).isSome := by
  obtain ⟨answer, hadvance, hfault⟩ := h
  refine ⟨answer, ?_, ?_⟩
  · cases answer with
    | failed e => exact ⟨call, hcall, hfault.resolve_left fun h => h e rfl⟩
    | _ => trivial
  · simpa [step, hcall] using hadvance

/-- As long as a call has not returned, some call can go on without a fault: one in its critical
section, or any if there is none. -/
theorem exists_faultless_step (notFound : E) (hw : Sound path files w) (hlock : Accounted w)
    (hbounds : ∀ call ∈ w.calls, InBounds call) (hopen : ∃ call ∈ w.calls, ¬ call.HasReturned) :
    ∃ i answer, Faultless path w (.advance i answer) ∧
      (w.step path (.advance i answer)).isSome := by
  by_cases hholder : ∃ call ∈ w.calls, call.writes = true ∨ call.reads = true
  · obtain ⟨call, hmem, hholds⟩ := hholder
    obtain ⟨i, hcall⟩ := List.getElem?_of_mem hmem
    have hstands := hw.stands i call hcall
    refine ⟨i, CanAdvance.exists_step hcall ?_⟩
    cases call with
    | write bytes suffix pc trace =>
        have hpc : pc.holdsLock = true := hholds.resolve_right (by rintro ⟨⟩)
        exact canAdvance_write notFound hstands (hbounds _ hmem) hpc
    | read pc trace =>
        have hpc : pc.holdsLock = true := hholds.resolve_left (by rintro ⟨⟩)
        exact canAdvance_read notFound hstands hpc
  · have hnone : ∀ call ∈ w.calls, call.writes = false ∧ call.reads = false := by
      intro call hcall
      rw [← Bool.not_eq_true, ← Bool.not_eq_true, ← not_or]
      exact fun h => hholder ⟨call, hcall, h⟩
    obtain ⟨call, hmem, hnot⟩ := hopen
    obtain ⟨i, hcall⟩ := List.getElem?_of_mem hmem
    refine ⟨i, CanAdvance.exists_step hcall ?_⟩
    exact canAdvance_outside (hlock.free hnone) (hnone call hmem).1 (hnone call hmem).2 hnot

/-! ## Success -/

/-- The call at that place meets no failure. -/
def UnspoiledAt (path : Path) (w : StorageWorld E) (i : Nat) : Prop :=
  ∃ call, w.calls[i]? = some call ∧ call.Unspoiled path w.disk.files

/-- Writes replace the vault file, and nothing removes it. -/
theorem files_path_ne_none_step {ev : StorageEvent E} (hw : Sound path files w)
    (h : w.step path ev = some w') (hfile : w.disk.files path ≠ none) :
    w'.disk.files path ≠ none := by
  obtain ⟨more, hmore⟩ := committed_grows h
  rw [(sound_step hw h).target, hmore]
  rcases List.eq_nil_or_concat more with rfl | ⟨more, ⟨i, bytes⟩, rfl⟩
  · rwa [List.append_nil, ← hw.target]
  · rw [List.concat_eq_append, ← List.append_assoc, latest_append_singleton]
    exact Option.some_ne_none bytes

/-- A call that meets no failure lacks nothing. -/
theorem not_lacks_of_unspoiled {i : Nat} {call : StorageCall E} (hw : Sound path files w)
    (hcall : w.calls[i]? = some call) (h : call.Unspoiled path w.disk.files) :
    ¬ call.Lacks path w.disk.files := by
  intro hlacks
  have hstands := hw.stands i call hcall
  cases call with
  | write bytes suffix pc trace =>
      cases pc with
      | cleaning tmpPath e =>
          obtain ⟨herror, -⟩ := hstands
          rw [h] at herror
          cases herror
      | _ => exact hlacks
  | read pc trace =>
      cases pc with
      | opening => exact h.2 hlacks
      | _ => exact hlacks

/-- What has met no failure by the time that it returns has succeeded. -/
theorem succeeded_of_unspoiled {i : Nat} {call : StorageCall E} (hw : Sound path files w)
    (hcall : w.calls[i]? = some call) (hun : call.Unspoiled path w.disk.files)
    (hreturned : call.HasReturned) : call.Succeeded := by
  have hstands := hw.stands i call hcall
  cases call with
  | write bytes suffix pc trace =>
      cases pc with
      | returned result =>
          obtain ⟨rfl, -⟩ := hstands
          have hnone : trace.firstError = none := hun
          simp [StorageCall.Succeeded, StorageTrace.result, hnone]
      | _ => exact hreturned.elim
  | read pc trace =>
      cases pc with
      | returned result =>
          cases result with
          | ok buf => trivial
          | error e =>
              have herror : trace.firstError = some e := hstands
              rw [hun.1] at herror
              cases herror
      | _ => exact hreturned.elim

section Success

variable {lockPath : Path}
  (hpath : lockPathFor path = (.ok lockPath : Except (VaultStorageError E) Path))

theorem firstError_ioStep {Pc : Type} {op : StorageOp} {toError : E → VaultStorageError E}
    {disk disk' : Disk} {onDone : Option (Pc × Disk)} {onError : VaultStorageError E → Pc}
    {answer : IoAnswer E} {pc' : Pc} {more : StorageTrace E} (hanswer : ∀ e, answer ≠ .failed e)
    (h : ioStep op toError disk onDone onError answer = some (pc', disk', more)) :
    more.firstError = none := by
  cases answer with
  | failed e => exact absurd rfl (hanswer e)
  | moved n => cases h
  | done =>
      obtain ⟨r, -, hsame⟩ := Option.map_eq_some_iff.mp h
      cases hsame
      rfl

include hpath

theorem firstError_openLockFile {Pc : Type} {disk disk' : Disk} {onDone pc' : Pc}
    {onError : VaultStorageError E → Pc} {answer : IoAnswer E} {more : StorageTrace E}
    (hanswer : ∀ e, answer ≠ .failed e)
    (h : openLockFile path disk onDone onError answer = some (pc', disk', more)) :
    more.firstError = none := by
  simp only [openLockFile, hpath] at h
  exact firstError_ioStep hanswer h

/-- A write of a path with a file name that meets no failure makes no error. -/
theorem firstError_write {i : Nat} {bytes : Bytes} {suffix : Uuid} {disk disk' : Disk}
    {answer : IoAnswer E} {pc pc' : WritePc E} {more : StorageTrace E}
    (hanswer : ∀ e, answer ≠ .failed e)
    (h : pc.advance path i bytes suffix disk answer = some (pc', disk', more)) :
    more.firstError = none := by
  obtain ⟨dir, hdir, hpath'⟩ := bind_eq_ok.mp hpath
  obtain ⟨baseName, hbase, -⟩ := bind_eq_ok.mp hpath'
  rw [okOr_eq_ok] at hdir hbase
  cases pc with
  | start =>
      simp only [WritePc.advance, hdir] at h
      exact firstError_ioStep hanswer h
  | openingLock => exact firstError_openLockFile hpath hanswer h
  | creating =>
      simp only [WritePc.advance, tempPathOf, hdir, hbase] at h
      exact firstError_ioStep hanswer h
  | writing tmpPath written =>
      simp only [WritePc.advance] at h
      split at h
      · obtain ⟨-, hsame⟩ := Option.ite_none_right_eq_some.mp h
        cases hsame
        rfl
      · exact firstError_ioStep hanswer h
  | leaving result =>
      cases h
      rfl
  | returned result => cases h
  | _ =>
      simp only [WritePc.advance] at h
      exact firstError_ioStep hanswer h

theorem firstError_read {i : Nat} {disk disk' : Disk} {answer : IoAnswer E} {pc pc' : ReadPc E}
    {more : StorageTrace E} (hanswer : ∀ e, answer ≠ .failed e)
    (h : pc.advance path i disk answer = some (pc', disk', more)) : more.firstError = none := by
  cases pc with
  | openingLock => exact firstError_openLockFile hpath hanswer h
  | reading buf =>
      simp only [ReadPc.advance] at h
      split at h
      · obtain ⟨content, -, h⟩ := Option.bind_eq_some_iff.mp h
        obtain ⟨-, hsame⟩ := Option.ite_none_right_eq_some.mp h
        cases hsame
        rfl
      · exact firstError_ioStep hanswer h
  | leaving result =>
      cases h
      rfl
  | returned result => cases h
  | _ =>
      simp only [ReadPc.advance] at h
      exact firstError_ioStep hanswer h

theorem unspoiledAt_step {i : Nat} {ev : StorageEvent E} (hw : Sound path files w)
    (hgood : Faultless path w ev) (h : w.step path ev = some w') (hi : UnspoiledAt path w i) :
    UnspoiledAt path w' i := by
  obtain ⟨call, hcall, hun⟩ := hi
  have hkeeps : call.Unspoiled path w'.disk.files := by
    cases call with
    | write bytes suffix pc trace => exact hun
    | read pc trace => exact ⟨hun.1, files_path_ne_none_step hw h hun.2⟩
  have hlt : i < w.calls.length := (List.getElem?_eq_some_iff.mp hcall).1
  rcases step_cases h with ⟨request, rfl, -, rfl⟩ |
    ⟨j, answer, b, b', disk', more, rfl, hb, hadvance, rfl⟩
  · exact ⟨call, (List.getElem?_append_left hlt).trans hcall, hkeeps⟩
  · by_cases hji : j = i
    · subst hji
      obtain rfl : call = b := Option.some.inj (hcall.symm.trans hb)
      -- a failure could only be one of what could not be done
      have hanswer : ∀ e, answer ≠ .failed e := by
        rintro e rfl
        obtain ⟨other, hother, hlacks⟩ := hgood
        obtain rfl : call = other := Option.some.inj (hcall.symm.trans hother)
        exact not_lacks_of_unspoiled hw hcall hun hlacks
      refine ⟨b', List.getElem?_set_self hlt, ?_⟩
      cases call with
      | write bytes suffix pc trace =>
          obtain ⟨⟨pc', disk₁, ops⟩, hpc, hsame⟩ := Option.map_eq_some_iff.mp hadvance
          cases hsame
          have hops := firstError_write hpath hanswer hpc
          have hnone : trace.firstError = none := hun
          simp [StorageCall.Unspoiled, hnone, hops]
      | read pc trace =>
          obtain ⟨⟨pc', disk₁, ops⟩, hpc, hsame⟩ := Option.map_eq_some_iff.mp hadvance
          cases hsame
          have hops := firstError_read hpath hanswer hpc
          refine ⟨?_, hkeeps.2⟩
          simp [hun.1, hops]
    · exact ⟨call, (List.getElem?_set_ne hji).trans hcall, hkeeps⟩

theorem unspoiledAt_run {i : Nat} {es : List (StorageEvent E)} (hw : Sound path files w)
    (hgood : EveryStep (step path) (Faultless path) w es)
    (h : exec (step path) w es = some w') (hi : UnspoiledAt path w i) : UnspoiledAt path w' i := by
  have hrun : Sound path files w' ∧ UnspoiledAt path w' i := by
    refine exec_invariant_of_everyStep (Faultless path)
      (fun s => Sound path files s ∧ UnspoiledAt path s i) ?_ ⟨hw, hi⟩ hgood h
    rintro s ev s' ⟨hs, hi⟩ hgood hstep
    exact ⟨sound_step hs hstep, unspoiledAt_step hpath hs hgood hstep hi⟩
  exact hrun.2

end Success

theorem accounted_of_run {es : List (StorageEvent E)}
    (h : exec (step path) (new files) es = some w) : Accounted w := by
  have hnew : Accounted (new files : StorageWorld E) := RwLock.accounts_free
  exact exec_invariant Accounted (fun _ _ _ => accounted_step) hnew h

theorem inBounds_of_run {es : List (StorageEvent E)}
    (h : exec (step path) (new files) es = some w) : ∀ call ∈ w.calls, InBounds call := by
  refine exec_invariant (fun s => ∀ call ∈ s.calls, InBounds call) (fun _ _ _ => inBounds_step) ?_ h
  intro call hcall
  cases hcall

/-- A call that has returned holds no lock. -/
theorem not_holds_of_hasReturned {call : StorageCall E} (h : call.HasReturned) :
    call.writes = false ∧ call.reads = false := by
  cases call with
  | write bytes suffix pc trace =>
      cases pc with
      | returned result => exact ⟨rfl, rfl⟩
      | _ => exact h.elim
  | read pc trace =>
      cases pc with
      | returned result => exact ⟨rfl, rfl⟩
      | _ => exact h.elim

/-- How the calls of a state come to an end, where no new ones are made. -/
structure Finishes (path : Path) (files : Path → Option Bytes) (w : StorageWorld E)
    (es : List (StorageEvent E)) (w' : StorageWorld E) : Prop where
  /-- they take no more steps than are left -/
  bounded : es.length ≤ w.stepsLeft (files path)
  /-- whatever has failed, some call can go on without a fault, or all of them have returned and
  the lock is free -/
  progress : (∃ i answer, Faultless path w' (.advance i answer) ∧
      (w'.step path (.advance i answer)).isSome) ∨
    ((∀ call ∈ w'.calls, call.HasReturned) ∧ w'.disk.fileLock = .free)
  /-- where nothing fails that could be done, the calls that met no failure before succeed, if the
  path of the vault has a directory and a name -/
  success : (∃ lockPath, lockPathFor path = (.ok lockPath : Except (VaultStorageError E) Path)) →
    EveryStep (step path) (Faultless path) w es → ∀ i call', UnspoiledAt path w i →
      w'.calls[i]? = some call' → call'.HasReturned → call'.Succeeded

/-- Two writes are made, and the first one, which has the lock, has no room. -/
def writeFails : List (StorageEvent Nat) :=
  [.invoke (.writeVaultAtomic [1, 2] 1), .invoke (.writeVaultAtomic [3] 2), .advance 0 .done,
   .advance 1 .done, .advance 0 .done, .advance 1 .done, .advance 0 .done,
   .advance 0 (.failed 28)]

/-- The first write has no file to remove, and the second one does all its work. -/
def otherWriteGoesOn : List (StorageEvent Nat) :=
  [.advance 0 (.failed 2), .advance 0 .done, .advance 1 .done, .advance 1 .done,
   .advance 1 (.moved 1), .advance 1 .done, .advance 1 .done, .advance 1 .done, .advance 1 .done,
   .advance 1 .done]

/-- From every state of a run, however often calls have failed before. -/
theorem storage_calls_finish {es es' : List (StorageEvent E)} (notFound : E)
    (h : exec (step path) (new files) es = some w) (hes' : ∀ ev ∈ es', IsAdvance ev)
    (h' : exec (step path) w es' = some w') : Finishes path files w es' w' := by
  have hw := sound_of_run h
  have hboth : exec (step path) (new files) (es ++ es') = some w' :=
    exec_append_eq_some.mpr ⟨w, h, h'⟩
  have hw' := sound_of_run hboth
  have hlock := accounted_of_run hboth
  refine
    { bounded := ?_
      progress := ?_
      success := ?_ }
  · have hsteps := length_le_stepsLeft hw hes' h'
    omega
  · by_cases hopen : ∃ call ∈ w'.calls, ¬ call.HasReturned
    · exact Or.inl (exists_faultless_step notFound hw' hlock (inBounds_of_run hboth) hopen)
    · have hall : ∀ call ∈ w'.calls, call.HasReturned := by
        intro call hcall
        by_contra hnot
        exact hopen ⟨call, hcall, hnot⟩
      exact Or.inr ⟨hall, hlock.free fun call hcall => not_holds_of_hasReturned (hall call hcall)⟩
  · rintro ⟨lockPath, hpath⟩ hgood i call' hi hcall' hreturned
    obtain ⟨call, hcall, hun⟩ := unspoiledAt_run hpath hw hgood h' hi
    obtain rfl : call = call' := Option.some.inj (hcall.symm.trans hcall')
    exact succeeded_of_unspoiled hw' hcall' hun hreturned

/-- The theorem after a write that has failed: another one waited for the lock, and goes on. -/
theorem storage_calls_finish_afterFailure :
    ∃ w w' : StorageWorld Nat, exec (step samplePath) (new fun _ => none) writeFails = some w ∧
      Finishes samplePath (fun _ => none) w otherWriteGoesOn w' ∧
      w'.disk.files samplePath = some [3] ∧
      ∃ trace, w'.calls[1]? = some (.write [3] 2 (.returned (.ok ())) trace) := by
  have hrun : ∃ w w' : StorageWorld Nat,
      exec (step samplePath) (new fun _ => none) writeFails = some w ∧
      exec (step samplePath) w otherWriteGoesOn = some w' ∧
      w'.disk.files samplePath = some [3] ∧
      ∃ trace, w'.calls[1]? = some (.write [3] 2 (.returned (.ok ())) trace) :=
    ⟨_, _, rfl, rfl, rfl, _, rfl⟩
  obtain ⟨w, w', h, h', hfacts⟩ := hrun
  have hadvance : ∀ ev ∈ otherWriteGoesOn, IsAdvance ev := by
    simp [otherWriteGoesOn, IsAdvance]
  exact ⟨w, w', h, storage_calls_finish 2 h hadvance h', hfacts⟩

end StorageWorld

end ViperVault
