import Mathlib.Data.List.Basic
import ViperVault.Core.AuthGate
import ViperVault.Foundation.Runs

/-!
# The clipboard guard

`clipboard/guard.rs` with the clipboard that all applications share. A copy writes the clipboard,
aborts the timer task of the copy before it and spawns its own, one step after the other. A timer
task sleeps, reads the clipboard and clears it; from its waking on it runs to its end, whether it is
aborted or not. There is one guard: the copies and the clears of another guard on the same clipboard
are foreign writes.
-/

namespace ViperVault

open Foundation

/-- Where the timer task of a copy stands. -/
inductive ClearPhase
  | unspawned
  | spawned
  | sleeping (deadline : Instant)
  /-- `sleep` is over; the clipboard is read next -/
  | woken
  /-- the content that was read is the secret; the clipboard is cleared next -/
  | matched
  | finished
  | aborted
  deriving DecidableEq

/-- `JoinHandle::abort`: a task is stopped where it waits, not while it runs. -/
def ClearPhase.abort : ClearPhase → ClearPhase
  | .unspawned => .unspawned
  | .spawned => .aborted
  | .sleeping _ => .aborted
  | .woken => .woken
  | .matched => .matched
  | .finished => .finished
  | .aborted => .aborted

/-- A call of `copy_with_timeout`, with the instant of its write and its timer task. -/
structure CopyCall where
  secret : SecretString
  timeout : Duration
  setAt : Instant
  phase : ClearPhase
  deriving DecidableEq

/-- Where the guard stands. -/
inductive GuardPc
  | idle
  /-- `backend.set` is done -/
  | wrote (call : Nat)
  /-- the task before is aborted -/
  | cancelled (call : Nat)
  | dropped
  deriving DecidableEq

/-- The clipboard, the guard and the calls on it. `owner` is the call that wrote what is in the
clipboard; nothing reads it. -/
structure ClipboardWorld where
  now : Instant
  clipboard : Option Text
  owner : Option Nat
  task : Option Nat
  pc : GuardPc
  calls : List CopyCall
  deriving DecidableEq

/-- What can happen next. -/
inductive ClipboardEvent
  | copyWithTimeout (secret : SecretString) (timeout : Duration)
  | abortPrevious
  | spawn
  | cancel
  | drop
  | poll (call : Nat)
  | wake (call : Nat)
  | read (call : Nat)
  | clear (call : Nat)
  | foreignWrite (content : Option Text)
  | tick (d : Duration)

namespace ClipboardWorld

/-- A new guard on a clipboard with some content. -/
def new (content : Option Text) : ClipboardWorld where
  now := 0
  clipboard := content
  owner := none
  task := none
  pc := .idle
  calls := []

/-- The timer task of a call goes on to another phase. -/
def setPhase (w : ClipboardWorld) (i : Nat) (phase : ClearPhase) : ClipboardWorld :=
  { w with calls := w.calls.modify i fun c => { c with phase := phase } }

/-- `if let Some(task) = self.task.take() { task.abort() }`. -/
def abortTask (w : ClipboardWorld) : ClipboardWorld :=
  match w.task with
  | none => w
  | some i =>
      { w with task := none, calls := w.calls.modify i fun c => { c with phase := c.phase.abort } }

/-- One step of the guard, of a timer task, of another application or of the clock. -/
def step (w : ClipboardWorld) : ClipboardEvent → Option ClipboardWorld
  | .copyWithTimeout secret timeout =>
      if w.pc = .idle then
        some { w with
          clipboard := some secret.exposeSecret
          owner := some w.calls.length
          pc := .wrote w.calls.length
          calls := w.calls ++ [⟨secret, timeout, w.now, .unspawned⟩] }
      else none
  | .abortPrevious =>
      match w.pc with
      | .wrote i => some { w.abortTask with pc := .cancelled i }
      | _ => none
  | .spawn =>
      match w.pc with
      | .cancelled i => some { w.setPhase i .spawned with task := some i, pc := .idle }
      | _ => none
  | .cancel => if w.pc = .idle then some w.abortTask else none
  | .drop => if w.pc = .idle then some { w.abortTask with pc := .dropped } else none
  | .poll i => do
      let c ← w.calls[i]?
      if c.phase = .spawned then some (w.setPhase i (.sleeping (w.now + c.timeout))) else none
  | .wake i => do
      let c ← w.calls[i]?
      match c.phase with
      | .sleeping deadline => if deadline ≤ w.now then some (w.setPhase i .woken) else none
      | _ => none
  | .read i => do
      let c ← w.calls[i]?
      if c.phase = .woken then
        if w.clipboard = some c.secret.exposeSecret then some (w.setPhase i .matched)
        else some (w.setPhase i .finished)
      else none
  | .clear i => do
      let c ← w.calls[i]?
      if c.phase = .matched then
        some { w.setPhase i .finished with clipboard := none, owner := none }
      else none
  | .foreignWrite content => some { w with clipboard := content, owner := none }
  | .tick d => some { w with now := w.now + d }

/-! ## What a timer task owns -/

/-- The phase of the timer task of a call. -/
def phase? (w : ClipboardWorld) (i : Nat) : Option ClearPhase := w.calls[i]?.map CopyCall.phase

/-- The secret of a call. -/
def secret? (w : ClipboardWorld) (i : Nat) : Option SecretString :=
  w.calls[i]?.map CopyCall.secret

/-- The end of a call's own timeout. -/
def due? (w : ClipboardWorld) (i : Nat) : Option Instant :=
  w.calls[i]?.map fun c => c.setAt + c.timeout

/-- The instant at which a call wrote the clipboard. -/
def setAt? (w : ClipboardWorld) (i : Nat) : Option Instant := w.calls[i]?.map CopyCall.setAt

/-- The timer task of the call is about to clear the clipboard. -/
def Clearing (w : ClipboardWorld) (i : Nat) (secret : SecretString) : Prop :=
  w.phase? i = some .matched ∧ w.secret? i = some secret

/-- To clear the clipboard now takes the secret from it, and whatever call wrote it there, that
call's own timeout is over. -/
structure ClearsOwn (w : ClipboardWorld) (secret : SecretString) : Prop where
  content : w.clipboard = some secret.exposeSecret
  overdue : ∀ j due, w.owner = some j → w.due? j = some due → due ≤ w.now

/-- Every task that is about to clear the clipboard clears what it owns. -/
def Safe (w : ClipboardWorld) : Prop := ∀ i secret, w.Clearing i secret → w.ClearsOwn secret

/-- The step does not come between the read and the clear of a timer task to change the content,
and no task reads its secret where another call whose timeout is not over has put it. -/
def Avoids (w : ClipboardWorld) : ClipboardEvent → Prop
  | .copyWithTimeout secret timeout =>
      ∀ i own, w.Clearing i own → secret.exposeSecret = own.exposeSecret ∧ timeout = 0
  | .foreignWrite content => ∀ i own, w.Clearing i own → content = some own.exposeSecret
  | .clear k => ∀ i own, w.Clearing i own → i = k
  | .read i =>
      ∀ own, w.secret? i = some own → w.clipboard = some own.exposeSecret →
        ∀ j due, j ≠ i → w.owner = some j → w.due? j = some due → due ≤ w.now
  | _ => True

/-- No timer runs out before the timeout of its call. -/
structure Timed (w : ClipboardWorld) : Prop where
  sleeping : ∀ i deadline due, w.phase? i = some (.sleeping deadline) → w.due? i = some due →
    due ≤ deadline
  running : ∀ i due, w.phase? i = some .woken ∨ w.phase? i = some .matched →
    w.due? i = some due → due ≤ w.now
  setAt : ∀ i setAt, w.setAt? i = some setAt → setAt ≤ w.now

/-- Changing a call in what is not looked at. -/
private theorem map_getElem?_modify {β : Type} {l : List CopyCall} (i j : Nat)
    {f : CopyCall → CopyCall} {g : CopyCall → β} (hg : ∀ c, g (f c) = g c) :
    (l.modify i f)[j]?.map g = l[j]?.map g := by
  rw [List.getElem?_modify]
  cases l[j]? with
  | none => rfl
  | some c => by_cases h : i = j <;> simp [h, hg]

section Fields

variable (w : ClipboardWorld) (i j : Nat) (phase : ClearPhase)

@[simp] theorem secret?_setPhase : (w.setPhase i phase).secret? j = w.secret? j :=
  map_getElem?_modify i j fun _ => rfl

@[simp] theorem setAt?_setPhase : (w.setPhase i phase).setAt? j = w.setAt? j :=
  map_getElem?_modify i j fun _ => rfl

@[simp] theorem due?_setPhase : (w.setPhase i phase).due? j = w.due? j :=
  map_getElem?_modify i j fun _ => rfl

theorem phase?_setPhase : (w.setPhase i phase).phase? j =
    if i = j then (w.phase? j).map fun _ => phase else w.phase? j := by
  simp only [phase?, setPhase, List.getElem?_modify]
  cases w.calls[j]? with
  | none => simp
  | some c => by_cases h : i = j <;> simp [h]

@[simp] theorem clipboard_abortTask : w.abortTask.clipboard = w.clipboard := by
  unfold abortTask
  split <;> rfl

@[simp] theorem owner_abortTask : w.abortTask.owner = w.owner := by
  unfold abortTask
  split <;> rfl

@[simp] theorem now_abortTask : w.abortTask.now = w.now := by
  unfold abortTask
  split <;> rfl

@[simp] theorem secret?_abortTask : w.abortTask.secret? j = w.secret? j := by
  unfold abortTask
  split
  · rfl
  · exact map_getElem?_modify _ j fun _ => rfl

@[simp] theorem setAt?_abortTask : w.abortTask.setAt? j = w.setAt? j := by
  unfold abortTask
  split
  · rfl
  · exact map_getElem?_modify _ j fun _ => rfl

@[simp] theorem due?_abortTask : w.abortTask.due? j = w.due? j := by
  unfold abortTask
  split
  · rfl
  · exact map_getElem?_modify _ j fun _ => rfl

/-- An abort reaches one task at most. -/
theorem phase?_abortTask : w.abortTask.phase? j =
    (w.phase? j).map fun p => if w.task = some j then p.abort else p := by
  unfold abortTask
  split
  · next htask => simp [htask]
  · next k htask =>
      simp only [phase?, List.getElem?_modify, htask, Option.some.injEq]
      cases w.calls[j]? with
      | none => rfl
      | some c => by_cases h : k = j <;> simp [h]

theorem abort_eq_matched (p : ClearPhase) : p.abort = .matched ↔ p = .matched := by
  cases p <;> simp [ClearPhase.abort]

theorem abort_eq_woken (p : ClearPhase) : p.abort = .woken ↔ p = .woken := by
  cases p <;> simp [ClearPhase.abort]

theorem abort_ne_sleeping (p : ClearPhase) (deadline : Instant) :
    p.abort ≠ .sleeping deadline := by
  cases p <;> simp [ClearPhase.abort]

/-- A task that runs is not aborted. -/
theorem phase?_abortTask_matched : w.abortTask.phase? j = some .matched ↔
    w.phase? j = some .matched := by
  rw [phase?_abortTask]
  cases w.phase? j with
  | none => simp
  | some p => by_cases h : w.task = some j <;> simp [h, abort_eq_matched]

end Fields

theorem clearing_abortTask (w : ClipboardWorld) (i : Nat) (own : SecretString) :
    w.abortTask.Clearing i own ↔ w.Clearing i own := by
  rw [Clearing, phase?_abortTask_matched, secret?_abortTask, Clearing]

/-- A task that is moved to another phase than `matched` is not about to clear; the others are
where they were. -/
theorem clearing_setPhase {w : ClipboardWorld} {k : Nat} {phase : ClearPhase}
    (hphase : phase ≠ .matched) (i : Nat) (own : SecretString) :
    (w.setPhase k phase).Clearing i own ↔ k ≠ i ∧ w.Clearing i own := by
  rw [Clearing, secret?_setPhase, phase?_setPhase, Clearing]
  by_cases h : k = i
  · cases w.phase? i <;> simp [h, hphase]
  · simp [h]

/-! ## The steps -/

/-- The state after the write of a copy. -/
def afterCopy (w : ClipboardWorld) (secret : SecretString) (timeout : Duration) :
    ClipboardWorld :=
  { w with
    clipboard := some secret.exposeSecret
    owner := some w.calls.length
    pc := .wrote w.calls.length
    calls := w.calls ++ [⟨secret, timeout, w.now, .unspawned⟩] }

/-- What a step does, by its event. -/
inductive Moves (w : ClipboardWorld) : ClipboardEvent → ClipboardWorld → Prop
  | copy (secret : SecretString) (timeout : Duration) :
      Moves w (.copyWithTimeout secret timeout) (w.afterCopy secret timeout)
  | abort (e : ClipboardEvent) (pc : GuardPc) (he : e = .abortPrevious ∨ e = .cancel ∨ e = .drop) :
      Moves w e { w.abortTask with pc := pc }
  | spawn (i : Nat) : Moves w .spawn { w.setPhase i .spawned with task := some i, pc := .idle }
  | poll (i : Nat) (c : CopyCall) (hc : w.calls[i]? = some c) :
      Moves w (.poll i) (w.setPhase i (.sleeping (w.now + c.timeout)))
  | wake (i : Nat) (c : CopyCall) (deadline : Instant) (hc : w.calls[i]? = some c)
      (hphase : c.phase = .sleeping deadline) (hdeadline : deadline ≤ w.now) :
      Moves w (.wake i) (w.setPhase i .woken)
  | readMatch (i : Nat) (c : CopyCall) (hc : w.calls[i]? = some c) (hphase : c.phase = .woken)
      (hcontent : w.clipboard = some c.secret.exposeSecret) :
      Moves w (.read i) (w.setPhase i .matched)
  | readOther (i : Nat) (c : CopyCall) (hc : w.calls[i]? = some c) (hphase : c.phase = .woken)
      (hcontent : w.clipboard ≠ some c.secret.exposeSecret) :
      Moves w (.read i) (w.setPhase i .finished)
  | clear (i : Nat) (c : CopyCall) (hc : w.calls[i]? = some c) (hphase : c.phase = .matched) :
      Moves w (.clear i) { w.setPhase i .finished with clipboard := none, owner := none }
  | foreignWrite (content : Option Text) :
      Moves w (.foreignWrite content) { w with clipboard := content, owner := none }
  | tick (d : Duration) : Moves w (.tick d) { w with now := w.now + d }

theorem step_moves {w w' : ClipboardWorld} {e : ClipboardEvent} (h : w.step e = some w') :
    w.Moves e w' := by
  cases e with
  | copyWithTimeout secret timeout =>
      simp only [step] at h
      split at h
      · cases h
        exact Moves.copy secret timeout
      · cases h
  | abortPrevious =>
      simp only [step] at h
      split at h
      · cases h
        exact Moves.abort _ _ (Or.inl rfl)
      · cases h
  | spawn =>
      simp only [step] at h
      split at h
      · cases h
        exact Moves.spawn _
      · cases h
  | cancel =>
      simp only [step] at h
      split at h
      · cases h
        exact Moves.abort _ w.abortTask.pc (Or.inr (Or.inl rfl))
      · cases h
  | drop =>
      simp only [step] at h
      split at h
      · cases h
        exact Moves.abort _ _ (Or.inr (Or.inr rfl))
      · cases h
  | poll i =>
      obtain ⟨c, hc, h⟩ := Option.bind_eq_some_iff.mp h
      split at h
      · cases h
        exact Moves.poll i c hc
      · cases h
  | wake i =>
      obtain ⟨c, hc, h⟩ := Option.bind_eq_some_iff.mp h
      split at h
      · next deadline hphase =>
          split at h
          · next hdeadline =>
              cases h
              exact Moves.wake i c deadline hc hphase hdeadline
          · cases h
      · cases h
  | read i =>
      obtain ⟨c, hc, h⟩ := Option.bind_eq_some_iff.mp h
      split at h
      · next hphase =>
          split at h
          · next hcontent =>
              cases h
              exact Moves.readMatch i c hc hphase hcontent
          · next hcontent =>
              cases h
              exact Moves.readOther i c hc hphase hcontent
      · cases h
  | clear i =>
      obtain ⟨c, hc, h⟩ := Option.bind_eq_some_iff.mp h
      split at h
      · next hphase =>
          cases h
          exact Moves.clear i c hc hphase
      · cases h
  | foreignWrite content =>
      cases h
      exact Moves.foreignWrite content
  | tick d =>
      cases h
      exact Moves.tick d

/-! ## Timers are not early -/

theorem timed_new (content : Option Text) : (new content).Timed where
  sleeping i deadline due h := by simp [new, phase?] at h
  running i due h := by simp [new, phase?] at h
  setAt i setAt h := by simp [new, setAt?] at h

/-- Moving one task to another phase, where the new phase is in time. -/
theorem Timed.setPhase {w : ClipboardWorld} (hw : w.Timed) {k : Nat} {phase : ClearPhase}
    (hsleeping : ∀ deadline due, phase = .sleeping deadline → w.due? k = some due →
      due ≤ deadline)
    (hrunning : ∀ due, phase = .woken ∨ phase = .matched → w.due? k = some due → due ≤ w.now) :
    (w.setPhase k phase).Timed where
  sleeping i deadline due h hd := by
    rw [due?_setPhase] at hd
    rw [phase?_setPhase] at h
    split at h
    · next hk =>
        subst hk
        obtain ⟨p, -, hp⟩ := Option.map_eq_some_iff.mp h
        exact hsleeping deadline due hp hd
    · exact hw.sleeping i deadline due h hd
  running i due h hd := by
    rw [due?_setPhase] at hd
    rw [phase?_setPhase] at h
    split at h
    · next hk =>
        subst hk
        apply hrunning due ?_ hd
        rcases h with h | h
        · obtain ⟨p, -, hp⟩ := Option.map_eq_some_iff.mp h
          exact Or.inl hp
        · obtain ⟨p, -, hp⟩ := Option.map_eq_some_iff.mp h
          exact Or.inr hp
    · exact hw.running i due h hd
  setAt i setAt h := hw.setAt i setAt (by simpa using h)

theorem Timed.abortTask {w : ClipboardWorld} (hw : w.Timed) : w.abortTask.Timed where
  sleeping i deadline due h hd := by
    rw [due?_abortTask] at hd
    rw [phase?_abortTask] at h
    obtain ⟨p, hp, heq⟩ := Option.map_eq_some_iff.mp h
    apply hw.sleeping i deadline due ?_ hd
    rw [hp]
    split at heq
    · exact absurd heq (abort_ne_sleeping p deadline)
    · rw [heq]
  running i due h hd := by
    rw [due?_abortTask] at hd
    rw [now_abortTask]
    apply hw.running i due ?_ hd
    rw [phase?_abortTask] at h
    cases hp : w.phase? i with
    | none => simp [hp] at h
    | some p =>
        simp only [hp, Option.map_some, Option.some.injEq] at h ⊢
        split at h
        · rwa [abort_eq_woken, abort_eq_matched] at h
        · exact h
  setAt i setAt h := by
    rw [setAt?_abortTask] at h
    rw [now_abortTask]
    exact hw.setAt i setAt h

/-- The clock and the fields that timers do not look at. -/
theorem Timed.later {w w' : ClipboardWorld} (hw : w.Timed) (hcalls : w'.calls = w.calls)
    (hnow : w.now ≤ w'.now) : w'.Timed where
  sleeping i deadline due h hd := by
    rw [phase?, hcalls] at h
    rw [due?, hcalls] at hd
    exact hw.sleeping i deadline due h hd
  running i due h hd := by
    rw [phase?, hcalls] at h
    rw [due?, hcalls] at hd
    exact (hw.running i due h hd).trans hnow
  setAt i setAt h := by
    rw [setAt?, hcalls] at h
    exact (hw.setAt i setAt h).trans hnow

theorem Timed.copy {w : ClipboardWorld} (hw : w.Timed) (secret : SecretString)
    (timeout : Duration) : (w.afterCopy secret timeout).Timed where
  sleeping i deadline due h hd := by
    obtain ⟨c, hc, hphase⟩ := Option.map_eq_some_iff.mp h
    rw [due?, hc] at hd
    rcases getElem?_append_singleton hc with hold | ⟨-, rfl⟩
    · exact hw.sleeping i deadline due (by simp [phase?, hold, hphase])
        (by simpa [due?, hold] using hd)
    · cases hphase
  running i due h hd := by
    obtain ⟨d, hd', hdue⟩ := Option.map_eq_some_iff.mp hd
    rcases getElem?_append_singleton hd' with hold | ⟨-, rfl⟩
    · apply hw.running i due ?_ (by simp [due?, hold, hdue])
      simpa [phase?, hold, hd'] using h
    · simp [phase?, hd'] at h
  setAt i setAt h := by
    obtain ⟨c, hc, hset⟩ := Option.map_eq_some_iff.mp h
    rcases getElem?_append_singleton hc with hold | ⟨-, rfl⟩
    · exact hw.setAt i setAt (by simp [setAt?, hold, hset])
    · exact Nat.le_of_eq hset.symm

theorem timed_step {w w' : ClipboardWorld} {e : ClipboardEvent} (hw : w.Timed)
    (h : w.step e = some w') : w'.Timed := by
  cases step_moves h with
  | copy secret timeout => exact hw.copy secret timeout
  | abort e pc _ => exact hw.abortTask.later rfl (le_refl _)
  | spawn i =>
      have hset : (w.setPhase i .spawned).Timed := hw.setPhase (by simp) (by simp)
      exact hset.later rfl (le_refl _)
  | poll i c hc =>
      apply hw.setPhase
      · rintro deadline due hdeadline hdue
        cases hdeadline
        have hset := hw.setAt i c.setAt (by simp [setAt?, hc])
        rw [due?, hc, Option.map_some, Option.some.injEq] at hdue
        rw [← hdue]
        exact Nat.add_le_add_right hset _
      · simp
  | wake i c deadline hc hphase hdeadline =>
      apply hw.setPhase
      · simp
      · intro due _ hdue
        exact (hw.sleeping i deadline due (by simp [phase?, hc, hphase]) hdue).trans hdeadline
  | readMatch i c hc hphase _ =>
      apply hw.setPhase
      · simp
      · intro due _ hdue
        exact hw.running i due (Or.inl (by simp [phase?, hc, hphase])) hdue
  | readOther i c hc _ _ => exact hw.setPhase (by simp) (by simp)
  | clear i c _ _ =>
      have hset : (w.setPhase i .finished).Timed := hw.setPhase (by simp) (by simp)
      exact hset.later rfl (le_refl _)
  | foreignWrite content => exact hw.later rfl (le_refl _)
  | tick d => exact hw.later rfl (Nat.le_add_right _ d)

/-! ## What is cleared -/

/-- What a task owns it keeps while the content and its owner stay and the clock goes on. -/
theorem ClearsOwn.later {w w' : ClipboardWorld} {own : SecretString} (h : w.ClearsOwn own)
    (hclipboard : w'.clipboard = w.clipboard) (howner : w'.owner = w.owner)
    (hdue : ∀ j, w'.due? j = w.due? j) (hnow : w.now ≤ w'.now) : w'.ClearsOwn own where
  content := hclipboard.trans h.content
  overdue j due hj hd :=
    (h.overdue j due (howner ▸ hj) ((hdue j).symm.trans hd)).trans hnow

/-- A step that lets no task come to its clear and leaves the clipboard alone. -/
theorem Safe.quiet {w w' : ClipboardWorld} (hw : w.Safe)
    (hclearing : ∀ i own, w'.Clearing i own → w.Clearing i own)
    (hclipboard : w'.clipboard = w.clipboard) (howner : w'.owner = w.owner)
    (hdue : ∀ j, w'.due? j = w.due? j) (hnow : w.now ≤ w'.now) : w'.Safe := by
  intro i own h
  exact (hw i own (hclearing i own h)).later hclipboard howner hdue hnow

theorem safe_new (content : Option Text) : (new content).Safe := by
  rintro i own ⟨hphase, -⟩
  simp [new, phase?] at hphase

/-- A task that is about to clear was one before the copy. -/
theorem clearing_afterCopy {w : ClipboardWorld} {secret : SecretString} {timeout : Duration}
    (i : Nat) (own : SecretString) :
    (w.afterCopy secret timeout).Clearing i own ↔ w.Clearing i own := by
  simp only [Clearing, phase?, secret?, afterCopy]
  constructor
  · rintro ⟨hphase, hsecret⟩
    obtain ⟨c, hc, hmatched⟩ := Option.map_eq_some_iff.mp hphase
    rcases getElem?_append_singleton hc with hold | ⟨-, rfl⟩
    · rw [hc] at hsecret
      exact ⟨by simp [hold, hmatched], by simpa [hold] using hsecret⟩
    · cases hmatched
  · rintro ⟨hphase, hsecret⟩
    obtain ⟨c, hc, hmatched⟩ := Option.map_eq_some_iff.mp hphase
    have hi : i < w.calls.length := (List.getElem?_eq_some_iff.mp hc).1
    rw [List.getElem?_append_left hi]
    exact ⟨hphase, hsecret⟩

/-- After the write of a copy only the new secret is owned, and it is overdue at once or never. -/
theorem clearsOwn_afterCopy {w : ClipboardWorld} {secret : SecretString} {timeout : Duration}
    (own : SecretString) :
    (w.afterCopy secret timeout).ClearsOwn own ↔
      secret.exposeSecret = own.exposeSecret ∧ timeout = 0 := by
  have hdue : (w.afterCopy secret timeout).due? w.calls.length = some (w.now + timeout) := by
    simp [due?, afterCopy]
  constructor
  · rintro ⟨hcontent, hover⟩
    have htimeout := hover w.calls.length _ rfl hdue
    refine ⟨Option.some.inj hcontent, ?_⟩
    have hnow : (w.afterCopy secret timeout).now = w.now := rfl
    rw [hnow] at htimeout
    exact Nat.le_zero.mp (Nat.le_of_add_le_add_left (a := w.now) htimeout)
  · rintro ⟨hsecret, rfl⟩
    refine ⟨congrArg some hsecret, ?_⟩
    intro j due hj hd
    obtain rfl : w.calls.length = j := Option.some.inj hj
    rw [hdue, Option.some.injEq] at hd
    exact hd ▸ Nat.le_refl _

/-- A task that is put into another phase than `matched`. -/
theorem Safe.setPhase {w : ClipboardWorld} (hw : w.Safe) {k : Nat} {phase : ClearPhase}
    (hphase : phase ≠ .matched) : (w.setPhase k phase).Safe :=
  hw.quiet (fun i own h => ((clearing_setPhase hphase i own).mp h).2) rfl rfl
    (fun j => due?_setPhase w k j phase) (Nat.le_refl _)

/-- A task that finds its secret in the clipboard will clear it by right exactly if no other call
put the same secret there and is still to wait. -/
theorem safe_setPhase_matched_iff {w : ClipboardWorld} (htimed : w.Timed) (hw : w.Safe) {i : Nat}
    {c : CopyCall} (hc : w.calls[i]? = some c) (hphase : c.phase = .woken)
    (hcontent : w.clipboard = some c.secret.exposeSecret) :
    (w.setPhase i .matched).Safe ↔ w.Avoids (.read i) := by
  have hsecret : w.secret? i = some c.secret := by simp [secret?, hc]
  have hown : w.due? i = some (c.setAt + c.timeout) := by simp [due?, hc]
  have htime : c.setAt + c.timeout ≤ w.now :=
    htimed.running i _ (Or.inl (by simp [phase?, hc, hphase])) hown
  constructor
  · intro hsafe own howned hsame j due _ howner hdue
    have hclears : (w.setPhase i .matched).ClearsOwn c.secret := by
      apply hsafe i
      refine ⟨?_, by rw [secret?_setPhase, hsecret]⟩
      rw [phase?_setPhase, if_pos rfl, phase?, hc]
      rfl
    exact hclears.overdue j due howner (by simpa using hdue)
  · intro havoids
    have hclears : (w.setPhase i .matched).ClearsOwn c.secret := by
      refine ⟨hcontent, ?_⟩
      intro j due howner hdue
      rw [due?_setPhase] at hdue
      by_cases hj : j = i
      · rw [hj, hown, Option.some.injEq] at hdue
        exact hdue ▸ htime
      · exact havoids c.secret hsecret hcontent j due hj howner hdue
    rintro k own ⟨hphasek, hsecretk⟩
    rw [secret?_setPhase] at hsecretk
    by_cases hk : i = k
    · rw [← hk, hsecret, Option.some.injEq] at hsecretk
      exact hsecretk ▸ hclears
    · rw [phase?_setPhase, if_neg hk] at hphasek
      exact (hw k own ⟨hphasek, hsecretk⟩).later rfl rfl
        (fun j => due?_setPhase w i j .matched) (Nat.le_refl _)

/-- From a safe state a step leads to a safe one exactly if it avoids the races. -/
theorem safe_step_iff {w w' : ClipboardWorld} {e : ClipboardEvent} (htimed : w.Timed)
    (hw : w.Safe) (h : w.step e = some w') : w'.Safe ↔ w.Avoids e := by
  cases step_moves h with
  | copy secret timeout => simp only [Safe, clearing_afterCopy, clearsOwn_afterCopy, Avoids]
  | abort e pc he =>
      have havoids : w.Avoids e := by
        rcases he with rfl | rfl | rfl
        · trivial
        · trivial
        · trivial
      refine iff_of_true ?_ havoids
      exact hw.quiet (fun i own hc => (clearing_abortTask w i own).mp hc) (clipboard_abortTask w)
        (owner_abortTask w) (due?_abortTask w) (now_abortTask w).ge
  | spawn i =>
      have hset : (w.setPhase i .spawned).Safe := hw.setPhase (by simp)
      refine iff_of_true ?_ trivial
      exact hset.quiet (fun _ _ hc => hc) rfl rfl (fun _ => rfl) (Nat.le_refl _)
  | poll i c hc => exact iff_of_true (hw.setPhase (by simp)) trivial
  | wake i c deadline hc hphase hdeadline => exact iff_of_true (hw.setPhase (by simp)) trivial
  | readMatch i c hc hphase hcontent =>
      exact safe_setPhase_matched_iff htimed hw hc hphase hcontent
  | readOther i c hc hphase hcontent =>
      refine iff_of_true (hw.setPhase (by simp)) ?_
      intro own howned hsame
      rw [secret?, hc, Option.map_some, Option.some.injEq] at howned
      exact absurd (howned ▸ hsame) hcontent
  | clear i c hc hphase =>
      constructor
      · intro hsafe k own hk
        by_contra hne
        have hstill : (w.setPhase i .finished).Clearing k own :=
          (clearing_setPhase (by simp) k own).mpr ⟨Ne.symm hne, hk⟩
        cases (hsafe k own hstill).content
      · intro havoids k own hk
        have hother : i ≠ k ∧ w.Clearing k own := (clearing_setPhase (by simp) k own).mp hk
        exact absurd (havoids k own hother.2).symm hother.1
  | foreignWrite content =>
      constructor
      · exact fun hsafe i own hi => (hsafe i own hi).content
      · intro havoids i own hi
        exact ⟨havoids i own hi, fun j due hj => by cases hj⟩
  | tick d =>
      exact iff_of_true
        (hw.quiet (fun _ _ hc => hc) rfl rfl (fun _ => rfl) (Nat.le_add_right _ d)) trivial

/-- In every state of a run the timer tasks that are about to clear the clipboard clear only what
they own exactly when every step of the run avoids the races. -/
theorem safe_run_iff {content : Option Text} {es : List ClipboardEvent} {w : ClipboardWorld}
    (h : exec step (new content) es = some w) :
    (∀ pre t, pre <+: es → exec step (new content) pre = some t → t.Safe) ↔
      EveryStep step Avoids (new content) es := by
  have htimed : ∀ pre t, exec step (new content) pre = some t → t.Timed := fun pre t ht =>
    exec_invariant Timed (fun _ _ _ hs hstep => timed_step hs hstep) (timed_new content) ht
  have hrule : (∀ pre t, pre <+: es → exec step (new content) pre = some t → t.Timed ∧ t.Safe) ↔
      EveryStep step Avoids (new content) es :=
    invariant_iff_everyStep (fun _ _ => True) Avoids (fun w => w.Timed ∧ w.Safe)
      (by
        rintro s e s' ⟨hs, hsafe⟩ - hstep
        rw [and_iff_right (timed_step hs hstep)]
        exact safe_step_iff hs hsafe hstep)
      ⟨timed_new content, safe_new content⟩ everyStep_true ⟨w, h⟩
  rw [← hrule]
  constructor
  · exact fun hsafe pre t hpre ht => ⟨htimed pre t ht, hsafe pre t hpre ht⟩
  · exact fun hboth pre t hpre ht => (hboth pre t hpre ht).2

/-- A code is copied, its timer runs out and its task reads the clipboard; before the task clears
it a second code is copied. -/
def copyBetweenReadAndClear : List ClipboardEvent :=
  [.copyWithTimeout ⟨"123456".toList⟩ 5, .abortPrevious, .spawn, .poll 0, .tick 5, .wake 0, .read 0,
    .copyWithTimeout ⟨"654321".toList⟩ 30]

/-- The theorem on the second copy. -/
theorem safe_run_iff_copyBetween :
    ∃ w, exec step (new none) copyBetweenReadAndClear = some w ∧
      ((∀ pre t, pre <+: copyBetweenReadAndClear → exec step (new none) pre = some t → t.Safe) ↔
        EveryStep step Avoids (new none) copyBetweenReadAndClear) := by
  have hrun : ∃ w, exec step (new none) copyBetweenReadAndClear = some w := ⟨_, rfl⟩
  obtain ⟨w, hw⟩ := hrun
  exact ⟨w, hw, safe_run_iff hw⟩

/-- The task of the first code clears the second one, 30 before its own timeout is over. -/
theorem first_timer_clears_second_code :
    ∃ w w', exec step (new none) copyBetweenReadAndClear = some w ∧
      w.Clearing 0 ⟨"123456".toList⟩ ∧ w.clipboard = some "654321".toList ∧
      w.owner = some 1 ∧ w.due? 1 = some (w.now + 30) ∧ ¬ w.Safe ∧
      w.step (.clear 0) = some w' ∧ w'.clipboard = none := by
  have hrun : ∃ w w', exec step (new none) copyBetweenReadAndClear = some w ∧
      w.Clearing 0 ⟨"123456".toList⟩ ∧ w.clipboard = some "654321".toList ∧
      w.owner = some 1 ∧ w.due? 1 = some (w.now + 30) ∧
      w.step (.clear 0) = some w' ∧ w'.clipboard = none :=
    ⟨_, _, rfl, ⟨rfl, rfl⟩, rfl, rfl, rfl, rfl, rfl⟩
  obtain ⟨w, w', hexec, hclearing, hcontent, howner, hdue, hstep, hcleared⟩ := hrun
  refine ⟨w, w', hexec, hclearing, hcontent, howner, hdue, ?_, hstep, hcleared⟩
  intro hsafe
  have hown := (hsafe 0 _ hclearing).content
  rw [hcontent, Option.some.injEq] at hown
  exact absurd hown (by decide)

end ClipboardWorld

end ViperVault
