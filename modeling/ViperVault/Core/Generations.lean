import ViperVault.Core.Concurrent
import ViperVault.Entries.Json

/-!
# Generations and lock dominance

Every unlock and lock call draws a generation of its own. A lock call that has returned
dominates the unlock calls with earlier generations, provided that none of these writes the
state after it; `unlock` does not check its generation when it writes.
-/

namespace ViperVault

open Foundation

/-- The generation a call has drawn. -/
def UnlockPc.generation? : UnlockPc → Option Nat
  | .start => none
  | .drawn g | .written g | .cancelled g | .rotated g _ | .spawned g _ | .returned g => some g

/-- The generation a call has drawn. -/
def LockPc.generation? : LockPc → Option Nat
  | .start => none
  | .drawn g | .written g | .returned g => some g

/-- The generation a call has drawn. -/
def Call.generation? : Call → Option Nat
  | .unlock _ pc => pc.generation?
  | .lock pc => pc.generation?
  | _ => none

namespace Shared

@[simp] theorem modifyTask_state (sh : Shared) (t : Nat) (f : TimerTask → TimerTask) :
    (sh.modifyTask t f).state = sh.state := rfl

@[simp] theorem modifyTask_generation (sh : Shared) (t : Nat) (f : TimerTask → TimerTask) :
    (sh.modifyTask t f).generation = sh.generation := rfl

@[simp] theorem modifyTask_writer (sh : Shared) (t : Nat) (f : TimerTask → TimerTask) :
    (sh.modifyTask t f).writer = sh.writer := rfl

@[simp] theorem modifyTask_now (sh : Shared) (t : Nat) (f : TimerTask → TimerTask) :
    (sh.modifyTask t f).now = sh.now := rfl

@[simp] theorem modifyTask_tasks (sh : Shared) (t : Nat) (f : TimerTask → TimerTask) :
    (sh.modifyTask t f).tasks = sh.tasks.modify t f := rfl

@[simp] theorem cancelAutoLock_state (sh : Shared) : sh.cancelAutoLock.state = sh.state := by
  unfold cancelAutoLock
  split <;> rfl

@[simp] theorem cancelAutoLock_generation (sh : Shared) :
    sh.cancelAutoLock.generation = sh.generation := by
  unfold cancelAutoLock
  split <;> rfl

@[simp] theorem cancelAutoLock_writer (sh : Shared) : sh.cancelAutoLock.writer = sh.writer := by
  unfold cancelAutoLock
  split <;> rfl

@[simp] theorem cancelAutoLock_now (sh : Shared) : sh.cancelAutoLock.now = sh.now := by
  unfold cancelAutoLock
  split <;> rfl

/-- What a step of a timer task can be. -/
inductive TimerMoves (last : Nat) (sh : Shared) (t : Nat) (task : TimerTask) :
    TimerAction → Shared → Prop
  | start (hphase : task.phase = .spawned) (hfits : task.Fits last sh.now) :
      TimerMoves last sh t task .start (sh.modifyTask t fun task =>
        { task with phase := .sleeping, deadline := sh.now + task.timeout })
  | startPanics (hphase : task.phase = .spawned) (hfits : ¬ task.Fits last sh.now) :
      TimerMoves last sh t task .start
        (sh.modifyTask t fun task => { task with phase := .panicked })
  | expire (hphase : task.phase = .sleeping ∧ task.deadline ≤ sh.now) :
      TimerMoves last sh t task .expire
        (sh.modifyTask t fun task => { task with phase := .expired })
  | lock (hphase : task.phase = .expired) (hcurrent : sh.generation = task.generation) :
      TimerMoves last sh t task .lockState
        { sh.modifyTask t fun task => { task with phase := .finished } with state := .locked }
  | stale (hphase : task.phase = .expired) (hcurrent : sh.generation ≠ task.generation) :
      TimerMoves last sh t task .lockState
        (sh.modifyTask t fun task => { task with phase := .finished })
  | finish (hphase : task.phase = .sleeping ∧ task.cycleNotify ∈ sh.permits)
      (hcurrent : sh.generation ≠ task.generation) :
      TimerMoves last sh t task .notified
        (modifyTask { sh with permits := sh.permits.erase task.cycleNotify } t fun task =>
          { task with phase := .finished })
  | rearm (hphase : task.phase = .sleeping ∧ task.cycleNotify ∈ sh.permits)
      (hcurrent : sh.generation = task.generation) (hfits : task.Fits last sh.now) :
      TimerMoves last sh t task .notified
        (modifyTask { sh with permits := sh.permits.erase task.cycleNotify } t fun task =>
          { task with deadline := sh.now + task.timeout })
  | rearmPanics (hphase : task.phase = .sleeping ∧ task.cycleNotify ∈ sh.permits)
      (hcurrent : sh.generation = task.generation) (hfits : ¬ task.Fits last sh.now) :
      TimerMoves last sh t task .notified
        (modifyTask { sh with permits := sh.permits.erase task.cycleNotify } t fun task =>
          { task with phase := .panicked })

theorem timerMoves_of_step {last : Nat} {sh sh' : Shared} {t : Nat} {task : TimerTask}
    {action : TimerAction} (h : sh.timerStep last t task action = some sh') :
    sh.TimerMoves last t task action sh' := by
  cases action with
  | start =>
      obtain ⟨hphase, hsame⟩ := Option.ite_none_right_eq_some.mp h
      by_cases hfits : task.Fits last sh.now
      · rw [if_pos hfits] at hsame
        cases hsame
        exact .start hphase hfits
      · rw [if_neg hfits] at hsame
        cases hsame
        exact .startPanics hphase hfits
  | expire =>
      obtain ⟨hphase, hsame⟩ := Option.ite_none_right_eq_some.mp h
      cases hsame
      exact .expire hphase
  | lockState =>
      obtain ⟨hphase, hsame⟩ := Option.ite_none_right_eq_some.mp h
      by_cases hcurrent : sh.generation = task.generation
      · rw [if_pos hcurrent] at hsame
        cases hsame
        exact .lock hphase hcurrent
      · rw [if_neg hcurrent] at hsame
        cases hsame
        exact .stale hphase hcurrent
  | notified =>
      obtain ⟨hphase, hsame⟩ := Option.ite_none_right_eq_some.mp h
      by_cases hcurrent : sh.generation = task.generation
      · rw [if_neg (not_not.mpr hcurrent)] at hsame
        by_cases hfits : task.Fits last sh.now
        · rw [if_pos hfits] at hsame
          cases hsame
          exact .rearm hphase hcurrent hfits
        · rw [if_neg hfits] at hsame
          cases hsame
          exact .rearmPanics hphase hcurrent hfits
      · rw [if_pos hcurrent] at hsame
        cases hsame
        exact .finish hphase hcurrent

/-- A timer step keeps the generation, and the state unless it locks. -/
theorem timerStep_frame {last : Nat} {sh sh' : Shared} {t : Nat} {task : TimerTask}
    {action : TimerAction} (h : sh.timerStep last t task action = some sh') :
    sh'.generation = sh.generation ∧ sh'.writer = sh.writer ∧
      (sh'.state = sh.state ∨ sh'.state = .locked) := by
  cases timerMoves_of_step h with
  | lock hphase hcurrent => exact ⟨rfl, rfl, Or.inr rfl⟩
  | _ => exact ⟨rfl, rfl, Or.inl rfl⟩

end Shared

/-- The methods that change a session do not lock or unlock. -/
theorem SessionUpdate.isUnlocked_apply (env : Env) (op : SessionUpdate) (st : VaultState) :
    (op.apply env st).IsUnlocked ↔ st.IsUnlocked := by
  cases st with
  | locked => cases op <;> exact Iff.rfl
  | unlocked s =>
      cases op with
      | store call =>
          have hkeep : ∃ s', (withUnlockedPayloadMut env.serde call.body.run (.unlocked s)).2 =
              .unlocked s' := by
            simp only [withUnlockedPayloadMut]
            split
            · exact ⟨_, rfl⟩
            · split <;> exact ⟨_, rfl⟩
          obtain ⟨s', hs'⟩ := hkeep
          simp only [apply, StoreCall.run, hs']
          exact Iff.rfl
      | _ => exact Iff.rfl

/-! ## The steps of a call -/

/-- What the next step of a call can be. -/
inductive Call.Moves (env : Env) (sh : Shared) : Call → Call → Shared → Prop
  | drawUnlock (request : UnlockRequest) :
      Moves env sh (.unlock request .start) (.unlock request (.drawn (sh.generation + 1)))
        { sh with generation := sh.generation + 1 }
  | writeUnlock (request : UnlockRequest) (g : Nat) :
      Moves env sh (.unlock request (.drawn g)) (.unlock request (.written g))
        { sh with
          state := .unlockWithPlaintextJsonWithContext request.plaintextJson request.authStrength
            request.unlockOutcome request.runtimeState
          writer := g }
  | cancelUnlock (request : UnlockRequest) (g : Nat) :
      Moves env sh (.unlock request (.written g)) (.unlock request (.cancelled g))
        sh.cancelAutoLock
  | rotate (request : UnlockRequest) (g : Nat) :
      Moves env sh (.unlock request (.cancelled g)) (.unlock request (.rotated g sh.handles))
        { sh with notify := sh.handles, handles := sh.handles + 1 }
  | spawn (request : UnlockRequest) (g cycleNotify : Nat) :
      Moves env sh (.unlock request (.rotated g cycleNotify))
        (.unlock request (.spawned g sh.tasks.length))
        { sh with
          tasks := sh.tasks ++
            [{ generation := g, cycleNotify := cycleNotify, timeout := request.timeout
               deadline := 0, phase := .spawned, aborted := false }] }
  | keepHandle (request : UnlockRequest) (g t : Nat) :
      Moves env sh (.unlock request (.spawned g t)) (.unlock request (.returned g))
        { sh with autoLockTask := some t }
  | drawLock :
      Moves env sh (.lock .start) (.lock (.drawn (sh.generation + 1)))
        { sh with generation := sh.generation + 1 }
  | writeLock (g : Nat) :
      Moves env sh (.lock (.drawn g)) (.lock (.written g)) { sh with state := .locked }
  | cancelLock (g : Nat) :
      Moves env sh (.lock (.written g)) (.lock (.returned g)) sh.cancelAutoLock
  | cloneNotify :
      Moves env sh (.notifyActivity none false) (.notifyActivity (some sh.notify) false) sh
  | notifyOne (n : Nat) :
      Moves env sh (.notifyActivity (some n) false) (.notifyActivity (some n) true)
        { sh with permits := n :: sh.permits.erase n }
  | disclose (request : DisclosureRequest) (pc pc' : DisclosePc)
      (hpc : request.advance env sh.state pc = some pc') :
      Moves env sh (.disclose request pc) (.disclose request pc') sh
  | update (op : SessionUpdate) :
      Moves env sh (.update op false) (.update op true) { sh with state := op.apply env sh.state }

theorem Call.moves_of_advance {env : Env} {sh sh' : Shared} {call call' : Call}
    (h : call.advance env sh = some (call', sh')) : Call.Moves env sh call call' sh' := by
  cases call with
  | unlock request pc =>
      obtain ⟨⟨pc', shared⟩, h, hsame⟩ := Option.map_eq_some_iff.mp h
      cases hsame
      cases pc with
      | start =>
          cases h
          exact .drawUnlock request
      | drawn g =>
          cases h
          exact .writeUnlock request g
      | written g =>
          cases h
          exact .cancelUnlock request g
      | cancelled g =>
          cases h
          exact .rotate request g
      | rotated g cycleNotify =>
          cases h
          exact .spawn request g cycleNotify
      | spawned g t =>
          cases h
          exact .keepHandle request g t
      | returned g => cases h
  | lock pc =>
      obtain ⟨⟨pc', shared⟩, h, hsame⟩ := Option.map_eq_some_iff.mp h
      cases hsame
      cases pc with
      | start =>
          cases h
          exact .drawLock
      | drawn g =>
          cases h
          exact .writeLock g
      | written g =>
          cases h
          exact .cancelLock g
      | returned g => cases h
  | notifyActivity cloned returned =>
      cases returned with
      | true => cases cloned <;> cases h
      | false =>
          cases cloned with
          | none =>
              cases h
              exact .cloneNotify
          | some n =>
              cases h
              exact .notifyOne n
  | disclose request pc =>
      obtain ⟨pc', hpc, hsame⟩ := Option.map_eq_some_iff.mp h
      cases hsame
      exact .disclose request pc pc' hpc
  | update op returned =>
      cases returned with
      | true => cases h
      | false =>
          cases h
          exact .update op
  | skip => cases h

/-- A step of a call keeps the generation counter and the generation of the call, or draws a
fresh one. -/
theorem Call.advance_generation {env : Env} {sh sh' : Shared} {call call' : Call}
    (h : call.advance env sh = some (call', sh')) :
    (call'.generation? = call.generation? ∧ sh'.generation = sh.generation) ∨
      (call.generation? = none ∧ call'.generation? = some (sh.generation + 1) ∧
        sh'.generation = sh.generation + 1) := by
  cases Call.moves_of_advance h with
  | drawUnlock request => exact Or.inr ⟨rfl, rfl, rfl⟩
  | drawLock => exact Or.inr ⟨rfl, rfl, rfl⟩
  | cancelUnlock request g => exact Or.inl ⟨rfl, Shared.cancelAutoLock_generation sh⟩
  | cancelLock g => exact Or.inl ⟨rfl, Shared.cancelAutoLock_generation sh⟩
  | _ => exact Or.inl ⟨rfl, rfl⟩

/-- What a step of a call does to the state: a lock call locks, an unlock call unlocks and
becomes the writer, and any other step neither locks nor unlocks. -/
theorem Call.advance_state {env : Env} {sh sh' : Shared} {call call' : Call}
    (h : call.advance env sh = some (call', sh')) :
    (∃ g, call = .lock (.drawn g) ∧ call' = .lock (.written g) ∧ sh'.state = .locked ∧
        sh'.writer = sh.writer) ∨
      (∃ request g, call = .unlock request (.drawn g) ∧ call' = .unlock request (.written g) ∧
        sh'.state.IsUnlocked ∧ sh'.writer = g) ∨
      ((∀ g, call ≠ .lock (.drawn g)) ∧ (∀ request g, call ≠ .unlock request (.drawn g)) ∧
        (sh'.state.IsUnlocked ↔ sh.state.IsUnlocked) ∧ sh'.writer = sh.writer) := by
  cases Call.moves_of_advance h with
  | writeUnlock request g => exact Or.inr (Or.inl ⟨request, g, rfl, rfl, trivial, rfl⟩)
  | writeLock g => exact Or.inl ⟨g, rfl, rfl, rfl, rfl⟩
  | update op =>
      exact Or.inr (Or.inr ⟨by simp, by simp, op.isUnlocked_apply env sh.state, rfl⟩)
  | _ => exact Or.inr (Or.inr ⟨by simp, by simp, by simp, by simp⟩)

/-! ## Generations are drawn once -/

namespace World

/-- An event changes one call, or appends one, or only touches the tasks and the clock. -/
theorem step_cases {env : Env} {w w' : World} {ev : Event} (h : w.step env ev = some w') :
    (∃ request, ev = .invoke request ∧ w' = ⟨w.shared, w.calls ++ [request.start]⟩) ∨
      (∃ i call call' sh', ev = .advance i ∧ w.calls[i]? = some call ∧
        call.advance env w.shared = some (call', sh') ∧ w' = ⟨sh', w.calls.set i call'⟩) ∨
      (∃ t task action sh', ev = .timer t action ∧ w.shared.tasks[t]? = some task ∧
        w.shared.timerStep env.lastInstant t task action = some sh' ∧ w' = ⟨sh', w.calls⟩) ∨
      (∃ d, ev = .tick d ∧ w.shared.now + d ≤ env.lastInstant ∧
        w' = ⟨{ w.shared with now := w.shared.now + d }, w.calls⟩) := by
  cases ev with
  | invoke request =>
      left
      exact ⟨request, rfl, (Option.some.inj h).symm⟩
  | advance i =>
      right
      left
      simp only [step, Option.bind_eq_some_iff, Option.map_eq_some_iff] at h
      obtain ⟨call, hcall, ⟨call', sh'⟩, hadvance, rfl⟩ := h
      exact ⟨i, call, call', sh', rfl, hcall, hadvance, rfl⟩
  | timer t action =>
      right
      right
      left
      simp only [step, Option.bind_eq_some_iff, Option.map_eq_some_iff] at h
      obtain ⟨task, htask, sh', hstep, rfl⟩ := h
      exact ⟨t, task, action, sh', rfl, htask, hstep, rfl⟩
  | tick d =>
      right
      right
      right
      obtain ⟨hlast, hsame⟩ := Option.ite_none_right_eq_some.mp h
      exact ⟨d, rfl, hlast, (Option.some.inj hsame).symm⟩

/-- The generations drawn so far are at most the counter, and each belongs to one call. -/
structure Numbered (w : World) : Prop where
  le_generation : ∀ (i : Nat) (call : Call) (g : Nat), w.calls[i]? = some call →
    call.generation? = some g → g ≤ w.shared.generation
  unique : ∀ (i j : Nat) (call call' : Call) (g : Nat), w.calls[i]? = some call →
    w.calls[j]? = some call' → call.generation? = some g → call'.generation? = some g → i = j

theorem numbered_new : Numbered new where
  le_generation i call g hcall := by simp [new] at hcall
  unique i j call call' g hcall := by simp [new] at hcall

/-- An unlock call is made by its request, and starts. -/
theorem unlock_of_start {request : Request} {unlock : UnlockRequest} {pc : UnlockPc}
    (h : request.start = .unlock unlock pc) : request = .unlock unlock ∧ pc = .start := by
  cases request with
  | unlock request =>
      cases h
      exact ⟨rfl, rfl⟩
  | handleRuntimeSecurityEvent ev => cases ev <;> cases h
  | _ => cases h

/-- A disclosure call is made by its request, and starts. -/
theorem disclose_of_start {request : Request} {disclosure : DisclosureRequest} {pc : DisclosePc}
    (h : request.start = .disclose disclosure pc) :
    request = .disclose disclosure ∧ pc = .start := by
  cases request with
  | disclose request =>
      cases h
      exact ⟨rfl, rfl⟩
  | handleRuntimeSecurityEvent ev => cases ev <;> cases h
  | _ => cases h

/-- An invoked call has not drawn a generation. -/
theorem generation?_start (request : Request) : request.start.generation? = none := by
  cases request with
  | handleRuntimeSecurityEvent ev => cases ev <;> rfl
  | _ => rfl

/-- A step draws at most one generation, the next one. -/
theorem numbered_step {env : Env} {w w' : World} {ev : Event} (hw : Numbered w)
    (h : w.step env ev = some w') : Numbered w' := by
  rcases step_cases h with ⟨request, rfl, rfl⟩ | ⟨i, call, call', sh', rfl, hcall, hadv, rfl⟩ |
    ⟨t, task, action, sh', rfl, _, hstep, rfl⟩ | ⟨d, rfl, -, rfl⟩
  · constructor
    · intro i call g hcall hg
      rcases getElem?_append_singleton hcall with hcall | ⟨-, rfl⟩
      · exact hw.le_generation i call g hcall hg
      · simp [generation?_start] at hg
    · intro i j call call' g hcall hcall' hg hg'
      rcases getElem?_append_singleton hcall with hcall | ⟨-, rfl⟩
      · rcases getElem?_append_singleton hcall' with hcall' | ⟨-, rfl⟩
        · exact hw.unique i j call call' g hcall hcall' hg hg'
        · simp [generation?_start] at hg'
      · simp [generation?_start] at hg
  · -- the call that moves is the only one whose generation can be new
    rcases Call.advance_generation hadv with ⟨hgen, hsh⟩ | ⟨hnone, hnew, hsh⟩
    · have hold : ∀ (j : Nat) (c : Call) (g : Nat), (w.calls.set i call')[j]? = some c →
          c.generation? = some g → ∃ c' : Call, w.calls[j]? = some c' ∧
            c'.generation? = some g := by
        intro j c g hc hg
        rcases getElem?_set_cases hc with ⟨rfl, rfl⟩ | ⟨_, hc'⟩
        · exact ⟨call, hcall, hgen ▸ hg⟩
        · exact ⟨c, hc', hg⟩
      constructor
      · intro j c g hc hg
        obtain ⟨c', hc', hg'⟩ := hold j c g hc hg
        exact hsh ▸ hw.le_generation j c' g hc' hg'
      · intro j k c d g hc hd hg hg'
        obtain ⟨c', hc', hcg⟩ := hold j c g hc hg
        obtain ⟨d', hd', hdg⟩ := hold k d g hd hg'
        exact hw.unique j k c' d' g hc' hd' hcg hdg
    · constructor
      · intro j c g hc hg
        simp only [hsh]
        rcases getElem?_set_cases hc with ⟨rfl, rfl⟩ | ⟨_, hc'⟩
        · rw [hnew] at hg
          cases hg
          exact Nat.le_refl _
        · exact Nat.le_succ_of_le (hw.le_generation j c g hc' hg)
      · intro j k c d g hc hd hg hg'
        rcases getElem?_set_cases hc with ⟨hij, hcc⟩ | ⟨_, hc'⟩
        · rcases getElem?_set_cases hd with ⟨hik, _⟩ | ⟨_, hd'⟩
          · exact hij.symm.trans hik
          · rw [hcc, hnew] at hg
            cases hg
            have hle := hw.le_generation k d _ hd' hg'
            omega
        · rcases getElem?_set_cases hd with ⟨_, hdd⟩ | ⟨_, hd'⟩
          · rw [hdd, hnew] at hg'
            cases hg'
            have hle := hw.le_generation j c _ hc' hg
            omega
          · exact hw.unique j k c d g hc' hd' hg hg'
  · have hsh := (Shared.timerStep_frame hstep).1
    exact ⟨fun i call g hcall hg => hsh ▸ hw.le_generation i call g hcall hg, hw.unique⟩
  · exact ⟨hw.le_generation, hw.unique⟩

/-- The call is a lock call of generation `l` that has written the state. -/
def LockWritten (l : Nat) (call : Call) : Prop :=
  call = .lock (.written l) ∨ call = .lock (.returned l)

/-- After a lock call has returned, the vault is locked until an unlock call with a later
generation writes the state. -/
def LockDominates (w : World) : Prop :=
  ∀ l, Call.lock (.returned l) ∈ w.calls → w.shared.state.IsUnlocked → l < w.shared.writer

/-- An unlock call writes the state although a lock call with a later generation has written
it already. -/
def OverwritesLaterLock (w : World) : Event → Prop
  | .advance i => ∃ request g l call, w.calls[i]? = some (.unlock request (.drawn g)) ∧
      call ∈ w.calls ∧ LockWritten l call ∧ g < l
  | _ => False

/-- Dominance from the write of the lock call on. -/
def Dominated (w : World) : Prop :=
  ∀ l call, call ∈ w.calls → LockWritten l call → w.shared.state.IsUnlocked → l < w.shared.writer

theorem lockWritten_generation? {l : Nat} {call : Call} (h : LockWritten l call) :
    call.generation? = some l := by
  rcases h with rfl | rfl <;> rfl

/-- A call that has written as a lock call after its step had written before it, unless the
step was the write. -/
theorem lockWritten_of_advance {env : Env} {sh sh' : Shared} {call call' : Call} {l : Nat}
    (h : call.advance env sh = some (call', sh')) (hl : LockWritten l call') :
    LockWritten l call ∨ call = .lock (.drawn l) := by
  cases Call.moves_of_advance h with
  | writeLock g =>
      right
      rcases hl with hl | hl
      · cases hl
        rfl
      · cases hl
  | cancelLock g =>
      left
      rcases hl with hl | hl
      · cases hl
      · cases hl
        exact Or.inl rfl
  | _ => simp [LockWritten] at hl

theorem dominated_step {env : Env} {w w' : World} {ev : Event} (hnum : Numbered w)
    (hw : Dominated w) (hgood : ¬ OverwritesLaterLock w ev) (h : w.step env ev = some w') :
    Dominated w' := by
  rcases step_cases h with ⟨request, rfl, rfl⟩ | ⟨i, call, call', sh', rfl, hcall, hadv, rfl⟩ |
    ⟨t, task, action, sh', rfl, _, hstep, rfl⟩ | ⟨d, rfl, -, rfl⟩
  · intro l call hmem hl hunlocked
    rcases List.mem_append.mp hmem with hmem | hmem
    · exact hw l call hmem hl hunlocked
    · have hgen := lockWritten_generation? hl
      rw [List.mem_singleton.mp hmem, generation?_start] at hgen
      cases hgen
  · intro l c hmem hl hunlocked
    rcases Call.advance_state hadv with ⟨g, rfl, rfl, hlocked, _⟩ |
      ⟨request, g, rfl, rfl, _, hwriter⟩ | ⟨hnolock, _, hiff, hwriter⟩
    · rw [hlocked] at hunlocked
      exact absurd hunlocked (by simp [VaultState.IsUnlocked])
    · -- an unlock call writes: every lock call that has written drew an earlier generation
      simp only [hwriter]
      rcases List.mem_or_eq_of_mem_set hmem with hold | hnew
      · have hle : ¬ g < l := fun hlt => hgood ⟨request, g, l, c, hcall, hold, hl, hlt⟩
        have hne : l ≠ g := by
          rintro rfl
          obtain ⟨j, hj⟩ := List.mem_iff_getElem?.mp hold
          have hji := hnum.unique i j _ c l hcall hj rfl (lockWritten_generation? hl)
          subst hji
          rw [hcall] at hj
          cases hj
          rcases hl with hl | hl <;> cases hl
        omega
      · rw [hnew] at hl
        rcases hl with hl | hl <;> cases hl
    · simp only [hwriter]
      have hbefore : w.shared.state.IsUnlocked := hiff.mp hunlocked
      rcases List.mem_or_eq_of_mem_set hmem with hold | hnew
      · exact hw l c hold hl hbefore
      · rcases lockWritten_of_advance hadv (hnew ▸ hl) with hold | hdrawn
        · exact hw l call (List.mem_of_getElem? hcall) hold hbefore
        · exact absurd hdrawn (hnolock l)
  · obtain ⟨_, hwriter, hstate⟩ := Shared.timerStep_frame hstep
    intro l call hmem hl hunlocked
    simp only [hwriter]
    rcases hstate with hstate | hstate
    · exact hw l call hmem hl (hstate ▸ hunlocked)
    · rw [hstate] at hunlocked
      exact absurd hunlocked (by simp [VaultState.IsUnlocked])
  · exact hw

/-- In a run in which no unlock call overwrites a later lock, a lock call that has returned
dominates in every state. -/
theorem lockDominates_of_run {env : Env} {es : List Event} {w : World}
    (hgood : EveryStep (step env) (fun w ev => ¬ OverwritesLaterLock w ev) new es)
    (h : exec (step env) new es = some w) : LockDominates w := by
  have hinv : Numbered w ∧ Dominated w := by
    refine exec_invariant_of_everyStep (fun w ev => ¬ OverwritesLaterLock w ev)
      (fun w => Numbered w ∧ Dominated w) ?_ ?_ hgood h
    · rintro s ev s' ⟨hnum, hdom⟩ hgood hstep
      exact ⟨numbered_step hnum hstep, dominated_step hnum hdom hgood hstep⟩
    · refine ⟨numbered_new, ?_⟩
      intro l call hmem
      simp [new] at hmem
  intro l hmem hunlocked
  exact hinv.2 l _ hmem (Or.inr rfl) hunlocked

/-- An environment for concrete runs. -/
def sampleEnv : Env where
  serde := payloadJson
  totpGenerateFormatted _ _ := none
  lastInstant := (2 ^ 63 - 1) * 1000000000 + 999999999

/-- A request for a strong primary session. -/
def strongUnlock : UnlockRequest where
  plaintextJson := payloadBytes ⟨[]⟩
  timeout := 60
  authStrength := .strong
  unlockOutcome := .primary
  runtimeState := .notDebugged

theorem not_overwrites_of_ne {w : World} {i : Nat} {call : Call} (hcall : w.calls[i]? = some call)
    (hne : ∀ request g, call ≠ .unlock request (.drawn g)) :
    ¬ OverwritesLaterLock w (.advance i) := by
  rintro ⟨request, g, l, other, hcall', -⟩
  rw [hcall] at hcall'
  exact hne request g (Option.some.inj hcall')

/-- A lock call writes, then an unlock call with a later generation does. -/
def lockThenUnlock : List Event :=
  [.invoke .lock, .advance 0, .advance 0, .invoke (.unlock strongUnlock), .advance 1, .advance 1,
   .advance 0]

/-- The theorem on a run in which a later unlock call writes after the lock call. -/
theorem lockDominates_of_run_lockThenUnlock :
    ∃ w, exec (step sampleEnv) new lockThenUnlock = some w ∧ LockDominates w := by
  have hgood : EveryStep (step sampleEnv) (fun w ev => ¬ OverwritesLaterLock w ev) new
      lockThenUnlock := by
    refine everyStep_cons_of_eq id rfl ?_
    refine everyStep_cons_of_eq (not_overwrites_of_ne rfl (by rintro _ _ ⟨⟩)) rfl ?_
    refine everyStep_cons_of_eq (not_overwrites_of_ne rfl (by rintro _ _ ⟨⟩)) rfl ?_
    refine everyStep_cons_of_eq id rfl ?_
    refine everyStep_cons_of_eq (not_overwrites_of_ne rfl (by rintro _ _ ⟨⟩)) rfl ?_
    refine everyStep_cons_of_eq ?_ rfl ?_
    · -- the write comes with a later generation than that of the lock call
      rintro ⟨request, g, l, call, hcall, hmem, hl, hlt⟩
      cases hcall
      change call ∈ [Call.lock (.written 2), Call.unlock strongUnlock (.drawn 3)] at hmem
      rcases hl with rfl | rfl
      · obtain rfl : l = 2 := by simpa using hmem
        exact absurd hlt (by decide)
      · simp at hmem
    exact everyStep_cons_of_eq (not_overwrites_of_ne rfl (by rintro _ _ ⟨⟩)) rfl trivial
  exact ⟨_, rfl, lockDominates_of_run hgood rfl⟩

/-- An unlock call draws its generation, a lock call runs to its end, and the unlock call
writes. -/
def unlockAcrossLock : List Event :=
  [.invoke (.unlock strongUnlock), .advance 0, .invoke .lock, .advance 1, .advance 1, .advance 1,
   .advance 0]

/-- The vault is unlocked by generation 2 after the lock call of generation 3 has returned. -/
theorem unlockAcrossLock_not_dominated :
    ∃ w, exec (step sampleEnv) new unlockAcrossLock = some w ∧
      Call.lock (.returned 3) ∈ w.calls ∧ w.shared.state.IsUnlocked ∧ w.shared.writer = 2 ∧
      ¬ LockDominates w := by
  refine ⟨_, rfl, ?_, trivial, rfl, ?_⟩
  · simp [new, Request.start, Shared.new]
  · intro h
    have hlt := h 3 (by simp [new, Request.start, Shared.new]) trivial
    exact absurd hlt (by decide)

/-- Every overwrite breaks dominance as soon as the overwritten lock call has returned. -/
theorem overwrite_breaks_dominance {env : Env} {w : World} {ev : Event}
    (hbad : OverwritesLaterLock w ev) :
    ∃ es w', exec (step env) w (ev :: es) = some w' ∧ ¬ LockDominates w' := by
  cases ev with
  | advance i =>
      obtain ⟨request, g, l, call, hcall, hmem, hl, hlt⟩ := hbad
      obtain ⟨j, hj⟩ := List.mem_iff_getElem?.mp hmem
      have hij : i ≠ j := by
        rintro rfl
        rw [hcall] at hj
        cases hj
        rcases hl with hl | hl <;> cases hl
      obtain ⟨sh, hwrite, hunlocked, hwriter⟩ : ∃ sh, step env w (.advance i) =
          some ⟨sh, w.calls.set i (.unlock request (.written g))⟩ ∧ sh.state.IsUnlocked ∧
            sh.writer = g :=
        ⟨{ w.shared with
            state := .unlockWithPlaintextJsonWithContext request.plaintextJson
              request.authStrength request.unlockOutcome request.runtimeState
            writer := g },
          by simp [step, hcall, Call.advance, UnlockRequest.advance], trivial, rfl⟩
      have hj' : (w.calls.set i (.unlock request (.written g)))[j]? = some call := by
        rw [List.getElem?_set_ne hij]
        exact hj
      rcases hl with rfl | rfl
      · -- the lock call has written: let it return
        refine ⟨[.advance j], ⟨sh.cancelAutoLock,
          (w.calls.set i (.unlock request (.written g))).set j (.lock (.returned l))⟩,
          exec_cons_eq_some.mpr ⟨_, hwrite, ?_⟩, ?_⟩
        · simp [exec, step, hj', Call.advance, LockPc.advance]
        · intro h
          have hin : Call.lock (.returned l) ∈
              (w.calls.set i (.unlock request (.written g))).set j (.lock (.returned l)) := by
            have hlen : j < (w.calls.set i (.unlock request (.written g))).length :=
              (List.getElem?_eq_some_iff.mp hj').1
            exact List.mem_set hlen _
          have hlt' := h l hin (by simpa using hunlocked)
          simp only [Shared.cancelAutoLock_writer, hwriter] at hlt'
          omega
      · refine ⟨[], _, exec_cons_eq_some.mpr ⟨_, hwrite, rfl⟩, ?_⟩
        intro h
        have hlt' := h l (List.mem_of_getElem? hj') hunlocked
        simp only [hwriter] at hlt'
        omega
  | _ => exact absurd hbad (by simp [OverwritesLaterLock])

end World

end ViperVault
