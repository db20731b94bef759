import ViperVault.Core.Generations

/-!
# Stale timers

The timer task that found its deadline takes the state mutex, loads the generation counter,
compares it with the generation it was spawned with, and only then writes. Here these are steps
of their own, and generations are drawn between them. What the mutex keeps out is enough: the
state that a task replaces was not written by an unlock call with a later generation.
-/

namespace ViperVault

open Foundation

/-- Where the task stands that holds the state mutex. -/
inductive HolderPhase
  /-- the mutex was taken; the counter is next -/
  | acquired
  /-- the counter was loaded and compared with the generation of the task -/
  | compared (current : Bool)
  deriving DecidableEq

/-- The manager, its calls, and the timer task that holds the state mutex, if one does. -/
structure TimerWorld where
  world : World
  holder : Option (Nat × HolderPhase)

/-- A step of the system. The last three are what a timer task does under the state mutex. -/
inductive TimerEvent
  | other (ev : Event)
  | acquire (t : Nat)
  | compare
  | release

/-- The next step of the call takes the state mutex. -/
def Call.takesState : Call → Bool
  | .unlock _ (.drawn _) | .lock (.drawn _) | .disclose _ _ | .update _ _ => true
  | _ => false

/-- The event takes the state mutex for its length. -/
def World.takesState (w : World) : Event → Bool
  | .advance i => (w.calls[i]?).any Call.takesState
  | .timer _ action => action = .lockState
  | _ => false

namespace TimerWorld

/-- A new manager, with no calls. -/
def new : TimerWorld := ⟨World.new, none⟩

/-- One event. While a task holds the state mutex, no other step takes it. -/
def step (env : Env) (w : TimerWorld) : TimerEvent → Option TimerWorld
  | .other (.timer _ .lockState) => none
  | .other ev =>
      if w.holder.isSome && w.world.takesState ev then none
      else (w.world.step env ev).map fun world => { w with world := world }
  | .acquire t =>
      (w.world.shared.tasks[t]?).bind fun task =>
        if task.phase = .expired ∧ w.holder = none then
          some { w with holder := some (t, .acquired) }
        else none
  | .compare =>
      match w.holder with
      | some (t, .acquired) =>
          (w.world.shared.tasks[t]?).map fun task =>
            { w with
              holder := some (t, .compared (w.world.shared.generation = task.generation)) }
      | _ => none
  | .release =>
      match w.holder with
      | some (t, .compared current) =>
          let sh := w.world.shared.modifyTask t fun task => { task with phase := .finished }
          let sh' := if current then { sh with state := .locked } else sh
          some ⟨{ w.world with shared := sh' }, none⟩
      | _ => none

end TimerWorld

/-! ## What the steps of the manager keep -/

/-- The generations that the tasks were spawned with. -/
def Shared.taskGenerations (sh : Shared) : List Nat := sh.tasks.map TimerTask.generation

namespace Shared

theorem taskGenerations_modifyTask (sh : Shared) (t : Nat) {f : TimerTask → TimerTask}
    (hf : ∀ task, (f task).generation = task.generation) :
    (sh.modifyTask t f).taskGenerations = sh.taskGenerations := by
  apply List.ext_getElem?
  intro u
  simp only [taskGenerations, modifyTask_tasks, List.getElem?_map, List.getElem?_modify]
  by_cases htu : t = u
  · cases hu : sh.tasks[u]? with
    | none => simp [htu]
    | some task => simp [htu, hf]
  · cases hu : sh.tasks[u]? with
    | none => simp [htu]
    | some task => simp [htu]

theorem taskGenerations_cancelAutoLock (sh : Shared) :
    sh.cancelAutoLock.taskGenerations = sh.taskGenerations := by
  unfold cancelAutoLock
  split
  · rfl
  · exact taskGenerations_modifyTask sh _ fun _ => rfl

theorem taskGenerations_timerStep {last : Nat} {sh sh' : Shared} {t : Nat} {task : TimerTask}
    {action : TimerAction} (h : sh.timerStep last t task action = some sh') :
    sh'.taskGenerations = sh.taskGenerations := by
  cases timerMoves_of_step h with
  | _ => exact taskGenerations_modifyTask _ t fun _ => rfl

end Shared

/-- A step of a call spawns at most one task, behind the others. -/
theorem Call.taskGenerations_advance {env : Env} {sh sh' : Shared} {call call' : Call}
    (h : call.advance env sh = some (call', sh')) :
    sh.taskGenerations <+: sh'.taskGenerations := by
  cases Call.moves_of_advance h with
  | cancelUnlock request g => rw [Shared.taskGenerations_cancelAutoLock]
  | cancelLock g => rw [Shared.taskGenerations_cancelAutoLock]
  | spawn request g cycleNotify =>
      simp only [Shared.taskGenerations, List.map_append]
      exact List.prefix_append _ _
  | _ => exact List.prefix_refl _

namespace World

/-- The generation that a task was spawned with. -/
def generationOf (w : World) (t : Nat) : Option Nat := w.shared.taskGenerations[t]?

theorem generationOf_of_task {w : World} {t : Nat} {task : TimerTask}
    (h : w.shared.tasks[t]? = some task) : w.generationOf t = some task.generation := by
  rw [generationOf, Shared.taskGenerations, List.getElem?_map, h]
  rfl

/-- A task keeps the generation it was spawned with. -/
theorem generationOf_step {env : Env} {w w' : World} {ev : Event} {t g : Nat}
    (h : w.step env ev = some w') (hg : w.generationOf t = some g) :
    w'.generationOf t = some g := by
  have hprefix : w.shared.taskGenerations <+: w'.shared.taskGenerations := by
    rcases step_cases h with ⟨request, rfl, rfl⟩ | ⟨i, call, call', sh', rfl, -, hadv, rfl⟩ |
      ⟨t, task, action, sh', rfl, -, hstep, rfl⟩ | ⟨d, rfl, -, rfl⟩
    · exact List.prefix_refl _
    · exact Call.taskGenerations_advance hadv
    · rw [Shared.taskGenerations_timerStep hstep]
    · exact List.prefix_refl _
  obtain ⟨more, hmore⟩ := hprefix
  obtain ⟨hlt, -⟩ := List.getElem?_eq_some_iff.mp hg
  rw [generationOf, ← hmore, List.getElem?_append_left hlt]
  exact hg

/-- The writer of the state drew its generation from the counter. -/
theorem writer_le_step {env : Env} {w w' : World} {ev : Event} (hnum : Numbered w)
    (hw : w.shared.writer ≤ w.shared.generation) (h : w.step env ev = some w') :
    w'.shared.writer ≤ w'.shared.generation := by
  rcases step_cases h with ⟨request, rfl, rfl⟩ | ⟨i, call, call', sh', rfl, hcall, hadv, rfl⟩ |
    ⟨t, task, action, sh', rfl, -, hstep, rfl⟩ | ⟨d, rfl, -, rfl⟩
  · exact hw
  · have hmono : w.shared.generation ≤ sh'.generation := by
      rcases Call.advance_generation hadv with ⟨-, hsame⟩ | ⟨-, -, hnext⟩
      · exact Nat.le_of_eq hsame.symm
      · omega
    rcases Call.advance_state hadv with ⟨g, -, -, -, hwriter⟩ | ⟨request, g, rfl, -, -, hwriter⟩ |
      ⟨-, -, -, hwriter⟩
    · calc sh'.writer = w.shared.writer := hwriter
        _ ≤ w.shared.generation := hw
        _ ≤ sh'.generation := hmono
    · calc sh'.writer = g := hwriter
        _ ≤ w.shared.generation := hnum.le_generation i _ g hcall rfl
        _ ≤ sh'.generation := hmono
    · calc sh'.writer = w.shared.writer := hwriter
        _ ≤ w.shared.generation := hw
        _ ≤ sh'.generation := hmono
  · obtain ⟨hgeneration, hwriter, -⟩ := Shared.timerStep_frame hstep
    rw [hgeneration, hwriter]
    exact hw
  · exact hw

/-- A step that does not take the state mutex does not write as an unlock call. -/
theorem writer_of_not_takesState {env : Env} {w w' : World} {ev : Event}
    (hfree : w.takesState ev = false) (h : w.step env ev = some w') :
    w'.shared.writer = w.shared.writer := by
  rcases step_cases h with ⟨request, rfl, rfl⟩ | ⟨i, call, call', sh', rfl, hcall, hadv, rfl⟩ |
    ⟨t, task, action, sh', rfl, -, hstep, rfl⟩ | ⟨d, rfl, -, rfl⟩
  · rfl
  · rcases Call.advance_state hadv with ⟨g, -, -, -, hwriter⟩ | ⟨request, g, rfl, -, -, -⟩ |
      ⟨-, -, -, hwriter⟩
    · exact hwriter
    · simp [takesState, hcall, Call.takesState] at hfree
    · exact hwriter
  · exact (Shared.timerStep_frame hstep).2.1
  · rfl

end World

/-! ## The invariant -/

namespace TimerWorld

/-- A task whose comparison succeeded is not older than the writer of the state. -/
structure Timely (w : TimerWorld) : Prop where
  numbered : World.Numbered w.world
  writer_le : w.world.shared.writer ≤ w.world.shared.generation
  spawned : ∀ t phase, w.holder = some (t, phase) → ∃ g, w.world.generationOf t = some g
  current : ∀ t g, w.holder = some (t, .compared true) → w.world.generationOf t = some g →
    w.world.shared.writer ≤ g

theorem timely_new : Timely new where
  numbered := World.numbered_new
  writer_le := by decide
  spawned := by
    intro t phase h
    cases h
  current := by
    intro t g h
    cases h

/-- What an event does to the world and to the holder of the mutex. -/
theorem step_cases {env : Env} {w w' : TimerWorld} {ev : TimerEvent}
    (h : w.step env ev = some w') :
    (∃ e world', ev = .other e ∧ w.world.step env e = some world' ∧
        (w.holder.isSome → w.world.takesState e = false) ∧ w' = ⟨world', w.holder⟩) ∨
      (∃ t task, ev = .acquire t ∧ w.world.shared.tasks[t]? = some task ∧ w.holder = none ∧
        w' = ⟨w.world, some (t, .acquired)⟩) ∨
      (∃ t task, ev = .compare ∧ w.world.shared.tasks[t]? = some task ∧
        w.holder = some (t, .acquired) ∧
        w' = ⟨w.world,
          some (t, .compared (w.world.shared.generation = task.generation))⟩) ∨
      (∃ t current, ev = .release ∧ w.holder = some (t, .compared current) ∧
        w'.holder = none ∧ w'.world.calls = w.world.calls ∧
        w'.world.shared.generation = w.world.shared.generation ∧
        w'.world.shared.writer = w.world.shared.writer ∧
        (w'.world.shared.state = if current then .locked else w.world.shared.state)) := by
  cases ev with
  | other e =>
      left
      have hstep : (if w.holder.isSome && w.world.takesState e then none
          else (w.world.step env e).map fun world => { w with world := world }) = some w' := by
        cases e with
        | timer t action =>
            cases action with
            | lockState => cases h
            | _ => exact h
        | _ => exact h
      simp only [Option.ite_none_left_eq_some, Option.map_eq_some_iff] at hstep
      obtain ⟨hfree, world', hworld, rfl⟩ := hstep
      refine ⟨e, world', rfl, hworld, ?_, rfl⟩
      intro hheld
      simpa [hheld] using hfree
  | acquire t =>
      right
      left
      simp only [step, Option.bind_eq_some_iff, Option.ite_none_right_eq_some,
        Option.some.injEq] at h
      obtain ⟨task, htask, ⟨-, hfree⟩, rfl⟩ := h
      exact ⟨t, task, rfl, htask, hfree, rfl⟩
  | compare =>
      right
      right
      left
      simp only [step] at h
      split at h
      · rename_i t hholder
        obtain ⟨task, htask, rfl⟩ := Option.map_eq_some_iff.mp h
        exact ⟨t, task, rfl, htask, hholder, rfl⟩
      · cases h
  | release =>
      right
      right
      right
      simp only [step] at h
      split at h
      · rename_i t current hholder
        cases h
        refine ⟨t, current, rfl, hholder, rfl, rfl, ?_, ?_, ?_⟩
        · split <;> rfl
        · split <;> rfl
        · split <;> rfl
      · cases h

/-- Between the comparison and the write no unlock call writes, whatever is drawn. -/
theorem timely_step {env : Env} {w w' : TimerWorld} {ev : TimerEvent} (hw : Timely w)
    (h : w.step env ev = some w') : Timely w' := by
  rcases step_cases h with ⟨e, world', rfl, hworld, hfree, rfl⟩ | ⟨t, task, rfl, htask, -, rfl⟩ |
    ⟨t, task, rfl, htask, -, rfl⟩ | ⟨t, current, rfl, -, hholder, hcalls, hgeneration, hwriter, -⟩
  · refine
      { numbered := World.numbered_step hw.numbered hworld
        writer_le := World.writer_le_step hw.numbered hw.writer_le hworld
        spawned := ?_
        current := ?_ }
    · intro t phase hholder
      obtain ⟨g, hg⟩ := hw.spawned t phase hholder
      exact ⟨g, World.generationOf_step hworld hg⟩
    · intro t g hholder hg
      obtain ⟨g', hg'⟩ := hw.spawned t _ hholder
      cases Option.some.inj ((World.generationOf_step hworld hg').symm.trans hg)
      have hheld : w.holder.isSome := by
        change w.holder = _ at hholder
        rw [hholder]
        rfl
      have hwriter := World.writer_of_not_takesState (hfree hheld) hworld
      exact hwriter ▸ hw.current t g hholder hg'
  · refine
      { numbered := hw.numbered
        writer_le := hw.writer_le
        spawned := ?_
        current := ?_ }
    · intro u phase hholder
      cases hholder
      exact ⟨task.generation, World.generationOf_of_task htask⟩
    · intro u g hholder
      cases hholder
  · refine
      { numbered := hw.numbered
        writer_le := hw.writer_le
        spawned := ?_
        current := ?_ }
    · intro u phase hholder
      cases hholder
      exact ⟨task.generation, World.generationOf_of_task htask⟩
    · intro u g hholder hg
      simp only [Option.some.injEq, Prod.mk.injEq, HolderPhase.compared.injEq,
        decide_eq_true_eq] at hholder
      obtain ⟨rfl, hequal⟩ := hholder
      cases Option.some.inj ((World.generationOf_of_task htask).symm.trans hg)
      calc w.world.shared.writer ≤ w.world.shared.generation := hw.writer_le
        _ = task.generation := hequal
  · refine
      { numbered := ?_
        writer_le := ?_
        spawned := ?_
        current := ?_ }
    · constructor
      · rw [hcalls, hgeneration]
        exact hw.numbered.le_generation
      · rw [hcalls]
        exact hw.numbered.unique
    · rw [hwriter, hgeneration]
      exact hw.writer_le
    · intro u phase h
      rw [hholder] at h
      cases h
    · intro u g h
      rw [hholder] at h
      cases h

theorem timely_of_run {env : Env} {es : List TimerEvent} {w : TimerWorld}
    (h : exec (step env) new es = some w) : Timely w :=
  exec_invariant Timely (fun _ _ _ => timely_step) timely_new h

/-! ## Newer sessions -/

/-- The step is that of a task of this generation which replaces an unlocked state by
`Locked`. -/
structure LocksAs (env : Env) (w w' : TimerWorld) (g : Nat) : Prop where
  step : ∃ t phase, w.holder = some (t, phase) ∧ w.world.generationOf t = some g ∧
    w.step env .release = some w'
  unlocked : w.world.shared.state.IsUnlocked
  locked : w'.world.shared.state = .locked

/-- A session expires, and its task takes the mutex and compares; before the task writes, another
unlock call draws its generation. -/
def expiryAcrossUnlock : List TimerEvent :=
  [.other (.invoke (.unlock World.strongUnlock)), .other (.advance 0), .other (.advance 0),
   .other (.advance 0), .other (.advance 0), .other (.advance 0), .other (.advance 0),
   .other (.timer 0 .start), .other (.tick 60), .other (.timer 0 .expire), .acquire 0, .compare,
   .other (.invoke (.unlock World.strongUnlock)), .other (.advance 1)]

/-- Whatever the interleaving, the state that a timer task replaces by `Locked` was not written
by an unlock call with a generation greater than the one the task was spawned with. -/
theorem stale_timer_never_locks_newer {env : Env} {es : List TimerEvent} {w w' : TimerWorld}
    {g : Nat} (h : exec (step env) new es = some w) (hlocks : LocksAs env w w' g) :
    w.world.shared.writer ≤ g := by
  have htimely := timely_of_run h
  obtain ⟨⟨t, phase, hholder, hg, hstep⟩, hunlocked, hlocked⟩ := hlocks
  rcases step_cases hstep with ⟨e, _, he, -⟩ | ⟨_, _, he, -⟩ | ⟨_, _, he, -⟩ |
    ⟨u, current, -, hcompared, -, -, -, -, hstate⟩
  · cases he
  · cases he
  · cases he
  · rw [hholder] at hcompared
    cases hcompared
    cases current with
    | true => exact htimely.current t g hholder hg
    | false =>
        have hsame : w'.world.shared.state = w.world.shared.state := hstate
        rw [← hsame, hlocked] at hunlocked
        cases hunlocked

/-- The task of generation 2 locks the session of generation 2, after 3 was drawn. -/
theorem stale_timer_never_locks_newer_expiryAcrossUnlock :
    ∃ w w', exec (step World.sampleEnv) new expiryAcrossUnlock = some w ∧
      LocksAs World.sampleEnv w w' 2 ∧ w.world.shared.generation = 3 ∧
      w.world.shared.writer ≤ 2 := by
  have hrun : ∃ w w', exec (step World.sampleEnv) new expiryAcrossUnlock = some w ∧
      LocksAs World.sampleEnv w w' 2 ∧ w.world.shared.generation = 3 :=
    ⟨_, _, rfl, ⟨⟨0, _, rfl, rfl, rfl⟩, trivial, rfl⟩, rfl⟩
  obtain ⟨w, w', hexec, hlocks, hgeneration⟩ := hrun
  exact ⟨w, w', hexec, hlocks, hgeneration, stale_timer_never_locks_newer hexec hlocks⟩

end TimerWorld

end ViperVault
