import ViperVault.Core.Generations

/-!
# Auto-lock coverage

An unlocked vault is covered when somebody answers for it: a live timer task of the current
generation that can still compute its deadline, an unlock call of that generation that is still
going to spawn one, a lock call that is still going to lock, or a call that has not drawn its
generation yet. Five steps can leave an unlocked vault uncovered, and the source takes each: two
in which calls overtake each other, and three in which a deadline behind the last instant of the
clock is all that is left.
-/

namespace ViperVault

open Foundation

/-- The call still answers for the generation `c`: it will draw a later one, lock the vault,
or spawn the timer task of `c`. -/
def Call.Guards (c : Nat) : Call → Prop
  | .unlock _ .start => True
  | .unlock _ (.drawn g) => g = c
  | .unlock _ (.written g) => g = c
  | .unlock _ (.cancelled g) => g = c
  | .unlock _ (.rotated g _) => g = c
  | .lock .start => True
  | .lock (.drawn _) => True
  | _ => False

/-- The task is live and belongs to the generation `c`, and its first poll would not panic. -/
def TimerTask.Guards (last now c : Nat) (task : TimerTask) : Prop :=
  task.Live ∧ task.generation = c ∧ (task.phase = .spawned → task.Fits last now)

/-- An unlock or lock call that has returned, or a call of another kind. -/
def Call.Settled : Call → Prop
  | .unlock _ (.returned _) => True
  | .unlock _ _ => False
  | .lock (.returned _) => True
  | .lock _ => False
  | _ => True

/-- The call is about to take the stored timer task and abort it. -/
def Call.Cancels : Call → Prop
  | .unlock _ (.written _) => True
  | .lock (.written _) => True
  | _ => False

namespace World

/-- No unlock or lock call is in progress. -/
def Quiescent (w : World) : Prop := ∀ call ∈ w.calls, call.Settled

/-- The clock and the steps of the task `t` can lock the vault. -/
def LocksOnExpiry (env : Env) (w : World) (t : Nat) : Prop :=
  ∃ es w', (∀ ev ∈ es, (∃ d, ev = .tick d) ∨ ∃ action, ev = .timer t action) ∧
    exec (step env) w es = some w' ∧ w'.shared.state = .locked

/-- An unlocked vault has a live timer task of the current generation, whose expiry locks
it. -/
def AutoLockCovers (env : Env) (w : World) : Prop :=
  w.shared.state.IsUnlocked → ∃ t task, w.shared.tasks[t]? = some task ∧ task.Live ∧
    task.generation = w.shared.generation ∧ LocksOnExpiry env w t

/-- The task answers for the current generation. -/
def GuardTask (env : Env) (w : World) (task : TimerTask) : Prop :=
  task.Guards env.lastInstant w.shared.now w.shared.generation

/-- No call answers for the current generation. -/
def NoGuardCall (w : World) : Prop := ∀ call ∈ w.calls, ¬ call.Guards w.shared.generation

/-- Somebody answers for the current generation. -/
def Guarded (env : Env) (w : World) : Prop :=
  (∃ call ∈ w.calls, call.Guards w.shared.generation) ∨
    ∃ task ∈ w.shared.tasks, GuardTask env w task

/-! ## The steps that leave no guard -/

/-- An unlock call of an earlier generation writes the state, and nobody answers for the current
one. -/
def WritesUnguarded (env : Env) (w : World) (call : Call) : Prop :=
  ¬ call.Guards w.shared.generation ∧ (∃ request g, call = .unlock request (.drawn g)) ∧
    ¬ Guarded env w

/-- A call that is no guard itself aborts the only guard, the stored timer task. -/
def AbortsLastGuard (env : Env) (w : World) (call : Call) : Prop :=
  ¬ call.Guards w.shared.generation ∧ call.Cancels ∧ w.shared.state.IsUnlocked ∧ NoGuardCall w ∧
    ∀ t task, w.shared.tasks[t]? = some task → GuardTask env w task →
      w.shared.autoLockTask = some t

/-- The only guard is an unlock call, and the task that it spawns cannot compute its deadline. -/
def SpawnsDoomed (env : Env) (w : World) (i : Nat) (call : Call) : Prop :=
  (∃ request cycleNotify, call = .unlock request (.rotated w.shared.generation cycleNotify) ∧
      env.lastInstant < w.shared.now + request.timeout) ∧ w.shared.state.IsUnlocked ∧
    (∀ j other, w.calls[j]? = some other → other.Guards w.shared.generation → j = i) ∧
    ∀ task ∈ w.shared.tasks, ¬ GuardTask env w task

/-- The only guard is the timer task `t`, which takes notice of an activity and cannot compute its
new deadline. -/
def RearmsDoomed (env : Env) (w : World) (t : Nat) : Prop :=
  (∃ task, w.shared.tasks[t]? = some task ∧ task.phase = .sleeping ∧
      task.cycleNotify ∈ w.shared.permits ∧ task.generation = w.shared.generation ∧
      ¬ task.Fits env.lastInstant w.shared.now) ∧ w.shared.state.IsUnlocked ∧ NoGuardCall w ∧
    ∀ u other, w.shared.tasks[u]? = some other → GuardTask env w other → u = t

/-- The clock runs on, and every guard is a timer task that was not polled in time to compute its
deadline. -/
def OutrunsTimers (env : Env) (w : World) (d : Nat) : Prop :=
  w.shared.now + d ≤ env.lastInstant ∧ w.shared.state.IsUnlocked ∧ NoGuardCall w ∧
    ∀ task ∈ w.shared.tasks, GuardTask env w task →
      task.phase = .spawned ∧ ¬ task.Fits env.lastInstant (w.shared.now + d)

/-- The steps after which an unlocked vault has no guard. -/
def Exposes (env : Env) (w : World) : Event → Prop
  | .invoke _ => False
  | .advance i => ∃ call, w.calls[i]? = some call ∧
      (WritesUnguarded env w call ∨ AbortsLastGuard env w call ∨ SpawnsDoomed env w i call)
  | .timer t action => action = .notified ∧ RearmsDoomed env w t
  | .tick d => OutrunsTimers env w d

/-- An unlocked vault is guarded. -/
def Covered (env : Env) (w : World) : Prop := w.shared.state.IsUnlocked → Guarded env w

/-! ## Guards and steps -/

/-- A step of a guarding call exposes nothing, unless it spawns. -/
theorem not_exposes_of_guards {env : Env} {w : World} {i : Nat} {call : Call}
    (hcall : w.calls[i]? = some call) (hguard : call.Guards w.shared.generation)
    (hspawn : ¬ SpawnsDoomed env w i call) : ¬ Exposes env w (.advance i) := by
  rintro ⟨call', hcall', hcase⟩
  rw [hcall] at hcall'
  cases hcall'
  rcases hcase with ⟨hno, -⟩ | ⟨hno, -⟩ | hdoomed
  · exact hno hguard
  · exact hno hguard
  · exact hspawn hdoomed

theorem not_spawnsDoomed_of_ne {env : Env} {w : World} {i : Nat} {call : Call}
    (hne : ∀ request g cycleNotify, call ≠ .unlock request (.rotated g cycleNotify)) :
    ¬ SpawnsDoomed env w i call := by
  rintro ⟨⟨request, cycleNotify, hcall, -⟩, -⟩
  exact hne request _ cycleNotify hcall

/-- A guarding call survives a step of a call that is no guard. -/
theorem guardingCall_set {calls : List Call} {i c : Nat} {call call' : Call}
    (hcall : calls[i]? = some call) (hno : ¬ call.Guards c)
    (h : ∃ other ∈ calls, other.Guards c) : ∃ other ∈ calls.set i call', other.Guards c := by
  obtain ⟨other, hmem, hguard⟩ := h
  obtain ⟨j, hj⟩ := List.mem_iff_getElem?.mp hmem
  have hij : i ≠ j := by
    rintro rfl
    rw [hcall] at hj
    cases hj
    exact hno hguard
  have hkept : (calls.set i call')[j]? = some other := by
    rw [List.getElem?_set_ne hij]
    exact hj
  exact ⟨other, List.mem_of_getElem? hkept, hguard⟩

/-- The call that took a step is among the calls. -/
theorem mem_set_of_getElem? {calls : List Call} {i : Nat} {call call' : Call}
    (hcall : calls[i]? = some call) : call' ∈ calls.set i call' :=
  List.mem_set (List.getElem?_eq_some_iff.mp hcall).1 _

/-- A guarding task survives what happens to another task. -/
theorem guardingTask_modify {P : TimerTask → Prop} {tasks : List TimerTask} {t u : Nat}
    {task : TimerTask} (f : TimerTask → TimerTask) (htask : tasks[u]? = some task)
    (hguard : P task) (htu : t ≠ u) : ∃ other ∈ tasks.modify t f, P other := by
  have hkept : (tasks.modify t f)[u]? = some task := by
    rw [List.getElem?_modify_ne f tasks htu]
    exact htask
  exact ⟨task, List.mem_of_getElem? hkept, hguard⟩

/-- Every guarding task survives a change that keeps guarding tasks guarding. -/
theorem guardingTask_modify_of_keep {P : TimerTask → Prop} {tasks : List TimerTask} {t : Nat}
    {task : TimerTask} (f : TimerTask → TimerTask) (htask : tasks[t]? = some task)
    (hkeep : P task → P (f task)) (h : ∃ other ∈ tasks, P other) :
    ∃ other ∈ tasks.modify t f, P other := by
  obtain ⟨other, hmem, hguard⟩ := h
  obtain ⟨u, hu⟩ := List.mem_iff_getElem?.mp hmem
  by_cases htu : t = u
  · subst htu
    rw [htask] at hu
    cases hu
    have hchanged : (tasks.modify t f)[t]? = some (f task) := by
      rw [List.getElem?_modify_eq, htask]
      rfl
    exact ⟨f task, List.mem_of_getElem? hchanged, hkeep hguard⟩
  · exact guardingTask_modify f hu hguard htu

/-- A step of a call that is no guard, and that neither draws nor cancels, keeps the guards. -/
theorem guarded_of_frame {env : Env} {w : World} {i : Nat} {call call' : Call} {sh' : Shared}
    (hcall : w.calls[i]? = some call) (hno : ¬ call.Guards w.shared.generation)
    (hgen : sh'.generation = w.shared.generation) (hnow : sh'.now = w.shared.now)
    (htasks : w.shared.tasks <+: sh'.tasks) (h : Guarded env w) :
    Guarded env ⟨sh', w.calls.set i call'⟩ := by
  unfold Guarded GuardTask
  simp only [hgen, hnow]
  rcases h with h | ⟨task, hmem, hguard⟩
  · exact Or.inl (guardingCall_set hcall hno h)
  · exact Or.inr ⟨task, htasks.subset hmem, hguard⟩

/-- A cancelling step that does not expose the vault keeps a guard. -/
theorem guarded_of_cancel {env : Env} {w : World} {i : Nat} {call call' : Call}
    (hcall : w.calls[i]? = some call) (hno : ¬ call.Guards w.shared.generation)
    (hcancel : call.Cancels) (hgood : ¬ Exposes env w (.advance i))
    (hunlocked : w.shared.state.IsUnlocked) :
    Guarded env ⟨w.shared.cancelAutoLock, w.calls.set i call'⟩ := by
  unfold Guarded GuardTask
  simp only [Shared.cancelAutoLock_generation, Shared.cancelAutoLock_now]
  by_cases hcalls : ∃ c ∈ w.calls, c.Guards w.shared.generation
  · exact Or.inl (guardingCall_set hcall hno hcalls)
  · right
    have hother : ∃ t task, w.shared.tasks[t]? = some task ∧ GuardTask env w task ∧
        w.shared.autoLockTask ≠ some t := by
      by_contra hnone
      apply hgood
      refine ⟨call, hcall, Or.inr (Or.inl ⟨hno, hcancel, hunlocked, ?_, ?_⟩)⟩
      · exact fun c hc hguard => hcalls ⟨c, hc, hguard⟩
      · intro t task htask hguard
        by_contra hne
        exact hnone ⟨t, task, htask, hguard, hne⟩
    obtain ⟨t, task, htask, hguard, hne⟩ := hother
    unfold Shared.cancelAutoLock
    cases hstored : w.shared.autoLockTask with
    | none => exact ⟨task, List.mem_of_getElem? htask, hguard⟩
    | some u =>
        have hut : u ≠ t := by
          rintro rfl
          exact hne hstored
        exact guardingTask_modify _ htask hguard hut

/-- A spawning step of the current generation that does not expose the vault keeps a guard. -/
theorem guarded_of_spawn {env : Env} {w : World} {i : Nat} {request : UnlockRequest}
    {cycleNotify : Nat} {call' : Call} {task : TimerTask}
    (hcall : w.calls[i]? =
      some (.unlock request (.rotated w.shared.generation cycleNotify)))
    (hgood : ¬ Exposes env w (.advance i)) (hunlocked : w.shared.state.IsUnlocked)
    (hlive : task.Live) (hgen : task.generation = w.shared.generation)
    (htimeout : task.timeout = request.timeout) :
    Guarded env ⟨{ w.shared with tasks := w.shared.tasks ++ [task] }, w.calls.set i call'⟩ := by
  by_cases hfits : w.shared.now + request.timeout ≤ env.lastInstant
  · right
    refine ⟨task, List.mem_append_right _ (List.mem_singleton_self _), hlive, hgen, ?_⟩
    intro _
    rw [TimerTask.Fits, htimeout]
    exact hfits
  · -- the task panics at its first poll, so somebody else answers
    by_contra hnone
    apply hgood
    refine ⟨_, hcall, Or.inr (Or.inr
      ⟨⟨request, cycleNotify, rfl, Nat.lt_of_not_le hfits⟩, hunlocked, ?_, ?_⟩)⟩
    · intro j other hother hguard
      by_contra hne
      have hkept : (w.calls.set i call')[j]? = some other :=
        (List.getElem?_set_ne (Ne.symm hne)).trans hother
      exact hnone (Or.inl ⟨other, List.mem_of_getElem? hkept, hguard⟩)
    · intro other hmem hguard
      exact hnone (Or.inr ⟨other, List.mem_append_left _ hmem, hguard⟩)

/-- A step of a call that does not expose the vault keeps a guard. -/
theorem covered_call_step {env : Env} {w : World} {i : Nat} {call call' : Call} {sh' : Shared}
    (hw : Covered env w) (hgood : ¬ Exposes env w (.advance i)) (hcall : w.calls[i]? = some call)
    (hmove : Call.Moves env w.shared call call' sh') :
    Covered env ⟨sh', w.calls.set i call'⟩ := by
  have hself : ∀ c, call'.Guards c → c = sh'.generation →
      Guarded env ⟨sh', w.calls.set i call'⟩ := by
    intro c hguard hc
    exact Or.inl ⟨_, mem_set_of_getElem? hcall, hc ▸ hguard⟩
  intro hunlocked
  cases hmove with
  | drawUnlock request => exact hself _ rfl rfl
  | writeUnlock request g =>
      by_cases hg : g = w.shared.generation
      · exact hself g rfl hg
      · have hguarded : Guarded env w := by
          by_contra hnone
          exact hgood ⟨_, hcall, Or.inl ⟨hg, ⟨request, g, rfl⟩, hnone⟩⟩
        exact guarded_of_frame hcall hg rfl rfl (List.prefix_refl _) hguarded
  | cancelUnlock request g =>
      by_cases hg : g = w.shared.generation
      · exact hself g rfl (by simpa using hg)
      · exact guarded_of_cancel hcall hg trivial hgood (by simpa using hunlocked)
  | rotate request g =>
      by_cases hg : g = w.shared.generation
      · exact hself g rfl hg
      · exact guarded_of_frame hcall hg rfl rfl (List.prefix_refl _) (hw hunlocked)
  | spawn request g cycleNotify =>
      by_cases hg : g = w.shared.generation
      · subst hg
        exact guarded_of_spawn hcall hgood hunlocked ⟨by simp, by simp, rfl⟩ rfl rfl
      · exact guarded_of_frame hcall hg rfl rfl (List.prefix_append _ _) (hw hunlocked)
  | keepHandle request g t =>
      exact guarded_of_frame hcall (by simp [Call.Guards]) rfl rfl (List.prefix_refl _)
        (hw hunlocked)
  | drawLock => exact Or.inl ⟨_, mem_set_of_getElem? hcall, trivial⟩
  | writeLock g => exact absurd hunlocked (by simp [VaultState.IsUnlocked])
  | cancelLock g =>
      exact guarded_of_cancel hcall (by simp [Call.Guards]) trivial hgood
        (by simpa using hunlocked)
  | update op =>
      have hbefore := (op.isUnlocked_apply env w.shared.state).mp hunlocked
      exact guarded_of_frame hcall id rfl rfl (List.prefix_refl _) (hw hbefore)
  | cloneNotify => exact guarded_of_frame hcall id rfl rfl (List.prefix_refl _) (hw hunlocked)
  | notifyOne n => exact guarded_of_frame hcall id rfl rfl (List.prefix_refl _) (hw hunlocked)
  | disclose request pc pc' hpc =>
      exact guarded_of_frame hcall id rfl rfl (List.prefix_refl _) (hw hunlocked)

/-- A timer task of the current generation stays a guard, or locks the vault, or panics while
somebody else answers. -/
theorem covered_timer_step {env : Env} {w : World} {t : Nat} {task : TimerTask}
    {action : TimerAction} {sh' : Shared} (hw : Covered env w)
    (hgood : ¬ Exposes env w (.timer t action)) (htask : w.shared.tasks[t]? = some task)
    (h : w.shared.timerStep env.lastInstant t task action = some sh') :
    Covered env ⟨sh', w.calls⟩ := by
  intro hunlocked
  have hkeep : ∀ (f : TimerTask → TimerTask), sh'.tasks = w.shared.tasks.modify t f →
      sh'.state = w.shared.state → sh'.generation = w.shared.generation →
      sh'.now = w.shared.now → (GuardTask env w task → GuardTask env w (f task)) →
      Guarded env ⟨sh', w.calls⟩ := by
    intro f htasks hstate hgen hnow hf
    unfold Guarded GuardTask
    simp only [htasks, hgen, hnow]
    have hbefore : Guarded env w := hw (hstate ▸ hunlocked)
    rcases hbefore with hcall | hguard
    · exact Or.inl hcall
    · exact Or.inr (guardingTask_modify_of_keep f htask hf hguard)
  cases Shared.timerMoves_of_step h with
  | start hphase hfits =>
      exact hkeep _ rfl rfl rfl rfl fun hg => ⟨⟨by simp, by simp, hg.1.2.2⟩, hg.2.1, by simp⟩
  | startPanics hphase hfits =>
      exact hkeep _ rfl rfl rfl rfl fun hg => absurd (hg.2.2 hphase) hfits
  | expire hphase =>
      exact hkeep _ rfl rfl rfl rfl fun hg => ⟨⟨by simp, by simp, hg.1.2.2⟩, hg.2.1, by simp⟩
  | lock hphase hcurrent => exact absurd hunlocked (by simp [VaultState.IsUnlocked])
  | stale hphase hcurrent =>
      exact hkeep _ rfl rfl rfl rfl fun hg => absurd hg.2.1.symm hcurrent
  | finish hphase hcurrent =>
      exact hkeep _ rfl rfl rfl rfl fun hg => absurd hg.2.1.symm hcurrent
  | rearm hphase hcurrent hfits =>
      exact hkeep _ rfl rfl rfl rfl fun hg => ⟨hg.1, hg.2.1, fun _ => hfits⟩
  | rearmPanics hphase hcurrent hfits =>
      -- another guard is left, since the step exposes nothing
      by_cases hcalls : ∃ call ∈ w.calls, call.Guards w.shared.generation
      · exact Or.inl hcalls
      · have hother : ∃ u other, w.shared.tasks[u]? = some other ∧ GuardTask env w other ∧
            t ≠ u := by
          by_contra hnone
          apply hgood
          refine ⟨rfl, ⟨task, htask, hphase.1, hphase.2, hcurrent.symm, hfits⟩, hunlocked,
            ?_, ?_⟩
          · exact fun call hmem hguard => hcalls ⟨call, hmem, hguard⟩
          · intro u other hu hguard
            by_contra hne
            exact hnone ⟨u, other, hu, hguard, Ne.symm hne⟩
        obtain ⟨u, other, hu, hguard, hne⟩ := hother
        exact Or.inr (guardingTask_modify _ hu hguard hne)

/-- The clock leaves a guard, unless it outruns the timers. -/
theorem covered_tick {env : Env} {w : World} {d : Nat}
    (hlast : w.shared.now + d ≤ env.lastInstant) (hgood : ¬ Exposes env w (.tick d)) :
    Covered env ⟨{ w.shared with now := w.shared.now + d }, w.calls⟩ := by
  intro hunlocked
  by_cases hcalls : ∃ call ∈ w.calls, call.Guards w.shared.generation
  · exact Or.inl hcalls
  · obtain ⟨task, hmem, hguard, hlater⟩ : ∃ task ∈ w.shared.tasks, GuardTask env w task ∧
        (task.phase = .spawned → task.Fits env.lastInstant (w.shared.now + d)) := by
      by_contra hnone
      apply hgood
      refine ⟨hlast, hunlocked, fun call hmem hguard => hcalls ⟨call, hmem, hguard⟩, ?_⟩
      intro task hmem hguard
      by_contra hlater
      refine hnone ⟨task, hmem, hguard, fun hphase => ?_⟩
      by_contra hfits
      exact hlater ⟨hphase, hfits⟩
    exact Or.inr ⟨task, hmem, hguard.1, hguard.2.1, hlater⟩

theorem covered_step {env : Env} {w w' : World} {ev : Event} (hw : Covered env w)
    (hgood : ¬ Exposes env w ev) (h : w.step env ev = some w') : Covered env w' := by
  rcases step_cases h with ⟨request, rfl, rfl⟩ | ⟨i, call, call', sh', rfl, hcall, hadv, rfl⟩ |
    ⟨t, task, action, sh', rfl, htask, hstep, rfl⟩ | ⟨d, rfl, hlast, rfl⟩
  · intro hunlocked
    rcases hw hunlocked with ⟨call, hmem, hguard⟩ | hguard
    · exact Or.inl ⟨call, List.mem_append_left _ hmem, hguard⟩
    · exact Or.inr hguard
  · exact covered_call_step hw hgood hcall (Call.moves_of_advance hadv)
  · exact covered_timer_step hw hgood htask hstep
  · exact covered_tick hlast hgood

/-! ## Deadlines -/

/-- Every deadline that is waited for comes. -/
def Scheduled (env : Env) (w : World) : Prop :=
  ∀ task ∈ w.shared.tasks, task.phase = .sleeping → task.deadline ≤ env.lastInstant

theorem scheduled_modify {last t : Nat} {tasks : List TimerTask} {f : TimerTask → TimerTask}
    (hw : ∀ task ∈ tasks, task.phase = .sleeping → task.deadline ≤ last)
    (hf : ∀ task, tasks[t]? = some task → (f task).phase = .sleeping → (f task).deadline ≤ last) :
    ∀ task ∈ tasks.modify t f, task.phase = .sleeping → task.deadline ≤ last := by
  intro task hmem
  obtain ⟨u, hu⟩ := List.mem_iff_getElem?.mp hmem
  rcases getElem?_modify_cases hu with ⟨-, old, hold, rfl⟩ | ⟨-, hu⟩
  · exact hf old hold
  · exact hw task (List.mem_of_getElem? hu)

theorem scheduled_call_step {env : Env} {w : World} {call call' : Call} {sh' : Shared}
    {calls : List Call} (hw : Scheduled env w)
    (hmove : Call.Moves env w.shared call call' sh') : Scheduled env ⟨sh', calls⟩ := by
  have hcancel : Scheduled env ⟨w.shared.cancelAutoLock, calls⟩ := by
    unfold Scheduled Shared.cancelAutoLock
    split
    · exact hw
    · exact scheduled_modify hw fun task htask => hw task (List.mem_of_getElem? htask)
  cases hmove with
  | cancelUnlock request g => exact hcancel
  | cancelLock g => exact hcancel
  | spawn request g cycleNotify =>
      intro task hmem hphase
      rcases List.mem_append.mp hmem with hold | hnew
      · exact hw task hold hphase
      · rw [List.mem_singleton.mp hnew] at hphase
        cases hphase
  | _ => exact hw

theorem scheduled_step {env : Env} {w w' : World} {ev : Event} (hw : Scheduled env w)
    (h : w.step env ev = some w') : Scheduled env w' := by
  rcases step_cases h with ⟨request, rfl, rfl⟩ | ⟨i, call, call', sh', rfl, hcall, hadv, rfl⟩ |
    ⟨t, task, action, sh', rfl, htask, hstep, rfl⟩ | ⟨d, rfl, hlast, rfl⟩
  · exact hw
  · exact scheduled_call_step hw (Call.moves_of_advance hadv)
  · have hsame : ∀ old, w.shared.tasks[t]? = some old → old = task :=
      fun old hold => Option.some.inj (hold.symm.trans htask)
    cases Shared.timerMoves_of_step hstep with
    | start hphase hfits =>
        exact scheduled_modify hw fun old hold _ => hsame old hold ▸ hfits
    | rearm hphase hcurrent hfits =>
        exact scheduled_modify hw fun old hold _ => hsame old hold ▸ hfits
    | _ => exact scheduled_modify hw fun old hold hphase => by cases hphase
  · exact hw

theorem scheduled_of_run {env : Env} {es : List Event} {w : World}
    (h : exec (step env) new es = some w) : Scheduled env w :=
  exec_invariant (Scheduled env) (fun _ _ _ hw hstep => scheduled_step hw hstep)
    (fun task hmem => by cases hmem) h

/-! ## Coverage at rest -/

theorem not_guards_of_settled {call : Call} (h : call.Settled) (c : Nat) : ¬ call.Guards c := by
  cases call with
  | unlock request pc => cases pc <;> simp_all [Call.Settled, Call.Guards]
  | lock pc => cases pc <;> simp_all [Call.Settled, Call.Guards]
  | _ => simp [Call.Guards]

theorem locksOnExpiry_of_expired {env : Env} {w : World} {t : Nat} (task : TimerTask)
    (htask : w.shared.tasks[t]? = some task) (hgen : task.generation = w.shared.generation)
    (hphase : task.phase = .expired) : LocksOnExpiry env w t := by
  refine ⟨[.timer t .lockState],
    ⟨{ w.shared.modifyTask t (fun task => { task with phase := .finished }) with
        state := .locked }, w.calls⟩, ?_, ?_, rfl⟩
  · intro ev hev
    exact Or.inr ⟨_, List.mem_singleton.mp hev⟩
  · simp [exec, step, htask, Shared.timerStep, hphase, hgen]

/-- A step of the clock or of the task, after which the task can lock. -/
theorem locksOnExpiry_cons {env : Env} {w w' : World} {t : Nat} {ev : Event}
    (hev : (∃ d, ev = .tick d) ∨ ∃ action, ev = .timer t action)
    (hstep : step env w ev = some w') (h : LocksOnExpiry env w' t) : LocksOnExpiry env w t := by
  obtain ⟨es, w'', hes, hexec, hlocked⟩ := h
  refine ⟨ev :: es, w'', ?_, exec_cons_eq_some.mpr ⟨w', hstep, hexec⟩, hlocked⟩
  intro ev' hmem
  rcases List.mem_cons.mp hmem with rfl | hmem
  · exact hev
  · exact hes ev' hmem

/-- A task whose deadline has come. -/
theorem locksOnExpiry_of_due {env : Env} {w : World} {t : Nat} (task : TimerTask)
    (htask : w.shared.tasks[t]? = some task) (hgen : task.generation = w.shared.generation)
    (hphase : task.phase = .sleeping) (hdue : task.deadline ≤ w.shared.now) :
    LocksOnExpiry env w t := by
  have hstep : step env w (.timer t .expire) =
      some ⟨w.shared.modifyTask t (fun task => { task with phase := .expired }), w.calls⟩ := by
    simp [step, htask, Shared.timerStep, hphase, hdue]
  refine locksOnExpiry_cons (Or.inr ⟨_, rfl⟩) hstep ?_
  exact locksOnExpiry_of_expired { task with phase := .expired } (by simp [htask]) hgen rfl

theorem locksOnExpiry_of_sleeping {env : Env} {w : World} {t : Nat} (task : TimerTask)
    (htask : w.shared.tasks[t]? = some task) (hgen : task.generation = w.shared.generation)
    (hphase : task.phase = .sleeping) (hlast : task.deadline ≤ env.lastInstant) :
    LocksOnExpiry env w t := by
  by_cases hdue : task.deadline ≤ w.shared.now
  · exact locksOnExpiry_of_due task htask hgen hphase hdue
  · -- the clock runs to the deadline
    have hreach : w.shared.now + (task.deadline - w.shared.now) = task.deadline := by omega
    have hstep : step env w (.tick (task.deadline - w.shared.now)) =
        some ⟨{ w.shared with now := task.deadline }, w.calls⟩ := by
      simp only [step, hreach, if_pos hlast]
    refine locksOnExpiry_cons (Or.inl ⟨_, rfl⟩) hstep ?_
    exact locksOnExpiry_of_due task htask hgen hphase (Nat.le_refl _)

/-- A guarding task locks the vault when it expires. -/
theorem locksOnExpiry_of_guardTask {env : Env} {w : World} {t : Nat} {task : TimerTask}
    (hw : Scheduled env w) (htask : w.shared.tasks[t]? = some task)
    (hguard : GuardTask env w task) : LocksOnExpiry env w t := by
  obtain ⟨hlive, hgen, hfits⟩ := hguard
  cases hphase : task.phase with
  | spawned =>
      have hstep : step env w (.timer t .start) =
          some ⟨w.shared.modifyTask t (fun task =>
            { task with phase := .sleeping, deadline := w.shared.now + task.timeout }),
            w.calls⟩ := by
        simp [step, htask, Shared.timerStep, hphase, hfits hphase]
      refine locksOnExpiry_cons (Or.inr ⟨_, rfl⟩) hstep ?_
      exact locksOnExpiry_of_sleeping
        { task with phase := .sleeping, deadline := w.shared.now + task.timeout }
        (by simp [htask]) hgen rfl (hfits hphase)
  | sleeping =>
      exact locksOnExpiry_of_sleeping task htask hgen hphase
        (hw task (List.mem_of_getElem? htask) hphase)
  | expired => exact locksOnExpiry_of_expired task htask hgen hphase
  | finished => exact absurd hphase hlive.1
  | panicked => exact absurd hphase hlive.2.1

/-- In a run without an exposing step, an unlocked vault is covered whenever no unlock or lock
call is in progress. -/
theorem autoLockCovers_of_run {env : Env} {es : List Event} {w : World}
    (hgood : EveryStep (step env) (fun w ev => ¬ Exposes env w ev) new es)
    (h : exec (step env) new es = some w) (hquiescent : Quiescent w) : AutoLockCovers env w := by
  have hcovered : Covered env w :=
    exec_invariant_of_everyStep (fun w ev => ¬ Exposes env w ev) (Covered env)
      (fun _ _ _ hw hgood hstep => covered_step hw hgood hstep)
      (fun hunlocked => absurd hunlocked (by simp [new, Shared.new, VaultState.IsUnlocked]))
      hgood h
  intro hunlocked
  rcases hcovered hunlocked with ⟨call, hmem, hguard⟩ | ⟨task, hmem, hguard⟩
  · exact absurd hguard (not_guards_of_settled (hquiescent call hmem) _)
  · obtain ⟨t, ht⟩ := List.mem_iff_getElem?.mp hmem
    have hlocks := locksOnExpiry_of_guardTask (scheduled_of_run h) ht hguard
    exact ⟨t, task, ht, hguard.1, hguard.2.1, hlocks⟩

/-- One unlock call runs to its end. -/
def unlockAlone : List Event :=
  [.invoke (.unlock strongUnlock), .advance 0, .advance 0, .advance 0, .advance 0, .advance 0,
   .advance 0]

/-- The theorem on a run of one unlock call. -/
theorem autoLockCovers_of_run_unlockAlone :
    ∃ w, exec (step sampleEnv) new unlockAlone = some w ∧ AutoLockCovers sampleEnv w := by
  have hgood : EveryStep (step sampleEnv) (fun w ev => ¬ Exposes sampleEnv w ev) new
      unlockAlone := by
    -- the call guards its own generation until it has stored its task
    refine everyStep_cons_of_eq id rfl ?_
    refine everyStep_cons_of_eq (not_exposes_of_guards rfl trivial
      (not_spawnsDoomed_of_ne (by rintro _ _ _ ⟨⟩))) rfl ?_
    refine everyStep_cons_of_eq (not_exposes_of_guards rfl rfl
      (not_spawnsDoomed_of_ne (by rintro _ _ _ ⟨⟩))) rfl ?_
    refine everyStep_cons_of_eq (not_exposes_of_guards rfl rfl
      (not_spawnsDoomed_of_ne (by rintro _ _ _ ⟨⟩))) rfl ?_
    refine everyStep_cons_of_eq (not_exposes_of_guards rfl rfl
      (not_spawnsDoomed_of_ne (by rintro _ _ _ ⟨⟩))) rfl ?_
    refine everyStep_cons_of_eq (not_exposes_of_guards rfl rfl ?_) rfl ?_
    · rintro ⟨⟨request, cycleNotify, hcall, hlate⟩, -⟩
      cases hcall
      exact absurd hlate (by decide)
    refine everyStep_cons_of_eq ?_ rfl trivial
    rintro ⟨call, hcall, ⟨-, ⟨request, g, rfl⟩, -⟩ | ⟨-, hcancels, -⟩ |
      ⟨⟨request, cycleNotify, rfl, -⟩, -⟩⟩
    · cases hcall
    · cases hcall
      exact hcancels
    · cases hcall
  refine ⟨_, rfl, autoLockCovers_of_run hgood rfl ?_⟩
  intro call hcall
  simp [new, Request.start] at hcall
  simp [hcall, Call.Settled]

/-- Two unlock calls draw generations 2 and 3; the later one starts its timer, and then the
earlier one writes the state, aborts that timer and starts its own. -/
def unlockOvertakenByUnlock : List Event :=
  [.invoke (.unlock strongUnlock), .invoke (.unlock strongUnlock), .advance 0, .advance 1,
   .advance 1, .advance 1, .advance 1, .advance 1, .advance 1,
   .advance 0, .advance 0, .advance 0, .advance 0, .advance 0]

/-- Both calls have returned, the vault is unlocked, and no live task has the current
generation. -/
theorem unlockOvertakenByUnlock_not_covered :
    ∃ w, exec (step sampleEnv) new unlockOvertakenByUnlock = some w ∧ Quiescent w ∧
      w.shared.state.IsUnlocked ∧ w.shared.generation = 3 ∧
      ¬ ∃ task ∈ w.shared.tasks, task.Live ∧ task.generation = w.shared.generation := by
  refine ⟨_, rfl, ?_, trivial, rfl, ?_⟩
  · intro call hcall
    simp [new, Request.start, Shared.new] at hcall
    rcases hcall with rfl | rfl <;> trivial
  · rintro ⟨task, hmem, hlive, hgen⟩
    simp [new, Shared.new, Shared.cancelAutoLock, Shared.modifyTask] at hmem
    rcases hmem with rfl | rfl
    · exact absurd hlive.2.2 (by decide)
    · exact absurd hgen (by decide)

/-! ## Exposing steps do expose -/

/-- The vault is unlocked and nobody answers for the current generation. -/
def Exposed (env : Env) (w : World) : Prop := w.shared.state.IsUnlocked ∧ ¬ Guarded env w

/-- The number of steps an unlock or lock call still takes. -/
def remaining : Call → Nat
  | .unlock _ .start => 6
  | .unlock _ (.drawn _) => 5
  | .unlock _ (.written _) => 4
  | .unlock _ (.cancelled _) => 3
  | .unlock _ (.rotated _ _) => 2
  | .unlock _ (.spawned _ _) => 1
  | .lock .start => 3
  | .lock (.drawn _) => 2
  | .lock (.written _) => 1
  | _ => 0

theorem settled_of_remaining {call : Call} (h : remaining call = 0) : call.Settled := by
  cases call with
  | unlock request pc => cases pc <;> simp_all [remaining, Call.Settled]
  | lock pc => cases pc <;> simp_all [remaining, Call.Settled]
  | _ => trivial

private theorem sum_map_set_lt {α : Type} (f : α → Nat) {l : List α} {i : Nat} {a b : α}
    (ha : l[i]? = some a) (hlt : f b < f a) : ((l.set i b).map f).sum < (l.map f).sum := by
  induction l generalizing i with
  | nil => simp at ha
  | cons c l ih =>
      cases i with
      | zero =>
          cases ha
          simp only [List.set_cons_zero, List.map_cons, List.sum_cons]
          omega
      | succ i =>
          have htail := ih (i := i) (by simpa using ha)
          simp only [List.set_cons_succ, List.map_cons, List.sum_cons]
          omega

/-- A step that adds no guard leaves a vault without guards. -/
theorem exposed_of_frame {env : Env} {w : World} {i : Nat} {call' : Call} {sh' : Shared}
    (hw : ¬ Guarded env w) (hstate : sh'.state.IsUnlocked)
    (hgen : sh'.generation = w.shared.generation) (hnow : sh'.now = w.shared.now)
    (hno : ¬ call'.Guards w.shared.generation)
    (htasks : ∀ task ∈ sh'.tasks, GuardTask env w task → task ∈ w.shared.tasks) :
    Exposed env ⟨sh', w.calls.set i call'⟩ := by
  refine ⟨hstate, ?_⟩
  rintro (⟨call, hmem, hguard⟩ | ⟨task, hmem, hguard⟩)
  · simp only [hgen] at hguard
    rcases List.mem_or_eq_of_mem_set hmem with hold | rfl
    · exact hw (Or.inl ⟨call, hold, hguard⟩)
    · exact hno hguard
  · simp only [GuardTask, hgen, hnow] at hguard
    exact hw (Or.inr ⟨task, htasks task hmem hguard, hguard⟩)

/-- A live task after a cancellation was one before, and was not cancelled. -/
theorem live_cancelAutoLock {sh : Shared} {task : TimerTask}
    (hmem : task ∈ sh.cancelAutoLock.tasks) (hlive : task.Live) :
    ∃ u, sh.tasks[u]? = some task ∧ sh.autoLockTask ≠ some u := by
  unfold Shared.cancelAutoLock at hmem
  split at hmem
  · rename_i hnone
    obtain ⟨u, hu⟩ := List.mem_iff_getElem?.mp hmem
    exact ⟨u, hu, by simp [hnone]⟩
  · rename_i t hstored
    obtain ⟨u, hu⟩ := List.mem_iff_getElem?.mp hmem
    simp only [Shared.modifyTask_tasks] at hu
    rcases getElem?_modify_cases hu with ⟨-, old, -, rfl⟩ | ⟨htu, hu⟩
    · exact absurd hlive.2.2 (by simp)
    · exact ⟨u, hu, by simp [hstored, htu]⟩

/-- In an exposed vault every call in progress can take a step, and the vault stays exposed. -/
theorem exposed_advance {env : Env} {w : World} {i : Nat} {call : Call} (hw : Exposed env w)
    (hcall : w.calls[i]? = some call) (hremaining : remaining call ≠ 0) :
    ∃ w', step env w (.advance i) = some w' ∧ Exposed env w' ∧
      (w'.calls.map remaining).sum < (w.calls.map remaining).sum := by
  have hno : ¬ call.Guards w.shared.generation :=
    fun hguard => hw.2 (Or.inl ⟨call, List.mem_of_getElem? hcall, hguard⟩)
  suffices hnext : ∃ call' sh', call.advance env w.shared = some (call', sh') ∧
      remaining call' < remaining call ∧ Exposed env ⟨sh', w.calls.set i call'⟩ by
    obtain ⟨call', sh', hadv, hlt, hexposed⟩ := hnext
    exact ⟨_, by simp [step, hcall, hadv], hexposed, sum_map_set_lt remaining hcall hlt⟩
  have hsame : ∀ sh' : Shared, sh'.tasks = w.shared.tasks → ∀ task ∈ sh'.tasks,
      GuardTask env w task → task ∈ w.shared.tasks :=
    fun sh' htasks task hmem _ => htasks ▸ hmem
  have hcancelled : ∀ task ∈ w.shared.cancelAutoLock.tasks,
      GuardTask env w task → task ∈ w.shared.tasks := by
    intro task hmem hguard
    obtain ⟨u, hu, _⟩ := live_cancelAutoLock hmem hguard.1
    exact List.mem_of_getElem? hu
  cases call with
  | unlock request pc =>
      cases pc with
      | start => exact absurd trivial hno
      | drawn g =>
          refine ⟨_, _, rfl, by simp [remaining], ?_⟩
          exact exposed_of_frame hw.2 trivial rfl rfl hno (hsame _ rfl)
      | written g =>
          refine ⟨_, _, rfl, by simp [remaining], ?_⟩
          exact exposed_of_frame hw.2 (by simpa using hw.1) (by simp) (by simp) hno hcancelled
      | cancelled g =>
          refine ⟨_, _, rfl, by simp [remaining], ?_⟩
          exact exposed_of_frame hw.2 hw.1 rfl rfl hno (hsame _ rfl)
      | rotated g cycleNotify =>
          refine ⟨_, _, rfl, by simp [remaining], ?_⟩
          refine exposed_of_frame hw.2 hw.1 rfl rfl (by simp [Call.Guards]) ?_
          intro task hmem hguard
          rcases List.mem_append.mp hmem with hmem | hmem
          · exact hmem
          · rw [List.mem_singleton.mp hmem] at hguard
            exact absurd hguard.2.1 hno
      | spawned g t =>
          refine ⟨_, _, rfl, by simp [remaining], ?_⟩
          exact exposed_of_frame hw.2 hw.1 rfl rfl (by simp [Call.Guards]) (hsame _ rfl)
      | returned g => exact absurd rfl hremaining
  | lock pc =>
      cases pc with
      | start => exact absurd trivial hno
      | drawn g => exact absurd trivial hno
      | written g =>
          refine ⟨_, _, rfl, by simp [remaining], ?_⟩
          exact exposed_of_frame hw.2 (by simpa using hw.1) (by simp) (by simp)
            (by simp [Call.Guards]) hcancelled
      | returned g => exact absurd rfl hremaining
  | _ => exact absurd rfl hremaining

/-- The task panics at its first poll, or has panicked. -/
def TaskDoomed (env : Env) (t : Nat) (w : World) : Prop :=
  w.shared.state.IsUnlocked ∧ ∃ task, w.shared.tasks[t]? = some task ∧
    (task.phase = .panicked ∨ task.phase = .spawned ∧ ¬ task.Fits env.lastInstant w.shared.now)

theorem taskDoomed_step {env : Env} {w w' : World} {t : Nat} {ev : Event}
    (hev : (∃ d, ev = .tick d) ∨ ∃ action, ev = .timer t action) (hw : TaskDoomed env t w)
    (h : step env w ev = some w') : TaskDoomed env t w' := by
  obtain ⟨hunlocked, task, htask, hphase⟩ := hw
  rcases step_cases h with ⟨request, rfl, rfl⟩ | ⟨i, call, call', sh', rfl, -, -, rfl⟩ |
    ⟨u, other, action, sh', rfl, hother, hstep, rfl⟩ | ⟨d, rfl, -, rfl⟩
  · rcases hev with ⟨_, hev⟩ | ⟨_, hev⟩ <;> cases hev
  · rcases hev with ⟨_, hev⟩ | ⟨_, hev⟩ <;> cases hev
  · obtain rfl : u = t := by
      rcases hev with ⟨_, hev⟩ | ⟨_, hev⟩ <;> cases hev
      rfl
    obtain rfl : other = task := Option.some.inj (hother.symm.trans htask)
    -- only the first poll is open to the task, and it panics
    cases Shared.timerMoves_of_step hstep with
    | startPanics hspawned hfits =>
        exact ⟨hunlocked, { other with phase := .panicked }, by simp [htask], Or.inl rfl⟩
    | start hspawned hfits => simp [hspawned, hfits] at hphase
    | expire hsleeping => simp [hsleeping.1] at hphase
    | lock hexpired hcurrent => simp [hexpired] at hphase
    | stale hexpired hcurrent => simp [hexpired] at hphase
    | finish hsleeping hcurrent => simp [hsleeping.1] at hphase
    | rearm hsleeping hcurrent hfits => simp [hsleeping.1] at hphase
    | rearmPanics hsleeping hcurrent hfits => simp [hsleeping.1] at hphase
  · refine ⟨hunlocked, task, htask, hphase.imp_right ?_⟩
    rintro ⟨hspawned, hlate⟩
    exact ⟨hspawned, fun hfits => hlate (by simp only [TimerTask.Fits] at hfits ⊢; omega)⟩

theorem not_locksOnExpiry_of_taskDoomed {env : Env} {w : World} {t : Nat}
    (hw : TaskDoomed env t w) : ¬ LocksOnExpiry env w t := by
  rintro ⟨es, w', hes, hexec, hlocked⟩
  have hdoomed : TaskDoomed env t w' :=
    exec_invariant_of_everyStep
      (fun _ ev => (∃ d, ev = .tick d) ∨ ∃ action, ev = .timer t action) (TaskDoomed env t)
      (fun _ _ _ hw hev hstep => taskDoomed_step hev hw hstep) hw
      (everyStep_of_forall_mem hes) hexec
  rw [TaskDoomed, hlocked] at hdoomed
  exact hdoomed.1

/-- At rest, an exposed vault is not covered. -/
theorem not_autoLockCovers_of_exposed {env : Env} {w : World} (hw : Exposed env w) :
    ¬ AutoLockCovers env w := by
  intro hcovers
  obtain ⟨t, task, htask, hlive, hgen, hlocks⟩ := hcovers hw.1
  by_cases hpoll : task.phase = .spawned → task.Fits env.lastInstant w.shared.now
  · exact hw.2 (Or.inr ⟨task, List.mem_of_getElem? htask, hlive, hgen, hpoll⟩)
  · obtain ⟨hspawned, hlate⟩ := Classical.not_imp.mp hpoll
    exact not_locksOnExpiry_of_taskDoomed
      ⟨hw.1, task, htask, Or.inr ⟨hspawned, hlate⟩⟩ hlocks

/-- When the calls in progress of an exposed vault return, it is at rest and not covered. -/
theorem exposed_comes_to_rest {env : Env} {w : World} (hw : Exposed env w) :
    ∃ es w', exec (step env) w es = some w' ∧ Quiescent w' ∧ ¬ AutoLockCovers env w' := by
  induction hn : (w.calls.map remaining).sum using Nat.strongRecOn generalizing w with
  | ind n ih =>
      by_cases hquiescent : Quiescent w
      · exact ⟨[], w, rfl, hquiescent, not_autoLockCovers_of_exposed hw⟩
      · obtain ⟨call, hmem, hbusy⟩ : ∃ call ∈ w.calls, ¬ call.Settled := by
          by_contra hnone
          apply hquiescent
          intro call hmem
          by_contra hbusy
          exact hnone ⟨call, hmem, hbusy⟩
        obtain ⟨i, hi⟩ := List.mem_iff_getElem?.mp hmem
        have hremaining : remaining call ≠ 0 := fun h => hbusy (settled_of_remaining h)
        obtain ⟨w', hstep, hexposed, hlt⟩ := exposed_advance hw hi hremaining
        obtain ⟨es, w'', hexec, hrest⟩ := ih _ (hn ▸ hlt) hexposed rfl
        exact ⟨.advance i :: es, w'', exec_cons_eq_some.mpr ⟨w', hstep, hexec⟩, hrest⟩

/-! Each of the five steps is open, and leaves the vault without a guard. -/

section

variable {env : Env} {w : World} {i : Nat} {call : Call}

theorem exposed_of_writesUnguarded (hcall : w.calls[i]? = some call)
    (hbad : WritesUnguarded env w call) :
    ∃ w', step env w (.advance i) = some w' ∧ Exposed env w' := by
  obtain ⟨hno, ⟨request, g, rfl⟩, hnone⟩ := hbad
  refine ⟨⟨_, w.calls.set i (.unlock request (.written g))⟩,
    by simp [step, hcall, Call.advance, UnlockRequest.advance]; rfl, ?_⟩
  exact exposed_of_frame hnone trivial rfl rfl hno fun task hmem _ => hmem

theorem exposed_of_abortsLastGuard (hcall : w.calls[i]? = some call)
    (hbad : AbortsLastGuard env w call) :
    ∃ w', step env w (.advance i) = some w' ∧ Exposed env w' := by
  obtain ⟨hno, hcancels, hunlocked, hcalls, htasks⟩ := hbad
  obtain ⟨call', hadv, hno'⟩ : ∃ call', call.advance env w.shared =
        some (call', w.shared.cancelAutoLock) ∧ ¬ call'.Guards w.shared.generation := by
    cases call with
    | unlock request pc =>
        cases pc with
        | written g => exact ⟨.unlock request (.cancelled g), rfl, hno⟩
        | _ => exact absurd hcancels (by simp [Call.Cancels])
    | lock pc =>
        cases pc with
        | written g => exact ⟨.lock (.returned g), rfl, by simp [Call.Guards]⟩
        | _ => exact absurd hcancels (by simp [Call.Cancels])
    | _ => exact absurd hcancels (by simp [Call.Cancels])
  refine ⟨⟨w.shared.cancelAutoLock, w.calls.set i call'⟩, by simp [step, hcall, hadv],
    by simpa using hunlocked, ?_⟩
  rintro (⟨c, hmem, hguard⟩ | ⟨task, hmem, hguard⟩)
  · simp only [Shared.cancelAutoLock_generation] at hguard
    rcases List.mem_or_eq_of_mem_set hmem with hold | rfl
    · exact hcalls c hold hguard
    · exact hno' hguard
  · simp only [GuardTask, Shared.cancelAutoLock_generation, Shared.cancelAutoLock_now] at hguard
    obtain ⟨u, hu, hne⟩ := live_cancelAutoLock hmem hguard.1
    exact hne (htasks u task hu hguard)

theorem exposed_of_spawnsDoomed (hcall : w.calls[i]? = some call)
    (hbad : SpawnsDoomed env w i call) :
    ∃ w', step env w (.advance i) = some w' ∧ Exposed env w' := by
  obtain ⟨⟨request, cycleNotify, rfl, hlate⟩, hunlocked, hcalls, htasks⟩ := hbad
  refine ⟨⟨{ w.shared with
        tasks := w.shared.tasks ++
          [{ generation := w.shared.generation, cycleNotify := cycleNotify
             timeout := request.timeout, deadline := 0, phase := .spawned, aborted := false }] },
      w.calls.set i (.unlock request (.spawned w.shared.generation w.shared.tasks.length))⟩,
    by simp [step, hcall, Call.advance, UnlockRequest.advance], hunlocked, ?_⟩
  rintro (⟨c, hmem, hguard⟩ | ⟨task, hmem, hguard⟩)
  · obtain ⟨j, hj⟩ := List.mem_iff_getElem?.mp hmem
    rcases getElem?_set_cases hj with ⟨-, rfl⟩ | ⟨hne, hold⟩
    · exact hguard
    · exact hne (hcalls j c hold hguard).symm
  · rcases List.mem_append.mp hmem with hold | hnew
    · exact htasks task hold hguard
    · rw [List.mem_singleton.mp hnew] at hguard
      exact absurd (hguard.2.2 rfl) (Nat.not_le_of_lt hlate)

theorem exposed_of_rearmsDoomed {t : Nat} (hbad : RearmsDoomed env w t) :
    ∃ w', step env w (.timer t .notified) = some w' ∧ Exposed env w' := by
  obtain ⟨⟨task, htask, hphase, hpermit, hgen, hlate⟩, hunlocked, hcalls, htasks⟩ := hbad
  refine ⟨⟨Shared.modifyTask
      { w.shared with permits := w.shared.permits.erase task.cycleNotify } t
      fun task => { task with phase := .panicked }, w.calls⟩, ?_, hunlocked, ?_⟩
  · simp [step, htask, Shared.timerStep, hphase, hpermit, hgen, hlate]
  rintro (⟨c, hmem, hguard⟩ | ⟨other, hmem, hguard⟩)
  · exact hcalls c hmem hguard
  · obtain ⟨u, hu⟩ := List.mem_iff_getElem?.mp hmem
    simp only [Shared.modifyTask_tasks] at hu
    rcases getElem?_modify_cases hu with ⟨-, old, -, rfl⟩ | ⟨htu, hu⟩
    · exact hguard.1.2.1 rfl
    · exact htu (htasks u other hu hguard).symm

theorem exposed_of_outrunsTimers {d : Nat} (hbad : OutrunsTimers env w d) :
    ∃ w', step env w (.tick d) = some w' ∧ Exposed env w' := by
  obtain ⟨hlast, hunlocked, hcalls, htasks⟩ := hbad
  refine ⟨⟨{ w.shared with now := w.shared.now + d }, w.calls⟩, by simp [step, hlast], hunlocked,
    ?_⟩
  rintro (⟨c, hmem, hguard⟩ | ⟨task, hmem, hlive, hgen, hfits⟩)
  · exact hcalls c hmem hguard
  · have hearlier : task.phase = .spawned → task.Fits env.lastInstant w.shared.now := by
      intro hphase
      have hlater := hfits hphase
      simp only [TimerTask.Fits] at hlater ⊢
      omega
    obtain ⟨hphase, hlate⟩ := htasks task hmem ⟨hlive, hgen, hearlier⟩
    exact hlate (hfits hphase)

end

/-- After an exposing step the calls in progress can return to a vault that is at rest,
unlocked and not covered. -/
theorem exposes_breaks_coverage {env : Env} {w : World} {ev : Event} (hbad : Exposes env w ev) :
    ∃ es w', exec (step env) w (ev :: es) = some w' ∧ Quiescent w' ∧ ¬ AutoLockCovers env w' := by
  suffices hexposed : ∃ w', step env w ev = some w' ∧ Exposed env w' by
    obtain ⟨w', hstep, hexposed⟩ := hexposed
    obtain ⟨es, w'', hexec, hrest⟩ := exposed_comes_to_rest hexposed
    exact ⟨es, w'', exec_cons_eq_some.mpr ⟨w', hstep, hexec⟩, hrest⟩
  cases ev with
  | invoke request => exact hbad.elim
  | advance i =>
      obtain ⟨call, hcall, hwrites | haborts | hspawns⟩ := hbad
      · exact exposed_of_writesUnguarded hcall hwrites
      · exact exposed_of_abortsLastGuard hcall haborts
      · exact exposed_of_spawnsDoomed hcall hspawns
  | timer t action =>
      obtain ⟨rfl, hrearms⟩ := hbad
      exact exposed_of_rearmsDoomed hrearms
  | tick d => exact exposed_of_outrunsTimers hbad

end World

end ViperVault
