import ViperVault.Clipboard.Guard

/-!
# Copied secrets and their timers

A secret that the guard put into the clipboard is watched: its copy is still spawning the timer
task, or that task is on its way to the clear. Only `cancel` and `drop` end a watch, by aborting
the task while it waits.
-/

namespace ViperVault

open Foundation

/-- The timer task is on its way to the clear. -/
def ClearPhase.IsLive : ClearPhase → Prop
  | .spawned | .sleeping _ | .woken | .matched => True
  | .unspawned | .finished | .aborted => False

/-- The timer task waits, so that an abort stops it. -/
def ClearPhase.IsWaiting : ClearPhase → Prop
  | .spawned | .sleeping _ => True
  | _ => False

theorem ClearPhase.isLive_abort_iff {p : ClearPhase} (h : p.IsLive) :
    p.abort.IsLive ↔ ¬ p.IsWaiting := by
  cases p <;> simp_all [ClearPhase.IsLive, ClearPhase.abort, ClearPhase.IsWaiting]

theorem ClearPhase.isLive_of_isWaiting {p : ClearPhase} (h : p.IsWaiting) : p.IsLive := by
  cases p with
  | spawned => trivial
  | sleeping deadline => trivial
  | _ => exact h.elim

theorem ClearPhase.abort_eq_unspawned {p : ClearPhase} : p.abort = .unspawned ↔ p = .unspawned := by
  cases p <;> simp [ClearPhase.abort]

namespace ClipboardWorld

variable {w w' : ClipboardWorld}

/-- The copy of call `i` is still on its way to the spawn of its timer task. -/
def Spawning (w : ClipboardWorld) (i : Nat) : Prop := w.pc = .wrote i ∨ w.pc = .cancelled i

/-- The timer task of call `i` will come, or is on its way to the clear. -/
def Pending (w : ClipboardWorld) (i : Nat) : Prop :=
  w.Spawning i ∨ ∃ p, w.phase? i = some p ∧ p.IsLive

/-- A secret that the guard put into the clipboard has its timer. -/
def Watched (w : ClipboardWorld) : Prop := ∀ i, w.owner = some i → w.Pending i

/-- The guard works on its last call, whose secret is in the clipboard if one of the guard's is;
the task it holds has been spawned. -/
structure Ordered (w : ClipboardWorld) : Prop where
  spawning : ∀ i, w.Spawning i → w.calls.length = i + 1 ∧ w.phase? i = some .unspawned
  owner : ∀ i, w.owner = some i → w.calls.length = i + 1 ∧
    ∃ secret, w.secret? i = some secret ∧ w.clipboard = some secret.exposeSecret
  task : ∀ i, w.task = some i → ∃ p, w.phase? i = some p ∧ p ≠ .unspawned

/-- The step does not abort the task that waits to clear what is in the clipboard. -/
def KeepsTimer (w : ClipboardWorld) : ClipboardEvent → Prop
  | .cancel | .drop =>
      ∀ i p, w.owner = some i → w.task = some i → w.phase? i = some p → ¬ p.IsWaiting
  | _ => True

/-! ## The steps of the guard -/

theorem step_abortPrevious (h : w.step .abortPrevious = some w') :
    ∃ i, w.pc = .wrote i ∧ w' = { w.abortTask with pc := .cancelled i } := by
  simp only [step] at h
  split at h
  · rename_i i hpc
    cases h
    exact ⟨i, hpc, rfl⟩
  · cases h

theorem step_spawn (h : w.step .spawn = some w') :
    ∃ i, w.pc = .cancelled i ∧
      w' = { w.setPhase i .spawned with task := some i, pc := .idle } := by
  simp only [step] at h
  split at h
  · rename_i i hpc
    cases h
    exact ⟨i, hpc, rfl⟩
  · cases h

/-- `cancel` and `drop` come between copies. -/
theorem step_cancelling {e : ClipboardEvent} (he : e = .cancel ∨ e = .drop)
    (h : w.step e = some w') :
    w.pc = .idle ∧ ∃ pc, (pc = .idle ∨ pc = .dropped) ∧ w' = { w.abortTask with pc := pc } := by
  rcases he with rfl | rfl
  · simp only [step] at h
    split at h
    · rename_i hpc
      cases h
      refine ⟨hpc, .idle, Or.inl rfl, ?_⟩
      have hkeep : w.abortTask.pc = .idle := by
        unfold abortTask
        split <;> exact hpc
      rw [← hkeep]
    · cases h
  · simp only [step] at h
    split at h
    · rename_i hpc
      cases h
      exact ⟨hpc, .dropped, Or.inr rfl, rfl⟩
    · cases h

theorem step_copyWithTimeout {secret : SecretString} {timeout : Duration}
    (h : w.step (.copyWithTimeout secret timeout) = some w') :
    w.pc = .idle ∧ w' = w.afterCopy secret timeout := by
  simp only [step] at h
  split at h
  · rename_i hpc
    cases h
    exact ⟨hpc, rfl⟩
  · cases h

/-- A step of a timer task: it goes on to another phase, and the clipboard stays, unless it is
the clear. -/
inductive TaskMoves (w : ClipboardWorld) : ClipboardEvent → ClipboardWorld → Prop
  | goesOn (e : ClipboardEvent) (i : Nat) (p p' : ClearPhase) (hp : w.phase? i = some p)
      (hlive : p.IsLive) (hlive' : p'.IsLive) : TaskMoves w e (w.setPhase i p')
  | leaves (i : Nat) (secret : SecretString) (hphase : w.phase? i = some .woken)
      (hsecret : w.secret? i = some secret) (hother : w.clipboard ≠ some secret.exposeSecret) :
      TaskMoves w (.read i) (w.setPhase i .finished)
  | clears (i : Nat) (hphase : w.phase? i = some .matched) :
      TaskMoves w (.clear i) { w.setPhase i .finished with clipboard := none, owner := none }

/-- The steps that a timer task takes. -/
def IsTaskStep : ClipboardEvent → Prop
  | .poll _ | .wake _ | .read _ | .clear _ => True
  | _ => False

theorem taskMoves_of_step {e : ClipboardEvent} (he : IsTaskStep e) (h : w.step e = some w') :
    w.TaskMoves e w' := by
  cases e with
  | poll i =>
      obtain ⟨c, hc, h⟩ := Option.bind_eq_some_iff.mp h
      split at h
      · rename_i hphase
        cases h
        exact .goesOn _ i .spawned _ (by simp [phase?, hc, hphase]) trivial trivial
      · cases h
  | wake i =>
      obtain ⟨c, hc, h⟩ := Option.bind_eq_some_iff.mp h
      split at h
      · rename_i deadline hphase
        split at h
        · cases h
          exact .goesOn _ i (.sleeping deadline) _ (by simp [phase?, hc, hphase]) trivial trivial
        · cases h
      · cases h
  | read i =>
      obtain ⟨c, hc, h⟩ := Option.bind_eq_some_iff.mp h
      split at h
      · rename_i hphase
        split at h
        · cases h
          exact .goesOn _ i .woken _ (by simp [phase?, hc, hphase]) trivial trivial
        · rename_i hother
          cases h
          exact .leaves i c.secret (by simp [phase?, hc, hphase]) (by simp [secret?, hc]) hother
      · cases h
  | clear i =>
      obtain ⟨c, hc, h⟩ := Option.bind_eq_some_iff.mp h
      split at h
      · rename_i hphase
        cases h
        exact .clears i (by simp [phase?, hc, hphase])
      · cases h
  | _ => exact he.elim

/-! ## The order of the guard's work -/

theorem length_setPhase (i : Nat) (p : ClearPhase) :
    (w.setPhase i p).calls.length = w.calls.length := by
  simp [setPhase]

theorem length_abortTask : w.abortTask.calls.length = w.calls.length := by
  unfold abortTask
  split <;> simp

theorem task_abortTask : w.abortTask.task = none := by
  unfold abortTask
  split
  · assumption
  · rfl

theorem phase?_setPhase_self {i : Nat} {p p' : ClearPhase} (h : w.phase? i = some p) :
    (w.setPhase i p').phase? i = some p' := by
  rw [phase?_setPhase, if_pos rfl, h]
  rfl

theorem phase?_setPhase_of_ne {i j : Nat} {p : ClearPhase} (h : i ≠ j) :
    (w.setPhase i p).phase? j = w.phase? j := by
  rw [phase?_setPhase, if_neg h]

/-- An abort leaves what is not spawned alone. -/
theorem phase?_abortTask_unspawned (j : Nat) :
    w.abortTask.phase? j = some .unspawned ↔ w.phase? j = some .unspawned := by
  rw [phase?_abortTask]
  cases w.phase? j with
  | none => simp
  | some p => by_cases h : w.task = some j <;> simp [h, ClearPhase.abort_eq_unspawned]

theorem ordered_new (content : Option Text) : (new content).Ordered where
  spawning i h := by rcases h with h | h <;> cases h
  owner i h := by cases h
  task i h := by cases h

/-- A timer task goes on: the guard has nothing to do with it. -/
theorem Ordered.setPhase (hw : w.Ordered) {i : Nat} {p p' : ClearPhase}
    (hp : w.phase? i = some p) (hspawned : p ≠ .unspawned) (hspawned' : p' ≠ .unspawned) :
    (w.setPhase i p').Ordered where
  spawning j h := by
    obtain ⟨hlast, hphase⟩ := hw.spawning j h
    refine ⟨by rw [length_setPhase, hlast], ?_⟩
    have hne : i ≠ j := by
      rintro rfl
      rw [hp, Option.some.injEq] at hphase
      exact hspawned hphase
    rw [phase?_setPhase_of_ne hne, hphase]
  owner j h := by
    rw [length_setPhase, secret?_setPhase]
    exact hw.owner j h
  task j h := by
    by_cases hij : i = j
    · subst hij
      exact ⟨p', phase?_setPhase_self hp, hspawned'⟩
    · rw [phase?_setPhase_of_ne hij]
      exact hw.task j h

/-- The clipboard loses what the guard put there. -/
theorem Ordered.disown (hw : w.Ordered) (content : Option Text) :
    ({ w with clipboard := content, owner := none } : ClipboardWorld).Ordered where
  spawning := hw.spawning
  owner i h := by cases h
  task := hw.task

theorem Ordered.abortTask (hw : w.Ordered) {pc : GuardPc}
    (hpc : ∀ i, pc = .wrote i ∨ pc = .cancelled i → w.Spawning i) :
    ({ w.abortTask with pc := pc } : ClipboardWorld).Ordered where
  spawning i h := by
    obtain ⟨hlast, hphase⟩ := hw.spawning i (hpc i h)
    exact ⟨length_abortTask.trans hlast, (phase?_abortTask_unspawned i).mpr hphase⟩
  owner i h := by
    obtain ⟨hlast, secret, hsecret, hcontent⟩ := hw.owner i ((owner_abortTask w).symm.trans h)
    exact ⟨length_abortTask.trans hlast, secret, (secret?_abortTask w i).trans hsecret,
      (clipboard_abortTask w).trans hcontent⟩
  task i h := by
    have hnone : w.abortTask.task = some i := h
    rw [task_abortTask] at hnone
    cases hnone

/-- The calls before a copy keep their phases. -/
theorem phase?_afterCopy {secret : SecretString} {timeout : Duration} {i : Nat} {p : ClearPhase}
    (h : w.phase? i = some p) : (w.afterCopy secret timeout).phase? i = some p := by
  obtain ⟨c, hc, rfl⟩ := Option.map_eq_some_iff.mp h
  have hi : i < w.calls.length := (List.getElem?_eq_some_iff.mp hc).1
  simp [phase?, afterCopy, List.getElem?_append_left hi, hc]

theorem Ordered.copy (hw : w.Ordered) (secret : SecretString) (timeout : Duration) :
    (w.afterCopy secret timeout).Ordered where
  spawning i h := by
    obtain rfl : w.calls.length = i := by
      rcases h with h | h
      · exact GuardPc.wrote.inj h
      · cases h
    exact ⟨by simp [afterCopy], by simp [phase?, afterCopy]⟩
  owner i h := by
    obtain rfl : w.calls.length = i := Option.some.inj h
    exact ⟨by simp [afterCopy], secret, by simp [secret?, afterCopy], rfl⟩
  task i h := by
    obtain ⟨p, hp, hspawned⟩ := hw.task i h
    exact ⟨p, phase?_afterCopy hp, hspawned⟩

theorem Ordered.spawn (hw : w.Ordered) {i : Nat} (hpc : w.pc = .cancelled i) :
    ({ w.setPhase i .spawned with task := some i, pc := .idle } : ClipboardWorld).Ordered where
  spawning j h := by rcases h with h | h <;> cases h
  owner j h := by
    obtain ⟨hlast, secret, hsecret, hcontent⟩ := hw.owner j h
    exact ⟨length_setPhase i .spawned |>.trans hlast, secret,
      (secret?_setPhase w i j .spawned).trans hsecret, hcontent⟩
  task j h := by
    obtain rfl : i = j := Option.some.inj h
    obtain ⟨-, hphase⟩ := hw.spawning i (Or.inr hpc)
    exact ⟨.spawned, phase?_setPhase_self hphase, by simp⟩

theorem ordered_step {e : ClipboardEvent} (hw : w.Ordered) (h : w.step e = some w') :
    w'.Ordered := by
  have htask : IsTaskStep e → w'.Ordered := by
    intro he
    cases taskMoves_of_step he h with
    | goesOn _ i p p' hp hlive hlive' =>
        exact hw.setPhase hp (by rintro rfl; exact hlive) (by rintro rfl; exact hlive')
    | leaves i _ hphase _ _ => exact hw.setPhase hphase (by simp) (by simp)
    | clears i hphase =>
        have hset : (w.setPhase i .finished).Ordered := hw.setPhase hphase (by simp) (by simp)
        exact hset.disown none
  cases e with
  | copyWithTimeout secret timeout =>
      obtain ⟨-, rfl⟩ := step_copyWithTimeout h
      exact hw.copy secret timeout
  | abortPrevious =>
      obtain ⟨i, hpc, rfl⟩ := step_abortPrevious h
      apply hw.abortTask
      rintro j (hj | hj)
      · cases hj
      · cases hj
        exact Or.inl hpc
  | spawn =>
      obtain ⟨i, hpc, rfl⟩ := step_spawn h
      exact hw.spawn hpc
  | cancel =>
      obtain ⟨-, pc, hpc, rfl⟩ := step_cancelling (Or.inl rfl) h
      apply hw.abortTask
      rintro j (rfl | rfl) <;> rcases hpc with h | h <;> cases h
  | drop =>
      obtain ⟨-, pc, hpc, rfl⟩ := step_cancelling (Or.inr rfl) h
      apply hw.abortTask
      rintro j (rfl | rfl) <;> rcases hpc with h | h <;> cases h
  | foreignWrite content =>
      cases h
      exact hw.disown content
  | tick d =>
      cases h
      exact ⟨hw.spawning, hw.owner, hw.task⟩
  | poll i => exact htask trivial
  | wake i => exact htask trivial
  | read i => exact htask trivial
  | clear i => exact htask trivial

/-! ## Watched secrets -/

theorem watched_new (content : Option Text) : (new content).Watched := by
  intro i h
  cases h

/-- A timer task goes on: the secrets it does not clear stay watched. -/
theorem pending_setPhase {i j : Nat} {p p' : ClearPhase} (hp : w.phase? i = some p)
    (hlive : i = j → p'.IsLive) (hj : w.Pending j) : (w.setPhase i p').Pending j := by
  rcases hj with hspawning | ⟨q, hq, hqlive⟩
  · exact Or.inl hspawning
  · right
    by_cases hij : i = j
    · subst hij
      exact ⟨p', phase?_setPhase_self hp, hlive rfl⟩
    · exact ⟨q, (phase?_setPhase_of_ne hij).trans hq, hqlive⟩

/-- The steps of the timer tasks keep every watch. -/
theorem watched_taskMoves {e : ClipboardEvent} (hordered : w.Ordered) (hw : w.Watched)
    (h : w.TaskMoves e w') : w'.Watched := by
  cases h with
  | goesOn _ i p p' hp _ hlive' =>
      intro j hj
      exact pending_setPhase hp (fun _ => hlive') (hw j hj)
  | leaves i secret hphase hsecret hother =>
      intro j hj
      apply pending_setPhase hphase ?_ (hw j hj)
      rintro rfl
      -- what the clipboard holds is the secret of its owner
      obtain ⟨-, own, hown, hcontent⟩ := hordered.owner i hj
      rw [hsecret, Option.some.injEq] at hown
      exact absurd (hown ▸ hcontent) hother
  | clears i _ =>
      intro j hj
      cases hj

/-- A call of `cancel` or `drop` keeps every watch exactly if it does not abort the task that
waits to clear what is in the clipboard. -/
theorem watched_abortTask_iff (hw : w.Watched) (hidle : w.pc = .idle) {pc : GuardPc}
    (hpc : pc = .idle ∨ pc = .dropped) :
    ({ w.abortTask with pc := pc } : ClipboardWorld).Watched ↔
      ∀ i p, w.owner = some i → w.task = some i → w.phase? i = some p → ¬ p.IsWaiting := by
  have hnot : ∀ i, ¬ ({ w.abortTask with pc := pc } : ClipboardWorld).Spawning i := by
    rintro i (h | h) <;> rcases hpc with rfl | rfl <;> cases h
  constructor
  · intro hafter i p howner htask hp hwaiting
    rcases hafter i ((owner_abortTask w).trans howner) with hspawning | ⟨q, hq, hlive⟩
    · exact hnot i hspawning
    · have hq' : w.abortTask.phase? i = some q := hq
      rw [phase?_abortTask, hp, Option.map_some, if_pos htask, Option.some.injEq] at hq'
      subst hq'
      exact (p.isLive_abort_iff (p.isLive_of_isWaiting hwaiting)).mp hlive hwaiting
  · intro hkeeps i howner
    have howner' : w.owner = some i := (owner_abortTask w).symm.trans howner
    right
    rcases hw i howner' with (hspawning | hspawning) | ⟨p, hp, hlive⟩
    · rw [hidle] at hspawning
      cases hspawning
    · rw [hidle] at hspawning
      cases hspawning
    · have hafter : w.abortTask.phase? i = some (if w.task = some i then p.abort else p) := by
        rw [phase?_abortTask, hp]
        rfl
      refine ⟨_, hafter, ?_⟩
      split
      · rename_i htask
        exact (p.isLive_abort_iff hlive).mpr (hkeeps i p howner' htask hp)
      · exact hlive

/-- The abort that a copy makes is not one of its own timer task. -/
theorem watched_abortPrevious (hordered : w.Ordered) {i : Nat} (hpc : w.pc = .wrote i) :
    ({ w.abortTask with pc := .cancelled i } : ClipboardWorld).Watched := by
  intro j hj
  have hlast := (hordered.owner j ((owner_abortTask w).symm.trans hj)).1
  have hlast' := (hordered.spawning i (Or.inl hpc)).1
  obtain rfl : i = j := by omega
  exact Or.inl (Or.inr rfl)

/-- The spawn turns the copy into its timer task. -/
theorem watched_spawn (hordered : w.Ordered) {i : Nat} (hpc : w.pc = .cancelled i) :
    ({ w.setPhase i .spawned with task := some i, pc := .idle } : ClipboardWorld).Watched := by
  intro j hj
  have hlast := (hordered.owner j hj).1
  obtain ⟨hlast', hphase⟩ := hordered.spawning i (Or.inr hpc)
  obtain rfl : i = j := by omega
  exact Or.inr ⟨.spawned, phase?_setPhase_self hphase, trivial⟩

/-- From a watched state a step leads to a watched one exactly if it keeps the timer. -/
theorem watched_step_iff {e : ClipboardEvent} (hordered : w.Ordered) (hw : w.Watched)
    (h : w.step e = some w') : w'.Watched ↔ w.KeepsTimer e := by
  have htask : IsTaskStep e → w'.Watched := fun he =>
    watched_taskMoves hordered hw (taskMoves_of_step he h)
  cases e with
  | copyWithTimeout secret timeout =>
      obtain ⟨-, rfl⟩ := step_copyWithTimeout h
      refine iff_of_true ?_ trivial
      intro i hi
      obtain rfl : w.calls.length = i := Option.some.inj hi
      exact Or.inl (Or.inl rfl)
  | abortPrevious =>
      obtain ⟨i, hpc, rfl⟩ := step_abortPrevious h
      exact iff_of_true (watched_abortPrevious hordered hpc) trivial
  | spawn =>
      obtain ⟨i, hpc, rfl⟩ := step_spawn h
      exact iff_of_true (watched_spawn hordered hpc) trivial
  | cancel =>
      obtain ⟨hidle, pc, hpc, rfl⟩ := step_cancelling (Or.inl rfl) h
      exact watched_abortTask_iff hw hidle hpc
  | drop =>
      obtain ⟨hidle, pc, hpc, rfl⟩ := step_cancelling (Or.inr rfl) h
      exact watched_abortTask_iff hw hidle hpc
  | foreignWrite content =>
      cases h
      refine iff_of_true ?_ trivial
      intro i hi
      cases hi
  | tick d =>
      cases h
      exact iff_of_true hw trivial
  | poll i => exact iff_of_true (htask trivial) trivial
  | wake i => exact iff_of_true (htask trivial) trivial
  | read i => exact iff_of_true (htask trivial) trivial
  | clear i => exact iff_of_true (htask trivial) trivial

/-! ## What is left when everything has run -/

/-- Nothing that the guard and its timer tasks could do is left to do. -/
def Settled (w : ClipboardWorld) : Prop :=
  w.step .abortPrevious = none ∧ w.step .spawn = none ∧
    ∀ e, IsTaskStep e → w.step e = none

/-- A live timer task of a settled state sleeps. -/
theorem Settled.sleeping (hsettled : w.Settled) {i : Nat} {p : ClearPhase}
    (hp : w.phase? i = some p) (hlive : p.IsLive) :
    ∃ deadline, p = .sleeping deadline ∧ w.now < deadline := by
  obtain ⟨c, hc, rfl⟩ := Option.map_eq_some_iff.mp hp
  have hnone := hsettled.2.2
  cases hphase : c.phase with
  | unspawned => exact (hphase ▸ hlive).elim
  | spawned =>
      have hpoll := hnone (.poll i) trivial
      simp [step, hc, hphase] at hpoll
  | sleeping deadline =>
      have hwake := hnone (.wake i) trivial
      refine ⟨deadline, rfl, ?_⟩
      simpa [step, hc, hphase] using hwake
  | woken =>
      have hread := hnone (.read i) trivial
      simp only [step, hc, hphase, Option.bind_eq_bind, Option.bind_some, if_true] at hread
      split at hread <;> cases hread
  | matched =>
      have hclear := hnone (.clear i) trivial
      simp [step, hc, hphase] at hclear
  | finished => exact (hphase ▸ hlive).elim
  | aborted => exact (hphase ▸ hlive).elim

/-- The copies of a settled state have spawned their timer tasks. -/
theorem Settled.not_spawning (hsettled : w.Settled) (i : Nat) : ¬ w.Spawning i := by
  rintro (h | h)
  · have habort := hsettled.1
    simp [step, h] at habort
  · have hspawn := hsettled.2.1
    simp [step, h] at hspawn

/-- The secret in the clipboard waits for its timer, which is set past the timeout of its copy. -/
theorem Settled.waits (hsettled : w.Settled) (hw : w.Watched) {i : Nat}
    (howner : w.owner = some i) :
    ∃ deadline, w.phase? i = some (.sleeping deadline) ∧ w.now < deadline := by
  rcases hw i howner with hspawning | ⟨p, hp, hlive⟩
  · exact absurd hspawning (hsettled.not_spawning i)
  · obtain ⟨deadline, rfl, hlt⟩ := hsettled.sleeping hp hlive
    exact ⟨deadline, hp, hlt⟩

/-- A sleeping task whose secret is in the clipboard clears it once the clock is at its
deadline. -/
theorem clears_at_deadline {i : Nat} {secret : SecretString} {deadline : Instant}
    (hphase : w.phase? i = some (.sleeping deadline)) (hsecret : w.secret? i = some secret)
    (hcontent : w.clipboard = some secret.exposeSecret) :
    ∃ w', exec step w [.tick (deadline - w.now), .wake i, .read i, .clear i] = some w' ∧
      w'.clipboard = none := by
  obtain ⟨c, hc, hsleeping⟩ := Option.map_eq_some_iff.mp hphase
  have hown : c.secret = secret := by simpa [secret?, hc] using hsecret
  have hdue : deadline ≤ w.now + (deadline - w.now) := Nat.sub_le_iff_le_add'.mp (Nat.le_refl _)
  simp [exec, step, setPhase, hc, hsleeping, hdue, hcontent, hown]

/-- Throughout a run a secret that the guard put into the clipboard has its timer exactly if no
`cancel` and no `drop` aborts the task that waits to clear it. In such a run, when all that the
guard and its tasks could do is done, the secret is there only while its timer sleeps, and the
timer clears it when the clock comes to its deadline. -/
theorem copied_secrets_have_timers {content : Option Text} {es : List ClipboardEvent}
    (h : exec step (new content) es = some w) :
    ((∀ pre t, pre <+: es → exec step (new content) pre = some t → t.Watched) ↔
        EveryStep step KeepsTimer (new content) es) ∧
      (EveryStep step KeepsTimer (new content) es → w.Settled → ∀ i, w.owner = some i →
        ∃ secret deadline, w.secret? i = some secret ∧
          w.clipboard = some secret.exposeSecret ∧
          w.phase? i = some (.sleeping deadline) ∧ w.now < deadline ∧
          ∃ w', exec step w [.tick (deadline - w.now), .wake i, .read i, .clear i] = some w' ∧
            w'.clipboard = none) := by
  have hordered : ∀ pre t, pre <+: es → exec step (new content) pre = some t → t.Ordered :=
    fun pre t _ ht =>
      exec_invariant Ordered (fun _ _ _ hs hstep => ordered_step hs hstep) (ordered_new content) ht
  have hrule : (∀ pre t, pre <+: es → exec step (new content) pre = some t →
      t.Ordered ∧ t.Watched) ↔ EveryStep step KeepsTimer (new content) es :=
    invariant_iff_everyStep (fun _ _ => True) KeepsTimer (fun w => w.Ordered ∧ w.Watched)
      (by
        rintro s e s' ⟨hs, hwatched⟩ - hstep
        rw [and_iff_right (ordered_step hs hstep)]
        exact watched_step_iff hs hwatched hstep)
      ⟨ordered_new content, watched_new content⟩ everyStep_true ⟨w, h⟩
  constructor
  · rw [← hrule]
    constructor
    · exact fun hwatched pre t hpre ht => ⟨hordered pre t hpre ht, hwatched pre t hpre ht⟩
    · exact fun hboth pre t hpre ht => (hboth pre t hpre ht).2
  · intro hgood hsettled i howner
    obtain ⟨hends, hwatched⟩ := hrule.mpr hgood es w (List.prefix_refl es) h
    obtain ⟨-, secret, hsecret, hcontent⟩ := hends.owner i howner
    obtain ⟨deadline, hphase, hlt⟩ := hsettled.waits hwatched howner
    exact ⟨secret, deadline, hsecret, hcontent, hphase, hlt,
      clears_at_deadline hphase hsecret hcontent⟩

/-- A code is copied, and a second one while the timer of the first sleeps. -/
def copyTwice : List ClipboardEvent :=
  [.copyWithTimeout ⟨"123456".toList⟩ 5, .abortPrevious, .spawn, .poll 0, .tick 3,
    .copyWithTimeout ⟨"654321".toList⟩ 30, .abortPrevious, .spawn, .poll 1]

/-- The theorem on the two copies. -/
theorem copied_secrets_have_timers_copyTwice :
    ∃ w, exec step (new none) copyTwice = some w ∧
      ((∀ pre t, pre <+: copyTwice → exec step (new none) pre = some t → t.Watched) ↔
        EveryStep step KeepsTimer (new none) copyTwice) ∧
      (EveryStep step KeepsTimer (new none) copyTwice → w.Settled → ∀ i, w.owner = some i →
        ∃ secret deadline, w.secret? i = some secret ∧
          w.clipboard = some secret.exposeSecret ∧
          w.phase? i = some (.sleeping deadline) ∧ w.now < deadline ∧
          ∃ w', exec step w [.tick (deadline - w.now), .wake i, .read i, .clear i] = some w' ∧
            w'.clipboard = none) := by
  have hrun : ∃ w, exec step (new none) copyTwice = some w := ⟨_, rfl⟩
  obtain ⟨w, hw⟩ := hrun
  exact ⟨w, hw, copied_secrets_have_timers hw⟩

/-- Cancelled after the second copy, no timer is left and the code stays. -/
example : ∃ w, exec step (new none) (copyTwice ++ [.cancel, .tick 100]) = some w ∧
    w.clipboard = some "654321".toList ∧ w.calls.map CopyCall.phase = [.aborted, .aborted] :=
  ⟨_, rfl, rfl, rfl⟩

end ClipboardWorld

end ViperVault
