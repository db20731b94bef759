import ViperVault.Import.AttemptRuns

/-!
# The history of a gate

What the journal of a gate says about its count and about the delays: the count is a function of
the outcomes in the order of the limiter's mutex. A delay holds back the attempt that it was given
to and nobody else.
-/

namespace ViperVault

open Foundation

namespace GateWorld

section Runs

variable {Key : Type} {lib : Libraries Key} {backupLib : BackupLibraries Key}
  {policy : UnlockThrottlePolicy}

/-! ## The count -/

variable (lib backupLib policy) in
/-- The count is that of the journal, the journal is what the outcomes of the attempts ask for,
and the delays follow the schedule along streaks without a quiet gap. -/
structure CountsHistory (w : GateWorld) : Prop where
  count : w.limiter.streak = Streak.ofHistory policy.quietPeriod (w.journal.map Prod.snd)
  writers : ∀ e ∈ w.journal, e.1 < w.attempts.length
  refused : ∀ (i : Nat) (a : Attempt), w.attempts[i]? = some a →
    a.request.outcome lib backupLib = none → entriesOf i w.journal = []
  settled : ∀ (i : Nat) (a : Attempt) (answer : GateAnswer)
      (res : Except UnlockError (UnlockOutcome × Bytes)), w.attempts[i]? = some a →
    a.pc = .returned answer → a.request.outcome lib backupLib = some res →
    Settled w.now (entriesOf i w.journal) (verdictOf res)
  pending : ∀ (i : Nat) (a : Attempt) (res : Except UnlockError (UnlockOutcome × Bytes)),
    w.attempts[i]? = some a → (∀ answer, a.pc ≠ .returned answer) →
    a.request.outcome lib backupLib = some res →
    entriesOf i w.journal = [] ∨ (verdictOf res = .authFailed ∧
      ∃ instant delay, entriesOf i w.journal = [.failure instant (some delay)])
  delays : ∀ (start steps after : List LimiterAction) (instant : Instant)
      (delay : Option Duration),
    w.journal.map Prod.snd = (start ++ steps) ++ .failure instant delay :: after →
    Fresh start → Unbroken policy.quietPeriod (steps ++ [.failure instant delay]) →
    ∃ d, delay = some d ∧ leastDelay policy (steps.length + 1) ≤ d ∧
      d ≤ leastDelay policy (steps.length + 1) + policy.jitterMax

/-- Where a jitter can always be computed no failure is left without a delay. -/
theorem Sound.delay_ne_none {w : GateWorld} (hw : Sound lib backupLib policy w)
    (hjitter : policy.jitterMax / 1000000 < 2 ^ 64 - 1) {instant : Instant}
    (h : .failure instant none ∈ w.journal.map Prod.snd) : False := by
  obtain ⟨e, he, hnone⟩ := List.mem_map.mp h
  obtain ⟨draw, hdraw⟩ := hw.given e he instant hnone
  exact jitter_ne_none hjitter draw hdraw

theorem Sound.delays {w : GateWorld} (hw : Sound lib backupLib policy w)
    (hjitter : policy.jitterMax / 1000000 < 2 ^ 64 - 1)
    {start steps after : List LimiterAction} {instant : Instant} {delay : Option Duration}
    (hsplit : w.journal.map Prod.snd = (start ++ steps) ++ .failure instant delay :: after)
    (hstart : Fresh start)
    (hsteps : Unbroken policy.quietPeriod (steps ++ [.failure instant delay])) :
    ∃ d, delay = some d ∧ leastDelay policy (steps.length + 1) ≤ d ∧
      d ≤ leastDelay policy (steps.length + 1) + policy.jitterMax := by
  cases delay with
  | none =>
      have hmem : .failure instant none ∈ w.journal.map Prod.snd := by
        rw [hsplit]
        simp
      exact (hw.delay_ne_none hjitter hmem).elim
  | some d =>
      have hcount := failures_of_unbroken hstart hsteps
      rw [← List.append_assoc, Streak.ofHistory_append_singleton, List.length_append,
        List.length_singleton] at hcount
      have hbounds := hw.proportionate (start ++ steps) instant d after hsplit
      have hleast : leastDelay policy
          ((Streak.ofHistory policy.quietPeriod (start ++ steps)).afterFailure policy.quietPeriod
            instant).failures = leastDelay policy (steps.length + 1) := by
        rw [← leastDelay_min policy (steps.length + 1), ← hcount]
        rfl
      rw [hleast] at hbounds
      exact ⟨d, rfl, hbounds⟩

/-- An encrypted container without a ciphertext. -/
def closedVault : ParsedVaultFile := ⟨1, sampleHeader, sampleHeaderBytes, .encrypted, []⟩

/-- An attempt fails and is given a delay of 5 milliseconds; meanwhile another one has come to its
check. -/
def failThenCheck : List GateEvent :=
  [.invoke (.plaintextJson closedVault (samplePassword "north")), .advance 0 0, .advance 0 0,
   .advance 0 5, .invoke (.plaintextJson closedVault (samplePassword "south")), .advance 1 0]

/-- Whatever the interleaving, the count is exactly that of the history. -/
theorem count_is_history {es : List GateEvent} {w : GateWorld}
    (hjitter : policy.jitterMax / 1000000 < 2 ^ 64 - 1)
    (h : exec (step lib backupLib policy) new es = some w) :
    CountsHistory lib backupLib policy w ∧
      ∀ m n, m ≤ n → leastDelay policy m ≤ leastDelay policy n := by
  have hw := sound_of_run h
  have hgiven := jitter_ne_none hjitter
  refine ⟨?_, fun m n => leastDelay_mono policy⟩
  exact
    { count := hw.streak
      writers := hw.writers
      refused := fun i a ha => (hw.accounts i a ha).refused hgiven
      settled := fun i a answer res ha hpc hres => ((hw.accounts i a ha).settled hpc hres).2
      pending := fun i a res ha => (hw.accounts i a ha).pending hgiven
      delays := fun start steps after instant delay => hw.delays hjitter }

/-- The theorem on a failure and the delay that it is given. -/
theorem count_is_history_failThenCheck :
    ∃ w, exec (step symbolic symbolicBackup .default) new failThenCheck = some w ∧
      w.limiter.failures = 1 ∧ CountsHistory symbolic symbolicBackup .default w := by
  have hrun : ∃ w, exec (step symbolic symbolicBackup .default) new failThenCheck = some w ∧
      w.limiter.failures = 1 := ⟨_, rfl, rfl⟩
  obtain ⟨w, hexec, hfailures⟩ := hrun
  exact ⟨w, hexec, hfailures, (count_is_history (by decide) hexec).1⟩

/-! ## Delays and the other attempts -/

/-- An attempt that has returned stays as it is. -/
theorem getElem?_of_run {es : List GateEvent} {w w' : GateWorld} {i : Nat} {a : Attempt}
    {answer : GateAnswer} (ha : w.attempts[i]? = some a) (hpc : a.pc = .returned answer)
    (h : exec (step lib backupLib policy) w es = some w') : w'.attempts[i]? = some a := by
  refine exec_invariant (fun s => s.attempts[i]? = some a) ?_ ha h
  intro s ev s' hs hstep
  rcases step_cases hstep with ⟨request, rfl, rfl⟩ |
    ⟨j, draw, b, pc', limiter', more, rfl, hb, hmove, rfl⟩ | ⟨d, rfl, rfl⟩
  · have hi : i < s.attempts.length := (List.getElem?_eq_some_iff.mp hs).1
    change (s.attempts ++ [_])[i]? = some a
    rw [List.getElem?_append_left hi]
    exact hs
  · change (s.attempts.set j _)[i]? = some a
    by_cases hji : j = i
    · subst hji
      rw [hs] at hb
      cases hb
      cases hmove <;> simp_all
    · rw [List.getElem?_set_ne hji]
      exact hs
  · exact hs

/-- The event evaluates a check while the delay runs that another attempt was given. -/
def ChecksInDelay (w : GateWorld) (i : Nat) : GateEvent → Prop
  | .advance j _ => i ≠ j ∧ ∃ b parsed instant delay, w.attempts[j]? = some b ∧
      b.pc = .admitted parsed ∧ (i, .failure instant (some delay)) ∈ w.journal ∧
      w.now < instant + delay
  | _ => False

/-- An attempt is asleep as long as its delay is not over. -/
theorem asleep_of_run {es : List GateEvent} {w : GateWorld}
    (h : exec (step lib backupLib policy) new es = some w) {i : Nat} {instant : Instant}
    {delay : Duration} (hentry : (i, .failure instant (some delay)) ∈ w.journal)
    (hnow : w.now < instant + delay) :
    ∃ a res, w.attempts[i]? = some a ∧ a.pc = .sleeping res (instant + delay) := by
  have hw := sound_of_run h
  have hi : i < w.attempts.length := hw.writers _ hentry
  obtain ⟨res, hpc⟩ := (hw.accounts i w.attempts[i] (List.getElem?_eq_getElem hi)).asleep
    (mem_entriesOf hentry) hnow
  exact ⟨w.attempts[i], res, List.getElem?_eq_getElem hi, hpc⟩

theorem asleep_of_checksInDelay {es : List GateEvent} {w : GateWorld}
    (h : exec (step lib backupLib policy) new es = some w) {i : Nat} {a : Attempt}
    {ev : GateEvent} (ha : w.attempts[i]? = some a) (hchecks : ChecksInDelay w i ev) :
    ∃ res deadline, a.pc = .sleeping res deadline ∧ w.now < deadline := by
  cases ev with
  | advance j draw =>
      obtain ⟨-, b, parsed, instant, delay, -, -, hentry, hnow⟩ := hchecks
      obtain ⟨a', res, ha', hpc⟩ := asleep_of_run h hentry hnow
      obtain rfl : a = a' := Option.some.inj (ha.symm.trans ha')
      exact ⟨res, instant + delay, hpc, hnow⟩
  | _ => exact hchecks.elim

/-- As long as a delay is not over, the attempt that it was given to is asleep and has not returned.
So a check is evaluated during the delay of another attempt only before the return of that attempt;
after its return every check comes after the delay. The attempts that overlap are all counted, and
each delay is at least that of the count at its failure. -/
theorem delays_hold_back_their_attempt {es : List GateEvent} {w : GateWorld}
    (h : exec (step lib backupLib policy) new es = some w) :
    (∀ i instant delay, (i, .failure instant (some delay)) ∈ w.journal →
      w.now < instant + delay →
      ∃ a res, w.attempts[i]? = some a ∧ a.pc = .sleeping res (instant + delay)) ∧
    (∀ i a ev, w.attempts[i]? = some a → ChecksInDelay w i ev →
      ∃ res deadline, a.pc = .sleeping res deadline ∧ w.now < deadline) ∧
    (∀ i a answer, w.attempts[i]? = some a → a.pc = .returned answer →
      ∀ es' w' ev, exec (step lib backupLib policy) w es' = some w' → ¬ ChecksInDelay w' i ev) ∧
    (∀ before i instant delay after,
      w.journal = before ++ (i, .failure instant (some delay)) :: after →
      leastDelay policy ((Streak.ofHistory policy.quietPeriod (before.map Prod.snd)).afterFailure
        policy.quietPeriod instant).failures ≤ delay) := by
  refine ⟨fun i instant delay => asleep_of_run h,
    fun i a ev ha hchecks => asleep_of_checksInDelay h ha hchecks, ?_, ?_⟩
  · intro i a answer ha hpc es' w' ev h' hchecks
    have hrun := exec_append_eq_some.mpr ⟨w, h, h'⟩
    obtain ⟨res, deadline, hsleeping, -⟩ :=
      asleep_of_checksInDelay hrun (getElem?_of_run ha hpc h') hchecks
    rw [hpc] at hsleeping
    cases hsleeping
  · intro before i instant delay after hsplit
    have hw := sound_of_run h
    refine (hw.proportionate (before.map Prod.snd) instant delay (after.map Prod.snd) ?_).1
    rw [hsplit, List.map_append, List.map_cons]

/-- The theorem on the same run once the attempt has slept and returned. -/
theorem delays_hold_back_their_attempt_failThenCheck :
    ∃ w, exec (step symbolic symbolicBackup .default) new
        (failThenCheck ++ [.tick 5000000, .advance 0 0, .advance 0 0]) = some w ∧
      ¬ ChecksInDelay w 0 (.advance 1 0) := by
  have hrun : ∃ w a, exec (step symbolic symbolicBackup .default) new
      (failThenCheck ++ [.tick 5000000, .advance 0 0, .advance 0 0]) = some w ∧
      w.attempts[0]? = some a ∧ a.pc = .returned (.plaintextJson (.error .authFailed)) :=
    ⟨_, _, rfl, rfl, rfl⟩
  obtain ⟨w, a, hexec, ha, hpc⟩ := hrun
  exact ⟨w, hexec, (delays_hold_back_their_attempt hexec).2.2.1 0 a _ ha hpc [] w _ rfl⟩

/-- The second attempt checks its password while the delay of the first one runs. -/
theorem failThenCheck_checks_in_delay :
    ∃ w w', exec (step symbolic symbolicBackup .default) new failThenCheck = some w ∧
      ChecksInDelay w 0 (.advance 1 0) ∧
      w.step symbolic symbolicBackup .default (.advance 1 0) = some w' ∧
      (w'.attempts[1]?).map Attempt.pc = some (.evaluated (.error .authFailed)) := by
  have hrun : ∃ w a parsed delay,
      exec (step symbolic symbolicBackup .default) new failThenCheck = some w ∧
      w.now = 0 ∧ w.journal = [(0, .failure 0 (some delay))] ∧ w.attempts[1]? = some a ∧
      a.pc = .admitted parsed ∧ (0 : Nat) < delay ∧
      ∃ w', w.step symbolic symbolicBackup .default (.advance 1 0) = some w' ∧
        (w'.attempts[1]?).map Attempt.pc = some (.evaluated (.error .authFailed)) := by
    refine ⟨_, _, _, _, rfl, rfl, rfl, rfl, rfl, by decide, _, rfl, rfl⟩
  obtain ⟨w, a, parsed, delay, hexec, hnow, hjournal, ha, hpc, hdelay, w', hstep, hpc'⟩ := hrun
  refine ⟨w, w', hexec, ⟨by decide, a, parsed, 0, delay, ha, hpc, ?_, ?_⟩, hstep, hpc'⟩
  · rw [hjournal]
    exact List.mem_singleton.mpr rfl
  · rw [hnow]
    simpa using hdelay

end Runs

end GateWorld

end ViperVault
