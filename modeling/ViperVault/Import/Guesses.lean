import ViperVault.Foundation.Weights
import ViperVault.Import.GateHistory
import Mathlib.Tactic.Ring

/-!
# What guessing costs

The delays of a gate hold back the attempt that they are given to and not the others, so what
guessing costs depends on how many attempts are in progress at a time. After fifteen failures each
one costs the longest delay; a reset gives these fifteen back, and a quiet period no more than the
time it takes.
-/

namespace ViperVault

open Foundation

/-! ## The schedule -/

/-- The longest delay of the schedule, capped. -/
def longestDelay (policy : UnlockThrottlePolicy) : Duration :=
  min (Duration.fromSecs 300) policy.maxDelay

example : longestDelay .default = Duration.fromSecs 60 := by decide

theorem leastDelay_le_longest (policy : UnlockThrottlePolicy) (n : Nat) :
    leastDelay policy n ≤ longestDelay policy :=
  min_le_min_right policy.maxDelay (passwordDelayForFailures_le _)

theorem leastDelay_of_le (policy : UnlockThrottlePolicy) {n : Nat} (h : 16 ≤ n) :
    leastDelay policy n = longestDelay policy := by
  have hcount : 16 ≤ min n (2 ^ 32 - 1) := by omega
  rw [leastDelay, scheduleAt_eq, scheduleSecs_of_le hcount]
  rfl

/-- The failures that are left until each one costs the longest delay. -/
def Streak.cheap (s : Streak) : Nat := 15 - s.failures

/-- A failure costs its delay and a cheap failure, unless a quiet period came before it. -/
theorem cost_of_failure (policy : UnlockThrottlePolicy) (now : Instant) (s : Streak) :
    longestDelay policy * (1 + (s.afterFailure policy.quietPeriod now).cheap) ≤
      leastDelay policy (s.afterFailure policy.quietPeriod now).failures +
        longestDelay policy *
          (s.cheap + if s.Quiet policy.quietPeriod now then 8 else 0) := by
  have hfailures : (s.afterFailure policy.quietPeriod now).failures =
      min ((if s.Quiet policy.quietPeriod now then s.failures / 2 else s.failures) + 1)
        (2 ^ 32 - 1) := rfl
  by_cases hquiet : s.Quiet policy.quietPeriod now
  · rw [if_pos hquiet] at hfailures ⊢
    have hcheap : 1 + (s.afterFailure policy.quietPeriod now).cheap ≤ s.cheap + 8 := by
      simp only [Streak.cheap, hfailures]
      omega
    exact (Nat.mul_le_mul_left _ hcheap).trans (Nat.le_add_left _ _)
  · rw [if_neg hquiet] at hfailures ⊢
    by_cases hfew : s.failures < 15
    · have hcheap : 1 + (s.afterFailure policy.quietPeriod now).cheap ≤ s.cheap + 0 := by
        simp only [Streak.cheap, hfailures]
        omega
      exact (Nat.mul_le_mul_left _ hcheap).trans (Nat.le_add_left _ _)
    · have hcheap : (s.afterFailure policy.quietPeriod now).cheap = 0 := by
        simp only [Streak.cheap, hfailures]
        omega
      rw [hcheap, leastDelay_of_le policy (by omega), Nat.add_zero, Nat.mul_one]
      exact Nat.le_add_right _ _

/-! ## The journal -/

namespace LimiterAction

/-- A failure was counted. -/
def isFailure : LimiterAction → Bool
  | .failure _ _ => true
  | .reset => false

/-- The delay that was given; where the program stopped instead, the longest one. -/
def delayGiven (policy : UnlockThrottlePolicy) : LimiterAction → Duration
  | .failure _ delay => delay.getD (longestDelay policy)
  | .reset => 0

end LimiterAction

/-- The failures of a history. -/
def failuresIn (steps : List LimiterAction) : Nat := steps.countP LimiterAction.isFailure

/-- The resets of a history. -/
def resetsIn (steps : List LimiterAction) : Nat := steps.countP fun action => !action.isFailure

/-- The failures of a history cost the delays that were given in it, but for fifteen cheap ones
after each reset and eight for each quiet period. -/
def Paid (policy : UnlockThrottlePolicy) (steps : List LimiterAction) (now : Instant) : Prop :=
  ∃ quiets : Nat, quiets * policy.quietPeriod ≤ now ∧
    (∀ last ∈ (Streak.ofHistory policy.quietPeriod steps).last,
      quiets * policy.quietPeriod ≤ last) ∧
    longestDelay policy *
        (failuresIn steps + (Streak.ofHistory policy.quietPeriod steps).cheap) ≤
      longestDelay policy * (15 * (resetsIn steps + 1) + 8 * quiets) +
        weight (LimiterAction.delayGiven policy) steps

section Paid

variable {policy : UnlockThrottlePolicy} {steps : List LimiterAction} {now now' : Instant}

theorem paid_nil : Paid policy [] 0 := by
  refine ⟨0, Nat.le_of_eq (Nat.zero_mul _), ?_, Nat.le_of_eq rfl⟩
  intro last hlast
  cases hlast

theorem Paid.mono (h : Paid policy steps now) (hle : now ≤ now') : Paid policy steps now' := by
  obtain ⟨quiets, hnow, hrest⟩ := h
  exact ⟨quiets, hnow.trans hle, hrest⟩

theorem Paid.reset (h : Paid policy steps now) : Paid policy (steps ++ [.reset]) now := by
  obtain ⟨quiets, hnow, -, hpaid⟩ := h
  refine ⟨quiets, hnow, ?_, ?_⟩
  · intro last hlast
    rw [Streak.ofHistory_append_singleton] at hlast
    cases hlast
  · have hcheap : (Streak.ofHistory policy.quietPeriod (steps ++ [.reset])).cheap = 15 := by
      rw [Streak.ofHistory_append_singleton]
      rfl
    have hfailures : failuresIn (steps ++ [.reset]) = failuresIn steps := by
      simp [failuresIn, LimiterAction.isFailure]
    have hresets : resetsIn (steps ++ [.reset]) = resetsIn steps + 1 := by
      simp [resetsIn, LimiterAction.isFailure]
    rw [hcheap, hfailures, hresets, weight_append_singleton]
    calc longestDelay policy * (failuresIn steps + 15)
        = longestDelay policy * failuresIn steps + longestDelay policy * 15 := Nat.mul_add _ _ _
      _ ≤ longestDelay policy * (15 * (resetsIn steps + 1) + 8 * quiets) +
            weight (LimiterAction.delayGiven policy) steps + longestDelay policy * 15 := by
          apply Nat.add_le_add_right
          refine Nat.le_trans ?_ hpaid
          exact Nat.mul_le_mul_left _ (Nat.le_add_right _ _)
      _ = longestDelay policy * (15 * (resetsIn steps + 1 + 1) + 8 * quiets) +
            (weight (LimiterAction.delayGiven policy) steps +
              LimiterAction.delayGiven policy .reset) := by
          simp only [LimiterAction.delayGiven]
          ring

theorem Paid.failure (h : Paid policy steps now) {delay : Option Duration}
    (hdelay : leastDelay policy ((Streak.ofHistory policy.quietPeriod steps).afterFailure
      policy.quietPeriod now).failures ≤ LimiterAction.delayGiven policy (.failure now delay)) :
    Paid policy (steps ++ [.failure now delay]) now := by
  obtain ⟨quiets, hnow, hlast, hpaid⟩ := h
  have hstreak : Streak.ofHistory policy.quietPeriod (steps ++ [.failure now delay]) =
      (Streak.ofHistory policy.quietPeriod steps).afterFailure policy.quietPeriod now :=
    Streak.ofHistory_append_singleton _ _ _
  have hfailures : failuresIn (steps ++ [.failure now delay]) = failuresIn steps + 1 := by
    simp [failuresIn, LimiterAction.isFailure]
  have hresets : resetsIn (steps ++ [.failure now delay]) = resetsIn steps := by
    simp [resetsIn, LimiterAction.isFailure]
  have hcost := cost_of_failure policy now (Streak.ofHistory policy.quietPeriod steps)
  -- one more quiet period if the streak is halved, and the time for it has passed
  obtain ⟨more, hmore, htime⟩ : ∃ more : Nat,
      (if (Streak.ofHistory policy.quietPeriod steps).Quiet policy.quietPeriod now then 8 else 0) =
        8 * more ∧
      (quiets + more) * policy.quietPeriod ≤ now := by
    by_cases hquiet : (Streak.ofHistory policy.quietPeriod steps).Quiet policy.quietPeriod now
    · refine ⟨1, if_pos hquiet, ?_⟩
      obtain ⟨last, hmem, hgap⟩ := hquiet
      have hbefore := hlast last hmem
      rw [Nat.add_mul, Nat.one_mul]
      rcases Nat.le_total last now with hpast | hpast
      · exact (Nat.add_le_add hbefore hgap).trans_eq (Nat.add_sub_cancel' hpast)
      · rw [Nat.sub_eq_zero_of_le hpast] at hgap
        rwa [Nat.le_zero.mp hgap] at hnow ⊢
    · exact ⟨0, if_neg hquiet, hnow⟩
  refine ⟨quiets + more, htime, ?_, ?_⟩
  · intro last hmem
    rw [hstreak] at hmem
    cases hmem
    exact htime
  · rw [hstreak, hfailures, hresets, weight_append_singleton]
    rw [hmore] at hcost
    calc longestDelay policy * (failuresIn steps + 1 +
          ((Streak.ofHistory policy.quietPeriod steps).afterFailure policy.quietPeriod now).cheap)
        = longestDelay policy * failuresIn steps + longestDelay policy *
            (1 + ((Streak.ofHistory policy.quietPeriod steps).afterFailure policy.quietPeriod
              now).cheap) := by ring
      _ ≤ longestDelay policy * failuresIn steps +
            (LimiterAction.delayGiven policy (.failure now delay) + longestDelay policy *
              ((Streak.ofHistory policy.quietPeriod steps).cheap + 8 * more)) :=
          Nat.add_le_add_left (hcost.trans (Nat.add_le_add_right hdelay _)) _
      _ = longestDelay policy *
            (failuresIn steps + (Streak.ofHistory policy.quietPeriod steps).cheap) +
            (LimiterAction.delayGiven policy (.failure now delay) +
              longestDelay policy * (8 * more)) := by ring
      _ ≤ longestDelay policy * (15 * (resetsIn steps + 1) + 8 * quiets) +
            weight (LimiterAction.delayGiven policy) steps +
            (LimiterAction.delayGiven policy (.failure now delay) +
              longestDelay policy * (8 * more)) := Nat.add_le_add_right hpaid _
      _ = longestDelay policy * (15 * (resetsIn steps + 1) + 8 * (quiets + more)) +
            (weight (LimiterAction.delayGiven policy) steps +
              LimiterAction.delayGiven policy (.failure now delay)) := by ring

end Paid

/-! ## Attempts in progress -/

namespace Attempt

/-- The attempt has not returned. -/
def inProgress (a : Attempt) : Bool :=
  match a.pc with
  | .returned _ => false
  | _ => true

/-- What is left of the delay that the attempt was given. -/
def remaining (policy : UnlockThrottlePolicy) (now : Instant) (a : Attempt) : Duration :=
  match a.pc with
  | .sleeping _ deadline => deadline - now
  | .panicked => longestDelay policy
  | _ => 0

/-- Time takes from what is left of an attempt in progress. -/
theorem remaining_le (policy : UnlockThrottlePolicy) (now : Instant) (d : Duration) (a : Attempt) :
    a.remaining policy now ≤
      a.remaining policy (now + d) + if a.inProgress then d else 0 := by
  obtain ⟨request, pc⟩ := a
  cases pc with
  | sleeping res deadline =>
      calc deadline - now ≤ deadline - now - d + d := Nat.sub_le_iff_le_add.mp (Nat.le_refl _)
        _ = deadline - (now + d) + d := by rw [Nat.sub_sub]
  | _ => exact Nat.le_add_right _ _

theorem remaining_mono (policy : UnlockThrottlePolicy) (now : Instant) (d : Duration)
    (a : Attempt) : a.remaining policy (now + d) ≤ a.remaining policy now := by
  obtain ⟨request, pc⟩ := a
  cases pc with
  | sleeping res deadline => exact Nat.sub_le_sub_left (Nat.le_add_right now d) deadline
  | _ => exact Nat.le_refl _

section Moves

variable {Key : Type} {lib : Libraries Key} {backupLib : BackupLibraries Key}
  {policy : UnlockThrottlePolicy} {a : Attempt} {limiter limiter' : UnlockRateLimiter}
  {now : Instant} {draw : UInt64} {pc' : AttemptPc} {more : List LimiterAction}

theorem Moves.inProgress
    (h : a.Moves lib backupLib policy limiter now draw pc' limiter' more) :
    a.inProgress = true := by
  cases h <;> simp_all [Attempt.inProgress]

/-- The delay that a step gives is what is left after it. -/
theorem Moves.remaining
    (h : a.Moves lib backupLib policy limiter now draw pc' limiter' more) :
    weight (LimiterAction.delayGiven policy) more + a.remaining policy now ≤
        Attempt.remaining policy now { a with pc := pc' } ∧
      Attempt.remaining policy now { a with pc := pc' } ≤
        longestDelay policy + policy.jitterMax := by
  obtain ⟨request, pc⟩ := a
  cases h with
  | panic hpc hjitter =>
      cases hpc
      exact ⟨Nat.le_of_eq (Nat.add_zero _), Nat.le_add_right _ _⟩
  | fail j hpc hjitter =>
      cases hpc
      have hdelay : (limiter.onFailureDelay policy now j).1 ≤
          longestDelay policy + policy.jitterMax :=
        (delay_bounds policy now (jitter_le hjitter) limiter rfl).2.trans
          (Nat.add_le_add_right (leastDelay_le_longest policy _) _)
      have hleft : Attempt.remaining policy now
          { request := request
            pc := if (limiter.onFailureDelay policy now j).1 = 0 then .passed (.error .authFailed)
              else .sleeping (.error .authFailed)
                (now + (limiter.onFailureDelay policy now j).1) } =
          (limiter.onFailureDelay policy now j).1 := by
        split
        · next hzero => exact hzero.symm
        · exact Nat.add_sub_cancel_left _ _
      rw [hleft]
      exact ⟨Nat.le_of_eq (Nat.add_zero _), hdelay⟩
  | wake res deadline hpc hover =>
      cases hpc
      have hleft : Attempt.remaining policy now ⟨request, .sleeping res deadline⟩ = 0 :=
        Nat.sub_eq_zero_of_le hover
      rw [hleft]
      exact ⟨Nat.zero_le _, Nat.zero_le _⟩
  | evaluate parsed hpc =>
      cases hpc
      exact ⟨Nat.zero_le _, Nat.zero_le _⟩
  | _ =>
      rename_i hpc _
      cases hpc
      exact ⟨Nat.zero_le _, Nat.zero_le _⟩

/-- What a step does to the limiter is paid for. -/
theorem Moves.paid {steps : List LimiterAction} (hpaid : Paid policy steps now)
    (hstreak : limiter.streak = Streak.ofHistory policy.quietPeriod steps)
    (h : a.Moves lib backupLib policy limiter now draw pc' limiter' more) :
    Paid policy (steps ++ more) now := by
  cases h with
  | panic hpc hjitter =>
      apply hpaid.failure
      exact leastDelay_le_longest policy _
  | fail j hpc hjitter =>
      apply hpaid.failure
      rw [← hstreak]
      exact (delay_bounds policy now (jitter_le hjitter) limiter rfl).1
  | reset res hpc hverdict => exact hpaid.reset
  | _ => rwa [List.append_nil]

end Moves

end Attempt

/-! ## Runs -/

/-- An attempt is made. -/
def GateEvent.isInvoke : GateEvent → Bool
  | .invoke _ => true
  | _ => false

namespace GateWorld

/-- The failures that the limiter has counted. -/
def failuresMade (w : GateWorld) : Nat := failuresIn (w.journal.map Prod.snd)

/-- The resets of the limiter. -/
def resetsMade (w : GateWorld) : Nat := resetsIn (w.journal.map Prod.snd)

/-- The attempts that have not returned. -/
def inProgress (w : GateWorld) : Nat := w.attempts.countP Attempt.inProgress

/-- An attempt is made only while fewer than `k` are in progress. -/
def OverlapsAtMost (k : Nat) (w : GateWorld) : GateEvent → Prop
  | .invoke _ => w.inProgress < k
  | _ => True

section Runs

variable {Key : Type} {lib : Libraries Key} {backupLib : BackupLibraries Key}
  {policy : UnlockThrottlePolicy} {k : Nat} {w w' : GateWorld} {ev : GateEvent}

variable (policy) in
/-- What the failures cost, and who has served the delays or still has to. -/
structure Priced (k : Nat) (w : GateWorld) : Prop where
  within : w.inProgress ≤ k
  paid : Paid policy (w.journal.map Prod.snd) w.now
  served : weight (LimiterAction.delayGiven policy) (w.journal.map Prod.snd) ≤
    k * w.now + weight (Attempt.remaining policy w.now) w.attempts
  remaining : ∀ a ∈ w.attempts,
    a.remaining policy w.now ≤ longestDelay policy + policy.jitterMax

theorem priced_new : Priced policy k new where
  within := Nat.zero_le k
  paid := paid_nil
  served := Nat.zero_le _
  remaining a ha := by cases ha

theorem Priced.invoke (hw : Priced policy k w) (hfree : w.inProgress < k)
    (request : GateRequest) :
    Priced policy k { w with attempts := w.attempts ++ [⟨request, .start⟩] } where
  within := by
    have hcount : (w.attempts ++ [Attempt.mk request .start]).countP Attempt.inProgress =
        w.inProgress + 1 := by
      simp [GateWorld.inProgress, Attempt.inProgress]
    exact hcount.trans_le hfree
  paid := hw.paid
  served := by
    rw [weight_append_singleton]
    exact hw.served
  remaining := by
    intro a ha
    rcases List.mem_append.mp ha with ha | ha
    · exact hw.remaining a ha
    · obtain rfl := List.mem_singleton.mp ha
      exact Nat.zero_le _

theorem Priced.tick (hw : Priced policy k w) (d : Duration) :
    Priced policy k { w with now := w.now + d } where
  within := hw.within
  paid := hw.paid.mono (Nat.le_add_right _ _)
  served := by
    have hserved : weight (Attempt.remaining policy w.now) w.attempts ≤
        weight (Attempt.remaining policy (w.now + d)) w.attempts + w.inProgress * d :=
      weight_le_add_mul fun a _ => a.remaining_le policy w.now d
    calc weight (LimiterAction.delayGiven policy) (w.journal.map Prod.snd)
        ≤ k * w.now + weight (Attempt.remaining policy w.now) w.attempts := hw.served
      _ ≤ k * w.now +
            (weight (Attempt.remaining policy (w.now + d)) w.attempts + k * d) :=
          Nat.add_le_add_left
            (hserved.trans (Nat.add_le_add_left (Nat.mul_le_mul_right d hw.within) _)) _
      _ = k * (w.now + d) + weight (Attempt.remaining policy (w.now + d)) w.attempts := by ring
  remaining a ha := (a.remaining_mono policy w.now d).trans (hw.remaining a ha)

/-- Whoever is in progress has no more than one delay left. -/
theorem Priced.remaining_le (hw : Priced policy k w) :
    weight (Attempt.remaining policy w.now) w.attempts ≤
      k * (longestDelay policy + policy.jitterMax) := by
  have hone : ∀ a ∈ w.attempts, a.remaining policy w.now ≤
      0 + if a.inProgress then longestDelay policy + policy.jitterMax else 0 := by
    intro a ha
    rw [Nat.zero_add]
    split
    · exact hw.remaining a ha
    · next hreturned =>
        obtain ⟨request, pc⟩ := a
        cases pc with
        | returned answer => exact Nat.le_refl 0
        | _ => exact absurd rfl hreturned
  calc weight (Attempt.remaining policy w.now) w.attempts
      ≤ weight (fun _ => 0) w.attempts +
          w.inProgress * (longestDelay policy + policy.jitterMax) := weight_le_add_mul hone
    _ = w.inProgress * (longestDelay policy + policy.jitterMax) := by
        rw [weight_zero, Nat.zero_add]
    _ ≤ k * (longestDelay policy + policy.jitterMax) := Nat.mul_le_mul_right _ hw.within

theorem priced_step (hsound : Sound lib backupLib policy w) (hw : Priced policy k w)
    (hoverlap : OverlapsAtMost k w ev) (h : w.step lib backupLib policy ev = some w') :
    Priced policy k w' := by
  rcases step_cases h with ⟨request, rfl, rfl⟩ |
    ⟨i, draw, a, pc', limiter', more, rfl, ha, hmove, rfl⟩ | ⟨d, rfl, rfl⟩
  · exact hw.invoke hoverlap request
  · have hjournal : (w.journal ++ signed i more).map Prod.snd = w.journal.map Prod.snd ++ more := by
      rw [List.map_append, map_snd_signed]
    obtain ⟨hgiven, hleft⟩ := hmove.remaining
    refine
      { within := ?_
        paid := ?_
        served := ?_
        remaining := ?_ }
    · exact (countP_set_le ha hmove.inProgress _).trans hw.within
    · rw [hjournal]
      exact hmove.paid hw.paid hsound.streak
    · rw [hjournal, weight_append]
      change _ ≤ k * w.now + weight (Attempt.remaining policy w.now)
        (w.attempts.set i { a with pc := pc' })
      have hset := weight_set (f := Attempt.remaining policy w.now) ha { a with pc := pc' }
      have hserved := hw.served
      omega
    · intro b hb
      rcases List.mem_or_eq_of_mem_set hb with hb | rfl
      · exact hw.remaining b hb
      · exact hleft
  · exact hw.tick d

/-- As many attempts overlap as are made. -/
theorem everyStep_overlapsAtMost {es : List GateEvent}
    (hcount : w.attempts.length + es.countP GateEvent.isInvoke ≤ k) :
    EveryStep (step lib backupLib policy) (OverlapsAtMost k) w es := by
  induction es generalizing w with
  | nil => trivial
  | cons ev es ih =>
      rw [List.countP_cons] at hcount
      constructor
      · cases ev with
        | invoke request =>
            have hle : w.inProgress ≤ w.attempts.length := List.countP_le_length
            simp only [GateEvent.isInvoke, if_true] at hcount
            exact Nat.lt_of_le_of_lt hle (by omega)
        | advance i draw => trivial
        | tick d => trivial
      · intro w' hstep
        apply ih
        rcases step_cases hstep with ⟨request, rfl, rfl⟩ |
          ⟨i, draw, a, pc', limiter', more, rfl, ha, hmove, rfl⟩ | ⟨d, rfl, rfl⟩
        · simp only [GateEvent.isInvoke, if_true] at hcount
          rw [List.length_append, List.length_singleton]
          omega
        · rw [List.length_set]
          exact hcount
        · exact hcount

/-- What the failures of a run cost where at most `k` attempts overlap. A delay is served by its
own attempt, so `k` of them pass at a time; fifteen failures are cheap after each reset, and a
quiet period that is long enough gives back no more than it takes. -/
theorem guesses_are_bounded (hquiet : 8 * longestDelay policy ≤ policy.quietPeriod)
    {es : List GateEvent}
    (hoverlap : EveryStep (step lib backupLib policy) (OverlapsAtMost k) new es)
    (h : exec (step lib backupLib policy) new es = some w) :
    longestDelay policy * w.failuresMade ≤
      longestDelay policy * (15 * (w.resetsMade + 1)) +
        k * (w.now + longestDelay policy + policy.jitterMax) + w.now := by
  have hpriced : Sound lib backupLib policy w ∧ Priced policy k w := by
    refine exec_invariant_of_everyStep (OverlapsAtMost k)
      (fun w => Sound lib backupLib policy w ∧ Priced policy k w) ?_ ⟨sound_new, priced_new⟩
      hoverlap h
    rintro s e s' ⟨hsound, hs⟩ hgood hstep
    exact ⟨sound_step hsound hstep, priced_step hsound hs hgood hstep⟩
  obtain ⟨-, hw⟩ := hpriced
  obtain ⟨quiets, hnow, -, hpaid⟩ := hw.paid
  have hquiets : longestDelay policy * (8 * quiets) ≤ w.now :=
    calc longestDelay policy * (8 * quiets) = quiets * (8 * longestDelay policy) := by ring
      _ ≤ quiets * policy.quietPeriod := Nat.mul_le_mul_left quiets hquiet
      _ ≤ w.now := hnow
  have hfailures : longestDelay policy * w.failuresMade ≤
      longestDelay policy * (15 * (w.resetsMade + 1) + 8 * quiets) +
        weight (LimiterAction.delayGiven policy) (w.journal.map Prod.snd) :=
    (Nat.mul_le_mul_left _ (Nat.le_add_right _ _)).trans hpaid
  calc longestDelay policy * w.failuresMade
      ≤ longestDelay policy * (15 * (w.resetsMade + 1) + 8 * quiets) +
          (k * w.now + k * (longestDelay policy + policy.jitterMax)) :=
        hfailures.trans (Nat.add_le_add_left
          (hw.served.trans (Nat.add_le_add_left hw.remaining_le _)) _)
    _ = longestDelay policy * (15 * (w.resetsMade + 1)) +
          k * (w.now + longestDelay policy + policy.jitterMax) +
            longestDelay policy * (8 * quiets) := by ring
    _ ≤ _ := Nat.add_le_add_left hquiets _

/-- The theorem on two attempts that overlap. -/
theorem guesses_are_bounded_failThenCheck :
    ∃ w, exec (step symbolic symbolicBackup .default) new failThenCheck = some w ∧
      w.failuresMade = 1 ∧
      longestDelay .default * w.failuresMade ≤
        longestDelay .default * (15 * (w.resetsMade + 1)) +
          2 * (w.now + longestDelay .default + UnlockThrottlePolicy.default.jitterMax) +
            w.now := by
  have hrun : ∃ w, exec (step symbolic symbolicBackup .default) new failThenCheck = some w ∧
      w.failuresMade = 1 := ⟨_, rfl, rfl⟩
  obtain ⟨w, h, hfailures⟩ := hrun
  have hoverlap : EveryStep (step symbolic symbolicBackup .default) (OverlapsAtMost 2) new
      failThenCheck := everyStep_overlapsAtMost (by decide)
  exact ⟨w, h, hfailures, guesses_are_bounded (by decide) hoverlap h⟩

end Runs

end GateWorld

end ViperVault
