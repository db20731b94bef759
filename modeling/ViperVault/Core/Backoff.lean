import ViperVault.Core.AuthGate
import Mathlib.Data.List.Induction
import Mathlib.Order.Monotone.Basic

/-!
# Backoff

What the limiter is for: a streak of failures, which a failure lengthens, a quiet period halves
and a reset ends. The limiter computes the streak of its history, and the delay that it gives for
a failure is that of the schedule, capped, with a jitter on top.
-/

namespace ViperVault

/-- `jitter`, on the number that is drawn. The range of the jitter is one more than its maximum;
where that wraps, the remainder is by zero and stops the program. -/
def jitter (max : Duration) (draw : UInt64) : Option Duration :=
  let maxMs := max / 1000000
  if maxMs = 0 then some 0
  else
    let range := UInt64.ofNat maxMs + 1
    if range = 0 then none else some ((draw % range).toNat * 1000000)

theorem jitter_le {max : Duration} {draw : UInt64} {j : Duration}
    (h : jitter max draw = some j) : j ≤ max := by
  simp only [jitter] at h
  split at h
  · cases h
    exact Nat.zero_le max
  · split at h
    · cases h
    · rename_i hrange
      cases h
      have hpos : 0 < (UInt64.ofNat (max / 1000000) + 1).toNat := by
        rw [Nat.pos_iff_ne_zero]
        exact fun hzero => hrange (UInt64.toNat_inj.mp hzero)
      have hle : (UInt64.ofNat (max / 1000000) + 1).toNat ≤ max / 1000000 + 1 := by
        rw [UInt64.toNat_add, UInt64.toNat_ofNat']
        calc _ ≤ max / 1000000 % 2 ^ 64 + 1 := Nat.mod_le _ _
          _ ≤ max / 1000000 + 1 := Nat.succ_le_succ (Nat.mod_le _ _)
      have hdraw : (draw % (UInt64.ofNat (max / 1000000) + 1)).toNat ≤ max / 1000000 := by
        rw [UInt64.toNat_mod]
        have hlt := Nat.mod_lt draw.toNat hpos
        omega
      calc (draw % (UInt64.ofNat (max / 1000000) + 1)).toNat * 1000000
          ≤ max / 1000000 * 1000000 := Nat.mul_le_mul_right _ hdraw
        _ ≤ max := Nat.div_mul_le_self max 1000000

theorem jitterRange_eq_zero_iff (n : Nat) :
    UInt64.ofNat n + 1 = 0 ↔ n % 2 ^ 64 = 2 ^ 64 - 1 := by
  rw [← UInt64.toNat_inj, UInt64.toNat_add, UInt64.toNat_ofNat', UInt64.toNat_one,
    UInt64.toNat_zero]
  omega

/-- There is no jitter where the milliseconds, narrowed to a machine word, are the largest one. -/
theorem jitter_eq_none_iff (max : Duration) (draw : UInt64) :
    jitter max draw = none ↔ max / 1000000 % 2 ^ 64 = 2 ^ 64 - 1 := by
  rw [← jitterRange_eq_zero_iff]
  simp only [jitter]
  split
  · next hzero =>
      rw [hzero]
      exact iff_of_false (Option.some_ne_none _) (by decide)
  · split
    · next hrange => exact iff_of_true rfl hrange
    · next hrange => exact iff_of_false (Option.some_ne_none _) hrange

/-- Below the last number of milliseconds there is always a jitter. -/
theorem jitter_ne_none {max : Duration} (h : max / 1000000 < 2 ^ 64 - 1) (draw : UInt64) :
    jitter max draw ≠ none := by
  intro hnone
  have hmod := (jitter_eq_none_iff max draw).mp hnone
  rw [Nat.mod_eq_of_lt (Nat.lt_of_lt_of_le h (by decide))] at hmod
  exact Nat.ne_of_lt h hmod

/-! ## Streaks -/

/-- A number of failures in a row, and the instant of the last one. -/
structure Streak where
  failures : Nat
  last : Option Instant

/-- A step of the limiter: a failure, with the delay that was given for it, or a reset. The delay
is missing where the program stopped in the computation of its jitter. -/
inductive LimiterAction
  | failure (now : Instant) (delay : Option Duration)
  | reset

namespace Streak

/-- No failures. -/
def empty : Streak := ⟨0, none⟩

/-- The last failure is at least a quiet period ago. -/
def Quiet (quietPeriod : Duration) (now : Instant) (s : Streak) : Prop :=
  ∃ last ∈ s.last, quietPeriod ≤ now - last

instance (quietPeriod : Duration) (now : Instant) (s : Streak) :
    Decidable (s.Quiet quietPeriod now) :=
  inferInstanceAs (Decidable (∃ last ∈ s.last, _))

/-- One more failure. -/
def afterFailure (quietPeriod : Duration) (now : Instant) (s : Streak) : Streak where
  failures :=
    min ((if s.Quiet quietPeriod now then s.failures / 2 else s.failures) + 1) (2 ^ 32 - 1)
  last := some now

/-- The streak after a step of the limiter. -/
def after (quietPeriod : Duration) (s : Streak) : LimiterAction → Streak
  | .failure now _ => s.afterFailure quietPeriod now
  | .reset => empty

/-- The streak after a history of steps. -/
def ofHistory (quietPeriod : Duration) (steps : List LimiterAction) : Streak :=
  steps.foldl (after quietPeriod) empty

theorem ofHistory_append_singleton (quietPeriod : Duration) (steps : List LimiterAction)
    (action : LimiterAction) :
    ofHistory quietPeriod (steps ++ [action]) =
      (ofHistory quietPeriod steps).after quietPeriod action := by
  rw [ofHistory, List.foldl_append]
  rfl

end Streak

namespace UnlockRateLimiter

/-- The streak that the limiter holds. -/
def streak (l : UnlockRateLimiter) : Streak := ⟨l.failures.toNat, l.lastFailure⟩

theorem toNat_saturatingSucc (n : UInt32) :
    (saturatingSucc n).toNat = min (n.toNat + 1) (2 ^ 32 - 1) := by
  have hlt := n.toNat_lt
  unfold saturatingSucc
  split
  · rename_i hmax
    subst hmax
    rfl
  · rename_i hmax
    have hne : n.toNat ≠ 2 ^ 32 - 1 := fun h => hmax (UInt32.toNat_inj.mp h)
    rw [UInt32.toNat_add, UInt32.toNat_one]
    omega

theorem toNat_decayed (policy : UnlockThrottlePolicy) (now : Instant) (l : UnlockRateLimiter) :
    (l.decayed policy now).toNat =
      if l.streak.Quiet policy.quietPeriod now then l.streak.failures / 2
      else l.streak.failures := by
  cases hlast : l.lastFailure with
  | none => simp [decayed, Streak.Quiet, streak, hlast]
  | some last =>
      by_cases hquiet : policy.quietPeriod ≤ now - last
      · simp [decayed, Streak.Quiet, streak, hlast, hquiet, UInt32.toNat_div]
      · simp [decayed, Streak.Quiet, streak, hlast, hquiet]

/-- A failure of the limiter is one of its streak. -/
theorem streak_onFailureDelay (policy : UnlockThrottlePolicy) (now : Instant) (j : Duration)
    (l : UnlockRateLimiter) :
    (l.onFailureDelay policy now j).2.streak = l.streak.afterFailure policy.quietPeriod now := by
  simp only [onFailureDelay, streak, Streak.afterFailure, toNat_saturatingSucc]
  rw [toNat_decayed]
  rfl

end UnlockRateLimiter

/-! ## Delays -/

/-- The schedule at a number of failures, which the counter holds up to its maximum. -/
def scheduleAt (n : Nat) : Duration := passwordDelayForFailures (UInt32.ofNat (min n (2 ^ 32 - 1)))

/-- The schedule in seconds. -/
def scheduleSecs (n : Nat) : Nat :=
  if n ≤ 2 then 0
  else if n ≤ 4 then 1
  else if n ≤ 6 then 5
  else if n ≤ 8 then 10
  else if n ≤ 10 then 15
  else if n ≤ 12 then 30
  else if n ≤ 15 then 60
  else 300

theorem scheduleSecs_of_le {n : Nat} (h : 16 ≤ n) : scheduleSecs n = 300 := by
  unfold scheduleSecs
  repeat rw [if_neg (by omega)]

theorem scheduleSecs_succ (n : Nat) : scheduleSecs n ≤ scheduleSecs (n + 1) := by
  have hsmall : ∀ n < 16, scheduleSecs n ≤ scheduleSecs (n + 1) := by decide
  rcases Nat.lt_or_ge n 16 with hn | hn
  · exact hsmall n hn
  · rw [scheduleSecs_of_le hn, scheduleSecs_of_le (Nat.le_succ_of_le hn)]

theorem scheduleSecs_mono {m n : Nat} (h : m ≤ n) : scheduleSecs m ≤ scheduleSecs n :=
  monotone_nat_of_le_succ scheduleSecs_succ h

theorem scheduleSecs_le (n : Nat) : scheduleSecs n ≤ 300 :=
  calc scheduleSecs n ≤ scheduleSecs (max n 16) := scheduleSecs_mono (Nat.le_max_left n 16)
    _ = 300 := scheduleSecs_of_le (Nat.le_max_right n 16)

theorem passwordDelayForFailures_eq (n : UInt32) :
    passwordDelayForFailures n = Duration.fromSecs (scheduleSecs n.toNat) := by
  simp only [passwordDelayForFailures, scheduleSecs, UInt32.le_iff_toNat_le, UInt32.reduceToNat,
    apply_ite Duration.fromSecs]
  rfl

theorem scheduleAt_eq (n : Nat) :
    scheduleAt n = Duration.fromSecs (scheduleSecs (min n (2 ^ 32 - 1))) := by
  have hlt : min n (2 ^ 32 - 1) < UInt32.size :=
    Nat.lt_of_le_of_lt (Nat.min_le_right n _) (by decide)
  rw [scheduleAt, passwordDelayForFailures_eq, UInt32.toNat_ofNat_of_lt' hlt]

theorem scheduleAt_mono {m n : Nat} (h : m ≤ n) : scheduleAt m ≤ scheduleAt n := by
  rw [scheduleAt_eq, scheduleAt_eq]
  apply Nat.mul_le_mul_right
  apply scheduleSecs_mono
  omega

theorem passwordDelayForFailures_le (n : UInt32) :
    passwordDelayForFailures n ≤ Duration.fromSecs 300 := by
  rw [passwordDelayForFailures_eq]
  exact Nat.mul_le_mul_right _ (scheduleSecs_le _)

/-- The least delay for a failure. -/
def leastDelay (policy : UnlockThrottlePolicy) (n : Nat) : Duration :=
  min (scheduleAt n) policy.maxDelay

theorem leastDelay_mono (policy : UnlockThrottlePolicy) {m n : Nat} (h : m ≤ n) :
    leastDelay policy m ≤ leastDelay policy n :=
  min_le_min_right policy.maxDelay (scheduleAt_mono h)

/-- Beyond the maximum of the counter nothing changes. -/
theorem leastDelay_min (policy : UnlockThrottlePolicy) (n : Nat) :
    leastDelay policy (min n (2 ^ 32 - 1)) = leastDelay policy n := by
  rw [leastDelay, leastDelay, scheduleAt, scheduleAt, Nat.min_assoc, Nat.min_self]

/-- The delay of the schedule at the count of a limiter, capped. -/
def UnlockRateLimiter.cappedDelay (policy : UnlockThrottlePolicy) (l : UnlockRateLimiter) :
    Duration := min (passwordDelayForFailures l.failures) policy.maxDelay

theorem UnlockRateLimiter.cappedDelay_le (policy : UnlockThrottlePolicy) (l : UnlockRateLimiter) :
    l.cappedDelay policy ≤ Duration.max :=
  calc l.cappedDelay policy ≤ passwordDelayForFailures l.failures := min_le_left _ _
    _ ≤ Duration.fromSecs 300 := passwordDelayForFailures_le _
    _ ≤ Duration.max := by decide

/-- The delay for a failure lies between the capped one at the new count and that with the largest
jitter, as far as a duration goes. -/
theorem onFailureDelay_bounds (policy : UnlockThrottlePolicy) (now : Instant) {j : Duration}
    (hj : j ≤ policy.jitterMax) (l : UnlockRateLimiter) :
    (l.onFailureDelay policy now j).2.cappedDelay policy ≤ (l.onFailureDelay policy now j).1 ∧
      (l.onFailureDelay policy now j).1 ≤
        min ((l.onFailureDelay policy now j).2.cappedDelay policy + policy.jitterMax)
          Duration.max := by
  have hdelay : (l.onFailureDelay policy now j).1 =
      min ((l.onFailureDelay policy now j).2.cappedDelay policy + j) Duration.max := rfl
  rw [hdelay]
  constructor
  · exact le_min (Nat.le_add_right _ _) (UnlockRateLimiter.cappedDelay_le policy _)
  · exact min_le_min_right _ (Nat.add_le_add_left hj _)

/-- The delay for a failure lies between the least delay at the new count and that with the
largest jitter. -/
theorem delay_bounds (policy : UnlockThrottlePolicy) (now : Instant) {j : Duration}
    (hj : j ≤ policy.jitterMax) (l : UnlockRateLimiter) {n : Nat}
    (hn : (l.streak.afterFailure policy.quietPeriod now).failures = n) :
    leastDelay policy n ≤ (l.onFailureDelay policy now j).1 ∧
      (l.onFailureDelay policy now j).1 ≤ leastDelay policy n + policy.jitterMax := by
  have hcount : (l.onFailureDelay policy now j).2.failures.toNat = n := by
    rw [← hn, ← UnlockRateLimiter.streak_onFailureDelay policy now j l]
    rfl
  have hschedule : passwordDelayForFailures (l.onFailureDelay policy now j).2.failures =
      scheduleAt n := by
    have hlt := (l.onFailureDelay policy now j).2.failures.toNat_lt
    rw [scheduleAt, ← hcount, Nat.min_eq_left (by omega), UInt32.ofNat_toNat]
  have hleast : (l.onFailureDelay policy now j).2.cappedDelay policy = leastDelay policy n :=
    congrArg (min · policy.maxDelay) hschedule
  obtain ⟨hlower, hupper⟩ := onFailureDelay_bounds policy now hj l
  rw [hleast] at hlower hupper
  exact ⟨hlower, hupper.trans (min_le_left _ _)⟩

/-- Each delay of the history is between the least one at its count and that with the largest
jitter. -/
def Proportionate (policy : UnlockThrottlePolicy) (history : List LimiterAction) : Prop :=
  ∀ before now delay after, history = before ++ .failure now (some delay) :: after →
    leastDelay policy ((Streak.ofHistory policy.quietPeriod before).afterFailure
        policy.quietPeriod now).failures ≤ delay ∧
    delay ≤ leastDelay policy ((Streak.ofHistory policy.quietPeriod before).afterFailure
        policy.quietPeriod now).failures + policy.jitterMax

theorem Proportionate.append_singleton {policy : UnlockThrottlePolicy}
    {history : List LimiterAction} {action : LimiterAction} (h : Proportionate policy history)
    (haction : ∀ now delay, action = .failure now (some delay) →
      leastDelay policy
          ((Streak.ofHistory policy.quietPeriod history).afterFailure policy.quietPeriod
            now).failures ≤ delay ∧
      delay ≤ leastDelay policy
          ((Streak.ofHistory policy.quietPeriod history).afterFailure policy.quietPeriod
            now).failures + policy.jitterMax) :
    Proportionate policy (history ++ [action]) := by
  intro before now delay after hsplit
  induction after using List.reverseRecOn with
  | nil =>
      obtain ⟨rfl, hlast⟩ := List.append_inj' hsplit rfl
      exact haction now delay (List.singleton_inj.mp hlast)
  | append_singleton after last _ =>
      rw [← List.cons_append, ← List.append_assoc] at hsplit
      obtain ⟨hfront, -⟩ := List.append_inj' hsplit rfl
      exact h before now delay after hfront

/-! ## Unbroken streaks -/

/-- The second failure comes within the quiet period of the first one. -/
def NoQuietGap (quietPeriod : Duration) : LimiterAction → LimiterAction → Prop
  | .failure now _, .failure now' _ => now' - now < quietPeriod
  | _, _ => False

/-- Failures without a quiet gap between them. -/
structure Unbroken (quietPeriod : Duration) (steps : List LimiterAction) : Prop where
  failure : ∀ action ∈ steps, ∃ now delay, action = .failure now delay
  noQuietGap : steps.IsChain (NoQuietGap quietPeriod)

/-- The history begins, or ends with a reset. -/
def Fresh (steps : List LimiterAction) : Prop :=
  steps = [] ∨ ∃ before, steps = before ++ [.reset]

theorem ofHistory_of_fresh {quietPeriod : Duration} {steps : List LimiterAction}
    (h : Fresh steps) : Streak.ofHistory quietPeriod steps = .empty := by
  rcases h with rfl | ⟨before, rfl⟩
  · rfl
  · rw [Streak.ofHistory_append_singleton]
    rfl

/-- After a fresh start, an unbroken streak counts its failures. -/
theorem failures_of_unbroken {quietPeriod : Duration} {start steps : List LimiterAction}
    (hstart : Fresh start) (hsteps : Unbroken quietPeriod steps) :
    (Streak.ofHistory quietPeriod (start ++ steps)).failures = min steps.length (2 ^ 32 - 1) := by
  induction steps using List.reverseRecOn with
  | nil =>
      rw [List.append_nil, ofHistory_of_fresh hstart]
      rfl
  | append_singleton steps action ih =>
      have hchain := List.isChain_append.mp hsteps.noQuietGap
      have hcount := ih
        { failure := fun a ha => hsteps.failure a (List.mem_append_left _ ha)
          noQuietGap := hchain.1 }
      obtain ⟨now, delay, rfl⟩ := hsteps.failure action (by simp)
      have hquiet : ¬ (Streak.ofHistory quietPeriod (start ++ steps)).Quiet quietPeriod now := by
        rintro ⟨last, hlast, hlong⟩
        induction steps using List.reverseRecOn with
        | nil =>
            rw [List.append_nil, ofHistory_of_fresh hstart] at hlast
            cases hlast
        | append_singleton steps' previous _ =>
            obtain ⟨now', delay', rfl⟩ := hsteps.failure previous (by simp)
            rw [← List.append_assoc, Streak.ofHistory_append_singleton] at hlast
            cases hlast
            have hgap : NoQuietGap quietPeriod (.failure last delay') (.failure now delay) :=
              hchain.2.2 _ (by simp) _ (by simp)
            exact absurd hlong (Nat.not_le.mpr hgap)
      rw [← List.append_assoc, Streak.ofHistory_append_singleton]
      simp only [Streak.after, Streak.afterFailure, if_neg hquiet, hcount, List.length_append,
        List.length_singleton]
      omega

end ViperVault
