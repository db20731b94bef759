import ViperVault.Core.Backoff
import ViperVault.Foundation.Runs

/-!
# Runs of the limiter

The limiter under any calls, where each failure comes with a policy of its own. What the policy
says is not checked, so the sum in `jitter` can leave the machine words; a run is answered within
its bounds exactly if no policy in it lets that happen.
-/

namespace ViperVault

open Foundation

/-- A call of the limiter. A failure comes with the instant at which it is registered and the
number that is drawn for its jitter. -/
inductive LimiterCall
  | onSuccess
  | onFailureDelay (policy : UnlockThrottlePolicy) (now : Instant) (draw : UInt64)

namespace UnlockRateLimiter

/-- `on_failure_delay`, on the number that is drawn. The failure is counted before the jitter is
computed, also where that stops the program. -/
def onFailureDelayDrawing (policy : UnlockThrottlePolicy) (now : Instant) (draw : UInt64)
    (l : UnlockRateLimiter) : Option Duration × UnlockRateLimiter :=
  match jitter policy.jitterMax draw with
  | none => (none, (l.onFailureDelay policy now 0).2)
  | some j => (some (l.onFailureDelay policy now j).1, (l.onFailureDelay policy now j).2)

/-- The limiter after a call. -/
def afterCall (l : UnlockRateLimiter) : LimiterCall → Option UnlockRateLimiter
  | .onSuccess => some onSuccess
  | .onFailureDelay policy now draw => some (l.onFailureDelayDrawing policy now draw).2

/-- The call is answered. The delay of a failure lies between the capped one at the new count and
that with the largest jitter, as far as a duration goes. -/
def AnswersWithin (l : UnlockRateLimiter) : LimiterCall → Prop
  | .onSuccess => True
  | .onFailureDelay policy now draw => ∃ delay l',
      l.onFailureDelayDrawing policy now draw = (some delay, l') ∧
        l'.cappedDelay policy ≤ delay ∧
        delay ≤ min (l'.cappedDelay policy + policy.jitterMax) Duration.max

end UnlockRateLimiter

/-- The milliseconds, narrowed to a machine word, are not the largest one. -/
def JitterFits (max : Duration) : Prop := max / 1000000 % 2 ^ 64 ≠ 2 ^ 64 - 1

/-- The policy of a call leaves room for the sum in its jitter. -/
def LimiterCall.Fits : LimiterCall → Prop
  | .onSuccess => True
  | .onFailureDelay policy _ _ => JitterFits policy.jitterMax

namespace UnlockRateLimiter

theorem exists_afterCall (l : UnlockRateLimiter) (call : LimiterCall) :
    ∃ l', l.afterCall call = some l' := by
  cases call with
  | onSuccess => exact ⟨_, rfl⟩
  | onFailureDelay policy now draw => exact ⟨_, rfl⟩

/-- Whatever the limiter has counted, a call is answered exactly if its policy leaves room. -/
theorem answersWithin_iff (l : UnlockRateLimiter) (call : LimiterCall) :
    l.AnswersWithin call ↔ call.Fits := by
  cases call with
  | onSuccess => exact Iff.rfl
  | onFailureDelay policy now draw =>
      rw [LimiterCall.Fits, JitterFits, ne_eq, ← jitter_eq_none_iff policy.jitterMax draw]
      simp only [AnswersWithin, onFailureDelayDrawing]
      cases hjitter : jitter policy.jitterMax draw with
      | none => simp
      | some j =>
          have hbounds := onFailureDelay_bounds policy now (jitter_le hjitter) l
          exact iff_of_true ⟨_, _, rfl, hbounds⟩ (Option.some_ne_none j)

/-- In a run from the new limiter every call is answered within its bounds exactly if every policy
in it leaves room for its jitter. -/
theorem answersWithin_of_run_iff (calls : List LimiterCall) :
    EveryStep afterCall AnswersWithin onSuccess calls ↔ ∀ call ∈ calls, call.Fits := by
  rw [everyStep_congr answersWithin_iff]
  exact everyStep_iff_forall_mem (exists_exec exists_afterCall onSuccess calls)

/-- The default policy with the longest jitter. -/
def longestJitter : UnlockThrottlePolicy :=
  { UnlockThrottlePolicy.default with jitterMax := Duration.max }

/-- The first failure under the longest jitter stops the program, whatever is drawn. -/
theorem longestJitter_stops :
    (∀ draw, (onSuccess.onFailureDelayDrawing longestJitter 0 draw).1 = none) ∧
      ¬ EveryStep afterCall AnswersWithin onSuccess [.onFailureDelay longestJitter 0 0] := by
  have hstops : ∀ draw, jitter longestJitter.jitterMax draw = none := fun draw =>
    (jitter_eq_none_iff _ draw).mpr (by decide)
  constructor
  · intro draw
    rw [onFailureDelayDrawing, hstops draw]
  · rintro ⟨⟨delay, l', hanswer, -⟩, -⟩
    rw [onFailureDelayDrawing, hstops 0] at hanswer
    cases hanswer

end UnlockRateLimiter

end ViperVault
