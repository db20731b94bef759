import ViperVault.Core.Unlock

/-!
# The authentication gate

`core/rate_limit.rs`, `core/auth_gate.rs` and the gated functions of `core/unlock.rs`, as one
call does them from its start to its end. The instant at which a failure is registered and the
jitter that is drawn for it are arguments.
-/

namespace ViperVault

open Foundation

/-- `Duration`, in nanoseconds. -/
abbrev Duration : Type := Nat

/-- `Instant`, in nanoseconds. -/
abbrev Instant : Type := Nat

/-- A number of whole seconds. -/
def Duration.fromSecs (secs : Nat) : Duration := secs * 1000000000

/-- `Duration::MAX`. -/
def Duration.max : Duration := (2 ^ 64 - 1) * 1000000000 + 999999999

/-- `UnlockThrottlePolicy`. -/
structure UnlockThrottlePolicy where
  quietPeriod : Duration
  maxDelay : Duration
  jitterMax : Duration

/-- `UnlockThrottlePolicy::default`. -/
def UnlockThrottlePolicy.default : UnlockThrottlePolicy where
  quietPeriod := Duration.fromSecs 600
  maxDelay := Duration.fromSecs 60
  jitterMax := Duration.fromSecs 1

/-- `UnlockRateLimiter`. -/
structure UnlockRateLimiter where
  failures : UInt32
  lastFailure : Option Instant
  deriving DecidableEq

/-- `password_delay_for_failures`. -/
def passwordDelayForFailures (failures : UInt32) : Duration :=
  if failures ≤ 2 then 0
  else if failures ≤ 4 then Duration.fromSecs 1
  else if failures ≤ 6 then Duration.fromSecs 5
  else if failures ≤ 8 then Duration.fromSecs 10
  else if failures ≤ 10 then Duration.fromSecs 15
  else if failures ≤ 12 then Duration.fromSecs 30
  else if failures ≤ 15 then Duration.fromSecs 60
  else Duration.fromSecs 300

/-- `u32::saturating_add(1)`. -/
def saturatingSucc (n : UInt32) : UInt32 := if n = 0xFFFFFFFF then n else n + 1

namespace UnlockRateLimiter

/-- `UnlockRateLimiter::default`, and the state after `on_success`. -/
def onSuccess : UnlockRateLimiter := { failures := 0, lastFailure := none }

/-- The failure count after the decay of a quiet period. -/
def decayed (policy : UnlockThrottlePolicy) (now : Instant) (l : UnlockRateLimiter) : UInt32 :=
  match l.lastFailure with
  | none => l.failures
  | some last => if policy.quietPeriod ≤ now - last then l.failures / 2 else l.failures

/-- `on_failure_delay`. -/
def onFailureDelay (policy : UnlockThrottlePolicy) (now : Instant) (jitter : Duration)
    (l : UnlockRateLimiter) : Duration × UnlockRateLimiter :=
  let failures := saturatingSucc (l.decayed policy now)
  (min (min (passwordDelayForFailures failures) policy.maxDelay + jitter) Duration.max,
    { failures := failures, lastFailure := some now })

end UnlockRateLimiter

/-- What a gated call answers, the limiter that it leaves and the delay that it served. -/
structure Gated (ε α : Type) where
  result : Except ε α
  limiter : UnlockRateLimiter
  delay : Duration

/-- The instant and the jitter that a call meets at its gate. -/
structure GateClock where
  now : Instant
  jitter : Duration

/-- `AuthGate::run` on the result of its operation. -/
def AuthGate.run {ε α : Type} (policy : UnlockThrottlePolicy) (clock : GateClock)
    (res : Except ε α) (isAuthFailure : ε → Bool) (shouldResetOnSuccess : α → Bool)
    (limiter : UnlockRateLimiter) : Gated ε α :=
  match res with
  | .ok v =>
      { result := res
        limiter := if shouldResetOnSuccess v then .onSuccess else limiter
        delay := 0 }
  | .error e =>
      if isAuthFailure e then
        let (delay, limiter) := limiter.onFailureDelay policy clock.now clock.jitter
        { result := res, limiter := limiter, delay := delay }
      else { result := res, limiter := limiter, delay := 0 }

section Gated

variable {Key : Type} (lib : Libraries Key)

/-- `unlock_plaintext_json_gated`. -/
def unlockPlaintextJsonGated (policy : UnlockThrottlePolicy) (clock : GateClock)
    (parsed : ParsedVaultFile) (password : MasterPassword) (limiter : UnlockRateLimiter) :
    Gated UnlockError (UnlockOutcome × Bytes) :=
  let gated := AuthGate.run policy clock
    (unlockVaultToPlaintextJsonWithOutcome lib parsed password)
    (fun e => e = .authFailed) (fun _ => false) limiter
  match gated.result with
  | .ok (.primary, _) => { gated with limiter := .onSuccess }
  | _ => gated

/-- `UnlockedVaultSession`. -/
structure UnlockedVaultSession where
  outcome : UnlockOutcome
  payload : VaultPayload
  authStrength : AuthenticationStrength

/-- `UnlockedVaultSession::new`. -/
def UnlockedVaultSession.new (outcome : UnlockOutcome) (payload : VaultPayload) :
    UnlockedVaultSession :=
  { outcome := outcome, payload := payload, authStrength := .strong }

/-- `unlock_session_gated`: the payload is read after the gate. -/
def unlockSessionGated (policy : UnlockThrottlePolicy) (clock : GateClock)
    (parsed : ParsedVaultFile) (password : MasterPassword) (limiter : UnlockRateLimiter) :
    Gated UnlockError UnlockedVaultSession :=
  let gated := unlockPlaintextJsonGated lib policy clock parsed password limiter
  { result := do
      let (outcome, plaintextJson) ← gated.result
      let payload ← okOr (lib.payloadFromSlice plaintextJson) .payloadDecode
      return .new outcome payload
    limiter := gated.limiter
    delay := gated.delay }

/-- The gate does not change what the unlock answers. -/
theorem result_unlockPlaintextJsonGated (policy : UnlockThrottlePolicy) (clock : GateClock)
    (parsed : ParsedVaultFile) (password : MasterPassword) (limiter : UnlockRateLimiter) :
    (unlockPlaintextJsonGated lib policy clock parsed password limiter).result =
      unlockVaultToPlaintextJsonWithOutcome lib parsed password := by
  unfold unlockPlaintextJsonGated AuthGate.run
  cases h : unlockVaultToPlaintextJsonWithOutcome lib parsed password with
  | error e => by_cases he : e = .authFailed <;> simp [he]
  | ok opened =>
      obtain ⟨outcome, json⟩ := opened
      cases outcome with
      | primary => rfl
      | decoy => rfl

end Gated

end ViperVault
