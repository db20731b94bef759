import ViperVault.Core.Backoff
import ViperVault.Foundation.Journal
import ViperVault.Foundation.Runs
import ViperVault.Import.Signed

/-!
# Attempts on one gate

Any number of calls of the gated functions on one `AuthGate`, one step at a time: the password
check, the accounting under the mutex of the limiter, the sleep and the reset are steps of their
own, between which the other attempts take theirs. A call that its caller drops takes no further
step, so it counts as in progress for ever. A journal holds what was done to the limiter, in the
order of its mutex. Nothing reads the journal.
-/

namespace ViperVault

open Foundation

/-- The calls that check a password behind the gate. The signed import does so after it has
verified the signature of the backup. -/
inductive GateRequest
  | plaintextJson (parsed : ParsedVaultFile) (password : MasterPassword)
  | session (parsed : ParsedVaultFile) (password : MasterPassword)
  | importSigned (decoderProbe : RuntimeInspectionState) (policy : PolicyContext)
      (password : MasterPassword) (signedBackupBytes : Bytes)

/-- The answers of these calls. -/
inductive GateAnswer
  | plaintextJson (result : Except UnlockError (UnlockOutcome × Bytes))
  | session (result : Except UnlockError (UnlockOutcome × VaultPayload))
  | imported (result : Except ImportError Unit)

/-- The answer is an authentication failure. -/
def GateAnswer.IsAuthFailure : GateAnswer → Prop
  | .plaintextJson result => result = .error .authFailed
  | .session result => result = .error .authFailed
  | .imported result => result = .error .authFailed

/-- Where an attempt stands. -/
inductive AttemptPc
  | start
  /-- the container is there; the password check is next -/
  | admitted (parsed : ParsedVaultFile)
  /-- the password was checked; the limiter is next -/
  | evaluated (res : Except UnlockError (UnlockOutcome × Bytes))
  | sleeping (res : Except UnlockError (UnlockOutcome × Bytes)) (deadline : Instant)
  /-- `AuthGate::run` has returned -/
  | passed (res : Except UnlockError (UnlockOutcome × Bytes))
  /-- the computation of the jitter stopped the program -/
  | panicked
  | returned (answer : GateAnswer)

/-- A call in progress, or returned. -/
structure Attempt where
  request : GateRequest
  pc : AttemptPc

section Attempts

variable {Key : Type} (lib : Libraries Key) (backupLib : BackupLibraries Key)
  (policy : UnlockThrottlePolicy)

namespace GateRequest

def password : GateRequest → MasterPassword
  | .plaintextJson _ password => password
  | .session _ password => password
  | .importSigned _ _ password _ => password

/-- The container whose password is checked behind the gate. -/
def container : GateRequest → Except ImportError ParsedVaultFile
  | .plaintextJson parsed _ => .ok parsed
  | .session parsed _ => .ok parsed
  | .importSigned decoderProbe context password signedBackupBytes => do
      failIf (context.allowSignedBackupTransfer = false) .policyDenied
      importVipervaultFromSignedBackup lib backupLib decoderProbe context password
        signedBackupBytes

/-- The result of the password check, where there is one. -/
def outcome (request : GateRequest) : Option (Except UnlockError (UnlockOutcome × Bytes)) :=
  match request.container lib backupLib with
  | .error _ => none
  | .ok parsed => some (unlockVaultToPlaintextJsonWithOutcome lib parsed request.password)

/-- What the call makes of the result of the check. -/
def answer (request : GateRequest) (res : Except UnlockError (UnlockOutcome × Bytes)) :
    GateAnswer :=
  match request with
  | .plaintextJson _ _ => .plaintextJson res
  | .session _ _ => .session do
      let (outcome, json) ← res
      let payload ← okOr (lib.payloadFromSlice json) .payloadDecode
      return (outcome, payload)
  | .importSigned _ _ _ _ => .imported do
      let _ ← res.mapError fun _ => .authFailed
      return ()

end GateRequest

/-- The next step of an attempt, with what it does to the limiter. -/
def Attempt.advance (a : Attempt) (limiter : UnlockRateLimiter) (now : Instant) (draw : UInt64) :
    Option (AttemptPc × UnlockRateLimiter × List LimiterAction) :=
  match a.pc with
  | .start =>
      match a.request.container lib backupLib with
      | .error e => some (.returned (.imported (.error e)), limiter, [])
      | .ok parsed => some (.admitted parsed, limiter, [])
  | .admitted parsed =>
      some (.evaluated (unlockVaultToPlaintextJsonWithOutcome lib parsed a.request.password),
        limiter, [])
  | .evaluated (.error .authFailed) =>
      match jitter policy.jitterMax draw with
      | none =>
          some (.panicked, (limiter.onFailureDelay policy now 0).2, [.failure now none])
      | some j =>
          let (delay, limiter') := limiter.onFailureDelay policy now j
          let pc : AttemptPc := if delay = 0 then .passed (.error .authFailed)
            else .sleeping (.error .authFailed) (now + delay)
          some (pc, limiter', [.failure now (some delay)])
  | .evaluated res => some (.passed res, limiter, [])
  | .sleeping res deadline => if deadline ≤ now then some (.passed res, limiter, []) else none
  | .passed (.ok (.primary, json)) =>
      some (.returned (a.request.answer lib (.ok (.primary, json))), .onSuccess, [.reset])
  | .passed res => some (.returned (a.request.answer lib res), limiter, [])
  | .panicked => none
  | .returned _ => none

end Attempts

/-- A step of the system. The number that is drawn is used where a jitter is computed. -/
inductive GateEvent
  | invoke (request : GateRequest)
  | advance (i : Nat) (draw : UInt64)
  | tick (d : Duration)

/-- The gate, the clock, and the attempts made so far. -/
structure GateWorld where
  limiter : UnlockRateLimiter
  now : Instant
  attempts : List Attempt
  journal : List (Nat × LimiterAction)

namespace GateWorld

/-- `AuthGate::new`, with no attempts. -/
def new : GateWorld := ⟨.onSuccess, 0, [], []⟩

section Steps

variable {Key : Type} (lib : Libraries Key) (backupLib : BackupLibraries Key)
  (policy : UnlockThrottlePolicy)

/-- One event. -/
def step (w : GateWorld) : GateEvent → Option GateWorld
  | .invoke request => some { w with attempts := w.attempts ++ [⟨request, .start⟩] }
  | .advance i draw =>
      (w.attempts[i]?).bind fun a =>
        (a.advance lib backupLib policy w.limiter w.now draw).map fun r =>
          { w with
            limiter := r.2.1
            attempts := w.attempts.set i { a with pc := r.1 }
            journal := w.journal ++ signed i r.2.2 }
  | .tick d => some { w with now := w.now + d }

end Steps

end GateWorld

end ViperVault
