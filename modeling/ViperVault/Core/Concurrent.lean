import ViperVault.Core.AuthGate
import ViperVault.Core.Entries
import ViperVault.Foundation.Runs

/-!
# The lock manager under concurrent calls

One `VaultLockManager` with any number of calls in progress and any number of timer tasks.
A call is a program counter; each of its steps is what the source does between two points
where another task can run: one critical section, or one access to an atomic or to a plain
mutex. A run is any list of events, so it covers every interleaving.

Tasks and notify handles are numbered. The generation counter is a natural number: it does
not wrap in a run of fewer than `2 ^ 64` calls. An aborted task may still take steps, as the
source warns, but it is not counted as live. The clock has a last instant, and a task that
computes a deadline behind it panics.
-/

namespace ViperVault

open Foundation

/-- What the manager runs on: the JSON library at payloads, `totp_generate_formatted`, and the
last instant of the clock that an `Instant` can represent. -/
structure Env where
  serde : Serde VaultPayloadDto
  totpGenerateFormatted : TotpSecret → UInt64 → Option Text
  lastInstant : Nat

/-! ## Timer tasks -/

/-- Where a timer task stands. -/
inductive TimerPhase
  /-- spawned, not polled yet -/
  | spawned
  /-- in `select!` -/
  | sleeping
  /-- the deadline branch was taken; the state mutex is next -/
  | expired
  | finished
  /-- `Instant::now() + timeout` cannot be represented -/
  | panicked
  deriving DecidableEq

/-- The task that `restart_auto_lock` spawns, with what it captured. -/
structure TimerTask where
  generation : Nat
  cycleNotify : Nat
  timeout : Nat
  deadline : Nat
  phase : TimerPhase
  aborted : Bool
  deriving DecidableEq

/-- The task has not ended and is not aborted. -/
def TimerTask.Live (t : TimerTask) : Prop :=
  t.phase ≠ .finished ∧ t.phase ≠ .panicked ∧ t.aborted = false

instance (t : TimerTask) : Decidable t.Live := inferInstanceAs (Decidable (_ ∧ _))

/-- A deadline that the task computes now can be represented. -/
def TimerTask.Fits (last now : Nat) (t : TimerTask) : Prop := now + t.timeout ≤ last

instance (last now : Nat) (t : TimerTask) : Decidable (t.Fits last now) :=
  inferInstanceAs (Decidable (_ ≤ _))

/-- A step of a timer task. -/
inductive TimerAction
  | start
  | expire
  | lockState
  | notified
  deriving DecidableEq

/-! ## The shared state -/

/-- What the calls and the tasks share: the fields of the manager, the spawned tasks, the
notify handles that hold a permit, and the clock. `writer` is the generation of the unlock
call that wrote the state last; nothing reads it. -/
structure Shared where
  state : VaultState
  notify : Nat
  autoLockTask : Option Nat
  generation : Nat
  tasks : List TimerTask
  handles : Nat
  permits : List Nat
  now : Nat
  writer : Nat

namespace Shared

/-- `VaultLockManager::new`. -/
def new : Shared where
  state := .locked
  notify := 0
  autoLockTask := none
  generation := 1
  tasks := []
  handles := 1
  permits := []
  now := 0
  writer := 0

/-- Change one task. -/
def modifyTask (sh : Shared) (t : Nat) (f : TimerTask → TimerTask) : Shared :=
  { sh with tasks := sh.tasks.modify t f }

/-- `cancel_auto_lock`. -/
def cancelAutoLock (sh : Shared) : Shared :=
  match sh.autoLockTask with
  | none => sh
  | some t =>
      { sh.modifyTask t fun task => { task with aborted := true } with autoLockTask := none }

/-- A step of the task `t`, which is `task`, with a clock up to `last`. -/
def timerStep (last : Nat) (sh : Shared) (t : Nat) (task : TimerTask) :
    TimerAction → Option Shared
  | .start =>
      if task.phase = .spawned then
        if task.Fits last sh.now then
          some (sh.modifyTask t fun task =>
            { task with phase := .sleeping, deadline := sh.now + task.timeout })
        else some (sh.modifyTask t fun task => { task with phase := .panicked })
      else none
  | .expire =>
      if task.phase = .sleeping ∧ task.deadline ≤ sh.now then
        some (sh.modifyTask t fun task => { task with phase := .expired })
      else none
  | .lockState =>
      if task.phase = .expired then
        let sh' := sh.modifyTask t fun task => { task with phase := .finished }
        if sh.generation = task.generation then some { sh' with state := .locked } else some sh'
      else none
  | .notified =>
      if task.phase = .sleeping ∧ task.cycleNotify ∈ sh.permits then
        let sh' := { sh with permits := sh.permits.erase task.cycleNotify }
        if sh.generation ≠ task.generation then
          some (sh'.modifyTask t fun task => { task with phase := .finished })
        else if task.Fits last sh.now then
          some (sh'.modifyTask t fun task => { task with deadline := sh.now + task.timeout })
        else some (sh'.modifyTask t fun task => { task with phase := .panicked })
      else none

end Shared

/-! ## Calls -/

/-- The arguments of `unlock_with_plaintext_json_with_context`. The other two entry points
call it with `Strong` or `Primary` and the answer of the live probe. -/
structure UnlockRequest where
  plaintextJson : Bytes
  timeout : Nat
  authStrength : AuthenticationStrength
  unlockOutcome : UnlockOutcome
  runtimeState : RuntimeInspectionState

/-- `unlock_with_plaintext_json`, where the probe answered `probe`. -/
def UnlockRequest.compatibility (plaintextJson : Bytes) (timeout : Nat)
    (probe : RuntimeInspectionState) : UnlockRequest where
  plaintextJson := plaintextJson
  timeout := timeout
  authStrength := .strong
  unlockOutcome := .primary
  runtimeState := probe

/-- Where an unlock call stands. From `drawn` on it carries its generation. -/
inductive UnlockPc
  | start
  | drawn (generation : Nat)
  | written (generation : Nat)
  | cancelled (generation : Nat)
  | rotated (generation cycleNotify : Nat)
  | spawned (generation task : Nat)
  | returned (generation : Nat)
  deriving DecidableEq

/-- Where a lock call stands. -/
inductive LockPc
  | start
  | drawn (generation : Nat)
  | written (generation : Nat)
  | returned (generation : Nat)
  deriving DecidableEq

/-- The calls that hand out an entry, or a part of it. A copy carries the timeout of the
clipboard. -/
inductive DisclosureKind
  | getEntryForOperation
  | revealEntrySecret
  | copyEntrySecret (timeout : Duration)
  | copyEntryTotp (unixTimeSecs : UInt64) (timeout : Option Duration)

/-- The arguments of a disclosure call. -/
structure DisclosureRequest where
  kind : DisclosureKind
  entryId : Uuid
  operation : SensitiveOperation

/-- `reveal_entry_secret`. -/
def DisclosureRequest.revealEntrySecret (entryId : Uuid) : DisclosureRequest where
  kind := .revealEntrySecret
  entryId := entryId
  operation := .revealSecret

/-- `copy_entry_secret`. -/
def DisclosureRequest.copyEntrySecret (entryId : Uuid) (timeout : Duration) :
    DisclosureRequest where
  kind := .copyEntrySecret timeout
  entryId := entryId
  operation := .copySecret

/-- `copy_entry_totp`. -/
def DisclosureRequest.copyEntryTotp (entryId : Uuid) (unixTimeSecs : UInt64)
    (timeout : Option Duration) : DisclosureRequest where
  kind := .copyEntryTotp unixTimeSecs timeout
  entryId := entryId
  operation := .copyTotp

/-- What a disclosure call answers on success; a copy answers nothing and hands its value to
the clipboard guard. -/
inductive Disclosed
  | view (view : EntryView)
  | secret (secret : SecretString)
  | clipboard (content : SecretString)

/-- Where a disclosure call stands. `readFrom` is the state the entry was read from; nothing
reads it. -/
inductive DisclosePc
  | start
  | policyChecked
  | authorized
  | returned (answer : Except EntryError Disclosed) (readFrom : VaultState)

/-- A call that changes the session in one critical section. -/
inductive SessionUpdate
  | markStrongReauthRequired
  | clearStrongReauthRequirement
  | setRuntimePolicyState (runtimeState : RuntimeInspectionState)
  | refreshRuntimePolicyState (probe : RuntimeInspectionState)
  | store (call : StoreCall)

/-- The session after the critical section. -/
def SessionUpdate.apply (env : Env) : SessionUpdate → VaultState → VaultState
  | .markStrongReauthRequired, st => st.markStrongReauthRequired.2
  | .clearStrongReauthRequirement, st => st.clearStrongReauthRequirement.2
  | .setRuntimePolicyState runtimeState, st => st.setRuntimePolicyState runtimeState
  | .refreshRuntimePolicyState probe, st => st.setRuntimePolicyState probe
  | .store call, st => (call.run env.serde st).2

/-- A store call replaces the buffer of a session, and nothing else of it. -/
theorem SessionUpdate.exists_apply_store_unlocked (env : Env) (call : StoreCall) (s : Session) :
    ∃ json, (SessionUpdate.store call).apply env (.unlocked s) =
      .unlocked { s with plaintextJson := json } :=
  exists_withUnlockedPayloadMut_unlocked _ s

/-- A call in progress, or returned. -/
inductive Call
  | unlock (request : UnlockRequest) (pc : UnlockPc)
  | lock (pc : LockPc)
  | notifyActivity (cloned : Option Nat) (returned : Bool)
  | disclose (request : DisclosureRequest) (pc : DisclosePc)
  | update (op : SessionUpdate) (returned : Bool)
  /-- a call that found nothing to do -/
  | skip

/-- The calls a client can make. -/
inductive Request
  | unlock (request : UnlockRequest)
  | lock
  | notifyActivity
  | handleRuntimeSecurityEvent (ev : RuntimeSecurityEvent)
  | disclose (request : DisclosureRequest)
  | update (op : SessionUpdate)

/-- The call as it is invoked. `handle_runtime_security_event` becomes the call it makes. -/
def Request.start : Request → Call
  | .unlock request => .unlock request .start
  | .lock => .lock .start
  | .notifyActivity => .notifyActivity none false
  | .handleRuntimeSecurityEvent ev =>
      if ev.forcesLock then .lock .start
      else if ev.requiresStrongReauth then .update .markStrongReauthRequired false
      else .skip
  | .disclose request => .disclose request .start
  | .update op => .update op false

/-- `reveal_entry_secret_for_operation` after the entry was read. -/
def revealSecret (entry : EntryView) : Except EntryError SecretString :=
  if entry.secret.exposeSecret.isEmpty then .error .invalidType else .ok entry.secret

/-- The last part of a disclosure call: `get_entry` in one critical section, and what the call
makes of the entry. -/
def DisclosureRequest.read (env : Env) (request : DisclosureRequest) (st : VaultState) :
    Except EntryError Disclosed := do
  let entry ← getEntry env.serde request.entryId st
  match request.kind with
  | .getEntryForOperation => return .view entry
  | .revealEntrySecret => return .secret (← revealSecret entry)
  | .copyEntrySecret _ => return .clipboard (← revealSecret entry)
  | .copyEntryTotp unixTimeSecs _ =>
      match entry.totp with
      | none => throw .invalidType
      | some totp =>
          match env.totpGenerateFormatted totp unixTimeSecs with
          | none => throw .invalidData
          | some code => return .clipboard ⟨code⟩

section Secrets

variable {env : Env} {st : VaultState} {id : Uuid} {entry : VaultEntry}

theorem revealSecret_toView (hne : entry.secret.secret.exposeSecret ≠ []) :
    revealSecret entry.toView = .ok entry.secret.secret := by
  have hview : entry.toView.secret = entry.secret.secret := rfl
  rw [revealSecret, hview, if_neg (by simpa using hne)]

/-- What is revealed of an entry whose secret is not empty. -/
theorem read_revealEntrySecret (hget : getEntry env.serde id st = .ok entry.toView)
    (hne : entry.secret.secret.exposeSecret ≠ []) :
    (DisclosureRequest.revealEntrySecret id).read env st = .ok (.secret entry.secret.secret) := by
  simp only [DisclosureRequest.read, DisclosureRequest.revealEntrySecret, hget,
    revealSecret_toView hne, ok_bind]
  rfl

/-- What is copied of an entry whose secret is not empty. -/
theorem read_copyEntrySecret (timeout : Duration)
    (hget : getEntry env.serde id st = .ok entry.toView)
    (hne : entry.secret.secret.exposeSecret ≠ []) :
    (DisclosureRequest.copyEntrySecret id timeout).read env st =
      .ok (.clipboard entry.secret.secret) := by
  simp only [DisclosureRequest.read, DisclosureRequest.copyEntrySecret, hget,
    revealSecret_toView hne, ok_bind]
  rfl

end Secrets

/-- The next step of an unlock call. -/
def UnlockRequest.advance (request : UnlockRequest) (sh : Shared) :
    UnlockPc → Option (UnlockPc × Shared)
  | .start => some (.drawn (sh.generation + 1), { sh with generation := sh.generation + 1 })
  | .drawn g =>
      some (.written g,
        { sh with
          state := .unlockWithPlaintextJsonWithContext request.plaintextJson request.authStrength
            request.unlockOutcome request.runtimeState
          writer := g })
  | .written g => some (.cancelled g, sh.cancelAutoLock)
  | .cancelled g =>
      some (.rotated g sh.handles, { sh with notify := sh.handles, handles := sh.handles + 1 })
  | .rotated g cycleNotify =>
      some (.spawned g sh.tasks.length,
        { sh with
          tasks := sh.tasks ++
            [{ generation := g, cycleNotify := cycleNotify, timeout := request.timeout
               deadline := 0, phase := .spawned, aborted := false }] })
  | .spawned g t => some (.returned g, { sh with autoLockTask := some t })
  | .returned _ => none

/-- The next step of a lock call. -/
def LockPc.advance (sh : Shared) : LockPc → Option (LockPc × Shared)
  | .start => some (.drawn (sh.generation + 1), { sh with generation := sh.generation + 1 })
  | .drawn g => some (.written g, { sh with state := .locked })
  | .written g => some (.returned g, sh.cancelAutoLock)
  | .returned _ => none

/-- The next step of a disclosure call, which leaves the shared state alone. The first two
steps are those of `authorize_sensitive_operation`. -/
def DisclosureRequest.advance (env : Env) (request : DisclosureRequest) (st : VaultState) :
    DisclosePc → Option DisclosePc
  | .start =>
      match st.currentPolicyContext with
      | none => some (.returned (.error .vaultLocked) st)
      | some policy =>
          if policy.allowSensitiveOperation request.operation then some .policyChecked
          else some (.returned (.error .policyDenied) st)
  | .policyChecked =>
      match st.requiresStrongReauthFor request.operation with
      | none => some (.returned (.error .vaultLocked) st)
      | some true => some (.returned (.error .reauthRequired) st)
      | some false => some .authorized
  | .authorized => some (.returned (request.read env st) st)
  | .returned _ _ => none

/-- The next step of a call. -/
def Call.advance (env : Env) (sh : Shared) : Call → Option (Call × Shared)
  | .unlock request pc => (request.advance sh pc).map fun r => (.unlock request r.1, r.2)
  | .lock pc => (pc.advance sh).map fun r => (.lock r.1, r.2)
  | .notifyActivity none false => some (.notifyActivity (some sh.notify) false, sh)
  | .notifyActivity (some n) false =>
      -- `notify_one` keeps at most one permit
      some (.notifyActivity (some n) true, { sh with permits := n :: sh.permits.erase n })
  | .notifyActivity _ true => none
  | .disclose request pc =>
      (request.advance env sh.state pc).map fun pc' => (.disclose request pc', sh)
  | .update op false => some (.update op true, { sh with state := op.apply env sh.state })
  | .update _ true => none
  | .skip => none

/-! ## The system -/

/-- The manager with the calls made on it so far. -/
structure World where
  shared : Shared
  calls : List Call

/-- A step of the system. -/
inductive Event
  | invoke (request : Request)
  | advance (i : Nat)
  | timer (t : Nat) (action : TimerAction)
  | tick (d : Nat)

namespace World

/-- A new manager, with no calls. -/
def new : World := ⟨Shared.new, []⟩

/-- One event. -/
def step (env : Env) (w : World) : Event → Option World
  | .invoke request => some { w with calls := w.calls ++ [request.start] }
  | .advance i =>
      (w.calls[i]?).bind fun call =>
        (call.advance env w.shared).map fun r => ⟨r.2, w.calls.set i r.1⟩
  | .timer t action =>
      (w.shared.tasks[t]?).bind fun task =>
        (w.shared.timerStep env.lastInstant t task action).map fun sh => { w with shared := sh }
  | .tick d =>
      if w.shared.now + d ≤ env.lastInstant then
        some { w with shared := { w.shared with now := w.shared.now + d } }
      else none

end World

end ViperVault
