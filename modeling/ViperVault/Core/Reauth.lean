import ViperVault.Core.Disclosure
import Mathlib.Data.List.Induction

/-!
# Strong re-authentication

A session is guarded by a sticky flag and by the strength with which it was opened. The flag is a
function of the calls since the session was opened or the flag was cleared; the strength stays.
-/

namespace ViperVault

open Foundation

/-- `authorize_sensitive_operation`, where nothing comes between its two critical sections. -/
def VaultState.authorizeSensitiveOperation (operation : SensitiveOperation) (st : VaultState) :
    Except EntryError PolicyContext := do
  let policy ← okOr st.currentPolicyContext .vaultLocked
  failIf (policy.allowSensitiveOperation operation = false) .policyDenied
  match st.requiresStrongReauthFor operation with
  | none => throw .vaultLocked
  | some true => throw .reauthRequired
  | some false => return policy

/-- `strong_reauth_required`. -/
def VaultState.strongReauthRequired : VaultState → Option Bool
  | .unlocked s => some s.strongReauthRequired
  | .locked => none

/-! ## Authorization -/

namespace VaultState

/-- Authorization answers for a session that allows the operation, and with its policy. -/
theorem authorizeSensitiveOperation_eq_ok {operation : SensitiveOperation} {st : VaultState}
    {policy : PolicyContext} :
    st.authorizeSensitiveOperation operation = .ok policy ↔
      ∃ s, st = .unlocked s ∧ policy = ⟨s.unlockOutcome, s.runtimeState⟩ ∧ s.Allows operation := by
  cases st with
  | locked => simp [authorizeSensitiveOperation, currentPolicyContext]
  | unlocked s =>
      simp only [authorizeSensitiveOperation, currentPolicyContext, okOr_some, ok_bind,
        check_bind_eq_ok, failIf_eq_ok, Bool.not_eq_false, unlocked.injEq,
        PolicyContext.allowSensitiveOperation_iff]
      constructor
      · rintro ⟨⟨hprimary, hruntime⟩, h⟩
        split at h
        · cases h
        · cases h
        · rename_i hreauth
          exact ⟨s, rfl, (pure_eq_ok.mp h).symm, hprimary, hruntime, hreauth⟩
      · rintro ⟨_, rfl, rfl, hallows⟩
        refine ⟨⟨hallows.primary, hallows.notDebugged⟩, ?_⟩
        simp only [hallows.noReauth]
        rfl

/-- The two steps with which a disclosure call begins are an authorization. -/
theorem authorizes_iff_advance {env : Env} {request : DisclosureRequest} {st : VaultState} :
    (∃ policy, st.authorizeSensitiveOperation request.operation = .ok policy) ↔
      request.advance env st .start = some .policyChecked ∧
        request.advance env st .policyChecked = some .authorized := by
  cases st with
  | locked => simp [authorizeSensitiveOperation, currentPolicyContext, DisclosureRequest.advance]
  | unlocked s =>
      have hpolicy : request.advance env (.unlocked s) .start = some .policyChecked ↔
          s.unlockOutcome = .primary ∧ s.runtimeState = .notDebugged := by
        rw [← PolicyContext.allowSensitiveOperation_iff ⟨s.unlockOutcome, s.runtimeState⟩
          request.operation]
        simp only [DisclosureRequest.advance, currentPolicyContext]
        split <;> simp_all
      have hreauth : request.advance env (.unlocked s) .policyChecked = some .authorized ↔
          (unlocked s).requiresStrongReauthFor request.operation = some false := by
        simp only [DisclosureRequest.advance]
        split <;> simp_all
      rw [hpolicy, hreauth]
      simp only [authorizeSensitiveOperation_eq_ok, unlocked.injEq]
      constructor
      · rintro ⟨policy, _, rfl, -, hallows⟩
        exact ⟨⟨hallows.primary, hallows.notDebugged⟩, hallows.noReauth⟩
      · rintro ⟨⟨hprimary, hruntime⟩, hnone⟩
        exact ⟨_, s, rfl, rfl, hprimary, hruntime, hnone⟩

end VaultState

/-! ## Sequences of calls -/

/-- The calls of a manager as they take effect, one after the other. -/
inductive ManagerCall
  | unlock (request : UnlockRequest)
  | lock
  /-- the timer task of the present cycle reaches its deadline -/
  | timerLock
  | handleRuntimeSecurityEvent (ev : RuntimeSecurityEvent)
  | update (op : SessionUpdate)
  /-- a call that only reads: the getters, the authorizations and the disclosures -/
  | read

namespace ManagerCall

/-- The state after the call. -/
def apply (env : Env) : ManagerCall → VaultState → VaultState
  | .unlock request, _ =>
      .unlockWithPlaintextJsonWithContext request.plaintextJson request.authStrength
        request.unlockOutcome request.runtimeState
  | .lock, _ => .locked
  | .timerLock, _ => .locked
  | .handleRuntimeSecurityEvent ev, st =>
      if ev.forcesLock then .locked
      else if ev.requiresStrongReauth then st.markStrongReauthRequired.2
      else st
  | .update op, st => op.apply env st
  | .read, st => st

/-- The call raises the flag of a session: an unlock that is not strong or restricted, a
requirement of its own, a move to the background, a restrictive runtime state. -/
def Raises : ManagerCall → Prop
  | .unlock request =>
      request.authStrength.isStrong = false ∨ request.runtimeState.isRestrictive = true
  | .handleRuntimeSecurityEvent ev => ev = .appBackgrounded
  | .update .markStrongReauthRequired => True
  | .update (.setRuntimePolicyState runtimeState) => runtimeState.isRestrictive = true
  | .update (.refreshRuntimePolicyState probe) => probe.isRestrictive = true
  | _ => False

/-- The call opens a session, or it clears the flag. -/
def Restarts : ManagerCall → Prop
  | .unlock _ => True
  | .update .clearStrongReauthRequirement => True
  | _ => False

/-- The call is not an unlock. -/
def KeepsSession : ManagerCall → Prop
  | .unlock _ => False
  | _ => True

/-- Only an unlock opens a locked vault. -/
theorem apply_locked (env : Env) {call : ManagerCall} (h : call.KeepsSession) :
    call.apply env .locked = .locked := by
  cases call with
  | unlock request => exact h.elim
  | handleRuntimeSecurityEvent ev => cases ev <;> rfl
  | update op => cases op <;> rfl
  | _ => rfl

theorem keepsSession_of_not_restarts {call : ManagerCall} (h : ¬ call.Restarts) :
    call.KeepsSession := by
  cases call with
  | unlock request => exact h trivial
  | _ => trivial

/-- The flag of a session after the call. -/
theorem flag_apply {env : Env} {call : ManagerCall} {st : VaultState} {s' : Session}
    (h : call.apply env st = .unlocked s') :
    s'.strongReauthRequired = true ↔
      call.Raises ∨ (¬ call.Restarts ∧ st.strongReauthRequired = some true) := by
  cases call with
  | unlock request =>
      cases h
      simp [Raises, Restarts]
  | lock => cases h
  | timerLock => cases h
  | handleRuntimeSecurityEvent ev =>
      cases st with
      | locked => cases ev <;> cases h
      | unlocked s =>
          cases ev with
          | appBackgrounded =>
              cases h
              simp [Raises]
          | _ => cases h
  | update op =>
      cases st with
      | locked => cases op <;> cases h
      | unlocked s =>
          cases op with
          | store call =>
              obtain ⟨json, hjson⟩ := SessionUpdate.exists_apply_store_unlocked env call s
              have hs' := hjson.symm.trans h
              cases hs'
              simp [Raises, Restarts, VaultState.strongReauthRequired]
          | _ =>
              cases h
              simp [Raises, Restarts, VaultState.strongReauthRequired, or_comm]
  | read =>
      obtain rfl : st = .unlocked s' := h
      simp [Raises, Restarts, VaultState.strongReauthRequired]

end ManagerCall

/-- The calls one after the other, on a state. -/
def runCalls (env : Env) (st : VaultState) (history : List ManagerCall) : VaultState :=
  history.foldl (fun st call => call.apply env st) st

theorem runCalls_append_singleton (env : Env) (st : VaultState) (history : List ManagerCall)
    (call : ManagerCall) :
    runCalls env st (history ++ [call]) = call.apply env (runCalls env st history) := by
  rw [runCalls, List.foldl_append]
  rfl

/-- What every call of a sequence keeps holds after it. -/
theorem runCalls_invariant {env : Env} (inv : VaultState → Prop) {st : VaultState}
    {history : List ManagerCall} (hst : inv st)
    (hstep : ∀ call ∈ history, ∀ st, inv st → inv (call.apply env st)) :
    inv (runCalls env st history) := by
  induction history generalizing st with
  | nil => exact hst
  | cons call history ih =>
      apply ih (hstep call (by simp) st hst)
      intro later hlater
      exact hstep later (by simp [hlater])

/-! ## The sticky flag -/

/-- The flag of a session is raised exactly when a call has raised it since the session was opened
or the flag was cleared. -/
theorem flag_iff_raisedSince (env : Env) (history : List ManagerCall) {s : Session}
    (h : runCalls env .locked history = .unlocked s) :
    s.strongReauthRequired = true ↔
      RaisedSince ManagerCall.Raises ManagerCall.Restarts history := by
  induction history using List.reverseRecOn generalizing s with
  | nil => cases h
  | append_singleton history call ih =>
      rw [runCalls_append_singleton] at h
      rw [ManagerCall.flag_apply h, raisedSince_append_singleton]
      apply or_congr_right
      apply and_congr_right
      intro hkeeps
      cases hst : runCalls env .locked history with
      | locked =>
          rw [hst, ManagerCall.apply_locked env (ManagerCall.keepsSession_of_not_restarts hkeeps)]
            at h
          cases h
      | unlocked s₀ =>
          rw [← ih hst]
          simp [VaultState.strongReauthRequired]

/-- A strong unlock, a debugger, and its end. -/
def debuggedOnce : List ManagerCall :=
  [.unlock World.strongUnlock, .update (.setRuntimePolicyState .debugged),
   .update (.setRuntimePolicyState .notDebugged)]

/-- The flag of a session is raised exactly by a raising call since the later of its unlock and of
the last clearing; a call that is neither of the two never lowers it. Where an operation is
authorized, the session is primary and not debugged, and its flag is down. -/
theorem reauth_is_sticky (env : Env) (history : List ManagerCall) :
    (∀ s, runCalls env .locked history = .unlocked s →
      (s.strongReauthRequired = true ↔
        RaisedSince ManagerCall.Raises ManagerCall.Restarts history)) ∧
    (∀ s call s', runCalls env .locked history = .unlocked s → s.strongReauthRequired = true →
      ¬ call.Restarts → runCalls env .locked (history ++ [call]) = .unlocked s' →
      s'.strongReauthRequired = true) ∧
    ∀ operation policy,
      (runCalls env .locked history).authorizeSensitiveOperation operation = .ok policy →
      ∃ s, runCalls env .locked history = .unlocked s ∧ s.unlockOutcome = .primary ∧
        s.runtimeState = .notDebugged ∧ s.strongReauthRequired = false := by
  refine ⟨fun s => flag_iff_raisedSince env history, ?_, ?_⟩
  · intro s call s' hs hflag hkeeps hs'
    apply (flag_iff_raisedSince env (history ++ [call]) hs').mpr
    apply raisedSince_append_singleton.mpr
    exact Or.inr ⟨hkeeps, (flag_iff_raisedSince env history hs).mp hflag⟩
  · intro operation policy h
    obtain ⟨s, hs, -, hallows⟩ := VaultState.authorizeSensitiveOperation_eq_ok.mp h
    have hflag := (requiresStrongReauthFor_eq_some_false_iff operation s).mp hallows.noReauth
    exact ⟨s, hs, hallows.primary, hallows.notDebugged, hflag.1⟩

/-- The theorem on a session whose target was debugged for a while. -/
theorem reauth_is_sticky_debuggedOnce :
    ∃ s, runCalls World.sampleEnv .locked debuggedOnce = .unlocked s ∧
      s.runtimeState = .notDebugged ∧
      RaisedSince ManagerCall.Raises ManagerCall.Restarts debuggedOnce :=
  ⟨_, rfl, rfl, ((reauth_is_sticky World.sampleEnv debuggedOnce).1 _ rfl).mp rfl⟩

/-! ## Interleavings -/

/-- The call that takes effect on the state in the next step of a call in progress. -/
def Call.effects : Call → List ManagerCall
  | .unlock request (.drawn _) => [.unlock request]
  | .lock (.drawn _) => [.lock]
  | .update op false => [.update op]
  | _ => []

/-- The lock that takes effect in a step of a timer task. -/
def Shared.timerEffects (sh : Shared) (task : TimerTask) : TimerAction → List ManagerCall
  | .lockState => if sh.generation = task.generation then [.timerLock] else []
  | _ => []

namespace World

/-- The call that takes effect on the state in an event. -/
def effects (w : World) : Event → List ManagerCall
  | .advance i => (w.calls[i]?).elim [] Call.effects
  | .timer t action => (w.shared.tasks[t]?).elim [] fun task => w.shared.timerEffects task action
  | _ => []

/-- The calls in the order in which they take effect in a run. -/
def history (env : Env) : World → List Event → List ManagerCall
  | _, [] => []
  | w, ev :: es => w.effects ev ++ (w.step env ev).elim [] fun w' => history env w' es

end World

theorem Call.state_advance {env : Env} {sh sh' : Shared} {call call' : Call}
    (h : call.advance env sh = some (call', sh')) :
    sh'.state = runCalls env sh.state call.effects := by
  cases Call.moves_of_advance h with
  | cancelUnlock request g => exact Shared.cancelAutoLock_state sh
  | cancelLock g => exact Shared.cancelAutoLock_state sh
  | _ => rfl

theorem Shared.state_timerStep {last : Nat} {sh sh' : Shared} (env : Env) {t : Nat}
    {task : TimerTask} {action : TimerAction} (h : sh.timerStep last t task action = some sh') :
    sh'.state = runCalls env sh.state (sh.timerEffects task action) := by
  cases timerMoves_of_step h with
  | lock hphase hcurrent => simp [timerEffects, hcurrent, runCalls, ManagerCall.apply]
  | stale hphase hcurrent => simp [timerEffects, hcurrent, runCalls]
  | _ => rfl

/-- The state of the manager is that of a sequence of calls, whatever the interleaving. -/
theorem World.state_of_run {env : Env} {es : List Event} {w w' : World}
    (h : exec (World.step env) w es = some w') :
    w'.shared.state = runCalls env w.shared.state (w.history env es) := by
  induction es generalizing w with
  | nil =>
      cases h
      rfl
  | cons ev es ih =>
      obtain ⟨m, hm, h⟩ := exec_cons_eq_some.mp h
      have hstep : m.shared.state = runCalls env w.shared.state (w.effects ev) := by
        rcases World.step_cases hm with ⟨request, rfl, rfl⟩ |
          ⟨i, call, call', sh', rfl, hcall, hadv, rfl⟩ |
          ⟨t, task, action, sh', rfl, htask, htimer, rfl⟩ | ⟨d, rfl, -, rfl⟩
        · rfl
        · simp only [World.effects, hcall, Option.elim_some]
          exact Call.state_advance hadv
        · simp only [World.effects, htask, Option.elim_some]
          exact Shared.state_timerStep env htimer
        · rfl
      rw [ih h, hstep]
      simp only [World.history, hm, Option.elim_some, runCalls, List.foldl_append]

/-- In every state of a run the flag says what the calls did that have taken effect. -/
theorem World.flag_iff_raisedSince {env : Env} {es : List Event} {w : World}
    (h : exec (World.step env) World.new es = some w) {s : Session}
    (hs : w.shared.state = .unlocked s) :
    s.strongReauthRequired = true ↔
      RaisedSince ManagerCall.Raises ManagerCall.Restarts (World.new.history env es) :=
  ViperVault.flag_iff_raisedSince env _ ((World.state_of_run h).symm.trans hs)

/-! ## Completed re-authentication -/

namespace ManagerCall

/-- The call is none of those that may ask for a re-authentication again: a lock, an unlock, a
requirement of its own, a security event, a restrictive runtime state. -/
def Quiet : ManagerCall → Prop
  | .update .clearStrongReauthRequirement => True
  | .update (.setRuntimePolicyState runtimeState) => runtimeState.isRestrictive = false
  | .update (.refreshRuntimePolicyState probe) => probe.isRestrictive = false
  | .update (.store _) => True
  | .read => True
  | _ => False

end ManagerCall

/-- The state authorizes every operation that its policy allows. -/
def AuthorizesAllowed (st : VaultState) : Prop :=
  ∀ operation policy, st.currentPolicyContext = some policy →
    policy.allowSensitiveOperation operation = true →
    st.authorizeSensitiveOperation operation = .ok policy

/-- The state does not ask for a re-authentication that it does not report. -/
def ReportsReauth (st : VaultState) : Prop :=
  st.strongReauthRequired = some false → ∀ operation policy,
    st.currentPolicyContext = some policy → policy.allowSensitiveOperation operation = true →
    st.authorizeSensitiveOperation operation ≠ .error .reauthRequired

/-- Once the requirement is cleared, what the policy allows is authorized, until the next call that
may ask for a re-authentication. -/
def RestoresAccess (env : Env) (st : VaultState) : Prop :=
  st.clearStrongReauthRequirement.1 = true → ∀ later : List ManagerCall,
    (∀ call ∈ later, call.Quiet) →
    AuthorizesAllowed (runCalls env st.clearStrongReauthRequirement.2 later)

/-- As long as the session lasts, it asks for no re-authentication that it does not report. -/
def ReportsReauthThroughout (env : Env) (st : VaultState) : Prop :=
  ∀ later : List ManagerCall, (∀ call ∈ later, call.KeepsSession) →
    ReportsReauth (runCalls env st later)

/-- What the calls of a session leave of it: its strength and its outcome. -/
def SamePosture (s : Session) (st : VaultState) : Prop :=
  ∀ s', st = .unlocked s' →
    s'.authStrength = s.authStrength ∧ s'.unlockOutcome = s.unlockOutcome

theorem ManagerCall.samePosture_apply {env : Env} {call : ManagerCall} {s : Session}
    {st : VaultState} (hcall : call.KeepsSession) (h : SamePosture s st) :
    SamePosture s (call.apply env st) := by
  cases call with
  | unlock request => exact hcall.elim
  | lock =>
      intro s' hs'
      cases hs'
  | timerLock =>
      intro s' hs'
      cases hs'
  | handleRuntimeSecurityEvent ev =>
      cases st with
      | locked => cases ev <;> exact h
      | unlocked s₀ =>
          cases ev with
          | appBackgrounded =>
              rintro s' ⟨⟩
              exact h s₀ rfl
          | _ =>
              intro s' hs'
              cases hs'
  | update op =>
      cases st with
      | locked =>
          intro s' hs'
          cases op <;> cases hs'
      | unlocked s₀ =>
          cases op with
          | store call =>
              obtain ⟨json, hjson⟩ := SessionUpdate.exists_apply_store_unlocked env call s₀
              intro s' hs'
              cases hjson.symm.trans hs'
              exact h s₀ rfl
          | _ =>
              rintro s' ⟨⟩
              exact h s₀ rfl
  | read => exact h

/-- A session whose flag is down. -/
def FlagDown (s : Session) (st : VaultState) : Prop :=
  SamePosture s st ∧ st.strongReauthRequired = some false

theorem ManagerCall.Quiet.keepsSession {call : ManagerCall} (h : call.Quiet) :
    call.KeepsSession := by
  cases call with
  | unlock request => exact h
  | _ => trivial

theorem ManagerCall.flagDown_apply {env : Env} {call : ManagerCall} {s : Session}
    {st : VaultState} (hcall : call.Quiet) (h : FlagDown s st) :
    FlagDown s (call.apply env st) := by
  refine ⟨samePosture_apply hcall.keepsSession h.1, ?_⟩
  obtain ⟨-, hflag⟩ := h
  cases st with
  | locked => cases hflag
  | unlocked s₀ =>
      have hdown : s₀.strongReauthRequired = false := Option.some.inj hflag
      cases call with
      | update op =>
          cases op with
          | markStrongReauthRequired => exact hcall.elim
          | clearStrongReauthRequirement => rfl
          | setRuntimePolicyState runtimeState =>
              have hquiet : runtimeState.isRestrictive = false := hcall
              simp [apply, SessionUpdate.apply, VaultState.setRuntimePolicyState,
                VaultState.strongReauthRequired, hdown, hquiet]
          | refreshRuntimePolicyState probe =>
              have hquiet : probe.isRestrictive = false := hcall
              simp [apply, SessionUpdate.apply, VaultState.setRuntimePolicyState,
                VaultState.strongReauthRequired, hdown, hquiet]
          | store call =>
              obtain ⟨json, hjson⟩ := SessionUpdate.exists_apply_store_unlocked env call s₀
              rw [apply, hjson]
              exact hflag
      | read => exact hflag
      | _ => exact hcall.elim

/-- With the flag down, a strong session authorizes what its policy allows, and so does a decoy
session, whose policy allows nothing. -/
theorem FlagDown.authorizesAllowed {s : Session} {st : VaultState} (h : FlagDown s st)
    (hs : s.authStrength.isStrong = true ∨ s.unlockOutcome = .decoy) : AuthorizesAllowed st := by
  intro operation policy hpolicy hallowed
  obtain ⟨hposture, hflag⟩ := h
  cases st with
  | locked => cases hpolicy
  | unlocked s' =>
      cases hpolicy
      obtain ⟨hprimary, hruntime⟩ := (PolicyContext.allowSensitiveOperation_iff _ _).mp hallowed
      obtain ⟨hstrength, houtcome⟩ := hposture s' rfl
      have hstrong : s'.authStrength.isStrong = true := by
        rw [hstrength]
        refine hs.resolve_right ?_
        rw [← houtcome, show s'.unlockOutcome = .primary from hprimary]
        decide
      apply VaultState.authorizeSensitiveOperation_eq_ok.mpr
      refine ⟨s', rfl, rfl, hprimary, hruntime, ?_⟩
      exact (requiresStrongReauthFor_eq_some_false_iff operation s').mpr
        ⟨Option.some.inj hflag, hstrong⟩

/-- The flag is cleared, and the target turns out not to be debugged. -/
def clearedAndNotDebugged : List ManagerCall :=
  [.update .clearStrongReauthRequirement, .update (.setRuntimePolicyState .notDebugged)]

/-- A primary session that is not strong asks for a re-authentication after one was completed. -/
theorem authorize_clearedAndNotDebugged (env : Env) (operation : SensitiveOperation) {s : Session}
    (hstrong : s.authStrength.isStrong = false) (hprimary : s.unlockOutcome = .primary) :
    (runCalls env (.unlocked s) clearedAndNotDebugged).authorizeSensitiveOperation operation =
      .error .reauthRequired := by
  have hallowed : (⟨s.unlockOutcome, .notDebugged⟩ : PolicyContext).allowSensitiveOperation
      operation = true :=
    (PolicyContext.allowSensitiveOperation_iff _ operation).mpr ⟨hprimary, rfl⟩
  have hreauth : (runCalls env (.unlocked s) clearedAndNotDebugged).requiresStrongReauthFor
      operation = some true := by
    simp [clearedAndNotDebugged, runCalls, ManagerCall.apply, SessionUpdate.apply,
      VaultState.clearStrongReauthRequirement, VaultState.setRuntimePolicyState,
      VaultState.requiresStrongReauthFor, requiresStrongReauth_eq_true, hstrong]
  have hpolicy : (runCalls env (.unlocked s) clearedAndNotDebugged).currentPolicyContext =
      some ⟨s.unlockOutcome, .notDebugged⟩ := rfl
  rw [VaultState.authorizeSensitiveOperation, hpolicy, okOr_some, ok_bind, hallowed, hreauth]
  rfl

/-- What authorizes or reports after the flag was cleared is a strong session or a decoy. -/
theorem strong_or_decoy_of (env : Env) {s : Session}
    (h : ∀ policy, (runCalls env (.unlocked s) clearedAndNotDebugged).currentPolicyContext =
        some policy → policy.allowSensitiveOperation .export = true →
      (runCalls env (.unlocked s) clearedAndNotDebugged).authorizeSensitiveOperation .export ≠
        .error .reauthRequired) :
    s.authStrength.isStrong = true ∨ s.unlockOutcome = .decoy := by
  by_contra hneither
  rw [not_or, Bool.not_eq_true] at hneither
  obtain ⟨hstrong, hdecoy⟩ := hneither
  have hprimary : s.unlockOutcome = .primary := by
    cases houtcome : s.unlockOutcome with
    | primary => rfl
    | decoy => exact absurd houtcome hdecoy
  refine h _ rfl ?_ (authorize_clearedAndNotDebugged env .export hstrong hprimary)
  exact (PolicyContext.allowSensitiveOperation_iff _ .export).mpr ⟨hprimary, rfl⟩

/-- Once the requirement was cleared, a session authorizes what its policy allows exactly when it
is strong, or when it is a decoy session. -/
theorem restoresAccess_iff (env : Env) (s : Session) :
    RestoresAccess env (.unlocked s) ↔
      s.authStrength.isStrong = true ∨ s.unlockOutcome = .decoy := by
  constructor
  · intro h
    apply strong_or_decoy_of env
    intro policy hpolicy hallowed herror
    have hquiet : ∀ call ∈ [ManagerCall.update (.setRuntimePolicyState .notDebugged)],
        call.Quiet := by
      intro call hcall
      obtain rfl := List.mem_singleton.mp hcall
      rfl
    have hok := h rfl _ hquiet .export policy hpolicy hallowed
    cases hok.symm.trans herror
  · intro hs _ later hlater
    refine FlagDown.authorizesAllowed ?_ hs
    apply runCalls_invariant (FlagDown s)
    · refine ⟨?_, rfl⟩
      rintro s' ⟨⟩
      exact ⟨rfl, rfl⟩
    · intro call hcall st
      exact ManagerCall.flagDown_apply (hlater call hcall)

/-- A session never asks for a re-authentication that it does not report exactly when it is strong,
or when it is a decoy session. -/
theorem reportsReauthThroughout_iff (env : Env) (s : Session) :
    ReportsReauthThroughout env (.unlocked s) ↔
      s.authStrength.isStrong = true ∨ s.unlockOutcome = .decoy := by
  constructor
  · intro h
    apply strong_or_decoy_of env
    have hkeeps : ∀ call ∈ clearedAndNotDebugged, call.KeepsSession := by
      intro call hcall
      simp only [clearedAndNotDebugged, List.mem_cons, List.not_mem_nil, or_false] at hcall
      rcases hcall with rfl | rfl <;> trivial
    exact h clearedAndNotDebugged hkeeps rfl .export
  · intro hs later hlater hflag operation policy hpolicy hallowed herror
    have hposture : SamePosture s (runCalls env (.unlocked s) later) := by
      apply runCalls_invariant (SamePosture s)
      · rintro s' ⟨⟩
        exact ⟨rfl, rfl⟩
      · intro call hcall st
        exact ManagerCall.samePosture_apply (hlater call hcall)
    have hok := FlagDown.authorizesAllowed ⟨hposture, hflag⟩ hs operation policy hpolicy hallowed
    cases hok.symm.trans herror

/-- A session of the state is strong, or it is a decoy session. -/
def StrongOrDecoy (st : VaultState) : Prop :=
  ∀ s, st = .unlocked s → s.authStrength.isStrong = true ∨ s.unlockOutcome = .decoy

/-- In the state after any calls, a completed re-authentication restores access, and the report of
the flag is the truth from there on, exactly when the session is strong or a decoy session. -/
theorem completed_reauth_restores_access_iff (env : Env) (history : List ManagerCall) :
    (RestoresAccess env (runCalls env .locked history) ↔
      StrongOrDecoy (runCalls env .locked history)) ∧
    (ReportsReauthThroughout env (runCalls env .locked history) ↔
      StrongOrDecoy (runCalls env .locked history)) := by
  cases hst : runCalls env .locked history with
  | locked =>
      have hlocked : StrongOrDecoy .locked := by
        intro s hs
        cases hs
      refine ⟨iff_of_true ?_ hlocked, iff_of_true ?_ hlocked⟩
      · intro hcleared
        cases hcleared
      · intro later hlater hflag
        have hstays : runCalls env .locked later = .locked := by
          apply runCalls_invariant (· = .locked) rfl
          rintro call hcall _ rfl
          exact ManagerCall.apply_locked env (hlater call hcall)
        rw [hstays] at hflag
        cases hflag
  | unlocked s =>
      have hsession : StrongOrDecoy (.unlocked s) ↔
          s.authStrength.isStrong = true ∨ s.unlockOutcome = .decoy := by
        constructor
        · intro h
          exact h s rfl
        · rintro h s' ⟨⟩
          exact h
      rw [hsession]
      exact ⟨restoresAccess_iff env s, reportsReauthThroughout_iff env s⟩

/-- An unlock with a biometric key. -/
def biometricUnlock : UnlockRequest where
  plaintextJson := payloadBytes ⟨[]⟩
  timeout := 60
  authStrength := .biometric
  unlockOutcome := .primary
  runtimeState := .notDebugged

/-- The requirement of a biometric session is cleared and reported as such, and a reveal that the
policy allows is refused for want of a re-authentication. -/
theorem cleared_biometric_session_is_refused :
    ∃ s, runCalls World.sampleEnv .locked
        [.unlock biometricUnlock, .update .clearStrongReauthRequirement] = .unlocked s ∧
      (VaultState.unlocked s).strongReauthRequired = some false ∧
      (VaultState.unlocked s).currentPolicyContext = some ⟨.primary, .notDebugged⟩ ∧
      (⟨.primary, .notDebugged⟩ : PolicyContext).allowSensitiveOperation .revealSecret = true ∧
      (VaultState.unlocked s).authorizeSensitiveOperation .revealSecret =
        .error .reauthRequired ∧
      ¬ RestoresAccess World.sampleEnv
        (runCalls World.sampleEnv .locked [.unlock biometricUnlock]) ∧
      ¬ ReportsReauthThroughout World.sampleEnv
        (runCalls World.sampleEnv .locked [.unlock biometricUnlock]) := by
  refine ⟨_, rfl, rfl, rfl, rfl, rfl, ?_, ?_⟩
  · intro h
    have hok := h rfl [] (by simp) .revealSecret _ rfl rfl
    cases hok
  · intro h
    have hkeeps : ∀ call ∈ [ManagerCall.update .clearStrongReauthRequirement],
        call.KeepsSession := by
      intro call hcall
      obtain rfl := List.mem_singleton.mp hcall
      trivial
    exact h _ hkeeps rfl .revealSecret _ rfl rfl rfl

end ViperVault
