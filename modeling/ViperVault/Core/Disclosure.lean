import ViperVault.Core.Generations
import ViperVault.Core.Store

/-!
# Disclosure calls

A disclosure call checks the policy, then the re-authentication flag, then reads the entry,
each in a critical section of its own. Its answer is authorized by the session it reads when
nothing weakens the session between the checks and the read.
-/

namespace ViperVault

open Foundation

/-- The session allows the operation: primary, not debugged, and no strong re-authentication
required. -/
structure Session.Allows (operation : SensitiveOperation) (s : Session) : Prop where
  primary : s.unlockOutcome = .primary
  notDebugged : s.runtimeState = .notDebugged
  noReauth : (VaultState.unlocked s).requiresStrongReauthFor operation = some false

theorem requiresStrongReauth_eq_true (operation : SensitiveOperation) :
    operation.requiresStrongReauth = true := by
  cases operation <;> rfl

/-- The re-authentication test passes on strong sessions without the sticky flag. -/
theorem requiresStrongReauthFor_eq_some_false_iff (operation : SensitiveOperation) (s : Session) :
    (VaultState.unlocked s).requiresStrongReauthFor operation = some false ↔
      s.strongReauthRequired = false ∧ s.authStrength.isStrong = true := by
  simp [VaultState.requiresStrongReauthFor, requiresStrongReauth_eq_true]

namespace World

/-- A disclosure call has passed the policy check and not yet the re-authentication check. -/
def SomePolicyChecked (w : World) : Prop :=
  ∃ request, Call.disclose request .policyChecked ∈ w.calls

/-- A disclosure call has passed both checks and not yet read the entry. -/
def SomeAuthorized (w : World) : Prop :=
  ∃ request, Call.disclose request .authorized ∈ w.calls

/-- The steps that weaken the session behind a check that has been made: between the two
checks, a strong decoy unlock and the clearing of the flag of a session that the policy
denies; after both checks, an unlock that is not strong, primary and undebugged, a restrictive
runtime state and a new re-authentication requirement. -/
def Undermines (w : World) : Event → Prop
  | .advance i =>
      match w.calls[i]? with
      | some (.unlock request (.drawn _)) =>
          (SomePolicyChecked w ∧ request.authStrength.isStrong = true ∧
            request.runtimeState = .notDebugged ∧ request.unlockOutcome ≠ .primary) ∨
          (SomeAuthorized w ∧ ¬ (request.authStrength.isStrong = true ∧
            request.runtimeState = .notDebugged ∧ request.unlockOutcome = .primary))
      | some (.update .clearStrongReauthRequirement false) =>
          SomePolicyChecked w ∧ ∃ s, w.shared.state = .unlocked s ∧
            s.authStrength.isStrong = true ∧
            ¬ (s.unlockOutcome = .primary ∧ s.runtimeState = .notDebugged)
      | some (.update .markStrongReauthRequired false) =>
          SomeAuthorized w ∧ w.shared.state.IsUnlocked
      | some (.update (.setRuntimePolicyState runtimeState) false) =>
          SomeAuthorized w ∧ w.shared.state.IsUnlocked ∧ runtimeState.isRestrictive = true
      | some (.update (.refreshRuntimePolicyState probe) false) =>
          SomeAuthorized w ∧ w.shared.state.IsUnlocked ∧ probe.isRestrictive = true
      | _ => False
  | _ => False

/-- What the checks a disclosure call has made say about the session. After the policy check
alone, a session that the policy denies would be stopped by the second check. -/
def CheckedFor (operation : SensitiveOperation) (st : VaultState) : DisclosePc → Prop
  | .start => True
  | .policyChecked => ∀ s, st = .unlocked s →
      (s.unlockOutcome = .primary ∧ s.runtimeState = .notDebugged) ∨
        (VaultState.unlocked s).requiresStrongReauthFor operation ≠ some false
  | .authorized => ∀ s, st = .unlocked s → s.Allows operation
  | .returned (.ok _) readFrom => ∃ s, readFrom = .unlocked s ∧ s.Allows operation
  | .returned (.error _) _ => True

/-- Every disclosure call is where its checks allow it to be. -/
def Checked (w : World) : Prop :=
  ∀ request pc, Call.disclose request pc ∈ w.calls →
    CheckedFor request.operation w.shared.state pc

/-- A disclosure call that answers an entry read it from a session that allows its
operation. -/
def DisclosesAllowed (w : World) : Prop :=
  ∀ request disclosed readFrom,
    Call.disclose request (.returned (.ok disclosed) readFrom) ∈ w.calls →
      ∃ s, readFrom = .unlocked s ∧ s.Allows request.operation

/-- A locked vault discloses nothing. -/
theorem read_locked (env : Env) (request : DisclosureRequest) :
    request.read env .locked = .error .vaultLocked := rfl

/-- The step of a disclosure call itself. -/
theorem checkedFor_advance {env : Env} {request : DisclosureRequest} {st : VaultState}
    {pc pc' : DisclosePc} (hpc : CheckedFor request.operation st pc)
    (h : request.advance env st pc = some pc') : CheckedFor request.operation st pc' := by
  cases pc with
  | start =>
      cases st with
      | locked =>
          cases h
          trivial
      | unlocked s =>
          simp only [DisclosureRequest.advance, VaultState.currentPolicyContext] at h
          split at h
          · rename_i hallow
            cases h
            rintro s' ⟨⟩
            exact Or.inl ((PolicyContext.allowSensitiveOperation_iff _ _).mp hallow)
          · cases h
            trivial
  | policyChecked =>
      simp only [DisclosureRequest.advance] at h
      split at h
      · cases h
        trivial
      · cases h
        trivial
      · rename_i hreauth
        cases h
        rintro s rfl
        rcases hpc s rfl with ⟨hprimary, hruntime⟩ | hstopped
        · exact ⟨hprimary, hruntime, hreauth⟩
        · exact absurd hreauth hstopped
  | authorized =>
      cases h
      cases hread : request.read env st with
      | error err => trivial
      | ok disclosed =>
          cases st with
          | locked => simp [read_locked] at hread
          | unlocked s => exact ⟨s, rfl, hpc s rfl⟩
  | returned answer readFrom => cases h

/-- How the state may change while a call has passed the policy check. -/
def KeepsPolicy (st st' : VaultState) : Prop :=
  ∀ operation, CheckedFor operation st .policyChecked → CheckedFor operation st' .policyChecked

/-- How the state may change while a call is authorized. -/
def KeepsAuthorization (st st' : VaultState) : Prop :=
  ∀ operation, CheckedFor operation st .authorized → CheckedFor operation st' .authorized

theorem keepsPolicy_refl (st : VaultState) : KeepsPolicy st st := fun _ => id

theorem keepsAuthorization_refl (st : VaultState) : KeepsAuthorization st st := fun _ => id

/-- Locking takes nothing from a check. -/
theorem keepsPolicy_locked (st : VaultState) : KeepsPolicy st .locked := by
  intro operation _ s hs
  cases hs

theorem keepsAuthorization_locked (st : VaultState) : KeepsAuthorization st .locked := by
  intro operation _ s hs
  cases hs

/-- Checks look at the session only up to its payload. -/
theorem keeps_store (env : Env) (call : StoreCall) (st : VaultState) :
    KeepsPolicy st ((SessionUpdate.store call).apply env st) ∧
      KeepsAuthorization st ((SessionUpdate.store call).apply env st) := by
  cases st with
  | locked => exact ⟨keepsPolicy_locked _, keepsAuthorization_locked _⟩
  | unlocked s =>
      obtain ⟨json, hjson⟩ := SessionUpdate.exists_apply_store_unlocked env call s
      rw [hjson]
      constructor
      · rintro operation hst s' ⟨⟩
        exact hst s rfl
      · rintro operation hst s' ⟨⟩
        have hold := hst s rfl
        exact ⟨hold.primary, hold.notDebugged, hold.noReauth⟩

/-- An unlock keeps the policy check unless it opens a strong, undebugged session that is not
primary. -/
theorem keepsPolicy_unlock (st : VaultState) (request : UnlockRequest)
    (h : ¬ (request.authStrength.isStrong = true ∧ request.runtimeState = .notDebugged ∧
      request.unlockOutcome ≠ .primary)) :
    KeepsPolicy st (.unlockWithPlaintextJsonWithContext request.plaintextJson
      request.authStrength request.unlockOutcome request.runtimeState) := by
  rintro operation _ s ⟨⟩
  by_cases hprimary : request.unlockOutcome = .primary ∧ request.runtimeState = .notDebugged
  · exact Or.inl hprimary
  · right
    rw [ne_eq, requiresStrongReauthFor_eq_some_false_iff]
    rintro ⟨hflag, hstrong⟩
    simp only [Bool.or_eq_false_iff, Bool.not_eq_false'] at hflag hstrong
    have hruntime : request.runtimeState = .notDebugged := by
      simpa [RuntimeInspectionState.isRestrictive] using hflag.2
    exact h ⟨hstrong, hruntime, fun houtcome => hprimary ⟨houtcome, hruntime⟩⟩

/-- A strong, undebugged, primary unlock opens a session that allows every operation. -/
theorem keepsAuthorization_unlock (st : VaultState) (request : UnlockRequest)
    (h : request.authStrength.isStrong = true ∧ request.runtimeState = .notDebugged ∧
      request.unlockOutcome = .primary) :
    KeepsAuthorization st (.unlockWithPlaintextJsonWithContext request.plaintextJson
      request.authStrength request.unlockOutcome request.runtimeState) := by
  rintro operation _ s ⟨⟩
  refine ⟨h.2.2, h.2.1, ?_⟩
  rw [requiresStrongReauthFor_eq_some_false_iff]
  simp [h.1, h.2.1, RuntimeInspectionState.isRestrictive]

theorem keepsPolicy_mark (st : VaultState) : KeepsPolicy st st.markStrongReauthRequired.2 := by
  cases st with
  | locked => exact keepsPolicy_locked _
  | unlocked s =>
      rintro operation _ s' ⟨⟩
      right
      rw [ne_eq, requiresStrongReauthFor_eq_some_false_iff]
      simp

/-- Clearing the flag keeps the policy check unless the session is strong and the policy
denies it. -/
theorem keepsPolicy_clear (st : VaultState)
    (h : ∀ s, st = .unlocked s → s.authStrength.isStrong = true →
      s.unlockOutcome = .primary ∧ s.runtimeState = .notDebugged) :
    KeepsPolicy st st.clearStrongReauthRequirement.2 := by
  cases st with
  | locked => exact keepsPolicy_locked _
  | unlocked s =>
      rintro operation _ s' ⟨⟩
      by_cases hstrong : s.authStrength.isStrong = true
      · exact Or.inl (h s rfl hstrong)
      · right
        rw [ne_eq, requiresStrongReauthFor_eq_some_false_iff]
        simp [hstrong]

theorem keepsAuthorization_clear (st : VaultState) :
    KeepsAuthorization st st.clearStrongReauthRequirement.2 := by
  cases st with
  | locked => exact keepsAuthorization_locked _
  | unlocked s =>
      rintro operation hst s' ⟨⟩
      have hold := hst s rfl
      refine ⟨hold.primary, hold.notDebugged, ?_⟩
      have hreauth := (requiresStrongReauthFor_eq_some_false_iff _ _).mp hold.noReauth
      rw [requiresStrongReauthFor_eq_some_false_iff]
      exact ⟨rfl, hreauth.2⟩

theorem keepsPolicy_setRuntime (st : VaultState) (runtimeState : RuntimeInspectionState) :
    KeepsPolicy st (st.setRuntimePolicyState runtimeState) := by
  cases st with
  | locked => exact keepsPolicy_locked _
  | unlocked s =>
      rintro operation hst s' ⟨⟩
      by_cases hrestrictive : runtimeState.isRestrictive = true
      · right
        rw [ne_eq, requiresStrongReauthFor_eq_some_false_iff]
        simp [hrestrictive]
      · have hruntime : runtimeState = .notDebugged := by
          simpa [RuntimeInspectionState.isRestrictive] using hrestrictive
        rcases hst s rfl with ⟨hprimary, _⟩ | hstopped
        · exact Or.inl ⟨hprimary, hruntime⟩
        · right
          rw [ne_eq, requiresStrongReauthFor_eq_some_false_iff] at hstopped ⊢
          simpa [hrestrictive] using hstopped

/-- A runtime state that is not restrictive keeps a session that allows the operation. -/
theorem keepsAuthorization_setRuntime (st : VaultState) (runtimeState : RuntimeInspectionState)
    (hkeeps : st.IsUnlocked → runtimeState.isRestrictive = false) :
    KeepsAuthorization st (st.setRuntimePolicyState runtimeState) := by
  cases st with
  | locked => exact keepsAuthorization_locked _
  | unlocked s =>
      have h : runtimeState.isRestrictive = false := hkeeps trivial
      rintro operation hst s' ⟨⟩
      have hold := hst s rfl
      refine ⟨hold.primary, ?_, ?_⟩
      · simpa [RuntimeInspectionState.isRestrictive] using h
      · have hreauth := (requiresStrongReauthFor_eq_some_false_iff _ _).mp hold.noReauth
        rw [requiresStrongReauthFor_eq_some_false_iff]
        simpa [h] using hreauth

/-- A critical section of an update that does not undermine the checks made so far keeps them. -/
theorem keeps_of_update {env : Env} {w : World} {i : Nat} {op : SessionUpdate}
    (hcall : w.calls[i]? = some (.update op false)) (hgood : ¬ Undermines w (.advance i)) :
    (SomePolicyChecked w → KeepsPolicy w.shared.state (op.apply env w.shared.state)) ∧
      (SomeAuthorized w → KeepsAuthorization w.shared.state (op.apply env w.shared.state)) := by
  unfold Undermines at hgood
  simp only [hcall] at hgood
  cases op with
  | markStrongReauthRequired =>
      refine ⟨fun _ => keepsPolicy_mark _, fun hsome => ?_⟩
      cases hst : w.shared.state with
      | locked => exact keepsAuthorization_locked _
      | unlocked s => exact absurd ⟨hsome, hst ▸ trivial⟩ hgood
  | clearStrongReauthRequirement =>
      refine ⟨fun hsome => ?_, fun _ => keepsAuthorization_clear _⟩
      apply keepsPolicy_clear
      intro s hs hstrong
      by_contra hbad
      exact hgood ⟨hsome, s, hs, hstrong, hbad⟩
  | setRuntimePolicyState runtimeState =>
      refine ⟨fun _ => keepsPolicy_setRuntime _ _, fun hsome => ?_⟩
      apply keepsAuthorization_setRuntime
      intro hunlocked
      by_contra hbad
      exact hgood ⟨hsome, hunlocked, by simpa using hbad⟩
  | refreshRuntimePolicyState probe =>
      refine ⟨fun _ => keepsPolicy_setRuntime _ _, fun hsome => ?_⟩
      apply keepsAuthorization_setRuntime
      intro hunlocked
      by_contra hbad
      exact hgood ⟨hsome, hunlocked, by simpa using hbad⟩
  | store call =>
      obtain ⟨hpolicy, hauth⟩ := keeps_store env call w.shared.state
      exact ⟨fun _ => hpolicy, fun _ => hauth⟩

/-- A step of a call that does not undermine the checks made so far keeps them. -/
theorem keeps_of_advance {env : Env} {w : World} {i : Nat} {call call' : Call} {sh' : Shared}
    (hcall : w.calls[i]? = some call) (hgood : ¬ Undermines w (.advance i))
    (h : call.advance env w.shared = some (call', sh')) :
    (SomePolicyChecked w → KeepsPolicy w.shared.state sh'.state) ∧
      (SomeAuthorized w → KeepsAuthorization w.shared.state sh'.state) := by
  have hsame : sh'.state = w.shared.state →
      (SomePolicyChecked w → KeepsPolicy w.shared.state sh'.state) ∧
        (SomeAuthorized w → KeepsAuthorization w.shared.state sh'.state) := by
    intro hstate
    rw [hstate]
    exact ⟨fun _ => keepsPolicy_refl _, fun _ => keepsAuthorization_refl _⟩
  cases Call.moves_of_advance h with
  | writeUnlock request g =>
      unfold Undermines at hgood
      simp only [hcall] at hgood
      constructor
      · intro hsome
        exact keepsPolicy_unlock _ request fun hbad => hgood (Or.inl ⟨hsome, hbad⟩)
      · intro hsome
        apply keepsAuthorization_unlock
        by_contra hbad
        exact hgood (Or.inr ⟨hsome, hbad⟩)
  | writeLock g => exact ⟨fun _ => keepsPolicy_locked _, fun _ => keepsAuthorization_locked _⟩
  | update op => exact keeps_of_update hcall hgood
  | cancelUnlock request g => exact hsame (Shared.cancelAutoLock_state _)
  | cancelLock g => exact hsame (Shared.cancelAutoLock_state _)
  | _ => exact hsame rfl

/-- A disclosure call that takes no step keeps its checks when the state does. -/
theorem checkedFor_of_keeps {w : World} {st' : VaultState} {request : DisclosureRequest}
    {pc : DisclosePc} (hmem : Call.disclose request pc ∈ w.calls) (hw : Checked w)
    (hpolicy : SomePolicyChecked w → KeepsPolicy w.shared.state st')
    (hauth : SomeAuthorized w → KeepsAuthorization w.shared.state st') :
    CheckedFor request.operation st' pc := by
  have hpc := hw request pc hmem
  cases pc with
  | start => trivial
  | policyChecked => exact hpolicy ⟨request, hmem⟩ _ hpc
  | authorized => exact hauth ⟨request, hmem⟩ _ hpc
  | returned answer readFrom =>
      cases answer with
      | ok disclosed => exact hpc
      | error err => trivial

theorem checked_step {env : Env} {w w' : World} {ev : Event} (hw : Checked w)
    (hgood : ¬ Undermines w ev) (h : w.step env ev = some w') : Checked w' := by
  rcases step_cases h with ⟨request, rfl, rfl⟩ | ⟨i, call, call', sh', rfl, hcall, hadv, rfl⟩ |
    ⟨t, task, action, sh', rfl, _, hstep, rfl⟩ | ⟨d, rfl, -, rfl⟩
  · intro r pc hmem
    rcases List.mem_append.mp hmem with hold | hnew
    · exact hw r pc hold
    · obtain ⟨-, rfl⟩ := disclose_of_start (List.mem_singleton.mp hnew).symm
      trivial
  · obtain ⟨hpolicy, hauth⟩ := keeps_of_advance hcall hgood hadv
    intro r pc hmem
    rcases List.mem_or_eq_of_mem_set hmem with hold | hnew
    · exact checkedFor_of_keeps hold hw hpolicy hauth
    · subst hnew
      -- only a disclosure call becomes one, and its step leaves the state alone
      cases Call.moves_of_advance hadv with
      | disclose _ pc₀ _ hpc' =>
          exact checkedFor_advance (hw r pc₀ (List.mem_of_getElem? hcall)) hpc'
  · intro r pc hmem
    rcases (Shared.timerStep_frame hstep).2.2 with hstate | hstate
    · simp only [hstate]
      exact hw r pc hmem
    · simp only [hstate]
      have hbefore : Call.disclose r pc ∈ w.calls := hmem
      exact checkedFor_of_keeps hbefore hw (fun _ => keepsPolicy_locked _)
        (fun _ => keepsAuthorization_locked _)
  · exact hw

/-- In a run in which no step undermines a check that has been made, every disclosure call
that answers an entry read it from a session that allows its operation. -/
theorem disclosesAllowed_of_run {env : Env} {es : List Event} {w : World}
    (hgood : EveryStep (step env) (fun w ev => ¬ Undermines w ev) new es)
    (h : exec (step env) new es = some w) : DisclosesAllowed w := by
  have hchecked : Checked w :=
    exec_invariant_of_everyStep (fun w ev => ¬ Undermines w ev) Checked
      (fun _ _ _ hw hgood hstep => checked_step hw hgood hstep)
      (fun request pc hmem => by simp [new] at hmem) hgood h
  intro request disclosed readFrom hmem
  exact hchecked request _ hmem

/-- A request for a strong primary session on one stored entry. -/
def mailUnlock : UnlockRequest where
  plaintextJson := payloadBytes ⟨[mailEntry]⟩
  timeout := 60
  authStrength := .strong
  unlockOutcome := .primary
  runtimeState := .notDebugged

/-- The secret of the stored entry is revealed, and then the app goes to the background. -/
def revealThenBackground : List Event :=
  [.invoke (.unlock mailUnlock), .advance 0, .advance 0,
   .invoke (.disclose (.revealEntrySecret 1)), .advance 1, .advance 1, .advance 1,
   .invoke (.handleRuntimeSecurityEvent .appBackgrounded), .advance 2]

/-- The theorem on a run in which the weakening comes after the read. -/
theorem disclosesAllowed_of_run_revealThenBackground :
    ∃ w, exec (step sampleEnv) new revealThenBackground = some w ∧ DisclosesAllowed w := by
  have hgood : EveryStep (step sampleEnv) (fun w ev => ¬ Undermines w ev) new
      revealThenBackground := by
    refine everyStep_cons_of_eq id rfl (everyStep_cons_of_eq id rfl ?_)
    refine everyStep_cons_of_eq ?_ rfl ?_
    · rintro (⟨_, _, _, hne⟩ | ⟨_, hne⟩)
      · exact hne rfl
      · exact hne ⟨rfl, rfl, rfl⟩
    refine everyStep_cons_of_eq id rfl (everyStep_cons_of_eq id rfl ?_)
    refine everyStep_cons_of_eq id rfl (everyStep_cons_of_eq id rfl ?_)
    refine everyStep_cons_of_eq id rfl ?_
    refine everyStep_cons_of_eq ?_ rfl trivial
    rintro ⟨⟨request, hmem⟩, _⟩
    change Call.disclose request .authorized ∈
      [Call.unlock _ _, Call.disclose _ (.returned _ _), Call.update _ _] at hmem
    simp at hmem
  exact ⟨_, rfl, disclosesAllowed_of_run hgood rfl⟩

/-- The app goes to the background after both checks of a reveal call and before its read. -/
def backgroundDuringReveal : List Event :=
  [.invoke (.unlock mailUnlock), .advance 0, .advance 0,
   .invoke (.disclose (.revealEntrySecret 1)), .advance 1, .advance 1,
   .invoke (.handleRuntimeSecurityEvent .appBackgrounded), .advance 2, .advance 1]

/-- The session of `mailUnlock` once strong re-authentication is required. -/
def backgroundedSession : Session where
  plaintextJson := payloadBytes ⟨[mailEntry]⟩
  authStrength := .strong
  strongReauthRequired := true
  unlockOutcome := .primary
  runtimeState := .notDebugged

/-- What the reveal call reads from that session. -/
theorem read_backgroundedSession :
    (DisclosureRequest.revealEntrySecret 1).read sampleEnv (.unlocked backgroundedSession) =
      .ok (.secret ⟨"hunter2".toList⟩) := by
  have hdecode : decodePayloadFromPlaintextJson payloadJson (payloadBytes ⟨[mailEntry]⟩) =
      some ⟨[mailEntry]⟩ := getPayload_sessionOn (by decide)
  have hentry : getEntry payloadJson 1 (.unlocked backgroundedSession) =
      .ok mailEntry.toView := by
    simp only [getEntry, withUnlockedPayload, backgroundedSession, hdecode]
    rfl
  have henv : sampleEnv.serde = payloadJson := rfl
  simp only [DisclosureRequest.read, henv, DisclosureRequest.revealEntrySecret, hentry]
  rfl

/-- The reveal call answers the secret, read from a session that requires strong
re-authentication. -/
theorem backgroundDuringReveal_discloses :
    ∃ w, exec (step sampleEnv) new backgroundDuringReveal = some w ∧
      Call.disclose (.revealEntrySecret 1)
        (.returned (.ok (.secret ⟨"hunter2".toList⟩)) (.unlocked backgroundedSession)) ∈ w.calls ∧
      (VaultState.unlocked backgroundedSession).requiresStrongReauthFor .revealSecret =
        some true ∧
      ¬ DisclosesAllowed w := by
  have hmem : ∀ calls : List Call, calls[1]? = some (.disclose (.revealEntrySecret 1) (.returned
      ((DisclosureRequest.revealEntrySecret 1).read sampleEnv (.unlocked backgroundedSession))
      (.unlocked backgroundedSession))) →
      Call.disclose (.revealEntrySecret 1)
        (.returned (.ok (.secret ⟨"hunter2".toList⟩)) (.unlocked backgroundedSession)) ∈ calls := by
    intro calls h
    rw [read_backgroundedSession] at h
    exact List.mem_of_getElem? h
  refine ⟨_, rfl, hmem _ rfl, rfl, ?_⟩
  intro h
  obtain ⟨s, hs, hallows⟩ := h _ _ _ (hmem _ rfl)
  cases hs
  exact absurd hallows.noReauth (by decide)

end World

end ViperVault
