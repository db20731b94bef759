import ViperVault.Core.Generations
import ViperVault.Core.Store

/-!
# Imports into a live session

`core/import.rs` and `import/e2e_interop.rs`. The commit asks the policy that its caller passes;
the session it writes to has a policy of its own, which the commit does not look at.
-/

namespace ViperVault

open Foundation

section Calls

variable (serde : Serde VaultPayloadDto)

/-- `commit_quarantine_import`. -/
def commitQuarantineImport (policy : PolicyContext) (quarantined : QuarantinedImport)
    (st : VaultState) : Except ImportError Unit × VaultState :=
  let (answer, st') := withUnlockedPayloadMut serde
    (commitQuarantinedImportIntoPayload policy quarantined).run st
  (answer.getD (.error .policyDenied), st')

variable (parse : PolicyContext → Bytes → Except ImportError VaultPayload)

/-- `interop_import_and_commit_into_unlocked_vault`. -/
def interopImportAndCommitIntoUnlockedVault (policy : PolicyContext) (intent : ImportIntent)
    (format : InteropFormat) (bytes : Bytes) (st : VaultState) :
    Except ImportError Unit × VaultState :=
  match importInteropQuarantine parse policy intent format bytes with
  | .error e => (.error e, st)
  | .ok quarantined => commitQuarantineImport serde policy quarantined st

/-- `InteropImportReport`. -/
structure InteropImportReport where
  format : InteropFormat
  importedEntries : Nat
  totalEntriesAfterCommit : Nat
  deriving DecidableEq

/-- `interop_import_commit_report`. The entries are counted in a critical section of their own,
which finds the state `later`; the second component is the state after the commit. -/
def interopImportCommitReport (policy : PolicyContext) (intent : ImportIntent)
    (format : InteropFormat) (bytes : Bytes) (st later : VaultState) :
    Except ImportError InteropImportReport × VaultState :=
  match importInteropQuarantine parse policy intent format bytes with
  | .error e => (.error e, st)
  | .ok quarantined =>
      match commitQuarantineImport serde policy quarantined st with
      | (.error e, st') => (.error e, st')
      | (.ok (), st') =>
          (okOr (withUnlockedPayload serde (fun p => p.entries.length) later) .policyDenied |>.map
            fun total => ⟨format, quarantined.payload.entries.length, total⟩, st')

end Calls

/-- The context of the session allows a plaintext import. -/
def VaultState.AllowsPlaintextImport (st : VaultState) : Prop :=
  ∃ policy, st.currentPolicyContext = some policy ∧ policy.allowPlaintextImport = true

/-- Neither a decoy session nor one under a restrictive runtime allows it. -/
theorem VaultState.allowsPlaintextImport_iff {st : VaultState} :
    st.AllowsPlaintextImport ↔ ∃ s, st = .unlocked s ∧ s.unlockOutcome = .primary ∧
      s.runtimeState = .notDebugged := by
  cases st with
  | locked => simp [AllowsPlaintextImport, currentPolicyContext]
  | unlocked s =>
      simp only [AllowsPlaintextImport, currentPolicyContext, Option.some.injEq, exists_eq_left',
        PolicyContext.allowPlaintextImport_iff, VaultState.unlocked.injEq]

/-- An import succeeds, or changes the payload, only if the session allows it. -/
def ObeysSession {α : Type} (serde : Serde VaultPayloadDto) (st : VaultState)
    (r : Except ImportError α × VaultState) : Prop :=
  (∃ a, r.1 = .ok a) ∨ getPayload serde r.2 ≠ getPayload serde st → st.AllowsPlaintextImport

/-- Where the policy of the caller lets entries in and there is room for them, the session allows
it as well. -/
def Consents (serde : Serde VaultPayloadDto) (policy : PolicyContext) (q : QuarantinedImport)
    (st : VaultState) : Prop :=
  policy.allowPlaintextImport = true →
  ∀ p, getPayload serde st = some p →
    p.entries.length + q.payload.entries.length ≤ maxInteropEntries → st.AllowsPlaintextImport

/-! ## One commit -/

/-- The closure lets the entries in when the policy of the caller does and there is room. -/
theorem run_commitQuarantinedImportIntoPayload (policy : PolicyContext) (q : QuarantinedImport)
    (p : VaultPayload) :
    (commitQuarantinedImportIntoPayload policy q).run p =
      if policy.allowPlaintextImport = false then (.error .policyDenied, p)
      else if maxInteropEntries < p.entries.length + q.payload.entries.length then
        (.error .payloadTooLarge, p)
      else (.ok (), ⟨p.entries ++ q.payload.entries⟩) := by
  unfold commitQuarantinedImportIntoPayload
  rw [Mut.run_bind_ok (Mut.run_read p)]
  cases policy.allowPlaintextImport with
  | false => rfl
  | true =>
      by_cases hroom : maxInteropEntries < p.entries.length + q.payload.entries.length
      · simp [hroom]
      · simp [hroom]

section Commit

variable {serde : Serde VaultPayloadDto} (hserde : serde.Lawful) (policy : PolicyContext)
  (q : QuarantinedImport) (st : VaultState)

include hserde

/-- Where the caller's policy allows it and there is room, a commit appends its entries. -/
theorem commit_of_fits {p : VaultPayload} (hpolicy : policy.allowPlaintextImport = true)
    (hp : getPayload serde st = some p)
    (hfits : p.entries.length + q.payload.entries.length ≤ maxInteropEntries) :
    (commitQuarantineImport serde policy q st).1 = .ok () ∧
      getPayload serde (commitQuarantineImport serde policy q st).2 =
        some ⟨p.entries ++ q.payload.entries⟩ := by
  obtain ⟨hanswer, hread⟩ := withUnlockedPayloadMut_of_getPayload hserde
    (commitQuarantinedImportIntoPayload policy q).run hp
  rw [run_commitQuarantinedImportIntoPayload] at hanswer hread
  simp only [hpolicy, Bool.true_eq_false, if_false, if_neg (Nat.not_lt.mpr hfits)] at hanswer hread
  have hvalid : (⟨p.entries ++ q.payload.entries⟩ : VaultPayload).Valid := by
    intro e he
    rcases List.mem_append.mp he with he | he
    · exact valid_of_getPayload hp e he
    · exact q.valid e he
  rw [if_pos hvalid] at hread
  exact ⟨by simp [commitQuarantineImport, hanswer], hread⟩

/-- A commit goes through exactly when the caller's policy allows it and a payload is there that
has room; otherwise the payload stays. -/
theorem commit_cases :
    (policy.allowPlaintextImport = true ∧
        (commitQuarantineImport serde policy q st).1 = .ok () ∧
        ∃ p, getPayload serde st = some p ∧
          p.entries.length + q.payload.entries.length ≤ maxInteropEntries ∧
          getPayload serde (commitQuarantineImport serde policy q st).2 =
            some ⟨p.entries ++ q.payload.entries⟩) ∨
      ((¬ ∃ u, (commitQuarantineImport serde policy q st).1 = .ok u) ∧
        getPayload serde (commitQuarantineImport serde policy q st).2 = getPayload serde st ∧
        Consents serde policy q st) := by
  cases hp : getPayload serde st with
  | none =>
      right
      have hrun := withUnlockedPayloadMut_of_getPayload_none
        (commitQuarantinedImportIntoPayload policy q).run hp
      refine ⟨?_, ?_, ?_⟩
      · simp [commitQuarantineImport, hrun]
      · simp only [commitQuarantineImport, hrun, hp]
      · intro _ p hsome
        rw [hp] at hsome
        cases hsome
  | some p =>
      obtain ⟨hanswer, hread⟩ := withUnlockedPayloadMut_of_getPayload hserde
        (commitQuarantinedImportIntoPayload policy q).run hp
      have hvalid : p.Valid := valid_of_getPayload hp
      rw [run_commitQuarantinedImportIntoPayload] at hanswer hread
      cases hpolicy : policy.allowPlaintextImport with
      | false =>
          right
          simp only [hpolicy, if_true, if_pos hvalid] at hanswer hread
          refine ⟨?_, hread, ?_⟩
          · simp [commitQuarantineImport, hanswer]
          · intro hallow
            rw [hpolicy] at hallow
            cases hallow
      | true =>
          by_cases hroom : maxInteropEntries < p.entries.length + q.payload.entries.length
          · right
            simp only [hpolicy, Bool.true_eq_false, if_false, if_pos hroom, if_pos hvalid]
              at hanswer hread
            refine ⟨?_, hread, ?_⟩
            · simp [commitQuarantineImport, hanswer]
            · intro _ p' hsome hfits
              rw [hp, Option.some.injEq] at hsome
              subst hsome
              omega
          · left
            have hfits := Nat.le_of_not_lt hroom
            obtain ⟨hok, hread⟩ := commit_of_fits hserde policy q st hpolicy hp hfits
            exact ⟨rfl, hok, p, rfl, hfits, hread⟩

/-- A commit obeys the session exactly when the session consents to it. -/
theorem commit_obeysSession_iff :
    ObeysSession serde st (commitQuarantineImport serde policy q st) ↔
      Consents serde policy q st := by
  rcases commit_cases hserde policy q st with ⟨hpolicy, hok, p, hp, hfits, hread⟩ |
    ⟨hfails, hkeeps, hconsents⟩
  · constructor
    · intro hobeys _ _ _ _
      exact hobeys (Or.inl ⟨(), hok⟩)
    · intro hconsents _
      exact hconsents hpolicy p hp hfits
  · constructor
    · intro _
      exact hconsents
    · rintro _ (hok | hchanged)
      · exact absurd hok hfails
      · exact absurd hkeeps hchanged

variable (parse : PolicyContext → Bytes → Except ImportError VaultPayload) (intent : ImportIntent)
  (format : InteropFormat) (bytes : Bytes)

theorem interop_obeysSession_iff :
    ObeysSession serde st
        (interopImportAndCommitIntoUnlockedVault serde parse policy intent format bytes st) ↔
      ∀ q, importInteropQuarantine parse policy intent format bytes = .ok q →
        Consents serde policy q st := by
  unfold interopImportAndCommitIntoUnlockedVault
  cases hparse : importInteropQuarantine parse policy intent format bytes with
  | error e => simp [ObeysSession]
  | ok q =>
      simp only [commit_obeysSession_iff hserde, Except.ok.injEq, forall_eq']

omit hserde in
theorem withUnlockedPayload_eq_map {R : Type} (f : VaultPayload → R) :
    withUnlockedPayload serde f st = (getPayload serde st).map f := by
  cases st with
  | locked => rfl
  | unlocked s => rfl

/-- The report succeeds only after its commit did, and fails after a commit that added nothing
and is followed by a lock. -/
theorem report_obeysSession_iff (later : VaultState) :
    ObeysSession serde st
        (interopImportCommitReport serde parse policy intent format bytes st later) ↔
      ∀ q, importInteropQuarantine parse policy intent format bytes = .ok q →
        q.payload.entries ≠ [] ∨ getPayload serde later ≠ none → Consents serde policy q st := by
  unfold interopImportCommitReport
  cases hparse : importInteropQuarantine parse policy intent format bytes with
  | error e => simp [ObeysSession]
  | ok q =>
      simp only [Except.ok.injEq, forall_eq']
      rcases commit_cases hserde policy q st with ⟨hpolicy, hok, p, hp, hfits, hread⟩ |
        ⟨hfails, hkeeps, hconsents⟩
      · have hcommit : commitQuarantineImport serde policy q st =
            (.ok (), (commitQuarantineImport serde policy q st).2) := Prod.ext hok rfl
        have hchanged : getPayload serde (commitQuarantineImport serde policy q st).2 ≠
            getPayload serde st ↔ q.payload.entries ≠ [] := by
          rw [hread, hp]
          cases p
          simp
        have hreported : (∃ r, (okOr (withUnlockedPayload serde (fun p => p.entries.length) later)
            ImportError.policyDenied |>.map fun total =>
              InteropImportReport.mk format q.payload.entries.length total) = .ok r) ↔
            getPayload serde later ≠ none := by
          rw [withUnlockedPayload_eq_map]
          cases getPayload serde later with
          | none => simp [Except.map]
          | some p' => simp [Except.map]
        rw [hcommit]
        simp only [ObeysSession, hchanged, hreported]
        constructor
        · intro hobeys hsome _ _ _ _
          exact hobeys hsome.symm
        · intro hconsents hsome
          exact hconsents hsome.symm hpolicy p hp hfits
      · constructor
        · intro _ _
          exact hconsents
        · intro _
          cases hcommit : commitQuarantineImport serde policy q st with
          | mk answer st' =>
              rw [hcommit] at hfails hkeeps
              cases answer with
              | ok u => exact absurd ⟨u, rfl⟩ hfails
              | error e =>
                  rintro (⟨r, hr⟩ | hne)
                  · cases hr
                  · exact absurd hkeeps hne

end Commit

/-- The call of the manager is the commit, with its error among those of the other calls. -/
theorem StoreCall.run_commitQuarantineImport (serde : Serde VaultPayloadDto)
    (policy : PolicyContext) (q : QuarantinedImport) (st : VaultState) :
    (StoreCall.commitQuarantineImport policy q).run serde st =
      ((ViperVault.commitQuarantineImport serde policy q st).1.mapError .import,
        (ViperVault.commitQuarantineImport serde policy q st).2) := by
  cases st with
  | locked => rfl
  | unlocked s =>
      simp only [StoreCall.run, ViperVault.commitQuarantineImport, withUnlockedPayloadMut]
      cases decodePayloadFromPlaintextJson serde s.plaintextJson with
      | none => rfl
      | some p =>
          simp only [StoreCall.body, run_mapError]
          cases encodePayloadToPlaintextJson serde
              ((commitQuarantinedImportIntoPayload policy q).run p).2 with
          | none => rfl
          | some newJson => rfl

/-! ## Every run -/

namespace World

/-- A step that is a commit obeys the session that it finds. -/
def CommitObeys (env : Env) (w : World) : Event → Prop
  | .advance i => ∀ policy q w',
      w.calls[i]? = some (.update (.store (.commitQuarantineImport policy q)) false) →
      w.step env (.advance i) = some w' →
      ObeysSession env.serde w.shared.state
        ((commitQuarantineImport env.serde policy q w.shared.state).1, w'.shared.state)
  | _ => True

/-- The session consents to a commit which is the next step of a call. -/
def CommitConsented (env : Env) (w : World) : Event → Prop
  | .advance i => ∀ policy q,
      w.calls[i]? = some (.update (.store (.commitQuarantineImport policy q)) false) →
      Consents env.serde policy q w.shared.state
  | _ => True

/-- The commit is what such a step does to the state. -/
theorem step_commit {env : Env} {w : World} {i : Nat} {policy : PolicyContext}
    {q : QuarantinedImport}
    (hcall : w.calls[i]? = some (.update (.store (.commitQuarantineImport policy q)) false)) :
    ∃ w', w.step env (.advance i) = some w' ∧
      w'.shared.state = (commitQuarantineImport env.serde policy q w.shared.state).2 := by
  simp only [step, hcall, Option.bind_some, Call.advance, Option.map_some, Option.some.injEq,
    exists_eq_left', SessionUpdate.apply, StoreCall.run_commitQuarantineImport]

theorem commitObeys_iff {env : Env} (hserde : env.serde.Lawful) (w : World) (ev : Event) :
    CommitObeys env w ev ↔ CommitConsented env w ev := by
  cases ev with
  | advance i =>
      constructor
      · intro hobeys policy q hcall
        obtain ⟨w', hstep, hstate⟩ := step_commit hcall
        apply (commit_obeysSession_iff hserde policy q w.shared.state).mp
        have hhere := hobeys policy q w' hcall hstep
        rwa [hstate] at hhere
      · intro hconsented policy q w' hcall hstep
        obtain ⟨w'', hstep', hstate⟩ := step_commit hcall
        cases Option.some.inj (hstep.symm.trans hstep')
        rw [hstate]
        exact (commit_obeysSession_iff hserde policy q w.shared.state).mpr
          (hconsented policy q hcall)
  | _ => exact Iff.rfl

/-- A quarantined import of one entry. -/
def tokenImport : QuarantinedImport where
  format := .otpAuthTotpUriList
  payload := ⟨[tokenEntry]⟩
  checked := by decide

/-- A request for a decoy session on an empty payload. -/
def decoyUnlock : UnlockRequest where
  plaintextJson := payloadBytes ⟨[]⟩
  timeout := 60
  authStrength := .strong
  unlockOutcome := .decoy
  runtimeState := .notDebugged

/-- The state that the request leads to. -/
def decoyState : VaultState :=
  .unlockWithPlaintextJsonWithContext (payloadBytes ⟨[]⟩) .strong .decoy .notDebugged

/-- A decoy session is opened, and a caller with a primary policy is about to commit. -/
def commitIntoDecoy : List Event :=
  [.invoke (.unlock decoyUnlock), .advance 0, .advance 0,
   .invoke (.update (.store (.commitQuarantineImport ⟨.primary, .notDebugged⟩ tokenImport)))]

/-- Imports obey the session that they write to exactly when it consents to what the caller's own
policy allows: in every run of the manager, for every commit on any state, and for the two calls
that quarantine and commit. -/
theorem imports_obey_session_iff {env : Env} (hserde : env.serde.Lawful) :
    (∀ es, EveryStep (step env) (CommitObeys env) new es ↔
      EveryStep (step env) (CommitConsented env) new es) ∧
    (∀ policy q st, ObeysSession env.serde st (commitQuarantineImport env.serde policy q st) ↔
      Consents env.serde policy q st) ∧
    ∀ parse policy intent format bytes st,
      (ObeysSession env.serde st
          (interopImportAndCommitIntoUnlockedVault env.serde parse policy intent format bytes st) ↔
        ∀ q, importInteropQuarantine parse policy intent format bytes = .ok q →
          Consents env.serde policy q st) ∧
      ∀ later, ObeysSession env.serde st
          (interopImportCommitReport env.serde parse policy intent format bytes st later) ↔
        ∀ q, importInteropQuarantine parse policy intent format bytes = .ok q →
          q.payload.entries ≠ [] ∨ getPayload env.serde later ≠ none →
          Consents env.serde policy q st := by
  refine ⟨?_, ?_, ?_⟩
  · intro es
    exact everyStep_congr (commitObeys_iff hserde)
  · intro policy q st
    exact commit_obeysSession_iff hserde policy q st
  · intro parse policy intent format bytes st
    refine ⟨interop_obeysSession_iff hserde policy st parse intent format bytes, ?_⟩
    intro later
    exact report_obeysSession_iff hserde policy st parse intent format bytes later

/-- The theorem on the run into the decoy session, and on a commit that the session consents to. -/
theorem imports_obey_session_iff_tokenImport :
    (EveryStep (step sampleEnv) (CommitObeys sampleEnv) new commitIntoDecoy ↔
      EveryStep (step sampleEnv) (CommitConsented sampleEnv) new commitIntoDecoy) ∧
    (ObeysSession payloadJson (sessionOn ⟨[]⟩)
        (commitQuarantineImport payloadJson ⟨.primary, .notDebugged⟩ tokenImport
          (sessionOn ⟨[]⟩)) ↔
      Consents payloadJson ⟨.primary, .notDebugged⟩ tokenImport (sessionOn ⟨[]⟩)) := by
  have hlawful : sampleEnv.serde.Lawful := payloadJson_lawful
  obtain ⟨hruns, hcommits, -⟩ := imports_obey_session_iff hlawful
  exact ⟨hruns commitIntoDecoy, hcommits _ _ _⟩

/-- The commit succeeds in the decoy session, and its entry is there afterwards. -/
theorem commitIntoDecoy_disobeys :
    ∃ w, exec (step sampleEnv) new commitIntoDecoy = some w ∧
      w.shared.state.currentUnlockOutcome = some .decoy ∧
      getPayload payloadJson w.shared.state = some ⟨[]⟩ ∧
      (commitQuarantineImport payloadJson ⟨.primary, .notDebugged⟩ tokenImport
        w.shared.state).1 = .ok () ∧
      getPayload payloadJson (commitQuarantineImport payloadJson ⟨.primary, .notDebugged⟩
        tokenImport w.shared.state).2 = some ⟨[tokenEntry]⟩ ∧
      ¬ CommitObeys sampleEnv w (.advance 1) := by
  have hbefore : getPayload payloadJson decoyState = some ⟨[]⟩ :=
    getPayload_payloadBytes (by decide) _ _ _
  have hdenied : ¬ decoyState.AllowsPlaintextImport := by
    rw [VaultState.allowsPlaintextImport_iff]
    rintro ⟨s, hs, hprimary, -⟩
    cases hs
    cases hprimary
  have hcommit : (commitQuarantineImport payloadJson ⟨.primary, .notDebugged⟩ tokenImport
        decoyState).1 = .ok () ∧
      getPayload payloadJson (commitQuarantineImport payloadJson ⟨.primary, .notDebugged⟩
        tokenImport decoyState).2 = some ⟨[tokenEntry]⟩ := by
    rcases commit_cases payloadJson_lawful ⟨.primary, .notDebugged⟩ tokenImport decoyState with
      ⟨-, hok, p, hp, -, hread⟩ | ⟨-, -, hconsents⟩
    · rw [hbefore] at hp
      cases hp
      exact ⟨hok, hread⟩
    · exact absurd (hconsents rfl ⟨[]⟩ hbefore (by decide)) hdenied
  refine ⟨_, rfl, rfl, hbefore, hcommit.1, hcommit.2, ?_⟩
  intro hobeys
  exact hdenied (hobeys _ _ _ rfl rfl (Or.inl ⟨(), hcommit.1⟩))

end World

end ViperVault
