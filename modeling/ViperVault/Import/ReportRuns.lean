import ViperVault.Import.InSession

/-!
# The import report among other calls

`interop_import_commit_report` commits in one critical section and counts the entries in another.
The other calls of the manager and its timers run in between.
-/

namespace ViperVault

open Foundation

namespace World

/-- The payload that is read back after a step of the manager. Only the writes of a lock, of an
unlock, of an expired timer and of a store call matter. -/
def payloadAfter (env : Env) (w : World) : Event → Option VaultPayload
  | .advance i =>
      match w.calls[i]? with
      | some (.lock (.drawn _)) => none
      | some (.unlock request (.drawn _)) =>
          decodePayloadFromPlaintextJson env.serde request.plaintextJson
      | some (.update (.store call) false) =>
          match getPayload env.serde w.shared.state with
          | none => none
          | some p => if (call.body.run p).2.Valid then some (call.body.run p).2 else none
      | _ => getPayload env.serde w.shared.state
  | .timer t .lockState =>
      match w.shared.tasks[t]? with
      | none => getPayload env.serde w.shared.state
      | some task =>
          if w.shared.generation = task.generation then none
          else getPayload env.serde w.shared.state
  | _ => getPayload env.serde w.shared.state

@[simp] theorem getPayload_setRuntimePolicyState (serde : Serde VaultPayloadDto)
    (runtimeState : RuntimeInspectionState) (st : VaultState) :
    getPayload serde (st.setRuntimePolicyState runtimeState) = getPayload serde st := by
  cases st <;> rfl

@[simp] theorem getPayload_markStrongReauthRequired (serde : Serde VaultPayloadDto)
    (st : VaultState) :
    getPayload serde st.markStrongReauthRequired.2 = getPayload serde st := by
  cases st <;> rfl

@[simp] theorem getPayload_clearStrongReauthRequirement (serde : Serde VaultPayloadDto)
    (st : VaultState) :
    getPayload serde st.clearStrongReauthRequirement.2 = getPayload serde st := by
  cases st <;> rfl

/-- What a step of the manager leaves to be read. -/
theorem getPayload_step {env : Env} (hserde : env.serde.Lawful) {w w' : World} {ev : Event}
    (h : w.step env ev = some w') :
    getPayload env.serde w'.shared.state = w.payloadAfter env ev := by
  rcases step_cases h with ⟨request, rfl, rfl⟩ | ⟨i, call, call', sh', rfl, hcall, hadv, rfl⟩ |
    ⟨t, task, action, sh', rfl, htask, htimer, rfl⟩ | ⟨d, rfl, -, rfl⟩
  · rfl
  · simp only [payloadAfter, hcall]
    cases Call.moves_of_advance hadv with
    | cancelUnlock request g => simp
    | cancelLock g => simp
    | update op =>
        cases op with
        | store call =>
            cases hp : getPayload env.serde w.shared.state with
            | none =>
                simp only [SessionUpdate.apply, StoreCall.run,
                  withUnlockedPayloadMut_of_getPayload_none call.body.run hp, hp]
            | some p =>
                simp only [SessionUpdate.apply, (StoreCall.run_of_getPayload hserde hp call).2]
        | _ => simp [SessionUpdate.apply]
    | _ => rfl
  · simp only [payloadAfter]
    cases Shared.timerMoves_of_step htimer with
    | lock hphase hcurrent =>
        simp only [htask, if_pos hcurrent]
        rfl
    | stale hphase hcurrent =>
        simp only [htask, if_neg hcurrent]
        rfl
    | _ => rfl
  · rfl

end World

/-- The payloads that are read right before and right after a commit. -/
structure OwnCommit where
  before : Option VaultPayload
  after : Option VaultPayload

/-- A commit that took the state `st` to `st'`. -/
def OwnCommit.of (env : Env) (st st' : VaultState) : OwnCommit :=
  ⟨getPayload env.serde st, getPayload env.serde st'⟩

/-- The arguments of a report call. -/
structure ReportRequest where
  policy : PolicyContext
  intent : ImportIntent
  format : InteropFormat
  bytes : Bytes

/-- Where a report call stands. Nothing reads the commit that it keeps. -/
inductive ReportPc
  | start
  | quarantined (quarantined : QuarantinedImport)
  | committed (importedEntries : Nat) (commit : OwnCommit)
  | returned (answer : Except ImportError InteropImportReport) (commit : Option OwnCommit)

/-- The manager in another state. -/
def World.withState (w : World) (st : VaultState) : World :=
  { w with shared := { w.shared with state := st } }

/-- The manager with a report call on it. -/
structure ReportWorld where
  world : World
  report : ReportPc

/-- A step of the manager, or the next one of the report call. -/
inductive ReportEvent
  | manager (ev : Event)
  | report

section Report

variable (env : Env) (parse : PolicyContext → Bytes → Except ImportError VaultPayload)
  (request : ReportRequest)

/-- The second critical section of a report call: the count, and the report on it. -/
def countEntries (importedEntries : Nat) (st : VaultState) :
    Except ImportError InteropImportReport := do
  let total ← okOr (withUnlockedPayload env.serde (fun p => p.entries.length) st) .policyDenied
  return ⟨request.format, importedEntries, total⟩

/-- The next step of a report call. -/
def ReportPc.advance (pc : ReportPc) (st : VaultState) : Option (ReportPc × VaultState) :=
  match pc with
  | .start =>
      match importInteropQuarantine parse request.policy request.intent request.format
          request.bytes with
      | .error e => some (.returned (.error e) none, st)
      | .ok q => some (.quarantined q, st)
  | .quarantined q =>
      let (answer, st') := commitQuarantineImport env.serde request.policy q st
      match answer with
      | .error e => some (.returned (.error e) (some (.of env st st')), st')
      | .ok () => some (.committed q.payload.entries.length (.of env st st'), st')
  | .committed importedEntries commit =>
      some (.returned (countEntries env request importedEntries st) (some commit), st)
  | .returned .. => none

/-- One event. -/
def ReportWorld.step (s : ReportWorld) : ReportEvent → Option ReportWorld
  | .manager ev => (s.world.step env ev).map fun w => { s with world := w }
  | .report =>
      (s.report.advance env parse request s.world.shared.state).map fun r =>
        ⟨s.world.withState r.2, r.1⟩

end Report

/-- The answer describes the commit: a report has the number of entries right after it, which is
that right before it and the imported ones; an error is answered only if it changed nothing. -/
def Describes (answer : Except ImportError InteropImportReport) (commit : Option OwnCommit) :
    Prop :=
  match answer with
  | .ok r => ∃ c before after, commit = some c ∧ c.before = some before ∧ c.after = some after ∧
      r.totalEntriesAfterCommit = after.entries.length ∧
      r.totalEntriesAfterCommit = before.entries.length + r.importedEntries
  | .error _ => ∀ c, commit = some c → c.after = c.before

namespace ReportWorld

/-- The answer that was given, or the one that the count would give now, describes the commit. -/
def Right (env : Env) (request : ReportRequest) (s : ReportWorld) : Prop :=
  match s.report with
  | .start => True
  | .quarantined _ => True
  | .committed importedEntries commit =>
      Describes (countEntries env request importedEntries s.world.shared.state) (some commit)
  | .returned answer commit => Describes answer commit

/-- The payload has as many entries as right after the commit, or there is none and nothing was
imported. -/
def SameCount (importedEntries : Nat) (commit : OwnCommit) (payload : Option VaultPayload) :
    Prop :=
  match payload with
  | some p => commit.after.map (fun a => a.entries.length) = some p.entries.length
  | none => importedEntries = 0

/-- Between the commit and the count, a step of the manager leaves a payload of the same count:
a lock or a timer locks only where nothing was imported, an unlock brings as many entries as there
were, and a store call changes none of the entries' number. -/
def Undisturbed (env : Env) (s : ReportWorld) : ReportEvent → Prop
  | .manager ev =>
      match s.report with
      | .committed importedEntries commit =>
          SameCount importedEntries commit (s.world.payloadAfter env ev)
      | _ => True
  | .report => True

/-- A commit that is waiting for its count appended the imported entries. -/
def Appended (s : ReportWorld) : Prop :=
  match s.report with
  | .committed importedEntries commit => ∃ before imported : VaultPayload,
      commit.before = some before ∧
      commit.after = some ⟨before.entries ++ imported.entries⟩ ∧
      importedEntries = imported.entries.length
  | _ => True

variable {env : Env} {parse : PolicyContext → Bytes → Except ImportError VaultPayload}
  {request : ReportRequest} {s s' : ReportWorld} {ev : ReportEvent}

/-- A count describes the commit exactly if it finds as many entries as there were right after
it. -/
theorem describes_countEntries_iff {before imported : VaultPayload} {commit : OwnCommit}
    (hbefore : commit.before = some before)
    (hafter : commit.after = some ⟨before.entries ++ imported.entries⟩) (st : VaultState) :
    Describes (countEntries env request imported.entries.length st) (some commit) ↔
      SameCount imported.entries.length commit (getPayload env.serde st) := by
  unfold countEntries
  rw [withUnlockedPayload_eq_map]
  cases getPayload env.serde st with
  | none =>
      have hsame : commit.after = commit.before ↔ imported.entries = [] := by
        rw [hbefore, hafter]
        cases before
        simp
      simp [Describes, SameCount, hsame]
  | some p =>
      simp [Describes, SameCount, hbefore, hafter, pure, Except.pure, eq_comm]

/-- The critical section of the commit: the call returns and nothing has changed, or it goes on
and the imported entries were appended. -/
theorem advance_quarantined (hserde : env.serde.Lawful)
    (parse : PolicyContext → Bytes → Except ImportError VaultPayload) (request : ReportRequest)
    (q : QuarantinedImport) (st : VaultState) :
    (∃ e commit st', (ReportPc.quarantined q).advance env parse request st =
        some (.returned (.error e) (some commit), st') ∧ commit.after = commit.before) ∨
      ∃ before commit st', (ReportPc.quarantined q).advance env parse request st =
          some (.committed q.payload.entries.length commit, st') ∧
        commit.before = some before ∧
        commit.after = some ⟨before.entries ++ q.payload.entries⟩ ∧
        getPayload env.serde st' = commit.after := by
  cases hcommit : commitQuarantineImport env.serde request.policy q st with
  | mk answer st' =>
      have hcases := commit_cases hserde request.policy q st
      rw [hcommit] at hcases
      rcases hcases with ⟨-, hok, p, hp, -, hread⟩ | ⟨hfails, hkeeps, -⟩
      · right
        obtain rfl : answer = .ok () := hok
        refine ⟨p, .of env st st', st', ?_, hp, hread, rfl⟩
        simp only [ReportPc.advance, hcommit]
      · left
        cases answer with
        | ok u => exact absurd ⟨u, rfl⟩ hfails
        | error e =>
            refine ⟨e, .of env st st', st', ?_, hkeeps⟩
            simp only [ReportPc.advance, hcommit]

/-- A report call that nothing interrupts answers as the function does on the state it finds. -/
theorem exec_alone (env : Env) (parse : PolicyContext → Bytes → Except ImportError VaultPayload)
    (request : ReportRequest) (w : World) :
    ∃ es t answer commit, (∀ ev ∈ es, ev = .report) ∧
      exec (step env parse request) ⟨w, .start⟩ es = some t ∧
      t.report = .returned answer commit ∧
      interopImportCommitReport env.serde parse request.policy request.intent request.format
        request.bytes w.shared.state t.world.shared.state = (answer, t.world.shared.state) := by
  cases hparse : importInteropQuarantine parse request.policy request.intent request.format
      request.bytes with
  | error e =>
      refine ⟨[.report], ⟨w, .returned (.error e) none⟩, .error e, none, by simp, ?_, rfl, ?_⟩
      · simp [exec, step, ReportPc.advance, hparse, World.withState]
      · simp [interopImportCommitReport, hparse]
  | ok q =>
      rcases hcommit : commitQuarantineImport env.serde request.policy q w.shared.state with
        ⟨answer, st'⟩
      cases answer with
      | error e =>
          refine ⟨[.report, .report],
            ⟨w.withState st', .returned (.error e) (some (.of env w.shared.state st'))⟩,
            .error e, some (.of env w.shared.state st'), by simp, ?_, rfl, ?_⟩
          · simp [exec, step, ReportPc.advance, hparse, hcommit, World.withState]
          · simp [interopImportCommitReport, hparse, hcommit, World.withState]
      | ok u =>
          let answer := countEntries env request q.payload.entries.length st'
          refine ⟨[.report, .report, .report],
            ⟨w.withState st', .returned answer (some (.of env w.shared.state st'))⟩,
            answer, some (.of env w.shared.state st'), by simp, ?_, rfl, ?_⟩
          · simp [exec, step, ReportPc.advance, hparse, hcommit, World.withState, answer]
          · simp only [interopImportCommitReport, hparse, hcommit, countEntries, answer,
              World.withState]
            cases withUnlockedPayload env.serde (fun p => p.entries.length) st' <;> rfl

/-- The step: what was appended stays on record, and an answer that is right stays right exactly
if the step does not disturb the count. -/
theorem right_step_iff (hserde : env.serde.Lawful) (happended : s.Appended)
    (h : s.step env parse request ev = some s') :
    s'.Appended ∧ (s.Right env request → (s'.Right env request ↔ s.Undisturbed env ev)) := by
  obtain ⟨w, pc⟩ := s
  cases ev with
  | manager ev =>
      obtain ⟨w', hw', rfl⟩ := Option.map_eq_some_iff.mp h
      refine ⟨happended, ?_⟩
      cases pc with
      | committed importedEntries commit =>
          obtain ⟨before, imported, hbefore, hafter, rfl⟩ := happended
          intro _
          change Describes _ _ ↔ SameCount _ _ _
          rw [describes_countEntries_iff hbefore hafter, World.getPayload_step hserde hw']
      | _ => exact fun hright => iff_of_true hright trivial
  | report =>
      obtain ⟨⟨pc', st'⟩, hadvance, rfl⟩ := Option.map_eq_some_iff.mp h
      cases pc with
      | start =>
          simp only [ReportPc.advance] at hadvance
          split at hadvance
          · cases hadvance
            refine ⟨trivial, fun _ => iff_of_true ?_ trivial⟩
            intro c hc
            cases hc
          · cases hadvance
            exact ⟨trivial, fun _ => Iff.rfl⟩
      | quarantined q =>
          rcases advance_quarantined hserde parse request q w.shared.state with
            ⟨e, commit, st, hstep, hsame⟩ | ⟨before, commit, st, hstep, hbefore, hafter, hread⟩
          · cases hstep.symm.trans hadvance
            refine ⟨trivial, fun _ => iff_of_true ?_ trivial⟩
            intro c hc
            cases hc
            exact hsame
          · cases hstep.symm.trans hadvance
            refine ⟨⟨before, q.payload, hbefore, hafter, rfl⟩, fun _ => iff_of_true ?_ trivial⟩
            refine (describes_countEntries_iff hbefore hafter st').mpr ?_
            rw [hread, hafter]
            simp [SameCount, hafter]
      | committed importedEntries commit =>
          cases hadvance
          exact ⟨trivial, fun hright => iff_of_true hright trivial⟩
      | returned answer commit => cases hadvance

/-- In every run of the manager beside a report call, the answer describes the commit, given or to
be given, exactly if no step between commit and count disturbs the count. -/
theorem right_of_run_iff (hserde : env.serde.Lawful) {w : World} {es : List ReportEvent}
    (hrun : ∃ t, exec (step env parse request) ⟨w, .start⟩ es = some t) :
    (∀ pre t, pre <+: es → exec (step env parse request) ⟨w, .start⟩ pre = some t →
        t.Right env request) ↔
      EveryStep (step env parse request) (Undisturbed env) ⟨w, .start⟩ es := by
  have hstart : Appended ⟨w, .start⟩ := trivial
  have hiff := invariant_iff_everyStep (fun _ _ => True) (Undisturbed env)
    (fun s => s.Appended ∧ s.Right env request) ?_ ⟨hstart, trivial⟩ everyStep_true hrun
  · rw [← hiff]
    constructor
    · intro h pre t hpre ht
      refine ⟨?_, h pre t hpre ht⟩
      exact exec_invariant Appended (fun s ev s' hs hstep => (right_step_iff hserde hs hstep).1)
        hstart ht
    · intro h pre t hpre ht
      exact (h pre t hpre ht).2
  · rintro s ev s' ⟨happended, hright⟩ - hstep
    obtain ⟨happended', hiff⟩ := right_step_iff hserde happended hstep
    exact (and_iff_right happended').trans (hiff hright)

/-! ## Two interruptions -/

/-- A parser that reads one entry. -/
def tokenParse (_ : PolicyContext) (_ : Bytes) : Except ImportError VaultPayload :=
  .ok ⟨[tokenEntry]⟩

/-- A call that the policy lets in. -/
def tokenRequest : ReportRequest where
  policy := ⟨.primary, .notDebugged⟩
  intent := .userConfirmed
  format := .otpAuthTotpUriList
  bytes := [0]

/-- A session on a payload without entries. -/
def emptyWorld : World := ⟨{ Shared.new with state := sessionOn ⟨[]⟩ }, []⟩

/-- The sample call before its count: it has imported the one entry. -/
theorem exec_tokenRequest :
    ∃ st, getPayload payloadJson st = some ⟨[tokenEntry]⟩ ∧
      exec (step World.sampleEnv tokenParse tokenRequest) ⟨emptyWorld, .start⟩ [.report, .report] =
        some ⟨emptyWorld.withState st, .committed 1 ⟨some ⟨[]⟩, some ⟨[tokenEntry]⟩⟩⟩ := by
  have hempty : getPayload payloadJson (sessionOn ⟨[]⟩) = some ⟨[]⟩ :=
    getPayload_sessionOn (by decide)
  have hparse : importInteropQuarantine tokenParse tokenRequest.policy tokenRequest.intent
      tokenRequest.format tokenRequest.bytes = .ok World.tokenImport := rfl
  obtain ⟨hok, hread⟩ := commit_of_fits payloadJson_lawful tokenRequest.policy World.tokenImport
    (sessionOn ⟨[]⟩) rfl hempty (by decide)
  rcases hcommit : commitQuarantineImport payloadJson tokenRequest.policy World.tokenImport
    (sessionOn ⟨[]⟩) with ⟨answer, st⟩
  rw [hcommit] at hok hread
  obtain rfl : answer = .ok () := hok
  have hread : getPayload payloadJson st = some ⟨[tokenEntry]⟩ := hread
  have hadvance : (ReportPc.quarantined World.tokenImport).advance World.sampleEnv tokenParse
      tokenRequest (sessionOn ⟨[]⟩) =
        some (.committed 1 (.of World.sampleEnv (sessionOn ⟨[]⟩) st), st) := by
    have hcommit : commitQuarantineImport World.sampleEnv.serde tokenRequest.policy
        World.tokenImport (sessionOn ⟨[]⟩) = (.ok (), st) := hcommit
    simp only [ReportPc.advance, hcommit]
    rfl
  have hown : OwnCommit.of World.sampleEnv (sessionOn ⟨[]⟩) st =
      ⟨some ⟨[]⟩, some ⟨[tokenEntry]⟩⟩ := congrArg₂ OwnCommit.mk hempty hread
  rw [hown] at hadvance
  refine ⟨st, hread, exec_cons_eq_some.mpr ⟨⟨emptyWorld, .quarantined World.tokenImport⟩, rfl, ?_⟩⟩
  refine exec_cons_eq_some.mpr ⟨_, ?_, rfl⟩
  have hstate : emptyWorld.shared.state = sessionOn ⟨[]⟩ := rfl
  simp only [step, hstate, hadvance, Option.map_some]

/-- The theorem on a call that is not interrupted. -/
theorem right_of_run_iff_tokenRequest :
    (∃ t, exec (step World.sampleEnv tokenParse tokenRequest) ⟨emptyWorld, .start⟩
        [.report, .report, .report] = some t) ∧
      ((∀ pre t, pre <+: [.report, .report, .report] →
          exec (step World.sampleEnv tokenParse tokenRequest) ⟨emptyWorld, .start⟩ pre = some t →
          t.Right World.sampleEnv tokenRequest) ↔
        EveryStep (step World.sampleEnv tokenParse tokenRequest) (Undisturbed World.sampleEnv)
          ⟨emptyWorld, .start⟩ [.report, .report, .report]) := by
  obtain ⟨st, -, hcommitted⟩ := exec_tokenRequest
  have hrun : ∃ t, exec (step World.sampleEnv tokenParse tokenRequest) ⟨emptyWorld, .start⟩
      ([.report, .report] ++ [.report]) = some t :=
    ⟨_, exec_append_eq_some.mpr ⟨_, hcommitted, rfl⟩⟩
  exact ⟨hrun, right_of_run_iff payloadJson_lawful hrun⟩

/-- The vault is locked between commit and count. -/
def lockBeforeCount : List ReportEvent :=
  [.report, .report] ++
    [.manager (.invoke .lock), .manager (.advance 0), .manager (.advance 0), .report]

/-- The imported entry is deleted between commit and count. -/
def deleteBeforeCount : List ReportEvent :=
  [.report, .report] ++
    [.manager (.invoke (.update (.store (.deleteEntry 2)))), .manager (.advance 0), .report]

/-- After a lock the call answers an error though it has imported an entry; after a deletion it
reports no entries though there was one right after its commit. -/
theorem interrupted_reports :
    (∃ t e commit, exec (step World.sampleEnv tokenParse tokenRequest) ⟨emptyWorld, .start⟩
        lockBeforeCount = some t ∧ t.report = .returned (.error e) (some commit) ∧
        commit.before = some ⟨[]⟩ ∧ commit.after = some ⟨[tokenEntry]⟩ ∧
        ¬ Describes (.error e) (some commit)) ∧
      ∃ t r commit, exec (step World.sampleEnv tokenParse tokenRequest) ⟨emptyWorld, .start⟩
        deleteBeforeCount = some t ∧ t.report = .returned (.ok r) (some commit) ∧
        r.totalEntriesAfterCommit = 0 ∧ commit.after = some ⟨[tokenEntry]⟩ ∧
        ¬ Describes (.ok r) (some commit) := by
  obtain ⟨st, hread, hcommitted⟩ := exec_tokenRequest
  constructor
  · refine ⟨_, .policyDenied, ⟨some ⟨[]⟩, some ⟨[tokenEntry]⟩⟩,
      exec_append_eq_some.mpr ⟨_, hcommitted, rfl⟩, rfl, rfl, rfl, ?_⟩
    intro h
    cases h _ rfl
  · let later := ((StoreCall.deleteEntry 2).run payloadJson st).2
    have hlater : getPayload payloadJson later = some ⟨[]⟩ := by
      rw [(StoreCall.run_of_getPayload payloadJson_lawful hread (.deleteEntry 2)).2]
      rfl
    have hcount : countEntries World.sampleEnv tokenRequest 1 later =
        .ok ⟨.otpAuthTotpUriList, 1, 0⟩ := by
      rw [countEntries, withUnlockedPayload_eq_map]
      have hlater : getPayload World.sampleEnv.serde later = some ⟨[]⟩ := hlater
      rw [hlater]
      rfl
    refine ⟨_, ⟨.otpAuthTotpUriList, 1, 0⟩, ⟨some ⟨[]⟩, some ⟨[tokenEntry]⟩⟩,
      exec_append_eq_some.mpr ⟨_, hcommitted, rfl⟩, ?_, rfl, rfl, ?_⟩
    · exact congrArg (fun answer => ReportPc.returned answer _) hcount
    · rintro ⟨c, before, after, hc, -, hafter, htotal, -⟩
      cases hc
      cases hafter
      cases htotal

end ReportWorld

end ViperVault
