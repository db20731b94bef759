import ViperVault.Clipboard.Copies
import ViperVault.Core.Replay
import ViperVault.Totp.Shown
import ViperVault.Totp.Stored

/-!
# What is copied

The manager with its code engine. A copy call answers with the secret or with the code of an entry
that the open session had when the call read it. The session is made by an unlock call and the
updates since, so that is where every value on the clipboard comes from; and a code that is not
copied for its block could not be copied at any other time.
-/

namespace ViperVault

open Foundation

/-- The manager with the engine of `totp_generate_formatted`; all of its errors are mapped to
one. -/
def Env.withEngine (serde : Serde VaultPayloadDto) (lib : TotpLibraries) (last : Instant) :
    Env where
  serde := serde
  totpGenerateFormatted totp unixTimeSecs :=
    (Totp.totpGenerateFormatted lib totp unixTimeSecs).toOption
  lastInstant := last

variable {serde : Serde VaultPayloadDto} {lib : TotpLibraries} {last : Instant}

/-! ## One read -/

/-- A read serves the first entry with the identifier, or it fails and the data is not at fault. -/
theorem getEntry_cases (serde : Serde VaultPayloadDto) (st : VaultState) (id : Uuid) :
    (∃ p entry, getPayload serde st = some p ∧
        p.entries.find? (fun e => e.metadata.id == id) = some entry ∧
        getEntry serde id st = .ok entry.toView) ∨
      ∃ e, e ≠ EntryError.invalidData ∧ getEntry serde id st = .error e := by
  have hlocked : getPayload serde st = none → getEntry serde id st = .error .vaultLocked := by
    intro hp
    cases st with
    | locked => rfl
    | unlocked s =>
        have hdecode : decodePayloadFromPlaintextJson serde s.plaintextJson = none := hp
        simp [getEntry, withUnlockedPayload, hdecode]
  cases hp : getPayload serde st with
  | none => exact Or.inr ⟨.vaultLocked, by decide, hlocked hp⟩
  | some p =>
      cases st with
      | locked => cases hp
      | unlocked s =>
          have hdecode : decodePayloadFromPlaintextJson serde s.plaintextJson = some p := hp
          cases hfind : p.entries.find? (fun e => e.metadata.id == id) with
          | none =>
              right
              refine ⟨.entryNotFound, by decide, ?_⟩
              simp [getEntry, withUnlockedPayload, hdecode, hfind]
          | some entry =>
              left
              refine ⟨p, entry, rfl, hfind, ?_⟩
              simp [getEntry, withUnlockedPayload, hdecode, hfind]

/-- The value is what a copy call of this kind asks of the entry: its secret, or a code of its block
that the engine generates and accepts. -/
inductive CopiedFrom (lib : TotpLibraries) (entry : VaultEntry) :
    DisclosureKind → SecretString → Prop
  | secret (timeout : Duration) (h : entry.secret.secret.exposeSecret ≠ []) :
      CopiedFrom lib entry (.copyEntrySecret timeout) entry.secret.secret
  | code {totp : TotpSecret} {shown : Text} {code : UInt32} (unixTimeSecs : UInt64)
      (timeout : Option Duration) (htotp : entry.secret.totp = some totp)
      (hshown : Totp.ShowsCode lib totp unixTimeSecs shown code) :
      CopiedFrom lib entry (.copyEntryTotp unixTimeSecs timeout) ⟨shown⟩

/-- The entry has a block for which the engine generates no code, at any time. -/
def NeverShows (lib : TotpLibraries) (entry : VaultEntry) : Prop :=
  ∃ totp e, entry.secret.totp = some totp ∧ e ≠ TotpError.cryptoFailure ∧
    ∀ unixTimeSecs, Totp.totpGenerateFormatted lib totp unixTimeSecs = .error (.err e)

/-- A block with a key shows a code at every time. -/
theorem exists_showsCode (hlib : lib.AcceptsKeys) {totp : TotpSecret}
    (hvalid : totp.validate = .ok ()) {raw : Bytes}
    (hraw : Totp.decodeBase32SecretStrict lib totp.secretB32.exposeSecret = .ok raw)
    (unixTimeSecs : UInt64) :
    ∃ shown code, Totp.totpGenerateFormatted lib totp unixTimeSecs = .ok shown ∧
      Totp.ShowsCode lib totp unixTimeSecs shown code := by
  obtain ⟨code, hgenerated, hstep⟩ :=
    Totp.exists_totpGenerateFromSecret hlib hvalid hraw unixTimeSecs
  have hlower : 6 ≤ totp.digits := by
    rcases (totp.validate_eq_ok.mp hvalid).1 with hd | hd | hd <;> rw [hd] <;> decide
  have hupper : totp.digits ≤ 8 := (Totp.params_of_validate hvalid).2.1
  have hwidth : 0 < totp.digits.toNat :=
    Nat.lt_of_lt_of_le (by decide) (UInt8.le_iff_toNat_le.mp hlower)
  have hcode : code.toNat < 10 ^ totp.digits.toNat := by
    simp only [Totp.stepCode?, hraw, Except.toOption, Option.bind_eq_bind, Option.bind_some,
      Option.bind_eq_some_iff, Option.some.injEq] at hstep
    obtain ⟨mac, -, hmac⟩ := hstep
    exact hmac ▸ Hotp.code_lt _ mac
  refine ⟨Hotp.text totp.digits.toNat code.toNat, code, ?_, ?_⟩
  · rw [Totp.totpGenerateFormatted, hgenerated, ok_bind,
      Totp.formatTotpCode_of_lt hlower hupper hcode]
  · refine ⟨hgenerated, Hotp.length_text hwidth hcode, fun c => Hotp.isDigit_of_mem_text,
      Hotp.value_text _ _, ?_⟩
    intro time window hwindow hin
    obtain ⟨found, hfound, hiff⟩ := Totp.exists_totpVerify hlib hvalid hraw time code hwindow
    rw [Hotp.value_text, UInt32.ofNat_toNat, hfound, hiff.mpr ⟨_, hin, hstep⟩]

/-- A block that has no code at one time has none at any. -/
theorem neverShows_of_none (hlib : lib.AcceptsKeys) {entry : VaultEntry} {totp : TotpSecret}
    {unixTimeSecs : UInt64} (htotp : entry.secret.totp = some totp)
    (h : (Totp.totpGenerateFormatted lib totp unixTimeSecs).toOption = none) :
    NeverShows lib entry := by
  rcases Totp.decoded_or_refused lib totp with ⟨hvalid, raw, hraw⟩ | ⟨e, hne, hrefuses, -⟩
  · obtain ⟨shown, code, hshown, -⟩ := exists_showsCode hlib hvalid hraw unixTimeSecs
    rw [hshown] at h
    cases h
  · refine ⟨totp, e, htotp, hne, fun time => ?_⟩
    rw [Totp.totpGenerateFormatted, hrefuses time]
    rfl

/-- A text that the engine answers shows a code. -/
theorem showsCode_of_some (hlib : lib.AcceptsKeys) {totp : TotpSecret} {unixTimeSecs : UInt64}
    {shown : Text} (h : (Totp.totpGenerateFormatted lib totp unixTimeSecs).toOption = some shown) :
    ∃ code, Totp.ShowsCode lib totp unixTimeSecs shown code := by
  rcases Totp.decoded_or_refused lib totp with ⟨hvalid, raw, hraw⟩ | ⟨e, -, hrefuses, -⟩
  · obtain ⟨shown', code, hshown, hcode⟩ := exists_showsCode hlib hvalid hraw unixTimeSecs
    rw [hshown] at h
    cases h
    exact ⟨code, hcode⟩
  · rw [Totp.totpGenerateFormatted, hrefuses unixTimeSecs] at h
    cases h

/-- What a call that reads answers is from the entry that it reads: the value of a copy, or
`InvalidData` for a code that the entry never has. -/
theorem read_cases (hlib : lib.AcceptsKeys) {request : DisclosureRequest} {st : VaultState}
    {answer : Except EntryError Disclosed}
    (h : request.read (.withEngine serde lib last) st = answer) :
    (∃ p entry, getPayload serde st = some p ∧
        p.entries.find? (fun e => e.metadata.id == request.entryId) = some entry ∧
        (∀ secret, answer = .ok (.clipboard secret) → CopiedFrom lib entry request.kind secret) ∧
        (answer = .error .invalidData → NeverShows lib entry)) ∨
      ∃ e, e ≠ EntryError.invalidData ∧ answer = .error e := by
  rcases getEntry_cases serde st request.entryId with ⟨p, entry, hp, hfind, hview⟩ | ⟨e, hne, hview⟩
  · left
    refine ⟨p, entry, hp, hfind, ?_⟩
    simp only [DisclosureRequest.read, Env.withEngine, hview, ok_bind] at h
    cases hkind : request.kind with
    | getEntryForOperation =>
        simp only [hkind] at h
        subst h
        exact ⟨by rintro _ ⟨⟩, by rintro ⟨⟩⟩
    | revealEntrySecret =>
        simp only [hkind, revealSecret] at h
        subst h
        split
        · exact ⟨by rintro _ ⟨⟩, by rintro ⟨⟩⟩
        · exact ⟨by rintro _ ⟨⟩, by rintro ⟨⟩⟩
    | copyEntrySecret timeout =>
        simp only [hkind, revealSecret] at h
        subst h
        split
        · exact ⟨by rintro _ ⟨⟩, by rintro ⟨⟩⟩
        · next hempty =>
            refine ⟨?_, by rintro ⟨⟩⟩
            rintro _ ⟨⟩
            exact .secret timeout (mt List.isEmpty_iff.mpr hempty)
    | copyEntryTotp unixTimeSecs timeout =>
        simp only [hkind] at h
        subst h
        cases htotp : entry.secret.totp with
        | none =>
            have hview : entry.toView.totp = none := htotp
            simp only [hview]
            exact ⟨by rintro _ ⟨⟩, by rintro ⟨⟩⟩
        | some totp =>
            have hview : entry.toView.totp = some totp := htotp
            simp only [hview]
            cases hshown : (Totp.totpGenerateFormatted lib totp unixTimeSecs).toOption with
            | none => exact ⟨by rintro _ ⟨⟩, fun _ => neverShows_of_none hlib htotp hshown⟩
            | some shown =>
                refine ⟨?_, by rintro ⟨⟩⟩
                rintro _ ⟨⟩
                obtain ⟨code, hcode⟩ := showsCode_of_some hlib hshown
                exact .code unixTimeSecs timeout htotp hcode
  · right
    refine ⟨e, hne, ?_⟩
    rw [← h]
    simp only [DisclosureRequest.read, Env.withEngine, hview]
    rfl

/-! ## Runs -/

namespace World

variable {env : Env} {w : World}

/-- The step in which the call reads its answer finds this state, which is an open session that has
the entry, the first with its identifier; the session is what an unlock call of the events before
opened, changed by updates that calls have returned from. -/
def Served (env : Env) (es : List Event) (i : Nat) (request : DisclosureRequest)
    (readFrom : VaultState) (entry : VaultEntry) : Prop :=
  ∃ es₁ es₂ w p unlock ran, es = es₁ ++ .advance i :: es₂ ∧ exec (step env) new es₁ = some w ∧
    w.calls[i]? = some (.disclose request .authorized) ∧ w.shared.state = readFrom ∧
    getPayload env.serde readFrom = some p ∧
    p.entries.find? (fun e => e.metadata.id == request.entryId) = some entry ∧
    .invoke (.unlock unlock) ∈ es₁ ∧ MadeBy env unlock ran readFrom ∧
    ∀ u ∈ ran, Returned u w

/-- An open session is made by an unlock call and by the updates of calls that have returned. -/
theorem madeBy_of_run (hserde : env.serde.Lawful) {es : List Event}
    (h : exec (step env) new es = some w) (hopen : w.shared.state.IsUnlocked) :
    ∃ unlock ran, .invoke (.unlock unlock) ∈ es ∧ MadeBy env unlock ran w.shared.state ∧
      ∀ u ∈ ran, Returned u w := by
  rcases opened_or_kept h hopen with ⟨hnew, -⟩ |
    ⟨es₁, i, es₂, m₀, m, unlock, g, rfl, hm₀, hcall, hm, hstate, hkept, hrest⟩
  · exact hnew.elim
  · have hreplay : w.shared.state = updated env m.shared.state (updatesIn env m es₂) :=
      foldl_outputs (φ := fun w : World => w.shared.state) KeepsSession
        (fun _ _ _ => state_of_keepsSession) hkept hrest
    refine ⟨unlock, updatesIn env m es₂, ?_, ?_, ?_⟩
    · exact List.mem_append_left _ ((openedBy_of_run hm₀).calls i unlock _ hcall)
    · rw [hreplay, hstate]
      exact madeBy_updated hserde unlock _
    · rintro ⟨j, op⟩ hu
      exact (((eachOnce_updatesIn hrest).all j op).mp hu).1

/-- A disclosure call that has returned has read, or a check of it has failed. -/
theorem exists_read_of_returned {es : List Event} {i : Nat} {request : DisclosureRequest}
    {answer : Except EntryError Disclosed} {readFrom : VaultState}
    (h : exec (step env) new es = some w)
    (hcall : w.calls[i]? = some (.disclose request (.returned answer readFrom))) :
    (∃ es₁ es₂ m, es = es₁ ++ .advance i :: es₂ ∧ exec (step env) new es₁ = some m ∧
        m.calls[i]? = some (.disclose request .authorized) ∧ m.shared.state = readFrom ∧
        request.read env readFrom = answer) ∨
      ∃ e, e ≠ EntryError.invalidData ∧ answer = .error e := by
  obtain ⟨es₁, es₂, m, pc, _, rfl, hm, hpc, -, rfl, hadvance⟩ :=
    exists_passing_step (P := fun pc => pc = .returned answer readFrom) (by rintro ⟨⟩) h hcall rfl
  cases pc with
  | start =>
      simp only [DisclosureRequest.advance] at hadvance
      split at hadvance
      · cases hadvance
        exact Or.inr ⟨.vaultLocked, by decide, rfl⟩
      · split at hadvance
        · cases hadvance
        · cases hadvance
          exact Or.inr ⟨.policyDenied, by decide, rfl⟩
  | policyChecked =>
      simp only [DisclosureRequest.advance] at hadvance
      split at hadvance
      · cases hadvance
        exact Or.inr ⟨.vaultLocked, by decide, rfl⟩
      · cases hadvance
        exact Or.inr ⟨.reauthRequired, by decide, rfl⟩
      · cases hadvance
  | authorized =>
      simp only [DisclosureRequest.advance, Option.some.injEq,
        DisclosePc.returned.injEq] at hadvance
      obtain ⟨hread, rfl⟩ := hadvance
      exact Or.inl ⟨es₁, es₂, m, rfl, hm, hpc, rfl, hread⟩
  | returned answer' readFrom' => cases hadvance

/-- What a disclosure call has returned is from an entry that the session had when the call read. -/
theorem served_of_returned (hserde : serde.Lawful) (hlib : lib.AcceptsKeys) {es : List Event}
    {i : Nat} {request : DisclosureRequest} {answer : Except EntryError Disclosed}
    {readFrom : VaultState} (h : exec (step (.withEngine serde lib last)) new es = some w)
    (hcall : w.calls[i]? = some (.disclose request (.returned answer readFrom))) :
    (∃ entry, Served (.withEngine serde lib last) es i request readFrom entry ∧
        (∀ secret, answer = .ok (.clipboard secret) → CopiedFrom lib entry request.kind secret) ∧
        (answer = .error .invalidData → NeverShows lib entry)) ∨
      ∃ e, e ≠ EntryError.invalidData ∧ answer = .error e := by
  rcases exists_read_of_returned h hcall with
    ⟨es₁, es₂, m, rfl, hm, hpc, rfl, hread⟩ | hfailed
  · rcases read_cases hlib hread with ⟨p, entry, hp, hfind, hvalues⟩ | hfailed
    · have hopen : m.shared.state.IsUnlocked := by
        cases hstate : m.shared.state with
        | locked =>
            rw [hstate] at hp
            cases hp
        | unlocked session => trivial
      obtain ⟨unlock, ran, hasked, hmade, hreturned⟩ := madeBy_of_run hserde hm hopen
      refine Or.inl ⟨entry, ?_, hvalues⟩
      exact ⟨es₁, es₂, m, p, unlock, ran, rfl, hm, hpc, rfl, hp, hfind, hasked, hmade,
        hreturned⟩
    · exact Or.inr hfailed
  · exact Or.inr hfailed

end World

namespace CopyWorld

variable {s : CopyWorld}

/-- A vault with one code entry, in a strong primary session. -/
def codeUnlock : UnlockRequest where
  plaintextJson := payloadBytes ⟨[Totp.sampleEntry Totp.sampleTotp]⟩
  timeout := 60
  authStrength := .strong
  unlockOutcome := .primary
  runtimeState := .notDebugged

/-- The vault is unlocked and a copy of the code at the end of the second time step is read, to stay
for the default timeout. -/
def readCode : List CopyEvent :=
  [.manager (.invoke (.unlock codeUnlock)), .manager (.advance 0), .manager (.advance 0),
    .manager (.invoke (.disclose (.copyEntryTotp 1 59 none))), .manager (.advance 1),
    .manager (.advance 1), .manager (.advance 1)]

/-- The copy goes to the clipboard. -/
def copyCode : List CopyEvent := readCode ++ [.handOver 1]

/-- The manager of the sample. -/
abbrev codeEnv : Env :=
  .withEngine payloadJson Totp.sampleTotpLibraries World.sampleEnv.lastInstant

theorem read_codeUnlock :
    (DisclosureRequest.copyEntryTotp 1 59 none).read codeEnv codeUnlock.opened =
      .ok (.clipboard ⟨"287082".toList⟩) := by
  have hdecode : decodePayloadFromPlaintextJson payloadJson codeUnlock.plaintextJson =
      some ⟨[Totp.sampleEntry Totp.sampleTotp]⟩ := getPayload_sessionOn (by decide)
  have hentry : getEntry payloadJson 1 codeUnlock.opened =
      .ok (Totp.sampleEntry Totp.sampleTotp).toView := by
    simp only [getEntry, withUnlockedPayload, UnlockRequest.opened,
      VaultState.unlockWithPlaintextJsonWithContext, hdecode]
    rfl
  have hcode : Totp.totpGenerateFormatted Totp.sampleTotpLibraries Totp.sampleTotp 59 =
      .ok "287082".toList := by decide +kernel
  have htotp : (Totp.sampleEntry Totp.sampleTotp).toView.totp = some Totp.sampleTotp := rfl
  simp only [DisclosureRequest.read, DisclosureRequest.copyEntryTotp, codeEnv, Env.withEngine,
    hentry, ok_bind, htotp, hcode]
  rfl

/-- Whatever the interleaving of manager, guard, timer tasks and other applications, every value
that was ever copied to the clipboard is the secret of an entry that the session had when the call
read it, as it was stored, or a code of its block that verifies; and a copy of a code that fails for
its data could not succeed at any other time. -/
theorem copies_are_of_entries (hserde : serde.Lawful) (hlib : lib.AcceptsKeys)
    {es : List CopyEvent} {content : Option Text}
    (h : exec (step (.withEngine serde lib last)) (new content) es = some s) :
    (∀ (k : Nat) c, s.board.calls[k]? = some c → ∃ i request readFrom entry,
        s.handed[k]? = some i ∧ s.world.calls[i]? =
          some (.disclose request (.returned (.ok (.clipboard c.secret)) readFrom)) ∧
        World.Served (.withEngine serde lib last) (es.filterMap managerEvent) i request readFrom
          entry ∧ CopiedFrom lib entry request.kind c.secret) ∧
      ∀ (i : Nat) request readFrom, s.world.calls[i]? =
          some (.disclose request (.returned (.error .invalidData) readFrom)) →
        ∃ entry, World.Served (.withEngine serde lib last) (es.filterMap managerEvent) i request
          readFrom entry ∧ NeverShows lib entry := by
  have hlinked : s.Linked :=
    exec_invariant Linked (fun _ _ _ hs hstep => linked_step hs hstep) (linked_new content) h
  have hworld := exec_world h
  constructor
  · intro k c hc
    obtain ⟨i, request, readFrom, hi, hcall, -⟩ :=
      hlinked.source k c.secret c.timeout (by simp [hc])
    rcases World.served_of_returned hserde hlib hworld hcall with
      ⟨entry, hserved, hcopied, -⟩ | ⟨e, -, hfailed⟩
    · exact ⟨i, request, readFrom, entry, hi, hcall, hserved, hcopied _ rfl⟩
    · cases hfailed
  · intro i request readFrom hcall
    rcases World.served_of_returned hserde hlib hworld hcall with
      ⟨entry, hserved, -, hnever⟩ | ⟨e, hne, hfailed⟩
    · exact ⟨entry, hserved, hnever rfl⟩
    · cases hfailed
      exact absurd rfl hne

/-- The theorem on a copy of a code, which stays for the default timeout. -/
theorem copies_are_of_entries_code :
    ∃ s, exec (step codeEnv) (new none) copyCode = some s ∧
      s.board.clipboard = some "287082".toList ∧
      (∀ (k : Nat) c, s.board.calls[k]? = some c → ∃ i request readFrom entry,
        s.handed[k]? = some i ∧ s.world.calls[i]? =
          some (.disclose request (.returned (.ok (.clipboard c.secret)) readFrom)) ∧
        World.Served codeEnv (copyCode.filterMap managerEvent) i request readFrom entry ∧
        CopiedFrom Totp.sampleTotpLibraries entry request.kind c.secret) ∧
      ∀ (i : Nat) request readFrom, s.world.calls[i]? =
          some (.disclose request (.returned (.error .invalidData) readFrom)) →
        ∃ entry, World.Served codeEnv (copyCode.filterMap managerEvent) i request readFrom entry ∧
          NeverShows Totp.sampleTotpLibraries entry := by
  have hread : ∃ s₀, exec (step codeEnv) (new none) readCode = some s₀ ∧
      s₀.world.calls[1]? = some (.disclose (.copyEntryTotp 1 59 none) (.returned
        ((DisclosureRequest.copyEntryTotp 1 59 none).read codeEnv codeUnlock.opened)
        codeUnlock.opened)) ∧ s₀.handed = [] ∧ s₀.board = .new none :=
    ⟨_, rfl, rfl, rfl, rfl⟩
  obtain ⟨s₀, hs₀, hcall, hhanded, hboard⟩ := hread
  rw [read_codeUnlock] at hcall
  have hstep : s₀.step codeEnv (.handOver 1) =
      some { s₀ with
        board := ClipboardWorld.afterCopy (.new none) ⟨"287082".toList⟩ (.fromSecs 30)
        handed := [1] } := by
    simp only [step, hcall, hhanded, hboard]
    rfl
  have hlast := exec_cons_eq_some.mpr ⟨_, hstep, exec_nil _⟩
  have hrun : exec (step codeEnv) (new none) copyCode = some _ :=
    exec_append_eq_some.mpr ⟨s₀, hs₀, hlast⟩
  refine ⟨_, hrun, rfl, ?_⟩
  exact copies_are_of_entries payloadJson_lawful Totp.sampleTotpLibraries_acceptsKeys hrun

end CopyWorld

end ViperVault
