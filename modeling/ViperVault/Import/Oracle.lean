import ViperVault.Backup.Coverage
import ViperVault.Import.GateHistory

/-!
# Wrong passwords and the gate

A wrong password shows in two places: the ciphertext of a container does not open, or the signature
of a backup does not verify. Only the first of them lies behind the gate.
-/

namespace ViperVault

open Foundation

section Verification

variable {Key : Type} (lib : BackupLibraries Key)

/-- The same libraries, with every signature accepted. -/
def BackupLibraries.withoutVerification : BackupLibraries Key :=
  { lib with verify := fun _ _ _ => true }

/-- The backup is in order up to its signature, which the key of the password does not verify. -/
def FailsVerification (password : MasterPassword) (backupBytes : Bytes) : Prop :=
  ∃ payload, ∃ parts : SignedBackup lib.withoutVerification password backupBytes payload,
    parts.headerJson.length < 2 ^ 32 ∧
    lib.verify parts.verifyingKey (signedBytes parts.headerJson payload) parts.signature = false

variable {lib}

theorem decodeSignedBackup_of_failsVerification {policy : PolicyContext}
    {password : MasterPassword} {backupBytes : Bytes}
    (hpolicy : policy.allowSignedBackupTransfer = true)
    (h : FailsVerification lib password backupBytes) :
    decodeSignedBackup lib policy password backupBytes = .error .authFailed := by
  obtain ⟨payload, parts, hheaderLen, hverify⟩ := h
  let raw : Signature := ⟨parts.sigBytes.toArray, parts.sigBytes_length⟩
  have hlayout : backupBytes = (backupFields parts.headerJson payload raw).flatten := by
    rw [flatten_backupFields]
    exact parts.layout
  have hsignature : lib.signatureFromSlice raw.toList = some parts.signature :=
    parts.signature_of_sigBytes
  have hkey : deriveBackupVerifyingKey lib password parts.header = .ok parts.verifyingKey :=
    parts.verifyingKey_derived
  rw [hlayout, decodeSignedBackup_backupFields lib hpolicy parts.fromSlice_headerJson
      parts.header_version (List.length_pos_of_ne_nil parts.headerJson_ne_nil) hheaderLen
      parts.payload_length hsignature, hkey, ok_bind, hverify]
  rfl

/-- A backup that is read with a password whose key does not verify the signatures of the one that
it was made with. -/
theorem failsVerification_of_encode (hlib : lib.Ideal) {policy : PolicyContext}
    {password other : MasterPassword} {payload backupBytes : Bytes} {kdf : BackupKdfPolicy}
    {salt : Salt} {signingKey otherKey : SigningKey}
    (hencode : encodeSignedBackup lib policy password payload kdf (some salt) = .ok backupBytes)
    (hkey : deriveBackupSigningKey lib password ⟨backupVersion, kdf, salt⟩ = .ok signingKey)
    (hother : deriveBackupSigningKey lib other ⟨backupVersion, kdf, salt⟩ = .ok otherKey)
    (hverify : ∀ msg,
      lib.verify (lib.verifyingKey otherKey) msg (lib.sign signingKey msg) = false) :
    FailsVerification lib other backupBytes := by
  rw [encodeSignedBackup, check_bind_eq_ok, check_bind_eq_ok, failIf_eq_ok, failIf_eq_ok,
    okOr_some, ok_bind] at hencode
  obtain ⟨-, hpayload, hencode⟩ := hencode
  obtain ⟨headerJson, hheader, hencode⟩ := bind_eq_ok.mp hencode
  rw [check_bind_eq_ok, failIf_eq_ok, hkey, ok_bind, pure_eq_ok] at hencode
  obtain ⟨hheaderLen, hbytes⟩ := hencode
  rw [okOr_eq_ok] at hheader
  refine ⟨payload,
    { headerJson := headerJson
      header := ⟨backupVersion, kdf, salt⟩
      sigBytes := (lib.sign signingKey (signedBytes headerJson payload)).toList
      signature := lib.sign signingKey (signedBytes headerJson payload)
      verifyingKey := lib.verifyingKey otherKey
      layout := hbytes.symm
      headerJson_ne_nil := fun hnil => hlib.headerJson_ne_nil _ (hnil ▸ hheader)
      fromSlice_headerJson := hlib.headerJson.fromSlice_toVec _ _ hheader
      header_version := rfl
      payload_length := Nat.le_of_not_lt hpayload
      sigBytes_length := Vector.length_toList
      signature_of_sigBytes := hlib.signatureFromSlice_toList _
      verifyingKey_derived := ?_
      verify := rfl }, Nat.lt_of_not_le hheaderLen, hverify _⟩
  change deriveBackupVerifyingKey lib other ⟨backupVersion, kdf, salt⟩ = _
  rw [deriveBackupVerifyingKey, hother]
  rfl

end Verification

section Requests

variable {Key : Type} (lib : Libraries Key) (backupLib : BackupLibraries Key)

namespace GateRequest

/-- The call is an import, and its password does not verify the signature of the backup. -/
def FailsVerification : GateRequest → Prop
  | .importSigned _ context password signedBackupBytes =>
      context.allowSignedBackupTransfer = true ∧
        ViperVault.FailsVerification backupLib password signedBackupBytes
  | _ => False

/-- The password of the call does not verify the signature or does not open the container. -/
def WrongPassword (request : GateRequest) : Prop :=
  request.FailsVerification backupLib ∨
    request.outcome lib backupLib = some (.error .authFailed)

variable {lib backupLib}

theorem container_of_failsVerification {request : GateRequest}
    (h : request.FailsVerification backupLib) :
    request.container lib backupLib = .error .authFailed := by
  cases request with
  | importSigned probe context password signedBackupBytes =>
      obtain ⟨hpolicy, hfails⟩ := h
      have hallowed : ¬ context.allowSignedBackupTransfer = false := by simp [hpolicy]
      have hprimary : ¬ context.isDecoy = true := by
        have houtcome := (context.allowSignedBackupTransfer_iff.mp hpolicy).1
        simp [PolicyContext.isDecoy, houtcome]
      simp only [container, importVipervaultFromSignedBackup, failIf, if_neg hallowed,
        if_neg hprimary, ok_bind, decodeSignedBackup_of_failsVerification hpolicy hfails]
      rfl
  | _ => exact h.elim

end GateRequest

variable {lib backupLib}

/-- A call whose password does not verify the signature leaves the gate as it is. -/
theorem Attempt.Accounts.unverified {policy : UnlockThrottlePolicy} {a : Attempt} {now : Instant}
    {actions : List LimiterAction} {answer : GateAnswer}
    (h : a.Accounts lib backupLib policy now actions) (hpc : a.pc = .returned answer)
    (hfails : a.request.FailsVerification backupLib) :
    answer = .imported (.error .authFailed) ∧ actions = [] := by
  have hcontainer : a.request.container lib backupLib = .error .authFailed :=
    GateRequest.container_of_failsVerification hfails
  obtain ⟨request, pc⟩ := a
  cases hpc
  rcases h with ⟨e, he, hanswer, hactions⟩ | ⟨res, hres, -, -⟩
  · rw [hcontainer] at he
    cases he
    exact ⟨hanswer, hactions⟩
  · rw [GateRequest.outcome_eq_none hcontainer] at hres
    cases hres

end Requests

/-- The symbolic signatures with a seed from the end of the key, which is where the password is. -/
def passwordSeededBackup : BackupLibraries Bytes :=
  { symbolicBackup with
    hkdfExpandSeed := fun key => some (Vector.ofFn fun i => key.reverse.getD i 0) }

/-- The key of a password does not verify what another key has signed. -/
theorem verify_passwordSeededBackup_of_ne {key other : SigningKey} (hne : key ≠ other)
    (msg : Bytes) :
    passwordSeededBackup.verify (passwordSeededBackup.verifyingKey other) msg
      (passwordSeededBackup.sign key msg) = false := by
  have hsign : symbolicSign key msg ≠ symbolicSign other msg := by
    intro h
    exact hne (Vector.append_inj_left h)
  simp only [passwordSeededBackup, symbolicBackup, decide_eq_false_iff_not]
  exact hsign

theorem passwordSeededBackup_ideal : passwordSeededBackup.Ideal where
  verify_sign := by
    intro key msg
    simp only [passwordSeededBackup, symbolicBackup, decide_true]
  signatureFromSlice_toList := signatureFromSlice_toList
  headerJson := symbolicBackup_ideal.headerJson
  headerJson_ne_nil := toVec_backupHeader_ne_nil

theorem passwordSeededBackup_total : passwordSeededBackup.Total where
  argon2 := symbolicArgon2_ideal
  hkdfExpandSeed_isSome := fun _ => rfl
  exists_headerJson := symbolicBackup_total.exists_headerJson

/-- A container that does not open, on a gate without failures. -/
def failAlone : List GateEvent :=
  [.invoke (.plaintextJson GateWorld.closedVault (samplePassword "north")), .advance 0 0,
   .advance 0 0, .advance 0 0, .advance 0 0]

namespace GateWorld

section Runs

variable {Key : Type} {lib : Libraries Key} {backupLib : BackupLibraries Key}
  {policy : UnlockThrottlePolicy}

variable (lib backupLib) in
/-- Every call that has answered a wrong password with an authentication failure has registered
one failure, and its delay is over. -/
def DelaysWrongPasswords (w : GateWorld) : Prop :=
  ∀ (i : Nat) (a : Attempt) (answer : GateAnswer), w.attempts[i]? = some a →
    a.pc = .returned answer → answer.IsAuthFailure → a.request.WrongPassword lib backupLib →
    Served w.now (entriesOf i w.journal)

/-- Wrong passwords are delayed exactly where none of the calls so far has answered about the
signature of a backup. -/
theorem delaysWrongPasswords_iff {es : List GateEvent} {w : GateWorld}
    (h : exec (step lib backupLib policy) new es = some w) :
    DelaysWrongPasswords lib backupLib w ↔
      ∀ a ∈ w.attempts, ∀ answer, a.pc = .returned answer →
        ¬ a.request.FailsVerification backupLib := by
  have hw := sound_of_run h
  constructor
  · intro hdelays a ha answer hpc hfails
    obtain ⟨i, hi⟩ := List.mem_iff_getElem?.mp ha
    obtain ⟨rfl, hentries⟩ := (hw.accounts i a hi).unverified hpc hfails
    obtain ⟨instant, delay, hentry, -⟩ := hdelays i a _ hi hpc rfl (Or.inl hfails)
    rw [hentries] at hentry
    cases hentry
  · intro hcondition i a answer ha hpc hanswer hwrong
    have hfails := hcondition a (List.mem_of_getElem? ha) answer hpc
    obtain hres := hwrong.resolve_left hfails
    exact ((hw.accounts i a ha).settled hpc hres).2

/-- The theorem on a container that does not open. -/
theorem delaysWrongPasswords_iff_failAlone :
    ∃ w, exec (step symbolic symbolicBackup .default) new failAlone = some w ∧
      w.attempts.map Attempt.pc = [.returned (.plaintextJson (.error .authFailed))] ∧
      DelaysWrongPasswords symbolic symbolicBackup w := by
  have hrun : ∃ w a, exec (step symbolic symbolicBackup .default) new failAlone = some w ∧
      w.attempts = [a] ∧ a.request = .plaintextJson closedVault (samplePassword "north") ∧
      a.pc = .returned (.plaintextJson (.error .authFailed)) := ⟨_, _, rfl, rfl, rfl, rfl⟩
  obtain ⟨w, a, hexec, hattempts, hrequest, hpc⟩ := hrun
  refine ⟨w, hexec, by rw [hattempts, List.map_singleton, hpc], ?_⟩
  apply (delaysWrongPasswords_iff hexec).mpr
  intro b hb answer _ hfails
  rw [hattempts] at hb
  obtain rfl := List.mem_singleton.mp hb
  rw [hrequest] at hfails
  exact hfails

/-- The password of an import does not verify the signature: the call answers at once, and the
gate has not heard of it. -/
theorem unverified_import_is_not_delayed :
    ∃ backupBytes w,
      encodeSignedBackup passwordSeededBackup samplePolicyContext (samplePassword "north")
        [1, 2, 3] sampleBackupKdf (some (Vector.replicate 32 3)) = .ok backupBytes ∧
      exec (step symbolic passwordSeededBackup .default) new
        [.invoke (.importSigned .notDebugged samplePolicyContext (samplePassword "south")
          backupBytes), .advance 0 0] = some w ∧
      w.attempts.map Attempt.pc = [.returned (.imported (.error .authFailed))] ∧
      w.now = 0 ∧ w.journal = [] ∧ ¬ DelaysWrongPasswords symbolic passwordSeededBackup w := by
  have hallowed : samplePolicyContext.allowSignedBackupTransfer = true := rfl
  have hlen : ([1, 2, 3] : Bytes).length ≤ maxBackupPayloadLen.toNat := by decide
  obtain ⟨backupBytes, hencode⟩ := passwordSeededBackup_total.exists_encodeSignedBackup hallowed
    sampleBackupKdf_valid (samplePassword "north") (Vector.replicate 32 3) hlen
  have hkeys : ∃ key other : SigningKey,
      deriveBackupSigningKey passwordSeededBackup (samplePassword "north")
        ⟨backupVersion, sampleBackupKdf, Vector.replicate 32 3⟩ = .ok key ∧
      deriveBackupSigningKey passwordSeededBackup (samplePassword "south")
        ⟨backupVersion, sampleBackupKdf, Vector.replicate 32 3⟩ = .ok other ∧
      key[2] ≠ other[2] := ⟨_, _, rfl, rfl, by decide⟩
  obtain ⟨key, other, hkey, hother, hbyte⟩ := hkeys
  have hne : key ≠ other := fun h => hbyte (by rw [h])
  let request : GateRequest :=
    .importSigned .notDebugged samplePolicyContext (samplePassword "south") backupBytes
  have hfails : request.FailsVerification passwordSeededBackup :=
    ⟨hallowed, failsVerification_of_encode passwordSeededBackup_ideal hencode hkey hother
      (verify_passwordSeededBackup_of_ne hne)⟩
  have hcontainer : request.container symbolic passwordSeededBackup = .error .authFailed :=
    GateRequest.container_of_failsVerification hfails
  have hadvance : step symbolic passwordSeededBackup .default
      ⟨.onSuccess, 0, [⟨request, .start⟩], []⟩ (.advance 0 0) =
        some ⟨.onSuccess, 0, [⟨request, .returned (.imported (.error .authFailed))⟩], []⟩ := by
    change ((Attempt.mk request .start).advance _ _ _ _ _ _).map _ = _
    simp only [Attempt.advance, hcontainer]
    rfl
  have hrun : exec (step symbolic passwordSeededBackup .default) new
      [.invoke request, .advance 0 0] =
        some ⟨.onSuccess, 0, [⟨request, .returned (.imported (.error .authFailed))⟩], []⟩ :=
    exec_cons_eq_some.mpr ⟨_, rfl, exec_cons_eq_some.mpr ⟨_, hadvance, rfl⟩⟩
  refine ⟨backupBytes, _, hencode, hrun, rfl, rfl, rfl, ?_⟩
  intro hdelays
  obtain ⟨instant, delay, hentry, -⟩ := hdelays 0 _ _ rfl rfl rfl (Or.inl hfails)
  cases hentry

end Runs

end GateWorld

end ViperVault
