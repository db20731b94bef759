import ViperVault.Totp.Engine

/-!
# Verification over a window

`totp_verify` and `totp_generate_from_secret` side by side. The loop runs through the window from
its lower end, with the counters held at zero, and finds a code exactly if generation has it for
one of the time steps.
-/

namespace ViperVault

open Foundation

namespace Totp

/-! ## The counters -/

/-- The cast of a small number. -/
private theorem toNat_ofInt {n : Int} {k : Nat} (hn : n = k) (hk : k < 2 ^ 64) :
    (UInt64.ofInt n).toNat = k := by
  rw [UInt64.ofInt, UInt64.toNat_ofNat']
  omega

/-- The counter of a pass is the one of its time step: the sum does not saturate, and the
difference does only at zero. -/
theorem toNat_counterAt {base : UInt64} {window i : Nat} (hbase : base.toNat + window < 2 ^ 64)
    (hwindow : window < 256) (hi : i ≤ 2 * window) :
    (counterAt base (i - window)).toNat = base.toNat + i - window := by
  unfold counterAt
  split
  · next hneg =>
      have habs : wrappingAbs ((i : Int) - window) = ((window - i : Nat) : Int) := by
        unfold wrappingAbs
        rw [if_neg (by omega)]
        omega
      have hvalue := toNat_ofInt habs (by omega)
      unfold saturatingSub
      split
      · next hle =>
          rw [UInt64.toNat_sub_of_le _ _ hle, hvalue]
          omega
      · next hgt =>
          rw [UInt64.le_iff_toNat_le, hvalue] at hgt
          have hzero : base.toNat + i - window = 0 := by omega
          rw [hzero]
          rfl
  · next hpos =>
      have hvalue : (UInt64.ofInt ((i : Int) - window)).toNat = i - window :=
        toNat_ofInt (by omega) (by omega)
      have hsum : checkedAdd base (UInt64.ofInt ((i : Int) - window)) =
          some (base + UInt64.ofInt ((i : Int) - window)) :=
        if_pos (by rw [hvalue]; omega)
      rw [saturatingAdd, hsum, Option.getD_some, checkedAdd_eq_some.mp hsum, hvalue]
      omega

/-- There is room for the window above the last counter. -/
theorem div_add_lt (time : UInt64) {period : UInt32} {window : UInt8}
    (hperiod : 10 ≤ period.toNat) (hwindow : window ≤ 10) :
    (time / period.toUInt64).toNat + window.toNat < 2 ^ 64 := by
  have htime := time.toNat_lt
  have hw : window.toNat ≤ 10 := UInt8.le_iff_toNat_le.mp hwindow
  have hdiv : time.toNat / period.toNat ≤ time.toNat / 10 := Nat.div_le_div_left hperiod (by decide)
  rw [UInt64.toNat_div, UInt32.toNat_toUInt64]
  omega

/-! ## The loop -/

variable {lib : TotpLibraries}

/-- A pass expects the code of its time step. -/
theorem exists_expectedAt (hlib : lib.AcceptsKeys) {totp : TotpSecret} {raw : Bytes}
    (hraw : decodeBase32SecretStrict lib totp.secretB32.exposeSecret = .ok raw)
    (hdigits : totp.digits ≤ 8) {base : UInt64} {window : UInt8} {i : Nat}
    (hbase : base.toNat + window.toNat < 2 ^ 64) (hi : i ≤ 2 * window.toNat) :
    ∃ value, expectedAt lib totp raw base window i = .ok value ∧
      stepCode? lib totp (base.toNat + i - window.toNat) = some value.toNat := by
  have hwindow := window.toNat_lt
  have hcounter := toNat_counterAt hbase hwindow hi
  obtain ⟨mac, value, hmac, hcode, hvalue⟩ := exists_macCode hlib totp.algorithm raw
    (toBeBytes (counterAt base ((i : Int) - window.toNat))) hdigits
  refine ⟨value, ?_, ?_⟩
  · have hoffset : (asI32 ((i : Int) - window.toNat) : Checked TotpError Int) =
        .ok ((i : Int) - window.toNat) := asI32_of_lt (by omega) (by omega)
    rw [← hcode, expectedAt, hoffset]
    rfl
  · rw [stepCode?, hraw, ← hcounter]
    rw [toBeBytes] at hmac
    simp [Except.toOption, hmac, hvalue]

/-- The loop finds out whether a pass expects the code. -/
theorem exists_matchLoop {expected : Nat → Checked TotpError UInt32} {code : UInt32}
    {hit : Nat → Prop} {is : List Nat}
    (h : ∀ i ∈ is, ∃ value, expected i = .ok value ∧ (value = code ↔ hit i)) (anyMatch : UInt8) :
    ∃ result, matchLoop expected code anyMatch is = .ok result ∧
      (result ≠ 0 ↔ anyMatch ≠ 0 ∨ ∃ i ∈ is, hit i) := by
  induction is generalizing anyMatch with
  | nil => exact ⟨anyMatch, rfl, by simp⟩
  | cons i is ih =>
      obtain ⟨value, hvalue, hhit⟩ := h i (by simp)
      obtain ⟨result, hresult, hany⟩ := ih (fun j hj => h j (by simp [hj]))
        (anyMatch ||| if value = code then 1 else 0)
      refine ⟨result, by rw [matchLoop, hvalue]; exact hresult, ?_⟩
      rw [hany, ne_eq, UInt8.or_eq_zero_iff]
      simp only [List.mem_cons, exists_eq_or_imp, ← hhit, not_and_or, or_assoc]
      by_cases hcode : value = code
      · simp [hcode]
      · simp [hcode]

/-- Verification answers whether the code is that of a time step in the window. -/
theorem exists_totpVerify (hlib : lib.AcceptsKeys) {totp : TotpSecret}
    (hvalid : totp.validate = .ok ()) {raw : Bytes}
    (hraw : decodeBase32SecretStrict lib totp.secretB32.exposeSecret = .ok raw) (time : UInt64)
    (code : UInt32) {window : UInt8} (hwindow : window ≤ 10) :
    ∃ found, totpVerify lib totp time code window = .ok found ∧
      (found = true ↔ ∃ c, Hotp.InWindow (time.toNat / totp.periodSecs.toNat) window.toNat c ∧
        stepCode? lib totp c = some code.toNat) := by
  obtain ⟨hparams, hdigits, hperiod⟩ := params_of_validate hvalid
  have hne := toUInt64_ne_zero hperiod
  have hbase := div_add_lt time hperiod hwindow
  have hbound := window.toNat_lt
  have hpasses : ∀ i ∈ List.range (2 * window.toNat + 1), ∃ value,
      expectedAt lib totp raw (time / totp.periodSecs.toUInt64) window i = .ok value ∧
        (value = code ↔ stepCode? lib totp
          ((time / totp.periodSecs.toUInt64).toNat + i - window.toNat) = some code.toNat) := by
    intro i hi
    have hle : i ≤ 2 * window.toNat := Nat.le_of_lt_succ (List.mem_range.mp hi)
    obtain ⟨value, hvalue, hstep⟩ := exists_expectedAt hlib hraw hdigits hbase hle
    refine ⟨value, hvalue, ?_⟩
    rw [hstep, Option.some.injEq, UInt32.toNat_inj]
  obtain ⟨result, hresult, hany⟩ := exists_matchLoop hpasses 0
  have htop : (asI32 ((window.toNat : Int) * 2) : Checked TotpError Int) =
      .ok ((window.toNat : Int) * 2) := asI32_of_lt (by omega) (by omega)
  have hrange : ((window.toNat : Int) * 2).toNat + 1 = 2 * window.toNat + 1 := by omega
  refine ⟨result != 0, ?_, ?_⟩
  · simp only [totpVerify, hvalid, hparams, hraw, failIf, if_neg (UInt8.not_lt.mpr hwindow), safely,
      mapError_ok, ok_bind, divisor_of_ne hne, htop, hrange, hresult]
    rfl
  · rw [bne_iff_ne, hany, Hotp.exists_inWindow_iff, UInt64.toNat_div, UInt32.toNat_toUInt64]
    simp only [ne_eq, not_true_eq_false, false_or, List.mem_range, Nat.lt_add_one_iff]

/-! ## Verification and generation -/

/-- The computation neither stops the program nor answers `CryptoFailure`. -/
def NoFault {α : Type} (x : Checked TotpError α) : Prop :=
  x ≠ .error .panic ∧ x ≠ .error (.err .cryptoFailure)

theorem noFault_ok {α : Type} (a : α) : NoFault (.ok a : Checked TotpError α) := by
  constructor
  · intro h
    cases h
  · intro h
    cases h

theorem noFault_err {α : Type} {e : TotpError} (he : e ≠ .cryptoFailure) :
    NoFault (.error (.err e) : Checked TotpError α) := by
  constructor
  · intro h
    cases h
  · intro h
    cases h
    exact he rfl

/-- Verification is generation over a window. -/
structure VerifiesWindow (lib : TotpLibraries) (totp : TotpSecret) (time : UInt64) (code : UInt32)
    (window : UInt8) : Prop where
  /-- verification fails if the window is too large or generation fails -/
  errors : (∃ e, totpVerify lib totp time code window = .error e) ↔
    10 < window ∨ ∃ t e, totpGenerateFromSecret lib totp t = .error e
  /-- generation fails at every time or at none -/
  uniform : (∃ t e, totpGenerateFromSecret lib totp t = .error e) →
    ∃ e, ∀ t, totpGenerateFromSecret lib totp t = .error e
  /-- the answer is whether the code is that of a time step in the window -/
  answers : ∀ found, totpVerify lib totp time code window = .ok found →
    (found = true ↔ ∃ c, Hotp.InWindow (time.toNat / totp.periodSecs.toNat) window.toNat c ∧
      stepCode? lib totp c = some code.toNat)
  /-- generation gives the code of its time step, at every time in it -/
  steps : ∀ t value, totpGenerateFromSecret lib totp t = .ok value →
    stepCode? lib totp (t.toNat / totp.periodSecs.toNat) = some value.toNat
  /-- the counters are those of the time steps -/
  counters : totp.validate = .ok () → window ≤ 10 → ∀ i ≤ 2 * window.toNat,
    (counterAt (time / totp.periodSecs.toUInt64) (i - window.toNat)).toNat =
      time.toNat / totp.periodSecs.toNat + i - window.toNat
  verifyFault : NoFault (totpVerify lib totp time code window)
  generateFault : ∀ t, NoFault (totpGenerateFromSecret lib totp t)

/-- A block is checked and its secret decoded, or both functions refuse it. -/
theorem decoded_or_refused (lib : TotpLibraries) (totp : TotpSecret) :
    (totp.validate = .ok () ∧
      ∃ raw, decodeBase32SecretStrict lib totp.secretB32.exposeSecret = .ok raw) ∨
    ∃ e, e ≠ TotpError.cryptoFailure ∧
      (∀ t, totpGenerateFromSecret lib totp t = .error (.err e)) ∧
      ∀ time code window, window ≤ 10 →
        totpVerify lib totp time code window = .error (.err e) := by
  cases hvalid : totp.validate with
  | error err =>
      refine Or.inr ⟨.invalidParams, by decide, ?_, ?_⟩
      · intro t
        simp [totpGenerateFromSecret, hvalid, safely]
      · intro time code window _
        simp [totpVerify, hvalid, safely]
  | ok u =>
      cases hraw : decodeBase32SecretStrict lib totp.secretB32.exposeSecret with
      | ok raw => exact Or.inl ⟨rfl, raw, rfl⟩
      | error e =>
          obtain ⟨hparams, -⟩ := params_of_validate hvalid
          obtain rfl := failsOnly_decodeBase32SecretStrict lib _ e hraw
          refine Or.inr ⟨.invalidSecret, by decide, ?_, ?_⟩
          · intro t
            simp [totpGenerateFromSecret, hvalid, hparams, hraw, safely]
          · intro time code window hwindow
            simp only [totpVerify, hvalid, hparams, hraw, failIf,
              if_neg (UInt8.not_lt.mpr hwindow), safely, mapError_ok, mapError_error, ok_bind,
              error_bind]

/-- A window that is too large is refused. -/
theorem totpVerify_of_lt (lib : TotpLibraries) (totp : TotpSecret) (time : UInt64) (code : UInt32)
    {window : UInt8} (hwindow : 10 < window) :
    totpVerify lib totp time code window = .error (.err .invalidParams) := by
  cases hvalid : totp.validate with
  | error err => simp [totpVerify, hvalid, safely]
  | ok u =>
      obtain ⟨hparams, -⟩ := params_of_validate hvalid
      simp [totpVerify, hvalid, hparams, failIf, hwindow, safely]

theorem toNat_counterAt_of_validate {totp : TotpSecret} (hvalid : totp.validate = .ok ())
    (time : UInt64) {window : UInt8} (hwindow : window ≤ 10) {i : Nat} (hi : i ≤ 2 * window.toNat) :
    (counterAt (time / totp.periodSecs.toUInt64) (i - window.toNat)).toNat =
      time.toNat / totp.periodSecs.toNat + i - window.toNat := by
  obtain ⟨-, -, hperiod⟩ := params_of_validate hvalid
  rw [toNat_counterAt (div_add_lt time hperiod hwindow) window.toNat_lt hi, UInt64.toNat_div,
    UInt32.toNat_toUInt64]

/-- A block that both functions refuse. -/
theorem VerifiesWindow.of_refused {totp : TotpSecret} {time : UInt64} {code : UInt32}
    {window : UInt8} {e e' : TotpError} (he : e ≠ .cryptoFailure) (he' : e' ≠ .cryptoFailure)
    (hgenerate : ∀ t, totpGenerateFromSecret lib totp t = .error (.err e))
    (hverify : totpVerify lib totp time code window = .error (.err e')) :
    VerifiesWindow lib totp time code window where
  errors := iff_of_true ⟨_, hverify⟩ (Or.inr ⟨0, _, hgenerate 0⟩)
  uniform _ := ⟨_, hgenerate⟩
  answers found h := by
    rw [hverify] at h
    cases h
  steps t value h := by
    rw [hgenerate t] at h
    cases h
  counters hvalid hwindow _ hi := toNat_counterAt_of_validate hvalid time hwindow hi
  verifyFault := hverify ▸ noFault_err he'
  generateFault t := hgenerate t ▸ noFault_err he

/-- A block whose secret is decoded: generation answers at every time, and verification does for
every window that is not too large. -/
theorem VerifiesWindow.of_decoded (hlib : lib.AcceptsKeys) {totp : TotpSecret}
    (hvalid : totp.validate = .ok ()) {raw : Bytes}
    (hraw : decodeBase32SecretStrict lib totp.secretB32.exposeSecret = .ok raw) (time : UInt64)
    (code : UInt32) (window : UInt8) : VerifiesWindow lib totp time code window := by
  have hgenerate := exists_totpGenerateFromSecret hlib hvalid hraw
  have hnever : ¬ ∃ t e, totpGenerateFromSecret lib totp t = .error e := by
    rintro ⟨t, e, h⟩
    obtain ⟨value, hvalue, -⟩ := hgenerate t
    rw [hvalue] at h
    cases h
  have hsteps : ∀ t value, totpGenerateFromSecret lib totp t = .ok value →
      stepCode? lib totp (t.toNat / totp.periodSecs.toNat) = some value.toNat := by
    intro t value h
    obtain ⟨value', hvalue, hstep⟩ := hgenerate t
    rw [hvalue] at h
    cases h
    exact hstep
  have hfault : ∀ t, NoFault (totpGenerateFromSecret lib totp t) := by
    intro t
    obtain ⟨value, hvalue, -⟩ := hgenerate t
    rw [hvalue]
    exact noFault_ok value
  by_cases hlt : 10 < window
  · have hverify := totpVerify_of_lt lib totp time code hlt
    refine {
      errors := iff_of_true ⟨_, hverify⟩ (Or.inl hlt)
      uniform := fun h => absurd h hnever
      answers := ?_
      steps := hsteps
      counters := fun _ hwindow _ hi => toNat_counterAt_of_validate hvalid time hwindow hi
      verifyFault := hverify ▸ noFault_err (by decide)
      generateFault := hfault }
    intro found h
    rw [hverify] at h
    cases h
  · obtain ⟨found, hfound, hiff⟩ := exists_totpVerify hlib hvalid hraw time code
      (UInt8.not_lt.mp hlt)
    refine {
      errors := iff_of_false ?_ (not_or.mpr ⟨hlt, hnever⟩)
      uniform := fun h => absurd h hnever
      answers := ?_
      steps := hsteps
      counters := fun _ hwindow _ hi => toNat_counterAt_of_validate hvalid time hwindow hi
      verifyFault := hfound ▸ noFault_ok found
      generateFault := hfault }
    · rintro ⟨e, h⟩
      rw [hfound] at h
      cases h
    · intro found' h
      rw [hfound] at h
      cases h
      exact hiff

/-- The HMAC of the sample key, on the first counters. -/
def sampleHmacSha1 (key msg : Bytes) : Option (Vector UInt8 20) :=
  if key ≠ "12345678901234567890".toList.map (fun c => UInt8.ofNat c.toNat) then
    some (Vector.replicate 20 0)
  else if msg = Hotp.beBytes 8 0 then
    some #v[204, 147, 207, 24, 80, 141, 148, 147, 76, 100, 182, 93, 139, 167, 102, 127, 183, 205,
      228, 176]
  else if msg = Hotp.beBytes 8 1 then
    some #v[117, 164, 138, 25, 212, 203, 225, 0, 100, 78, 138, 193, 57, 126, 234, 116, 122, 45, 51,
      171]
  else if msg = Hotp.beBytes 8 2 then
    some #v[11, 172, 183, 250, 8, 47, 239, 48, 120, 34, 17, 147, 139, 193, 197, 231, 4, 22, 255, 68]
  else some (Vector.replicate 20 0)

/-- The decoders of RFC 4648, with the sample HMAC. -/
def sampleTotpLibraries : TotpLibraries where
  base32Upper s _ := Base32.decodePadded true s
  base32UpperUnpadded s _ := Base32.decode true s
  hmacSha1 := sampleHmacSha1
  hmacSha256 _ _ := some (Vector.replicate 32 0)
  hmacSha512 _ _ := some (Vector.replicate 64 0)

theorem sampleTotpLibraries_acceptsKeys : sampleTotpLibraries.AcceptsKeys where
  sha1 key msg := by
    change ∃ mac, sampleHmacSha1 key msg = some mac
    unfold sampleHmacSha1
    repeat' split
    all_goals exact ⟨_, rfl⟩
  sha256 _ _ := ⟨_, rfl⟩
  sha512 _ _ := ⟨_, rfl⟩

theorem sampleTotpLibraries_rfc4648 : sampleTotpLibraries.Rfc4648 true where
  padded _ _ _ := rfl
  unpadded _ _ _ := rfl

/-- A block with the sample key. -/
def sampleTotp : TotpSecret where
  issuer := none
  accountName := none
  secretB32 := ⟨"GEZDGNBVGY3TQOJQGEZDGNBVGY3TQOJQ".toList⟩
  digits := 6
  periodSecs := 30
  algorithm := .sha1

/-- Verification is generation over the window, for every block, time, code and window. -/
theorem totpVerify_verifiesWindow (hlib : lib.AcceptsKeys) (totp : TotpSecret) (time : UInt64)
    (code : UInt32) (window : UInt8) : VerifiesWindow lib totp time code window := by
  rcases decoded_or_refused lib totp with ⟨hvalid, raw, hraw⟩ | ⟨e, he, hgenerate, hverify⟩
  · exact VerifiesWindow.of_decoded hlib hvalid hraw time code window
  · by_cases hlt : 10 < window
    · have hrefused := totpVerify_of_lt lib totp time code hlt
      exact VerifiesWindow.of_refused he (by decide) hgenerate hrefused
    · have hrefused := hverify time code window (UInt8.not_lt.mp hlt)
      exact VerifiesWindow.of_refused he he hgenerate hrefused

/-- The theorem on the sample key, one step before and after the second time step. -/
theorem totpVerify_verifiesWindow_sample :
    VerifiesWindow sampleTotpLibraries sampleTotp 59 287082 1 ∧
      totpGenerateFromSecret sampleTotpLibraries sampleTotp 59 = .ok 287082 ∧
      totpVerify sampleTotpLibraries sampleTotp 59 287082 1 = .ok true :=
  ⟨totpVerify_verifiesWindow sampleTotpLibraries_acceptsKeys sampleTotp 59 287082 1,
    by decide +kernel, by decide +kernel⟩

end Totp

end ViperVault
