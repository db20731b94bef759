import ViperVault.Foundation.Hotp
import ViperVault.Foundation.Panics
import ViperVault.Totp.Decode

/-!
# Generating and verifying codes

`totp/engine.rs` and `totp/format.rs`. The operations that can stop the program, which are indices,
divisions and `i32` arithmetic, are those of `Checked`. `stepCode?` is the code that RFC 4226 has
for a time step; generation computes it, on every MAC length and up to the last counter.
-/

namespace ViperVault

open Foundation

namespace Totp

def minPeriodSecs : UInt32 := 10
def maxPeriodSecs : UInt32 := 120
def minDigits : UInt8 := 6
def maxDigits : UInt8 := 8

/-- `validate_params`. -/
def validateParams (periodSecs : UInt32) (digits : UInt8) : Except TotpError Unit := do
  failIf (periodSecs < minPeriodSecs ∨ maxPeriodSecs < periodSecs) .invalidParams
  failIf (digits < minDigits ∨ maxDigits < digits) .invalidParams

/-- `hmac_sha1`. -/
def hmacSha1 (lib : TotpLibraries) (key msg : Bytes) : Except TotpError (Vector UInt8 20) :=
  okOr (lib.hmacSha1 key msg) .cryptoFailure

/-- `hmac_sha256`. -/
def hmacSha256 (lib : TotpLibraries) (key msg : Bytes) : Except TotpError (Vector UInt8 32) :=
  okOr (lib.hmacSha256 key msg) .cryptoFailure

/-- `hmac_sha512`. -/
def hmacSha512 (lib : TotpLibraries) (key msg : Bytes) : Except TotpError (Vector UInt8 64) :=
  okOr (lib.hmacSha512 key msg) .cryptoFailure

/-- `10u32.checked_pow(digits as u32)`. -/
def checkedPowTen (digits : UInt8) : Option UInt32 :=
  if 10 ^ digits.toNat < 2 ^ 32 then some (UInt32.ofNat (10 ^ digits.toNat)) else none

/-- The `bin_code` of four bytes of a MAC. -/
def binCode (b₀ b₁ b₂ b₃ : UInt8) : UInt32 :=
  ((b₀.toUInt32 &&& 0x7f) <<< 24) ||| (b₁.toUInt32 <<< 16) ||| (b₂.toUInt32 <<< 8) ||| b₃.toUInt32

/-- `dynamic_truncate`. -/
def dynamicTruncate (mac : Bytes) (digits : UInt8) : Checked TotpError UInt32 := do
  safely (failIf (mac.length < 20) .cryptoFailure)
  let last ← elementAt mac (mac.length - 1)
  let offset := (last &&& 0x0f).toNat
  safely (failIf (mac.length < offset + 4) .cryptoFailure)
  let b₀ ← elementAt mac offset
  let b₁ ← elementAt mac (offset + 1)
  let b₂ ← elementAt mac (offset + 2)
  let b₃ ← elementAt mac (offset + 3)
  let modulo ← safely (okOr (checkedPowTen digits) .invalidParams)
  let modulo ← divisor modulo
  return binCode b₀ b₁ b₂ b₃ % modulo

/-- `u64::to_be_bytes`. -/
def toBeBytes (counter : UInt64) : Bytes := Hotp.beBytes 8 counter.toNat

/-- `totp_generate_raw`. -/
def totpGenerateRaw (lib : TotpLibraries) (secretRaw : Bytes) (unixTimeSecs : UInt64)
    (periodSecs : UInt32) (digits : UInt8) (algorithm : TotpAlgorithm) :
    Checked TotpError UInt32 := do
  safely (validateParams periodSecs digits)
  let period ← divisor periodSecs.toUInt64
  let counter := unixTimeSecs / period
  let msg := toBeBytes counter
  match algorithm with
  | .sha1 => do
      let mac ← safely (hmacSha1 lib secretRaw msg)
      dynamicTruncate mac.toList digits
  | .sha256 => do
      let mac ← safely (hmacSha256 lib secretRaw msg)
      dynamicTruncate mac.toList digits
  | .sha512 => do
      let mac ← safely (hmacSha512 lib secretRaw msg)
      dynamicTruncate mac.toList digits

/-- `totp_generate_from_secret`. -/
def totpGenerateFromSecret (lib : TotpLibraries) (totp : TotpSecret) (unixTimeSecs : UInt64) :
    Checked TotpError UInt32 := do
  safely (totp.validate.mapError fun _ => .invalidParams)
  safely (validateParams totp.periodSecs totp.digits)
  let secretRaw ← safely (decodeBase32SecretStrict lib totp.secretB32.exposeSecret)
  totpGenerateRaw lib secretRaw unixTimeSecs totp.periodSecs totp.digits totp.algorithm

/-- `u64::saturating_sub`. -/
def saturatingSub (a b : UInt64) : UInt64 := if b ≤ a then a - b else 0

/-- `u64::saturating_add`. -/
def saturatingAdd (a b : UInt64) : UInt64 := (checkedAdd a b).getD (UInt64.ofNat (2 ^ 64 - 1))

/-- `i32::wrapping_abs`. -/
def wrappingAbs (n : Int) : Int := if n = -2147483648 then n else n.natAbs

/-- The counter at an offset from the base. -/
def counterAt (baseCounter : UInt64) (offset : Int) : UInt64 :=
  if offset < 0 then saturatingSub baseCounter (UInt64.ofInt (wrappingAbs offset))
  else saturatingAdd baseCounter (UInt64.ofInt offset)

/-- The code that a pass of the loop of `totp_verify` expects. -/
def expectedAt (lib : TotpLibraries) (totp : TotpSecret) (secretRaw : Bytes)
    (baseCounter : UInt64) (window : UInt8) (i : Nat) : Checked TotpError UInt32 := do
  let offset ← asI32 (i - window.toNat)
  let counter := counterAt baseCounter offset
  let msg := toBeBytes counter
  match totp.algorithm with
  | .sha1 => do
      let mac ← safely (hmacSha1 lib secretRaw msg)
      dynamicTruncate mac.toList totp.digits
  | .sha256 => do
      let mac ← safely (hmacSha256 lib secretRaw msg)
      dynamicTruncate mac.toList totp.digits
  | .sha512 => do
      let mac ← safely (hmacSha512 lib secretRaw msg)
      dynamicTruncate mac.toList totp.digits

/-- The loop of `totp_verify` over passes that each expect a code. -/
def matchLoop (expected : Nat → Checked TotpError UInt32) (code : UInt32) (anyMatch : UInt8) :
    List Nat → Checked TotpError UInt8
  | [] => return anyMatch
  | i :: is => do
      let value ← expected i
      matchLoop expected code (anyMatch ||| if value = code then 1 else 0) is

/-- `totp_verify`. -/
def totpVerify (lib : TotpLibraries) (totp : TotpSecret) (unixTimeSecs : UInt64) (code : UInt32)
    (window : UInt8) : Checked TotpError Bool := do
  safely (totp.validate.mapError fun _ => .invalidParams)
  safely (validateParams totp.periodSecs totp.digits)
  safely (failIf (10 < window) .invalidParams)
  let secretRaw ← safely (decodeBase32SecretStrict lib totp.secretB32.exposeSecret)
  let period ← divisor totp.periodSecs.toUInt64
  let baseCounter := unixTimeSecs / period
  let top ← asI32 (window.toNat * 2)
  let anyMatch ← matchLoop (expectedAt lib totp secretRaw baseCounter window) code 0
    (List.range (top.toNat + 1))
  return anyMatch != 0

/-- `format_totp_code`. -/
def formatTotpCode (code : UInt32) (digits : UInt8) : Checked TotpError Text := do
  safely (failIf (¬ (6 ≤ digits ∧ digits ≤ 8)) .invalidParams)
  let modulo ← safely (okOr (checkedPowTen digits) .invalidParams)
  let modulo ← divisor modulo
  let normalized := code % modulo
  return (Nat.toDigits 10 normalized.toNat).leftpad digits.toNat '0'

/-- `totp_generate_formatted`. -/
def totpGenerateFormatted (lib : TotpLibraries) (totp : TotpSecret) (unixTimeSecs : UInt64) :
    Checked TotpError Text := do
  let code ← totpGenerateFromSecret lib totp unixTimeSecs
  formatTotpCode code totp.digits

/-! ## Truncation -/

/-- A shift that pushes no bit out. -/
private theorem toNat_shiftLeft_of_lt {a n : UInt32} (hn : n.toNat < 32)
    (h : a.toNat * 2 ^ n.toNat < 2 ^ 32) : (a <<< n).toNat = a.toNat * 2 ^ n.toNat := by
  rw [UInt32.toNat_shiftLeft, Nat.mod_eq_of_lt hn, Nat.shiftLeft_eq, Nat.mod_eq_of_lt h]

/-- A word in front of the bits of another one. -/
private theorem toNat_or_of_lt {a b : UInt32} {i : Nat} (ha : 2 ^ i ∣ a.toNat)
    (hb : b.toNat < 2 ^ i) : (a ||| b).toNat = a.toNat + b.toNat := by
  obtain ⟨k, hk⟩ := ha
  rw [UInt32.toNat_or, hk, Nat.two_pow_add_eq_or_of_lt hb]

/-- The word of four bytes loses the first bit and no other one. -/
theorem toNat_binCode (b₀ b₁ b₂ b₃ : UInt8) : (binCode b₀ b₁ b₂ b₃).toNat =
    b₀.toNat % 128 * 2 ^ 24 + b₁.toNat * 2 ^ 16 + b₂.toNat * 2 ^ 8 + b₃.toNat := by
  have hb₀ : (b₀.toUInt32 &&& 0x7f).toNat = b₀.toNat % 128 :=
    Nat.and_two_pow_sub_one_eq_mod b₀.toNat 7
  have hb₁ : b₁.toUInt32.toNat = b₁.toNat := UInt8.toNat_toUInt32 b₁
  have hb₂ : b₂.toUInt32.toNat = b₂.toNat := UInt8.toNat_toUInt32 b₂
  have hb₃ : b₃.toUInt32.toNat = b₃.toNat := UInt8.toNat_toUInt32 b₃
  have hlt₁ := b₁.toNat_lt
  have hlt₂ := b₂.toNat_lt
  have hlt₃ := b₃.toNat_lt
  have h₀ : ((b₀.toUInt32 &&& 0x7f) <<< 24).toNat = b₀.toNat % 128 * 2 ^ 24 := by
    rw [toNat_shiftLeft_of_lt (by decide) (by simp only [hb₀, UInt32.reduceToNat]; omega), hb₀]
    rfl
  have h₁ : (b₁.toUInt32 <<< 16).toNat = b₁.toNat * 2 ^ 16 := by
    rw [toNat_shiftLeft_of_lt (by decide) (by simp only [hb₁, UInt32.reduceToNat]; omega), hb₁]
    rfl
  have h₂ : (b₂.toUInt32 <<< 8).toNat = b₂.toNat * 2 ^ 8 := by
    rw [toNat_shiftLeft_of_lt (by decide) (by simp only [hb₂, UInt32.reduceToNat]; omega), hb₂]
    rfl
  have h₀₁ := toNat_or_of_lt (i := 24) (b := b₁.toUInt32 <<< 16) (h₀ ▸ Nat.dvd_mul_left _ _)
    (by omega)
  rw [h₀, h₁] at h₀₁
  have h₀₂ := toNat_or_of_lt (i := 16) (b := b₂.toUInt32 <<< 8) (by rw [h₀₁]; omega) (by omega)
  rw [h₀₁, h₂] at h₀₂
  rw [binCode, toNat_or_of_lt (i := 8) (by rw [h₀₂]; omega) (by omega), h₀₂, hb₃]

/-- The power of ten does not overflow. -/
theorem exists_checkedPowTen {digits : UInt8} (hdigits : digits ≤ 8) :
    ∃ modulo, checkedPowTen digits = some modulo ∧ modulo.toNat = 10 ^ digits.toNat ∧
      modulo ≠ 0 := by
  have hpow : 10 ^ digits.toNat ≤ 10 ^ 8 :=
    Nat.pow_le_pow_right (by decide) (UInt8.le_iff_toNat_le.mp hdigits)
  have hlt : 10 ^ digits.toNat < 2 ^ 32 := Nat.lt_of_le_of_lt hpow (by decide)
  have hvalue : (UInt32.ofNat (10 ^ digits.toNat)).toNat = 10 ^ digits.toNat :=
    UInt32.toNat_ofNat_of_lt' hlt
  refine ⟨_, if_pos hlt, hvalue, ?_⟩
  intro h
  have hzero : 10 ^ digits.toNat = 0 := hvalue.symm.trans (congrArg UInt32.toNat h)
  exact absurd hzero (Nat.pow_pos (by decide)).ne'

/-- On a MAC of twenty bytes or more the truncation reads inside the MAC, whatever the offset is,
and gives the code of RFC 4226. -/
theorem exists_dynamicTruncate {mac : Bytes} {digits : UInt8} (hmac : 20 ≤ mac.length)
    (hdigits : digits ≤ 8) :
    ∃ code, dynamicTruncate mac digits = .ok code ∧ code.toNat = Hotp.code digits.toNat mac := by
  obtain ⟨modulo, hmodulo, hvalue, hne⟩ := exists_checkedPowTen hdigits
  have hlast : mac[mac.length - 1]? = some (mac.getLastD 0) := by
    rw [List.getLastD_eq_getLast?, ← List.getLast?_eq_getElem?]
    cases h : mac.getLast? with
    | none =>
        rw [List.getLast?_eq_none_iff.mp h] at hmac
        exact absurd hmac (by decide)
    | some b => rfl
  have hoffset : (mac.getLastD 0 &&& 0x0f).toNat = Hotp.offset mac :=
    Nat.and_two_pow_sub_one_eq_mod (mac.getLastD 0).toNat 4
  have hlt := Hotp.offset_lt mac
  have hfits : Hotp.offset mac + 4 ≤ mac.length := by omega
  have hread : ∀ k, k < 4 → ∃ b, mac[Hotp.offset mac + k]? = some b := fun k hk =>
    ⟨_, List.getElem?_eq_getElem (by omega)⟩
  obtain ⟨b₀, hb₀⟩ := hread 0 (by decide)
  obtain ⟨b₁, hb₁⟩ := hread 1 (by decide)
  obtain ⟨b₂, hb₂⟩ := hread 2 (by decide)
  obtain ⟨b₃, hb₃⟩ := hread 3 (by decide)
  rw [Nat.add_zero] at hb₀
  refine ⟨binCode b₀ b₁ b₂ b₃ % modulo, ?_, ?_⟩
  · simp only [dynamicTruncate, failIf, if_neg (Nat.not_lt.mpr hmac), elementAt_of_some hlast,
      hoffset, if_neg (Nat.not_lt.mpr hfits), elementAt_of_some hb₀, elementAt_of_some hb₁,
      elementAt_of_some hb₂, elementAt_of_some hb₃, hmodulo, okOr_some, divisor_of_ne hne, safely,
      mapError_ok, ok_bind]
    rfl
  · rw [UInt32.toNat_mod, toNat_binCode, hvalue, Hotp.code, Hotp.number_eq hb₀ hb₁ hb₂ hb₃]

/-! ## The code of a time step -/

/-- The MAC of a message by an algorithm. -/
def mac? (lib : TotpLibraries) (algorithm : TotpAlgorithm) (key msg : Bytes) : Option Bytes :=
  match algorithm with
  | .sha1 => (lib.hmacSha1 key msg).map Vector.toList
  | .sha256 => (lib.hmacSha256 key msg).map Vector.toList
  | .sha512 => (lib.hmacSha512 key msg).map Vector.toList

/-- The code of RFC 4226 for a counter, on the decoded secret. -/
def stepCode? (lib : TotpLibraries) (totp : TotpSecret) (counter : Nat) : Option Nat := do
  let raw ← (decodeBase32SecretStrict lib totp.secretB32.exposeSecret).toOption
  let mac ← mac? lib totp.algorithm raw (Hotp.beBytes 8 counter)
  some (Hotp.code totp.digits.toNat mac)

/-- The code of a MAC, as generation and verification both compute it. -/
def macCode (lib : TotpLibraries) (algorithm : TotpAlgorithm) (key msg : Bytes) (digits : UInt8) :
    Checked TotpError UInt32 :=
  match algorithm with
  | .sha1 => do
      let mac ← safely (hmacSha1 lib key msg)
      dynamicTruncate mac.toList digits
  | .sha256 => do
      let mac ← safely (hmacSha256 lib key msg)
      dynamicTruncate mac.toList digits
  | .sha512 => do
      let mac ← safely (hmacSha512 lib key msg)
      dynamicTruncate mac.toList digits

/-- A MAC of twenty bytes or more is truncated. -/
private theorem exists_truncatedMac {n : Nat} (hn : 20 ≤ n) {mac? : Option (Vector UInt8 n)}
    (hmac : ∃ mac, mac? = some mac) {digits : UInt8} (hdigits : digits ≤ 8) :
    ∃ mac code, mac?.map Vector.toList = some mac ∧
      (do
        let mac ← safely (okOr mac? TotpError.cryptoFailure)
        dynamicTruncate mac.toList digits) = .ok code ∧
      code.toNat = Hotp.code digits.toNat mac := by
  obtain ⟨mac, rfl⟩ := hmac
  have hlen : 20 ≤ mac.toList.length := by rwa [Vector.length_toList]
  obtain ⟨code, hcode, hvalue⟩ := exists_dynamicTruncate hlen hdigits
  exact ⟨mac.toList, code, rfl, hcode, hvalue⟩

/-- The MACs of the three algorithms are long enough. -/
theorem exists_macCode {lib : TotpLibraries} (hlib : lib.AcceptsKeys) (algorithm : TotpAlgorithm)
    (key msg : Bytes) {digits : UInt8} (hdigits : digits ≤ 8) :
    ∃ mac code, mac? lib algorithm key msg = some mac ∧
      macCode lib algorithm key msg digits = .ok code ∧
      code.toNat = Hotp.code digits.toNat mac := by
  cases algorithm with
  | sha1 => exact exists_truncatedMac (by decide) (hlib.sha1 key msg) hdigits
  | sha256 => exact exists_truncatedMac (by decide) (hlib.sha256 key msg) hdigits
  | sha512 => exact exists_truncatedMac (by decide) (hlib.sha512 key msg) hdigits

/-- The parameters of a checked block are in the bounds of the engine. -/
theorem params_of_validate {totp : TotpSecret} (h : totp.validate = .ok ()) :
    validateParams totp.periodSecs totp.digits = .ok () ∧ totp.digits ≤ 8 ∧
      10 ≤ totp.periodSecs.toNat := by
  obtain ⟨hdigits, ⟨hlower, hupper⟩, -⟩ := totp.validate_eq_ok.mp h
  have hbounds : ¬ (totp.periodSecs < minPeriodSecs ∨ maxPeriodSecs < totp.periodSecs) :=
    not_or.mpr ⟨UInt32.not_lt.mpr hlower, UInt32.not_lt.mpr hupper⟩
  have hnat : 10 ≤ totp.periodSecs.toNat := UInt32.le_iff_toNat_le.mp hlower
  rcases hdigits with hd | hd | hd
  all_goals
    rw [hd]
    refine ⟨?_, by decide, hnat⟩
    simp only [validateParams, failIf, if_neg hbounds, ok_bind]
    rfl

/-- The period divides. -/
theorem toUInt64_ne_zero {period : UInt32} (h : 10 ≤ period.toNat) : period.toUInt64 ≠ 0 := by
  intro hzero
  have hnat : period.toNat = 0 := by
    rw [← UInt32.toNat_toUInt64, hzero]
    rfl
  omega

/-- Generation computes the code of the time step. -/
theorem exists_totpGenerateFromSecret {lib : TotpLibraries} (hlib : lib.AcceptsKeys)
    {totp : TotpSecret} (hvalid : totp.validate = .ok ()) {raw : Bytes}
    (hraw : decodeBase32SecretStrict lib totp.secretB32.exposeSecret = .ok raw) (time : UInt64) :
    ∃ code, totpGenerateFromSecret lib totp time = .ok code ∧
      stepCode? lib totp (time.toNat / totp.periodSecs.toNat) = some code.toNat := by
  obtain ⟨hparams, hdigits, hperiod⟩ := params_of_validate hvalid
  have hne := toUInt64_ne_zero hperiod
  obtain ⟨mac, code, hmac, hcode, hvalue⟩ := exists_macCode hlib totp.algorithm raw
    (toBeBytes (time / totp.periodSecs.toUInt64)) hdigits
  refine ⟨code, ?_, ?_⟩
  · rw [← hcode]
    simp only [totpGenerateFromSecret, totpGenerateRaw, hvalid, hparams, hraw, safely, mapError_ok,
      ok_bind, divisor_of_ne hne]
    rfl
  · rw [stepCode?, hraw]
    have hcounter : Hotp.beBytes 8 (time.toNat / totp.periodSecs.toNat) =
        toBeBytes (time / totp.periodSecs.toUInt64) := by
      rw [toBeBytes, UInt64.toNat_div, UInt32.toNat_toUInt64]
    rw [hcounter]
    simp [Except.toOption, hmac, hvalue]

end Totp

end ViperVault
