import ViperVault.Totp.Verify

/-!
# The code that is shown

`totp_generate_formatted` writes the code of the engine in fixed width. The code is in range
already, so the second reduction changes nothing, and what is read back verifies.
-/

namespace ViperVault

open Foundation

namespace Totp

/-- A code in range is written with its zeros in front. -/
theorem formatTotpCode_of_lt {code : UInt32} {digits : UInt8} (hlower : 6 ≤ digits)
    (hupper : digits ≤ 8) (hcode : code.toNat < 10 ^ digits.toNat) :
    formatTotpCode code digits = .ok (Hotp.text digits.toNat code.toNat) := by
  obtain ⟨modulo, hmodulo, hvalue, hne⟩ := exists_checkedPowTen hupper
  have hnormalized : (code % modulo).toNat = code.toNat := by
    rw [UInt32.toNat_mod, hvalue, Nat.mod_eq_of_lt hcode]
  simp only [formatTotpCode, failIf, if_neg (not_not.mpr (And.intro hlower hupper)), hmodulo,
    okOr_some, safely, mapError_ok, ok_bind, divisor_of_ne hne, hnormalized]
  rfl

/-- The text is the code of the engine in so many decimal digits, and its value is accepted in
every window that reaches the time step. -/
structure ShowsCode (lib : TotpLibraries) (totp : TotpSecret) (time : UInt64) (shown : Text)
    (code : UInt32) : Prop where
  generated : totpGenerateFromSecret lib totp time = .ok code
  length : shown.length = totp.digits.toNat
  digits : ∀ c ∈ shown, c.isDigit = true
  value : Nat.ofDigitChars 10 shown 0 = code.toNat
  verified : ∀ (time₂ : UInt64) (window : UInt8), window ≤ 10 →
    Hotp.InWindow (time₂.toNat / totp.periodSecs.toNat) window.toNat
      (time.toNat / totp.periodSecs.toNat) →
    totpVerify lib totp time₂ (UInt32.ofNat (Nat.ofDigitChars 10 shown 0)) window = .ok true

/-- The code that is shown is the code that the engine accepts. -/
theorem showsCode_of_totpGenerateFormatted {lib : TotpLibraries} (hlib : lib.AcceptsKeys)
    {totp : TotpSecret} {time : UInt64} {shown : Text}
    (h : totpGenerateFormatted lib totp time = .ok shown) :
    ∃ code, ShowsCode lib totp time shown code := by
  rcases decoded_or_refused lib totp with ⟨hvalid, raw, hraw⟩ | ⟨e, -, hrefuses, -⟩
  · obtain ⟨code, hgenerated, hstep⟩ := exists_totpGenerateFromSecret hlib hvalid hraw time
    have hlower : 6 ≤ totp.digits := by
      rcases (totp.validate_eq_ok.mp hvalid).1 with hd | hd | hd <;> rw [hd] <;> decide
    have hupper : totp.digits ≤ 8 := (params_of_validate hvalid).2.1
    have hcode : code.toNat < 10 ^ totp.digits.toNat := by
      simp only [stepCode?, hraw, Except.toOption, Option.bind_eq_bind, Option.bind_some,
        Option.bind_eq_some_iff, Option.some.injEq] at hstep
      obtain ⟨mac, -, hmac⟩ := hstep
      exact hmac ▸ Hotp.code_lt _ mac
    have hshown : shown = Hotp.text totp.digits.toNat code.toNat := by
      rw [totpGenerateFormatted, hgenerated, ok_bind, formatTotpCode_of_lt hlower hupper hcode] at h
      exact (Except.ok.inj h).symm
    have hwidth : 0 < totp.digits.toNat :=
      Nat.lt_of_lt_of_le (by decide) (UInt8.le_iff_toNat_le.mp hlower)
    subst hshown
    refine ⟨code, hgenerated, Hotp.length_text hwidth hcode, fun c => Hotp.isDigit_of_mem_text,
      Hotp.value_text _ _, ?_⟩
    intro time₂ window hwindow hin
    rw [Hotp.value_text, UInt32.ofNat_toNat]
    obtain ⟨found, hfound, hiff⟩ := exists_totpVerify hlib hvalid hraw time₂ code hwindow
    rw [hfound, hiff.mpr ⟨_, hin, hstep⟩]
  · rw [totpGenerateFormatted, hrefuses time] at h
    cases h

/-- The theorem on the sample key at the end of the second time step. -/
theorem showsCode_of_totpGenerateFormatted_sample :
    totpGenerateFormatted sampleTotpLibraries sampleTotp 59 = .ok "287082".toList ∧
      ∃ code, ShowsCode sampleTotpLibraries sampleTotp 59 "287082".toList code := by
  have hshown : totpGenerateFormatted sampleTotpLibraries sampleTotp 59 = .ok "287082".toList := by
    decide +kernel
  exact ⟨hshown, showsCode_of_totpGenerateFormatted sampleTotpLibraries_acceptsKeys hshown⟩

end Totp

end ViperVault
