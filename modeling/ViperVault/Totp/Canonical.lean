import ViperVault.Totp.Verify

/-!
# Canonical secrets

`canonicalize_base32_for_export` as a normal form. The canonical texts are those that it keeps as
they are, and what it answers is one of them; a secret that the strict decoder takes loses nothing
but its padding, so the canonical text stands for the same key.
-/

namespace ViperVault

open Foundation

namespace Totp

/-- The character is no white space, no hyphen and no small letter. -/
def KeptAsIs (c : Char) : Prop :=
  (!Strings.isWhitespace c && c != '-') = true ∧ c.toUpper = c

instance (c : Char) : Decidable (KeptAsIs c) := inferInstanceAs (Decidable (_ ∧ _))

/-- The canonical form of a text. -/
def canonicalForm (s : Text) : Text :=
  trimPadding ((s.filter fun c => !Strings.isWhitespace c && c != '-').map Char.toUpper)

/-- A text that the export writes. -/
structure IsCanonical (s : Text) : Prop where
  nonempty : s ≠ []
  short : s.length ≤ maxSecretB32Len
  ascii : isAscii s = true
  kept : ∀ c ∈ s, KeptAsIs c
  unpadded : trimPadding s = s

/-! ## Characters -/

/-- A capital letter stays one, and no letter becomes white space or a hyphen. -/
theorem keptAsIs_toUpper {c : Char} (hascii : c.toNat < 128)
    (hc : (!Strings.isWhitespace c && c != '-') = true) :
    KeptAsIs c.toUpper ∧ c.toUpper.val < 0x80 := by
  have hall : ∀ c : Char, c.toNat < 128 → (!Strings.isWhitespace c && c != '-') = true →
      KeptAsIs c.toUpper ∧ c.toUpper.val < 0x80 := Strings.forall_char_lt (by decide +kernel)
  exact hall c hascii hc

/-- A symbol of the alphabet is kept as it is. -/
theorem keptAsIs_of_isBase32Char {c : Char} (hascii : c.toNat < 128)
    (hc : isBase32Char c = true) : KeptAsIs c := by
  have hall : ∀ c : Char, c.toNat < 128 → isBase32Char c = true → KeptAsIs c :=
    Strings.forall_char_lt (by decide +kernel)
  exact hall c hascii hc

/-! ## Canonical forms -/

theorem trimPadding_trimPadding (s : Text) : trimPadding (trimPadding s) = trimPadding s :=
  List.rdropWhile_idempotent _ s

/-- Only the padding goes where every character is kept. -/
theorem canonicalForm_of_kept {s : Text} (h : ∀ c ∈ s, KeptAsIs c) :
    canonicalForm s = trimPadding s := by
  have hfilter := List.filter_eq_self.mpr fun c hc => (h c hc).1
  have hupper : s.map Char.toUpper = s :=
    (List.map_congr_left fun c hc => (h c hc).2).trans (List.map_id s)
  rw [canonicalForm, hfilter, hupper]

theorem mem_canonicalForm {s : Text} {c : Char} (h : c ∈ canonicalForm s) :
    ∃ b ∈ s, (!Strings.isWhitespace b && b != '-') = true ∧ b.toUpper = c := by
  obtain ⟨b, hb, hupper⟩ := List.mem_map.mp ((List.rdropWhile_prefix _ _).subset h)
  obtain ⟨hmem, hkept⟩ := List.mem_filter.mp hb
  exact ⟨b, hmem, hkept, hupper⟩

theorem length_canonicalForm_le (s : Text) : (canonicalForm s).length ≤ s.length :=
  calc (canonicalForm s).length
      ≤ ((s.filter fun c => !Strings.isWhitespace c && c != '-').map Char.toUpper).length :=
        (List.rdropWhile_prefix _ _).length_le
    _ ≤ s.length := by
        rw [List.length_map]
        exact List.length_filter_le _ s

/-- The canonical form of a short ASCII text is canonical, unless nothing is left. -/
theorem isCanonical_canonicalForm {s : Text} (hshort : s.length ≤ maxSecretB32Len)
    (hascii : isAscii s = true) (hne : canonicalForm s ≠ []) : IsCanonical (canonicalForm s) where
  nonempty := hne
  short := (length_canonicalForm_le s).trans hshort
  ascii := by
    refine List.all_eq_true.mpr fun c hc => decide_eq_true ?_
    obtain ⟨b, hb, hkept, rfl⟩ := mem_canonicalForm hc
    exact (keptAsIs_toUpper (toNat_lt_of_isAscii hascii hb) hkept).2
  kept := by
    intro c hc
    obtain ⟨b, hb, hkept, rfl⟩ := mem_canonicalForm hc
    exact (keptAsIs_toUpper (toNat_lt_of_isAscii hascii hb) hkept).1
  unpadded := trimPadding_trimPadding _

/-- What is canonicalized, and to what. -/
theorem canonicalizeBase32ForExport_eq_ok {s c : Text} :
    canonicalizeBase32ForExport s = .ok c ↔
      s.length ≤ maxSecretB32Len ∧ isAscii s = true ∧ canonicalForm s ≠ [] ∧
        c = canonicalForm s := by
  have hform : canonicalForm s ≠ [] → s ≠ [] := by
    rintro hne rfl
    exact hne rfl
  rw [canonicalizeBase32ForExport, check_bind_eq_ok, check_bind_eq_ok, check_bind_eq_ok]
  simp only [failIf_eq_ok, pure_eq_ok, not_or, Nat.not_lt, Bool.not_eq_false]
  constructor
  · rintro ⟨⟨-, hshort⟩, hascii, hne, hc⟩
    exact ⟨utf8Len_of_isAscii hascii ▸ hshort, hascii, hne, hc.symm⟩
  · rintro ⟨hshort, hascii, hne, hc⟩
    exact ⟨⟨hform hne, (utf8Len_of_isAscii hascii).symm ▸ hshort⟩, hascii, hne, hc.symm⟩

/-- What is answered is canonical. -/
theorem isCanonical_of_canonicalize {s c : Text} (h : canonicalizeBase32ForExport s = .ok c) :
    IsCanonical c := by
  obtain ⟨hshort, hascii, hne, rfl⟩ := canonicalizeBase32ForExport_eq_ok.mp h
  exact isCanonical_canonicalForm hshort hascii hne

/-- The canonical texts are those that are kept. -/
theorem isCanonical_iff {s : Text} :
    IsCanonical s ↔ canonicalizeBase32ForExport s = .ok s := by
  refine ⟨fun h => ?_, isCanonical_of_canonicalize⟩
  have hform : canonicalForm s = s := (canonicalForm_of_kept h.kept).trans h.unpadded
  exact canonicalizeBase32ForExport_eq_ok.mpr
    ⟨h.short, h.ascii, hform.symm ▸ h.nonempty, hform.symm⟩

/-! ## Keys -/

/-- A secret in the alphabet is canonical but for its padding. -/
theorem canonicalizeBase32ForExport_of_alphabet {s : Text} (hshort : s.length ≤ maxSecretB32Len)
    (hascii : isAscii s = true) (halphabet : s.all isBase32Char = true) {c : Text} :
    canonicalizeBase32ForExport s = .ok c ↔ trimPadding s ≠ [] ∧ c = trimPadding s := by
  have hkept : ∀ c ∈ s, KeptAsIs c := fun c hc =>
    keptAsIs_of_isBase32Char (toNat_lt_of_isAscii hascii hc) (List.all_eq_true.mp halphabet c hc)
  rw [canonicalizeBase32ForExport_eq_ok, canonicalForm_of_kept hkept]
  constructor
  · rintro ⟨-, -, hne, rfl⟩
    exact ⟨hne, rfl⟩
  · rintro ⟨hne, rfl⟩
    exact ⟨hshort, hascii, hne, rfl⟩

/-- Without its padding a secret that is decoded has the same key, which the decoder for texts
without padding finds. -/
theorem decodeBase32SecretStrict_trimPadding {lib : TotpLibraries} {strict : Bool}
    (hlib : lib.Rfc4648 strict) {s : Text} {raw : Bytes}
    (h : decodeBase32SecretStrict lib s = .ok raw) :
    decodeBase32SecretStrict lib (trimPadding s) = .ok raw := by
  obtain ⟨hlen, hascii, halphabet, hinner, -, hdecode, hmin⟩ :=
    (decodeBase32SecretStrict_eq_ok hlib).mp h
  have hle : (trimPadding s).length ≤ s.length := (List.rdropWhile_prefix _ _).length_le
  rw [decodeBase32SecretStrict_eq_ok hlib, trimPadding_trimPadding]
  exact ⟨hle.trans hlen, isAscii_trimPadding hascii, all_isBase32Char_trimPadding halphabet,
    hinner, Or.inl rfl, hdecode, hmin⟩

/-- The canonical text of a secret that is decoded is the secret without its padding. -/
theorem canonicalizeBase32ForExport_of_decode {lib : TotpLibraries} {strict : Bool}
    (hlib : lib.Rfc4648 strict) {s : Text} {raw : Bytes}
    (h : decodeBase32SecretStrict lib s = .ok raw) :
    canonicalizeBase32ForExport s = .ok (trimPadding s) := by
  obtain ⟨hlen, hascii, halphabet, -, -, hdecode, hmin⟩ :=
    (decodeBase32SecretStrict_eq_ok hlib).mp h
  have hne : trimPadding s ≠ [] := by
    intro hnil
    rw [Base32.length_decode hdecode, hnil] at hmin
    exact absurd hmin (by decide)
  exact (canonicalizeBase32ForExport_of_alphabet hlen hascii halphabet).mpr ⟨hne, rfl⟩

/-- A secret of sixteen bytes with all of its padding. -/
def paddedSecret : Text := "GEZDGNBVGY3TQOJQGEZDGNBVGY======".toList

/-- Canonicalization is idempotent, and keeps the key of every secret that is decoded. -/
theorem canonicalize_keeps_keys {lib : TotpLibraries} {strict : Bool} (hlib : lib.Rfc4648 strict)
    (s : Text) :
    (∀ c, canonicalizeBase32ForExport s = .ok c → canonicalizeBase32ForExport c = .ok c) ∧
      ∀ raw, decodeBase32SecretStrict lib s = .ok raw →
        ∃ c, canonicalizeBase32ForExport s = .ok c ∧
          decodeBase32SecretStrict lib c = .ok raw := by
  constructor
  · intro c hc
    exact isCanonical_iff.mp (isCanonical_of_canonicalize hc)
  · intro raw hraw
    exact ⟨trimPadding s, canonicalizeBase32ForExport_of_decode hlib hraw,
      decodeBase32SecretStrict_trimPadding hlib hraw⟩

/-- The theorem on the secret with its padding. -/
theorem canonicalize_keeps_keys_padded :
    (∀ c, canonicalizeBase32ForExport paddedSecret = .ok c →
        canonicalizeBase32ForExport c = .ok c) ∧
      (∀ raw, decodeBase32SecretStrict sampleTotpLibraries paddedSecret = .ok raw →
        ∃ c, canonicalizeBase32ForExport paddedSecret = .ok c ∧
          decodeBase32SecretStrict sampleTotpLibraries c = .ok raw) ∧
      decodeBase32SecretStrict sampleTotpLibraries paddedSecret =
        .ok [49, 50, 51, 52, 53, 54, 55, 56, 57, 48, 49, 50, 51, 52, 53, 54] := by
  obtain ⟨hidempotent, hkeys⟩ := canonicalize_keeps_keys sampleTotpLibraries_rfc4648 paddedSecret
  exact ⟨hidempotent, hkeys, by decide +kernel⟩

end Totp

end ViperVault
