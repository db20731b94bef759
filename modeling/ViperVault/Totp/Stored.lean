import ViperVault.Entries.Constructors
import ViperVault.Entries.Update
import ViperVault.Otpauth.Totp
import ViperVault.Totp.Verify

/-!
# Stored secrets and their codes

The entries that the constructors, the import and the updates accept have passed
`TotpSecret::validate`, which knows the alphabet and the length; a code takes a secret that the
strict decoder accepts. `EncodesKey` is what lies between the two.
-/

namespace ViperVault

open Foundation VaultEntry

namespace Totp

/-- The entries that are accepted as TOTP entries. -/
inductive Accepts (lib : UriLibraries) : VaultEntry → Prop
  | created {id : Uuid} {title : Text} {totp : TotpSecret} {note : Option Text}
      {entry : VaultEntry} (h : newTotp id title totp note = .ok entry) : Accepts lib entry
  | imported {id : Uuid} {policy : PolicyContext} {uri : Text} {note : Option Text}
      {entry : VaultEntry}
      (h : Otpauth.importTotpFromOtpauthUriWithPolicy lib id policy uri note = .ok entry) :
      Accepts lib entry
  | updated {u : EntryUpdate} {old entry : VaultEntry}
      (h : (applyUpdate u).run old = (.ok (), entry)) (htype : entry.metadata.entryType = .totp) :
      Accepts lib entry

/-- The secret encodes a key of sixteen bytes or more, padded as a whole or not at all. -/
structure EncodesKey (strict : Bool) (s : Text) : Prop where
  /-- the padding stands at the end -/
  inner : '=' ∉ trimPadding s
  /-- there is none, or as much as to the next multiple of eight -/
  padding : trimPadding s = s ∨ Base32.IsPadded s
  /-- bytes can have been encoded in so many symbols -/
  symbols : Base32.IsLength (trimPadding s).length
  /-- sixteen bytes take twenty-six symbols -/
  enough : 26 ≤ (trimPadding s).length
  /-- a strict decoder refuses spare bits -/
  spare : strict = true → Base32.SpareBitsZero (trimPadding s)

/-- What a constructor, an import or an update accepts has a checked block. -/
theorem Accepts.exists_totp {lib : UriLibraries} {entry : VaultEntry} (h : Accepts lib entry) :
    ∃ totp, entry.secret.totp = some totp ∧ totp.validate = .ok () := by
  cases h with
  | created h =>
      obtain ⟨-, -, hvalid, rfl⟩ := newTotp_eq_ok h
      exact ⟨_, rfl, hvalid⟩
  | imported h =>
      obtain ⟨⟨title, totp⟩, -, hnew⟩ := bind_eq_ok.mp h
      obtain ⟨-, -, hvalid, rfl⟩ := newTotp_eq_ok hnew
      exact ⟨_, rfl, hvalid⟩
  | updated h htype =>
      rcases entry.valid_iff.mp (establishes_valid_applyUpdate _ _ _ _ h) with hvalid | hother
      · exact hvalid.2
      · exact absurd htype hother.1

/-- A symbol of the alphabet that is no padding has a value. -/
theorem exists_symbol? {c : Char} (hc : isBase32Char c = true) (hne : c ≠ '=') :
    ∃ d, Base32.symbol? c = some d := by
  simp only [isBase32Char, Bool.or_eq_true, Bool.and_eq_true, decide_eq_true_eq, beq_iff_eq,
    or_iff_left hne] at hc
  unfold Base32.symbol?
  split
  · exact ⟨_, rfl⟩
  · next hupper => exact ⟨_, if_pos (hc.resolve_left hupper)⟩

/-- The strict decoder accepts, among the checked secrets, those that encode a key. -/
theorem exists_decode_iff_encodesKey {lib : TotpLibraries} {strict : Bool}
    (hlib : lib.Rfc4648 strict) {totp : TotpSecret} (hvalid : totp.validate = .ok ()) :
    (∃ raw, decodeBase32SecretStrict lib totp.secretB32.exposeSecret = .ok raw) ↔
      EncodesKey strict totp.secretB32.exposeSecret := by
  obtain ⟨-, -, -, hlen, hascii, halphabet⟩ := totp.validate_eq_ok.mp hvalid
  rw [utf8Len_of_isAscii hascii] at hlen
  simp only [decodeBase32SecretStrict_eq_ok hlib]
  constructor
  · rintro ⟨raw, -, -, -, hinner, hpadding, hdecode, hmin⟩
    have hsome := (Base32.exists_decode_iff strict _).mp ⟨raw, hdecode⟩
    rw [Base32.length_decode hdecode, minSecretRawLen] at hmin
    exact ⟨hinner, hpadding, hsome.2.1, by omega, hsome.2.2⟩
  · intro h
    have hsymbols : ∀ c ∈ trimPadding totp.secretB32.exposeSecret,
        ∃ d, Base32.symbol? c = some d := by
      intro c hc
      have hmem := (List.rdropWhile_prefix _ _).subset hc
      exact exists_symbol? (List.all_eq_true.mp halphabet c hmem) fun heq => h.inner (heq ▸ hc)
    obtain ⟨raw, hdecode⟩ :=
      (Base32.exists_decode_iff strict _).mpr ⟨hsymbols, h.symbols, h.spare⟩
    have henough := h.enough
    refine ⟨raw, hlen, hascii, halphabet, h.inner, h.padding, hdecode, ?_⟩
    rw [Base32.length_decode hdecode, minSecretRawLen]
    omega

/-- A block of the smallest size that authenticators are given: eighty bits. -/
def shortTotp : TotpSecret := { sampleTotp with secretB32 := ⟨"JBSWY3DPEHPK3PXP".toList⟩ }

/-- The entry that `new_totp` makes of a block. -/
def sampleEntry (totp : TotpSecret) : VaultEntry where
  metadata := { id := 1, entryType := .totp }
  secret :=
    { title := ⟨"GitHub".toList⟩, note := none, username := none, secret := totp.secretB32
      extra := none, totp := some totp }

/-- An accepted entry produces a code at every time exactly if its secret encodes a key; if it does
not, it produces none at any time. -/
theorem accepted_produces_codes_iff {uri : UriLibraries} {lib : TotpLibraries} {strict : Bool}
    (hlib : lib.Rfc4648 strict) (hmac : lib.AcceptsKeys) {entry : VaultEntry}
    (hentry : Accepts uri entry) :
    ∃ totp, entry.secret.totp = some totp ∧
      ((∀ time, ∃ code, totpGenerateFromSecret lib totp time = .ok code) ↔
        EncodesKey strict totp.secretB32.exposeSecret) ∧
      (¬ EncodesKey strict totp.secretB32.exposeSecret →
        ∀ time, totpGenerateFromSecret lib totp time = .error (.err .invalidSecret)) := by
  obtain ⟨totp, htotp, hvalid⟩ := hentry.exists_totp
  have hrefused : ¬ EncodesKey strict totp.secretB32.exposeSecret →
      ∀ time, totpGenerateFromSecret lib totp time = .error (.err .invalidSecret) := by
    intro hnot time
    obtain ⟨hparams, -⟩ := params_of_validate hvalid
    cases hraw : decodeBase32SecretStrict lib totp.secretB32.exposeSecret with
    | ok raw => exact absurd ((exists_decode_iff_encodesKey hlib hvalid).mp ⟨raw, hraw⟩) hnot
    | error e =>
        obtain rfl := failsOnly_decodeBase32SecretStrict lib _ e hraw
        simp [totpGenerateFromSecret, hvalid, hparams, hraw, safely]
  refine ⟨totp, htotp, ?_, hrefused⟩
  constructor
  · intro hcodes
    by_contra hnot
    obtain ⟨code, hcode⟩ := hcodes 0
    rw [hrefused hnot 0] at hcode
    cases hcode
  · intro hkey time
    obtain ⟨raw, hraw⟩ := (exists_decode_iff_encodesKey hlib hvalid).mpr hkey
    obtain ⟨code, hcode, -⟩ := exists_totpGenerateFromSecret hmac hvalid hraw time
    exact ⟨code, hcode⟩

/-- The theorem on an entry with the sample key. -/
theorem accepted_produces_codes_iff_sample :
    ∃ totp, (sampleEntry sampleTotp).secret.totp = some totp ∧
      ((∀ time, ∃ code, totpGenerateFromSecret sampleTotpLibraries totp time = .ok code) ↔
        EncodesKey true totp.secretB32.exposeSecret) ∧
      (¬ EncodesKey true totp.secretB32.exposeSecret →
        ∀ time, totpGenerateFromSecret sampleTotpLibraries totp time =
          .error (.err .invalidSecret)) := by
  have hnew : newTotp 1 "GitHub".toList sampleTotp none = .ok (sampleEntry sampleTotp) := rfl
  have haccepts : Accepts standardUri (sampleEntry sampleTotp) := .created hnew
  exact accepted_produces_codes_iff sampleTotpLibraries_rfc4648 sampleTotpLibraries_acceptsKeys
    haccepts

/-- A secret of eighty bits is stored and never produces a code. -/
theorem short_secret_produces_no_code :
    newTotp 1 "GitHub".toList shortTotp none = .ok (sampleEntry shortTotp) ∧
      ∀ time, totpGenerateFromSecret sampleTotpLibraries shortTotp time =
        .error (.err .invalidSecret) := by
  have hvalid : shortTotp.validate = .ok () := by decide
  have hparams : validateParams shortTotp.periodSecs shortTotp.digits = .ok () := by decide
  have hraw : decodeBase32SecretStrict sampleTotpLibraries shortTotp.secretB32.exposeSecret =
      .error .invalidSecret := by decide +kernel
  refine ⟨rfl, fun time => ?_⟩
  simp [totpGenerateFromSecret, hvalid, hparams, hraw, safely]

end Totp

end ViperVault
