import ViperVault.Otpauth.RoundTrip

/-!
# What a label keeps

The label packs issuer and account, or it is the title; `split_label` trims it and takes it apart
at the first colon. `Separable` says which texts come back as they were.
-/

namespace ViperVault

open Foundation Entries Totp Strings

namespace Otpauth

/-! ## Splitting -/

theorem nonEmpty_eq_some {s t : Text} : nonEmpty s = some t ↔ s = t ∧ t ≠ [] := by
  unfold nonEmpty
  split
  · next h => simp [h]
  · next h =>
      rw [Option.some.injEq]
      constructor
      · rintro rfl
        exact ⟨rfl, h⟩
      · exact And.left

theorem nonEmpty_eq_none {s : Text} : nonEmpty s = none ↔ s = [] := by
  unfold nonEmpty
  split
  · next h => simp [h]
  · next h => simp [h]

/-- A label without a colon is a title. -/
theorem splitLabel_of_not_mem {s : Text} (hs : ':' ∉ s) : splitLabel s = ⟨none, none, trim s⟩ := by
  have htrim : ':' ∉ trim s := fun h => hs (trim_subset s h)
  rw [splitLabel, splitOnce_eq_none htrim]

/-- A label is split at its first colon, and both sides are trimmed. -/
theorem splitLabel_append {i a : Text} (hi : ':' ∉ i) :
    splitLabel (i ++ ':' :: a) =
      ⟨nonEmpty (trim i), nonEmpty (trim a), (nonEmpty (trim i)).getD (trim (i ++ ':' :: a))⟩ := by
  have hcolon : isWhitespace ':' = false := rfl
  have hfirst : ':' ∉ i.dropWhile isWhitespace :=
    fun h => hi ((List.dropWhile_suffix _).subset h)
  rw [splitLabel, trim_append_cons hcolon, splitOnce_append hfirst]
  simp only [trim_dropWhile, trim_rdropWhile]

/-- A title comes back alone if it is trimmed and has no colon, or nothing but one. -/
theorem splitLabel_title_iff (s : Text) :
    (splitLabel s).account = none ∧ (splitLabel s).title = s ↔
      trim s = s ∧ (':' ∉ s ∨ s = [':']) := by
  by_cases hs : ':' ∈ s
  · obtain ⟨i, a, rfl, hi⟩ := exists_first hs
    rw [splitLabel_append hi]
    simp only [nonEmpty_eq_none, hs, not_true_eq_false, false_or]
    constructor
    · rintro ⟨ha, htitle⟩
      by_cases hblank : trim i = []
      · rw [nonEmpty_eq_none.mpr hblank, Option.getD_none] at htitle
        refine ⟨htitle, ?_⟩
        have hbefore := List.dropWhile_eq_nil_iff.mpr (trim_eq_nil_iff.mp hblank)
        have hafter := List.rdropWhile_eq_nil_iff.mpr (trim_eq_nil_iff.mp ha)
        rw [← htitle, trim_append_cons rfl, hbefore, hafter]
        rfl
      · rw [nonEmpty_eq_some.mpr ⟨rfl, hblank⟩, Option.getD_some] at htitle
        exact absurd (trim_subset i (htitle ▸ hs)) hi
    · rintro ⟨-, hcolon⟩
      obtain ⟨rfl, rfl⟩ : i = [] ∧ a = [] := by
        cases i with
        | nil => exact ⟨rfl, List.cons.inj hcolon |>.2⟩
        | cons c i => simp at hcolon
      exact ⟨rfl, rfl⟩
  · rw [splitLabel_of_not_mem hs]
    simp [hs]

/-- Such a title has no issuer in it. -/
theorem splitLabel_issuer_none {s : Text} (hs : ':' ∉ s ∨ s = [':']) :
    (splitLabel s).issuer = none := by
  rcases hs with hs | rfl
  · rw [splitLabel_of_not_mem hs]
  · rfl

/-- With no issuer in front of it, an account comes back from a title that starts with a colon. -/
theorem splitLabel_account_iff {s a : Text} (ha : a ≠ []) :
    (splitLabel s).issuer = none ∧ (splitLabel s).account = some a ∧ (splitLabel s).title = s ↔
      trim s = s ∧ ∃ rest, s = ':' :: rest ∧ trim rest = a := by
  by_cases hs : ':' ∈ s
  · obtain ⟨i, b, rfl, hi⟩ := exists_first hs
    rw [splitLabel_append hi]
    simp only [nonEmpty_eq_none, nonEmpty_eq_some]
    constructor
    · rintro ⟨hblank, ⟨hb, -⟩, htitle⟩
      rw [nonEmpty_eq_none.mpr hblank, Option.getD_none] at htitle
      refine ⟨htitle, b.rdropWhile isWhitespace, ?_, by rw [trim_rdropWhile, hb]⟩
      rw [← htitle, trim_append_cons rfl, List.dropWhile_eq_nil_iff.mpr (trim_eq_nil_iff.mp hblank),
        List.nil_append]
    · rintro ⟨htrim, rest, hrest, hb⟩
      obtain ⟨rfl, rfl⟩ : i = [] ∧ b = rest := by
        cases i with
        | nil => exact ⟨rfl, List.cons.inj hrest |>.2⟩
        | cons c i =>
            rw [List.cons_append, List.cons.injEq] at hrest
            exact absurd (hrest.1 ▸ List.mem_cons_self) hi
      exact ⟨rfl, ⟨hb, ha⟩, htrim⟩
  · rw [splitLabel_of_not_mem hs]
    constructor
    · rintro ⟨-, h, -⟩
      cases h
    · rintro ⟨-, rest, rfl, -⟩
      exact absurd List.mem_cons_self hs

/-- Issuer and account come back from their label if they are trimmed and the issuer has no
colon. -/
theorem splitLabel_both_iff {i a : Text} (hi : i ≠ []) (ha : a ≠ []) :
    (splitLabel (i ++ ':' :: a)).account = some a ∧ (splitLabel (i ++ ':' :: a)).title = i ↔
      trim i = i ∧ ':' ∉ i ∧ trim a = a := by
  by_cases hcolon : ':' ∈ i
  · -- the account would be a proper part of itself
    obtain ⟨j, k, rfl, hj⟩ := exists_first hcolon
    refine iff_of_false ?_ fun h => h.2.1 hcolon
    rintro ⟨haccount, -⟩
    rw [List.append_assoc, List.cons_append, splitLabel_append hj, nonEmpty_eq_some,
      trim_append_cons rfl] at haccount
    have hend : a.rdropWhile isWhitespace = a := by
      have hagain := congrArg (List.rdropWhile isWhitespace) haccount.1
      rw [rdropWhile_append_cons rfl, List.rdropWhile_idempotent, haccount.1] at hagain
      exact hagain.symm
    have hlength := congrArg List.length haccount.1
    rw [hend, List.length_append, List.length_cons] at hlength
    omega
  · rw [splitLabel_append hcolon]
    simp only [nonEmpty_eq_some, hcolon, not_false_eq_true, true_and]
    constructor
    · rintro ⟨⟨haccount, -⟩, htitle⟩
      by_cases hblank : trim i = []
      · rw [nonEmpty_eq_none.mpr hblank, Option.getD_none, trim_append_cons rfl] at htitle
        exact absurd (htitle ▸ List.mem_append_right _ List.mem_cons_self) hcolon
      · rw [nonEmpty_eq_some.mpr ⟨rfl, hblank⟩, Option.getD_some] at htitle
        exact ⟨htitle, haccount⟩
    · rintro ⟨hissuer, haccount⟩
      refine ⟨⟨haccount, ha⟩, ?_⟩
      rw [hissuer, nonEmpty_eq_some.mpr ⟨rfl, hi⟩, Option.getD_some]

/-! ## Identity -/

/-- The title that is to come back. -/
def keptTitle (title : Text) (totp : TotpSecret) : Text :=
  match totp.issuer, totp.accountName with
  | some iss, some _ => iss.exposeSecret
  | _, _ => title

/-- The URI is accepted, with the issuer, the account and the title that were exported. -/
def KeepsIdentity (uri : UriLibraries) (policy : PolicyContext) (title : Text) (totp : TotpSecret)
    (u : Text) : Prop :=
  ∃ title' totp', parseTotpOtpauthUri uri policy u = .ok (title', totp') ∧
    totp'.issuer = totp.issuer ∧ totp'.accountName = totp.accountName ∧
    title' = keptTitle title totp

/-- The import does not take the text for a mixture of scripts. -/
def Unmixed (s : Text) : Prop := rejectScriptMixing s = .ok ()

instance (s : Text) : Decidable (Unmixed s) :=
  inferInstanceAs (Decidable (rejectScriptMixing s = .ok ()))

/-- A title that can stand as a label. -/
structure LabelTitle (title : Text) : Prop where
  trimmed : trim title = title
  /-- the URL parser does not take it for a dot segment -/
  kept : ¬ LostLabel title
  unmixed : Unmixed title

/-- The label and the issuer can be read back as what they were. -/
def Separable (title : Text) (totp : TotpSecret) : Prop :=
  match totp.issuer, totp.accountName with
  | some iss, some acc =>
      (trim iss.exposeSecret = iss.exposeSecret ∧ ':' ∉ iss.exposeSecret ∧
        trim acc.exposeSecret = acc.exposeSecret) ∧
      Unmixed iss.exposeSecret ∧ Unmixed acc.exposeSecret
  | some iss, none =>
      LabelTitle title ∧ (':' ∉ title ∨ title = [':']) ∧ Unmixed iss.exposeSecret
  | none, none => LabelTitle title ∧ (':' ∉ title ∨ title = [':'])
  | none, some acc =>
      LabelTitle title ∧ (∃ rest, title = ':' :: rest ∧ trim rest = acc.exposeSecret) ∧
        Unmixed acc.exposeSecret

theorem map_mk_eq_some {o : Option Text} {s : SecretString} :
    o.map SecretString.mk = some s ↔ o = some s.exposeSecret := by
  cases o with
  | none => simp
  | some t =>
      obtain ⟨s⟩ := s
      simp

theorem checkDisplay_eq_ok {validate : Text → Except EntryError Unit} {s : Text} :
    checkDisplay validate s = .ok () ↔ validate s = .ok () ∧ Unmixed s := by
  rw [checkDisplay, check_bind_eq_ok, mapError_eq_ok, mapError_eq_ok]
  rfl

/-- A part that comes back as it was passes if it was valid and does not mix scripts. -/
theorem checkOptional_eq_ok {validate : Text → Except EntryError Unit} {o : Option Text}
    {s : Option SecretString} (hsame : o.map SecretString.mk = s)
    (hvalid : ∀ t, s = some t → validate t.exposeSecret = .ok ()) :
    checkOptional validate o = .ok () ↔ ∀ t, s = some t → Unmixed t.exposeSecret := by
  subst hsame
  cases o with
  | none => simp [checkOptional]
  | some text =>
      have hchecked : validate text = .ok () := hvalid ⟨text⟩ rfl
      simp [checkOptional, checkDisplay_eq_ok, hchecked]

theorem ne_nil_of_validate {maxLen : Nat} {s : Text} (h : validateVisible maxLen s = .ok ()) :
    s ≠ [] := by
  rintro rfl
  cases h

/-- The block that is read back is as valid as the one that was written. -/
theorem readBlock_valid (title : Text) {totp : TotpSecret} (hvalid : totp.validate = .ok ())
    (hne : trimPadding totp.secretB32.exposeSecret ≠ []) :
    (readBlock title totp (trimPadding totp.secretB32.exposeSecret)).validate = .ok () := by
  obtain ⟨hdigits, hperiod, -, hlen, hascii, halphabet⟩ := totp.validate_eq_ok.mp hvalid
  have hsub := List.rdropWhile_prefix (· == '=') totp.secretB32.exposeSecret
  have hascii' := isAscii_trimPadding hascii
  rw [TotpSecret.validate_eq_ok]
  refine ⟨hdigits, hperiod, hne, ?_, hascii', all_isBase32Char_trimPadding halphabet⟩
  rw [utf8Len_of_isAscii hascii] at hlen
  exact (utf8Len_of_isAscii hascii').trans_le (hsub.length_le.trans hlen)

/-- The label is not lost, the texts pass the checks, and the label is split into the parts that it
was made of. -/
structure ReadsBack (title : Text) (totp : TotpSecret) : Prop where
  kept : ¬ LostLabel (labelText title totp)
  titleChecked : checkDisplay validateTitle (splitLabel (labelText title totp)).title = .ok ()
  accountChecked :
    checkOptional validateUsername (splitLabel (labelText title totp)).account = .ok ()
  issuerChecked : checkOptional validateTitle (readIssuer title totp) = .ok ()
  issuer : (readIssuer title totp).map SecretString.mk = totp.issuer
  account : (splitLabel (labelText title totp)).account.map SecretString.mk = totp.accountName
  title : (splitLabel (labelText title totp)).title = keptTitle title totp

theorem keepsIdentity_exported {uri : UriLibraries} (hstd : uri.Standard) {policy : PolicyContext}
    (hpolicy : policy.allowOtpauthImport = true) {title : Text} {totp : TotpSecret}
    (hvalid : totp.validate = .ok ())
    (hne : trimPadding totp.secretB32.exposeSecret ≠ []) :
    KeepsIdentity uri policy title totp
        (exportedUri title totp (trimPadding totp.secretB32.exposeSecret)) ↔
      utf8Len (exportedUri title totp (trimPadding totp.secretB32.exposeSecret)) ≤
          maxOtpAuthUriLen ∧ ReadsBack title totp := by
  have hblock := readBlock_valid title hvalid hne
  unfold KeepsIdentity
  simp only [parseTotpOtpauthUri_exported hstd]
  constructor
  · rintro ⟨_, _, ⟨-, hlen, hlost, htitle, haccount, hissuer, -, rfl, rfl⟩, hiss, hacc, hsame⟩
    exact ⟨hlen, hlost, htitle, haccount, hissuer, hiss, hacc, hsame⟩
  · rintro ⟨hlen, hlost, htitle, haccount, hissuer, hiss, hacc, hsame⟩
    exact ⟨_, _, ⟨hpolicy, hlen, hlost, htitle, haccount, hissuer, hblock, rfl, rfl⟩, hiss, hacc,
      hsame⟩

section Cases

variable {title : Text} {totp : TotpSecret} {iss acc : SecretString}

/-- Once the texts are those that went in, all that is left of their checks is the scripts. -/
theorem readsBack_iff (htitle : validateTitle (keptTitle title totp) = .ok ())
    (hissuer : ∀ iss, totp.issuer = some iss → validateTitle iss.exposeSecret = .ok ())
    (haccount : ∀ acc, totp.accountName = some acc → validateUsername acc.exposeSecret = .ok ()) :
    ReadsBack title totp ↔
      (¬ LostLabel (labelText title totp) ∧ Unmixed (keptTitle title totp) ∧
        (∀ acc, totp.accountName = some acc → Unmixed acc.exposeSecret) ∧
        ∀ iss, totp.issuer = some iss → Unmixed iss.exposeSecret) ∧
      (readIssuer title totp).map SecretString.mk = totp.issuer ∧
      (splitLabel (labelText title totp)).account.map SecretString.mk = totp.accountName ∧
      (splitLabel (labelText title totp)).title = keptTitle title totp := by
  constructor
  · rintro ⟨hlost, hdisplay, hchecked, hchecked', hiss, hacc, hsame⟩
    rw [hsame, checkDisplay_eq_ok] at hdisplay
    exact ⟨⟨hlost, hdisplay.2, (checkOptional_eq_ok hacc haccount).mp hchecked,
      (checkOptional_eq_ok hiss hissuer).mp hchecked'⟩, hiss, hacc, hsame⟩
  · rintro ⟨⟨hlost, hunmixed, hunmixedAcc, hunmixedIss⟩, hiss, hacc, hsame⟩
    refine ⟨hlost, ?_, (checkOptional_eq_ok hacc haccount).mpr hunmixedAcc,
      (checkOptional_eq_ok hiss hissuer).mpr hunmixedIss, hiss, hacc, hsame⟩
    rw [hsame, checkDisplay_eq_ok]
    exact ⟨htitle, hunmixed⟩

theorem readIssuer_of_none (h : totp.issuer = none) :
    readIssuer title totp = (splitLabel (labelText title totp)).issuer := by
  rw [readIssuer, h]
  rfl

theorem readIssuer_of_some (h : totp.issuer = some iss) :
    readIssuer title totp = some iss.exposeSecret := by
  rw [readIssuer, h]
  rfl

/-- The label is the title, and there is nothing to keep but it. -/
theorem readsBack_title_iff (hiss : totp.issuer = none) (hacc : totp.accountName = none)
    (htitle : validateTitle title = .ok ()) :
    ReadsBack title totp ↔ LabelTitle title ∧ (':' ∉ title ∨ title = [':']) := by
  have hlabel : labelText title totp = title := by rw [labelText, hiss]
  have hkept : keptTitle title totp = title := by rw [keptTitle, hiss]
  rw [readsBack_iff (by rwa [hkept]) (by simp [hiss]) (by simp [hacc]), readIssuer_of_none hiss,
    hlabel, hkept, hiss, hacc]
  simp only [Option.map_eq_none_iff, reduceCtorEq, false_implies, implies_true, and_true]
  constructor
  · rintro ⟨⟨hlost, hunmixed⟩, -, haccount, hsame⟩
    obtain ⟨htrim, hcolon⟩ := (splitLabel_title_iff title).mp ⟨haccount, hsame⟩
    exact ⟨⟨htrim, hlost, hunmixed⟩, hcolon⟩
  · rintro ⟨⟨htrim, hlost, hunmixed⟩, hcolon⟩
    obtain ⟨hnone, hsame⟩ := (splitLabel_title_iff title).mpr ⟨htrim, hcolon⟩
    exact ⟨⟨hlost, hunmixed⟩, splitLabel_issuer_none hcolon, hnone, hsame⟩

/-- The label is the title, and the issuer comes from its own parameter. -/
theorem readsBack_issuer_iff (hiss : totp.issuer = some iss) (hacc : totp.accountName = none)
    (htitle : validateTitle title = .ok ()) (hissuer : validateTitle iss.exposeSecret = .ok ()) :
    ReadsBack title totp ↔
      LabelTitle title ∧ (':' ∉ title ∨ title = [':']) ∧ Unmixed iss.exposeSecret := by
  have hlabel : labelText title totp = title := by rw [labelText, hiss, hacc]
  have hkept : keptTitle title totp = title := by rw [keptTitle, hiss, hacc]
  rw [readsBack_iff (by rwa [hkept]) (by simpa [hiss] using hissuer) (by simp [hacc]),
    readIssuer_of_some hiss, hlabel, hkept, hiss, hacc]
  simp only [Option.map_eq_none_iff, Option.map_some, reduceCtorEq, false_implies, implies_true,
    Option.some.injEq, forall_eq', true_and]
  constructor
  · rintro ⟨⟨hlost, hunmixed, hunmixed'⟩, haccount, hsame⟩
    obtain ⟨htrim, hcolon⟩ := (splitLabel_title_iff title).mp ⟨haccount, hsame⟩
    exact ⟨⟨htrim, hlost, hunmixed⟩, hcolon, hunmixed'⟩
  · rintro ⟨⟨htrim, hlost, hunmixed⟩, hcolon, hunmixed'⟩
    exact ⟨⟨hlost, hunmixed, hunmixed'⟩, (splitLabel_title_iff title).mpr ⟨htrim, hcolon⟩⟩

/-- The label is the title, so that an account comes back only if it stands there. -/
theorem readsBack_account_iff (hiss : totp.issuer = none) (hacc : totp.accountName = some acc)
    (htitle : validateTitle title = .ok ())
    (haccount : validateUsername acc.exposeSecret = .ok ()) :
    ReadsBack title totp ↔
      LabelTitle title ∧ (∃ rest, title = ':' :: rest ∧ trim rest = acc.exposeSecret) ∧
        Unmixed acc.exposeSecret := by
  have hlabel : labelText title totp = title := by rw [labelText, hiss]
  have hkept : keptTitle title totp = title := by rw [keptTitle, hiss]
  have hsplit := splitLabel_account_iff (s := title) (ne_nil_of_validate haccount)
  rw [readsBack_iff (by rwa [hkept]) (by simp [hiss]) (by simpa [hacc] using haccount),
    readIssuer_of_none hiss, hlabel, hkept, hiss, hacc]
  simp only [Option.map_eq_none_iff, map_mk_eq_some, reduceCtorEq, false_implies, implies_true,
    Option.some.injEq, forall_eq', and_true]
  constructor
  · rintro ⟨⟨hlost, hunmixed, hunmixed'⟩, hparts⟩
    obtain ⟨htrim, hrest⟩ := hsplit.mp hparts
    exact ⟨⟨htrim, hlost, hunmixed⟩, hrest, hunmixed'⟩
  · rintro ⟨⟨htrim, hlost, hunmixed⟩, hrest, hunmixed'⟩
    exact ⟨⟨hlost, hunmixed, hunmixed'⟩, hsplit.mpr ⟨htrim, hrest⟩⟩

/-- A label with a colon in it is not lost. -/
theorem not_lostLabel_of_mem {s : Text} (hs : ':' ∈ s) : ¬ LostLabel s := by
  have hcolon : ∀ t ∈ [[], ['.'], ['.', '.']], ':' ∉ t := by decide
  exact fun h => hcolon s h hs

/-- The label is made of issuer and account. -/
theorem readsBack_both_iff (hiss : totp.issuer = some iss) (hacc : totp.accountName = some acc)
    (hissuer : validateTitle iss.exposeSecret = .ok ())
    (haccount : validateUsername acc.exposeSecret = .ok ()) :
    ReadsBack title totp ↔
      (trim iss.exposeSecret = iss.exposeSecret ∧ ':' ∉ iss.exposeSecret ∧
        trim acc.exposeSecret = acc.exposeSecret) ∧
      Unmixed iss.exposeSecret ∧ Unmixed acc.exposeSecret := by
  have hlabel : labelText title totp = iss.exposeSecret ++ ':' :: acc.exposeSecret := by
    rw [labelText, hiss, hacc]
  have hkept : keptTitle title totp = iss.exposeSecret := by rw [keptTitle, hiss, hacc]
  have hlost : ¬ LostLabel (iss.exposeSecret ++ ':' :: acc.exposeSecret) :=
    not_lostLabel_of_mem (List.mem_append_right _ List.mem_cons_self)
  have hsplit := splitLabel_both_iff (ne_nil_of_validate hissuer) (ne_nil_of_validate haccount)
  rw [readsBack_iff (by rwa [hkept]) (by simpa [hiss] using hissuer)
    (by simpa [hacc] using haccount), readIssuer_of_some hiss, hlabel, hkept, hiss, hacc]
  simp only [map_mk_eq_some, Option.map_some, Option.some.injEq, forall_eq', true_and]
  constructor
  · rintro ⟨⟨-, hunmixed, hunmixed', -⟩, hparts⟩
    exact ⟨hsplit.mp hparts, hunmixed, hunmixed'⟩
  · rintro ⟨hparts, hunmixed, hunmixed'⟩
    exact ⟨⟨hlost, hunmixed, hunmixed', hunmixed⟩, hsplit.mpr hparts⟩

end Cases

/-- An entry of an issuer and an account. -/
def labelledTotp : TotpSecret :=
  { sampleTotp with
    issuer := some ⟨"GitHub".toList⟩
    accountName := some ⟨"bob@example.com".toList⟩ }

/-- The same account without an issuer. -/
def accountTotp : TotpSecret := { sampleTotp with accountName := some ⟨"bob@example.com".toList⟩ }

/-- An exported entry comes back with its issuer, its account and its title exactly if the URI is
at most as long as the parser allows and the texts of the label can be separated again. -/
theorem keepsIdentity_iff {uri : UriLibraries} (hstd : uri.Standard) {policy : PolicyContext}
    (hpolicy : policy.allowOtpauthImport = true) {id : Uuid} {title u : Text} {totp : TotpSecret}
    {note : Option Text} {entry : VaultEntry}
    (hnew : VaultEntry.newTotp id title totp note = .ok entry)
    (hissuer : ∀ iss, totp.issuer = some iss → validateTitle iss.exposeSecret = .ok ())
    (haccount : ∀ acc, totp.accountName = some acc → validateUsername acc.exposeSecret = .ok ())
    (hexport : exportTotpOtpauthUri uri title totp = .ok u) :
    KeepsIdentity uri policy title totp u ↔
      utf8Len u ≤ maxOtpAuthUriLen ∧ Separable title totp := by
  obtain ⟨htitle, -, hvalid, -⟩ := newTotp_eq_ok hnew
  obtain ⟨-, hne, rfl⟩ := (exportTotpOtpauthUri_eq_ok hstd).mp hexport
  rw [keepsIdentity_exported hstd hpolicy hvalid hne]
  refine and_congr_right fun _ => ?_
  cases hiss : totp.issuer with
  | none =>
      cases hacc : totp.accountName with
      | none =>
          rw [readsBack_title_iff hiss hacc htitle, Separable, hiss, hacc]
      | some acc =>
          rw [readsBack_account_iff hiss hacc htitle (haccount acc hacc), Separable, hiss, hacc]
  | some iss =>
      cases hacc : totp.accountName with
      | none =>
          rw [readsBack_issuer_iff hiss hacc htitle (hissuer iss hiss), Separable, hiss, hacc]
      | some acc =>
          rw [readsBack_both_iff hiss hacc (hissuer iss hiss) (haccount acc hacc), Separable, hiss,
            hacc]

/-- The theorem on an issuer and an account. -/
theorem keepsIdentity_iff_labelled :
    ∃ u, exportTotpOtpauthUri standardUri "GitHub".toList labelledTotp = .ok u ∧
      (KeepsIdentity standardUri allowingPolicy "GitHub".toList labelledTotp u ↔
        utf8Len u ≤ maxOtpAuthUriLen ∧ Separable "GitHub".toList labelledTotp) := by
  have hnew : VaultEntry.newTotp 1 "GitHub".toList labelledTotp none =
      .ok (sampleEntry labelledTotp) := rfl
  have hexport : exportTotpOtpauthUri standardUri "GitHub".toList labelledTotp =
      .ok (exportedUri "GitHub".toList labelledTotp labelledTotp.secretB32.exposeSecret) :=
    (exportTotpOtpauthUri_eq_ok standardUri_standard).mpr (by decide +kernel)
  have hissuer : ∀ iss, labelledTotp.issuer = some iss →
      validateTitle iss.exposeSecret = .ok () := by
    rintro iss ⟨⟩
    decide
  have haccount : ∀ acc, labelledTotp.accountName = some acc →
      validateUsername acc.exposeSecret = .ok () := by
    rintro acc ⟨⟩
    decide
  exact ⟨_, hexport, keepsIdentity_iff standardUri_standard (by decide) hnew hissuer haccount
    hexport⟩

/-- An account without an issuer is not in the label, and does not come back. -/
theorem account_without_issuer_is_dropped :
    VaultEntry.newTotp 1 "GitHub".toList accountTotp none = .ok (sampleEntry accountTotp) ∧
      validateUsername "bob@example.com".toList = .ok () ∧
      ∃ u, exportTotpOtpauthUri standardUri "GitHub".toList accountTotp = .ok u ∧
        ¬ KeepsIdentity standardUri allowingPolicy "GitHub".toList accountTotp u := by
  have hexport : exportTotpOtpauthUri standardUri "GitHub".toList accountTotp =
      .ok (exportedUri "GitHub".toList accountTotp accountTotp.secretB32.exposeSecret) :=
    (exportTotpOtpauthUri_eq_ok standardUri_standard).mpr (by decide +kernel)
  have hparse : parseTotpOtpauthUri standardUri allowingPolicy
      (exportedUri "GitHub".toList accountTotp accountTotp.secretB32.exposeSecret) =
        .ok ("GitHub".toList, sampleTotp) :=
    (parseTotpOtpauthUri_exported standardUri_standard).mpr (by decide +kernel)
  refine ⟨rfl, by decide, _, hexport, ?_⟩
  rintro ⟨title', totp', h, -, haccount, -⟩
  rw [hparse] at h
  cases h
  cases haccount

end Otpauth

end ViperVault
