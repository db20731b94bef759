import ViperVault.Otpauth.Totp
import ViperVault.Totp.Canonical
import ViperVault.Totp.Stored

/-!
# Exported URIs read back

`parse_totp_otpauth_uri` on what `export_totp_otpauth_uri` writes. No text can come between the
parameters, so the code parameters are those of the block; the label is one text in which two were
packed, so issuer, account and title survive only if the text can be taken apart again.
-/

namespace ViperVault

open Foundation Entries Totp

namespace Otpauth

variable {uri : UriLibraries}

/-- The URI of a block with a canonical secret. -/
def exportedUri (title : Text) (totp : TotpSecret) (secret : Text) : Text :=
  otpauthPrefix ++ Percent.encode (labelText title totp) ++
    '?' :: Percent.encodeForm (exportedPairs totp secret)

/-- A checked secret is canonical but for its padding. -/
theorem canonicalizeBase32ForExport_of_validate {totp : TotpSecret}
    (hvalid : totp.validate = .ok ()) {secret : Text} :
    canonicalizeBase32ForExport totp.secretB32.exposeSecret = .ok secret ↔
      trimPadding totp.secretB32.exposeSecret ≠ [] ∧
        secret = trimPadding totp.secretB32.exposeSecret := by
  obtain ⟨-, -, -, hlen, hascii, halphabet⟩ := totp.validate_eq_ok.mp hvalid
  have hshort := (utf8Len_of_isAscii hascii).symm.trans_le hlen
  exact canonicalizeBase32ForExport_of_alphabet hshort hascii halphabet

/-- What is exported. -/
theorem exportTotpOtpauthUri_eq_ok (hstd : uri.Standard) {title : Text} {totp : TotpSecret}
    {u : Text} :
    exportTotpOtpauthUri uri title totp = .ok u ↔
      totp.validate = .ok () ∧ trimPadding totp.secretB32.exposeSecret ≠ [] ∧
        u = exportedUri title totp (trimPadding totp.secretB32.exposeSecret) := by
  have hencode : uri.percentEncode = Percent.encode := funext hstd.encode
  rw [exportTotpOtpauthUri, check_bind_eq_ok, mapError_eq_ok]
  refine and_congr_right fun hvalid => ?_
  simp only [bind_eq_ok, mapError_eq_ok, canonicalizeBase32ForExport_of_validate hvalid, pure_eq_ok,
    hencode]
  constructor
  · rintro ⟨secret, ⟨hne, rfl⟩, rfl⟩
    exact ⟨hne, rfl⟩
  · rintro ⟨hne, rfl⟩
    exact ⟨_, ⟨hne, rfl⟩, rfl⟩

section Parameters

variable (params : QueryParams)

theorem readPair_algorithm (a : TotpAlgorithm) :
    readPair params "algorithm".toList (algorithmName a) =
      .ok { params with algorithm := a } := by
  cases a with
  | sha1 => rfl
  | sha256 => rfl
  | sha512 => rfl

theorem readPair_digits (digits : UInt8) :
    readPair params "digits".toList (Nat.toDigits 10 digits.toNat) =
      .ok { params with digits := digits } := by
  have hread := Strings.parseUnsigned_toDigits digits.toNat_lt
  change (okOr (Strings.parseUnsigned (2 ^ 8) _) OtpAuthError.invalidParams >>= _) = _
  rw [hread, okOr_some, ok_bind, UInt8.ofNat_toNat]
  rfl

theorem readPair_period (periodSecs : UInt32) :
    readPair params "period".toList (Nat.toDigits 10 periodSecs.toNat) =
      .ok { params with periodSecs := periodSecs } := by
  have hread := Strings.parseUnsigned_toDigits periodSecs.toNat_lt
  change (okOr (Strings.parseUnsigned (2 ^ 32) _) OtpAuthError.invalidParams >>= _) = _
  rw [hread, okOr_some, ok_bind, UInt32.ofNat_toNat]
  rfl

/-- A pair below the limit. -/
theorem readPairs_cons {n : Nat} {params' : QueryParams} {k v : Text}
    {pairs : List (Text × Text)} (hn : n < maxQueryPairs) (h : readPair params k v = .ok params') :
    readPairs n params ((k, v) :: pairs) = readPairs (n + 1) params' pairs := by
  rw [readPairs, failIf, if_neg (Nat.not_lt.mpr hn), ok_bind, h, ok_bind]

end Parameters

/-- The exported parameters read back, each as the field that it was written from. -/
theorem readPairs_exportedPairs (totp : TotpSecret) (secret : Text) :
    readPairs 0 .default (exportedPairs totp secret) = .ok
      { secretB32 := some secret, issuerParam := totp.issuer.map SecretString.exposeSecret
        algorithm := totp.algorithm, digits := totp.digits, periodSecs := totp.periodSecs } := by
  rw [exportedPairs, List.cons_append, readPairs_cons _ (by decide) rfl, List.cons_append,
    readPairs_cons _ (by decide) (readPair_algorithm _ _), List.cons_append,
    readPairs_cons _ (by decide) (readPair_digits _ _), List.cons_append,
    readPairs_cons _ (by decide) (readPair_period _ _), List.nil_append]
  cases totp.issuer with
  | none => rfl
  | some iss => rfl

/-! ## The label -/

/-- The labels that a URL parser does not keep in the path. -/
def LostLabel (text : Text) : Prop := text ∈ [[], ['.'], ['.', '.']]

instance (text : Text) : Decidable (LostLabel text) := inferInstanceAs (Decidable (_ ∈ _))

/-- A dot segment is written for the texts that it stands for. -/
theorem isDotSegment_encode (s : Text) :
    IsDotSegment (Percent.encode s) ↔ s = ['.'] ∨ s = ['.', '.'] := by
  have hread : ∀ segment ∈ dotSegments, ¬ segment.all (fun c => decide (Percent.Plain c)) ∨
      Percent.decodeBytes (Json.utf8 segment) = Json.utf8 ['.'] ∨
      Percent.decodeBytes (Json.utf8 segment) = Json.utf8 ['.', '.'] := by decide
  constructor
  · intro hdot
    have hdecode := Percent.decode_encode s
    rcases hread _ hdot with hplain | hone | htwo
    · refine absurd (List.all_eq_true.mpr fun c hc => ?_) hplain
      exact decide_eq_true (Percent.plain_encode s c hc)
    · rw [Percent.decode, hone, Json.utf8?_utf8, Option.some.injEq] at hdecode
      exact Or.inl hdecode.symm
    · rw [Percent.decode, htwo, Json.utf8?_utf8, Option.some.injEq] at hdecode
      exact Or.inr hdecode.symm
  · rintro (rfl | rfl)
    · decide
    · decide

theorem encode_eq_nil {s : Text} (h : Percent.encode s = []) : s = [] := by
  have hdecode := Percent.decode_encode s
  rw [h] at hdecode
  exact (Option.some.inj (hdecode.symm.trans (Json.utf8?_utf8 [])))

/-- The path of an exported URI without its slash. -/
theorem rawPath_exported (text : Text) :
    (if IsDotSegment (Percent.encode text) then ['/'] else '/' :: Percent.encode text).dropWhile
        (· == '/') =
      if LostLabel text then [] else Percent.encode text := by
  have hslash : (Percent.encode text).dropWhile (· == '/') = Percent.encode text := by
    cases h : Percent.encode text with
    | nil => rfl
    | cons c s =>
        have hc : Percent.Plain c := Percent.plain_encode text c (h ▸ List.mem_cons_self)
        have hne : ¬ (c == '/') = true := by
          rw [beq_iff_eq]
          exact Percent.ne_of_plain hc (by decide)
        exact List.dropWhile_cons_of_neg hne
  by_cases hdot : IsDotSegment (Percent.encode text)
  · have hlost : LostLabel text := by
      rcases (isDotSegment_encode text).mp hdot with rfl | rfl
      · decide
      · decide
    rw [if_pos hdot, if_pos hlost]
    rfl
  · rw [if_neg hdot, List.dropWhile_cons_of_pos rfl, hslash]
    split
    · next hlost =>
        simp only [LostLabel, List.mem_cons, List.not_mem_nil, or_false] at hlost
        rcases hlost with rfl | hlost
        · rfl
        · exact absurd ((isDotSegment_encode text).mpr hlost) hdot
    · rfl

/-- The URL that an exported URI is parsed into. -/
def exportedUrl (title : Text) (totp : TotpSecret) (secret : Text) : Url where
  scheme := "otpauth".toList
  hostStr := some "totp".toList
  path :=
    if IsDotSegment (Percent.encode (labelText title totp)) then ['/']
    else '/' :: Percent.encode (labelText title totp)
  query := some (Percent.encodeForm (exportedPairs totp secret))

theorem parseUrl_exported (hstd : uri.Standard) (title : Text) (totp : TotpSecret)
    (secret : Text) :
    uri.parseUrl (exportedUri title totp secret) = some (exportedUrl title totp secret) :=
  hstd.url _ _ (Percent.plain_encode _) fun _ hc => Percent.mem_encodeForm hc

theorem queryPairs_exported (hstd : uri.Standard) (title : Text) (totp : TotpSecret)
    (secret : Text) :
    uri.queryPairs (exportedUrl title totp secret) = exportedPairs totp secret :=
  hstd.pairs _ _ (Percent.decodeForm_encodeForm (List.cons_ne_nil _ _))

/-! ## What is read back -/

/-- The issuer that is read back: the parameter, else the one in the label. -/
def readIssuer (title : Text) (totp : TotpSecret) : Option Text :=
  totp.issuer.map SecretString.exposeSecret <|> (splitLabel (labelText title totp)).issuer

/-- The block that is read back. -/
def readBlock (title : Text) (totp : TotpSecret) (secret : Text) : TotpSecret :=
  { totp with
    issuer := (readIssuer title totp).map .mk
    accountName := (splitLabel (labelText title totp)).account.map .mk
    secretB32 := ⟨secret⟩ }

/-- An exported URI is accepted if it is short, its label is kept and the texts in it pass the
checks; what is read back is what the label was split into. -/
theorem parseTotpOtpauthUri_exported (hstd : uri.Standard) {policy : PolicyContext}
    {title title' secret : Text} {totp totp' : TotpSecret} :
    parseTotpOtpauthUri uri policy (exportedUri title totp secret) = .ok (title', totp') ↔
      policy.allowOtpauthImport = true ∧
        utf8Len (exportedUri title totp secret) ≤ maxOtpAuthUriLen ∧
        ¬ LostLabel (labelText title totp) ∧
        checkDisplay validateTitle (splitLabel (labelText title totp)).title = .ok () ∧
        checkOptional validateUsername (splitLabel (labelText title totp)).account = .ok () ∧
        checkOptional validateTitle (readIssuer title totp) = .ok () ∧
        (readBlock title totp secret).validate = .ok () ∧
        title' = (splitLabel (labelText title totp)).title ∧
        totp' = readBlock title totp secret := by
  have hne : exportedUri title totp secret ≠ [] := List.cons_ne_nil _ _
  rw [parseTotpOtpauthUri, check_bind_eq_ok, check_bind_eq_ok, failIf_eq_ok, failIf_eq_ok,
    parseUrl_exported hstd, okOr_some, ok_bind]
  have hpath : (exportedUrl title totp secret).path.dropWhile (· == '/') =
      if LostLabel (labelText title totp) then [] else Percent.encode (labelText title totp) :=
    rawPath_exported _
  by_cases hlost : LostLabel (labelText title totp)
  · rw [if_pos hlost] at hpath
    simp only [hpath, check_bind_eq_ok, failIf_eq_ok, hlost, not_true_eq_false, false_and,
      and_false]
  · have hencoded : Percent.encode (labelText title totp) ≠ [] := by
      intro hnil
      apply hlost
      rw [encode_eq_nil hnil]
      decide
    have hdecode : uri.percentDecode (Percent.encode (labelText title totp)) =
        some (labelText title totp) := by rw [hstd.decode, Percent.decode_encode]
    rw [if_neg hlost] at hpath
    simp only [hpath, hdecode, okOr_some, ok_bind, queryPairs_exported hstd,
      readPairs_exportedPairs, check_bind_eq_ok, failIf_eq_ok, mapError_eq_ok, pure_eq_ok,
      Prod.mk.injEq]
    constructor
    · rintro ⟨hpolicy, hlen, -, -, -, htitle, haccount, hissuer, hvalid, rfl, rfl⟩
      rw [Bool.not_eq_false] at hpolicy
      exact ⟨hpolicy, Nat.not_lt.mp (not_or.mp hlen).2, hlost, htitle, haccount, hissuer, hvalid,
        rfl, rfl⟩
    · rintro ⟨hpolicy, hlen, -, htitle, haccount, hissuer, hvalid, rfl, rfl⟩
      refine ⟨?_, ?_, ?_, ?_, hencoded, htitle, haccount, hissuer, hvalid, rfl, rfl⟩
      · simp [hpolicy]
      · exact not_or.mpr ⟨hne, Nat.not_lt.mpr hlen⟩
      · exact not_not_intro rfl
      · exact not_not_intro rfl

/-! ## The codes -/

/-- A policy that allows imports. -/
def allowingPolicy : PolicyContext where
  outcome := .primary
  runtimeState := .notDebugged

/-- A block whose issuer and account look like parameters. -/
def hostileTotp : TotpSecret :=
  { sampleTotp with
    issuer := some ⟨"A&digits=8".toList⟩
    accountName := some ⟨"x?secret=MZXW6#".toList⟩ }

/-- A block that was exported and read back produces the codes that it produced before, and its
parameters are those that it had, whatever texts stand in the label and in the issuer. -/
theorem codes_survive_otpauth {lib : TotpLibraries} {strict : Bool} (hstd : uri.Standard)
    (hlib : lib.Rfc4648 strict) {policy : PolicyContext} {title title' u : Text}
    {totp totp' : TotpSecret} {now : UInt64} {code : UInt32}
    (hcode : totpGenerateFromSecret lib totp now = .ok code)
    (hexport : exportTotpOtpauthUri uri title totp = .ok u)
    (hparse : parseTotpOtpauthUri uri policy u = .ok (title', totp')) :
    (∀ time, totpGenerateFormatted lib totp' time = totpGenerateFormatted lib totp time) ∧
      totp'.secretB32.exposeSecret = trimPadding totp.secretB32.exposeSecret ∧
      totp'.digits = totp.digits ∧ totp'.periodSecs = totp.periodSecs ∧
      totp'.algorithm = totp.algorithm := by
  obtain ⟨hvalid, -, rfl⟩ := (exportTotpOtpauthUri_eq_ok hstd).mp hexport
  obtain ⟨-, -, -, -, -, -, hvalid', -, rfl⟩ := (parseTotpOtpauthUri_exported hstd).mp hparse
  rcases decoded_or_refused lib totp with ⟨-, raw, hraw⟩ | ⟨e, -, hrefused, -⟩
  · have hraw' := decodeBase32SecretStrict_trimPadding hlib hraw
    refine ⟨fun time => ?_, rfl, rfl, rfl, rfl⟩
    have hsame : totpGenerateFromSecret lib
        (readBlock title totp (trimPadding totp.secretB32.exposeSecret)) time =
          totpGenerateFromSecret lib totp time := by
      simp only [totpGenerateFromSecret, hvalid, hvalid']
      simp only [readBlock, hraw, hraw']
    rw [totpGenerateFormatted, totpGenerateFormatted, hsame]
    rfl
  · rw [hrefused] at hcode
    cases hcode

/-- The theorem on the block that looks like parameters. -/
theorem codes_survive_otpauth_hostile :
    ∃ u totp', exportTotpOtpauthUri standardUri "T".toList hostileTotp = .ok u ∧
      parseTotpOtpauthUri standardUri allowingPolicy u = .ok ("A&digits=8".toList, totp') ∧
      (∀ time, totpGenerateFormatted sampleTotpLibraries totp' time =
        totpGenerateFormatted sampleTotpLibraries hostileTotp time) ∧
      totp'.secretB32.exposeSecret = trimPadding hostileTotp.secretB32.exposeSecret ∧
      totp'.digits = hostileTotp.digits ∧ totp'.periodSecs = hostileTotp.periodSecs ∧
      totp'.algorithm = hostileTotp.algorithm := by
  have hcode : totpGenerateFromSecret sampleTotpLibraries hostileTotp 59 = .ok 287082 := by
    decide +kernel
  have hexport : exportTotpOtpauthUri standardUri "T".toList hostileTotp =
      .ok (exportedUri "T".toList hostileTotp hostileTotp.secretB32.exposeSecret) :=
    (exportTotpOtpauthUri_eq_ok standardUri_standard).mpr (by decide +kernel)
  have hparse : parseTotpOtpauthUri standardUri allowingPolicy
      (exportedUri "T".toList hostileTotp hostileTotp.secretB32.exposeSecret) =
        .ok ("A&digits=8".toList,
          readBlock "T".toList hostileTotp hostileTotp.secretB32.exposeSecret) :=
    (parseTotpOtpauthUri_exported standardUri_standard).mpr (by decide +kernel)
  exact ⟨_, _, hexport, hparse, codes_survive_otpauth standardUri_standard
    sampleTotpLibraries_rfc4648 hcode hexport hparse⟩

end Otpauth

end ViperVault
