import ViperVault.Foundation.Percent
import ViperVault.Totp.Decode

/-!
# Export to otpauth URIs

`otpauth/export.rs`. The `url` and `percent-encoding` crates are parameters; `Standard` says that
they follow the URL standard on the URIs that are written here.
-/

namespace ViperVault

open Foundation

/-- `OtpAuthError`. -/
inductive OtpAuthError
  | parseError
  | invalidUri
  | invalidParams
  | policyDenied
  deriving DecidableEq, Repr

/-- `Url`, by what is asked of it. -/
structure Url where
  scheme : Text
  hostStr : Option Text
  path : Text
  query : Option Text

/-- What is called of `percent_encoding` and of `url`. -/
structure UriLibraries where
  /-- `utf8_percent_encode` of what is not alphanumeric -/
  percentEncode : Text → Text
  /-- `percent_decode_str`, then `decode_utf8` -/
  percentDecode : Text → Option Text
  /-- `Url::parse` -/
  parseUrl : Text → Option Url
  /-- `Url::query_pairs` -/
  queryPairs : Url → List (Text × Text)

/-- The path segments that the URL parser takes for `.` or `..`. -/
def dotSegments : List Text :=
  [".", "..", "%2e", "%2E", ".%2e", ".%2E", "%2e.", "%2E.", "%2e%2e", "%2e%2E", "%2E%2e",
    "%2E%2E"].map String.toList

/-- A URL parser drops the segment. -/
def IsDotSegment (s : Text) : Prop := s ∈ dotSegments

instance (s : Text) : Decidable (IsDotSegment s) := inferInstanceAs (Decidable (_ ∈ _))

/-- What every exported URI starts with. -/
def otpauthPrefix : Text := "otpauth://totp/".toList

/-- The crates follow the standards that they implement: percent encoding, the parsing of a URL
whose label and query are made of plain characters, and form-urlencoded queries. -/
structure UriLibraries.Standard (lib : UriLibraries) : Prop where
  encode : ∀ s, lib.percentEncode s = Percent.encode s
  decode : ∀ s, lib.percentDecode s = Percent.decode s
  url : ∀ label query, (∀ c ∈ label, Percent.Plain c) →
    (∀ c ∈ query, Percent.Plain c ∨ c = '=' ∨ c = '&') →
    lib.parseUrl (otpauthPrefix ++ label ++ '?' :: query) = some
      { scheme := "otpauth".toList, hostStr := some "totp".toList
        path := if IsDotSegment label then ['/'] else '/' :: label, query := some query }
  pairs : ∀ (url : Url) pairs, Percent.decodeForm (url.query.getD []) = some pairs →
    lib.queryPairs url = pairs

/-- The URL of an exported URI. -/
def parseExportedUrl (uri : Text) : Option Url :=
  if otpauthPrefix.isPrefixOf uri then
    (Strings.splitOnce '?' (uri.drop otpauthPrefix.length)).map fun parts =>
      { scheme := "otpauth".toList, hostStr := some "totp".toList
        path := if IsDotSegment parts.1 then ['/'] else '/' :: parts.1, query := some parts.2 }
  else none

/-- The standards themselves. -/
def standardUri : UriLibraries where
  percentEncode := Percent.encode
  percentDecode := Percent.decode
  parseUrl := parseExportedUrl
  queryPairs url := (Percent.decodeForm (url.query.getD [])).getD []

theorem standardUri_standard : standardUri.Standard where
  encode _ := rfl
  decode _ := rfl
  url label query hlabel _ := by
    have hmark : '?' ∉ label := fun h => Percent.ne_of_plain (hlabel _ h) (by decide) rfl
    have hstart : otpauthPrefix.isPrefixOf (otpauthPrefix ++ (label ++ '?' :: query)) = true :=
      List.isPrefixOf_iff_prefix.mpr (List.prefix_append _ _)
    have hparse : standardUri.parseUrl = parseExportedUrl := rfl
    rw [hparse, List.append_assoc, parseExportedUrl, if_pos hstart, List.drop_left,
      Strings.splitOnce_append hmark]
    rfl
  pairs url pairs h := by
    change (Percent.decodeForm _).getD [] = pairs
    rw [h, Option.getD_some]

namespace Otpauth

open Totp

/-- The name of an algorithm in a URI. -/
def algorithmName : TotpAlgorithm → Text
  | .sha1 => "SHA1".toList
  | .sha256 => "SHA256".toList
  | .sha512 => "SHA512".toList

/-- The text of the label: `Issuer:Account` if both are there, else the title. -/
def labelText (title : Text) (totp : TotpSecret) : Text :=
  match totp.issuer, totp.accountName with
  | some iss, some acc => iss.exposeSecret ++ ':' :: acc.exposeSecret
  | _, _ => title

/-- The query parameters of a block with a canonical secret. -/
def exportedPairs (totp : TotpSecret) (secret : Text) : List (Text × Text) :=
  [("secret".toList, secret), ("algorithm".toList, algorithmName totp.algorithm),
    ("digits".toList, Nat.toDigits 10 totp.digits.toNat),
    ("period".toList, Nat.toDigits 10 totp.periodSecs.toNat)]
  ++ (totp.issuer.toList.map fun iss => ("issuer".toList, iss.exposeSecret))

/-- `export_totp_otpauth_uri`. -/
def exportTotpOtpauthUri (lib : UriLibraries) (title : Text) (totp : TotpSecret) :
    Except OtpAuthError Text := do
  totp.validate.mapError fun _ => .invalidParams
  let labelPath := lib.percentEncode (labelText title totp)
  let secret ← (canonicalizeBase32ForExport totp.secretB32.exposeSecret).mapError fun _ =>
    .invalidParams
  let queryStr := ['&'].intercalate ((exportedPairs totp secret).map fun pair =>
    lib.percentEncode pair.1 ++ '=' :: lib.percentEncode pair.2)
  return otpauthPrefix ++ labelPath ++ '?' :: queryStr

end Otpauth

end ViperVault
