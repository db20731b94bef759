import ViperVault.Core.Session
import ViperVault.Otpauth.Export

/-!
# Import from otpauth URIs

`otpauth/totp.rs` and `entries/import.rs`.
-/

namespace ViperVault

open Foundation Entries

namespace Otpauth

/-- `MAX_OTP_AUTH_URI_LEN`. -/
def maxOtpAuthUriLen : Nat := 4096

/-- `MAX_QUERY_PAIRS`. -/
def maxQueryPairs : Nat := 64

/-- The answer of `split_label`. -/
structure LabelParts where
  issuer : Option Text
  account : Option Text
  title : Text
  deriving DecidableEq

/-- `(!s.is_empty()).then(|| s.to_string())`. -/
def nonEmpty (s : Text) : Option Text := if s = [] then none else some s

/-- `split_label`. -/
def splitLabel (label : Text) : LabelParts :=
  let label := Strings.trim label
  match Strings.splitOnce ':' label with
  | some (issuer, account) =>
      let issuerOpt := nonEmpty (Strings.trim issuer)
      let accountOpt := nonEmpty (Strings.trim account)
      ⟨issuerOpt, accountOpt, issuerOpt.getD label⟩
  | none => ⟨none, none, label⟩

/-- The blocks Cyrillic and Cyrillic Supplement. -/
def isCyrillic (c : Char) : Bool :=
  (0x0400 ≤ c.val && c.val ≤ 0x04FF) || (0x0500 ≤ c.val && c.val ≤ 0x052F)

/-- The block Greek and Coptic. -/
def isGreek (c : Char) : Bool := 0x0370 ≤ c.val && c.val ≤ 0x03FF

/-- `reject_script_mixing`. -/
def rejectScriptMixing (s : Text) : Except EntryError Unit :=
  if s.any Char.isAlphanum && (s.any isCyrillic || s.any isGreek) then .error .suspiciousUnicode
  else .ok ()

/-- What the query parameters have set so far. -/
structure QueryParams where
  secretB32 : Option Text
  issuerParam : Option Text
  algorithm : TotpAlgorithm
  digits : UInt8
  periodSecs : UInt32

/-- The parameters before the first pair. -/
def QueryParams.default : QueryParams where
  secretB32 := none
  issuerParam := none
  algorithm := .sha1
  digits := 6
  periodSecs := 30

/-- The algorithm of a name. -/
def algorithmOf (v : Text) : Except OtpAuthError TotpAlgorithm :=
  if v = "SHA1".toList then .ok .sha1
  else if v = "SHA256".toList then .ok .sha256
  else if v = "SHA512".toList then .ok .sha512
  else .error .invalidParams

/-- What one pair sets; unknown keys are ignored. -/
def readPair (params : QueryParams) (k v : Text) : Except OtpAuthError QueryParams :=
  if k = "secret".toList then .ok { params with secretB32 := some v }
  else if k = "issuer".toList then .ok { params with issuerParam := some v }
  else if k = "algorithm".toList then do
    let algorithm ← algorithmOf v
    return { params with algorithm := algorithm }
  else if k = "digits".toList then do
    let digits ← okOr (Strings.parseUnsigned (2 ^ 8) v) .invalidParams
    return { params with digits := UInt8.ofNat digits }
  else if k = "period".toList then do
    let periodSecs ← okOr (Strings.parseUnsigned (2 ^ 32) v) .invalidParams
    return { params with periodSecs := UInt32.ofNat periodSecs }
  else .ok params

/-- The loop over `query_pairs`. -/
def readPairs (pairsSeen : Nat) (params : QueryParams) :
    List (Text × Text) → Except OtpAuthError QueryParams
  | [] => return params
  | (k, v) :: pairs => do
      failIf (maxQueryPairs < pairsSeen + 1) .invalidParams
      let params ← readPair params k v
      readPairs (pairsSeen + 1) params pairs

/-- `map_entry_error`. -/
def mapEntryError (_ : EntryError) : OtpAuthError := .invalidParams

/-- A display text is valid and does not mix scripts. -/
def checkDisplay (validate : Text → Except EntryError Unit) (s : Text) :
    Except OtpAuthError Unit := do
  (validate s).mapError mapEntryError
  (rejectScriptMixing s).mapError mapEntryError

/-- The check of a part that may be absent. -/
def checkOptional (validate : Text → Except EntryError Unit) :
    Option Text → Except OtpAuthError Unit
  | none => .ok ()
  | some s => checkDisplay validate s

/-- `parse_totp_otpauth_uri`. -/
def parseTotpOtpauthUri (lib : UriLibraries) (policy : PolicyContext) (uri : Text) :
    Except OtpAuthError (Text × TotpSecret) := do
  failIf (policy.allowOtpauthImport = false) .invalidParams
  failIf (uri = [] ∨ maxOtpAuthUriLen < utf8Len uri) .invalidUri
  let url ← okOr (lib.parseUrl uri) .invalidUri
  failIf (url.scheme ≠ "otpauth".toList) .invalidUri
  failIf (url.hostStr ≠ some "totp".toList) .invalidUri
  let rawPath := url.path.dropWhile (· == '/')
  failIf (rawPath = []) .invalidUri
  let decodedLabel ← okOr (lib.percentDecode rawPath) .invalidUri
  let label := splitLabel decodedLabel
  let params ← readPairs 0 .default (lib.queryPairs url)
  let secretB32 ← okOr params.secretB32 .invalidParams
  -- the parameter is preferred to the issuer in the label
  let issuerFinal := params.issuerParam <|> label.issuer
  checkDisplay validateTitle label.title
  checkOptional validateUsername label.account
  checkOptional validateTitle issuerFinal
  let totp : TotpSecret :=
    { issuer := issuerFinal.map .mk, accountName := label.account.map .mk
      secretB32 := ⟨secretB32⟩, digits := params.digits, periodSecs := params.periodSecs
      algorithm := params.algorithm }
  totp.validate.mapError mapEntryError
  return (label.title, totp)

/-- `import_totp_from_otpauth_uri_with_policy`. -/
def importTotpFromOtpauthUriWithPolicy (lib : UriLibraries) (id : Uuid) (policy : PolicyContext)
    (uri : Text) (note : Option Text) : Except EntryError VaultEntry := do
  let (title, totp) ← (parseTotpOtpauthUri lib policy uri).mapError fun _ => .invalidType
  VaultEntry.newTotp id title totp note

end Otpauth

end ViperVault
