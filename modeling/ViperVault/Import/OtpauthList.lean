import ViperVault.Import.Interop
import ViperVault.Otpauth.RoundTrip
import ViperVault.Totp.Stored

/-!
# Lists of otpauth URIs

`parse_otpauth_totp_list` of `import/interop.rs`, the parser of a quarantined import. A pass of its
loop reads one line: it appends an entry, or skips a blank line or a line whose key was seen.
-/

namespace ViperVault

open Foundation Entries Otpauth Totp

/-- What the parser calls of other crates. -/
structure InteropLibraries where
  uri : UriLibraries
  totp : TotpLibraries
  /-- `Sha256::digest` -/
  sha256 : Bytes → Vector UInt8 32
  /-- the draws of `Uuid::new_v4` -/
  newV4 : Nat → Uuid

namespace OtpauthList

/-- `MAX_INTEROP_LINE_LEN`. -/
def maxInteropLineLen : Nat := 8 * 1024

/-- `MAX_INTEROP_AGG_TEXT_BYTES`. -/
def maxInteropAggTextBytes : Nat := 2 * 1024 * 1024

/-- `TotpDedupKey`. -/
structure TotpDedupKey where
  issuerH : Vector UInt8 32
  accountH : Vector UInt8 32
  secretH : Vector UInt8 32
  deriving DecidableEq

/-- The variables of the loop; `seen` is a set of which only membership is asked. -/
structure ListState where
  entries : List VaultEntry
  seen : List TotpDedupKey
  aggTextBytes : Nat

/-- `s.as_ref().map(|s| s.expose_secret()).unwrap_or("")`. -/
def exposedOrEmpty (s : Option SecretString) : Text := (s.map SecretString.exposeSecret).getD []

/-- The key of a block with its canonical secret. -/
def dedupKey (lib : InteropLibraries) (totp : TotpSecret) (canonicalSecretB32 : Text) :
    TotpDedupKey where
  issuerH := lib.sha256 (Json.utf8 (exposedOrEmpty totp.issuer))
  accountH := lib.sha256 (Json.utf8 (exposedOrEmpty totp.accountName))
  secretH := lib.sha256 (Json.utf8 canonicalSecretB32)

/-- The user-visible text of an entry, in bytes. -/
def textBytes (title : Text) (totp : TotpSecret) : Nat :=
  utf8Len title + utf8Len (exposedOrEmpty totp.issuer) + utf8Len (exposedOrEmpty totp.accountName)

/-- A pass of the loop. -/
def readLine (lib : InteropLibraries) (policy : PolicyContext) (st : ListState)
    (numbered : Text × Nat) : Except ImportError ListState := do
  let (line, idx) := numbered
  failIf (maxInteropEntries ≤ idx) .payloadTooLarge
  failIf (maxInteropLineLen < utf8Len line) .payloadTooLarge
  let uri := Strings.trim line
  if uri = [] then
    return st
  else
    failIf (maxOtpAuthUriLen < utf8Len uri) .invalidFormat
    let (title, totp) ← (parseTotpOtpauthUri lib.uri policy uri).mapError fun _ => .invalidFormat
    -- `saturating_add`, on sums that are checked before they can grow
    let aggTextBytes := st.aggTextBytes + textBytes title totp
    failIf (maxInteropAggTextBytes < aggTextBytes) .payloadTooLarge
    let canonicalSecretB32 ← (canonicalizeBase32ForExport totp.secretB32.exposeSecret).mapError
      fun _ => .invalidFormat
    let _ ← (decodeBase32SecretStrict lib.totp canonicalSecretB32).mapError
      fun _ => .invalidFormat
    let key := dedupKey lib totp canonicalSecretB32
    if key ∈ st.seen then
      return { st with aggTextBytes := aggTextBytes }
    else
      let entry ← (VaultEntry.newTotp (lib.newV4 st.entries.length) title
        { totp with secretB32 := ⟨canonicalSecretB32⟩ } none).mapError fun _ => .invalidData
      return { entries := st.entries ++ [entry], seen := key :: st.seen,
               aggTextBytes := aggTextBytes }

/-- `parse_otpauth_totp_list`. -/
def parseOtpauthTotpList (lib : InteropLibraries) (policy : PolicyContext) (bytes : Bytes) :
    Except ImportError VaultPayload := do
  let s ← okOr (Json.utf8? bytes) .invalidFormat
  let st ← (Strings.lines s).zipIdx.foldlM (readLine lib policy) ⟨[], [], 0⟩
  return { entries := st.entries }

/-- The entry comes from `new_totp`, and the strict decoder takes its secret. -/
def Canonical (lib : TotpLibraries) (entry : VaultEntry) : Prop :=
  ∃ id title totp, VaultEntry.newTotp id title totp none = .ok entry ∧
    ∃ raw, decodeBase32SecretStrict lib totp.secretB32.exposeSecret = .ok raw

/-- What a pass that goes through does: it keeps the entries, or appends one. -/
theorem entries_of_readLine {lib : InteropLibraries} {policy : PolicyContext} {st st' : ListState}
    {numbered : Text × Nat} (h : readLine lib policy st numbered = .ok st') :
    st'.entries = st.entries ∨
      ∃ entry, st'.entries = st.entries ++ [entry] ∧ Canonical lib.totp entry := by
  obtain ⟨line, idx⟩ := numbered
  simp only [readLine, check_bind_eq_ok] at h
  obtain ⟨-, -, h⟩ := h
  split at h
  · left
    rw [pure_eq_ok.mp h]
  · obtain ⟨-, h⟩ := check_bind_eq_ok.mp h
    obtain ⟨⟨title, totp⟩, -, h⟩ := bind_eq_ok.mp h
    obtain ⟨-, h⟩ := check_bind_eq_ok.mp h
    obtain ⟨canonical, -, h⟩ := bind_eq_ok.mp h
    obtain ⟨raw, hraw, h⟩ := bind_eq_ok.mp h
    split at h
    · left
      rw [← pure_eq_ok.mp h]
    · obtain ⟨entry, hnew, h⟩ := bind_eq_ok.mp h
      right
      refine ⟨entry, ?_, _, _, _, mapError_eq_ok.mp hnew, raw, mapError_eq_ok.mp hraw⟩
      rw [← pure_eq_ok.mp h]

/-- Every entry of a list that is parsed comes from `new_totp`, with a secret that the strict
decoder takes. -/
theorem canonical_of_mem {lib : InteropLibraries} {policy : PolicyContext} {bytes : Bytes}
    {payload : VaultPayload} (h : parseOtpauthTotpList lib policy bytes = .ok payload)
    {entry : VaultEntry} (hentry : entry ∈ payload.entries) : Canonical lib.totp entry := by
  obtain ⟨s, -, h⟩ := bind_eq_ok.mp h
  obtain ⟨st, hst, h⟩ := bind_eq_ok.mp h
  have hall : ∀ e ∈ st.entries, Canonical lib.totp e := by
    refine foldlM_invariant (fun st : ListState => ∀ e ∈ st.entries, Canonical lib.totp e) ?_ ?_ hst
    · intro st numbered st' hst hpass e he
      rcases entries_of_readLine hpass with hsame | ⟨entry, happend, hnew⟩
      · exact hst e (hsame ▸ he)
      · rw [happend] at he
        rcases List.mem_append.mp he with hold | hlast
        · exact hst e hold
        · exact List.mem_singleton.mp hlast ▸ hnew
    · intro e he
      cases he
  rw [← pure_eq_ok.mp h] at hentry
  exact hall entry hentry

/-- SHA-256 on the texts of the sample line: the empty one and the sample key. -/
def sampleSha256 (bytes : Bytes) : Vector UInt8 32 :=
  if bytes = [] then
    #v[0xe3, 0xb0, 0xc4, 0x42, 0x98, 0xfc, 0x1c, 0x14, 0x9a, 0xfb, 0xf4, 0xc8, 0x99, 0x6f, 0xb9,
      0x24, 0x27, 0xae, 0x41, 0xe4, 0x64, 0x9b, 0x93, 0x4c, 0xa4, 0x95, 0x99, 0x1b, 0x78, 0x52,
      0xb8, 0x55]
  else if bytes = Json.utf8 sampleTotp.secretB32.exposeSecret then
    #v[0x54, 0x9c, 0x93, 0x90, 0x53, 0x9e, 0xfc, 0xfa, 0x01, 0xd2, 0x74, 0x4e, 0x82, 0xe7, 0xda,
      0x34, 0x40, 0x9a, 0x63, 0xdd, 0x0f, 0xea, 0xf3, 0x10, 0xf7, 0xa6, 0xe1, 0x25, 0x51, 0xfe,
      0x76, 0x68]
  else Vector.replicate 32 0

/-- Libraries that work on the samples. -/
def sampleInteropLibraries : InteropLibraries where
  uri := standardUri
  totp := sampleTotpLibraries
  sha256 := sampleSha256
  newV4 n := BitVec.ofNat 128 (n + 1)

/-- A line with the sample key. -/
def sampleLine : Text := "otpauth://totp/GitHub?secret=GEZDGNBVGY3TQOJQGEZDGNBVGY3TQOJQ".toList

-- a blank line and a second line with the same key add nothing
example : parseOtpauthTotpList sampleInteropLibraries allowingPolicy
    (Json.utf8 ("\n".toList ++ sampleLine ++ "\r\n ".toList ++ sampleLine)) =
      .ok { entries := [sampleEntry sampleTotp] } := by
  rw [parseOtpauthTotpList, Json.utf8?_utf8]
  decide +kernel

end OtpauthList

end ViperVault
