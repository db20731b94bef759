import ViperVault.Core.EntryMap
import ViperVault.Foundation.FirstOccurrence
import ViperVault.Import.OtpauthList

/-!
# What a list of URIs says

A line of an accepted list is blank, or it reads as a title and a block with its canonical secret.
The loop of the parser keeps the first reading of each key, whatever entries it has made before.
-/

namespace ViperVault

open Foundation Entries Otpauth Totp

namespace OtpauthList

/-- What a line says: the title, and the block with its canonical secret. -/
structure Reading where
  title : Text
  totp : TotpSecret
  deriving DecidableEq

namespace Reading

/-- The key that the parser hashes. -/
def key (lib : InteropLibraries) (r : Reading) : TotpDedupKey :=
  dedupKey lib r.totp r.totp.secretB32.exposeSecret

/-- The key before it is hashed. -/
def plainKey (r : Reading) : Text × Text × Text :=
  (exposedOrEmpty r.totp.issuer, exposedOrEmpty r.totp.accountName, r.totp.secretB32.exposeSecret)

/-- The entry of a reading, up to its identifier. -/
def content (r : Reading) : EntryContent where
  entryType := .totp
  secret :=
    { title := ⟨r.title⟩, note := none, username := none
      secret := r.totp.secretB32, extra := none, totp := some r.totp }

end Reading

section Lines

variable (lib : InteropLibraries) (policy : PolicyContext)

/-- The reading of a line that is not blank. -/
def reading? (line : Text) : Option Reading :=
  if Strings.trim line = [] then none
  else do
    let (title, totp) ← (parseTotpOtpauthUri lib.uri policy (Strings.trim line)).toOption
    let canonicalSecretB32 ← (canonicalizeBase32ForExport totp.secretB32.exposeSecret).toOption
    some ⟨title, { totp with secretB32 := ⟨canonicalSecretB32⟩ }⟩

/-- The line is not too long, and it is blank or it reads as a block whose secret decodes. -/
def Readable (line : Text) : Prop :=
  utf8Len line ≤ maxInteropLineLen ∧
    (Strings.trim line ≠ [] → utf8Len (Strings.trim line) ≤ maxOtpAuthUriLen ∧
      ∃ r raw, reading? lib policy line = some r ∧
        decodeBase32SecretStrict lib.totp r.totp.secretB32.exposeSecret = .ok raw)

/-- The variables of the loop after a reading. -/
def ListState.next (st : ListState) (r : Reading) : ListState :=
  if r.key lib ∈ st.seen then { st with aggTextBytes := st.aggTextBytes + textBytes r.title r.totp }
  else
    { entries := st.entries ++ [r.content.entry (lib.newV4 st.entries.length)]
      seen := r.key lib :: st.seen
      aggTextBytes := st.aggTextBytes + textBytes r.title r.totp }

end Lines

variable {lib : InteropLibraries} {policy : PolicyContext}

/-- What the parser of a URI checks of the title and the block it answers. -/
theorem checked_of_parseTotpOtpauthUri {uri : UriLibraries} {text title : Text}
    {totp : TotpSecret} (h : parseTotpOtpauthUri uri policy text = .ok (title, totp)) :
    validateTitle title = .ok () ∧ totp.validate = .ok () := by
  unfold parseTotpOtpauthUri at h
  simp only [check_bind_eq_ok] at h
  obtain ⟨-, -, h⟩ := h
  obtain ⟨url, -, h⟩ := bind_eq_ok.mp h
  simp only [check_bind_eq_ok] at h
  obtain ⟨-, -, -, h⟩ := h
  obtain ⟨decodedLabel, -, h⟩ := bind_eq_ok.mp h
  obtain ⟨params, -, h⟩ := bind_eq_ok.mp h
  obtain ⟨secretB32, -, h⟩ := bind_eq_ok.mp h
  simp only [checkDisplay, check_bind_eq_ok, mapError_eq_ok, pure_eq_ok, Prod.mk.injEq] at h
  obtain ⟨⟨htitle, -⟩, -, -, hvalid, rfl, rfl⟩ := h
  exact ⟨htitle, hvalid⟩

/-- What the strict decoder checks before it decodes. -/
theorem checked_of_decodeBase32SecretStrict {lib : TotpLibraries} {s : Text} {raw : Bytes}
    (h : decodeBase32SecretStrict lib s = .ok raw) :
    s ≠ [] ∧ utf8Len s ≤ 1024 ∧ isAscii s = true ∧ s.all isBase32Char = true := by
  simp only [decodeBase32SecretStrict, check_bind_eq_ok, failIf_eq_ok, Bool.not_eq_false, not_or,
    Nat.not_lt] at h
  obtain ⟨⟨hne, hle⟩, hascii, halphabet, -⟩ := h
  exact ⟨hne, hle, hascii, halphabet⟩

/-- A checked block with another secret that the strict decoder takes is an entry. -/
theorem newTotp_of_decodes {lib : TotpLibraries} {id : Uuid} {title s : Text} {totp : TotpSecret}
    {raw : Bytes} (htitle : validateTitle title = .ok ()) (htotp : totp.validate = .ok ())
    (hraw : decodeBase32SecretStrict lib s = .ok raw) :
    VaultEntry.newTotp id title { totp with secretB32 := ⟨s⟩ } none =
      .ok ((Reading.mk title { totp with secretB32 := ⟨s⟩ }).content.entry id) := by
  have hvalid : TotpSecret.validate { totp with secretB32 := ⟨s⟩ } = .ok () := by
    obtain ⟨hdigits, hperiod, -⟩ := totp.validate_eq_ok.mp htotp
    exact (TotpSecret.validate_eq_ok _).mpr
      ⟨hdigits, hperiod, checked_of_decodeBase32SecretStrict hraw⟩
  simp only [VaultEntry.newTotp, VaultEntry.validateInvariants, htitle, hvalid, ok_bind]
  rfl

/-- Where a reading comes from. -/
theorem reading?_eq_some {line : Text} {r : Reading} :
    reading? lib policy line = some r ↔
      Strings.trim line ≠ [] ∧ ∃ totp canonicalSecretB32,
        parseTotpOtpauthUri lib.uri policy (Strings.trim line) = .ok (r.title, totp) ∧
          canonicalizeBase32ForExport totp.secretB32.exposeSecret = .ok canonicalSecretB32 ∧
            r.totp = { totp with secretB32 := ⟨canonicalSecretB32⟩ } := by
  unfold reading?
  split
  · next hblank => simp [hblank]
  · next hne =>
      cases hparse : parseTotpOtpauthUri lib.uri policy (Strings.trim line) with
      | error e => simp [Except.toOption]
      | ok parsed =>
          obtain ⟨title, totp⟩ := parsed
          cases hcanonical : canonicalizeBase32ForExport totp.secretB32.exposeSecret with
          | error e => simp [Except.toOption, hcanonical]
          | ok canonicalSecretB32 =>
              obtain ⟨title', totp'⟩ := r
              simp [Except.toOption, hcanonical, hne, eq_comm (a := totp')]

/-- A pass over a readable line goes through, as long as the text of the entries is not too long. -/
theorem readLine_of_readable {st : ListState} {line : Text} {idx : Nat}
    (hidx : idx < maxInteropEntries) (hline : Readable lib policy line)
    (hagg : ∀ r ∈ reading? lib policy line,
      st.aggTextBytes + textBytes r.title r.totp ≤ maxInteropAggTextBytes) :
    readLine lib policy st (line, idx) =
      .ok ((reading? lib policy line).elim st (st.next lib)) := by
  obtain ⟨hlen, hline⟩ := hline
  simp only [readLine, check_bind_eq_ok, failIf_eq_ok, Nat.not_le, Nat.not_lt]
  refine ⟨hidx, hlen, ?_⟩
  by_cases hblank : Strings.trim line = []
  · have hnone : reading? lib policy line = none := if_pos hblank
    rw [if_pos hblank, hnone]
    rfl
  · obtain ⟨huri, ⟨title, totp'⟩, raw, hreading, hraw⟩ := hline hblank
    obtain ⟨-, totp, canonicalSecretB32, hparse, hcanonical, rfl⟩ := reading?_eq_some.mp hreading
    obtain ⟨htitle, hvalid⟩ := checked_of_parseTotpOtpauthUri hparse
    have hbytes : st.aggTextBytes + textBytes title totp ≤ maxInteropAggTextBytes :=
      hagg _ hreading
    simp only [if_neg hblank, check_bind_eq_ok, failIf_eq_ok, Nat.not_lt, hparse, hcanonical, hraw,
      mapError_ok, ok_bind, newTotp_of_decodes htitle hvalid hraw]
    refine ⟨huri, hbytes, ?_⟩
    have hkey : dedupKey lib totp canonicalSecretB32 =
        Reading.key lib ⟨title, { totp with secretB32 := ⟨canonicalSecretB32⟩ }⟩ := rfl
    rw [hreading, Option.elim_some, hkey, ListState.next]
    split
    · rfl
    · rfl

/-- A pass goes through only over a readable line. -/
theorem readable_of_readLine {st st' : ListState} {line : Text} {idx : Nat}
    (h : readLine lib policy st (line, idx) = .ok st') :
    idx < maxInteropEntries ∧ Readable lib policy line ∧
      ∀ r ∈ reading? lib policy line,
        st.aggTextBytes + textBytes r.title r.totp ≤ maxInteropAggTextBytes := by
  simp only [readLine, check_bind_eq_ok, failIf_eq_ok, Nat.not_le, Nat.not_lt] at h
  obtain ⟨hidx, hlen, h⟩ := h
  by_cases hblank : Strings.trim line = []
  · have hnone : reading? lib policy line = none := if_pos hblank
    refine ⟨hidx, ⟨hlen, fun hne => absurd hblank hne⟩, ?_⟩
    simp [hnone]
  · simp only [if_neg hblank, check_bind_eq_ok, failIf_eq_ok, Nat.not_lt] at h
    obtain ⟨huri, h⟩ := h
    obtain ⟨⟨title, totp⟩, hparse, h⟩ := bind_eq_ok.mp h
    obtain ⟨hagg, h⟩ := check_bind_eq_ok.mp h
    obtain ⟨canonicalSecretB32, hcanonical, h⟩ := bind_eq_ok.mp h
    obtain ⟨raw, hraw, -⟩ := bind_eq_ok.mp h
    have hreading : reading? lib policy line =
        some ⟨title, { totp with secretB32 := ⟨canonicalSecretB32⟩ }⟩ :=
      reading?_eq_some.mpr
        ⟨hblank, totp, _, mapError_eq_ok.mp hparse, mapError_eq_ok.mp hcanonical, rfl⟩
    refine ⟨hidx, ⟨hlen, fun _ => ⟨huri, _, raw, hreading, mapError_eq_ok.mp hraw⟩⟩, ?_⟩
    intro r hr
    obtain rfl := Option.some.inj (hreading.symm.trans hr)
    exact Nat.not_lt.mp (failIf_eq_ok.mp hagg)

/-- When a pass goes through, and what it leaves. -/
theorem readLine_eq_ok {st st' : ListState} {line : Text} {idx : Nat} :
    readLine lib policy st (line, idx) = .ok st' ↔
      (idx < maxInteropEntries ∧ Readable lib policy line ∧
        ∀ r ∈ reading? lib policy line,
          st.aggTextBytes + textBytes r.title r.totp ≤ maxInteropAggTextBytes) ∧
        st' = (reading? lib policy line).elim st (st.next lib) := by
  constructor
  · intro h
    obtain ⟨hidx, hline, hagg⟩ := readable_of_readLine h
    refine ⟨⟨hidx, hline, hagg⟩, ?_⟩
    exact Except.ok.inj (h.symm.trans (readLine_of_readable hidx hline hagg))
  · rintro ⟨⟨hidx, hline, hagg⟩, rfl⟩
    exact readLine_of_readable hidx hline hagg

/-! ## The loop -/

/-- The text of the readings, in bytes. -/
def sumTextBytes (readings : List Reading) : Nat :=
  (readings.map fun r => textBytes r.title r.totp).sum

/-- The readings of lines, in order. -/
def readings (lib : InteropLibraries) (policy : PolicyContext) (lines : List Text) :
    List Reading :=
  lines.filterMap (reading? lib policy)

theorem aggTextBytes_next (st : ListState) (r : Reading) :
    (st.next lib r).aggTextBytes = st.aggTextBytes + textBytes r.title r.totp := by
  unfold ListState.next
  split <;> rfl

variable (lib policy) in
/-- What a pass over a line adds up, and where the loop goes on. -/
theorem pass_spec (st : ListState) (line : Text) (lines : List Text) :
    ((reading? lib policy line).elim st (st.next lib)).aggTextBytes +
        sumTextBytes (readings lib policy lines) =
      st.aggTextBytes + sumTextBytes (readings lib policy (line :: lines)) ∧
    (readings lib policy (line :: lines)).foldl (ListState.next lib) st =
      (readings lib policy lines).foldl (ListState.next lib)
        ((reading? lib policy line).elim st (st.next lib)) := by
  cases hr : reading? lib policy line with
  | none =>
      have hskip : readings lib policy (line :: lines) = readings lib policy lines :=
        List.filterMap_cons_none hr
      exact hskip ▸ ⟨rfl, rfl⟩
  | some r =>
      have hkeep : readings lib policy (line :: lines) = r :: readings lib policy lines :=
        List.filterMap_cons_some hr
      rw [hkeep, Option.elim_some, aggTextBytes_next, sumTextBytes, sumTextBytes, List.map_cons,
        List.sum_cons, Nat.add_assoc]
      exact ⟨rfl, rfl⟩

/-- When the loop ends, and with which variables. -/
theorem foldlM_readLine_eq_ok {lines : List Text} {start : Nat} {st st' : ListState}
    (hstart : start ≤ maxInteropEntries) (hst : st.aggTextBytes ≤ maxInteropAggTextBytes) :
    (lines.zipIdx start).foldlM (readLine lib policy) st = .ok st' ↔
      start + lines.length ≤ maxInteropEntries ∧ (∀ line ∈ lines, Readable lib policy line) ∧
        st.aggTextBytes + sumTextBytes (readings lib policy lines) ≤ maxInteropAggTextBytes ∧
        st' = (readings lib policy lines).foldl (ListState.next lib) st := by
  induction lines generalizing start st with
  | nil => simp [readings, sumTextBytes, pure_eq_ok, hstart, hst, eq_comm (a := st)]
  | cons line lines ih =>
      obtain ⟨hbytes, hfold⟩ := pass_spec lib policy st line lines
      rw [List.zipIdx_cons, List.foldlM_cons, bind_eq_ok, hfold, ← hbytes]
      simp only [readLine_eq_ok, List.length_cons, List.forall_mem_cons]
      have hroom : (∀ r ∈ reading? lib policy line,
          st.aggTextBytes + textBytes r.title r.totp ≤ maxInteropAggTextBytes) ↔
          ((reading? lib policy line).elim st (st.next lib)).aggTextBytes ≤
            maxInteropAggTextBytes := by
        cases reading? lib policy line with
        | none => simpa using hst
        | some r => simp [aggTextBytes_next]
      rw [hroom]
      constructor
      · rintro ⟨_, ⟨⟨hidx, hline, hagg⟩, rfl⟩, h⟩
        obtain ⟨hlen, hlines, hsum, rfl⟩ := (ih hidx hagg).mp h
        exact ⟨by omega, ⟨hline, hlines⟩, hsum, rfl⟩
      · rintro ⟨hlen, ⟨hline, hlines⟩, hsum, rfl⟩
        have hagg := Nat.le_of_add_right_le hsum
        refine ⟨_, ⟨⟨by omega, hline, hagg⟩, rfl⟩, (ih (by omega) hagg).mpr ?_⟩
        exact ⟨by omega, hlines, hsum, rfl⟩

/-- The entries that the loop makes of readings. -/
theorem entries_foldl_next (l : List Reading) (st : ListState) :
    ((l.foldl (ListState.next lib) st).entries).map EntryContent.ofEntry =
      st.entries.map EntryContent.ofEntry ++
        (firsts (Reading.key lib) st.seen l).map Reading.content := by
  induction l generalizing st with
  | nil => simp [firsts]
  | cons r l ih =>
      rw [List.foldl_cons, ih, firsts, ListState.next]
      split
      · rfl
      · rw [List.map_append, List.append_assoc]
        rfl

/-! ## The import -/

/-- The lines are few, and they are read; the text of the entries they make is not too long. -/
structure AcceptableLines (lib : InteropLibraries) (policy : PolicyContext) (lines : List Text) :
    Prop where
  count : lines.length ≤ maxInteropEntries
  readable : ∀ line ∈ lines, Readable lib policy line
  text : sumTextBytes (readings lib policy lines) ≤ maxInteropAggTextBytes

/-- The payload that the parser makes of readings. -/
def payloadOf (lib : InteropLibraries) (l : List Reading) : VaultPayload where
  entries := (l.foldl (ListState.next lib) ⟨[], [], 0⟩).entries

/-- When a list is parsed, and to which payload. -/
theorem parseOtpauthTotpList_eq_ok {bytes : Bytes} {payload : VaultPayload} :
    parseOtpauthTotpList lib policy bytes = .ok payload ↔
      ∃ s, Json.utf8? bytes = some s ∧ AcceptableLines lib policy (Strings.lines s) ∧
        payload = payloadOf lib (readings lib policy (Strings.lines s)) := by
  have hloop (lines : List Text) {st : ListState} :
      lines.zipIdx.foldlM (readLine lib policy) ⟨[], [], 0⟩ = .ok st ↔
        AcceptableLines lib policy lines ∧
          st = (readings lib policy lines).foldl (ListState.next lib) ⟨[], [], 0⟩ := by
    rw [foldlM_readLine_eq_ok (Nat.zero_le _) (Nat.zero_le _), Nat.zero_add, Nat.zero_add]
    constructor
    · rintro ⟨hcount, hreadable, htext, hst⟩
      exact ⟨⟨hcount, hreadable, htext⟩, hst⟩
    · rintro ⟨⟨hcount, hreadable, htext⟩, hst⟩
      exact ⟨hcount, hreadable, htext, hst⟩
  simp only [parseOtpauthTotpList, bind_eq_ok, okOr_eq_ok, pure_eq_ok, hloop]
  refine exists_congr fun s => and_congr_right fun _ => ?_
  constructor
  · rintro ⟨_, ⟨hlines, rfl⟩, rfl⟩
    exact ⟨hlines, rfl⟩
  · rintro ⟨hlines, rfl⟩
    exact ⟨_, ⟨hlines, rfl⟩, rfl⟩

/-- The payload holds the first reading of each key. -/
theorem entries_payloadOf (l : List Reading) :
    (payloadOf lib l).entries.map EntryContent.ofEntry =
      (firsts (Reading.key lib) [] l).map Reading.content := by
  rw [payloadOf, entries_foldl_next]
  rfl

/-- An entry that the parser makes passes the checks on imported entries. -/
theorem Canonical.validateImportedEntry {lib : TotpLibraries} {entry : VaultEntry}
    (h : Canonical lib entry) : ViperVault.validateImportedEntry entry = .ok () := by
  obtain ⟨id, title, totp, hnew, -⟩ := h
  obtain ⟨-, -, hvalid, rfl⟩ := newTotp_eq_ok hnew
  simp [ViperVault.validateImportedEntry, hvalid]

/-- An entry that the parser makes has a code at every time. -/
theorem Canonical.exists_code {lib : TotpLibraries} (hmac : lib.AcceptsKeys) {entry : VaultEntry}
    (h : Canonical lib entry) :
    ∃ totp, entry.secret.totp = some totp ∧
      ∀ time, ∃ code, totpGenerateFromSecret lib totp time = .ok code := by
  obtain ⟨id, title, totp, hnew, raw, hraw⟩ := h
  obtain ⟨-, -, hvalid, rfl⟩ := newTotp_eq_ok hnew
  refine ⟨totp, rfl, fun time => ?_⟩
  obtain ⟨code, hcode, -⟩ := exists_totpGenerateFromSecret hmac hvalid hraw time
  exact ⟨code, hcode⟩

/-- What the parser makes of lines passes the checks of the import. -/
theorem validatePayloadInvariants_payloadOf {s : Text}
    (h : AcceptableLines lib policy (Strings.lines s)) :
    validatePayloadInvariants (payloadOf lib (readings lib policy (Strings.lines s))) = .ok () := by
  have hparse := parseOtpauthTotpList_eq_ok.mpr ⟨s, Json.utf8?_utf8 s, h, rfl⟩
  have hlen : (payloadOf lib (readings lib policy (Strings.lines s))).entries.length ≤
      maxInteropEntries := by
    calc (payloadOf lib (readings lib policy (Strings.lines s))).entries.length
        = (firsts (Reading.key lib) [] (readings lib policy (Strings.lines s))).length := by
          simpa using congrArg List.length (entries_payloadOf (readings lib policy _))
      _ ≤ (readings lib policy (Strings.lines s)).length := (firsts_sublist _ _).length_le
      _ ≤ (Strings.lines s).length := List.length_filterMap_le _ _
      _ ≤ maxInteropEntries := h.count
  rw [validatePayloadInvariants, if_neg (Nat.not_lt.mpr hlen), forM_eq_ok]
  exact fun entry hentry => (canonical_of_mem hparse hentry).validateImportedEntry

/-- The import is allowed, and the bytes are a text of a size whose lines are acceptable. -/
structure Acceptable (lib : InteropLibraries) (policy : PolicyContext) (bytes : Bytes) (s : Text) :
    Prop where
  allowed : policy.allowPlaintextImport = true
  nonempty : bytes ≠ []
  size : bytes.length ≤ maxInteropImportBytes
  text : Json.utf8? bytes = some s
  lines : AcceptableLines lib policy (Strings.lines s)

theorem Acceptable.text_eq {s s' : Text} (h : Acceptable lib policy (Json.utf8 s) s') : s' = s :=
  Option.some.inj (h.text.symm.trans (Json.utf8?_utf8 s))

/-- The import of a list. -/
def importList (lib : InteropLibraries) (policy : PolicyContext) (intent : ImportIntent)
    (bytes : Bytes) : Except ImportError QuarantinedImport :=
  importInteropQuarantine (parseOtpauthTotpList lib) policy intent .otpAuthTotpUriList bytes

/-- When a list is taken into quarantine, and what is. -/
theorem importList_eq_ok {intent : ImportIntent} {bytes : Bytes} {q : QuarantinedImport} :
    importList lib policy intent bytes = .ok q ↔
      ∃ s, Acceptable lib policy bytes s ∧
        q.payload = payloadOf lib (readings lib policy (Strings.lines s)) ∧
        q.format = .otpAuthTotpUriList := by
  rw [importList, importInteropQuarantine_eq_ok, parseOtpauthTotpList_eq_ok]
  constructor
  · rintro ⟨hallowed, hne, hsize, ⟨s, htext, hlines, hpayload⟩, hformat⟩
    exact ⟨s, ⟨hallowed, hne, hsize, htext, hlines⟩, hpayload, hformat⟩
  · rintro ⟨s, ⟨hallowed, hne, hsize, htext, hlines⟩, hpayload, hformat⟩
    exact ⟨hallowed, hne, hsize, ⟨s, htext, hlines, hpayload⟩, hformat⟩

/-- An acceptable list is taken into quarantine. -/
theorem exists_importList_iff {intent : ImportIntent} {bytes : Bytes} :
    (∃ q, importList lib policy intent bytes = .ok q) ↔ ∃ s, Acceptable lib policy bytes s := by
  constructor
  · rintro ⟨q, hq⟩
    obtain ⟨s, hs, -⟩ := importList_eq_ok.mp hq
    exact ⟨s, hs⟩
  · rintro ⟨s, hs⟩
    exact ⟨⟨_, _, validatePayloadInvariants_payloadOf hs.lines⟩,
      importList_eq_ok.mpr ⟨s, hs, rfl, rfl⟩⟩

/-! ## First occurrences -/

/-- What the parser hashes of a reading. -/
def Reading.hashed (r : Reading) : List Bytes :=
  [Json.utf8 r.plainKey.1, Json.utf8 r.plainKey.2.1, Json.utf8 r.plainKey.2.2]

/-- What the parser hashes of a list. -/
def hashedFields (lib : InteropLibraries) (policy : PolicyContext) (bytes : Bytes) : Set Bytes :=
  {field | ∃ s, Json.utf8? bytes = some s ∧
    ∃ r ∈ readings lib policy (Strings.lines s), field ∈ r.hashed}

/-- Where no two fields collide, the hashed keys tell apart what the keys do. -/
theorem Reading.key_eq_iff {fields : Set Bytes} (hsha : fields.InjOn lib.sha256) {r r' : Reading}
    (hr : ∀ field ∈ r.hashed, field ∈ fields) (hr' : ∀ field ∈ r'.hashed, field ∈ fields) :
    r.key lib = r'.key lib ↔ r.plainKey = r'.plainKey := by
  have hfields {field field' : Bytes} (hf : field ∈ r.hashed) (hf' : field' ∈ r'.hashed) :
      lib.sha256 field = lib.sha256 field' ↔ field = field' :=
    ⟨fun h => hsha (hr _ hf) (hr' _ hf') h, congrArg lib.sha256⟩
  have hkey (r : Reading) : r.key lib = ⟨lib.sha256 (Json.utf8 r.plainKey.1),
      lib.sha256 (Json.utf8 r.plainKey.2.1), lib.sha256 (Json.utf8 r.plainKey.2.2)⟩ := rfl
  rw [hkey, hkey, TotpDedupKey.mk.injEq, hfields (by simp [hashed]) (by simp [hashed]),
    hfields (by simp [hashed]) (by simp [hashed]), hfields (by simp [hashed]) (by simp [hashed]),
    Json.utf8_injective.eq_iff, Json.utf8_injective.eq_iff, Json.utf8_injective.eq_iff,
    Prod.ext_iff, Prod.ext_iff]

variable (lib policy) in
/-- The lines that are not blank, of a list that is accepted, all have a reading. -/
theorem map_reading?_nonblank {lines : List Text} (h : AcceptableLines lib policy lines) :
    (lines.filter fun line => Strings.trim line ≠ []).map (reading? lib policy) =
      (readings lib policy lines).map some := by
  have hline := h.readable
  clear h
  induction lines with
  | nil => rfl
  | cons line lines ih =>
      have hrest := ih fun l hl => hline l (List.mem_cons_of_mem line hl)
      by_cases hblank : Strings.trim line = []
      · have hnone : reading? lib policy line = none := if_pos hblank
        rw [List.filter_cons_of_neg (by simpa using hblank), hrest, readings, readings,
          List.filterMap_cons_none hnone]
      · obtain ⟨-, r, raw, hr, -⟩ := (hline line List.mem_cons_self).2 hblank
        rw [List.filter_cons_of_pos (by simpa using hblank), List.map_cons, hrest, hr, readings,
          readings, List.filterMap_cons_some hr, List.map_cons]

/-- A list with a blank line and a second line with the same key. -/
def sampleList : Text := "\n".toList ++ sampleLine ++ "\r\n ".toList ++ sampleLine

/-- What both lines of the sample say. -/
def sampleReading : Reading := ⟨"GitHub".toList, sampleTotp⟩

/-- What the import makes of the sample list. -/
def sampleQuarantine : QuarantinedImport := ⟨.otpAuthTotpUriList, ⟨[sampleEntry sampleTotp]⟩, rfl⟩

theorem readings_sampleList :
    readings sampleInteropLibraries allowingPolicy (Strings.lines sampleList) =
      [sampleReading, sampleReading] := by
  decide +kernel

/-- A list that is accepted is quarantined as one entry for each key, in order, made of the first
line that has the key; each entry passes the checks of the import and has a code at every time. -/
theorem importList_keeps_firstOccurrences (hmac : lib.totp.AcceptsKeys) {intent : ImportIntent}
    {bytes : Bytes} (hsha : (hashedFields lib policy bytes).InjOn lib.sha256)
    {q : QuarantinedImport} (h : importList lib policy intent bytes = .ok q) :
    ∃ s kept, Json.utf8? bytes = some s ∧
      ((Strings.lines s).filter fun line => Strings.trim line ≠ []).map (reading? lib policy) =
        (readings lib policy (Strings.lines s)).map some ∧
      FirstOccurrences Reading.plainKey (readings lib policy (Strings.lines s)) kept ∧
      q.payload.entries.map EntryContent.ofEntry = kept.map Reading.content ∧
      validatePayloadInvariants q.payload = .ok () ∧
      ∀ entry ∈ q.payload.entries, ∃ totp, entry.secret.totp = some totp ∧
        ∀ time, ∃ code, totpGenerateFromSecret lib.totp totp time = .ok code := by
  obtain ⟨s, hs, hpayload, -⟩ := importList_eq_ok.mp h
  have hparse : parseOtpauthTotpList lib policy bytes = .ok q.payload :=
    parseOtpauthTotpList_eq_ok.mpr ⟨s, hs.text, hs.lines, hpayload⟩
  have hkeys : ∀ r ∈ readings lib policy (Strings.lines s),
      ∀ r' ∈ readings lib policy (Strings.lines s),
        r.key lib = r'.key lib ↔ r.plainKey = r'.plainKey := fun r hr r' hr' =>
    Reading.key_eq_iff hsha (fun _ hfield => ⟨s, hs.text, r, hr, hfield⟩)
      (fun _ hfield => ⟨s, hs.text, r', hr', hfield⟩)
  refine ⟨s, firsts Reading.plainKey [] (readings lib policy (Strings.lines s)), hs.text,
    map_reading?_nonblank lib policy hs.lines, firstOccurrences_firsts _ _, ?_, q.checked, ?_⟩
  · rw [hpayload, entries_payloadOf, firsts_congr hkeys]
  · exact fun entry hentry => (canonical_of_mem hparse hentry).exists_code hmac

/-- The theorem on the sample list. -/
theorem importList_keeps_firstOccurrences_sample :
    ∃ s kept, Json.utf8? (Json.utf8 sampleList) = some s ∧
      ((Strings.lines s).filter fun line => Strings.trim line ≠ []).map
          (reading? sampleInteropLibraries allowingPolicy) =
        (readings sampleInteropLibraries allowingPolicy (Strings.lines s)).map some ∧
      FirstOccurrences Reading.plainKey
        (readings sampleInteropLibraries allowingPolicy (Strings.lines s)) kept ∧
      sampleQuarantine.payload.entries.map EntryContent.ofEntry = kept.map Reading.content ∧
      validatePayloadInvariants sampleQuarantine.payload = .ok () ∧
      ∀ entry ∈ sampleQuarantine.payload.entries, ∃ totp, entry.secret.totp = some totp ∧
        ∀ time, ∃ code, totpGenerateFromSecret sampleTotpLibraries totp time = .ok code := by
  have hsha : (hashedFields sampleInteropLibraries allowingPolicy (Json.utf8 sampleList)).InjOn
      sampleSha256 := by
    have hfields : ∀ field ∈ hashedFields sampleInteropLibraries allowingPolicy
        (Json.utf8 sampleList), field ∈ sampleReading.hashed := by
      rintro field ⟨s, hs, r, hr, hfield⟩
      rw [Json.utf8?_utf8] at hs
      obtain rfl := Option.some.inj hs
      rw [readings_sampleList] at hr
      simp only [List.mem_cons, List.not_mem_nil, or_false, or_self] at hr
      exact hr ▸ hfield
    have hdistinct : ∀ field ∈ sampleReading.hashed, ∀ field' ∈ sampleReading.hashed,
        sampleSha256 field = sampleSha256 field' → field = field' := by decide +kernel
    exact fun field hfield field' hfield' =>
      hdistinct field (hfields field hfield) field' (hfields field' hfield')
  have himport : importList sampleInteropLibraries allowingPolicy .userConfirmed
      (Json.utf8 sampleList) = .ok sampleQuarantine := by
    have hparse : parseOtpauthTotpList sampleInteropLibraries allowingPolicy
        (Json.utf8 sampleList) = .ok sampleQuarantine.payload := by
      rw [parseOtpauthTotpList, Json.utf8?_utf8]
      decide +kernel
    exact importInteropQuarantine_eq_ok.mpr
      ⟨rfl, by decide +kernel, by decide +kernel, hparse, rfl⟩
  exact importList_keeps_firstOccurrences sampleTotpLibraries_acceptsKeys hsha himport

end OtpauthList

end ViperVault
