import ViperVault.Import.ListOrder
import ViperVault.Otpauth.Identity

/-!
# Exported lists read back

Blocks that are exported one by one, their URIs written as the lines of a list, and the list
imported: which of them come back, as what, and with which codes.
-/

namespace ViperVault

open Foundation Entries Otpauth Totp

namespace OtpauthList

/-! ## One line -/

/-- The line of a block. -/
def exportedLine (source : Text × TotpSecret) : Text :=
  exportedUri source.1 source.2 (trimPadding source.2.secretB32.exposeSecret)

/-- What the line says. -/
def exportedReading (source : Text × TotpSecret) : Reading where
  title := (splitLabel (labelText source.1 source.2)).title
  totp := readBlock source.1 source.2 (trimPadding source.2.secretB32.exposeSecret)

/-- The line is short, its label is kept, the texts in it pass the checks and its secret decodes. -/
structure ComesBack (lib : TotpLibraries) (source : Text × TotpSecret) : Prop where
  short : utf8Len (exportedLine source) ≤ maxOtpAuthUriLen
  kept : ¬ LostLabel (labelText source.1 source.2)
  title : checkDisplay validateTitle (splitLabel (labelText source.1 source.2)).title = .ok ()
  account : checkOptional validateUsername (splitLabel (labelText source.1 source.2)).account =
    .ok ()
  issuer : checkOptional validateTitle (readIssuer source.1 source.2) = .ok ()
  decodes : ∃ raw,
    decodeBase32SecretStrict lib (trimPadding source.2.secretB32.exposeSecret) = .ok raw

/-- Nothing in an exported URI is white space. -/
theorem solid_exportedUri (title : Text) (totp : TotpSecret) (secret : Text) :
    ∀ c ∈ exportedUri title totp secret, Strings.isWhitespace c = false := by
  intro c hc
  rw [exportedUri, List.append_assoc, List.mem_append, List.mem_append, List.mem_cons] at hc
  rcases hc with hc | hc | rfl | hc
  · have hprefix : otpauthPrefix.all (fun c => !Strings.isWhitespace c) = true := rfl
    simpa using List.all_eq_true.mp hprefix c hc
  · exact Percent.isWhitespace_of_plain (Percent.plain_encode _ c hc)
  · rfl
  · rcases Percent.mem_encodeForm hc with hc | rfl | rfl
    · exact Percent.isWhitespace_of_plain hc
    · rfl
    · rfl

section Line

variable {lib : InteropLibraries} {policy : PolicyContext} {source : Text × TotpSecret}

/-- The line of a valid block is read as the block, or not at all. -/
theorem reading?_exportedLine (hstd : lib.uri.Standard) (hvalid : source.2.validate = .ok ())
    (hne : trimPadding source.2.secretB32.exposeSecret ≠ []) {r : Reading} :
    reading? lib policy (exportedLine source) = some r ↔
      (∃ title totp, parseTotpOtpauthUri lib.uri policy (exportedLine source) =
        .ok (title, totp)) ∧ r = exportedReading source := by
  have hsolid : Strings.trim (exportedLine source) = exportedLine source :=
    Strings.trim_eq_self (solid_exportedUri _ _ _)
  have hcanonical : canonicalizeBase32ForExport
      (trimPadding source.2.secretB32.exposeSecret) =
        .ok (trimPadding source.2.secretB32.exposeSecret) := by
    have htrimmed := trimPadding_trimPadding source.2.secretB32.exposeSecret
    refine (canonicalizeBase32ForExport_of_validate (readBlock_valid source.1 hvalid hne)).mpr ?_
    exact ⟨htrimmed.symm ▸ hne, htrimmed.symm⟩
  rw [reading?_eq_some, hsolid]
  constructor
  · rintro ⟨-, totp, secret, hparse, hsecret, htotp⟩
    refine ⟨⟨_, _, hparse⟩, ?_⟩
    obtain ⟨-, -, -, -, -, -, -, htitle, rfl⟩ := (parseTotpOtpauthUri_exported hstd).mp hparse
    obtain rfl := Except.ok.inj (hcanonical.symm.trans hsecret)
    obtain ⟨rtitle, rtotp⟩ := r
    cases htitle
    cases htotp
    rfl
  · rintro ⟨⟨title, totp, hparse⟩, rfl⟩
    obtain ⟨-, -, -, -, -, -, -, rfl, rfl⟩ := (parseTotpOtpauthUri_exported hstd).mp hparse
    exact ⟨List.cons_ne_nil _ _, _, _, hparse, hcanonical, rfl⟩

/-- The line of a valid block is acceptable exactly if the block comes back. -/
theorem readable_exportedLine (hstd : lib.uri.Standard) (hvalid : source.2.validate = .ok ())
    (hne : trimPadding source.2.secretB32.exposeSecret ≠ []) :
    Readable lib policy (exportedLine source) ↔
      policy.allowOtpauthImport = true ∧ ComesBack lib.totp source := by
  have hsolid : Strings.trim (exportedLine source) = exportedLine source :=
    Strings.trim_eq_self (solid_exportedUri _ _ _)
  have hblank : exportedLine source ≠ [] := List.cons_ne_nil _ _
  have hblock := readBlock_valid source.1 hvalid hne
  unfold Readable
  rw [hsolid]
  simp only [reading?_exportedLine hstd hvalid hne]
  constructor
  · rintro ⟨-, hread⟩
    obtain ⟨hshort, r, raw, ⟨⟨title, totp, hparse⟩, rfl⟩, hraw⟩ := hread hblank
    obtain ⟨hpolicy, -, hkept, htitle, haccount, hissuer, -⟩ :=
      (parseTotpOtpauthUri_exported hstd).mp hparse
    exact ⟨hpolicy, hshort, hkept, htitle, haccount, hissuer, raw, hraw⟩
  · rintro ⟨hpolicy, hshort, hkept, htitle, haccount, hissuer, raw, hraw⟩
    have hparse : parseTotpOtpauthUri lib.uri policy (exportedLine source) =
        .ok ((exportedReading source).title, (exportedReading source).totp) :=
      (parseTotpOtpauthUri_exported hstd).mpr
        ⟨hpolicy, hshort, hkept, htitle, haccount, hissuer, hblock, rfl, rfl⟩
    exact ⟨hshort.trans (by decide), fun _ => ⟨hshort, _, raw, ⟨⟨_, _, hparse⟩, rfl⟩, hraw⟩⟩

end Line

/-! ## The list -/

/-- Each block is exported, as the URI at its place. -/
def Exports (uri : UriLibraries) (sources : List (Text × TotpSecret)) (uris : List Text) : Prop :=
  List.Forall₂ (fun source u => exportTotpOtpauthUri uri source.1 source.2 = .ok u) sources uris

/-- The import is allowed, every block comes back, and there are neither too many nor too long
texts in them. -/
structure AcceptableSources (lib : InteropLibraries) (policy : PolicyContext)
    (sources : List (Text × TotpSecret)) : Prop where
  allowed : policy.allowPlaintextImport = true
  nonempty : sources ≠ []
  size : (Json.utf8 (listText (sources.map exportedLine))).length ≤ maxInteropImportBytes
  count : sources.length ≤ maxInteropEntries
  comesBack : ∀ source ∈ sources, ComesBack lib.totp source
  text : sumTextBytes (sources.map exportedReading) ≤ maxInteropAggTextBytes

/-- The block has a code. -/
def HasCode (lib : TotpLibraries) (source : Text × TotpSecret) : Prop :=
  ∃ now code, totpGenerateFromSecret lib source.2 now = .ok code

/-- What the line says if it says what the block was: only the padding of the secret is gone. -/
def ownReading (source : Text × TotpSecret) : Reading where
  title := keptTitle source.1 source.2
  totp := { source.2 with secretB32 := ⟨trimPadding source.2.secretB32.exposeSecret⟩ }

section List

variable {lib : InteropLibraries} {policy : PolicyContext} {intent : ImportIntent}
  {sources : List (Text × TotpSecret)} {uris : List Text}

/-- What is exported, and as what. -/
theorem Exports.spec {uri : UriLibraries} (hstd : uri.Standard) (h : Exports uri sources uris) :
    (∀ source ∈ sources, source.2.validate = .ok () ∧
      trimPadding source.2.secretB32.exposeSecret ≠ []) ∧ uris = sources.map exportedLine := by
  induction h with
  | nil => exact ⟨by simp, rfl⟩
  | cons hexport _ ih =>
      obtain ⟨hvalid, hne, rfl⟩ := (exportTotpOtpauthUri_eq_ok hstd).mp hexport
      obtain ⟨hsources, rfl⟩ := ih
      exact ⟨List.forall_mem_cons.mpr ⟨⟨hvalid, hne⟩, hsources⟩, rfl⟩

variable (sources) in
theorem lines_exported :
    Strings.lines (listText (sources.map exportedLine)) = sources.map exportedLine := by
  refine Strings.lines_flatMap_of_solid fun line hline => ?_
  obtain ⟨source, -, rfl⟩ := List.mem_map.mp hline
  exact solid_exportedUri _ _ _

section Exported

variable (hstd : lib.uri.Standard)
  (hvalid : ∀ source ∈ sources, source.2.validate = .ok () ∧
    trimPadding source.2.secretB32.exposeSecret ≠ [])

include hstd hvalid

/-- Where every line is acceptable, each says what its block was made into. -/
theorem listReadings_exported
    (hread : ∀ source ∈ sources, Readable lib policy (exportedLine source)) :
    listReadings lib policy (sources.map exportedLine) = sources.map exportedReading := by
  rw [listReadings, lines_exported, readings, List.filterMap_map, ← List.filterMap_eq_map]
  refine List.filterMap_congr fun source hsource => ?_
  obtain ⟨hblock, hne⟩ := hvalid source hsource
  have hsolid : Strings.trim (exportedLine source) = exportedLine source :=
    Strings.trim_eq_self (solid_exportedUri _ _ _)
  obtain ⟨-, r, -, hr, -⟩ := (hread source hsource).2 (hsolid.symm ▸ List.cons_ne_nil _ _)
  obtain ⟨-, rfl⟩ := (reading?_exportedLine hstd hblock hne).mp hr
  exact hr

/-- A list of exported blocks is acceptable exactly if its blocks are. -/
theorem acceptableList_exported :
    AcceptableList lib policy (sources.map exportedLine) ↔
      AcceptableSources lib policy sources := by
  have hblank : Json.utf8 (listText (sources.map exportedLine)) = [] ↔ sources = [] := by
    constructor
    · intro hnil
      have htext : listText (sources.map exportedLine) = [] := Json.utf8_injective hnil
      have hlines := lines_exported sources
      rw [htext] at hlines
      exact List.map_eq_nil_iff.mp hlines.symm
    · rintro rfl
      rfl
  constructor
  · rintro ⟨hallowed, hne, hsize, -, hcount, hread, htext⟩
    rw [lines_exported] at hcount hread
    have hread' : ∀ source ∈ sources, Readable lib policy (exportedLine source) :=
      fun source hsource => hread _ (List.mem_map_of_mem hsource)
    have hreadings : readings lib policy (Strings.lines (listText (sources.map exportedLine))) =
        sources.map exportedReading := listReadings_exported hstd hvalid hread'
    refine ⟨hallowed, mt hblank.mpr hne, hsize, by simpa using hcount, fun source hsource => ?_,
      hreadings ▸ htext⟩
    obtain ⟨hblock, hsecret⟩ := hvalid source hsource
    exact ((readable_exportedLine hstd hblock hsecret).mp (hread' source hsource)).2
  · rintro ⟨hallowed, hne, hsize, hcount, hback, htext⟩
    have hread : ∀ source ∈ sources, Readable lib policy (exportedLine source) := by
      intro source hsource
      obtain ⟨hblock, hsecret⟩ := hvalid source hsource
      exact (readable_exportedLine hstd hblock hsecret).mpr ⟨hallowed, hback source hsource⟩
    have hreadings : readings lib policy (Strings.lines (listText (sources.map exportedLine))) =
        sources.map exportedReading := listReadings_exported hstd hvalid hread
    refine ⟨hallowed, mt hblank.mp hne, hsize, Json.utf8?_utf8 _, ?_, ?_, hreadings ▸ htext⟩
    · rw [lines_exported, List.length_map]
      exact hcount
    · rw [lines_exported]
      exact List.forall_mem_map.mpr hread

end Exported

/-- What is read of a block whose label can be taken apart is the block itself. -/
theorem exportedReading_of_readsBack {source : Text × TotpSecret}
    (h : ReadsBack source.1 source.2) : exportedReading source = ownReading source := by
  rw [exportedReading, ownReading, h.title, readBlock, h.issuer, h.account]

/-- A block that had a code has the same codes when it is read. -/
theorem formatted_exportedReading {lib : TotpLibraries} {strict : Bool}
    (hlib : lib.Rfc4648 strict) {source : Text × TotpSecret} (hcode : HasCode lib source)
    (hne : trimPadding source.2.secretB32.exposeSecret ≠ []) (time : UInt64) :
    totpGenerateFormatted lib (exportedReading source).totp time =
      totpGenerateFormatted lib source.2 time := by
  obtain ⟨now, code, hcode⟩ := hcode
  rcases decoded_or_refused lib source.2 with ⟨hvalid, raw, hraw⟩ | ⟨e, -, hrefused, -⟩
  · have hvalid' := readBlock_valid source.1 hvalid hne
    have hraw' := decodeBase32SecretStrict_trimPadding hlib hraw
    have hsame : totpGenerateFromSecret lib (exportedReading source).totp time =
        totpGenerateFromSecret lib source.2 time := by
      simp only [totpGenerateFromSecret, exportedReading, hvalid, hvalid']
      simp only [readBlock, hraw, hraw']
    rw [totpGenerateFormatted, totpGenerateFormatted, hsame]
    rfl
  · rw [hrefused] at hcode
    cases hcode

/-- Two accounts of which the first has a padded secret. -/
def sampleSources : List (Text × TotpSecret) :=
  [("T".toList, { labelledTotp with secretB32 := ⟨paddedSecret⟩ }), ("Mail".toList, sampleTotp)]

/-- A list of exported URIs is imported exactly if its blocks come back and are not too many. It
is then imported as the first of the blocks that share a key; a block that says what all with its
key say keeps its codes, and where every label can be taken apart and no two blocks share a key,
the blocks come back as they were and in order, but for the padding of their secrets. -/
theorem exported_list_comes_back {strict : Bool} (hstd : lib.uri.Standard)
    (hlib : lib.totp.Rfc4648 strict) (hexport : Exports lib.uri sources uris) :
    ((∃ q, importList lib policy intent (Json.utf8 (listText uris)) = .ok q) ↔
      AcceptableSources lib policy sources) ∧
    ∀ q, importList lib policy intent (Json.utf8 (listText uris)) = .ok q →
      q.payload.entries.map EntryContent.ofEntry =
        (firsts (Reading.key lib) [] (sources.map exportedReading)).map Reading.content ∧
      (∀ source ∈ sources, HasCode lib.totp source →
        (∀ other ∈ sources, (exportedReading other).key lib = (exportedReading source).key lib →
          exportedReading other = exportedReading source) →
        ∃ entry ∈ q.payload.entries, ∃ totp, entry.secret.totp = some totp ∧
          ∀ time, totpGenerateFormatted lib.totp totp time =
            totpGenerateFormatted lib.totp source.2 time) ∧
      ((∀ source ∈ sources, ReadsBack source.1 source.2) →
        (sources.map fun source => (ownReading source).key lib).Nodup →
        q.payload.entries.map EntryContent.ofEntry =
          sources.map fun source => (ownReading source).content) := by
  obtain ⟨hvalid, rfl⟩ := hexport.spec hstd
  rw [exists_importList_listText, acceptableList_exported hstd hvalid]
  refine ⟨Iff.rfl, fun q hq => ?_⟩
  have haccept := (acceptableList_exported hstd hvalid).mp (exists_importList_listText.mp ⟨q, hq⟩)
  have hread : ∀ source ∈ sources, Readable lib policy (exportedLine source) := by
    intro source hsource
    obtain ⟨hblock, hsecret⟩ := hvalid source hsource
    exact (readable_exportedLine hstd hblock hsecret).mpr
      ⟨haccept.allowed, haccept.comesBack source hsource⟩
  have hcontents := contents_of_importList hq
  rw [listReadings_exported hstd hvalid hread] at hcontents
  refine ⟨hcontents, ?_, ?_⟩
  · intro source hsource hcode hsame
    have hkey : (exportedReading source).key lib ∈
        (firsts (Reading.key lib) [] (sources.map exportedReading)).map (Reading.key lib) :=
      mem_map_firsts.mpr
        ⟨List.mem_map_of_mem (List.mem_map_of_mem hsource), List.not_mem_nil⟩
    obtain ⟨r, hr, hrkey⟩ := List.mem_map.mp hkey
    obtain ⟨other, hother, rfl⟩ := List.mem_map.mp ((firsts_sublist _ _).subset hr)
    have hmem : (exportedReading source).content ∈
        q.payload.entries.map EntryContent.ofEntry := by
      rw [hcontents, ← hsame other hother hrkey]
      exact List.mem_map_of_mem hr
    obtain ⟨entry, hentry, hcontent⟩ := List.mem_map.mp hmem
    have hsecret : entry.secret = (exportedReading source).content.secret :=
      congrArg EntryContent.secret hcontent
    refine ⟨entry, hentry, (exportedReading source).totp, by rw [hsecret]; rfl, ?_⟩
    exact formatted_exportedReading hlib hcode (hvalid source hsource).2
  · intro hback hnodup
    have hown : sources.map exportedReading = sources.map ownReading :=
      List.map_congr_left fun source hsource => exportedReading_of_readsBack (hback source hsource)
    rw [hcontents, hown, firsts_eq_self (by rwa [List.map_map]), List.map_map]
    rfl

end List

/-- The theorem on the two accounts, which come back as they were. -/
theorem exported_list_comes_back_sample :
    ∃ q, importList sampleInteropLibraries allowingPolicy .userConfirmed
        (Json.utf8 (listText (sampleSources.map exportedLine))) = .ok q ∧
      q.payload.entries.map EntryContent.ofEntry =
        sampleSources.map fun source => (ownReading source).content := by
  have hexport : Exports sampleInteropLibraries.uri sampleSources
      (sampleSources.map exportedLine) := by
    refine List.Forall₂.cons ?_ (List.Forall₂.cons ?_ List.Forall₂.nil)
    · exact (exportTotpOtpauthUri_eq_ok standardUri_standard).mpr (by decide +kernel)
    · exact (exportTotpOtpauthUri_eq_ok standardUri_standard).mpr (by decide +kernel)
  have haccept : AcceptableSources sampleInteropLibraries allowingPolicy sampleSources := by
    refine ⟨rfl, by decide, by decide +kernel, by decide, ?_, by decide +kernel⟩
    rw [sampleSources, List.forall_mem_cons, List.forall_mem_singleton]
    constructor
    · exact ⟨by decide +kernel, by decide +kernel, by decide +kernel, by decide +kernel,
        by decide +kernel, _, rfl⟩
    · exact ⟨by decide +kernel, by decide +kernel, by decide +kernel, by decide +kernel,
        by decide +kernel, _, rfl⟩
  have hback : ∀ source ∈ sampleSources, ReadsBack source.1 source.2 := by
    rw [sampleSources, List.forall_mem_cons, List.forall_mem_singleton]
    constructor
    · exact ⟨by decide +kernel, by decide +kernel, by decide +kernel, by decide +kernel,
        by decide +kernel, by decide +kernel, by decide +kernel⟩
    · exact ⟨by decide +kernel, by decide +kernel, by decide +kernel, by decide +kernel,
        by decide +kernel, by decide +kernel, by decide +kernel⟩
  have hnodup : (sampleSources.map fun source =>
      (ownReading source).key sampleInteropLibraries).Nodup := by decide +kernel
  have hsample := @exported_list_comes_back _ allowingPolicy .userConfirmed _ _ _
    standardUri_standard sampleTotpLibraries_rfc4648 hexport
  obtain ⟨q, hq⟩ := hsample.1.mpr haccept
  exact ⟨q, hq, (hsample.2 q hq).2.2 hback hnodup⟩

end OtpauthList

end ViperVault
