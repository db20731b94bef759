import ViperVault.Import.ListReadings

/-!
# The order of a list of URIs

The import keeps the first line of each key, and a line says more than its key. So a list is
imported alike in every order exactly if its lines that share a key say the same.
-/

namespace ViperVault

open Foundation Entries Otpauth Totp

namespace OtpauthList

/-- The text of a list, where a line feed ends every line. -/
def listText (lines : List Text) : Text := lines.flatMap fun line => line ++ ['\n']

/-- Both lists are accepted or both are refused; what is accepted is the same up to identifiers
and order. -/
structure ImportsAlike (lib : InteropLibraries) (policy : PolicyContext) (intent : ImportIntent)
    (lines lines' : List Text) : Prop where
  accepted : (∃ q, importList lib policy intent (Json.utf8 (listText lines)) = .ok q) ↔
    ∃ q, importList lib policy intent (Json.utf8 (listText lines')) = .ok q
  entries : ∀ q q', importList lib policy intent (Json.utf8 (listText lines)) = .ok q →
    importList lib policy intent (Json.utf8 (listText lines')) = .ok q' →
      (q.payload.entries.map EntryContent.ofEntry).Perm
        (q'.payload.entries.map EntryContent.ofEntry)

/-- What the lines of a list say. -/
def listReadings (lib : InteropLibraries) (policy : PolicyContext) (lines : List Text) :
    List Reading :=
  readings lib policy (Strings.lines (listText lines))

/-- The list is accepted. -/
def AcceptableList (lib : InteropLibraries) (policy : PolicyContext) (lines : List Text) : Prop :=
  Acceptable lib policy (Json.utf8 (listText lines)) (listText lines)

variable {lib : InteropLibraries} {policy : PolicyContext} {intent : ImportIntent}
  {lines lines' : List Text}

theorem exists_importList_listText :
    (∃ q, importList lib policy intent (Json.utf8 (listText lines)) = .ok q) ↔
      AcceptableList lib policy lines := by
  rw [exists_importList_iff]
  constructor
  · rintro ⟨s, hs⟩
    obtain rfl := hs.text_eq
    exact hs
  · exact fun h => ⟨_, h⟩

/-- What is accepted are the first readings of each key. -/
theorem contents_of_importList {q : QuarantinedImport}
    (h : importList lib policy intent (Json.utf8 (listText lines)) = .ok q) :
    q.payload.entries.map EntryContent.ofEntry =
      (firsts (Reading.key lib) [] (listReadings lib policy lines)).map Reading.content := by
  obtain ⟨s, hs, hpayload, -⟩ := importList_eq_ok.mp h
  rw [hpayload, entries_payloadOf, hs.text_eq, listReadings]

/-! ## Reordered lists -/

theorem perm_lines_listText (hlines : ∀ line ∈ lines, '\n' ∉ line) (h : lines.Perm lines') :
    (Strings.lines (listText lines)).Perm (Strings.lines (listText lines')) := by
  have hlines' : ∀ line ∈ lines', '\n' ∉ line := fun line hline =>
    hlines line (h.mem_iff.mpr hline)
  rw [listText, listText, Strings.lines_flatMap hlines, Strings.lines_flatMap hlines']
  exact h.map _

/-- The checks of the parser do not depend on the order. -/
theorem AcceptableList.perm (hlines : ∀ line ∈ lines, '\n' ∉ line) (h : lines.Perm lines')
    (haccept : AcceptableList lib policy lines) : AcceptableList lib policy lines' := by
  have hperm := perm_lines_listText hlines h
  have hbytes : (Json.utf8 (listText lines)).Perm (Json.utf8 (listText lines')) :=
    (h.flatMap_right _).flatMap_right _
  refine ⟨haccept.allowed, ?_, hbytes.length_eq ▸ haccept.size, Json.utf8?_utf8 _, ?_, ?_, ?_⟩
  · intro hnil
    exact haccept.nonempty (hbytes.trans (hnil ▸ List.Perm.refl _)).eq_nil
  · exact hperm.length_eq ▸ haccept.lines.count
  · exact fun line hline => haccept.lines.readable line (hperm.mem_iff.mpr hline)
  · have hsum := ((hperm.filterMap (reading? lib policy)).map
      fun r => textBytes r.title r.totp).sum_nat
    exact hsum.symm.trans_le haccept.lines.text

/-- Where no two readings share a key, all orders are imported alike. -/
theorem ImportsAlike.of_perm (hlines : ∀ line ∈ lines, '\n' ∉ line) (h : lines.Perm lines')
    (hsame : AcceptableList lib policy lines → ∀ r ∈ listReadings lib policy lines,
      ∀ r' ∈ listReadings lib policy lines, r.key lib = r'.key lib → r = r') :
    ImportsAlike lib policy intent lines lines' := by
  have hlines' : ∀ line ∈ lines', '\n' ∉ line := fun line hline =>
    hlines line (h.mem_iff.mpr hline)
  constructor
  · rw [exists_importList_listText, exists_importList_listText]
    exact ⟨AcceptableList.perm hlines h, AcceptableList.perm hlines' h.symm⟩
  · intro q q' hq hq'
    have hreadings : (listReadings lib policy lines).Perm (listReadings lib policy lines') :=
      (perm_lines_listText hlines h).filterMap _
    rw [contents_of_importList hq, contents_of_importList hq']
    exact (firsts_perm hreadings (hsame (exists_importList_listText.mp ⟨q, hq⟩))).map _

/-! ## The first line of a key -/

theorem Reading.content_injective : Function.Injective Reading.content := by
  intro r r' h
  obtain ⟨title, totp⟩ := r
  obtain ⟨title', totp'⟩ := r'
  simp only [content, EntryContent.mk.injEq, EntrySecret.mk.injEq, SecretString.mk.injEq,
    Option.some.injEq, true_and] at h
  simp only [h.1, h.2.2]

/-- A line can be moved to the front, and what it says is then imported. -/
theorem exists_perm_mem_firsts (hlines : ∀ line ∈ lines, '\n' ∉ line) {r : Reading}
    (hr : r ∈ listReadings lib policy lines) :
    ∃ lines', lines.Perm lines' ∧
      r ∈ firsts (Reading.key lib) [] (listReadings lib policy lines') := by
  rw [listReadings, readings, listText, Strings.lines_flatMap hlines, List.mem_filterMap] at hr
  obtain ⟨_, hmem, hr⟩ := hr
  obtain ⟨line, hline, rfl⟩ := List.mem_map.mp hmem
  have hperm : lines.Perm (line :: lines.erase line) := List.perm_cons_erase hline
  have hlines' : ∀ l ∈ line :: lines.erase line, '\n' ∉ l := fun l hl =>
    hlines l (hperm.mem_iff.mpr hl)
  refine ⟨_, hperm, ?_⟩
  rw [listReadings, readings, listText, Strings.lines_flatMap hlines', List.map_cons,
    List.filterMap_cons_some hr]
  exact mem_firsts_cons r _

/-- What a line of an accepted list says is imported, if all orders are imported alike. -/
theorem mem_firsts_of_importsAlike (hlines : ∀ line ∈ lines, '\n' ∉ line)
    (halike : ∀ lines', lines.Perm lines' → ImportsAlike lib policy intent lines lines')
    (haccept : AcceptableList lib policy lines) {r : Reading}
    (hr : r ∈ listReadings lib policy lines) :
    r ∈ firsts (Reading.key lib) [] (listReadings lib policy lines) := by
  obtain ⟨lines', hperm, hfirst⟩ := exists_perm_mem_firsts hlines hr
  obtain ⟨q, hq⟩ : ∃ q, importList lib policy intent (Json.utf8 (listText lines)) = .ok q :=
    exists_importList_listText.mpr haccept
  obtain ⟨q', hq'⟩ := (halike lines' hperm).accepted.mp ⟨q, hq⟩
  have hentries := (halike lines' hperm).entries q q' hq hq'
  rw [contents_of_importList hq, contents_of_importList hq'] at hentries
  have hcontent := hentries.mem_iff.mpr (List.mem_map_of_mem hfirst)
  exact (List.mem_map_of_injective Reading.content_injective).mp hcontent

/-- The sample line, for codes of eight digits. -/
def eightDigitsLine : Text := sampleLine ++ "&digits=8".toList

/-- A list is imported alike in every order exactly if, where it is accepted, the lines that share
a key say the same. -/
theorem importsAlike_iff (hlines : ∀ line ∈ lines, '\n' ∉ line) :
    (∀ lines', lines.Perm lines' → ImportsAlike lib policy intent lines lines') ↔
      (AcceptableList lib policy lines → ∀ r ∈ listReadings lib policy lines,
        ∀ r' ∈ listReadings lib policy lines, r.key lib = r'.key lib → r = r') := by
  constructor
  · intro halike haccept r hr r' hr' hkey
    exact eq_of_mem_firsts (mem_firsts_of_importsAlike hlines halike haccept hr)
      (mem_firsts_of_importsAlike hlines halike haccept hr') hkey
  · exact fun hsame lines' hperm => ImportsAlike.of_perm hlines hperm hsame

/-- The theorem on two lines that share a key. -/
theorem importsAlike_iff_eightDigits :
    (∀ lines', [sampleLine, eightDigitsLine].Perm lines' →
      ImportsAlike sampleInteropLibraries allowingPolicy .userConfirmed
        [sampleLine, eightDigitsLine] lines') ↔
      (AcceptableList sampleInteropLibraries allowingPolicy [sampleLine, eightDigitsLine] →
        ∀ r ∈ listReadings sampleInteropLibraries allowingPolicy [sampleLine, eightDigitsLine],
          ∀ r' ∈ listReadings sampleInteropLibraries allowingPolicy [sampleLine, eightDigitsLine],
            r.key sampleInteropLibraries = r'.key sampleInteropLibraries → r = r') :=
  importsAlike_iff (by decide +kernel)

/-- Which of two lines with the sample key comes first decides how many digits the codes have. -/
theorem importsAlike_reversed_ne :
    [sampleLine, eightDigitsLine].Perm [eightDigitsLine, sampleLine] ∧
      ¬ ImportsAlike sampleInteropLibraries allowingPolicy .userConfirmed
        [sampleLine, eightDigitsLine] [eightDigitsLine, sampleLine] := by
  refine ⟨List.Perm.swap _ _ _, fun h => ?_⟩
  have himport (totp : TotpSecret) (lines : List Text)
      (hvalid : validatePayloadInvariants ⟨[sampleEntry totp]⟩ = .ok ())
      (hsize : (Json.utf8 (listText lines)).length ≤ maxInteropImportBytes)
      (hne : Json.utf8 (listText lines) ≠ [])
      (hparse : parseOtpauthTotpList sampleInteropLibraries allowingPolicy
        (Json.utf8 (listText lines)) = .ok ⟨[sampleEntry totp]⟩) :
      importList sampleInteropLibraries allowingPolicy .userConfirmed
        (Json.utf8 (listText lines)) =
          .ok ⟨.otpAuthTotpUriList, ⟨[sampleEntry totp]⟩, hvalid⟩ :=
    importInteropQuarantine_eq_ok.mpr ⟨rfl, hne, hsize, hparse, rfl⟩
  have hentries := h.entries _ _
    (himport sampleTotp _ rfl (by decide +kernel) (by decide +kernel)
      (by rw [parseOtpauthTotpList, Json.utf8?_utf8]; decide +kernel))
    (himport { sampleTotp with digits := 8 } _ rfl (by decide +kernel) (by decide +kernel)
      (by rw [parseOtpauthTotpList, Json.utf8?_utf8]; decide +kernel))
  have hdigits := congrArg (List.map fun c => c.secret.totp.map TotpSecret.digits)
    (List.perm_singleton.mp hentries)
  exact absurd hdigits (by decide)

end OtpauthList

end ViperVault
