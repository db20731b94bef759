import Mathlib.Data.List.DropRight

/-!
# Paths of bytes

A path is a string of bytes, and slashes separate its pieces. Empty pieces and dots say nothing, but
for a slash or a dot at the front. Here are the functions of Rust's `Path` on Unix, and the steps
that a path takes from where it starts.
-/

namespace ViperVault.Foundation.OsPath

/-- The separator. -/
def slash : UInt8 := 0x2F

/-- The name of the directory itself. -/
def dot : List UInt8 := [0x2E]

/-- The name of the directory above. -/
def dotDot : List UInt8 := [0x2E, 0x2E]

/-- The pieces of a path, between its slashes. -/
def pieces (p : List UInt8) : List (List UInt8) := p.splitOn slash

/-- A piece that says nothing. -/
def isSkipped (piece : List UInt8) : Bool := piece = [] || piece = dot

/-- The path starts at the root. -/
def isAbsolute (p : List UInt8) : Bool := p.head? = some slash

/-- The first piece; it is empty where the path is absolute. -/
def firstPiece (p : List UInt8) : List UInt8 := (pieces p).headD []

/-- The other pieces, up to the last that is a component. -/
def laterPieces (p : List UInt8) : List (List UInt8) := (pieces p).tail.rdropWhile isSkipped

/-- The path with the given pieces. -/
def ofPieces (l : List (List UInt8)) : List UInt8 :=
  if l = [[]] then [slash] else [slash].intercalate l

/-- `Path::parent`. -/
def parent (p : List UInt8) : Option (List UInt8) :=
  if laterPieces p = [] then
    if firstPiece p = [] then none else some []
  else some (ofPieces (firstPiece p :: (laterPieces p).dropLast.rdropWhile isSkipped))

/-- `Path::file_name`. -/
def fileName (p : List UInt8) : Option (List UInt8) :=
  let last := (laterPieces p).getLastD (firstPiece p)
  if last = [] ∨ last = dot ∨ last = dotDot then none else some last

/-- `Path::join`. -/
def join (p name : List UInt8) : List UInt8 :=
  if isAbsolute name then name
  else if p = [] ∨ p.getLast? = some slash then p ++ name
  else p ++ slash :: name

/-- The steps of a path: names of entries, and steps up. -/
def steps (p : List UInt8) : List (List UInt8) := (pieces p).filter fun piece => !isSkipped piece

/-- The path ends in a slash. -/
def endsInSlash (p : List UInt8) : Bool := p.getLast? = some slash

/-- The last piece, but for slashes at the end. -/
def lastPiece (p : List UInt8) : List UInt8 := (pieces (p.rdropWhile (· == slash))).getLastD []

/-- A name that an entry of a directory can have. -/
structure IsEntryName (name : List UInt8) : Prop where
  inner : slash ∉ name
  nonempty : name ≠ []
  ne_dot : name ≠ dot
  ne_dotDot : name ≠ dotDot

/-! ## Pieces -/

theorem pieces_nil : pieces [] = [[]] := rfl

theorem pieces_append_slash (p q : List UInt8) : pieces (p ++ slash :: q) = pieces p ++ pieces q :=
  List.splitOn_append_cons_self p q

theorem pieces_of_not_mem {name : List UInt8} (h : slash ∉ name) : pieces name = [name] :=
  List.splitOn_eq_singleton h

theorem pieces_ne_nil (p : List UInt8) : pieces p ≠ [] := List.splitOn_ne_nil slash p

/-- No piece holds a slash. -/
theorem slash_not_mem {p piece : List UInt8} (h : piece ∈ pieces p) : slash ∉ piece := by
  induction p generalizing piece with
  | nil =>
      rw [pieces_nil, List.mem_singleton] at h
      simp [h]
  | cons b p ih =>
      rw [pieces, List.splitOn_cons_eq_if_modifyHead] at h
      split at h
      · rcases List.mem_cons.mp h with rfl | h
        · exact List.not_mem_nil
        · exact ih h
      · next hb =>
          obtain ⟨first, rest, hpieces⟩ := List.exists_cons_of_ne_nil (pieces_ne_nil p)
          rw [pieces] at hpieces
          rw [hpieces, List.modifyHead_cons] at h
          have hfirst : first ∈ pieces p := by simp [pieces, hpieces]
          rcases List.mem_cons.mp h with rfl | h
          · intro hmem
            rcases List.mem_cons.mp hmem with hslash | hmem
            · exact hb (by simp [hslash])
            · exact ih hfirst hmem
          · exact ih (by simp [pieces, hpieces, h])

/-- A path is its first piece, its later pieces and pieces that say nothing. -/
theorem exists_pieces (p : List UInt8) :
    ∃ skipped, (∀ piece ∈ skipped, isSkipped piece = true) ∧
      pieces p = firstPiece p :: (laterPieces p ++ skipped) := by
  refine ⟨(pieces p).tail.rtakeWhile isSkipped, fun _ => List.mem_rtakeWhile_imp, ?_⟩
  obtain ⟨first, rest, hpieces⟩ := List.exists_cons_of_ne_nil (pieces_ne_nil p)
  rw [laterPieces, List.rdropWhile_append_rtakeWhile, firstPiece, hpieces]
  rfl

theorem mem_pieces_of_component {p piece : List UInt8} (h : piece ∈ firstPiece p :: laterPieces p) :
    piece ∈ pieces p := by
  obtain ⟨skipped, -, hpieces⟩ := exists_pieces p
  rw [hpieces]
  rcases List.mem_cons.mp h with rfl | h
  · exact List.mem_cons_self
  · exact List.mem_cons_of_mem _ (List.mem_append_left _ h)

theorem slash_not_mem_component {p piece : List UInt8} (h : piece ∈ firstPiece p :: laterPieces p) :
    slash ∉ piece := slash_not_mem (mem_pieces_of_component h)

/-- The first piece of a path that is not empty is empty exactly if the path is absolute. -/
theorem firstPiece_eq_nil {p : List UInt8} : firstPiece p = [] ↔ p = [] ∨ isAbsolute p = true := by
  cases p with
  | nil => simp [firstPiece, pieces_nil]
  | cons b p =>
      obtain ⟨first, rest, hpieces⟩ := List.exists_cons_of_ne_nil (pieces_ne_nil p)
      rw [pieces] at hpieces
      rw [firstPiece, pieces, List.splitOn_cons_eq_if_modifyHead, hpieces]
      by_cases hb : b = slash
      · simp [hb, isAbsolute]
      · simp [hb, isAbsolute]

/-- A file name is the last component, and none of the pieces that name no entry. -/
theorem fileName_eq_some {p name : List UInt8} :
    fileName p = some name ↔ (laterPieces p).getLastD (firstPiece p) = name ∧
      name ≠ [] ∧ name ≠ dot ∧ name ≠ dotDot := by
  rw [fileName, Option.ite_none_left_eq_some, not_or, not_or, Option.some.injEq, and_comm]
  constructor
  · rintro ⟨rfl, hname⟩
    exact ⟨rfl, hname⟩
  · rintro ⟨rfl, hname⟩
    exact ⟨rfl, hname⟩

/-- Where the last piece is a name, it is the file name. -/
theorem fileName_of_getLast? {p name : List UInt8} (h : (pieces p).getLast? = some name)
    (hskip : isSkipped name = false) (hup : name ≠ dotDot) : fileName p = some name := by
  have hlast : (laterPieces p).getLastD (firstPiece p) = name := by
    obtain ⟨first, rest, hpieces⟩ := List.exists_cons_of_ne_nil (pieces_ne_nil p)
    rw [laterPieces, firstPiece, hpieces, List.tail_cons, List.headD_cons]
    rw [hpieces] at h
    rcases List.eq_nil_or_concat' rest with rfl | ⟨init, last, rfl⟩
    · exact Option.some.inj h
    · rw [← List.cons_append, List.getLast?_concat, Option.some.injEq] at h
      rw [List.rdropWhile_concat_neg _ _ _ (by simp [h, hskip]), List.getLastD_concat, h]
  simp only [isSkipped, Bool.or_eq_false_iff, decide_eq_false_iff_not] at hskip
  exact fileName_eq_some.mpr ⟨hlast, hskip.1, hskip.2, hup⟩

/-! ## Steps -/

theorem filter_rdropWhile (l : List (List UInt8)) :
    (l.rdropWhile isSkipped).filter (fun piece => !isSkipped piece) =
      l.filter fun piece => !isSkipped piece := by
  have hnone : (l.rtakeWhile isSkipped).filter (fun piece => !isSkipped piece) = [] := by
    refine List.filter_eq_nil_iff.mpr fun piece hpiece => ?_
    simp [List.mem_rtakeWhile_imp hpiece]
  calc (l.rdropWhile isSkipped).filter (fun piece => !isSkipped piece)
      = (l.rdropWhile isSkipped ++ l.rtakeWhile isSkipped).filter
          fun piece => !isSkipped piece := by
        rw [List.filter_append, hnone, List.append_nil]
    _ = l.filter fun piece => !isSkipped piece := by rw [List.rdropWhile_append_rtakeWhile]

theorem steps_ofPieces {l : List (List UInt8)} (hne : l ≠ []) (hl : ∀ piece ∈ l, slash ∉ piece) :
    steps (ofPieces l) = l.filter fun piece => !isSkipped piece := by
  unfold ofPieces
  split
  · next hroot => rw [hroot]; rfl
  · rw [steps, pieces, List.splitOn_intercalate slash hl hne]

theorem isAbsolute_ofPieces {first : List UInt8} {l : List (List UInt8)} (hfirst : slash ∉ first) :
    isAbsolute (ofPieces (first :: l)) = true ↔ first = [] := by
  cases first with
  | nil =>
      cases l with
      | nil => simp [ofPieces, isAbsolute]
      | cons piece l => simp [ofPieces, isAbsolute]
  | cons b first =>
      have hb : b ≠ slash := fun h => hfirst (h ▸ List.mem_cons_self)
      cases l with
      | nil => simp [ofPieces, isAbsolute, hb]
      | cons piece l => simp [ofPieces, isAbsolute, hb]

theorem slash_not_mem_parentPieces {p : List UInt8} :
    ∀ piece ∈ firstPiece p :: (laterPieces p).dropLast.rdropWhile isSkipped, slash ∉ piece := by
  intro piece hpiece
  apply slash_not_mem_component (p := p)
  rcases List.mem_cons.mp hpiece with rfl | hpiece
  · exact List.mem_cons_self
  · have hinit := (List.rdropWhile_prefix _ _).subset hpiece
    exact List.mem_cons_of_mem _ (List.dropLast_subset _ hinit)

/-- The parent of a path takes the steps in front of the file name. -/
theorem steps_of_parent {p dir name : List UInt8} (hdir : parent p = some dir)
    (hname : fileName p = some name) :
    steps p = steps dir ++ [name] ∧ isAbsolute dir = isAbsolute p := by
  obtain ⟨skipped, hskipped, hpieces⟩ := exists_pieces p
  have hfirst : slash ∉ firstPiece p := slash_not_mem_component List.mem_cons_self
  have hnone : skipped.filter (fun piece => !isSkipped piece) = [] :=
    List.filter_eq_nil_iff.mpr fun piece hpiece => by simp [hskipped piece hpiece]
  rw [parent] at hdir
  obtain ⟨rfl, hne, hdot, -⟩ := fileName_eq_some.mp hname
  rcases List.eq_nil_or_concat' (laterPieces p) with hlater | ⟨init, last, hlater⟩
  · rw [hlater, List.getLastD_nil] at hne hdot ⊢
    rw [if_pos hlater, if_neg hne] at hdir
    obtain rfl := Option.some.inj hdir
    have hrelative : isAbsolute p = false := by
      rw [Bool.eq_false_iff]
      exact fun habs => hne (firstPiece_eq_nil.mpr (Or.inr habs))
    refine ⟨?_, hrelative.symm⟩
    have hkept : isSkipped (firstPiece p) = false := by simp [isSkipped, hne, hdot]
    rw [steps, hpieces, hlater, List.nil_append, List.filter_cons_of_pos (by simp [hkept]), hnone]
    rfl
  · have hlast : laterPieces p ≠ [] := by simp [hlater]
    rw [if_neg hlast, hlater, List.dropLast_concat] at hdir
    obtain rfl := Option.some.inj hdir
    rw [hlater, List.getLastD_concat] at hne hdot ⊢
    have hkept : isSkipped last = false := by simp [isSkipped, hne, hdot]
    have hslash := slash_not_mem_parentPieces (p := p)
    rw [hlater, List.dropLast_concat] at hslash
    constructor
    · rw [steps_ofPieces (List.cons_ne_nil _ _) hslash, steps, hpieces, hlater]
      simp only [List.filter_cons, List.filter_append, List.filter_nil, filter_rdropWhile, hnone,
        hkept, List.append_nil, Bool.not_false, if_true]
      split <;> rfl
    · have hp : p ≠ [] := by
        rintro rfl
        exact hlast rfl
      rw [Bool.eq_iff_iff, isAbsolute_ofPieces hfirst, firstPiece_eq_nil, or_iff_right hp]

theorem firstPiece_ofPieces {first : List UInt8} {l : List (List UInt8)}
    (hl : ∀ piece ∈ first :: l, slash ∉ piece) : firstPiece (ofPieces (first :: l)) = first := by
  unfold ofPieces
  split
  · next hroot => rw [(List.cons.inj hroot).1]; rfl
  · rw [firstPiece, pieces, List.splitOn_intercalate slash hl (List.cons_ne_nil _ _)]
    rfl

/-- A dot at the front of a path is at the front of its parent. -/
theorem firstPiece_of_parent {p dir name : List UInt8} (hdir : parent p = some dir)
    (hname : fileName p = some name) : firstPiece dir = dot ↔ firstPiece p = dot := by
  rw [parent] at hdir
  obtain ⟨rfl, -, hdot, -⟩ := fileName_eq_some.mp hname
  split at hdir
  · next hlater =>
      rw [hlater, List.getLastD_nil] at hdot
      split at hdir
      · cases hdir
      · obtain rfl := Option.some.inj hdir
        exact iff_of_false (by decide) hdot
  · obtain rfl := Option.some.inj hdir
    rw [firstPiece_ofPieces slash_not_mem_parentPieces]

/-- A file name is the name of an entry. -/
theorem isEntryName_of_fileName {p name : List UInt8} (h : fileName p = some name) :
    IsEntryName name := by
  obtain ⟨rfl, hne, hdot, hup⟩ := fileName_eq_some.mp h
  exact ⟨slash_not_mem_component List.getLastD_mem_cons, hne, hdot, hup⟩

/-! ## Shorter paths -/

theorem intercalate_append {l m : List (List UInt8)} (hl : l ≠ []) (hm : m ≠ []) :
    [slash].intercalate (l ++ m) = [slash].intercalate l ++ slash :: [slash].intercalate m := by
  induction l with
  | nil => exact absurd rfl hl
  | cons piece l ih =>
      by_cases hnil : l = []
      · rw [hnil, List.singleton_append, List.intercalate_cons_of_ne_nil hm,
          List.intercalate_singleton, List.append_assoc, List.singleton_append]
      · rw [List.cons_append, List.intercalate_cons_of_ne_nil (by simp [hnil]), ih hnil,
          List.intercalate_cons_of_ne_nil hnil, List.append_assoc, List.append_assoc,
          List.append_assoc]

theorem length_le_intercalate {piece : List UInt8} {l : List (List UInt8)} (h : piece ∈ l) :
    piece.length ≤ ([slash].intercalate l).length := by
  induction l with
  | nil => cases h
  | cons first l ih =>
      by_cases hnil : l = []
      · rw [hnil, List.mem_singleton] at h
        rw [hnil, List.intercalate_singleton, h]
      · rw [List.intercalate_cons_of_ne_nil hnil, List.length_append, List.length_append]
        rcases List.mem_cons.mp h with rfl | h
        · omega
        · have hle := ih h
          omega

/-- The parent of a path is shorter. -/
theorem length_parent_lt {p dir : List UInt8} (h : parent p = some dir) :
    dir.length < p.length := by
  obtain ⟨skipped, hskipped, hpieces⟩ := exists_pieces p
  have hp : p = [slash].intercalate (pieces p) := (List.intercalate_splitOn slash).symm
  rw [parent] at h
  rcases List.eq_nil_or_concat' (laterPieces p) with hlater | ⟨init, last, hlater⟩
  · rw [if_pos hlater] at h
    split at h
    · cases h
    · next hne =>
        obtain rfl := Option.some.inj h
        refine List.length_pos_iff.mpr ?_
        rintro rfl
        exact hne rfl
  · have hself : (init ++ [last]).rdropWhile isSkipped = init ++ [last] :=
      hlater ▸ List.rdropWhile_idempotent _ _
    have hlast : last ≠ [] := by
      have hkept := List.rdropWhile_eq_self_iff.mp hself (by simp)
      rw [List.getLast_concat] at hkept
      rintro rfl
      exact hkept rfl
    rw [if_neg (by simp [hlater]), hlater, List.dropLast_concat] at h
    obtain rfl := Option.some.inj h
    have hsplit : pieces p = (firstPiece p :: init.rdropWhile isSkipped) ++
        (init.rtakeWhile isSkipped ++ last :: skipped) := by
      rw [hpieces, hlater, List.cons_append, ← List.append_assoc,
        List.rdropWhile_append_rtakeWhile, List.append_assoc, List.singleton_append]
    have hlen := congrArg List.length hp
    rw [hsplit, intercalate_append (List.cons_ne_nil _ _) (by simp), List.length_append,
      List.length_cons] at hlen
    have hmore : last.length ≤
        ([slash].intercalate (init.rtakeWhile isSkipped ++ last :: skipped)).length :=
      length_le_intercalate (by simp)
    have hpos := List.length_pos_iff.mpr hlast
    unfold ofPieces
    split
    · rw [List.length_singleton]
      omega
    · omega

/-! ## Entries of a directory -/

variable {p name : List UInt8}

theorem IsEntryName.isSkipped_eq_false (h : IsEntryName name) : isSkipped name = false := by
  simp [isSkipped, h.nonempty, h.ne_dot]

theorem IsEntryName.isAbsolute_eq_false (h : IsEntryName name) : isAbsolute name = false := by
  rw [isAbsolute, decide_eq_false_iff_not]
  exact fun hhead => h.inner (List.mem_of_mem_head? hhead)

/-- The pieces of a path in a directory are those of the directory and a name, where empty pieces
do not count. -/
theorem pieces_join (h : IsEntryName name) :
    ∃ init, pieces (join p name) = init ++ [name] ∧
      init.filter (fun piece => !isSkipped piece) = steps p ∧
        if p = [] then init = [] else init.head? = (pieces p).head? := by
  rw [join, if_neg (by simp [h.isAbsolute_eq_false])]
  by_cases hp : p = []
  · rw [if_pos (Or.inl hp), hp, List.nil_append, pieces_of_not_mem h.inner]
    exact ⟨[], rfl, rfl, by rw [if_pos rfl]⟩
  · by_cases hlast : p.getLast? = some slash
    · obtain ⟨q, rfl⟩ := List.getLast?_eq_some_iff.mp hlast
      rw [if_pos (Or.inr hlast), List.append_assoc, List.singleton_append, pieces_append_slash,
        pieces_of_not_mem h.inner]
      refine ⟨pieces q, rfl, ?_, ?_⟩
      · rw [steps, pieces_append_slash, List.filter_append]
        exact (List.append_nil _).symm
      · rw [if_neg hp, pieces_append_slash, List.head?_append_of_ne_nil _ (pieces_ne_nil q)]
    · rw [if_neg (not_or.mpr ⟨hp, hlast⟩), pieces_append_slash, pieces_of_not_mem h.inner]
      exact ⟨pieces p, rfl, rfl, by rw [if_neg hp]⟩

theorem steps_join (h : IsEntryName name) : steps (join p name) = steps p ++ [name] := by
  obtain ⟨init, hpieces, hinit, -⟩ := pieces_join (p := p) h
  rw [steps, hpieces, List.filter_append, hinit,
    List.filter_cons_of_pos (by simp [h.isSkipped_eq_false]), List.filter_nil]

/-- A dot stays at the front. -/
theorem firstPiece_join (h : IsEntryName name) :
    firstPiece (join p name) = dot ↔ firstPiece p = dot := by
  obtain ⟨init, hpieces, -, hhead⟩ := pieces_join (p := p) h
  rw [firstPiece, firstPiece, hpieces]
  split at hhead
  · next hp =>
      rw [hhead, hp, pieces_nil]
      exact iff_of_false h.ne_dot (by decide)
  · cases init with
    | nil =>
        have hnil := List.head?_eq_none_iff.mp hhead.symm
        exact absurd hnil (pieces_ne_nil p)
    | cons first init =>
        rw [List.headD_eq_head?_getD, List.headD_eq_head?_getD, ← hhead]
        rfl

theorem isAbsolute_join (h : IsEntryName name) : isAbsolute (join p name) = isAbsolute p := by
  rw [join, if_neg (by simp [h.isAbsolute_eq_false])]
  cases p with
  | nil => rw [if_pos (Or.inl rfl), List.nil_append, h.isAbsolute_eq_false]; rfl
  | cons b p => split <;> rfl

/-! ## The last piece -/

theorem getLast?_pieces_of_endsInSlash (h : endsInSlash p = true) :
    (pieces p).getLast? = some [] := by
  rw [endsInSlash, decide_eq_true_eq] at h
  obtain ⟨q, rfl⟩ := List.getLast?_eq_some_iff.mp h
  rw [pieces_append_slash, pieces_nil, List.getLast?_concat]

theorem lastPiece_of_endsInSlash_eq_false (h : endsInSlash p = false) :
    lastPiece p = (pieces p).getLastD [] := by
  have hself : p.rdropWhile (· == slash) = p := by
    refine List.rdropWhile_eq_self_iff.mpr fun hne hlast => ?_
    rw [endsInSlash, decide_eq_false_iff_not, List.getLast?_eq_some_getLast hne] at h
    exact h (congrArg some (by simpa using hlast))
  rw [lastPiece, hself]

/-- A path whose last piece is a name does not end in a slash. -/
theorem endsInSlash_of_getLast? (h : IsEntryName name) (hlast : (pieces p).getLast? = some name) :
    endsInSlash p = false ∧ lastPiece p = name := by
  have hslash : endsInSlash p = false := by
    rw [Bool.eq_false_iff]
    intro hends
    rw [getLast?_pieces_of_endsInSlash hends] at hlast
    exact h.nonempty (Option.some.inj hlast).symm
  refine ⟨hslash, ?_⟩
  rw [lastPiece_of_endsInSlash_eq_false hslash, List.getLastD_eq_getLast?, hlast, Option.getD_some]

/-- Slashes at the end are no steps. -/
theorem steps_append_slashes (p : List UInt8) {s : List UInt8} (hs : ∀ b ∈ s, b = slash) :
    steps (p ++ s) = steps p := by
  have hempty : ∀ s : List UInt8, (∀ b ∈ s, b = slash) → steps s = [] := by
    intro s hs
    induction s with
    | nil => rfl
    | cons b s ih =>
        obtain rfl := hs b List.mem_cons_self
        have hrest := ih fun c hc => hs c (List.mem_cons_of_mem slash hc)
        have happend := pieces_append_slash [] s
        rw [List.nil_append] at happend
        rw [steps, happend, List.filter_append]
        exact hrest
  cases s with
  | nil => rw [List.append_nil]
  | cons b s =>
      obtain rfl := hs b List.mem_cons_self
      have hrest := hempty s fun c hc => hs c (List.mem_cons_of_mem slash hc)
      rw [steps, pieces_append_slash, List.filter_append]
      exact (congrArg (steps p ++ ·) hrest).trans (List.append_nil _)

/-- A last piece that is a name or leads up is the last step. -/
theorem steps_eq_dropLast_append (h : isSkipped (lastPiece p) = false) :
    steps p = (steps p).dropLast ++ [lastPiece p] := by
  have hstrip : steps p = steps (p.rdropWhile (· == slash)) := by
    conv_lhs => rw [← List.rdropWhile_append_rtakeWhile (l := p) (p := (· == slash))]
    exact steps_append_slashes _ fun b hb => by simpa using List.mem_rtakeWhile_imp hb
  rcases List.eq_nil_or_concat' (pieces (p.rdropWhile (· == slash))) with hnil | ⟨init, last, hlast⟩
  · exact absurd hnil (pieces_ne_nil _)
  · rw [lastPiece, hlast, List.getLastD_concat] at h ⊢
    rw [hstrip, steps, hlast, List.filter_append, List.filter_cons_of_pos (by simp [h]),
      List.filter_nil, List.dropLast_concat]

/-! ## Bytes -/

theorem mem_intercalate {b : UInt8} {l : List (List UInt8)} (h : b ∈ [slash].intercalate l) :
    b = slash ∨ ∃ piece ∈ l, b ∈ piece := by
  induction l with
  | nil => cases h
  | cons piece l ih =>
      by_cases hnil : l = []
      · rw [hnil, List.intercalate_singleton] at h
        exact Or.inr ⟨piece, List.mem_cons_self, h⟩
      · rw [List.intercalate_cons_of_ne_nil hnil, List.append_assoc, List.mem_append,
          List.mem_append, List.mem_singleton] at h
        rcases h with h | h | h
        · exact Or.inr ⟨piece, List.mem_cons_self, h⟩
        · exact Or.inl h
        · rcases ih h with h | ⟨other, hother, hb⟩
          · exact Or.inl h
          · exact Or.inr ⟨other, List.mem_cons_of_mem piece hother, hb⟩

theorem mem_intercalate_of_mem {b : UInt8} {piece : List UInt8} {l : List (List UInt8)}
    (hpiece : piece ∈ l) (h : b ∈ piece) : b ∈ [slash].intercalate l := by
  induction l with
  | nil => cases hpiece
  | cons first l ih =>
      by_cases hnil : l = []
      · rw [hnil, List.mem_singleton] at hpiece
        rw [hnil, List.intercalate_singleton, ← hpiece]
        exact h
      · rw [List.intercalate_cons_of_ne_nil hnil]
        rcases List.mem_cons.mp hpiece with rfl | hpiece
        · exact List.mem_append_left _ (List.mem_append_left _ h)
        · exact List.mem_append_right _ (ih hpiece)

theorem subset_of_mem_pieces {piece : List UInt8} (h : piece ∈ pieces p) : piece ⊆ p := by
  intro b hb
  have hp : [slash].intercalate (pieces p) = p := List.intercalate_splitOn slash
  exact hp ▸ mem_intercalate_of_mem h hb

/-- What is in the parent or in the file name is in the path. -/
theorem mem_of_component {b : UInt8} (hb : b ≠ slash) {dir : List UInt8}
    (hdir : parent p = some dir) (hname : fileName p = some name) (h : b ∈ dir ∨ b ∈ name) :
    b ∈ p := by
  have hcomponent : ∀ piece ∈ firstPiece p :: laterPieces p, b ∈ piece → b ∈ p :=
    fun piece hpiece hmem => subset_of_mem_pieces (mem_pieces_of_component hpiece) hmem
  rcases h with h | h
  · rw [parent] at hdir
    split at hdir
    · split at hdir
      · cases hdir
      · obtain rfl := Option.some.inj hdir
        cases h
    · obtain rfl := Option.some.inj hdir
      unfold ofPieces at h
      split at h
      · exact absurd (List.mem_singleton.mp h) hb
      · rcases mem_intercalate h with h | ⟨piece, hpiece, hmem⟩
        · exact absurd h hb
        · refine hcomponent piece ?_ hmem
          rcases List.mem_cons.mp hpiece with rfl | hpiece
          · exact List.mem_cons_self
          · have hinit := (List.rdropWhile_prefix _ _).subset hpiece
            exact List.mem_cons_of_mem _ (List.dropLast_subset _ hinit)
  · obtain ⟨rfl, -⟩ := fileName_eq_some.mp hname
    exact hcomponent _ List.getLastD_mem_cons h

/-- What is in a path in a directory is in the directory or in the name. -/
theorem mem_join {b : UInt8} (hb : b ≠ slash) (h : b ∈ join p name) : b ∈ p ∨ b ∈ name := by
  unfold join at h
  split at h
  · exact Or.inr h
  · split at h
    · exact List.mem_append.mp h
    · rcases List.mem_append.mp h with h | h
      · exact Or.inl h
      · exact Or.inr ((List.mem_cons.mp h).resolve_left hb)

end ViperVault.Foundation.OsPath
