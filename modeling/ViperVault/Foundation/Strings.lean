import Mathlib.Data.List.DropRight

/-!
# Strings

The functions on texts that parsers use: trimming, splitting at a separator, and decimal numbers.
A text is the list of its Unicode scalar values.
-/

namespace ViperVault.Foundation.Strings

/-- The Unicode property White_Space. -/
def isWhitespace (c : Char) : Bool :=
  (0x09 ≤ c.val && c.val ≤ 0x0D) || c.val == 0x20 || c.val == 0x85 || c.val == 0xA0
    || c.val == 0x1680 || (0x2000 ≤ c.val && c.val ≤ 0x200A) || c.val == 0x2028
    || c.val == 0x2029 || c.val == 0x202F || c.val == 0x205F || c.val == 0x3000

/-- A text without the white space at both of its ends. -/
def trim (s : List Char) : List Char := (s.dropWhile isWhitespace).rdropWhile isWhitespace

/-- The parts of a text before and after the first separator. -/
def splitOnce (sep : Char) : List Char → Option (List Char × List Char)
  | [] => none
  | c :: s =>
      if c = sep then some ([], s)
      else (splitOnce sep s).map fun parts => (c :: parts.1, parts.2)

/-- The pieces of a text, each with the separator that ends it. -/
def splitInclusive (sep : Char) : List Char → List (List Char)
  | [] => []
  | c :: s =>
      if c = sep then [c] :: splitInclusive sep s
      else
        match splitInclusive sep s with
        | [] => [[c]]
        | piece :: pieces => (c :: piece) :: pieces

/-- The text in front of its last character, if that is the one to strip. -/
def stripSuffix (c : Char) (s : List Char) : Option (List Char) :=
  if s.getLast? = some c then some s.dropLast else none

/-- The lines of a text, without the line feeds that end them and a carriage return in front of
a line feed. -/
def lines (s : List Char) : List (List Char) :=
  (splitInclusive '\n' s).map fun piece =>
    match stripSuffix '\n' piece with
    | none => piece
    | some line => (stripSuffix '\r' line).getD line

example : lines "a\r\n\nb\r".toList = ["a".toList, [], "b\r".toList] := by decide

/-- The first piece of a text ends with the first separator. -/
theorem splitInclusive_append {sep : Char} {s t : List Char} (hs : sep ∉ s) :
    splitInclusive sep (s ++ sep :: t) = (s ++ [sep]) :: splitInclusive sep t := by
  induction s with
  | nil => simp [splitInclusive]
  | cons c s ih =>
      rw [List.mem_cons, not_or] at hs
      rw [List.cons_append, splitInclusive, if_neg (Ne.symm hs.1), ih hs.2]
      rfl

/-- The lines of a text whose lines are all ended, but for a carriage return at their end. -/
theorem lines_flatMap {l : List (List Char)} (hl : ∀ line ∈ l, '\n' ∉ line) :
    lines (l.flatMap fun line => line ++ ['\n']) =
      l.map fun line => (stripSuffix '\r' line).getD line := by
  induction l with
  | nil => rfl
  | cons line l ih =>
      have hfirst := hl line List.mem_cons_self
      have hrest := ih fun other hother => hl other (List.mem_cons_of_mem line hother)
      rw [List.flatMap_cons, List.append_assoc, List.singleton_append, lines,
        splitInclusive_append hfirst, List.map_cons, List.map_cons, ← hrest, lines]
      simp [stripSuffix]

/-- A decimal number below a limit, which may have a sign in front. -/
def parseUnsigned (limit : Nat) (s : List Char) : Option Nat :=
  let digits := if s.head? = some '+' then s.tail else s
  if digits ≠ [] ∧ digits.all Char.isDigit ∧ Nat.ofDigitChars 10 digits 0 < limit then
    some (Nat.ofDigitChars 10 digits 0)
  else none

/-- A decimal numeral reads back. -/
theorem parseUnsigned_toDigits {limit n : Nat} (hn : n < limit) :
    parseUnsigned limit (Nat.toDigits 10 n) = some n := by
  have hdigits : ∀ c ∈ Nat.toDigits 10 n, c.isDigit = true := fun c hc =>
    Nat.isDigit_of_mem_toDigits (by decide) (by decide) hc
  have hsign : (Nat.toDigits 10 n).head? ≠ some '+' := by
    intro h
    exact absurd (hdigits '+' (List.mem_of_mem_head? h)) (by decide)
  have hvalue : Nat.ofDigitChars 10 (Nat.toDigits 10 n) 0 = n :=
    Nat.ofDigitChars_toDigits (by decide) (by decide)
  simp only [parseUnsigned, if_neg hsign, hvalue]
  exact if_pos ⟨Nat.toDigits_ne_nil, List.all_eq_true.mpr hdigits, hn⟩

/-- A text is split at the first separator. -/
theorem splitOnce_append {sep : Char} {s t : List Char} (hs : sep ∉ s) :
    splitOnce sep (s ++ sep :: t) = some (s, t) := by
  induction s with
  | nil => simp [splitOnce]
  | cons c s ih =>
      rw [List.mem_cons, not_or] at hs
      rw [List.cons_append, splitOnce, if_neg (Ne.symm hs.1), ih hs.2]
      rfl

/-- A text that holds a separator has a first one. -/
theorem exists_first {sep : Char} {s : List Char} (hs : sep ∈ s) :
    ∃ before after, s = before ++ sep :: after ∧ sep ∉ before :=
  List.eq_append_cons_of_mem hs

theorem splitOnce_eq_none {sep : Char} {s : List Char} (hs : sep ∉ s) : splitOnce sep s = none := by
  induction s with
  | nil => rfl
  | cons c s ih =>
      rw [List.mem_cons, not_or] at hs
      rw [splitOnce, if_neg (Ne.symm hs.1), ih hs.2]
      rfl

/-- What is checked number by number holds of every character below a bound. -/
theorem forall_char_lt {n : Nat} {P : Char → Prop} (h : ∀ k < n, P (Char.ofNat k)) (c : Char)
    (hc : c.toNat < n) : P c := by
  have hchar := h c.toNat hc
  rwa [Char.ofNat_toNat] at hchar

/-! ## Trimming -/

section Trim

variable {c : Char} (hc : isWhitespace c = false)

include hc

/-- Nothing is trimmed beyond a character that is no white space, from the left. -/
theorem dropWhile_append_cons (s t : List Char) :
    (s ++ c :: t).dropWhile isWhitespace = s.dropWhile isWhitespace ++ c :: t := by
  induction s with
  | nil => exact List.dropWhile_cons_of_neg (by simp [hc])
  | cons d s ih =>
      by_cases hd : isWhitespace d = true
      · rw [List.cons_append, List.dropWhile_cons_of_pos hd, List.dropWhile_cons_of_pos hd, ih]
      · rw [List.cons_append, List.dropWhile_cons_of_neg hd, List.dropWhile_cons_of_neg hd,
          List.cons_append]

/-- Nothing is trimmed beyond a character that is no white space, from the right. -/
theorem rdropWhile_append_cons (s t : List Char) :
    (s ++ c :: t).rdropWhile isWhitespace = s ++ c :: t.rdropWhile isWhitespace := by
  have hreverse := dropWhile_append_cons hc t.reverse s.reverse
  rw [List.rdropWhile, List.rdropWhile, List.reverse_append, List.reverse_cons,
    List.append_assoc, List.singleton_append, hreverse, List.reverse_append, List.reverse_cons,
    List.reverse_reverse, List.append_assoc, List.singleton_append]

theorem trim_append_cons (s t : List Char) :
    trim (s ++ c :: t) = s.dropWhile isWhitespace ++ c :: t.rdropWhile isWhitespace := by
  rw [trim, dropWhile_append_cons hc, rdropWhile_append_cons hc]

end Trim

/-- A text of white space only, or one with another character in it. -/
theorem blank_or_split (s : List Char) :
    (∀ c ∈ s, isWhitespace c = true) ∨
      ∃ t c u, s = t ++ c :: u ∧ isWhitespace c = false := by
  by_cases h : ∀ c ∈ s, isWhitespace c = true
  · exact Or.inl h
  · simp only [not_forall] at h
    obtain ⟨c, hc, hwhite⟩ := h
    obtain ⟨t, u, rfl, -⟩ := exists_first hc
    exact Or.inr ⟨t, c, u, rfl, Bool.eq_false_iff.mpr hwhite⟩

theorem trim_eq_nil_iff {s : List Char} : trim s = [] ↔ ∀ c ∈ s, isWhitespace c = true := by
  constructor
  · intro h
    rcases blank_or_split s with hblank | ⟨t, c, u, rfl, hc⟩
    · exact hblank
    · rw [trim_append_cons hc] at h
      exact absurd h (by simp)
  · intro h
    rw [trim, List.dropWhile_eq_nil_iff.mpr h]
    rfl

/-- What one side of a text loses does not matter to the trimming. -/
theorem trim_dropWhile (s : List Char) : trim (s.dropWhile isWhitespace) = trim s := by
  rw [trim, trim, List.dropWhile_idempotent]

theorem trim_rdropWhile (s : List Char) : trim (s.rdropWhile isWhitespace) = trim s := by
  rcases blank_or_split s with hblank | ⟨t, c, u, rfl, hc⟩
  · rw [List.rdropWhile_eq_nil_iff.mpr hblank, trim_eq_nil_iff.mpr hblank]
    rfl
  · rw [rdropWhile_append_cons hc, trim_append_cons hc, trim_append_cons hc,
      List.rdropWhile_idempotent]

/-- A text without white space is trimmed. -/
theorem trim_eq_self {s : List Char} (hs : ∀ c ∈ s, isWhitespace c = false) : trim s = s := by
  have hends : ∀ c ∈ s, ¬ isWhitespace c = true := fun c hc => by simp [hs c hc]
  have hfront : s.dropWhile isWhitespace = s :=
    List.dropWhile_eq_self_iff.mpr fun hl => hends _ (List.getElem_mem hl)
  rw [trim, hfront]
  exact List.rdropWhile_eq_self_iff.mpr fun hne => hends _ (List.getLast_mem hne)

/-- Lines without white space come back as they were. -/
theorem lines_flatMap_of_solid {l : List (List Char)}
    (hl : ∀ line ∈ l, ∀ c ∈ line, isWhitespace c = false) :
    lines (l.flatMap fun line => line ++ ['\n']) = l := by
  have hfeed : ∀ line ∈ l, '\n' ∉ line := fun line hline hmem =>
    absurd (hl line hline '\n' hmem) (by decide)
  rw [lines_flatMap hfeed]
  refine (List.map_congr_left fun line hline => ?_).trans (List.map_id l)
  have hreturn : line.getLast? ≠ some '\r' := fun hlast =>
    absurd (hl line hline '\r' (List.mem_of_getLast? hlast)) (by decide)
  rw [stripSuffix, if_neg hreturn]
  rfl

theorem trim_subset (s : List Char) : trim s ⊆ s :=
  List.Subset.trans (List.rdropWhile_prefix _ _).subset (List.dropWhile_suffix _).subset

end ViperVault.Foundation.Strings
