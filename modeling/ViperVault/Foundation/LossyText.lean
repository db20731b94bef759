import ViperVault.Foundation.Json

/-!
# Text of any bytes

The conversion that a program uses to show bytes that may be no text: a character that does not
decode becomes the replacement character, once for every longest start of one. What is text already
stays.
-/

namespace ViperVault.Foundation

/-- The replacement character. -/
def replacementChar : Char := '\uFFFD'

/-- A byte that continues a character. -/
def isContinuation (b : UInt8) : Bool := 0x80 ≤ b && b ≤ 0xBF

/-- A byte that may come second, behind the first byte of a character of three or four. -/
def isSecond (first b : UInt8) : Bool :=
  if first = 0xE0 then 0xA0 ≤ b && b ≤ 0xBF
  else if first = 0xED then 0x80 ≤ b && b ≤ 0x9F
  else if first = 0xF0 then 0x90 ≤ b && b ≤ 0xBF
  else if first = 0xF4 then 0x80 ≤ b && b ≤ 0x8F
  else 0xE1 ≤ first && first ≤ 0xF3 && isContinuation b

/-- How many bytes are replaced together, where no character decodes: the first, and those behind it
that could have gone on with a character. -/
def illFormedLength (first : UInt8) (rest : List UInt8) : Nat :=
  if isSecond first (rest.getD 0 0) then
    if 0xF0 ≤ first && isContinuation (rest.getD 1 0) then 3 else 2
  else 1

/-- `to_string_lossy`. -/
def toStringLossy (bytes : List UInt8) : List Char :=
  match bytes with
  | [] => []
  | first :: rest =>
      match (first :: rest).toByteArray.utf8DecodeChar? 0 with
      | some c => c :: toStringLossy ((first :: rest).drop c.utf8Size)
      | none => replacementChar :: toStringLossy ((first :: rest).drop (illFormedLength first rest))
termination_by bytes.length
decreasing_by
  · have hpos := c.utf8Size_pos
    simp only [List.length_drop, List.length_cons]
    omega
  · have hpos : 0 < illFormedLength first rest := by
      unfold illFormedLength
      split
      · split <;> decide
      · decide
    simp only [List.length_drop, List.length_cons]
    omega

/-- Text stays. -/
theorem toStringLossy_utf8 (s : List Char) : toStringLossy (Json.utf8 s) = s := by
  induction s with
  | nil => simp [toStringLossy, Json.utf8]
  | cons c s ih =>
      obtain ⟨first, rest, hencode⟩ : ∃ first rest, String.utf8EncodeChar c = first :: rest :=
        List.exists_cons_of_ne_nil String.utf8EncodeChar_ne_nil
      have hcons : Json.utf8 (c :: s) = first :: (rest ++ Json.utf8 s) := by
        rw [Json.utf8_cons, hencode, List.cons_append]
      have hdecode : (first :: (rest ++ Json.utf8 s)).toByteArray.utf8DecodeChar? 0 = some c := by
        rw [← hcons, Json.utf8_cons, List.toByteArray_append]
        exact ByteArray.utf8DecodeChar?_utf8EncodeChar_append
      have hdrop : (first :: (rest ++ Json.utf8 s)).drop c.utf8Size = Json.utf8 s := by
        rw [← hcons, Json.utf8_cons, ← String.length_utf8EncodeChar c, List.drop_left]
      rw [hcons, toStringLossy, hdecode]
      dsimp only
      rw [hdrop, ih]

/-- A character that is decoded stands at the front. -/
theorem subset_of_utf8DecodeChar? {bytes : List UInt8} {c : Char}
    (h : bytes.toByteArray.utf8DecodeChar? 0 = some c) : String.utf8EncodeChar c ⊆ bytes := by
  obtain ⟨l, hl⟩ := ByteArray.exists_of_utf8DecodeChar?_eq_some h
  have hbytes : bytes = String.utf8EncodeChar c ++ l.data.toList := by
    have hdata := congrArg (fun b : ByteArray => b.data.toList) hl
    simpa using hdata
  rw [hbytes]
  exact List.subset_append_left _ _

/-- The bytes of the conversion are those that were there, and those of the replacement. -/
theorem mem_utf8_toStringLossy {bytes : List UInt8} {b : UInt8}
    (h : b ∈ Json.utf8 (toStringLossy bytes)) : b ∈ bytes ∨ b ∈ Json.utf8 [replacementChar] := by
  induction bytes using toStringLossy.induct with
  | case1 => simp [toStringLossy, Json.utf8] at h
  | case2 first rest c hdecode ih =>
      rw [toStringLossy, hdecode, Json.utf8_cons, List.mem_append] at h
      rcases h with h | h
      · exact Or.inl (subset_of_utf8DecodeChar? hdecode h)
      · exact (ih h).imp_left fun hmem => List.mem_of_mem_drop hmem
  | case3 first rest hdecode ih =>
      rw [toStringLossy, hdecode, Json.utf8_cons, List.mem_append] at h
      rcases h with h | h
      · exact Or.inr (by simpa [Json.utf8] using h)
      · exact (ih h).imp_left fun hmem => List.mem_of_mem_drop hmem

end ViperVault.Foundation
