import ViperVault.Foundation.Json
import ViperVault.Foundation.Strings

/-!
# Percent encoding

Texts inside a URI: every byte of their UTF-8 form that is no ASCII letter or digit is written as
`%` with two hexadecimal digits. A form-urlencoded query is a list of pairs of such texts. What was
written reads back, and a plain text has none of the separators.
-/

namespace ViperVault.Foundation.Percent

/-- ASCII letters and digits. -/
def isAlphanumeric (n : Nat) : Bool :=
  (48 ≤ n && n ≤ 57) || (65 ≤ n && n ≤ 90) || (97 ≤ n && n ≤ 122)

/-- The hexadecimal digit of a number. -/
def hexDigit (n : Nat) : Char := if n < 10 then Char.ofNat (48 + n) else Char.ofNat (55 + n)

/-- The number of a hexadecimal digit, given as a byte. -/
def hexValue? (b : UInt8) : Option Nat :=
  if 48 ≤ b ∧ b ≤ 57 then some (b.toNat - 48)
  else if 65 ≤ b ∧ b ≤ 70 then some (b.toNat - 55)
  else if 97 ≤ b ∧ b ≤ 102 then some (b.toNat - 87)
  else none

def encodeByte (b : UInt8) : List Char :=
  if isAlphanumeric b.toNat then [Char.ofNat b.toNat]
  else ['%', hexDigit (b.toNat / 16), hexDigit (b.toNat % 16)]

/-- Write a text with letters and digits only. -/
def encode (s : List Char) : List Char := (Json.utf8 s).flatMap encodeByte

/-- Read the escapes among bytes; what is no escape stands for itself. -/
def decodeBytes : List UInt8 → List UInt8
  | b :: high :: low :: rest =>
      match b == 37, hexValue? high, hexValue? low with
      | true, some h, some l => UInt8.ofNat (16 * h + l) :: decodeBytes rest
      | _, _, _ => b :: decodeBytes (high :: low :: rest)
  | bytes => bytes

/-- Read a text, if its bytes are UTF-8. -/
def decode (s : List Char) : Option (List Char) := Json.utf8? (decodeBytes (Json.utf8 s))

/-- The characters that an encoded text is made of. -/
def Plain (c : Char) : Prop := isAlphanumeric c.toNat = true ∨ c = '%'

instance (c : Char) : Decidable (Plain c) := inferInstanceAs (Decidable (_ ∨ _))

/-! ## Forms -/

/-- Write pairs as a query. -/
def encodeForm (pairs : List (List Char × List Char)) : List Char :=
  ['&'].intercalate (pairs.map fun pair => encode pair.1 ++ '=' :: encode pair.2)

/-- Read one side of a pair; `+` is a space. -/
def decodeComponent (s : List Char) : Option (List Char) :=
  decode (s.map fun c => if c = '+' then ' ' else c)

/-- Read a pair; without `=` its value is empty. -/
def decodePair (part : List Char) : Option (List Char × List Char) := do
  let sides := (Strings.splitOnce '=' part).getD (part, [])
  let key ← decodeComponent sides.1
  let value ← decodeComponent sides.2
  some (key, value)

/-- Read the pairs of a query, if they are all UTF-8; empty parts are left out. -/
def decodeForm (query : List Char) : Option (List (List Char × List Char)) :=
  ((query.splitOn '&').filter (· ≠ [])).mapM decodePair

/-! ## Round trips -/

theorem hexValue?_hexDigit : ∀ n < 16, hexValue? (UInt8.ofNat (hexDigit n).toNat) = some n := by
  decide

theorem plain_hexDigit : ∀ n < 16, Plain (hexDigit n) := by decide

/-- The character of a byte. -/
theorem toNat_ofNat {n : Nat} (hn : n < 256) : (Char.ofNat n).toNat = n := by
  have hvalid : n.isValidChar := Or.inl (by omega)
  rw [Char.ofNat, dif_pos hvalid]
  rfl

theorem plain_encodeByte (b : UInt8) : ∀ c ∈ encodeByte b, Plain c := by
  have hb := b.toNat_lt
  unfold encodeByte
  split
  · next halnum =>
      intro c hc
      rw [List.mem_singleton.mp hc]
      exact Or.inl (by rwa [toNat_ofNat hb])
  · intro c hc
    simp only [List.mem_cons, List.not_mem_nil, or_false] at hc
    rcases hc with rfl | rfl | rfl
    · exact Or.inr rfl
    · exact plain_hexDigit _ (by omega)
    · exact plain_hexDigit _ (by omega)

theorem plain_encode (s : List Char) : ∀ c ∈ encode s, Plain c := by
  intro c hc
  obtain ⟨b, -, hb⟩ := List.mem_flatMap.mp hc
  exact plain_encodeByte b c hb

theorem toNat_le_of_plain {c : Char} (hc : Plain c) : c.toNat ≤ 127 := by
  rcases hc with hc | rfl
  · simp only [isAlphanumeric, Bool.or_eq_true, Bool.and_eq_true, decide_eq_true_eq] at hc
    omega
  · decide

theorem isWhitespace_of_plain {c : Char} (hc : Plain c) : Strings.isWhitespace c = false := by
  have hall : ∀ c : Char, c.toNat < 128 → Plain c → Strings.isWhitespace c = false :=
    Strings.forall_char_lt (by decide)
  exact hall c (Nat.lt_succ_of_le (toNat_le_of_plain hc)) hc

/-- A plain character is one byte. -/
theorem utf8_of_plain {c : Char} (hc : Plain c) (s : List Char) :
    Json.utf8 (c :: s) = UInt8.ofNat c.toNat :: Json.utf8 s := by
  have hval : c.val.toNat ≤ 127 := toNat_le_of_plain hc
  rw [Json.utf8_cons, String.utf8EncodeChar, if_pos hval]
  rfl

/-- A byte that begins no escape. -/
theorem decodeBytes_cons {b : UInt8} (hb : b ≠ 37) (bytes : List UInt8) :
    decodeBytes (b :: bytes) = b :: decodeBytes bytes := by
  cases bytes with
  | nil => rfl
  | cons high bytes =>
      cases bytes with
      | nil => rfl
      | cons low rest =>
          have hpercent : (b == 37) = false := beq_eq_false_iff_ne.mpr hb
          simp only [decodeBytes, hpercent]

/-- One written byte reads back. -/
theorem decodeBytes_encodeByte (b : UInt8) (rest : List Char) :
    decodeBytes (Json.utf8 (encodeByte b ++ rest)) = b :: decodeBytes (Json.utf8 rest) := by
  have hb := b.toNat_lt
  unfold encodeByte
  split
  · next halnum =>
      have hplain : Plain (Char.ofNat b.toNat) := Or.inl (by rwa [toNat_ofNat hb])
      have hne : b ≠ 37 := by
        rintro rfl
        exact absurd halnum (by decide)
      rw [List.singleton_append, utf8_of_plain hplain, toNat_ofNat hb, UInt8.ofNat_toNat,
        decodeBytes_cons hne]
  · have hplain : ∀ n < 16, Plain (hexDigit n) := plain_hexDigit
    have hhigh : b.toNat / 16 < 16 := by omega
    have hlow : b.toNat % 16 < 16 := by omega
    rw [List.cons_append, utf8_of_plain (Or.inr rfl), List.cons_append,
      utf8_of_plain (hplain _ hhigh), List.cons_append, utf8_of_plain (hplain _ hlow),
      List.nil_append]
    have hjoin : 16 * (b.toNat / 16) + b.toNat % 16 = b.toNat := by omega
    have hpercent : (UInt8.ofNat '%'.toNat == 37) = true := rfl
    simp only [decodeBytes, hpercent, hexValue?_hexDigit _ hhigh, hexValue?_hexDigit _ hlow, hjoin,
      UInt8.ofNat_toNat]

theorem decodeBytes_encode (s : List UInt8) :
    decodeBytes (Json.utf8 (s.flatMap encodeByte)) = s := by
  induction s with
  | nil => rfl
  | cons b s ih => rw [List.flatMap_cons, decodeBytes_encodeByte, ih]

/-- A written text reads back. -/
theorem decode_encode (s : List Char) : decode (encode s) = some s := by
  rw [decode, encode, decodeBytes_encode, Json.utf8?_utf8]

theorem ne_of_plain {c d : Char} (hc : Plain c) (hd : ¬ Plain d) : c ≠ d := by
  rintro rfl
  exact hd hc

/-- A component has no `+` that would become a space. -/
theorem decodeComponent_encode (s : List Char) : decodeComponent (encode s) = some s := by
  have hmap : (encode s).map (fun c => if c = '+' then ' ' else c) = encode s := by
    refine (List.map_congr_left fun c hc => ?_).trans (List.map_id _)
    exact if_neg (ne_of_plain (plain_encode s c hc) (by decide))
  rw [decodeComponent, hmap, decode_encode]

theorem decodePair_encode (key value : List Char) :
    decodePair (encode key ++ '=' :: encode value) = some (key, value) := by
  have hkey : '=' ∉ encode key := fun h => ne_of_plain (plain_encode key _ h) (by decide) rfl
  rw [decodePair, Strings.splitOnce_append hkey]
  simp [decodeComponent_encode]

/-- What is joined is made of its parts and the separator. -/
private theorem mem_of_mem_intercalate {α : Type} {sep a : α} {parts : List (List α)}
    (h : a ∈ [sep].intercalate parts) : a = sep ∨ ∃ part ∈ parts, a ∈ part := by
  induction parts with
  | nil => simp at h
  | cons part parts ih =>
      cases parts with
      | nil => exact Or.inr ⟨part, by simp, by simpa using h⟩
      | cons next parts =>
          rw [List.intercalate_cons_cons, List.mem_append, List.mem_append,
            List.mem_singleton] at h
          rcases h with (h | h) | h
          · exact Or.inr ⟨part, by simp, h⟩
          · exact Or.inl h
          · rcases ih h with h | ⟨q, hq, hmem⟩
            · exact Or.inl h
            · exact Or.inr ⟨q, List.mem_cons_of_mem _ hq, hmem⟩

/-- The characters of a query. -/
theorem mem_encodeForm {pairs : List (List Char × List Char)} {c : Char}
    (hc : c ∈ encodeForm pairs) : Plain c ∨ c = '=' ∨ c = '&' := by
  rcases mem_of_mem_intercalate hc with h | ⟨part, hpart, hmem⟩
  · exact Or.inr (Or.inr h)
  · obtain ⟨pair, -, rfl⟩ := List.mem_map.mp hpart
    rcases List.mem_append.mp hmem with h | h
    · exact Or.inl (plain_encode _ _ h)
    · rcases List.mem_cons.mp h with h | h
      · exact Or.inr (Or.inl h)
      · exact Or.inl (plain_encode _ _ h)

/-- Pairs that were written read back, whatever texts they are made of. -/
theorem decodeForm_encodeForm {pairs : List (List Char × List Char)} (hpairs : pairs ≠ []) :
    decodeForm (encodeForm pairs) = some pairs := by
  have hsep : ∀ part ∈ pairs.map (fun pair => encode pair.1 ++ '=' :: encode pair.2),
      '&' ∉ part := by
    intro part hpart hmem
    obtain ⟨pair, -, rfl⟩ := List.mem_map.mp hpart
    rcases List.mem_append.mp hmem with h | h
    · exact ne_of_plain (plain_encode _ _ h) (by decide) rfl
    · rcases List.mem_cons.mp h with h | h
      · exact absurd h (by decide)
      · exact ne_of_plain (plain_encode _ _ h) (by decide) rfl
  have hne : ∀ part ∈ pairs.map (fun pair => encode pair.1 ++ '=' :: encode pair.2),
      decide (part ≠ []) = true := by
    intro part hpart
    obtain ⟨pair, -, rfl⟩ := List.mem_map.mp hpart
    simp
  rw [decodeForm, encodeForm, List.splitOn_intercalate _ hsep (by simpa using hpairs),
    List.filter_eq_self.mpr hne, List.mapM_map]
  have hpair : decodePair ∘ (fun pair => encode pair.1 ++ '=' :: encode pair.2) =
      fun pair => pure (id pair) := funext fun pair => decodePair_encode pair.1 pair.2
  rw [hpair, List.mapM_pure, List.map_id]
  rfl

end ViperVault.Foundation.Percent
