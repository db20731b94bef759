import ViperVault.Foundation.Json
import ViperVault.Foundation.Serde
import Mathlib.Data.BitVec

/-!
# Codecs for records in JSON

A codec reads what it writes. Records are objects with named members: unknown members are
ignored, a member given twice is refused, and an absent member is accepted only where the
field is optional. A codec gives a lawful serialisation library at its type.
-/

namespace ViperVault.Foundation

variable {α β : Type}

namespace Json

/-- Writing to and reading from JSON values. -/
structure Codec (α : Type) where
  encode : α → Json
  decode : Json → Option α
  decode_encode : ∀ a, decode (encode a) = some a

attribute [simp] Codec.decode_encode

namespace Codec

/-- Strings. -/
def text : Codec (List Char) where
  encode := .str
  decode
    | .str s => some s
    | _ => none
  decode_encode _ := rfl

/-- Natural numbers. -/
def nat : Codec Nat where
  encode := .num
  decode
    | .num n => some n
    | _ => none
  decode_encode _ := rfl

/-- A type whose values are some of the values of another one. -/
def refine (c : Codec α) (out : β → α) (into : α → Option β)
    (h : ∀ b, into (out b) = some b) : Codec β where
  encode b := c.encode (out b)
  decode j := (c.decode j).bind into
  decode_encode b := by simp [h]

/-- Optional values, for a codec that never writes `null`. -/
def option (c : Codec α) (h : ∀ a, c.encode a ≠ .null) : Codec (Option α) where
  encode
    | none => .null
    | some a => c.encode a
  decode
    | .null => some none
    | j => (c.decode j).map some
  decode_encode o := by
    cases o with
    | none => rfl
    | some a =>
        have hsome : (c.decode (c.encode a)).map some = some (some a) := by simp
        cases hj : c.encode a with
        | null => exact absurd hj (h a)
        | _ => simpa [hj] using hsome

/-- Lists. -/
def list (c : Codec α) : Codec (List α) where
  encode l := .arr (l.map c.encode)
  decode
    | .arr items => items.mapM c.decode
    | _ => none
  decode_encode l := by
    induction l with
    | nil => rfl
    | cons a l ih =>
        simp only [List.mapM_map] at ih
        simp [ih]

/-- A fixed-width unsigned number. -/
def bounded (bound : Nat) (out : β → Nat) (into : Nat → β) (hlt : ∀ b, out b < bound)
    (hinto : ∀ b, into (out b) = b) : Codec β :=
  nat.refine out (fun n => if n < bound then some (into n) else none) fun b => by
    simp [hlt b, hinto b]

def uint8 : Codec UInt8 :=
  bounded (2 ^ 8) UInt8.toNat UInt8.ofNat UInt8.toNat_lt fun _ => UInt8.ofNat_toNat

def uint16 : Codec UInt16 :=
  bounded (2 ^ 16) UInt16.toNat UInt16.ofNat UInt16.toNat_lt fun _ => UInt16.ofNat_toNat

def uint32 : Codec UInt32 :=
  bounded (2 ^ 32) UInt32.toNat UInt32.ofNat UInt32.toNat_lt fun _ => UInt32.ofNat_toNat

/-- Arrays of bytes. -/
def bytes : Codec (List UInt8) := list uint8

/-- Arrays of a fixed number of bytes. -/
def byteArray (n : Nat) : Codec (Vector UInt8 n) :=
  bytes.refine Vector.toList
    (fun l => if h : l.length = n then some ⟨l.toArray, by simpa using h⟩ else none)
    fun v => by
      have harray : v.toList.toArray = v.toArray := by
        cases v
        simp
      simp [harray]

/-- An enumeration, by the names of its variants. -/
def unitVariant (name : α → String) (ofName : String → Option α)
    (h : ∀ a, ofName (name a) = some a) : Codec α :=
  text.refine (fun a => (name a).toList) (fun s => ofName (String.ofList s)) fun a => by
    simpa using h a

/-- The serialisation library of a codec. -/
def serde (c : Codec α) : Serde α where
  toVec a := some (c.encode a).toBytes
  fromSlice bytes := (ofBytes bytes).bind c.decode

theorem serde_lawful (c : Codec α) : c.serde.Lawful where
  toVec_isSome _ := rfl
  fromSlice_toVec a bytes h := by
    cases h
    simp [serde, ofBytes_toBytes]

end Codec

/-! ## Members of an object -/

/-- The member with a name: an error if it is given twice, nothing if it is absent. -/
def lookup (name : String) : List (String × Json) → Option (Option Json)
  | [] => some none
  | (k, v) :: ms =>
      if k = name then
        if ms.any fun m => m.1 = name then none else some (some v)
      else lookup name ms

@[simp] theorem lookup_nil (name : String) : lookup name [] = some none := rfl

/-- The first member has the name, and no other one does. -/
@[simp] theorem lookup_cons_self {name : String} {v : Json} {ms : List (String × Json)}
    (h : name ∉ ms.map Prod.fst) : lookup name ((name, v) :: ms) = some (some v) := by
  have hany : (ms.any fun m => m.1 = name) = false := by
    rw [List.any_eq_false]
    intro m hm
    simp only [decide_eq_true_eq]
    rintro rfl
    exact h (List.mem_map_of_mem hm)
  simp [lookup, hany]

@[simp] theorem lookup_cons_of_ne {name key : String} {v : Json} {ms : List (String × Json)}
    (h : key ≠ name) : lookup name ((key, v) :: ms) = lookup name ms := by
  simp [lookup, h]

/-- The value of a member that has to be present. -/
def Codec.required (c : Codec α) (name : String) (ms : List (String × Json)) : Option α :=
  (lookup name ms).bind fun o => o.bind c.decode

/-- The value of a member that may be absent. -/
def Codec.optional (c : Codec (Option α)) (name : String) (ms : List (String × Json)) :
    Option (Option α) :=
  (lookup name ms).bind fun o =>
    match o with
    | none => some none
    | some v => c.decode v

/-- The members of an object. -/
def members : Json → Option (List (String × Json))
  | .obj ms => some ms
  | _ => none

/-! ## Hexadecimal texts of a fixed width -/

/-- The hexadecimal digits of a number, most significant first. -/
def toHex : Nat → Nat → List Char
  | 0, _ => []
  | width + 1, n => toHex width (n / 16) ++ [(n % 16).digitChar]

/-- The number that hexadecimal digits stand for. -/
def ofHex : List Char → Nat → Option Nat
  | [], acc => some acc
  | c :: cs, acc => (hexDigit? c).bind fun d => ofHex cs (16 * acc + d)

theorem ofHex_append (s t : List Char) (acc : Nat) :
    ofHex (s ++ t) acc = (ofHex s acc).bind (ofHex t) := by
  induction s generalizing acc with
  | nil => rfl
  | cons c s ih =>
      cases h : hexDigit? c with
      | none => simp [ofHex, h]
      | some d => simp [ofHex, h, ih]

theorem ofHex_toHex (width n : Nat) : ofHex (toHex width n) 0 = some (n % 16 ^ width) := by
  induction width generalizing n with
  | zero => simp [toHex, ofHex, Nat.mod_one]
  | succ width ih =>
      have hdigit := hexDigit?_digitChar (n % 16) (Nat.mod_lt n (by omega))
      have hmod : 16 * (n / 16 % 16 ^ width) + n % 16 = n % 16 ^ (width + 1) := by
        rw [Nat.pow_succ', Nat.mod_mul]
        omega
      simp [toHex, ofHex_append, ih, ofHex, hdigit, hmod]

theorem length_toHex (width n : Nat) : (toHex width n).length = width := by
  induction width generalizing n with
  | zero => rfl
  | succ width ih => simp [toHex, ih]

theorem digitChar_ne_hyphen : ∀ d, d < 16 → d.digitChar ≠ '-' := by decide

theorem exists_of_mem_toHex {width n : Nat} : ∀ c ∈ toHex width n, ∃ d < 16, c = d.digitChar := by
  induction width generalizing n with
  | zero => simp [toHex]
  | succ width ih =>
      intro c hc
      rcases List.mem_append.mp hc with hc | hc
      · exact ih c hc
      · exact ⟨n % 16, Nat.mod_lt n (by omega), List.mem_singleton.mp hc⟩

theorem ne_hyphen_of_mem_toHex {width n : Nat} : ∀ c ∈ toHex width n, c ≠ '-' := by
  intro c hc
  obtain ⟨d, hd, rfl⟩ := exists_of_mem_toHex c hc
  exact digitChar_ne_hyphen d hd

/-- Hyphens between groups of the given lengths. -/
def hyphenate : List Nat → List Char → List Char
  | [], s => s
  | w :: ws, s => s.take w ++ '-' :: hyphenate ws (s.drop w)

theorem mem_hyphenate {ws : List Nat} {s : List Char} {c : Char} (h : c ∈ hyphenate ws s) :
    c = '-' ∨ c ∈ s := by
  induction ws generalizing s with
  | nil => exact Or.inr h
  | cons w ws ih =>
      rcases List.mem_append.mp h with h | h
      · exact Or.inr (List.mem_of_mem_take h)
      · rcases List.mem_cons.mp h with h | h
        · exact Or.inl h
        · exact (ih h).imp_right List.mem_of_mem_drop

theorem filter_hyphenate (ws : List Nat) {s : List Char} (hs : ∀ c ∈ s, c ≠ '-') :
    (hyphenate ws s).filter (fun c => c ≠ '-') = s := by
  induction ws generalizing s with
  | nil => simpa [hyphenate] using hs
  | cons w ws ih =>
      have htake : (s.take w).filter (fun c => c ≠ '-') = s.take w := by
        simpa using fun c hc => hs c (List.mem_of_mem_take hc)
      have hdrop := ih fun c hc => hs c (List.mem_of_mem_drop (i := w) hc)
      simp only [hyphenate, List.filter_append, htake, List.filter_cons, hdrop]
      simp

theorem length_hyphenate {ws : List Nat} {s : List Char} (h : ws.sum ≤ s.length) :
    (hyphenate ws s).length = s.length + ws.length := by
  induction ws generalizing s with
  | nil => rfl
  | cons w ws ih =>
      rw [List.sum_cons] at h
      have htail : ws.sum ≤ (s.drop w).length := by
        rw [List.length_drop]
        omega
      simp only [hyphenate, List.length_append, List.length_cons, List.length_take, ih htail,
        List.length_drop]
      omega

/-- The hyphenated form of a 128-bit identifier. -/
def uuidText (id : BitVec 128) : List Char := hyphenate [8, 4, 4, 4] (toHex 32 id.toNat)

theorem mem_uuidText {id : BitVec 128} {c : Char} (h : c ∈ uuidText id) :
    c = '-' ∨ ∃ d < 16, c = d.digitChar :=
  (mem_hyphenate h).imp_right fun h => exists_of_mem_toHex c h

theorem length_uuidText (id : BitVec 128) : (uuidText id).length = 36 := by
  have hlen : (toHex 32 id.toNat).length = 32 := length_toHex 32 id.toNat
  have hsum : [8, 4, 4, 4].sum ≤ (toHex 32 id.toNat).length := by
    rw [hlen]
    decide
  rw [uuidText, length_hyphenate hsum, hlen]
  rfl

/-- The identifier of a hyphenated form. -/
def ofUuidText (s : List Char) : Option (BitVec 128) :=
  let digits := s.filter fun c => c ≠ '-'
  if digits.length = 32 ∧ hyphenate [8, 4, 4, 4] digits = s then
    (ofHex digits 0).map (BitVec.ofNat 128)
  else none

theorem ofUuidText_uuidText (id : BitVec 128) : ofUuidText (uuidText id) = some id := by
  have hdigits : (uuidText id).filter (fun c => c ≠ '-') = toHex 32 id.toNat :=
    filter_hyphenate _ ne_hyphen_of_mem_toHex
  have hbound : id.toNat < 16 ^ 32 := by
    have hlt := id.isLt
    omega
  have hread : ofHex (toHex 32 id.toNat) 0 = some id.toNat := by
    rw [ofHex_toHex, Nat.mod_eq_of_lt hbound]
  have hform : hyphenate [8, 4, 4, 4] (toHex 32 id.toNat) = uuidText id := rfl
  simp only [ofUuidText]
  rw [hdigits, if_pos ⟨length_toHex _ _, hform⟩, hread]
  simp

def Codec.uuid : Codec (BitVec 128) := Codec.text.refine uuidText ofUuidText ofUuidText_uuidText

end Json

end ViperVault.Foundation
