import Mathlib.Data.Option.Basic

/-!
# A serialisation library seen from a program

A program uses such a library at a type through two functions, one to bytes and one back.
`Lawful` is what programs rely on: a value can be written, and what was written reads back as
the value. Nothing is said about bytes that were not written by the library.
-/

namespace ViperVault.Foundation

variable {α β : Type}

/-- The two directions of a serialisation library at the type `α`. -/
structure Serde (α : Type) where
  toVec : α → Option (List UInt8)
  fromSlice : List UInt8 → Option α

namespace Serde

/-- Values can be written, and a written value reads back. -/
structure Lawful (s : Serde α) : Prop where
  toVec_isSome : ∀ a, (s.toVec a).isSome
  fromSlice_toVec : ∀ a bytes, s.toVec a = some bytes → s.fromSlice bytes = some a

/-- Serialise `β` through a transfer type `α`; reading may refuse a transfer value. -/
def via (s : Serde α) (out : β → α) (into : α → Option β) : Serde β where
  toVec b := s.toVec (out b)
  fromSlice bytes := (s.fromSlice bytes).bind into

theorem Lawful.exists_toVec {s : Serde α} (hs : s.Lawful) (a : α) :
    ∃ bytes, s.toVec a = some bytes :=
  Option.isSome_iff_exists.mp (hs.toVec_isSome a)

/-- What was written through a transfer type reads back as far as the conversion accepts it. -/
theorem fromSlice_via {s : Serde α} (hs : s.Lawful) {out : β → α} {into : α → Option β} {b : β}
    {bytes : List UInt8} (h : (s.via out into).toVec b = some bytes) :
    (s.via out into).fromSlice bytes = into (out b) := by
  have hread := hs.fromSlice_toVec (out b) bytes h
  simp only [via, hread, Option.bind_some]

theorem exists_toVec_via {s : Serde α} (hs : s.Lawful) (out : β → α) (into : α → Option β)
    (b : β) : ∃ bytes, (s.via out into).toVec b = some bytes :=
  hs.exists_toVec (out b)

end Serde

end ViperVault.Foundation
