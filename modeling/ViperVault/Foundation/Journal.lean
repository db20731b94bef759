import Mathlib.Init

/-!
# Journals

A journal is a list of entries with the names of their writers, oldest first. The entries of one
writer are a history of its own.
-/

namespace ViperVault.Foundation

variable {ι α : Type}

/-- What `i` writes, as entries of the journal. -/
def signed (i : ι) (entries : List α) : List (ι × α) := entries.map fun a => (i, a)

theorem map_snd_signed (i : ι) (entries : List α) :
    (signed i entries).map Prod.snd = entries := by
  induction entries with
  | nil => rfl
  | cons a entries ih => exact congrArg (a :: ·) ih

variable [DecidableEq ι]

/-- The entries that `i` wrote. -/
def entriesOf (i : ι) (journal : List (ι × α)) : List α :=
  journal.filterMap fun e => if e.1 = i then some e.2 else none

theorem mem_entriesOf {i : ι} {a : α} {journal : List (ι × α)} (h : (i, a) ∈ journal) :
    a ∈ entriesOf i journal := by
  refine List.mem_filterMap.mpr ⟨(i, a), h, ?_⟩
  simp

/-- Who writes sees what it wrote at the end of its history. -/
theorem entriesOf_append_signed (i : ι) (journal : List (ι × α)) (entries : List α) :
    entriesOf i (journal ++ signed i entries) = entriesOf i journal ++ entries := by
  have hsigned : entriesOf i (signed i entries) = entries := by
    induction entries with
    | nil => rfl
    | cons a entries ih =>
        have hcons : entriesOf i (signed i (a :: entries)) =
            a :: entriesOf i (signed i entries) := by
          simp [entriesOf, signed]
        rw [hcons, ih]
  rw [entriesOf, List.filterMap_append]
  exact congrArg (entriesOf i journal ++ ·) hsigned

/-- The others see nothing of it. -/
theorem entriesOf_append_signed_of_ne {i j : ι} (h : i ≠ j) (journal : List (ι × α))
    (entries : List α) : entriesOf j (journal ++ signed i entries) = entriesOf j journal := by
  have hsigned : entriesOf j (signed i entries) = [] := by
    induction entries with
    | nil => rfl
    | cons a entries ih => simp [entriesOf, signed, h]
  rw [entriesOf, List.filterMap_append]
  exact (congrArg (entriesOf j journal ++ ·) hsigned).trans (List.append_nil _)

theorem entriesOf_eq_nil {i : ι} {journal : List (ι × α)} (h : ∀ e ∈ journal, e.1 ≠ i) :
    entriesOf i journal = [] := by
  induction journal with
  | nil => rfl
  | cons e journal ih =>
      have hhead : e.1 ≠ i := h e (by simp)
      have htail := ih fun e' he' => h e' (by simp [he'])
      simpa [entriesOf, hhead] using htail

end ViperVault.Foundation
