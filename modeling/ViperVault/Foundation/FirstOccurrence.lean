import Mathlib.Data.List.Nodup
import Mathlib.Data.List.Perm.Basic

/-!
# First occurrences

A loop over a list that keeps an item only if its key has not been seen keeps the first item of each
key. The kept items are at increasing positions, and they do not depend on the order of the list as
long as the key says which item it is.
-/

namespace ViperVault.Foundation

variable {α κ κ' : Type*}

section Firsts

variable [DecidableEq κ] (key : α → κ)

/-- The items whose key has not been seen, neither before the list nor in it. -/
def firsts : List κ → List α → List α
  | _, [] => []
  | seen, a :: l =>
      if key a ∈ seen then firsts seen l else a :: firsts (key a :: seen) l

variable {key}

theorem firsts_sublist (seen : List κ) (l : List α) : (firsts key seen l).Sublist l := by
  induction l generalizing seen with
  | nil => exact List.Sublist.refl _
  | cons a l ih =>
      unfold firsts
      split
      · exact (ih seen).cons a
      · exact (ih _).cons_cons a

/-- A key is kept exactly if it occurs and has not been seen before. -/
theorem mem_map_firsts {seen : List κ} {l : List α} {k : κ} :
    k ∈ (firsts key seen l).map key ↔ k ∈ l.map key ∧ k ∉ seen := by
  induction l generalizing seen with
  | nil => simp [firsts]
  | cons a l ih =>
      unfold firsts
      split
      · next hseen =>
          rw [ih, List.map_cons, List.mem_cons]
          constructor
          · exact fun h => ⟨Or.inr h.1, h.2⟩
          · rintro ⟨rfl | h, hk⟩
            · exact absurd hseen hk
            · exact ⟨h, hk⟩
      · next hnew =>
          rw [List.map_cons, List.mem_cons, ih, List.map_cons, List.mem_cons, List.mem_cons]
          by_cases hka : k = key a
          · simp [hka, hnew]
          · simp [hka]

theorem nodup_map_firsts (seen : List κ) (l : List α) : ((firsts key seen l).map key).Nodup := by
  induction l generalizing seen with
  | nil => exact List.nodup_nil
  | cons a l ih =>
      unfold firsts
      split
      · exact ih seen
      · rw [List.map_cons, List.nodup_cons]
        refine ⟨fun h => ?_, ih _⟩
        exact (mem_map_firsts.mp h).2 List.mem_cons_self

/-- The first item of the list is kept. -/
theorem mem_firsts_cons (a : α) (l : List α) : a ∈ firsts key [] (a :: l) := by
  simp [firsts]

/-- Two items that are kept under one key are one item. -/
theorem eq_of_mem_firsts {seen : List κ} {l : List α} {a b : α} (ha : a ∈ firsts key seen l)
    (hb : b ∈ firsts key seen l) (h : key a = key b) : a = b :=
  List.inj_on_of_nodup_map (nodup_map_firsts seen l) ha hb h

/-- Where no two items share a key, all of them are kept. -/
theorem firsts_eq_self {l : List α} (h : (l.map key).Nodup) : firsts key [] l = l := by
  suffices hseen : ∀ seen : List κ, (∀ a ∈ l, key a ∉ seen) → firsts key seen l = l by
    exact hseen [] fun _ _ => List.not_mem_nil
  induction l with
  | nil => exact fun _ _ => rfl
  | cons a l ih =>
      intro seen hseen
      obtain ⟨hfresh, hrest⟩ := List.nodup_cons.mp h
      rw [firsts, if_neg (hseen a List.mem_cons_self), ih hrest]
      intro b hb
      rw [List.mem_cons, not_or]
      exact ⟨fun heq => hfresh (heq ▸ List.mem_map_of_mem hb),
        hseen b (List.mem_cons_of_mem a hb)⟩

/-- Where the key says which item it is, what is kept does not depend on the order. -/
theorem firsts_perm {l l' : List α} (hl : l.Perm l')
    (hkey : ∀ a ∈ l, ∀ b ∈ l, key a = key b → a = b) :
    (firsts key [] l).Perm (firsts key [] l') := by
  have hmem : ∀ (l : List α), (∀ a ∈ l, ∀ b ∈ l, key a = key b → a = b) →
      ∀ a, a ∈ firsts key [] l ↔ a ∈ l := by
    intro l hkey a
    refine ⟨fun h => (firsts_sublist [] l).subset h, fun h => ?_⟩
    have hkept : key a ∈ (firsts key [] l).map key :=
      mem_map_firsts.mpr ⟨List.mem_map_of_mem h, List.not_mem_nil⟩
    obtain ⟨b, hb, hba⟩ := List.mem_map.mp hkept
    exact hkey b ((firsts_sublist [] l).subset hb) a h hba ▸ hb
  have hkey' : ∀ a ∈ l', ∀ b ∈ l', key a = key b → a = b :=
    fun a ha b hb => hkey a (hl.mem_iff.mpr ha) b (hl.mem_iff.mpr hb)
  have hnodup : ∀ l : List α, (firsts key [] l).Nodup := fun l =>
    (nodup_map_firsts [] l).of_map key
  refine (List.perm_ext_iff_of_nodup (hnodup l) (hnodup l')).mpr fun a => ?_
  rw [hmem l hkey, hmem l' hkey', hl.mem_iff]

end Firsts

/-- Keys that tell the same items apart keep the same items. -/
theorem firsts_congr [DecidableEq κ] [DecidableEq κ'] {key : α → κ} {key' : α → κ'} {l : List α}
    (h : ∀ a ∈ l, ∀ b ∈ l, key a = key b ↔ key' a = key' b) :
    firsts key [] l = firsts key' [] l := by
  suffices hdone : ∀ done : List α, (∀ a ∈ done ++ l, ∀ b ∈ done ++ l,
      key a = key b ↔ key' a = key' b) →
      firsts key (done.map key) l = firsts key' (done.map key') l by
    exact hdone [] h
  clear h
  intro done hsame
  induction l generalizing done with
  | nil => rfl
  | cons a l ih =>
      have hseen : key a ∈ done.map key ↔ key' a ∈ done.map key' := by
        simp only [List.mem_map]
        constructor
        · rintro ⟨b, hb, hba⟩
          exact ⟨b, hb, (hsame b (by simp [hb]) a (by simp)).mp hba⟩
        · rintro ⟨b, hb, hba⟩
          exact ⟨b, hb, (hsame b (by simp [hb]) a (by simp)).mpr hba⟩
      have hskip := ih done fun b hb c hc =>
        hsame b (by simp at hb ⊢; tauto) c (by simp at hc ⊢; tauto)
      have hkeep := ih (a :: done) fun b hb c hc =>
        hsame b (by simp at hb ⊢; tauto) c (by simp at hc ⊢; tauto)
      simp only [firsts, hseen]
      split
      · exact hskip
      · exact congrArg (List.cons a) hkeep

/-! ## Positions -/

/-- The items `kept` are those at the positions of the list where a key occurs first, in order. -/
def FirstOccurrences (key : α → κ) (l kept : List α) : Prop :=
  ∃ positions : List Nat, positions.Pairwise (· < ·) ∧
    (∀ i, i ∈ positions ↔
      ∃ a, l[i]? = some a ∧ ∀ j < i, ∀ b, l[j]? = some b → key b ≠ key a) ∧
    kept = positions.filterMap fun i => l[i]?

/-- The items in front of a position behind the head: the head, and those of the tail. -/
theorem forall_lt_succ_cons {P : α → Prop} {a : α} {l : List α} {i : Nat} :
    (∀ j < i + 1, ∀ b, (a :: l)[j]? = some b → P b) ↔
      P a ∧ ∀ j < i, ∀ b, l[j]? = some b → P b := by
  constructor
  · intro h
    exact ⟨h 0 (Nat.succ_pos i) a rfl, fun j hj b hb => h (j + 1) (Nat.succ_lt_succ hj) b hb⟩
  · rintro ⟨ha, h⟩ j hj b hb
    cases j with
    | zero => exact Option.some.inj hb ▸ ha
    | succ j => exact h j (Nat.lt_of_succ_lt_succ hj) b hb

/-- What is kept are the first occurrences. -/
theorem firstOccurrences_firsts [DecidableEq κ] (key : α → κ) (l : List α) :
    FirstOccurrences key l (firsts key [] l) := by
  suffices hseen : ∀ seen : List κ, ∃ positions : List Nat, positions.Pairwise (· < ·) ∧
      (∀ i, i ∈ positions ↔ ∃ a, l[i]? = some a ∧ key a ∉ seen ∧
        ∀ j < i, ∀ b, l[j]? = some b → key b ≠ key a) ∧
      firsts key seen l = positions.filterMap fun i => l[i]? by
    simpa [FirstOccurrences] using hseen []
  intro seen
  induction l generalizing seen with
  | nil => exact ⟨[], List.Pairwise.nil, by simp, rfl⟩
  | cons a l ih =>
      by_cases ha : key a ∈ seen
      · obtain ⟨positions, hsorted, hmem, hkept⟩ := ih seen
        refine ⟨positions.map (· + 1), hsorted.map _ fun _ _ => Nat.succ_lt_succ, ?_, ?_⟩
        · intro i
          cases i with
          | zero => simp [ha]
          | succ i =>
              simp only [List.mem_map, Nat.add_right_cancel_iff, exists_eq_right, hmem,
                List.getElem?_cons_succ, forall_lt_succ_cons]
              -- the key in front has been seen, and that of `b` has not
              refine exists_congr fun b => and_congr_right fun _ => and_congr_right fun hb => ?_
              have hab : key a ≠ key b := fun hab => hb (hab ▸ ha)
              exact (and_iff_right hab).symm
        · simp [firsts, ha, hkept, List.filterMap_map]
      · obtain ⟨positions, hsorted, hmem, hkept⟩ := ih (key a :: seen)
        refine ⟨0 :: positions.map (· + 1), ?_, ?_, ?_⟩
        · refine List.pairwise_cons.mpr ⟨?_, hsorted.map _ fun _ _ => Nat.succ_lt_succ⟩
          intro i hi
          obtain ⟨j, -, rfl⟩ := List.mem_map.mp hi
          exact Nat.succ_pos j
        · intro i
          cases i with
          | zero => simp [ha]
          | succ i =>
              simp only [List.mem_cons, Nat.add_eq_zero_iff, Nat.one_ne_zero, and_false, false_or,
                List.mem_map, Nat.add_right_cancel_iff, exists_eq_right, hmem,
                List.getElem?_cons_succ, not_or, forall_lt_succ_cons]
              refine exists_congr fun b => and_congr_right fun _ => ?_
              rw [ne_comm, and_assoc, and_left_comm]
        · simp [firsts, ha, hkept, List.filterMap_map]

end ViperVault.Foundation
