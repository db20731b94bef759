import Mathlib.Init

/-!
# Locks for readers and writers

An advisory lock has one exclusive holder or any number of shared holders. A request that it
cannot grant has to wait: it is refused here. The rules at the end are for systems of processes
that take the lock, do their work and release it.
-/

namespace ViperVault.Foundation

/-- Who holds the lock. -/
structure RwLock (ι : Type) where
  exclusive : Option ι
  shared : List ι

namespace RwLock

variable {ι : Type} {i j : ι} {l l' : RwLock ι}

/-- Nobody holds the lock. -/
def free : RwLock ι := ⟨none, []⟩

def acquireExclusive (i : ι) (l : RwLock ι) : Option (RwLock ι) :=
  if l.exclusive.isNone ∧ l.shared.isEmpty then some ⟨some i, []⟩ else none

def acquireShared (i : ι) (l : RwLock ι) : Option (RwLock ι) :=
  if l.exclusive.isNone then some ⟨none, i :: l.shared⟩ else none

/-- An exclusive holder is alone. -/
def Excludes (l : RwLock ι) : Prop := ∀ i, l.exclusive = some i → l.shared = []

theorem acquireExclusive_eq_some :
    l.acquireExclusive i = some l' ↔
      l.exclusive = none ∧ l.shared = [] ∧ l' = ⟨some i, []⟩ := by
  rw [acquireExclusive, Option.ite_none_right_eq_some, Option.some.injEq, and_assoc,
    Option.isNone_iff_eq_none, List.isEmpty_iff, eq_comm (b := l')]

theorem acquireShared_eq_some :
    l.acquireShared i = some l' ↔ l.exclusive = none ∧ l' = ⟨none, i :: l.shared⟩ := by
  rw [acquireShared, Option.ite_none_right_eq_some, Option.some.injEq,
    Option.isNone_iff_eq_none, eq_comm (b := l')]

theorem excludes_free : (free : RwLock ι).Excludes := by
  intro i h
  cases h

theorem excludes_acquireExclusive (h : l.acquireExclusive i = some l') : l'.Excludes := by
  obtain ⟨-, -, rfl⟩ := acquireExclusive_eq_some.mp h
  intro j _
  rfl

theorem excludes_acquireShared (h : l.acquireShared i = some l') : l'.Excludes := by
  obtain ⟨-, rfl⟩ := acquireShared_eq_some.mp h
  intro j hj
  cases hj

/-! ## Processes -/

variable {writes writes' reads reads' : ι → Prop}

/-- The processes that take themselves for holders of the lock do hold it. -/
structure Honours (l : RwLock ι) (writes reads : ι → Prop) : Prop where
  excludes : l.Excludes
  exclusive : ∀ i, writes i → l.exclusive = some i
  shared : ∀ i, reads i → i ∈ l.shared

/-- A writer keeps the readers out. -/
theorem Honours.not_reads (h : l.Honours writes reads) (hi : writes i) (j : ι) : ¬ reads j := by
  intro hj
  have hmem := h.shared j hj
  rw [h.excludes i (h.exclusive i hi)] at hmem
  cases hmem

/-- A writer keeps the other writers out. -/
theorem Honours.writer_unique (h : l.Honours writes reads) (hi : writes i) (hj : writes j) :
    i = j := by
  have hsame := (h.exclusive i hi).symm.trans (h.exclusive j hj)
  exact Option.some.inj hsame

theorem Honours.mono (h : l.Honours writes reads) (hwrites : ∀ j, writes' j → writes j)
    (hreads : ∀ j, reads' j → reads j) : l.Honours writes' reads' where
  excludes := h.excludes
  exclusive := fun j hj => h.exclusive j (hwrites j hj)
  shared := fun j hj => h.shared j (hreads j hj)

theorem Honours.acquireExclusive (h : l.Honours writes reads)
    (hl : l.acquireExclusive i = some l') (hwrites : ∀ j, writes' j → writes j ∨ j = i)
    (hreads : ∀ j, reads' j → reads j) : l'.Honours writes' reads' := by
  obtain ⟨hnone, hempty, rfl⟩ := acquireExclusive_eq_some.mp hl
  refine ⟨excludes_acquireExclusive hl, ?_, ?_⟩
  · intro j hj
    rcases hwrites j hj with hj | rfl
    · rw [h.exclusive j hj] at hnone
      cases hnone
    · rfl
  · intro j hj
    have hmem := h.shared j (hreads j hj)
    rwa [hempty] at hmem

theorem Honours.acquireShared (h : l.Honours writes reads) (hl : l.acquireShared i = some l')
    (hwrites : ∀ j, writes' j → writes j) (hreads : ∀ j, reads' j → reads j ∨ j = i) :
    l'.Honours writes' reads' := by
  obtain ⟨hnone, rfl⟩ := acquireShared_eq_some.mp hl
  refine ⟨excludes_acquireShared hl, ?_, ?_⟩
  · intro j hj
    rw [h.exclusive j (hwrites j hj)] at hnone
    cases hnone
  · intro j hj
    rcases hreads j hj with hj | rfl
    · exact List.mem_cons_of_mem i (h.shared j hj)
    · exact List.mem_cons_self

/-! ## No lost lock -/

/-- Every holder of the lock is a process that takes itself for one, and so will release it. -/
structure Accounts (l : RwLock ι) (writes reads : ι → Prop) : Prop where
  exclusive : ∀ i, l.exclusive = some i → writes i
  shared : ∀ i ∈ l.shared, reads i

theorem accounts_free : (free : RwLock ι).Accounts writes reads where
  exclusive := by
    intro i h
    cases h
  shared := by
    intro i h
    cases h

/-- Nobody holds a lock for which nobody takes himself for a holder. -/
theorem Accounts.eq_free (h : l.Accounts writes reads) (hwrites : ∀ i, ¬ writes i)
    (hreads : ∀ i, ¬ reads i) : l = free := by
  obtain ⟨exclusive, shared⟩ := l
  have hexclusive : exclusive = none :=
    Option.eq_none_iff_forall_ne_some.mpr fun i hi => hwrites i (h.exclusive i hi)
  have hshared : shared = [] :=
    List.eq_nil_iff_forall_not_mem.mpr fun i hi => hreads i (h.shared i hi)
  rw [hexclusive, hshared]
  rfl

theorem Accounts.mono (h : l.Accounts writes reads) (hwrites : ∀ j, writes j → writes' j)
    (hreads : ∀ j, reads j → reads' j) : l.Accounts writes' reads' where
  exclusive := fun j hj => hwrites j (h.exclusive j hj)
  shared := fun j hj => hreads j (h.shared j hj)

theorem accounts_acquireExclusive (hl : l.acquireExclusive i = some l') (hi : writes' i) :
    l'.Accounts writes' reads' := by
  obtain ⟨-, -, rfl⟩ := acquireExclusive_eq_some.mp hl
  constructor
  · intro j hj
    exact Option.some.inj hj ▸ hi
  · intro j hj
    cases hj

theorem Accounts.acquireShared (h : l.Accounts writes reads) (hl : l.acquireShared i = some l')
    (hi : reads' i) (hreads : ∀ j, reads j → reads' j) : l'.Accounts writes' reads' := by
  obtain ⟨-, rfl⟩ := acquireShared_eq_some.mp hl
  constructor
  · intro j hj
    cases hj
  · intro j hj
    rcases List.mem_cons.mp hj with rfl | hj
    · exact hi
    · exact hreads j (h.shared j hj)

/-! ## Release -/

variable [DecidableEq ι]

def release (i : ι) (l : RwLock ι) : RwLock ι :=
  ⟨if l.exclusive = some i then none else l.exclusive, l.shared.filter fun j => j ≠ i⟩

theorem Excludes.release (h : l.Excludes) (i : ι) : (l.release i).Excludes := by
  intro j hj
  simp only [RwLock.release] at hj ⊢
  split at hj
  · cases hj
  · rw [h j hj]
    rfl

/-- A release takes the lock from nobody else. -/
theorem exclusive_release_of_ne (hne : i ≠ j) (h : l.exclusive = some j) :
    (l.release i).exclusive = some j := by
  have hother : l.exclusive ≠ some i := by
    rw [h]
    exact fun hji => hne (Option.some.inj hji).symm
  rw [release, if_neg hother, h]

theorem mem_shared_release_of_ne (hne : i ≠ j) (h : j ∈ l.shared) :
    j ∈ (l.release i).shared := by
  refine List.mem_filter.mpr ⟨h, ?_⟩
  simpa using hne.symm

theorem Honours.release (h : l.Honours writes reads) (hwrites : ∀ j, writes' j → writes j ∧ i ≠ j)
    (hreads : ∀ j, reads' j → reads j ∧ i ≠ j) : (l.release i).Honours writes' reads' where
  excludes := h.excludes.release i
  exclusive := by
    intro j hj
    obtain ⟨hj, hne⟩ := hwrites j hj
    exact exclusive_release_of_ne hne (h.exclusive j hj)
  shared := by
    intro j hj
    obtain ⟨hj, hne⟩ := hreads j hj
    exact mem_shared_release_of_ne hne (h.shared j hj)

theorem Accounts.release (h : l.Accounts writes reads) (hwrites : ∀ j, writes j → i ≠ j → writes' j)
    (hreads : ∀ j, reads j → i ≠ j → reads' j) : (l.release i).Accounts writes' reads' where
  exclusive := by
    intro j hj
    simp only [RwLock.release] at hj
    split at hj
    · cases hj
    · next hne =>
        refine hwrites j (h.exclusive j hj) ?_
        rintro rfl
        exact hne hj
  shared := by
    intro j hj
    obtain ⟨hmem, hne⟩ := List.mem_filter.mp hj
    refine hreads j (h.shared j hmem) ?_
    rintro rfl
    simp at hne

end RwLock

end ViperVault.Foundation
