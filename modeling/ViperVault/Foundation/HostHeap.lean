import Mathlib.Data.List.Basic

/-!
# Buffers that a host hands out

The memory of a host that allocates a buffer for each answer and takes it back by a pointer. Reads
and releases through a pointer fail as they do on a real heap: after the release, beyond the end,
twice, or through a pointer that was never handed out.
-/

namespace ViperVault.Foundation

/-- What goes wrong with a buffer. -/
inductive MemoryFault
  | wildPointer
  | useAfterFree
  | outOfBounds
  | doubleFree
  deriving DecidableEq

/-- A buffer that was handed out. -/
structure HostBuffer (α : Type) where
  content : List α
  freed : Bool
  deriving DecidableEq

/-- All buffers that were handed out, by their pointers. -/
abbrev HostHeap (α : Type) : Type := List (HostBuffer α)

namespace HostHeap

variable {α : Type} {heap heap' : HostHeap α} {p q : Nat} {content : List α}

/-- The heap with a new buffer, whose pointer is the length of the heap before. -/
def alloc (heap : HostHeap α) (content : List α) : HostHeap α := heap ++ [⟨content, false⟩]

/-- The first `len` elements behind a pointer. -/
def read (heap : HostHeap α) (p len : Nat) : Except MemoryFault (List α) :=
  match heap[p]? with
  | none => .error .wildPointer
  | some buffer =>
      if buffer.freed then .error .useAfterFree
      else if buffer.content.length < len then .error .outOfBounds
      else .ok (buffer.content.take len)

/-- The release of a buffer. -/
def free (heap : HostHeap α) (p : Nat) : Except MemoryFault (HostHeap α) :=
  match heap[p]? with
  | none => .error .wildPointer
  | some buffer =>
      if buffer.freed then .error .doubleFree
      else .ok (heap.set p { buffer with freed := true })

/-- The buffer is there and not released. -/
def Live (heap : HostHeap α) (p : Nat) (content : List α) : Prop :=
  heap[p]? = some ⟨content, false⟩

/-- The buffer was released. -/
def Freed (heap : HostHeap α) (p : Nat) : Prop := ∃ content, heap[p]? = some ⟨content, true⟩

theorem Live.not_freed (h : Live heap p content) : ¬ Freed heap p := by
  rintro ⟨other, hother⟩
  rw [Live, hother] at h
  cases h

theorem Live.lt_length (h : Live heap p content) : p < heap.length :=
  (List.getElem?_eq_some_iff.mp h).1

theorem Freed.lt_length (h : Freed heap p) : p < heap.length := by
  obtain ⟨content, h⟩ := h
  exact (List.getElem?_eq_some_iff.mp h).1

theorem live_alloc (heap : HostHeap α) (content : List α) :
    Live (heap.alloc content) heap.length content := by
  simp [Live, alloc]

theorem Live.alloc (h : Live heap p content) (other : List α) :
    Live (heap.alloc other) p content := by
  rw [Live, HostHeap.alloc, List.getElem?_append_left h.lt_length]
  exact h

theorem Freed.alloc (h : Freed heap p) (other : List α) : Freed (heap.alloc other) p := by
  have hlt := h.lt_length
  obtain ⟨content, h⟩ := h
  refine ⟨content, ?_⟩
  rw [HostHeap.alloc, List.getElem?_append_left hlt]
  exact h

/-- A live buffer can be read up to its length. -/
theorem Live.read_length (h : Live heap p content) :
    heap.read p content.length = .ok content := by
  rw [Live] at h
  simp [HostHeap.read, h]

/-- A live buffer can be released. -/
theorem Live.exists_free (h : Live heap p content) :
    ∃ heap', heap.free p = .ok heap' ∧ Freed heap' p := by
  have hlt := h.lt_length
  rw [Live] at h
  refine ⟨heap.set p ⟨content, true⟩, by simp [HostHeap.free, h], content, ?_⟩
  rw [List.getElem?_set_self hlt]

/-- A release reaches one buffer. -/
theorem getElem?_free (h : heap.free p = .ok heap') (hne : p ≠ q) : heap'[q]? = heap[q]? := by
  unfold HostHeap.free at h
  split at h
  · cases h
  · split at h
    · cases h
    · cases h
      exact List.getElem?_set_ne hne

theorem Live.free (h : Live heap q content) (hfree : heap.free p = .ok heap') (hne : p ≠ q) :
    Live heap' q content :=
  (getElem?_free hfree hne).trans h

theorem Freed.free (h : Freed heap q) (hfree : heap.free p = .ok heap') : Freed heap' q := by
  by_cases hne : p = q
  · subst hne
    obtain ⟨content, h⟩ := h
    simp [HostHeap.free, h] at hfree
  · obtain ⟨content, h⟩ := h
    exact ⟨content, (getElem?_free hfree hne).trans h⟩

theorem length_free (h : heap.free p = .ok heap') : heap'.length = heap.length := by
  unfold HostHeap.free at h
  split at h
  · cases h
  · split at h
    · cases h
    · cases h
      exact List.length_set

end HostHeap

end ViperVault.Foundation
