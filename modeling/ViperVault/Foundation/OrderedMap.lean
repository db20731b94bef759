import Mathlib.Data.List.Nodup
import Mathlib.Logic.Function.Basic

/-!
# Insertion-ordered maps

A finite map that remembers the order in which its keys came in, and the list of records with
a key field that implements it. Appending a record with a new key, overwriting a record by one
with the same key and filtering a key out are the three operations of the map.
-/

namespace ViperVault.Foundation

/-- A finite map with the order of its keys. -/
@[ext] structure OrderedMap (K V : Type*) where
  keys : List K
  lookup : K → Option V
  nodup : keys.Nodup
  mem_keys : ∀ k, k ∈ keys ↔ (lookup k).isSome

namespace OrderedMap

variable {K V α : Type*}

/-- The bindings in the order of their keys. -/
def bindings (m : OrderedMap K V) : List (K × V) :=
  m.keys.filterMap fun k => (m.lookup k).map fun v => (k, v)

theorem keys_bindings (m : OrderedMap K V) : m.bindings.map Prod.fst = m.keys := by
  rw [OrderedMap.bindings, List.map_filterMap]
  have hkey : ∀ k ∈ m.keys, ((m.lookup k).map fun v => (k, v)).map Prod.fst = some k := by
    intro k hk
    obtain ⟨v, hv⟩ := Option.isSome_iff_exists.mp ((m.mem_keys k).mp hk)
    simp [hv]
  rw [List.filterMap_congr hkey, List.filterMap_some]

variable [DecidableEq K]

/-- A new key goes to the end. -/
def insert (m : OrderedMap K V) (k : K) (v : V) (hk : k ∉ m.keys) : OrderedMap K V where
  keys := m.keys ++ [k]
  lookup := Function.update m.lookup k (some v)
  nodup := by
    rw [← List.concat_eq_append]
    exact m.nodup.concat hk
  mem_keys k' := by
    by_cases h : k' = k
    · simp [h]
    · simp [h, m.mem_keys]

/-- A key that is present gets a new value and keeps its place. -/
def replace (m : OrderedMap K V) (k : K) (v : V) (hk : k ∈ m.keys) : OrderedMap K V where
  keys := m.keys
  lookup := Function.update m.lookup k (some v)
  nodup := m.nodup
  mem_keys k' := by
    by_cases h : k' = k
    · simp [h, hk]
    · simp [h, m.mem_keys]

/-- A key is removed; the others keep their order. -/
def erase (m : OrderedMap K V) (k : K) : OrderedMap K V where
  keys := m.keys.filter fun k' => k' ≠ k
  lookup := Function.update m.lookup k none
  nodup := m.nodup.filter _
  mem_keys k' := by
    by_cases h : k' = k
    · simp [h]
    · simp [h, m.mem_keys]

@[simp] theorem lookup_insert_self (m : OrderedMap K V) {k : K} {v : V} (hk : k ∉ m.keys) :
    (m.insert k v hk).lookup k = some v := by
  simp [insert]

theorem lookup_insert_of_ne (m : OrderedMap K V) {k k' : K} {v : V} (hk : k ∉ m.keys)
    (h : k' ≠ k) : (m.insert k v hk).lookup k' = m.lookup k' := by
  simp [insert, h]

@[simp] theorem lookup_replace_self (m : OrderedMap K V) {k : K} {v : V} (hk : k ∈ m.keys) :
    (m.replace k v hk).lookup k = some v := by
  simp [replace]

theorem lookup_replace_of_ne (m : OrderedMap K V) {k k' : K} {v : V} (hk : k ∈ m.keys)
    (h : k' ≠ k) : (m.replace k v hk).lookup k' = m.lookup k' := by
  simp [replace, h]

@[simp] theorem lookup_erase_self (m : OrderedMap K V) (k : K) : (m.erase k).lookup k = none := by
  simp [erase]

theorem lookup_erase_of_ne (m : OrderedMap K V) {k k' : K} (h : k' ≠ k) :
    (m.erase k).lookup k' = m.lookup k' := by
  simp [erase, h]

/-- Two maps that differ at one key at most: the others have their values and their order. -/
structure AgreeOff (k : K) (m m' : OrderedMap K V) : Prop where
  keys : (m'.keys.filter fun k' => k' ≠ k) = m.keys.filter fun k' => k' ≠ k
  lookup : ∀ k', k' ≠ k → m'.lookup k' = m.lookup k'

theorem agreeOff_insert (m : OrderedMap K V) {k : K} {v : V} (hk : k ∉ m.keys) :
    AgreeOff k m (m.insert k v hk) where
  keys := by simp [insert]
  lookup _ h := m.lookup_insert_of_ne hk h

theorem agreeOff_replace (m : OrderedMap K V) {k : K} {v : V} (hk : k ∈ m.keys) :
    AgreeOff k m (m.replace k v hk) where
  keys := rfl
  lookup _ h := m.lookup_replace_of_ne hk h

theorem agreeOff_erase (m : OrderedMap K V) (k : K) : AgreeOff k m (m.erase k) where
  keys := by simp [erase, List.filter_filter]
  lookup _ h := m.lookup_erase_of_ne h

/-- The bindings of the other keys, in order, are those of the map before. -/
theorem AgreeOff.bindings {k : K} {m m' : OrderedMap K V} (h : AgreeOff k m m') :
    (m'.bindings.filter fun b => b.1 ≠ k) = m.bindings.filter fun b => b.1 ≠ k := by
  have hside : ∀ n : OrderedMap K V, (n.bindings.filter fun b => b.1 ≠ k) =
      (n.keys.filter fun k' => k' ≠ k).filterMap fun k' => (n.lookup k').map fun v => (k', v) := by
    intro n
    rw [OrderedMap.bindings, List.filter_filterMap, List.filterMap_filter]
    apply List.filterMap_congr
    intro k' _
    cases n.lookup k' with
    | none => simp
    | some v => by_cases hk : k' = k <;> simp [hk]
  rw [hside m', hside m, h.keys]
  apply List.filterMap_congr
  intro k' hk'
  rw [h.lookup k' (by simpa using (List.mem_filter.mp hk').2)]

theorem bindings_insert (m : OrderedMap K V) {k : K} {v : V} (hk : k ∉ m.keys) :
    (m.insert k v hk).bindings = m.bindings ++ [(k, v)] := by
  have hkept : ∀ k' ∈ m.keys, (m.insert k v hk).lookup k' = m.lookup k' := fun k' hk' =>
    m.lookup_insert_of_ne hk fun h => hk (h ▸ hk')
  calc (m.insert k v hk).bindings
      = (m.keys.filterMap fun k' => ((m.insert k v hk).lookup k').map fun w => (k', w)) ++
          [(k, v)] := by
        rw [OrderedMap.bindings]
        simp [insert, List.filterMap_append]
    _ = m.bindings ++ [(k, v)] := by
        congr 1
        apply List.filterMap_congr
        intro k' hk'
        rw [hkept k' hk']

/-! ## Lists of records with a key -/

section Records

variable (key : α → K) (val : α → V)

theorem find?_key_isSome_iff (l : List α) (k : K) :
    ((l.find? fun a => key a == k).map val).isSome ↔ k ∈ l.map key := by
  simp [List.find?_isSome]

/-- The map that a list of records with distinct keys stands for. -/
def ofList (l : List α) (h : (l.map key).Nodup) : OrderedMap K V where
  keys := l.map key
  lookup k := (l.find? fun a => key a == k).map val
  nodup := h
  mem_keys k := (find?_key_isSome_iff key val l k).symm

theorem lookup_ofList_of_mem {l : List α} {a : α} (h : (l.map key).Nodup) (ha : a ∈ l) :
    (ofList key val l h).lookup (key a) = some (val a) := by
  induction l with
  | nil => simp at ha
  | cons b l ih =>
      rw [List.map_cons, List.nodup_cons] at h
      rcases List.mem_cons.mp ha with rfl | ha
      · simp [ofList]
      · have hne : (key b == key a) = false := by
          have : key b ≠ key a := fun hkey => h.1 (hkey ▸ List.mem_map_of_mem ha)
          simpa using this
        simpa [ofList, List.find?_cons, hne] using ih h.2 ha

/-- The bindings of the map are the records, in their order. -/
theorem bindings_ofList (l : List α) (h : (l.map key).Nodup) :
    (ofList key val l h).bindings = l.map fun a => (key a, val a) := by
  have hbind : ∀ a ∈ l,
      ((ofList key val l h).lookup (key a)).map (fun v => (key a, v)) = some (key a, val a) := by
    intro a ha
    rw [lookup_ofList_of_mem key val h ha]
    rfl
  calc (ofList key val l h).bindings
      = l.filterMap fun a => ((ofList key val l h).lookup (key a)).map fun v => (key a, v) := by
        rw [OrderedMap.bindings, show (ofList key val l h).keys = l.map key from rfl,
          List.filterMap_map]
        rfl
    _ = l.map fun a => (key a, val a) := by
        rw [List.filterMap_congr hbind, List.filterMap_eq_map']

/-- Appending a record with a new key inserts it. -/
theorem ofList_concat (l : List α) (a : α) (h : (l.map key).Nodup) (ha : key a ∉ l.map key)
    (h' : ((l ++ [a]).map key).Nodup) :
    ofList key val (l ++ [a]) h' = (ofList key val l h).insert (key a) (val a) ha := by
  apply OrderedMap.ext
  · simp [ofList, insert]
  · funext k
    by_cases hk : k = key a
    · have hnone : (l.find? fun b => key b == key a) = none := by simpa using ha
      simp [ofList, insert, hk, List.find?_append, hnone]
    · have hne : (key a == k) = false := by simpa using Ne.symm hk
      simp only [ofList, insert, List.find?_append, List.find?_singleton, hne,
        Function.update_of_ne hk]
      simp

/-- Overwriting a record by one with the same key replaces its value. -/
theorem ofList_overwrite (pre post : List α) (a b : α) (hkey : key b = key a)
    (h : ((pre ++ a :: post).map key).Nodup) (h' : ((pre ++ b :: post).map key).Nodup) :
    ofList key val (pre ++ b :: post) h' =
      (ofList key val (pre ++ a :: post) h).replace (key a) (val b) (by simp [ofList]) := by
  have hpre : key a ∉ pre.map key := by
    intro hmem
    rw [List.map_append, List.map_cons] at h
    exact (List.nodup_append'.mp h).2.2 hmem (by simp)
  apply OrderedMap.ext
  · simp [ofList, replace, hkey]
  · funext k
    by_cases hk : k = key a
    · have hnone : (pre.find? fun c => key c == key a) = none := by simpa using hpre
      simp [ofList, replace, hk, List.find?_append, hnone, hkey]
    · have hne : (key a == k) = false := by simpa using Ne.symm hk
      simp only [ofList, replace, List.find?_append, List.find?_cons, hkey, hne,
        Function.update_of_ne hk]

/-- Filtering a key out erases it. -/
theorem ofList_filter (l : List α) (k : K) (h : (l.map key).Nodup)
    (h' : ((l.filter fun a => key a != k).map key).Nodup) :
    ofList key val (l.filter fun a => key a != k) h' = (ofList key val l h).erase k := by
  apply OrderedMap.ext
  · simp only [ofList, erase, List.filter_map]
    congr 1
    apply List.filter_congr
    intro a _
    simp [bne, beq_eq_decide]
  · funext k'
    simp only [ofList, erase, List.find?_filter]
    by_cases hk : k' = k
    · simp [hk]
    · rw [Function.update_of_ne hk]
      congr 2
      funext a
      by_cases ha : key a = k'
      · simp [ha, hk]
      · simp [ha]

end Records

end OrderedMap

end ViperVault.Foundation
