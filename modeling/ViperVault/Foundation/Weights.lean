import Mathlib.Algebra.BigOperators.Group.List.Basic
import Mathlib.Algebra.GroupWithZero.Nat

/-!
# Weights of agents

Agents in a list, each with a weight: what is changed when an agent joins, when one moves, and when
time passes for those that are busy.
-/

namespace ViperVault.Foundation

variable {α : Type*}

/-- The sum of the weights. -/
def weight (f : α → Nat) (agents : List α) : Nat := (agents.map f).sum

theorem weight_append (f : α → Nat) (agents more : List α) :
    weight f (agents ++ more) = weight f agents + weight f more := by
  simp [weight]

theorem weight_append_singleton (f : α → Nat) (agents : List α) (a : α) :
    weight f (agents ++ [a]) = weight f agents + f a := by
  simp [weight]

/-- An agent that moves takes its old weight away and brings its new one. -/
theorem weight_set {f : α → Nat} {agents : List α} {i : Nat} {a : α} (h : agents[i]? = some a)
    (b : α) : weight f (agents.set i b) + f a = weight f agents + f b := by
  induction agents generalizing i with
  | nil => cases h
  | cons c agents ih =>
      cases i with
      | zero =>
          obtain rfl : c = a := Option.some.inj h
          simp only [List.set_cons_zero, weight, List.map_cons, List.sum_cons]
          omega
      | succ i =>
          have htail := ih (List.getElem?_cons_succ.symm.trans h)
          simp only [List.set_cons_succ, weight, List.map_cons, List.sum_cons] at htail ⊢
          omega

/-- No agent weighs more than all of them. -/
theorem le_weight {f : α → Nat} {agents : List α} {a : α} (h : a ∈ agents) :
    f a ≤ weight f agents := by
  obtain ⟨before, after, rfl⟩ := List.append_of_mem h
  rw [weight_append, weight, weight, List.map_cons, List.sum_cons]
  omega

@[simp] theorem weight_zero (agents : List α) : weight (fun _ => 0) agents = 0 := by
  simp [weight]

/-- Where the weights of the busy agents grow by at most `d`, and those of the others do not, the
sum grows by at most `d` for each busy agent. -/
theorem weight_le_add_mul {f g : α → Nat} {busy : α → Bool} {d : Nat} {agents : List α}
    (h : ∀ a ∈ agents, f a ≤ g a + if busy a then d else 0) :
    weight f agents ≤ weight g agents + agents.countP busy * d := by
  induction agents with
  | nil => exact Nat.zero_le _
  | cons a agents ih =>
      obtain ⟨hhead, htail⟩ := List.forall_mem_cons.mp h
      have hrest := ih htail
      simp only [weight, List.map_cons, List.sum_cons, List.countP_cons] at hrest ⊢
      split at hhead
      · next hbusy =>
          rw [if_pos hbusy, Nat.add_mul, Nat.one_mul]
          omega
      · next hidle =>
          rw [if_neg hidle, Nat.add_zero]
          omega

/-- A busy agent that moves does not add to the busy ones. -/
theorem countP_set_le {busy : α → Bool} {agents : List α} {i : Nat} {a : α}
    (h : agents[i]? = some a) (hbusy : busy a = true) (b : α) :
    (agents.set i b).countP busy ≤ agents.countP busy := by
  obtain ⟨hi, hget⟩ := List.getElem?_eq_some_iff.mp h
  have hpos : 0 < agents.countP busy :=
    List.countP_pos_iff.mpr ⟨a, List.mem_of_getElem? h, hbusy⟩
  rw [List.countP_set hi, hget, if_pos hbusy]
  split <;> omega

end ViperVault.Foundation
