import ViperVault.Entries.Update
import ViperVault.Foundation.Runs

/-!
# Runs of accepted updates

A run of updates that all answer `Ok`, and the rule for its invariants: what each accepted
single-field write keeps, the run keeps.
-/

namespace ViperVault

open Foundation VaultEntry

namespace EntryUpdate

/-- The step of an update that answers `Ok`. -/
def applied (e : VaultEntry) (u : EntryUpdate) : Option VaultEntry :=
  match (applyUpdate u).run e with
  | (.ok (), e') => some e'
  | (.error _, _) => none

/-- An update that answers `Ok` writes the fields of its accepted parts. -/
theorem applied_eq_some {e e' : VaultEntry} {u : EntryUpdate} (he : e.Valid)
    (h : applied e u = some e') : u.Accepted e ∧ e' = putAll e u.parts := by
  rcases accepted_or_failsAt e u with hacc | ⟨pre, r, hfail⟩
  · rw [applied, run_applyUpdate_of_accepted he hacc] at h
    exact ⟨hacc, (Option.some.inj h).symm⟩
  · obtain ⟨err, -, hrun⟩ := hfail.run_applyUpdate he
    rw [applied, hrun] at h
    cases h

section Invariant

variable (inv : VaultEntry → Prop)
  (hput : ∀ (e : VaultEntry) (p : EntryUpdate), e.Valid → p.test e = .ok () → inv e → inv (p.put e))

include hput

/-- What each accepted write keeps, a sequence of them keeps. -/
theorem putAll_invariant {us : List EntryUpdate} (hrank : ∀ u ∈ us, u.rank < 6)
    (hsorted : us.Pairwise fun p q => p.rank < q.rank) {e : VaultEntry} (he : e.Valid)
    (htest : ∀ p ∈ us, p.test e = .ok ()) (hinv : inv e) : inv (putAll e us) := by
  induction us generalizing e with
  | nil => exact hinv
  | cons p us ih =>
      obtain ⟨hp, hus⟩ := List.pairwise_cons.mp hsorted
      have hhead := htest p List.mem_cons_self
      have htail : ∀ q ∈ us, q.test (p.put e) = .ok () := by
        intro q hq
        rw [test_put (hp q hq) (hrank q (List.mem_cons_of_mem p hq))]
        exact htest q (List.mem_cons_of_mem p hq)
      exact ih (fun u hu => hrank u (List.mem_cons_of_mem p hu)) hus (put_valid he hhead) htail
        (hput e p he hhead hinv)

/-- The step: an update that answers `Ok` keeps the invariant. -/
theorem applied_invariant {e e' : VaultEntry} {u : EntryUpdate} (he : e.Valid) (hinv : inv e)
    (h : applied e u = some e') : e'.Valid ∧ inv e' := by
  obtain ⟨hacc, rfl⟩ := applied_eq_some he h
  have hrank : ∀ p ∈ u.parts, p.rank < 6 := fun p hp => rank_lt_of_mem_parts hp
  have hsorted := pairwise_rank_parts u
  exact ⟨hacc.putAll_valid he, putAll_invariant inv hput hrank hsorted he hacc hinv⟩

/-- The rule: from a valid entry, a run of accepted updates keeps what each accepted write
keeps. -/
theorem exec_applied_invariant {e e' : VaultEntry} {us : List EntryUpdate} (he : e.Valid)
    (hinv : inv e) (h : exec applied e us = some e') : e'.Valid ∧ inv e' :=
  exec_invariant (fun e => e.Valid ∧ inv e)
    (fun _ _ _ hboth hstep => applied_invariant inv hput hboth.1 hboth.2 hstep) ⟨he, hinv⟩ h

end Invariant

end EntryUpdate

end ViperVault
