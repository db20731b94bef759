import Mathlib.Init

/-!
# Runs of a partial step function

A system is a function `σ → ε → Option σ`: an event is either taken or refused in a state.
A run is the list of its events, so that a concrete run can be evaluated. Invariants are
proved once per step and carried to whole runs by the rules below; the guarded rule asks for
preservation only on the steps that a condition on state and event allows.
-/

namespace ViperVault.Foundation

variable {σ ε : Type*} {step : σ → ε → Option σ}

/-- Take the events in order; one refused event refuses the whole list. -/
def exec (step : σ → ε → Option σ) : σ → List ε → Option σ
  | s, [] => some s
  | s, e :: es => (step s e).bind fun s' => exec step s' es

/-- `good` holds of the state and the event of every step the run takes. -/
def EveryStep (step : σ → ε → Option σ) (good : σ → ε → Prop) : σ → List ε → Prop
  | _, [] => True
  | s, e :: es => good s e ∧ ∀ s', step s e = some s' → EveryStep step good s' es

@[simp] theorem exec_nil (s : σ) : exec step s [] = some s := rfl

theorem exec_cons_eq_some {s t : σ} {e : ε} {es : List ε} :
    exec step s (e :: es) = some t ↔ ∃ s', step s e = some s' ∧ exec step s' es = some t := by
  simp [exec, Option.bind_eq_some_iff]

/-- A run that continues another one goes through the state the first one reached. -/
theorem exec_append_eq_some {s t : σ} {es fs : List ε} :
    exec step s (es ++ fs) = some t ↔ ∃ m, exec step s es = some m ∧ exec step m fs = some t := by
  induction es generalizing s with
  | nil => simp
  | cons e es ih =>
      simp only [List.cons_append, exec_cons_eq_some, ih]
      constructor
      · rintro ⟨s', hs, m, hm, ht⟩
        exact ⟨m, ⟨s', hs, hm⟩, ht⟩
      · rintro ⟨m, ⟨s', hs, hm⟩, ht⟩
        exact ⟨s', hs, m, hm, ht⟩

/-- On a step that is known, only the state it leads to matters. -/
theorem everyStep_cons_of_eq {good : σ → ε → Prop} {s s' : σ} {e : ε} {es : List ε}
    (hgood : good s e) (hstep : step s e = some s') (h : EveryStep step good s' es) :
    EveryStep step good s (e :: es) := by
  refine ⟨hgood, fun t ht => ?_⟩
  rw [hstep] at ht
  cases ht
  exact h

/-- The guarded invariant rule: what every allowed step preserves holds after every run
whose steps are all allowed. -/
theorem exec_invariant_of_everyStep (good : σ → ε → Prop) (inv : σ → Prop)
    (hstep : ∀ s e s', inv s → good s e → step s e = some s' → inv s')
    {s t : σ} {es : List ε} (hs : inv s) (hgood : EveryStep step good s es)
    (ht : exec step s es = some t) : inv t := by
  induction es generalizing s with
  | nil =>
      cases ht
      exact hs
  | cons e es ih =>
      obtain ⟨s', hs', ht⟩ := exec_cons_eq_some.mp ht
      exact ih (hstep s e s' hs hgood.1 hs') (hgood.2 s' hs') ht

theorem everyStep_congr {good good' : σ → ε → Prop} (h : ∀ s e, good s e ↔ good' s e) {s : σ}
    {es : List ε} : EveryStep step good s es ↔ EveryStep step good' s es := by
  induction es generalizing s with
  | nil => exact Iff.rfl
  | cons e es ih => exact and_congr (h s e) (forall_congr' fun _ => imp_congr_right fun _ => ih)

theorem everyStep_true {s : σ} {es : List ε} : EveryStep step (fun _ _ => True) s es := by
  induction es generalizing s with
  | nil => trivial
  | cons e es ih => exact ⟨trivial, fun _ _ => ih⟩

/-- The invariant rule: what every step preserves holds after every run. -/
theorem exec_invariant (inv : σ → Prop) (hstep : ∀ s e s', inv s → step s e = some s' → inv s')
    {s t : σ} {es : List ε} (hs : inv s) (ht : exec step s es = some t) : inv t :=
  exec_invariant_of_everyStep (fun _ _ => True) inv (fun s e s' hs _ => hstep s e s' hs) hs
    everyStep_true ht

theorem everyStep_of_forall_mem {good : ε → Prop} {s : σ} {es : List ε} (h : ∀ e ∈ es, good e) :
    EveryStep step (fun _ e => good e) s es := by
  induction es generalizing s with
  | nil => trivial
  | cons e es ih =>
      exact ⟨h e (by simp), fun _ _ => ih fun e' he' => h e' (by simp [he'])⟩

/-- Along a run, a condition on the events alone holds of every step if it does of every event. -/
theorem everyStep_iff_forall_mem {good : ε → Prop} {s : σ} {es : List ε}
    (hrun : ∃ t, exec step s es = some t) :
    EveryStep step (fun _ e => good e) s es ↔ ∀ e ∈ es, good e := by
  refine ⟨fun h => ?_, everyStep_of_forall_mem⟩
  induction es generalizing s with
  | nil => simp
  | cons e es ih =>
      obtain ⟨t, ht⟩ := hrun
      obtain ⟨s', hs', ht⟩ := exec_cons_eq_some.mp ht
      exact List.forall_mem_cons.mpr ⟨h.1, ih ⟨t, ht⟩ (h.2 s' hs')⟩

/-- Where no step is ever refused, every list of events is a run. -/
theorem exists_exec (htotal : ∀ s e, ∃ s', step s e = some s') (s : σ) (es : List ε) :
    ∃ t, exec step s es = some t := by
  induction es generalizing s with
  | nil => exact ⟨s, rfl⟩
  | cons e es ih =>
      obtain ⟨s', hs'⟩ := htotal s e
      obtain ⟨t, ht⟩ := ih s'
      exact ⟨t, exec_cons_eq_some.mpr ⟨s', hs', ht⟩⟩

/-- The exact invariant rule: where a step from a state with the invariant keeps it exactly if
the step is good, a run keeps it in every state it reaches exactly if all its steps are good.
The side condition is what may be assumed of the steps. -/
theorem invariant_iff_everyStep (side good : σ → ε → Prop) (inv : σ → Prop)
    (hstep : ∀ s e s', inv s → side s e → step s e = some s' → (inv s' ↔ good s e)) {s : σ}
    {es : List ε} (hs : inv s) (hside : EveryStep step side s es)
    (hrun : ∃ t, exec step s es = some t) :
    (∀ pre t, pre <+: es → exec step s pre = some t → inv t) ↔ EveryStep step good s es := by
  induction es generalizing s with
  | nil =>
      constructor
      · exact fun _ => trivial
      · intro _ pre t hpre ht
        rw [List.prefix_nil.mp hpre] at ht
        cases ht
        exact hs
  | cons e es ih =>
      obtain ⟨last, hlast⟩ := hrun
      obtain ⟨s', hs', hrest⟩ := exec_cons_eq_some.mp hlast
      have hnextRun : ∃ t, exec step s' es = some t := ⟨last, hrest⟩
      have hiff := hstep s e s' hs hside.1 hs'
      constructor
      · intro h
        have hnext : inv s' := h [e] s' (by simp) (exec_cons_eq_some.mpr ⟨s', hs', rfl⟩)
        refine everyStep_cons_of_eq (hiff.mp hnext) hs'
          ((ih hnext (hside.2 s' hs') hnextRun).mp ?_)
        intro pre t hpre ht
        exact h (e :: pre) t (List.cons_prefix_cons.mpr ⟨rfl, hpre⟩)
          (exec_cons_eq_some.mpr ⟨s', hs', ht⟩)
      · intro h pre t hpre ht
        cases pre with
        | nil =>
            cases ht
            exact hs
        | cons e' pre =>
            obtain ⟨rfl, htail⟩ := List.cons_prefix_cons.mp hpre
            obtain ⟨m, hm, ht⟩ := exec_cons_eq_some.mp ht
            obtain rfl : s' = m := Option.some.inj (hs'.symm.trans hm)
            exact (ih (hiff.mpr h.1) (hside.2 s' hs') hnextRun).mpr (h.2 s' hs') pre t htail ht

/-- What holds at the end of a run and not at its start came about in a step of it. -/
theorem exists_step_of_exec {P : σ → Prop} {s t : σ} {es : List ε} (hs : ¬ P s) (ht : P t)
    (h : exec step s es = some t) :
    ∃ es₁ e es₂ m m', es = es₁ ++ e :: es₂ ∧ exec step s es₁ = some m ∧ step m e = some m' ∧
      ¬ P m ∧ P m' := by
  induction es generalizing s with
  | nil =>
      cases h
      exact absurd ht hs
  | cons e es ih =>
      obtain ⟨s', hs', h⟩ := exec_cons_eq_some.mp h
      by_cases hnow : P s'
      · exact ⟨[], e, es, s, s', rfl, rfl, hs', hs, hnow⟩
      · obtain ⟨es₁, e', es₂, m, m', rfl, hm, hstep, hbefore, hafter⟩ := ih hnow h
        exact ⟨e :: es₁, e', es₂, m, m', rfl, exec_cons_eq_some.mpr ⟨s', hs', hm⟩, hstep, hbefore,
          hafter⟩

/-! ## Histories -/

section Histories

variable {α : Type*} (raises restarts : α → Prop)

/-- Something was raised in the history, and nothing has restarted it since. -/
def RaisedSince (history : List α) : Prop :=
  ∃ before a after, history = before ++ a :: after ∧ raises a ∧ ∀ b ∈ after, ¬ restarts b

variable {raises restarts}

/-- The last step of a history raises, or it keeps what was raised before it. -/
theorem raisedSince_append_singleton {history : List α} {a : α} :
    RaisedSince raises restarts (history ++ [a]) ↔
      raises a ∨ (¬ restarts a ∧ RaisedSince raises restarts history) := by
  constructor
  · rintro ⟨before, b, after, hsplit, hraises, hafter⟩
    rcases List.eq_nil_or_concat after with rfl | ⟨after, c, rfl⟩
    · obtain ⟨-, rfl⟩ := List.append_singleton_inj.mp hsplit
      exact Or.inl hraises
    · have hsplit' : history ++ [a] = (before ++ b :: after) ++ [c] := by simpa using hsplit
      obtain ⟨rfl, rfl⟩ := List.append_singleton_inj.mp hsplit'
      right
      refine ⟨hafter a (by simp), before, b, after, rfl, hraises, ?_⟩
      intro d hd
      exact hafter d (by simp [hd])
  · rintro (hraises | ⟨hkeeps, before, b, after, rfl, hraises, hafter⟩)
    · exact ⟨history, a, [], rfl, hraises, by simp⟩
    · refine ⟨before, b, after ++ [a], by simp, hraises, ?_⟩
      intro d hd
      rcases List.mem_append.mp hd with hd | hd
      · exact hafter d hd
      · obtain rfl := List.mem_singleton.mp hd
        exact hkeeps

end Histories

/-! ## Lists of processes -/

section Processes

variable {α : Type*} {l : List α} {a a' : α} {i j : Nat}

/-- A change of one process does not show in what the change keeps. -/
theorem map_modify_of_eq {β : Type*} {f : α → α} {g : α → β} (h : ∀ a, g (f a) = g a)
    (l : List α) (i : Nat) : (l.modify i f).map g = l.map g := by
  apply List.ext_getElem?
  intro j
  rw [List.getElem?_map, List.getElem?_map, List.getElem?_modify]
  cases l[j]? with
  | none => rfl
  | some a => by_cases hij : i = j <;> simp [hij, h]

/-- After one more process was started. -/
theorem getElem?_append_singleton (h : (l ++ [a'])[i]? = some a) :
    l[i]? = some a ∨ (i = l.length ∧ a = a') := by
  rcases Nat.lt_or_ge i l.length with hi | hi
  · left
    rwa [List.getElem?_append_left hi] at h
  · right
    obtain ⟨hlt, -⟩ := List.getElem?_eq_some_iff.mp h
    rw [List.length_append, List.length_singleton] at hlt
    obtain rfl : i = l.length := by omega
    rw [List.getElem?_append_right hi] at h
    exact ⟨rfl, List.mem_singleton.mp (List.mem_of_getElem? h)⟩

/-- After the process `i` took a step. -/
theorem getElem?_set_cases (h : (l.set i a')[j]? = some a) :
    (i = j ∧ a = a') ∨ (i ≠ j ∧ l[j]? = some a) := by
  by_cases hij : i = j
  · left
    subst hij
    rw [List.getElem?_set] at h
    simp only [if_true] at h
    split at h
    · exact ⟨rfl, (Option.some.inj h).symm⟩
    · cases h
  · right
    rw [List.getElem?_set_ne hij] at h
    exact ⟨hij, h⟩

theorem getElem?_modify_cases {f : α → α} (h : (l.modify i f)[j]? = some a) :
    (i = j ∧ ∃ b, l[i]? = some b ∧ a = f b) ∨ (i ≠ j ∧ l[j]? = some a) := by
  by_cases hij : i = j
  · left
    subst hij
    rw [List.getElem?_modify_eq] at h
    obtain ⟨b, hb, rfl⟩ := Option.map_eq_some_iff.mp h
    exact ⟨rfl, b, hb, rfl⟩
  · right
    rw [List.getElem?_modify_ne f l hij] at h
    exact ⟨hij, h⟩

end Processes

end ViperVault.Foundation
