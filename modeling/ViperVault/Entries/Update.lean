import ViperVault.Entries.Types
import Mathlib.Data.List.Basic

/-!
# What an update does to an entry

A `Replace` update is the sequence of its present fields, so an update is analysed as a list
of single-field updates. On an entry that satisfies the type invariants a single-field update
makes one test: an accepted one writes its field, a rejected one writes nothing unless it is
one of the two arms that write the TOTP block before they check it.
-/

namespace ViperVault

open Foundation Entries VaultEntry

namespace VaultEntry

/-- The entry satisfies the invariants of its type. -/
def Valid (e : VaultEntry) : Prop := e.validateInvariants = .ok ()

instance (e : VaultEntry) : Decidable e.Valid :=
  inferInstanceAs (Decidable (e.validateInvariants = .ok ()))

theorem valid_iff (e : VaultEntry) :
    e.Valid ↔ (e.metadata.entryType = .totp ∧ ∃ t, e.secret.totp = some t ∧ t.validate = .ok ()) ∨
      (e.metadata.entryType ≠ .totp ∧ e.secret.totp = none) := by
  unfold Valid validateInvariants
  cases htype : e.metadata.entryType <;> cases htotp : e.secret.totp <;> simp

/-- Validity only looks at the entry type and at the TOTP block. -/
theorem valid_congr {e f : VaultEntry} (htype : f.metadata.entryType = e.metadata.entryType)
    (htotp : f.secret.totp = e.secret.totp) : f.Valid ↔ e.Valid := by
  rw [valid_iff, valid_iff, htype, htotp]

theorem run_checkInvariants (e : VaultEntry) :
    checkInvariants.run e = (e.validateInvariants, e) := by
  unfold checkInvariants
  rw [Mut.run_bind_ok (Mut.run_read e), Mut.run_check]

theorem run_checkInvariants_valid {e : VaultEntry} (he : e.Valid) :
    checkInvariants.run e = (.ok (), e) := by
  rw [run_checkInvariants, he]

/-! ## The frame of an update -/

section Frame

variable (md : EntryMetadata)

theorem keeps_metadata_checkInvariants :
    checkInvariants.Keeps fun e => e.metadata = md :=
  Mut.keeps_read.bind fun _ => Mut.keeps_check _

theorem keeps_metadata_applySetTitle (t : Text) :
    (applySetTitle t).Keeps fun e => e.metadata = md :=
  (Mut.keeps_check _).bind fun _ => Mut.keeps_write fun _ h => h

theorem keeps_metadata_applySetNote (n : Option Text) :
    (applySetNote n).Keeps fun e => e.metadata = md :=
  (Mut.keeps_ifSome n fun _ => Mut.keeps_check _).bind fun _ => Mut.keeps_write fun _ h => h

theorem keeps_metadata_applySetUsername (u : Option Text) :
    (applySetUsername u).Keeps fun e => e.metadata = md :=
  (Mut.keeps_ifSome u fun _ => Mut.keeps_check _).bind fun _ => Mut.keeps_write fun _ h => h

theorem keeps_metadata_applySetSecret (s : Text) :
    (applySetSecret s).Keeps fun e => e.metadata = md := by
  refine Mut.keeps_read.bind fun e => ?_
  split
  · exact (Mut.keeps_check _).bind fun _ => Mut.keeps_write fun _ h => h
  · split
    · split
      · exact Mut.keeps_fail _
      · refine (Mut.keeps_write ?_).bind fun _ =>
          (Mut.keeps_check _).bind fun _ => Mut.keeps_write ?_
        · exact fun _ h => h
        · exact fun _ h => h
    · exact Mut.keeps_write fun _ h => h

theorem keeps_metadata_applySetTotp (t : Option TotpSecret) :
    (applySetTotp t).Keeps fun e => e.metadata = md := by
  refine Mut.keeps_read.bind fun e => ?_
  split
  · exact Mut.keeps_fail _
  · apply Mut.Keeps.bind
    · exact Mut.keeps_ifSome t fun _ =>
        (Mut.keeps_check _).bind fun _ => Mut.keeps_write fun _ h => h
    · exact fun _ => Mut.keeps_write fun _ h => h

theorem keeps_metadata_applySetExtra (x : Option Bytes) :
    (applySetExtra x).Keeps fun e => e.metadata = md := Mut.keeps_write fun _ h => h

/-- No update changes the identifier or the type of its entry, not even a refused one. -/
theorem keeps_metadata_applyUpdate (u : EntryUpdate) :
    (applyUpdate u).Keeps fun e => e.metadata = md := by
  have hcheck := keeps_metadata_checkInvariants md
  cases u with
  | setTitle t => exact (keeps_metadata_applySetTitle md t).bind fun _ => hcheck
  | setNote n => exact (keeps_metadata_applySetNote md n).bind fun _ => hcheck
  | setUsername u => exact (keeps_metadata_applySetUsername md u).bind fun _ => hcheck
  | setSecret s => exact (keeps_metadata_applySetSecret md s).bind fun _ => hcheck
  | setExtra x => exact (keeps_metadata_applySetExtra md x).bind fun _ => hcheck
  | setTotp t => exact (keeps_metadata_applySetTotp md t).bind fun _ => hcheck
  | replace title note username secret extra totp =>
      refine (Mut.keeps_ifSome title fun t => keeps_metadata_applySetTitle md t).bind fun _ => ?_
      refine (Mut.keeps_ifSome note fun n => keeps_metadata_applySetNote md n).bind fun _ => ?_
      refine (Mut.keeps_ifSome username fun u =>
        keeps_metadata_applySetUsername md u).bind fun _ => ?_
      refine (Mut.keeps_ifSome secret fun s =>
        (keeps_metadata_applySetSecret md s).bind fun _ => hcheck).bind fun _ => ?_
      refine (Mut.keeps_ifSome extra fun x => keeps_metadata_applySetExtra md x).bind fun _ => ?_
      exact (Mut.keeps_ifSome totp fun t =>
        (keeps_metadata_applySetTotp md t).bind fun _ => hcheck).bind fun _ => hcheck

end Frame

/-- An update answers `Ok` only where the entry satisfies the invariants of its type, whatever the
entry was before. -/
theorem establishes_valid_applyUpdate (u : EntryUpdate) : (applyUpdate u).Establishes Valid := by
  have hcheck : checkInvariants.Establishes Valid := by
    intro e a e' h
    rw [run_checkInvariants, Prod.mk.injEq] at h
    exact h.2 ▸ h.1
  cases u with
  | setTitle t => exact Mut.establishes_bind _ fun _ => hcheck
  | setNote n => exact Mut.establishes_bind _ fun _ => hcheck
  | setUsername u => exact Mut.establishes_bind _ fun _ => hcheck
  | setSecret s => exact Mut.establishes_bind _ fun _ => hcheck
  | setExtra x => exact Mut.establishes_bind _ fun _ => hcheck
  | setTotp t => exact Mut.establishes_bind _ fun _ => hcheck
  | replace title note username secret extra totp =>
      refine Mut.establishes_bind _ fun _ => ?_
      refine Mut.establishes_bind _ fun _ => ?_
      refine Mut.establishes_bind _ fun _ => ?_
      refine Mut.establishes_bind _ fun _ => ?_
      refine Mut.establishes_bind _ fun _ => ?_
      exact Mut.establishes_bind _ fun _ => hcheck

theorem metadata_run_applyUpdate (u : EntryUpdate) (e : VaultEntry) :
    ((applyUpdate u).run e).2.metadata = e.metadata :=
  keeps_metadata_applyUpdate e.metadata u e rfl

end VaultEntry

namespace EntryUpdate

/-- The single-field updates an update consists of, in the order they are applied. -/
def parts : EntryUpdate → List EntryUpdate
  | .replace title note username secret extra totp =>
      title.toList.map .setTitle ++ note.toList.map .setNote ++
        username.toList.map .setUsername ++ secret.toList.map .setSecret ++
        extra.toList.map .setExtra ++ totp.toList.map .setTotp
  | u => [u]

/-- The position of a single-field update in a `Replace`. -/
def rank : EntryUpdate → Nat
  | .setTitle _ => 0
  | .setNote _ => 1
  | .setUsername _ => 2
  | .setSecret _ => 3
  | .setExtra _ => 4
  | .setTotp _ => 5
  | .replace .. => 6

/-- The test a single-field update makes on the entry, with the error it answers. -/
def test (e : VaultEntry) : EntryUpdate → Except EntryError Unit
  | .setTitle t => validateTitle t
  | .setNote none => .ok ()
  | .setNote (some n) => validateNote n
  | .setUsername none => .ok ()
  | .setUsername (some u) => validateUsername u
  | .setSecret s =>
      match e.metadata.entryType with
      | .password => validatePassword s
      | .totp =>
          match e.secret.totp with
          | none => .error .invalidType
          | some t => { t with secretB32 := ⟨s⟩ }.validate
      | _ => .ok ()
  | .setExtra _ => .ok ()
  | .setTotp t =>
      if e.metadata.entryType ≠ .totp then .error .invalidType
      else
        match t with
        | none => .error .invalidType
        | some t => t.validate
  | .replace .. => .ok ()

/-- The fields a single-field update writes once its test has passed. Only a TOTP entry has a
block, so a new secret goes into the block where there is one. -/
def put (e : VaultEntry) : EntryUpdate → VaultEntry
  | .setTitle t => { e with secret.title := ⟨t⟩ }
  | .setNote n => { e with secret.note := n.map .mk }
  | .setUsername u => { e with secret.username := u.map .mk }
  | .setSecret s =>
      { e with
        secret.secret := ⟨s⟩
        secret.totp := e.secret.totp.map fun t => { t with secretB32 := ⟨s⟩ } }
  | .setExtra x => { e with secret.extra := x.map .mk }
  | .setTotp none => { e with secret.totp := none }
  | .setTotp (some t) => { e with secret.secret := t.secretB32, secret.totp := some t }
  | .replace .. => e

/-- The update carries a value other than the one the entry holds. -/
def Changes (e : VaultEntry) : EntryUpdate → Prop
  | .setTitle t => e.secret.title ≠ ⟨t⟩
  | .setNote n => e.secret.note ≠ n.map .mk
  | .setUsername u => e.secret.username ≠ u.map .mk
  | .setSecret s => e.secret.secret ≠ ⟨s⟩ ∨ ∃ t, e.secret.totp = some t ∧ t.secretB32 ≠ ⟨s⟩
  | .setExtra x => e.secret.extra ≠ x.map .mk
  | .setTotp t => e.secret.totp ≠ t ∨ ∃ b, t = some b ∧ e.secret.secret ≠ b.secretB32
  | .replace .. => False

/-- The two arms that write the TOTP block before the check that may refuse it: a new secret
for a TOTP entry, and the removal of the block. -/
def WritesFirst (e : VaultEntry) : EntryUpdate → Prop
  | .setSecret _ => e.metadata.entryType = .totp
  | .setTotp none => e.metadata.entryType = .totp
  | _ => False

instance (e : VaultEntry) (u : EntryUpdate) : Decidable (u.WritesFirst e) := by
  cases u with
  | setSecret s => exact inferInstanceAs (Decidable (_ = _))
  | setTotp t =>
      cases t with
      | none => exact inferInstanceAs (Decidable (_ = _))
      | some t => exact instDecidableFalse
  | _ => exact instDecidableFalse

/-- The entry left behind by a rejected update that writes first. -/
def smear (e : VaultEntry) : EntryUpdate → VaultEntry
  | .setSecret s => { e with secret.totp := e.secret.totp.map fun t => { t with secretB32 := ⟨s⟩ } }
  | .setTotp _ => { e with secret.totp := none }
  | _ => e

/-! ## Single-field updates -/

/-- An accepted single-field update keeps the entry valid. -/
theorem put_valid {e : VaultEntry} {u : EntryUpdate} (he : e.Valid) (h : u.test e = .ok ()) :
    (u.put e).Valid := by
  cases u with
  | setSecret s =>
      rcases (valid_iff e).mp he with ⟨htype, t, htotp, _⟩ | ⟨htype, htotp⟩
      · simp only [test, htype, htotp] at h
        have htotp' : (put e (.setSecret s)).secret.totp = some { t with secretB32 := ⟨s⟩ } := by
          simp [put, htotp]
        exact (valid_iff _).mpr (Or.inl ⟨htype, _, htotp', h⟩)
      · have htotp' : (put e (.setSecret s)).secret.totp = none := by
          simp [put, htotp]
        exact (valid_iff _).mpr (Or.inr ⟨htype, htotp'⟩)
  | setTotp t =>
      by_cases htype : e.metadata.entryType = .totp
      · cases t with
        | none => simp [test, htype] at h
        | some t =>
            simp only [test, htype, ne_eq, not_true_eq_false, if_false] at h
            exact (valid_iff _).mpr (Or.inl ⟨htype, t, rfl, h⟩)
      · simp [test, htype] at h
  | _ => exact (valid_congr rfl rfl).mpr he

/-- An accepted single-field update writes exactly its fields. -/
theorem run_applyUpdate_ok {e : VaultEntry} {u : EntryUpdate} (he : e.Valid) (hu : u.rank < 6)
    (h : u.test e = .ok ()) : (applyUpdate u).run e = (.ok (), u.put e) := by
  have hput : (u.put e).Valid := put_valid he h
  suffices harm : ∃ arm, applyUpdate u = (do arm; checkInvariants) ∧
      arm.run e = (.ok (), u.put e) by
    obtain ⟨arm, heq, hrun⟩ := harm
    rw [heq, Mut.run_bind_ok hrun, run_checkInvariants_valid hput]
  cases u with
  | setTitle t =>
      refine ⟨_, rfl, ?_⟩
      simp only [test] at h
      simp [applySetTitle, Mut.run_bind, h, put]
  | setNote n =>
      refine ⟨_, rfl, ?_⟩
      cases n with
      | none => simp [applySetNote, Mut.ifSome, Mut.run_bind, put]
      | some n =>
          simp only [test] at h
          simp [applySetNote, Mut.ifSome, Mut.run_bind, h, put]
  | setUsername n =>
      refine ⟨_, rfl, ?_⟩
      cases n with
      | none => simp [applySetUsername, Mut.ifSome, Mut.run_bind, put]
      | some n =>
          simp only [test] at h
          simp [applySetUsername, Mut.ifSome, Mut.run_bind, h, put]
  | setSecret s =>
      refine ⟨_, rfl, ?_⟩
      rcases (valid_iff e).mp he with ⟨htype, t, htotp, _⟩ | ⟨htype, htotp⟩
      · simp only [test, htype, htotp] at h
        simp [applySetSecret, Mut.run_bind, htype, htotp, h, put]
      · cases hpw : e.metadata.entryType <;>
          simp_all [applySetSecret, Mut.run_bind, test, put]
  | setExtra x => exact ⟨_, rfl, rfl⟩
  | setTotp t =>
      refine ⟨_, rfl, ?_⟩
      by_cases htype : e.metadata.entryType = .totp
      · cases t with
        | none => simp [test, htype] at h
        | some t => simp_all [applySetTotp, Mut.ifSome, Mut.run_bind, test, put]
      · simp [test, htype] at h
  | replace => simp [rank] at hu

/-- A rejected single-field update answers the error of its test. It leaves the entry alone,
unless its arm writes first. -/
theorem run_applyUpdate_error {e : VaultEntry} {u : EntryUpdate} {err : EntryError}
    (he : e.Valid) (h : u.test e = .error err) :
    (applyUpdate u).run e = (.error err, if u.WritesFirst e then u.smear e else e) := by
  cases u with
  | setTitle t =>
      simp only [test] at h
      simp [applyUpdate, applySetTitle, Mut.run_bind, h, WritesFirst]
  | setNote n =>
      cases n with
      | none => simp [test] at h
      | some n =>
          simp only [test] at h
          simp [applyUpdate, applySetNote, Mut.ifSome, Mut.run_bind, h, WritesFirst]
  | setUsername n =>
      cases n with
      | none => simp [test] at h
      | some n =>
          simp only [test] at h
          simp [applyUpdate, applySetUsername, Mut.ifSome, Mut.run_bind, h, WritesFirst]
  | setSecret s =>
      rcases (valid_iff e).mp he with ⟨htype, t, htotp, _⟩ | ⟨htype, htotp⟩
      · simp only [test, htype, htotp] at h
        simp [applyUpdate, applySetSecret, Mut.run_bind, htype, htotp, h, WritesFirst, smear]
      · cases hpw : e.metadata.entryType <;>
          simp_all [applyUpdate, applySetSecret, Mut.run_bind, test, WritesFirst]
  | setExtra x => simp [test] at h
  | setTotp t =>
      by_cases htype : e.metadata.entryType = .totp
      · cases t with
        | none =>
            simp only [test, htype, ne_eq, not_true_eq_false, if_false] at h
            simp [applyUpdate, applySetTotp, Mut.ifSome, Mut.run_bind, htype, WritesFirst, smear,
              run_checkInvariants, validateInvariants, h]
        | some t =>
            simp only [test, htype, ne_eq, not_true_eq_false, if_false] at h
            simp [applyUpdate, applySetTotp, Mut.ifSome, Mut.run_bind, htype, h, WritesFirst]
      · cases t <;>
          simp_all [applyUpdate, applySetTotp, Mut.ifSome, Mut.run_bind, test, WritesFirst]
  | replace => simp [test] at h

/-- What an arm that writes first leaves behind is no longer a valid entry. -/
theorem smear_not_valid {e : VaultEntry} {u : EntryUpdate} {err : EntryError}
    (he : e.Valid) (h : u.test e = .error err) (hw : u.WritesFirst e) : ¬ (u.smear e).Valid := by
  cases u with
  | setSecret s =>
      have htype : e.metadata.entryType = .totp := hw
      rcases (valid_iff e).mp he with ⟨_, t, htotp, _⟩ | ⟨hne, _⟩
      · simp only [test, htype, htotp] at h
        simp [valid_iff, smear, htype, htotp, h]
      · exact absurd htype hne
  | setTotp t =>
      cases t with
      | none =>
          have htype : e.metadata.entryType = .totp := hw
          simp [valid_iff, smear, htype]
      | some t => exact absurd hw (by simp [WritesFirst])
  | _ => exact absurd hw (by simp [WritesFirst])

/-! ## Sequences of single-field updates -/

/-- Apply single-field updates in order, stopping at the first error. -/
def applyEach : List EntryUpdate → Mut VaultEntry EntryError Unit
  | [] => pure ()
  | u :: us => do applyUpdate u; applyEach us

theorem run_applyEach_cons_ok {e : VaultEntry} {u : EntryUpdate} {us : List EntryUpdate}
    (he : e.Valid) (hu : u.rank < 6) (h : u.test e = .ok ()) :
    (applyEach (u :: us)).run e = (applyEach us).run (u.put e) :=
  Mut.run_bind_ok (run_applyUpdate_ok he hu h)

theorem run_applyEach_cons_error {e : VaultEntry} {u : EntryUpdate} {us : List EntryUpdate}
    {err : EntryError} (he : e.Valid) (h : u.test e = .error err) :
    (applyEach (u :: us)).run e = (.error err, if u.WritesFirst e then u.smear e else e) :=
  Mut.run_bind_error (run_applyUpdate_error he h)

/-- A body that behaves on valid entries as a sequence of single-field updates. -/
def ActsAs (m : Mut VaultEntry EntryError Unit) (us : List EntryUpdate) : Prop :=
  ∀ e : VaultEntry, e.Valid → m.run e = (applyEach us).run e

/-- A sequence of single-field updates that succeeds ends in a valid entry. -/
theorem valid_of_run_applyEach {us : List EntryUpdate} (hus : ∀ u ∈ us, u.rank < 6)
    {e e' : VaultEntry} (he : e.Valid) (h : (applyEach us).run e = (.ok (), e')) : e'.Valid := by
  induction us generalizing e with
  | nil =>
      have heq : e = e' := (Prod.mk.inj h).2
      exact heq ▸ he
  | cons u us ih =>
      cases ht : u.test e with
      | ok a =>
          rw [run_applyEach_cons_ok he (hus u (by simp)) ht] at h
          exact ih (fun v hv => hus v (by simp [hv])) (put_valid he ht) h
      | error err =>
          rw [run_applyEach_cons_error he ht] at h
          simp at h

theorem run_applyEach_append (us vs : List EntryUpdate) (e : VaultEntry) :
    (applyEach (us ++ vs)).run e = (do applyEach us; applyEach vs).run e := by
  induction us generalizing e with
  | nil => rfl
  | cons u us ih =>
      simp only [List.cons_append, applyEach, Mut.run_bind]
      rcases (applyUpdate u).run e with ⟨_ | _, e'⟩
      · rfl
      · simp only [ih, Mut.run_bind]

/-- Bodies in sequence act as the concatenated updates. -/
theorem ActsAs.bind {m k : Mut VaultEntry EntryError Unit} {us vs : List EntryUpdate}
    (hm : ActsAs m us) (hk : ActsAs k vs) (hus : ∀ u ∈ us, u.rank < 6) :
    ActsAs (do m; k) (us ++ vs) := by
  intro e he
  rw [run_applyEach_append, Mut.run_bind, Mut.run_bind, hm e he]
  rcases hrun : (applyEach us).run e with ⟨_ | ⟨⟩, e'⟩
  · rfl
  · exact hk e' (valid_of_run_applyEach hus he hrun)

theorem actsAs_nil : ActsAs checkInvariants [] := fun _ he => run_checkInvariants_valid he

theorem actsAs_single (u : EntryUpdate) : ActsAs (applyUpdate u) [u] := by
  intro e he
  simp only [applyEach, Mut.run_bind]
  rcases (applyUpdate u).run e with ⟨_ | ⟨⟩, e'⟩ <;> rfl

/-- An arm without the closing check acts as its update when the check that is left out could
not have failed. -/
theorem actsAs_of_arm {arm : Mut VaultEntry EntryError Unit} {u : EntryUpdate}
    (hu : applyUpdate u = do arm; checkInvariants)
    (hframe : ∀ e e', arm.run e = (.ok (), e') →
      e'.metadata.entryType = e.metadata.entryType ∧ e'.secret.totp = e.secret.totp) :
    ActsAs arm [u] := by
  intro e he
  rw [← actsAs_single u e he, hu, Mut.run_bind]
  rcases harm : arm.run e with ⟨err | ⟨⟩, e'⟩
  · rfl
  · obtain ⟨htype, htotp⟩ := hframe e e' harm
    have he' : e'.Valid := (valid_congr htype htotp).mpr he
    exact (run_checkInvariants_valid he').symm

theorem actsAs_ifSome {α : Type} (o : Option α) {body : α → Mut VaultEntry EntryError Unit}
    {part : α → EntryUpdate} (h : ∀ a, ActsAs (body a) [part a]) :
    ActsAs (Mut.ifSome o body) (o.toList.map part) := by
  cases o with
  | none => exact fun _ _ => rfl
  | some a => exact h a

theorem actsAs_applySetTitle (t : Text) : ActsAs (applySetTitle t) [.setTitle t] := by
  apply actsAs_of_arm rfl
  intro e e' h
  cases ht : validateTitle t with
  | ok a =>
      simp only [applySetTitle, Mut.run_bind, Mut.run_check, ht, Mut.run_write] at h
      exact (Prod.mk.inj h).2 ▸ ⟨rfl, rfl⟩
  | error err => simp [applySetTitle, Mut.run_bind, ht] at h

theorem actsAs_applySetNote (n : Option Text) : ActsAs (applySetNote n) [.setNote n] := by
  apply actsAs_of_arm rfl
  intro e e' h
  cases n with
  | none => exact (Prod.mk.inj h).2 ▸ ⟨rfl, rfl⟩
  | some n =>
      cases hn : validateNote n with
      | ok a =>
          simp only [applySetNote, Mut.ifSome, Mut.run_bind, Mut.run_check, hn,
            Mut.run_write] at h
          exact (Prod.mk.inj h).2 ▸ ⟨rfl, rfl⟩
      | error err => simp [applySetNote, Mut.ifSome, Mut.run_bind, hn] at h

theorem actsAs_applySetUsername (u : Option Text) :
    ActsAs (applySetUsername u) [.setUsername u] := by
  apply actsAs_of_arm rfl
  intro e e' h
  cases u with
  | none => exact (Prod.mk.inj h).2 ▸ ⟨rfl, rfl⟩
  | some u =>
      cases hu : validateUsername u with
      | ok a =>
          simp only [applySetUsername, Mut.ifSome, Mut.run_bind, Mut.run_check, hu,
            Mut.run_write] at h
          exact (Prod.mk.inj h).2 ▸ ⟨rfl, rfl⟩
      | error err => simp [applySetUsername, Mut.ifSome, Mut.run_bind, hu] at h

theorem actsAs_applySetExtra (x : Option Bytes) : ActsAs (applySetExtra x) [.setExtra x] := by
  apply actsAs_of_arm rfl
  intro e e' h
  exact (Prod.mk.inj h).2 ▸ ⟨rfl, rfl⟩

theorem rank_lt_of_mem_optional {α : Type} {o : Option α} {part : α → EntryUpdate} {k : Nat}
    (h : ∀ a, (part a).rank < k) : ∀ u ∈ o.toList.map part, u.rank < k := by
  intro u hu
  obtain ⟨a, _, rfl⟩ := List.mem_map.mp hu
  exact h a

/-- On a valid entry an update does what its parts do one after another. -/
theorem actsAs_parts (u : EntryUpdate) : ActsAs (applyUpdate u) u.parts := by
  cases u with
  | replace title note username secret extra totp =>
      have hlt : ∀ {α : Type} (o : Option α) (part : α → EntryUpdate),
          (∀ a, (part a).rank < 6) → ∀ u ∈ o.toList.map part, u.rank < 6 :=
        fun _ _ h => rank_lt_of_mem_optional h
      have htotp := (actsAs_ifSome totp fun t => actsAs_single (.setTotp t)).bind actsAs_nil
        (hlt totp .setTotp fun _ => by simp [rank])
      have hextra := (actsAs_ifSome extra actsAs_applySetExtra).bind htotp
        (hlt extra .setExtra fun _ => by simp [rank])
      have hsecret := (actsAs_ifSome secret fun s => actsAs_single (.setSecret s)).bind hextra
        (hlt secret .setSecret fun _ => by simp [rank])
      have husername := (actsAs_ifSome username actsAs_applySetUsername).bind hsecret
        (hlt username .setUsername fun _ => by simp [rank])
      have hnote := (actsAs_ifSome note actsAs_applySetNote).bind husername
        (hlt note .setNote fun _ => by simp [rank])
      have htitle := (actsAs_ifSome title actsAs_applySetTitle).bind hnote
        (hlt title .setTitle fun _ => by simp [rank])
      rw [parts, List.append_assoc, List.append_assoc, List.append_assoc, List.append_assoc,
        ← List.append_nil (totp.toList.map EntryUpdate.setTotp)]
      exact htitle
  | _ => exact actsAs_single _

/-- The parts of an update are in strictly increasing position, so no field is set twice. -/
theorem pairwise_rank_parts (u : EntryUpdate) :
    u.parts.Pairwise (fun p q => p.rank < q.rank) := by
  cases u with
  | replace title note username secret extra totp =>
      cases title <;> cases note <;> cases username <;> cases secret <;> cases extra <;>
        cases totp <;> simp [parts, rank]
  | _ => simp [parts]

theorem rank_lt_of_mem_parts {u p : EntryUpdate} (hp : p ∈ u.parts) : p.rank < 6 := by
  cases u with
  | replace title note username secret extra totp =>
      simp only [parts, List.mem_append, or_assoc, List.mem_map] at hp
      rcases hp with ⟨a, _, rfl⟩ | ⟨a, _, rfl⟩ | ⟨a, _, rfl⟩ | ⟨a, _, rfl⟩ | ⟨a, _, rfl⟩ |
        ⟨a, _, rfl⟩ <;> simp [rank]
  | _ =>
      cases List.mem_singleton.mp hp
      simp [rank]

/-! ## The first part that is refused -/

@[simp] theorem put_entryType (e : VaultEntry) (p : EntryUpdate) :
    (p.put e).metadata.entryType = e.metadata.entryType := by
  cases p with
  | setTotp t => cases t <;> rfl
  | _ => rfl

theorem put_totp (e : VaultEntry) {p : EntryUpdate} (hp : p.rank < 3) :
    (p.put e).secret.totp = e.secret.totp := by
  cases p with
  | setTitle t => rfl
  | setNote n => rfl
  | setUsername u => rfl
  | _ => simp [rank] at hp

/-- A part that comes later in an update is tested as on the original entry. -/
theorem test_put {e : VaultEntry} {p q : EntryUpdate} (hpq : p.rank < q.rank)
    (hq : q.rank < 6) : q.test (p.put e) = q.test e := by
  cases q with
  | setTitle t => rfl
  | setNote n => cases n <;> rfl
  | setUsername u => cases u <;> rfl
  | setSecret s => simp only [test, put_entryType, put_totp e hpq]
  | setExtra x => rfl
  | setTotp t => simp only [test, put_entryType]
  | replace => simp [rank] at hq

theorem writesFirst_put (e : VaultEntry) (p q : EntryUpdate) :
    q.WritesFirst (p.put e) ↔ q.WritesFirst e := by
  cases q with
  | setSecret s => simp only [WritesFirst, put_entryType]
  | setTotp t => cases t <;> simp only [WritesFirst, put_entryType]
  | _ => exact Iff.rfl

/-- Writing the fields of an update leaves the entry as it was exactly when the update carries
the values the entry holds. -/
theorem put_eq_self_iff (e : VaultEntry) (p : EntryUpdate) : p.put e = e ↔ ¬ p.Changes e := by
  obtain ⟨metadata, title, note, username, secret, extra, totp⟩ := e
  cases p with
  | setSecret s =>
      cases totp with
      | none => simp [put, Changes, eq_comm]
      | some t =>
          obtain ⟨issuer, accountName, secretB32, digits, periodSecs, algorithm⟩ := t
          simp [put, Changes, eq_comm]
  | setTotp t =>
      cases t with
      | none => simp [put, Changes, eq_comm]
      | some t =>
          simp [put, Changes]
          constructor
          · rintro ⟨rfl, rfl⟩
            exact ⟨rfl, rfl⟩
          · rintro ⟨rfl, rfl⟩
            exact ⟨rfl, rfl⟩
  | _ => simp [put, Changes, eq_comm]

/-- The fields of an earlier part survive the later parts. -/
theorem changes_put {e : VaultEntry} {p q : EntryUpdate} (hpq : p.rank < q.rank)
    (hq : q.rank < 5) : p.Changes (q.put e) ↔ p.Changes e := by
  cases p <;> cases q <;> simp_all [rank, Changes, put]

/-- The entry after the accepted parts `us`. -/
def putAll (e : VaultEntry) (us : List EntryUpdate) : VaultEntry := us.foldl put e

/-- Accepted parts leave the entry as it was exactly when each one carries the values that
the entry holds already. -/
theorem putAll_eq_self_iff {us : List EntryUpdate} (hrank : ∀ u ∈ us, u.rank < 5)
    (hsorted : us.Pairwise fun p q => p.rank < q.rank) (e : VaultEntry) :
    putAll e us = e ↔ ∀ p ∈ us, ¬ p.Changes e := by
  -- a field once written keeps its value, so the last entry agrees with every part
  have hkeep : ∀ (us : List EntryUpdate) (f : VaultEntry) (p : EntryUpdate),
      (∀ q ∈ us, p.rank < q.rank ∧ q.rank < 5) → (p.Changes (putAll f us) ↔ p.Changes f) := by
    intro us
    induction us with
    | nil => exact fun _ _ _ => Iff.rfl
    | cons q us ih =>
        intro f p hq
        have hhead := hq q (by simp)
        exact (ih (q.put f) p fun v hv => hq v (by simp [hv])).trans
          (changes_put hhead.1 hhead.2)
  induction us generalizing e with
  | nil => simp [putAll]
  | cons p us ih =>
      obtain ⟨hp, hus⟩ := List.pairwise_cons.mp hsorted
      have hlater : ∀ q ∈ us, p.rank < q.rank ∧ q.rank < 5 :=
        fun q hq => ⟨hp q hq, hrank q (by simp [hq])⟩
      have ih := ih (fun u hu => hrank u (by simp [hu])) hus
      have hcons : putAll e (p :: us) = putAll (p.put e) us := rfl
      constructor
      · intro h
        have hheld : ¬ p.Changes (p.put e) := by
          apply (put_eq_self_iff _ _).mp
          cases p with
          | setSecret s => cases he : e.secret.totp <;> simp [put, he]
          | setTotp t => cases t <;> rfl
          | _ => rfl
        have hsame : ¬ p.Changes e := by
          rw [← h, hcons, hkeep us _ p hlater]
          exact hheld
        have hput : p.put e = e := (put_eq_self_iff e p).mpr hsame
        have hrest : putAll e us = e := by rw [hcons, hput] at h; exact h
        intro q hq
        rcases List.mem_cons.mp hq with rfl | hq
        · exact hsame
        · exact (ih e).mp hrest q hq
      · intro h
        have hput : p.put e = e := (put_eq_self_iff e p).mpr (h p (by simp))
        rw [hcons, hput]
        exact (ih e).mpr fun q hq => h q (by simp [hq])

theorem putAll_valid {us : List EntryUpdate} (hrank : ∀ u ∈ us, u.rank < 6)
    (hsorted : us.Pairwise fun p q => p.rank < q.rank) {e : VaultEntry} (he : e.Valid)
    (h : ∀ p ∈ us, p.test e = .ok ()) : (putAll e us).Valid := by
  induction us generalizing e with
  | nil => exact he
  | cons p us ih =>
      obtain ⟨hp, hus⟩ := List.pairwise_cons.mp hsorted
      have htests : ∀ q ∈ us, q.test (p.put e) = .ok () := by
        intro q hq
        rw [test_put (hp q hq) (hrank q (by simp [hq]))]
        exact h q (by simp [hq])
      exact ih (fun u hu => hrank u (by simp [hu])) hus (put_valid he (h p (by simp))) htests

/-- Sorted updates run past the accepted ones, each of which is tested on the first entry. -/
theorem run_applyEach_append_of_accepted {us vs : List EntryUpdate}
    (hrank : ∀ u ∈ us ++ vs, u.rank < 6)
    (hsorted : (us ++ vs).Pairwise fun p q => p.rank < q.rank) {e : VaultEntry} (he : e.Valid)
    (h : ∀ p ∈ us, p.test e = .ok ()) :
    (applyEach (us ++ vs)).run e = (applyEach vs).run (putAll e us) := by
  induction us generalizing e with
  | nil => rfl
  | cons p us ih =>
      obtain ⟨hp, hus⟩ := List.pairwise_cons.mp hsorted
      have hhead := h p (by simp)
      have htests : ∀ q ∈ us, q.test (p.put e) = .ok () := by
        intro q hq
        rw [test_put (hp q (by simp [hq])) (hrank q (by simp [hq]))]
        exact h q (by simp [hq])
      rw [List.cons_append, run_applyEach_cons_ok he (hrank p (by simp)) hhead]
      exact ih (fun u hu => hrank u (by simp [hu])) hus (put_valid he hhead) htests

/-- The update is refused at its part `r`, after the parts `pre` have been accepted. -/
structure FailsAt (e : VaultEntry) (u : EntryUpdate) (pre : List EntryUpdate)
    (r : EntryUpdate) : Prop where
  split : ∃ post, u.parts = pre ++ r :: post
  accepted : ∀ p ∈ pre, p.test e = .ok ()
  refused : r.test e ≠ .ok ()

/-- Every part of the update is accepted. -/
def Accepted (e : VaultEntry) (u : EntryUpdate) : Prop := ∀ p ∈ u.parts, p.test e = .ok ()

theorem Accepted.putAll_valid {e : VaultEntry} {u : EntryUpdate} (h : u.Accepted e)
    (he : e.Valid) : (putAll e u.parts).Valid :=
  EntryUpdate.putAll_valid (fun _ hp => rank_lt_of_mem_parts hp) (pairwise_rank_parts u) he h

theorem accepted_or_failsAt (e : VaultEntry) (u : EntryUpdate) :
    u.Accepted e ∨ ∃ pre r, FailsAt e u pre r := by
  by_cases h : u.Accepted e
  · exact Or.inl h
  · right
    cases hfind : u.parts.find? fun p => decide (p.test e ≠ .ok ()) with
    | none =>
        refine absurd ?_ h
        intro p hp
        simpa using List.find?_eq_none.mp hfind p hp
    | some r =>
        obtain ⟨hr, pre, post, hsplit, hpre⟩ := List.find?_eq_some_iff_append.mp hfind
        exact ⟨pre, r, ⟨⟨post, hsplit⟩, fun p hp => by simpa using hpre p hp, by simpa using hr⟩⟩

namespace FailsAt

variable {e : VaultEntry} {u r : EntryUpdate} {pre : List EntryUpdate}

theorem rank_lt (h : FailsAt e u pre r) : ∀ p ∈ pre, p.rank < r.rank ∧ r.rank < 6 := by
  obtain ⟨post, hsplit⟩ := h.split
  have hsorted := pairwise_rank_parts u
  rw [hsplit] at hsorted
  intro p hp
  have hr : r ∈ u.parts := by simp [hsplit]
  exact ⟨(List.pairwise_append.mp hsorted).2.2 p hp r (by simp), rank_lt_of_mem_parts hr⟩

theorem sorted (h : FailsAt e u pre r) : pre.Pairwise fun p q => p.rank < q.rank := by
  obtain ⟨post, hsplit⟩ := h.split
  have hsorted := pairwise_rank_parts u
  rw [hsplit] at hsorted
  exact (List.pairwise_append.mp hsorted).1

theorem putAll_valid (h : FailsAt e u pre r) (he : e.Valid) : (putAll e pre).Valid :=
  EntryUpdate.putAll_valid (fun p hp => Nat.lt_trans (h.rank_lt p hp).1 (h.rank_lt p hp).2)
    h.sorted he h.accepted

theorem test_putAll (h : FailsAt e u pre r) :
    r.test (putAll e pre) = r.test e ∧ (r.WritesFirst (putAll e pre) ↔ r.WritesFirst e) := by
  have hlt := h.rank_lt
  clear h
  induction pre generalizing e with
  | nil => exact ⟨rfl, Iff.rfl⟩
  | cons p pre ih =>
      obtain ⟨htest, hfirst⟩ := ih (e := p.put e) fun q hq => hlt q (by simp [hq])
      have hp := hlt p (by simp)
      exact ⟨htest.trans (test_put hp.1 hp.2), hfirst.trans (writesFirst_put e p r)⟩

/-- A refused update answers the error of the refused part. The accepted parts stay written,
and so does what the refused part wrote first. -/
theorem run_applyUpdate (h : FailsAt e u pre r) (he : e.Valid) :
    ∃ err, r.test e = .error err ∧ (applyUpdate u).run e =
      (.error err, if r.WritesFirst e then r.smear (putAll e pre) else putAll e pre) := by
  obtain ⟨post, hsplit⟩ := h.split
  obtain ⟨err, herr⟩ : ∃ err, r.test e = .error err := by
    cases htest : r.test e with
    | ok a => exact absurd htest h.refused
    | error err => exact ⟨err, rfl⟩
  obtain ⟨htest, hfirst⟩ := h.test_putAll
  refine ⟨err, herr, ?_⟩
  rw [actsAs_parts u e he, hsplit, run_applyEach_append_of_accepted _ _ he h.accepted,
    run_applyEach_cons_error (h.putAll_valid he) (htest.trans herr)]
  · simp only [hfirst]
  · exact fun p hp => rank_lt_of_mem_parts (by rw [hsplit]; exact hp)
  · exact hsplit ▸ pairwise_rank_parts u

end FailsAt

/-- An accepted update writes the fields of its parts. -/
theorem run_applyUpdate_of_accepted {e : VaultEntry} {u : EntryUpdate} (he : e.Valid)
    (h : u.Accepted e) : (applyUpdate u).run e = (.ok (), putAll e u.parts) := by
  have hrun : (applyEach (u.parts ++ [])).run e = (applyEach []).run (putAll e u.parts) :=
    run_applyEach_append_of_accepted
      (by simpa using fun p hp => rank_lt_of_mem_parts hp) (by simpa using pairwise_rank_parts u)
      he h
  rw [List.append_nil] at hrun
  rw [actsAs_parts u e he, hrun]
  rfl

/-- The update is refused by an arm that has written the TOTP block already. -/
def BricksOn (e : VaultEntry) (u : EntryUpdate) : Prop :=
  ∃ pre r, FailsAt e u pre r ∧ r.WritesFirst e

/-- The update is refused after it changed the entry: by an arm that writes first, or after an
accepted part that carries a new value. -/
def TornOn (e : VaultEntry) (u : EntryUpdate) : Prop :=
  ∃ pre r, FailsAt e u pre r ∧ (r.WritesFirst e ∨ ∃ p ∈ pre, p.Changes e)

theorem failsAt_unique {e : VaultEntry} {u r r' : EntryUpdate} {pre pre' : List EntryUpdate}
    (h : FailsAt e u pre r) (h' : FailsAt e u pre' r') : pre = pre' ∧ r = r' := by
  obtain ⟨post, hsplit⟩ := h.split
  obtain ⟨post', hsplit'⟩ := h'.split
  have heq : pre ++ r :: post = pre' ++ r' :: post' := hsplit.symm.trans hsplit'
  clear hsplit hsplit'
  have hacc := h.accepted
  have hacc' := h'.accepted
  have hr := h.refused
  have hr' := h'.refused
  clear h h'
  induction pre generalizing pre' with
  | nil =>
      cases pre' with
      | nil => exact ⟨rfl, (List.cons.inj heq).1⟩
      | cons q pre' =>
          obtain ⟨rfl, _⟩ := List.cons.inj heq
          exact absurd (hacc' r (by simp)) hr
  | cons p pre ih =>
      cases pre' with
      | nil =>
          obtain ⟨rfl, _⟩ := List.cons.inj heq
          exact absurd (hacc p (by simp)) hr'
      | cons q pre' =>
          obtain ⟨rfl, htail⟩ := List.cons.inj heq
          obtain ⟨rfl, rfl⟩ := ih htail (fun p hp => hacc p (by simp [hp]))
            (fun p hp => hacc' p (by simp [hp]))
          exact ⟨rfl, rfl⟩

theorem FailsAt.not_accepted {e : VaultEntry} {u r : EntryUpdate} {pre : List EntryUpdate}
    (h : FailsAt e u pre r) : ¬ u.Accepted e := by
  obtain ⟨post, hsplit⟩ := h.split
  exact fun hacc => h.refused (hacc r (by simp [hsplit]))

/-- An update that answers `Ok` was accepted in each of its parts. -/
theorem accepted_of_run_ok {e : VaultEntry} {u : EntryUpdate} (he : e.Valid)
    (h : ((applyUpdate u).run e).1 = .ok ()) : u.Accepted e := by
  rcases accepted_or_failsAt e u with hacc | ⟨pre, r, hfail⟩
  · exact hacc
  · obtain ⟨err, _, hrun⟩ := hfail.run_applyUpdate he
    rw [hrun] at h
    cases h

/-- An update that answers `Ok` leaves a valid entry. -/
theorem valid_of_run_applyUpdate {e : VaultEntry} {u : EntryUpdate} (he : e.Valid)
    (h : ((applyUpdate u).run e).1 = .ok ()) : ((applyUpdate u).run e).2.Valid := by
  have hacc := accepted_of_run_ok he h
  rw [run_applyUpdate_of_accepted he hacc]
  exact hacc.putAll_valid he

/-- An update leaves the entry valid unless it is refused by an arm that wrote first. -/
theorem valid_run_applyUpdate_iff {e : VaultEntry} (u : EntryUpdate) (he : e.Valid) :
    ((applyUpdate u).run e).2.Valid ↔ ¬ u.BricksOn e := by
  rcases accepted_or_failsAt e u with hacc | ⟨pre, r, hfail⟩
  · have hvalid : (putAll e u.parts).Valid :=
      putAll_valid (fun p hp => rank_lt_of_mem_parts hp) (pairwise_rank_parts u) he hacc
    have hbricks : ¬ u.BricksOn e := by
      rintro ⟨pre, r, hfail, _⟩
      exact hfail.not_accepted hacc
    simp [run_applyUpdate_of_accepted he hacc, hvalid, hbricks]
  · obtain ⟨err, herr, hrun⟩ := hfail.run_applyUpdate he
    have hbricks : u.BricksOn e ↔ r.WritesFirst e := by
      constructor
      · rintro ⟨pre', r', hfail', hw⟩
        obtain ⟨_, rfl⟩ := failsAt_unique hfail hfail'
        exact hw
      · exact fun hw => ⟨pre, r, hfail, hw⟩
    rw [hbricks, hrun]
    by_cases hw : r.WritesFirst e
    · obtain ⟨htest, hfirst⟩ := hfail.test_putAll
      have hsmear := smear_not_valid (hfail.putAll_valid he) (htest.trans herr) (hfirst.mpr hw)
      simp [hw, hsmear]
    · simp [hw, hfail.putAll_valid he]

/-- A refused update leaves the entry as it was exactly when it is not torn. -/
theorem run_error_eq_self_iff {e e' : VaultEntry} {u : EntryUpdate} {err : EntryError}
    (he : e.Valid) (h : (applyUpdate u).run e = (.error err, e')) : e' = e ↔ ¬ u.TornOn e := by
  rcases accepted_or_failsAt e u with hacc | ⟨pre, r, hfail⟩
  · simp [run_applyUpdate_of_accepted he hacc] at h
  · obtain ⟨err', _, hrun⟩ := hfail.run_applyUpdate he
    have he' := (Prod.mk.inj (h.symm.trans hrun)).2
    have htorn : u.TornOn e ↔ r.WritesFirst e ∨ ∃ p ∈ pre, p.Changes e := by
      constructor
      · rintro ⟨pre', r', hfail', hw⟩
        obtain ⟨rfl, rfl⟩ := failsAt_unique hfail hfail'
        exact hw
      · exact fun hw => ⟨pre, r, hfail, hw⟩
    by_cases hw : r.WritesFirst e
    · have hbad : ¬ e'.Valid := by
        have hiff := valid_run_applyUpdate_iff u he
        rw [h] at hiff
        exact fun hvalid => hiff.mp hvalid ⟨pre, r, hfail, hw⟩
      have hne : e' ≠ e := fun heq => hbad (heq ▸ he)
      simp [htorn, hw, hne]
    · have hrank : ∀ p ∈ pre, p.rank < 5 := fun p hp => by
        have hlt := hfail.rank_lt p hp
        omega
      rw [he', if_neg hw, htorn, putAll_eq_self_iff hrank hfail.sorted]
      simp [hw]

end EntryUpdate

end ViperVault
