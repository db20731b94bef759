import ViperVault.Entries.Constructors
import ViperVault.Entries.Written

/-!
# The validators of the fields

Each constructor validates the texts it stores. An update chooses the validator of a new secret by
the type of the entry, and has none for the secret of a secure note: the validators hold along a
run exactly if no update brings such an entry a secret that is no note.
-/

namespace ViperVault

open Foundation Entries VaultEntry

/-- The fields of an entry pass the validators that the constructor of its type applies. -/
structure Guarded (entry : VaultEntry) : Prop where
  title : validateTitle entry.secret.title.exposeSecret = .ok ()
  note : ∀ n, entry.secret.note = some n → validateNote n.exposeSecret = .ok ()
  username : ∀ u, entry.secret.username = some u → validateUsername u.exposeSecret = .ok ()
  password : entry.metadata.entryType = .password →
    validatePassword entry.secret.secret.exposeSecret = .ok ()
  secureNote : entry.metadata.entryType = .secureNote →
    validateNote entry.secret.secret.exposeSecret = .ok ()
  totp : entry.metadata.entryType = .totp →
    ∃ t, entry.secret.totp = some t ∧ t.validate = .ok ()

/-- A validated optional text, in its secret wrapper. -/
theorem validate_of_map_mk {validate : Text → Except EntryError Unit} {o : Option Text}
    (h : ∀ s ∈ o, validate s = .ok ()) (s : SecretString) (hs : o.map .mk = some s) :
    validate s.exposeSecret = .ok () := by
  obtain ⟨t, ht, rfl⟩ := Option.map_eq_some_iff.mp hs
  exact h t ht

theorem VaultEntry.Constructed.guarded {entry : VaultEntry} (h : entry.Constructed) :
    Guarded entry := by
  cases h with
  | newPassword id title username password note h =>
      obtain ⟨htitle, hnote, husername, hpassword, rfl⟩ := newPassword_eq_ok h
      exact {
        title := htitle
        note := validate_of_map_mk hnote
        username := validate_of_map_mk husername
        password := fun _ => hpassword
        secureNote := by simp
        totp := by simp }
  | newSecureNote id title note h =>
      obtain ⟨htitle, hnote, rfl⟩ := newSecureNote_eq_ok h
      exact {
        title := htitle
        note := by simpa using hnote
        username := by simp
        password := by simp
        secureNote := fun _ => hnote
        totp := by simp }
  | newTotp id title totp note h =>
      obtain ⟨htitle, hnote, htotp, rfl⟩ := newTotp_eq_ok h
      exact {
        title := htitle
        note := validate_of_map_mk hnote
        username := by simp
        password := by simp
        secureNote := by simp
        totp := fun _ => ⟨_, rfl, htotp⟩ }

/-! ## Updates -/

/-- The update brings no primary secret that is no note. -/
def KeepsNoteRules (u : EntryUpdate) : Prop := ∀ s, u.newSecret = some s → validateNote s = .ok ()

/-- An optional text after an update, where the old one and the new one are validated. -/
theorem validate_elim {validate : Text → Except EntryError Unit} {old : Option SecretString}
    {new : Option (Option Text)} (hold : ∀ s, old = some s → validate s.exposeSecret = .ok ())
    (hnew : ∀ s, new = some (some s) → validate s = .ok ()) (s : SecretString)
    (hs : new.elim old (Option.map .mk) = some s) : validate s.exposeSecret = .ok () := by
  cases new with
  | none => exact hold s hs
  | some n => exact validate_of_map_mk (fun t ht => hnew t (congrArg some ht)) s hs

/-- A required text after an update, where the old one and the new one are validated. -/
theorem validate_elim_mk {validate : Text → Except EntryError Unit} {old : SecretString}
    {new : Option Text} (hold : validate old.exposeSecret = .ok ())
    (hnew : ∀ s, new = some s → validate s = .ok ()) :
    validate (new.elim old .mk).exposeSecret = .ok () := by
  cases new with
  | none => exact hold
  | some s => exact hnew s rfl

section Step

variable {e e' : VaultEntry} {u : EntryUpdate}

/-- The validators that an accepted update keeps, and the one it may not keep. -/
theorem guarded_of_accepted (he : e.Valid) (hguarded : Guarded e) (hacc : u.Accepted e)
    (hnote : e.metadata.entryType = .secureNote → KeepsNoteRules u) :
    Guarded (EntryUpdate.putAll e u.parts) := by
  obtain ⟨htitle, hnotes, husername⟩ := EntryUpdate.texts_putAll_parts e u
  have hvalid : (EntryUpdate.putAll e u.parts).Valid := hacc.putAll_valid he
  refine { title := ?_, note := ?_, username := ?_, password := ?_, secureNote := ?_, totp := ?_ }
  · rw [htitle]
    exact validate_elim_mk hguarded.title fun t ht => hacc _ (EntryUpdate.setTitle_mem_parts ht)
  · rw [hnotes]
    exact validate_elim hguarded.note fun n hn => hacc _ (EntryUpdate.setNote_mem_parts hn)
  · rw [husername]
    exact validate_elim hguarded.username fun n hn =>
      hacc _ (EntryUpdate.setUsername_mem_parts hn)
  · rw [EntryUpdate.putAll_entryType]
    intro htype
    rw [EntryUpdate.secret_putAll_parts hacc (by simp [htype])]
    refine validate_elim_mk (hguarded.password htype) fun s hs => ?_
    simpa [EntryUpdate.test, htype] using hacc _ (EntryUpdate.setSecret_mem_parts hs)
  · rw [EntryUpdate.putAll_entryType]
    intro htype
    rw [EntryUpdate.secret_putAll_parts hacc (by simp [htype])]
    exact validate_elim_mk (hguarded.secureNote htype) (hnote htype)
  · intro htype
    rcases (valid_iff _).mp hvalid with ⟨-, t, ht, hcheck⟩ | ⟨hother, -⟩
    · exact ⟨t, ht, hcheck⟩
    · exact absurd htype hother

/-- The step: an accepted update keeps all validators exactly if it brings a secure note no secret
that is no note. -/
theorem guarded_applied_iff (he : e.Valid) (hguarded : Guarded e)
    (h : EntryUpdate.applied e u = some e') :
    Guarded e' ↔ (e.metadata.entryType = .secureNote → KeepsNoteRules u) := by
  obtain ⟨hacc, rfl⟩ := EntryUpdate.applied_eq_some he h
  refine ⟨fun hafter htype s hs => ?_, guarded_of_accepted he hguarded hacc⟩
  have hsecret := hafter.secureNote ((EntryUpdate.putAll_entryType e _).trans htype)
  rw [EntryUpdate.secret_putAll_parts hacc (by simp [htype]), hs] at hsecret
  exact hsecret

end Step

/-- Along a run of accepted updates the validators of the constructors hold in every state exactly
if the entry is no secure note or no update sets its secret to a text that is no note. -/
theorem guarded_of_run_iff {entry : VaultEntry} {updates : List EntryUpdate}
    (hentry : entry.Constructed)
    (hrun : ∃ last, exec EntryUpdate.applied entry updates = some last) :
    (∀ pre e, pre <+: updates → exec EntryUpdate.applied entry pre = some e → Guarded e) ↔
      (entry.metadata.entryType = .secureNote → ∀ u ∈ updates, KeepsNoteRules u) := by
  have hvalid := hentry.valid
  have htypes : ∀ (e : VaultEntry) (p : EntryUpdate), e.Valid → p.test e = .ok () →
      e.metadata.entryType = entry.metadata.entryType →
      (p.put e).metadata.entryType = entry.metadata.entryType :=
    fun e p _ _ htype => (EntryUpdate.put_entryType e p).trans htype
  have hiff := invariant_iff_everyStep (fun _ _ => True)
    (fun _ u => entry.metadata.entryType = .secureNote → KeepsNoteRules u)
    (fun e => (e.Valid ∧ e.metadata.entryType = entry.metadata.entryType) ∧ Guarded e) ?_
    ⟨⟨hvalid, rfl⟩, hentry.guarded⟩ everyStep_true hrun
  · rw [everyStep_iff_forall_mem hrun] at hiff
    constructor
    · intro h htype u hu
      refine hiff.mp (fun pre e hpre he => ⟨?_, h pre e hpre he⟩) u hu htype
      exact EntryUpdate.exec_applied_invariant _ htypes hvalid rfl he
    · intro h pre e hpre he
      exact (hiff.mpr (fun u hu htype => h htype u hu) pre e hpre he).2
  · intro e u e' hinv _ hstep
    obtain ⟨⟨hvalid, htype⟩, hguarded⟩ := hinv
    have hstepped := EntryUpdate.applied_invariant _ htypes hvalid htype hstep
    have hstep := guarded_applied_iff hvalid hguarded hstep
    rw [htype] at hstep
    exact (and_iff_right hstepped).trans hstep

/-- The theorem on a secure note whose secret is set to another text that may be a note. -/
theorem guarded_of_run_iff_setSecret :
    ∃ last, exec EntryUpdate.applied EntryUpdate.sampleNote [.setSecret "new".toList] = some last ∧
      ((∀ pre e, pre <+: [.setSecret "new".toList] →
          exec EntryUpdate.applied EntryUpdate.sampleNote pre = some e → Guarded e) ↔
        (EntryUpdate.sampleNote.metadata.entryType = .secureNote →
          ∀ u ∈ [EntryUpdate.setSecret "new".toList], KeepsNoteRules u)) := by
  have hnew : newSecureNote 1 "note".toList "classified".toList = .ok EntryUpdate.sampleNote := rfl
  obtain ⟨last, hlast⟩ : ∃ last, exec EntryUpdate.applied EntryUpdate.sampleNote
      [.setSecret "new".toList] = some last := ⟨_, rfl⟩
  exact ⟨last, hlast, guarded_of_run_iff (.newSecureNote _ _ _ hnew) ⟨last, hlast⟩⟩

/-- The empty text is no note, and a secure note takes it as its secret. -/
theorem setSecret_empty_accepted :
    newSecureNote 1 "note".toList "classified".toList = .ok EntryUpdate.sampleNote ∧
      ∃ last, exec EntryUpdate.applied EntryUpdate.sampleNote [.setSecret []] = some last ∧
        ¬ Guarded last := by
  refine ⟨rfl, _, rfl, fun h => ?_⟩
  have hnote := h.secureNote rfl
  cases hnote

end ViperVault
