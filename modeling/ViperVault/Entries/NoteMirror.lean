import ViperVault.Core.Concurrent
import ViperVault.Entries.FieldGuards

/-!
# The mirrored note

A secure note holds its text twice, as its note and as its primary secret. An update writes one of
the two; the other keeps the old text unless the update, or the entry, already has it the same.
-/

namespace ViperVault

open Foundation Entries VaultEntry EntryUpdate

/-- The entry holds the text, as its note or as its primary secret. -/
def HoldsNote (entry : VaultEntry) (text : Text) : Prop :=
  entry.secret.note = some ⟨text⟩ ∨ entry.secret.secret = ⟨text⟩

/-- The note that the entry shows is its primary secret, is what it reveals and copies, and is the
only text it holds as a note. -/
structure ShowsNote (entry : VaultEntry) (text : Text) : Prop where
  note : entry.secret.note = some ⟨text⟩
  secret : entry.secret.secret = ⟨text⟩
  revealed : ∀ env st id, getEntry env.serde id st = .ok entry.toView →
    (DisclosureRequest.revealEntrySecret id).read env st = .ok (.secret ⟨text⟩)
  copied : ∀ env st id timeout, getEntry env.serde id st = .ok entry.toView →
    (DisclosureRequest.copyEntrySecret id timeout).read env st = .ok (.clipboard ⟨text⟩)
  current : ∀ other, HoldsNote entry other → other = text

/-- The update writes note and secret alike: both to the same text, or one of them to the text
that the entry shows, or neither. -/
def WritesNoteAlike (entry : VaultEntry) (u : EntryUpdate) : Prop :=
  match u.newNote, u.newSecret with
  | none, none => True
  | some n, none => n.map .mk = entry.secret.note
  | none, some s => entry.secret.note = some ⟨s⟩
  | some n, some s => n = some s

/-- What every accepted update keeps of a secure note, whatever it writes. -/
structure IsNote (entry : VaultEntry) : Prop where
  valid : entry.Valid
  entryType : entry.metadata.entryType = .secureNote
  validated : ∀ n, entry.secret.note = some n → validateNote n.exposeSecret = .ok ()

theorem isNote_applied {e e' : VaultEntry} {u : EntryUpdate} (he : IsNote e)
    (h : applied e u = some e') : IsNote e' := by
  obtain ⟨hacc, rfl⟩ := applied_eq_some he.valid h
  refine ⟨hacc.putAll_valid he.valid, (putAll_entryType e _).trans he.entryType, ?_⟩
  rw [(texts_putAll_parts e u).2.1]
  exact validate_elim he.validated fun n hn => hacc _ (setNote_mem_parts hn)

/-- A text that may be a note is not empty. -/
theorem ne_nil_of_validateNote {text : Text} (h : validateNote text = .ok ()) : text ≠ [] := by
  rintro rfl
  cases h

/-- An entry shows its note as soon as its two copies agree. -/
theorem exists_showsNote_iff {e : VaultEntry} (he : IsNote e) :
    (∃ text, ShowsNote e text) ↔ e.secret.note = some e.secret.secret := by
  constructor
  · rintro ⟨text, h⟩
    rw [h.note, h.secret]
  · intro hmirror
    have hne : e.secret.secret.exposeSecret ≠ [] :=
      ne_nil_of_validateNote (he.validated _ hmirror)
    refine ⟨e.secret.secret.exposeSecret, hmirror, rfl, ?_, ?_, ?_⟩
    · exact fun env st id hget => read_revealEntrySecret hget hne
    · exact fun env st id timeout hget => read_copyEntrySecret timeout hget hne
    · rintro other (hnote | hsecret)
      · rw [hmirror] at hnote
        exact congrArg SecretString.exposeSecret (Option.some.inj hnote).symm
      · exact congrArg SecretString.exposeSecret hsecret.symm

/-- The step: an accepted update keeps the two copies alike exactly if it writes them alike. -/
theorem mirror_applied_iff {e e' : VaultEntry} {u : EntryUpdate} (he : IsNote e)
    (hmirror : e.secret.note = some e.secret.secret) (h : applied e u = some e') :
    e'.secret.note = some e'.secret.secret ↔ WritesNoteAlike e u := by
  obtain ⟨hacc, rfl⟩ := applied_eq_some he.valid h
  rw [(texts_putAll_parts e u).2.1, secret_putAll_parts hacc (by simp [he.entryType]),
    WritesNoteAlike]
  cases u.newNote with
  | none =>
      cases u.newSecret with
      | none => simpa using hmirror
      | some s => exact Iff.rfl
  | some n =>
      cases u.newSecret with
      | none => simp [hmirror]
      | some s => cases n <;> simp

/-- What `new_secure_note` builds. -/
theorem isNote_newSecureNote {id : Uuid} {title note : Text} {entry : VaultEntry}
    (h : newSecureNote id title note = .ok entry) :
    IsNote entry ∧ entry.secret.note = some entry.secret.secret := by
  obtain ⟨-, hnote, rfl⟩ := newSecureNote_eq_ok h
  refine ⟨⟨rfl, rfl, fun n hn => ?_⟩, rfl⟩
  cases hn
  exact hnote

/-- Along a run of accepted updates a secure note shows one text in every state exactly if every
update writes note and secret alike. -/
theorem showsNote_of_run_iff {id : Uuid} {title note : Text} {entry : VaultEntry}
    {updates : List EntryUpdate} (hnew : newSecureNote id title note = .ok entry)
    (hrun : ∃ last, exec applied entry updates = some last) :
    (∀ pre e, pre <+: updates → exec applied entry pre = some e → ∃ text, ShowsNote e text) ↔
      EveryStep applied WritesNoteAlike entry updates := by
  obtain ⟨hentry, hmirror⟩ := isNote_newSecureNote hnew
  have hiff := invariant_iff_everyStep (fun _ _ => True) WritesNoteAlike
    (fun e => IsNote e ∧ ∃ text, ShowsNote e text) ?_
    ⟨hentry, (exists_showsNote_iff hentry).mpr hmirror⟩ everyStep_true hrun
  · rw [← hiff]
    constructor
    · intro h pre e hpre he
      have hkept := exec_invariant IsNote (fun _ _ _ hs => isNote_applied hs) hentry he
      exact ⟨hkept, h pre e hpre he⟩
    · intro h pre e hpre he
      exact (h pre e hpre he).2
  · rintro e u e' ⟨he, hshown⟩ - hstep
    have he' := isNote_applied he hstep
    rw [and_iff_right he', exists_showsNote_iff he']
    exact mirror_applied_iff he ((exists_showsNote_iff he).mp hshown) hstep

/-- The theorem on a note that is replaced as a whole. -/
theorem showsNote_of_run_iff_replace :
    newSecureNote 1 "note".toList "classified".toList = .ok sampleNote ∧
      ∃ last, exec applied sampleNote
          [.replace none (some (some "new".toList)) none (some "new".toList) none none] =
            some last ∧
        ((∀ pre e,
            pre <+: [.replace none (some (some "new".toList)) none (some "new".toList) none none] →
            exec applied sampleNote pre = some e → ∃ text, ShowsNote e text) ↔
          EveryStep applied WritesNoteAlike sampleNote
            [.replace none (some (some "new".toList)) none (some "new".toList) none none]) := by
  have hnew : newSecureNote 1 "note".toList "classified".toList = .ok sampleNote := rfl
  obtain ⟨last, hlast⟩ : ∃ last, exec applied sampleNote
      [.replace none (some (some "new".toList)) none (some "new".toList) none none] =
        some last := ⟨_, rfl⟩
  exact ⟨hnew, last, hlast, showsNote_of_run_iff hnew ⟨last, hlast⟩⟩

/-- A new note leaves the superseded text as the primary secret, which is what the entry then
reveals. -/
theorem setNote_keeps_superseded :
    newSecureNote 1 "note".toList "classified".toList = .ok sampleNote ∧
      ∃ last, exec applied sampleNote [.setNote (some "new".toList)] = some last ∧
        last.secret.note = some ⟨"new".toList⟩ ∧ (¬ ∃ text, ShowsNote last text) ∧
        ∀ env st id, getEntry env.serde id st = .ok last.toView →
          (DisclosureRequest.revealEntrySecret id).read env st =
            .ok (.secret ⟨"classified".toList⟩) := by
  refine ⟨rfl, _, rfl, rfl, ?_, ?_⟩
  · rintro ⟨text, h⟩
    have hnew := h.current "new".toList (Or.inl rfl)
    have hold := h.current "classified".toList (Or.inr rfl)
    cases hnew.trans hold.symm
  · exact fun env st id hget => read_revealEntrySecret hget (List.cons_ne_nil _ _)

end ViperVault
