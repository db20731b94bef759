import ViperVault.Core.Entries
import ViperVault.Entries.Constructors
import ViperVault.Entries.Json
import ViperVault.Foundation.Results
import ViperVault.Foundation.Runs

/-!
# The in-memory store over whole runs

Which calls can leave the payload changed although they answer an error, and which calls can
leave JSON that no longer decodes. Both come from `update_entry_fields` alone; every other
call checks before it writes, or writes nothing different.
-/

namespace ViperVault

open Foundation

namespace StoreCall

/-- The call is a field update whose target entry it tears. -/
def TornOn (p : VaultPayload) : StoreCall → Prop
  | .updateEntryFields entryId update =>
      ∃ e, p.entries.find? (fun e => e.metadata.id == entryId) = some e ∧ update.TornOn e
  | _ => False

/-- The call is a field update that leaves its target entry invalid. -/
def BricksOn (p : VaultPayload) : StoreCall → Prop
  | .updateEntryFields entryId update =>
      ∃ e, p.entries.find? (fun e => e.metadata.id == entryId) = some e ∧ update.BricksOn e
  | _ => False

end StoreCall

/-- The entries that the call brings along were built by the constructors. -/
def StoreCall.Constructed : StoreCall → Prop
  | .addEntry entry => entry.Constructed
  | .updateEntry _ newEntry => newEntry.Constructed
  | _ => True

/-! ## The closures -/

theorem run_onFound_of_none {p : VaultPayload} {entryId : Uuid}
    (body : Mut VaultEntry EntryError Unit)
    (h : p.entries.find? (fun e => e.metadata.id == entryId) = none) :
    (onFound entryId body).run p = (.error .entryNotFound, p) := by
  have hfind : findMut entryId body p.entries = none := findMut_eq_none_iff.mpr h
  simp only [onFound, Mut.run, hfind]

/-- The closure answers what the body answers on the found entry, and writes only there. -/
theorem run_onFound_of_some {p : VaultPayload} {entryId : Uuid} {e : VaultEntry}
    (body : Mut VaultEntry EntryError Unit)
    (h : p.entries.find? (fun e => e.metadata.id == entryId) = some e) :
    ∃ pre post, p.entries = pre ++ e :: post ∧
      (onFound entryId body).run p = ((body.run e).1, ⟨pre ++ (body.run e).2 :: post⟩) := by
  cases hfound : findMut entryId body p.entries with
  | none => simp [findMut_eq_none_iff.mp hfound] at h
  | some r =>
      obtain ⟨result, entries'⟩ := r
      obtain ⟨pre, e', post, hsplit, hfind, hrun, rfl⟩ := findMut_eq_some hfound
      obtain rfl : e = e' := Option.some.inj (h.symm.trans hfind)
      refine ⟨pre, post, hsplit, ?_⟩
      have hresult : (body.run e).1 = result := congrArg Prod.fst hrun
      simp only [onFound, Mut.run, hfound] at hresult ⊢
      rw [hresult]

theorem valid_of_find {p : VaultPayload} {entryId : Uuid} {e : VaultEntry} (hp : p.Valid)
    (h : p.entries.find? (fun e => e.metadata.id == entryId) = some e) : e.Valid :=
  hp e (List.mem_of_find?_eq_some h)

/-- Replacing one entry of a valid payload by a valid one is all that matters for validity. -/
theorem valid_replace_iff {p : VaultPayload} {pre post : List VaultEntry} {e e' : VaultEntry}
    (hp : p.Valid) (hsplit : p.entries = pre ++ e :: post) :
    VaultPayload.Valid ⟨pre ++ e' :: post⟩ ↔ e'.Valid := by
  constructor
  · intro h
    exact h e' (by simp)
  · intro he' f hf
    have hold : ∀ f ∈ pre ++ e :: post, f.Valid := hsplit ▸ hp
    simp only [List.mem_append, List.mem_cons] at hf hold
    rcases hf with hf | rfl | hf
    · exact hold f (Or.inl hf)
    · exact he'
    · exact hold f (Or.inr (Or.inr hf))

theorem run_mapError {σ ε ε' α : Type} (f : ε → ε') (m : Mut σ ε α) (s : σ) :
    (m.mapError f).run s = ((m.run s).1.mapError f, (m.run s).2) := rfl

theorem run_addEntryBody (entry : VaultEntry) (p : VaultPayload) :
    (addEntryBody entry).run p =
      if p.entries.any fun e => e.metadata.id == entry.metadata.id then (.error .duplicateEntry, p)
      else (.ok (), ⟨p.entries ++ [entry]⟩) := by
  unfold addEntryBody
  rw [Mut.run_bind_ok (Mut.run_read p)]
  split <;> rfl

theorem run_deleteEntryBody (entryId : Uuid) (p : VaultPayload) :
    (deleteEntryBody entryId).run p =
      if (p.entries.filter fun e => e.metadata.id != entryId) = p.entries then
        (.error .entryNotFound, p)
      else (.ok (), ⟨p.entries.filter fun e => e.metadata.id != entryId⟩) := by
  unfold deleteEntryBody
  rw [Mut.run_bind_ok (Mut.run_read p), Mut.run_bind_ok (Mut.run_write _ p),
    Mut.run_bind_ok (Mut.run_read _)]
  by_cases hkeep : (p.entries.filter fun e => e.metadata.id != entryId) = p.entries
  · simp [hkeep]
  · have hlength :
        (p.entries.filter fun e => e.metadata.id != entryId).length ≠ p.entries.length := by
      intro hlen
      exact hkeep (List.filter_eq_self.mpr (List.length_filter_eq_length_iff.mp hlen))
    simp [hkeep, hlength]

/-! ## Closures that fail without a trace -/

theorem atomic_mapError {σ ε ε' α : Type} (f : ε → ε') {m : Mut σ ε α} (hm : m.Atomic) :
    (m.mapError f).Atomic := by
  intro s err s' h
  rw [run_mapError] at h
  have hplace : (m.run s).2 = s' := congrArg Prod.snd h
  have hresult : (m.run s).1.mapError f = .error err := congrArg Prod.fst h
  cases hrun : (m.run s).1 with
  | ok a =>
      rw [hrun] at hresult
      cases hresult
  | error e => exact hm s e s' (Prod.ext hrun hplace)

theorem atomic_addEntryBody (entry : VaultEntry) : (addEntryBody entry).Atomic := by
  intro p err p' h
  rw [run_addEntryBody] at h
  split at h
  · exact (congrArg Prod.snd h).symm
  · cases h

/-- The closure that deletes has written before it fails, but nothing different. -/
theorem atomic_deleteEntryBody (entryId : Uuid) : (deleteEntryBody entryId).Atomic := by
  intro p err p' h
  rw [run_deleteEntryBody] at h
  split at h
  · exact (congrArg Prod.snd h).symm
  · cases h

/-- An atomic body stays so on the entry that is found. -/
theorem atomic_onFound {entryId : Uuid} {body : Mut VaultEntry EntryError Unit}
    (hbody : body.Atomic) : (onFound entryId body).Atomic := by
  intro p err p' h
  cases hfind : p.entries.find? (fun e => e.metadata.id == entryId) with
  | none =>
      rw [run_onFound_of_none body hfind] at h
      exact (congrArg Prod.snd h).symm
  | some e =>
      obtain ⟨pre, post, hsplit, hrun⟩ := run_onFound_of_some body hfind
      rw [hrun] at h
      have hresult : (body.run e).1 = .error err := congrArg Prod.fst h
      have hkept : (body.run e).2 = e := hbody e err _ (Prod.ext hresult rfl)
      calc p' = ⟨pre ++ (body.run e).2 :: post⟩ := (congrArg Prod.snd h).symm
        _ = p := by rw [hkept, ← hsplit]

/-! ## One call -/

namespace StoreCall

/-- Only a field update of a stored entry can write and then fail. -/
theorem body_error_of_not_updateEntryFields {p p' : VaultPayload} {call : StoreCall}
    {err : StoreError}
    (hcall : ∀ entryId update, call = .updateEntryFields entryId update →
      p.entries.find? (fun e => e.metadata.id == entryId) = none)
    (h : call.body.run p = (.error err, p')) : p' = p := by
  cases call with
  | addEntry entry => exact atomic_mapError _ (atomic_addEntryBody entry) p err p' h
  | updateEntry entryId newEntry =>
      exact atomic_mapError _ (atomic_onFound (Mut.atomic_write _)) p err p' h
  | updateEntryFields entryId update =>
      simp only [body, run_mapError, updateEntryFieldsBody] at h
      rw [run_onFound_of_none _ (hcall entryId update rfl)] at h
      exact (congrArg Prod.snd h).symm
  | deleteEntry entryId => exact atomic_mapError _ (atomic_deleteEntryBody entryId) p err p' h
  | commitQuarantineImport policy quarantined =>
      exact atomic_mapError _ (commit_atomic policy quarantined) p err p' h

/-- A field update of a stored entry runs `apply_update` on that entry. -/
theorem run_body_updateEntryFields {p : VaultPayload} {entryId : Uuid} {e : VaultEntry}
    (update : EntryUpdate)
    (h : p.entries.find? (fun e => e.metadata.id == entryId) = some e) :
    ∃ pre post, p.entries = pre ++ e :: post ∧
      (updateEntryFields entryId update).body.run p =
        (((VaultEntry.applyUpdate update).run e).1.mapError .entry,
          ⟨pre ++ ((VaultEntry.applyUpdate update).run e).2 :: post⟩) := by
  obtain ⟨pre, post, hsplit, hrun⟩ := run_onFound_of_some (VaultEntry.applyUpdate update) h
  refine ⟨pre, post, hsplit, ?_⟩
  simp only [body, run_mapError, updateEntryFieldsBody, hrun]

/-- A torn call answers an error. -/
theorem error_of_tornOn {p : VaultPayload} {call : StoreCall} (hp : p.Valid)
    (h : call.TornOn p) : ∃ err, (call.body.run p).1 = .error err := by
  cases call with
  | updateEntryFields entryId update =>
      obtain ⟨e, hfind, pre, r, hfail, _⟩ := h
      obtain ⟨_, _, _, hbody⟩ := run_body_updateEntryFields update hfind
      obtain ⟨err, _, hrun⟩ := hfail.run_applyUpdate (valid_of_find hp hfind)
      exact ⟨.entry err, by rw [hbody, hrun]; rfl⟩
  | _ => exact absurd h (by simp [TornOn])

/-- A call that answers an error leaves the payload as it was exactly when it is not torn. -/
theorem body_error_iff {p p' : VaultPayload} {call : StoreCall} {err : StoreError}
    (hp : p.Valid) (h : call.body.run p = (.error err, p')) : p' = p ↔ ¬ call.TornOn p := by
  by_cases hcall : ∃ entryId update e, call = .updateEntryFields entryId update ∧
      p.entries.find? (fun e => e.metadata.id == entryId) = some e
  · obtain ⟨entryId, update, e, rfl, hfind⟩ := hcall
    obtain ⟨pre, post, hsplit, hbody⟩ := run_body_updateEntryFields update hfind
    rw [hbody] at h
    cases hrun : (VaultEntry.applyUpdate update).run e with
    | mk result e' =>
        cases result with
        | ok a => simp [hrun, Except.mapError] at h
        | error err' =>
            have hp' : p' = ⟨pre ++ e' :: post⟩ := by
              rw [hrun] at h
              exact (congrArg Prod.snd h).symm
            have hentry := EntryUpdate.run_error_eq_self_iff (valid_of_find hp hfind) hrun
            have htorn : (updateEntryFields entryId update).TornOn p ↔ update.TornOn e := by
              simp [TornOn, hfind]
            rw [htorn, ← hentry, hp']
            obtain ⟨entries⟩ := p
            simp only at hsplit
            simp [hsplit]
  · have hp' : p' = p := by
      apply body_error_of_not_updateEntryFields _ h
      intro entryId update heq
      by_contra hfind
      obtain ⟨e, he⟩ := Option.ne_none_iff_exists'.mp hfind
      exact hcall ⟨entryId, update, e, heq, he⟩
    have htorn : ¬ call.TornOn p := by
      intro ht
      cases call with
      | updateEntryFields entryId update =>
          obtain ⟨e, hfind, _⟩ := ht
          exact hcall ⟨entryId, update, e, rfl, hfind⟩
      | _ => exact ht
    simp [hp', htorn]

/-- A call leaves a valid payload exactly when it does not leave an invalid entry behind. -/
theorem body_valid_iff {p : VaultPayload} {call : StoreCall} (hp : p.Valid)
    (hcall : call.Constructed) : (call.body.run p).2.Valid ↔ ¬ call.BricksOn p := by
  cases call with
  | addEntry entry =>
      simp only [body, run_mapError, run_addEntryBody, BricksOn, not_false_iff, iff_true]
      split
      · exact hp
      · intro e he
        rcases List.mem_append.mp he with he | he
        · exact hp e he
        · cases List.mem_singleton.mp he
          exact VaultEntry.Constructed.valid hcall
  | updateEntry entryId newEntry =>
      simp only [body, run_mapError, updateEntryBody, BricksOn, not_false_iff, iff_true]
      cases hfind : p.entries.find? (fun e => e.metadata.id == entryId) with
      | none =>
          rw [run_onFound_of_none _ hfind]
          exact hp
      | some e =>
          obtain ⟨pre, post, hsplit, hrun⟩ :=
            run_onFound_of_some (Mut.write fun _ => newEntry) hfind
          rw [hrun]
          exact (valid_replace_iff hp hsplit).mpr (VaultEntry.Constructed.valid hcall)
  | updateEntryFields entryId update =>
      cases hfind : p.entries.find? (fun e => e.metadata.id == entryId) with
      | none =>
          simp only [body, run_mapError, updateEntryFieldsBody, run_onFound_of_none _ hfind]
          simp [BricksOn, hfind, hp]
      | some e =>
          obtain ⟨pre, post, hsplit, hbody⟩ := run_body_updateEntryFields update hfind
          have hbricks : (updateEntryFields entryId update).BricksOn p ↔ update.BricksOn e := by
            simp [BricksOn, hfind]
          rw [hbody, valid_replace_iff hp hsplit, hbricks]
          exact EntryUpdate.valid_run_applyUpdate_iff update (valid_of_find hp hfind)
  | deleteEntry entryId =>
      simp only [body, run_mapError, run_deleteEntryBody, BricksOn, not_false_iff, iff_true]
      split
      · exact hp
      · intro e he
        exact hp e (List.mem_of_mem_filter he)
  | commitQuarantineImport policy quarantined =>
      simp only [body, run_mapError, BricksOn, not_false_iff, iff_true]
      exact commit_valid policy quarantined hp

/-- The call answers for the payload, and the payload read back is the one its closure left,
or nothing where that one is invalid. -/
theorem run_of_getPayload {serde : Serde VaultPayloadDto} (hserde : serde.Lawful)
    {st : VaultState} {p : VaultPayload} (h : getPayload serde st = some p) (call : StoreCall) :
    (call.run serde st).1 = (call.body.run p).1 ∧
      getPayload serde (call.run serde st).2 =
        if (call.body.run p).2.Valid then some (call.body.run p).2 else none := by
  obtain ⟨hanswer, hread⟩ := withUnlockedPayloadMut_of_getPayload hserde call.body.run h
  exact ⟨by simp [run, hanswer], hread⟩

end StoreCall

/-- A call that answers an error leaves the payload that is read back as it was, exactly when
it is not torn. -/
theorem error_keeps_payload_iff {serde : Serde VaultPayloadDto} (hserde : serde.Lawful)
    {st : VaultState} {p : VaultPayload} (h : getPayload serde st = some p) (call : StoreCall) :
    (∀ err, (call.run serde st).1 = .error err → getPayload serde (call.run serde st).2 = some p) ↔
      ¬ call.TornOn p := by
  have hp : p.Valid := valid_of_getPayload h
  obtain ⟨hanswer, hread⟩ := StoreCall.run_of_getPayload hserde h call
  rw [hanswer, hread]
  cases hrun : call.body.run p with
  | mk result p' =>
      cases result with
      | ok a =>
          have htorn : ¬ call.TornOn p := by
            intro ht
            obtain ⟨err, herr⟩ := StoreCall.error_of_tornOn hp ht
            simp [hrun] at herr
          simp [htorn]
      | error err =>
          rw [← StoreCall.body_error_iff hp hrun]
          constructor
          · intro hkeep
            have hkeep := hkeep err rfl
            split at hkeep
            · exact Option.some.inj hkeep
            · cases hkeep
          · rintro rfl _ _
            exact if_pos hp

/-- A stored password entry. -/
def mailEntry : VaultEntry where
  metadata := { id := 1, entryType := .password }
  secret :=
    { title := ⟨"mail".toList⟩, note := none, username := none, secret := ⟨"hunter2".toList⟩
      extra := none, totp := none }

/-- A strong session on a payload. -/
def sessionOn (p : VaultPayload) : VaultState :=
  .unlockWithPlaintextJsonWithContext (payloadBytes p) .strong .primary .notDebugged

theorem getPayload_sessionOn {p : VaultPayload} (hp : p.Valid) :
    getPayload payloadJson (sessionOn p) = some p :=
  getPayload_payloadBytes hp _ _ _

/-- A new title together with a note that holds a control character. -/
def renameWithBadNote : EntryUpdate :=
  .replace (some "post".toList) (some (some ['\x00'])) none none none none

/-- The theorem on a stored entry and a field update that is refused at its second part. -/
theorem error_keeps_payload_iff_mail :
    (∀ err,
      ((StoreCall.updateEntryFields 1 renameWithBadNote).run payloadJson
        (sessionOn ⟨[mailEntry]⟩)).1 = .error err →
      getPayload payloadJson ((StoreCall.updateEntryFields 1 renameWithBadNote).run payloadJson
        (sessionOn ⟨[mailEntry]⟩)).2 = some ⟨[mailEntry]⟩) ↔
      ¬ (StoreCall.updateEntryFields 1 renameWithBadNote).TornOn ⟨[mailEntry]⟩ :=
  error_keeps_payload_iff payloadJson_lawful (getPayload_sessionOn (by decide)) _

/-- The refused update answers an error, and the title is changed all the same. -/
theorem refused_replace_renames :
    getPayload payloadJson (sessionOn ⟨[mailEntry]⟩) = some ⟨[mailEntry]⟩ ∧
    ((StoreCall.updateEntryFields 1 renameWithBadNote).run payloadJson
      (sessionOn ⟨[mailEntry]⟩)).1 = .error (.entry .forbiddenChars) ∧
    getPayload payloadJson ((StoreCall.updateEntryFields 1 renameWithBadNote).run payloadJson
      (sessionOn ⟨[mailEntry]⟩)).2 ≠ some ⟨[mailEntry]⟩ := by
  have hbefore : getPayload payloadJson (sessionOn ⟨[mailEntry]⟩) = some ⟨[mailEntry]⟩ :=
    getPayload_sessionOn (by decide)
  have hbody : (StoreCall.updateEntryFields 1 renameWithBadNote).body.run ⟨[mailEntry]⟩ =
      (.error (.entry .forbiddenChars), ⟨[{ mailEntry with secret.title := ⟨"post".toList⟩ }]⟩) :=
    rfl
  obtain ⟨hanswer, hread⟩ := StoreCall.run_of_getPayload payloadJson_lawful hbefore
    (.updateEntryFields 1 renameWithBadNote)
  refine ⟨hbefore, by rw [hanswer, hbody], ?_⟩
  rw [hread, hbody]
  decide

/-! ## Runs -/

/-- One call as a step of the session. -/
def storeStep (serde : Serde VaultPayloadDto) (st : VaultState) (call : StoreCall) :
    Option VaultState :=
  some (call.run serde st).2

/-- The session serves its caller: the payload can be read and listed, and no call is told
that the vault is locked. -/
structure Serviceable (serde : Serde VaultPayloadDto) (st : VaultState) : Prop where
  payload : getPayload serde st ≠ none
  listed : listEntries serde st ≠ none
  answered : ∀ call : StoreCall, (call.run serde st).1 ≠ .error (.entry .vaultLocked)

/-- The call does not brick the payload of the session. -/
def AvoidsBricking (serde : Serde VaultPayloadDto) (st : VaultState) (call : StoreCall) : Prop :=
  ∀ p, getPayload serde st = some p → ¬ call.BricksOn p

private theorem validateRequiredBounded_ne_vaultLocked (s : Text) (maxLen : Nat) :
    Entries.validateRequiredBounded s maxLen ≠ .error .vaultLocked := by
  intro h
  unfold Entries.validateRequiredBounded at h
  split at h
  · cases h
  · split at h <;> cases h

/-- No text check and no TOTP check reports a locked vault. -/
private theorem validateVisible_ne_vaultLocked (maxLen : Nat) (s : Text) :
    Entries.validateVisible maxLen s ≠ .error .vaultLocked := by
  intro h
  unfold Entries.validateVisible at h
  cases hbound : Entries.validateRequiredBounded s maxLen with
  | error err =>
      rw [hbound] at h
      cases h
      exact validateRequiredBounded_ne_vaultLocked s maxLen hbound
  | ok u =>
      have hreject : Entries.rejectControlsAndBidi s = .error .vaultLocked := by
        rw [hbound] at h
        exact h
      unfold Entries.rejectControlsAndBidi at hreject
      split at hreject
      · cases hreject
      · split at hreject <;> cases hreject

private theorem validate_ne_vaultLocked (t : TotpSecret) : t.validate ≠ .error .vaultLocked := by
  intro h
  unfold TotpSecret.validate at h
  repeat' split at h
  all_goals cases h

theorem EntryUpdate.test_ne_vaultLocked (e : VaultEntry) (u : EntryUpdate) :
    u.test e ≠ .error .vaultLocked := by
  cases u with
  | setTitle t => exact validateVisible_ne_vaultLocked _ t
  | setNote n =>
      cases n with
      | none => simp [test]
      | some n => exact validateVisible_ne_vaultLocked _ n
  | setUsername n =>
      cases n with
      | none => simp [test]
      | some n => exact validateVisible_ne_vaultLocked _ n
  | setSecret s =>
      simp only [test]
      split
      · exact validateRequiredBounded_ne_vaultLocked s _
      · split
        · simp
        · exact validate_ne_vaultLocked _
      · simp
  | setExtra x => simp [test]
  | setTotp t =>
      simp only [test]
      split
      · simp
      · split
        · simp
        · exact validate_ne_vaultLocked _
  | replace => simp [test]

/-- The closures leave the error of a locked vault to the manager. -/
theorem StoreCall.body_ne_vaultLocked {p : VaultPayload} (hp : p.Valid) (call : StoreCall) :
    (call.body.run p).1 ≠ .error (.entry .vaultLocked) := by
  cases call with
  | addEntry entry =>
      simp only [body, run_mapError, run_addEntryBody]
      split <;> simp [Except.mapError]
  | updateEntry entryId newEntry =>
      simp only [body, run_mapError, updateEntryBody]
      cases hfind : p.entries.find? (fun e => e.metadata.id == entryId) with
      | none => simp [run_onFound_of_none _ hfind, Except.mapError]
      | some e =>
          obtain ⟨_, _, _, hrun⟩ := run_onFound_of_some (Mut.write fun _ => newEntry) hfind
          simp [hrun, Except.mapError]
  | updateEntryFields entryId update =>
      cases hfind : p.entries.find? (fun e => e.metadata.id == entryId) with
      | none =>
          simp [body, run_mapError, updateEntryFieldsBody, run_onFound_of_none _ hfind,
            Except.mapError]
      | some e =>
          obtain ⟨_, _, _, hbody⟩ := run_body_updateEntryFields update hfind
          have he : e.Valid := valid_of_find hp hfind
          rw [hbody]
          rcases EntryUpdate.accepted_or_failsAt e update with hacc | ⟨pre, r, hfail⟩
          · simp [EntryUpdate.run_applyUpdate_of_accepted he hacc, Except.mapError]
          · obtain ⟨err, herr, hrun⟩ := hfail.run_applyUpdate he
            rw [hrun]
            intro h
            simp only [Except.mapError, Except.error.injEq, StoreError.entry.injEq] at h
            exact EntryUpdate.test_ne_vaultLocked e r (h ▸ herr)
  | deleteEntry entryId =>
      simp only [body, run_mapError, run_deleteEntryBody]
      split <;> simp [Except.mapError]
  | commitQuarantineImport policy quarantined =>
      simp only [body, run_mapError]
      cases ((commitQuarantinedImportIntoPayload policy quarantined).run p).1 <;>
        simp [Except.mapError]

/-- A decodable session serves its caller. -/
theorem serviceable_iff {serde : Serde VaultPayloadDto} (hserde : serde.Lawful)
    (st : VaultState) : Serviceable serde st ↔ getPayload serde st ≠ none := by
  constructor
  · exact Serviceable.payload
  · intro h
    obtain ⟨p, hp⟩ := Option.ne_none_iff_exists'.mp h
    refine ⟨h, ?_, ?_⟩
    · cases st with
      | locked => cases hp
      | unlocked s =>
          have hdecode : decodePayloadFromPlaintextJson serde s.plaintextJson = some p := hp
          simp [listEntries, withUnlockedPayload, hdecode]
    · intro call
      rw [(StoreCall.run_of_getPayload hserde hp call).1]
      exact StoreCall.body_ne_vaultLocked (valid_of_getPayload hp) call

/-- One call keeps the session decodable exactly when it avoids bricking. -/
theorem getPayload_run_iff {serde : Serde VaultPayloadDto} (hserde : serde.Lawful)
    {st : VaultState} (hst : getPayload serde st ≠ none) {call : StoreCall}
    (hcall : call.Constructed) :
    getPayload serde (call.run serde st).2 ≠ none ↔ AvoidsBricking serde st call := by
  obtain ⟨p, hp⟩ := Option.ne_none_iff_exists'.mp hst
  obtain ⟨_, hread⟩ := StoreCall.run_of_getPayload hserde hp call
  have hvalid := StoreCall.body_valid_iff (valid_of_getPayload hp) hcall
  have hhere : AvoidsBricking serde st call ↔ ¬ call.BricksOn p := by
    simp [AvoidsBricking, hp]
  rw [hread, hhere, ← hvalid]
  by_cases h : (call.body.run p).2.Valid <;> simp [h]

/-- A run keeps serving its caller in every state it reaches exactly when none of its calls
bricks the payload it finds. -/
theorem run_serviceable_iff {serde : Serde VaultPayloadDto} (hserde : serde.Lawful)
    {st : VaultState} (hst : getPayload serde st ≠ none) {calls : List StoreCall}
    (hcalls : ∀ call ∈ calls, call.Constructed) :
    (∀ pre t, pre <+: calls → exec (storeStep serde) st pre = some t → Serviceable serde t) ↔
      EveryStep (storeStep serde) (AvoidsBricking serde) st calls := by
  have htotal : ∀ st call, ∃ st', storeStep serde st call = some st' :=
    fun st call => ⟨(call.run serde st).2, rfl⟩
  simp only [serviceable_iff hserde]
  refine invariant_iff_everyStep (fun _ call => call.Constructed) (AvoidsBricking serde)
    (fun st => getPayload serde st ≠ none) ?_ hst (everyStep_of_forall_mem hcalls)
    (exists_exec htotal st calls)
  intro st call st' hst hcall hstep
  obtain rfl : (call.run serde st).2 = st' := Option.some.inj hstep
  exact getPayload_run_iff hserde hst hcall

/-- A stored authenticator entry. -/
def tokenEntry : VaultEntry where
  metadata := { id := 2, entryType := .totp }
  secret :=
    { title := ⟨"token".toList⟩, note := none, username := none
      secret := ⟨"JBSWY3DPEHPK3PXP".toList⟩, extra := none
      totp := some
        { issuer := none, accountName := none, secretB32 := ⟨"JBSWY3DPEHPK3PXP".toList⟩
          digits := 6, periodSecs := 30, algorithm := .sha1 } }

/-- The theorem on a run of one call. -/
theorem run_serviceable_iff_token :
    (∀ pre t, pre <+: [StoreCall.updateEntryFields 2 (.setTotp none)] →
      exec (storeStep payloadJson) (sessionOn ⟨[tokenEntry]⟩) pre = some t →
      Serviceable payloadJson t) ↔
      EveryStep (storeStep payloadJson) (AvoidsBricking payloadJson) (sessionOn ⟨[tokenEntry]⟩)
        [StoreCall.updateEntryFields 2 (.setTotp none)] :=
  run_serviceable_iff payloadJson_lawful
    (by rw [getPayload_sessionOn (by decide)]; simp)
    (by
      intro call hcall
      rw [List.mem_singleton.mp hcall]
      trivial)

/-- Removing the TOTP block of an authenticator entry is refused, and the session no longer
decodes. -/
theorem refused_removal_bricks :
    getPayload payloadJson (sessionOn ⟨[tokenEntry]⟩) = some ⟨[tokenEntry]⟩ ∧
    ((StoreCall.updateEntryFields 2 (.setTotp none)).run payloadJson
      (sessionOn ⟨[tokenEntry]⟩)).1 = .error (.entry .invalidType) ∧
    getPayload payloadJson ((StoreCall.updateEntryFields 2 (.setTotp none)).run payloadJson
      (sessionOn ⟨[tokenEntry]⟩)).2 = none := by
  have hbefore : getPayload payloadJson (sessionOn ⟨[tokenEntry]⟩) = some ⟨[tokenEntry]⟩ :=
    getPayload_sessionOn (by decide)
  have hbody : (StoreCall.updateEntryFields 2 (.setTotp none)).body.run ⟨[tokenEntry]⟩ =
      (.error (.entry .invalidType), ⟨[{ tokenEntry with secret.totp := none }]⟩) := rfl
  obtain ⟨hanswer, hread⟩ := StoreCall.run_of_getPayload payloadJson_lawful hbefore
    (.updateEntryFields 2 (.setTotp none))
  refine ⟨hbefore, by rw [hanswer, hbody], ?_⟩
  rw [hread, hbody]
  decide

end ViperVault
