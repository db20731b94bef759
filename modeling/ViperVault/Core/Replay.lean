import ViperVault.Core.EntryMap
import ViperVault.Core.Reauth
import ViperVault.Foundation.Outputs

/-!
# What a session is made of

Whatever the interleaving, an open session is what its own unlock call wrote, changed by the update
calls that ran since, each once and in order: none is lost, none is done twice, and nothing comes
over from an earlier session. A call does not remember which session it was made for, so an update
runs in the session that is open when its critical section comes.
-/

namespace ViperVault

open Foundation

/-! ## Where identifiers come from -/

/-- The call can write an entry with this identifier. -/
def StoreCall.Brings (id : Uuid) : StoreCall → Prop
  | .addEntry entry => entry.metadata.id = id
  | .updateEntry _ newEntry => newEntry.metadata.id = id
  | .commitQuarantineImport _ quarantined => id ∈ quarantined.payload.ids
  | _ => False

/-- The update can write an entry with this identifier. -/
def SessionUpdate.Brings (id : Uuid) : SessionUpdate → Prop
  | .store call => call.Brings id
  | _ => False

namespace StoreCall

variable {p : VaultPayload} {id : Uuid}

/-- An identifier behind an overwritten entry was there before, or it is that of the new entry. -/
theorem mem_ids_onFound {entryId : Uuid} {body : Mut VaultEntry EntryError Unit}
    (h : id ∈ ((onFound entryId body).run p).2.ids) :
    id ∈ p.ids ∨ ∃ e, (body.run e).2.metadata.id = id ∧ e ∈ p.entries := by
  cases hfind : p.entries.find? (fun e => e.metadata.id == entryId) with
  | none =>
      rw [run_onFound_of_none body hfind] at h
      exact Or.inl h
  | some e =>
      obtain ⟨pre, post, hsplit, hrun⟩ := run_onFound_of_some body hfind
      rw [hrun, VaultPayload.ids_of_split rfl, List.mem_append, List.mem_cons] at h
      rw [VaultPayload.ids_of_split hsplit, List.mem_append, List.mem_cons]
      rcases h with hpre | rfl | hpost
      · exact Or.inl (Or.inl hpre)
      · exact Or.inr ⟨e, rfl, List.mem_of_find?_eq_some hfind⟩
      · exact Or.inl (Or.inr (Or.inr hpost))

/-- A closure leaves the identifiers that it found, and those that its call brings. -/
theorem mem_ids_body {call : StoreCall} (h : id ∈ (call.body.run p).2.ids) :
    id ∈ p.ids ∨ call.Brings id := by
  cases call with
  | addEntry entry =>
      simp only [body, run_mapError, run_addEntryBody] at h
      split at h
      · exact Or.inl h
      · simpa [VaultPayload.ids, Brings, eq_comm] using h
  | updateEntry entryId newEntry =>
      simp only [body, run_mapError, updateEntryBody] at h
      rcases mem_ids_onFound h with hold | ⟨e, hnew, -⟩
      · exact Or.inl hold
      · exact Or.inr hnew
  | updateEntryFields entryId update =>
      simp only [body, run_mapError, updateEntryFieldsBody] at h
      rcases mem_ids_onFound h with hold | ⟨e, hnew, he⟩
      · exact Or.inl hold
      · rw [VaultEntry.metadata_run_applyUpdate] at hnew
        exact Or.inl (hnew ▸ List.mem_map_of_mem he)
  | deleteEntry entryId =>
      simp only [body, run_mapError, run_deleteEntryBody] at h
      split at h
      · exact Or.inl h
      · exact Or.inl ((List.filter_sublist.map _).subset h)
  | commitQuarantineImport policy quarantined =>
      simp only [body, run_mapError] at h
      unfold commitQuarantinedImportIntoPayload at h
      rw [Mut.run_bind_ok (Mut.run_read p)] at h
      split at h
      · exact Or.inl h
      · split at h
        · exact Or.inl h
        · simpa [VaultPayload.ids, Brings] using h

end StoreCall

/-- An identifier that is read after an update was read before it, or the update brought it. -/
theorem SessionUpdate.mem_ids_apply {env : Env} (hserde : env.serde.Lawful) {op : SessionUpdate}
    {st : VaultState} {p' : VaultPayload} {id : Uuid}
    (hread : getPayload env.serde (op.apply env st) = some p') (hid : id ∈ p'.ids) :
    (∃ p, getPayload env.serde st = some p ∧ id ∈ p.ids) ∨ op.Brings id := by
  cases op with
  | store call =>
      cases hbefore : getPayload env.serde st with
      | none =>
          have hsame : (call.run env.serde st).2 = st := by
            simp [StoreCall.run, withUnlockedPayloadMut_of_getPayload_none _ hbefore]
          rw [apply, hsame, hbefore] at hread
          cases hread
      | some p =>
          rw [apply, (StoreCall.run_of_getPayload hserde hbefore call).2] at hread
          split at hread
          · cases hread
            rcases StoreCall.mem_ids_body hid with hold | hbrings
            · exact Or.inl ⟨p, rfl, hold⟩
            · exact Or.inr hbrings
          · cases hread
  | _ =>
      cases st with
      | locked => cases hread
      | unlocked s => exact Or.inl ⟨p', hread, hid⟩

/-! ## The updates of a run -/

/-- The state that the unlock call writes. -/
def UnlockRequest.opened (request : UnlockRequest) : VaultState :=
  .unlockWithPlaintextJsonWithContext request.plaintextJson request.authStrength
    request.unlockOutcome request.runtimeState

/-- The update that a call does in its next step. -/
def Call.updates : Call → List SessionUpdate
  | .update op false => [op]
  | _ => []

namespace World

variable {env : Env} {w w' : World}

/-- The update that is done in an event, with the number of its call. -/
def updatesAt (w : World) : Event → List (Nat × SessionUpdate)
  | .advance i => ((w.calls[i]?).elim [] Call.updates).map fun op => (i, op)
  | _ => []

/-- The updates of a run, in order. -/
abbrev updatesIn (env : Env) : World → List Event → List (Nat × SessionUpdate) :=
  outputs (step env) updatesAt

/-- The session after updates. -/
def updated (env : Env) : VaultState → List (Nat × SessionUpdate) → VaultState :=
  List.foldl fun st u => u.2.apply env st

/-- The event changes the state by an update or not at all. -/
def KeepsSession (w : World) (ev : Event) : Prop :=
  w.effects ev = (w.updatesAt ev).map fun u => .update u.2

/-- The call has returned from this update. -/
def Returned (u : Nat × SessionUpdate) (w : World) : Prop := w.calls[u.1]? = some (.update u.2 true)

/-- A step that keeps the session does the updates that it puts out. -/
theorem state_of_keepsSession {ev : Event} (hkeep : w.KeepsSession ev)
    (h : w.step env ev = some w') :
    w'.shared.state = updated env w.shared.state (w.updatesAt ev) := by
  have hrun := state_of_run (exec_cons_eq_some.mpr ⟨w', h, exec_nil w'⟩)
  have hhistory : w.history env [ev] = w.effects ev := by
    simp [history, h]
  rw [hrun, hhistory, hkeep, runCalls, List.foldl_map]
  rfl

/-- A step keeps the session, or it locks, or it is the write of an unlock call. -/
theorem session_step_cases {ev : Event} (h : w.step env ev = some w') :
    w.KeepsSession ev ∨ w'.shared.state = .locked ∨
      ∃ i request g, ev = .advance i ∧ w.calls[i]? = some (.unlock request (.drawn g)) ∧
        w'.shared.state = request.opened := by
  rcases step_cases h with ⟨request, rfl, rfl⟩ | ⟨i, call, call', sh', rfl, hcall, hadvance, rfl⟩ |
    ⟨t, task, action, sh', rfl, htask, hstep, rfl⟩ | ⟨d, rfl, -, rfl⟩
  · exact Or.inl rfl
  · cases Call.moves_of_advance hadvance with
    | writeUnlock request g => exact Or.inr (Or.inr ⟨i, request, g, rfl, hcall, rfl⟩)
    | writeLock g => exact Or.inr (Or.inl rfl)
    | _ =>
        left
        simp only [KeepsSession, effects, updatesAt, hcall, Option.elim_some]
        rfl
  · cases Shared.timerMoves_of_step hstep with
    | lock hphase hcurrent => exact Or.inr (Or.inl rfl)
    | stale hphase hcurrent =>
        left
        simp only [KeepsSession, effects, updatesAt, htask, Option.elim_some, Shared.timerEffects,
          if_neg hcurrent]
        rfl
    | _ =>
        left
        simp only [KeepsSession, effects, updatesAt, htask, Option.elim_some]
        rfl
  · exact Or.inl rfl

theorem isUnlocked_updated (st : VaultState) (ran : List (Nat × SessionUpdate)) :
    (updated env st ran).IsUnlocked ↔ st.IsUnlocked := by
  induction ran generalizing st with
  | nil => exact Iff.rfl
  | cons u ran ih => exact (ih _).trans (u.2.isUnlocked_apply env st)

/-- An open session was opened in the run by a write of an unlock call, after which every step keeps
it; or it was open at the start, and every step keeps it. -/
theorem opened_or_kept {es : List Event} (h : exec (step env) w es = some w')
    (hopen : w'.shared.state.IsUnlocked) :
    (w.shared.state.IsUnlocked ∧ EveryStep (step env) KeepsSession w es) ∨
      ∃ es₁ i es₂ m₀ m request g, es = es₁ ++ .advance i :: es₂ ∧
        exec (step env) w es₁ = some m₀ ∧ m₀.calls[i]? = some (.unlock request (.drawn g)) ∧
        m₀.step env (.advance i) = some m ∧ m.shared.state = request.opened ∧
        EveryStep (step env) KeepsSession m es₂ ∧ exec (step env) m es₂ = some w' := by
  induction es generalizing w with
  | nil =>
      cases h
      exact Or.inl ⟨hopen, trivial⟩
  | cons ev es ih =>
      obtain ⟨m, hm, hrest⟩ := exec_cons_eq_some.mp h
      rcases ih hrest with ⟨hmopen, hkept⟩ | ⟨es₁, i, es₂, m₀, m₁, request, g, rfl, hm₀, hopened⟩
      · rcases session_step_cases hm with hkeep | hlocked | ⟨i, request, g, rfl, hcall, hstate⟩
        · rw [state_of_keepsSession hkeep hm, isUnlocked_updated] at hmopen
          exact Or.inl ⟨hmopen, everyStep_cons_of_eq hkeep hm hkept⟩
        · rw [hlocked] at hmopen
          exact hmopen.elim
        · exact Or.inr ⟨[], i, es, w, m, request, g, rfl, rfl, hcall, hm, hstate, hkept, hrest⟩
      · exact Or.inr ⟨ev :: es₁, i, es₂, m₀, m₁, request, g, rfl,
          exec_cons_eq_some.mpr ⟨m, hm, hm₀⟩, hopened⟩

/-! ## Each update once -/

theorem returned_step {u : Nat × SessionUpdate} {ev : Event} (h : w.step env ev = some w')
    (hu : Returned u w) : Returned u w' := by
  rcases step_cases h with ⟨request, rfl, rfl⟩ | ⟨i, call, call', sh', rfl, hcall, hadvance, rfl⟩ |
    ⟨t, task, action, sh', rfl, -, -, rfl⟩ | ⟨d, rfl, -, rfl⟩
  · exact (List.getElem?_append_left (List.getElem?_eq_some_iff.mp hu).1).trans hu
  · by_cases hi : i = u.1
    · subst hi
      obtain rfl : call = .update u.2 true := Option.some.inj (hcall.symm.trans hu)
      cases hadvance
    · exact (List.getElem?_set_ne hi).trans hu
  · exact hu
  · exact hu

/-- A call that is made has not returned from an update. -/
theorem start_ne_returned (request : Request) (op : SessionUpdate) :
    request.start ≠ .update op true := by
  cases request with
  | handleRuntimeSecurityEvent ev => cases ev <;> rintro ⟨⟩
  | _ => rintro ⟨⟩

/-- A step puts out the update from which a call returns in it. -/
theorem mem_updatesAt_iff {u : Nat × SessionUpdate} {ev : Event} (h : w.step env ev = some w') :
    u ∈ w.updatesAt ev ↔ Returned u w' ∧ ¬ Returned u w := by
  have hsame : u ∉ ([] : List (Nat × SessionUpdate)) := List.not_mem_nil
  rcases step_cases h with ⟨request, rfl, rfl⟩ | ⟨i, call, call', sh', rfl, hcall, hadvance, rfl⟩ |
    ⟨t, task, action, sh', rfl, -, -, rfl⟩ | ⟨d, rfl, -, rfl⟩
  · refine iff_of_false hsame ?_
    rintro ⟨hafter, hbefore⟩
    rcases getElem?_append_singleton hafter with hold | ⟨-, hnew⟩
    · exact hbefore hold
    · exact start_ne_returned request u.2 hnew.symm
  · cases Call.moves_of_advance hadvance with
    | update op =>
        have hout : u ∈ w.updatesAt (.advance i) ↔ u = (i, op) := by
          simp [updatesAt, hcall, Call.updates]
        rw [hout]
        constructor
        · rintro rfl
          refine ⟨List.getElem?_set_self (List.getElem?_eq_some_iff.mp hcall).1, fun hbefore => ?_⟩
          cases hcall.symm.trans hbefore
        · rintro ⟨hafter, hbefore⟩
          rcases getElem?_set_cases hafter with ⟨rfl, hop⟩ | ⟨-, hold⟩
          · cases hop
            rfl
          · exact absurd hold hbefore
    | _ =>
        refine iff_of_false (by simp [updatesAt, hcall, Call.updates]) ?_
        rintro ⟨hafter, hbefore⟩
        rcases getElem?_set_cases hafter with ⟨-, hop⟩ | ⟨-, hold⟩
        · cases hop
        · exact hbefore hold
  · exact iff_of_false hsame fun hu => hu.2 hu.1
  · exact iff_of_false hsame fun hu => hu.2 hu.1

theorem nodup_updatesAt (w : World) (ev : Event) : (w.updatesAt ev).Nodup := by
  cases ev with
  | advance i =>
      simp only [updatesAt]
      cases w.calls[i]? with
      | none => exact List.nodup_nil
      | some call =>
          cases call with
          | update op returned =>
              cases returned with
              | true => exact List.nodup_nil
              | false => exact List.nodup_singleton _
          | _ => exact List.nodup_nil
  | _ => exact List.nodup_nil

/-! ## Sessions -/

/-- The session was opened with the request, and the updates, one after the other, are all that was
done to it; so each of its entries was in the vault that was unlocked or came with one of them. -/
structure MadeBy (env : Env) (request : UnlockRequest) (ran : List (Nat × SessionUpdate))
    (st : VaultState) : Prop where
  state : st = updated env request.opened ran
  entries : ∀ p, getPayload env.serde st = some p → ∀ id ∈ p.ids,
    (∃ p₀, decodePayloadFromPlaintextJson env.serde request.plaintextJson = some p₀ ∧
      id ∈ p₀.ids) ∨ ∃ u ∈ ran, u.2.Brings id

/-- Between the two states these updates were done: no call did two, and those that did one are
those that have returned from it. -/
structure EachOnce (w w' : World) (ran : List (Nat × SessionUpdate)) : Prop where
  once : (ran.map Prod.fst).Nodup
  all : ∀ i op, (i, op) ∈ ran ↔
    w'.calls[i]? = some (.update op true) ∧ w.calls[i]? ≠ some (.update op true)

theorem madeBy_updated (hserde : env.serde.Lawful) (request : UnlockRequest)
    (ran : List (Nat × SessionUpdate)) :
    MadeBy env request ran (updated env request.opened ran) := by
  refine ⟨rfl, ?_⟩
  induction ran using List.reverseRecOn with
  | nil => exact fun p hp id hid => Or.inl ⟨p, hp, hid⟩
  | append_singleton ran u ih =>
      intro p hp id hid
      rw [updated, List.foldl_append] at hp
      rcases SessionUpdate.mem_ids_apply hserde hp hid with ⟨p', hp', hid'⟩ | hbrings
      · rcases ih p' hp' id hid' with hopened | ⟨u', hu', hbrings⟩
        · exact Or.inl hopened
        · exact Or.inr ⟨u', List.mem_append_left _ hu', hbrings⟩
      · exact Or.inr ⟨u, by simp, hbrings⟩

theorem eachOnce_updatesIn {es : List Event} (h : exec (step env) w es = some w') :
    EachOnce w w' (updatesIn env w es) := by
  have hmem (u : Nat × SessionUpdate) : u ∈ updatesIn env w es ↔ Returned u w' ∧ ¬ Returned u w :=
    mem_outputs_iff (fun _ _ _ _ => returned_step) (fun _ _ _ _ => mem_updatesAt_iff) h
  refine ⟨?_, fun i op => hmem (i, op)⟩
  have hnodup : (updatesIn env w es).Nodup :=
    nodup_outputs (fun _ _ _ _ => returned_step) (fun _ _ _ _ => mem_updatesAt_iff)
      nodup_updatesAt h
  refine hnodup.map_on fun u hu v hv huv => ?_
  have hu' : w'.calls[u.1]? = some (.update u.2 true) := ((hmem u).mp hu).1
  have hv' : w'.calls[v.1]? = some (.update v.2 true) := ((hmem v).mp hv).1
  rw [huv, hv'] at hu'
  have hop : v.2 = u.2 := (Call.update.inj (Option.some.inj hu')).1
  exact Prod.ext huv hop.symm

/-- A primary session is opened and a call is made to add an entry to it; the vault is locked and
opened again, and only then the call runs. -/
def addAcrossSessions : List Event :=
  [.invoke (.unlock strongUnlock), .advance 0, .advance 0,
   .invoke (.update (.store (.addEntry mailEntry))), .invoke .lock, .advance 2, .advance 2,
   .invoke (.unlock strongUnlock), .advance 3, .advance 3, .advance 1]

/-- Whatever the interleaving, an open session is made by the last write of an unlock call and by
the updates that were done since: each once and in order, and all from which a call has returned
since. So no update is lost or done twice, and nothing comes over from an earlier session. -/
theorem sessions_are_made_by_updates (hserde : env.serde.Lawful) {es : List Event}
    (h : exec (step env) new es = some w) (hopen : w.shared.state.IsUnlocked) :
    ∃ es₁ i es₂ m₀ m request g, es = es₁ ++ .advance i :: es₂ ∧
      exec (step env) new es₁ = some m₀ ∧ m₀.calls[i]? = some (.unlock request (.drawn g)) ∧
      m₀.step env (.advance i) = some m ∧ EveryStep (step env) KeepsSession m es₂ ∧
      MadeBy env request (updatesIn env m es₂) w.shared.state ∧
      EachOnce m w (updatesIn env m es₂) := by
  rcases opened_or_kept h hopen with ⟨hnew, -⟩ |
    ⟨es₁, i, es₂, m₀, m, request, g, rfl, hm₀, hcall, hm, hstate, hkept, hrest⟩
  · exact hnew.elim
  · refine ⟨es₁, i, es₂, m₀, m, request, g, rfl, hm₀, hcall, hm, hkept, ?_,
      eachOnce_updatesIn hrest⟩
    have hreplay : w.shared.state = updated env m.shared.state (updatesIn env m es₂) :=
      foldl_outputs (φ := fun w : World => w.shared.state) KeepsSession
        (fun _ _ _ => state_of_keepsSession) hkept hrest
    rw [hreplay, hstate]
    exact madeBy_updated hserde request _

/-- The theorem on the run in which an entry that was meant for the first session is added to the
second. -/
theorem sessions_are_made_by_updates_addAcrossSessions :
    ∃ w, exec (step sampleEnv) new addAcrossSessions = some w ∧
      ∃ es₁ i es₂ m₀ m request g, addAcrossSessions = es₁ ++ .advance i :: es₂ ∧
        exec (step sampleEnv) new es₁ = some m₀ ∧
        m₀.calls[i]? = some (.unlock request (.drawn g)) ∧
        m₀.step sampleEnv (.advance i) = some m ∧
        EveryStep (step sampleEnv) KeepsSession m es₂ ∧
        MadeBy sampleEnv request (updatesIn sampleEnv m es₂) w.shared.state ∧
        EachOnce m w (updatesIn sampleEnv m es₂) := by
  have hrun : ∃ w, exec (step sampleEnv) new addAcrossSessions = some w ∧
      w.shared.state.IsUnlocked :=
    ⟨_, rfl, (SessionUpdate.isUnlocked_apply sampleEnv (.store (.addEntry mailEntry))
      strongUnlock.opened).mpr trivial⟩
  obtain ⟨w, hw, hopen⟩ := hrun
  exact ⟨w, hw, sessions_are_made_by_updates payloadJson_lawful hw hopen⟩

end World

end ViperVault
