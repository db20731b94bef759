import ViperVault.Core.Store
import ViperVault.Foundation.OrderedMap

/-!
# The entry store as an insertion-ordered map

Lookups stop at the first entry with an identifier and deletions remove all of them, so the
payload stands for a map only while its identifiers are distinct. `update_entry` is the one
call that can write an entry under another identifier than the one it looked up.
-/

namespace ViperVault

open Foundation

namespace VaultPayload

/-- The identifiers of the entries, in order. -/
def ids (p : VaultPayload) : List Uuid := p.entries.map fun e => e.metadata.id

/-- No two entries share an identifier. -/
def DistinctIds (p : VaultPayload) : Prop := p.ids.Nodup

instance (p : VaultPayload) : Decidable p.DistinctIds :=
  inferInstanceAs (Decidable p.ids.Nodup)

theorem find?_id_eq_none_iff {p : VaultPayload} {entryId : Uuid} :
    p.entries.find? (fun e => e.metadata.id == entryId) = none ↔ entryId ∉ p.ids := by
  rw [List.find?_eq_none]
  simp [ids]

theorem any_id_iff {p : VaultPayload} {entryId : Uuid} :
    (p.entries.any fun e => e.metadata.id == entryId) = true ↔ entryId ∈ p.ids := by
  simp [ids]

theorem ids_of_split {p : VaultPayload} {pre post : List VaultEntry} {e : VaultEntry}
    (h : p.entries = pre ++ e :: post) :
    p.ids = pre.map (·.metadata.id) ++ e.metadata.id :: post.map (·.metadata.id) := by
  simp [ids, h]

theorem distinctIds_concat {p : VaultPayload} {e : VaultEntry} (hp : p.DistinctIds)
    (he : e.metadata.id ∉ p.ids) : DistinctIds ⟨p.entries ++ [e]⟩ := by
  have hconcat : (p.ids.concat e.metadata.id).Nodup := List.Nodup.concat he hp
  simpa [DistinctIds, ids, List.concat_eq_append] using hconcat

end VaultPayload

namespace StoreCall

/-- The call writes a valid entry over a stored one and gives it the identifier of another. -/
def Duplicates (p : VaultPayload) : StoreCall → Prop
  | .updateEntry entryId newEntry =>
      newEntry.Valid ∧ entryId ∈ p.ids ∧ newEntry.metadata.id ≠ entryId ∧
        newEntry.metadata.id ∈ p.ids
  | _ => False

/-- The identifiers that an import brings along are new. -/
def BringsFreshIds (p : VaultPayload) : StoreCall → Prop
  | .commitQuarantineImport _ quarantined =>
      quarantined.payload.DistinctIds ∧ List.Disjoint p.ids quarantined.payload.ids
  | _ => True

end StoreCall

/-! ## Distinct identifiers -/

/-- Overwriting one of several distinct keys keeps them distinct exactly when the new key is
the old one or new altogether. -/
private theorem nodup_overwrite_iff {pre post : List Uuid} {k k' : Uuid}
    (h : (pre ++ k :: post).Nodup) :
    (pre ++ k' :: post).Nodup ↔ ¬ (k' ≠ k ∧ k' ∈ pre ++ k :: post) := by
  rw [List.nodup_middle] at h ⊢
  rw [List.nodup_cons] at h ⊢
  simp only [List.mem_append, List.mem_cons, h.2, and_true] at h ⊢
  by_cases hk : k' = k
  · simpa [hk] using h
  · simp [hk]

/-- The overwritten payload in terms of identifiers. -/
theorem distinctIds_overwrite_iff {p : VaultPayload} {pre post : List VaultEntry}
    {e e' : VaultEntry} (hsplit : p.entries = pre ++ e :: post) (hp : p.DistinctIds) :
    VaultPayload.DistinctIds ⟨pre ++ e' :: post⟩ ↔
      ¬ (e'.metadata.id ≠ e.metadata.id ∧ e'.metadata.id ∈ p.ids) := by
  have hids := VaultPayload.ids_of_split hsplit
  rw [VaultPayload.DistinctIds, hids] at hp
  rw [hids, ← nodup_overwrite_iff hp]
  simp [VaultPayload.DistinctIds, VaultPayload.ids]

namespace StoreCall

/-- What one closure does to distinct identifiers, where its payload stays readable. -/
theorem distinctIds_body_iff {p : VaultPayload} (hvalid : p.Valid) (hp : p.DistinctIds)
    {call : StoreCall} (hfresh : call.BringsFreshIds p) :
    ((call.body.run p).2.Valid → (call.body.run p).2.DistinctIds) ↔ ¬ call.Duplicates p := by
  cases call with
  | addEntry entry =>
      simp only [body, run_mapError, run_addEntryBody, Duplicates, not_false_iff, iff_true]
      intro _
      split
      · exact hp
      · next hnew =>
          exact VaultPayload.distinctIds_concat hp fun h => hnew (VaultPayload.any_id_iff.mpr h)
  | updateEntry entryId newEntry =>
      simp only [body, run_mapError, updateEntryBody, Duplicates]
      cases hfind : p.entries.find? (fun e => e.metadata.id == entryId) with
      | none =>
          have habsent : entryId ∉ p.ids := VaultPayload.find?_id_eq_none_iff.mp hfind
          simp [run_onFound_of_none _ hfind, habsent, hp]
      | some e =>
          have hid : e.metadata.id = entryId := by simpa using List.find?_some hfind
          have hmem : entryId ∈ p.ids := by
            rw [← hid]
            exact List.mem_map_of_mem (List.mem_of_find?_eq_some hfind)
          obtain ⟨pre, post, hsplit, hrun⟩ :=
            run_onFound_of_some (Mut.write fun _ => newEntry) hfind
          have hleft : ((onFound entryId (Mut.write fun _ => newEntry)).run p).2 =
              ⟨pre ++ newEntry :: post⟩ := by
            rw [hrun, Mut.run_write]
          rw [hleft, valid_replace_iff hvalid hsplit, distinctIds_overwrite_iff hsplit hp, hid]
          simp only [hmem, true_and]
          tauto
  | updateEntryFields entryId update =>
      simp only [body, run_mapError, updateEntryFieldsBody, Duplicates, not_false_iff, iff_true]
      intro _
      cases hfind : p.entries.find? (fun e => e.metadata.id == entryId) with
      | none =>
          rw [run_onFound_of_none _ hfind]
          exact hp
      | some e =>
          obtain ⟨pre, post, hsplit, hrun⟩ :=
            run_onFound_of_some (VaultEntry.applyUpdate update) hfind
          rw [hrun]
          apply (distinctIds_overwrite_iff hsplit hp).mpr
          rw [VaultEntry.metadata_run_applyUpdate]
          exact fun h => h.1 rfl
  | deleteEntry entryId =>
      simp only [body, run_mapError, run_deleteEntryBody, Duplicates, not_false_iff, iff_true]
      intro _
      split
      · exact hp
      · exact hp.sublist (List.filter_sublist.map _)
  | commitQuarantineImport policy quarantined =>
      simp only [body, run_mapError, Duplicates, not_false_iff, iff_true]
      intro _
      obtain ⟨hdistinct, hdisjoint⟩ := hfresh
      unfold commitQuarantinedImportIntoPayload
      rw [Mut.run_bind_ok (Mut.run_read p)]
      split
      · exact hp
      · split
        · exact hp
        · have happend : (p.ids ++ quarantined.payload.ids).Nodup :=
            List.nodup_append'.mpr ⟨hp, hdistinct, hdisjoint⟩
          simpa [VaultPayload.DistinctIds, VaultPayload.ids] using happend

end StoreCall

/-- The payload of the session, where there is one to read, has distinct identifiers. -/
def KeepsDistinctIds (serde : Serde VaultPayloadDto) (st : VaultState) : Prop :=
  ∀ p, getPayload serde st = some p → p.DistinctIds

/-- The call does not duplicate an identifier of the payload it finds. -/
def AvoidsDuplicates (serde : Serde VaultPayloadDto) (st : VaultState) (call : StoreCall) : Prop :=
  ∀ p, getPayload serde st = some p → ¬ call.Duplicates p

/-- An import brings new identifiers to the payload it finds. -/
def ImportsFreshIds (serde : Serde VaultPayloadDto) (st : VaultState) (call : StoreCall) : Prop :=
  ∀ p, getPayload serde st = some p → call.BringsFreshIds p

theorem keepsDistinctIds_run_iff {serde : Serde VaultPayloadDto} (hserde : serde.Lawful)
    {st : VaultState} (hst : KeepsDistinctIds serde st) {call : StoreCall}
    (hfresh : ImportsFreshIds serde st call) :
    KeepsDistinctIds serde (call.run serde st).2 ↔ AvoidsDuplicates serde st call := by
  cases hread : getPayload serde st with
  | none =>
      have hsame : (call.run serde st).2 = st := by
        simp [StoreCall.run, withUnlockedPayloadMut_of_getPayload_none _ hread]
      simp [KeepsDistinctIds, AvoidsDuplicates, hsame, hread]
  | some p =>
      obtain ⟨_, hafter⟩ := StoreCall.run_of_getPayload hserde hread call
      have hstep := StoreCall.distinctIds_body_iff (valid_of_getPayload hread) (hst p hread)
        (hfresh p hread)
      have havoids : AvoidsDuplicates serde st call ↔ ¬ call.Duplicates p := by
        simp [AvoidsDuplicates, hread]
      rw [havoids, ← hstep, KeepsDistinctIds, hafter]
      by_cases hvalid : (call.body.run p).2.Valid <;> simp [hvalid]

/-- The identifiers stay distinct in every state of a run exactly when no step of it writes a
valid entry over a stored one under the identifier of another. -/
theorem distinctIds_run_iff {serde : Serde VaultPayloadDto} (hserde : serde.Lawful)
    {st : VaultState} {p : VaultPayload} (hst : getPayload serde st = some p)
    (hp : p.DistinctIds) {calls : List StoreCall}
    (hfresh : EveryStep (storeStep serde) (ImportsFreshIds serde) st calls) :
    (∀ pre t q, pre <+: calls → exec (storeStep serde) st pre = some t →
      getPayload serde t = some q → q.DistinctIds) ↔
      EveryStep (storeStep serde) (AvoidsDuplicates serde) st calls := by
  have hinv : KeepsDistinctIds serde st := by
    intro q hq
    rwa [Option.some.inj (hq.symm.trans hst)]
  have htotal : ∀ s call, ∃ s', storeStep serde s call = some s' := fun s call => ⟨_, rfl⟩
  have hrule : (∀ pre t, pre <+: calls → exec (storeStep serde) st pre = some t →
      KeepsDistinctIds serde t) ↔ EveryStep (storeStep serde) (AvoidsDuplicates serde) st calls :=
    invariant_iff_everyStep (ImportsFreshIds serde) (AvoidsDuplicates serde)
      (KeepsDistinctIds serde) (by
        intro s call s' hs hside hstep
        obtain rfl : (call.run serde s).2 = s' := Option.some.inj hstep
        exact keepsDistinctIds_run_iff hserde hs hside) hinv hfresh
      (exists_exec htotal st calls)
  rw [← hrule]
  constructor
  · exact fun h pre t hpre ht q hq => h pre t q hpre ht hq
  · exact fun h pre t q hpre ht hq => h pre t hpre ht q hq

/-- The stored password entry under the identifier of the authenticator entry. -/
def strayEntry : VaultEntry := { mailEntry with metadata.id := 2 }

/-- The theorem on a run of one call. -/
theorem distinctIds_run_iff_stray :
    (∀ pre t q, pre <+: [StoreCall.updateEntry 1 strayEntry] →
      exec (storeStep payloadJson) (sessionOn ⟨[mailEntry, tokenEntry]⟩) pre = some t →
      getPayload payloadJson t = some q → q.DistinctIds) ↔
      EveryStep (storeStep payloadJson) (AvoidsDuplicates payloadJson)
        (sessionOn ⟨[mailEntry, tokenEntry]⟩) [StoreCall.updateEntry 1 strayEntry] :=
  distinctIds_run_iff payloadJson_lawful (getPayload_sessionOn (by decide)) (by decide)
    ⟨fun _ _ => trivial, fun _ _ => trivial⟩

/-- A successful `update_entry` leaves two entries with one identifier. -/
theorem update_duplicates_id :
    getPayload payloadJson (sessionOn ⟨[mailEntry, tokenEntry]⟩) =
      some ⟨[mailEntry, tokenEntry]⟩ ∧
    VaultPayload.DistinctIds ⟨[mailEntry, tokenEntry]⟩ ∧
    ((StoreCall.updateEntry 1 strayEntry).run payloadJson
      (sessionOn ⟨[mailEntry, tokenEntry]⟩)).1 = .ok () ∧
    ∃ q, getPayload payloadJson ((StoreCall.updateEntry 1 strayEntry).run payloadJson
      (sessionOn ⟨[mailEntry, tokenEntry]⟩)).2 = some q ∧ ¬ q.DistinctIds := by
  have hbefore : getPayload payloadJson (sessionOn ⟨[mailEntry, tokenEntry]⟩) =
      some ⟨[mailEntry, tokenEntry]⟩ := getPayload_sessionOn (by decide)
  have hbody : (StoreCall.updateEntry 1 strayEntry).body.run ⟨[mailEntry, tokenEntry]⟩ =
      (.ok (), ⟨[strayEntry, tokenEntry]⟩) := rfl
  obtain ⟨hanswer, hread⟩ := StoreCall.run_of_getPayload payloadJson_lawful hbefore
    (.updateEntry 1 strayEntry)
  refine ⟨hbefore, by decide, by rw [hanswer, hbody], ⟨[strayEntry, tokenEntry]⟩, ?_, by decide⟩
  rw [hread, hbody, if_pos (by decide)]

/-! ## The map -/

/-- What an entry holds beside its identifier. -/
structure EntryContent where
  entryType : EntryType
  secret : EntrySecret

namespace EntryContent

/-- The entry with this content under an identifier. -/
def entry (c : EntryContent) (id : Uuid) : VaultEntry :=
  { metadata := { id := id, entryType := c.entryType }, secret := c.secret }

/-- The content of an entry. -/
def ofEntry (e : VaultEntry) : EntryContent :=
  { entryType := e.metadata.entryType, secret := e.secret }

@[simp] theorem entry_ofEntry (e : VaultEntry) : (ofEntry e).entry e.metadata.id = e := rfl

end EntryContent

/-- The map that a payload with distinct identifiers stands for. -/
def VaultPayload.toMap (p : VaultPayload) (hp : p.DistinctIds) : OrderedMap Uuid EntryContent :=
  OrderedMap.ofList (fun e : VaultEntry => e.metadata.id) EntryContent.ofEntry p.entries hp

/-- The answers of the session are those of the map. -/
structure Represents (serde : Serde VaultPayloadDto) (st : VaultState)
    (m : OrderedMap Uuid EntryContent) : Prop where
  getEntry : ∀ id, getEntry serde id st =
    match m.lookup id with
    | none => .error .entryNotFound
    | some c => .ok (c.entry id).toView
  listEntries : listEntries serde st =
    some (m.bindings.map fun b => (b.2.entry b.1).toSummary)

theorem represents_toMap {serde : Serde VaultPayloadDto} {st : VaultState} {p : VaultPayload}
    (hst : getPayload serde st = some p) (hp : p.DistinctIds) :
    Represents serde st (p.toMap hp) := by
  cases st with
  | locked => cases hst
  | unlocked s =>
      have hdecode : decodePayloadFromPlaintextJson serde s.plaintextJson = some p := hst
      constructor
      · intro id
        simp only [getEntry, withUnlockedPayload, hdecode, VaultPayload.toMap, OrderedMap.ofList]
        cases hfind : p.entries.find? (fun e => e.metadata.id == id) with
        | none => simp [hfind]
        | some e =>
            obtain rfl : e.metadata.id = id := by simpa using List.find?_some hfind
            simp [hfind]
      · have hbindings : (p.toMap hp).bindings =
            p.entries.map fun e => (e.metadata.id, EntryContent.ofEntry e) :=
          OrderedMap.bindings_ofList _ _ p.entries hp
        simp only [listEntries, withUnlockedPayload, hdecode, hbindings]
        simp [Function.comp_def]

/-- The four operations on entries. -/
inductive EntryOp
  | add (entry : VaultEntry)
  | update (entryId : Uuid) (newEntry : VaultEntry)
  | updateFields (entryId : Uuid) (u : EntryUpdate)
  | delete (entryId : Uuid)

namespace EntryOp

/-- The call of the operation. -/
def toCall : EntryOp → StoreCall
  | .add entry => .addEntry entry
  | .update entryId newEntry => .updateEntry entryId newEntry
  | .updateFields entryId u => .updateEntryFields entryId u
  | .delete entryId => .deleteEntry entryId

/-- The identifier the operation is about. -/
def target : EntryOp → Uuid
  | .add entry => entry.metadata.id
  | .update entryId _ => entryId
  | .updateFields entryId _ => entryId
  | .delete entryId => entryId

/-- The entry that is handed over is valid, and it is replaced under its own identifier. -/
def Sound : EntryOp → Prop
  | .add entry => entry.Valid
  | .update entryId newEntry => newEntry.Valid ∧ newEntry.metadata.id = entryId
  | .updateFields _ _ => True
  | .delete _ => True

/-- What the operation does to the map. -/
inductive MapStep : EntryOp → OrderedMap Uuid EntryContent → OrderedMap Uuid EntryContent → Prop
  | add (entry : VaultEntry) (m : OrderedMap Uuid EntryContent)
      (h : entry.metadata.id ∉ m.keys) :
      MapStep (.add entry) m (m.insert entry.metadata.id (.ofEntry entry) h)
  | update (entryId : Uuid) (newEntry : VaultEntry) (m : OrderedMap Uuid EntryContent)
      (h : entryId ∈ m.keys) :
      MapStep (.update entryId newEntry) m (m.replace entryId (.ofEntry newEntry) h)
  | updateFields (entryId : Uuid) (u : EntryUpdate) (c : EntryContent)
      (m : OrderedMap Uuid EntryContent) (h : entryId ∈ m.keys) :
      MapStep (.updateFields entryId u) m (m.replace entryId c h)
  | delete (entryId : Uuid) (m : OrderedMap Uuid EntryContent) (h : entryId ∈ m.keys) :
      MapStep (.delete entryId) m (m.erase entryId)

/-- The map keeps every binding but the one the operation is about. -/
theorem MapStep.agreeOff {op : EntryOp} {m m' : OrderedMap Uuid EntryContent}
    (h : MapStep op m m') : m.AgreeOff op.target m' := by
  cases h with
  | add entry _ hnew => exact m.agreeOff_insert hnew
  | update entryId newEntry _ hmem => exact m.agreeOff_replace hmem
  | updateFields entryId u c _ hmem => exact m.agreeOff_replace hmem
  | delete entryId _ _ => exact m.agreeOff_erase entryId

end EntryOp

/-- Every other entry is served as before, and the others are listed in the same order. -/
structure OthersUnchanged (serde : Serde VaultPayloadDto) (id : Uuid) (st st' : VaultState) :
    Prop where
  view : ∀ other, other ≠ id → getEntry serde other st' = getEntry serde other st
  order : (listEntries serde st').map (List.filter fun s => s.id ≠ id) =
    (listEntries serde st).map (List.filter fun s => s.id ≠ id)

/-- The same identifiers are listed in the same places. -/
def SamePlaces (serde : Serde VaultPayloadDto) (st st' : VaultState) : Prop :=
  (listEntries serde st').map (List.map EntrySummary.id) =
    (listEntries serde st).map (List.map EntrySummary.id)

/-- What the caller of the operation sees of the map, before it and after it. -/
def EntryOp.ActsAsMap (serde : Serde VaultPayloadDto) (st st' : VaultState) : EntryOp → Prop
  | .add entry =>
      listEntries serde st' = (listEntries serde st).map (· ++ [entry.toSummary]) ∧
      getEntry serde entry.metadata.id st' = .ok entry.toView ∧
      OthersUnchanged serde entry.metadata.id st st'
  | .update entryId newEntry =>
      getEntry serde entryId st' = .ok { newEntry.toView with id := entryId } ∧
      SamePlaces serde st st' ∧ OthersUnchanged serde entryId st st'
  | .updateFields entryId _ =>
      (∃ v, getEntry serde entryId st' = .ok v) ∧
      SamePlaces serde st st' ∧ OthersUnchanged serde entryId st st'
  | .delete entryId =>
      getEntry serde entryId st' = .error .entryNotFound ∧
      OthersUnchanged serde entryId st st'

section Answers

variable {serde : Serde VaultPayloadDto} {st st' : VaultState}
  {m m' : OrderedMap Uuid EntryContent}

theorem Represents.othersUnchanged (h : Represents serde st m) (h' : Represents serde st' m')
    {id : Uuid} (hoff : m.AgreeOff id m') : OthersUnchanged serde id st st' := by
  constructor
  · intro other hne
    rw [h'.getEntry, h.getEntry, hoff.lookup other hne]
  · have hlisted : ∀ n : OrderedMap Uuid EntryContent,
        (n.bindings.map fun b => (b.2.entry b.1).toSummary).filter (fun s => s.id ≠ id) =
          (n.bindings.filter fun b => b.1 ≠ id).map fun b => (b.2.entry b.1).toSummary := by
      intro n
      rw [List.filter_map]
      rfl
    rw [h'.listEntries, h.listEntries, Option.map_some, Option.map_some, hlisted, hlisted,
      hoff.bindings]

theorem Represents.samePlaces (h : Represents serde st m) (h' : Represents serde st' m')
    (hkeys : m'.keys = m.keys) : SamePlaces serde st st' := by
  have hlisted : ∀ n : OrderedMap Uuid EntryContent,
      (n.bindings.map fun b => (b.2.entry b.1).toSummary).map EntrySummary.id = n.keys := by
    intro n
    rw [← n.keys_bindings, List.map_map]
    rfl
  rw [SamePlaces, h'.listEntries, h.listEntries, Option.map_some, Option.map_some, hlisted,
    hlisted, hkeys]

/-- Where both sessions answer like their maps, a step of the map is what the caller sees. -/
theorem EntryOp.MapStep.actsAsMap {op : EntryOp} (h : Represents serde st m)
    (h' : Represents serde st' m') (hstep : op.MapStep m m') : op.ActsAsMap serde st st' := by
  have hothers := h.othersUnchanged h' hstep.agreeOff
  cases hstep with
  | add entry _ hnew =>
      refine ⟨?_, ?_, hothers⟩
      · rw [h'.listEntries, h.listEntries, OrderedMap.bindings_insert]
        simp
      · rw [h'.getEntry, OrderedMap.lookup_insert_self]
        simp
  | update entryId newEntry _ hmem =>
      refine ⟨?_, h.samePlaces h' rfl, hothers⟩
      rw [h'.getEntry, OrderedMap.lookup_replace_self]
      rfl
  | updateFields entryId u c _ hmem =>
      refine ⟨⟨(c.entry entryId).toView, ?_⟩, h.samePlaces h' rfl, hothers⟩
      rw [h'.getEntry, OrderedMap.lookup_replace_self]
  | delete entryId _ hmem =>
      refine ⟨?_, hothers⟩
      rw [h'.getEntry, OrderedMap.lookup_erase_self]

end Answers

/-! ## The closures and the map -/

/-- Overwriting an entry under its own identifier replaces its content in the map. -/
theorem toMap_overwrite {p : VaultPayload} {pre post : List VaultEntry} {e e' : VaultEntry}
    (hp : p.DistinctIds) (hsplit : p.entries = pre ++ e :: post)
    (hid : e'.metadata.id = e.metadata.id) :
    ∃ (h : VaultPayload.DistinctIds ⟨pre ++ e' :: post⟩) (hmem : e.metadata.id ∈ (p.toMap hp).keys),
      VaultPayload.toMap ⟨pre ++ e' :: post⟩ h =
        (p.toMap hp).replace e.metadata.id (.ofEntry e') hmem := by
  obtain ⟨entries⟩ := p
  obtain rfl : entries = pre ++ e :: post := hsplit
  have h : VaultPayload.DistinctIds ⟨pre ++ e' :: post⟩ :=
    (distinctIds_overwrite_iff rfl hp).mpr fun h => h.1 hid
  exact ⟨h, _, OrderedMap.ofList_overwrite (fun e : VaultEntry => e.metadata.id)
    EntryContent.ofEntry pre post e e' hid hp h⟩

/-- A successful `add_entry` appends an entry with a new identifier. -/
theorem run_addEntry_of_ok {p : VaultPayload} {entry : VaultEntry}
    (hok : ((EntryOp.add entry).toCall.body.run p).1 = .ok ()) :
    entry.metadata.id ∉ p.ids ∧
      ((EntryOp.add entry).toCall.body.run p).2 = ⟨p.entries ++ [entry]⟩ := by
  simp only [EntryOp.toCall, StoreCall.body, run_mapError, run_addEntryBody] at hok ⊢
  split at hok
  · simp [Except.mapError] at hok
  · next hnew =>
      exact ⟨fun h => hnew (VaultPayload.any_id_iff.mpr h), by rw [if_neg hnew]⟩

/-- A successful `update_entry` overwrites the entry it found. -/
theorem run_updateEntry_of_ok {p : VaultPayload} {entryId : Uuid} {newEntry : VaultEntry}
    (hok : ((EntryOp.update entryId newEntry).toCall.body.run p).1 = .ok ()) :
    ∃ pre e post, p.entries = pre ++ e :: post ∧ e.metadata.id = entryId ∧
      ((EntryOp.update entryId newEntry).toCall.body.run p).2 = ⟨pre ++ newEntry :: post⟩ := by
  simp only [EntryOp.toCall, StoreCall.body, run_mapError, updateEntryBody] at hok ⊢
  cases hfind : p.entries.find? (fun e => e.metadata.id == entryId) with
  | none => simp [run_onFound_of_none _ hfind, Except.mapError] at hok
  | some e =>
      obtain ⟨pre, post, hsplit, hrun⟩ := run_onFound_of_some (Mut.write fun _ => newEntry) hfind
      exact ⟨pre, e, post, hsplit, by simpa using List.find?_some hfind, by rw [hrun]; rfl⟩

/-- A successful field update leaves a valid entry under the same identifier. -/
theorem run_updateEntryFields_of_ok {p : VaultPayload} (hvalid : p.Valid) {entryId : Uuid}
    {u : EntryUpdate} (hok : ((EntryOp.updateFields entryId u).toCall.body.run p).1 = .ok ()) :
    ∃ pre e post e', p.entries = pre ++ e :: post ∧ e.metadata.id = entryId ∧
      e'.metadata.id = e.metadata.id ∧ e'.Valid ∧
      ((EntryOp.updateFields entryId u).toCall.body.run p).2 = ⟨pre ++ e' :: post⟩ := by
  simp only [EntryOp.toCall] at hok ⊢
  cases hfind : p.entries.find? (fun e => e.metadata.id == entryId) with
  | none =>
      simp [StoreCall.body, run_mapError, updateEntryFieldsBody, run_onFound_of_none _ hfind,
        Except.mapError] at hok
  | some e =>
      obtain ⟨pre, post, hsplit, hbody⟩ :=
        StoreCall.run_body_updateEntryFields u hfind
      have hrun : ((VaultEntry.applyUpdate u).run e).1 = .ok () := by
        rw [hbody] at hok
        cases hresult : ((VaultEntry.applyUpdate u).run e).1 with
        | ok _ => rfl
        | error err => simp [hresult, Except.mapError] at hok
      refine ⟨pre, e, post, ((VaultEntry.applyUpdate u).run e).2, hsplit,
        by simpa using List.find?_some hfind, ?_, ?_, by rw [hbody]⟩
      · rw [VaultEntry.metadata_run_applyUpdate]
      · exact EntryUpdate.valid_of_run_applyUpdate (valid_of_find hvalid hfind) hrun

/-- A successful `delete_entry` filters out a stored identifier. -/
theorem run_deleteEntry_of_ok {p : VaultPayload} {entryId : Uuid}
    (hok : ((EntryOp.delete entryId).toCall.body.run p).1 = .ok ()) :
    entryId ∈ p.ids ∧ ((EntryOp.delete entryId).toCall.body.run p).2 =
      ⟨p.entries.filter fun e => e.metadata.id != entryId⟩ := by
  simp only [EntryOp.toCall, StoreCall.body, run_mapError, run_deleteEntryBody] at hok ⊢
  split at hok
  · simp [Except.mapError] at hok
  · next hkept =>
      refine ⟨?_, by rw [if_neg hkept]⟩
      by_contra habsent
      apply hkept
      apply List.filter_eq_self.mpr
      intro e he
      have hne : e.metadata.id ≠ entryId := fun hid => habsent (hid ▸ List.mem_map_of_mem he)
      simpa using hne

/-- A successful operation on sound arguments is a step of the map. -/
theorem EntryOp.mapStep_of_sound {p : VaultPayload} (hvalid : p.Valid) (hp : p.DistinctIds)
    {op : EntryOp} (hok : (op.toCall.body.run p).1 = .ok ()) (hsound : op.Sound) :
    (op.toCall.body.run p).2.Valid ∧ ∃ h : (op.toCall.body.run p).2.DistinctIds,
      op.MapStep (p.toMap hp) ((op.toCall.body.run p).2.toMap h) := by
  cases op with
  | add entry =>
      obtain ⟨hnew, hleft⟩ := run_addEntry_of_ok hok
      have hdistinct := VaultPayload.distinctIds_concat hp hnew
      have hmap : VaultPayload.toMap ⟨p.entries ++ [entry]⟩ hdistinct =
          (p.toMap hp).insert entry.metadata.id (.ofEntry entry) hnew :=
        OrderedMap.ofList_concat (fun e : VaultEntry => e.metadata.id) EntryContent.ofEntry
          p.entries entry hp hnew hdistinct
      rw [hleft]
      refine ⟨?_, hdistinct, hmap ▸ MapStep.add entry (p.toMap hp) hnew⟩
      intro e he
      rcases List.mem_append.mp he with he | he
      · exact hvalid e he
      · exact (List.mem_singleton.mp he).symm ▸ hsound
  | update entryId newEntry =>
      obtain ⟨hnew, hid⟩ := hsound
      obtain ⟨pre, e, post, hsplit, rfl, hleft⟩ := run_updateEntry_of_ok hok
      obtain ⟨hdistinct, hmem, hmap⟩ := toMap_overwrite hp hsplit hid
      rw [hleft]
      exact ⟨(valid_replace_iff hvalid hsplit).mpr hnew, hdistinct,
        hmap ▸ MapStep.update _ newEntry (p.toMap hp) hmem⟩
  | updateFields entryId u =>
      obtain ⟨pre, e, post, e', hsplit, rfl, hid, hnew, hleft⟩ :=
        run_updateEntryFields_of_ok hvalid hok
      obtain ⟨hdistinct, hmem, hmap⟩ := toMap_overwrite hp hsplit hid
      rw [hleft]
      exact ⟨(valid_replace_iff hvalid hsplit).mpr hnew, hdistinct,
        hmap ▸ MapStep.updateFields _ u _ (p.toMap hp) hmem⟩
  | delete entryId =>
      obtain ⟨hmem, hleft⟩ := run_deleteEntry_of_ok hok
      have hdistinct : VaultPayload.DistinctIds
          ⟨p.entries.filter fun e => e.metadata.id != entryId⟩ :=
        hp.sublist (List.filter_sublist.map _)
      have hmap : VaultPayload.toMap ⟨p.entries.filter fun e => e.metadata.id != entryId⟩
          hdistinct = (p.toMap hp).erase entryId :=
        OrderedMap.ofList_filter (fun e : VaultEntry => e.metadata.id) EntryContent.ofEntry
          p.entries entryId hp hdistinct
      rw [hleft]
      refine ⟨fun e he => hvalid e (List.mem_of_mem_filter he), hdistinct, ?_⟩
      exact hmap ▸ MapStep.delete entryId (p.toMap hp) hmem

/-- An entry that is served is in the payload that is read. -/
theorem exists_of_getEntry_ok {serde : Serde VaultPayloadDto} {st : VaultState} {id : Uuid}
    {v : EntryView} (h : getEntry serde id st = .ok v) :
    ∃ p, getPayload serde st = some p ∧ id ∈ p.ids := by
  cases st with
  | locked => simp [getEntry, withUnlockedPayload] at h
  | unlocked s =>
      cases hdecode : decodePayloadFromPlaintextJson serde s.plaintextJson with
      | none => simp [getEntry, withUnlockedPayload, hdecode] at h
      | some p =>
          refine ⟨p, hdecode, ?_⟩
          cases hfind : p.entries.find? (fun e => e.metadata.id == id) with
          | none => simp [getEntry, withUnlockedPayload, hdecode, hfind] at h
          | some e =>
              obtain rfl : e.metadata.id = id := by simpa using List.find?_some hfind
              exact List.mem_map_of_mem (List.mem_of_find?_eq_some hfind)

/-- A successful operation is what the caller of an insertion-ordered map sees exactly when the
entry it hands over is valid and keeps the identifier it replaces. -/
theorem actsAsMap_iff {serde : Serde VaultPayloadDto} (hserde : serde.Lawful) {st : VaultState}
    {p : VaultPayload} (hst : getPayload serde st = some p) (hp : p.DistinctIds) {op : EntryOp}
    (hok : (op.toCall.run serde st).1 = .ok ()) :
    op.ActsAsMap serde st (op.toCall.run serde st).2 ↔ op.Sound := by
  have hvalid : p.Valid := valid_of_getPayload hst
  obtain ⟨hanswer, hread⟩ := StoreCall.run_of_getPayload hserde hst op.toCall
  rw [hanswer] at hok
  constructor
  · intro hacts
    -- what is served afterwards is in the payload that the closure left
    have hserved : ∀ {id v}, getEntry serde id (op.toCall.run serde st).2 = .ok v →
        (op.toCall.body.run p).2.Valid ∧ id ∈ (op.toCall.body.run p).2.ids := by
      intro id v hv
      obtain ⟨q, hq, hmem⟩ := exists_of_getEntry_ok hv
      rw [hread] at hq
      split at hq
      · next hleft => exact ⟨hleft, Option.some.inj hq ▸ hmem⟩
      · cases hq
    cases op with
    | add entry =>
        obtain ⟨_, hview, _⟩ := hacts
        obtain ⟨_, hleft⟩ := run_addEntry_of_ok hok
        have hafter := (hserved hview).1
        rw [hleft] at hafter
        exact hafter entry (by simp)
    | update entryId newEntry =>
        obtain ⟨hview, _⟩ := hacts
        obtain ⟨pre, e, post, hsplit, hid, hleft⟩ := run_updateEntry_of_ok hok
        obtain ⟨hafter, hmem⟩ := hserved hview
        rw [hleft] at hafter hmem
        refine ⟨hafter newEntry (by simp), ?_⟩
        have hothers : entryId ∉ pre.map (·.metadata.id) ++ post.map (·.metadata.id) := by
          rw [VaultPayload.DistinctIds, VaultPayload.ids_of_split hsplit, List.nodup_middle,
            List.nodup_cons] at hp
          exact hid ▸ hp.1
        simp only [VaultPayload.ids, List.map_append, List.map_cons, List.mem_append,
          List.mem_cons] at hmem hothers
        tauto
    | updateFields entryId u => trivial
    | delete entryId => trivial
  · intro hsound
    obtain ⟨hafter, hdistinct, hstep⟩ := EntryOp.mapStep_of_sound hvalid hp hok hsound
    rw [if_pos hafter] at hread
    exact hstep.actsAsMap (represents_toMap hst hp) (represents_toMap hread hdistinct)

/-- The stored password entry under a fresh identifier. -/
def renewedEntry : VaultEntry := { mailEntry with metadata.id := 7 }

/-- The theorem on an entry that is replaced under another identifier. -/
theorem actsAsMap_iff_renewed :
    (EntryOp.update 1 renewedEntry).ActsAsMap payloadJson
      (sessionOn ⟨[mailEntry, tokenEntry]⟩)
      ((EntryOp.update 1 renewedEntry).toCall.run payloadJson
        (sessionOn ⟨[mailEntry, tokenEntry]⟩)).2 ↔
      (EntryOp.update 1 renewedEntry).Sound := by
  have hbefore : getPayload payloadJson (sessionOn ⟨[mailEntry, tokenEntry]⟩) =
      some ⟨[mailEntry, tokenEntry]⟩ := getPayload_sessionOn (by decide)
  apply actsAsMap_iff payloadJson_lawful hbefore (by decide)
  rw [(StoreCall.run_of_getPayload payloadJson_lawful hbefore _).1]
  rfl

/-- A successful `update_entry` with a fresh identifier, as every constructor mints one, takes
the entry away from the identifier it was asked to update. -/
theorem update_loses_id :
    getPayload payloadJson (sessionOn ⟨[mailEntry, tokenEntry]⟩) =
      some ⟨[mailEntry, tokenEntry]⟩ ∧
    VaultPayload.DistinctIds ⟨[mailEntry, tokenEntry]⟩ ∧
    ((EntryOp.update 1 renewedEntry).toCall.run payloadJson
      (sessionOn ⟨[mailEntry, tokenEntry]⟩)).1 = .ok () ∧
    getEntry payloadJson 1
      ((EntryOp.update 1 renewedEntry).toCall.run payloadJson
        (sessionOn ⟨[mailEntry, tokenEntry]⟩)).2 = .error .entryNotFound ∧
    ¬ (EntryOp.update 1 renewedEntry).ActsAsMap payloadJson
      (sessionOn ⟨[mailEntry, tokenEntry]⟩)
      ((EntryOp.update 1 renewedEntry).toCall.run payloadJson
        (sessionOn ⟨[mailEntry, tokenEntry]⟩)).2 := by
  have hbefore : getPayload payloadJson (sessionOn ⟨[mailEntry, tokenEntry]⟩) =
      some ⟨[mailEntry, tokenEntry]⟩ := getPayload_sessionOn (by decide)
  have hbody : (EntryOp.update 1 renewedEntry).toCall.body.run
      ⟨[mailEntry, tokenEntry]⟩ = (.ok (), ⟨[renewedEntry, tokenEntry]⟩) :=
    rfl
  obtain ⟨hanswer, hread⟩ := StoreCall.run_of_getPayload payloadJson_lawful hbefore
    (EntryOp.update 1 renewedEntry).toCall
  rw [hbody, if_pos (by decide)] at hread
  have hlost := (represents_toMap hread (by decide)).getEntry 1
  have hnone : (VaultPayload.toMap ⟨[renewedEntry, tokenEntry]⟩
      (by decide)).lookup 1 = none := by decide
  rw [hnone] at hlost
  refine ⟨hbefore, by decide, by rw [hanswer, hbody], hlost, ?_⟩
  rintro ⟨hview, _⟩
  rw [hlost] at hview
  cases hview

end ViperVault
