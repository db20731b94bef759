import ViperVault.Core.Biometrics
import ViperVault.Foundation.HostHeap
import ViperVault.Foundation.Runs

/-!
# Host buffers across the FFI

`biometrics/ffi.rs` and `clipboard/ffi.rs`: `unseal_master_key` and `get` call the host, which
answers a code and a buffer of its own memory. The calls of both backends interleave, and between
two steps of one call the host answers others and takes buffers back. Backends are built with all
their callbacks, so that a call finds them.
-/

namespace ViperVault

open Foundation

/-- `VV_OK`. -/
def vvOk : Int := 0

namespace VvBiometrics

/-- `VV_ERR_UNAVAILABLE`. -/
def errUnavailable : Int := -2

/-- `VV_ERR_AUTH`. -/
def errAuth : Int := -3

/-- `MASTER_KEY_LEN`. -/
def masterKeyLen : Nat := 32

/-- `MAX_VAULT_ID_LEN`. -/
def maxVaultIdLen : Nat := 128

end VvBiometrics

/-- `MAX_CLIPBOARD_BYTES`. -/
def maxClipboardBytes : Nat := 1024 * 1024

/-- What a host answers: a code, a buffer that it allocates or a null pointer, and a length. -/
structure HostReply where
  rc : Int
  content : Option Bytes
  len : Nat
  deriving DecidableEq

/-- `out_ptr` and `out_len`. -/
structure HostOut where
  ptr : Option Nat
  len : Nat
  deriving DecidableEq

/-- Where a call of `unseal_master_key` stands. -/
inductive UnsealPc
  | start
  /-- the host has answered, and `_guard` holds the buffer -/
  | called (rc : Int) (out : HostOut)
  /-- code and length are accepted -/
  | reading (p : Nat) (out : HostOut)
  /-- `_guard` is dropped next -/
  | returning (out : HostOut) (answer : Except BiometricError Bytes)
  | returned (answer : Except BiometricError Bytes)

/-- Where a call of `get` stands. -/
inductive GetPc
  | start
  /-- the host has answered -/
  | called (rc : Int) (out : HostOut)
  /-- `_guard` holds the buffer -/
  | guarded (out : HostOut)
  /-- pointer and length are accepted -/
  | reading (p : Nat) (out : HostOut)
  /-- `_guard` is dropped next -/
  | returning (out : HostOut) (answer : Option Text)
  | returned (answer : Option Text)

/-- The drop of `_guard`. -/
def HostOut.release (out : HostOut) (heap : HostHeap UInt8) :
    Except MemoryFault (HostHeap UInt8) :=
  match out.ptr with
  | none => .ok heap
  | some p => heap.free p

/-- The next step of `FfiBiometricBackend::unseal_master_key`. The call of the host is not one of
them. -/
def UnsealPc.advance (vaultId : Bytes) (heap : HostHeap UInt8) :
    UnsealPc → Option (Except MemoryFault (UnsealPc × HostHeap UInt8))
  | .start =>
      if vaultId = [] ∨ VvBiometrics.maxVaultIdLen < vaultId.length then
        some (.ok (.returned (.error .invalidResponse), heap))
      else none
  | .called rc out => some <| .ok <|
      if rc = vvOk then
        match out.ptr with
        | none => (.returning out (.error .invalidResponse), heap)
        | some p =>
            if out.len ≠ VvBiometrics.masterKeyLen then
              (.returning out (.error .invalidResponse), heap)
            else (.reading p out, heap)
      else if rc = VvBiometrics.errUnavailable then (.returning out (.error .unavailable), heap)
      else if rc = VvBiometrics.errAuth then (.returning out (.error .authFailed), heap)
      else (.returning out (.error .invalidResponse), heap)
  | .reading p out => some do
      let bytes ← heap.read p out.len
      return (.returning out (.ok bytes), heap)
  | .returning out answer => some do
      let heap' ← out.release heap
      return (.returned answer, heap')
  | .returned _ => none

/-- The next step of `FfiClipboardBackend::get`. -/
def GetPc.advance (heap : HostHeap UInt8) :
    GetPc → Option (Except MemoryFault (GetPc × HostHeap UInt8))
  | .start => none
  | .called rc out => some <| .ok <|
      -- the early return stands before `_guard`
      if rc ≠ vvOk then (.returned none, heap) else (.guarded out, heap)
  | .guarded out => some <| .ok <|
      match out.ptr with
      | none => (.returning out none, heap)
      | some p =>
          if out.len = 0 ∨ maxClipboardBytes < out.len then (.returning out none, heap)
          else (.reading p out, heap)
  | .reading p out => some do
      let bytes ← heap.read p out.len
      return (.returning out (Json.utf8? bytes), heap)
  | .returning out answer => some do
      let heap' ← out.release heap
      return (.returned answer, heap')
  | .returned _ => none

/-- A call into the host. -/
inductive HostCall
  | unsealMasterKey (vaultId : Bytes) (pc : UnsealPc)
  | get (pc : GetPc)

/-- The next step of a call. -/
def HostCall.advance (heap : HostHeap UInt8) :
    HostCall → Option (Except MemoryFault (HostCall × HostHeap UInt8))
  | .unsealMasterKey vaultId pc =>
      (pc.advance vaultId heap).map (Except.map (Prod.map (.unsealMasterKey vaultId) id))
  | .get pc => (pc.advance heap).map (Except.map (Prod.map .get id))

/-- The call once the host has answered it. -/
def HostCall.answered (rc : Int) (out : HostOut) : HostCall → Option HostCall
  | .unsealMasterKey vaultId .start =>
      if vaultId = [] ∨ VvBiometrics.maxVaultIdLen < vaultId.length then none
      else some (.unsealMasterKey vaultId (.called rc out))
  | .get .start => some (.get (.called rc out))
  | _ => none

/-- A call with what the host answered it and where; nothing reads the answer from here. -/
structure HostEntry where
  call : HostCall
  reply : Option (HostReply × HostOut)

/-- The memory of the host and the calls into it. -/
structure HostWorld where
  heap : HostHeap UInt8
  calls : List HostEntry
  fault : Option MemoryFault

/-- The calls that a client can make. -/
inductive HostRequest
  | unsealMasterKey (vaultId : Bytes)
  | get

/-- The call as it is made. -/
def HostRequest.start : HostRequest → HostCall
  | .unsealMasterKey vaultId => .unsealMasterKey vaultId .start
  | .get => .get .start

/-- What can happen next. -/
inductive HostEvent
  | invoke (request : HostRequest)
  | reply (i : Nat) (reply : HostReply)
  | advance (i : Nat)

namespace HostWorld

/-- No call, and no buffer. -/
def new : HostWorld := ⟨[], [], none⟩

/-- The host's memory with the buffer of an answer, and what the call is told of it. -/
def allocate (heap : HostHeap UInt8) (reply : HostReply) : HostOut × HostHeap UInt8 :=
  match reply.content with
  | none => (⟨none, reply.len⟩, heap)
  | some content => (⟨some heap.length, reply.len⟩, heap.alloc content)

/-- One step of a client, of the host or of a call. After a fault there is none. -/
def step (w : HostWorld) (ev : HostEvent) : Option HostWorld :=
  if w.fault.isSome then none
  else
    match ev with
    | .invoke request => some { w with calls := w.calls ++ [⟨request.start, none⟩] }
    | .reply i reply => do
        let entry ← w.calls[i]?
        let (out, heap) := allocate w.heap reply
        let call ← entry.call.answered reply.rc out
        some { w with heap := heap, calls := w.calls.set i ⟨call, some (reply, out)⟩ }
    | .advance i => do
        let entry ← w.calls[i]?
        match ← entry.call.advance w.heap with
        | .error fault => some { w with fault := some fault }
        | .ok (call, heap) =>
            some { w with heap := heap, calls := w.calls.set i { entry with call := call } }

end HostWorld

/-- The host tells the length of the buffer that it hands out. -/
def HostReply.Honest (reply : HostReply) : Prop :=
  ∀ content, reply.content = some content → reply.len = content.length

/-- The master key that an answer releases. -/
def HostReply.masterKey (reply : HostReply) : Except BiometricError Bytes :=
  if reply.rc = vvOk then
    match reply.content with
    | none => .error .invalidResponse
    | some key =>
        if key.length = VvBiometrics.masterKeyLen then .ok key else .error .invalidResponse
  else if reply.rc = VvBiometrics.errUnavailable then .error .unavailable
  else if reply.rc = VvBiometrics.errAuth then .error .authFailed
  else .error .invalidResponse

/-- The clipboard text that an answer shows. -/
def HostReply.text (reply : HostReply) : Option Text :=
  if reply.rc = vvOk then
    match reply.content with
    | none => none
    | some content =>
        if content = [] ∨ maxClipboardBytes < content.length then none else Json.utf8? content
  else none

/-! ## The buffer of a call -/

namespace HostWorld

/-- The call was told of the answer's buffer, which is live. -/
structure Holds (heap : HostHeap UInt8) (reply : HostReply) (out : HostOut) : Prop where
  null : reply.content = none → out.ptr = none
  live : ∀ content, reply.content = some content →
    ∃ p, out.ptr = some p ∧ out.len = content.length ∧ heap.Live p content

/-- The buffer was taken back. -/
def Released (heap : HostHeap UInt8) (out : HostOut) : Prop :=
  ∀ p, out.ptr = some p → heap.Freed p

/-- What a call of `unseal_master_key` knows where it stands. -/
def UnsealOk (heap : HostHeap UInt8) (reply : HostReply) (out : HostOut) : UnsealPc → Prop
  | .start => False
  | .called rc out' => rc = reply.rc ∧ out' = out ∧ Holds heap reply out
  | .reading p out' => out' = out ∧ Holds heap reply out ∧ out.ptr = some p ∧
      out.len = VvBiometrics.masterKeyLen ∧ reply.rc = vvOk
  | .returning out' answer => out' = out ∧ Holds heap reply out ∧ answer = reply.masterKey
  | .returned answer => Released heap out ∧ answer = reply.masterKey

/-- What a call of `get` knows where it stands. -/
def GetOk (heap : HostHeap UInt8) (reply : HostReply) (out : HostOut) : GetPc → Prop
  | .start => False
  | .called rc out' => rc = reply.rc ∧ out' = out ∧ Holds heap reply out
  | .guarded out' => out' = out ∧ Holds heap reply out ∧ reply.rc = vvOk
  | .reading p out' => out' = out ∧ Holds heap reply out ∧ out.ptr = some p ∧
      out.len ≠ 0 ∧ out.len ≤ maxClipboardBytes ∧ reply.rc = vvOk
  | .returning out' answer =>
      out' = out ∧ Holds heap reply out ∧ answer = reply.text ∧ reply.rc = vvOk
  | .returned answer => answer = reply.text ∧ (reply.rc = vvOk → Released heap out) ∧
      (reply.rc ≠ vvOk → Holds heap reply out)

/-- What holds of a call and the buffer it was handed. -/
def EntryOk (heap : HostHeap UInt8) (entry : HostEntry) : Prop :=
  match entry.call, entry.reply with
  | .unsealMasterKey vaultId pc, none =>
      pc = .start ∨ pc = .returned (.error .invalidResponse) ∧
        (vaultId = [] ∨ VvBiometrics.maxVaultIdLen < vaultId.length)
  | .unsealMasterKey _ pc, some (reply, out) => UnsealOk heap reply out pc
  | .get pc, none => pc = .start
  | .get pc, some (reply, out) => GetOk heap reply out pc

section Frame

variable {heap heap' : HostHeap UInt8} {reply : HostReply} {out : HostOut}

theorem Holds.alloc (h : Holds heap reply out) (content : Bytes) :
    Holds (heap.alloc content) reply out where
  null := h.null
  live own hown := by
    obtain ⟨p, hp, hlen, hlive⟩ := h.live own hown
    exact ⟨p, hp, hlen, hlive.alloc content⟩

theorem Holds.free {p : Nat} (h : Holds heap reply out) (hfree : heap.free p = .ok heap')
    (hne : out.ptr ≠ some p) : Holds heap' reply out where
  null := h.null
  live own hown := by
    obtain ⟨q, hq, hlen, hlive⟩ := h.live own hown
    refine ⟨q, hq, hlen, hlive.free hfree ?_⟩
    rintro rfl
    exact hne hq

theorem Released.alloc (h : Released heap out) (content : Bytes) :
    Released (heap.alloc content) out :=
  fun p hp => (h p hp).alloc content

theorem Released.free {p : Nat} (h : Released heap out) (hfree : heap.free p = .ok heap') :
    Released heap' out :=
  fun q hq => (h q hq).free hfree

/-- The host allocates the buffer of an honest answer. -/
theorem holds_allocate (heap : HostHeap UInt8) (hhonest : reply.Honest) :
    Holds (allocate heap reply).2 reply (allocate heap reply).1 := by
  cases hcontent : reply.content with
  | none =>
      refine ⟨fun _ => by simp [allocate, hcontent], ?_⟩
      rintro content hsome
      cases hcontent.symm.trans hsome
  | some content =>
      refine ⟨fun hnone => (by cases hcontent.symm.trans hnone), ?_⟩
      intro own hown
      obtain rfl : content = own := Option.some.inj (hcontent.symm.trans hown)
      refine ⟨heap.length, by simp [allocate, hcontent], ?_, ?_⟩
      · simp [allocate, hcontent, hhonest _ hcontent]
      · simp only [allocate, hcontent]
        exact heap.live_alloc content

/-- What a call knows is kept by what keeps its buffer. -/
theorem EntryOk.frame {entry : HostEntry} (h : EntryOk heap entry)
    (hholds : ∀ reply out, entry.reply = some (reply, out) → Holds heap reply out →
      Holds heap' reply out)
    (hreleased : ∀ reply out, entry.reply = some (reply, out) → Released heap out →
      Released heap' out) : EntryOk heap' entry := by
  obtain ⟨call, reply⟩ := entry
  cases reply with
  | none => cases call <;> exact h
  | some told =>
      obtain ⟨reply, out⟩ := told
      have hkeep := hholds reply out rfl
      have hkeep' := hreleased reply out rfl
      cases call with
      | unsealMasterKey vaultId pc =>
          cases pc with
          | start => exact h
          | called rc out' => exact ⟨h.1, h.2.1, hkeep h.2.2⟩
          | reading p out' => exact ⟨h.1, hkeep h.2.1, h.2.2⟩
          | returning out' answer => exact ⟨h.1, hkeep h.2.1, h.2.2⟩
          | returned answer => exact ⟨hkeep' h.1, h.2⟩
      | get pc =>
          cases pc with
          | start => exact h
          | called rc out' => exact ⟨h.1, h.2.1, hkeep h.2.2⟩
          | guarded out' => exact ⟨h.1, hkeep h.2.1, h.2.2⟩
          | reading p out' => exact ⟨h.1, hkeep h.2.1, h.2.2⟩
          | returning out' answer => exact ⟨h.1, hkeep h.2.1, h.2.2⟩
          | returned answer =>
              exact ⟨h.1, fun hok => hkeep' (h.2.1 hok), fun herr => hkeep (h.2.2 herr)⟩

end Frame

/-! ## The steps of a call -/

section Calls

variable {heap : HostHeap UInt8} {reply : HostReply} {out : HostOut}

/-- What a step may do to the heap: nothing, or the release of the call's own buffer. -/
def Touches (heap heap' : HostHeap UInt8) (out : HostOut) : Prop :=
  heap' = heap ∨ ∃ p, out.ptr = some p ∧ heap.free p = .ok heap'

/-- The drop of `_guard` takes a live buffer back. -/
theorem Holds.release (h : Holds heap reply out) :
    ∃ heap', out.release heap = .ok heap' ∧ Released heap' out ∧ Touches heap heap' out := by
  cases hcontent : reply.content with
  | none =>
      have hptr := h.null hcontent
      refine ⟨heap, by simp [HostOut.release, hptr], ?_, Or.inl rfl⟩
      intro p hp
      cases hptr.symm.trans hp
  | some content =>
      obtain ⟨p, hptr, -, hlive⟩ := h.live content hcontent
      obtain ⟨heap', hfree, hfreed⟩ := hlive.exists_free
      refine ⟨heap', by simp [HostOut.release, hptr, hfree], ?_, Or.inr ⟨p, hptr, hfree⟩⟩
      intro q hq
      obtain rfl : p = q := Option.some.inj (hptr.symm.trans hq)
      exact hfreed

/-- A pointer that was handed out is that of the answer's buffer. -/
theorem Holds.content_of_ptr (h : Holds heap reply out) {p : Nat} (hp : out.ptr = some p) :
    ∃ content, reply.content = some content ∧ out.len = content.length ∧
      heap.Live p content := by
  cases hcontent : reply.content with
  | none => cases (h.null hcontent).symm.trans hp
  | some content =>
      obtain ⟨q, hq, hlen, hlive⟩ := h.live content hcontent
      obtain rfl : q = p := Option.some.inj (hq.symm.trans hp)
      exact ⟨content, rfl, hlen, hlive⟩

/-- A null pointer means that there is no buffer. -/
theorem Holds.content_of_null (h : Holds heap reply out) (hnull : out.ptr = none) :
    reply.content = none := by
  by_contra hne
  obtain ⟨content, hsome⟩ := Option.ne_none_iff_exists'.mp hne
  obtain ⟨p, hp, -⟩ := h.live content hsome
  cases hnull.symm.trans hp

/-- The reads of a call are of its own buffer, and of all of it. -/
theorem Holds.read (h : Holds heap reply out) {p : Nat} (hp : out.ptr = some p) :
    ∃ content, reply.content = some content ∧ out.len = content.length ∧
      heap.read p out.len = .ok content := by
  obtain ⟨content, hcontent, hlen, hlive⟩ := h.content_of_ptr hp
  exact ⟨content, hcontent, hlen, by rw [hlen, hlive.read_length]⟩

theorem unsealOk_advance {vaultId : Bytes} {pc : UnsealPc}
    {r : Except MemoryFault (UnsealPc × HostHeap UInt8)} (h : UnsealOk heap reply out pc)
    (hadvance : pc.advance vaultId heap = some r) :
    ∃ pc' heap', r = .ok (pc', heap') ∧ UnsealOk heap' reply out pc' ∧
      Touches heap heap' out := by
  cases pc with
  | start => exact h.elim
  | called rc out' =>
      obtain ⟨rfl, rfl, hholds⟩ := h
      simp only [UnsealPc.advance, Option.some.injEq] at hadvance
      subst hadvance
      by_cases hok : reply.rc = vvOk
      · simp only [hok, if_true]
        split
        · rename_i hnull
          have hcontent := hholds.content_of_null hnull
          refine ⟨_, _, rfl, ⟨rfl, hholds, ?_⟩, Or.inl rfl⟩
          simp [HostReply.masterKey, hok, hcontent]
        · rename_i p hptr
          obtain ⟨content, hcontent, hlen, -⟩ := hholds.content_of_ptr hptr
          split
          · rename_i hbad
            refine ⟨_, _, rfl, ⟨rfl, hholds, ?_⟩, Or.inl rfl⟩
            simp [HostReply.masterKey, hok, hcontent, ← hlen, hbad]
          · rename_i hgood
            exact ⟨_, _, rfl, ⟨rfl, hholds, hptr, not_not.mp hgood, hok⟩, Or.inl rfl⟩
      · simp only [if_neg hok]
        split
        · rename_i hunavailable
          refine ⟨_, _, rfl, ⟨rfl, hholds, ?_⟩, Or.inl rfl⟩
          rw [HostReply.masterKey, if_neg hok, if_pos hunavailable]
        · rename_i havailable
          split
          · rename_i hauth
            refine ⟨_, _, rfl, ⟨rfl, hholds, ?_⟩, Or.inl rfl⟩
            rw [HostReply.masterKey, if_neg hok, if_neg havailable, if_pos hauth]
          · rename_i hother
            refine ⟨_, _, rfl, ⟨rfl, hholds, ?_⟩, Or.inl rfl⟩
            rw [HostReply.masterKey, if_neg hok, if_neg havailable, if_neg hother]
  | reading p out' =>
      obtain ⟨rfl, hholds, hptr, hlen, hok⟩ := h
      obtain ⟨content, hcontent, hlength, hread⟩ := hholds.read hptr
      simp only [UnsealPc.advance, hread, Option.some.injEq] at hadvance
      subst hadvance
      refine ⟨_, _, rfl, ⟨rfl, hholds, ?_⟩, Or.inl rfl⟩
      simp [HostReply.masterKey, hok, hcontent, ← hlength, hlen]
  | returning out' answer =>
      obtain ⟨rfl, hholds, hanswer⟩ := h
      obtain ⟨heap', hrelease, hreleased, htouches⟩ := hholds.release
      simp only [UnsealPc.advance, hrelease, Option.some.injEq] at hadvance
      subst hadvance
      exact ⟨_, _, rfl, ⟨hreleased, hanswer⟩, htouches⟩
  | returned answer => cases hadvance

theorem getOk_advance {pc : GetPc} {r : Except MemoryFault (GetPc × HostHeap UInt8)}
    (h : GetOk heap reply out pc) (hadvance : pc.advance heap = some r) :
    ∃ pc' heap', r = .ok (pc', heap') ∧ GetOk heap' reply out pc' ∧ Touches heap heap' out := by
  cases pc with
  | start => exact h.elim
  | called rc out' =>
      obtain ⟨rfl, rfl, hholds⟩ := h
      simp only [GetPc.advance, Option.some.injEq] at hadvance
      subst hadvance
      split
      · rename_i herr
        refine ⟨_, _, rfl, ⟨?_, fun hok => absurd hok herr, fun _ => hholds⟩, Or.inl rfl⟩
        simp [HostReply.text, herr]
      · rename_i hok
        exact ⟨_, _, rfl, ⟨rfl, hholds, not_not.mp hok⟩, Or.inl rfl⟩
  | guarded out' =>
      obtain ⟨rfl, hholds, hok⟩ := h
      simp only [GetPc.advance, Option.some.injEq] at hadvance
      subst hadvance
      split
      · rename_i hnull
        have hcontent := hholds.content_of_null hnull
        refine ⟨_, _, rfl, ⟨rfl, hholds, ?_, hok⟩, Or.inl rfl⟩
        simp [HostReply.text, hok, hcontent]
      · rename_i p hptr
        obtain ⟨content, hcontent, hlen, -⟩ := hholds.content_of_ptr hptr
        split
        · rename_i hbad
          refine ⟨_, _, rfl, ⟨rfl, hholds, ?_, hok⟩, Or.inl rfl⟩
          rw [hlen, List.length_eq_zero_iff] at hbad
          simp [HostReply.text, hok, hcontent, hbad]
        · rename_i hgood
          rw [not_or, Nat.not_lt] at hgood
          exact ⟨_, _, rfl, ⟨rfl, hholds, hptr, hgood.1, hgood.2, hok⟩, Or.inl rfl⟩
  | reading p out' =>
      obtain ⟨rfl, hholds, hptr, hpos, hmax, hok⟩ := h
      obtain ⟨content, hcontent, hlength, hread⟩ := hholds.read hptr
      simp only [GetPc.advance, hread, Option.some.injEq] at hadvance
      subst hadvance
      refine ⟨_, _, rfl, ⟨rfl, hholds, ?_, hok⟩, Or.inl rfl⟩
      have hne : content ≠ [] := by
        rintro rfl
        exact hpos hlength
      have hfits : ¬ maxClipboardBytes < content.length := by
        rw [← hlength]
        exact Nat.not_lt.mpr hmax
      simp [HostReply.text, hok, hcontent, hne, hfits]
  | returning out' answer =>
      obtain ⟨rfl, hholds, hanswer, hok⟩ := h
      obtain ⟨heap', hrelease, hreleased, htouches⟩ := hholds.release
      simp only [GetPc.advance, hrelease, Option.some.injEq] at hadvance
      subst hadvance
      exact ⟨_, _, rfl, ⟨hanswer, fun _ => hreleased, fun herr => absurd hok herr⟩, htouches⟩
  | returned answer => cases hadvance

end Calls

/-- A step of a call goes without a fault and reaches its own buffer at most. -/
theorem entryOk_advance {heap : HostHeap UInt8} {entry : HostEntry}
    {r : Except MemoryFault (HostCall × HostHeap UInt8)} (h : EntryOk heap entry)
    (hadvance : entry.call.advance heap = some r) :
    ∃ call heap', r = .ok (call, heap') ∧ EntryOk heap' { entry with call := call } ∧
      (heap' = heap ∨ ∃ reply out p, entry.reply = some (reply, out) ∧ out.ptr = some p ∧
        heap.free p = .ok heap') := by
  obtain ⟨call, told⟩ := entry
  cases call with
  | unsealMasterKey vaultId pc =>
      obtain ⟨r', hr', rfl⟩ := Option.map_eq_some_iff.mp hadvance
      cases told with
      | none =>
          rcases h with rfl | ⟨rfl, -⟩
          · simp only [UnsealPc.advance] at hr'
            split at hr'
            · rename_i hinvalid
              cases hr'
              exact ⟨_, _, rfl, Or.inr ⟨rfl, hinvalid⟩, Or.inl rfl⟩
            · cases hr'
          · cases hr'
      | some told =>
          obtain ⟨reply, out⟩ := told
          obtain ⟨pc', heap', rfl, hok, htouches⟩ := unsealOk_advance h hr'
          refine ⟨_, heap', rfl, hok, htouches.imp_right ?_⟩
          rintro ⟨p, hp, hfree⟩
          exact ⟨reply, out, p, rfl, hp, hfree⟩
  | get pc =>
      obtain ⟨r', hr', rfl⟩ := Option.map_eq_some_iff.mp hadvance
      cases told with
      | none =>
          obtain rfl : pc = .start := h
          cases hr'
      | some told =>
          obtain ⟨reply, out⟩ := told
          obtain ⟨pc', heap', rfl, hok, htouches⟩ := getOk_advance h hr'
          refine ⟨_, heap', rfl, hok, htouches.imp_right ?_⟩
          rintro ⟨p, hp, hfree⟩
          exact ⟨reply, out, p, rfl, hp, hfree⟩

/-- An answer comes once to a call. -/
theorem entryOk_answered {heap heap' : HostHeap UInt8} {entry : HostEntry} {reply : HostReply}
    {out : HostOut} {call : HostCall} (h : EntryOk heap entry)
    (hanswered : entry.call.answered reply.rc out = some call)
    (hholds : Holds heap' reply out) :
    entry.reply = none ∧ EntryOk heap' ⟨call, some (reply, out)⟩ := by
  obtain ⟨call₀, told⟩ := entry
  cases call₀ with
  | unsealMasterKey vaultId pc =>
      cases pc with
      | start =>
          simp only [HostCall.answered] at hanswered
          split at hanswered
          · cases hanswered
          · cases hanswered
            cases told with
            | none => exact ⟨rfl, rfl, rfl, hholds⟩
            | some told => exact h.elim
      | _ => cases hanswered
  | get pc =>
      cases pc with
      | start =>
          cases hanswered
          cases told with
          | none => exact ⟨rfl, rfl, rfl, hholds⟩
          | some told => exact h.elim
      | _ => cases hanswered

/-! ## Runs -/

/-- The call was handed this pointer. -/
def Owns (w : HostWorld) (i p : Nat) : Prop :=
  ∃ entry reply out, w.calls[i]? = some entry ∧ entry.reply = some (reply, out) ∧
    out.ptr = some p

/-- Every call is in order, and every buffer is that of one call. -/
structure Sound (w : HostWorld) : Prop where
  fault : w.fault = none
  entries : ∀ (i : Nat) entry, w.calls[i]? = some entry → EntryOk w.heap entry
  bound : ∀ i p, w.Owns i p → p < w.heap.length
  once : ∀ i j p, w.Owns i p → w.Owns j p → i = j
  covered : ∀ p, p < w.heap.length → ∃ i, w.Owns i p

/-- What a step does. -/
inductive Moves (w : HostWorld) : HostEvent → HostWorld → Prop
  | invoke (request : HostRequest) :
      Moves w (.invoke request) { w with calls := w.calls ++ [⟨request.start, none⟩] }
  | reply (i : Nat) (reply : HostReply) (entry : HostEntry) (call : HostCall)
      (hentry : w.calls[i]? = some entry)
      (hcall : entry.call.answered reply.rc (allocate w.heap reply).1 = some call) :
      Moves w (.reply i reply)
        { w with
          heap := (allocate w.heap reply).2
          calls := w.calls.set i ⟨call, some (reply, (allocate w.heap reply).1)⟩ }
  | advance (i : Nat) (entry : HostEntry) (call : HostCall) (heap : HostHeap UInt8)
      (hentry : w.calls[i]? = some entry)
      (hadvance : entry.call.advance w.heap = some (.ok (call, heap))) :
      Moves w (.advance i)
        { w with heap := heap, calls := w.calls.set i { entry with call := call } }
  | fault (i : Nat) (entry : HostEntry) (fault : MemoryFault) (hentry : w.calls[i]? = some entry)
      (hadvance : entry.call.advance w.heap = some (.error fault)) :
      Moves w (.advance i) { w with fault := some fault }

variable {w w' : HostWorld}

theorem step_moves {ev : HostEvent} (h : w.step ev = some w') : w.Moves ev w' := by
  unfold step at h
  split at h
  · cases h
  · cases ev with
    | invoke request =>
        cases h
        exact .invoke request
    | reply i reply =>
        obtain ⟨entry, hentry, h⟩ := Option.bind_eq_some_iff.mp h
        obtain ⟨call, hcall, h⟩ := Option.bind_eq_some_iff.mp h
        cases h
        exact .reply i reply entry call hentry hcall
    | advance i =>
        obtain ⟨entry, hentry, h⟩ := Option.bind_eq_some_iff.mp h
        obtain ⟨r, hadvance, h⟩ := Option.bind_eq_some_iff.mp h
        cases r with
        | error fault =>
            cases h
            exact .fault i entry fault hentry hadvance
        | ok moved =>
            cases h
            exact .advance i entry _ _ hentry hadvance

theorem sound_new : Sound new where
  fault := rfl
  entries i entry h := by cases h
  bound i p h := by
    obtain ⟨entry, _, _, h, -⟩ := h
    cases h
  once i j p h := by
    obtain ⟨entry, _, _, h, -⟩ := h
    cases h
  covered p h := by cases h

/-- A new call has no buffer. -/
theorem Sound.invoke (hw : w.Sound) (request : HostRequest) :
    ({ w with calls := w.calls ++ [⟨request.start, none⟩] } : HostWorld).Sound := by
  have howns : ∀ i p,
      ({ w with calls := w.calls ++ [⟨request.start, none⟩] } : HostWorld).Owns i p ↔
        w.Owns i p := by
    intro i p
    constructor
    · rintro ⟨entry, reply, out, hentry, hreply, hp⟩
      rcases getElem?_append_singleton hentry with hold | ⟨-, rfl⟩
      · exact ⟨entry, reply, out, hold, hreply, hp⟩
      · cases hreply
    · rintro ⟨entry, reply, out, hentry, hreply, hp⟩
      have hi := (List.getElem?_eq_some_iff.mp hentry).1
      exact ⟨entry, reply, out, (List.getElem?_append_left hi).trans hentry, hreply, hp⟩
  refine ⟨hw.fault, ?_, fun i p h => hw.bound i p ((howns i p).mp h),
    fun i j p hi hj => hw.once i j p ((howns i p).mp hi) ((howns j p).mp hj), ?_⟩
  · intro i entry hentry
    rcases getElem?_append_singleton hentry with hold | ⟨-, rfl⟩
    · exact hw.entries i entry hold
    · cases request with
      | unsealMasterKey vaultId => exact Or.inl rfl
      | get => rfl
  · intro p hp
    obtain ⟨i, hi⟩ := hw.covered p hp
    exact ⟨i, (howns i p).mpr hi⟩

/-- The buffer of an answer is the next one. -/
theorem ptr_allocate {heap : HostHeap UInt8} {reply : HostReply} {p : Nat}
    (h : (allocate heap reply).1.ptr = some p) :
    p = heap.length ∧ (allocate heap reply).2.length = heap.length + 1 := by
  cases hcontent : reply.content with
  | none => simp [allocate, hcontent] at h
  | some content =>
      simp only [allocate, hcontent, Option.some.injEq] at h
      exact ⟨h.symm, by simp [allocate, hcontent, HostHeap.alloc]⟩

/-- No other buffer comes with an answer. -/
theorem lt_length_allocate {heap : HostHeap UInt8} {reply : HostReply} {p : Nat}
    (h : p < (allocate heap reply).2.length) :
    p < heap.length ∨ (allocate heap reply).1.ptr = some p := by
  cases hcontent : reply.content with
  | none => exact Or.inl (by simpa [allocate, hcontent] using h)
  | some content =>
      simp only [allocate, hcontent, HostHeap.alloc, List.length_append, List.length_singleton]
        at h ⊢
      rcases Nat.lt_succ_iff_lt_or_eq.mp h with hlt | rfl
      · exact Or.inl hlt
      · exact Or.inr rfl

theorem length_le_allocate (heap : HostHeap UInt8) (reply : HostReply) :
    heap.length ≤ (allocate heap reply).2.length := by
  cases hcontent : reply.content <;> simp [allocate, hcontent, HostHeap.alloc]

theorem EntryOk.allocate {heap : HostHeap UInt8} {entry : HostEntry} (h : EntryOk heap entry)
    (reply : HostReply) : EntryOk (allocate heap reply).2 entry := by
  cases hcontent : reply.content with
  | none => simpa [HostWorld.allocate, hcontent] using h
  | some content =>
      simp only [HostWorld.allocate, hcontent]
      exact h.frame (fun _ _ _ hholds => hholds.alloc content)
        fun _ _ _ hreleased => hreleased.alloc content

/-- An honest answer: its buffer is new, and it is that of the call. -/
theorem Sound.reply (hw : w.Sound) {i : Nat} {reply : HostReply} {entry : HostEntry}
    {call : HostCall} (hhonest : reply.Honest) (hentry : w.calls[i]? = some entry)
    (hcall : entry.call.answered reply.rc (allocate w.heap reply).1 = some call) :
    ({ w with
        heap := (allocate w.heap reply).2
        calls := w.calls.set i ⟨call, some (reply, (allocate w.heap reply).1)⟩ } :
      HostWorld).Sound := by
  have hholds := holds_allocate w.heap hhonest
  obtain ⟨hnone, hok⟩ := entryOk_answered (hw.entries i entry hentry) hcall hholds
  have hi := (List.getElem?_eq_some_iff.mp hentry).1
  have howns : ∀ j p, ({ w with
        heap := (allocate w.heap reply).2
        calls := w.calls.set i ⟨call, some (reply, (allocate w.heap reply).1)⟩ } :
      HostWorld).Owns j p ↔ w.Owns j p ∨ j = i ∧ (allocate w.heap reply).1.ptr = some p := by
    intro j p
    constructor
    · rintro ⟨other, r, out, hother, hreply, hp⟩
      rcases getElem?_set_cases hother with ⟨rfl, rfl⟩ | ⟨-, hold⟩
      · cases hreply
        exact Or.inr ⟨rfl, hp⟩
      · exact Or.inl ⟨other, r, out, hold, hreply, hp⟩
    · rintro (⟨other, r, out, hother, hreply, hp⟩ | ⟨rfl, hp⟩)
      · have hne : i ≠ j := by
          rintro rfl
          rw [hentry, Option.some.injEq] at hother
          subst hother
          cases hnone.symm.trans hreply
        exact ⟨other, r, out, (List.getElem?_set_ne hne).trans hother, hreply, hp⟩
      · exact ⟨_, reply, _, List.getElem?_set_self hi, rfl, hp⟩
  refine ⟨hw.fault, ?_, ?_, ?_, ?_⟩
  · intro j other hother
    rcases getElem?_set_cases hother with ⟨rfl, rfl⟩ | ⟨-, hold⟩
    · exact hok
    · exact (hw.entries j other hold).allocate reply
  · intro j p hj
    rcases (howns j p).mp hj with hold | ⟨-, hp⟩
    · exact (hw.bound j p hold).trans_le (length_le_allocate w.heap reply)
    · obtain ⟨rfl, hlength⟩ := ptr_allocate hp
      exact hlength ▸ Nat.lt_succ_self _
  · intro j k p hj hk
    rcases (howns j p).mp hj with hold | ⟨rfl, hp⟩
    · rcases (howns k p).mp hk with hold' | ⟨rfl, hp⟩
      · exact hw.once j k p hold hold'
      · exact absurd (hw.bound j p hold) (by rw [(ptr_allocate hp).1]; exact Nat.lt_irrefl _)
    · rcases (howns k p).mp hk with hold' | ⟨rfl, -⟩
      · exact absurd (hw.bound k p hold') (by rw [(ptr_allocate hp).1]; exact Nat.lt_irrefl _)
      · rfl
  · intro p hp
    rcases lt_length_allocate hp with hold | hnew
    · obtain ⟨j, hj⟩ := hw.covered p hold
      exact ⟨j, (howns j p).mpr (Or.inl hj)⟩
    · exact ⟨i, (howns i p).mpr (Or.inr ⟨rfl, hnew⟩)⟩

/-- A step of a call: the others keep their buffers. -/
theorem Sound.advance (hw : w.Sound) {i : Nat} {entry : HostEntry}
    {r : Except MemoryFault (HostCall × HostHeap UInt8)} (hentry : w.calls[i]? = some entry)
    (hadvance : entry.call.advance w.heap = some r) :
    ∃ call heap, r = .ok (call, heap) ∧
      ({ w with heap := heap, calls := w.calls.set i { entry with call := call } } :
        HostWorld).Sound := by
  obtain ⟨call, heap, rfl, hok, htouches⟩ :=
    entryOk_advance (hw.entries i entry hentry) hadvance
  have hi := (List.getElem?_eq_some_iff.mp hentry).1
  have hlength : heap.length = w.heap.length := by
    rcases htouches with rfl | ⟨_, _, _, -, -, hfree⟩
    · rfl
    · exact HostHeap.length_free hfree
  have howns : ∀ j p, ({ w with heap := heap, calls := w.calls.set i { entry with call := call } } :
      HostWorld).Owns j p ↔ w.Owns j p := by
    intro j p
    constructor
    · rintro ⟨other, reply, out, hother, hreply, hp⟩
      rcases getElem?_set_cases hother with ⟨rfl, rfl⟩ | ⟨-, hold⟩
      · exact ⟨entry, reply, out, hentry, hreply, hp⟩
      · exact ⟨other, reply, out, hold, hreply, hp⟩
    · rintro ⟨other, reply, out, hother, hreply, hp⟩
      by_cases hne : i = j
      · subst hne
        rw [hentry, Option.some.injEq] at hother
        subst hother
        exact ⟨_, reply, out, List.getElem?_set_self hi, hreply, hp⟩
      · exact ⟨other, reply, out, (List.getElem?_set_ne hne).trans hother, hreply, hp⟩
  refine ⟨call, heap, rfl, hw.fault, ?_, ?_, ?_, ?_⟩
  · intro j other hother
    rcases getElem?_set_cases hother with ⟨rfl, rfl⟩ | ⟨hne, hold⟩
    · exact hok
    · rcases htouches with rfl | ⟨reply, out, p, hreply, hp, hfree⟩
      · exact hw.entries j other hold
      · refine (hw.entries j other hold).frame ?_ fun _ _ _ hreleased => hreleased.free hfree
        intro reply' out' hreply' hholds
        apply hholds.free hfree
        intro hp'
        exact hne (hw.once i j p ⟨entry, reply, out, hentry, hreply, hp⟩
          ⟨other, reply', out', hold, hreply', hp'⟩)
  · intro j p hj
    exact (hw.bound j p ((howns j p).mp hj)).trans_eq hlength.symm
  · intro j k p hj hk
    exact hw.once j k p ((howns j p).mp hj) ((howns k p).mp hk)
  · intro p hp
    obtain ⟨j, hj⟩ := hw.covered p (hlength ▸ hp)
    exact ⟨j, (howns j p).mpr hj⟩

/-- Every answer of the host is honest. -/
def Trusts : HostEvent → Prop
  | .reply _ reply => reply.Honest
  | _ => True

theorem sound_step {ev : HostEvent} (hw : w.Sound) (htrust : Trusts ev)
    (h : w.step ev = some w') : w'.Sound := by
  cases step_moves h with
  | invoke request => exact hw.invoke request
  | reply i reply entry call hentry hcall => exact hw.reply htrust hentry hcall
  | advance i entry call heap hentry hadvance =>
      obtain ⟨call', heap', hr, hsound⟩ := hw.advance hentry hadvance
      cases hr
      exact hsound
  | fault i entry fault hentry hadvance =>
      obtain ⟨_, _, hr, -⟩ := hw.advance hentry hadvance
      cases hr

/-- The call has not given its buffer back: it is on its way, or it is a `get` that was answered
an error. -/
def Keeps (entry : HostEntry) : Prop :=
  match entry.call, entry.reply with
  | .unsealMasterKey _ (.returned _), _ => False
  | .get (.returned _), some (reply, _) => reply.rc ≠ vvOk
  | _, _ => True

theorem Holds.not_freed {heap : HostHeap UInt8} {reply : HostReply} {out : HostOut} {p : Nat}
    (h : Holds heap reply out) (hp : out.ptr = some p) : ¬ heap.Freed p := by
  obtain ⟨content, -, -, hlive⟩ := h.content_of_ptr hp
  exact hlive.not_freed

/-- A call that keeps its buffer has it live; the others have released theirs. -/
theorem keeps_iff {heap : HostHeap UInt8} {entry : HostEntry} {reply : HostReply} {out : HostOut}
    {p : Nat} (h : EntryOk heap entry) (hreply : entry.reply = some (reply, out))
    (hp : out.ptr = some p) : Keeps entry ↔ ¬ heap.Freed p := by
  obtain ⟨call, told⟩ := entry
  cases hreply
  cases call with
  | unsealMasterKey vaultId pc =>
      cases pc with
      | start => exact h.elim
      | called rc out' => exact iff_of_true trivial (h.2.2.not_freed hp)
      | reading q out' => exact iff_of_true trivial (h.2.1.not_freed hp)
      | returning out' answer => exact iff_of_true trivial (h.2.1.not_freed hp)
      | returned answer => exact iff_of_false id (not_not.mpr (h.1 p hp))
  | get pc =>
      cases pc with
      | start => exact h.elim
      | called rc out' => exact iff_of_true trivial (h.2.2.not_freed hp)
      | guarded out' => exact iff_of_true trivial (h.2.1.not_freed hp)
      | reading q out' => exact iff_of_true trivial (h.2.1.not_freed hp)
      | returning out' answer => exact iff_of_true trivial (h.2.1.not_freed hp)
      | returned answer =>
          by_cases hok : reply.rc = vvOk
          · exact iff_of_false (not_not.mpr hok) (not_not.mpr (h.2.1 hok p hp))
          · exact iff_of_true hok ((h.2.2 hok).not_freed hp)

/-- The answer of a call that has returned is the one that the host's answer makes. -/
def AnswersOk (entry : HostEntry) : Prop :=
  match entry.call, entry.reply with
  | .unsealMasterKey _ (.returned answer), some (reply, _) => answer = reply.masterKey
  | .unsealMasterKey vaultId (.returned answer), none =>
      answer = .error .invalidResponse ∧
        (vaultId = [] ∨ VvBiometrics.maxVaultIdLen < vaultId.length)
  | .get (.returned answer), some (reply, _) => answer = reply.text
  | .get (.returned _), none => False
  | _, _ => True

theorem answersOk_of_entryOk {heap : HostHeap UInt8} {entry : HostEntry}
    (h : EntryOk heap entry) : AnswersOk entry := by
  obtain ⟨call, told⟩ := entry
  cases call with
  | unsealMasterKey vaultId pc =>
      cases pc with
      | returned answer =>
          cases told with
          | none =>
              rcases h with hstart | ⟨hreturned, hinvalid⟩
              · cases hstart
              · exact ⟨UnsealPc.returned.inj hreturned, hinvalid⟩
          | some told => exact h.2
      | _ => trivial
  | get pc =>
      cases pc with
      | returned answer =>
          cases told with
          | none => cases h
          | some told => exact h.1
      | _ => trivial

/-- Calls of both backends on one host whose answers tell the length of their buffers, in any
order: no call reads or releases what it must not. Each answers what the host's own answer makes,
a key of 32 bytes or a text within bounds. The buffers not taken back are exactly those of calls
on their way and those that a `get` was handed together with an error code. -/
theorem host_buffers_are_released_once {es : List HostEvent} (htrust : ∀ ev ∈ es, Trusts ev)
    (h : exec step new es = some w) :
    w.fault = none ∧ (∀ entry ∈ w.calls, AnswersOk entry) ∧
      ∀ p, p < w.heap.length → (¬ w.heap.Freed p ↔ ∃ entry ∈ w.calls, ∃ reply out,
        entry.reply = some (reply, out) ∧ out.ptr = some p ∧ Keeps entry) := by
  have hsound : w.Sound :=
    exec_invariant_of_everyStep (fun _ ev => Trusts ev) Sound
      (fun _ _ _ hw htrust hstep => sound_step hw htrust hstep) sound_new
      (everyStep_of_forall_mem htrust) h
  have hentries : ∀ entry ∈ w.calls, EntryOk w.heap entry := by
    intro entry hmem
    obtain ⟨i, hi⟩ := List.getElem?_of_mem hmem
    exact hsound.entries i entry hi
  refine ⟨hsound.fault, fun entry hmem => answersOk_of_entryOk (hentries entry hmem), ?_⟩
  intro p hp
  constructor
  · intro hlive
    obtain ⟨i, entry, reply, out, hi, hreply, hptr⟩ := hsound.covered p hp
    have hmem := List.mem_of_getElem? hi
    exact ⟨entry, hmem, reply, out, hreply, hptr,
      (keeps_iff (hentries entry hmem) hreply hptr).mpr hlive⟩
  · rintro ⟨entry, hmem, reply, out, hreply, hptr, hkeeps⟩
    exact (keeps_iff (hentries entry hmem) hreply hptr).mp hkeeps

/-- A key is released while the clipboard answers an error with a buffer. -/
def keyAndFailedGet : List HostEvent :=
  [.invoke (.unsealMasterKey [1]), .invoke .get, .reply 0 ⟨vvOk, some (List.replicate 32 7), 32⟩,
    .reply 1 ⟨-4, some [65], 1⟩, .advance 1, .advance 0, .advance 0, .advance 0]

/-- The theorem on the two calls. -/
theorem host_buffers_are_released_once_keyAndFailedGet :
    ∃ w, exec step new keyAndFailedGet = some w ∧
      (w.fault = none ∧ (∀ entry ∈ w.calls, AnswersOk entry) ∧
        ∀ p, p < w.heap.length → (¬ w.heap.Freed p ↔ ∃ entry ∈ w.calls, ∃ reply out,
          entry.reply = some (reply, out) ∧ out.ptr = some p ∧ Keeps entry)) ∧
      w.heap.map HostBuffer.freed = [true, false] := by
  have htrust : ∀ ev ∈ keyAndFailedGet, Trusts ev := by
    intro ev hmem
    simp only [keyAndFailedGet, List.mem_cons, List.not_mem_nil, or_false] at hmem
    rcases hmem with rfl | rfl | rfl | rfl | rfl | rfl | rfl | rfl
    · trivial
    · trivial
    · rintro content ⟨⟩
      rfl
    · rintro content ⟨⟩
      rfl
    · trivial
    · trivial
    · trivial
    · trivial
  have hrun : ∃ w, exec step new keyAndFailedGet = some w ∧
      w.heap.map HostBuffer.freed = [true, false] := ⟨_, rfl, rfl⟩
  obtain ⟨w, hw, hfreed⟩ := hrun
  exact ⟨w, hw, host_buffers_are_released_once htrust hw, hfreed⟩

/-- A host that tells more than it allocated makes the call read beyond the end. -/
example : ∃ w, exec step new [.invoke (.unsealMasterKey [1]), .reply 0 ⟨vvOk, some [7], 32⟩,
    .advance 0, .advance 0] = some w ∧ w.fault = some .outOfBounds :=
  ⟨_, rfl, rfl⟩

end HostWorld

end ViperVault
