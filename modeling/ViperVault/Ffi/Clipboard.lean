import ViperVault.Clipboard.Timers
import ViperVault.Ffi.Buffers
import ViperVault.Foundation.Simulation

/-!
# The clipboard guard over the FFI

`clipboard/ffi.rs`: the guard on a clipboard that a host keeps as bytes, which other applications
fill with anything: nothing, bytes that are no text, more than the guard reads. A copy is refused
unless its secret is a text within bounds, and for those the guard runs as it does on a clipboard
of texts. That takes a Tokio runtime with its timer, which the host has to enter: outside of one the
copy panics where it spawns its task, and the call answers `VV_ERR_PANIC`.
-/

namespace ViperVault

open Foundation

namespace VvClipboard

/-- `VV_ERR_NULL`. -/
def errNull : Int := -1

/-- `VV_ERR_UTF8`. -/
def errUtf8 : Int := -2

/-- `VV_ERR_BOUNDS`. -/
def errBounds : Int := -5

/-- `MAX_SECRET_BYTES`. -/
def maxSecretBytes : Nat := 64 * 1024

end VvClipboard

/-- `Duration::from_millis`. -/
def Duration.fromMillis (millis : Nat) : Duration := millis * 1000000

/-- The secret of `vv_clipboard_guard_copy_with_timeout`, or its error code; a null pointer is
`none`. -/
def vvClipboardSecret (handleIsNull : Bool) (secret : Option Bytes) : Except Int SecretString :=
  match handleIsNull, secret with
  | true, _ => .error VvClipboard.errNull
  | false, none => .error VvClipboard.errNull
  | false, some bytes =>
      if bytes.length = 0 ∨ VvClipboard.maxSecretBytes < bytes.length then
        .error VvClipboard.errBounds
      else
        match Json.utf8? bytes with
        | none => .error VvClipboard.errUtf8
        | some s => .ok ⟨s⟩

/-- What can happen next. -/
inductive FfiClipboardEvent
  | vvClipboardGuardCopyWithTimeout (handleIsNull : Bool) (secret : Option Bytes) (timeoutMs : Nat)
  | vvClipboardGuardCancel (handleIsNull : Bool)
  | vvClipboardGuardFree (handleIsNull : Bool)
  | abortPrevious
  | spawn (inRuntime : Bool)
  | poll (call : Nat)
  | wake (call : Nat)
  | read (call : Nat)
  | clear (call : Nat)
  | foreignWrite (content : Option Bytes)
  | tick (d : Duration)

/-- The event is not one of a call outside a runtime. -/
def FfiClipboardEvent.inRuntime : FfiClipboardEvent → Bool
  | .spawn inRuntime => inRuntime
  | _ => true

/-- The host's clipboard with the guard and its tasks. The content in `board` is the text that the
host's bytes are; the guard does not look at it. -/
structure FfiClipboard where
  board : ClipboardWorld
  raw : Option Bytes

namespace FfiClipboard

/-- The text that the host's clipboard holds. -/
def shown (raw : Option Bytes) : Option Text := raw.bind Json.utf8?

/-- A new guard on the host's clipboard. -/
def new (raw : Option Bytes) : FfiClipboard := ⟨.new (shown raw), raw⟩

/-- One step. `answer` is what the host's `get` answers on the content of its clipboard. -/
def step (answer : Option Bytes → HostReply) (w : FfiClipboard) :
    FfiClipboardEvent → Option FfiClipboard
  | .vvClipboardGuardCopyWithTimeout handleIsNull secret timeoutMs =>
      match vvClipboardSecret handleIsNull secret with
      | .error _ => some w
      | .ok secret => do
          let board ← w.board.step (.copyWithTimeout secret (.fromMillis timeoutMs))
          some ⟨board, some (Json.utf8 secret.exposeSecret)⟩
  | .vvClipboardGuardCancel handleIsNull =>
      if handleIsNull then some w
      else (w.board.step .cancel).map fun board => { w with board := board }
  | .vvClipboardGuardFree handleIsNull =>
      if handleIsNull then some w
      else (w.board.step .drop).map fun board => { w with board := board }
  | .abortPrevious => (w.board.step .abortPrevious).map fun board => { w with board := board }
  | .spawn true => (w.board.step .spawn).map fun board => { w with board := board }
  | .spawn false =>
      -- `tokio::spawn` panics, and `task` stays empty
      match w.board.pc with
      | .cancelled _ => some { w with board := { w.board with pc := .idle } }
      | _ => none
  | .poll i => (w.board.step (.poll i)).map fun board => { w with board := board }
  | .wake i => (w.board.step (.wake i)).map fun board => { w with board := board }
  | .read i => do
      let c ← w.board.calls[i]?
      if c.phase = .woken then
        if (answer w.raw).text = some c.secret.exposeSecret then
          some { w with board := w.board.setPhase i .matched }
        else some { w with board := w.board.setPhase i .finished }
      else none
  | .clear i => (w.board.step (.clear i)).map fun board => ⟨board, none⟩
  | .foreignWrite raw =>
      (w.board.step (.foreignWrite (shown raw))).map fun board => ⟨board, raw⟩
  | .tick d => (w.board.step (.tick d)).map fun board => { w with board := board }

/-- The event of the clipboard of texts. A refused call and a panic have none. -/
def imageEvent : FfiClipboardEvent → Option ClipboardEvent
  | .vvClipboardGuardCopyWithTimeout handleIsNull secret timeoutMs =>
      match vvClipboardSecret handleIsNull secret with
      | .error _ => none
      | .ok secret => some (.copyWithTimeout secret (.fromMillis timeoutMs))
  | .vvClipboardGuardCancel handleIsNull => if handleIsNull then none else some .cancel
  | .vvClipboardGuardFree handleIsNull => if handleIsNull then none else some .drop
  | .abortPrevious => some .abortPrevious
  | .spawn true => some .spawn
  | .spawn false => none
  | .poll i => some (.poll i)
  | .wake i => some (.wake i)
  | .read i => some (.read i)
  | .clear i => some (.clear i)
  | .foreignWrite raw => some (.foreignWrite (shown raw))
  | .tick d => some (.tick d)

end FfiClipboard

/-- A host that shows what its clipboard holds: the bytes in a buffer of their length, and no text
where there are none. -/
structure FaithfulHost (answer : Option Bytes → HostReply) : Prop where
  holds : ∀ bytes, bytes ≠ [] → answer (some bytes) = ⟨vvOk, some bytes, bytes.length⟩
  null : (answer none).text = none
  empty : (answer (some [])).text = none

/-- A secret that the FFI accepts. -/
def VvClipboard.Accepts (secret : SecretString) : Prop :=
  secret.exposeSecret ≠ [] ∧
    (Json.utf8 secret.exposeSecret).length ≤ VvClipboard.maxSecretBytes

/-- What is copied is an accepted secret, the one that the bytes are. -/
theorem vvClipboardSecret_eq_ok {handleIsNull : Bool} {bytes : Option Bytes}
    {secret : SecretString} (h : vvClipboardSecret handleIsNull bytes = .ok secret) :
    VvClipboard.Accepts secret ∧ bytes = some (Json.utf8 secret.exposeSecret) := by
  cases handleIsNull with
  | true => cases h
  | false =>
      cases bytes with
      | none => cases h
      | some bytes =>
          simp only [vvClipboardSecret] at h
          split at h
          · cases h
          · rename_i hbounds
            rw [not_or, Nat.not_lt] at hbounds
            split at h
            · cases h
            · rename_i s hs
              cases h
              have hbytes := (Json.utf8?_eq_some.mp hs).symm
              refine ⟨⟨?_, by rw [hbytes]; exact hbounds.2⟩, by rw [hbytes]⟩
              rintro rfl
              rw [← hbytes] at hbounds
              exact hbounds.1 rfl

/-- Through the FFI a task finds its secret exactly where the host's bytes are that text. -/
theorem text_eq_iff {answer : Option Bytes → HostReply} (hhost : FaithfulHost answer)
    {secret : SecretString} (hsecret : VvClipboard.Accepts secret) (raw : Option Bytes) :
    (answer raw).text = some secret.exposeSecret ↔
      FfiClipboard.shown raw = some secret.exposeSecret := by
  cases raw with
  | none => simp [hhost.null, FfiClipboard.shown]
  | some bytes =>
      by_cases hempty : bytes = []
      · subst hempty
        have hshown : FfiClipboard.shown (some []) = some [] := Json.utf8?_utf8 []
        rw [hhost.empty, hshown]
        exact iff_of_false (by simp) fun h => hsecret.1 (Option.some.inj h).symm
      · have hshown : FfiClipboard.shown (some bytes) = Json.utf8? bytes := rfl
        rw [hhost.holds bytes hempty, hshown]
        simp only [HostReply.text, if_true, hempty, false_or]
        split
        · rename_i hlong
          -- what the guard does not read is longer than its secrets
          refine iff_of_false (by simp) fun h => ?_
          have hbytes := (Json.utf8?_eq_some.mp h).symm
          have hshort := hsecret.2
          rw [hbytes] at hshort
          have hbounds : VvClipboard.maxSecretBytes ≤ maxClipboardBytes := by decide
          omega
        · rfl

namespace FfiClipboard

variable {answer : Option Bytes → HostReply} {w w' : FfiClipboard}

/-- The guard's picture of the clipboard is right, and its secrets are accepted ones. -/
structure Accords (w : FfiClipboard) : Prop where
  content : w.board.clipboard = shown w.raw
  secrets : ∀ i secret, w.board.secret? i = some secret → VvClipboard.Accepts secret

theorem accords_new (raw : Option Bytes) : (new raw).Accords where
  content := rfl
  secrets i secret h := by cases h

/-- The secrets of a state come from the calls. -/
theorem secret?_of_step {board board' : ClipboardWorld} {e : ClipboardEvent}
    (h : board.step e = some board') {i : Nat} {secret : SecretString}
    (hsecret : board'.secret? i = some secret) :
    board.secret? i = some secret ∨ ∃ timeout, e = .copyWithTimeout secret timeout := by
  cases ClipboardWorld.step_moves h with
  | copy own timeout =>
      obtain ⟨c, hc, rfl⟩ := Option.map_eq_some_iff.mp hsecret
      rcases getElem?_append_singleton hc with hold | ⟨-, rfl⟩
      · exact Or.inl (by simp [ClipboardWorld.secret?, hold])
      · exact Or.inr ⟨timeout, rfl⟩
  | abort _ _ _ => exact Or.inl ((ClipboardWorld.secret?_abortTask board i).symm.trans hsecret)
  | spawn j => exact Or.inl ((ClipboardWorld.secret?_setPhase board j i _).symm.trans hsecret)
  | poll j _ _ => exact Or.inl ((ClipboardWorld.secret?_setPhase board j i _).symm.trans hsecret)
  | wake j _ _ _ _ _ =>
      exact Or.inl ((ClipboardWorld.secret?_setPhase board j i _).symm.trans hsecret)
  | readMatch j _ _ _ _ =>
      exact Or.inl ((ClipboardWorld.secret?_setPhase board j i _).symm.trans hsecret)
  | readOther j _ _ _ _ =>
      exact Or.inl ((ClipboardWorld.secret?_setPhase board j i _).symm.trans hsecret)
  | clear j _ _ _ =>
      exact Or.inl ((ClipboardWorld.secret?_setPhase board j i _).symm.trans hsecret)
  | foreignWrite _ => exact Or.inl hsecret
  | tick _ => exact Or.inl hsecret

/-- What an event leaves in the clipboard. -/
def contentAfter (content : Option Text) : ClipboardEvent → Option Text
  | .copyWithTimeout secret _ => some secret.exposeSecret
  | .clear _ => none
  | .foreignWrite content' => content'
  | _ => content

theorem clipboard_of_step {board board' : ClipboardWorld} {e : ClipboardEvent}
    (h : board.step e = some board') : board'.clipboard = contentAfter board.clipboard e := by
  cases ClipboardWorld.step_moves h with
  | abort e _ he =>
      rcases he with rfl | rfl | rfl <;> exact ClipboardWorld.clipboard_abortTask board
  | _ => rfl

/-- A read through the FFI goes on as a read of the text. -/
theorem map_board_read (hhost : FaithfulHost answer) (hw : w.Accords) (i : Nat) :
    (w.step answer (.read i)).map board = w.board.step (.read i) := by
  simp only [step, ClipboardWorld.step]
  cases hc : w.board.calls[i]? with
  | none => rfl
  | some c =>
      have haccepts : VvClipboard.Accepts c.secret :=
        hw.secrets i c.secret (by simp [ClipboardWorld.secret?, hc])
      have hread : (answer w.raw).text = some c.secret.exposeSecret ↔
          w.board.clipboard = some c.secret.exposeSecret := by
        rw [text_eq_iff hhost haccepts, hw.content]
      simp only [Option.bind_eq_bind, Option.bind_some, hread]
      split
      · split <;> rfl
      · rfl

/-- A step over the FFI in a runtime is the step of the guard on the text that the host's bytes
are. -/
theorem map_board_step (hhost : FaithfulHost answer) (hw : w.Accords) {e : FfiClipboardEvent}
    (hruntime : e.inRuntime = true) :
    (w.step answer e).map board =
      imageStep ClipboardWorld.step w.board (imageEvent e) := by
  cases e with
  | vvClipboardGuardCopyWithTimeout handleIsNull secret timeoutMs =>
      cases hsecret : vvClipboardSecret handleIsNull secret with
      | error code => simp [step, imageEvent, hsecret, imageStep]
      | ok secret =>
          simp only [step, imageEvent, hsecret, imageStep, Option.bind_eq_bind, Option.map_bind]
          exact Option.bind_fun_some _
  | vvClipboardGuardCancel handleIsNull =>
      cases handleIsNull <;> simp [step, imageEvent, imageStep, Function.comp_def]
  | vvClipboardGuardFree handleIsNull =>
      cases handleIsNull <;> simp [step, imageEvent, imageStep, Function.comp_def]
  | spawn inRuntime =>
      obtain rfl : inRuntime = true := hruntime
      simp [step, imageEvent, imageStep, Function.comp_def]
  | read i => exact map_board_read hhost hw i
  | _ => simp [step, imageEvent, imageStep, Function.comp_def]

/-- A step of the guard and what it makes of the host's bytes. -/
theorem Accords.of_step (hw : w.Accords) {e : ClipboardEvent} {board' : ClipboardWorld}
    {raw' : Option Bytes} (h : w.board.step e = some board')
    (hcontent : board'.clipboard = shown raw')
    (hcopy : ∀ secret timeout, e = .copyWithTimeout secret timeout → VvClipboard.Accepts secret) :
    (⟨board', raw'⟩ : FfiClipboard).Accords where
  content := hcontent
  secrets i secret hsecret := by
    rcases secret?_of_step h hsecret with hold | ⟨timeout, he⟩
    · exact hw.secrets i secret hold
    · exact hcopy secret timeout he

/-- A step that leaves the content alone. -/
theorem Accords.keep (hw : w.Accords) {e : ClipboardEvent}
    (hcontent : contentAfter w.board.clipboard e = w.board.clipboard)
    (hcopy : ∀ secret timeout, e ≠ .copyWithTimeout secret timeout)
    (h : (w.board.step e).map (fun board => { w with board := board }) = some w') :
    w'.Accords := by
  obtain ⟨board', hstep, rfl⟩ := Option.map_eq_some_iff.mp h
  exact hw.of_step hstep ((clipboard_of_step hstep).trans (hcontent.trans hw.content))
    fun secret timeout he => absurd he (hcopy secret timeout)

/-- The picture stays right. -/
theorem accords_step (hhost : FaithfulHost answer) (hw : w.Accords) {e : FfiClipboardEvent}
    (h : w.step answer e = some w') : w'.Accords := by
  cases e with
  | vvClipboardGuardCopyWithTimeout handleIsNull secret timeoutMs =>
      cases hsecret : vvClipboardSecret handleIsNull secret with
      | error code =>
          simp only [step, hsecret] at h
          cases h
          exact hw
      | ok secret =>
          simp only [step, hsecret] at h
          obtain ⟨board', hstep, hw'⟩ := Option.bind_eq_some_iff.mp h
          cases hw'
          refine hw.of_step hstep ?_ ?_
          · rw [clipboard_of_step hstep]
            exact (Json.utf8?_utf8 secret.exposeSecret).symm
          · rintro own timeout ⟨⟩
            exact (vvClipboardSecret_eq_ok hsecret).1
  | vvClipboardGuardCancel handleIsNull =>
      cases handleIsNull with
      | true =>
          cases h
          exact hw
      | false => exact hw.keep rfl (by simp) h
  | vvClipboardGuardFree handleIsNull =>
      cases handleIsNull with
      | true =>
          cases h
          exact hw
      | false => exact hw.keep rfl (by simp) h
  | abortPrevious => exact hw.keep rfl (by simp) h
  | spawn inRuntime =>
      cases inRuntime with
      | true => exact hw.keep (e := .spawn) rfl (by simp) h
      | false =>
          simp only [step] at h
          split at h
          · cases h
            exact ⟨hw.content, hw.secrets⟩
          · cases h
  | poll i => exact hw.keep rfl (by simp) h
  | wake i => exact hw.keep rfl (by simp) h
  | read i =>
      have hread := map_board_read hhost hw i
      rw [h, Option.map_some] at hread
      have hraw : w'.raw = w.raw := by
        obtain ⟨c, -, h⟩ := Option.bind_eq_some_iff.mp h
        split at h
        · split at h <;> cases h <;> rfl
        · cases h
      have haccords : (⟨w'.board, w.raw⟩ : FfiClipboard).Accords :=
        hw.of_step hread.symm ((clipboard_of_step hread.symm).trans hw.content) (by simp)
      rwa [← hraw] at haccords
  | clear i =>
      obtain ⟨board', hstep, rfl⟩ := Option.map_eq_some_iff.mp h
      exact hw.of_step hstep (clipboard_of_step hstep) (by simp)
  | foreignWrite raw =>
      simp only [step] at h
      obtain ⟨board', hstep, rfl⟩ := Option.map_eq_some_iff.mp h
      exact hw.of_step hstep (clipboard_of_step hstep) (by simp)
  | tick d => exact hw.keep (e := .tick d) rfl (by simp) h

/-! ## Outside a runtime -/

/-- What a step over the FFI does to the board: a step of the guard or of a task, or nothing, or
the panic. -/
theorem board_cases {e : FfiClipboardEvent} (h : w.step answer e = some w') :
    w'.board = w.board ∨ (∃ e', w.board.step e' = some w'.board) ∨
      (∃ i p, w.board.phase? i = some .woken ∧ p ≠ .unspawned ∧
        w'.board = w.board.setPhase i p) ∨
      ∃ i, e = .spawn false ∧ w.board.pc = .cancelled i ∧
        w'.board = { w.board with pc := .idle } := by
  have hguard : ∀ e', (w.board.step e').map (fun board => { w with board := board }) = some w' →
      ∃ e', w.board.step e' = some w'.board := by
    intro e' hmap
    obtain ⟨board, hboard, rfl⟩ := Option.map_eq_some_iff.mp hmap
    exact ⟨e', hboard⟩
  cases e with
  | vvClipboardGuardCopyWithTimeout handleIsNull secret timeoutMs =>
      simp only [step] at h
      split at h
      · cases h
        exact Or.inl rfl
      · rename_i secret hsecret
        obtain ⟨board, hboard, hw'⟩ := Option.bind_eq_some_iff.mp h
        cases hw'
        exact Or.inr (Or.inl ⟨_, hboard⟩)
  | vvClipboardGuardCancel handleIsNull =>
      cases handleIsNull with
      | true =>
          cases h
          exact Or.inl rfl
      | false => exact Or.inr (Or.inl (hguard .cancel h))
  | vvClipboardGuardFree handleIsNull =>
      cases handleIsNull with
      | true =>
          cases h
          exact Or.inl rfl
      | false => exact Or.inr (Or.inl (hguard .drop h))
  | spawn inRuntime =>
      cases inRuntime with
      | true => exact Or.inr (Or.inl (hguard .spawn h))
      | false =>
          simp only [step] at h
          split at h
          · rename_i i hpc
            cases h
            exact Or.inr (Or.inr (Or.inr ⟨i, rfl, hpc, rfl⟩))
          · cases h
  | read i =>
      obtain ⟨c, hc, h⟩ := Option.bind_eq_some_iff.mp h
      split at h
      · rename_i hphase
        have hwoken : w.board.phase? i = some .woken := by
          simp [ClipboardWorld.phase?, hc, hphase]
        refine Or.inr (Or.inr (Or.inl ⟨i, ?_⟩))
        split at h
        · cases h
          exact ⟨.matched, hwoken, by simp, rfl⟩
        · cases h
          exact ⟨.finished, hwoken, by simp, rfl⟩
      · cases h
  | abortPrevious => exact Or.inr (Or.inl (hguard .abortPrevious h))
  | poll i => exact Or.inr (Or.inl (hguard (.poll i) h))
  | wake i => exact Or.inr (Or.inl (hguard (.wake i) h))
  | clear i =>
      obtain ⟨board, hboard, rfl⟩ := Option.map_eq_some_iff.mp h
      exact Or.inr (Or.inl ⟨.clear i, hboard⟩)
  | foreignWrite raw =>
      simp only [step] at h
      obtain ⟨board, hboard, rfl⟩ := Option.map_eq_some_iff.mp h
      exact Or.inr (Or.inl ⟨_, hboard⟩)
  | tick d => exact Or.inr (Or.inl (hguard (.tick d) h))

/-- The guard works in its order, with panics as without. -/
theorem ordered_step {e : FfiClipboardEvent} (hw : w.board.Ordered)
    (h : w.step answer e = some w') : w'.board.Ordered := by
  rcases board_cases h with hsame | ⟨e', hstep⟩ | ⟨i, p, hwoken, hp, hset⟩ | ⟨i, -, -, hpanic⟩
  · exact hsame ▸ hw
  · exact ClipboardWorld.ordered_step hw hstep
  · exact hset ▸ hw.setPhase hwoken (by simp) hp
  · rw [hpanic]
    refine ⟨?_, hw.owner, hw.task⟩
    rintro j (hj | hj) <;> cases hj

/-- The copy has no task, and gets none. -/
def Abandoned (i : Nat) (board : ClipboardWorld) : Prop :=
  board.phase? i = some .unspawned ∧ ¬ board.Spawning i

theorem abandoned_board_step {i : Nat} {board board' : ClipboardWorld} {e : ClipboardEvent}
    (hw : Abandoned i board) (h : board.step e = some board') : Abandoned i board' := by
  obtain ⟨hphase, hspawning⟩ := hw
  have hset : ∀ {j p p'}, board.phase? j = some p → p ≠ .unspawned →
      Abandoned i (board.setPhase j p') := by
    intro j p p' hp hne
    have hji : j ≠ i := by
      rintro rfl
      rw [hphase, Option.some.injEq] at hp
      exact hne hp.symm
    exact ⟨(ClipboardWorld.phase?_setPhase_of_ne hji).trans hphase, hspawning⟩
  have htask : ClipboardWorld.IsTaskStep e → Abandoned i board' := by
    intro he
    cases ClipboardWorld.taskMoves_of_step he h with
    | goesOn _ j p p' hp hlive hlive' => exact hset hp (by rintro rfl; exact hlive)
    | leaves j _ hwoken _ _ => exact hset hwoken (by simp)
    | clears j hmatched => exact hset hmatched (by simp)
  have habort : ∀ {pc}, (∀ j, pc = .wrote j ∨ pc = .cancelled j → board.Spawning j) →
      Abandoned i { board.abortTask with pc := pc } := by
    intro pc hpc
    exact ⟨(ClipboardWorld.phase?_abortTask_unspawned i).mpr hphase,
      fun hafter => hspawning (hpc i hafter)⟩
  cases e with
  | copyWithTimeout secret timeout =>
      obtain ⟨-, rfl⟩ := ClipboardWorld.step_copyWithTimeout h
      refine ⟨ClipboardWorld.phase?_afterCopy hphase, ?_⟩
      obtain ⟨c, hc, -⟩ := Option.map_eq_some_iff.mp hphase
      have hlt := (List.getElem?_eq_some_iff.mp hc).1
      rintro (hlast | hlast)
      · exact Nat.ne_of_gt hlt (GuardPc.wrote.inj hlast)
      · cases hlast
  | abortPrevious =>
      obtain ⟨j, hpc, rfl⟩ := ClipboardWorld.step_abortPrevious h
      apply habort
      rintro k (hk | hk)
      · cases hk
      · cases hk
        exact Or.inl hpc
  | spawn =>
      obtain ⟨j, hpc, rfl⟩ := ClipboardWorld.step_spawn h
      have hji : j ≠ i := by
        rintro rfl
        exact hspawning (Or.inr hpc)
      refine ⟨(ClipboardWorld.phase?_setPhase_of_ne hji).trans hphase, ?_⟩
      rintro (hk | hk) <;> cases hk
  | cancel =>
      obtain ⟨-, pc, hpc, rfl⟩ := ClipboardWorld.step_cancelling (Or.inl rfl) h
      apply habort
      rintro k (rfl | rfl) <;> rcases hpc with h | h <;> cases h
  | drop =>
      obtain ⟨-, pc, hpc, rfl⟩ := ClipboardWorld.step_cancelling (Or.inr rfl) h
      apply habort
      rintro k (rfl | rfl) <;> rcases hpc with h | h <;> cases h
  | foreignWrite content =>
      cases h
      exact ⟨hphase, hspawning⟩
  | tick d =>
      cases h
      exact ⟨hphase, hspawning⟩
  | poll j => exact htask trivial
  | wake j => exact htask trivial
  | read j => exact htask trivial
  | clear j => exact htask trivial

theorem abandoned_step {i : Nat} {e : FfiClipboardEvent} (hw : Abandoned i w.board)
    (h : w.step answer e = some w') : Abandoned i w'.board := by
  rcases board_cases h with hsame | ⟨e', hstep⟩ | ⟨j, p, hwoken, -, hset⟩ | ⟨j, -, -, hpanic⟩
  · exact hsame ▸ hw
  · exact abandoned_board_step hw hstep
  · have hji : j ≠ i := by
      rintro rfl
      cases hwoken.symm.trans hw.1
    rw [hset]
    exact ⟨(ClipboardWorld.phase?_setPhase_of_ne hji).trans hw.1, hw.2⟩
  · rw [hpanic]
    refine ⟨hw.1, ?_⟩
    rintro (hk | hk) <;> cases hk

/-- The panic abandons the copy, for the rest of the run. -/
theorem not_pending_of_panic {raw : Option Bytes} {es₁ es₂ : List FfiClipboardEvent}
    {m : FfiClipboard} {i : Nat} (hm : exec (step answer) (new raw) es₁ = some m)
    (hpc : m.board.pc = .cancelled i)
    (h : exec (step answer) (new raw) (es₁ ++ .spawn false :: es₂) = some w) :
    ¬ w.board.Pending i := by
  have hordered : m.board.Ordered :=
    exec_invariant (fun w : FfiClipboard => w.board.Ordered)
      (fun _ _ _ hw hstep => ordered_step hw hstep) (ClipboardWorld.ordered_new _) hm
  obtain ⟨m₁, hm₁, hrest⟩ := exec_append_eq_some.mp h
  obtain rfl := Option.some.inj (hm.symm.trans hm₁)
  obtain ⟨m', hstep, hafter⟩ := exec_cons_eq_some.mp hrest
  have hpanic : m' = { m with board := { m.board with pc := .idle } } := by
    simp only [step, hpc, Option.some.injEq] at hstep
    exact hstep.symm
  have habandoned : Abandoned i m'.board := by
    rw [hpanic]
    refine ⟨(hordered.spawning i (Or.inr hpc)).2, ?_⟩
    rintro (hk | hk) <;> cases hk
  obtain ⟨hphase, hspawning⟩ :=
    exec_invariant (fun w : FfiClipboard => Abandoned i w.board)
      (fun _ _ _ hw hstep => abandoned_step hw hstep) habandoned hafter
  rintro (hwill | ⟨p, hp, hlive⟩)
  · exact hspawning hwill
  · obtain rfl := Option.some.inj (hphase.symm.trans hp)
    exact hlive

/-- On a faithful host and in a runtime, the guard over the FFI takes the runs of the guard on a
clipboard of texts, step by step and no others, whatever bytes other applications leave there and
whatever secrets are refused. In a runtime or not, what the host's clipboard holds is the text of
that clipboard; but a copy outside of a runtime never has a task that clears it. -/
theorem ffi_runs_are_guard_runs (hhost : FaithfulHost answer) (raw : Option Bytes)
    (es : List FfiClipboardEvent) :
    ((∀ e ∈ es, e.inRuntime = true) →
      (exec (step answer) (new raw) es).map board =
        exec ClipboardWorld.step (.new (shown raw)) (es.filterMap imageEvent)) ∧
      ∀ w, exec (step answer) (new raw) es = some w → w.board.clipboard = shown w.raw ∧
        ∀ es₁ es₂ m i, es = es₁ ++ .spawn false :: es₂ →
          exec (step answer) (new raw) es₁ = some m → m.board.pc = .cancelled i →
            ¬ w.board.Pending i := by
  constructor
  · intro hruntime
    exact map_exec_of_bisimulation board imageEvent Accords (fun e => e.inRuntime = true)
      (fun _ _ _ hw _ hstep => accords_step hhost hw hstep)
      (fun _ _ hw he => map_board_step hhost hw he) (accords_new raw) hruntime
  · intro w hrun
    refine ⟨(exec_invariant Accords (fun _ _ _ hw hstep => accords_step hhost hw hstep)
      (accords_new raw) hrun).content, ?_⟩
    rintro es₁ es₂ m i rfl hm hpc
    exact not_pending_of_panic hm hpc hrun

/-- A host that answers an error when there is nothing to show. -/
def sampleHost : Option Bytes → HostReply
  | none => ⟨-4, none, 0⟩
  | some bytes => ⟨vvOk, some bytes, bytes.length⟩

theorem faithful_sampleHost : FaithfulHost sampleHost where
  holds _ _ := rfl
  null := rfl
  empty := rfl

/-- A code is copied, another application writes bytes that are no text, and the timer runs out. -/
def copyThenForeignBytes : List FfiClipboardEvent :=
  [.vvClipboardGuardCopyWithTimeout false (some (Json.utf8 "123456".toList)) 5,
    .abortPrevious, .spawn true, .poll 0, .foreignWrite (some [0xff]), .tick 5000000, .wake 0,
    .read 0]

/-- The theorem on that run: the task leaves the bytes alone. -/
theorem ffi_runs_are_guard_runs_copyThenForeignBytes :
    (exec (step sampleHost) (new none) copyThenForeignBytes).map board =
        exec ClipboardWorld.step (.new (shown none)) (copyThenForeignBytes.filterMap imageEvent) ∧
      ∀ w, exec (step sampleHost) (new none) copyThenForeignBytes = some w →
        w.board.clipboard = shown w.raw := by
  obtain ⟨hruns, hcontent⟩ :=
    ffi_runs_are_guard_runs faithful_sampleHost none copyThenForeignBytes
  exact ⟨hruns (by decide), fun w hw => (hcontent w hw).1⟩

-- Outside of a runtime the secret stays when its time is over.
example :
    ((exec (step sampleHost) (new none)
      [.vvClipboardGuardCopyWithTimeout false (some [0x31]) 5, .abortPrevious, .spawn false,
        .tick 5000000]).map fun w => (w.board.clipboard, w.board.task)) =
      some (some ['1'], none) := by
  rfl

end FfiClipboard

end ViperVault
