import ViperVault.Clipboard.Timers
import ViperVault.Core.StrongSessions
import ViperVault.Foundation.Simulation

/-!
# Copies of the manager

`copy_entry_secret_for_operation` and `copy_entry_totp_for_operation`: the manager and the guard of
one clipboard. A copy call of the manager that has its value hands it to the guard; from there on
the guard and its timer tasks go their way, and so do other applications.
-/

namespace ViperVault

open Foundation

/-- `DEFAULT_OTP_CLIPBOARD_TIMEOUT_SECS`. -/
def defaultOtpClipboardTimeoutSecs : Nat := 30

/-- The timeout of a copy call: a copy of a secret names one, a copy of a code may leave it to the
default. The other calls copy nothing. -/
def DisclosureKind.copyTimeout : DisclosureKind → Option Duration
  | .copyEntrySecret timeout => some timeout
  | .copyEntryTotp _ timeout =>
      some (timeout.getD (.fromSecs defaultOtpClipboardTimeoutSecs))
  | _ => none

/-- The manager, the clipboard with its guard, and the calls that have handed their value over. -/
structure CopyWorld where
  world : World
  board : ClipboardWorld
  handed : List Nat

/-- What can happen next. `handOver` is the step of a copy call that follows its checks and its
read. The clock is one. -/
inductive CopyEvent
  | manager (ev : Event)
  | handOver (i : Nat)
  | clipboard (e : ClipboardEvent)
  | tick (d : Duration)

namespace CopyWorld

/-- A locked manager, and a new guard on a clipboard with some content. -/
def new (content : Option Text) : CopyWorld := ⟨.new, .new content, []⟩

/-- The steps that the clipboard and its tasks take by themselves. -/
def isOwn : ClipboardEvent → Bool
  | .copyWithTimeout _ _ => false
  | .tick _ => false
  | _ => true

/-- One step of the two systems, or of a copy call from the one to the other. -/
def step (env : Env) (s : CopyWorld) : CopyEvent → Option CopyWorld
  | .manager (.tick _) => none
  | .manager ev => (s.world.step env ev).map fun world => { s with world := world }
  | .handOver i =>
      match s.world.calls[i]? with
      | some (.disclose request (.returned (.ok (.clipboard content)) _)) => do
          let timeout ← request.kind.copyTimeout
          if i ∈ s.handed then none
          else do
            let board ← s.board.step (.copyWithTimeout content timeout)
            some { s with board := board, handed := s.handed ++ [i] }
      | _ => none
  | .clipboard e =>
      if isOwn e then (s.board.step e).map fun board => { s with board := board } else none
  | .tick d => do
      let world ← s.world.step env (.tick d)
      let board ← s.board.step (.tick d)
      some { s with world := world, board := board }

/-- What an event is to the manager. -/
def managerEvent : CopyEvent → Option Event
  | .manager ev => some ev
  | .tick d => some (.tick d)
  | _ => none

variable {env : Env} {s s' : CopyWorld}

/-- What a step does. -/
inductive Moves (env : Env) (s : CopyWorld) : CopyEvent → CopyWorld → Prop
  | manager (ev : Event) (world : World) (h : s.world.step env ev = some world) :
      Moves env s (.manager ev) { s with world := world }
  | handOver (i : Nat) (request : DisclosureRequest) (content : SecretString)
      (readFrom : VaultState) (timeout : Duration) (board : ClipboardWorld)
      (hcall : s.world.calls[i]? =
        some (.disclose request (.returned (.ok (.clipboard content)) readFrom)))
      (htimeout : request.kind.copyTimeout = some timeout) (hnew : i ∉ s.handed)
      (h : s.board.step (.copyWithTimeout content timeout) = some board) :
      Moves env s (.handOver i) { s with board := board, handed := s.handed ++ [i] }
  | clipboard (e : ClipboardEvent) (board : ClipboardWorld) (hown : isOwn e = true)
      (h : s.board.step e = some board) : Moves env s (.clipboard e) { s with board := board }
  | tick (d : Duration) (world : World) (board : ClipboardWorld)
      (hworld : s.world.step env (.tick d) = some world)
      (hboard : s.board.step (.tick d) = some board) :
      Moves env s (.tick d) { s with world := world, board := board }

theorem step_moves {e : CopyEvent} (h : s.step env e = some s') : s.Moves env e s' := by
  cases e with
  | manager ev =>
      have hmap : (s.world.step env ev).map (fun world => { s with world := world }) = some s' := by
        cases ev with
        | tick d => cases h
        | _ => exact h
      obtain ⟨world, hworld, rfl⟩ := Option.map_eq_some_iff.mp hmap
      exact .manager ev world hworld
  | handOver i =>
      simp only [step] at h
      split at h
      · rename_i request content readFrom hcall
        obtain ⟨timeout, htimeout, h⟩ := Option.bind_eq_some_iff.mp h
        split at h
        · cases h
        · rename_i hnew
          obtain ⟨board, hboard, h⟩ := Option.bind_eq_some_iff.mp h
          cases h
          exact .handOver i request content readFrom timeout board hcall htimeout hnew hboard
      · cases h
  | clipboard e =>
      simp only [step] at h
      split at h
      · rename_i hown
        obtain ⟨board, hboard, rfl⟩ := Option.map_eq_some_iff.mp h
        exact .clipboard e board hown hboard
      · cases h
  | tick d =>
      simp only [step] at h
      obtain ⟨world, hworld, h⟩ := Option.bind_eq_some_iff.mp h
      obtain ⟨board, hboard, h⟩ := Option.bind_eq_some_iff.mp h
      cases h
      exact .tick d world board hworld hboard

/-- The manager's part of a run is a run of the manager. -/
theorem exec_world {es : List CopyEvent} {content : Option Text}
    (h : exec (step env) (new content) es = some s) :
    exec (World.step env) World.new (es.filterMap managerEvent) = some s.world := by
  refine exec_of_simulation CopyWorld.world managerEvent ?_ h
  intro s e s' hstep
  cases step_moves hstep with
  | manager ev world hworld => exact hworld
  | handOver _ _ _ _ _ _ _ _ _ _ => rfl
  | clipboard e board _ _ => rfl
  | tick d world board hworld _ => exact hworld

/-- A returned call stays as it is. -/
theorem returned_of_world_step {w w' : World} {ev : Event} {i : Nat}
    {request : DisclosureRequest} {answer : Except EntryError Disclosed} {readFrom : VaultState}
    (hcall : w.calls[i]? = some (.disclose request (.returned answer readFrom)))
    (h : w.step env ev = some w') :
    w'.calls[i]? = some (.disclose request (.returned answer readFrom)) := by
  have hi := (List.getElem?_eq_some_iff.mp hcall).1
  rcases World.step_cases h with ⟨req, rfl, rfl⟩ | ⟨j, call, call', sh', rfl, hj, hadvance, rfl⟩ |
    ⟨t, task, action, sh', rfl, -, -, rfl⟩ | ⟨d, rfl, -, rfl⟩
  · exact (List.getElem?_append_left hi).trans hcall
  · have hne : j ≠ i := by
      rintro rfl
      rw [hcall, Option.some.injEq] at hj
      subst hj
      cases Call.moves_of_advance hadvance with
      | disclose _ _ _ hpc => cases hpc
    exact (List.getElem?_set_ne hne).trans hcall
  · exact hcall
  · exact hcall

/-- The copies of a state with the same secrets and timeouts as those of another. -/
def SameCopies (board board' : ClipboardWorld) : Prop :=
  board'.calls.map (fun c => (c.secret, c.timeout)) =
    board.calls.map fun c => (c.secret, c.timeout)

/-- A step of the clipboard by itself makes no copy. -/
theorem sameCopies_of_step {board board' : ClipboardWorld} {e : ClipboardEvent}
    (hcopy : ∀ secret timeout, e ≠ .copyWithTimeout secret timeout)
    (h : board.step e = some board') : SameCopies board board' := by
  cases ClipboardWorld.step_moves h with
  | copy secret timeout => exact absurd rfl (hcopy secret timeout)
  | abort _ _ _ =>
      unfold SameCopies ClipboardWorld.abortTask
      split
      · rfl
      · refine map_modify_of_eq ?_ _ _
        exact fun _ => rfl
  | foreignWrite _ => rfl
  | tick _ => rfl
  | _ =>
      refine map_modify_of_eq ?_ _ _
      exact fun _ => rfl

/-- Every copy is of the value of a call of its own, with the timeout of its request. -/
structure Linked (s : CopyWorld) : Prop where
  nodup : s.handed.Nodup
  length : s.board.calls.length = s.handed.length
  source : ∀ (k : Nat) secret timeout,
    (s.board.calls.map fun c => (c.secret, c.timeout))[k]? = some (secret, timeout) →
      ∃ i request readFrom, s.handed[k]? = some i ∧
        s.world.calls[i]? =
          some (.disclose request (.returned (.ok (.clipboard secret)) readFrom)) ∧
        request.kind.copyTimeout = some timeout

theorem linked_new (content : Option Text) : (new content).Linked where
  nodup := List.nodup_nil
  length := rfl
  source k secret timeout h := by cases h

/-- The copies stay while the clipboard goes its own way. -/
theorem Linked.board (hs : s.Linked) {board : ClipboardWorld}
    (hsame : SameCopies s.board board) : ({ s with board := board } : CopyWorld).Linked where
  nodup := hs.nodup
  length := by
    have hlength := congrArg List.length hsame
    simp only [List.length_map] at hlength
    exact hlength.trans hs.length
  source k secret timeout h := by
    have hold : (s.board.calls.map fun c => (c.secret, c.timeout))[k]? =
        some (secret, timeout) := hsame ▸ h
    exact hs.source k secret timeout hold

/-- The values stay while the manager goes its own way. -/
theorem Linked.world (hs : s.Linked) {ev : Event} {world : World}
    (h : s.world.step env ev = some world) : ({ s with world := world } : CopyWorld).Linked where
  nodup := hs.nodup
  length := hs.length
  source k secret timeout hk := by
    obtain ⟨i, request, readFrom, hi, hcall, htimeout⟩ := hs.source k secret timeout hk
    exact ⟨i, request, readFrom, hi, returned_of_world_step hcall h, htimeout⟩

theorem linked_step {e : CopyEvent} (hs : s.Linked) (h : s.step env e = some s') :
    s'.Linked := by
  cases step_moves h with
  | manager ev world hworld => exact hs.world hworld
  | clipboard e board hown hboard =>
      apply hs.board
      apply sameCopies_of_step ?_ hboard
      rintro secret timeout rfl
      cases hown
  | tick d world board hworld hboard =>
      have hlinked := hs.board (sameCopies_of_step (by simp) hboard)
      have htick : s.world.step env (.tick d) = some world := hworld
      exact hlinked.world htick
  | handOver i request content readFrom timeout board hcall htimeout hnew hboard =>
      obtain ⟨-, rfl⟩ := ClipboardWorld.step_copyWithTimeout hboard
      refine ⟨?_, ?_, ?_⟩
      · refine List.nodup_append.mpr ⟨hs.nodup, List.nodup_singleton i, ?_⟩
        rintro a ha b hb rfl
        rw [List.mem_singleton] at hb
        exact hnew (hb ▸ ha)
      · simp [ClipboardWorld.afterCopy, hs.length]
      · intro k secret time hk
        simp only [ClipboardWorld.afterCopy, List.map_append, List.map_cons, List.map_nil] at hk
        rcases getElem?_append_singleton hk with hold | ⟨hlast, heq⟩
        · obtain ⟨j, req, from', hj, hdisclosed, htime⟩ := hs.source k secret time hold
          have hlt := (List.getElem?_eq_some_iff.mp hj).1
          exact ⟨j, req, from', (List.getElem?_append_left hlt).trans hj, hdisclosed, htime⟩
        · cases heq
          rw [List.length_map, hs.length] at hlast
          refine ⟨i, request, readFrom, ?_, hcall, htimeout⟩
          rw [hlast]
          exact List.getElem?_concat_length

end CopyWorld

end ViperVault
