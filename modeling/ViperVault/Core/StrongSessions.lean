import ViperVault.Core.Biometrics
import ViperVault.Core.Disclosure

/-!
# Where disclosures come from

Whatever the interleaving, a disclosure call that answers has found a session at each of its two
checks that an unlock call opened: one with the primary outcome at the policy check, and a strong
one at the re-authentication check. Biometric and quick unlocks open sessions of which nothing is
disclosed, also when the re-authentication requirement is cleared.
-/

namespace ViperVault

open Foundation

/-- Changing a session does not change how it was opened. -/
theorem SessionUpdate.exists_of_apply_eq_unlocked {env : Env} {op : SessionUpdate} {st : VaultState}
    {s' : Session} (h : op.apply env st = .unlocked s') :
    ∃ s, st = .unlocked s ∧ s'.authStrength = s.authStrength ∧
      s'.unlockOutcome = s.unlockOutcome := by
  have hunlocked : st.IsUnlocked := (op.isUnlocked_apply env st).mp (by rw [h]; trivial)
  cases st with
  | locked => exact hunlocked.elim
  | unlocked s =>
      refine ⟨s, rfl, ?_⟩
      cases op with
      | store call =>
          obtain ⟨json, hjson⟩ := exists_apply_store_unlocked env call s
          rw [hjson] at h
          cases h
          exact ⟨rfl, rfl⟩
      | _ =>
          cases h
          exact ⟨rfl, rfl⟩

namespace World

variable {env : Env} {w w' : World}

/-- An unlock call has drawn the generation, and made this request. -/
def DrawnBy (w : World) (g : Nat) (request : UnlockRequest) : Prop :=
  ∃ (i : Nat) (pc : UnlockPc), w.calls[i]? = some (.unlock request pc) ∧ pc.generation? = some g

/-- A step of a call keeps its request. -/
theorem unlock_of_moves {sh sh' : Shared} {call : Call} {request : UnlockRequest} {pc' : UnlockPc}
    (h : Call.Moves env sh call (.unlock request pc') sh') : ∃ pc, call = .unlock request pc := by
  cases h <;> exact ⟨_, rfl⟩

theorem unlock_generation_of_moves {sh sh' : Shared} {call' : Call} {request : UnlockRequest}
    {pc : UnlockPc} {g : Nat} (h : Call.Moves env sh (.unlock request pc) call' sh')
    (hg : pc.generation? = some g) :
    ∃ pc', call' = .unlock request pc' ∧ pc'.generation? = some g := by
  cases h with
  | drawUnlock request => cases hg
  | _ => exact ⟨_, rfl, hg⟩

/-- An unlock call keeps its generation and its request. -/
theorem drawnBy_step {ev : Event} {g : Nat} {request : UnlockRequest}
    (hw : DrawnBy w g request) (h : w.step env ev = some w') : DrawnBy w' g request := by
  obtain ⟨i, pc, hi, hg⟩ := hw
  have hlt := (List.getElem?_eq_some_iff.mp hi).1
  rcases step_cases h with ⟨req, rfl, rfl⟩ | ⟨j, call, call', sh', rfl, hj, hadvance, rfl⟩ |
    ⟨u, other, action, sh', rfl, -, -, rfl⟩ | ⟨d, rfl, -, rfl⟩
  · exact ⟨i, pc, (List.getElem?_append_left hlt).trans hi, hg⟩
  · by_cases hij : j = i
    · subst hij
      obtain rfl : call = .unlock request pc := Option.some.inj (hj.symm.trans hi)
      obtain ⟨pc', rfl, hg'⟩ :=
        unlock_generation_of_moves (Call.moves_of_advance hadvance) hg
      exact ⟨j, pc', List.getElem?_set_self hlt, hg'⟩
    · exact ⟨i, pc, (List.getElem?_set_ne hij).trans hi, hg⟩
  · exact ⟨i, pc, hi, hg⟩
  · exact ⟨i, pc, hi, hg⟩

/-- The unlock call that wrote the state last made this request, and the session is what it asked
for. -/
structure OpenedWith (w : World) (request : UnlockRequest) (s : Session) : Prop where
  writer : DrawnBy w w.shared.writer request
  authStrength : s.authStrength = request.authStrength
  unlockOutcome : s.unlockOutcome = request.unlockOutcome

/-- The unlock calls come from these requests, and one of them wrote the session. -/
structure OpenedBy (asked : UnlockRequest → Prop) (w : World) : Prop where
  calls : ∀ (i : Nat) request pc, w.calls[i]? = some (.unlock request pc) → asked request
  session : ∀ s, w.shared.state = .unlocked s → ∃ request, OpenedWith w request s

/-- What a step of a call does to the session: an unlock call opens one and becomes the writer, and
what is there otherwise was opened as it was before. -/
theorem session_of_moves {sh sh' : Shared} {call call' : Call} {s' : Session}
    (h : Call.Moves env sh call call' sh') (hs' : sh'.state = .unlocked s') :
    (∃ request pc, call' = .unlock request pc ∧ pc.generation? = some sh'.writer ∧
        s'.authStrength = request.authStrength ∧ s'.unlockOutcome = request.unlockOutcome) ∨
      sh'.writer = sh.writer ∧ ∃ s, sh.state = .unlocked s ∧ s'.authStrength = s.authStrength ∧
        s'.unlockOutcome = s.unlockOutcome := by
  cases h with
  | writeUnlock request g =>
      cases hs'
      exact Or.inl ⟨request, _, rfl, rfl, rfl, rfl⟩
  | writeLock g => cases hs'
  | cancelUnlock request g =>
      rw [Shared.cancelAutoLock_state] at hs'
      exact Or.inr ⟨Shared.cancelAutoLock_writer sh, s', hs', rfl, rfl⟩
  | cancelLock g =>
      rw [Shared.cancelAutoLock_state] at hs'
      exact Or.inr ⟨Shared.cancelAutoLock_writer sh, s', hs', rfl, rfl⟩
  | update op => exact Or.inr ⟨rfl, SessionUpdate.exists_of_apply_eq_unlocked hs'⟩
  | _ => exact Or.inr ⟨rfl, s', hs', rfl, rfl⟩

/-- A session that stays is still that of its writer. -/
theorem openedWith_step {ev : Event} {request : UnlockRequest} {s s' : Session}
    (hw : OpenedWith w request s) (h : w.step env ev = some w')
    (hwriter : w'.shared.writer = w.shared.writer) (hstrength : s'.authStrength = s.authStrength)
    (houtcome : s'.unlockOutcome = s.unlockOutcome) : OpenedWith w' request s' where
  writer := hwriter ▸ drawnBy_step hw.writer h
  authStrength := hstrength.trans hw.authStrength
  unlockOutcome := houtcome.trans hw.unlockOutcome

theorem openedBy_step {asked : UnlockRequest → Prop} {ev : Event}
    (hasked : ∀ request, ev = .invoke (.unlock request) → asked request) (hw : OpenedBy asked w)
    (h : w.step env ev = some w') : OpenedBy asked w' := by
  have hstays : ∀ s', w.shared.state = .unlocked s' → w'.shared.writer = w.shared.writer →
      ∃ request, OpenedWith w' request s' := by
    intro s' hs' hwriter
    obtain ⟨request, hopened⟩ := hw.session s' hs'
    exact ⟨request, openedWith_step hopened h hwriter rfl rfl⟩
  rcases step_cases h with ⟨request, rfl, rfl⟩ | ⟨i, call, call', sh', rfl, hcall, hadvance, rfl⟩ |
    ⟨t, task, action, sh', rfl, htask, hstep, rfl⟩ | ⟨d, rfl, -, rfl⟩
  · refine ⟨?_, fun s' hs' => hstays s' hs' rfl⟩
    intro j req pc hj
    rcases getElem?_append_singleton hj with hold | ⟨-, hnew⟩
    · exact hw.calls j req pc hold
    · obtain ⟨rfl, -⟩ := unlock_of_start hnew.symm
      exact hasked _ rfl
  · have hmove := Call.moves_of_advance hadvance
    constructor
    · intro j req pc hj
      rcases getElem?_set_cases hj with ⟨-, rfl⟩ | ⟨-, hold⟩
      · obtain ⟨pc₀, rfl⟩ := unlock_of_moves hmove
        exact hw.calls i req pc₀ hcall
      · exact hw.calls j req pc hold
    · intro s' hs'
      rcases session_of_moves hmove hs' with
        ⟨request, pc, rfl, hg, hstrength, houtcome⟩ | ⟨hwriter, s, hs, hstrength, houtcome⟩
      · have hlt := (List.getElem?_eq_some_iff.mp hcall).1
        exact ⟨request, ⟨i, pc, List.getElem?_set_self hlt, hg⟩, hstrength, houtcome⟩
      · obtain ⟨request, hopened⟩ := hw.session s hs
        exact ⟨request, openedWith_step hopened h hwriter hstrength houtcome⟩
  · refine ⟨hw.calls, ?_⟩
    intro s' hs'
    obtain ⟨-, hwriter, hsame | hlocked⟩ := Shared.timerStep_frame hstep
    · exact hstays s' (hsame ▸ hs') hwriter
    · rw [hlocked] at hs'
      cases hs'
  · exact ⟨hw.calls, fun s' hs' => hstays s' hs' rfl⟩

/-- What opened the session was asked for in the run. -/
theorem openedBy_of_run {es : List Event} (h : exec (step env) new es = some w) :
    OpenedBy (fun request => .invoke (.unlock request) ∈ es) w := by
  refine exec_invariant_of_everyStep
    (fun _ ev => ∀ request, ev = .invoke (.unlock request) → .invoke (.unlock request) ∈ es)
    (OpenedBy fun request => .invoke (.unlock request) ∈ es) ?_ ⟨?_, ?_⟩
    (everyStep_of_forall_mem ?_) h
  · intro w ev w' hw hasked hstep
    exact openedBy_step hasked hw hstep
  · intro i request pc hcall
    cases hcall
  · intro s hs
    cases hs
  · rintro ev hev request rfl
    exact hev

/-! ## The steps of a disclosure call -/

/-- The call has passed the policy check. -/
def pastPolicy : DisclosePc → Prop
  | .policyChecked | .authorized | .returned (.ok _) _ => True
  | _ => False

/-- The call has passed the re-authentication check. -/
def pastReauth : DisclosePc → Prop
  | .authorized | .returned (.ok _) _ => True
  | _ => False

/-- How a call comes past a place: in a step of its own, from before it. -/
theorem exists_passing_step {P : DisclosePc → Prop} (hstart : ¬ P .start) {es : List Event}
    {i : Nat} {request : DisclosureRequest} {pc : DisclosePc}
    (h : exec (step env) new es = some w) (hcall : w.calls[i]? = some (.disclose request pc))
    (hpast : P pc) :
    ∃ es₁ es₂ m pc₁ pc₂, es = es₁ ++ .advance i :: es₂ ∧ exec (step env) new es₁ = some m ∧
      m.calls[i]? = some (.disclose request pc₁) ∧ ¬ P pc₁ ∧ P pc₂ ∧
      request.advance env m.shared.state pc₁ = some pc₂ := by
  have hnew : ¬ ∃ pc, new.calls[i]? = some (.disclose request pc) ∧ P pc := by
    rintro ⟨pc, hnone, -⟩
    cases hnone
  obtain ⟨es₁, ev, es₂, m, m', rfl, hm, hstep, hbefore, pc₂, hafter, hpast₂⟩ :=
    exists_step_of_exec
      (P := fun w => ∃ pc, w.calls[i]? = some (.disclose request pc) ∧ P pc) hnew
      ⟨pc, hcall, hpast⟩ h
  rcases step_cases hstep with ⟨req, rfl, rfl⟩ | ⟨j, call, call', sh', rfl, hj, hadvance, rfl⟩ |
    ⟨t, task, action, sh', rfl, -, -, rfl⟩ | ⟨d, rfl, -, rfl⟩
  · rcases getElem?_append_singleton hafter with hold | ⟨-, hnew⟩
    · exact absurd ⟨pc₂, hold, hpast₂⟩ hbefore
    · obtain ⟨-, rfl⟩ := disclose_of_start hnew.symm
      exact absurd hpast₂ hstart
  · rcases getElem?_set_cases hafter with ⟨rfl, rfl⟩ | ⟨-, hold⟩
    · cases Call.moves_of_advance hadvance with
      | disclose _ pc₁ _ hpc =>
          have hnot : ¬ P pc₁ := fun hpast₁ => hbefore ⟨pc₁, hj, hpast₁⟩
          exact ⟨es₁, es₂, m, pc₁, pc₂, rfl, hm, hj, hnot, hpast₂, hpc⟩
    · exact absurd ⟨pc₂, hold, hpast₂⟩ hbefore
  · exact absurd ⟨pc₂, hafter, hpast₂⟩ hbefore
  · exact absurd ⟨pc₂, hafter, hpast₂⟩ hbefore

section
variable {request : DisclosureRequest} {st : VaultState} {pc₁ pc₂ : DisclosePc}

/-- The policy check is passed on a primary session that is not debugged. -/
theorem session_of_pastPolicy (h : request.advance env st pc₁ = some pc₂)
    (hbefore : ¬ pastPolicy pc₁) (hpast : pastPolicy pc₂) :
    ∃ s, st = .unlocked s ∧ s.unlockOutcome = .primary ∧ s.runtimeState = .notDebugged := by
  cases pc₁ with
  | start =>
      cases st with
      | locked =>
          cases h
          exact hpast.elim
      | unlocked s =>
          simp only [DisclosureRequest.advance, VaultState.currentPolicyContext] at h
          split at h
          · rename_i hallow
            exact ⟨s, rfl, (PolicyContext.allowSensitiveOperation_iff _ _).mp hallow⟩
          · cases h
            exact hpast.elim
  | policyChecked => exact absurd trivial hbefore
  | authorized => exact absurd trivial hbefore
  | returned answer readFrom => cases h

/-- The re-authentication check is passed on a strong session without the flag, by a call that
has passed the policy check. -/
theorem session_of_pastReauth (h : request.advance env st pc₁ = some pc₂)
    (hbefore : ¬ pastReauth pc₁) (hpast : pastReauth pc₂) :
    pastPolicy pc₁ ∧ ∃ s, st = .unlocked s ∧ s.authStrength = .strong ∧
      s.strongReauthRequired = false := by
  cases pc₁ with
  | start =>
      simp only [DisclosureRequest.advance] at h
      split at h
      · cases h
        exact hpast.elim
      · split at h <;> cases h <;> exact hpast.elim
  | policyChecked =>
      refine ⟨trivial, ?_⟩
      simp only [DisclosureRequest.advance] at h
      split at h
      · cases h
        exact hpast.elim
      · cases h
        exact hpast.elim
      · rename_i hreauth
        cases st with
        | locked => cases hreauth
        | unlocked s =>
            obtain ⟨hflag, hstrong⟩ := (requiresStrongReauthFor_eq_some_false_iff _ s).mp hreauth
            exact ⟨s, rfl, by simpa [AuthenticationStrength.isStrong] using hstrong, hflag⟩
  | authorized => exact absurd trivial hbefore
  | returned answer readFrom => cases h

/-- An answer is what an authorized call reads from the session there is. -/
theorem read_of_returned {disclosed : Disclosed} {readFrom : VaultState}
    (h : request.advance env st pc₁ = some (.returned (.ok disclosed) readFrom)) :
    pastReauth pc₁ ∧ readFrom = st ∧ request.read env st = .ok disclosed := by
  cases pc₁ with
  | start =>
      simp only [DisclosureRequest.advance] at h
      split at h
      · cases h
      · split at h <;> cases h
  | policyChecked =>
      simp only [DisclosureRequest.advance] at h
      split at h <;> cases h
  | authorized =>
      simp only [DisclosureRequest.advance, Option.some.injEq, DisclosePc.returned.injEq] at h
      exact ⟨trivial, h.2.symm, h.1⟩
  | returned answer readFrom => cases h

end

/-- The vault is open after these events, with such a session, and the unlock call that wrote it was
made in them. -/
def OpenAfter (env : Env) (es : List Event) (P : Session → Prop) : Prop :=
  ∃ m s request, exec (step env) new es = some m ∧ m.shared.state = .unlocked s ∧ P s ∧
    .invoke (.unlock request) ∈ es ∧ OpenedWith m request s

theorem openAfter_of_run {es : List Event} {s : Session} {P : Session → Prop}
    (h : exec (step env) new es = some w) (hs : w.shared.state = .unlocked s) (hP : P s) :
    OpenAfter env es P := by
  have hby := openedBy_of_run h
  obtain ⟨request, hopened⟩ := hby.session s hs
  obtain ⟨i, pc, hi, -⟩ := hopened.writer
  exact ⟨w, s, request, h, hs, hP, hby.calls i request pc hi, hopened⟩

/-- A run in which the call discloses this: three steps of the call, each in a session that an
unlock call has written before it. -/
def DisclosedIn (env : Env) (es : List Event) (i : Nat) (request : DisclosureRequest)
    (disclosed : Disclosed) : Prop :=
  ∃ es₁ es₂ es₃ es₄,
    es = es₁ ++ .advance i :: (es₂ ++ .advance i :: (es₃ ++ .advance i :: es₄)) ∧
    OpenAfter env es₁ (fun s => s.unlockOutcome = .primary ∧ s.runtimeState = .notDebugged) ∧
    OpenAfter env (es₁ ++ .advance i :: es₂)
      (fun s => s.authStrength = .strong ∧ s.strongReauthRequired = false) ∧
    OpenAfter env (es₁ ++ .advance i :: (es₂ ++ .advance i :: es₃))
      (fun s => request.read env (.unlocked s) = .ok disclosed)

/-- An answer takes three steps of its call, and each finds a session that an unlock call
opened. -/
theorem disclosedIn_of_run {es : List Event} {i : Nat} {request : DisclosureRequest}
    {disclosed : Disclosed} {readFrom : VaultState} (h : exec (step env) new es = some w)
    (hcall : w.calls[i]? = some (.disclose request (.returned (.ok disclosed) readFrom))) :
    DisclosedIn env es i request disclosed := by
  obtain ⟨es₃, es₄, m₃, pc₃, _, rfl, hm₃, hcall₃, -, rfl, hread⟩ :=
    exists_passing_step (P := fun pc => pc = .returned (.ok disclosed) readFrom)
      (by rintro ⟨⟩) h hcall rfl
  obtain ⟨hpast₃, rfl, hanswer⟩ := read_of_returned hread
  obtain ⟨es₂, es₃, m₂, pc₂, pc₂', rfl, hm₂, hcall₂, hbefore₂, hafter₂, hreauth⟩ :=
    exists_passing_step id hm₃ hcall₃ hpast₃
  obtain ⟨hpast₂, s₂, hs₂, hchecked⟩ := session_of_pastReauth hreauth hbefore₂ hafter₂
  obtain ⟨es₁, es₂, m₁, pc₁, pc₁', rfl, hm₁, -, hbefore₁, hafter₁, hpolicy⟩ :=
    exists_passing_step id hm₂ hcall₂ hpast₂
  obtain ⟨s₁, hs₁, hallowed⟩ := session_of_pastPolicy hpolicy hbefore₁ hafter₁
  refine ⟨es₁, es₂, es₃, es₄, by simp, openAfter_of_run hm₁ hs₁ hallowed,
    openAfter_of_run hm₂ hs₂ hchecked, ?_⟩
  cases hs₃ : m₃.shared.state with
  | locked =>
      rw [hs₃, read_locked] at hanswer
      cases hanswer
  | unlocked s =>
      rw [hs₃] at hanswer
      exact openAfter_of_run (by simpa using hm₃) hs₃ hanswer

/-- Whatever the interleaving, a disclosure call that answers was allowed by the policy in a
primary session that was not debugged, then past the re-authentication check in a strong session
without the flag, and then read its answer; each session is what the unlock call that wrote it
asked for. So biometric and quick unlocks alone disclose nothing, whatever is cleared in between. -/
theorem disclosures_pass_strong_sessions {es : List Event} {i : Nat}
    {request : DisclosureRequest} {disclosed : Disclosed} {readFrom : VaultState}
    (h : exec (step env) new es = some w)
    (hcall : w.calls[i]? = some (.disclose request (.returned (.ok disclosed) readFrom))) :
    DisclosedIn env es i request disclosed ∧
      ∃ unlock, .invoke (.unlock unlock) ∈ es ∧ unlock.authStrength = .strong := by
  have hdisclosed := disclosedIn_of_run h hcall
  refine ⟨hdisclosed, ?_⟩
  obtain ⟨es₁, es₂, es₃, es₄, rfl, -, hchecked, -⟩ := hdisclosed
  obtain ⟨_, s, unlock, -, -, ⟨hs, -⟩, hasked, hopened⟩ := hchecked
  refine ⟨unlock, ?_, hopened.authStrength ▸ hs⟩
  simp only [List.mem_append, List.mem_cons] at hasked ⊢
  tauto

/-- The theorem on a run in which the app goes to the background between the second check and
the read. -/
theorem disclosures_pass_strong_sessions_backgroundDuringReveal :
    DisclosedIn sampleEnv backgroundDuringReveal 1 (.revealEntrySecret 1)
        (.secret ⟨"hunter2".toList⟩) ∧
      ∃ unlock, .invoke (.unlock unlock) ∈ backgroundDuringReveal ∧
        unlock.authStrength = .strong := by
  have hrun : ∃ w, exec (step sampleEnv) new backgroundDuringReveal = some w ∧
      w.calls[1]? = some (.disclose (.revealEntrySecret 1) (.returned
        ((DisclosureRequest.revealEntrySecret 1).read sampleEnv (.unlocked backgroundedSession))
        (.unlocked backgroundedSession))) := ⟨_, rfl, rfl⟩
  obtain ⟨w, hw, hcall⟩ := hrun
  rw [read_backgroundedSession] at hcall
  exact disclosures_pass_strong_sessions hw hcall

end World

end ViperVault
