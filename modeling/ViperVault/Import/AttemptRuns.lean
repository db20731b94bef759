import ViperVault.Core.LimiterRuns
import ViperVault.Import.Attempts

/-!
# What the gate counts

Whatever the interleaving, the limiter holds the streak of the journal, each attempt has made the
entries that its outcome asks for, and each delay is that of the streak in front of it.
-/

namespace ViperVault

open Foundation

/-- What an outcome means for the limiter. -/
inductive Verdict
  | primary
  | authFailed
  | other
  deriving DecidableEq

/-- The verdict on the result of a password check. -/
def verdictOf : Except UnlockError (UnlockOutcome × Bytes) → Verdict
  | .ok (.primary, _) => .primary
  | .error .authFailed => .authFailed
  | _ => .other

theorem verdictOf_eq_authFailed {res : Except UnlockError (UnlockOutcome × Bytes)} :
    verdictOf res = .authFailed ↔ res = .error .authFailed := by
  unfold verdictOf
  split <;> simp_all

theorem verdictOf_eq_primary {res : Except UnlockError (UnlockOutcome × Bytes)} :
    verdictOf res = .primary ↔ ∃ json, res = .ok (.primary, json) := by
  unfold verdictOf
  split <;> simp_all

/-! ## The steps of an attempt -/

section Moves

variable {Key : Type} {lib : Libraries Key} {backupLib : BackupLibraries Key}
  {policy : UnlockThrottlePolicy}

/-- What the next step of an attempt can be. -/
inductive Attempt.Moves (lib : Libraries Key) (backupLib : BackupLibraries Key)
    (policy : UnlockThrottlePolicy) (a : Attempt) (limiter : UnlockRateLimiter) (now : Instant)
    (draw : UInt64) : AttemptPc → UnlockRateLimiter → List LimiterAction → Prop
  | refuse (e : ImportError) (hpc : a.pc = .start)
      (hcontainer : a.request.container lib backupLib = .error e) :
      Moves lib backupLib policy a limiter now draw (.returned (.imported (.error e))) limiter []
  | accept (parsed : ParsedVaultFile) (hpc : a.pc = .start)
      (hcontainer : a.request.container lib backupLib = .ok parsed) :
      Moves lib backupLib policy a limiter now draw (.admitted parsed) limiter []
  | evaluate (parsed : ParsedVaultFile) (hpc : a.pc = .admitted parsed) :
      Moves lib backupLib policy a limiter now draw
        (.evaluated (unlockVaultToPlaintextJsonWithOutcome lib parsed a.request.password)) limiter
        []
  | panic (hpc : a.pc = .evaluated (.error .authFailed))
      (hjitter : jitter policy.jitterMax draw = none) :
      Moves lib backupLib policy a limiter now draw .panicked
        (limiter.onFailureDelay policy now 0).2 [.failure now none]
  | fail (j : Duration) (hpc : a.pc = .evaluated (.error .authFailed))
      (hjitter : jitter policy.jitterMax draw = some j) :
      Moves lib backupLib policy a limiter now draw
        (if (limiter.onFailureDelay policy now j).1 = 0 then .passed (.error .authFailed)
          else .sleeping (.error .authFailed) (now + (limiter.onFailureDelay policy now j).1))
        (limiter.onFailureDelay policy now j).2
        [.failure now (some (limiter.onFailureDelay policy now j).1)]
  | pass (res : Except UnlockError (UnlockOutcome × Bytes)) (hpc : a.pc = .evaluated res)
      (hverdict : verdictOf res ≠ .authFailed) :
      Moves lib backupLib policy a limiter now draw (.passed res) limiter []
  | wake (res : Except UnlockError (UnlockOutcome × Bytes)) (deadline : Instant)
      (hpc : a.pc = .sleeping res deadline) (hover : deadline ≤ now) :
      Moves lib backupLib policy a limiter now draw (.passed res) limiter []
  | reset (res : Except UnlockError (UnlockOutcome × Bytes)) (hpc : a.pc = .passed res)
      (hverdict : verdictOf res = .primary) :
      Moves lib backupLib policy a limiter now draw (.returned (a.request.answer lib res))
        .onSuccess [.reset]
  | leave (res : Except UnlockError (UnlockOutcome × Bytes)) (hpc : a.pc = .passed res)
      (hverdict : verdictOf res ≠ .primary) :
      Moves lib backupLib policy a limiter now draw (.returned (a.request.answer lib res)) limiter
        []

theorem Attempt.moves_of_advance {a : Attempt} {limiter limiter' : UnlockRateLimiter}
    {now : Instant} {draw : UInt64} {pc' : AttemptPc} {actions : List LimiterAction}
    (h : a.advance lib backupLib policy limiter now draw = some (pc', limiter', actions)) :
    a.Moves lib backupLib policy limiter now draw pc' limiter' actions := by
  obtain ⟨request, pc⟩ := a
  cases pc with
  | start =>
      simp only [advance] at h
      split at h
      · rename_i e hcontainer
        cases h
        exact .refuse e rfl hcontainer
      · rename_i parsed hcontainer
        cases h
        exact .accept parsed rfl hcontainer
  | admitted parsed =>
      cases h
      exact .evaluate parsed rfl
  | evaluated res =>
      by_cases hverdict : verdictOf res = .authFailed
      · obtain rfl := verdictOf_eq_authFailed.mp hverdict
        simp only [advance] at h
        split at h
        · rename_i hjitter
          cases h
          exact .panic rfl hjitter
        · rename_i j hjitter
          cases h
          exact .fail j rfl hjitter
      · have hpass : some (.passed res, limiter, []) = some (pc', limiter', actions) := by
          rw [← h]
          unfold advance
          split <;> simp_all [verdictOf]
        cases hpass
        exact .pass res rfl hverdict
  | sleeping res deadline =>
      simp only [advance, Option.ite_none_right_eq_some] at h
      obtain ⟨hover, h⟩ := h
      cases h
      exact .wake res deadline rfl hover
  | passed res =>
      by_cases hverdict : verdictOf res = .primary
      · obtain ⟨json, rfl⟩ := verdictOf_eq_primary.mp hverdict
        cases h
        exact .reset _ rfl hverdict
      · have hleave : some (.returned (request.answer lib res), limiter, []) =
            some (pc', limiter', actions) := by
          rw [← h]
          unfold advance
          split <;> simp_all [verdictOf]
        cases hleave
        exact .leave res rfl hverdict
  | panicked => cases h
  | returned answer => cases h

/-- What a step does to the limiter is one entry of the journal, or nothing. -/
theorem Attempt.Moves.limiter {a : Attempt} {limiter limiter' : UnlockRateLimiter}
    {now : Instant} {draw : UInt64} {pc' : AttemptPc} {more : List LimiterAction}
    (h : a.Moves lib backupLib policy limiter now draw pc' limiter' more) :
    (more = [] ∧ limiter' = limiter) ∨
      ∃ action, more = [action] ∧
        limiter'.streak = limiter.streak.after policy.quietPeriod action ∧
        (∀ instant, action = .failure instant none →
          ∃ draw, jitter policy.jitterMax draw = none) ∧
        ∀ instant delay, action = .failure instant (some delay) →
          leastDelay policy (limiter.streak.afterFailure policy.quietPeriod instant).failures ≤
            delay ∧
          delay ≤ leastDelay policy
            (limiter.streak.afterFailure policy.quietPeriod instant).failures +
              policy.jitterMax := by
  cases h with
  | panic hpc hjitter =>
      refine Or.inr ⟨_, rfl, UnlockRateLimiter.streak_onFailureDelay policy now 0 limiter, ?_, ?_⟩
      · intro _ _
        exact ⟨draw, hjitter⟩
      · intro instant delay hentry
        cases hentry
  | fail j hpc hjitter =>
      refine Or.inr ⟨_, rfl, UnlockRateLimiter.streak_onFailureDelay policy now j limiter, ?_, ?_⟩
      · intro instant hentry
        cases hentry
      · intro instant delay hentry
        cases hentry
        exact delay_bounds policy now (jitter_le hjitter) limiter rfl
  | reset res hpc hverdict =>
      refine Or.inr ⟨.reset, rfl, rfl, ?_, ?_⟩
      · intro instant hentry
        cases hentry
      · intro instant delay hentry
        cases hentry
  | _ => exact Or.inl ⟨rfl, rfl⟩

end Moves

/-! ## What an attempt has done so far -/

/-- A delay has been given for a failure, and it is over. -/
def Served (now : Instant) (actions : List LimiterAction) : Prop :=
  ∃ instant delay, actions = [.failure instant (some delay)] ∧ instant + delay ≤ now

theorem Served.mono {now now' : Instant} {actions : List LimiterAction} (hle : now ≤ now')
    (h : Served now actions) : Served now' actions := by
  obtain ⟨instant, delay, hactions, hover⟩ := h
  exact ⟨instant, delay, hactions, Nat.le_trans hover hle⟩

/-- What a verdict asks for by the time that the call returns: one failure whose delay is over,
one reset, or nothing. -/
def Settled (now : Instant) (actions : List LimiterAction) : Verdict → Prop
  | .authFailed => Served now actions
  | .primary => actions = [.reset]
  | .other => actions = []

/-- What a verdict asks for by the time that `AuthGate::run` returns. -/
def Delayed (now : Instant) (actions : List LimiterAction) : Verdict → Prop
  | .authFailed => Served now actions
  | .primary => actions = []
  | .other => actions = []

theorem Settled.mono {now now' : Instant} {actions : List LimiterAction} {verdict : Verdict}
    (hle : now ≤ now') (h : Settled now actions verdict) : Settled now' actions verdict := by
  cases verdict with
  | authFailed => exact Served.mono hle h
  | primary => exact h
  | other => exact h

theorem Delayed.mono {now now' : Instant} {actions : List LimiterAction} {verdict : Verdict}
    (hle : now ≤ now') (h : Delayed now actions verdict) : Delayed now' actions verdict := by
  cases verdict with
  | authFailed => exact Served.mono hle h
  | primary => exact h
  | other => exact h

theorem delayed_of_ne {now : Instant} {verdict : Verdict} (h : verdict ≠ .authFailed) :
    Delayed now [] verdict := by
  cases verdict with
  | authFailed => exact absurd rfl h
  | primary => rfl
  | other => rfl

/-- A verdict that is not primary asks for nothing more on the way out. -/
theorem Delayed.settled {now : Instant} {actions : List LimiterAction} {verdict : Verdict}
    (h : Delayed now actions verdict) (hne : verdict ≠ .primary) :
    Settled now actions verdict := by
  cases verdict with
  | authFailed => exact h
  | primary => exact absurd rfl hne
  | other => exact h

section Accounts

variable {Key : Type} (lib : Libraries Key) (backupLib : BackupLibraries Key)
  (policy : UnlockThrottlePolicy)

/-- The actions are those of an attempt that stands here. -/
def Attempt.Accounts (a : Attempt) (now : Instant) (actions : List LimiterAction) : Prop :=
  match a.pc with
  | .start => actions = []
  | .admitted parsed => a.request.container lib backupLib = .ok parsed ∧ actions = []
  | .evaluated res => a.request.outcome lib backupLib = some res ∧ actions = []
  | .sleeping res deadline =>
      a.request.outcome lib backupLib = some res ∧ verdictOf res = .authFailed ∧
        ∃ instant delay, actions = [.failure instant (some delay)] ∧ deadline = instant + delay
  | .passed res =>
      a.request.outcome lib backupLib = some res ∧ Delayed now actions (verdictOf res)
  | .panicked =>
      (∃ draw, jitter policy.jitterMax draw = none) ∧ ∃ instant, actions = [.failure instant none]
  | .returned answer =>
      (∃ e, a.request.container lib backupLib = .error e ∧ answer = .imported (.error e) ∧
        actions = []) ∨
      ∃ res, a.request.outcome lib backupLib = some res ∧ answer = a.request.answer lib res ∧
        Settled now actions (verdictOf res)

variable {lib backupLib policy}

theorem Attempt.Accounts.mono {a : Attempt} {now now' : Instant} {actions : List LimiterAction}
    (hle : now ≤ now') (h : a.Accounts lib backupLib policy now actions) :
    a.Accounts lib backupLib policy now' actions := by
  obtain ⟨request, pc⟩ := a
  cases pc with
  | passed res => exact ⟨h.1, h.2.mono hle⟩
  | returned answer =>
      refine Or.imp_right ?_ h
      rintro ⟨res, hres, hanswer, hsettled⟩
      exact ⟨res, hres, hanswer, hsettled.mono hle⟩
  | _ => exact h

/-- A step adds what the account of the attempt needs. -/
theorem Attempt.Accounts.step {a : Attempt} {limiter limiter' : UnlockRateLimiter}
    {now : Instant} {draw : UInt64} {pc' : AttemptPc} {actions more : List LimiterAction}
    (h : a.Accounts lib backupLib policy now actions)
    (hmove : a.Moves lib backupLib policy limiter now draw pc' limiter' more) :
    Attempt.Accounts lib backupLib policy { a with pc := pc' } now (actions ++ more) := by
  obtain ⟨request, pc⟩ := a
  cases hmove with
  | refuse e hpc hcontainer =>
      cases hpc
      obtain rfl : actions = [] := h
      exact Or.inl ⟨e, hcontainer, rfl, rfl⟩
  | accept parsed hpc hcontainer =>
      cases hpc
      obtain rfl : actions = [] := h
      exact ⟨hcontainer, rfl⟩
  | evaluate parsed hpc =>
      cases hpc
      obtain ⟨hcontainer, rfl⟩ := h
      refine ⟨?_, rfl⟩
      simp only [GateRequest.outcome, hcontainer]
  | panic hpc hjitter =>
      cases hpc
      obtain ⟨-, rfl⟩ := h
      exact ⟨⟨draw, hjitter⟩, now, rfl⟩
  | fail j hpc hjitter =>
      cases hpc
      obtain ⟨hres, rfl⟩ := h
      by_cases hzero : (limiter.onFailureDelay policy now j).1 = 0
      · rw [if_pos hzero, hzero]
        exact ⟨hres, now, 0, rfl, Nat.le_refl now⟩
      · rw [if_neg hzero]
        exact ⟨hres, rfl, now, _, rfl, rfl⟩
  | pass res hpc hverdict =>
      cases hpc
      obtain ⟨hres, rfl⟩ := h
      exact ⟨hres, delayed_of_ne hverdict⟩
  | wake res deadline hpc hover =>
      cases hpc
      obtain ⟨hres, hverdict, instant, delay, rfl, rfl⟩ := h
      refine ⟨hres, ?_⟩
      rw [List.append_nil, hverdict]
      exact ⟨instant, delay, rfl, hover⟩
  | reset res hpc hverdict =>
      cases hpc
      obtain ⟨hres, hdelayed⟩ := h
      rw [hverdict] at hdelayed
      obtain rfl : actions = [] := hdelayed
      refine Or.inr ⟨res, hres, rfl, ?_⟩
      rw [hverdict]
      rfl
  | leave res hpc hverdict =>
      cases hpc
      obtain ⟨hres, hdelayed⟩ := h
      rw [List.append_nil]
      exact Or.inr ⟨res, hres, rfl, hdelayed.settled hverdict⟩

theorem GateRequest.outcome_eq_none {request : GateRequest} {e : ImportError}
    (h : request.container lib backupLib = .error e) : request.outcome lib backupLib = none := by
  simp only [outcome, h]

/-- A call that is refused in front of the gate does nothing to the limiter. -/
theorem Attempt.Accounts.refused {a : Attempt} {now : Instant} {actions : List LimiterAction}
    (h : a.Accounts lib backupLib policy now actions)
    (hjitter : ∀ draw, jitter policy.jitterMax draw ≠ none)
    (hnone : a.request.outcome lib backupLib = none) : actions = [] := by
  obtain ⟨request, pc⟩ := a
  cases pc with
  | start => exact h
  | admitted parsed => exact h.2
  | evaluated res => exact h.2
  | sleeping res deadline => exact absurd (hnone.symm.trans h.1) (by simp)
  | passed res => exact absurd (hnone.symm.trans h.1) (by simp)
  | panicked =>
      obtain ⟨⟨draw, hdraw⟩, -⟩ := h
      exact absurd hdraw (hjitter draw)
  | returned answer =>
      rcases h with ⟨e, -, -, hactions⟩ | ⟨res, hres, -, -⟩
      · exact hactions
      · exact absurd (hnone.symm.trans hres) (by simp)

/-- A call that has returned has done what its verdict asks for. -/
theorem Attempt.Accounts.settled {a : Attempt} {now : Instant} {actions : List LimiterAction}
    {answer : GateAnswer} {res : Except UnlockError (UnlockOutcome × Bytes)}
    (h : a.Accounts lib backupLib policy now actions) (hpc : a.pc = .returned answer)
    (hres : a.request.outcome lib backupLib = some res) :
    answer = a.request.answer lib res ∧ Settled now actions (verdictOf res) := by
  obtain ⟨request, pc⟩ := a
  cases hpc
  rcases h with ⟨e, hcontainer, -, -⟩ | ⟨res', hres', hanswer, hsettled⟩
  · rw [GateRequest.outcome_eq_none hcontainer] at hres
    cases hres
  · rw [hres'] at hres
    cases hres
    exact ⟨hanswer, hsettled⟩

/-- A call in progress has done nothing yet, or it has registered its failure. -/
theorem Attempt.Accounts.pending {a : Attempt} {now : Instant} {actions : List LimiterAction}
    {res : Except UnlockError (UnlockOutcome × Bytes)}
    (h : a.Accounts lib backupLib policy now actions)
    (hjitter : ∀ draw, jitter policy.jitterMax draw ≠ none)
    (hpc : ∀ answer, a.pc ≠ .returned answer)
    (hres : a.request.outcome lib backupLib = some res) :
    actions = [] ∨ (verdictOf res = .authFailed ∧
      ∃ instant delay, actions = [.failure instant (some delay)]) := by
  obtain ⟨request, pc⟩ := a
  cases pc with
  | start => exact Or.inl h
  | admitted parsed => exact Or.inl h.2
  | evaluated res' => exact Or.inl h.2
  | sleeping res' deadline =>
      obtain ⟨hres', hverdict, instant, delay, hactions, -⟩ := h
      rw [hres] at hres'
      cases hres'
      exact Or.inr ⟨hverdict, instant, delay, hactions⟩
  | passed res' =>
      obtain ⟨hres', hdelayed⟩ := h
      rw [hres] at hres'
      cases hres'
      cases hverdict : verdictOf res with
      | authFailed =>
          rw [hverdict] at hdelayed
          obtain ⟨instant, delay, hactions, -⟩ := hdelayed
          exact Or.inr ⟨rfl, instant, delay, hactions⟩
      | primary =>
          rw [hverdict] at hdelayed
          exact Or.inl hdelayed
      | other =>
          rw [hverdict] at hdelayed
          exact Or.inl hdelayed
  | panicked =>
      obtain ⟨⟨draw, hdraw⟩, -⟩ := h
      exact absurd hdraw (hjitter draw)
  | returned answer => exact absurd rfl (hpc answer)

/-- A delay that is not over keeps its attempt asleep. -/
theorem Attempt.Accounts.asleep {a : Attempt} {now : Instant} {actions : List LimiterAction}
    {instant : Instant} {delay : Duration} (h : a.Accounts lib backupLib policy now actions)
    (hmem : .failure instant (some delay) ∈ actions) (hnow : now < instant + delay) :
    ∃ res, a.pc = .sleeping res (instant + delay) := by
  have hserved : ¬ Served now actions := by
    rintro ⟨instant', delay', rfl, hover⟩
    cases List.mem_singleton.mp hmem
    exact absurd hover (Nat.not_le.mpr hnow)
  obtain ⟨request, pc⟩ := a
  cases pc with
  | start =>
      obtain rfl : actions = [] := h
      cases hmem
  | admitted parsed =>
      obtain ⟨-, rfl⟩ := h
      cases hmem
  | evaluated res =>
      obtain ⟨-, rfl⟩ := h
      cases hmem
  | sleeping res deadline =>
      obtain ⟨-, -, instant', delay', rfl, rfl⟩ := h
      cases List.mem_singleton.mp hmem
      exact ⟨res, rfl⟩
  | passed res =>
      obtain ⟨-, hdelayed⟩ := h
      cases hverdict : verdictOf res with
      | authFailed =>
          rw [hverdict] at hdelayed
          exact absurd hdelayed hserved
      | primary =>
          rw [hverdict] at hdelayed
          obtain rfl : actions = [] := hdelayed
          cases hmem
      | other =>
          rw [hverdict] at hdelayed
          obtain rfl : actions = [] := hdelayed
          cases hmem
  | panicked =>
      obtain ⟨-, instant', rfl⟩ := h
      cases List.mem_singleton.mp hmem
  | returned answer =>
      rcases h with ⟨e, -, -, rfl⟩ | ⟨res, -, -, hsettled⟩
      · cases hmem
      · cases hverdict : verdictOf res with
        | authFailed =>
            rw [hverdict] at hsettled
            exact absurd hsettled hserved
        | primary =>
            rw [hverdict] at hsettled
            obtain rfl : actions = [.reset] := hsettled
            cases List.mem_singleton.mp hmem
        | other =>
            rw [hverdict] at hsettled
            obtain rfl : actions = [] := hsettled
            cases hmem

end Accounts

/-! ## All attempts -/

namespace GateWorld

section Runs

variable {Key : Type} {lib : Libraries Key} {backupLib : BackupLibraries Key}
  {policy : UnlockThrottlePolicy}

/-- An event appends an attempt, moves one, or lets time pass. -/
theorem step_cases {w w' : GateWorld} {ev : GateEvent}
    (h : w.step lib backupLib policy ev = some w') :
    (∃ request, ev = .invoke request ∧
        w' = { w with attempts := w.attempts ++ [⟨request, .start⟩] }) ∨
      (∃ i draw a pc' limiter' more, ev = .advance i draw ∧ w.attempts[i]? = some a ∧
        a.Moves lib backupLib policy w.limiter w.now draw pc' limiter' more ∧
        w' = ⟨limiter', w.now, w.attempts.set i { a with pc := pc' },
          w.journal ++ signed i more⟩) ∨
      (∃ d, ev = .tick d ∧ w' = { w with now := w.now + d }) := by
  cases ev with
  | invoke request =>
      left
      exact ⟨request, rfl, (Option.some.inj h).symm⟩
  | advance i draw =>
      right
      left
      simp only [step, Option.bind_eq_some_iff, Option.map_eq_some_iff] at h
      obtain ⟨a, ha, ⟨pc', limiter', more⟩, hadvance, rfl⟩ := h
      exact ⟨i, draw, a, pc', limiter', more, rfl, ha, Attempt.moves_of_advance hadvance, rfl⟩
  | tick d =>
      right
      right
      exact ⟨d, rfl, (Option.some.inj h).symm⟩

variable (lib backupLib policy) in
/-- What holds in every state of a run. -/
structure Sound (w : GateWorld) : Prop where
  streak : w.limiter.streak = Streak.ofHistory policy.quietPeriod (w.journal.map Prod.snd)
  accounts : ∀ (i : Nat) (a : Attempt), w.attempts[i]? = some a →
    a.Accounts lib backupLib policy w.now (entriesOf i w.journal)
  writers : ∀ e ∈ w.journal, e.1 < w.attempts.length
  given : ∀ e ∈ w.journal, ∀ instant, e.2 = .failure instant none →
    ∃ draw, jitter policy.jitterMax draw = none
  proportionate : Proportionate policy (w.journal.map Prod.snd)

theorem sound_new : Sound lib backupLib policy new where
  streak := rfl
  accounts := by
    intro i a ha
    cases ha
  writers := by
    intro e he
    cases he
  given := by
    intro e he
    cases he
  proportionate := by
    intro before now delay after h
    cases before <;> cases h

theorem sound_step {w w' : GateWorld} {ev : GateEvent} (hw : Sound lib backupLib policy w)
    (h : w.step lib backupLib policy ev = some w') : Sound lib backupLib policy w' := by
  rcases step_cases h with ⟨request, rfl, rfl⟩ |
    ⟨i, draw, a, pc', limiter', more, rfl, ha, hmove, rfl⟩ | ⟨d, rfl, rfl⟩
  · refine
      { streak := hw.streak
        accounts := ?_
        writers := ?_
        given := hw.given
        proportionate := hw.proportionate }
    · intro i a ha
      rcases getElem?_append_singleton ha with ha | ⟨rfl, rfl⟩
      · exact hw.accounts i a ha
      · apply entriesOf_eq_nil
        intro e he
        exact Nat.ne_of_lt (hw.writers e he)
    · intro e he
      rw [List.length_append]
      exact Nat.lt_add_right _ (hw.writers e he)
  · have hi : i < w.attempts.length := (List.getElem?_eq_some_iff.mp ha).1
    have haccounts : ∀ (j : Nat) (b : Attempt),
        (w.attempts.set i { a with pc := pc' })[j]? = some b →
        b.Accounts lib backupLib policy w.now (entriesOf j (w.journal ++ signed i more)) := by
      intro j b hb
      rcases getElem?_set_cases hb with ⟨rfl, rfl⟩ | ⟨hne, hb⟩
      · rw [entriesOf_append_signed]
        exact (hw.accounts i a ha).step hmove
      · rw [entriesOf_append_signed_of_ne hne]
        exact hw.accounts j b hb
    have hjournal : (w.journal ++ signed i more).map Prod.snd = w.journal.map Prod.snd ++ more := by
      rw [List.map_append, map_snd_signed]
    rcases hmove.limiter with ⟨rfl, rfl⟩ | ⟨action, rfl, hstreak, hgiven, hdelay⟩
    · have hsame : w.journal ++ signed i [] = w.journal := List.append_nil _
      rw [hsame] at haccounts ⊢
      refine
        { streak := hw.streak
          accounts := haccounts
          writers := ?_
          given := hw.given
          proportionate := hw.proportionate }
      intro e he
      rw [List.length_set]
      exact hw.writers e he
    · refine
        { streak := ?_
          accounts := haccounts
          writers := ?_
          given := ?_
          proportionate := ?_ }
      · rw [hjournal, Streak.ofHistory_append_singleton, ← hw.streak]
        exact hstreak
      · intro e he
        rw [List.length_set]
        rcases List.mem_append.mp he with he | he
        · exact hw.writers e he
        · obtain rfl := List.mem_singleton.mp he
          exact hi
      · intro e he instant hnone
        rcases List.mem_append.mp he with he | he
        · exact hw.given e he instant hnone
        · obtain rfl := List.mem_singleton.mp he
          exact hgiven instant hnone
      · rw [hjournal]
        apply hw.proportionate.append_singleton
        rw [← hw.streak]
        exact hdelay
  · exact
      { streak := hw.streak
        accounts := fun i a ha => (hw.accounts i a ha).mono (Nat.le_add_right w.now d)
        writers := hw.writers
        given := hw.given
        proportionate := hw.proportionate }

theorem sound_of_run {es : List GateEvent} {w : GateWorld}
    (h : exec (step lib backupLib policy) new es = some w) : Sound lib backupLib policy w :=
  exec_invariant (Sound lib backupLib policy) (fun _ _ _ => sound_step) sound_new h

end Runs

end GateWorld

end ViperVault
