import ViperVault.Core.Session
import ViperVault.Entries.Dto

/-!
# The vault state behind the mutex

`VaultState` and what the methods of `core/lock_state.rs` do to it while they hold the state
mutex. The methods that take the mutex several times, and the timer, are put together from
these in the concurrent model.
-/

namespace ViperVault

open Foundation

/-- The fields of `VaultState::Unlocked`. -/
structure Session where
  plaintextJson : Bytes
  authStrength : AuthenticationStrength
  strongReauthRequired : Bool
  unlockOutcome : UnlockOutcome
  runtimeState : RuntimeInspectionState
  deriving DecidableEq

/-- `VaultState`. -/
inductive VaultState
  | locked
  | unlocked (session : Session)
  deriving DecidableEq

namespace VaultState

/-- The state that `unlock_with_plaintext_json_with_context` writes. -/
def unlockWithPlaintextJsonWithContext (plaintextJson : Bytes)
    (authStrength : AuthenticationStrength) (unlockOutcome : UnlockOutcome)
    (runtimeState : RuntimeInspectionState) : VaultState :=
  .unlocked
    { plaintextJson := plaintextJson
      authStrength := authStrength
      strongReauthRequired := !authStrength.isStrong || runtimeState.isRestrictive
      unlockOutcome := unlockOutcome
      runtimeState := runtimeState }

/-- The state is `Unlocked`. -/
def IsUnlocked : VaultState → Prop
  | .locked => False
  | .unlocked _ => True

instance (st : VaultState) : Decidable st.IsUnlocked := by
  cases st with
  | locked => exact instDecidableFalse
  | unlocked s => exact instDecidableTrue

/-- `current_authentication_strength`. -/
def currentAuthenticationStrength : VaultState → Option AuthenticationStrength
  | .unlocked s => some s.authStrength
  | .locked => none

/-- `current_unlock_outcome`. -/
def currentUnlockOutcome : VaultState → Option UnlockOutcome
  | .unlocked s => some s.unlockOutcome
  | .locked => none

/-- `current_policy_context`. -/
def currentPolicyContext : VaultState → Option PolicyContext
  | .unlocked s => some ⟨s.unlockOutcome, s.runtimeState⟩
  | .locked => none

/-- `set_runtime_policy_state`, and `refresh_runtime_policy_state` with the answer of the
probe. -/
def setRuntimePolicyState (runtimeState : RuntimeInspectionState) : VaultState → VaultState
  | .unlocked s =>
      .unlocked
        { s with
          runtimeState := runtimeState
          strongReauthRequired := s.strongReauthRequired || runtimeState.isRestrictive }
  | .locked => .locked

/-- `mark_strong_reauth_required`. -/
def markStrongReauthRequired : VaultState → Bool × VaultState
  | .unlocked s => (true, .unlocked { s with strongReauthRequired := true })
  | .locked => (false, .locked)

/-- `clear_strong_reauth_requirement`. -/
def clearStrongReauthRequirement : VaultState → Bool × VaultState
  | .unlocked s => (true, .unlocked { s with strongReauthRequired := false })
  | .locked => (false, .locked)

/-- `requires_strong_reauth_for`. -/
def requiresStrongReauthFor (operation : SensitiveOperation) : VaultState → Option Bool
  | .unlocked s =>
      some (s.strongReauthRequired ||
        (!s.authStrength.isStrong && operation.requiresStrongReauth))
  | .locked => none

end VaultState

section Payload

variable (serde : Serde VaultPayloadDto)

/-- `decode_payload_from_plaintext_json`. -/
def decodePayloadFromPlaintextJson (plaintextJson : Bytes) : Option VaultPayload :=
  (payloadSerde serde).fromSlice plaintextJson

/-- `encode_payload_to_plaintext_json`. -/
def encodePayloadToPlaintextJson (payload : VaultPayload) : Option Bytes :=
  (payloadSerde serde).toVec payload

/-- `get_payload`. -/
def getPayload : VaultState → Option VaultPayload
  | .unlocked s => decodePayloadFromPlaintextJson serde s.plaintextJson
  | .locked => none

/-- `with_unlocked_payload_mut`. The new buffer is stored whatever `f` answered. -/
def withUnlockedPayloadMut {R : Type} (f : VaultPayload → R × VaultPayload) :
    VaultState → Option R × VaultState
  | .unlocked s =>
      match decodePayloadFromPlaintextJson serde s.plaintextJson with
      | none => (none, .unlocked s)
      | some payload =>
          let (result, payload') := f payload
          match encodePayloadToPlaintextJson serde payload' with
          | none => (none, .unlocked s)
          | some newJson => (some result, .unlocked { s with plaintextJson := newJson })
  | .locked => (none, .locked)

/-- `with_unlocked_payload`. -/
def withUnlockedPayload {R : Type} (f : VaultPayload → R) : VaultState → Option R
  | .unlocked s => (decodePayloadFromPlaintextJson serde s.plaintextJson).map f
  | .locked => none

variable {serde}

theorem valid_of_getPayload {st : VaultState} {p : VaultPayload}
    (h : getPayload serde st = some p) : p.Valid := by
  cases st with
  | locked => cases h
  | unlocked s => exact valid_of_fromSlice h

/-- A mutation replaces the buffer of a session, and nothing else of it. -/
theorem exists_withUnlockedPayloadMut_unlocked {R : Type} (f : VaultPayload → R × VaultPayload)
    (s : Session) : ∃ json, (withUnlockedPayloadMut serde f (.unlocked s)).2 =
      .unlocked { s with plaintextJson := json } := by
  simp only [withUnlockedPayloadMut]
  split
  · exact ⟨s.plaintextJson, rfl⟩
  · split
    · exact ⟨s.plaintextJson, rfl⟩
    · exact ⟨_, rfl⟩

/-- A session whose JSON does not decode is left alone, and no call gets an answer. -/
theorem withUnlockedPayloadMut_of_getPayload_none {R : Type}
    (f : VaultPayload → R × VaultPayload) {st : VaultState} (h : getPayload serde st = none) :
    withUnlockedPayloadMut serde f st = (none, st) := by
  cases st with
  | locked => rfl
  | unlocked s =>
      have hnone : decodePayloadFromPlaintextJson serde s.plaintextJson = none := h
      simp only [withUnlockedPayloadMut, hnone]

/-- On a decodable session the operation answers for the payload, and what is read back
afterwards is the new payload, or nothing where an entry of it is invalid. -/
theorem withUnlockedPayloadMut_of_getPayload {R : Type} (hserde : serde.Lawful)
    (f : VaultPayload → R × VaultPayload) {st : VaultState} {p : VaultPayload}
    (h : getPayload serde st = some p) :
    (withUnlockedPayloadMut serde f st).1 = some (f p).1 ∧
      getPayload serde (withUnlockedPayloadMut serde f st).2 =
        if (f p).2.Valid then some (f p).2 else none := by
  cases st with
  | locked => cases h
  | unlocked s =>
      have hdecode : decodePayloadFromPlaintextJson serde s.plaintextJson = some p := h
      obtain ⟨newJson, hnew⟩ := exists_toVec_payload hserde (f p).2
      have hencode : encodePayloadToPlaintextJson serde (f p).2 = some newJson := hnew
      simp only [withUnlockedPayloadMut, hdecode, hencode, true_and]
      exact fromSlice_payload hserde hnew

end Payload

end ViperVault
