import ViperVault.Memory.Secret

/-!
# Field validation

The text checks of `entries/validate.rs`. Lengths are UTF-8 byte lengths.
-/

namespace ViperVault

/-- `EntryError`. -/
inductive EntryError
  | emptyField
  | fieldTooLarge
  | forbiddenChars
  | suspiciousUnicode
  | vaultLocked
  | entryNotFound
  | duplicateEntry
  | reauthRequired
  | policyDenied
  | invalidType
  | invalidData
  deriving DecidableEq, Repr

namespace Entries

def maxTitleLen : Nat := 256
def maxUsernameLen : Nat := 320
def maxNoteLen : Nat := 8 * 1024
def maxPasswordLen : Nat := 1024

/-- `validate_required_bounded`. -/
def validateRequiredBounded (s : Text) (maxLen : Nat) : Except EntryError Unit :=
  if s.isEmpty then .error .emptyField
  else if utf8Len s > maxLen then .error .fieldTooLarge
  else .ok ()

/-- `char::is_control`: the general category Cc. -/
def isControl (c : Char) : Bool := c.val < 0x20 || (0x7F ≤ c.val && c.val < 0xA0)

/-- The bidi controls the source lists. -/
def isBidi (c : Char) : Bool :=
  (0x202A ≤ c.val && c.val ≤ 0x202E) || (0x2066 ≤ c.val && c.val ≤ 0x2069)
    || c.val == 0x200E || c.val == 0x200F || c.val == 0x061C

/-- The zero-width characters the source lists. -/
def isZeroWidth (c : Char) : Bool :=
  (0x200B ≤ c.val && c.val ≤ 0x200D) || c.val == 0xFEFF

/-- `reject_controls_and_bidi`: one pass for controls, then one for deceptive Unicode. -/
def rejectControlsAndBidi (s : Text) : Except EntryError Unit :=
  if s.any isControl then .error .forbiddenChars
  else if s.any fun c => isBidi c || isZeroWidth c then .error .suspiciousUnicode
  else .ok ()

/-- The check shared by titles, notes and usernames. -/
def validateVisible (maxLen : Nat) (s : Text) : Except EntryError Unit := do
  validateRequiredBounded s maxLen
  rejectControlsAndBidi s

/-- `validate_title`. -/
def validateTitle (title : Text) : Except EntryError Unit := validateVisible maxTitleLen title

/-- `validate_note`. -/
def validateNote (note : Text) : Except EntryError Unit := validateVisible maxNoteLen note

/-- `validate_username`. -/
def validateUsername (username : Text) : Except EntryError Unit :=
  validateVisible maxUsernameLen username

/-- `validate_password`: bounded only. -/
def validatePassword (password : Text) : Except EntryError Unit :=
  validateRequiredBounded password maxPasswordLen

end Entries

end ViperVault
