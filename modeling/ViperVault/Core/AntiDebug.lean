import ViperVault.Core.LockState
import ViperVault.Foundation.Json
import ViperVault.Foundation.Strings

/-!
# The debugger probe

`core/antidebug.rs` on Linux and Android: the probe reads the status file of its own process and
looks for the line that names the tracer.
-/

namespace ViperVault

open Foundation

/-- The name of the tracer's field. -/
def tracerPidField : Text := "TracerPid:".toList

/-- `detect_linux_like_runtime_state`. The file is `none` where it cannot be read. -/
def detectLinuxLikeRuntimeState (status : Option Bytes) : RuntimeInspectionState :=
  match status.bind Json.utf8? with
  | none => .unknown
  | some status =>
      match (Strings.lines status).find? fun line => tracerPidField.isPrefixOf line with
      | none => .unknown
      | some line =>
          let value := match Strings.splitOnce ':' line with
            | none => []
            | some (_, rhs) => Strings.trim rhs
          match Strings.parseUnsigned (2 ^ 32) value with
          | some 0 => .notDebugged
          | some _ => .debugged
          | none => .unknown

/-- The first line of the tracer's field has this value. -/
def TracerValue (status value : Text) : Prop :=
  ∃ before after, Strings.lines status = before ++ (tracerPidField ++ value) :: after ∧
    ∀ line ∈ before, ¬ tracerPidField <+: line

/-- The number that a value of the field is. -/
def tracerPid? (value : Text) : Option Nat := Strings.parseUnsigned (2 ^ 32) (Strings.trim value)

/-- What the probe looks for, it finds in the first line of the field. -/
theorem find?_tracer {status line : Text}
    (h : (Strings.lines status).find? (fun line => tracerPidField.isPrefixOf line) = some line) :
    ∃ value, line = tracerPidField ++ value ∧ TracerValue status value := by
  obtain ⟨hfield, before, after, hlines, hbefore⟩ := List.find?_eq_some_iff_append.mp h
  obtain ⟨value, rfl⟩ := List.isPrefixOf_iff_prefix.mp hfield
  refine ⟨value, rfl, before, after, hlines, ?_⟩
  intro line hline hstarts
  have hnot := hbefore line hline
  rw [List.isPrefixOf_iff_prefix.mpr hstarts] at hnot
  cases hnot

theorem find?_of_tracerValue {status value : Text} (h : TracerValue status value) :
    (Strings.lines status).find? (fun line => tracerPidField.isPrefixOf line) =
      some (tracerPidField ++ value) := by
  obtain ⟨before, after, hlines, hbefore⟩ := h
  refine List.find?_eq_some_iff_append.mpr
    ⟨List.isPrefixOf_iff_prefix.mpr (List.prefix_append _ _), before, after, hlines, ?_⟩
  intro line hline
  rw [Bool.not_eq_true', Bool.eq_false_iff, ne_eq, List.isPrefixOf_iff_prefix]
  exact hbefore line hline

theorem splitOnce_tracer (value : Text) :
    Strings.splitOnce ':' (tracerPidField ++ value) = some ("TracerPid".toList, value) := by
  have hfield : tracerPidField = "TracerPid".toList ++ [':'] := by decide
  rw [hfield, List.append_assoc]
  exact Strings.splitOnce_append (by decide)

/-- What the probe makes of a file with a line of the field. -/
theorem detect_of_tracerValue {status value : Text} (h : TracerValue status value) :
    detectLinuxLikeRuntimeState (some (Json.utf8 status)) =
      match tracerPid? value with
      | some 0 => .notDebugged
      | some _ => .debugged
      | none => .unknown := by
  have hread : (some (Json.utf8 status)).bind Json.utf8? = some status := Json.utf8?_utf8 status
  simp only [detectLinuxLikeRuntimeState, hread, find?_of_tracerValue h, splitOnce_tracer]
  rfl

/-- An answer other than unknown comes from a line of the field. -/
theorem tracerValue_of_detect {status : Option Bytes}
    (h : detectLinuxLikeRuntimeState status ≠ .unknown) :
    ∃ text value, status = some (Json.utf8 text) ∧ TracerValue text value := by
  unfold detectLinuxLikeRuntimeState at h
  split at h
  · exact absurd rfl h
  · rename_i text htext
    obtain ⟨bytes, rfl, hbytes⟩ := Option.bind_eq_some_iff.mp htext
    obtain rfl := Json.utf8?_eq_some.mp hbytes
    split at h
    · exact absurd rfl h
    · rename_i line hline
      obtain ⟨value, -, hvalue⟩ := find?_tracer hline
      exact ⟨text, value, rfl, hvalue⟩

/-! ## Files that the kernel writes -/

/-- A status file: its lines, one of them that of the tracer, each ended by a line feed. -/
def statusText (before : List Text) (tracer : Nat) (after : List Text) : Text :=
  (before ++ (tracerPidField ++ '\t' :: Nat.toDigits 10 tracer) :: after).flatMap fun line =>
    line ++ ['\n']

theorem isWhitespace_of_isDigit {c : Char} (hc : c.isDigit = true) :
    Strings.isWhitespace c = false := by
  have hlt : c.toNat < 128 := by
    simp only [Char.isDigit, Bool.and_eq_true, decide_eq_true_eq] at hc
    have hle : c.val.toNat ≤ 57 := UInt32.le_iff_toNat_le.mp hc.2
    exact lt_of_le_of_lt hle (by decide)
  have hsmall : ∀ k < 128, (Char.ofNat k).isDigit = true →
      Strings.isWhitespace (Char.ofNat k) = false := by decide
  have hchar : c.isDigit = true → Strings.isWhitespace c = false :=
    Strings.forall_char_lt (P := fun c => c.isDigit = true → Strings.isWhitespace c = false)
      hsmall c hlt
  exact hchar hc

theorem isDigit_of_mem_toDigits {tracer : Nat} {c : Char} (hc : c ∈ Nat.toDigits 10 tracer) :
    c.isDigit = true :=
  Nat.isDigit_of_mem_toDigits (by decide) (by decide) hc

/-- The tab in front of the number is trimmed, and nothing of the number is. -/
theorem trim_tracer (tracer : Nat) :
    Strings.trim ('\t' :: Nat.toDigits 10 tracer) = Nat.toDigits 10 tracer := by
  have hdigits : ∀ c ∈ Nat.toDigits 10 tracer, Strings.isWhitespace c = false := fun c hc =>
    isWhitespace_of_isDigit (isDigit_of_mem_toDigits hc)
  have hleft : ('\t' :: Nat.toDigits 10 tracer).dropWhile Strings.isWhitespace =
      Nat.toDigits 10 tracer := by
    rw [List.dropWhile_cons_of_pos (by decide)]
    cases hd : Nat.toDigits 10 tracer with
    | nil => rfl
    | cons c s =>
        rw [hd] at hdigits
        exact List.dropWhile_cons_of_neg (by simp [hdigits c List.mem_cons_self])
  rw [Strings.trim, hleft]
  refine List.rdropWhile_eq_self_iff.mpr ?_
  intro hne
  simp [hdigits _ (List.getLast_mem hne)]

theorem tracerPid?_tracer {tracer : Nat} (h : tracer < 2 ^ 32) :
    tracerPid? ('\t' :: Nat.toDigits 10 tracer) = some tracer := by
  rw [tracerPid?, trim_tracer]
  exact Strings.parseUnsigned_toDigits h

/-- The line of the tracer ends with a digit. -/
theorem stripSuffix_tracer (tracer : Nat) :
    (Strings.stripSuffix '\r' (tracerPidField ++ '\t' :: Nat.toDigits 10 tracer)).getD
      (tracerPidField ++ '\t' :: Nat.toDigits 10 tracer) =
      tracerPidField ++ '\t' :: Nat.toDigits 10 tracer := by
  have hne : Nat.toDigits 10 tracer ≠ [] := Nat.toDigits_ne_nil
  have hlast : (tracerPidField ++ '\t' :: Nat.toDigits 10 tracer).getLast? ≠ some '\r' := by
    rw [List.getLast?_append_cons, List.getLast?_cons_of_ne_nil hne,
      List.getLast?_eq_some_getLast hne]
    intro h
    have hdigit := isDigit_of_mem_toDigits (List.getLast_mem hne)
    rw [Option.some.inj h] at hdigit
    exact absurd hdigit (by decide)
  rw [Strings.stripSuffix, if_neg hlast]
  rfl

/-- A carriage return at its end does not make a line one of the field. -/
theorem not_prefix_stripSuffix {line : Text} (h : ¬ tracerPidField <+: line) :
    ¬ tracerPidField <+: (Strings.stripSuffix '\r' line).getD line := by
  intro hstarts
  apply h
  unfold Strings.stripSuffix at hstarts
  split at hstarts
  · exact hstarts.trans (List.dropLast_prefix line)
  · exact hstarts

/-- The tracer's line is found among whatever other lines the kernel writes. -/
theorem tracerValue_statusText {before after : List Text} (tracer : Nat)
    (hlines : ∀ line ∈ before ++ after, '\n' ∉ line)
    (hbefore : ∀ line ∈ before, ¬ tracerPidField <+: line) :
    TracerValue (statusText before tracer after) ('\t' :: Nat.toDigits 10 tracer) := by
  have hline : '\n' ∉ tracerPidField ++ '\t' :: Nat.toDigits 10 tracer := by
    rw [List.mem_append, List.mem_cons, not_or, not_or]
    refine ⟨by decide, by decide, fun hmem => ?_⟩
    exact absurd (isDigit_of_mem_toDigits hmem) (by decide)
  have hall : ∀ line ∈ before ++ (tracerPidField ++ '\t' :: Nat.toDigits 10 tracer) :: after,
      '\n' ∉ line := by
    intro line hmem
    rcases List.mem_append.mp hmem with hmem | hmem
    · exact hlines line (List.mem_append_left after hmem)
    · rcases List.mem_cons.mp hmem with rfl | hmem
      · exact hline
      · exact hlines line (List.mem_append_right before hmem)
  refine ⟨_, _, by rw [statusText, Strings.lines_flatMap hall, List.map_append, List.map_cons,
    stripSuffix_tracer], ?_⟩
  intro line hmem
  obtain ⟨own, hown, rfl⟩ := List.mem_map.mp hmem
  exact not_prefix_stripSuffix (hbefore own hown)

/-- The probe says that the process is not debugged for exactly the files whose first line of the
tracer's field names zero, and that it is for exactly those where this line names another number of
32 bits. In a file that the kernel writes, with whatever other lines, it reads the tracer back. -/
theorem probe_reads_tracer (status : Option Bytes) :
    (detectLinuxLikeRuntimeState status = .notDebugged ↔ ∃ text value,
        status = some (Json.utf8 text) ∧ TracerValue text value ∧ tracerPid? value = some 0) ∧
      (detectLinuxLikeRuntimeState status = .debugged ↔ ∃ text value tracer,
        status = some (Json.utf8 text) ∧ TracerValue text value ∧
          tracerPid? value = some tracer ∧ tracer ≠ 0) ∧
      ∀ before after tracer, (∀ line ∈ before ++ after, '\n' ∉ line) →
        (∀ line ∈ before, ¬ tracerPidField <+: line) → tracer < 2 ^ 32 →
        detectLinuxLikeRuntimeState (some (Json.utf8 (statusText before tracer after))) =
          if tracer = 0 then .notDebugged else .debugged := by
  refine ⟨⟨?_, ?_⟩, ⟨?_, ?_⟩, ?_⟩
  · intro h
    have hknown : detectLinuxLikeRuntimeState status ≠ .unknown := by simp [h]
    obtain ⟨text, value, rfl, hvalue⟩ := tracerValue_of_detect hknown
    refine ⟨text, value, rfl, hvalue, ?_⟩
    rw [detect_of_tracerValue hvalue] at h
    split at h
    · assumption
    · cases h
    · cases h
  · rintro ⟨text, value, rfl, hvalue, hzero⟩
    rw [detect_of_tracerValue hvalue, hzero]
    rfl
  · intro h
    have hknown : detectLinuxLikeRuntimeState status ≠ .unknown := by simp [h]
    obtain ⟨text, value, rfl, hvalue⟩ := tracerValue_of_detect hknown
    rw [detect_of_tracerValue hvalue] at h
    split at h
    · cases h
    · rename_i tracer hne htracer
      refine ⟨text, value, tracer, rfl, hvalue, htracer, ?_⟩
      rintro rfl
      exact hne rfl
    · cases h
  · rintro ⟨text, value, tracer, rfl, hvalue, htracer, hne⟩
    rw [detect_of_tracerValue hvalue, htracer]
    cases tracer with
    | zero => exact absurd rfl hne
    | succ n => rfl
  · intro before after tracer hlines hbefore hlt
    rw [detect_of_tracerValue (tracerValue_statusText tracer hlines hbefore),
      tracerPid?_tracer hlt]
    cases tracer with
    | zero => rfl
    | succ n => rfl

end ViperVault
