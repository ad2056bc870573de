import Pazuzu.Gateway

/-! When a message fits: the exact size of a reply, summed over the characters
of its parts. A byte of output can cost six bytes of reply. -/
namespace Pazuzu.Gateway

open Python

section Encode

variable {python : Interpreter}

theorem length_lineOf (message : Json) : (lineOf message).length = message.width + 1 := by
  simp [lineOf, Json.length_render]

/-- What `encode` accepts. -/
structure Encodable (python : Interpreter) (message : Json) : Prop where
  depth : message.depth ≤ python.nesting
  fault : message.fault = none
  width : message.width + 1 ≤ maxMessageBytes

theorem encode_of_encodable {message : Json} (h : Encodable python message) :
    encode python message = .ok (lineOf message) := by
  unfold encode
  rw [if_neg (by have := h.depth; omega), h.fault]
  exact if_neg (by have := h.width; rw [length_lineOf]; omega)

theorem encodable_of_encode {message : Json} {line : Bytes} (h : encode python message = .ok line) :
    Encodable python message := by
  unfold encode at h
  split at h
  · cases h
  · next hDepth =>
      split at h
      · cases h
      · next hFault =>
          split at h
          · cases h
          · next hLength =>
              rw [length_lineOf] at hLength
              exact ⟨by omega, hFault, by omega⟩

theorem encode_ok_iff (message : Json) :
    (∃ line, encode python message = .ok line) ↔ Encodable python message :=
  ⟨fun ⟨_, h⟩ => encodable_of_encode h, fun h => ⟨_, encode_of_encodable h⟩⟩

end Encode

section Envelopes

variable {python : Interpreter}

theorem digits_one : decimalDigits 1 ≤ maxDigits := by decide

theorem width_one : Json.width (.int 1) = 1 := by
  have hOne : (toString (1 : Int)).length = 1 := by decide
  simpa [Json.width] using hOne

theorem encodable_success (id result : Json) :
    Encodable python (success id result) ↔
      (id.depth < python.nesting ∧ result.depth < python.nesting) ∧
      (id.fault = none ∧ result.fault = none) ∧
      id.width + result.width + 34 ≤ maxMessageBytes := by
  have hDepth : (success id result).depth = max id.depth result.depth + 1 := by
    simp [success, field, Json.depth, Json.depthFields]
  have hFault : (success id result).fault = none ↔ id.fault = none ∧ result.fault = none := by
    simp [success, field, Json.fault, Json.faultFields, Json.numeralFault, digits_one]
  have hKeys : escapedWidth (text "v") = 1 ∧ escapedWidth (text "id") = 2 ∧
      escapedWidth (text "ok") = 2 ∧ escapedWidth (text "result") = 6 := by decide
  have hWidth : (success id result).width + 1 = id.width + result.width + 34 := by
    obtain ⟨hV, hId, hOk, hResult⟩ := hKeys
    have hOne := width_one
    simp only [success, field, Json.width, Json.widthFields, hV, hId, hOk, hResult, ↓reduceIte] at hOne ⊢
    omega
  constructor
  · intro h
    have hNested := h.depth
    have hShort := h.width
    exact ⟨by omega, hFault.mp h.fault, by omega⟩
  · rintro ⟨hNested, hSound, hShort⟩
    exact ⟨by omega, hFault.mpr hSound, by omega⟩

/-- An error reply is flat but for the id. -/
theorem encodable_failure (id : Json) (error : Error) :
    Encodable python (failure python id error) ↔
      id.depth < python.nesting ∧ id.fault = none ∧
      id.width + escapedWidth (text (error.typeName python)) + escapedWidth (text error.text) + 58 ≤
        maxMessageBytes := by
  have hDepth : (failure python id error).depth = max id.depth 1 + 1 := by
    simp [failure, field, Json.depth, Json.depthFields]
  have hFault : (failure python id error).fault = none ↔ id.fault = none := by
    simp [failure, field, Json.fault, Json.faultFields, Json.numeralFault, digits_one]
  have hKeys : escapedWidth (text "v") = 1 ∧ escapedWidth (text "id") = 2 ∧
      escapedWidth (text "ok") = 2 ∧ escapedWidth (text "error") = 5 ∧
      escapedWidth (text "type") = 4 ∧ escapedWidth (text "message") = 7 := by decide
  have hWidth : (failure python id error).width + 1 = id.width +
      escapedWidth (text (error.typeName python)) + escapedWidth (text error.text) + 58 := by
    obtain ⟨hV, hId, hOk, hError, hType, hMessage⟩ := hKeys
    have hOne := width_one
    simp only [failure, field, Json.width, Json.widthFields, hV, hId, hOk, hError, hType, hMessage,
      Bool.false_eq_true, ↓reduceIte] at hOne ⊢
    omega
  have hFlat := python.nesting_flat
  constructor
  · intro h
    have hNested := h.depth
    have hShort := h.width
    exact ⟨by omega, hFault.mp h.fault, by omega⟩
  · rintro ⟨hNested, hSound, hShort⟩
    exact ⟨by omega, hFault.mpr hSound, by omega⟩

end Envelopes

section Results

/-- The characters of a Boolean. -/
def flagWidth (flag : Bool) : Nat := if flag then 4 else 5

/-- The characters of a result in its reply, less those of the punctuation and
the keys. -/
def resultWidth (result : CommandResult) : Nat :=
  (toString result.exitCode).length + escapedWidth result.stdout + escapedWidth result.stderr +
    flagWidth result.stdoutTruncated + flagWidth result.stderrTruncated +
    (toString (result.connectionGeneration : Int)).length + flagWidth result.replayed

theorem fault_int (n : Int) : Json.fault (.int n) = none ↔ decimalDigits n ≤ maxDigits := by
  simp only [Json.fault, Json.numeralFault, ite_eq_right_iff, reduceCtorEq, imp_false, Nat.not_lt]

theorem depth_result (result : CommandResult) : result.asDict.depth = 1 := by
  simp [CommandResult.asDict, field, Json.depth, Json.depthFields]

theorem fault_result (result : CommandResult) : result.asDict.fault = none ↔
    decimalDigits result.exitCode ≤ maxDigits ∧
      decimalDigits result.connectionGeneration ≤ maxDigits := by
  rw [← fault_int, ← fault_int]
  simp [CommandResult.asDict, field, Json.fault, Json.faultFields, Json.numeralFault]

theorem width_result (result : CommandResult) :
    result.asDict.width = resultWidth result + 115 := by
  have hKeys : escapedWidth (text "exit_code") = 9 ∧ escapedWidth (text "stdout") = 6 ∧
      escapedWidth (text "stderr") = 6 ∧ escapedWidth (text "stdout_truncated") = 16 ∧
      escapedWidth (text "stderr_truncated") = 16 ∧
      escapedWidth (text "connection_generation") = 21 ∧ escapedWidth (text "replayed") = 8 := by decide
  obtain ⟨hExit, hOut, hErr, hOutCut, hErrCut, hGeneration, hReplayed⟩ := hKeys
  simp only [CommandResult.asDict, field, Json.width, Json.widthFields, resultWidth, flagWidth, hExit,
    hOut, hErr, hOutCut, hErrCut, hGeneration, hReplayed]
  omega

/-- A success envelope with a result, in terms of the process it comes from. -/
theorem encodable_result (python : Interpreter) (id : Text) (result : ProcessResult)
    (generation : Nat) (replayed : Bool) :
    Encodable python (success (.str id) (commandResult result generation replayed).asDict) ↔
      (decimalDigits result.exitCode ≤ maxDigits ∧ decimalDigits generation ≤ maxDigits) ∧
      escapedWidth id + escapedWidth (decodeReplace result.stdout) +
          escapedWidth (decodeReplace result.stderr) +
          (toString result.exitCode).length + (toString (generation : Int)).length +
          flagWidth result.stdoutTruncated + flagWidth result.stderrTruncated + flagWidth replayed +
          151 ≤ maxMessageBytes := by
  have hId : Json.depth (.str id) = 0 ∧ Json.fault (.str id) = none ∧
      Json.width (.str id) = escapedWidth id + 2 := ⟨rfl, rfl, rfl⟩
  have hNesting := python.nesting_flat
  rw [encodable_success, depth_result, fault_result, width_result, hId.1, hId.2.1, hId.2.2]
  simp only [commandResult, resultWidth, true_and]
  constructor
  · rintro ⟨-, hDigits, hWidth⟩
    exact ⟨hDigits, by omega⟩
  · rintro ⟨hDigits, hWidth⟩
    exact ⟨by omega, hDigits, by omega⟩

/-- A result is sent exactly if its numerals are not over-long and its reply,
with every character escaped, stays within the limit. -/
theorem encode_result_iff (python : Interpreter) (id : Text) (result : ProcessResult)
    (generation : Nat) (replayed : Bool) :
    (∃ line, encode python
        (success (.str id) (commandResult result generation replayed).asDict) = .ok line) ↔
      (decimalDigits result.exitCode ≤ maxDigits ∧ decimalDigits generation ≤ maxDigits) ∧
      escapedWidth id + escapedWidth (decodeReplace result.stdout) +
          escapedWidth (decodeReplace result.stderr) +
          (toString result.exitCode).length + (toString (generation : Int)).length +
          flagWidth result.stdoutTruncated + flagWidth result.stderrTruncated + flagWidth replayed +
          151 ≤ maxMessageBytes := by
  rw [encode_ok_iff]
  exact encodable_result python id result generation replayed

theorem charWidth_le (c : Nat) : charWidth c ≤ 12 := by
  unfold charWidth
  split
  · omega
  split
  · omega
  split <;> omega

theorem charWidth_le_six {c : Nat} (h : c < 0x10000) : charWidth c ≤ 6 := by
  unfold charWidth
  split
  · omega
  split <;> omega

/-- A started sequence has cost a byte already, which pays for the character
that becomes of it. -/
theorem escapedWidth_decodeFrom_le (content : Bytes) : ∀ pending : Option Pending,
    escapedWidth (decodeFrom pending content) ≤ 6 * (content.length + pending.toList.length) := by
  have hCons : ∀ c rest, escapedWidth (c :: rest) = charWidth c + escapedWidth rest := fun _ _ => rfl
  have hReplacement : charWidth replacement = 6 := by decide
  have hLead : ∀ byte value, lead byte = .char value → charWidth value ≤ 6 := by
    intro byte value hChar
    refine charWidth_le_six ?_
    unfold lead at hChar
    dsimp only at hChar
    split at hChar
    · cases hChar
      omega
    · split at hChar <;> try cases hChar
      split at hChar <;> try cases hChar
      split at hChar <;> try cases hChar
      split at hChar <;> cases hChar
  induction content with
  | nil =>
      rintro (_ | pending)
      · exact Nat.zero_le _
      · simp [decodeFrom, hReplacement, escapedWidth]
  | cons byte rest ih =>
      rintro (_ | pending)
      · have hNone := ih none
        simp only [Option.toList_none, List.length_nil, List.length_cons] at hNone ⊢
        unfold decodeFrom
        split
        · next value hChar =>
            have hValue := hLead byte value hChar
            rw [hCons]
            omega
        · next started _ =>
            have hSome := ih (some started)
            simp only [Option.toList_some, List.length_singleton] at hSome
            omega
        · rw [hCons, hReplacement]
          omega
      · have hNone := ih none
        simp only [Option.toList_none, Option.toList_some, List.length_nil, List.length_cons] at hNone ⊢
        unfold decodeFrom
        split
        · dsimp only
          split
          · rw [hCons]
            have hValue := charWidth_le (pending.value * 64 + (byte.toNat - 0x80))
            omega
          · refine (ih _).trans ?_
            simp only [Option.toList_some, List.length_singleton]
            omega
        · split
          · next value hChar =>
              have hValue := hLead byte value hChar
              rw [hCons, hCons, hReplacement]
              omega
          · next started _ =>
              have hSome := ih (some started)
              simp only [Option.toList_some, List.length_singleton] at hSome
              rw [hCons, hReplacement]
              omega
          · rw [hCons, hCons, hReplacement]
            omega

/-- No byte of output costs more than six of the reply. -/
theorem escapedWidth_decodeReplace_le (content : Bytes) :
    escapedWidth (decodeReplace content) ≤ 6 * content.length := by
  simpa [decodeReplace] using escapedWidth_decodeFrom_le content none

theorem flagWidth_le (flag : Bool) : flagWidth flag ≤ 5 := by
  cases flag <;> decide

/-- Whatever the bytes are, a result is sent if six times their number and the
rest of the reply stay within the limit. -/
theorem encodable_of_short {python : Interpreter} {id : Text} {result : ProcessResult}
    {generation : Nat} {replayed : Bool}
    (hDigits : decimalDigits result.exitCode ≤ maxDigits ∧ decimalDigits generation ≤ maxDigits)
    (hShort : escapedWidth id + 6 * (result.stdout.length + result.stderr.length) +
      (toString result.exitCode).length + (toString (generation : Int)).length + 166 ≤ maxMessageBytes) :
    Encodable python (success (.str id) (commandResult result generation replayed).asDict) := by
  have hOut := escapedWidth_decodeReplace_le result.stdout
  have hErr := escapedWidth_decodeReplace_le result.stderr
  have hOutCut := flagWidth_le result.stdoutTruncated
  have hErrCut := flagWidth_le result.stderrTruncated
  have hReplayed := flagWidth_le replayed
  exact (encodable_result python id result generation replayed).mpr ⟨hDigits, by omega⟩

/-- Bytes that never occur in UTF-8 are replaced one by one. -/
theorem decodeReplace_invalid (n : Nat) :
    decodeReplace (List.replicate n 0xFF) = List.replicate n replacement := by
  induction n with
  | zero => rfl
  | succ n ih => exact congrArg (replacement :: ·) ih

theorem escapedWidth_replacement (n : Nat) : escapedWidth (List.replicate n replacement) = 6 * n := by
  have hWidth : charWidth replacement = 6 := by decide
  rw [escapedWidth, List.map_replicate, List.sum_replicate_nat, hWidth, Nat.mul_comm]

/-- Two streams of one MiB of such bytes are twelve MiB of reply. -/
theorem result_refused : ¬∀ (python : Interpreter) (id : Text) (result : ProcessResult)
    (generation : Nat) (replayed : Bool), result.stdout.length ≤ 1024 * 1024 →
    result.stderr.length ≤ 1024 * 1024 →
    ∃ line, encode python
      (success (.str id) (commandResult result generation replayed).asDict) = .ok line := by
  intro hClaim
  let python : Interpreter :=
    ⟨fun _ => .error .jsonDecodeError, 2, le_refl 2, fun _ => "", fun base _ => base⟩
  let stream : Bytes := List.replicate (1024 * 1024) 0xFF
  have hLength : stream.length ≤ 1024 * 1024 := by rw [List.length_replicate]
  have hSent := hClaim python (text "a") ⟨0, stream, stream, false, false⟩ 1 false hLength hLength
  rw [encode_ok_iff, encodable_success, width_result] at hSent
  obtain ⟨-, -, hWidth⟩ := hSent
  simp only [commandResult, resultWidth, stream, decodeReplace_invalid, escapedWidth_replacement,
    maxMessageBytes] at hWidth
  omega

end Results
end Pazuzu.Gateway
