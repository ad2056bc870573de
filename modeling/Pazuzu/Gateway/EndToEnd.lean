import Mathlib.Data.List.GetD
import Pazuzu.Gateway.Client
import Pazuzu.Gateway.Handling
import Pazuzu.Python.RoundTrip

/-! A call through the socket is the call of the supervisor: what a client asks
for is what the supervisor is asked for, and its answer or error comes back. -/
namespace Pazuzu.Gateway

open Python

section Base64

end Base64

section Messages

variable {python : Interpreter} {calls : Calls} {fields params result : Fields} {id : Text} {operation : String}

/-- Of an ASCII line that is JSON, `json.loads` is the scanner. -/
structure ReadsAscii (python : Interpreter) : Prop where
  loads : ∀ source value, (∀ c ∈ source, 0 < c ∧ c < 0x80) → Json.loads python.nesting source = .ok value →
    python.loads (source.map UInt8.ofNat) = .ok value

/-- An interpreter whose `json.loads` is the scanner. -/
def scanning : Interpreter where
  loads line :=
    match Json.loads 900 (line.map UInt8.toNat) with
    | .ok value => .ok value
    | .error .malformed => .error .jsonDecodeError
    | .error .digits => .error (.valueError "Exceeds the limit (4300 digits) for integer string conversion")
    | .error .nesting => .error .recursionError
  nesting := 900
  nesting_flat := by decide
  repr _ := ""
  subclass base _ := base

theorem readsAscii_scanning : ReadsAscii scanning where
  loads source value hAscii hLoads := by
    have hSame : (source.map UInt8.ofNat).map UInt8.toNat = source := by
      rw [List.map_map]
      refine (List.map_congr_left fun c hIn => ?_).trans (List.map_id source)
      have hSmall := hAscii c hIn
      simp only [Function.comp_apply, UInt8.toNat_ofNat', id]
      omega
    have hScanned : Json.loads 900 source = .ok value := hLoads
    simp only [scanning, hSame, hScanned]

/-- A message is read as what it was. -/
theorem decode_lineOf (hPython : ReadsAscii python) (h : (Json.obj fields).Readable)
    (hDepth : (Json.obj fields).depth ≤ python.nesting) : decode python (lineOf (.obj fields)) = .ok fields := by
  have hAscii : ∀ c ∈ (Json.obj fields).render ++ [10], 0 < c ∧ c < 0x80 := by
    intro c hIn
    rcases List.mem_append.mp hIn with hText | hEnd
    · have hPrinted := Json.printed_render _ h c hText
      omega
    · rw [List.mem_singleton.mp hEnd]
      decide
  have hLine : lineOf (.obj fields) = ((Json.obj fields).render ++ [10]).map UInt8.ofNat := by
    rw [lineOf, List.map_append]
    rfl
  have hLoads := Json.loads_render h hDepth (show ∀ c ∈ [10], Json.isBlank c = true by decide)
  rw [decode, hLine, hPython.loads _ _ hAscii hLoads]

/-- What the gateway is asked. -/
theorem readable_request (hId : Json.Carried id) (hParams : (Json.obj params).Readable) :
    (Json.obj (requestFields id operation params)).Readable := by
  have hKeys : [text "v", text "id", text "op", text "params"].Nodup := by decide
  exact ⟨hKeys, Json.carried_text _, digits_one, Json.carried_text _, hId, Json.carried_text _,
    Json.carried_text _, Json.carried_text _, hParams, trivial⟩

theorem readable_success (hId : Json.Carried id) (h : (Json.obj result).Readable) :
    (success (.str id) (.obj result)).Readable :=
  ⟨(show [text "v", text "id", text "ok", text "result"].Nodup by decide), Json.carried_text _, digits_one, Json.carried_text _, hId, Json.carried_text _, trivial,
    Json.carried_text _, h, trivial⟩

theorem readable_failure (hId : Json.Carried id) (error : Error) : (failure python (.str id) error).Readable :=
  ⟨(show [text "v", text "id", text "ok", text "error"].Nodup by decide), Json.carried_text _, digits_one, Json.carried_text _, hId, Json.carried_text _, trivial,
    Json.carried_text _, ⟨(show [text "type", text "message"].Nodup by decide), Json.carried_text _, Json.carried_text _, Json.carried_text _,
      Json.carried_text _, trivial⟩, trivial⟩

/-- The gateway's handler answers a request that it can read. -/
theorem serving_answer (hPython : ReadsAscii python) (hId : Json.Carried id) (hParams : (Json.obj params).Readable)
    (hRequest : Encodable python (.obj (requestFields id operation params))) :
    handleClient python calls false (.ok (lineOf (.obj (requestFields id operation params)))) .answered =
      conclude python (.str id) (dispatch python calls (requestFields id operation params)) := by
  have hDecode : decode python (lineOf (.obj (requestFields id operation params))) =
      .ok (requestFields id operation params) :=
    decode_lineOf hPython (readable_request hId hParams) hRequest.depth
  rw [handleClient]
  simp only [Bool.false_eq_true, if_false, Except.bind, hDecode]
  rfl

/-- A call returns what the dispatched operation returns. -/
theorem call_returns (hPython : ReadsAscii python) (hId : Json.Carried id) (hParams : (Json.obj params).Readable)
    (hRequest : Encodable python (.obj (requestFields id operation params)))
    (hDispatch : dispatch python calls (requestFields id operation params) = .ok (.obj result))
    (hResult : (Json.obj result).Readable) (hSent : Encodable python (success (.str id) (.obj result)))
    (path : String) (timeout : Double) :
    callGateway python (serving python calls) path id operation params timeout = .ok result := by
  have hReply : (serving python calls).answer (lineOf (.obj (requestFields id operation params))) =
      .line (lineOf (success (.str id) (.obj result))) := by
    simp only [serving, serving_answer hPython hId hParams hRequest, hDispatch, conclude, respond,
      encode_of_encodable hSent]
  have hRead : decode python (lineOf (success (.str id) (.obj result))) = .ok _ :=
    decode_lineOf hPython (readable_success hId hResult) hSent.depth
  rw [callGateway, encode_of_encodable hRequest]
  simp only [hReply, hRead]
  have hSame : isSame id (.str id) = true := decide_eq_true rfl
  exact if_pos hSame

/-- A call reports the error that the dispatched operation raises. -/
theorem call_reports (hPython : ReadsAscii python) (hId : Json.Carried id) (hParams : (Json.obj params).Readable)
    (hRequest : Encodable python (.obj (requestFields id operation params))) {error : Error}
    (hDispatch : dispatch python calls (requestFields id operation params) = .error error)
    (hAnswered : error.isAnswered = true) (hSent : Encodable python (failure python (.str id) error))
    (path : String) (timeout : Double) :
    callGateway python (serving python calls) path id operation params timeout =
      .error (.reported (if error.text = "" then text "gateway operation failed" else text error.text)) := by
  have hReply : (serving python calls).answer (lineOf (.obj (requestFields id operation params))) =
      .line (lineOf (failure python (.str id) error)) := by
    simp only [serving, serving_answer hPython hId hParams hRequest, hDispatch, conclude_answered _ hAnswered, respond,
      encode_of_encodable hSent]
  have hRead : decode python (lineOf (failure python (.str id) error)) = .ok _ :=
    decode_lineOf hPython (readable_failure hId error) hSent.depth
  have hEmpty : text error.text = [] ↔ error.text = "" := by
    rw [text, List.map_eq_nil_iff, String.toList_eq_nil_iff]
  have hMessage : reportedMessage python [field "type" (.str (text (error.typeName python))),
      field "message" (.str (text error.text))] =
      if error.text = "" then text "gateway operation failed" else text error.text := by
    change (if text error.text = [] then _ else _) = _
    simp only [hEmpty]
  rw [callGateway, encode_of_encodable hRequest]
  simp only [hReply, hRead]
  have hSame : isSame id (.str id) = true := decide_eq_true rfl
  refine (if_pos hSame).trans ?_
  change Except.error (CallError.reported (reportedMessage python _)) = _
  rw [hMessage]

end Messages

section Execute

variable {python : Interpreter} {calls : Calls} {id command : Text} {stdin : Bytes} {timeout : Double} {retrySafe : Bool}

def resultFields (result : CommandResult) : Fields :=
  [field "exit_code" (.int result.exitCode), field "stdout" (.str result.stdout), field "stderr" (.str result.stderr),
    field "stdout_truncated" (.bool result.stdoutTruncated), field "stderr_truncated" (.bool result.stderrTruncated),
    field "connection_generation" (.int result.connectionGeneration), field "replayed" (.bool result.replayed)]

theorem readable_result {result : CommandResult} (hExit : decimalDigits result.exitCode ≤ maxDigits)
    (hGeneration : decimalDigits result.connectionGeneration ≤ maxDigits) (hOut : Json.Carried result.stdout)
    (hErr : Json.Carried result.stderr) : (Json.obj (resultFields result)).Readable := by
  have hKeys : resultKeys.Nodup := by decide
  exact ⟨hKeys, Json.carried_text _, hExit, Json.carried_text _, hOut, Json.carried_text _, hErr, Json.carried_text _,
    trivial, Json.carried_text _, trivial, Json.carried_text _, hGeneration, Json.carried_text _, trivial, trivial⟩

theorem resultOf_resultFields (result : CommandResult) : resultOf (resultFields result) = some result := by
  have hKeys : (resultFields result).all (fun pair => pair.1 ∈ resultKeys) = true :=
    List.all_eq_true.mpr fun pair hIn => decide_eq_true (List.mem_map_of_mem hIn)
  rw [resultOf, if_pos hKeys]
  rfl

/-- What the caller sees of the supervisor's outcome: its result, or its message. -/
def seen : Except Error CommandResult → Except CallError (Option CommandResult)
  | .ok result => .ok (some result)
  | .error error =>
      .error (.reported (if error.text = "" then text "gateway operation failed" else text error.text))

/-- An outcome that is sent: a result of texts that ASCII carries, or an error
that the handler names, and short enough. -/
def Deliverable (python : Interpreter) (id : Text) : Except Error CommandResult → Prop
  | .ok result => (Json.Carried result.stdout ∧ Json.Carried result.stderr) ∧
      Encodable python (success (.str id) result.asDict)
  | .error error => error.isAnswered = true ∧ Encodable python (failure python (.str id) error)

/-- Whatever the output of a process is, its result is deliverable if six times
its length and the rest of the reply stay within the limit. -/
theorem deliverable_of_short {result : ProcessResult} {generation : Nat} {replayed : Bool}
    (hDigits : decimalDigits result.exitCode ≤ maxDigits ∧ decimalDigits generation ≤ maxDigits)
    (hShort : escapedWidth id + 6 * (result.stdout.length + result.stderr.length) +
      (toString result.exitCode).length + (toString (generation : Int)).length + 166 ≤ maxMessageBytes) :
    Deliverable python id (.ok (commandResult result generation replayed)) :=
  ⟨⟨Json.carried_decodeReplace _, Json.carried_decodeReplace _⟩, encodable_of_short hDigits hShort⟩

/-- A call of an operation that ends as the supervisor ends it is seen so. -/
theorem call_seen {operation : String} {params : Fields} {outcome : Except Error CommandResult} (hPython : ReadsAscii python)
    (hId : Json.Carried id) (hParams : (Json.obj params).Readable)
    (hRequest : Encodable python (.obj (requestFields id operation params)))
    (hDispatch : dispatch python calls (requestFields id operation params) = outcome.map CommandResult.asDict)
    (hOutcome : Deliverable python id outcome) (path : String) (timeout : Double) :
    (callGateway python (serving python calls) path id operation params timeout).map resultOf = seen outcome := by
  cases outcome with
  | ok result =>
      obtain ⟨⟨hOut, hErr⟩, hSent⟩ := hOutcome
      have hFault := (fault_result result).mp ((encodable_success (.str id) result.asDict).mp hSent).2.1.2
      have hReadable : (Json.obj (resultFields result)).Readable := readable_result hFault.1 hFault.2 hOut hErr
      have hResult : resultOf (resultFields result) = some result := resultOf_resultFields result
      rw [call_returns hPython hId hParams hRequest hDispatch hReadable hSent]
      exact congrArg Except.ok hResult
  | error error =>
      rw [call_reports hPython hId hParams hRequest hDispatch hOutcome.1 hOutcome.2]
      rfl

end Execute

end Pazuzu.Gateway
