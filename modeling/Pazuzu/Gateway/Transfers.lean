import Pazuzu.Gateway.EndToEnd
import Pazuzu.Python.FileNames

/-! A transfer on its way from the command line to the supervisor: the names of
its files arrive as the bytes they are. -/
namespace Pazuzu.Gateway

open Python

section Asking

def transferFields (tool : String) (executable : Text) (arguments : List Text) (timeout : Double) : Fields :=
  [field "tool" (.str (text tool)), field "executable" (.str executable),
    field "arguments" (.arr (arguments.map Json.str)), field "timeout_seconds" (.float timeout)]

/-- The branch of `cp` and `rsync` in `_run`, with the words of the command line
as the system gives them. -/
def transferViaGateway (python : Interpreter) (peer : Peer) (path : String) (id : Text) (tool : String)
    (executable : Bytes) (words : List Bytes) (timeout : Double) : Except CallError Fields :=
  callGateway python peer path id "transfer"
    (transferFields tool (fsdecode executable) (words.map fsdecode) timeout) (plus 30 timeout)

end Asking

section Arriving

variable {python : Interpreter} {calls : Calls} {id executable : Text} {arguments : List Text} {tool : String}
  {timeout : Double}

theorem requireTexts_map (error : Error) (arguments : List Text) :
    requireTexts error (arguments.map Json.str) = .ok arguments := by
  induction arguments with
  | nil => rfl
  | cons argument arguments ih =>
      rw [List.map_cons, requireTexts, ih]
      rfl

/-- The supervisor is asked for the very tool, words, program and timeout. -/
theorem dispatch_transfer (hTool : tool = "cp" ∨ tool = "rsync") (hTimeout : timeout.isBetween 3600 = true) :
    dispatch python calls (requestFields id "transfer" (transferFields tool executable arguments timeout)) =
      (calls.transfer (text tool) arguments executable timeout).map CommandResult.asDict := by
  have hParams : transferParams (transferFields tool executable arguments timeout) =
      .ok (text tool, arguments, executable, .float timeout) := by
    have hName : (transferFields tool executable arguments timeout).get "tool" = .str (text tool) := rfl
    have hProgram : (transferFields tool executable arguments timeout).get "executable" = .str executable := rfl
    have hWords : (transferFields tool executable arguments timeout).get "arguments" = .arr (arguments.map Json.str) := rfl
    have hSeconds : (transferFields tool executable arguments timeout).get "timeout_seconds" (.float (.finite 600)) =
        .float timeout := rfl
    have hKnown : isOneOf (.str (text tool)) ["cp", "rsync"] = .ok true := by
      rcases hTool with rfl | rfl
      · rfl
      · rfl
    have hBetween : isBetween 3600 (.float timeout) = true := hTimeout
    simp only [transferParams, hName, hProgram, hWords, hSeconds, hKnown, require, requireText, requireList,
      requireTexts_map, isNumber, hBetween, if_true, bind, Except.bind, pure, Except.pure]
  have hOperate : dispatch python calls (requestFields id "transfer" (transferFields tool executable arguments timeout)) =
      transfer calls (transferFields tool executable arguments timeout) := operate_transfer
  rw [hOperate, transfer, hParams]
  simp only [bind, Except.bind, float]
  cases calls.transfer (text tool) arguments executable timeout <;> rfl

theorem readableItems_texts (h : ∀ argument ∈ arguments, Json.Carried argument) :
    Json.ReadableItems (arguments.map Json.str) := by
  induction arguments with
  | nil => trivial
  | cons argument arguments ih =>
      obtain ⟨hFirst, hOthers⟩ := List.forall_mem_cons.mp h
      exact ⟨hFirst, ih hOthers⟩

theorem readable_transfer (hExecutable : Json.Carried executable) (hArguments : ∀ argument ∈ arguments, Json.Carried argument)
    (hTimeout : timeout.IsFinite) : (Json.obj (transferFields tool executable arguments timeout)).Readable :=
  ⟨(show [text "tool", text "executable", text "arguments", text "timeout_seconds"].Nodup by decide),
    Json.carried_text _, Json.carried_text _, Json.carried_text _, hExecutable, Json.carried_text _,
    readableItems_texts hArguments, Json.carried_text _, hTimeout, trivial⟩

/-- A transfer through the socket ends as the supervisor ends it, and the words
that the supervisor has of it are, for the system, the words of the command line. -/
theorem transfer_seen (hPython : ReadsAscii python) (hId : Json.Carried id) (hTool : tool = "cp" ∨ tool = "rsync")
    (hFinite : timeout.IsFinite) (hTimeout : timeout.isBetween 3600 = true) {executable : Bytes} {words : List Bytes}
    (hRequest : Encodable python (.obj (requestFields id "transfer"
      (transferFields tool (fsdecode executable) (words.map fsdecode) timeout))))
    (hOutcome : Deliverable python id (calls.transfer (text tool) (words.map fsdecode) (fsdecode executable) timeout))
    (path : String) :
    (transferViaGateway python (serving python calls) path id tool executable words timeout).map resultOf =
        seen (calls.transfer (text tool) (words.map fsdecode) (fsdecode executable) timeout) ∧
      fsencode (fsdecode executable) = some executable ∧ (words.map fsdecode).map fsencode = words.map some := by
  have hCarried : ∀ content, Json.Carried (fsdecode content) := fun content =>
    carried_of_fsencode (fsencode_fsdecode content)
  refine ⟨?_, fsencode_fsdecode executable, ?_⟩
  · have hParams : (Json.obj (transferFields tool (fsdecode executable) (words.map fsdecode) timeout)).Readable :=
      readable_transfer (hCarried executable) (List.forall_mem_map.mpr fun content _ => hCarried content) hFinite
    have hDispatch : dispatch python calls (requestFields id "transfer"
        (transferFields tool (fsdecode executable) (words.map fsdecode) timeout)) =
          (calls.transfer (text tool) (words.map fsdecode) (fsdecode executable) timeout).map CommandResult.asDict :=
      dispatch_transfer hTool hTimeout
    exact call_seen hPython hId hParams hRequest hDispatch hOutcome path (plus 30 timeout)
  · rw [List.map_map]
    exact List.map_congr_left fun content _ => fsencode_fsdecode content

/-- A supervisor that copies whatever it is asked to. -/
def copying : Calls where
  health _ := .error (.protocolError "")
  reconnect _ := .error (.protocolError "")
  connectionAttachment := .error (.protocolError "")
  execute _ _ _ _ := .error (.protocolError "")
  transfer _ _ _ _ := .ok (commandResult ⟨0, [], [], false, false⟩ 1 false)

/-- Two words, the first of them no UTF-8. -/
def latinWords : List Bytes := [[0x66, 0xE9], [0x3A, 0x64]]

theorem transfer_seen_latin :
    (transferViaGateway scanning (serving scanning copying) "/s" (text "a1") "cp" [0x73, 0x63, 0x70] latinWords
        (.finite 60)).map resultOf = .ok (some (commandResult ⟨0, [], [], false, false⟩ 1 false)) ∧
      fsencode (fsdecode [0x73, 0x63, 0x70]) = some [0x73, 0x63, 0x70] ∧
      (latinWords.map fsdecode).map fsencode = latinWords.map some := by
  have hFinite : (Double.finite 60).IsFinite := Double.ofRat_natural (n := 60) (by decide) (by decide)
  have hRequest : Encodable scanning (.obj (requestFields (text "a1") "transfer"
      (transferFields "cp" (fsdecode [0x73, 0x63, 0x70]) (latinWords.map fsdecode) (.finite 60)))) :=
    ⟨by decide, rfl, by decide +kernel⟩
  have hOutcome : Deliverable scanning (text "a1") (copying.transfer (text "cp") (latinWords.map fsdecode)
      (fsdecode [0x73, 0x63, 0x70]) (.finite 60)) := deliverable_of_short (by decide) (by decide)
  exact transfer_seen readsAscii_scanning (Json.carried_text "a1") (Or.inl rfl) hFinite (by decide) hRequest hOutcome "/s"

end Arriving
end Pazuzu.Gateway
