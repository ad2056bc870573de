import Pazuzu.Gateway.EndToEnd
import Pazuzu.Python.Paths
import Pazuzu.Transfer

/-! The descriptor of a connection on its way to a shell: what `from_dict` accepts,
and that it is what the supervisor has given. -/
namespace Pazuzu

open Python Gateway

namespace SshAttachment

def descriptorKeys : List Text := ["host", "ssh_binary", "control_path", "generation"].map text

/-- A text of a response, as a string. -/
def stringOf (content : Text) : String := String.ofList (content.map Char.ofNat)

/-- `SshAttachment.from_dict`. -/
def fromDict (value : Fields) : Except Error SshAttachment :=
  if (value.map Prod.fst).all descriptorKeys.contains ∧ descriptorKeys.all (value.map Prod.fst).contains then
    match value.get "host", value.get "ssh_binary", value.get "control_path" with
    | .str host, .str sshBinary, .str controlPath =>
        if controlPath = [] then .error (.valueError "shell attachment control path must not be empty")
        else match value.get "generation" with
          | .int generation => make (stringOf host) (stringOf sshBinary) (stringOf (pathText controlPath)) generation.toNat
          | _ => .error (.typeError "shell attachment generation must be an integer")
    | _, _, _ => .error (.typeError "shell attachment paths and host must be strings")
  else .error (.valueError "invalid shell attachment descriptor fields")

/-- `as_dict`. -/
def fields (attachment : SshAttachment) : Fields :=
  [field "host" (.str (text attachment.host)), field "ssh_binary" (.str (text attachment.sshBinary)),
    field "control_path" (.str (text attachment.controlPath)), field "generation" (.int attachment.generation)]

variable {value : Fields} {attachment : SshAttachment}

theorem stringOf_text (content : String) : stringOf (text content) = content := by
  have hChars : (text content).map Char.ofNat = content.toList := by
    rw [text, List.map_map]
    exact (List.map_congr_left fun c _ => Char.ofNat_toNat c).trans (List.map_id _)
  rw [stringOf, hChars, String.ofList_toList]

theorem make_self (attachment : SshAttachment) :
    make attachment.host attachment.sshBinary attachment.controlPath attachment.generation = .ok attachment := by
  rw [make, dif_pos attachment.host_nameable, dif_pos attachment.sshBinary_nameable,
    dif_pos attachment.controlPath_nameable, dif_pos attachment.generation_pos]

/-- A control path is the text of a path. -/
def IsPath (attachment : SshAttachment) : Prop := pathText (text attachment.controlPath) = text attachment.controlPath

/-- What `Path` gives is one. -/
theorem isPath_of_pathText {content : Text} (h : pathText content = text attachment.controlPath) : attachment.IsPath := by
  rw [IsPath, ← h]
  exact pathText_pathText content

theorem fromDict_fields (h : attachment.IsPath) : fromDict attachment.fields = .ok attachment := by
  have hKeys : (attachment.fields.map Prod.fst).all descriptorKeys.contains = true ∧
      descriptorKeys.all (attachment.fields.map Prod.fst).contains = true := ⟨rfl, rfl⟩
  have hHost : attachment.fields.get "host" = .str (text attachment.host) := rfl
  have hBinary : attachment.fields.get "ssh_binary" = .str (text attachment.sshBinary) := rfl
  have hPath : attachment.fields.get "control_path" = .str (text attachment.controlPath) := rfl
  have hGeneration : attachment.fields.get "generation" = .int attachment.generation := rfl
  have hSome : text attachment.controlPath ≠ [] := by
    rw [text, ne_eq, List.map_eq_nil_iff, String.toList_eq_nil_iff]
    exact attachment.controlPath_nameable.1
  rw [fromDict, if_pos hKeys]
  simp only [hHost, hBinary, hPath, hGeneration]
  rw [if_neg hSome, h]
  simp only [stringOf_text]
  exact make_self attachment

end SshAttachment

namespace Gateway

variable {python : Interpreter} {calls : Calls} {id : Text}

/-- `get_attachment` of a shell. -/
def getAttachment (python : Interpreter) (peer : Peer) (path : String) (id : Text) : Except CallError SshAttachment :=
  match callGateway python peer path id "shell_attachment" [] (.finite 140) with
  | .ok fields => (SshAttachment.fromDict fields).mapError .raised
  | .error error => .error error

theorem dispatch_attachment : dispatch python calls (requestFields id "shell_attachment" []) =
    calls.connectionAttachment.map SshAttachment.asDict := by
  change (require true (.protocolError "shell_attachment params must be empty")).bind
    (fun _ => calls.connectionAttachment.bind fun attachment => .ok attachment.asDict) = _
  simp only [require, ↓reduceIte, Except.bind]
  cases calls.connectionAttachment <;> rfl

/-- An outcome that is sent: a descriptor or an error that the handler names, and
short enough. -/
def Describable (python : Interpreter) (id : Text) : Except Error SshAttachment → Prop
  | .ok attachment => attachment.IsPath ∧ Encodable python (success (.str id) attachment.asDict)
  | .error error => error.isAnswered = true ∧ Encodable python (failure python (.str id) error)

theorem readable_fields (attachment : SshAttachment) (h : decimalDigits attachment.generation ≤ maxDigits) :
    (Json.obj attachment.fields).Readable := by
  have hKeys : SshAttachment.descriptorKeys.Nodup := by decide
  exact ⟨hKeys, Json.carried_text _, Json.carried_text _, Json.carried_text _, Json.carried_text _, Json.carried_text _,
    Json.carried_text _, Json.carried_text _, h, trivial⟩

theorem fault_attachment (attachment : SshAttachment) :
    attachment.asDict.fault = none ↔ decimalDigits attachment.generation ≤ maxDigits := by
  rw [← fault_int]
  simp [SshAttachment.asDict, field, Json.fault, Json.faultFields, Json.numeralFault]

/-- A shell gets the very descriptor that the supervisor has given, or the message
of the error it has raised. -/
theorem attachment_served (hPython : ReadsAscii python) (hId : Json.Carried id)
    (hRequest : Encodable python (.obj (requestFields id "shell_attachment" [])))
    (hOutcome : Describable python id calls.connectionAttachment) (path : String) :
    getAttachment python (serving python calls) path id =
      calls.connectionAttachment.mapError fun error =>
        .reported (if error.text = "" then text "gateway operation failed" else text error.text) := by
  have hParams : (Json.obj []).Readable := ⟨List.nodup_nil, trivial⟩
  have hDispatch : dispatch python calls (requestFields id "shell_attachment" []) =
    calls.connectionAttachment.map SshAttachment.asDict := dispatch_attachment
  unfold getAttachment
  cases hCall : calls.connectionAttachment with
  | ok attachment =>
      rw [hCall] at hDispatch hOutcome
      obtain ⟨hPath, hSent⟩ := hOutcome
      have hDigits := (fault_attachment attachment).mp ((encodable_success (.str id) attachment.asDict).mp hSent).2.1.2
      have hReturned := call_returns hPython hId hParams hRequest hDispatch (readable_fields attachment hDigits) hSent path
        (.finite 140)
      have hRead := SshAttachment.fromDict_fields hPath
      rw [hReturned]
      change (SshAttachment.fromDict attachment.fields).mapError CallError.raised = _
      rw [hRead]
      rfl
  | error error =>
      rw [hCall] at hDispatch hOutcome
      rw [call_reports hPython hId hParams hRequest hDispatch hOutcome.1 hOutcome.2]
      rfl

/-- A supervisor that is connected and does nothing else. -/
def attaching : Calls where
  health _ := .error (.protocolError "")
  reconnect _ := .error (.protocolError "")
  connectionAttachment := .ok Transfer.localMaster
  execute _ _ _ _ := .error (.protocolError "")
  transfer _ _ _ _ := .error (.protocolError "")

theorem attachment_served_local :
    getAttachment scanning (serving scanning attaching) "/s" (text "a1") = .ok Transfer.localMaster := by
  have hRequest : Encodable scanning (.obj (requestFields (text "a1") "shell_attachment" [])) :=
    ⟨by decide, rfl, by decide⟩
  have hSent : Encodable scanning (success (.str (text "a1")) Transfer.localMaster.asDict) := ⟨by decide, rfl, by decide⟩
  have hOutcome : Describable scanning (text "a1") attaching.connectionAttachment :=
    ⟨SshAttachment.isPath_of_pathText (show pathText (text "/./c/") = text "/c" by decide), hSent⟩
  exact attachment_served readsAscii_scanning (Json.carried_text "a1") hRequest hOutcome "/s"

end Gateway
end Pazuzu
