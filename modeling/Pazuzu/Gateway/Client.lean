import Pazuzu.Gateway

/-! The client's side of the gateway: `call_gateway` and `execute_via_gateway`.
The other end of the socket is left open here. -/
namespace Pazuzu

open Python

/-- How a call of the gateway raises: with an error of this side, or with
`PazuzuError` and the message that the gateway has sent. -/
inductive CallError where
  | raised (error : Error)
  | reported (message : Text)
  deriving DecidableEq

namespace Gateway

/-- What comes of a line: the line it is answered with, which is empty where the
other end hangs up, an error of the connection, or nothing before the deadline. -/
inductive Answer where
  | line (content : Bytes)
  | broken (error : Error)
  | silence

/-- The other end of the socket. A connection fails with the text of its error. -/
structure Peer where
  connect : Except String Unit
  answer : Bytes → Answer

section Encoding

/-- A digit of base 64. -/
def b64digit (value : Nat) : Nat := base64Alphabet.getD value 0

/-- `base64.b64encode`. -/
def b64encode : Bytes → Text
  | [] => []
  | [a] => [b64digit (a.toNat / 4), b64digit (a.toNat % 4 * 16), '='.toNat, '='.toNat]
  | [a, b] =>
      [b64digit (a.toNat / 4), b64digit (a.toNat % 4 * 16 + b.toNat / 16), b64digit (b.toNat % 16 * 4), '='.toNat]
  | a :: b :: c :: rest =>
      b64digit (a.toNat / 4) :: b64digit (a.toNat % 4 * 16 + b.toNat / 16) ::
        b64digit (b.toNat % 16 * 4 + c.toNat / 64) :: b64digit (c.toNat % 64) :: b64encode rest

/-- `f"{x:g}"`. -/
def formatDouble : Double → String
  | .finite x => if x < 0 then "-" ++ formatG (-x) else formatG x
  | .negativeZero => "-0"
  | .infinite negative => if negative then "-inf" else "inf"
  | .nan => "nan"

/-- `x + n`. -/
def plus (n : Nat) : Double → Double
  | .finite x => .ofRat (x + n)
  | .negativeZero => .ofRat n
  | other => other

end Encoding

section Calling

variable (python : Interpreter) (peer : Peer) (path : String) (id : Text)

def requestFields (operation : String) (params : Fields) : Fields :=
  [field "v" (.int 1), field "id" (.str id), field "op" (.str (text operation)), field "params" (.obj params)]

/-- `str(error.get("message") or "gateway operation failed")`. -/
def reportedMessage (error : Fields) : Text :=
  match error.get "message" with
  | .str content => if content = [] then text "gateway operation failed" else content
  | message => if truthy message then text (python.repr message) else text "gateway operation failed"

/-- `value == text`. -/
def isSame (content : Text) : Json → Bool
  | .str other => other = content
  | _ => false

/-- What a response brings. -/
def unpack (response : Fields) : Except CallError Fields :=
  if isSame id (response.get "id") then
    match response.get "ok", response.get "result", response.get "error" with
    | .bool true, .obj result, _ => .ok result
    | .bool false, _, .obj error => .error (.reported (reportedMessage python error))
    | _, _, _ => .error (.raised (.protocolError "gateway returned an invalid response envelope"))
  else .error (.raised (.protocolError "gateway response does not match the request"))

/-- `call_gateway`. -/
def callGateway (operation : String) (params : Fields) (timeout : Double) : Except CallError Fields :=
  match peer.connect with
  | .error reason =>
      .error (.raised (.protocolError ("Pazuzu gateway is unavailable at " ++ path ++ ": " ++ reason)))
  | .ok _ =>
      match encode python (.obj (requestFields id operation params)) with
      | .error error => .error (.raised error)
      | .ok line =>
          match peer.answer line with
          | .line content =>
              match decode python content with
              | .ok response => unpack python id response
              | .error error => .error (.raised error)
          | .silence | .broken .timeoutError =>
              .error (.raised (.protocolError ("Pazuzu gateway did not respond within " ++ formatDouble timeout ++ "s")))
          | .broken error => .error (.raised error)

def executeFields (command : Text) (stdin : Bytes) (timeout : Double) (retrySafe : Bool) : Fields :=
  [field "command" (.str command), field "stdin_base64" (.str (b64encode stdin)),
    field "timeout_seconds" (.float timeout), field "retry_safe" (.bool retrySafe)]

/-- `execute_via_gateway`. -/
def executeViaGateway (command : Text) (stdin : Bytes) (timeout : Double) (retrySafe : Bool) :
    Except CallError Fields :=
  if maxStdinBytes < stdin.length then
    .error (.raised (.valueError "standard input exceeds the 4 MiB gateway limit"))
  else
    callGateway python peer path id "execute" (executeFields command stdin timeout retrySafe) (plus 140 timeout)

end Calling

section Results

def resultKeys : List Text :=
  ["exit_code", "stdout", "stderr", "stdout_truncated", "stderr_truncated", "connection_generation", "replayed"].map text

/-- `CommandResult(**result)`, where the values have the types of the fields. -/
def resultOf (fields : Fields) : Option CommandResult :=
  if fields.all fun pair => pair.1 ∈ resultKeys then
    match fields.get "exit_code", fields.get "stdout", fields.get "stderr", fields.get "stdout_truncated",
      fields.get "stderr_truncated", fields.get "connection_generation", fields.get "replayed" (.bool false) with
    | .int exitCode, .str stdout, .str stderr, .bool stdoutTruncated, .bool stderrTruncated,
        .int (.ofNat generation), .bool replayed =>
        some ⟨exitCode, stdout, stderr, stdoutTruncated, stderrTruncated, generation, replayed⟩
    | _, _, _, _, _, _, _ => none
  else none

end Results

/-- A gateway that keeps serving, seen through its socket. A handler that ends
without closing the writer leaves the client waiting. -/
def serving (python : Interpreter) (calls : Calls) : Peer where
  connect := .ok ()
  answer line :=
    let handled := handleClient python calls false (.ok line) .answered
    match handled.written with
    | line :: _ => .line line
    | [] => if handled.closed then .line [] else .silence

end Gateway
end Pazuzu
