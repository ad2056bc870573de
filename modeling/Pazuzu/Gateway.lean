import Pazuzu.Python.Json
import Pazuzu.Supervisor

/-! `GatewayServer`: one line of JSON in, one line of JSON out. What the calls
of the supervisor end with is left open here, as is what the interpreter makes
of the bytes of a line. -/
namespace Pazuzu

open Python

/-- How `json.loads` fails. -/
inductive LoadsError where
  | unicodeDecodeError
  | jsonDecodeError
  | valueError (message : String)
  | recursionError
  deriving DecidableEq, Repr

/-- The parts of the interpreter that the gateway depends on. `nesting` is how
deep `json.dumps` can descend before it meets the recursion limit, which a reply
of flat parts never does. `subclass` names the class of a built-in error, given
its base class and text. -/
structure Interpreter where
  loads : Bytes → Except LoadsError Json
  nesting : Nat
  nesting_flat : 2 ≤ nesting
  repr : Json → String
  subclass : String → String → String

namespace Error

/-- `except (KeyError, OSError, PazuzuError, TypeError, ValueError)`. -/
def isAnswered : Error → Bool
  | .keyError _ | .osError _ | .timeoutError | .typeError _ | .valueError _ => true
  | error => error.isPazuzu

/-- `type(exc).__name__`. -/
def typeName (python : Interpreter) : Error → String
  | .connectionUnavailable _ => "ConnectionUnavailable"
  | .commandTimedOut _ => "CommandTimedOut"
  | .uncertainExecution _ => "UncertainExecution"
  | .protocolError _ => "ProtocolError"
  | .osError message => python.subclass "OSError" message
  | .timeoutError => "TimeoutError"
  | .keyError _ => "KeyError"
  | .typeError _ => "TypeError"
  | .valueError message => python.subclass "ValueError" message
  | .overflowError => "OverflowError"
  | .recursionError => "RecursionError"
  | .cancelled => "CancelledError"

end Error

section Dictionaries

/-- The fields of a JSON object. -/
abbrev Fields := List (Text × Json)

/-- `fields.get(key, default)`. -/
def Fields.get (fields : Fields) (key : String) (default : Json := .null) : Json :=
  (fields.lookup (text key)).getD default

/-- `fields[key]`. -/
def Fields.item (fields : Fields) (key : String) : Except Error Json :=
  match fields.lookup (text key) with
  | some value => .ok value
  | none => .error (.keyError key)

def field (key : String) (value : Json) : Text × Json := (text key, value)

def optional {α : Type} (convert : α → Json) : Option α → Json
  | some value => convert value
  | none => .null

def CommandResult.asDict (result : CommandResult) : Json :=
  .obj [field "exit_code" (.int result.exitCode), field "stdout" (.str result.stdout),
    field "stderr" (.str result.stderr), field "stdout_truncated" (.bool result.stdoutTruncated),
    field "stderr_truncated" (.bool result.stderrTruncated),
    field "connection_generation" (.int result.connectionGeneration),
    field "replayed" (.bool result.replayed)]

def SshAttachment.asDict (attachment : SshAttachment) : Json :=
  .obj [field "host" (.str (text attachment.host)),
    field "ssh_binary" (.str (text attachment.sshBinary)),
    field "control_path" (.str (text attachment.controlPath)),
    field "generation" (.int attachment.generation)]

def ConnectionState.name : ConnectionState → String
  | .offline => "offline"
  | .connected => "connected"
  | .reconnecting => "reconnecting"
  | .authenticationRequired => "authentication_required"
  | .stopped => "stopped"
  | .detached => "detached"

def ProbeOutcome.name : ProbeOutcome → String
  | .ok => "ok"
  | .slow => "slow"
  | .busy => "busy"
  | .failed => "failed"

def Health.asDict (health : Health) : Json :=
  let timestamp := optional fun utc => Json.str (text (isoformat utc))
  .obj [field "gateway" (.str (text (if health.gatewayRunning then "running" else "stopped"))),
    field "connection" (.str (text health.connection.name)),
    field "host" (.str (text health.host)),
    field "generation" (.int health.generation),
    field "session_healthy" (optional .bool health.sessionHealthy),
    field "connected_at" (timestamp health.connectedAt),
    field "last_success_at" (timestamp health.lastSuccessAt),
    field "last_failure_at" (timestamp health.lastFailureAt),
    field "last_error" (optional (fun error => .str (text error)) health.lastError),
    field "consecutive_failures" (.int health.consecutiveFailures),
    field "last_probe" (optional (fun outcome => .str (text outcome.name)) health.lastProbe),
    field "probe_failures" (.int health.probeFailures),
    field "last_probe_seconds" (optional (fun time => .float (.ofRat time)) health.lastProbeSeconds),
    field "retry_in_seconds" (.float (.ofRat health.retryInSeconds)),
    field "max_sessions" (.int health.maxSessions),
    field "operations_active" (.int health.operationsActive),
    field "operations_waiting" (.int health.operationsWaiting)]

end Dictionaries

/-- How the supervisor's calls end. -/
structure Calls where
  health : (probe : Bool) → Except Error Health
  reconnect : (force : Bool) → Except Error Health
  connectionAttachment : Except Error SshAttachment
  execute : (command : Text) → (stdin : Bytes) → (timeout : Double) → (retrySafe : Bool) →
    Except Error CommandResult
  transfer : (tool : Text) → (arguments : List Text) → (executable : Text) → (timeout : Double) →
    Except Error CommandResult

namespace Gateway

def maxMessageBytes : Nat := 8 * 1024 * 1024

def maxStdinBytes : Nat := 4 * 1024 * 1024

section Messages

variable (python : Interpreter)

/-- The bytes of a message with its newline. -/
def lineOf (message : Json) : Bytes := message.render.map UInt8.ofNat ++ [10]

/-- `_encode`. A recursion error is none of the errors it turns into its own. -/
def encode (message : Json) : Except Error Bytes :=
  if python.nesting < message.depth then .error .recursionError
  else match message.fault with
    | some reason => .error (.protocolError ("message is not JSON serializable: " ++ reason))
    | none =>
        if maxMessageBytes < (lineOf message).length then
          .error (.protocolError "gateway message exceeds the 8 MiB limit")
        else .ok (lineOf message)

/-- `_decode`. The other errors of `json.loads` pass through. -/
def decode (content : Bytes) : Except Error Fields :=
  match python.loads content with
  | .ok (.obj fields) => .ok fields
  | .ok _ => .error (.protocolError "gateway message must be a JSON object")
  | .error .unicodeDecodeError | .error .jsonDecodeError =>
      .error (.protocolError "gateway message is not valid JSON")
  | .error (.valueError message) => .error (.valueError message)
  | .error .recursionError => .error .recursionError

def success (id result : Json) : Json :=
  .obj [field "v" (.int 1), field "id" id, field "ok" (.bool true), field "result" result]

def failure (id : Json) (error : Error) : Json :=
  .obj [field "v" (.int 1), field "id" id, field "ok" (.bool false),
    field "error" (.obj [field "type" (.str (text (error.typeName python))),
      field "message" (.str (text error.text))])]

end Messages

section Checks

/-- `isinstance(value, str)`. -/
def isText : Json → Bool
  | .str _ => true
  | _ => false

/-- `isinstance(value, (int, float))` of what is no `bool`. -/
def isNumber : Json → Bool
  | .int _ | .float _ => true
  | _ => false

/-- `value == 1`, which `True` and `1.0` are as well. -/
def isOne : Json → Bool
  | .int n => n = 1
  | .bool value => value
  | .float x => x = .finite 1
  | _ => false

/-- `bool(value)`. -/
def truthy : Json → Bool
  | .null => false
  | .bool value => value
  | .int n => n ≠ 0
  | .float x => x ≠ .finite 0 ∧ x ≠ .negativeZero
  | .str content => content ≠ []
  | .arr items => !items.isEmpty
  | .obj fields => !fields.isEmpty

/-- `value == literal`. -/
def equals (value : Json) (literal : String) : Bool :=
  match value with
  | .str content => content = text literal
  | _ => false

/-- `value in {…}`, which hashes the value. -/
def isOneOf (value : Json) (literals : List String) : Except Error Bool :=
  match value with
  | .arr _ => .error (.typeError "unhashable type: 'list'")
  | .obj _ => .error (.typeError "unhashable type: 'dict'")
  | _ => .ok (literals.any (equals value))

def require (condition : Prop) [Decidable condition] (error : Error) : Except Error Unit :=
  if condition then .ok () else .error error

def requireText (error : Error) : Json → Except Error Text
  | .str content => .ok content
  | _ => .error error

def requireBool (error : Error) : Json → Except Error Bool
  | .bool value => .ok value
  | _ => .error error

def requireTexts (error : Error) : List Json → Except Error (List Text)
  | [] => .ok []
  | item :: rest => do return (← requireText error item) :: (← requireTexts error rest)

def requireList (error : Error) : Json → Except Error (List Text)
  | .arr items => requireTexts error items
  | _ => .error error

/-- `float(value)` of a number. -/
def float : Json → Except Error Double
  | .int n =>
      match Double.ofInt n with
      | some x => .ok x
      | none => .error .overflowError
  | .float x => .ok x
  | _ => .error (.typeError "float() argument must be a string or a real number")

/-- `0 < value <= bound` of a number. -/
def isBetween (bound : Nat) : Json → Bool
  | .int n => 0 < n ∧ n ≤ bound
  | .float x => x.isBetween bound
  | _ => false

def base64Alphabet : Text :=
  text "ABCDEFGHIJKLMNOPQRSTUVWXYZabcdefghijklmnopqrstuvwxyz0123456789+/"

/-- The bytes that the values of up to four digits make, the first being the
highest. -/
def sextets : List Nat → Bytes
  | [a, b] => [a * 4 + b / 16].map UInt8.ofNat
  | [a, b, c] => [a * 4 + b / 16, b % 16 * 16 + c / 4].map UInt8.ofNat
  | [a, b, c, d] => [a * 4 + b / 16, b % 16 * 16 + c / 4, c % 4 * 64 + d].map UInt8.ofNat
  | _ => []

def isPadding (c : Nat) : Bool := c == '='.toNat

/-- `binascii.a2b_base64` from the start of a group of four digits on. The last
group may be padded, and padding behind a complete group is passed over. -/
def b64groups : Text → Option Bytes
  | a :: b :: c :: d :: rest =>
      if (a :: b :: c :: d :: rest).all isPadding then some []
      else
        let digits :=
          if rest = [] ∧ isPadding d then (if isPadding c then [a, b] else [a, b, c]) else [a, b, c, d]
        match digits.mapM fun digit => base64Alphabet.idxOf? digit with
        | some values => (b64groups rest).map (sextets values ++ ·)
        | none => none
  | rest => if rest.all isPadding then some [] else none

/-- `base64.b64decode(…, validate=True)`, which is `binascii.a2b_base64` in its
strict mode: nothing may begin with padding. -/
def b64decode (encoded : Text) : Option Bytes :=
  if encoded.head?.any isPadding then none else b64groups encoded

def requireBase64 (error : Error) (encoded : Text) : Except Error Bytes :=
  match b64decode encoded with
  | some content => .ok content
  | none => .error error

end Checks

section Dispatch

variable (python : Interpreter) (calls : Calls)

/-- The checks of `_execute`. The timeout is still to be converted. -/
def executeParams (params : Fields) : Except Error (Text × Bytes × Json × Bool) := do
  let encoded ← requireText (.typeError "stdin_base64 must be a string")
    (params.get "stdin_base64" (.str []))
  let stdin ← requireBase64 (.valueError "stdin_base64 is invalid") encoded
  require (stdin.length ≤ maxStdinBytes)
    (.valueError "standard input exceeds the 4 MiB gateway limit")
  let command ← params.item "command"
  let timeout := params.get "timeout_seconds" (.float (.finite 120))
  let retrySafe := params.get "retry_safe" (.bool false)
  let command ← requireText (.typeError "invalid execute parameters") command
  require (isNumber timeout) (.typeError "invalid execute parameters")
  let retrySafe ← requireBool (.typeError "retry_safe must be a boolean") retrySafe
  return (command, stdin, timeout, retrySafe)

/-- `_execute`. -/
def execute (params : Fields) : Except Error Json := do
  let (command, stdin, timeout, retrySafe) ← executeParams params
  let result ← calls.execute command stdin (← float timeout) retrySafe
  return result.asDict

/-- The checks of `_transfer`. -/
def transferParams (params : Fields) : Except Error (Text × List Text × Text × Json) := do
  let tool := params.get "tool"
  let executable := params.get "executable"
  let arguments := params.get "arguments"
  let timeout := params.get "timeout_seconds" (.float (.finite 600))
  let known ← isOneOf tool ["cp", "rsync"]
  require known (.typeError "invalid transfer parameters")
  let tool ← requireText (.typeError "invalid transfer parameters") tool
  let executable ← requireText (.typeError "invalid transfer parameters") executable
  let arguments ← requireList (.typeError "transfer arguments must be a list of strings") arguments
  require (isNumber timeout) (.typeError "transfer timeout must be a number")
  require (isBetween 3600 timeout) (.valueError "transfer timeout must be between 0 and 3600")
  return (tool, arguments, executable, timeout)

/-- `_transfer`. -/
def transfer (params : Fields) : Except Error Json := do
  let (tool, arguments, executable, timeout) ← transferParams params
  let result ← calls.transfer tool arguments executable (← float timeout)
  return result.asDict

/-- The operations of `_dispatch`, once the envelope is in order. -/
def operate (operation : Json) (params : Fields) : Except Error Json :=
  if equals operation "status" then
    (calls.health (truthy (params.get "probe" (.bool false)))).map Health.asDict
  else if equals operation "reconnect" then do
    let force ← requireBool (.typeError "force must be a boolean") (params.get "force" (.bool false))
    let health ← calls.reconnect force
    return health.asDict
  else if equals operation "shutdown" then .ok (.obj [field "stopping" (.bool true)])
  else do
    let attaches ← isOneOf operation ["connection_attachment", "shell_attachment"]
    if attaches then
      require params.isEmpty (.protocolError ((if equals operation "connection_attachment" then
        "connection_attachment" else "shell_attachment") ++ " params must be empty"))
      let attachment ← calls.connectionAttachment
      return attachment.asDict
    else if equals operation "execute" then execute calls params
    else if equals operation "transfer" then transfer calls params
    else .error (.protocolError ("unknown gateway operation " ++ python.repr operation))

/-- `_dispatch`. -/
def dispatch (request : Fields) : Except Error Json :=
  if ¬isOne (request.get "v") ∨ ¬isText (request.get "id") then
    .error (.protocolError "invalid gateway request envelope")
  else match request.get "params" with
    | .obj params => operate python calls (request.get "op") params
    | _ => .error (.protocolError "request params must be an object")

end Dispatch

section Handler

variable (python : Interpreter) (calls : Calls)

/-- How the wait for the dispatched request ends: the request is done first, or
the client has gone or sent more and the request, cancelled, ends in its way, or
the gateway cancels the handler. -/
inductive Race where
  | answered
  | disconnected (ending : Except Error Json)
  | stopped

/-- What a handler leaves: the lines given to the writer, whether it closed the
writer, and the exception it ended with. -/
structure Handled where
  written : List Bytes := []
  closed : Bool := false
  raised : Option Error := none

/-- Write the response, which is encoded outside the guarded block. -/
def respond (response : Json) : Handled :=
  match encode python response with
  | .ok line => { written := [line], closed := true }
  | .error error => { raised := some error }

/-- The way out of the guarded block. -/
def conclude (id : Json) : Except Error Json → Handled
  | .ok result => respond python (success id result)
  | .error .cancelled => { closed := true, raised := some .cancelled }
  | .error error =>
      if error.isAnswered then respond python (failure python id error)
      else { raised := some error }

/-- `_handle_client`, given what `readline` brings. -/
def handleClient (closing : Bool) (received : Except Error Bytes) (race : Race) : Handled :=
  if closing then { closed := true }
  else match received.bind (decode python) with
    | .error error => conclude python .null (.error error)
    | .ok request =>
        match race with
        | .answered => conclude python (request.get "id") (dispatch python calls request)
        | .disconnected (.ok _) | .disconnected (.error .cancelled) => { closed := true }
        | .disconnected (.error error) => conclude python (request.get "id") (.error error)
        | .stopped => { closed := true, raised := some .cancelled }

end Handler
end Gateway
end Pazuzu
