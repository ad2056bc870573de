/-! The exceptions the gateway raises or handles, with the texts it gives them. -/
namespace Pazuzu

/-- `PazuzuError` and the built-in exceptions that meet it. `cancelled` is
`asyncio.CancelledError`, which no `except Exception` catches. -/
inductive Error where
  | connectionUnavailable (message : String)
  | commandTimedOut (message : String)
  | uncertainExecution (message : String)
  | protocolError (message : String)
  | osError (message : String)
  | timeoutError
  | keyError (key : String)
  | typeError (message : String)
  | valueError (message : String)
  | overflowError
  | recursionError
  | cancelled
  deriving DecidableEq, Repr

namespace Error

/-- Instances of the base class `PazuzuError`. -/
def isPazuzu : Error → Bool
  | .connectionUnavailable _ | .commandTimedOut _ | .uncertainExecution _ | .protocolError _ => true
  | _ => false

/-- What `raise` puts behind a colon: `str(exc)`. -/
def text : Error → String
  | .connectionUnavailable message | .commandTimedOut message | .uncertainExecution message
  | .protocolError message | .osError message | .typeError message | .valueError message => message
  | .keyError key => "'" ++ key ++ "'"
  | .timeoutError | .cancelled => ""
  | .overflowError => "int too large to convert to float"
  | .recursionError => "maximum recursion depth exceeded"

end Error
end Pazuzu
