import Pazuzu.Client
import Pazuzu.Gateway.EndToEnd

/-! The client's answers, where the other end of the socket is a gateway. -/
namespace Pazuzu.Client

open Python Gateway

variable {python : Interpreter} {calls : Calls} {id : Text} {request : Request}

/-- What the client makes of the supervisor's outcome. -/
def received : Except Error CommandResult → Except Raised CommandResult
  | .ok result => .ok result
  | .error error =>
      .error (.call (.reported (if error.text = "" then text "gateway operation failed" else text error.text)))

end Pazuzu.Client
