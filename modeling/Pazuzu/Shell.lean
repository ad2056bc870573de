import Pazuzu.Asyncio.Solo
import Pazuzu.Python.Json
import Pazuzu.Transfer

/-! Interactive shell attachment and reconnect policy. The gateway's answers, the
`ssh` process and the local cancellation are the surroundings. -/
namespace Pazuzu.Shell

open Asyncio Python

/-- The mapping a status or reconnect call returns. -/
abbrev Health := List (Text × Json)

/-- What goes through `_call_or_stop`. -/
inductive Call where
  | status
  | getAttachment
  | reconnect
  | sleep (seconds : ℚ)

abbrev Call.Reply : Call → Type
  | .status | .reconnect => Health
  | .getAttachment => SshAttachment
  | .sleep _ => Unit

/-- `_LocalCancellation`, or any other exception. -/
inductive Raised where
  | localCancellation
  | error (error : Error)

/-- What happens to a shell. `reported` is a line of the reporter with the state
it stands for. -/
inductive Happening where
  | cancelled
  | called (call : Call)
  | observed (health : Health)
  | attached (attachment : SshAttachment)
  | reported (state : Text) (line : Text)
  | spawned (argv : List Word)
  | launched (argv : List Word)
  | exited (code : Int)
  | returned (code : Int)

/-- `launchError` is what the system will say to the next attempt to start a
process. -/
structure State where
  cancelled : Bool := false
  lastState : Option Text := none
  launchError : Option String := none
  journal : List Happening := []

def State.note (state : State) (happening : Happening) : State :=
  { state with journal := happening :: state.journal }

/-- `race` is `asyncio.wait` for a call and the cancellation, with no result
where the cancellation is done; `watch` is the same for a process. -/
inductive Wait where
  | race (call : Call)
  | gather
  | spawn (argv : List Word)
  | started
  | watch
  | grace
  | reap
  | never

abbrev Wait.Reply : Wait → Type
  | .race call => Option (Except Raised call.Reply)
  | .spawn _ | .reap => Int
  | .watch => Option Int
  | .gather | .started | .grace => Unit
  | .never => Empty

abbrev signature : Signature := ⟨State, Wait, Wait.Reply, Raised, Empty⟩

abbrev Py := Coro signature

def wait (wait : Wait) : Py wait.Reply := @Coro.suspend signature wait

def get : Py State := @Coro.get signature

def update (f : State → State) : Py Unit := @Coro.update signature f

def note (happening : Happening) : Py Unit := update fun state => state.note happening

def raise {α : Type} (error : Error) : Py α := @Coro.raise signature α (.error error)

def localCancellation {α : Type} : Py α := @Coro.raise signature α .localCancellation

def never {α : Type} : Py α := (wait .never).bind fun (impossible : Empty) => nomatch impossible

section Reporter

def authenticationMessage : Text := text
  ("pazuzu: SSH reauthorization is required.\n" ++
    "Complete the configured provider login in another terminal, then run\n" ++
    "\x60pazuzu reconnect\x60. Waiting to reattach; press Ctrl-C to stop.\n")

def connected : Text := text "connected"

/-- `_ConnectionReporter.connection_lost`. -/
def connectionLost : Py Unit := update fun state =>
  { state.note (.reported (text "lost")
      (text "pazuzu: connection lost; remote tmux session is still running\n")) with
    lastState := some (text "lost") }

/-- The line for a new state. -/
def stateLine (state : Text) : Text :=
  if state = connected then text "pazuzu: connection restored; reattaching\n"
  else if state = text "authentication_required" then authenticationMessage
  else if state = text "reconnecting" then text "pazuzu: reconnecting SSH; waiting to reattach\n"
  else if state = text "offline" then
    text "pazuzu: SSH connection is unavailable; waiting to reattach\n"
  else text "pazuzu: SSH connection state is " ++ state ++ text "; waiting to reattach\n"

/-- `_ConnectionReporter.state_changed`. -/
def stateChanged (newest : Text) : Py Unit := do
  let state ← get
  if some newest = state.lastState then return ()
  else update fun state =>
    { state.note (.reported newest (stateLine newest)) with lastState := some newest }

end Reporter

section CommandLine

def isSessionChar (c : Char) : Bool := c.isAlphanum || c ∈ "_.-".toList

/-- `SESSION_PATTERN`. -/
def isSessionName : Word → Bool
  | [] => false
  | first :: rest => first.isAlphanum && rest.all isSessionChar && rest.length ≤ 63

def validateSessionName (session : Word) : Except Error Unit :=
  if isSessionName session then .ok ()
  else .error (.valueError ("session name must be 1-64 ASCII letters, digits, '.', '_', or '-', " ++
    "and start with a letter or digit"))

/-- The remote shell wrapper of a validated session. -/
def remoteTmuxCommand (session : Word) : Word :=
  "command -v tmux >/dev/null 2>&1 || \x7b\n".toList ++
    "    printf '%s\\n' ".toList ++
    shellQuote "pazuzu shell requires tmux on the remote host".toList ++ " >&2\n".toList ++
    "    exit 127\n\x7d\nexec ".toList ++
    shellJoin ["tmux".toList, "new-session".toList, "-A".toList, "-s".toList, session]

/-- An interactive SSH command that cannot open a direct connection. -/
def shellArgv (attachment : SshAttachment) (session : Word) : List Word :=
  [attachment.sshBinary.toList, "-tt".toList, "-S".toList, attachment.controlPath.toList,
    "-o".toList, "ControlMaster=no".toList, "-o".toList, "ControlPersist=no".toList,
    "-o".toList, "ProxyCommand=/usr/bin/false".toList, "-o".toList, "ConnectTimeout=5".toList,
    "--".toList, attachment.host.toList, remoteTmuxCommand session]

end CommandLine

section Attached

def normalizedExitCode (returncode : Int) : Int :=
  if returncode < 0 then 128 - returncode else returncode

/-- `_terminate_attached_process`. -/
def terminateAttachedProcess : Py Unit := do
  match ← (wait .grace).attempt with
  | .ok _ => return ()
  | .error (.error .timeoutError) =>
      let _ ← wait .reap
      return ()
  | .error raised => @Coro.raise signature Unit raised

/-- Wait for the process or the cancellation. -/
def watchProcess : Py Int := do
  match ← wait .watch with
  | none =>
      terminateAttachedProcess
      let _ ← wait .reap
      return 130
  | some returncode => return normalizedExitCode returncode

/-- `run_attached_ssh`. The process is launched before the call first waits. -/
def runAttachedSsh (argv : List Word) : Py Int := do
  if argv = [] ∨ ¬∀ item ∈ argv, item ≠ [] ∧ '\x00' ∉ item then
    raise (.valueError "interactive SSH arguments must be non-empty and contain no NUL bytes")
  else
    let state ← get
    if state.cancelled then return 130
    else
      match state.launchError with
      | some message => raise (.connectionUnavailable ("could not launch OpenSSH: " ++ message))
      | none =>
          note (.launched argv)
          wait .started
          Coro.tryFinally watchProcess (wait .gather)

/-- The `spawn_ssh` of `run_shell`: its default, or any other that the caller
passes. -/
inductive Spawn where
  | attached
  | other

def spawnSsh : Spawn → List Word → Py Int
  | .attached, argv => runAttachedSsh argv
  | .other, argv => wait (.spawn argv)

end Attached

section Loops

/-- `_call_or_stop`. -/
def callOrStop (call : Call) : Py call.Reply := do
  let state ← get
  if state.cancelled then localCancellation
  else
    note (.called call)
    let outcome ← wait (.race call)
    wait .gather
    match outcome with
    | none => localCancellation
    | some reply => @Coro.ofExcept signature _ reply

/-- `_connection_state`. -/
def connectionState (health : Health) : Except Raised Text :=
  match health.lookup (text "connection") with
  | some (.str state) =>
      if state = [] then
        .error (.error (.protocolError "gateway status has no valid connection state"))
      else .ok state
  | _ => .error (.error (.protocolError "gateway status has no valid connection state"))

/-- The health at hand, or else the gateway's. -/
def currentHealth : Option Health → Py Health
  | some health => return health
  | none => callOrStop .status

/-- `initial_health or ...`: an empty mapping counts as none. -/
def initialHealth : Option Health → Py Health
  | some (first :: rest) => return first :: rest
  | _ => callOrStop .status

/-- `_wait_until_connected`. -/
def waitUntilConnected (pollInterval : ℚ) : Nat → Option Health → Py Unit
  | 0, _ => never
  | rounds + 1, known => do
      let health ← currentHealth known
      let state ← @Coro.ofExcept signature _ (connectionState health)
      stateChanged state
      if state = connected then return ()
      else
        callOrStop (.sleep pollInterval)
        waitUntilConnected pollInterval rounds none

/-- Wait until the gateway has reported a connection. -/
def awaitConnected (pollInterval : ℚ) (rounds : Nat) (health : Health) (connection : Text) : Py Unit :=
  if connection ≠ connected then waitUntilConnected pollInterval rounds (some health)
  else do
    let state ← get
    Coro.when state.lastState.isSome <| stateChanged connection

/-- The loop of `_ready_attachment`. -/
def readyLoop (pollInterval : ℚ) : Nat → Health → Py SshAttachment
  | 0, _ => never
  | rounds + 1, health => do
      let connection ← @Coro.ofExcept signature _ (connectionState health)
      awaitConnected pollInterval rounds health connection
      match ← (callOrStop .getAttachment).attempt with
      | .ok attachment => return attachment
      | .error .localCancellation => localCancellation
      | .error (.error error) =>
          if error.isPazuzu then
            let health ← callOrStop .status
            let connection ← @Coro.ofExcept signature _ (connectionState health)
            if connection = connected then raise error else readyLoop pollInterval rounds health
          else raise error

/-- `_ready_attachment`. -/
def readyAttachment (pollInterval : ℚ) (rounds : Nat) (initial : Option Health) : Py SshAttachment := do
  let health ← initialHealth initial
  readyLoop pollInterval rounds health

/-- The loop of `run_shell`. -/
def attachLoop (session : Word) (spawn : Spawn) (pollInterval : ℚ) : Nat → Option Health → Py Int
  | 0, _ => never
  | rounds + 1, initial => do
      let attachment ← readyAttachment pollInterval rounds initial
      note (.spawned (shellArgv attachment session))
      let exitCode ← spawnSsh spawn (shellArgv attachment session)
      note (.exited exitCode)
      let state ← get
      if state.cancelled then return 130
      else if exitCode ≠ 255 then return exitCode
      else
        connectionLost
        match ← (callOrStop .reconnect).attempt with
        | .ok health => attachLoop session spawn pollInterval rounds (some health)
        | .error .localCancellation => localCancellation
        | .error (.error error) =>
            if error.isPazuzu then attachLoop session spawn pollInterval rounds none else raise error

/-- `run_shell`. -/
def runShell (session : Word) (spawn : Spawn) (pollInterval : ℚ) (rounds : Nat) : Py Int := do
  @Coro.ofExcept signature _ ((validateSessionName session).mapError .error)
  if pollInterval ≤ 0 then raise (.valueError "shell poll interval must be positive")
  else
    let code ← Coro.tryCatch (attachLoop session spawn pollInterval rounds none) fun
      | .localCancellation => return 130
      | .error error => raise error
    note (.returned code)
    return code

end Loops

section Surroundings

/-- What an answered call leaves in the journal. -/
def answered : (call : Call) → Option (Except Raised call.Reply) → List Happening
  | .status, some (.ok health) => [.observed health]
  | .reconnect, some (.ok health) => [.observed health]
  | .getAttachment, some (.ok attachment) => [.attached attachment]
  | _, _ => []

def deliver : (wait : Wait) → Except Raised wait.Reply → State → Option State
  | .race call, .ok outcome, state =>
      match outcome with
      | none => if state.cancelled then some state else none
      | some (.error .localCancellation) => none
      | some reply => some { state with journal := answered call (some reply) ++ state.journal }
  | .spawn _, .ok _, state => some state
  | .spawn _, .error (.error _), state => some state
  | .watch, .ok none, state => if state.cancelled then some state else none
  | .watch, .ok (some _), state => some state
  | .grace, .ok _, state => some state
  | .grace, .error (.error .timeoutError), state => some state
  | .gather, .ok _, state => some state
  | .started, .ok _, state => some state
  | .reap, .ok _, state => some state
  | _, _, _ => none

inductive Move where
  | cancel
  | launchability (error : Option String)

def disturb : Move → State → Option State
  | .cancel, state => some ({ state with cancelled := true }.note .cancelled)
  | .launchability error, state => some { state with launchError := error }

/-- Callbacks and signal handlers of the loop run while the shell waits. -/
abbrev surroundings : Surroundings signature where
  Move := Move
  preempts := false
  deliver := deliver
  disturb := disturb

end Surroundings
end Pazuzu.Shell
