import Pazuzu.Asyncio.Solo
import Pazuzu.Transfer

/-! The port bridge: one forward on the shared master and one remote service
channel, kept up across reconnects. The process is not an event loop: a signal
handler runs between any two of its actions. -/
namespace Pazuzu.Bridge

open Asyncio Python

/-- What a bridge is asked for. -/
structure Request where
  settings : SshSettings
  listenHost : String
  listenPort : Int
  remoteHost : String
  remotePort : Int
  remoteCommand : List String

inductive Operation where
  | forward
  | cancel
  deriving DecidableEq

def Operation.name : Operation → String
  | .forward => "forward"
  | .cancel => "cancel"

/-- How a control command came out, with the tail of its output. One that
timed out may have reached the master all the same. -/
inductive Outcome where
  | exited (code : Int) (detail : String)
  | timedOut (reached : Bool) (message : String)
  | failed (message : String)

/-- What happens to a bridge, in the order it happens. `assigned` is the
assignment that lets the handler see the channel, `launched` says whether the
master had the forward. -/
inductive Happening where
  | signalled
  | controlled (operation : Operation) (outcome : Outcome)
  | launched (registered : Bool)
  | unlaunched
  | assigned
  | printed (line : String)

/-- A service channel: its `ssh` process, and whether its stdin is still open. -/
structure Channel where
  running : Bool
  leased : Bool
  deriving DecidableEq

/-- The variables of `run_bridge`, the channels it launched, newest first, and
what the master has registered for it. -/
structure State where
  handling : Bool := false
  stop : Bool := false
  child : Bool := false
  forwardRegistered : Bool := false
  bridgeLease : Bool := false
  channels : List Channel := []
  registered : Bool := false
  clock : ℚ := 0
  journal : List Happening := []

def State.note (state : State) (happening : Happening) : State :=
  { state with journal := happening :: state.journal }

inductive Wait where
  | acquire (size : Nat) (timeout : ℚ)
  | control (operation : Operation) (argv : List String)
  | popen (argv : List String)
  | childWait
  | retry (delay : ℚ)
  | release
  | never

abbrev Wait.Reply : Wait → Type
  | .acquire _ _ | .popen _ | .release => Unit
  | .control _ _ => Outcome
  | .childWait => Int
  | .retry _ => Bool
  | .never => Empty

abbrev signature : Signature := ⟨State, Wait, Wait.Reply, Error, Empty⟩

abbrev Py := Coro signature

def wait (wait : Wait) : Py wait.Reply := @Coro.suspend signature wait

def get : Py State := @Coro.get signature

def update (f : State → State) : Py Unit := @Coro.update signature f

def never {α : Type} : Py α := (wait .never).bind fun (impossible : Empty) => nomatch impossible

/-- `_bridge_spec`: validate and serialize one loopback forwarding rule. -/
def bridgeSpec (request : Request) : Except Error String := do
  request.settings.validate
  if ¬(Nameable request.listenHost ∧ Nameable request.remoteHost) then
    .error (.valueError "bridge hosts must be non-empty and contain no NUL bytes")
  else if ¬(1 ≤ request.listenPort ∧ request.listenPort ≤ 65535 ∧
      1 ≤ request.remotePort ∧ request.remotePort ≤ 65535) then
    .error (.valueError "bridge ports must be between 1 and 65535")
  else .ok (request.listenHost ++ ":" ++ toString request.listenPort ++ ":" ++
    request.remoteHost ++ ":" ++ toString request.remotePort)

def bridgeControlArgv (request : Request) (operation : Operation) : Except Error (List String) := do
  let forward ← bridgeSpec request
  return [request.settings.sshBinary, "-S", request.settings.controlPath,
    "-o", "ControlMaster=no", "-o", "ProxyCommand=/usr/bin/false",
    "-o", "ExitOnForwardFailure=yes", "-O", operation.name, "-L", forward, request.settings.host]

/-- The remote wrapper around the service, for `sh -c`. -/
def lifecycle (remotePort : Int) : String :=
  "command -v flock >/dev/null 2>&1 || \x7b " ++
  "echo \"pazuzu bridge: remote flock is required\" >&2; exit 69; \x7d; " ++
  "host=$(hostname) || exit 69; " ++
  "case \"$host\" in *[!A-Za-z0-9._-]*) exit 69;; esac; " ++
  "lock_root=$\x7bXDG_RUNTIME_DIR:-\"$HOME/.cache\"\x7d/pazuzu/bridges; " ++
  "umask 077; mkdir -p \"$lock_root\" || exit 69; " ++
  "exec 9>\"$lock_root/bridge-$host-" ++ toString remotePort ++ ".lock\" || exit 69; " ++
  "flock 9 || exit 69; child=; guard=; cleanup() \x7b " ++
  "[ -z \"$guard\" ] || kill \"$guard\" 2>/dev/null; " ++
  "[ -z \"$child\" ] || kill -TERM \"$child\" 2>/dev/null; \x7d; " ++
  "trap cleanup HUP INT TERM; exec 3<&0; " ++
  "\"$@\" </dev/null & child=$!; " ++
  "(IFS= read -r _ <&3 || kill -TERM \"$child\" 2>/dev/null) & guard=$!; " ++
  "wait \"$child\"; code=$?; " ++
  "kill \"$guard\" 2>/dev/null; wait \"$guard\" 2>/dev/null; exit \"$code\""

/-- Build the service channel, with direct SSH fallback disabled. -/
def bridgeSessionArgv (request : Request) : Except Error (List String) := do
  request.settings.validate
  if ¬(1 ≤ request.remotePort ∧ request.remotePort ≤ 65535) then
    .error (.valueError "bridge remote port must be between 1 and 65535")
  else if request.remoteCommand = [] ∨ ¬∀ item ∈ request.remoteCommand, Nameable item then
    .error (.valueError "bridge remote command must contain non-empty arguments")
  else .ok [request.settings.sshBinary, "-T", "-S", request.settings.controlPath,
    "-o", "ControlMaster=no", "-o", "ControlPersist=no", "-o", "ProxyCommand=/usr/bin/false",
    request.settings.host,
    "exec sh -c " ++ String.ofList (shellQuote (lifecycle request.remotePort).toList) ++
      " pazuzu-bridge " ++ String.ofList (shellJoin (request.remoteCommand.map String.toList))]

def Channel.close (channel : Channel) : Channel := { channel with leased := false }

def Channel.exit (channel : Channel) : Channel := { channel with running := false }

/-- What the handler makes of a channel: one that is polled as running loses its
stdin. -/
def Channel.closeStdin (channel : Channel) : Channel :=
  if channel.running then channel.close else channel

/-- `relay_signal`. -/
def relaySignal (state : State) : State :=
  { state with
    stop := true
    channels := if state.child then state.channels.modifyHead Channel.closeStdin else state.channels
    journal := .signalled :: state.journal }

/-- `_control_bridge`. -/
def controlBridge (operation : Operation) (argv : List String) (required : Bool) : Py Unit := do
  match ← wait (.control operation argv) with
  | .failed message | .timedOut _ message =>
      Coro.when required <| Coro.raise
        (.connectionUnavailable ("could not manage bridge forward: " ++ message))
  | .exited code detail =>
      Coro.when (required ∧ code ≠ 0) <| Coro.raise
        (.connectionUnavailable (if detail = "" then "could not register bridge forward" else detail))

/-- `_wait_for_retry`: wait without delaying a requested shutdown. -/
def waitForRetry (delay : ℚ) : Py Bool := wait (.retry delay)

def printed (line : String) : Py Unit := update fun state => state.note (.printed line)

/-- Wait for a lease, and say whether the bridge should go on. -/
def acquireLease (pool : SessionLeasePool) : Nat → Py Bool
  | 0 => never
  | rounds + 1 => do
      match ← (wait (.acquire pool.size 1)).attempt with
      | .ok _ =>
          update fun state => { state with bridgeLease := true }
          return true
      | .error .timeoutError =>
          let state ← get
          if state.stop then return false else acquireLease pool rounds
      | .error error => Coro.raise error

/-- One service channel from its launch to its end. -/
def channelRun (sessionArgv : List String) : Py Int := do
  wait (.popen sessionArgv)
  update fun state => { state with child := true }.note .assigned
  wait .childWait

/-- Close the stdin of the channel that `child` stands for. -/
def closeLease (state : State) : State :=
  if state.child then { state with channels := state.channels.modifyHead Channel.close } else state

/-- The `finally` after a channel. -/
def channelEnd (cancelArgv : List String) : Py Unit := do
  update closeLease
  update fun state => { state with child := false }
  controlBridge .cancel cancelArgv false
  update fun state => { state with forwardRegistered := false }

/-- The command lines of one bridge. -/
structure Argv where
  cancel : List String
  forward : List String
  session : List String

/-- The loop of `run_bridge`, entered with the current retry delay. -/
def keepUp (argv : Argv) : Nat → ℚ → Py Int
  | 0, _ => never
  | rounds + 1, delay => do
      let state ← get
      if state.stop then return 0
      else
        match ← (controlBridge .forward argv.forward true).attempt with
        | .error (.connectionUnavailable message) =>
            printed ("pazuzu bridge: " ++ message ++ "; retrying in " ++ formatG delay ++ "s")
            if ← waitForRetry delay then return 0
            else keepUp argv rounds (min 30 (delay * 2))
        | .error error => Coro.raise error
        | .ok _ =>
            update fun state => { state with forwardRegistered := true }
            let started ← get
            let exitCode ← (channelRun argv.session).tryFinally (channelEnd argv.cancel)
            let state ← get
            if state.stop then return 0
            else
              let ended ← get
              let delay := if 60 ≤ ended.clock - started.clock then 1 else delay
              printed ("pazuzu bridge: remote service exited with " ++ toString exitCode ++
                "; retrying in " ++ formatG delay ++ "s")
              if ← waitForRetry delay then return 0
              else keepUp argv rounds (min 30 (delay * 2))

/-- The outer `finally`. -/
def bridgeEnd (argv : Argv) : Py Unit := do
  let state ← get
  Coro.when state.forwardRegistered <| controlBridge .cancel argv.cancel false
  let state ← get
  Coro.when state.bridgeLease <| wait .release
  update fun state => { state with handling := false }

def bridgeArgv (request : Request) : Except Error Argv := do
  let cancel ← bridgeControlArgv request .cancel
  let forward ← bridgeControlArgv request .forward
  let session ← bridgeSessionArgv request
  return ⟨cancel, forward, session⟩

/-- The body under the outer `try`. -/
def underLease (argv : Argv) (pool : SessionLeasePool) (rounds : Nat) : Py Int := do
  if ← acquireLease pool rounds then
    controlBridge .cancel argv.cancel false
    keepUp argv rounds 1
  else return 0

/-- `run_bridge`. `published` is what the budget file holds. -/
def runBridge (request : Request) (published : Option Nat) (rounds : Nat) : Py Int := do
  let argv ← Coro.ofExcept (bridgeArgv request)
  let pool ← Coro.ofExcept
    (SessionBudget.published published request.settings.maxSessions).bridges
  update fun state => { state with handling := true }
  (underLease argv pool rounds).tryFinally (bridgeEnd argv)

/-- What a control command does to the master's forwards. Every cancel takes
effect; a forward that timed out may have been registered before. -/
def State.control (state : State) (operation : Operation) (outcome : Outcome) : State :=
  { state with
    registered := match operation, outcome with
      | .cancel, _ => false
      | .forward, .exited code _ => state.registered || code = 0
      | .forward, .timedOut reached _ => state.registered || reached
      | .forward, .failed _ => state.registered
    journal := .controlled operation outcome :: state.journal }

inductive Move where
  | signal
  | exit (channel : Nat)
  | pass (seconds : ℚ)

def deliver : (wait : Wait) → Except Error wait.Reply → State → Option State
  | .acquire _ _, .ok _, state => some state
  | .acquire _ _, .error error, state =>
      match error with
      | .timeoutError | .osError _ => some state
      | _ => none
  | .control operation _, .ok outcome, state => some (state.control operation outcome)
  | .popen _, .ok _, state =>
      some { state with
        channels := ⟨true, true⟩ :: state.channels
        journal := .launched state.registered :: state.journal }
  | .popen _, .error error, state =>
      match error with
      | .osError _ => some (state.note .unlaunched)
      | _ => none
  | .childWait, .ok _, state =>
      match state.channels with
      | channel :: _ => if channel.running then none else some state
      | [] => none
  | .retry _, .ok stopped, state => if stopped = state.stop then some state else none
  | .release, .ok _, state => some state
  | _, _, _ => none

def disturb : Move → State → Option State
  | .signal, state => if state.handling then some (relaySignal state) else none
  | .exit index, state =>
      some { state with channels := state.channels.modify index Channel.exit }
  | .pass seconds, state => if 0 ≤ seconds then some { state with clock := state.clock + seconds } else none

/-- The bridge's process: handlers run between any two of its actions. -/
abbrev surroundings : Surroundings signature where
  Move := Move
  preempts := true
  deliver := deliver
  disturb := disturb

end Pazuzu.Bridge
