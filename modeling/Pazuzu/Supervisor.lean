import Pazuzu.Transfer

/-! `OpenSshSupervisor`: connection state, repair, and conservative replay. -/
namespace Pazuzu

open Asyncio Python

/-- `_bounded_backoff`: the product is taken before the cap. `none` stands for
the `OverflowError` of a power that does not fit in a double. -/
@[irreducible]
def boundedBackoff (failures : Nat) : Option Nat :=
  (Magnitude.ofInt (2 ^ (failures - 1))).map fun power =>
    (Magnitude.product 5 power).atMost 60

def authMarkers : List String :=
  ["authentication failed", "authentication required", "certificate expired", "login required",
    "not logged in", "permission denied", "waiting on browser"]

/-- Separate actionable authentication failures from ordinary outages. The
markers are ASCII, so lowering the ASCII letters decides. -/
def classifyConnectionFailure (detail : String) : ConnectionState :=
  let lowered := detail.toList.map Char.toLower
  if authMarkers.any fun marker => contains marker.toList lowered then .authenticationRequired
  else .offline

namespace State

/-- `_unavailable_message`. -/
def unavailableMessage (state : State) : String :=
  let detail := match state.sup.lastError with
    | none | some "" => "SSH connection is unavailable"
    | some error => error
  let retryIn := max 0 (state.sup.nextAttempt - state.os.clock)
  detail ++
    (if retryIn = 0 then ""
      else "; automatic retry in " ++ toString (roundHalfEven retryIn) ++ "s") ++
    (if state.sup.state = .authenticationRequired then
      "; reauthorise with the configured SSH provider, then run pazuzu reconnect" else "")

/-- The next generation with `_record_connected`. -/
def recordConnected (state : State) : State :=
  { state with sup := { state.sup with
      generation := state.sup.generation + 1
      state := .connected
      connectedAt := some state.os.utc
      lastSuccessAt := some state.os.utc
      lastError := none
      failures := 0
      nextAttempt := 0
      probeFailures := 0
      lastProbe := none } }

/-- The fields `_record_failure` sets before it computes the delay. -/
def recordFailure (state : State) (detail : String) : State :=
  { state with sup := { state.sup with
      state := classifyConnectionFailure detail
      lastFailureAt := some state.os.utc
      lastError := some (String.ofList (detail.toList.drop (detail.length - 2000)))
      failures := state.sup.failures + 1 } }

def setNextAttempt (state : State) (time : ℚ) : State :=
  { state with sup := { state.sup with nextAttempt := time } }

def setWake (state : State) (wake : Bool) : State :=
  { state with sup := { state.sup with wake } }

def setState (state : State) (connection : ConnectionState) : State :=
  { state with sup := { state.sup with state := connection } }

/-- Count an attempt to adopt a master. -/
def beginAdoption (state : State) : State :=
  { state with sup := { state.sup with repairEpoch := state.sup.repairEpoch + 1 } }

/-- Count an attempt to replace the master. -/
def beginRepair (state : State) : State :=
  { state with sup := { state.sup with
      repairEpoch := state.sup.repairEpoch + 1, state := .reconnecting } }

/-- `asyncio.create_task`. -/
def createJob (state : State) (kind : JobKind) : State :=
  { state with sup := { state.sup with jobs := state.sup.jobs ++ [{ kind }] } }

/-- A task's outcome is settled once. -/
def settleJob (state : State) (id : Nat) (outcome : Except Error (Option ProbeOutcome)) : State :=
  { state with sup := { state.sup with
      jobs := state.sup.jobs.modify id fun job =>
        { job with outcome := some (job.outcome.getD outcome) } } }

/-- `Task.cancel`, without effect on a task that is done. -/
def cancelJob (state : State) (id : Nat) : State :=
  { state with sup := { state.sup with
      jobs := state.sup.jobs.modify id fun job =>
        { job with cancelling := job.cancelling || job.outcome.isNone } } }

def jobOutcome (state : State) (id : Nat) : Option (Except Error (Option ProbeOutcome)) :=
  state.sup.jobs[id]?.bind Job.outcome

/-- The probe in flight for an epoch, if it is not done. -/
def flightFor (state : State) (epoch : Nat) : Option Nat :=
  match state.sup.probeFlight with
  | none => none
  | some (flown, id) => if flown = epoch ∧ state.jobOutcome id = none then some id else none

def health (state : State) (config : Config) (sessionHealthy : Option Bool) : Health where
  gatewayRunning := !state.sup.closed
  connection := state.sup.state
  host := config.settings.host
  generation := state.sup.generation
  sessionHealthy := sessionHealthy
  connectedAt := state.sup.connectedAt
  lastSuccessAt := state.sup.lastSuccessAt
  lastFailureAt := state.sup.lastFailureAt
  lastError := state.sup.lastError
  consecutiveFailures := state.sup.failures
  lastProbe := state.sup.lastProbe
  probeFailures := state.sup.probeFailures
  lastProbeSeconds := state.sup.lastProbeSeconds
  retryInSeconds := roundTo 1 (max 0 (state.sup.nextAttempt - state.os.clock))
  maxSessions := config.settings.maxSessions
  operationsActive := state.slots.active
  operationsWaiting := state.slots.waiting

/-- What `_run_probe` keeps of a probe of the current epoch. -/
def recordProbe (state : State) (started : ℚ) (outcome : ProbeOutcome) : State :=
  { state with sup :=
      let sup := { state.sup with
        lastProbe := some outcome, lastProbeSeconds := some (roundTo 3 (state.os.clock - started)) }
      if outcome = .ok then { sup with probeFailures := 0, lastSuccessAt := some state.os.utc }
      else { sup with probeFailures := sup.probeFailures + 1 } }

def addWaiting (state : State) : State :=
  { state with slots := { state.slots with waiting := state.slots.waiting + 1 } }

def dropWaiting (state : State) : State :=
  { state with slots := { state.slots with waiting := state.slots.waiting - 1 } }

def addActive (state : State) : State :=
  { state with slots := { state.slots with active := state.slots.active + 1 } }

def dropActive (state : State) : State :=
  { state with slots := { state.slots with active := state.slots.active - 1 } }

end State

def commandResult (result : ProcessResult) (generation : Nat) (replayed : Bool := false) :
    CommandResult where
  exitCode := result.exitCode
  stdout := decodeReplace result.stdout
  stderr := decodeReplace result.stderr
  stdoutTruncated := result.stdoutTruncated
  stderrTruncated := result.stderrTruncated
  connectionGeneration := generation
  replayed := replayed

namespace Supervisor

variable (config : Config)

def attachment (generation : Nat) : Except Error SshAttachment :=
  SshAttachment.make config.settings.host config.settings.sshBinary config.settings.controlPath
    generation

def raiseUnavailable {α : Type} : Py α := do
  let state ← Coro.get
  Coro.raise (.connectionUnavailable state.unavailableMessage)

/-- `_record_failure`. The delay is computed last, so that an overflow leaves
everything but the next attempt recorded. -/
def recordFailure (detail : String) : Py Unit := do
  let state ← Coro.get
  match boundedBackoff (state.sup.failures + 1) with
  | some delay => Coro.record .failureRecorded fun state =>
      (state.recordFailure detail).setNextAttempt (state.os.clock + delay)
  | none =>
      Coro.record .backoffOverflowed fun state => state.recordFailure detail
      Coro.raise .overflowError

/-- The loop over the start attempts. The result is the detail of the last
failure, or `none` once a master is connected. -/
def startAttempts (attempt : Nat) (detail : String) : Nat → Py (Option String)
  | 0 => return some detail
  | remaining + 1 => do
      match ← (Transport.startMaster config).attempt with
      | .ok () =>
          Coro.record .masterConnected State.recordConnected
          return none
      | .error (.connectionUnavailable message) | .error (.commandTimedOut message) =>
          Transport.stopMaster config
          if classifyConnectionFailure message = .authenticationRequired then
            return some message
          else
            Coro.when (remaining ≠ 0) (sleep (min 2 (1 / 2 * 2 ^ attempt)))
            startAttempts (attempt + 1) message remaining
      | .error error => Coro.raise error

/-- The body of `_replace_master`. -/
def repair : Py Unit := do
  Coro.record .repairBegan State.beginRepair
  Transport.stopMaster config
  match ← startAttempts config 0 "unknown SSH startup failure" config.settings.connectionAttempts with
  | none => return ()
  | some detail =>
      recordFailure detail
      raiseUnavailable

/-- `_replace_master`. Any way out that it does not provide for is noted. -/
def replaceMaster : Py Unit :=
  (repair config).tryCatch fun
    | .connectionUnavailable message => Coro.raise (.connectionUnavailable message)
    | error => do
        Coro.mark (.repairAborted error)
        Coro.raise error

def adoptOrReplace : Py Unit := do
  Coro.record .adoptionBegan State.beginAdoption
  if ← Transport.adoptExisting config then
    Coro.record .masterConnected State.recordConnected
  else
    replaceMaster config

/-- The part of `_connect` under the repair lock. -/
def connectLocked (force respectBackoff : Bool) : Py Unit := do
  let state ← Coro.get
  let up ← if force = false ∧ state.sup.state = .connected then Transport.controlCheck config
    else pure false
  if up then
    return ()
  else
    let state ← Coro.get
    if force = false ∧ respectBackoff ∧ state.os.clock < state.sup.nextAttempt then
      raiseUnavailable
    else if force = false ∧ state.sup.generation = 0 then
      adoptOrReplace config
    else
      replaceMaster config

def connect (force : Bool) (respectBackoff : Bool := true) : Py Unit :=
  withLock .repair (connectLocked config force respectBackoff)

def ensureConnected (respectBackoff : Bool := true) : Py Nat := do
  let state ← Coro.get
  let up ← if state.sup.state = .connected then Transport.controlCheck config else pure false
  Coro.when (up = false) (connect config false respectBackoff)
  let state ← Coro.get
  return state.sup.generation

/-- The probe in flight, or a new one. -/
def joinProbe : Py Nat := do
  let state ← Coro.get
  match state.flightFor state.sup.repairEpoch with
  | some id => return id
  | none =>
      Coro.update fun state =>
        let created := state.createJob (.probe state.sup.repairEpoch)
        { created with sup := { created.sup with
            probeFlight := some (state.sup.repairEpoch, state.sup.jobs.length) } }
      return state.sup.jobs.length

/-- `_probe`. Giving up does not cancel the probe that others await. -/
def probe : Py ProbeOutcome := do
  let id ← joinProbe
  wait (.probe id)

/-- `_run_probe`. A probe that overlapped a repair leaves no trace. -/
def runProbe (epoch : Nat) : Py ProbeOutcome := do
  let before ← Coro.get
  let outcome ← Transport.probe config
  let state ← Coro.get
  Coro.when (epoch = state.sup.repairEpoch)
    (Coro.record (.probeCounted outcome) fun state => state.recordProbe before.os.clock outcome)
  return outcome

def replaceChecked (generation : Nat) : Py Verdict := do
  Coro.mark (.checkReplaces generation)
  replaceMaster config
  return .replaced

/-- Whether an ambiguous probe is tolerated: too few of them so far, and the
master still answers locally. -/
def tolerates (outcome : ProbeOutcome) : Py Bool := do
  let state ← Coro.get
  if (outcome = .slow ∨ outcome = .busy) ∧
      state.sup.probeFailures < config.settings.probeFailures then
    Transport.controlCheck config
  else
    return false

/-- The part of `_check` under the repair lock. -/
def checkLocked (generation epoch : Nat) (outcome : ProbeOutcome) : Py Verdict := do
  let state ← Coro.get
  if epoch ≠ state.sup.repairEpoch then
    if state.sup.state = .connected then return .replaced else raiseUnavailable
  else if ← tolerates config outcome then
    return .degraded
  else
    let state ← Coro.get
    if state.sup.state ≠ .connected ∧ state.os.clock < state.sup.nextAttempt then
      raiseUnavailable
    else
      replaceChecked config generation

/-- The body of `_check`. -/
def checkMaster (generation : Nat) : Py Verdict := do
  let before ← Coro.get
  if generation ≠ before.sup.generation ∧ before.sup.state = .connected then
    return .replaced
  else
    let outcome ← if before.sup.state = .connected then probe else pure .failed
    Coro.mark (.checkProbed outcome)
    let state ← Coro.get
    if outcome = .ok ∧ before.sup.repairEpoch = state.sup.repairEpoch then
      return .healthy
    else
      withLock .repair (checkLocked config generation before.sup.repairEpoch outcome)

/-- `_check`, with what it was asked and what it said on record. -/
def check (generation : Nat) : Py Verdict := do
  Coro.mark (.checkBegan generation)
  match ← (checkMaster config generation).attempt with
  | .ok verdict =>
      Coro.mark (.checkAnswered generation verdict)
      return verdict
  | .error error =>
      Coro.mark (.checkRaised generation error)
      Coro.raise error

def repairIfBroken (generation : Nat) : Py Bool := do
  return (← check config generation) == .replaced

/-- Whether an exit 255 came from the connection rather than the command. -/
def safeRepairAfterCommand (generation : Nat) : Py Bool :=
  (do return (← check config generation) != .healthy : Py Bool).tryCatch fun
    | .connectionUnavailable message => Coro.raise (.uncertainExecution
        ("SSH disconnected after the remote command may have started, " ++
          "and automatic reconnection failed: " ++ message))
    | error => Coro.raise error

/-- The admission of `_SessionSlots.hold`: only the head of the local queue
polls the shared pool. -/
def admission (timeout : ℚ) : Py SessionLease := do
  Coro.record .slotWanted State.addWaiting
  let state ← Coro.get
  ((withLock .head
      ((Transport.budget config).operations.acquireAsync config none (some (state.os.clock + timeout)))
      (some (state.os.clock + timeout))).tryCatch fun
    | .timeoutError => do
        let state ← Coro.get
        Coro.raise (.commandTimedOut ("no SSH session became free within " ++ formatG timeout ++
          "s; " ++ toString state.slots.active ++ " gateway operations hold the session budget"))
    | error => Coro.raise error).tryFinally (Coro.update State.dropWaiting)

/-- Hold one session slot around the given body. -/
def hold {α : Type} (timeout : ℚ) (body : Py α) : Py α := do
  let lease ← admission config timeout
  Coro.update State.addActive
  body.tryFinally do
    Coro.update State.dropActive
    lease.release

/-- `_operation`: a slot on a connected master, with the time left. -/
def operation {α : Type} (timeout : ℚ) (body : Nat → ℚ → Py α) : Py α := do
  let before ← Coro.get
  hold config timeout do
    let generation ← ensureConnected config
    let state ← Coro.get
    let remaining := timeout - (state.os.clock - before.os.clock)
    if remaining < 1 / 10 then
      Coro.raise (.commandTimedOut
        ("the " ++ formatG timeout ++ "s deadline passed before the command could start"))
    else
      body generation remaining

def runSession (command : String) (stdin : Bytes) (timeout : ℚ) : Py (ProcessResult × Nat) :=
  operation config timeout fun generation remaining => do
    Coro.mark (.sessionCalled generation remaining)
    let result ← Transport.session config command stdin remaining
      (Coro.mark (.sessionStarted generation))
    Coro.mark (.sessionEnded generation result)
    return (result, generation)

def replayOnce (command : String) (stdin : Bytes) (timeout : ℚ) : Py CommandResult := do
  let (replay, generation) ← runSession config command stdin timeout
  if replay.exitCode = 255 then
    if (← check config generation) = .healthy then
      return commandResult replay generation true
    else
      Coro.raise (.connectionUnavailable
        "the idempotent command lost its connection again after one replay")
  else
    return commandResult replay generation true

/-- What `execute` makes of a finished session. -/
def settle (command : String) (stdin : Bytes) (timeout : ℚ) (retrySafe : Bool)
    (result : ProcessResult) (generation : Nat) : Py CommandResult := do
  if result.exitCode ≠ 255 then
    return commandResult result generation
  else if ← safeRepairAfterCommand config generation then
    if retrySafe then
      replayOnce config command stdin timeout
    else
      Coro.raise (.uncertainExecution
        ("SSH lost the command channel after the remote command may have started; " ++
          "the command was not replayed"))
  else
    return commandResult result generation

/-- Execute once, replaying only an explicitly idempotent operation. -/
def execute (command : String) (stdin : Bytes) (timeout : ℚ) (retrySafe : Bool) :
    Py CommandResult :=
  if ¬Nameable command then
    Coro.raise (.valueError "remote command must be a non-empty string without NUL bytes")
  else if timeout ≤ 0 then
    Coro.raise (.valueError "command timeout must be positive")
  else do
    let (result, generation) ← runSession config command stdin timeout
    settle config command stdin timeout retrySafe result generation

def transferArgv (state : State) (tool : String) (arguments : List String) (executable : String) :
    Except Error (List Word) := do
  let attachment ← attachment config (max 1 state.sup.generation)
  let build := if tool = "cp" then Transfer.copyArgv else Transfer.rsyncArgv
  build attachment (arguments.map String.toList) executable.toList

/-- Run one transfer on its own channel; it is never replayed. -/
def transfer (tool : String) (arguments : List String) (executable : String) (timeout : ℚ) :
    Py CommandResult :=
  if tool ≠ "cp" ∧ tool ≠ "rsync" then
    Coro.raise (.valueError "transfer tool must be cp or rsync")
  else if ¬Nameable executable then
    Coro.raise (.valueError "transfer executable must be non-empty and contain no NUL bytes")
  else if timeout ≤ 0 then
    Coro.raise (.valueError "transfer timeout must be positive")
  else do
    let state ← Coro.get
    let argv ← Coro.ofExcept (transferArgv config state tool arguments executable)
    let (result, generation) ← operation config timeout fun generation remaining => do
      Coro.mark (.transferCalled generation)
      let result ← runTransfer (argv.map String.ofList) remaining config.settings.maxOutputBytes
      return (result, generation)
    if result.exitCode = 255 then
      let _ ← safeRepairAfterCommand config generation
      return commandResult result generation
    else
      return commandResult result generation

/-- A probed snapshot for a direct client of the current master. -/
def connectionAttachment : Py SshAttachment := do
  let _ ← ensureConnected config
  let state ← Coro.get
  let _ ← repairIfBroken config state.sup.generation
  let state ← Coro.get
  Coro.ofExcept (attachment config state.sup.generation)

def probedHealth : Py (Option Bool) := do
  let state ← Coro.get
  (do let _ ← repairIfBroken config state.sup.generation).tryCatch fun
    | .connectionUnavailable _ => pure ()
    | error => Coro.raise error
  let state ← Coro.get
  return some (state.sup.state = .connected ∧ state.sup.probeFailures = 0)

def health (probe : Bool) : Py Health := do
  let state ← Coro.get
  let sessionHealthy ← if probe ∧ state.sup.state = .connected then probedHealth config
    else pure none
  let state ← Coro.get
  return state.health config sessionHealthy

/-- Repair immediately, bypassing backoff. -/
def reconnect (force : Bool) : Py Health := do
  Coro.update fun state => state.setNextAttempt 0
  (if force then connect config true
    else do
      let generation ← ensureConnected config false
      let _ ← check config generation).tryFinally (Coro.update fun state => state.setWake true)
  health config false

def waitForWake (timeout : ℚ) : Py Bool := do
  let state ← Coro.get
  if state.sup.wake then
    Coro.update fun state => state.setWake false
    return true
  else
    (do wait (.wake (some (state.os.clock + timeout)))
        Coro.update fun state => state.setWake false
        return true).tryCatch fun
      | .timeoutError => pure false
      | error => Coro.raise error

/-- How long maintenance waits before it acts. -/
def maintenanceDelay (state : State) : ℚ :=
  if state.sup.state ≠ .connected then max 0 (state.sup.nextAttempt - state.os.clock)
  else if state.sup.probeFailures ≠ 0 then min config.settings.probeInterval 10
  else config.settings.probeInterval

/-- `except PazuzuError: pass`. -/
def passOver (error : Error) : Py Unit :=
  if error.isPazuzu then pure () else Coro.raise error

/-- What maintenance does when its wait is over. -/
def maintainOnce : Py Unit :=
  (do let state ← Coro.get
      if state.sup.state = .connected then do
        let _ ← repairIfBroken config state.sup.generation
      else
        connect config false : Py Unit).tryCatch passOver

def maintain : Nat → Py Unit
  | 0 => never
  | rounds + 1 => do
      let state ← Coro.get
      if state.sup.closed then
        return ()
      else if state.sup.state = .authenticationRequired then
        wait (.wake none)
        Coro.update fun state => state.setWake false
        maintain rounds
      else
        Coro.mark .maintenanceWaits
        if ← waitForWake (maintenanceDelay config state) then
          maintain rounds
        else
          Coro.mark .maintenanceActs
          maintainOnce config
          maintain rounds

/-- Start proactive maintenance. -/
def start : Py Unit := do
  let state ← Coro.get
  Coro.when (state.sup.maintainer = none) do
    (Transport.budget config).publish
    Coro.update fun state =>
      let created := state.createJob .maintain
      { created with sup := { created.sup with maintainer := some state.sup.jobs.length } }

/-- Cancel a task and wait for its end. -/
def reap : Option Nat → Py Unit
  | none => pure ()
  | some id => do
      Coro.update fun state => state.cancelJob id
      (wait (.settled id)).tryCatch fun
        | .cancelled => pure ()
        | error => Coro.raise error

def stopMaintenance : Py Unit := do
  let state ← Coro.get
  Coro.update fun state => { state with sup := { state.sup with
    closed := true, wake := true, maintainer := none, probeFlight := none } }
  reap state.sup.maintainer
  reap (state.sup.probeFlight.map Prod.snd)

/-- Stop maintenance and the owned master. -/
def close : Py Unit := do
  stopMaintenance
  withLock .repair do
    Transport.stopMaster config
    Coro.update fun state => state.setState .stopped

/-- Stop the gateway while preserving its authenticated master. -/
def detach : Py Unit := do
  stopMaintenance
  Transport.detachMaster
  Coro.update fun state => state.setState .detached

/-- The body of a created task. -/
def runJob (id : Nat) : Py Unit := do
  let state ← Coro.get
  match (state.sup.jobs[id]?).map Job.kind with
  | none => return ()
  | some (.probe epoch) =>
      match ← (do wait .begin; runProbe config epoch).attempt with
      | .ok outcome => Coro.record (.probeFinished epoch outcome) fun state =>
          state.settleJob id (.ok (some outcome))
      | .error error => Coro.update fun state => state.settleJob id (.error error)
  | some .maintain =>
      match ← (do wait .begin; maintain config config.rounds).attempt with
      | .ok () => Coro.update fun state => state.settleJob id (.ok none)
      | .error error => Coro.update fun state => state.settleJob id (.error error)

def dispatch : Op → Py Value
  | .execute command stdin timeout retrySafe => do
      return .command (← execute config command stdin timeout retrySafe)
  | .transfer tool arguments executable timeout => do
      return .command (← transfer config tool arguments executable timeout)
  | .connectionAttachment => do return .attachment (← connectionAttachment config)
  | .health probe => do return .health (← health config probe)
  | .reconnect force => do return .health (← reconnect config force)
  | .start => do start config; return .none
  | .close => do close config; return .none
  | .detach => do detach; return .none
  | .job id => do runJob config id; return .none

/-- A call with its end on record. -/
def serve (op : Op) : Py Value := do
  Coro.mark (.called op)
  match ← (dispatch config op).attempt with
  | .ok value =>
      Coro.mark (.returned value)
      return value
  | .error error =>
      Coro.mark (.raised error)
      Coro.raise error

end Supervisor
end Pazuzu
