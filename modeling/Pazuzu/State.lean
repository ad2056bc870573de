import Mathlib.Data.Rat.Floor
import Pazuzu.Asyncio.EventLoop
import Pazuzu.Errors
import Pazuzu.Python.Text

/-! The data of one gateway process: its settings, the fields of the
supervisor and of the transport, and what they see of the operating system.
Times are seconds; `clock` is the monotonic clock and `utc` the calendar. -/
namespace Pazuzu

open Asyncio Python

structure ProcessResult where
  exitCode : Int
  stdout : Bytes
  stderr : Bytes
  stdoutTruncated : Bool := false
  stderrTruncated : Bool := false
  deriving DecidableEq, Repr

/-- Configuration for one private OpenSSH master. -/
structure SshSettings where
  host : String
  controlPath : String
  sshBinary : String := "/usr/bin/ssh"
  connectTimeout : ℚ := 60
  probeTimeout : ℚ := 30
  probeInterval : ℚ := 60
  probeFailures : Nat := 3
  keepaliveInterval : Nat := 15
  keepaliveCount : Nat := 3
  connectionAttempts : Nat := 2
  maxSessions : Nat := 8
  maxOutputBytes : Nat := 1024 * 1024

def SshSettings.validate (settings : SshSettings) : Except Error Unit :=
  if settings.host = "" then .error (.valueError "SSH host must not be empty")
  else if ¬(2 ≤ settings.maxSessions ∧ settings.maxSessions ≤ 64) then
    .error (.valueError "max_sessions must be between 2 and 64")
  else if ¬(1 ≤ settings.connectionAttempts ∧ settings.connectionAttempts ≤ 5) then
    .error (.valueError "connection_attempts must be between 1 and 5")
  else if ¬(1 ≤ settings.probeFailures ∧ settings.probeFailures ≤ 10) then
    .error (.valueError "probe_failures must be between 1 and 10")
  else if min (min settings.connectTimeout settings.probeTimeout) settings.probeInterval ≤ 0 then
    .error (.valueError "SSH timeouts must be positive")
  else if 100 < settings.controlPath.utf8ByteSize then
    .error (.valueError "control socket path is too long; choose a path below 100 bytes")
  else .ok ()

/-- Text without NUL that is not empty: what the operating system takes as a
name. -/
def Nameable (text : String) : Prop := text ≠ "" ∧ '\x00' ∉ text.toList

instance (text : String) : Decidable (Nameable text) := inferInstanceAs (Decidable (_ ∧ _))

/-- Snapshot describing one client of the owned master. An ill-formed one
cannot be built. -/
structure SshAttachment where
  host : String
  sshBinary : String
  controlPath : String
  generation : Nat
  host_nameable : Nameable host
  sshBinary_nameable : Nameable sshBinary
  controlPath_nameable : Nameable controlPath
  generation_pos : 1 ≤ generation

def SshAttachment.make (host sshBinary controlPath : String) (generation : Nat) :
    Except Error SshAttachment :=
  if hHost : Nameable host then
    if hBinary : Nameable sshBinary then
      if hPath : Nameable controlPath then
        if hGeneration : 1 ≤ generation then
          .ok ⟨host, sshBinary, controlPath, generation, hHost, hBinary, hPath, hGeneration⟩
        else .error (.valueError "attachment generation must be a positive integer")
      else .error (.valueError
        "attachment control path must be non-empty and contain no NUL bytes")
    else .error (.valueError
      "attachment SSH executable must be non-empty and contain no NUL bytes")
  else .error (.valueError "attachment host must be non-empty and contain no NUL bytes")

/-- Bounded result from one independent SSH command channel. -/
structure CommandResult where
  exitCode : Int
  stdout : Text
  stderr : Text
  stdoutTruncated : Bool
  stderrTruncated : Bool
  connectionGeneration : Nat
  replayed : Bool := false
  deriving DecidableEq, Repr

inductive ConnectionState where
  | offline
  | connected
  | reconnecting
  | authenticationRequired
  | stopped
  | detached
  deriving DecidableEq, Repr

inductive ProbeOutcome where
  | ok
  | slow
  | busy
  | failed
  deriving DecidableEq, Repr

/-- What `_check` says of the master. -/
inductive Verdict where
  | healthy
  | degraded
  | replaced
  deriving DecidableEq, Repr

/-- An `asyncio.Lock` with its holder and, first in first out, its waiters. -/
structure Lock where
  holder : Option Nat := none
  waiters : List Nat := []

inductive LockName where
  | repair
  | head
  deriving DecidableEq, Repr

inductive SlotKind where
  | slot
  | probe
  deriving DecidableEq, Repr

/-- A lock file of the lease directory: prefix and index. -/
structure SlotFile where
  kind : SlotKind
  index : Nat
  deriving DecidableEq, Repr

/-- A held `flock` on one slot file; `id` tells one acquisition from another. A
foreign one is held by another process. -/
structure SessionLease where
  file : SlotFile
  id : Nat
  foreign : Bool := false
  deriving DecidableEq, Repr

/-- The numbers below this fit a `pid_t`. -/
def pidLimit : Nat := 2 ^ 31

/-- A master process that was started on this control path, and for whom. -/
structure Master where
  pid : Nat
  host : String
  alive : Bool := true
  deriving DecidableEq, Repr

/-- The file operations whose `OSError` the gateway can meet. -/
inductive FileOp where
  | statControlSocket
  | makeControlDirectory
  | unlinkControlSocket
  | openMasterLog
  | writeOwner
  | unlinkOwner
  | makeLeaseDirectory
  | openSlot
  | signalMaster
  | publishBudget
  deriving DecidableEq, Repr

/-- The operating system as this gateway meets it. `controlSocket` is the
process that created the socket now at the control path, alive or not;
`pendingSpawns` counts worker threads whose caller no longer waits for them. -/
structure Os where
  clock : ℚ := 0
  utc : ℚ := 0
  controlSocket : Option Nat := none
  masters : List Master := []
  pendingSpawns : Nat := 0
  owner : Option Bytes := none
  masterLog : String := ""
  leases : List SessionLease := []
  nextLease : Nat := 0
  published : Option Nat := none
  faults : FileOp → Option String := fun _ => none
  pid : Nat := 0
  timeNs : Nat := 0

/-- The fields of `OpenSshTransport`. -/
structure Transport where
  master : Option Nat := none
  masterLogOpen : Bool := false
  masterLogPath : Option String := none
  startCount : Nat := 0

/-- The fields of `_SessionSlots`. -/
structure SessionSlots where
  head : Lock := {}
  active : Nat := 0
  waiting : Nat := 0

inductive JobKind where
  | probe (epoch : Nat)
  | maintain
  deriving DecidableEq, Repr

/-- A task the supervisor created with `create_task`. Its outcome is what it
returned, `none` for maintenance, or what it raised. -/
structure Job where
  kind : JobKind
  started : Bool := false
  cancelling : Bool := false
  outcome : Option (Except Error (Option ProbeOutcome)) := none

/-- The fields of `OpenSshSupervisor`. `jobs` holds the tasks it created;
`probeFlight` and `maintainer` refer to them by position. -/
structure Supervisor where
  repairLock : Lock := {}
  probeFlight : Option (Nat × Nat) := none
  jobs : List Job := []
  repairEpoch : Nat := 0
  wake : Bool := false
  maintainer : Option Nat := none
  closed : Bool := false
  state : ConnectionState := .offline
  generation : Nat := 0
  connectedAt : Option ℚ := none
  lastSuccessAt : Option ℚ := none
  lastFailureAt : Option ℚ := none
  lastError : Option String := none
  failures : Nat := 0
  nextAttempt : ℚ := 0
  probeFailures : Nat := 0
  lastProbe : Option ProbeOutcome := none
  lastProbeSeconds : Option ℚ := none

/-- Everything the tasks of one gateway share. -/
structure State where
  sup : Supervisor := {}
  transport : Transport := {}
  slots : SessionSlots := {}
  os : Os := {}

namespace State

def lock (state : State) : LockName → Lock
  | .repair => state.sup.repairLock
  | .head => state.slots.head

def setLock (state : State) (name : LockName) (lock : Lock) : State :=
  match name with
  | .repair => { state with sup := { state.sup with repairLock := lock } }
  | .head => { state with slots := { state.slots with head := lock } }

def isAlive (state : State) (pid : Nat) : Bool :=
  state.os.masters.any fun master => master.pid == pid && master.alive

end State

/-- The dictionary of `health`, with its keys as fields. -/
structure Health where
  gatewayRunning : Bool
  connection : ConnectionState
  host : String
  generation : Nat
  sessionHealthy : Option Bool
  connectedAt : Option ℚ
  lastSuccessAt : Option ℚ
  lastFailureAt : Option ℚ
  lastError : Option String
  consecutiveFailures : Nat
  lastProbe : Option ProbeOutcome
  probeFailures : Nat
  lastProbeSeconds : Option ℚ
  retryInSeconds : ℚ
  maxSessions : Nat
  operationsActive : Nat
  operationsWaiting : Nat

/-- The calls a supervisor serves concurrently. `job` is the body of a task
that the supervisor itself created. -/
inductive Op where
  | execute (command : String) (stdin : Bytes) (timeout : ℚ) (retrySafe : Bool)
  | transfer (tool : String) (arguments : List String) (executable : String) (timeout : ℚ)
  | connectionAttachment
  | health (probe : Bool)
  | reconnect (force : Bool)
  | start
  | close
  | detach
  | job (id : Nat)
  deriving DecidableEq

inductive Value where
  | none
  | command (result : CommandResult)
  | attachment (attachment : SshAttachment)
  | health (health : Health)

/-- What a run records. The marks follow the code; `interrupted` is left by
the loop when it raises an error into a wait, or `rethrown` when the wait is
for another task, and `fault`, `garbledOwner` and `backoffOverflowed` say which
call of the code raised. -/
inductive Event where
  | called (op : Op)
  | returned (value : Value)
  | raised (error : Error)
  | interrupted (op : Op) (error : Error)
  | rethrown (op : Op) (error : Error)
  | fault (operation : FileOp)
  | garbledOwner
  | backoffOverflowed
  | sessionCalled (generation : Nat) (timeout : ℚ)
  | sessionStarted (generation : Nat)
  | sessionEnded (generation : Nat) (result : ProcessResult)
  | transferCalled (generation : Nat)
  | checkBegan (generation : Nat)
  | checkAnswered (generation : Nat) (verdict : Verdict)
  | checkRaised (generation : Nat) (error : Error)
  | checkReplaces (generation : Nat)
  | adoptionBegan
  | repairBegan
  | repairAborted (error : Error)
  | masterConnected
  | failureRecorded
  | startMasterCalled
  | stopMasterCalled
  | masterRecognised (pid : Nat) (recognised : Bool)
  | controlChecked (up : Bool)
  | probeOpened
  | probeEnded (outcome : ProbeOutcome)
  | probeFinished (epoch : Nat) (outcome : ProbeOutcome)
  | probeCounted (outcome : ProbeOutcome)
  | checkProbed (outcome : ProbeOutcome)
  | maintenanceWaits
  | maintenanceActs
  | slotWanted
  | leaseTaken (lease : SessionLease)
  | leaseReleased (lease : SessionLease)

/-- What a task of the gateway waits for: its first step, a lock, the clock, a
process, another task, or the wake event. A deadline is that of an enclosing
`asyncio.timeout`, which reaches the wait as `TimeoutError`. -/
inductive Wait where
  | begin
  | lock (name : LockName) (deadline : Option ℚ)
  | sleep (due : ℚ) (deadline : Option ℚ)
  | launch (argv : List String)
  | process (argv : List String) (stdin : Bytes) (deadline : ℚ) (outputLimit : Nat)
  | spawnMaster (argv : List String)
  | isRecordedMaster (pid : Nat)
  | probe (id : Nat)
  | settled (id : Nat)
  | wake (deadline : Option ℚ)
  | never

def Wait.Reply : Wait → Type
  | .begin | .lock _ _ | .sleep _ _ | .launch _ | .settled _ | .wake _ => Unit
  | .process _ _ _ _ => ProcessResult
  | .spawnMaster _ => Nat
  | .isRecordedMaster _ => Bool
  | .probe _ => ProbeOutcome
  | .never => Empty

abbrev gatewaySignature : Signature where
  State := State
  Wait := Wait
  Reply := Wait.Reply
  Error := Error
  Event := Event

/-- A coroutine of the gateway. -/
abbrev Py := Coro gatewaySignature

/-- The settings, with a bound on how often a polling loop goes round. A loop
that has used it up never runs again, so the bound only limits how much of an
unbounded behaviour a run shows; results hold for every bound. -/
structure Config where
  settings : SshSettings
  rounds : Nat

end Pazuzu
