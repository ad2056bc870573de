import Pazuzu.Lease
import Pazuzu.Python.Number

/-! `OpenSshTransport`: one foreground master without any retry policy. -/
namespace Pazuzu

open Asyncio Python

/-- Whether one list contains another as a contiguous part: `needle in text`. -/
def contains {α : Type} [DecidableEq α] (needle : List α) : List α → Bool
  | [] => needle.isEmpty
  | head :: rest => needle.isPrefixOf (head :: rest) || contains needle rest

/-- The master's reply when another channel is declined. -/
def sessionRefused : Bytes := "Session open refused by peer".toUTF8.toList

/-- Bytes that `str.strip` removes from ASCII text. -/
def isBlank (byte : UInt8) : Bool :=
  byte = 0x20 ∨ (0x09 ≤ byte ∧ byte ≤ 0x0D) ∨ (0x1C ≤ byte ∧ byte ≤ 0x1F)

def strip (content : Bytes) : Bytes :=
  ((content.dropWhile isBlank).reverse.dropWhile isBlank).reverse

def isDecimal (byte : UInt8) : Bool := 0x30 ≤ byte ∧ byte ≤ 0x39

def decimalValue (digits : Bytes) : Nat :=
  digits.foldl (fun value digit => value * 10 + (digit.toNat - 0x30)) 0

/-- What `_read_master_owner` makes of the file's content. Decoding fails on a
byte above 127, and `int` on a numeral beyond its digit limit; both raise a
`ValueError`. -/
def readMasterOwner : Option Bytes → Except Error (Option Nat)
  | none => .ok none
  | some content =>
      if content.any (128 ≤ ·) then .error (.valueError "ordinal not in range(128)")
      else
        let value := strip content
        if value ≠ [] ∧ value.all isDecimal then
          if maxDigits < value.length then
            .error (.valueError "Exceeds the limit (4300 digits) for integer string conversion")
          else if 0 < decimalValue value then .ok (some (decimalValue value))
          else .ok none
        else .ok none

namespace Transport

variable (config : Config)

def controlArgv (operation : String) : List String :=
  [config.settings.sshBinary, "-S", config.settings.controlPath, "-o", "ConnectTimeout=5",
    "-O", operation, config.settings.host]

def sessionArgv (command : String) : List String :=
  [config.settings.sshBinary, "-T", "-S", config.settings.controlPath,
    "-o", "ControlMaster=no", "-o", "ControlPersist=no",
    "-o", "ProxyCommand=/usr/bin/false", "-o", "ConnectTimeout=5",
    config.settings.host, command]

def masterArgv : List String :=
  [config.settings.sshBinary, "-T", "-N", "-S", config.settings.controlPath,
    "-o", "ControlMaster=yes", "-o", "ControlPersist=no",
    "-o", "ConnectTimeout=" ++ formatG config.settings.connectTimeout,
    "-o", "ConnectionAttempts=1",
    "-o", "ServerAliveInterval=" ++ toString config.settings.keepaliveInterval,
    "-o", "ServerAliveCountMax=" ++ toString config.settings.keepaliveCount,
    config.settings.host]

def budget : SessionBudget := ⟨config.settings.maxSessions⟩

/-- `_control_command`: a client operation of the master, never raising for a
process that cannot be launched or does not end in time. -/
def controlCommand (operation : String) : Py ProcessResult :=
  (runProcess (controlArgv config operation) [] 5 4096).tryCatch fun
    | .osError _ | .timeoutError => pure ⟨255, [], "control operation failed".toUTF8.toList, false, false⟩
    | error => Coro.raise error

/-- Check local master-process liveness without opening a connection. -/
def controlCheck : Py Bool := do
  fileOp .statControlSocket
  let state ← Coro.get
  if state.os.controlSocket.isNone then
    Coro.mark (.controlChecked false)
    return false
  else
    let result ← controlCommand config "check"
    Coro.mark (.controlChecked (result.exitCode == 0))
    return result.exitCode == 0

/-- Run one channel with direct SSH fallback explicitly disabled. -/
def session (command : String) (stdin : Bytes) (timeout : ℚ) (started : Py Unit := pure ()) :
    Py ProcessResult :=
  (runProcess (sessionArgv config command) stdin timeout config.settings.maxOutputBytes
      started).tryCatch fun
    | .timeoutError => Coro.raise (.commandTimedOut
        ("remote command exceeded its " ++ formatG timeout ++ "s deadline"))
    | .osError message => Coro.raise (.connectionUnavailable ("could not launch OpenSSH: " ++ message))
    | error => Coro.raise error

/-- What one probe session says about the master. -/
def classifyProbe (result : ProcessResult) : ProbeOutcome :=
  if result.exitCode = 0 then .ok
  else if result.exitCode = 255 ∧ contains sessionRefused result.stderr then .busy
  else .failed

/-- The probe's session once its lease is held. -/
def probeSession : Py ProbeOutcome :=
  (do
    let result ← session config "true" [] config.settings.probeTimeout (Coro.mark .probeOpened)
    return classifyProbe result).tryCatch fun
    | .commandTimedOut _ => pure .slow
    | .connectionUnavailable _ => pure .failed
    | error => Coro.raise error

/-- Open one real session in the reserved probe slot. -/
def probe : Py ProbeOutcome := do
  let lease ← ((budget config).probes.acquireAsync config
      (some config.settings.probeTimeout)).attempt
  match lease with
  | .error .timeoutError =>
      Coro.mark (.probeEnded .slow)
      return .slow
  | .error error => Coro.raise error
  | .ok lease =>
      let outcome ← (probeSession config).tryFinally lease.release
      Coro.mark (.probeEnded outcome)
      return outcome

/-- `_master_error`: the prefix with the tail of the master's log. -/
def masterError (state : State) (reason : String) : String :=
  if state.os.masterLog = "" then reason else reason ++ ": " ++ state.os.masterLog

def raiseIfMasterExited : Py Unit := do
  let state ← Coro.get
  Coro.when (state.transport.master.any fun pid => !state.isAlive pid)
    (Coro.raise (.connectionUnavailable (masterError state "SSH master exited")))

/-- Probe up to the given number of times while the answer is ambiguous. -/
def probeRounds (outcome : ProbeOutcome) : Nat → Py ProbeOutcome
  | 0 => return outcome
  | rounds + 1 => do
      raiseIfMasterExited
      let next ← probe config
      if next = .slow ∨ next = .busy then
        probeRounds next rounds
      else
        return next

/-- Probe a master that answers locally, tolerating a busy remote host. -/
def probeUntilSettled : Py ProbeOutcome :=
  probeRounds config .failed config.settings.probeFailures

/-- Adopt a surviving private master only after a real session probe. -/
def adoptExisting : Py Bool := do
  if ← controlCheck config then
    return (← probeUntilSettled config) == .ok
  else
    return false

/-- Poll a process for its end, up to two seconds. -/
def awaitExit (pid : Nat) : Nat → Py Unit
  | 0 => pure ()
  | rounds + 1 => do
      let state ← Coro.get
      Coro.when (state.isAlive pid) do
        sleep (1 / 10)
        awaitExit pid rounds

/-- `os.killpg`; a process that is already gone is no error. -/
def terminate : Py Unit := fileOp .signalMaster

def Os.kill (os : Os) (pid : Nat) : Os :=
  { os with masters := os.masters.map fun master =>
      if master.pid = pid then { master with alive := false } else master }

def kill (pid : Nat) : Py Unit := do
  fileOp .signalMaster
  Coro.update fun state => { state with os := Os.kill state.os pid }

def stopOwnedMaster : Py Unit := do
  let state ← Coro.get
  Coro.update fun state => { state with transport := { state.transport with master := none } }
  match state.transport.master with
  | none => pure ()
  | some pid =>
      awaitExit pid 20
      let state ← Coro.get
      Coro.when (state.isAlive pid) do
        terminate
        awaitExit pid 20
      let state ← Coro.get
      Coro.when (state.isAlive pid) (kill pid)

/-- `_is_recorded_master`, in a worker thread. -/
def isRecordedMaster (pid : Nat) : Py Bool := do
  let recognised ← wait (.isRecordedMaster pid)
  Coro.mark (.masterRecognised pid recognised)
  return recognised

/-- Wait up to two seconds until a recorded process is no master any more. -/
def awaitRecorded (pid : Nat) : Nat → Py Bool
  | 0 => return true
  | rounds + 1 => do
      if ← isRecordedMaster pid then
        sleep (1 / 10)
        awaitRecorded pid rounds
      else
        return false

def stopRecordedMaster : Py Unit := do
  let state ← Coro.get
  match readMasterOwner state.os.owner with
  | .error error =>
      Coro.mark .garbledOwner
      Coro.raise error
  | .ok none => pure ()
  | .ok (some pid) =>
      if ← isRecordedMaster pid then
        terminate
        if ← awaitRecorded pid 20 then
          kill pid
        else
          pure ()
      else
        pure ()

/-- Close the log and remove the socket and the receipt. -/
def releaseMasterState : Py Unit := do
  Coro.update fun state => { state with
    transport := { state.transport with masterLogOpen := false, masterLogPath := none } }
  fileOp .unlinkControlSocket
  Coro.update fun state => { state with os := { state.os with controlSocket := none } }
  fileOp .unlinkOwner
  Coro.update fun state => { state with os := { state.os with owner := none } }

/-- Stop either the owned process or an adopted orphan. -/
def stopMaster : Py Unit := do
  Coro.mark .stopMasterCalled
  let up ← controlCheck config
  Coro.when (up = true) do
    let _ ← controlCommand config "exit"
  stopOwnedMaster
  stopRecordedMaster
  releaseMasterState

/-- The receipt for a process: its number and a newline. -/
def ownerReceipt (pid : Nat) : Bytes := (toString pid ++ "\n").toUTF8.toList

def writeMasterOwner (pid : Nat) : Py Unit := do
  fileOp .writeOwner
  Coro.update fun state => { state with os := { state.os with owner := some (ownerReceipt pid) } }

/-- Wait until the new master's control socket answers. -/
def awaitControl (deadline : ℚ) : Nat → Py Unit
  | 0 => never
  | rounds + 1 => do
      if ← controlCheck config then
        pure ()
      else
        raiseIfMasterExited
        let state ← Coro.get
        if deadline ≤ state.os.clock then
          Coro.raise (.connectionUnavailable (masterError state "SSH master startup timed out"))
        else
          sleep (1 / 10)
          awaitControl deadline rounds

def waitUntilReady : Py Unit := do
  let state ← Coro.get
  awaitControl config (state.os.clock + config.settings.connectTimeout + 5) config.rounds
  let outcome ← probeUntilSettled config
  let state ← Coro.get
  match outcome with
  | .ok => pure ()
  | .slow => Coro.raise (.connectionUnavailable (masterError state ("session probe failed" ++
      ": no session opened within " ++ formatG config.settings.probeTimeout ++ "s")))
  | .busy => Coro.raise (.connectionUnavailable (masterError state
      ("session probe failed" ++ ": the server refused another session")))
  | .failed => Coro.raise (.connectionUnavailable (masterError state "session probe failed"))

def masterLogName (state : State) : String :=
  config.settings.controlPath ++ ".g" ++ toString state.transport.startCount ++ "." ++
    toString state.os.pid ++ "." ++ toString state.os.timeNs ++ ".log"

/-- Start a master and wait until it opens sessions. Whatever fails after the
process exists stops it again. -/
def startMaster : Py Unit := do
  Coro.mark .startMasterCalled
  fileOp .makeControlDirectory
  fileOp .unlinkControlSocket
  Coro.update fun state => { state with
    transport := { state.transport with startCount := state.transport.startCount + 1 }
    os := { state.os with controlSocket := none } }
  Coro.update fun state => { state with
    transport := { state.transport with masterLogPath := some (masterLogName config state) } }
  fileOp .openMasterLog
  Coro.update fun state => { state with
    transport := { state.transport with masterLogOpen := true } }
  let pid ← (wait (.spawnMaster (masterArgv config))).tryCatch fun
    | .osError message => do
        releaseMasterState
        Coro.raise (.connectionUnavailable ("could not launch OpenSSH master: " ++ message))
    | error => Coro.raise error
  Coro.update fun state => { state with transport := { state.transport with master := some pid } }
  (writeMasterOwner pid).tryCatch fun
    | .osError message => do
        stopOwnedMaster
        releaseMasterState
        Coro.raise (.connectionUnavailable ("could not persist OpenSSH master ownership: " ++ message))
    | error => Coro.raise error
  (waitUntilReady config).tryCatch fun error => do
    stopOwnedMaster
    releaseMasterState
    Coro.raise error

/-- Leave the independent master alive for a replacement gateway. -/
def detachMaster : Py Unit :=
  Coro.update fun state => { state with
    transport := { state.transport with masterLogOpen := false } }

end Transport
end Pazuzu
