import Pazuzu.Supervisor

/-! The gateway process with its surroundings: what may answer a wait, and what
may happen on its own. Everything the operating system, OpenSSH and the remote
side decide is left open here. -/
namespace Pazuzu

open Asyncio Python

/-- What happens without any task of the gateway. -/
inductive Move where
  | tick (seconds : ℚ)
  | setCalendar (utc : ℚ)
  | setFaults (faults : FileOp → Option String)
  | masterLogs (text : String)
  | masterBinds (pid : Nat)
  | masterExits (pid : Nat)
  | socketVanishes
  | ownerChanges (content : Option Bytes)
  | lateSpawn (pid : Nat)
  | leaseTaken (file : SlotFile)
  | leaseFreed (lease : SessionLease)

/-- A new master process, started for the configured host. -/
def Os.spawn (os : Os) (config : Config) (pid : Nat) : Option Os :=
  if pid ≠ 0 ∧ pid < pidLimit ∧ os.masters.all (fun master => master.pid ≠ pid) then
    some { os with masters := ⟨pid, config.settings.host, true⟩ :: os.masters }
  else none

namespace Move

/-- A late spawn is that of a worker thread whose caller was cancelled. Other
processes take and free locks of their own. -/
def apply (config : Config) (os : Os) : Move → Option Os
  | tick seconds =>
      if 0 ≤ seconds then some { os with clock := os.clock + seconds, utc := os.utc + seconds }
      else none
  | setCalendar utc => some { os with utc }
  | setFaults faults => some { os with faults }
  | masterLogs text => some { os with masterLog := text }
  | masterBinds pid =>
      if os.masters.any fun master => master.pid = pid ∧ master.alive then
        some { os with controlSocket := some pid }
      else none
  | masterExits pid => some (Transport.Os.kill os pid)
  | socketVanishes => some { os with controlSocket := none }
  | ownerChanges content => some { os with owner := content }
  | lateSpawn pid =>
      if 0 < os.pendingSpawns then
        Os.spawn { os with pendingSpawns := os.pendingSpawns - 1 } config pid
      else none
  | leaseTaken file =>
      if os.leases.all fun lease => lease.file ≠ file then some (os.grant file true) else none
  | leaseFreed lease => if lease.foreign then some (os.free lease) else none

end Move

namespace Host

/-- Whether a deadline, if there is one, has passed. -/
def passed (deadline : Option ℚ) (state : State) : Bool :=
  deadline.any fun due => due ≤ state.os.clock

/-- A task that the supervisor created is interrupted only on its order, once
for each order; a call by a client may be given up at any wait. -/
def cancel (op : Op) (state : State) : Option State :=
  match op with
  | .job id =>
      if (state.sup.jobs[id]?).any Job.cancelling then
        some { state with sup := { state.sup with
          jobs := state.sup.jobs.modify id fun job => { job with cancelling := false } } }
      else none
  | _ => some state

/-- What `Popen` takes as an argument vector: no word holds a NUL. -/
def isArgv (argv : List String) : Bool := argv.all fun word => !word.toList.contains '\x00'

/-- The errors other than a cancellation that may be raised into a wait. A
number too large for `os.getpgid` is an `OverflowError`, and what `ps` says of
a process need not be UTF-8. -/
def raises (wait : Wait) (error : Error) (state : State) : Bool :=
  match wait, error with
  | .lock _ deadline, .timeoutError | .sleep _ deadline, .timeoutError
  | .wake deadline, .timeoutError => passed deadline state
  | .process _ _ deadline _, .timeoutError => deadline ≤ state.os.clock
  | .launch argv, .osError _ | .spawnMaster argv, .osError _ => isArgv argv
  | .launch argv, .valueError _ | .spawnMaster argv, .valueError _ => !isArgv argv
  | .isRecordedMaster pid, .overflowError => pidLimit ≤ pid
  | .isRecordedMaster pid, .valueError _ => pid < pidLimit
  | .probe id, error | .settled id, error => state.jobOutcome id = some (.error error)
  | _, _ => false

/-- A normal answer, with the state it leaves. -/
def returns (config : Config) (task : Nat) (state : State) : (wait : Wait) → wait.Reply → Option State
  | .begin, _ => some state
  | .lock name _, _ =>
      if (state.lock name).holder = none ∧ (state.lock name).waiters.head? = some task then some state
      else none
  | .sleep due _, _ => if due ≤ state.os.clock then some state else none
  | .launch argv, _ => if isArgv argv then some state else none
  | .process _ _ _ limit, result =>
      if (ProcessResult.stdout result).length ≤ limit ∧ (ProcessResult.stderr result).length ≤ limit then
        some state
      else none
  | .spawnMaster argv, pid =>
      if isArgv argv then (Os.spawn state.os config pid).map fun os => { state with os } else none
  | .isRecordedMaster pid, _ => if pid < pidLimit then some state else none
  | .probe id, outcome => if state.jobOutcome id = some (.ok (some outcome)) then some state else none
  | .settled id, _ =>
      match state.jobOutcome id with
      | some (.ok _) => some state
      | _ => none
  | .wake _, _ => if state.sup.wake then some state else none
  | .never, _ => none

/-- Only a spawn changes anything by its answer. -/
theorem returns_cases {config : Config} {task : Nat} {state after : State} {wait : Wait}
    {reply : wait.Reply} (h : returns config task state wait reply = some after) :
    after = state ∨ ∃ argv pid os, wait = .spawnMaster argv ∧ state.os.spawn config pid = some os ∧
      after = { state with os } := by
  cases wait with
  | begin => exact Or.inl (Option.some.inj h).symm
  | lock | sleep | launch | process | isRecordedMaster | probe | wake =>
      simp only [returns, Option.ite_none_right_eq_some, Option.some.injEq] at h
      exact Or.inl h.2.symm
  | spawnMaster argv =>
      simp only [returns, Option.ite_none_right_eq_some] at h
      obtain ⟨os, hSpawn, rfl⟩ := Option.map_eq_some_iff.mp h.2
      exact Or.inr ⟨argv, reply, os, rfl, hSpawn, rfl⟩
  | settled =>
      simp only [returns] at h
      split at h
      · exact Or.inl (Option.some.inj h).symm
      · cases h
  | never => cases h

/-- Cancelling a call that waits for a spawn leaves the worker thread to it. -/
def abandon (wait : Wait) (state : State) : State :=
  match wait with
  | .spawnMaster _ =>
      { state with os := { state.os with pendingSpawns := state.os.pendingSpawns + 1 } }
  | _ => state

def deliver (config : Config) (op : Op) (task : Nat) (wait : Wait) :
    Except Error wait.Reply → State → Option State
  | .ok reply, state => returns config task state wait reply
  | .error error, state =>
      if raises wait error state then some state
      else if error = .cancelled then (cancel op state).map (abandon wait)
      else none

/-- Created tasks start once; clients may call at any time. -/
def accept (op : Op) (state : State) : Option State :=
  match op with
  | .job id =>
      if (state.sup.jobs[id]?).any fun job => !job.started then
        some { state with sup := { state.sup with
          jobs := state.sup.jobs.modify id fun job => { job with started := true } } }
      else none
  | _ => some state

def note (op : Op) (wait : Wait) : Except Error wait.Reply → Option Event
  | .ok _ => none
  | .error error =>
      match wait with
      | .probe _ | .settled _ => some (.rethrown op error)
      | _ => some (.interrupted op error)

end Host

/-- One gateway process. -/
def gateway (config : Config) : System gatewaySignature where
  Op := Op
  Value := Value
  Move := Move
  body := Supervisor.serve config
  accept := Host.accept
  deliver := Host.deliver config
  note := Host.note
  disturb := fun move state => (move.apply config state.os).map fun os => { state with os }

/-- The locks that a new process finds are held by others. -/
def Os.inherited (os : Os) : Os :=
  { os with leases := os.leases.map fun lease => { lease with foreign := true } }

/-- The state of a gateway that has just been started on what it finds. -/
def State.boot (os : Os) : State := { os := os.inherited }

/-- The runs of a gateway from its start. -/
def gatewayRun (config : Config) (os : Os) (choices : List (Choice (gateway config))) :
    Option (Loop (gateway config)) :=
  (Loop.initial (gateway config) (State.boot os)).run choices

end Pazuzu
