import Pazuzu.Asyncio.Solo
import Pazuzu.Errors

/-! `GatewayServer.serve` from its first accepted connection on: the request,
maintenance and probe tasks around it are the surroundings, and the shutdown is
the coroutine. -/
namespace Pazuzu.Serve

open Asyncio

inductive Kind where
  | request
  | maintenance
  | probe
  deriving DecidableEq

/-- A request is `leaving` from the cancellation of its handler until this
cancels what it dispatched; `ended` has the exception a task ended with, if any. -/
inductive Status where
  | running
  | leaving
  | cancelling
  | ended (error : Option Error)
  deriving DecidableEq

def Status.isEnded : Status → Bool
  | .ended _ => true
  | _ => false

/-- Whether the task goes on with its own code. -/
def Status.goesOn : Status → Bool
  | .running | .leaving => true
  | _ => false

structure Task where
  kind : Kind
  status : Status
  deriving DecidableEq

/-- `RuntimeError`, or an exception that a task ended with. -/
inductive Raised where
  | runtimeError (message : String)
  | error (error : Error)

/-- What the shutdown meets. -/
inductive Happening where
  | forgetting (probes spawning : List Nat)
  | joined (error : Option Error)
  | masterStopped (error : Option Error)

/-- The tasks so far, by number; `flight` is the remembered probe with its
epoch, `awaiting` are the tasks with the probes they have waited for, and
`spawning` are the tasks whose thread is about to start a master. -/
structure State where
  tasks : List Task := []
  maintainer : Option Nat := none
  flight : Option (Nat × Nat) := none
  epoch : Nat := 0
  awaiting : List (Nat × Nat) := []
  spawning : List Nat := []
  stopEvent : Bool := false
  preserveMaster : Bool := false
  closing : Bool := false
  unlinked : Bool := false
  journal : List Happening := []

def State.note (state : State) (happening : Happening) : State :=
  { state with journal := happening :: state.journal }

def State.status (state : State) (id : Nat) : Option Status := (state.tasks[id]?).map Task.status

def Task.cancel (task : Task) : Task :=
  if task.status.goesOn then { task with status := .cancelling } else task

/-- The handler of a request is cancelled. -/
def Task.leave (task : Task) : Task :=
  if task.kind = .request ∧ task.status = .running then { task with status := .leaving } else task

/-- `Task.cancel`, which does nothing to a task that is done. -/
def State.cancel (state : State) (id : Nat) : State :=
  { state with tasks := state.tasks.modify id Task.cancel }

/-- The numbers of the probes that run and are not the remembered one. -/
def State.forgotten (state : State) : List Nat :=
  (List.range state.tasks.length).filter fun id =>
    match state.tasks[id]? with
    | some task => task.kind = .probe ∧ task.status.isEnded = false ∧ (state.flight.map Prod.snd) ≠ some id
    | none => false

/-- `watch` waits for the stop event or the maintenance task and says whether
the event is set; `join` awaits a task. -/
inductive Wait where
  | watch
  | gatherClients
  | waitClosed
  | join (id : Nat)
  | repairLock
  | stopMaster

abbrev Wait.Reply : Wait → Type
  | .watch => Bool
  | .gatherClients | .waitClosed | .join _ | .repairLock | .stopMaster => Unit

abbrev signature : Signature := ⟨State, Wait, Wait.Reply, Raised, Empty⟩

abbrev Py := Coro signature

def wait (wait : Wait) : Py wait.Reply := @Coro.suspend signature wait

def get : Py State := @Coro.get signature

def update (f : State → State) : Py Unit := @Coro.update signature f

def raise {α : Type} (raised : Raised) : Py α := @Coro.raise signature α raised

/-- `OpenSshSupervisor.start`. -/
def start : Py Unit := update fun state =>
  { state with
    tasks := state.tasks ++ [⟨.maintenance, .running⟩]
    maintainer := some state.tasks.length }

/-- Cancel a task and await it, with a cancellation suppressed. -/
def reap : Option Nat → Py Unit
  | none => return ()
  | some id => do
      update fun state => state.cancel id
      Coro.tryCatch (wait (.join id)) fun
        | .error .cancelled => return ()
        | raised => raise raised

/-- `OpenSshSupervisor._stop_maintenance`. -/
def stopMaintenance : Py Unit := do
  let state ← get
  update fun state =>
    { state.note (.forgetting state.forgotten state.spawning) with maintainer := none, flight := none }
  reap state.maintainer
  reap (state.flight.map Prod.snd)

/-- `OpenSshSupervisor.close`. -/
def close : Py Unit := do
  stopMaintenance
  wait .repairLock
  wait .stopMaster

/-- `OpenSshSupervisor.detach`. -/
def detach : Py Unit := stopMaintenance

/-- Stop the supervisor, with its master or without. -/
def stopSupervisor (preserveMaster : Bool) : Py Unit := if preserveMaster then detach else close

/-- What `serve` does until it is stopped. -/
def watch : Py Unit := do
  if ← wait .watch then return ()
  else
    let state ← get
    match state.maintainer.bind state.status with
    | some (.ended (some error)) => raise (.error error)
    | _ => raise (.runtimeError "SSH maintenance stopped unexpectedly")

/-- The `finally` of `serve`. -/
def shutdown : Py Unit := do
  update fun state =>
    { state with
      closing := true
      tasks := state.tasks.map Task.leave }
  wait .gatherClients
  wait .waitClosed
  let state ← get
  stopSupervisor state.preserveMaster
  update fun state => { state with unlinked := true }

/-- `serve` from the start of its supervisor on. -/
def serve : Py Unit := do
  start
  Coro.tryFinally watch shutdown

def deliver : (wait : Wait) → Except Raised wait.Reply → State → Option State
  | .watch, .ok stopped, state =>
      if stopped then if state.stopEvent then some state else none
      else if (state.maintainer.bind state.status).any Status.isEnded then some state else none
  | .gatherClients, .ok _, state =>
      if state.tasks.all fun task => task.kind ≠ .request ∨ task.status.isEnded then some state else none
  | .waitClosed, .ok _, state => some state
  | .join id, .ok _, state =>
      if state.status id = some (.ended none) then some (state.note (.joined none)) else none
  | .join id, .error (.error error), state =>
      if state.status id = some (.ended (some error)) then some (state.note (.joined (some error)))
      else none
  | .repairLock, .ok _, state => some state
  | .stopMaster, .ok _, state => some (state.note (.masterStopped none))
  | .stopMaster, .error (.error error), state => some (state.note (.masterStopped (some error)))
  | _, _, _ => none

/-- What the tasks do while `serve` waits. A request is cancelled when its client
is gone, or in the turn its cancelled handler gets; a cancelled task only ends. -/
inductive Move where
  | accept
  | disconnect (id : Nat)
  | handle (id : Nat)
  | finish (id : Nat) (error : Option Error)
  | probe (id : Nat)
  | repair (id : Nat)
  | spawn (id : Nat)
  | spawned (id : Nat)
  | stop (preserveMaster : Bool)

/-- The task is a request or the maintenance and has not been cancelled. -/
def State.goesOn (state : State) (id : Nat) : Bool :=
  match state.tasks[id]? with
  | some task => task.kind ≠ .probe ∧ task.status.goesOn = true
  | none => false

/-- The task waits for a probe that is not done. -/
def State.awaits (state : State) (id : Nat) : Bool :=
  state.awaiting.any fun pair => pair.1 = id ∧ (state.status pair.2).any Status.isEnded = false

/-- Only such a task starts a probe, a repair or a master. -/
def State.works (state : State) (id : Nat) : Bool := state.goesOn id && !state.awaits id

/-- `_probe` shares the remembered probe unless its epoch is over or it is done. -/
def State.needsProbe (state : State) : Bool :=
  match state.flight with
  | none => true
  | some (epoch, id) => epoch ≠ state.epoch ∨ (state.status id).any Status.isEnded

def State.openProbe (state : State) : State :=
  { state with
    tasks := state.tasks ++ [⟨.probe, .running⟩]
    flight := some (state.epoch, state.tasks.length) }

/-- The task awaits the remembered probe, behind a shield. -/
def State.shield (state : State) (id : Nat) : State :=
  { state with awaiting := state.flight.toList.map (fun flight => (id, flight.2)) ++ state.awaiting }

def Task.finish (error : Option Error) (task : Task) : Task :=
  if task.status.isEnded then task else { task with status := .ended error }

def disturb : Move → State → Option State
  | .accept, state =>
      if state.closing then none else some { state with tasks := state.tasks ++ [⟨.request, .running⟩] }
  | .disconnect id, state =>
      if (state.tasks[id]?).any (fun task => task.kind = .request ∧ task.status = .running) then some (state.cancel id)
      else none
  | .handle id, state => if state.status id = some .leaving then some (state.cancel id) else none
  | .finish id error, state =>
      -- A task that was not cancelled waits for its thread and for its probe.
      if state.goesOn id = true ∧ (id ∈ state.spawning ∨ state.awaits id = true) then none
      else some { state with tasks := state.tasks.modify id (Task.finish error) }
  | .probe id, state =>
      if state.works id then some ((if state.needsProbe then state.openProbe else state).shield id) else none
  | .repair id, state => if state.works id then some { state with epoch := state.epoch + 1 } else none
  | .spawn id, state => if state.works id then some { state with spawning := id :: state.spawning } else none
  | .spawned id, state => some { state with spawning := state.spawning.erase id }
  | .stop preserveMaster, state => some { state with stopEvent := true, preserveMaster }

/-- The event loop runs the other tasks while `serve` waits. -/
abbrev surroundings : Surroundings signature where
  Move := Move
  preempts := false
  deliver := deliver
  disturb := disturb

end Pazuzu.Serve
