import Pazuzu.Asyncio.Solo
import Pazuzu.State

/-! Bounded local subprocesses, each the leader of a process group of its own.
The members of the group and the event loop's deadlines and cancellations are
the surroundings. -/
namespace Pazuzu.Process

open Asyncio Python

inductive Signal where
  | sigterm
  | sigkill
  deriving DecidableEq

/-- What happens to a run of one process. `living` is who was alive in its group
at that moment, `descendants` the same without its leader. -/
inductive Happening where
  | started
  | startCancelled (descendants : List Nat)
  | interrupted (returncode : Option Int) (living : List Nat)
  | graceEnded (living : List Nat)
  | signalled (signal : Signal)

/-- The group of `leader`, the return code the event loop knows, and what the
system will say to the next attempt to start a process. -/
structure State where
  leader : Nat := 0
  living : List Nat := []
  created : Bool := false
  returncode : Option Int := none
  launchError : Option String := none
  journal : List Happening := []

def State.note (state : State) (happening : Happening) : State :=
  { state with journal := happening :: state.journal }

def State.descendants (state : State) : List Nat := state.living.filter (· ≠ state.leader)

/-- `connect` is the rest of `create_subprocess_exec` after the launch, `grace`
the wait for the process with its two seconds, `cleanup` the last `gather`. -/
inductive Wait where
  | connect
  | processWait
  | readers
  | feeder
  | grace
  | cleanup

/-- The chunks a reader gets from one stream. -/
abbrev Chunks := List Bytes

abbrev Wait.Reply : Wait → Type
  | .processWait | .grace => Int
  | .readers => Chunks × Chunks
  | .connect | .feeder | .cleanup => Unit

abbrev signature : Signature := ⟨State, Wait, Wait.Reply, Error, Empty⟩

abbrev Py := Coro signature

def wait (wait : Wait) : Py wait.Reply := @Coro.suspend signature wait

def get : Py State := @Coro.get signature

def update (f : State → State) : Py Unit := @Coro.update signature f

def raise {α : Type} (error : Error) : Py α := @Coro.raise signature α error

/-- `_read_bounded`: what is kept of a stream's chunks, and whether some of it
was not. -/
def readBounded (limit : Nat) (chunks : Chunks) : Bytes × Bool :=
  chunks.foldl (fun (output, truncated) chunk =>
    let remaining := limit - output.length
    (output ++ chunk.take remaining, truncated || remaining < chunk.length)) ([], false)

/-- `os.killpg` on the process's group. No member outlives `SIGKILL`; what
`SIGTERM` does is up to each. -/
def killpg (signal : Signal) : Py Unit := update fun state =>
  { state.note (.signalled signal) with
    living := match signal with
      | .sigterm => state.living
      | .sigkill => [] }

/-- `stop_process`: terminate a process group, escalating after two seconds. -/
def stopProcess : Py Unit := do
  let state ← get
  if state.returncode.isSome then return ()
  else
    killpg .sigterm
    match ← (wait .grace).attempt with
    | .ok _ => return ()
    | .error .timeoutError =>
        killpg .sigkill
        let _ ← wait .processWait
        return ()
    | .error error => raise error

/-- `asyncio.create_subprocess_exec`. The process runs before the call first
waits; a cancellation from then on kills the leader and waits for it. -/
def createSubprocessExec : Py Unit := do
  let state ← get
  match state.launchError with
  | some message => raise (.osError message)
  | none =>
      update fun state => { state.note .started with living := [state.leader], created := true }
      match ← (wait .connect).attempt with
      | .ok _ => return ()
      | .error error =>
          update fun state => { state with living := state.descendants }
          let _ ← wait .processWait
          raise error

/-- The body under the deadline. -/
def communicate (outputLimit : Nat) : Py ProcessResult := do
  let returncode ← wait .processWait
  let (stdout, stderr) ← wait .readers
  wait .feeder
  let (stdout, stdoutTruncated) := readBounded outputLimit stdout
  let (stderr, stderrTruncated) := readBounded outputLimit stderr
  return ⟨returncode, stdout, stderr, stdoutTruncated, stderrTruncated⟩

/-- The cleanup after a deadline or a cancellation. -/
def cleanUp (error : Error) : Py ProcessResult := do
  update fun state => state.note (.interrupted state.returncode state.living)
  stopProcess
  wait .cleanup
  raise error

/-- `run_process`. -/
def runProcess (outputLimit : Nat) : Py ProcessResult := do
  createSubprocessExec
  Coro.tryCatch (communicate outputLimit) fun
    | .timeoutError => cleanUp .timeoutError
    | .cancelled => cleanUp .cancelled
    | error => raise error

/-- A wait under the deadline ends with its result, the deadline, a
cancellation or an error of a stream. -/
def deliver : (wait : Wait) → Except Error wait.Reply → State → Option State
  | .connect, .ok _, state => some state
  | .connect, .error .cancelled, state => some (state.note (.startCancelled state.descendants))
  | .processWait, .ok code, state => if state.returncode = some code then some state else none
  | .grace, .ok code, state =>
      if state.returncode = some code then some (state.note (.graceEnded state.living)) else none
  | .grace, .error .timeoutError, state => some state
  | .grace, .error .cancelled, state => some (state.note (.graceEnded state.living))
  | .readers, .ok _, state | .feeder, .ok _, state | .cleanup, .ok _, state => some state
  | .processWait, .error error, state | .readers, .error error, state | .feeder, .error error, state =>
      match error with
      | .timeoutError | .cancelled | .osError _ => some state
      | _ => none
  | .cleanup, .error .cancelled, state => some state
  | _, _, _ => none

inductive Move where
  | fork (parent child : Nat)
  | exit (pid : Nat)
  | reap (code : Int)
  | launchability (error : Option String)

def disturb : Move → State → Option State
  | .fork parent child, state =>
      if parent ∈ state.living ∧ child ∉ state.living ∧ child ≠ state.leader then
        some { state with living := child :: state.living }
      else none
  | .exit pid, state => some { state with living := state.living.filter (· ≠ pid) }
  | .reap code, state =>
      if state.created = true ∧ state.leader ∉ state.living ∧ state.returncode = none then
        some { state with returncode := some code }
      else none
  | .launchability error, state => some { state with launchError := error }

/-- The event loop and the group move while the coroutine waits. -/
abbrev surroundings : Surroundings signature where
  Move := Move
  preempts := false
  deliver := deliver
  disturb := disturb

end Pazuzu.Process
