import Pazuzu.Flock
import Pazuzu.Lease

/-! The clients of one control path, each in a process of its own or in the
gateway's. They take their leases from the same slot files and coordinate
through the locks alone: a pass over the files can be interrupted by any other
client between two files. -/
namespace Pazuzu.Sessions

/-- What a lease is for. -/
inductive Use where
  | operation
  | bridge
  | probe
  deriving DecidableEq, Repr

/-- An open slot file: whose it is, and from which budget its slots came. -/
structure Client where
  process : Nat
  use : Use
  budget : SessionBudget
  handle : Nat

/-- A call of `_try_acquire` with the slot files it has still to try. -/
structure Attempt where
  process : Nat
  use : Use
  budget : SessionBudget
  rest : List SlotFile

structure State where
  leases : Flock.Table SlotFile Client := []
  attempts : List Attempt := []
  nextHandle : Nat := 0

/-- The pool that a client of a budget takes its lease from. -/
def poolOf (budget : SessionBudget) : Use → Except Error SessionLeasePool
  | .operation => .ok budget.operations
  | .bridge => budget.bridges
  | .probe => .ok budget.probes

/-- What a process does, or what happens to it. -/
inductive Action where
  | acquire (process : Nat) (use : Use)
  | proceed (attempt : Nat)
  | abort (attempt : Nat)
  | release (handle : Nat)
  | exit (process : Nat)

namespace State

/-- Begin a pass over the slot files, unless the pool cannot be made. -/
def acquire (state : State) (budget : SessionBudget) (process : Nat) (use : Use) : State :=
  match poolOf budget use with
  | .ok pool =>
      { state with attempts := state.attempts ++ [⟨process, use, budget, pool.files⟩] }
  | .error _ => state

/-- Open the next slot file and try its lock. A lock that is held leaves the
rest of the pass, and a pass without files left has found no slot. -/
def proceed (state : State) (index : Nat) : State :=
  match state.attempts[index]? with
  | none => state
  | some ⟨_, _, _, []⟩ => { state with attempts := state.attempts.eraseIdx index }
  | some ⟨process, use, budget, file :: rest⟩ =>
      match state.leases.tryLock file ⟨process, use, budget, state.nextHandle⟩ with
      | some leases =>
          { leases, attempts := state.attempts.eraseIdx index, nextHandle := state.nextHandle + 1 }
      | none => { state with attempts := state.attempts.set index ⟨process, use, budget, rest⟩ }

/-- `SessionLease.release`. A handle is never used again, so releasing a lease
a second time finds nothing to unlock. -/
def release (state : State) (handle : Nat) : State :=
  { state with leases := state.leases.drop fun client => client.handle == handle }

/-- The kernel closes the files of a process that ends in whatever way. -/
def exit (state : State) (process : Nat) : State :=
  { state with
    leases := state.leases.drop fun client => client.process == process
    attempts := state.attempts.filter fun attempt => attempt.process ≠ process }

/-- Whether a process has neither a lease nor a pass under way. -/
def isIdle (state : State) (process : Nat) : Bool :=
  (state.leases.all fun entry => entry.2.process ≠ process) &&
    state.attempts.all fun attempt => attempt.process ≠ process

/-- A pass may also end with an `OSError`; its file is closed with it. -/
def perform (budget : SessionBudget) (state : State) : Action → State
  | .acquire process use => state.acquire budget process use
  | .proceed attempt => state.proceed attempt
  | .abort attempt => { state with attempts := state.attempts.eraseIdx attempt }
  | .release handle => state.release handle
  | .exit process => state.exit process

end State

/-- A control path: its sessions, the budget published there, the running
gateway and the running bridges, each with the budget it divides. -/
structure Control where
  sessions : State := {}
  published : Option Nat := none
  gateway : Option (Nat × SessionBudget) := none
  bridges : List (Nat × SessionBudget) := []

inductive Control.Step where
  | startGateway (process : Nat) (maxSessions : Nat)
  | startBridge (process : Nat) (default : Nat)
  | operate (use : Use)
  | seek (bridge : Nat)
  | proceed (attempt : Nat)
  | abort (attempt : Nat)
  | release (handle : Nat)
  | exit (process : Nat)

namespace Control

/-- A gateway publishes its budget and takes operation and probe slots; there
is one at a time. A bridge reads its budget once and seeks a slot until it has
one. -/
def step (control : Control) : Step → Control
  | .startGateway process maxSessions =>
      if control.gateway.isNone ∧ 2 ≤ maxSessions ∧ maxSessions ≤ 64 then
        { control with published := some maxSessions, gateway := some (process, ⟨maxSessions⟩) }
      else control
  | .startBridge process default =>
      if 2 ≤ default ∧ default ≤ 64 then
        { control with
          bridges := (process, SessionBudget.published control.published default) :: control.bridges }
      else control
  | .operate use =>
      match control.gateway, use with
      | none, _ | _, .bridge => control
      | some (process, budget), use =>
          { control with sessions := control.sessions.acquire budget process use }
  | .seek bridge =>
      match control.bridges[bridge]? with
      | none => control
      | some (process, budget) =>
          if control.sessions.isIdle process then
            { control with sessions := control.sessions.acquire budget process .bridge }
          else control
  | .proceed attempt => { control with sessions := control.sessions.proceed attempt }
  | .abort attempt => { control with sessions :=
      { control.sessions with attempts := control.sessions.attempts.eraseIdx attempt } }
  | .release handle => { control with sessions := control.sessions.release handle }
  | .exit process =>
      { control with
        sessions := control.sessions.exit process
        gateway := control.gateway.filter fun gateway => gateway.1 ≠ process
        bridges := control.bridges.filter fun bridge => bridge.1 ≠ process }

def run (control : Control) (steps : List Step) : Control := steps.foldl step control

end Control
end Pazuzu.Sessions
