import Pazuzu.Runtime

/-! Leases for the SSH channels that share one master. A lease is a held lock
on a slot file; the kernel knows the holders, so other processes can take and
free slots between any two steps of the gateway. -/
namespace Pazuzu

open Asyncio

/-- A pool of slot files with consecutive indices. -/
structure SessionLeasePool where
  size : Nat
  startSlot : Nat := 0
  kind : SlotKind := .slot

namespace SessionLeasePool

def files (pool : SessionLeasePool) : List SlotFile :=
  (List.range pool.size).map fun offset => ⟨pool.kind, pool.startSlot + offset⟩

/-- The first slot file that nobody holds. -/
def firstFree (pool : SessionLeasePool) (leases : List SessionLease) : Option SlotFile :=
  pool.files.find? fun file => leases.all fun lease => lease.file ≠ file

end SessionLeasePool

/-- How one master's sessions are divided between its clients. -/
structure SessionBudget where
  maxSessions : Nat

namespace SessionBudget

/-- Slots shared by gateway operations and bridges. -/
def operations (budget : SessionBudget) : SessionLeasePool := { size := budget.maxSessions - 1 }

/-- The operation slots a bridge may hold, always leaving one for the gateway. -/
def bridges (budget : SessionBudget) : Except Error SessionLeasePool :=
  if budget.maxSessions < 3 then
    .error (.valueError "bridges need max_sessions of at least 3")
  else .ok { size := budget.maxSessions - 2 }

/-- The budget the gateway last published, or `default` before any has. The
content is the number in the file, `none` without a file that holds one. -/
def published (content : Option Nat) (default : Nat) : SessionBudget :=
  let value := content.getD default
  ⟨if 2 ≤ value ∧ value ≤ 64 then value else default⟩

/-- The one slot reserved for health probes. -/
def probes (_ : SessionBudget) : SessionLeasePool := { size := 1, kind := .probe }

/-- Record this gateway's budget so bridges divide it the same way. -/
def publish (budget : SessionBudget) : Py Unit := do
  fileOp .publishBudget
  Coro.update fun state =>
    { state with os := { state.os with published := some budget.maxSessions } }

end SessionBudget

def Os.grant (os : Os) (file : SlotFile) (foreign : Bool := false) : Os :=
  { os with leases := ⟨file, os.nextLease, foreign⟩ :: os.leases, nextLease := os.nextLease + 1 }

def Os.free (os : Os) (lease : SessionLease) : Os :=
  { os with leases := os.leases.filter fun other => other ≠ lease }

namespace SessionLeasePool

/-- `_try_acquire`: one pass over the slot files. -/
def tryAcquire (pool : SessionLeasePool) : Py (Option SessionLease) := do
  fileOp .openSlot
  let state ← Coro.get
  match pool.firstFree state.os.leases with
  | none => return none
  | some file =>
      let lease := { file, id := state.os.nextLease }
      Coro.record (.leaseTaken lease) fun state => { state with os := state.os.grant file }
      return some lease

/-- Poll for a free slot until the pool's own deadline. -/
def poll (pool : SessionLeasePool) (deadline scope : Option ℚ) : Nat → Py SessionLease
  | 0 => never
  | rounds + 1 => do
      match ← pool.tryAcquire with
      | some lease => return lease
      | none =>
          let state ← Coro.get
          if deadline.any fun due => due ≤ state.os.clock then
            Coro.raise .timeoutError
          else
            sleep (1 / 20) scope
            pool.poll deadline scope rounds

/-- `acquire_async`, inside a scope with its own deadline. -/
def acquireAsync (config : Config) (pool : SessionLeasePool) (timeout : Option ℚ)
    (scope : Option ℚ := none) : Py SessionLease := do
  fileOp .makeLeaseDirectory
  let state ← Coro.get
  pool.poll (timeout.map (state.os.clock + ·)) scope config.rounds

end SessionLeasePool

/-- `SessionLease.release`, which does nothing the second time. -/
def SessionLease.release (lease : SessionLease) : Py Unit :=
  Coro.record (.leaseReleased lease) fun state => { state with os := state.os.free lease }

end Pazuzu
