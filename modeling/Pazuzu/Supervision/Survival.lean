import Pazuzu.Supervision.Pause
import Pazuzu.Asyncio.Driving

/-! Whether maintenance outlives every failed attempt, however long the outage. -/
namespace Pazuzu.Supervision

open Asyncio Supervisor Coro

variable {config : Config}

section Runs

variable {os : Os} {choices : List (Choice (gateway config))} {final : Loop (gateway config)}
  {failure : Record} {rest : History}

end Runs

/-- No master is left and nobody repairs. -/
structure Down (state : State) : Prop where
  faults : ∀ operation, state.os.faults operation = none
  socket : state.os.controlSocket = none
  owner : state.os.owner = none
  master : state.transport.master = none

def unlaunched : (wait : Wait) → Except Error wait.Reply := fun _ => .error (.osError "")

structure Same (w v : GatewayWorld) : Prop where
  down : Down v.state
  started : v.started = w.started
  sup : v.state.sup = w.state.sup

section Outage

variable {op : Op} {task : Nat} {w : GatewayWorld} {α : Type}

theorem Same.trans {u v : GatewayWorld} (h : Same w u) (h' : Same u v) : Same w v :=
  ⟨h'.down, h'.started.trans h.started, h'.sup.trans h.sup⟩

end Outage

end Pazuzu.Supervision
