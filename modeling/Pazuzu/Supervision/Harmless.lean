import Pazuzu.Asyncio.Within
import Pazuzu.Supervision.Acting
import Pazuzu.Supervision.Serving

/-! The gateway's own code brings no master to life: one comes up only as the
answer to a spawn, or late from a spawn that was given up. -/
namespace Pazuzu.Supervision

open Asyncio Coro

abbrev Harmless {α : Type} (code : Py α) : Prop := code.Within Loses

variable (config : Config)

section Parts

open Pazuzu.Supervisor

theorem harmless_compositional : Compositional Harmless where
  pure := Within.pure
  throw := Within.raise
  read := fun hNext => hNext
  bind := Within.bind
  attempt := Within.attempt

theorem harmless_acts : Acts Harmless where
  toCompositional := harmless_compositional
  update := fun _ h => Within.update h
  record := fun _ _ _ h => Within.record h
  wait := fun w => Within.suspend (G := gatewaySignature) w

theorem harmless_update {f : State → State} (h : ∀ state, (f state).os.masters = state.os.masters) :
    Harmless (Coro.update f) :=
  harmless_acts.same h

theorem harmless_mark (event : Event) : Harmless (Coro.mark event) := Within.mark Loses.refl

theorem harmless_wait (w : Wait) : Harmless (wait w) := harmless_acts.wait w

theorem harmless_checks : Checks config Harmless Harmless where
  toCompositional := harmless_compositional
  repairs := harmless_acts.mends.repairs
  lock := harmless_acts.withLock .repair none
  note := fun event _ _ => harmless_mark event
  controlCheck := harmless_acts.talks.controlCheck
  shared := harmless_acts.probe

theorem harmless_calls : Calls config Harmless Harmless where
  toCompositional := harmless_compositional
  inside := harmless_compositional
  controlCheck := harmless_acts.talks.controlCheck
  connect := (harmless_checks config).connect _ _
  check := (harmless_checks config).check
  hold := harmless_acts.hold
  heldCheck := harmless_acts.talks.controlCheck
  heldConnect := (harmless_checks config).connect _ _
  story := fun event _ => harmless_mark event
  session := fun _ _ _ _ => harmless_acts.talks.session _ _ _ (harmless_mark _)
  transfer := harmless_acts.talks.runTransfer

theorem harmless_serves : Dispatches config Harmless where
  toCalls := harmless_calls config
  update := fun _ h => Within.update fun state => (h state).masters
  record := fun _ _ h => Within.record fun state => (h state).masters
  begin := harmless_wait _
  settled := fun _ => harmless_wait _
  wake := fun _ => harmless_wait _
  never := harmless_acts.never
  fault := harmless_acts.fault
  probe := harmless_acts.polls.probe
  reconnects := (harmless_checks config).connect
  stop := harmless_acts.withLock _ _ (harmless_acts.mends.stopMaster.bind fun _ => harmless_update fun _ => rfl)

theorem harmless_serve (op : Op) : Harmless (serve config op) := (harmless_serves config).serve op

end Parts
end Pazuzu.Supervision
