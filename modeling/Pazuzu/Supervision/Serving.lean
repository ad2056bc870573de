import Pazuzu.Supervision.Walk

/-! A property of code that all parts of the gateway's calls have: then each
call has it from its first mark to its last. -/
namespace Pazuzu.Supervision

open Asyncio Supervisor

/-- Code may do all that the calls of the gateway are made of. -/
structure Dispatches (config : Config) (can : {α : Type} → Py α → Prop) : Prop extends Calls config can can where
  update : ∀ f : State → State, (∀ state, Spares state (f state)) → can (Coro.update f)
  record : ∀ (event : Event) (f : State → State), (∀ state, Spares state (f state)) → can (Coro.record event f)
  begin : can (wait .begin)
  settled : ∀ id, can (wait (.settled id))
  wake : ∀ deadline, can (wait (.wake deadline))
  never : can (never : Py Unit)
  fault : ∀ operation, can (fileOp operation)
  probe : can (Transport.probe config)
  reconnects : ∀ force respectBackoff, can (Supervisor.connect config force respectBackoff)
  stop : can (withLock .repair do
    Transport.stopMaster config
    Coro.update fun state => state.setState .stopped)

variable {config : Config} {can : {α : Type} → Py α → Prop}

namespace Dispatches

variable (h : Dispatches config can)

include h

theorem same {f : State → State} (hHolder : ∀ state, (f state).sup.repairLock.holder = state.sup.repairLock.holder)
    (hMaster : ∀ state, (f state).transport.master = state.transport.master) (hOs : ∀ state, (f state).os = state.os) :
    can (Coro.update f) :=
  h.update f fun state => ⟨hHolder state, by rw [hOs], hMaster state, Loses.of_same (by rw [hOs])⟩

theorem mark (event : Event) : can (Coro.mark event) := h.record event id Spares.refl

theorem upkeep : Upkeep config can where
  toCompositional := h.toCompositional
  never := h.never
  wake := h.wake
  setWake := fun _ => h.same (fun _ => rfl) (fun _ => rfl) fun _ => rfl
  notes := fun _ _ => h.mark _
  once := h.tryCatch (h.get fun _ => Compositional.ite (h.bind (h.repairIfBroken _) fun _ => h.pure _) (h.reconnects _ _))
    fun _ => Compositional.ite (h.pure _) (h.throw _)

theorem start : can (Supervisor.start config) :=
  h.get fun _ => h.when (h.bind (h.bind (h.fault _) fun _ => h.update _ fun _ => ⟨rfl, rfl, rfl, Loses.of_same rfl⟩)
    fun _ => h.same (fun _ => rfl) (fun _ => rfl) fun _ => rfl)

theorem reap (id : Option Nat) : can (reap id) := by
  cases id with
  | none => exact h.pure ()
  | some id =>
      refine h.bind (h.same (fun _ => rfl) (fun _ => rfl) fun _ => rfl) fun _ => h.tryCatch (h.settled id) fun error => ?_
      cases error <;> first | exact h.throw _ | exact h.pure ()

theorem stopMaintenance : can stopMaintenance :=
  h.get fun _ => h.bind (h.same (fun _ => rfl) (fun _ => rfl) fun _ => rfl) fun _ =>
    h.bind (h.reap _) fun _ => h.reap _

theorem close : can (close config) := h.bind h.stopMaintenance fun _ => h.stop

theorem detach : can detach :=
  h.bind h.stopMaintenance fun _ => h.bind (h.same (fun _ => rfl) (fun _ => rfl) fun _ => rfl) fun _ =>
    h.same (fun _ => rfl) (fun _ => rfl) fun _ => rfl

theorem runProbe (epoch : Nat) : can (runProbe config epoch) := by
  have hSpares : ∀ started outcome (state : State), Spares state (state.recordProbe started outcome) := by
    intro started outcome state
    unfold State.recordProbe
    dsimp only
    split <;> exact ⟨rfl, rfl, rfl, Loses.of_same rfl⟩
  exact h.get fun _ => h.bind h.probe fun _ => h.get fun _ =>
    h.bind (h.when (h.record _ _ fun state => hSpares _ _ state)) fun _ => h.pure _

theorem settle (id : Nat) (outcome : Except Error (Option ProbeOutcome)) :
    can (Coro.update fun state => state.settleJob id outcome) :=
  h.same (fun _ => rfl) (fun _ => rfl) fun _ => rfl

theorem runJob (id : Nat) : can (runJob config id) := by
  refine h.get fun state => ?_
  split
  · exact h.pure ()
  · refine h.bind (h.attempt (h.bind h.begin fun _ => h.runProbe _)) fun outcome => ?_
    cases outcome with
    | ok outcome => exact h.record _ _ fun _ => ⟨rfl, rfl, rfl, Loses.of_same rfl⟩
    | error error => exact h.settle id _
  · refine h.bind (h.attempt (h.bind h.begin fun _ => h.upkeep.maintain _)) fun outcome => ?_
    cases outcome with
    | ok outcome => exact h.settle id _
    | error error => exact h.settle id _

theorem dispatch (op : Op) : can (dispatch config op) := by
  cases op with
  | execute => exact h.bind (h.execute _ _ _ _) fun _ => h.pure _
  | transfer => exact h.bind (h.transfers _ _ _ _) fun _ => h.pure _
  | connectionAttachment => exact h.bind h.connectionAttachment fun _ => h.pure _
  | health => exact h.bind (h.health _) fun _ => h.pure _
  | reconnect force =>
      refine h.bind (h.bind (h.same (fun _ => rfl) (fun _ => rfl) fun _ => rfl) fun _ => h.reconnect force
        (fun _ => h.reconnects _ _) (h.reconnects _ _) (h.same (fun _ => rfl) (fun _ => rfl) fun _ => rfl)) fun _ => h.pure _
  | start => exact h.bind h.start fun _ => h.pure _
  | close => exact h.bind h.close fun _ => h.pure _
  | detach => exact h.bind h.detach fun _ => h.pure _
  | job id => exact h.bind (h.runJob id) fun _ => h.pure _

/-- A call, with its end on record. -/
theorem serve (op : Op) : can (serve config op) := by
  refine h.bind (h.mark _) fun _ => h.bind (h.attempt (h.dispatch op)) fun outcome => ?_
  cases outcome with
  | ok value => exact h.bind (h.mark _) fun _ => h.pure _
  | error error => exact h.bind (h.mark _) fun _ => h.throw _

end Dispatches
end Pazuzu.Supervision
