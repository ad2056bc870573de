import Pazuzu.Supervision.Walk

/-! A property of code that whatever is done between the marks of a story has:
which functions of the gateway have it then. -/
namespace Pazuzu

open Asyncio Supervisor

theorem Event.story_of_minor {event : Event} (h : event.isMinor = true) : event.isStory = false := by
  cases event <;> first | rfl | cases h

namespace Supervision

variable {config : Config} {can : {α : Type} → Py α → Prop} {α : Type}

/-- Code may wait for anything, and do what brings no master to life and is no
part of a story. -/
structure Acts (can : {α : Type} → Py α → Prop) : Prop extends Compositional can where
  update : ∀ f : State → State, (∀ state, Loses state (f state)) → can (Coro.update f)
  record : ∀ (event : Event) (f : State → State), event.isStory = false →
    (∀ state, Loses state (f state)) → can (Coro.record event f)
  wait : ∀ w : Wait, can (wait w)

namespace Acts

variable (h : Acts can)

include h

theorem mark (event : Event) (hStory : event.isStory = false) : can (Coro.mark event) :=
  h.record event id hStory Loses.refl

theorem same {f : State → State} (hSame : ∀ state, (f state).os.masters = state.os.masters) :
    can (Coro.update f) :=
  h.update f fun state => Loses.of_same (hSame state)

theorem never : can (never : Py α) :=
  h.bind (h.wait .never) fun impossible => nomatch impossible

theorem sleep (seconds : ℚ) (deadline : Option ℚ) : can (sleep seconds deadline) :=
  h.get fun _ => h.wait _

theorem setLock (name : LockName) (f : Lock → Lock) :
    can (Coro.update fun state => state.setLock name (f (state.lock name))) :=
  h.same fun _ => by cases name <;> rfl

theorem withLock (name : LockName) {body : Py α} (deadline : Option ℚ) (hBody : can body) :
    can (withLock name body deadline) := by
  refine h.bind (h.current fun me => h.get fun state => Compositional.ite ?_ ?_) fun _ =>
    h.tryFinally hBody (h.setLock name fun lock => { lock with holder := none })
  · exact h.setLock name fun lock => { lock with holder := some me }
  · exact h.bind (h.setLock name fun lock => { lock with waiters := lock.waiters ++ [me] }) fun _ =>
      h.bind (h.tryFinally (h.wait _) (h.setLock name fun lock =>
        { lock with waiters := lock.waiters.erase me })) fun _ =>
      h.setLock name fun lock => { lock with holder := some me }

theorem talks : Talks can where
  toCompositional := h.toCompositional
  mark := fun event hMinor _ => h.mark event (Event.story_of_minor hMinor)
  launch := fun _ => h.wait _
  process := fun _ _ _ _ => h.wait _

theorem fault (operation : FileOp) : can (fileOp operation) := by
  refine h.get fun state => ?_
  split
  · exact h.pure ()
  · exact h.bind (h.mark (.fault operation) rfl) fun _ => h.throw _

theorem release (lease : SessionLease) : can lease.release :=
  h.record _ _ rfl fun _ => Loses.of_same rfl

theorem polls : Polls can where
  toTalks := h.talks
  fault := h.fault
  sleep := h.sleep
  never := h.never
  take := fun _ _ => h.record _ _ rfl fun _ => Loses.of_same rfl
  release := h.release

theorem mends : Mends config can where
  toAttends := h.polls.attends fun _ => h.wait _
  update := fun f hAside => h.update f fun state => (hAside state).masters
  begins := h.mark _ rfl
  connects := h.record _ _ rfl fun _ => Loses.of_same rfl
  record := fun event f _ hStory hAside => h.record event f hStory fun state => (hAside state).masters
  spawn := fun _ => h.wait _

theorem connect (force respectBackoff : Bool) : can (connect config force respectBackoff) :=
  h.withLock .repair none (h.mends.repairs.connectLocked force respectBackoff)

theorem probe : can Supervisor.probe := by
  refine h.bind (h.get fun state => ?_) fun _ => h.wait _
  split
  · exact h.pure _
  · exact h.bind (h.same fun _ => rfl) fun _ => h.pure _

theorem checkMaster (generation : Nat) : can (checkMaster config generation) :=
  can_checkMaster h.toCompositional generation (fun _ => h.mark _ rfl) h.probe
    fun _ _ => h.withLock .repair none (h.mends.repairs.checkLocked _ _ _)

theorem ensureConnected : can (ensureConnected config) :=
  can_ensureConnected h.toCompositional true h.talks.controlCheck (h.connect false true)

/-- The wait for a slot. -/
theorem admission (timeout : ℚ) : can (admission config timeout) := by
  refine h.bind (h.record _ _ rfl fun _ => Loses.of_same rfl) fun _ => h.get fun _ => h.tryFinally
    (h.tryCatch (h.withLock _ _ (h.polls.acquireAsync _ _ _)) fun error => ?_) (h.same fun _ => rfl)
  cases error with
  | timeoutError => exact h.get fun _ => h.throw _
  | _ => exact h.throw _

/-- What is done with a slot when it is no longer needed. -/
theorem leave (lease : SessionLease) :
    can (do Coro.update State.dropActive; lease.release) :=
  h.bind (h.same fun _ => rfl) fun _ => h.release lease

theorem hold (timeout : ℚ) {body : Py α} (hBody : can body) : can (hold config timeout body) :=
  h.bind (h.admission timeout) fun lease => h.bind (h.same fun _ => rfl) fun _ =>
    h.tryFinally hBody (h.leave lease)

end Acts
end Supervision
end Pazuzu
