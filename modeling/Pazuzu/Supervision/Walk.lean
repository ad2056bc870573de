import Pazuzu.Asyncio.Compositional
import Pazuzu.Supervision.History

/-! The functions of the gateway, part by part. A property that control flow
preserves holds of a function once it holds of the actions, the waits and the
locks it is made of; which of them a function is made of is worked out here,
once for all such properties. -/
namespace Pazuzu

open Asyncio

/-- The events that count for the queue and the leases. -/
def Event.isLeasing : Event → Bool
  | .slotWanted | .leaseTaken _ | .leaseReleased _ | .fault .openSlot | .fault .makeLeaseDirectory => true
  | _ => false

/-- The events of a session or a transfer, with a slot held. -/
def Event.isSession : Event → Bool
  | .sessionCalled _ _ | .sessionStarted _ | .sessionEnded _ _ | .transferCalled _ => true
  | _ => false

namespace Supervision

/-- Every master alive afterwards was there before. -/
def Loses (before after : State) : Prop :=
  ∀ master ∈ after.os.masters, master.alive = true → master ∈ before.os.masters

theorem Loses.of_same {before after : State} (h : after.os.masters = before.os.masters) :
    Loses before after := fun _ hMaster _ => h ▸ hMaster

theorem Loses.refl (state : State) : Loses state state := Loses.of_same rfl

theorem Loses.kill (state : State) (pid : Nat) :
    Loses state { state with os := Transport.Os.kill state.os pid } := by
  intro master hMaster hAlive
  obtain ⟨old, hOld, rfl⟩ := List.mem_map.mp hMaster
  split at hAlive
  · cases hAlive
  · next hPid => rwa [if_neg hPid]

/-- Away from the locks, the leases and the created tasks, with no master
coming to life. -/
structure Aside (before after : State) : Prop where
  lock : after.sup.repairLock = before.sup.repairLock
  jobs : after.sup.jobs = before.sup.jobs
  slots : after.slots = before.slots
  leases : after.os.leases = before.os.leases
  nextLease : after.os.nextLease = before.os.nextLease
  masters : Loses before after

theorem Aside.of_same {before after : State} (hSup : after.sup.repairLock = before.sup.repairLock)
    (hJobs : after.sup.jobs = before.sup.jobs) (hSlots : after.slots = before.slots)
    (hLeases : after.os.leases = before.os.leases) (hNext : after.os.nextLease = before.os.nextLease)
    (hMasters : after.os.masters = before.os.masters) : Aside before after :=
  ⟨hSup, hJobs, hSlots, hLeases, hNext, Loses.of_same hMasters⟩

/-- Neither the repair lock, the receipt nor the field for the master has
changed, and no master has come to life. -/
structure Spares (before after : State) : Prop where
  holder : after.sup.repairLock.holder = before.sup.repairLock.holder
  owner : after.os.owner = before.os.owner
  master : after.transport.master = before.transport.master
  masters : Loses before after

theorem Loses.trans {first second third : State} (h : Loses first second) (h' : Loses second third) :
    Loses first third := fun master hMaster hAlive => h master (h' master hMaster hAlive) hAlive

theorem Spares.refl (state : State) : Spares state state := ⟨rfl, rfl, rfl, Loses.refl state⟩

theorem Spares.trans {first second third : State} (h : Spares first second) (h' : Spares second third) :
    Spares first third :=
  ⟨h'.holder.trans h.holder, h'.owner.trans h.owner, h'.master.trans h.master, h.masters.trans h'.masters⟩

variable (config : Config)

/-- Code may talk to processes. -/
structure Talks (can : {α : Type} → Py α → Prop) : Prop extends Compositional can where
  mark : ∀ event : Event, event.isMinor = true → event.isLeasing = false → can (Coro.mark event)
  launch : ∀ argv, can (wait (.launch argv))
  process : ∀ argv stdin deadline limit, can (wait (.process argv stdin deadline limit))

/-- Code may also wait for a lease, take it and give it back. -/
structure Polls (can : {α : Type} → Py α → Prop) : Prop extends Talks can where
  fault : ∀ operation, can (fileOp operation)
  sleep : ∀ seconds deadline, can (sleep seconds deadline)
  never : ∀ {α : Type}, can (never : Py α)
  take : ∀ lease file, can (Coro.record (.leaseTaken lease) fun state => { state with os := state.os.grant file })
  release : ∀ lease : SessionLease, can lease.release

/-- Code may also wait for a master and probe it. -/
structure Attends (can : {α : Type} → Py α → Prop) : Prop extends Talks can where
  sleep : ∀ seconds, can (sleep seconds)
  never : ∀ {α : Type}, can (never : Py α)
  recorded : ∀ pid, can (wait (.isRecordedMaster pid))
  probe : can (Transport.probe config)

/-- Nothing but the supervisor's own fields has changed, and of these neither
the lock nor the created tasks. -/
structure Booked (before after : State) : Prop where
  lock : after.sup.repairLock = before.sup.repairLock
  jobs : after.sup.jobs = before.sup.jobs
  transport : after.transport = before.transport
  slots : after.slots = before.slots
  os : after.os = before.os

theorem Booked.aside {before after : State} (h : Booked before after) : Aside before after :=
  Aside.of_same h.lock h.jobs h.slots (by rw [h.os]) (by rw [h.os]) (by rw [h.os])

/-- Code may also decide on a repair and have the master replaced. -/
structure Repairs (can : {α : Type} → Py α → Prop) : Prop extends Attends config can where
  enter : ∀ (event : Event) (f : State → State), event.isLeasing = false → event.isStory = false →
    (∀ state, Booked state (f state)) → can (Coro.record event f)
  replace : can (Supervisor.replaceMaster config)

/-- Code may also start and stop masters, and enter a new one. -/
structure Starts (can : {α : Type} → Py α → Prop) : Prop extends Attends config can where
  update : ∀ f : State → State, (∀ state, Aside state (f state)) → can (Coro.update f)
  begins : can (Coro.mark Event.startMasterCalled)
  connects : can (Coro.record .masterConnected State.recordConnected)
  spawn : ∀ argv, can (wait (.spawnMaster argv))

/-- Code may also keep the supervisor's books. -/
structure Mends (can : {α : Type} → Py α → Prop) : Prop extends Starts config can where
  record : ∀ (event : Event) (f : State → State), event.isLeasing = false → event.isStory = false →
    (∀ state, Aside state (f state)) → can (Coro.record event f)

section Transport

open Pazuzu.Transport

variable {config} {can : {α : Type} → Py α → Prop}

namespace Talks

variable (h : Talks can)

include h

theorem fileOp (operation : FileOp) (hOperation : (Event.fault operation).isLeasing = false) :
    can (fileOp operation) := by
  refine h.get fun state => ?_
  split
  · exact h.pure ()
  · next message _ => exact h.bind (h.mark (.fault operation) rfl hOperation) fun _ => h.throw _

theorem runProcess (argv : List String) (stdin : Python.Bytes) (timeout : ℚ) (limit : Nat)
    {started : Py Unit} (hStarted : can started) : can (runProcess argv stdin timeout limit started) :=
  h.bind (h.launch argv) fun _ => h.bind hStarted fun _ => h.get fun _ => h.process _ _ _ _

theorem controlCommand (operation : String) : can (controlCommand config operation) :=
  h.tryCatch (h.runProcess _ _ _ _ (h.pure ())) fun error => by
    cases error <;> first | exact h.pure _ | exact h.throw _

theorem controlCheck : can (controlCheck config) :=
  h.bind (h.fileOp _ rfl) fun _ => h.get fun _ => Compositional.ite (h.bind (h.mark _ rfl rfl) fun _ => h.pure _)
    (h.bind (h.controlCommand _) fun _ => h.bind (h.mark _ rfl rfl) fun _ => h.pure _)

theorem session (command : String) (stdin : Python.Bytes) (timeout : ℚ) {started : Py Unit}
    (hStarted : can started) : can (session config command stdin timeout started) :=
  h.tryCatch (h.runProcess _ _ _ _ hStarted) fun error => by cases error <;> exact h.throw _

theorem probeSession : can (probeSession config) :=
  h.tryCatch (h.bind (h.session _ _ _ (h.mark _ rfl rfl)) fun _ => h.pure _) fun error => by
    cases error <;> first | exact h.pure _ | exact h.throw _

theorem runTransfer (argv : List String) (timeout : ℚ) (limit : Nat) : can (runTransfer argv timeout limit) :=
  Compositional.ite (h.throw _) (h.tryCatch (h.runProcess _ _ _ _ (h.pure ())) fun error => by
    cases error <;> exact h.throw _)

theorem raiseIfMasterExited : can raiseIfMasterExited :=
  h.get fun _ => h.when (h.throw _)

end Talks

namespace Polls

variable (h : Polls can)

include h

theorem tryAcquire (pool : SessionLeasePool) : can pool.tryAcquire := by
  refine h.bind (h.fault _) fun _ => h.get fun state => ?_
  split
  · exact h.pure none
  · exact h.bind (h.take _ _) fun _ => h.pure _

theorem poll (pool : SessionLeasePool) (deadline scope : Option ℚ) (rounds : Nat) :
    can (pool.poll deadline scope rounds) := by
  induction rounds with
  | zero => exact h.never
  | succ rounds ih =>
      refine h.bind (h.tryAcquire pool) fun lease => ?_
      cases lease with
      | some lease => exact h.pure lease
      | none => exact h.get fun _ => Compositional.ite (h.throw _) (h.bind (h.sleep _ _) fun _ => ih)

theorem acquireAsync (pool : SessionLeasePool) (timeout scope : Option ℚ) :
    can (pool.acquireAsync config timeout scope) :=
  h.bind (h.fault _) fun _ => h.get fun _ => h.poll _ _ _ _

theorem probe : can (Transport.probe config) := by
  refine h.bind (h.attempt (h.acquireAsync _ _ _)) fun lease => ?_
  split
  · exact h.bind (h.mark _ rfl rfl) fun _ => h.pure _
  · exact h.throw _
  · exact h.bind (h.tryFinally h.probeSession (h.release _)) fun _ =>
      h.bind (h.mark _ rfl rfl) fun _ => h.pure _

theorem attends (hRecorded : ∀ pid, can (wait (.isRecordedMaster pid))) : Attends config can where
  toTalks := h.toTalks
  sleep := fun _ => h.sleep _ _
  never := h.never
  recorded := hRecorded
  probe := h.probe

end Polls

namespace Attends

variable (h : Attends config can)

include h

theorem probeRounds (outcome : ProbeOutcome) (rounds : Nat) : can (probeRounds config outcome rounds) := by
  induction rounds generalizing outcome with
  | zero => exact h.pure outcome
  | succ rounds ih =>
      exact h.bind h.raiseIfMasterExited fun _ => h.bind h.probe fun next =>
        Compositional.ite (ih next) (h.pure next)

theorem adoptExisting : can (adoptExisting config) :=
  h.bind h.controlCheck fun _ => Compositional.ite
    (h.bind (h.probeRounds _ _) fun _ => h.pure _) (h.pure _)

theorem awaitExit (pid rounds : Nat) : can (awaitExit pid rounds) := by
  induction rounds with
  | zero => exact h.pure ()
  | succ rounds ih => exact h.get fun _ => h.when (h.bind (h.sleep _) fun _ => ih)

theorem isRecordedMaster (pid : Nat) : can (isRecordedMaster pid) :=
  h.bind (h.recorded pid) fun _ => h.bind (h.mark _ rfl rfl) fun _ => h.pure _

theorem awaitRecorded (pid rounds : Nat) : can (awaitRecorded pid rounds) := by
  induction rounds with
  | zero => exact h.pure true
  | succ rounds ih =>
      exact h.bind (h.isRecordedMaster pid) fun _ => Compositional.ite
        (h.bind (h.sleep _) fun _ => ih) (h.pure false)

theorem awaitControl (deadline : ℚ) (rounds : Nat) : can (awaitControl config deadline rounds) := by
  induction rounds with
  | zero => exact h.never
  | succ rounds ih =>
      exact h.bind h.controlCheck fun _ => Compositional.ite (h.pure ())
        (h.bind h.raiseIfMasterExited fun _ => h.get fun _ =>
          Compositional.ite (h.throw _) (h.bind (h.sleep _) fun _ => ih))

theorem waitUntilReady : can (waitUntilReady config) := by
  refine h.get fun _ => h.bind (h.awaitControl _ _) fun _ => h.bind (h.probeRounds _ _) fun outcome =>
    h.get fun _ => ?_
  cases outcome <;> first | exact h.pure () | exact h.throw _

end Attends

namespace Starts

variable (h : Starts config can)

include h

theorem kill (pid : Nat) : can (kill pid) :=
  h.bind (h.fileOp _ rfl) fun _ => h.update _ fun state => ⟨rfl, rfl, rfl, rfl, rfl, Loses.kill state pid⟩

theorem stopOwnedMaster : can stopOwnedMaster := by
  refine h.get fun state => h.bind (h.update _ fun _ => Aside.of_same rfl rfl rfl rfl rfl rfl) fun _ => ?_
  split
  · exact h.pure ()
  · next pid _ =>
      refine h.bind (h.awaitExit pid _) fun _ => h.get fun _ => h.bind (h.when ?_) fun _ =>
        h.get fun _ => h.when (h.kill pid)
      exact h.bind (h.fileOp _ rfl) fun _ => h.awaitExit pid _

theorem stopRecordedMaster : can stopRecordedMaster := by
  refine h.get fun state => ?_
  split
  · exact h.bind (h.mark _ rfl rfl) fun _ => h.throw _
  · exact h.pure ()
  · next pid _ =>
      refine h.bind (h.isRecordedMaster pid) fun _ => Compositional.ite ?_ (h.pure ())
      exact h.bind (h.fileOp _ rfl) fun _ => h.bind (h.awaitRecorded pid _) fun _ =>
        Compositional.ite (h.kill pid) (h.pure ())

theorem releaseMasterState : can releaseMasterState :=
  h.bind (h.update _ fun _ => Aside.of_same rfl rfl rfl rfl rfl rfl) fun _ => h.bind (h.fileOp _ rfl) fun _ =>
    h.bind (h.update _ fun _ => Aside.of_same rfl rfl rfl rfl rfl rfl) fun _ => h.bind (h.fileOp _ rfl) fun _ =>
      h.update _ fun _ => Aside.of_same rfl rfl rfl rfl rfl rfl

theorem stopMaster : can (stopMaster config) :=
  h.bind (h.mark _ rfl rfl) fun _ => h.bind h.controlCheck fun _ =>
    h.bind (h.when (h.bind (h.controlCommand _) fun _ => h.pure ())) fun _ =>
      h.bind h.stopOwnedMaster fun _ => h.bind h.stopRecordedMaster fun _ => h.releaseMasterState

/-- What a failed start does before it passes the failure on. -/
theorem undo {α : Type} (error : Error) :
    can (Transport.stopOwnedMaster.bind fun _ => Transport.releaseMasterState.bind fun _ => (Coro.raise error : Py α)) :=
  h.bind h.stopOwnedMaster fun _ => h.bind h.releaseMasterState fun _ => h.throw error

theorem startMaster : can (startMaster config) := by
  refine h.bind h.begins fun _ =>
    h.bind (h.fileOp _ rfl) fun _ => h.bind (h.fileOp _ rfl) fun _ =>
    h.bind (h.update _ fun _ => Aside.of_same rfl rfl rfl rfl rfl rfl) fun _ =>
    h.bind (h.update _ fun _ => Aside.of_same rfl rfl rfl rfl rfl rfl) fun _ =>
    h.bind (h.fileOp _ rfl) fun _ => h.bind (h.update _ fun _ => Aside.of_same rfl rfl rfl rfl rfl rfl) fun _ =>
    h.bind ?_ fun pid => h.bind (h.update _ fun _ => Aside.of_same rfl rfl rfl rfl rfl rfl) fun _ =>
    h.bind ?_ fun _ => h.tryCatch h.waitUntilReady h.undo
  · refine h.tryCatch (h.spawn _) fun error => ?_
    cases error with
    | osError message => exact h.bind h.releaseMasterState fun _ => h.throw _
    | _ => exact h.throw _
  · have hWrite : can (writeMasterOwner pid) :=
      h.bind (h.fileOp _ rfl) fun _ => h.update _ fun _ => Aside.of_same rfl rfl rfl rfl rfl rfl
    refine h.tryCatch hWrite fun error => ?_
    cases error with
    | osError message => exact h.undo _
    | _ => exact h.throw _

end Starts

end Transport

section Repair

open Pazuzu.Supervisor

variable {config} {can : {α : Type} → Py α → Prop}

theorem raiseUnavailable (h : Compositional can) {α : Type} : can (raiseUnavailable : Py α) :=
  h.get fun _ => h.throw _

namespace Starts

variable (h : Starts config can)

include h

theorem startAttempts (attempt : Nat) (detail : String) (remaining : Nat) :
    can (startAttempts config attempt detail remaining) := by
  induction remaining generalizing attempt detail with
  | zero => exact h.pure _
  | succ remaining ih =>
      have hRetry : ∀ message, can ((Transport.stopMaster config).bind fun _ =>
          if classifyConnectionFailure message = .authenticationRequired then
            (.pure (some message) : Py (Option String))
          else (Coro.when (remaining ≠ 0) (sleep (min 2 (1 / 2 * 2 ^ attempt)))).bind fun _ =>
            Supervisor.startAttempts config (attempt + 1) message remaining) := fun message =>
        h.bind h.stopMaster fun _ => Compositional.ite (h.pure _)
          (h.bind (h.when (h.sleep _)) fun _ => ih (attempt + 1) message)
      refine h.bind (h.attempt h.startMaster) fun outcome => ?_
      split
      · exact h.bind h.connects fun _ => h.pure none
      · exact hRetry _
      · exact hRetry _
      · exact h.throw _

end Starts

namespace Mends

variable (h : Mends config can)

include h

omit h in
theorem aside_of_sup {before after : State} (hLock : after.sup.repairLock = before.sup.repairLock)
    (hJobs : after.sup.jobs = before.sup.jobs) (hSlots : after.slots = before.slots)
    (hOs : after.os = before.os) : Aside before after :=
  Aside.of_same hLock hJobs hSlots (by rw [hOs]) (by rw [hOs]) (by rw [hOs])

theorem recordFailure (detail : String) : can (recordFailure detail) := by
  refine h.get fun state => ?_
  split
  · exact h.record _ _ rfl rfl fun _ => aside_of_sup rfl rfl rfl rfl
  · exact h.bind (h.record _ _ rfl rfl fun _ => aside_of_sup rfl rfl rfl rfl) fun _ => h.throw _

theorem repair : can (repair config) := by
  refine h.bind (h.record _ _ rfl rfl fun _ => aside_of_sup rfl rfl rfl rfl) fun _ =>
    h.bind h.stopMaster fun _ => h.bind (h.startAttempts _ _ _) fun detail => ?_
  cases detail with
  | none => exact h.pure ()
  | some detail => exact h.bind (h.recordFailure detail) fun _ => raiseUnavailable h.toCompositional

theorem replaceMaster : can (replaceMaster config) := by
  refine h.tryCatch h.repair fun error => ?_
  cases error with
  | connectionUnavailable message => exact h.throw _
  | _ => exact h.bind (h.record _ id rfl rfl fun _ => aside_of_sup rfl rfl rfl rfl) fun _ => h.throw _

theorem repairs : Repairs config can where
  toAttends := h.toAttends
  enter := fun event f hLeasing hStory hBooked => h.record event f hLeasing hStory fun state => (hBooked state).aside
  replace := h.replaceMaster

end Mends

namespace Repairs

variable (h : Repairs config can)

include h

theorem adoptOrReplace : can (adoptOrReplace config) :=
  h.bind (h.enter _ _ rfl rfl fun _ => ⟨rfl, rfl, rfl, rfl, rfl⟩) fun _ => h.bind h.adoptExisting fun _ =>
    Compositional.ite (h.enter _ _ rfl rfl fun _ => ⟨rfl, rfl, rfl, rfl, rfl⟩) h.replace

theorem connectLocked (force respectBackoff : Bool) : can (connectLocked config force respectBackoff) := by
  have hAttempt : can (Coro.get.bind fun state =>
      if force = false ∧ respectBackoff = true ∧ state.os.clock < state.sup.nextAttempt then
        Supervisor.raiseUnavailable
      else if force = false ∧ state.sup.generation = 0 then Supervisor.adoptOrReplace config
      else Supervisor.replaceMaster config) :=
    h.get fun _ => Compositional.ite (raiseUnavailable h.toCompositional) (Compositional.ite h.adoptOrReplace h.replace)
  exact h.get fun _ => Compositional.ite
    (h.bind h.controlCheck fun _ => Compositional.ite (h.pure ()) hAttempt) hAttempt

theorem checkLocked (generation epoch : Nat) (outcome : ProbeOutcome) :
    can (checkLocked config generation epoch outcome) := by
  have hTolerates : can (tolerates config outcome) :=
    h.get fun _ => Compositional.ite h.controlCheck (h.pure _)
  have hReplace : can (replaceChecked config generation) :=
    h.bind (h.enter _ id rfl rfl fun _ => ⟨rfl, rfl, rfl, rfl, rfl⟩) fun _ =>
      h.bind h.replace fun _ => h.pure _
  refine h.get fun _ => Compositional.ite (Compositional.ite (h.pure _) (raiseUnavailable h.toCompositional)) ?_
  exact h.bind hTolerates fun _ => Compositional.ite (h.pure _)
    (h.get fun _ => Compositional.ite (raiseUnavailable h.toCompositional) hReplace)

end Repairs

/-- A check of the master, whatever code is allowed under the repair lock. -/
theorem can_checkMaster (h : Compositional can) (generation : Nat)
    (hProbed : ∀ outcome, can (Coro.mark (Event.checkProbed outcome))) (hShared : can Supervisor.probe)
    (hLock : ∀ epoch outcome, can (withLock .repair (checkLocked config generation epoch outcome))) :
    can (checkMaster config generation) := by
  refine h.get fun before => Compositional.ite (h.pure _) ?_
  have hRest : ∀ outcome, can ((Coro.mark (Event.checkProbed outcome)).bind fun _ => Coro.get.bind fun state =>
      if outcome = .ok ∧ before.sup.repairEpoch = state.sup.repairEpoch then
        (.pure .healthy : Py Verdict)
      else withLock .repair (checkLocked config generation before.sup.repairEpoch outcome)) :=
    fun outcome => h.bind (hProbed outcome) fun _ => h.get fun _ => Compositional.ite (h.pure _) (hLock _ _)
  exact Compositional.ite (h.bind hShared hRest) (hRest .failed)

/-- Code may take the repair lock for what runs under it, and wait for a probe. -/
structure Checks (config : Config) (can locked : {α : Type} → Py α → Prop) : Prop extends Compositional can where
  repairs : Repairs config locked
  lock : ∀ {α : Type} {body : Py α}, locked body → can (withLock .repair body)
  note : ∀ event : Event, event.isLeasing = false → event.isEnd = false → can (Coro.mark event)
  controlCheck : can (Transport.controlCheck config)
  shared : can Supervisor.probe

variable {locked : {α : Type} → Py α → Prop}

namespace Checks

variable (h : Checks config can locked)

include h

theorem connect (force respectBackoff : Bool) : can (connect config force respectBackoff) :=
  h.lock (h.repairs.connectLocked force respectBackoff)

theorem checkMaster (generation : Nat) : can (checkMaster config generation) :=
  can_checkMaster h.toCompositional generation (fun _ => h.note _ rfl rfl) h.shared
    fun _ _ => h.lock (h.repairs.checkLocked _ _ _)

theorem check (generation : Nat) : can (check config generation) := by
  refine h.bind (h.note _ rfl rfl) fun _ => h.bind (h.attempt (h.checkMaster generation)) fun verdict => ?_
  cases verdict with
  | ok verdict => exact h.bind (h.note _ rfl rfl) fun _ => h.pure _
  | error error => exact h.bind (h.note _ rfl rfl) fun _ => h.throw _

end Checks

end Repair

section Calls

open Pazuzu.Supervisor

variable {config} {can held : {α : Type} → Py α → Prop}

/-- Code may serve calls: some of it with a slot held. -/
structure Calls (config : Config) (can held : {α : Type} → Py α → Prop) : Prop extends Compositional can where
  inside : Compositional held
  controlCheck : can (Transport.controlCheck config)
  connect : can (Supervisor.connect config false)
  check : ∀ generation, can (Supervisor.check config generation)
  hold : ∀ {α : Type} (timeout : ℚ) {body : Py α}, held body → can (Supervisor.hold config timeout body)
  heldCheck : held (Transport.controlCheck config)
  heldConnect : held (Supervisor.connect config false)
  story : ∀ event : Event, event.isSession = true → held (Coro.mark event)
  session : ∀ command stdin timeout generation,
    held (Transport.session config command stdin timeout (Coro.mark (.sessionStarted generation)))
  transfer : ∀ argv timeout limit, held (runTransfer argv timeout limit)

/-- The connection that is there, or one that is sought. -/
theorem can_ensureConnected (h : Compositional can) (respectBackoff : Bool)
    (hCheck : can (Transport.controlCheck config)) (hConnect : can (connect config false respectBackoff)) :
    can (ensureConnected config respectBackoff) := by
  have hRest : ∀ up : Bool, can ((Coro.when (up = false) (connect config false respectBackoff)).bind
      fun _ => Coro.get.bind fun state => (.pure state.sup.generation : Py Nat)) := fun up =>
    h.bind (h.when hConnect) fun _ => h.get fun _ => h.pure _
  exact h.get fun state => Compositional.ite (h.bind hCheck hRest) (hRest false)

namespace Calls

variable (h : Calls config can held)

include h

theorem repairIfBroken (generation : Nat) : can (repairIfBroken config generation) :=
  h.bind (h.check generation) fun _ => h.pure _

theorem safeRepairAfterCommand (generation : Nat) : can (safeRepairAfterCommand config generation) :=
  h.tryCatch (h.bind (h.check generation) fun _ => h.pure _) fun error => by cases error <;> exact h.throw _

theorem operation {α : Type} (timeout : ℚ) {body : Nat → ℚ → Py α}
    (hBody : ∀ generation remaining, held (body generation remaining)) : can (operation config timeout body) :=
  h.get fun _ => h.hold timeout (h.inside.bind (can_ensureConnected h.inside true h.heldCheck h.heldConnect)
    fun _ => h.inside.get fun _ => Compositional.ite (h.inside.throw _) (hBody _ _))

theorem runSession (command : String) (stdin : Python.Bytes) (timeout : ℚ) :
    can (runSession config command stdin timeout) :=
  h.operation timeout fun _ _ => h.inside.bind (h.story _ rfl) fun _ =>
    h.inside.bind (h.session _ _ _ _) fun _ => h.inside.bind (h.story _ rfl) fun _ => h.inside.pure _

theorem replayOnce (command : String) (stdin : Python.Bytes) (timeout : ℚ) :
    can (replayOnce config command stdin timeout) :=
  h.bind (h.runSession _ _ _) fun _ => Compositional.ite
    (h.bind (h.check _) fun _ => Compositional.ite (h.pure _) (h.throw _)) (h.pure _)

theorem settle (command : String) (stdin : Python.Bytes) (timeout : ℚ) (retrySafe : Bool)
    (result : ProcessResult) (generation : Nat) :
    can (settle config command stdin timeout retrySafe result generation) :=
  Compositional.ite (h.pure _) (h.bind (h.safeRepairAfterCommand _) fun _ =>
    Compositional.ite (Compositional.ite (h.replayOnce _ _ _) (h.throw _)) (h.pure _))

theorem execute (command : String) (stdin : Python.Bytes) (timeout : ℚ) (retrySafe : Bool) :
    can (Supervisor.execute config command stdin timeout retrySafe) :=
  Compositional.ite (h.throw _) (Compositional.ite (h.throw _)
    (h.bind (h.runSession _ _ _) fun _ => h.settle _ _ _ _ _ _))

theorem transfers (tool : String) (arguments : List String) (executable : String) (timeout : ℚ) :
    can (Supervisor.transfer config tool arguments executable timeout) := by
  refine Compositional.ite (h.throw _) (Compositional.ite (h.throw _) (Compositional.ite (h.throw _)
    (h.get fun _ => h.bind (h.ofExcept _) fun argv => h.bind (h.operation timeout fun _ _ => ?_) fun _ => ?_)))
  · exact h.inside.bind (h.story _ rfl) fun _ => h.inside.bind (h.transfer _ _ _) fun _ => h.inside.pure _
  · exact Compositional.ite (h.bind (h.safeRepairAfterCommand _) fun _ => h.pure _) (h.pure _)

theorem connectionAttachment : can (connectionAttachment config) :=
  h.bind (can_ensureConnected h.toCompositional true h.controlCheck h.connect) fun _ => h.get fun _ =>
    h.bind (h.repairIfBroken _) fun _ => h.get fun _ => h.ofExcept _

theorem probedHealth : can (probedHealth config) :=
  h.get fun _ => h.bind (h.tryCatch (h.bind (h.repairIfBroken _) fun _ => h.pure ()) fun error => by
    cases error <;> first | exact h.pure () | exact h.throw _) fun _ => h.get fun _ => h.pure _

theorem health (probe : Bool) : can (health config probe) := by
  have hRest : ∀ sessionHealthy, can (Coro.get.bind fun state =>
      (.pure (state.health config sessionHealthy) : Py Health)) := fun _ => h.get fun _ => h.pure _
  exact h.get fun _ => Compositional.ite (h.bind h.probedHealth hRest) (hRest none)

/-- A reconnection, once it has forgotten the delay. -/
theorem reconnect (force : Bool) (hForce : force = true → can (Supervisor.connect config true))
    (hSeek : can (Supervisor.connect config false false))
    (hWake : can (Coro.update fun state => state.setWake true)) :
    can (do
      (if force then Supervisor.connect config true
        else do
          let generation ← Supervisor.ensureConnected config false
          let _ ← Supervisor.check config generation).tryFinally (Coro.update fun state => state.setWake true)
      Supervisor.health config false) := by
  have hRest : can (do
      let generation ← Supervisor.ensureConnected config false
      let _ ← Supervisor.check config generation : Py Unit) :=
    h.bind (can_ensureConnected h.toCompositional false h.controlCheck hSeek) fun _ =>
      h.bind (h.check _) fun _ => h.pure ()
  refine h.bind (h.tryFinally ?_ hWake) fun _ => h.health false
  cases force with
  | false => exact hRest
  | true => exact hForce rfl

end Calls

/-- Code may wait to be woken, and do what maintenance does then. -/
structure Upkeep (config : Config) (can : {α : Type} → Py α → Prop) : Prop extends Compositional can where
  never : can (never : Py Unit)
  wake : ∀ deadline, can (wait (.wake deadline))
  setWake : ∀ wake, can (Coro.update fun state => state.setWake wake)
  notes : ∀ event : Event, event.isUpkeep = true → can (Coro.mark event)
  once : can (maintainOnce config)

theorem Upkeep.maintain (h : Upkeep config can) (rounds : Nat) : can (maintain config rounds) := by
  have hWait : ∀ timeout, can (waitForWake timeout) := fun timeout =>
    h.get fun _ => Compositional.ite (h.bind (h.setWake false) fun _ => h.pure true)
      (h.tryCatch (h.bind (h.wake _) fun _ => h.bind (h.setWake false) fun _ => h.pure true) fun error => by
        cases error <;> first | exact h.pure false | exact h.throw _)
  induction rounds with
  | zero => exact h.never
  | succ rounds ih =>
      refine h.get fun _ => Compositional.ite (h.pure ()) (Compositional.ite ?_ ?_)
      · exact h.bind (h.wake none) fun _ => h.bind (h.setWake false) fun _ => ih
      · exact h.bind (h.notes _ rfl) fun _ => h.bind (hWait _) fun _ => Compositional.ite ih
          (h.bind (h.notes _ rfl) fun _ => h.bind h.once fun _ => ih)

end Calls

end Supervision
end Pazuzu
