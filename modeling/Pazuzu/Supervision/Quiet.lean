import Pazuzu.Supervision.Frame

/-! Leases and the whole transport are calm: they touch none of the deciding
fields. What matters of them is which errors they raise, and that every other
error comes from a disturbance. -/
namespace Pazuzu

/-- The events that the transport and the slots leave by the way. -/
def Event.isIncidental : Event → Bool
  | .stopMasterCalled => false
  | event => event.isMinor

end Pazuzu

namespace Pazuzu.Supervision

open Asyncio Coro

/-- Away from the supervisor's own fields, and without time passing. -/
def Apart (before after : State) : Prop :=
  after.sup = before.sup ∧ after.os.clock = before.os.clock

/-- A frame that takes whatever happens away from the supervisor's fields. To
stop the master is a decision, and not among it. -/
class Transparent {config : Config} (F : Frame (gateway config)) : Prop where
  step : ∀ {before after : State}, Apart before after → F.step before after
  event : ∀ {event : Event}, event.isIncidental = true → F.event event
  disturbs : ∀ {op : Op} {event : Event}, event.disturbs op → F.disturbs op event

instance (config : Config) : Transparent (frame config) where
  step := fun h => by simp only [frame, core, h.1]
  event := fun {event} h => by cases event <;> first | rfl | cases h
  disturbs := id

variable {config : Config} {F : Frame (gateway config)} {op : Op} {marked : Prop}

/-- Undisturbed, only the expected errors; disturbed, any that is not one of
the gateway's own. -/
def raising (expected : Error → Prop) : Raises gatewaySignature where
  possible := fun error => error.isPazuzu = false ∨ expected error
  expected := expected

/-- No errors but those of a disturbance. -/
def quiet : Raises gatewaySignature := raising fun _ => False

/-- Calm code of an operation, with the errors it is expected to raise. -/
abbrev Quiet {config : Config} (F : Frame (gateway config)) (op : Op) (expected : Error → Prop)
    {α : Type} (marked : Prop) (code : Py α) : Prop :=
  code.Calm F op (raising expected) marked

section Rules

variable {expected expected' : Error → Prop} {α β : Type}

theorem Quiet.widen {code : Py α} (h : Quiet F op expected marked code)
    (hWider : ∀ e, expected e → expected' e) : Quiet F op expected' marked code :=
  h.mono id (fun e => Or.imp_right (hWider e)) fun e _ => hWider e

theorem Quiet.raise {error : Error} (h : expected error) :
    Quiet F op expected marked (Coro.raise error : Py α) :=
  Calm.raise (Or.inr h) h

/-- A handler that passes on what it does not expect. -/
theorem Quiet.tryCatch {code : Py α} {handler : Error → Py α}
    (h : Quiet F op expected marked code)
    (hExpected : ∀ error, expected error → Quiet F op expected' marked (handler error))
    (hOther : ∀ error, error.isPazuzu = false → Quiet F op expected' True (handler error)) :
    Quiet F op expected' marked (code.tryCatch handler) := by
  refine Calm.tryCatch h (fun error _ hError => hExpected error hError) fun error hError => ?_
  rcases hError with hOwn | hError
  · exact hOther error hOwn
  · exact (hExpected error hError).weaken fun _ => trivial

theorem Quiet.passOn {error : Error} (h : error.isPazuzu = false) :
    Quiet F op expected True (Coro.raise error : Py α) :=
  ⟨Or.inl h, Or.inl trivial⟩

variable [Transparent F]

/-- A wait raises what is expected of it, unless it fails for a reason that
nothing handles, or is given up. -/
theorem quiet_wait {w : Wait}
    (hNote : ∀ error, Host.note op w (.error error) = some (.interrupted op error))
    (hRaises : ∀ error state, Host.raises w error state = true → expected error ∨
      (error.isPazuzu = false ∧ (Event.interrupted op error).fails = true)) :
    Quiet F op expected marked (wait w) := by
  intro task reply before after hDeliver
  cases reply with
  | ok value => trivial
  | error error =>
      simp only [gateway, Host.deliver] at hDeliver
      split at hDeliver
      · next h =>
          rcases hRaises error before h with hError | ⟨hOwn, hFails⟩
          · exact ⟨Or.inr hError, Or.inr hError⟩
          · refine ⟨Or.inl hOwn, Or.inl (Or.inr ⟨.interrupted op error, hNote _, ?_⟩)⟩
            exact Transparent.disturbs (Or.inl hFails)
      · split at hDeliver
        · next hError =>
            subst hError
            refine ⟨Or.inl rfl, Or.inl (Or.inr ⟨.interrupted op .cancelled, hNote _, ?_⟩)⟩
            exact Transparent.disturbs (Or.inr rfl)
        · cases hDeliver

theorem quiet_update {f : State → State} (h : ∀ state, Apart state (f state)) :
    Quiet F op expected marked (Coro.update f) :=
  Calm.update fun state => Transparent.step (h state)

theorem quiet_record {event : Event} {f : State → State} (hEvent : event.isIncidental = true)
    (h : ∀ state, Apart state (f state)) :
    Quiet F op expected marked (Coro.record event f) :=
  ⟨fun state => Transparent.step (h state),
    fun _ he => Option.mem_some_iff.mp he ▸ Transparent.event hEvent, trivial⟩

theorem quiet_mark {event : Event} (h : event.isIncidental = true) :
    Quiet F op expected marked (Coro.mark event) :=
  quiet_record h fun _ => ⟨rfl, rfl⟩

/-- A failing call is noted before it raises. -/
theorem quiet_fail {event : Event} {error : Error} (hEvent : event.isIncidental = true)
    (hWhy : expected error ∨ (error.isPazuzu = false ∧ event.disturbs op)) :
    Quiet F op expected marked (.act (some event) id (.throw error) : Py α) := by
  refine ⟨fun _ => Transparent.step ⟨rfl, rfl⟩, ?_, hWhy.symm.imp And.left id, ?_⟩
  · exact fun _ he => Option.mem_some_iff.mp he ▸ Transparent.event hEvent
  · exact hWhy.symm.imp (fun h => Or.inr ⟨event, rfl, Transparent.disturbs h.2⟩) id

theorem quiet_fileOp (operation : FileOp) (h : operation ≠ .writeOwner) :
    Quiet F op expected marked (fileOp operation) := by
  refine Calm.bind Calm.get fun state => ?_
  cases hFault : state.os.faults operation with
  | none =>
      trivial
  | some message =>
      refine quiet_fail rfl (Or.inr ⟨rfl, Or.inl ?_⟩)
      cases operation <;> first | rfl | exact absurd rfl h

end Rules

section Runtime

variable [Transparent F] {expected : Error → Prop} {α : Type}

theorem quiet_never : Quiet F op expected marked (never : Py α) :=
  Calm.bind (quiet_wait (fun _ => rfl) fun _ _ h => by cases h) fun impossible => nomatch impossible

theorem quiet_sleep (seconds : ℚ) :
    Quiet F op expected marked (sleep seconds) := by
  refine Calm.bind Calm.get fun state => quiet_wait (fun _ => rfl) fun error _ h => ?_
  cases error <;> cases h

/-- Inside a scope with a deadline, a sleep may end in its timeout. -/
theorem quiet_sleep_scope (seconds : ℚ) (deadline : Option ℚ) :
    Quiet F op (· = .timeoutError) marked (sleep seconds deadline) := by
  refine Calm.bind Calm.get fun state => quiet_wait (fun _ => rfl) fun error _ h => ?_
  cases error <;> first | exact Or.inl rfl | cases h

/-- The errors of a process that cannot be launched or ends too late. -/
def processErrors : Error → Prop
  | .osError _ | .timeoutError => True
  | _ => False

theorem quiet_launch (argv : List String) :
    Quiet F op processErrors marked (wait (.launch argv)) := by
  refine quiet_wait (fun _ => rfl) fun error _ h => ?_
  cases error <;> first | exact Or.inl trivial | exact Or.inr ⟨rfl, rfl⟩ | cases h

/-- A process that exists fails its caller only by its deadline. -/
theorem quiet_process (argv : List String) (stdin : Python.Bytes) (deadline : ℚ) (limit : Nat) :
    Quiet F op (· = .timeoutError) marked (wait (.process argv stdin deadline limit)) := by
  refine quiet_wait (fun _ => rfl) fun error _ h => ?_
  cases error <;> first | exact Or.inl rfl | cases h

theorem quiet_runProcess (argv : List String) (stdin : Python.Bytes) (timeout : ℚ) (limit : Nat)
    {started : Py Unit} (h : Quiet F op processErrors marked started) :
    Quiet F op processErrors marked (runProcess argv stdin timeout limit started) :=
  Calm.bind (quiet_launch argv) fun _ => Calm.bind h fun _ =>
    Calm.bind Calm.get fun _ => (quiet_process _ _ _ _).widen fun _ hError => by
      subst hError
      trivial

theorem quiet_acquire_head (deadline : Option ℚ) :
    Quiet F op (· = .timeoutError) marked (acquire .head deadline) := by
  refine Calm.bind Calm.current fun me => Calm.bind Calm.get fun state => ?_
  refine Calm.ite (quiet_update fun _ => ⟨rfl, rfl⟩) (Calm.bind (quiet_update fun _ => ⟨rfl, rfl⟩) fun _ => ?_)
  refine Calm.bind (Calm.tryFinally ?_ fun m => quiet_update fun _ => ⟨rfl, rfl⟩) fun _ =>
    quiet_update fun _ => ⟨rfl, rfl⟩
  refine quiet_wait (fun _ => rfl) fun error _ h => ?_
  cases error <;> first | exact Or.inl rfl | cases h

theorem quiet_withLock_head {body : Py α} (deadline : Option ℚ)
    (h : Quiet F op (· = .timeoutError) marked body) :
    Quiet F op (· = .timeoutError) marked (withLock .head body deadline) :=
  Calm.bind (quiet_acquire_head deadline) fun _ =>
    Calm.tryFinally h fun _ => quiet_update fun _ => ⟨rfl, rfl⟩

end Runtime

section Lease

variable [Transparent F] {expected : Error → Prop}

theorem quiet_tryAcquire (pool : SessionLeasePool) :
    Quiet F op expected marked pool.tryAcquire := by
  refine Calm.bind (quiet_fileOp _ (by simp)) fun _ => Calm.bind Calm.get fun state => ?_
  cases h : pool.firstFree state.os.leases with
  | none =>
      trivial
  | some file =>
      exact Calm.bind (quiet_record rfl fun _ => ⟨rfl, rfl⟩) fun _ => trivial

theorem quiet_poll (pool : SessionLeasePool) (deadline scope : Option ℚ) (rounds : Nat) :
    Quiet F op (· = .timeoutError) marked (pool.poll deadline scope rounds) := by
  induction rounds with
  | zero => exact quiet_never
  | succ rounds ih =>
      refine Calm.bind (quiet_tryAcquire pool) fun lease => ?_
      cases lease with
      | some lease => trivial
      | none =>
          exact Calm.bind Calm.get fun state => Calm.ite (Quiet.raise rfl)
            (Calm.bind (quiet_sleep_scope _ _) fun _ => ih)

theorem quiet_acquireAsync (pool : SessionLeasePool) (timeout scope : Option ℚ) :
    Quiet F op (· = .timeoutError) marked (pool.acquireAsync config timeout scope) :=
  Calm.bind (quiet_fileOp _ (by simp)) fun _ => Calm.bind Calm.get fun _ => quiet_poll _ _ _ _

theorem quiet_releaseLease (lease : SessionLease) :
    Quiet F op expected marked lease.release :=
  quiet_record rfl fun _ => ⟨rfl, rfl⟩

end Lease

section Transport

open Transport

variable [Transparent F] {expected : Error → Prop}

theorem quiet_controlCommand (operation : String) :
    Quiet F op expected marked (controlCommand config operation) := by
  refine Quiet.tryCatch (quiet_runProcess _ _ _ _ (Calm.pure _)) (fun error hError => ?_)
    fun error hError => ?_
  · cases error <;> first | exact Calm.pure _ | cases hError
  · cases error <;> first | exact Calm.pure _ | exact Quiet.passOn hError

theorem quiet_controlCheck : Quiet F op expected marked (controlCheck config) := by
  refine Calm.bind (quiet_fileOp _ (by simp)) fun _ => Calm.bind Calm.get fun state => Calm.ite ?_ ?_
  · exact Calm.bind (quiet_mark rfl) fun _ => Calm.pure _
  · exact Calm.bind (quiet_controlCommand _) fun _ => Calm.bind (quiet_mark rfl) fun _ => Calm.pure _

/-- A control check fails its caller only when something disturbs it. -/
theorem quiet_steadyCheck : Quiet F op (fun _ => False) marked (controlCheck config) :=
  quiet_controlCheck

/-- The errors of a session that cannot be launched or ends too late. -/
def sessionErrors : Error → Prop
  | .connectionUnavailable _ | .commandTimedOut _ => True
  | _ => False

theorem quiet_session (command : String) (stdin : Python.Bytes) (timeout : ℚ) {started : Py Unit}
    (h : Quiet F op processErrors marked started) :
    Quiet F op sessionErrors marked (session config command stdin timeout started) := by
  refine Quiet.tryCatch (quiet_runProcess _ _ _ _ h) (fun error hError => ?_) fun error hError => ?_
  · cases error <;> first | exact Quiet.raise trivial | cases hError
  · cases error <;> first | exact Quiet.raise trivial | exact Quiet.passOn hError

theorem quiet_probeSession : Quiet F op expected marked (probeSession config) := by
  refine Quiet.tryCatch (Calm.bind (quiet_session _ _ _ (quiet_mark rfl)) fun _ => Calm.pure _)
    (fun error hError => ?_) fun error hError => ?_
  · cases error <;> first | exact Calm.pure _ | cases hError
  · cases error <;> first | exact Quiet.passOn hError | cases hError

theorem quiet_probe : Quiet F op expected marked (probe config) := by
  refine Calm.attempt (quiet_acquireAsync _ _ _) (fun lease => ?_) (fun error _ hError => ?_)
    fun error hError => ?_
  · refine Calm.bind (Calm.tryFinally quiet_probeSession fun _ => quiet_releaseLease lease)
      fun outcome => Calm.bind (quiet_mark rfl) fun _ => Calm.pure _
  · subst hError
    exact Calm.bind (quiet_mark rfl) fun _ => Calm.pure _
  · rcases hError with hOwn | rfl
    · cases error <;> first
        | exact Calm.bind (quiet_mark rfl) fun _ => Calm.pure _
        | exact Quiet.passOn hOwn
    · exact Calm.bind (quiet_mark rfl) fun _ => Calm.pure _

/-- The error of a master that does not get ready. -/
abbrev unavailable (error : Error) : Prop := error.isConnectionUnavailable = true

omit [Transparent F] in
theorem quiet_raiseIfMasterExited :
    Quiet F op unavailable marked raiseIfMasterExited :=
  Calm.bind Calm.get fun _ => Calm.when (Quiet.raise rfl)

theorem quiet_probeRounds (outcome : ProbeOutcome) (rounds : Nat) :
    Quiet F op unavailable marked (probeRounds config outcome rounds) := by
  induction rounds generalizing outcome with
  | zero => exact Calm.pure _
  | succ rounds ih =>
      exact Calm.bind quiet_raiseIfMasterExited fun _ => Calm.bind quiet_probe fun next =>
        Calm.ite (ih next) (Calm.pure _)

theorem quiet_adoptExisting : Quiet F op unavailable marked (adoptExisting config) := by
  refine Calm.bind quiet_controlCheck fun up => Calm.ite ?_ (Calm.pure _)
  exact Calm.bind (quiet_probeRounds _ _) fun _ => Calm.pure _

theorem quiet_awaitExit (pid rounds : Nat) :
    Quiet F op expected marked (awaitExit pid rounds) := by
  induction rounds with
  | zero => exact Calm.pure _
  | succ rounds ih =>
      exact Calm.bind Calm.get fun _ => Calm.when (Calm.bind (quiet_sleep _) fun _ => ih)

theorem quiet_kill (pid : Nat) : Quiet F op expected marked (kill pid) :=
  Calm.bind (quiet_fileOp _ (by simp)) fun _ => quiet_update fun _ => ⟨rfl, rfl⟩

theorem quiet_stopOwnedMaster : Quiet F op expected marked stopOwnedMaster := by
  refine Calm.bind Calm.get fun state => Calm.bind (quiet_update fun _ => ⟨rfl, rfl⟩) fun _ => ?_
  cases h : state.transport.master with
  | none =>
      exact Calm.pure _
  | some pid =>
      refine Calm.bind (quiet_awaitExit _ _) fun _ => Calm.bind Calm.get fun _ =>
        Calm.bind (Calm.when ?_) fun _ => Calm.bind Calm.get fun _ => Calm.when (quiet_kill pid)
      exact Calm.bind (quiet_fileOp _ (by simp)) fun _ => quiet_awaitExit _ _

theorem quiet_isRecordedMaster (pid : Nat) :
    Quiet F op expected marked (isRecordedMaster pid) := by
  refine Calm.bind (quiet_wait (fun _ => rfl) fun error _ h => ?_) fun _ =>
    Calm.bind (quiet_mark rfl) fun _ => Calm.pure _
  cases error <;> first | exact Or.inr ⟨rfl, rfl⟩ | cases h

theorem quiet_awaitRecorded (pid rounds : Nat) :
    Quiet F op expected marked (awaitRecorded pid rounds) := by
  induction rounds with
  | zero => exact Calm.pure _
  | succ rounds ih =>
      exact Calm.bind (quiet_isRecordedMaster pid) fun _ =>
        Calm.ite (Calm.bind (quiet_sleep _) fun _ => ih) (Calm.pure _)

theorem quiet_stopRecordedMaster : Quiet F op expected marked stopRecordedMaster := by
  refine Calm.bind Calm.get fun state => ?_
  cases h : readMasterOwner state.os.owner with
  | error error =>
      have hOwn : error.isPazuzu = false := by
        cases hOwner : state.os.owner with
        | none => rw [hOwner] at h; cases h
        | some content =>
            rw [hOwner] at h
            simp only [readMasterOwner] at h
            split at h
            · cases h
              rfl
            · split at h
              · split at h
                · cases h
                  rfl
                · split at h <;> cases h
              · cases h
      exact quiet_fail rfl (Or.inr ⟨hOwn, Or.inl rfl⟩)
  | ok owner =>
      cases owner with
      | none =>
          exact Calm.pure _
      | some pid =>
          refine Calm.bind (quiet_isRecordedMaster pid) fun _ => Calm.ite ?_ (Calm.pure _)
          refine Calm.bind (quiet_fileOp _ (by simp)) fun _ =>
            Calm.bind (quiet_awaitRecorded _ _) fun _ => Calm.ite (quiet_kill pid) (Calm.pure _)

theorem quiet_releaseMasterState : Quiet F op expected marked releaseMasterState :=
  Calm.bind (quiet_update fun _ => ⟨rfl, rfl⟩) fun _ => Calm.bind (quiet_fileOp _ (by simp)) fun _ =>
    Calm.bind (quiet_update fun _ => ⟨rfl, rfl⟩) fun _ => Calm.bind (quiet_fileOp _ (by simp)) fun _ =>
      quiet_update fun _ => ⟨rfl, rfl⟩

/-- What follows the mark of a stop. -/
theorem quiet_haltMaster : ∃ halt : Py Unit,
    stopMaster config = (Coro.mark Event.stopMasterCalled).bind (fun _ => halt) ∧
    Quiet F op expected marked halt := by
  refine ⟨_, rfl, Calm.bind quiet_controlCheck fun up => Calm.bind (Calm.when ?_) fun _ => ?_⟩
  · exact Calm.bind (quiet_controlCommand _) fun _ => Calm.pure _
  · exact Calm.bind quiet_stopOwnedMaster fun _ =>
      Calm.bind quiet_stopRecordedMaster fun _ => quiet_releaseMasterState

theorem quiet_stopMaster (hEvent : F.event .stopMasterCalled) :
    Quiet F op expected marked (stopMaster config) := by
  obtain ⟨halt, hStop, hHalt⟩ := @quiet_haltMaster config F op marked _ expected
  rw [hStop]
  exact Calm.bind (Calm.mark (fun _ => Transparent.step ⟨rfl, rfl⟩) hEvent) fun _ => hHalt

theorem quiet_awaitControl (deadline : ℚ) (rounds : Nat) :
    Quiet F op unavailable marked (awaitControl config deadline rounds) := by
  induction rounds with
  | zero => exact quiet_never
  | succ rounds ih =>
      refine Calm.bind quiet_controlCheck fun up => Calm.ite (Calm.pure _) ?_
      refine Calm.bind quiet_raiseIfMasterExited fun _ => Calm.bind Calm.get fun _ => ?_
      exact Calm.ite (Quiet.raise rfl) (Calm.bind (quiet_sleep _) fun _ => ih)

theorem quiet_waitUntilReady : Quiet F op unavailable marked (waitUntilReady config) := by
  refine Calm.bind Calm.get fun _ => Calm.bind (quiet_awaitControl _ _) fun _ =>
    Calm.bind (quiet_probeRounds _ _) fun outcome => Calm.bind Calm.get fun _ => ?_
  cases outcome <;> first | exact Calm.pure _ | exact Quiet.raise rfl

/-- The one expected error of a receipt that cannot be written. -/
def receiptErrors : Error → Prop
  | .osError _ => True
  | _ => False

theorem quiet_writeMasterOwner (pid : Nat) :
    Quiet F op receiptErrors marked (writeMasterOwner pid) := by
  refine Calm.bind (Calm.bind Calm.get fun state => ?_) fun _ => quiet_update fun _ => ⟨rfl, rfl⟩
  cases hFault : state.os.faults .writeOwner with
  | none =>
      trivial
  | some message =>
      exact quiet_fail rfl (Or.inl trivial)

theorem quiet_spawnMaster (argv : List String) :
    Quiet F op receiptErrors marked (wait (.spawnMaster argv)) := by
  refine quiet_wait (fun _ => rfl) fun error _ h => ?_
  cases error <;> first | exact Or.inl trivial | exact Or.inr ⟨rfl, rfl⟩ | cases h

/-- What follows the mark of a start. -/
theorem quiet_launchMaster : ∃ launch : Py Unit,
    startMaster config = (Coro.mark Event.startMasterCalled).bind (fun _ => launch) ∧
    Quiet F op unavailable marked launch := by
  refine ⟨_, rfl, ?_⟩
  refine Calm.bind (quiet_fileOp _ (by simp)) fun _ => Calm.bind (quiet_fileOp _ (by simp)) fun _ =>
    Calm.bind (quiet_update fun _ => ⟨rfl, rfl⟩) fun _ =>
    Calm.bind (quiet_update fun _ => ⟨rfl, rfl⟩) fun _ => Calm.bind (quiet_fileOp _ (by simp)) fun _ =>
    Calm.bind (quiet_update fun _ => ⟨rfl, rfl⟩) fun _ => Calm.bind ?_ fun pid =>
    Calm.bind (quiet_update fun _ => ⟨rfl, rfl⟩) fun _ => Calm.bind ?_ fun _ => ?_
  · refine Quiet.tryCatch (quiet_spawnMaster _) (fun error hError => ?_) fun error hError => ?_
    · cases error <;> first
        | exact Calm.bind quiet_releaseMasterState fun _ => Quiet.raise rfl
        | cases hError
    · cases error <;> first
        | exact Calm.bind quiet_releaseMasterState fun _ => Quiet.raise rfl
        | exact Quiet.passOn hError
  · have hCleanup : ∀ (m : Prop) (message : String), Quiet F op unavailable m (do
        stopOwnedMaster
        releaseMasterState
        Coro.raise (.connectionUnavailable message) : Py Unit) := fun m message =>
      Calm.bind quiet_stopOwnedMaster fun _ => Calm.bind quiet_releaseMasterState fun _ =>
        Quiet.raise rfl
    refine Quiet.tryCatch (quiet_writeMasterOwner pid) (fun error hError => ?_)
      fun error hError => ?_
    · cases error <;> first | exact hCleanup _ _ | cases hError
    · cases error <;> first | exact hCleanup _ _ | exact Quiet.passOn hError
  · refine Quiet.tryCatch quiet_waitUntilReady (fun error hError => ?_) fun error hError => ?_
    · exact Calm.bind quiet_stopOwnedMaster fun _ => Calm.bind quiet_releaseMasterState fun _ =>
        Quiet.raise hError
    · exact Calm.bind quiet_stopOwnedMaster fun _ => Calm.bind quiet_releaseMasterState fun _ =>
        Quiet.passOn hError

theorem quiet_startMaster (hEvent : F.event .startMasterCalled) :
    Quiet F op unavailable marked (startMaster config) := by
  obtain ⟨launch, hStart, hLaunch⟩ := @quiet_launchMaster config F op marked _
  rw [hStart]
  exact Calm.bind (Calm.mark (fun _ => Transparent.step ⟨rfl, rfl⟩) hEvent) fun _ => hLaunch

end Transport
end Pazuzu.Supervision
