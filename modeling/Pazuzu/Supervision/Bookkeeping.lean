import Pazuzu.Supervision.Grounds
import Pazuzu.Supervision.Naming
import Pazuzu.Supervision.Walk

/-! Every call keeps the ledger, so it holds after every run. -/
namespace Pazuzu.Supervision

open Asyncio Coro Supervisor

variable {config : Config} {op : Op} {task : Nat} {α β : Type} {v w : GatewayWorld}

section Probes

theorem attempts_mono {old new : History} (hSuffix : old <:+ new) : attempts old ≤ attempts new := by
  obtain ⟨stretch, rfl⟩ := hSuffix
  induction stretch with
  | nil => exact le_rfl
  | cons newest earlier ih =>
      refine ih.trans ?_
      rw [List.cons_append, attempts]
      split <;> omega

/-- Without a new attempt, what is settled stays so: no master is connected. -/
theorem settled_of_attempts {old new : History} (hSuffix : old <:+ new)
    (hProved : ∀ entry rest, (entry :: rest) <:+ new → entry.event = .masterConnected →
      Proved entry.task rest)
    (hSame : attempts new = attempts old) (hSettled : attempting old = false) :
    connections new = connections old ∧ attempting new = false := by
  obtain ⟨stretch, rfl⟩ := hSuffix
  induction stretch with
  | nil => exact ⟨rfl, hSettled⟩
  | cons newest earlier ih =>
      have hGrows : attempts (earlier ++ old) ≤ attempts (newest :: (earlier ++ old)) :=
        attempts_mono (List.suffix_cons _ _)
      have hLow : attempts old ≤ attempts (earlier ++ old) := attempts_mono (List.suffix_append _ _)
      rw [List.cons_append] at hSame
      obtain ⟨hConnections, hAttempting⟩ := ih
        (fun entry rest hIn => hProved entry rest (hIn.trans (List.suffix_cons _ _))) (by omega)
      have hNewest := hProved newest (earlier ++ old) List.suffix_rfl
      obtain ⟨actor, event, state⟩ := newest
      cases event with
      | masterConnected =>
          have hBusy := (hNewest rfl).begun.attempting
          rw [hAttempting] at hBusy
          cases hBusy
      | adoptionBegan | repairBegan =>
          have hMore : attempts (earlier ++ old) + 1 = attempts old := hSame
          omega
      | _ => exact ⟨hConnections, hAttempting⟩

/-- A task that was created for a probe, as long as it has counted none. -/
structure Probing (task epoch : Nat) (history : History) : Prop where
  began : ∃ beginning before, (beginning :: before) <:+ history ∧ beginning.task = task ∧
    (∃ id, beginning.event = .called (.job id)) ∧ epoch ≤ attempts before ∧
    (epoch = attempts before → attempting before = false)
  fresh : ∀ other ∈ history, other.task = task → other.event.isCount = false

theorem Probing.stable {epoch : Nat} (h : Probing task epoch v.trace) (hAudit : Audit task v w) :
    Probing task epoch w.trace where
  began := by
    obtain ⟨beginning, before, hIn, hBegan⟩ := h.began
    exact ⟨beginning, before, hIn.trans hAudit.history, hBegan⟩
  fresh := by
    intro other hOther hTask
    rcases mem_or_since hAudit.history hOther with hOld | ⟨rest, hSince⟩
    · exact h.fresh other hOld hTask
    · have hNot := hAudit.own other rest hSince hTask
      obtain ⟨actor, event, state⟩ := other
      cases event <;> first | rfl | cases hNot

/-- A probe that is counted belongs to the master that was connected when its
task was created. -/
theorem Probing.warranted {epoch : Nat} {outcome : ProbeOutcome} {state : State}
    (h : Probing task epoch v.trace) (hAudit : Audit task v w) (hLedger : Ledger config w)
    (hEpoch : epoch = w.state.sup.repairEpoch) (hSays : ProbeSays task outcome v.trace w.trace) :
    Warranted config ⟨task, .probeCounted outcome, state⟩ w.trace := by
  obtain ⟨beginning, before, hIn, hTask, hJob, hLow, hSettled⟩ := h.began
  have hBefore : before <:+ w.trace := ((List.suffix_cons _ _).trans hIn).trans hAudit.history
  have hNow : epoch = attempts w.trace := hEpoch.trans hLedger.balance.epoch
  have hSame : attempts w.trace = attempts before := by
    have := attempts_mono hBefore
    omega
  have hQuiet := hSettled (hNow.trans hSame)
  obtain ⟨hConnections, -⟩ := settled_of_attempts hBefore (fun entry rest hEntry hEvent => by
    have hWarranted := hLedger.warranted entry rest hEntry
    simpa only [Warranted, hEvent] using hWarranted) hSame hQuiet
  obtain ⟨probe, rest, hSince, hProbe⟩ := hSays
  exact ⟨(h.stable hAudit).fresh, beginning, before, hIn.trans hAudit.history, hTask, hJob,
    ⟨probe, rest, hSince.mono hIn, hProbe⟩, hSame.symm, hConnections.symm, hQuiet⟩

theorem lwp_runProbe {epoch : Nat} (hInv : Inv w) (hProbing : Probing task epoch w.trace)
    (hPositive : 1 ≤ w.state.sup.generation) :
    Lwp config op task (runProbe config epoch) (fun outcome v => Inv v ∧
      ∀ result, outcome = .ok result → Probed result v.trace) w := by
  have hCalm : Quiet (bookFrame config) op (fun _ => False) False (Transport.probe config) := quiet_probe
  refine Extension.wp_get_bind (lwp_finds_seq (finds_probe hInv) hCalm hInv
    (fun outcome v hV hEnded => Extension.wp_get_bind ?_) fun error v hV => ⟨hV.inv, fun _ h => by cases h⟩)
  obtain ⟨entry, rest, hSince, hTask, hEvent, -⟩ := hEnded
  have hProbed : Probed outcome v.trace :=
    ⟨entry, hSince.mem, hEvent, hPositive.trans (hV.rely.grows.entries entry rest hSince).1.generation⟩
  refine Extension.wp_bind (Extension.wp_when (fun hEpoch => ?_) fun _ =>
    Extension.wp_pure ⟨hV.inv, fun result h => by cases h; exact hProbed⟩)
  refine lwp_single ?_ (fun hLedger => ⟨hLedger.balance.count rfl,
    hProbing.warranted hV.audit hLedger hEpoch ⟨entry, rest, hSince, hTask, hEvent⟩⟩)
    fun hInv' => Extension.wp_pure ?_
  · unfold State.recordProbe
    rfl
  · refine Extension.wp_pure ⟨hInv', fun result h => ?_⟩
    cases h
    obtain ⟨probe, hProbe, hSays⟩ := hProbed
    exact ⟨probe, List.mem_cons_of_mem _ hProbe, hSays⟩

end Probes

section Serves

theorem serves_compositional : Compositional (Serves config op task) where
  pure := serves_pure
  throw := fun _ w hInv _ => Extension.wp_throw ⟨hInv, Audit.refl task w⟩
  read := fun hNext w hInv hCalled => Extension.wp_read (hNext task w.state w hInv hCalled)
  bind := serves_bind
  attempt := serves_attempt

/-- Code that only a disturbance can make fail. -/
theorem serves_steady {code : Py α} (h : Quiet (bookFrame config) op (fun _ => False) False code) :
    Serves config op task code :=
  serves_calm h

theorem serves_update {f : State → State}
    (h : ∀ state, SameBooks state.sup (f state).sup ∧ (f state).os.clock = state.os.clock) :
    Serves config op task (Coro.update f) :=
  serves_steady (Calm.update h)

theorem serves_setWake (wake : Bool) :
    Serves config op task (Coro.update fun state => state.setWake wake) :=
  serves_update fun _ => ⟨⟨rfl, rfl, rfl, rfl, rfl, rfl, rfl, rfl, rfl⟩, rfl⟩

/-- A mark that changes no account and needs no warrant. -/
theorem calm_free {event : Event} {marked : Prop} {R : Raises gatewaySignature}
    (hEvent : event.isSession = true ∨ event.isUpkeep = true) :
    (Coro.mark event).Calm (bookFrame config) op R marked := by
  refine Calm.mark (fun _ => ⟨SameBooks.of_eq rfl, rfl⟩) ?_
  have hFree : event.isEntered = false ∧ (event.isSingle = false ∧ event.isAsking = false) ∧
      ∀ task state rest, Warranted config ⟨task, event, state⟩ rest := by
    rcases hEvent with hEvent | hEvent <;>
      cases event <;> first | exact ⟨rfl, ⟨rfl, rfl⟩, fun _ _ _ => trivial⟩ | cases hEvent
  refine ⟨hFree.1, hFree.2.1, fun entry rest hEntry => ?_⟩
  obtain ⟨actor, e, state⟩ := entry
  subst hEntry
  exact hFree.2.2 actor state rest

theorem serves_controlCheck : Serves config op task (Transport.controlCheck config) :=
  serves_steady quiet_steadyCheck

theorem serves_hold (timeout : ℚ) {body : Py α} (h : Serves config op task body) :
    Serves config op task (hold config timeout body) := by
  have hUpdate : ∀ f : State → State, (∀ state, (f state).sup = state.sup) →
      (∀ state, (f state).os.clock = state.os.clock) → Serves config op task (Coro.update f) :=
    fun f hSup hClock => serves_update fun state => ⟨SameBooks.of_eq (hSup state), hClock state⟩
  refine serves_bind (serves_calm (quiet_admission timeout)) fun lease =>
    serves_bind (hUpdate _ (fun _ => rfl) fun _ => rfl) fun _ => ?_
  exact serves_compositional.tryFinally h
    (serves_bind (hUpdate _ (fun _ => rfl) fun _ => rfl) fun _ => serves_steady (quiet_releaseLease lease))

theorem serves_calls (hClient : ∀ id, op ≠ .job id) :
    Calls config (Serves config op task) (Serves config op task) where
  toCompositional := serves_compositional
  inside := serves_compositional
  controlCheck := serves_controlCheck
  connect := serves_connect (fun h => by cases h) (by rintro (h | h) <;> cases h)
  check := fun generation => serves_check generation hClient
  hold := fun timeout _ h => serves_hold timeout h
  heldCheck := serves_controlCheck
  heldConnect := serves_connect (fun h => by cases h) (by rintro (h | h) <;> cases h)
  story := fun _ hEvent => serves_steady (calm_free (Or.inl hEvent))
  session := fun _ _ _ _ => serves_calm (quiet_session _ _ _ (calm_free (Or.inl rfl)))
  transfer := fun _ _ _ => serves_calm (quiet_runTransfer _ _ _)

theorem serves_upkeep : Upkeep config (Serves config op task) where
  toCompositional := serves_compositional
  never := serves_steady quiet_never
  wake := fun _ => serves_calm (calm_wait _ _)
  setWake := serves_setWake
  notes := fun _ hEvent => serves_steady (calm_free (Or.inr hEvent))
  once := serves_maintainOnce

/-- A reconnect that is on record has no delay outstanding. -/
theorem Balance.forget {sup : Supervisor} {trace : History} (h : Balance sup trace)
    (hNone : Supervision.outstanding trace = []) : Balance { sup with nextAttempt := 0 } trace where
  generation := h.generation
  epoch := h.epoch
  bounded := h.bounded
  connected := fun hUp => ⟨(h.connected hUp).1, (h.connected hUp).2.1, rfl, (h.connected hUp).2.2.2⟩
  standing := h.standing
  strikes := h.strikes
  lastProbe := h.lastProbe
  outstanding := by simp [hNone]
  jobs := h.jobs

theorem lwp_reconnect (force : Bool) (hCalled : Called (.reconnect force) task w.trace)
    (hNone : outstanding w.trace = []) :
    Lwp config (.reconnect force) task (reconnect config force) (Leaves task w) w := by
  have hClient : ∀ id, Op.reconnect force ≠ .job id := fun id h => by cases h
  have hRest := (@serves_calls config _ task hClient).reconnect force
    (fun hForce => serves_connect (fun _ => by rw [hForce]) fun _ => ⟨force, rfl⟩)
    (serves_connect (fun h => by cases h) fun _ => ⟨force, rfl⟩) (serves_setWake true)
  exact lwp_update_seq rfl (fun hLedger => hLedger.balance.forget hNone)
    fun hInv' hAudit => lwp_leaves (hRest _ hInv' (hCalled.stable hAudit)) hAudit

theorem serves_start : Serves config op task (start config) := by
  intro w hInv _
  have hPublish : Quiet (bookFrame config) op (fun _ => False) False (Transport.budget config).publish :=
    Calm.bind (quiet_fileOp _ (by simp)) fun _ => quiet_update fun _ => ⟨rfl, rfl⟩
  refine Extension.wp_get_bind (Extension.wp_when (fun _ => ?_) fun _ => ⟨hInv, Audit.refl task w⟩)
  refine Extension.wp_bind (Extension.wp_mono (Extension.wp_known hInv (lwp_calm hPublish hInv)) ?_)
  rintro (error | value) v _ ⟨hInvV, hCalmed⟩
  · exact ⟨hInvV, hCalmed.toAudit⟩
  · exact lwp_act rfl (fun e he => by cases he)
      (fun hLedger => ⟨hLedger.balance.create (Or.inl rfl) _ _, fun e he => by cases he⟩)
      fun hInv' hAudit => Extension.wp_pure ⟨hInv', hCalmed.toAudit.trans hAudit⟩

end Serves

section Shutdown

theorem serves_reap (id : Option Nat) : Serves config op task (reap id) := by
  cases id with
  | none => exact serves_pure ()
  | some id =>
      refine serves_bind (serves_update fun state => ⟨SameBooks.modify _ _ fun _ => rfl, rfl⟩) fun _ =>
        serves_compositional.tryCatch (serves_calm (calm_wait _ _)) fun error => ?_
      cases error with
      | cancelled => exact serves_pure ()
      | _ => exact serves_compositional.raise _

theorem serves_stopMaintenance : Serves config op task stopMaintenance :=
  serves_compositional.get fun _ => serves_bind
    (serves_update fun _ => ⟨⟨rfl, rfl, rfl, rfl, rfl, rfl, rfl, rfl, rfl⟩, rfl⟩) fun _ =>
    serves_bind (serves_reap _) fun _ => serves_reap _

/-- A gateway that has ended may say that it is no longer connected. -/
theorem Balance.end {sup : Supervisor} {trace : History} (h : Balance sup trace) (hEnded : Ended trace)
    {connection : ConnectionState} (hDown : connection ≠ .connected) :
    Balance { sup with state := connection } trace where
  generation := h.generation
  epoch := h.epoch
  bounded := h.bounded
  connected := fun hUp => absurd hUp hDown
  standing := fun _ _ => Or.inr hEnded
  strikes := h.strikes
  lastProbe := h.lastProbe
  outstanding := h.outstanding
  jobs := h.jobs

theorem lwp_close (hInv : Inv w) (hCalled : Called .close task w.trace) :
    Lwp config .close task (close config) (Leaves task w) w := by
  refine Extension.wp_bind (Extension.wp_mono (serves_stopMaintenance w hInv hCalled) ?_)
  rintro (error | value) v _ ⟨hInvV, hAudit⟩
  · exact ⟨hInvV, hAudit⟩
  · have hCalledV := hCalled.stable hAudit
    refine lwp_leaves (lwp_withLock hInvV fun u hU hHolder _ => ?_) hAudit
    obtain ⟨entry, hEntry, hTask, hEvent⟩ := (hCalledV.stable hU.audit).entry
    refine lwp_stopMaster_seq hU.inv (Or.inr ⟨entry, hEntry, hTask, hEvent⟩) (fun u' hU' => ?_) fun _ u' hU' =>
      hU'.leaves _
    refine lwp_leaves (lwp_act rfl (fun e he => by cases he) (fun hLedger => ⟨hLedger.balance.end
      (Or.inl ⟨entry, hU'.audit.history.subset hEntry, hEvent⟩) (by simp), fun e he => by cases he⟩)
      fun hInv' hAudit' => Extension.wp_pure ⟨hInv', hAudit'⟩) hU'.audit

end Shutdown

section Jobs

theorem lwp_settleJob (id : Nat) (outcome : Except Error (Option ProbeOutcome)) :
    Lwp config op task (Coro.update fun state => state.settleJob id outcome) (fun _ _ => True) w :=
  lwp_act rfl (fun e he => by cases he) (fun hLedger =>
    ⟨hLedger.balance.same (SameBooks.modify _ _ fun _ => rfl), fun e he => by cases he⟩)
    fun _ _ => Extension.wp_pure trivial

theorem lwp_runJob {id : Nat} {before : History} (hInv : Inv w)
    (hCalled : Called (.job id) task w.trace)
    (hBegan : w.trace = ⟨task, .called (.job id), w.state⟩ :: before)
    (hFresh : ∀ other ∈ w.trace, other.task = task → other.event.isCount = false) :
    Lwp config (.job id) task (runJob config id) (fun _ _ => True) w := by
  refine Extension.wp_inv fun hLedger => Extension.wp_get_bind ?_
  split
  · exact Extension.wp_pure trivial
  · next epoch hKind =>
      have hProbing : Probing task epoch w.trace := by
        obtain ⟨hLow, -, hSettled⟩ := hLedger.balance.jobs id epoch (by rw [List.getElem?_map]; exact hKind)
        have hEpoch := hLedger.balance.epoch
        rw [hBegan] at hEpoch hSettled
        exact ⟨⟨⟨task, .called (.job id), w.state⟩, before, hBegan ▸ List.suffix_rfl, rfl, ⟨id, rfl⟩,
          hLow.trans hEpoch.le, fun hNow => hSettled (hNow.trans hEpoch.symm)⟩, hFresh⟩
      have hPositive : 1 ≤ w.state.sup.generation :=
        (hLedger.balance.jobs id epoch (by rw [List.getElem?_map]; exact hKind)).2.1
      have hProbe : Lwp config (.job id) task (do wait .begin; runProbe config epoch : Py ProbeOutcome)
          (fun outcome v => Inv v ∧ ∀ result, outcome = .ok result → Probed result v.trace) w := by
        refine Extension.wp_bind (Extension.wp_mono (lwp_waited (calm_wait _ _) (calm_wait _ _) hInv) ?_)
        rintro (error | value) v _ hV
        · exact ⟨hV.inv, fun _ h => by cases h⟩
        · exact lwp_runProbe hV.inv (hProbing.stable hV.audit)
            (hPositive.trans hV.rely.grows.progress.generation)
      refine Extension.wp_bind (Extension.wp_attempt (Extension.wp_mono hProbe ?_))
      rintro (error | outcome) v _ ⟨hInvV, hEnded⟩
      · exact lwp_settleJob id _
      · refine lwp_act rfl (fun e he => by cases he; rfl) (fun hLedgerV => ⟨?_, fun e he => ?_⟩)
          fun _ _ => Extension.wp_pure trivial
        · exact hLedgerV.balance.act_same (SameBooks.modify _ _ fun _ => rfl) fun e he => by cases he; rfl
        · cases he
          exact hEnded outcome rfl
  · have hMaintain : Serves config (.job id) task (do wait .begin; maintain config config.rounds : Py Unit) :=
      serves_bind (serves_calm (calm_wait _ _)) fun _ => serves_upkeep.maintain _
    refine Extension.wp_bind (Extension.wp_attempt (Extension.wp_mono (hMaintain w hInv hCalled) ?_))
    rintro (error | value) v _ _
    · exact lwp_settleJob id _
    · exact lwp_settleJob id _

end Jobs

section Serve

theorem Balance.called {sup : Supervisor} {trace : History} (h : Balance sup trace) (task : Nat) (op : Op)
    (state : State) : Balance sup (⟨task, .called op, state⟩ :: trace) := by
  cases op with
  | reconnect force =>
      exact ⟨h.generation, h.epoch, h.bounded, h.connected,
        fun hSettled hGeneration => (h.standing hSettled hGeneration).imp_right (·.cons _),
        h.strikes, h.lastProbe, by simp [Supervision.outstanding], h.jobs⟩
  | _ => exact h.other rfl

/-- A value that has been returned names a generation that there has been, if any. -/
def Reported (outcome : Except Error Value) (w : GatewayWorld) : Prop :=
  ∀ value, outcome = .ok value → ∀ generation ∈ value.named, Known generation w

theorem Reported.error (error : Error) (w : GatewayWorld) : Reported (.error error) w :=
  fun _ h => by cases h

theorem Reported.unnamed {value : Value} (h : value.named = none) (w : GatewayWorld) :
    Reported (.ok value) w := by
  rintro _ ⟨⟩ generation hNamed
  rw [h] at hNamed
  cases hNamed

/-- A call of a client, once it is on record. -/
theorem lwp_dispatch {before : History} (hDetach : op ≠ .detach) (hInv : Inv w) (hBorn : task < w.started)
    (hStory : story task w.trace = [.called op]) (hCalled : Called op task w.trace)
    (hBegan : w.trace = ⟨task, .called op, w.state⟩ :: before)
    (hFresh : ∀ other ∈ w.trace, other.task = task → other.event.isCount = false) :
    Lwp config op task (dispatch config op) Reported w := by
  have hThen : ∀ {α : Type} {code : Py α} (f : α → Value) {post : Except Error α → GatewayWorld → Prop},
      Lwp config op task code post w → (∀ value v, post (.ok value) v → Reported (.ok (f value)) v) →
      Lwp config op task (code.bind fun value => .pure (f value)) Reported w := by
    intro α code f post h hPost
    refine Extension.wp_bind (Extension.wp_mono h ?_)
    rintro (error | value) v _ hV
    · exact Reported.error error v
    · exact Extension.wp_pure (hPost value v hV)
  have hStands : Stands op task .waiting w := ⟨hInv, hBorn, by rw [hStory]; exact Path.called⟩
  cases op with
  | execute command stdin timeout retrySafe =>
      refine hThen .command (Extension.wp_and (known_execute command stdin timeout hStands)
        ((serves_calls fun _ h => by cases h).execute _ _ _ _ w hInv hCalled)) ?_
      rintro result v hV _ ⟨⟩ generation hNamed
      cases hNamed
      exact hV.1 result rfl
  | transfer tool arguments executable timeout =>
      refine hThen .command (Extension.wp_and (known_transfer tool arguments executable timeout hStands rfl)
        ((serves_calls fun _ h => by cases h).transfers _ _ _ _ w hInv hCalled)) ?_
      rintro result v hV _ ⟨⟩ generation hNamed
      cases hNamed
      exact hV.1 result rfl
  | connectionAttachment =>
      have hIdles : Idles task w w := ⟨hInv, Grows.refl w, hBorn, fun other hOther => by
        rw [hStory, List.mem_singleton] at hOther
        cases hOther
        rfl⟩
      refine hThen .attachment (Extension.wp_and (known_connectionAttachment hIdles)
        ((serves_calls fun _ h => by cases h).connectionAttachment w hInv hCalled)) ?_
      rintro attachment v hV _ ⟨⟩ generation hNamed
      cases hNamed
      exact hV.1 attachment rfl
  | health probe =>
      exact hThen .health ((serves_calls fun _ h => by cases h).health probe w hInv hCalled)
        fun _ v _ => Reported.unnamed rfl v
  | reconnect force =>
      exact hThen .health (lwp_reconnect force hCalled (by rw [hBegan]; rfl)) fun _ v _ => Reported.unnamed rfl v
  | start => exact hThen (fun _ => .none) (serves_start w hInv hCalled) fun _ v _ => Reported.unnamed rfl v
  | close => exact hThen (fun _ => .none) (lwp_close hInv hCalled) fun _ v _ => Reported.unnamed rfl v
  | detach => exact absurd rfl hDetach
  | job id =>
      exact hThen (fun _ => .none) (lwp_runJob hInv hCalled hBegan hFresh) fun _ v _ => Reported.unnamed rfl v

/-- A call's result or error, put on record. -/
def conclude (outcome : Except Error Value) : Py Value :=
  match outcome with
  | .ok value => do
      Coro.mark (.returned value)
      return value
  | .error error => do
      Coro.mark (.raised error)
      Coro.raise error

theorem lwp_conclude {outcome : Except Error Value} (h : Reported outcome w) :
    Lwp config op task (conclude outcome) (fun _ _ => True) w := by
  cases outcome with
  | error error => exact lwp_mark_seq rfl rfl (fun _ => trivial) fun _ _ => Extension.wp_raise trivial
  | ok value =>
      refine lwp_mark_seq rfl rfl (fun hLedger generation hNamed => ?_) fun _ _ => Extension.wp_pure trivial
      obtain ⟨hLow, hHigh⟩ := h value rfl generation hNamed
      exact ⟨hLow, hHigh.trans hLedger.balance.generation.le⟩

/-- A gateway is detached when the call has returned: the state changes in the
same step as the end is put on record. -/
theorem lwp_detached (hInv : Inv w) (hCalled : Called .detach task w.trace) :
    Lwp config .detach task ((dispatch config .detach).attempt.bind conclude) (fun _ _ => True) w := by
  intro start hStart
  refine Extension.along_bind (Extension.along_attempt (Extension.along_bind (Extension.along_bind
    (Extension.along_mono (serves_stopMaintenance w hInv hCalled start hStart) ?_))))
  rintro (error | value) s v ⟨hAct, hInvV, hAudit⟩
  · exact lwp_conclude (Reported.error error v) s hAct
  · -- The two updates and the mark are one action.
    intro _ _ _
    obtain ⟨entry, hEntry, hTask, hEvent⟩ := (hCalled.stable hAudit).entry
    have hReturns : ∀ state : State, state.sup = { v.state.sup with state := .detached } →
        state.os.clock = v.state.os.clock →
        (ledger config).Act task v (v.act task (some (.returned .none)) state) := by
      intro state hSup hClock
      have hReturned : Balance v.state.sup (⟨task, .returned .none, state⟩ :: v.trace) :=
        hAct.1.balance.other rfl
      have hEnded : Ended (⟨task, .returned .none, state⟩ :: v.trace) :=
        Or.inr ⟨entry, List.mem_cons_of_mem _ hEntry, hEvent, _, List.mem_cons_self, hTask.symm, rfl⟩
      refine ledger_act hAct.1 hClock.ge ?_ fun e he => by
        cases he
        exact fun _ hNamed => by cases hNamed
      rw [hSup]
      exact hReturned.end hEnded (by simp)
    exact ⟨hAct.trans _ (hReturns _ rfl rfl), trivial⟩

/-- A task that has not begun yet has no part in the history. -/
theorem lwp_serve (hBorn : task < w.started) (hStory : story task w.trace = [])
    (hFresh : ∀ other ∈ w.trace, other.task = task → other.event.isSingle = false) :
    Lwp config op task (serve config op) (fun _ _ => True) w := by
  refine lwp_single_seq (fun hLedger => ⟨hLedger.balance.called task op _, hFresh⟩) fun hInv => ?_
  have hCalled : Called op task (w.act task (some (.called op)) w.state).trace := by
    refine ⟨⟨_, List.mem_cons_self, rfl, rfl⟩, fun entry hEntry hTask other hEvent => ?_⟩
    rcases List.mem_cons.mp hEntry with rfl | hOld
    · cases hEvent
      rfl
    · have hNot := hFresh entry hOld hTask
      rw [hEvent] at hNot
      cases hNot
  have hCount : ∀ other ∈ (w.act task (some (.called op)) w.state).trace, other.task = task →
      other.event.isCount = false := by
    intro other hOther hTask
    rcases List.mem_cons.mp hOther with rfl | hOld
    · rfl
    · have hNot := hFresh other hOld hTask
      obtain ⟨actor, event, state⟩ := other
      cases event <;> first | rfl | cases hNot
  by_cases hDetach : op = .detach
  · subst hDetach
    exact lwp_detached hInv hCalled
  · exact Extension.wp_bind (Extension.wp_attempt (Extension.wp_mono
      (lwp_dispatch hDetach hInv (by simpa using hBorn)
        (by rw [World.act_some_trace, story_cons_same _ _ _ _ rfl, hStory]) hCalled rfl hCount)
      fun outcome v _ hReported => lwp_conclude hReported))

end Serve

section Runs

theorem Ledger.boot (os : Os) : Ledger config { state := State.boot os } where
  clock := by simp
  balance :=
    { generation := rfl
      epoch := rfl
      bounded := Nat.le_refl 0
      connected := fun h => by cases h
      standing := fun _ h => absurd h (by simp [State.boot])
      strikes := rfl
      lastProbe := rfl
      outstanding := by simp [outstanding]
      jobs := by simp [State.boot] }
  warranted := by simp

/-- Time never goes back. -/
theorem clock_apply {os after : Os} {move : Move} (h : move.apply config os = some after) :
    os.clock ≤ after.clock := by
  cases move with
  | tick seconds =>
      simp only [Move.apply, Option.ite_none_right_eq_some, Option.some.injEq] at h
      obtain ⟨hSeconds, rfl⟩ := h
      exact le_add_of_nonneg_right hSeconds
  | masterBinds pid | leaseTaken file | leaseFreed lease =>
      simp only [Move.apply, Option.ite_none_right_eq_some, Option.some.injEq] at h
      exact h.2 ▸ le_rfl
  | lateSpawn pid =>
      simp only [Move.apply, Os.spawn, Option.ite_none_right_eq_some, Option.some.injEq] at h
      exact h.2.2 ▸ le_rfl
  | _ =>
      cases h
      exact le_rfl

theorem ledger_sound (config : Config) : (ledger config).Sound (fun _ => True) fun _ => True where
  disturbs := by
    intro move world state _ _ hLedger hMove
    obtain ⟨os, hApply, rfl⟩ := Option.map_eq_some_iff.mp hMove
    have hClock := clock_apply hApply
    exact ⟨⟨fun entry hEntry => (hLedger.clock entry hEntry).trans hClock, hLedger.balance,
      hLedger.warranted⟩, fun task =>
      ⟨⟨List.suffix_rfl, hClock, fun _ _ h => absurd h since_self⟩, fun _ _ h => absurd h since_self⟩⟩
  starts := by
    intro op world state _ hInv hLedger hAccept _
    have hSame : SameBooks world.state.sup state.sup ∧ state.os.clock = world.state.os.clock := by
      cases op with
      | job id =>
          simp only [gateway, Host.accept, Option.ite_none_right_eq_some, Option.some.injEq] at hAccept
          rw [← hAccept.2]
          exact ⟨SameBooks.modify _ _ fun _ => rfl, rfl⟩
      | _ =>
          cases hAccept
          exact ⟨SameBooks.of_eq rfl, rfl⟩
    have hStart : (ledger config).Act world.started world
        { world with state, started := world.started + 1 } :=
      ⟨⟨fun entry hEntry => (hLedger.clock entry hEntry).trans hSame.2.ge, hLedger.balance.same hSame.1,
        hLedger.warranted⟩, fun other _ =>
        ⟨⟨List.suffix_rfl, hSame.2.ge, fun _ _ h => absurd h since_self⟩, fun _ _ h => absurd h since_self⟩⟩
    have hFresh : ∀ other ∈ world.trace, other.task = world.started → other.event.isSingle = false := by
      intro other hOther hTask
      have hStory : ∀ entry ∈ world.trace, entry.task = world.started → entry.event.isStory = false := by
        intro entry hEntry hMine
        by_contra hTells
        have hOld := hInv.tellers entry hEntry (by simpa using hTells)
        omega
      obtain ⟨rest, hSuffix⟩ := exists_suffix_of_mem hOther
      have hWarranted := hLedger.warranted other rest hSuffix
      have hPlain := hStory other hOther hTask
      obtain ⟨actor, event, state⟩ := other
      cases event with
      | called op => cases hPlain
      | probeCounted outcome =>
          obtain ⟨-, beginning, before, hIn, hMine, ⟨id, hJob⟩, -⟩ := hWarranted
          have hOwn := hStory beginning (hSuffix.subset (List.mem_cons_of_mem _ (hIn.subset List.mem_cons_self)))
            (hMine.trans hTask)
          rw [hJob] at hOwn
          cases hOwn
      | _ => rfl
    have hStory : story world.started world.trace = [] := (start_same hInv hAccept).2
    have hServe := @lwp_serve config op world.started
      { world with state, started := world.started + 1 } (Nat.lt_succ_self _) hStory hFresh
    exact Extension.along_mono (hServe world hStart) fun _ _ _ hEnd => hEnd.1

/-- The ledger is kept in every run. -/
theorem ledger_of_run {os : Os} {choices : List (Choice (gateway config))} {final : Loop (gateway config)}
    (hRun : gatewayRun config os choices = some final) : Ledger config final.world :=
  ((ledger_sound config).run (sound config) (Inv.boot os) (Ledger.boot os) hRun (fun _ _ => trivial)
    fun _ _ => trivial).inv

end Runs

end Pazuzu.Supervision
