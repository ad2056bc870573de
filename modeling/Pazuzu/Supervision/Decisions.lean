import Pazuzu.Supervision.Audit

/-! The decisions of the gateway, each with the reason it was made for:
adoption, replacement, the checks, and the probes that are counted. -/
namespace Pazuzu.Supervision

open Asyncio Coro Supervisor

variable {config : Config} {op : Op} {task : Nat} {α β : Type} {v w : GatewayWorld}

theorem mem_or_since {old new : History} {entry : Record} (hOld : old <:+ new) (h : entry ∈ new) :
    entry ∈ old ∨ ∃ rest, Since old new entry rest := by
  obtain ⟨stretch, rfl⟩ := hOld
  rcases List.mem_append.mp h with hNew | hIn
  · obtain ⟨newer, older, rfl⟩ := List.append_of_mem hNew
    refine Or.inr ⟨older ++ old, ?_, List.suffix_append _ _⟩
    rw [List.append_assoc]
    exact List.suffix_append _ _
  · exact Or.inl hIn

/-- What the task was called for, and nothing else. -/
structure Called (op : Op) (task : Nat) (history : History) : Prop where
  entry : ∃ entry ∈ history, entry.task = task ∧ entry.event = .called op
  only : ∀ entry ∈ history, entry.task = task → ∀ other, entry.event = .called other → other = op

theorem Called.stable (h : Called op task v.trace) (hAudit : Audit task v w) : Called op task w.trace where
  entry := by
    obtain ⟨entry, hEntry, hMine⟩ := h.entry
    exact ⟨entry, hAudit.history.subset hEntry, hMine⟩
  only := by
    intro entry hEntry hTask other hEvent
    rcases mem_or_since hAudit.history hEntry with hOld | ⟨rest, hSince⟩
    · exact h.only entry hOld hTask other hEvent
    · have hNot := hAudit.own entry rest hSince hTask
      rw [hEvent] at hNot
      cases hNot

theorem Called.reconnects {force : Bool} {history : History} (h : Called (.reconnect force) task history) :
    Reconnects task history := by
  obtain ⟨entry, hEntry, hTask, hEvent⟩ := h.entry
  exact ⟨entry, hEntry, hTask, by rw [hEvent]; rfl⟩

/-- The task has begun an attempt, and no master was connected since. -/
def Begun (task : Nat) (history : History) : Prop :=
  ∃ beginning before, (beginning :: before) <:+ history ∧ beginning.task = task ∧
    beginning.event.beginsAttempt = true ∧
    ∀ entry rest, Since (beginning :: before) history entry rest → entry.event.isRepair = false

/-- Stretches of history without repair events make one. -/
theorem plain_trans {old mid new : History} (hOld : old <:+ mid) (hNew : mid <:+ new)
    (h : ∀ entry rest, Since old mid entry rest → entry.event.isRepair = false)
    (h' : ∀ entry rest, Since mid new entry rest → entry.event.isRepair = false) :
    ∀ entry rest, Since old new entry rest → entry.event.isRepair = false := by
  intro entry rest hSince
  rcases hSince.split hOld hNew with hFirst | hSecond
  · exact h entry rest hFirst
  · exact h' entry rest hSecond

theorem Begun.extend {old new : History} (h : Begun task old) (hSuffix : old <:+ new)
    (hPlain : ∀ entry rest, Since old new entry rest → entry.event.isRepair = false) : Begun task new := by
  obtain ⟨beginning, before, hIn, hTask, hBegins, hSince⟩ := h
  exact ⟨beginning, before, hIn.trans hSuffix, hTask, hBegins, plain_trans hIn hSuffix hSince hPlain⟩

theorem Begun.attempting {history : History} (h : Begun task history) : attempting history = true := by
  obtain ⟨beginning, before, ⟨stretch, rfl⟩, -, hBegins, hSince⟩ := h
  induction stretch with
  | nil =>
      obtain ⟨actor, event, state⟩ := beginning
      cases event <;> first | rfl | cases hBegins
  | cons newest earlier ih =>
      have hNewest := hSince newest (earlier ++ beginning :: before) ⟨List.suffix_rfl, List.suffix_append _ _⟩
      have hEarlier := ih fun entry rest hEntry => hSince entry rest (hEntry.extend (List.suffix_cons _ _))
      obtain ⟨actor, event, state⟩ := newest
      cases event <;> first | exact hEarlier | rfl | cases hNewest

/-- Whoever repairs has begun to, and no repair event has come since. -/
theorem repair_of_repairer {history : History} (h : repairer history = some task) :
    ∃ beginning before, (beginning :: before) <:+ history ∧ beginning.task = task ∧
      beginning.event = .repairBegan ∧
      ∀ entry rest, Since (beginning :: before) history entry rest → entry.event.isRepair = false := by
  induction history with
  | nil => cases h
  | cons newest earlier ih =>
      cases hRepair : newest.event.isRepair with
      | false =>
          rw [repairer, if_neg (by simp [hRepair])] at h
          obtain ⟨beginning, before, hIn, hTask, hEvent, hPlain⟩ := ih h
          refine ⟨beginning, before, hIn.trans (List.suffix_cons _ _), hTask, hEvent,
            plain_trans hIn (List.suffix_cons _ _) hPlain fun entry rest hSince => ?_⟩
          obtain ⟨rfl, rfl⟩ := since_cons.mp hSince
          exact hRepair
      | true =>
          rw [repairer, if_pos hRepair] at h
          obtain ⟨actor, event, state⟩ := newest
          cases event <;> first
            | exact ⟨_, _, List.suffix_rfl, Option.some.inj h, rfl, fun _ _ hSince => absurd hSince since_self⟩
            | (cases hRepair; done)
            | cases h

theorem begun_of_repairer {history : History} (h : repairer history = some task) : Begun task history := by
  obtain ⟨beginning, before, hIn, hTask, hEvent, hPlain⟩ := repair_of_repairer h
  exact ⟨beginning, before, hIn, hTask, by rw [hEvent]; rfl, hPlain⟩

/-- A good probe session of the task that has begun the attempt proves the master. -/
theorem Begun.proved {old new : History} (h : Begun task old) (hSuffix : old <:+ new)
    (hPlain : ∀ entry rest, Since old new entry rest → entry.event.isRepair = false)
    (hEnded : ProbeEnded task .ok old new) : Proved task new := by
  obtain ⟨beginning, before, hIn, hTask, hBegins, hSince⟩ := h
  obtain ⟨probe, rest, hProbe, hMine, hEvent, hOpened⟩ := hEnded
  obtain ⟨opened, earlier, hOpen, hOpener, hOpening⟩ := hOpened rfl
  exact ⟨beginning, before, hIn.trans hSuffix, hTask, hBegins, plain_trans hIn hSuffix hSince hPlain,
    probe, rest, hProbe.mono hIn, hMine, hEvent, opened, earlier, hOpen.mono hIn, hOpener, hOpening⟩

theorem Proved.begun {history : History} (h : Proved task history) : Begun task history := by
  obtain ⟨beginning, before, hIn, hTask, hBegins, hSince, -⟩ := h
  exact ⟨beginning, before, hIn, hTask, hBegins, hSince⟩

section Locked

/-- What the lock keeps from the others while its holder runs calm code. -/
theorem Waited.protected (h : Waited task v w) (hHolder : (core v.state).holder = some task) :
    Protected v w task :=
  h.rely.held hHolder

theorem Waited.plain (h : Waited task v w) (hHolder : (core v.state).holder = some task) :
    ∀ entry rest, Since v.trace w.trace entry rest → entry.event.isRepair = false :=
  fun entry rest hSince => ((h.protected hHolder).entries entry rest hSince).2

theorem Waited.repairer (h : Waited task v w) (hHolder : (core v.state).holder = some task) :
    Supervision.repairer w.trace = Supervision.repairer v.trace :=
  repairer_eq_of_since h.audit.history (h.plain hHolder)

theorem Waited.begun (h : Waited task v w) (hHolder : (core v.state).holder = some task)
    (hBegun : Begun task v.trace) : Begun task w.trace :=
  hBegun.extend h.audit.history (h.plain hHolder)

/-- Where code leaves the world to the next one. -/
def Leaves (task : Nat) (w : GatewayWorld) : Except Error α → GatewayWorld → Prop :=
  fun _ w' => Inv w' ∧ Audit task w w'

theorem Leaves.earlier {outcome : Except Error α} (h : Leaves task w outcome v) {w₀ : GatewayWorld}
    (hAudit : Audit task w₀ w) : Leaves task w₀ outcome v :=
  ⟨h.1, hAudit.trans h.2⟩

theorem Waited.leaves (h : Waited task v w) (outcome : Except Error α) : Leaves task v outcome w :=
  ⟨h.inv, h.audit⟩

theorem lwp_leaves {code : Py α} (h : Lwp config op task code (Leaves task v) v) (hAudit : Audit task w v) :
    Lwp config op task code (Leaves task w) v :=
  Extension.wp_mono h fun _ _ _ hEnd => hEnd.earlier hAudit

theorem quiet_acquire_repair {expected : Error → Prop} {marked : Prop} :
    Quiet (bookFrame config) op expected marked (acquire .repair) := by
  have hLock : ∀ (f : State → Lock) (m : Prop), Quiet (bookFrame config) op expected m
      (Coro.update fun state => state.setLock .repair (f state)) := fun f m =>
    Calm.update fun state => ⟨⟨rfl, rfl, rfl, rfl, rfl, rfl, rfl, rfl, rfl⟩, rfl⟩
  refine Calm.bind Calm.current fun me => Calm.bind Calm.get fun state =>
    Calm.ite (hLock (fun state => { state.lock .repair with holder := some me }) _)
      (Calm.bind (hLock (fun state => { state.lock .repair with
        waiters := (state.lock .repair).waiters ++ [me] }) _) fun _ => ?_)
  refine Calm.bind (Calm.tryFinally (quiet_wait (fun _ => rfl) fun error state h => ?_) fun m =>
    hLock (fun state => { state.lock .repair with waiters := (state.lock .repair).waiters.erase me }) m)
    fun _ => hLock (fun state => { state.lock .repair with holder := some me }) _
  cases error <;> cases h

/-- A body under the repair lock, with what its end and the history say. -/
theorem lwp_withLock_found {body : Py α} (found : Except Error α → History → Prop)
    (hFailed : ∀ error history, found (.error error) history) (hInv : Inv w)
    (hBody : ∀ v, Waited task w v → (core v.state).holder = some task → repairing v.trace = false →
      Lwp config op task body (fun outcome u => Leaves task v outcome u ∧ found outcome u.trace) v) :
    Lwp config op task (withLock .repair body) (fun outcome u => Leaves task w outcome u ∧ found outcome u.trace)
      w := by
  have hAcquire : Wp config op task (acquire .repair) (fun outcome v => Inv v ∧ Rely task w v ∧
      (outcome = .ok () → (core v.state).holder = some task ∧ repairing v.trace = false)) w :=
    wp_acquire hInv (fun v hInvV hRely hHolder hIdle => ⟨hInvV, hRely, fun _ => ⟨hHolder, hIdle⟩⟩)
      fun v hInvV hRely _ => ⟨hInvV, hRely, fun h => by cases h⟩
  have hQuiet : Quiet (bookFrame config) op (fun _ => False) False (acquire .repair) := quiet_acquire_repair
  refine Extension.wp_bind (Extension.wp_mono (Extension.wp_and hAcquire (lwp_calm hQuiet hInv)) ?_)
  rintro (error | value) v _ ⟨⟨hInvV, hRely, hTaken⟩, hCalmed⟩
  · exact ⟨⟨hInvV, hCalmed.toAudit⟩, hFailed error v.trace⟩
  · obtain ⟨hHolder, hIdle⟩ := hTaken rfl
    refine Extension.wp_tryFinally (Extension.wp_mono (hBody v ⟨hInvV, hRely, hCalmed⟩ hHolder hIdle) ?_)
    rintro outcome u _ ⟨⟨hInvU, hAuditU⟩, hFound⟩
    refine lwp_act rfl (fun e he => by cases he) (fun hLedger => ⟨?_, fun e he => by cases he⟩)
      fun hInv' hAudit' => Extension.wp_pure ⟨⟨hInv', (hCalmed.toAudit.trans hAuditU).trans hAudit'⟩, hFound⟩
    exact hLedger.balance.act_same ⟨rfl, rfl, rfl, rfl, rfl, rfl, rfl, rfl, rfl⟩ (by simp)

theorem lwp_withLock {body : Py α} (hInv : Inv w)
    (hBody : ∀ v, Waited task w v → (core v.state).holder = some task → repairing v.trace = false →
      Lwp config op task body (Leaves task v) v) :
    Lwp config op task (withLock .repair body) (Leaves task w) w := by
  refine Extension.wp_mono (lwp_withLock_found (fun _ _ => True) (fun _ _ => trivial) hInv
    fun v hV hHolder hIdle => ?_) fun _ _ _ hEnd => hEnd.1
  exact Extension.wp_mono (hBody v hV hHolder hIdle) fun _ _ _ hLeaves => ⟨hLeaves, trivial⟩

end Locked

section Repair

/-- A decision that is put on record, and the calm code that follows from it. -/
theorem lwp_noted {event : Event} {code : Py α} {R : Raises gatewaySignature}
    (h : code.Calm (bookFrame config) op R False) (hEvent : event.isEntered = false)
    (hOwn : event.isSingle = false ∧ event.isAsking = false)
    (hWarranted : Warranted config ⟨task, event, w.state⟩ w.trace) :
    Lwp config op task ((Coro.mark event).bind fun _ => code) (fun _ v => Calmed task w v) w := by
  have hNoted : Calmed task w (w.act task (some event) w.state) :=
    Calmed.act le_rfl (Or.inr fun e he => by cases he; exact hOwn)
  exact lwp_mark_seq hEvent hOwn.1 (fun _ => hWarranted) fun hInv' _ =>
    Extension.wp_mono (lwp_calm h hInv') fun _ _ _ hLater => hNoted.trans hLater

theorem lwp_startMaster (hInv : Inv w) (hRepairs : repairer w.trace = some task) :
    Lwp config op task (Transport.startMaster config) (fun outcome v => Waited task w v ∧
      (outcome = .ok () → ProbeEnded task .ok w.trace v.trace)) w := by
  obtain ⟨launch, hStart, hLaunch⟩ := @quiet_launchMaster config (bookFrame config) op False _
  have hFinds : Finds config op task (Transport.startMaster config)
      (fun _ new => ProbeEnded task .ok w.trace new) w := finds_startMaster hInv
  have hBooks : Lwp config op task (Transport.startMaster config) (fun _ v => Calmed task w v) w := by
    rw [hStart]
    exact lwp_noted hLaunch rfl ⟨rfl, rfl⟩ hRepairs
  refine Extension.wp_mono (Extension.wp_and hFinds hBooks) ?_
  rintro outcome v _ ⟨⟨hInvV, hRely, hFound⟩, hCalmed⟩
  exact ⟨⟨hInvV, hRely, hCalmed⟩, fun hOk => hFound () hOk⟩

/-- The master is stopped by whoever repairs it, or by the call that closes the gateway. -/
theorem lwp_stopMaster_seq {next : Unit → Py β} {post : Except Error β → GatewayWorld → Prop} (hInv : Inv w)
    (hWhy : repairer w.trace = some task ∨
      ∃ other ∈ w.trace, other.task = task ∧ other.event = .called .close)
    (hNext : ∀ v, Waited task w v → Lwp config op task (next ()) post v)
    (hError : ∀ error v, Waited task w v → post (.error error) v) :
    Lwp config op task ((Transport.stopMaster config).bind next) post w := by
  obtain ⟨halt, hStop, hHalt⟩ := @quiet_haltMaster config (bookFrame config) op False _ fun _ => False
  have hQuiet : Quiet (frame config) op (fun _ => False) False (Transport.stopMaster config) :=
    quiet_stopMaster rfl
  have hBooks : Lwp config op task (Transport.stopMaster config) (fun _ v => Calmed task w v) w := by
    rw [hStop]
    exact lwp_noted hHalt rfl ⟨rfl, rfl⟩ hWhy
  refine Extension.wp_bind (Extension.wp_mono (Extension.wp_and (frame_fits.wp hQuiet hInv) hBooks) ?_)
  rintro (error | value) v _ ⟨⟨hInvV, hRely, -⟩, hCalmed⟩
  · exact hError error v ⟨hInvV, hRely, hCalmed⟩
  · exact hNext v ⟨hInvV, hRely, hCalmed⟩

/-- A master that has been proved is entered as connected. -/
theorem lwp_recordConnected (hProved : Proved task w.trace) :
    Lwp config op task (Coro.record .masterConnected State.recordConnected)
      (fun outcome v => Leaves task w outcome v ∧ outcome = .ok ()) w :=
  lwp_act rfl (fun e he => by cases he; rfl)
    (fun hLedger => ⟨hLedger.balance.connect hProved.begun.attempting, fun e he => by cases he; exact hProved⟩)
    fun hInv' hAudit => Extension.wp_pure ⟨⟨hInv', hAudit⟩, rfl⟩

/-- What the loop over the start attempts leaves behind without a master. -/
def Unstarted (task : Nat) (outcome : Except Error (Option String)) (w : GatewayWorld) : Prop :=
  outcome ≠ .ok none → (core w.state).holder = some task ∧ repairer w.trace = some task

theorem lwp_startAttempts (hInv : Inv w) (hHolder : (core w.state).holder = some task)
    (hRepairs : repairer w.trace = some task) (attempt : Nat) (detail : String) (remaining : Nat) :
    Lwp config op task (startAttempts config attempt detail remaining)
      (fun outcome v => Leaves task w outcome v ∧ Unstarted task outcome v) w := by
  induction remaining generalizing w attempt detail with
  | zero =>
      exact Extension.wp_pure ⟨⟨hInv, Audit.refl task w⟩, fun _ => ⟨hHolder, hRepairs⟩⟩
  | succ remaining ih =>
      have hStill : ∀ {outcome v}, Waited task w v → Unstarted task outcome v := fun hV _ =>
        ⟨(hV.protected hHolder).holder, (hV.repairer hHolder).trans hRepairs⟩
      -- A failed attempt is cleaned up before the next one.
      have hNext : ∀ message v, Waited task w v →
          Lwp config op task (do
            Transport.stopMaster config
            if classifyConnectionFailure message = .authenticationRequired then
              return some message
            else
              Coro.when (remaining ≠ 0) (sleep (min 2 (1 / 2 * 2 ^ attempt)))
              startAttempts config (attempt + 1) message remaining)
            (fun outcome v => Leaves task w outcome v ∧ Unstarted task outcome v) v := by
        intro message v hV
        refine lwp_stopMaster_seq hV.inv (Or.inl ((hV.repairer hHolder).trans hRepairs)) (fun u hU => ?_)
          fun error u hU => ⟨(hV.trans hU).leaves _, hStill (hV.trans hU)⟩
        have hBoth := hV.trans hU
        refine Extension.wp_ite (fun _ => Extension.wp_pure ⟨hBoth.leaves _, hStill hBoth⟩) fun _ => ?_
        refine lwp_steady_seq (Calm.when (quiet_sleep _)) (Calm.when (quiet_sleep _)) hU.inv (fun _ u' hU' => ?_)
          fun error u' hU' => ⟨(hBoth.trans hU').leaves _, hStill (hBoth.trans hU')⟩
        have hAll := hBoth.trans hU'
        refine Extension.wp_mono (ih hAll.inv (hAll.protected hHolder).holder
          ((hAll.repairer hHolder).trans hRepairs) (attempt + 1) message) ?_
        exact fun outcome v' _ hEnd => ⟨hEnd.1.earlier hAll.audit, hEnd.2⟩
      refine Extension.wp_bind (Extension.wp_attempt (Extension.wp_mono (lwp_startMaster hInv hRepairs) ?_))
      rintro (error | value) v _ ⟨hV, hEnded⟩
      · cases error with
        | connectionUnavailable message | commandTimedOut message => exact hNext message v hV
        | _ => exact Extension.wp_raise ⟨hV.leaves _, hStill hV⟩
      · have hProved := (begun_of_repairer hRepairs).proved hV.audit.history (hV.plain hHolder) (hEnded rfl)
        refine Extension.wp_bind (Extension.wp_mono (lwp_recordConnected hProved) ?_)
        rintro (error | value) u _ ⟨hLeaves, hOk⟩
        · cases hOk
        · exact Extension.wp_pure ⟨hLeaves.earlier hV.audit, fun h => absurd rfl h⟩

theorem lwp_raiseUnavailable {post : Except Error α → GatewayWorld → Prop}
    (h : ∀ message, post (.error (.connectionUnavailable message)) w) :
    Lwp config op task (raiseUnavailable : Py α) post w :=
  Extension.wp_get_bind (Extension.wp_raise (h _))

/-- No failure outstanding has a longer delay than the one recorded now. -/
theorem delay_mono (hInv : Inv w) (hLedger : Ledger config w) {delay : Nat}
    (hDelay : boundedBackoff (w.state.sup.failures + 1) = some delay) :
    ∀ failure ∈ outstanding w.trace,
      failure.state.sup.nextAttempt ≤ w.state.os.clock + delay := by
  intro failure hFailure
  obtain ⟨before, hSuffix, hLe⟩ := outstanding_le hFailure
  have hEvent := (mem_of_mem_outstanding hFailure).2
  have hPermitted := hInv.permitted failure before hSuffix
  simp only [Permitted, hEvent] at hPermitted
  obtain ⟨-, hFailures, earlier, hEarlier, hTime⟩ := hPermitted
  have hCounted : w.state.sup.failures = consecutiveFailures w.trace := hInv.repair.counted
  obtain ⟨shorter, hShorter, hOrder⟩ := boundedBackoff_mono
    (show failure.state.sup.failures ≤ w.state.sup.failures + 1 by omega) hDelay
  obtain rfl : earlier = shorter := Option.some.inj (hEarlier.symm.trans hShorter)
  have hClock := hLedger.clock failure (hSuffix.subset List.mem_cons_self)
  have hCast : (earlier : ℚ) ≤ delay := by exact_mod_cast hOrder
  rw [hTime]
  linarith

theorem lwp_recordFailure (hInv : Inv w) (hRepairs : repairer w.trace = some task) (detail : String) :
    Lwp config op task (Supervisor.recordFailure detail)
      (fun outcome v => Leaves task w outcome v ∧ (outcome ≠ .ok () → Unsettled task v.trace)) w := by
  have hAttempting := (begun_of_repairer hRepairs).attempting
  refine Extension.wp_get_bind ?_
  split
  · next delay hDelay =>
      exact lwp_act rfl (fun e he => by cases he; rfl)
        (fun hLedger => ⟨hLedger.balance.fail rfl hAttempting (delay_mono hInv hLedger hDelay),
          fun e he => by cases he; exact hRepairs⟩)
        fun hInv' hAudit => Extension.wp_pure ⟨⟨hInv', hAudit⟩, fun h => absurd rfl h⟩
  · exact lwp_record_seq rfl rfl (fun hLedger => ⟨hLedger.balance.overflow rfl hAttempting, hRepairs⟩)
      fun hInv' hAudit => Extension.wp_raise ⟨⟨hInv', hAudit⟩, fun _ => Or.inr ⟨_, _, rfl, rfl, rfl⟩⟩

/-- Why the master may be replaced now. -/
def Replaceable (config : Config) (task : Nat) (w : GatewayWorld) : Prop :=
  (Reconnects task w.trace ∨ Due w.trace w.state.os.clock) ∧
    (FromCheck task w.trace ∨ LacksMaster config task w.trace)

/-- A repair that raises anything else than that there is no connection has
recorded no failure. -/
def Aborts (task : Nat) (outcome : Except Error Unit) (history : History) : Prop :=
  ∀ error, outcome = .error error → error.isConnectionUnavailable = false → Unsettled task history

theorem lwp_repair (hHolder : (core w.state).holder = some task) (hWhy : Replaceable config task w) :
    Lwp config op task (repair config) (fun outcome v => Leaves task w outcome v ∧ Aborts task outcome v.trace) w := by
  refine lwp_record_seq rfl rfl (fun hLedger => ⟨hLedger.balance.begin (by simp) rfl, hWhy⟩)
    fun hInv' hAudit => ?_
  have hHolder' : (core (w.act task (some .repairBegan) w.state.beginRepair).state).holder = some task :=
    hHolder
  refine lwp_stopMaster_seq hInv' (Or.inl rfl) (fun v hV => ?_) fun error v hV =>
    ⟨(hV.leaves _).earlier hAudit, fun _ _ _ => Or.inl (hV.repairer hHolder')⟩
  refine Extension.wp_bind (Extension.wp_mono (lwp_startAttempts hV.inv (hV.protected hHolder').holder
    ((hV.repairer hHolder').trans rfl) 0 _ _) ?_)
  rintro (error | _ | detail) u _ ⟨hLeaves, hUnstarted⟩
  · exact ⟨hLeaves.earlier (hAudit.trans hV.audit), fun _ _ _ => Or.inl (hUnstarted (by simp)).2⟩
  · exact Extension.wp_pure ⟨hLeaves.earlier (hAudit.trans hV.audit), fun _ h => by cases h⟩
  · obtain ⟨-, hRepairs⟩ := hUnstarted (by simp)
    refine Extension.wp_bind (Extension.wp_mono (lwp_recordFailure hLeaves.1 hRepairs detail) ?_)
    rintro (error | value) u' _ ⟨hLeft, hUnsettled⟩
    · exact ⟨hLeft.earlier ((hAudit.trans hV.audit).trans hLeaves.2), fun _ _ _ => hUnsettled (by simp)⟩
    · exact lwp_raiseUnavailable fun message => ⟨hLeft.earlier ((hAudit.trans hV.audit).trans hLeaves.2),
        fun _ hRaised hOther => by cases hRaised; cases hOther⟩

theorem Balance.abort {sup : Supervisor} {trace : History} (h : Balance sup trace) (task : Nat)
    (error : Error) (state : State) : Balance sup (⟨task, .repairAborted error, state⟩ :: trace) :=
  ⟨h.generation, h.epoch, h.bounded, h.connected,
    fun hSettled hGeneration => (h.standing hSettled hGeneration).imp_right (·.cons _),
    h.strikes, h.lastProbe, h.outstanding, h.jobs⟩

theorem lwp_replaceMaster (hHolder : (core w.state).holder = some task) (hWhy : Replaceable config task w) :
    Lwp config op task (replaceMaster config) (Leaves task w) w := by
  refine Extension.wp_tryCatch (Extension.wp_mono (lwp_repair hHolder hWhy) ?_)
  rintro (error | value) v _ ⟨hLeaves, hAborts⟩
  · have hAbort : error.isConnectionUnavailable = false → Lwp config op task
        ((Coro.mark (Event.repairAborted error)).bind fun _ => (Coro.raise error : Py Unit)) (Leaves task w) v :=
      fun hOther => lwp_record_seq rfl rfl (fun hLedger => ⟨hLedger.balance.abort _ _ _, hAborts error rfl hOther⟩)
        fun hInv' hAudit => Extension.wp_raise ⟨hInv', hLeaves.2.trans hAudit⟩
    cases error with
    | connectionUnavailable message => exact Extension.wp_raise hLeaves
    | _ => exact hAbort rfl
  · exact hLeaves

end Repair

section Connect

theorem ProbeEnded.probeSays {result : ProbeOutcome} {old new : History} (h : ProbeEnded task result old new) :
    ProbeSays task result old new := by
  obtain ⟨entry, rest, hSince, hTask, hEvent, -⟩ := h
  exact ⟨entry, rest, hSince, hTask, hEvent⟩

theorem Reconnects.mono {old new : History} (h : Reconnects task old) (hNew : old <:+ new) :
    Reconnects task new := by
  obtain ⟨entry, hEntry, hMine⟩ := h
  exact ⟨entry, hNew.subset hEntry, hMine⟩

theorem Forced.mono {old new : History} (h : Forced task old) (hNew : old <:+ new) : Forced task new := by
  obtain ⟨entry, hEntry, hMine⟩ := h
  exact ⟨entry, hNew.subset hEntry, hMine⟩

/-- While the lock is held no failure is recorded, and time only passes. -/
theorem Waited.due (h : Waited task v w) (hHolder : (core v.state).holder = some task)
    (hDue : Reconnects task v.trace ∨ Due v.trace v.state.os.clock) :
    Reconnects task w.trace ∨ Due w.trace w.state.os.clock :=
  hDue.imp (Reconnects.mono · h.audit.history) fun hAll failure hFailure =>
    (hAll failure (outstanding_since h.audit.history (h.plain hHolder) hFailure)).trans h.audit.clock

theorem lwp_adoptOrReplace (hInv : Inv w) (hHolder : (core w.state).holder = some task)
    (hFirst : w.state.sup.generation = 0)
    (hDue : Reconnects task w.trace ∨ Due w.trace w.state.os.clock) :
    Lwp config op task (adoptOrReplace config) (Leaves task w) w := by
  have hDown : w.state.sup.state ≠ .connected := fun hUp => by
    have hPositive : 1 ≤ w.state.sup.generation := hInv.repair.connected hUp
    omega
  refine lwp_record_seq rfl rfl (fun hLedger => ⟨hLedger.balance.begin hDown rfl, ?_⟩) fun hInv' hAudit => ?_
  · exact hLedger.balance.generation.symm.trans hFirst
  have hBegun : Begun task (w.act task (some .adoptionBegan) w.state.beginAdoption).trace :=
    ⟨_, _, List.suffix_rfl, rfl, rfl, fun _ _ hSince => absurd hSince since_self⟩
  have hHolder' : (core (w.act task (some .adoptionBegan) w.state.beginAdoption).state).holder = some task :=
    hHolder
  have hDue' : Reconnects task (w.act task (some .adoptionBegan) w.state.beginAdoption).trace ∨
      Due (w.act task (some .adoptionBegan) w.state.beginAdoption).trace w.state.os.clock :=
    hDue.imp (Reconnects.mono · (List.suffix_cons _ _)) id
  refine lwp_finds_seq (finds_adoptExisting hInv') quiet_adoptExisting hInv' (fun adopted v hV hFound => ?_)
    fun error v hV => (hV.leaves _).earlier hAudit
  refine Extension.wp_ite (fun hAdopted => ?_) fun hNot => ?_
  · have hProved := hBegun.proved hV.audit.history (hV.plain hHolder') (hFound.1 hAdopted)
    exact lwp_leaves (Extension.wp_mono (lwp_recordConnected hProved) fun _ _ _ hEnd => hEnd.1) (hAudit.trans hV.audit)
  · refine Extension.wp_inv fun hLedger => lwp_leaves (lwp_replaceMaster (hV.protected hHolder').holder
      ⟨hV.due hHolder' hDue', Or.inr ?_⟩) (hAudit.trans hV.audit)
    have hZero : connections v.trace = 0 := by
      rw [← hLedger.balance.generation]
      exact (hV.protected hHolder').generation.trans hFirst
    refine Or.inr (Or.inr (Or.inr (Or.inr ⟨hZero, ?_⟩)))
    rcases hFound.2 (by simpa using hNot) with hDead | ⟨outcome, hBad, hEnded⟩ | hNone
    · exact Or.inl (hDead.mono List.nil_suffix)
    · exact Or.inr (Or.inl ⟨outcome, hBad, (hEnded.mono List.nil_suffix).probeSays⟩)
    · exact Or.inr (Or.inr hNone)

/-- Without a connection after an earlier one, the last attempt left none, or the gateway has ended. -/
theorem attempting_or_ended (hLedger : Ledger config w) (hGrown : 1 ≤ w.state.sup.generation)
    (hDown : w.state.sup.state ≠ .connected) : attempting w.trace = true ∨ Ended w.trace := by
  by_cases hAttempting : attempting w.trace = true
  · exact Or.inl hAttempting
  · exact Or.inr ((hLedger.balance.standing (by simpa using hAttempting) hGrown).resolve_left hDown)

theorem lacks_of_down (hLedger : Ledger config w) (hGrown : 1 ≤ w.state.sup.generation)
    (hDown : w.state.sup.state ≠ .connected) : LacksMaster config task w.trace := by
  rcases attempting_or_ended hLedger hGrown hDown with hAttempting | hEnded
  · exact Or.inr (Or.inr (Or.inr (Or.inl ⟨hAttempting, hLedger.balance.generation ▸ hGrown⟩)))
  · exact Or.inr (Or.inl hEnded)

theorem lwp_connectLocked (hInv : Inv w) (hHolder : (core w.state).holder = some task)
    {force respectBackoff : Bool} (hForced : force = true → Forced task w.trace)
    (hAsked : force = true ∨ respectBackoff = false → Reconnects task w.trace) :
    Lwp config op task (connectLocked config force respectBackoff) (Leaves task w) w := by
  -- The decision, once the master has turned out not to answer.
  have hDecide : ∀ v, Waited task w v →
      (force = false → v.state.sup.generation ≠ 0 → Ledger config v → LacksMaster config task v.trace) →
      Lwp config op task (do
        let state ← Coro.get
        if force = false ∧ respectBackoff ∧ state.os.clock < state.sup.nextAttempt then
          raiseUnavailable
        else if force = false ∧ state.sup.generation = 0 then
          adoptOrReplace config
        else
          replaceMaster config) (Leaves task w) v := by
    intro v hV hLacks
    have hHolderV := (hV.protected hHolder).holder
    refine Extension.wp_inv fun hLedger => Extension.wp_get_bind (Extension.wp_ite
      (fun _ => lwp_raiseUnavailable fun message => hV.leaves _) fun hNow => ?_)
    have hDue : Reconnects task v.trace ∨ Due v.trace v.state.os.clock := by
      by_cases hAsk : force = true ∨ respectBackoff = false
      · exact Or.inl ((hAsked hAsk).mono hV.audit.history)
      · simp only [not_or, Bool.not_eq_true, Bool.not_eq_false] at hAsk
        refine Or.inr fun failure hFailure => (hLedger.balance.outstanding failure hFailure).trans ?_
        exact not_lt.mp fun hEarly => hNow ⟨hAsk.1, hAsk.2, hEarly⟩
    refine Extension.wp_ite (fun hFirst => ?_) fun hLater => ?_
    · exact lwp_leaves (lwp_adoptOrReplace hV.inv hHolderV hFirst.2 hDue) hV.audit
    · refine lwp_leaves (lwp_replaceMaster hHolderV ⟨hDue, Or.inr ?_⟩) hV.audit
      cases force with
      | true => exact Or.inl ((hForced rfl).mono hV.audit.history)
      | false => exact hLacks rfl (fun hZero => hLater ⟨rfl, hZero⟩) hLedger
  refine Extension.wp_get_bind (Extension.wp_ite (fun hUp => ?_) fun hDown => ?_)
  · have hChecked : Finds config op task (Transport.controlCheck config)
        (fun up new => Entered task (.controlChecked up) w.trace new) w := finds_controlCheck hInv
    refine lwp_finds_seq hChecked quiet_steadyCheck hInv (fun up v hV hFound => ?_) fun _ v hV => hV.leaves _
    refine Extension.wp_ite (fun _ => Extension.wp_pure (hV.leaves _)) fun hNot => ?_
    refine hDecide v hV fun _ _ _ => ?_
    obtain rfl : up = false := by simpa using hNot
    obtain ⟨entry, rest, hSince, hTask, hEvent⟩ := hFound
    have hPositive : 1 ≤ (core w.state).generation := hInv.repair.connected hUp.2
    have hGrown := (hV.rely.grows.entries entry rest hSince).1.generation
    exact Or.inr (Or.inr (Or.inl ⟨entry, rest, hSince.1, hTask, hEvent, hPositive.trans hGrown⟩))
  · refine hDecide w (Waited.refl task hInv) fun hSoft hGrown hLedger => ?_
    exact lacks_of_down hLedger (Nat.one_le_iff_ne_zero.mpr hGrown) fun hUp => hDown ⟨hSoft, hUp⟩

/-- Code that needs nothing but the call it serves. -/
def Serves (config : Config) (op : Op) (task : Nat) (code : Py α) : Prop :=
  ∀ w, Inv w → Called op task w.trace → Lwp config op task code (Leaves task w) w

theorem serves_connect {force respectBackoff : Bool} (hForced : force = true → op = .reconnect true)
    (hAsked : force = true ∨ respectBackoff = false → ∃ force, op = .reconnect force) :
    Serves config op task (connect config force respectBackoff) := by
  intro w hInv hCalled
  refine lwp_withLock hInv fun v hV hHolder _ => ?_
  have hCalledV := hCalled.stable hV.audit
  refine lwp_connectLocked hV.inv hHolder (fun hForce => ?_) fun hAsk => ?_
  · obtain ⟨entry, hEntry, hTask, hEvent⟩ := hCalledV.entry
    rw [hForced hForce] at hEvent
    exact ⟨entry, hEntry, hTask, hEvent⟩
  · obtain ⟨other, rfl⟩ := hAsked hAsk
    exact hCalledV.reconnects

end Connect

end Pazuzu.Supervision
