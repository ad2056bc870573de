import Pazuzu.Supervision.Admission

/-! No circular waiting. Every function keeps to the scope of its caller: slots
are sought with empty hands, the repair lock with at most a slot of an
operation, and the probe slot with neither the head of the queue nor a probe. -/
namespace Pazuzu.Supervision

open Asyncio Supervisor

variable {config : Config} {op : Op} {task : Nat} {scope : Scope} {α β : Type} {w : GatewayWorld}

namespace Scope

theorem Seeks.toPlain (h : scope.Seeks) : scope.Plain where
  toFree := h.toFree
  probe := h.probe

theorem Seeks.permits_probe (h : scope.Seeks) (id : Nat) : scope.Permits (.probe id) where
  head := fun hHead => absurd hHead h.head
  slot := fun _ => ⟨h.head, fun _ hWait => by cases hWait⟩
  repair := fun hRepair => absurd hRepair h.repair
  probe := fun ⟨lease, hLease, hKind⟩ => absurd hKind (h.probe lease hLease)
  job := fun hNot => absurd h.calls hNot
  queue := h.unqueued

theorem Plain.takes_repair (h : scope.Plain) : (scope.takes .repair).Plain where
  head := fun hHead => hHead.elim (fun hName => by cases hName) h.head
  queue := h.queue
  unqueued := h.unqueued
  probe := h.probe

/-- Nothing is held, and only processes and the probe slot are waited for. -/
def probing : Scope := ⟨False, fun _ => False, [], none⟩

theorem base_seeks : base.Seeks where
  head := id
  queue := by simp [base]
  unqueued := rfl
  calls := trivial
  repair := id
  probe := fun _ hLease => nomatch hLease

theorem probing_plain : probing.Plain where
  head := id
  queue := by simp [probing]
  unqueued := rfl
  probe := fun _ hLease => nomatch hLease

theorem operating_seeks {lease : SessionLease} (h : lease.file.kind = .slot) : (base.leasing lease).Seeks where
  head := id
  queue := by simp [leasing, base]
  unqueued := rfl
  calls := trivial
  repair := id
  probe := by
    intro other hOther hKind
    rw [List.mem_singleton.mp hOther, h] at hKind
    cases hKind

end Scope

theorem Aside.unbooked {before after : State} (h : Aside before after) : Unbooked before after :=
  ⟨h.lock, h.slots, h.leases, h.nextLease⟩

theorem Event.away_of_minor {event : Event} (hMinor : event.isMinor = true) (h : event.isLeasing = false) :
    event.isAway = true := by
  cases event <;> first | rfl | exact Bool.noConfusion hMinor | exact Bool.noConfusion h

theorem Event.away_of_story {event : Event} (hStory : event.isStory = false) (h : event.isLeasing = false) :
    event.isAway = true := by
  cases event <;> first | rfl | exact Bool.noConfusion hStory | exact Bool.noConfusion h

theorem Event.away_of_open {event : Event} (hEnd : event.isEnd = false) (h : event.isLeasing = false) :
    event.isAway = true := by
  cases event <;> first | rfl | exact Bool.noConfusion hEnd | exact Bool.noConfusion h

section Parts

theorem orders_talks (hFree : scope.Free) : Talks (Orders config scope) where
  toCompositional := orders_compositional config scope
  mark := fun _ hMinor hLeasing => orders_mark hFree.toOut (Event.away_of_minor hMinor hLeasing)
  launch := fun _ => orders_wait hFree.toOut (hFree.permits rfl) rfl
  process := fun _ _ _ _ => orders_wait hFree.toOut (hFree.permits rfl) rfl

/-- The probe slot is sought and left again. -/
theorem orders_probe (hPlain : scope.Plain) : Orders config scope (Transport.probe config) := by
  intro op task w h
  refine Extension.wp_bind (Extension.wp_attempt (Extension.wp_mono (owp_acquireProbe rfl hPlain _ _ h) ?_))
  rintro (error | lease) v _ hV
  · cases error with
    | timeoutError => exact owp_seq (orders_mark hPlain.toOut rfl) hV (fun _ _ hU => Extension.wp_pure hU) fun _ _ hU => hU
    | _ => exact Extension.wp_throw hV
  · obtain ⟨hScope, hKind, hOnce⟩ := hV
    have hFree : (scope.leasing lease).Free := ⟨⟨hPlain.head, hPlain.queue⟩, hPlain.unqueued⟩
    refine Extension.wp_bind (Extension.wp_tryFinally (Extension.wp_mono
      ((orders_talks hFree).probeSession op task v hScope) ?_))
    rintro (error | outcome) u _ hU
    · exact owp_leaveProbe hU hKind hOnce fun _ hX => hX
    · exact owp_leaveProbe hU hKind hOnce fun _ hX => owp_seq (orders_mark hPlain.toOut rfl) hX
        (fun _ _ hY => Extension.wp_pure hY) fun _ _ hY => hY

theorem orders_sleep (hPlain : scope.Plain) (seconds : ℚ) (deadline : Option ℚ) :
    Orders config scope (sleep seconds deadline) :=
  (orders_compositional config scope).get fun _ => orders_wait hPlain.toOut (hPlain.permits rfl rfl) rfl

theorem orders_never (hPlain : scope.Plain) : Orders config scope (never : Py α) :=
  (orders_compositional config scope).bind (orders_wait hPlain.toOut (hPlain.permits rfl rfl) rfl) fun impossible =>
    nomatch impossible

theorem orders_mends (hPlain : scope.Plain) : Mends config (Orders config scope) where
  toTalks := orders_talks hPlain.toFree
  sleep := fun seconds => orders_sleep hPlain seconds none
  never := orders_never hPlain
  recorded := fun _ => orders_wait hPlain.toOut (hPlain.permits rfl rfl) rfl
  probe := orders_probe hPlain
  update := fun _ hAside => orders_update hPlain.toOut fun state => (hAside state).unbooked
  begins := orders_mark hPlain.toOut rfl
  connects := orders_record hPlain.toOut rfl fun _ => ⟨rfl, rfl, rfl, rfl⟩
  record := fun _ _ hLeasing hStory hAside => orders_record hPlain.toOut
    (Event.away_of_story hStory hLeasing) fun state => (hAside state).unbooked
  spawn := fun _ => orders_wait hPlain.toOut (hPlain.permits rfl rfl) rfl

theorem flightFor_eq {state : State} {epoch id : Nat} (h : state.flightFor epoch = some id) :
    ∃ flown, (core state).flight = some (flown, id) := by
  unfold State.flightFor at h
  split at h
  · cases h
  · next flown other hFlight =>
      split at h
      · cases h
        exact ⟨flown, hFlight⟩
      · cases h

/-- The probe that is joined is one of the created tasks. -/
theorem orders_shared (h : scope.Seeks) : Orders config scope Supervisor.probe := by
  intro op task w hW
  have hJoin : Owp config op task joinProbe (fun outcome v => Confined scope op task v ∧ ∀ id, outcome = .ok id →
      ∃ epoch outcome, (core v.state).jobs[id]? = some (.probe epoch, outcome)) w := by
    refine Extension.wp_inv fun hGrounded => Extension.wp_get_bind ?_
    split
    · next id hFlight =>
        refine Extension.wp_pure ⟨hW, fun other hOther => ?_⟩
        cases hOther
        obtain ⟨flown, hFlown⟩ := flightFor_eq hFlight
        exact ⟨flown, Inv.flight (Grounded.inv hGrounded) flown id hFlown⟩
    · refine Extension.wp_act fun _ hInv' => ?_
      obtain ⟨hAct, hNow⟩ := ordering_away hGrounded h.toOut hW hInv' (fun e he => by cases he) ⟨rfl, rfl, rfl, rfl⟩
      refine ⟨hAct, Extension.wp_pure ⟨hNow, fun other hOther => ?_⟩⟩
      cases hOther
      exact ⟨_, hInv'.flight _ _ rfl⟩
  refine Extension.wp_bind (Extension.wp_mono hJoin ?_)
  rintro (error | id) v _ ⟨hV, hJob⟩
  · exact hV
  · exact owp_wait h.toOut (h.permits_probe id) hV fun other hWait => by
      cases hWait
      exact hJob id rfl

theorem orders_connect (h : scope.Seeks) (force respectBackoff : Bool) :
    Orders config scope (connect config force respectBackoff) :=
  orders_withRepair h ((orders_mends h.toPlain.takes_repair).repairs.connectLocked force respectBackoff)

theorem orders_checks (h : scope.Seeks) : Checks config (Orders config scope) (Orders config (scope.takes .repair)) where
  toCompositional := orders_compositional config scope
  repairs := (orders_mends h.toPlain.takes_repair).repairs
  lock := orders_withRepair h
  note := fun _ hLeasing hEnd => orders_mark h.toOut (Event.away_of_open hEnd hLeasing)
  controlCheck := (orders_talks h.toFree).controlCheck
  shared := orders_shared h

theorem operates_compositional (config : Config) : Compositional (Operates config) where
  pure := fun _ _ _ => (orders_compositional _ _).pure _
  throw := fun _ _ _ => (orders_compositional _ _).throw _
  read := fun hNext lease hKind => (orders_compositional _ _).read fun task state => hNext task state lease hKind
  bind := fun hCode hNext lease hKind => (orders_compositional _ _).bind (hCode lease hKind) fun value =>
    hNext value lease hKind
  attempt := fun hCode lease hKind => (orders_compositional _ _).attempt (hCode lease hKind)

theorem Event.away_of_session {event : Event} (h : event.isSession = true) : event.isAway = true := by
  cases event <;> first | rfl | cases h

theorem orders_calls : Calls config (Orders config .base) (Operates config) where
  toCompositional := orders_compositional config .base
  inside := operates_compositional config
  controlCheck := (orders_talks Scope.base_seeks.toFree).controlCheck
  connect := orders_connect Scope.base_seeks false true
  check := (orders_checks Scope.base_seeks).check
  hold := orders_hold
  heldCheck := fun _ hKind => (orders_talks (Scope.operating_seeks hKind).toFree).controlCheck
  heldConnect := fun _ hKind => orders_connect (Scope.operating_seeks hKind) false true
  story := fun _ hSession _ hKind => orders_mark (Scope.operating_seeks hKind).toOut (Event.away_of_session hSession)
  session := fun _ _ _ _ _ hKind => (orders_talks (Scope.operating_seeks hKind).toFree).session _ _ _
    (orders_mark (Scope.operating_seeks hKind).toOut rfl)
  transfer := fun _ _ _ _ hKind => (orders_talks (Scope.operating_seeks hKind).toFree).runTransfer _ _ _

theorem orders_upkeep : Upkeep config (Orders config .base) where
  toCompositional := orders_compositional config .base
  never := orders_never Scope.base_seeks.toPlain
  wake := fun _ => orders_wait Scope.base_seeks.toOut (Scope.base_seeks.toPlain.permits rfl rfl) rfl
  setWake := fun _ => orders_update Scope.base_seeks.toOut fun _ => ⟨rfl, rfl, rfl, rfl⟩
  notes := fun event hEvent => orders_mark Scope.base_seeks.toOut (by cases event <;> first | rfl | cases hEvent)
  once := by
    have hOrders := orders_compositional config .base
    exact hOrders.tryCatch (hOrders.get fun _ => Compositional.ite
      (hOrders.bind (orders_calls.repairIfBroken _) fun _ => hOrders.pure _) (orders_connect Scope.base_seeks _ _))
      fun _ => Compositional.ite (hOrders.pure _) (hOrders.throw _)

end Parts

section Serve

theorem orders_start : Orders config .base (Supervisor.start config) := by
  have hOrders := orders_compositional config .base
  exact hOrders.get fun _ => hOrders.when (hOrders.bind (hOrders.bind (orders_fileOp Scope.base_seeks.toOut _) fun _ =>
    orders_update Scope.base_seeks.toOut fun _ => ⟨rfl, rfl, rfl, rfl⟩) fun _ => orders_update Scope.base_seeks.toOut fun _ => ⟨rfl, rfl, rfl, rfl⟩)

theorem orders_reap (id : Option Nat) : Orders config .base (reap id) := by
  have hOrders := orders_compositional config .base
  cases id with
  | none => exact hOrders.pure ()
  | some id =>
      refine hOrders.bind (orders_update Scope.base_seeks.toOut fun _ => ⟨rfl, rfl, rfl, rfl⟩) fun _ => hOrders.tryCatch
        (orders_wait Scope.base_seeks.toOut (Scope.base_seeks.toPlain.permits rfl rfl) rfl) fun error => ?_
      cases error <;> first | exact hOrders.throw _ | exact hOrders.pure ()

theorem orders_stopMaintenance : Orders config .base stopMaintenance := by
  have hOrders := orders_compositional config .base
  exact hOrders.get fun _ => hOrders.bind (orders_update Scope.base_seeks.toOut fun _ => ⟨rfl, rfl, rfl, rfl⟩) fun _ =>
    hOrders.bind (orders_reap _) fun _ => orders_reap _

theorem orders_close : Orders config .base (close config) := by
  refine (orders_compositional config .base).bind orders_stopMaintenance fun _ =>
    orders_withRepair Scope.base_seeks ?_
  exact (orders_compositional config _).bind (orders_mends Scope.base_seeks.toPlain.takes_repair).stopMaster fun _ =>
    orders_update Scope.base_seeks.toPlain.takes_repair.toOut fun _ => ⟨rfl, rfl, rfl, rfl⟩

theorem orders_detach : Orders config .base detach := by
  have hOrders := orders_compositional config .base
  exact hOrders.bind orders_stopMaintenance fun _ => hOrders.bind
    (orders_update Scope.base_seeks.toOut fun _ => ⟨rfl, rfl, rfl, rfl⟩) fun _ => orders_update Scope.base_seeks.toOut fun _ => ⟨rfl, rfl, rfl, rfl⟩

theorem orders_runProbe (epoch : Nat) : Orders config .probing (runProbe config epoch) := by
  have hOrders := orders_compositional config .probing
  have hUnbooked : ∀ started outcome (state : State), Unbooked state (state.recordProbe started outcome) := by
    intro started outcome state
    unfold State.recordProbe
    dsimp only
    split <;> exact ⟨rfl, rfl, rfl, rfl⟩
  exact hOrders.get fun _ => hOrders.bind (orders_probe Scope.probing_plain) fun _ => hOrders.get fun _ =>
    hOrders.bind (hOrders.when (orders_record Scope.probing_plain.toOut rfl fun state => hUnbooked _ _ state))
      fun _ => hOrders.pure _

/-- The task is there and holds no lease. -/
def EmptyHanded (task : Nat) (w : GatewayWorld) : Prop := task < w.started ∧ leased task w.trace = []

/-- A created task does the work it was created for. -/
theorem owp_runJob (id : Nat) (hOp : op = .job id) (hNone : Confined .probing op task w)
    (hHere : ∃ entry ∈ w.trace, entry.state = w.state) :
    Owp config op task (runJob config id) (fun _ v => EmptyHanded task v) w := by
  refine Extension.wp_get_bind ?_
  have hSettle : ∀ (inner : Scope) (outcome : Except Error (Option ProbeOutcome)) v, inner.Out → inner.leases = [] →
      Confined inner op task v →
      Owp config op task (Coro.update fun state => state.settleJob id outcome) (fun _ v => EmptyHanded task v) v :=
    fun inner outcome v hOut hEmpty hV => by
      have hCode : Orders config inner (Coro.update fun state => state.settleJob id outcome) :=
        orders_update hOut fun _ => ⟨rfl, rfl, rfl, rfl⟩
      exact Extension.wp_mono (hCode op task v hV) fun _ _ _ hU => ⟨hU.born, hU.leases.trans hEmpty⟩
  split
  · exact Extension.wp_pure ⟨hNone.born, hNone.leases⟩
  · next epoch hKind =>
      have hCode : Orders config .probing (do wait .begin; runProbe config epoch) :=
        (orders_compositional config .probing).bind (orders_wait Scope.probing_plain.toOut
          (Scope.probing_plain.permits rfl rfl) rfl) fun _ => orders_runProbe epoch
      refine Extension.wp_bind (Extension.wp_attempt (Extension.wp_mono (hCode op task w hNone) ?_))
      rintro (error | outcome) v _ hV
      · exact hSettle _ _ v Scope.probing_plain.toOut rfl hV
      · have hFinish : Orders config .probing (Coro.record (.probeFinished epoch outcome) fun state =>
            state.settleJob id (.ok (some outcome))) := orders_record Scope.probing_plain.toOut rfl fun _ => ⟨rfl, rfl, rfl, rfl⟩
        exact Extension.wp_mono (hFinish op task v hV) fun _ _ _ hU => ⟨hU.born, hU.leases⟩
  · next hKind =>
      have hMaintains : IsMaintenance id w.trace := by
        obtain ⟨entry, hEntry, hState⟩ := hHere
        obtain ⟨job, hJob, hIs⟩ := Option.map_eq_some_iff.mp hKind
        refine ⟨entry, hEntry, job.outcome, ?_⟩
        rw [hState, core_jobs, hJob, ← hIs]
        rfl
      have hBase : Confined .base op task w := ⟨hNone.born, fun _ other hOther => by
        obtain rfl := Op.job.inj (hOp.symm.trans hOther)
        exact hMaintains, hNone.locks, hNone.waiters, hNone.leases⟩
      have hCode : Orders config .base (do wait .begin; maintain config config.rounds) :=
        (orders_compositional config .base).bind (orders_wait Scope.base_seeks.toOut
          (Scope.base_seeks.toPlain.permits rfl rfl) rfl) fun _ => orders_upkeep.maintain _
      refine Extension.wp_bind (Extension.wp_attempt (Extension.wp_mono (hCode op task w hBase) ?_))
      rintro (error | outcome) v _ hV
      · exact hSettle _ _ v Scope.base_seeks.toOut rfl hV
      · exact hSettle _ _ v Scope.base_seeks.toOut rfl hV

/-- A call other than a created task begins with empty hands. -/
theorem orders_dispatch (hOp : ∀ id, op ≠ .job id) : Orders config .base (dispatch config op) := by
  have hOrders := orders_compositional config .base
  have hCalls : Calls config (Orders config .base) (Operates config) := orders_calls
  have hConnect : ∀ force respectBackoff, Orders config .base (connect config force respectBackoff) :=
    orders_connect Scope.base_seeks
  cases op with
  | execute => exact hOrders.bind (hCalls.execute _ _ _ _) fun _ => hOrders.pure _
  | transfer => exact hOrders.bind (hCalls.transfers _ _ _ _) fun _ => hOrders.pure _
  | connectionAttachment => exact hOrders.bind hCalls.connectionAttachment fun _ => hOrders.pure _
  | health => exact hOrders.bind (hCalls.health _) fun _ => hOrders.pure _
  | reconnect force =>
      have hReconnect : Orders config .base (reconnect config force) :=
        hOrders.bind (orders_update Scope.base_seeks.toOut fun _ => ⟨rfl, rfl, rfl, rfl⟩) fun _ => hCalls.reconnect force
          (fun _ => hConnect _ _) (hConnect _ _) (orders_update Scope.base_seeks.toOut fun _ => ⟨rfl, rfl, rfl, rfl⟩)
      exact hOrders.bind hReconnect fun _ => hOrders.pure _
  | start => exact hOrders.bind orders_start fun _ => hOrders.pure _
  | close => exact hOrders.bind orders_close fun _ => hOrders.pure _
  | detach => exact hOrders.bind orders_detach fun _ => hOrders.pure _
  | job id => exact absurd rfl (hOp id)

/-- A call ends with empty hands. -/
theorem owp_end {event : Event} {code : Py β} (hEnd : event.isEnd = true) (h : EmptyHanded task w)
    (hCode : Owp config op task code (fun _ _ => True) (w.act task (some event) w.state)) :
    Owp config op task ((Coro.mark event).bind fun _ => code) (fun _ _ => True) w :=
  Extension.wp_act fun hOld hInv => ⟨ordering_act hOld h.1 hInv (hOld.books.finish hEnd h.2) (Does.same fun _ => rfl), hCode⟩

theorem owp_serve (hBorn : task < w.started) (hLocks : ∀ name, (w.state.lock name).holder ≠ some task)
    (hWaiters : ∀ name, task ∉ (w.state.lock name).waiters) (hLeases : leased task w.trace = []) :
    Owp config op task (serve config op) (fun _ _ => True) w := by
  have hEmpty : Confined .probing op task w :=
    ⟨hBorn, False.elim, fun name => iff_of_false (hLocks name) id, fun name => List.count_eq_zero.mpr (hWaiters name), hLeases⟩
  refine Extension.wp_act fun hOld hInv => ?_
  obtain ⟨hAct, hNone⟩ : _ ∧ Confined .probing op task (w.act task (some (.called op)) w.state) :=
    ordering_away hOld Scope.probing_plain.toOut hEmpty hInv (fun e he => by cases he; rfl) (Unbooked.refl w.state)
  refine ⟨hAct, Extension.wp_bind (Extension.wp_pure ?_)⟩
  have hDispatch : Owp config op task (dispatch config op) (fun _ v => EmptyHanded task v)
      (w.act task (some (.called op)) w.state) := by
    by_cases hJob : ∃ id, op = .job id
    · obtain ⟨id, rfl⟩ := hJob
      refine Extension.wp_bind (Extension.wp_mono (owp_runJob id rfl hNone ⟨_, List.mem_cons_self, rfl⟩) ?_)
      rintro (error | value) v _ hV
      · exact hV
      · exact Extension.wp_pure hV
    · have hOther : ∀ id, op ≠ .job id := fun id hOp => hJob ⟨id, hOp⟩
      have hBase : Confined .base op task (w.act task (some (.called op)) w.state) :=
        ⟨hNone.born, fun _ id hOp => absurd hOp (hOther id), hNone.locks, hNone.waiters, hNone.leases⟩
      exact Extension.wp_mono (orders_dispatch hOther op task _ hBase) fun _ _ _ hV => ⟨hV.born, hV.leases⟩
  refine Extension.wp_bind (Extension.wp_attempt (Extension.wp_mono hDispatch ?_))
  rintro (error | value) v _ hV
  · exact owp_end rfl hV (Extension.wp_raise trivial)
  · exact owp_end rfl hV (Extension.wp_pure trivial)

end Serve

section Runs

/-- Whoever else takes leases, their numbers are not used again. -/
theorem Tabled.foreign {os os' : Os} {history : History} (h : Tabled os history) (hNumbers : os.nextLease ≤ os'.nextLease)
    (hLeases : (os'.leases.filter fun lease => !lease.foreign) = os.leases.filter fun lease => !lease.foreign) :
    Tabled os' history where
  fresh := fun entry hEntry lease hTaken => (h.fresh entry hEntry lease hTaken).trans_le hNumbers
  locked := hLeases.trans h.locked

/-- What happens without a task leaves the locks of the process alone. -/
theorem Tabled.apply {move : Move} {before after : Os} {history : History} (h : Tabled before history)
    (hMove : move.apply config before = some after) : Tabled after history := by
  cases move with
  | tick | masterBinds =>
      simp only [Move.apply, Option.ite_none_right_eq_some, Option.some.injEq] at hMove
      rw [← hMove.2]
      exact h.same ⟨rfl, rfl⟩
  | lateSpawn =>
      simp only [Move.apply, Os.spawn, Option.ite_none_right_eq_some, Option.some.injEq] at hMove
      rw [← hMove.2.2]
      exact h.same ⟨rfl, rfl⟩
  | leaseTaken file =>
      simp only [Move.apply, Option.ite_none_right_eq_some, Option.some.injEq] at hMove
      rw [← hMove.2]
      exact h.foreign (Nat.le_succ _) (List.filter_cons_of_neg (by simp))
  | leaseFreed lease =>
      simp only [Move.apply, Option.ite_none_right_eq_some, Option.some.injEq] at hMove
      rw [← hMove.2]
      refine h.foreign (Nat.le_refl _) ?_
      change ((before.leases.filter _).filter _) = _
      rw [List.filter_comm, List.filter_eq_self]
      intro other hOther
      have hOwn : other.foreign = false := by simpa using (List.mem_filter.mp hOther).2
      have hOther : other ≠ lease := fun hSame => by
        rw [hSame, hMove.1] at hOwn
        cases hOwn
      exact decide_eq_true hOther
  | _ =>
      cases hMove
      exact h.same ⟨rfl, rfl⟩

theorem tabled_boot (os : Os) : Tabled (State.boot os).os [] where
  fresh := fun entry hEntry => nomatch hEntry
  locked := List.filter_eq_nil_iff.mpr fun lease hLease => by
    obtain ⟨found, -, rfl⟩ := List.mem_map.mp hLease
    exact Bool.false_ne_true

theorem leased_of_fresh {history : History} (h : ∀ entry ∈ history, entry.task ≠ task) : leased task history = [] := by
  induction history with
  | nil => rfl
  | cons newest earlier ih =>
      rw [leased_other (h newest List.mem_cons_self)]
      exact ih fun entry hEntry => h entry (List.mem_cons_of_mem _ hEntry)

theorem operating_of_fresh {count : Nat} {history : History} (h : ∀ entry ∈ history, entry.task < count) :
    operating (count + 1) history = operating count history := by
  have hNone : holdsSlot .slot count history = false := by
    rw [holdsSlot, leased_of_fresh fun entry hEntry => (h entry hEntry).ne]
    rfl
  unfold operating
  rw [List.range_succ, List.countP_append, List.countP_singleton, hNone]
  rfl

theorem Grounded.boot (os : Os) : Grounded { state := State.boot os } where
  inv := Inv.boot os
  holders := fun name task hHolds => by cases name <;> cases hHolds
  waiters := fun name task hWaits => by cases name <;> cases hWaits
  entries := fun entry hEntry => by cases hEntry
  books := ⟨rfl, rfl, rfl, tabled_boot os, trivial⟩

theorem ordering_sound (config : Config) : (ordering config).Sound (fun _ => True) fun _ => True where
  disturbs := by
    intro move world state _ hInv hGrounded hMove
    obtain ⟨os, hDisturb, rfl⟩ := Option.map_eq_some_iff.mp hMove
    have hLocks : ∀ name, ({ world.state with os } : State).lock name = world.state.lock name := fun name => by
      cases name <;> rfl
    have hBooks := hGrounded.books
    refine ⟨⟨hInv.of_core (core_os _ os), fun name task hHolds => hGrounded.holders name task (hLocks name ▸ hHolds),
      fun name task hWaits => hGrounded.waiters name task (hLocks name ▸ hWaits), hGrounded.entries, hBooks.queue, hBooks.waiting, hBooks.active, hBooks.table.apply hDisturb, hBooks.orderly⟩, fun task => ?_⟩
    exact ⟨fun name => by rw [hLocks name], fun name => by rw [hLocks name], rfl⟩
  starts := by
    intro op world state _ hInv hGrounded hAccept hStarted
    have hState : Unbooked world.state state := by
      cases op with
      | job id =>
          simp only [gateway, Host.accept, Option.ite_none_right_eq_some, Option.some.injEq] at hAccept
          rw [← hAccept.2]
          exact ⟨rfl, rfl, rfl, rfl⟩
      | _ =>
          cases hAccept
          exact Unbooked.refl _
    have hBooks := hGrounded.books
    have hNow : Books { world with state, started := world.started + 1 } := by
      refine ⟨?_, ?_, ?_, ?_, hBooks.orderly⟩
      · exact hBooks.queue.trans (by rw [hState.locks])
      · exact (congrArg SessionSlots.waiting hState.slots).trans hBooks.waiting
      · refine (congrArg SessionSlots.active hState.slots).trans (hBooks.active.trans ?_)
        exact (operating_of_fresh hGrounded.entries).symm
      · exact hBooks.table.same hState.table
    have hStart : (ordering config).Act world.started world { world with state, started := world.started + 1 } :=
      ⟨⟨hStarted, fun name task hHolds => Nat.lt_succ_of_lt (hGrounded.holders name task (hState.locks name ▸ hHolds)),
        fun name task hWaits => Nat.lt_succ_of_lt (hGrounded.waiters name task (hState.locks name ▸ hWaits)),
        fun entry hEntry => Nat.lt_succ_of_lt (hGrounded.entries entry hEntry), hNow⟩,
        fun _ _ => ⟨fun name => by rw [hState.locks], fun name => by rw [hState.locks], rfl⟩⟩
    have hServe := @owp_serve config op world.started { world with state, started := world.started + 1 }
      (Nat.lt_succ_self _) (fun name hHolds =>
        Nat.lt_irrefl _ (hGrounded.holders name world.started (hState.locks name ▸ hHolds)))
      (fun name hWaits => Nat.lt_irrefl _ (hGrounded.waiters name world.started (hState.locks name ▸ hWaits)))
      (leased_of_fresh fun entry hEntry => (hGrounded.entries entry hEntry).ne)
    exact Extension.along_mono (hServe _ hStart) fun _ _ _ hEnd => hEnd.1

variable {os : Os} {choices : List (Choice (gateway config))} {final : Loop (gateway config)}

theorem grounded_of_run (hRun : gatewayRun config os choices = some final) : Grounded final.world :=
  ((ordering_sound config).run (sound config) (Inv.boot os) (Grounded.boot os) hRun (fun _ _ => trivial)
    fun _ _ => trivial).inv

/-- In every run, no task waits in a circle, and neither the repair lock nor a
probe is kept waiting for the queue or for an operation slot. -/
theorem acyclic_of_run (hRun : gatewayRun config os choices = some final) : Acyclic final := by
  have hSafe := (ordering_sound config).run (sound config) (Inv.boot os) (Grounded.boot os) hRun
    (fun _ _ => trivial) fun _ _ => trivial
  exact acyclic_of_order hSafe.base.inv fun task op wait next hTask => (hSafe.ready task op _ hTask).1

/-- A command with a slot arrives while the first one has the master replaced. -/
def crowd : List Sample :=
  [execute true] ++ resumes 0 5 ++ [resume 0 255, .start (.job 0)] ++ resumes 1 2 ++
    [resume 1 1, resume 0 0 .failed, execute true]

/-- Whether the task waits for a lock that the other holds. -/
def awaits (loop : Loop (gateway sample)) (task other : Nat) : Bool :=
  match loop.tasks[task]? with
  | some ⟨_, .await (.lock name _) _⟩ => (loop.world.state.lock name).holder = some other
  | _ => false

theorem acyclic_crowd : ∃ final, gatewayRun sample survivor crowd = some final ∧
    HoldsSlot .slot 2 final.world ∧ WaitsFor final 2 0 ∧ Acyclic final := by
  have hRun : (gatewayRun sample survivor crowd).any (fun final => awaits final 2 0 &&
      (leased 2 final.world.trace).any fun lease => lease.file.kind = .slot) = true := by decide +kernel
  obtain ⟨final, hFinal, hBoth⟩ := (Option.any_eq_true _ _).mp hRun
  obtain ⟨hAwaits, hHolds⟩ := Bool.and_eq_true_iff.mp hBoth
  obtain ⟨lease, hLease, hKind⟩ := List.any_eq_true.mp hHolds
  refine ⟨final, hFinal, ⟨lease, hLease, of_decide_eq_true hKind⟩, ?_, acyclic_of_run hFinal⟩
  unfold awaits at hAwaits
  split at hAwaits
  · next op name deadline next hTask => exact .lock op name deadline next hTask (of_decide_eq_true hAwaits)
  · cases hAwaits

end Runs
end Pazuzu.Supervision
