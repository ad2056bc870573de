import Pazuzu.Supervision.Waiting

/-! The order in which the gateway takes what it waits for. Each function runs
within a scope of locks and leases its task may hold, and waits for nothing
that the scope does not permit. -/
namespace Pazuzu.Supervision

open Asyncio

/-- What a task holds and where it is queued, and whether it may wait for locks
and for others. -/
structure Scope where
  calls : Prop
  locks : LockName → Prop
  leases : List SessionLease
  queues : Option LockName

namespace Scope

def takes (scope : Scope) (name : LockName) : Scope :=
  { scope with locks := fun other => other = name ∨ scope.locks other }

def leasing (scope : Scope) (lease : SessionLease) : Scope :=
  { scope with leases := lease :: scope.leases }

def queuing (scope : Scope) (name : LockName) : Scope :=
  { scope with queues := some name }

/-- The waits that the scope permits. -/
structure Permits (scope : Scope) (wait : Wait) : Prop where
  head : scope.locks .head → wait.isPoll = true
  slot : (∃ lease ∈ scope.leases, lease.file.kind = .slot) → ¬scope.locks .head ∧
    ∀ deadline, wait ≠ .lock .head deadline
  repair : scope.locks .repair → ¬scope.locks .head ∧ wait.isLock = false ∧ wait.isProbe = false
  probe : (∃ lease ∈ scope.leases, lease.file.kind = .probe) → wait.isRemote = true
  job : ¬scope.calls → ¬scope.locks .head ∧ wait.isLock = false ∧ wait.isProbe = false
  queue : scope.queues = wait.queues

/-- Away from the queue for slots. -/
structure Out (scope : Scope) : Prop where
  head : ¬scope.locks .head
  queue : scope.queues ≠ some .head

/-- Not queued anywhere. -/
structure Free (scope : Scope) : Prop extends Out scope where
  unqueued : scope.queues = none

/-- The slot for probes is not held either. -/
structure Plain (scope : Scope) : Prop extends Free scope where
  probe : ∀ lease ∈ scope.leases, lease.file.kind ≠ .probe

theorem Free.permits {scope : Scope} {wait : Wait} (hOut : scope.Free) (h : wait.isRemote = true) :
    scope.Permits wait := by
  have hPlain : wait.isLock = false ∧ wait.isProbe = false := by cases wait <;> first | exact ⟨rfl, rfl⟩ | cases h
  exact ⟨fun h => absurd h hOut.head, fun _ => ⟨hOut.head, fun deadline hWait => by rw [hWait] at h; cases h⟩,
    fun _ => ⟨hOut.head, hPlain⟩, fun _ => h, fun _ => ⟨hOut.head, hPlain⟩,
    hOut.unqueued.trans (Wait.queues_eq_none hPlain.1).symm⟩

theorem Plain.permits {scope : Scope} {wait : Wait} (hPlain : scope.Plain) (hLock : wait.isLock = false)
    (hProbe : wait.isProbe = false) : scope.Permits wait where
  head := fun h => absurd h hPlain.head
  slot := fun _ => ⟨hPlain.head, fun deadline hWait => by rw [hWait] at hLock; cases hLock⟩
  repair := fun _ => ⟨hPlain.head, hLock, hProbe⟩
  probe := fun ⟨lease, hLease, hKind⟩ => absurd hKind (hPlain.probe lease hLease)
  job := fun _ => ⟨hPlain.head, hLock, hProbe⟩
  queue := hPlain.unqueued.trans (Wait.queues_eq_none hLock).symm

end Scope

/-- The task holds what the scope says. -/
structure Confined (scope : Scope) (op : Op) (task : Nat) (w : GatewayWorld) : Prop where
  born : task < w.started
  calls : scope.calls → ∀ id, op = .job id → IsMaintenance id w.trace
  locks : ∀ name, (w.state.lock name).holder = some task ↔ scope.locks name
  waiters : ∀ name, (w.state.lock name).waiters.count task = if scope.queues = some name then 1 else 0
  leases : leased task w.trace = scope.leases

/-- What a task may do: entries of its own, and nothing to the others' locks,
places and leases. -/
structure Does (task : Nat) (before after : GatewayWorld) : Prop where
  started : after.started = before.started
  entries : ∀ entry ∈ after.trace, entry ∈ before.trace ∨ entry.task = task
  alone : ∀ other, other ≠ task → LeftAlone other before after

variable {config : Config} {op : Op} {task : Nat} {scope : Scope} {α β : Type} {w w' : GatewayWorld}
  {event : Option Event} {state : State}

section Actions

theorem Does.trans {first second third : GatewayWorld} (h : Does task first second) (h' : Does task second third) :
    Does task first third where
  started := h'.started.trans h.started
  entries := fun entry hEntry => (h'.entries entry hEntry).elim (h.entries entry) Or.inr
  alone := fun other hOther => (h.alone other hOther).trans (h'.alone other hOther)

theorem Does.act (hLocks : ∀ other, other ≠ task → ∀ name,
    ((state.lock name).holder = some other ↔ (w.state.lock name).holder = some other) ∧
      (state.lock name).waiters.count other = (w.state.lock name).waiters.count other) :
    Does task w (w.act task event state) where
  started := World.act_started _ _ _ _
  entries := by
    cases event with
    | none => exact fun _ => Or.inl
    | some e => exact fun entry hEntry => (List.mem_cons.mp hEntry).symm.imp_right fun hNew => by rw [hNew]
  alone := by
    intro other hOther
    refine ⟨fun name => ?_, fun name => ?_, ?_⟩
    · rw [World.act_state]
      exact (hLocks other hOther name).1
    · rw [World.act_state]
      exact (hLocks other hOther name).2
    · cases event with
      | none => rfl
      | some e => exact leased_other (Ne.symm hOther)

theorem Does.same (hLocks : ∀ name, state.lock name = w.state.lock name) : Does task w (w.act task event state) :=
  Does.act fun other _ name => by rw [hLocks name]; exact ⟨Iff.rfl, rfl⟩

theorem ordering_act (hOld : Grounded w) (hBorn : task < w.started) (hInv : Inv w') (hBooks : Books w')
    (hDoes : Does task w w') : (ordering config).Act task w w' := by
  refine ⟨⟨hInv, fun name other hHolds => ?_, fun name other hWaits => ?_, fun entry hEntry => ?_, hBooks⟩, hDoes.alone⟩
  · rw [hDoes.started]
    by_cases hSame : other = task
    · exact hSame ▸ hBorn
    · exact hOld.holders name other (((hDoes.alone other hSame).locks name).mp hHolds)
  · rw [hDoes.started]
    by_cases hSame : other = task
    · exact hSame ▸ hBorn
    · refine hOld.waiters name other (List.count_pos_iff.mp ?_)
      rw [← (hDoes.alone other hSame).waiters name]
      exact List.count_pos_iff.mpr hWaits
  · rw [hDoes.started]
    rcases hDoes.entries entry hEntry with hEarlier | hOwn
    · exact hOld.entries entry hEarlier
    · exact hOwn ▸ hBorn

theorem Confined.out (h : Confined scope op task w) (hOut : scope.Out) (hBooks : Books w) :
    task ∉ pending w.trace := by
  rw [hBooks.queue, List.mem_append]
  rintro (hHolds | hWaits)
  · exact hOut.head ((h.locks .head).mp (Option.mem_toList.mp hHolds))
  · have hNone := h.waiters .head
    rw [if_neg hOut.queue, List.count_eq_zero] at hNone
    exact hNone hWaits

theorem Confined.orderly {wait : Wait} (h : Confined scope op task w) (hPermits : scope.Permits wait)
    (hFlight : ∀ id, wait = .probe id → ∃ epoch outcome, (core w.state).jobs[id]? = some (.probe epoch, outcome)) :
    Orderly op task wait w := by
  have hHead : ¬scope.locks .head → (w.state.lock .head).holder ≠ some task := fun hNot hHolds =>
    hNot ((h.locks .head).mp hHolds)
  refine ⟨fun hHolds => hPermits.head ((h.locks .head).mp hHolds), ?_, ?_, ?_, ?_, hFlight, ?_⟩
  · rintro ⟨lease, hLease, hKind⟩
    have hSlot := hPermits.slot ⟨lease, h.leases ▸ hLease, hKind⟩
    exact ⟨hHead hSlot.1, hSlot.2⟩
  · intro hHolds
    have hRepair := hPermits.repair ((h.locks .repair).mp hHolds)
    exact ⟨hHead hRepair.1, hRepair.2⟩
  · rintro ⟨lease, hLease, hKind⟩
    exact hPermits.probe ⟨lease, h.leases ▸ hLease, hKind⟩
  · intro id hOp
    by_cases hCalls : scope.calls
    · exact Or.inl (h.calls hCalls id hOp)
    · have hJob := hPermits.job hCalls
      exact Or.inr ⟨hHead hJob.1, hJob.2⟩
  · rw [← hPermits.queue]
    exact h.waiters

theorem Confined.same (h : Confined scope op task w) (hEvent : ∀ e ∈ event, e.isLease = false)
    (hLocks : ∀ name, state.lock name = w.state.lock name) : Confined scope op task (w.act task event state) where
  born := by simpa using h.born
  calls := fun hCalls id hOp => (h.calls hCalls id hOp).mono suffix_act
  locks := fun name => by rw [World.act_state, hLocks name]; exact h.locks name
  waiters := fun name => by rw [World.act_state, hLocks name]; exact h.waiters name
  leases := by
    cases event with
    | none => exact h.leases
    | some e => exact (leased_same (hEvent e rfl)).trans h.leases

theorem Confined.rely {after : GatewayWorld} (h : Confined scope op task w) (hRely : Rely task w after)
    (hAlone : LeftAlone task w after) : Confined scope op task after where
  born := h.born.trans_le hRely.grows.started
  calls := fun hCalls id hOp => (h.calls hCalls id hOp).mono hRely.grows.history
  locks := fun name => (hAlone.locks name).trans (h.locks name)
  waiters := fun name => (hAlone.waiters name).trans (h.waiters name)
  leases := hAlone.leases.trans h.leases

/-- A step away from the queue, the locks and the leases. -/
theorem ordering_away (hOld : Grounded w) (hOut : scope.Out) (h : Confined scope op task w)
    (hInv : Inv (w.act task event state)) (hEvent : ∀ e ∈ event, e.isAway = true) (hState : Unbooked w.state state) :
    (ordering config).Act task w (w.act task event state) ∧ Confined scope op task (w.act task event state) :=
  ⟨ordering_act hOld h.born hInv (hOld.books.away (h.out hOut hOld.books) hEvent hState) (Does.same hState.locks),
    h.same (fun e he => Event.lease_of_away (hEvent e he)) hState.locks⟩

theorem unbooked_returns {wait : Wait} {reply : wait.Reply} {before after : State}
    (h : Host.returns config task before wait reply = some after) : Unbooked before after := by
  rcases Host.returns_cases h with rfl | ⟨argv, pid, os, -, hSpawn, rfl⟩
  · exact Unbooked.refl _
  · simp only [Os.spawn, Option.ite_none_right_eq_some, Option.some.injEq] at hSpawn
    rw [← hSpawn.2]
    exact ⟨rfl, rfl, rfl, rfl⟩

theorem unbooked_cancel {before after : State} (h : Host.cancel op before = some after) : Unbooked before after := by
  cases op with
  | job id =>
      simp only [Host.cancel, Option.ite_none_right_eq_some, Option.some.injEq] at h
      rw [← h.2]
      exact ⟨rfl, rfl, rfl, rfl⟩
  | _ =>
      cases h
      exact Unbooked.refl _

/-- No answer touches what the books are about. -/
theorem unbooked_deliver {wait : Wait} {reply : Except Error wait.Reply} {before after : State}
    (h : Host.deliver config op task wait reply before = some after) : Unbooked before after := by
  cases reply with
  | ok value => exact unbooked_returns h
  | error error =>
      simp only [Host.deliver] at h
      split at h
      · cases h
        exact Unbooked.refl _
      · split at h
        · obtain ⟨middle, hCancel, rfl⟩ := Option.map_eq_some_iff.mp h
          have hMiddle := unbooked_cancel hCancel
          cases wait <;> exact ⟨hMiddle.lock, hMiddle.slots, hMiddle.table.leases, hMiddle.table.nextLease⟩
        · cases h

theorem note_away (op : Op) (wait : Wait) (reply : Except Error wait.Reply) :
    ∀ e ∈ Host.note op wait reply, e.isAway = true := by
  intro e he
  cases reply with
  | ok value => cases he
  | error error =>
      simp only [Host.note] at he
      split at he <;> cases he <;> rfl

end Actions

section Rules

open Pazuzu.Supervisor

abbrev Owp (config : Config) (op : Op) (task : Nat) (code : Py α)
    (post : Except Error α → GatewayWorld → Prop) (w : GatewayWorld) : Prop :=
  (ordering config).wp op task code post w

/-- Code that keeps to a scope. -/
def Orders (config : Config) (scope : Scope) {α : Type} (code : Py α) : Prop :=
  ∀ op task w, Confined scope op task w →
    Owp config op task code (fun _ v => Confined scope op task v) w

theorem orders_compositional (config : Config) (scope : Scope) : Compositional (Orders config scope) where
  pure := fun _ _ _ _ h => Extension.wp_pure h
  throw := fun _ _ _ _ h => Extension.wp_throw h
  read := fun hNext op task w h => Extension.wp_read (hNext task w.state op task w h)
  bind := by
    intro α β code next hCode hNext op task w h
    refine Extension.wp_bind (Extension.wp_mono (hCode op task w h) ?_)
    rintro (error | value) v _ hV
    · exact hV
    · exact hNext value op task v hV
  attempt := fun hCode op task w h => Extension.wp_attempt (hCode op task w h)

variable {post : Except Error β → GatewayWorld → Prop}

theorem owp_seq {code : Py α} {next : α → Py β} (hCode : Orders config scope code) (h : Confined scope op task w)
    (hNext : ∀ value v, Confined scope op task v → Owp config op task (next value) post v)
    (hError : ∀ error v, Confined scope op task v → post (.error error) v) :
    Owp config op task (code.bind next) post w := by
  refine Extension.wp_bind (Extension.wp_mono (hCode op task w h) ?_)
  rintro (error | value) v _ hV
  · exact hError error v hV
  · exact hNext value v hV

theorem orders_record {event : Event} {f : State → State} (hOut : scope.Out) (hEvent : event.isAway = true)
    (hState : ∀ state, Unbooked state (f state)) : Orders config scope (Coro.record event f) := by
  intro op task w h
  refine Extension.wp_act fun hOld hInv => ?_
  obtain ⟨hAct, hNow⟩ := ordering_away hOld hOut h hInv (fun e he => by cases he; exact hEvent) (hState w.state)
  exact ⟨hAct, Extension.wp_pure hNow⟩

theorem orders_update {f : State → State} (hOut : scope.Out) (hState : ∀ state, Unbooked state (f state)) :
    Orders config scope (Coro.update f) := by
  intro op task w h
  refine Extension.wp_act fun hOld hInv => ?_
  obtain ⟨hAct, hNow⟩ := ordering_away hOld hOut h hInv (fun e he => by cases he) (hState w.state)
  exact ⟨hAct, Extension.wp_pure hNow⟩

theorem orders_mark {event : Event} (hOut : scope.Out) (hEvent : event.isAway = true) :
    Orders config scope (Coro.mark event) :=
  orders_record hOut hEvent Unbooked.refl

/-- A wait that the scope permits, for a probe that there is if it is for one. -/
theorem owp_wait {wait : Wait} (hOut : scope.Out) (hPermits : scope.Permits wait) (h : Confined scope op task w)
    (hFlight : ∀ id, wait = .probe id → ∃ epoch outcome, (core w.state).jobs[id]? = some (.probe epoch, outcome)) :
    Owp config op task (Pazuzu.wait wait) (fun _ v => Confined scope op task v) w := by
  refine Extension.wp_suspend fun _ => ⟨h.orderly hPermits hFlight, ?_⟩
  intro later reply state _ hOld hRely hAlone hDeliver hInv
  exact ordering_away hOld hOut (h.rely hRely hAlone) hInv (note_away op wait reply) (unbooked_deliver hDeliver)

theorem orders_wait {wait : Wait} (hOut : scope.Out) (hPermits : scope.Permits wait) (hProbe : wait.isProbe = false) :
    Orders config scope (Pazuzu.wait wait) :=
  fun op task w h => owp_wait hOut hPermits h fun id hWait => by
    rw [hWait] at hProbe
    cases hProbe

theorem orders_fileOp (hOut : scope.Out) (operation : FileOp) : Orders config scope (fileOp operation) := by
  refine (orders_compositional config scope).get fun state => ?_
  split
  · exact (orders_compositional config scope).pure ()
  · exact (orders_compositional config scope).bind (orders_mark hOut rfl) fun _ =>
      (orders_compositional config scope).throw _

end Rules

section Repair

/-- A change of the repair lock that is none of the others' business. -/
theorem ordering_repair {lock : Lock} (inner : Scope) (hOld : Grounded w) (h : Confined scope op task w)
    (hInv : Inv (w.act task none (w.state.setLock .repair lock)))
    (hHolder : ∀ other, other ≠ task → (lock.holder = some other ↔ w.state.sup.repairLock.holder = some other))
    (hWaiters : ∀ other, other ≠ task → lock.waiters.count other = w.state.sup.repairLock.waiters.count other)
    (hCalls : inner.calls = scope.calls) (hLeases : inner.leases = scope.leases)
    (hHead : inner.locks .head ↔ scope.locks .head) (hQueue : inner.queues = some .head ↔ scope.queues = some .head)
    (hHolds : lock.holder = some task ↔ inner.locks .repair)
    (hQueued : lock.waiters.count task = if inner.queues = some .repair then 1 else 0) :
    (ordering config).Act task w (w.act task none (w.state.setLock .repair lock)) ∧
      Confined inner op task (w.act task none (w.state.setLock .repair lock)) := by
  refine ⟨ordering_act hOld h.born hInv (hOld.books.pass rfl rfl rfl rfl rfl ⟨rfl, rfl⟩) (Does.act fun other hOther name => ?_),
    ⟨h.born, fun hInner => h.calls (hCalls ▸ hInner), fun name => ?_, fun name => ?_, h.leases.trans hLeases.symm⟩⟩
  · cases name with
    | repair => exact ⟨hHolder other hOther, hWaiters other hOther⟩
    | head => exact ⟨Iff.rfl, rfl⟩
  · cases name with
    | repair => exact hHolds
    | head => exact (h.locks .head).trans hHead.symm
  · cases name with
    | repair => exact hQueued
    | head =>
        have hWas := h.waiters .head
        simp only [hQueue]
        exact hWas

/-- A scope from which the repair lock may be sought. -/
structure Scope.Seeks (scope : Scope) : Prop extends Scope.Free scope where
  calls : scope.calls
  repair : ¬scope.locks .repair
  probe : ∀ lease ∈ scope.leases, lease.file.kind ≠ .probe

theorem Scope.Seeks.permits (h : scope.Seeks) (deadline : Option ℚ) :
    (scope.queuing .repair).Permits (.lock .repair deadline) where
  head := fun hHead => absurd hHead h.head
  slot := fun _ => ⟨h.head, fun _ hWait => by cases hWait⟩
  repair := fun hRepair => absurd hRepair h.repair
  probe := fun ⟨lease, hLease, hKind⟩ => absurd hKind (h.probe lease hLease)
  job := fun hNot => absurd h.calls hNot
  queue := rfl

theorem count_append_other {other : Nat} (waiters : List Nat) (h : other ≠ task) :
    (waiters ++ [task]).count other = waiters.count other := by
  rw [List.count_append, List.count_singleton, if_neg (by simpa using Ne.symm h), Nat.add_zero]

theorem count_erase_other {other : Nat} (waiters : List Nat) (h : other ≠ task) :
    (waiters.erase task).count other = waiters.count other :=
  List.count_erase_of_ne h

theorem owp_takeRepair {post : Except Error Unit → GatewayWorld → Prop} (h : Confined scope op task w)
    (hSeeks : scope.Seeks) (hNobody : w.state.sup.repairLock.holder = none)
    (hPost : ∀ v, Confined (scope.takes .repair) op task v → post (.ok ()) v) :
    Owp config op task (setHolder .repair (some task)) post w := by
  refine Extension.wp_act fun hOld hInv => ?_
  have hNot : ¬scope.queues = some .repair := by rw [hSeeks.unqueued]; simp
  obtain ⟨hAct, hNow⟩ := ordering_repair (scope.takes .repair) hOld h hInv
    (fun other hOther => by rw [hNobody]; simpa using Ne.symm hOther) (fun _ _ => rfl) rfl rfl
    (by simp [Scope.takes]) Iff.rfl (iff_of_true rfl (Or.inl rfl)) (h.waiters .repair)
  exact ⟨hAct, Extension.wp_pure (hPost _ hNow)⟩

theorem owp_releaseRepair {post : Except Error Unit → GatewayWorld → Prop}
    (h : Confined (scope.takes .repair) op task w) (hSeeks : scope.Seeks)
    (hPost : ∀ v, Confined scope op task v → post (.ok ()) v) :
    Owp config op task (release .repair) post w := by
  refine Extension.wp_act fun hOld hInv => ?_
  have hHeld : w.state.sup.repairLock.holder = some task := (h.locks .repair).mpr (Or.inl rfl)
  obtain ⟨hAct, hNow⟩ := ordering_repair scope hOld h hInv
    (fun other hOther => by rw [hHeld]; simpa using Ne.symm hOther) (fun _ _ => rfl) rfl rfl
    (by simp [Scope.takes]) Iff.rfl (iff_of_false (by simp) hSeeks.repair) (h.waiters .repair)
  exact ⟨hAct, Extension.wp_pure (hPost _ hNow)⟩

/-- The place in the queue is left, whether the wait has failed or not. -/
theorem owp_dequeueRepair {post : Except Error Unit → GatewayWorld → Prop}
    (h : Confined (scope.queuing .repair) op task w) (hSeeks : scope.Seeks)
    (hPost : ∀ v, Confined scope op task v → v.state.sup.repairLock.holder = w.state.sup.repairLock.holder →
      post (.ok ()) v) : Owp config op task (dequeue .repair task) post w := by
  refine Extension.wp_act fun hOld hInv => ?_
  have hNot : ¬scope.queues = some .repair := by rw [hSeeks.unqueued]; simp
  have hCount : w.state.sup.repairLock.waiters.count task = 1 := (h.waiters .repair).trans (if_pos rfl)
  obtain ⟨hAct, hNow⟩ := ordering_repair scope hOld h hInv (fun _ _ => Iff.rfl)
    (fun other hOther => count_erase_other _ hOther) rfl rfl Iff.rfl
    (by simp [Scope.queuing, hSeeks.unqueued]) (h.locks .repair)
    (by rw [if_neg hNot, List.count_erase_self]; exact Nat.sub_eq_zero_of_le hCount.le)
  exact ⟨hAct, Extension.wp_pure (hPost _ hNow rfl)⟩

theorem owp_acquireRepair {deadline : Option ℚ} {next : Unit → Py β} {post : Except Error β → GatewayWorld → Prop}
    (hSeeks : scope.Seeks) (h : Confined scope op task w)
    (hNext : ∀ v, Confined (scope.takes .repair) op task v → Owp config op task (next ()) post v)
    (hError : ∀ error v, Confined scope op task v → post (.error error) v) :
    Owp config op task ((acquire .repair deadline).bind next) post w := by
  refine Extension.wp_bind (Extension.wp_current_bind (Extension.wp_get_bind (Extension.wp_ite
    (fun hFree => owp_takeRepair h hSeeks hFree.1 hNext) fun _ => ?_)))
  have hQueued : Owp config op task (enqueue .repair task)
      (fun outcome v => outcome = .ok () ∧ Confined (scope.queuing .repair) op task v) w := by
    refine Extension.wp_act fun hOld hInv => ?_
    have hNot : ¬scope.queues = some .repair := by rw [hSeeks.unqueued]; simp
    have hCount : w.state.sup.repairLock.waiters.count task = 0 := (h.waiters .repair).trans (if_neg hNot)
    obtain ⟨hAct, hNow⟩ := ordering_repair (scope.queuing .repair) hOld h hInv (fun _ _ => Iff.rfl)
      (fun other hOther => count_append_other _ hOther) rfl rfl Iff.rfl
      (by simp [Scope.queuing, hSeeks.unqueued]) (h.locks .repair) (by
        rw [List.count_append]
        simp [Scope.queuing, State.lock, hCount])
    exact ⟨hAct, Extension.wp_pure ⟨rfl, hNow⟩⟩
  refine Extension.wp_bind (Extension.wp_mono hQueued ?_)
  rintro outcome v _ ⟨hOk, hV⟩
  subst hOk
  have hOut : (scope.queuing .repair).Out := ⟨hSeeks.head, by simp [Scope.queuing]⟩
  have hWaited : Owp config op task (wait (.lock .repair deadline)) (fun outcome u =>
      Confined (scope.queuing .repair) op task u ∧
        (outcome = .ok () → u.state.sup.repairLock.holder = none)) v := by
    refine Extension.wp_suspend fun _ => ⟨hV.orderly (hSeeks.permits deadline) (fun _ hWait => by cases hWait), ?_⟩
    intro later reply state _ hOld hRely hAlone hDeliver hInv
    obtain ⟨hAct, hNow⟩ := ordering_away hOld hOut (hV.rely hRely hAlone) hInv
      (note_away op (.lock .repair deadline) reply) (unbooked_deliver hDeliver)
    refine ⟨hAct, hNow, fun hOk => ?_⟩
    cases hOk
    simp only [gateway, Host.deliver, Host.returns, Option.ite_none_right_eq_some, Option.some.injEq] at hDeliver
    change state.sup.repairLock.holder = none
    rw [← hDeliver.2]
    exact hDeliver.1.1
  refine Extension.wp_bind (Extension.wp_tryFinally (Extension.wp_mono hWaited ?_))
  rintro (error | value) u _ ⟨hU, hNobody⟩
  · exact owp_dequeueRepair hU hSeeks fun x hX _ => hError error x hX
  · exact owp_dequeueRepair hU hSeeks fun x hX hSame => owp_takeRepair hX hSeeks (hSame.trans (hNobody rfl)) hNext

theorem orders_withRepair {deadline : Option ℚ} {body : Py α} (hSeeks : scope.Seeks)
    (hBody : Orders config (scope.takes .repair) body) : Orders config scope (withLock .repair body deadline) :=
  fun op task _ h => owp_acquireRepair hSeeks h (fun v hV => Extension.wp_tryFinally (Extension.wp_mono
    (hBody op task v hV) fun _ _ _ hU => owp_releaseRepair hU hSeeks fun _ hX => hX)) fun _ _ hV => hV

end Repair
end Pazuzu.Supervision
