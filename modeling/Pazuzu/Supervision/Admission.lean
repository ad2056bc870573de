import Pazuzu.Supervision.Hierarchy

/-! How slots are taken and given back. The slot for probes changes hands in
single steps. The admission to an operation slot counts, queues and takes in
several, and what is still to be done then is owed until the task next waits. -/
namespace Pazuzu

namespace Lock

def vacate (lock : Lock) : Lock := { lock with holder := none }

def hold (task : Nat) (lock : Lock) : Lock := { lock with holder := some task }

def join (task : Nat) (lock : Lock) : Lock := { lock with waiters := lock.waiters ++ [task] }

def leave (task : Nat) (lock : Lock) : Lock := { lock with waiters := lock.waiters.erase task }

end Lock

/-- A change of the lock at the head of the queue. -/
def State.rehead (change : Lock → Lock) (state : State) : State :=
  state.setLock .head (change (state.lock .head))

namespace Supervision

open Asyncio Supervisor

variable {config : Config} {op : Op} {task : Nat} {scope : Scope} {α β : Type} {w : GatewayWorld}

theorem taken_of_leased {lease : SessionLease} {history : History} (h : lease ∈ leased task history) :
    ∃ state, (⟨task, .leaseTaken lease, state⟩ : Record) ∈ history := by
  induction history with
  | nil => cases h
  | cons newest earlier ih =>
      obtain ⟨owner, event, state⟩ := newest
      have hEarlier : lease ∈ leased task earlier →
          ∃ state', (⟨task, .leaseTaken lease, state'⟩ : Record) ∈ (⟨owner, event, state⟩ : Record) :: earlier :=
        fun hOld => (ih hOld).imp fun _ hTaken => List.mem_cons_of_mem _ hTaken
      rw [leased] at h
      split at h
      · next hOwn =>
          cases event with
          | leaseTaken other =>
              rcases List.mem_cons.mp h with rfl | hOld
              · exact ⟨state, hOwn ▸ List.mem_cons_self⟩
              · exact hEarlier hOld
          | leaseReleased other => exact hEarlier (List.mem_filter.mp h).1
          | _ => exact hEarlier h
      · exact hEarlier h

/-- A lease that is still to be numbered is held by nobody. -/
theorem Books.unheld (h : Books w) {lease : SessionLease} (hLease : lease.id = w.state.os.nextLease) :
    lease ∉ leased task w.trace := fun hHeld => by
  obtain ⟨state, hTaken⟩ := taken_of_leased hHeld
  exact fresh_taken h hLease _ hTaken rfl

theorem kind_of_free {pool : SessionLeasePool} {leases : List SessionLease} {file : SlotFile}
    (h : pool.firstFree leases = some file) : file.kind = pool.kind := by
  obtain ⟨offset, -, rfl⟩ := List.mem_map.mp (List.mem_of_find?_eq_some h)
  rfl

/-- A lease comes or goes, and all else stays. -/
theorem Confined.exchange {event : Option Event} {state : State} {leases : List SessionLease}
    (h : Confined scope op task w) (hLocks : ∀ name, state.lock name = w.state.lock name)
    (hLeases : leased task (w.act task event state).trace = leases) :
    Confined { scope with leases } op task (w.act task event state) where
  born := by simpa using h.born
  calls := fun hCalls id hOp => (h.calls hCalls id hOp).mono suffix_act
  locks := fun name => by rw [World.act_state, hLocks name]; exact h.locks name
  waiters := fun name => by rw [World.act_state, hLocks name]; exact h.waiters name
  leases := hLeases

section Probes

/-- A lease of the slot for probes has come into the scope. -/
def Acquired (scope : Scope) (op : Op) (task : Nat) : Except Error SessionLease → GatewayWorld → Prop
  | .ok lease, w => Confined (scope.leasing lease) op task w ∧ lease.file.kind = .probe ∧ lease ∉ scope.leases
  | .error _, w => Confined scope op task w

variable {pool : SessionLeasePool}

theorem owp_tryProbe (hProbes : pool.kind = .probe) (hOut : scope.Out) (h : Confined scope op task w) :
    Owp config op task pool.tryAcquire (fun outcome v => match outcome with
      | .ok (some lease) => Acquired scope op task (.ok lease) v
      | _ => Confined scope op task v) w := by
  refine owp_seq (orders_fileOp hOut .openSlot) h (fun _ v hV => Extension.wp_get_bind ?_) fun _ _ hV => hV
  split
  · exact Extension.wp_pure hV
  · next file hFree =>
      have hKind : file.kind = .probe := (kind_of_free hFree).trans hProbes
      refine Extension.wp_act fun hOld hInv => ⟨ordering_act hOld hV.born hInv
        (hOld.books.probeTaken rfl rfl hKind rfl rfl rfl rfl rfl) (Does.same fun name => by cases name <;> rfl),
        Extension.wp_pure ⟨hV.exchange (fun name => by cases name <;> rfl) ?_, hKind, ?_⟩⟩
      · exact leased_taken.trans (congrArg _ hV.leases)
      · rw [← hV.leases]
        exact hOld.books.unheld rfl

theorem owp_pollProbe (hProbes : pool.kind = .probe) (hPlain : scope.Plain) (deadline due : Option ℚ) (rounds : Nat)
    (h : Confined scope op task w) :
    Owp config op task (pool.poll deadline due rounds) (Acquired scope op task) w := by
  induction rounds generalizing w with
  | zero =>
      exact owp_seq (orders_wait hPlain.toOut (hPlain.permits rfl rfl) rfl) h (fun impossible => nomatch impossible)
        fun _ _ hV => hV
  | succ rounds ih =>
      refine Extension.wp_bind (Extension.wp_mono (owp_tryProbe hProbes hPlain.toOut h) ?_)
      rintro (error | found) v _ hV
      · exact hV
      · cases found with
        | some lease => exact Extension.wp_pure hV
        | none =>
            refine Extension.wp_get_bind (Extension.wp_ite (fun _ => Extension.wp_raise hV) fun _ => ?_)
            have hSleep : Orders config scope (sleep (1 / 20) due) := (orders_compositional config scope).get fun _ =>
              orders_wait hPlain.toOut (hPlain.permits rfl rfl) rfl
            exact owp_seq hSleep hV (fun _ u hU => ih hU) fun _ _ hU => hU

theorem owp_acquireProbe (hProbes : pool.kind = .probe) (hPlain : scope.Plain) (timeout due : Option ℚ)
    (h : Confined scope op task w) :
    Owp config op task (pool.acquireAsync config timeout due) (Acquired scope op task) w :=
  owp_seq (orders_fileOp hPlain.toOut .makeLeaseDirectory) h (fun _ _ hV => Extension.wp_get_bind
    (owp_pollProbe hProbes hPlain _ due _ hV)) fun _ _ hV => hV

theorem filter_ne_cons {lease : SessionLease} {leases : List SessionLease} (h : lease ∉ leases) :
    (lease :: leases).filter (fun other => other ≠ lease) = leases := by
  rw [List.filter_cons_of_neg (by simp), List.filter_eq_self]
  rintro other hOther
  simpa using fun hSame : other = lease => h (hSame ▸ hOther)

/-- The slot for probes is given back, and with it leaves the scope. -/
theorem owp_leaveProbe {lease : SessionLease} {post : Except Error Unit → GatewayWorld → Prop}
    (h : Confined (scope.leasing lease) op task w) (hKind : lease.file.kind = .probe) (hOnce : lease ∉ scope.leases)
    (hPost : ∀ v, Confined scope op task v → post (.ok ()) v) : Owp config op task lease.release post w := by
  have hHeld : lease ∈ leased task w.trace := by
    rw [h.leases]
    exact List.mem_cons_self
  refine Extension.wp_act fun hOld hInv => ⟨ordering_act hOld h.born hInv
    (hOld.books.probeReleased rfl rfl hKind hHeld rfl rfl rfl) (Does.same fun name => by cases name <;> rfl),
    Extension.wp_pure (hPost _ (h.exchange (fun name => by cases name <;> rfl) ?_))⟩
  refine leased_released.trans ?_
  rw [h.leases]
  exact filter_ne_cons hOnce

end Probes

section Queue

/-- Nothing is held, and anything may be sought. -/
def Scope.base : Scope := ⟨True, fun _ => False, [], none⟩

/-- The books are right and the task is in the scope once the state has been
changed so, which it will be before anybody else runs. -/
def Owes (config : Config) (op : Op) (task : Nat) (scope : Scope) (change : State → State)
    (start w : GatewayWorld) : Prop :=
  Inv (w.act task none (change w.state)) →
    (ordering config).Act task start (w.act task none (change w.state)) ∧
      Confined scope op task (w.act task none (change w.state))

/-- The task's own place in the queue is all that differs. -/
structure Shifts (task : Nat) (old new : Lock) : Prop where
  holder : ∀ other, other ≠ task → (new.holder = some other ↔ old.holder = some other)
  waiters : ∀ other, other ≠ task → new.waiters.count other = old.waiters.count other

variable {start : GatewayWorld} {event : Option Event} {state : State} {inner : Scope} {change : State → State}

/-- An entry of the task's own and a change at its own place, after which the
books are right again. -/
theorem owes_shift (hStart : (ordering config).Act task start w) (h : Confined scope op task w)
    (hLocks : ∀ name, state.lock name = w.state.lock name)
    (hRepair : (change state).lock .repair = state.lock .repair)
    (hShifts : Shifts task (w.state.lock .head) ((change state).lock .head))
    (hCalls : inner.calls → scope.calls) (hSame : inner.locks .repair ↔ scope.locks .repair)
    (hQueues : scope.queues ≠ some .repair) (hInner : inner.queues ≠ some .repair)
    (hHolds : ((change state).lock .head).holder = some task ↔ inner.locks .head)
    (hQueued : ((change state).lock .head).waiters.count task = if inner.queues = some .head then 1 else 0)
    (hLeases : leased task (w.act task event state).trace = inner.leases)
    (hBooks : Books ((w.act task event state).act task none (change state))) :
    Owes config op task inner change start (w.act task event state) := by
  intro hInv
  rw [World.act_state] at hInv ⊢
  have hDoes : Does task w ((w.act task event state).act task none (change state)) := by
    refine (Does.same hLocks).trans (Does.act fun other hOther name => ?_)
    rw [World.act_state]
    cases name with
    | head =>
        rw [hLocks]
        exact ⟨hShifts.holder other hOther, hShifts.waiters other hOther⟩
    | repair =>
        rw [hRepair]
        exact ⟨Iff.rfl, rfl⟩
  refine ⟨hStart.trans _ (ordering_act hStart.1 h.born hInv hBooks hDoes), by simpa using h.born,
    fun hInnerCalls id hOp => (h.calls (hCalls hInnerCalls) id hOp).mono suffix_act, fun name => ?_, fun name => ?_, hLeases⟩
  · rw [World.act_state]
    cases name with
    | head => exact hHolds
    | repair => rw [hRepair, hLocks, h.locks, hSame]
  · rw [World.act_state]
    cases name with
    | head => exact hQueued
    | repair => rw [hRepair, hLocks, h.waiters, if_neg hQueues, if_neg hInner]

/-- What is owed is paid by the code that makes the change. -/
theorem along_pays {post : Except Error Unit → GatewayWorld → GatewayWorld → Prop}
    (h : Owes config op task inner change start w)
    (hPost : ∀ v, (ordering config).Act task start v → Confined inner op task v → post (.ok ()) start v) :
    (ordering config).along op task (Coro.update change) post start w :=
  Extension.along_update fun hInv => hPost _ (h hInv).1 (h hInv).2

/-- Or a part of it. -/
theorem along_pays_part {first rest : State → State} {post : Except Error Unit → GatewayWorld → GatewayWorld → Prop}
    (h : Owes config op task inner (fun state => rest (first state)) start w)
    (hPost : ∀ v, Owes config op task inner rest start v → post (.ok ()) start v) :
    (ordering config).along op task (Coro.update first) post start w :=
  Extension.along_update fun _ => hPost _ h

/-- Whoever gives up at the head of the queue or within it. -/
theorem owes_quit {e : Event} {change : Lock → Lock} (hStart : (ordering config).Act task start w)
    (h : Confined scope op task w) (hCalls : scope.calls) (hRepair : ¬scope.locks .repair)
    (hQueues : scope.queues ≠ some .repair) (hLeases : scope.leases = []) (hQuits : e.quits = true)
    (hState : Unbooked w.state state)
    (hIn : task ∈ (w.state.lock .head).holder.toList ++ (w.state.lock .head).waiters)
    (hQueue : (change (w.state.lock .head)).holder.toList ++ (change (w.state.lock .head)).waiters =
      ((w.state.lock .head).holder.toList ++ (w.state.lock .head).waiters).erase task)
    (hShifts : Shifts task (w.state.lock .head) (change (w.state.lock .head)))
    (hHolder : (change (w.state.lock .head)).holder ≠ some task)
    (hGone : (change (w.state.lock .head)).waiters.count task = 0) :
    Owes config op task .base (fun state => (state.rehead change).dropWaiting) start
      (w.act task (some e) state) := by
  have hHead : ((state.rehead change).dropWaiting).lock .head = change (w.state.lock .head) :=
    congrArg change (hState.locks .head)
  have hAway : e.isLease = false := by cases e <;> first | rfl | cases hQuits
  have hBooks := hStart.1.books
  refine owes_shift hStart h hState.locks rfl (hHead ▸ hShifts) (fun _ => hCalls) (iff_of_false id hRepair) hQueues
    (by simp [Scope.base]) (iff_of_false (hHead ▸ hHolder) id) (by rw [hHead, hGone]; rfl)
    ((leased_same hAway).trans (h.leases.trans hLeases)) (hBooks.quit rfl rfl hQuits (hBooks.queue ▸ hIn) ?_ ?_ ?_ ?_)
  · change (((state.rehead change).dropWaiting).lock .head).holder.toList ++
      (((state.rehead change).dropWaiting).lock .head).waiters = _
    rw [hHead, hQueue]
  · change state.slots.waiting - 1 = _
    rw [hState.slots]
  · change state.slots.active = _
    rw [hState.slots]
  · exact hState.table

theorem owes_quit_head {e : Event} (hStart : (ordering config).Act task start w)
    (h : Confined (Scope.base.takes .head) op task w) (hQuits : e.quits = true) (hState : Unbooked w.state state) :
    Owes config op task .base (fun state => (state.rehead Lock.vacate).dropWaiting) start
      (w.act task (some e) state) := by
  have hHead : (w.state.lock .head).holder = some task := (h.locks .head).mpr (Or.inl rfl)
  refine owes_quit hStart h trivial (by simp [Scope.takes, Scope.base]) (by simp [Scope.takes, Scope.base]) rfl hQuits hState
    (by rw [hHead]; simp) (by rw [hHead]; simp [Lock.vacate]) ⟨fun other hOther => ?_, fun _ _ => rfl⟩
    (by simp [Lock.vacate]) ((h.waiters .head).trans (if_neg (by simp [Scope.takes, Scope.base])))
  rw [hHead]
  simpa [Lock.vacate] using Ne.symm hOther

theorem owes_quit_queue {e : Event} (hStart : (ordering config).Act task start w)
    (h : Confined (Scope.base.queuing .head) op task w) (hQuits : e.quits = true) (hState : Unbooked w.state state) :
    Owes config op task .base (fun state => (state.rehead (Lock.leave task)).dropWaiting) start
      (w.act task (some e) state) := by
  have hCount : (w.state.lock .head).waiters.count task = 1 := (h.waiters .head).trans (if_pos rfl)
  have hHolder : (w.state.lock .head).holder ≠ some task := fun hHolds => (h.locks .head).mp hHolds
  refine owes_quit hStart h trivial id (by simp [Scope.queuing]) rfl hQuits hState ?_ ?_
    ⟨fun _ _ => Iff.rfl, fun other hOther => count_erase_other _ hOther⟩ hHolder ?_
  · exact List.mem_append_right _ (List.count_pos_iff.mp (by omega))
  · exact (List.erase_append_right _ (by rwa [Option.mem_toList])).symm
  · simp only [Lock.leave, List.count_erase_self]
    omega

/-- Whoever comes is at the end of the queue or, where there is none, at its head. -/
theorem owes_arrive {change : Lock → Lock} (hStart : (ordering config).Act task start w) (h : Confined .base op task w)
    (hQueue : (change (w.state.lock .head)).holder.toList ++ (change (w.state.lock .head)).waiters =
      (w.state.lock .head).holder.toList ++ (w.state.lock .head).waiters ++ [task])
    (hShifts : Shifts task (w.state.lock .head) (change (w.state.lock .head)))
    (hRepair : ¬inner.locks .repair) (hInner : inner.queues ≠ some .repair)
    (hLeases : inner.leases = [])
    (hHolds : (change (w.state.lock .head)).holder = some task ↔ inner.locks .head)
    (hQueued : (change (w.state.lock .head)).waiters.count task = if inner.queues = some .head then 1 else 0) :
    Owes config op task inner (fun state => state.rehead change) start
      (w.act task (some .slotWanted) w.state.addWaiting) := by
  have hBooks := hStart.1.books
  have hOut : (Scope.base).Out := ⟨id, by simp [Scope.base]⟩
  exact owes_shift hStart h (fun name => by cases name <;> rfl) rfl hShifts (fun _ => trivial) (iff_of_false hRepair id)
    (by simp [Scope.base]) hInner hHolds hQueued ((leased_same rfl).trans (h.leases.trans hLeases.symm))
    (hBooks.arrive rfl rfl (h.out hOut hBooks) hQueue rfl rfl ⟨rfl, rfl⟩)

theorem owes_arrive_head (hStart : (ordering config).Act task start w) (h : Confined .base op task w)
    (hFree : (w.state.lock .head).holder = none) (hNobody : (w.state.lock .head).waiters = []) :
    Owes config op task (Scope.base.takes .head) (fun state => state.rehead (Lock.hold task)) start
      (w.act task (some .slotWanted) w.state.addWaiting) := by
  refine owes_arrive hStart h (by simp [Lock.hold, hFree, hNobody]) ⟨fun other hOther => ?_, fun _ _ => rfl⟩
    (by simp [Scope.takes, Scope.base]) (by simp [Scope.takes, Scope.base]) rfl
    (iff_of_true rfl (Or.inl rfl)) (h.waiters .head)
  rw [hFree]
  simpa [Lock.hold] using Ne.symm hOther

theorem owes_arrive_queue (hStart : (ordering config).Act task start w) (h : Confined .base op task w) :
    Owes config op task (Scope.base.queuing .head) (fun state => state.rehead (Lock.join task)) start
      (w.act task (some .slotWanted) w.state.addWaiting) := by
  have hNone : (w.state.lock .head).waiters.count task = 0 := (h.waiters .head).trans (if_neg (by simp [Scope.base]))
  refine owes_arrive hStart h (by simp [Lock.join]) ⟨fun _ _ => Iff.rfl, fun other hOther => count_append_other _ hOther⟩
    (by simp [Scope.queuing, Scope.base]) (by simp [Scope.queuing]) rfl (h.locks .head) ?_
  rw [Lock.join, List.count_append, hNone]
  simp [Scope.queuing]

/-- The first of those who wait becomes the head of the queue. -/
theorem owes_pass (hStart : (ordering config).Act task start w) (h : Confined (Scope.base.queuing .head) op task w)
    (hFree : (w.state.lock .head).holder = none) (hFirst : (w.state.lock .head).waiters.head? = some task) :
    Owes config op task (Scope.base.takes .head)
      (fun state => (state.rehead (Lock.leave task)).rehead (Lock.hold task)) start (w.act task none w.state) := by
  have hCount : (w.state.lock .head).waiters.count task = 1 := (h.waiters .head).trans (if_pos rfl)
  obtain ⟨rest, hRest⟩ : ∃ rest, (w.state.lock .head).waiters = task :: rest := by
    cases hWaiters : (w.state.lock .head).waiters with
    | nil => rw [hWaiters] at hFirst; cases hFirst
    | cons first rest =>
        rw [hWaiters] at hFirst
        cases hFirst
        exact ⟨rest, rfl⟩
  refine owes_shift hStart h (fun _ => rfl) rfl ⟨fun other hOther => ?_, fun other hOther => count_erase_other _ hOther⟩
    (fun _ => trivial) (by simp [Scope.takes, Scope.queuing]) (by simp [Scope.queuing])
    (by simp [Scope.takes, Scope.base]) (iff_of_true rfl (Or.inl rfl)) ?_ h.leases
    (hStart.1.books.pass rfl rfl ?_ rfl rfl ⟨rfl, rfl⟩)
  · rw [hFree]
    change some task = some other ↔ _
    simpa using Ne.symm hOther
  · change ((w.state.lock .head).waiters.erase task).count task = 0
    rw [List.count_erase_self]
    omega
  · change [task] ++ (w.state.lock .head).waiters.erase task = _
    rw [hRest, hFree, List.erase_cons_head]
    rfl

/-- The head of the queue takes a slot. -/
theorem owes_take {file : SlotFile} (hStart : (ordering config).Act task start w)
    (h : Confined (Scope.base.takes .head) op task w) (hKind : file.kind = .slot) :
    Owes config op task (Scope.base.leasing ⟨file, w.state.os.nextLease, false⟩)
      (fun state => (state.rehead Lock.vacate).dropWaiting.addActive) start
      (w.act task (some (.leaseTaken ⟨file, w.state.os.nextLease, false⟩)) { w.state with os := w.state.os.grant file }) := by
  have hHead : (w.state.lock .head).holder = some task := (h.locks .head).mpr (Or.inl rfl)
  have hLeases : leased task w.trace = [] := h.leases
  refine owes_shift hStart h (fun name => by cases name <;> rfl) rfl ⟨fun other hOther => ?_, fun _ _ => rfl⟩
    (fun _ => trivial) (by simp [Scope.leasing, Scope.takes]) (by simp [Scope.takes, Scope.base])
    (by simp [Scope.leasing, Scope.base]) (iff_of_false (by rintro hHolds; cases hHolds) id) (h.waiters .head) ?_
    (hStart.1.books.take rfl rfl h.born hKind rfl rfl hLeases hHead rfl rfl rfl rfl rfl)
  · rw [hHead]
    change none = some other ↔ _
    simpa using Ne.symm hOther
  · exact leased_taken.trans (congrArg _ hLeases)

end Queue

section Walk

variable {start : GatewayWorld}

/-- The task is the head of the queue. -/
def Heading (config : Config) (op : Op) (task : Nat) (start w : GatewayWorld) : Prop :=
  (ordering config).Act task start w ∧ Confined (Scope.base.takes .head) op task w

/-- The task has given up as the head, and only has to leave. -/
def Failing (config : Config) (op : Op) (task : Nat) (start w : GatewayWorld) : Prop :=
  Owes config op task .base (fun state => (state.rehead Lock.vacate).dropWaiting) start w

/-- The task has a slot, and only has to leave and to be counted. -/
def Taking (config : Config) (op : Op) (task : Nat) (lease : SessionLease) (start w : GatewayWorld) : Prop :=
  lease.file.kind = .slot ∧ Owes config op task (Scope.base.leasing lease)
    (fun state => (state.rehead Lock.vacate).dropWaiting.addActive) start w

theorem heading_permits {wait : Wait} (h : wait.isPoll = true) : (Scope.base.takes .head).Permits wait where
  head := fun _ => h
  slot := fun ⟨_, hLease, _⟩ => nomatch hLease
  repair := fun hRepair => hRepair.elim (fun hName => by cases hName) False.elim
  probe := fun ⟨_, hLease, _⟩ => nomatch hLease
  job := fun hNot => absurd trivial hNot
  queue := by cases wait <;> first | rfl | cases h

theorem queuing_permits (deadline : Option ℚ) : (Scope.base.queuing .head).Permits (.lock .head deadline) where
  head := False.elim
  slot := fun ⟨_, hLease, _⟩ => nomatch hLease
  repair := False.elim
  probe := fun ⟨_, hLease, _⟩ => nomatch hLease
  job := fun hNot => absurd trivial hNot
  queue := rfl

/-- An answer that leaves no mark. -/
theorem ordering_stay {state : State} (hOld : Grounded w) (h : Confined scope op task w)
    (hInv : Inv (w.act task none state)) (hState : Unbooked w.state state) :
    (ordering config).Act task w (w.act task none state) ∧ Confined scope op task (w.act task none state) := by
  refine ⟨ordering_act hOld h.born hInv (hOld.books.pass rfl rfl ?_ ?_ ?_ hState.table) (Does.same hState.locks),
    h.same (fun e he => by cases he) hState.locks⟩
  · rw [World.act_state, hState.locks]
  · rw [World.act_state, hState.slots]
  · rw [World.act_state, hState.slots]

/-- A round of the poll at the head of the queue. -/
theorem along_headWait {wait : Wait} (hPolls : wait.isPoll = true) (hHeading : Heading config op task start w) :
    (ordering config).along op task (Pazuzu.wait wait) (fun outcome s v => match outcome with
      | .ok _ => Heading config op task s v
      | .error _ => Failing config op task s v) start w := by
  have hFlight : ∀ id, wait = .probe id → ∃ epoch outcome, (core w.state).jobs[id]? = some (.probe epoch, outcome) := by
    rintro id rfl
    cases hPolls
  refine Extension.along_suspend hHeading.1 (hHeading.2.orderly (heading_permits hPolls) hFlight) ?_
  intro later reply state _ hOld hRely hAlone hDeliver hInv
  have hLater := hHeading.2.rely hRely hAlone
  have hState := unbooked_deliver hDeliver
  cases reply with
  | ok value => exact ordering_stay hOld hLater hInv hState
  | error error =>
      have hNote : Host.note op wait (.error error) = some (.interrupted op error) := by
        cases wait <;> first | rfl | cases hPolls
      change Failing config op task later (later.act task (Host.note op wait (.error error)) state)
      rw [hNote]
      exact owes_quit_head (Extension.Act.refl _ task hOld) hLater rfl hState

theorem along_headFile (operation : FileOp) (hHeading : Heading config op task start w) :
    (ordering config).along op task (fileOp operation) (fun outcome s v => match outcome with
      | .ok _ => Heading config op task s v
      | .error _ => Failing config op task s v) start w := by
  refine Extension.along_get_bind ?_
  split
  · exact hHeading
  · exact fun _ => owes_quit_head hHeading.1 hHeading.2 rfl (Unbooked.refl _)

variable {pool : SessionLeasePool}

theorem along_trySlot (hSlots : pool.kind = .slot) (hHeading : Heading config op task start w) :
    (ordering config).along op task pool.tryAcquire (fun outcome s v => match outcome with
      | .ok (some lease) => Taking config op task lease s v
      | .ok none => Heading config op task s v
      | .error _ => Failing config op task s v) start w := by
  refine Extension.along_bind (Extension.along_mono (along_headFile .openSlot hHeading) ?_)
  rintro (error | value) s v hV
  · exact hV
  · refine Extension.along_get_bind ?_
    split
    · exact hV
    · next file hFree =>
        have hKind : file.kind = .slot := (kind_of_free hFree).trans hSlots
        exact fun _ => ⟨hKind, owes_take hV.1 hV.2 hKind⟩

/-- The pool of slots has no deadline of its own, so only the scope's ends the poll. -/
theorem along_pollSlot (hSlots : pool.kind = .slot) (due : Option ℚ) (rounds : Nat)
    (hHeading : Heading config op task start w) :
    (ordering config).along op task (pool.poll none due rounds) (fun outcome s v => match outcome with
      | .ok lease => Taking config op task lease s v
      | .error _ => Failing config op task s v) start w := by
  induction rounds generalizing start w with
  | zero =>
      refine Extension.along_bind (Extension.along_mono (along_headWait rfl hHeading) ?_)
      rintro (error | impossible) s v hV
      · exact hV
      · exact nomatch impossible
  | succ rounds ih =>
      refine Extension.along_bind (Extension.along_mono (along_trySlot hSlots hHeading) ?_)
      rintro (error | found) s v hV
      · exact hV
      · cases found with
        | some lease => exact hV
        | none =>
            refine Extension.along_get_bind (Extension.along_bind (Extension.along_get_bind
              (Extension.along_mono (along_headWait rfl hV) ?_)))
            rintro (error | value) s' u hU
            · exact hU
            · exact ih hU

theorem along_acquireSlot (hSlots : pool.kind = .slot) (due : Option ℚ) (hHeading : Heading config op task start w) :
    (ordering config).along op task (pool.acquireAsync config none due) (fun outcome s v => match outcome with
      | .ok lease => Taking config op task lease s v
      | .error _ => Failing config op task s v) start w := by
  refine Extension.along_bind (Extension.along_mono (along_headFile .makeLeaseDirectory hHeading) ?_)
  rintro (error | value) s v hV
  · exact hV
  · exact Extension.along_get_bind (along_pollSlot hSlots due _ hV)

/-- The queue is joined and left at its head, or given up on the way. -/
theorem along_acquireHead (deadline : Option ℚ) (hStart : (ordering config).Act task start w)
    (h : Confined .base op task w) :
    (ordering config).along op task (acquire .head deadline) (fun outcome s v => match outcome with
      | .ok _ => Heading config op task s v
      | .error _ => Owes config op task .base State.dropWaiting s v) start
      (w.act task (some .slotWanted) w.state.addWaiting) := by
  refine Extension.along_current_bind (Extension.along_get_bind ?_)
  split
  · next hFree => exact along_pays (owes_arrive_head hStart h hFree.1 hFree.2) fun v hAct hV => ⟨hAct, hV⟩
  · refine Extension.along_bind (along_pays (owes_arrive_queue hStart h) fun v hAct hV => ?_)
    refine Extension.along_bind (Extension.along_tryFinally (Extension.along_suspend hAct
      (hV.orderly (queuing_permits deadline) fun _ hWait => by cases hWait) ?_))
    intro later reply state _ hOld hRely hAlone hDeliver hInv
    have hLater := hV.rely hRely hAlone
    have hRefl : (ordering config).Act task later later := Extension.Act.refl _ task hOld
    have hState := unbooked_deliver hDeliver
    cases reply with
    | error error => exact along_pays_part (owes_quit_queue hRefl hLater rfl hState) fun u hU => hU
    | ok value =>
        simp only [gateway, Host.deliver, Host.returns, Option.ite_none_right_eq_some, Option.some.injEq] at hDeliver
        obtain ⟨⟨hFree, hFirst⟩, rfl⟩ := hDeliver
        exact along_pays_part (owes_pass hRefl hLater hFree hFirst) fun u hU =>
          along_pays hU fun x hAct' hX => ⟨hAct', hX⟩

/-- The admission leads to a slot that is still to be counted, or has no effect. -/
theorem along_admission (timeout : ℚ) (hStart : (ordering config).Act task start w) (h : Confined .base op task w) :
    (ordering config).along op task (admission config timeout) (fun outcome s v => match outcome with
      | .ok lease => lease.file.kind = .slot ∧ Owes config op task (Scope.base.leasing lease) State.addActive s v
      | .error _ => (ordering config).Act task s v ∧ Confined .base op task v) start w := by
  refine fun _ => Extension.along_get_bind (Extension.along_tryFinally (Extension.along_tryCatch ?_))
  refine Extension.along_bind (Extension.along_mono (along_acquireHead _ hStart h) ?_)
  rintro (error | value) s v hV
  · have hPays : ∀ error : Error, (ordering config).along op task (Coro.update State.dropWaiting)
        (fun outcome s v => match outcome with
          | .ok _ => (ordering config).Act task s v ∧ Confined .base op task v
          | .error _ => (ordering config).Act task s v ∧ Confined .base op task v) s v := fun error =>
      along_pays hV fun u hAct hU => ⟨hAct, hU⟩
    cases error <;> exact hPays .timeoutError
  · refine Extension.along_tryFinally (Extension.along_mono (along_acquireSlot rfl _ hV) ?_)
    rintro (error | lease) s' u hU
    · refine along_pays_part hU fun x hX => ?_
      cases error <;> exact along_pays hX fun y hAct hY => ⟨hAct, hY⟩
    · obtain ⟨hKind, hOwes⟩ := hU
      exact along_pays_part hOwes fun x hX => along_pays_part hX fun y hY => ⟨hKind, hY⟩

/-- Code of an operation, with a slot in its scope. -/
def Operates (config : Config) {α : Type} (code : Py α) : Prop :=
  ∀ lease : SessionLease, lease.file.kind = .slot → Orders config (Scope.base.leasing lease) code

/-- An operation holds its slot from the admission to the end of its body. -/
theorem orders_hold (timeout : ℚ) {body : Py α} (h : Operates config body) :
    Orders config .base (hold config timeout body) := by
  intro op task w hW start hStart
  refine Extension.along_bind (Extension.along_mono (along_admission timeout hStart hW) ?_)
  rintro (error | lease) s v hV
  · exact hV
  · obtain ⟨hKind, hOwes⟩ := hV
    refine Extension.along_bind (along_pays hOwes fun u hAct hU => ?_)
    refine Extension.wp_tryFinally (Extension.wp_mono (h lease hKind op task u hU) fun outcome x _ hX => ?_) s hAct
    intro start' hStart' _ hInv
    have hLeases : leased task x.trace = [lease] := hX.leases
    have hBooks := hStart'.1.books
    have hDoes : Does task x (x.act task none x.state.dropActive) := Does.same fun name => by cases name <;> rfl
    refine ⟨hStart'.trans _ (ordering_act hStart'.1 hX.born hInv (hBooks.leave rfl rfl hX.born hKind hLeases rfl rfl rfl)
      (hDoes.trans (Does.same fun name => by cases name <;> rfl))), ?_⟩
    have hCounted : Confined (Scope.base.leasing lease) op task (x.act task none x.state.dropActive) :=
      hX.same (fun e he => by cases he) fun name => by cases name <;> rfl
    refine hCounted.exchange (fun name => by cases name <;> rfl) (leased_released.trans ?_)
    change (leased task x.trace).filter _ = []
    rw [hLeases]
    exact filter_ne_cons (List.not_mem_nil)

end Walk
end Supervision
end Pazuzu
