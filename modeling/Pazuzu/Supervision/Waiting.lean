import Mathlib.Logic.Relation
import Pazuzu.Asyncio.Extension
import Pazuzu.Supervision.Acting
import Pazuzu.Supervision.Arrivals
import Pazuzu.Supervision.Runs

/-! What the tasks of the gateway wait for and what they hold meanwhile: the
head of the queue, the slots, the repair lock, the shared probe and the slot
that is reserved for probes. -/
namespace Pazuzu

namespace Wait

/-- A round of a polling loop, the last one of this run included. -/
def isPoll : Wait → Bool
  | .sleep _ _ | .never => true
  | _ => false

/-- A wait for a process, which ends by itself. -/
def isRemote : Wait → Bool
  | .launch _ | .process _ _ _ _ => true
  | _ => false

def isLock : Wait → Bool
  | .lock _ _ => true
  | _ => false

/-- The lock that the wait is for. -/
def queues : Wait → Option LockName
  | .lock name _ => some name
  | _ => none

theorem queues_eq_none {wait : Wait} (h : wait.isLock = false) : wait.queues = none := by
  cases wait <;> first | rfl | cases h

def isProbe : Wait → Bool
  | .probe _ => true
  | _ => false

/-- How far a wait is from those that end by themselves. `heads` says whether
the task is the head of the queue. -/
def stage (heads : Bool) : Wait → Nat
  | .lock .head _ => 5
  | .lock .repair _ => 3
  | .probe _ => 2
  | .sleep _ _ | .never => if heads then 4 else 1
  | _ => 0

theorem stage_poll {wait : Wait} {heads : Bool} (h : wait.isPoll = true) :
    wait.stage heads = if heads then 4 else 1 := by
  cases wait <;> first | rfl | cases h

theorem stage_remote {wait : Wait} {heads : Bool} (h : wait.isRemote = true) : wait.stage heads = 0 := by
  cases wait <;> first | rfl | cases h

theorem stage_plain {wait : Wait} (hLock : wait.isLock = false) (hProbe : wait.isProbe = false) :
    wait.stage false ≤ 1 := by
  cases wait with
  | lock name deadline => cases hLock
  | probe id => cases hProbe
  | sleep | never => exact Nat.le_refl 1
  | _ => exact Nat.zero_le 1

theorem stage_slot {wait : Wait} (h : ∀ deadline, wait ≠ .lock .head deadline) : wait.stage false ≤ 3 := by
  cases wait with
  | lock name deadline =>
      cases name with
      | head => exact absurd rfl (h deadline)
      | repair => exact Nat.le_refl 3
  | probe id => exact Nat.le_succ 2
  | sleep | never => exact Nat.le_of_ble_eq_true rfl
  | _ => exact Nat.zero_le 3

end Wait

namespace Supervision

open Asyncio Supervisor

/-- The task holds a slot of this kind. -/
def HoldsSlot (kind : SlotKind) (task : Nat) (w : GatewayWorld) : Prop :=
  ∃ lease ∈ leased task w.trace, lease.file.kind = kind

/-- A task waits for another: for the holder of the lock in whose queue it is
and for those ahead of it there, for a holder of a slot that it polls, or for
the task it has joined. Only the head of the queue polls for operation slots; of
all others that poll it is assumed that they want the slot for probes. -/
inductive WaitsFor {config : Config} (loop : Loop (gateway config)) (task other : Nat) : Prop where
  | lock (op : Op) (name : LockName) (deadline : Option ℚ) (next : Except Error Unit → Py Value)
      (hTask : loop.tasks[task]? = some ⟨op, .await (Wait.lock name deadline) next⟩)
      (hHolds : (loop.world.state.lock name).holder = some other)
  | ahead (op : Op) (name : LockName) (deadline : Option ℚ) (next : Except Error Unit → Py Value)
      (hTask : loop.tasks[task]? = some ⟨op, .await (Wait.lock name deadline) next⟩)
      (hAhead : [other, task].Sublist (loop.world.state.lock name).waiters)
  | slot (op : Op) (wait : Wait) (next : Except Error wait.Reply → Py Value)
      (hTask : loop.tasks[task]? = some ⟨op, .await wait next⟩) (hPolls : wait.isPoll = true)
      (hHead : (loop.world.state.lock .head).holder = some task)
      (hHolds : HoldsSlot .slot other loop.world)
  | probe (op : Op) (id : Nat) (next : Except Error ProbeOutcome → Py Value) (code : Py Value)
      (hTask : loop.tasks[task]? = some ⟨op, .await (Wait.probe id) next⟩)
      (hRuns : loop.tasks[other]? = some ⟨.job id, code⟩)
  | probeSlot (op : Op) (wait : Wait) (next : Except Error wait.Reply → Py Value)
      (hTask : loop.tasks[task]? = some ⟨op, .await wait next⟩) (hPolls : wait.isPoll = true)
      (hHead : (loop.world.state.lock .head).holder ≠ some task)
      (hHolds : HoldsSlot .probe other loop.world)

/-- The task is at the queue for slots, behind its head or polling as its head. -/
inductive SeeksSlot {config : Config} (loop : Loop (gateway config)) (task : Nat) : Prop where
  | queue (op : Op) (deadline : Option ℚ) (next : Except Error Unit → Py Value)
      (hTask : loop.tasks[task]? = some ⟨op, .await (Wait.lock .head deadline) next⟩)
  | head (op : Op) (wait : Wait) (next : Except Error wait.Reply → Py Value)
      (hTask : loop.tasks[task]? = some ⟨op, .await wait next⟩) (hPolls : wait.isPoll = true)
      (hHead : (loop.world.state.lock .head).holder = some task)

/-- The task runs a probe that others can join. -/
def RunsProbe {config : Config} (loop : Loop (gateway config)) (task : Nat) : Prop :=
  ∃ id code epoch outcome, loop.tasks[task]? = some ⟨.job id, code⟩ ∧
    (core loop.world.state).jobs[id]? = some (.probe epoch, outcome)

/-- The created task is on record as that of maintenance. -/
def IsMaintenance (id : Nat) (history : History) : Prop :=
  ∃ entry ∈ history, ∃ outcome, (core entry.state).jobs[id]? = some (.maintain, outcome)

/-- What a task may hold at which of its waits. -/
structure Orderly (op : Op) (task : Nat) (wait : Wait) (w : GatewayWorld) : Prop where
  head : (w.state.lock .head).holder = some task → wait.isPoll = true
  slot : HoldsSlot .slot task w → (w.state.lock .head).holder ≠ some task ∧
    ∀ deadline, wait ≠ .lock .head deadline
  repair : (w.state.lock .repair).holder = some task → (w.state.lock .head).holder ≠ some task ∧
    wait.isLock = false ∧ wait.isProbe = false
  probe : HoldsSlot .probe task w → wait.isRemote = true
  job : ∀ id, op = .job id → IsMaintenance id w.trace ∨ ((w.state.lock .head).holder ≠ some task ∧
    wait.isLock = false ∧ wait.isProbe = false)
  flight : ∀ id, wait = .probe id → ∃ epoch outcome, (core w.state).jobs[id]? = some (.probe epoch, outcome)
  waiters : ∀ name, (w.state.lock name).waiters.count task = if wait.queues = some name then 1 else 0

/-- Nobody becomes or ceases to be a holder by what others do, nor joins or
leaves a queue. -/
structure LeftAlone (task : Nat) (before after : GatewayWorld) : Prop where
  locks : ∀ name, (after.state.lock name).holder = some task ↔ (before.state.lock name).holder = some task
  waiters : ∀ name, (after.state.lock name).waiters.count task = (before.state.lock name).waiters.count task
  leases : leased task after.trace = leased task before.trace

theorem IsMaintenance.mono {id : Nat} {old new : History} (h : IsMaintenance id old) (hSuffix : old <:+ new) :
    IsMaintenance id new := by
  obtain ⟨entry, hEntry, hJob⟩ := h
  exact ⟨entry, hSuffix.subset hEntry, hJob⟩

/-- It is no probe then. -/
theorem IsMaintenance.kind {id : Nat} {w : GatewayWorld} (h : IsMaintenance id w.trace) (hInv : Inv w)
    {kind : JobKind} {outcome} (hJob : (core w.state).jobs[id]? = some (kind, outcome)) : kind = .maintain := by
  obtain ⟨entry, hEntry, old, hOld⟩ := h
  obtain ⟨later, hLater, -⟩ := (hInv.past entry hEntry).jobs id _ _ hOld
  rw [hJob] at hLater
  cases hLater
  rfl

theorem LeftAlone.slot {kind : SlotKind} {task : Nat} {before after : GatewayWorld}
    (h : LeftAlone task before after) (hSlot : HoldsSlot kind task after) : HoldsSlot kind task before := by
  obtain ⟨lease, hLease, hKind⟩ := hSlot
  exact ⟨lease, h.leases ▸ hLease, hKind⟩

theorem Orderly.stable {op : Op} {task : Nat} {wait : Wait} {before after : GatewayWorld}
    (h : Orderly op task wait before) (hRely : Rely task before after) (hKept : LeftAlone task before after) :
    Orderly op task wait after where
  head := fun hHead => h.head ((hKept.locks .head).mp hHead)
  slot := fun hSlot => ⟨fun hHead => (h.slot (hKept.slot hSlot)).1 ((hKept.locks .head).mp hHead),
    (h.slot (hKept.slot hSlot)).2⟩
  repair := fun hRepair => ⟨fun hHead => (h.repair ((hKept.locks .repair).mp hRepair)).1 ((hKept.locks .head).mp hHead),
    (h.repair ((hKept.locks .repair).mp hRepair)).2⟩
  probe := fun hProbe => h.probe (hKept.slot hProbe)
  job := fun id hOp => (h.job id hOp).imp (fun hMaintains => hMaintains.mono hRely.grows.history)
    fun hPlain => ⟨fun hHead => hPlain.1 ((hKept.locks .head).mp hHead), hPlain.2⟩
  flight := by
    intro id hWait
    obtain ⟨epoch, outcome, hJob⟩ := h.flight id hWait
    obtain ⟨outcome', hLater, -⟩ := hRely.grows.progress.jobs id _ _ hJob
    exact ⟨epoch, outcome', hLater⟩
  waiters := fun name => (hKept.waiters name).trans (h.waiters name)

/-- Only tasks that have been started hold locks, wait for them or leave entries. -/
structure Grounded (w : GatewayWorld) : Prop where
  inv : Inv w
  holders : ∀ name task, (w.state.lock name).holder = some task → task < w.started
  waiters : ∀ name, ∀ task ∈ (w.state.lock name).waiters, task < w.started
  entries : ∀ entry ∈ w.trace, entry.task < w.started
  books : Books w

theorem LeftAlone.refl (task : Nat) (w : GatewayWorld) : LeftAlone task w w :=
  ⟨fun _ => Iff.rfl, fun _ => rfl, rfl⟩

theorem LeftAlone.trans {task : Nat} {first second third : GatewayWorld} (h : LeftAlone task first second)
    (h' : LeftAlone task second third) : LeftAlone task first third :=
  ⟨fun name => (h'.locks name).trans (h.locks name), fun name => (h'.waiters name).trans (h.waiters name),
    h'.leases.trans h.leases⟩

/-- Every task is orderly at its waits. -/
def ordering (config : Config) : Extension (discipline config) where
  inv := Grounded
  rely := LeftAlone
  waits := Orderly
  refl := LeftAlone.refl
  trans := fun _ _ _ _ => LeftAlone.trans
  stable := fun _ _ _ _ _ h hRely hKept => h.stable hRely hKept

section Relation

variable {config : Config} {loop : Loop (gateway config)}

def stage (loop : Loop (gateway config)) (task : Nat) : Nat :=
  match loop.tasks[task]? with
  | some ⟨_, .await wait _⟩ => wait.stage (decide ((loop.world.state.lock .head).holder = some task))
  | _ => 0

theorem stage_await {task : Nat} {op : Op} {wait : Wait} {next : Except Error wait.Reply → Py Value}
    (hTask : loop.tasks[task]? = some ⟨op, .await wait next⟩) :
    stage loop task = wait.stage (decide ((loop.world.state.lock .head).holder = some task)) := by
  unfold stage
  rw [hTask]

/-- Every task that waits is orderly. -/
def InOrder (loop : Loop (gateway config)) : Prop :=
  ∀ task op wait (next : Except Error (Wait.Reply wait) → Py Value),
    loop.tasks[task]? = some ⟨op, .await wait next⟩ → Orderly op task wait loop.world

theorem stage_le {task bound : Nat} (h : ∀ op wait (next : Except Error (Wait.Reply wait) → Py Value),
    loop.tasks[task]? = some ⟨op, .await wait next⟩ →
      wait.stage (decide ((loop.world.state.lock .head).holder = some task)) ≤ bound) :
    stage loop task ≤ bound := by
  unfold stage
  split
  · next op wait next hTask => exact h op wait next hTask
  · exact Nat.zero_le _

/-- Whoever joins nobody and seeks neither a slot nor a lock. -/
theorem stage_low {task : Nat} {wait : Wait} (h : (loop.world.state.lock .head).holder ≠ some task ∧
    wait.isLock = false ∧ wait.isProbe = false) :
    wait.stage (decide ((loop.world.state.lock .head).holder = some task)) ≤ 1 := by
  rw [decide_eq_false h.1]
  exact Wait.stage_plain h.2.1 h.2.2

variable {task other : Nat}

theorem stage_of_repair (hOrder : InOrder loop) (h : (loop.world.state.lock .repair).holder = some task) :
    stage loop task ≤ 1 :=
  stage_le fun op wait next hTask => stage_low ((hOrder task op wait next hTask).repair h)

theorem stage_of_job (hInv : Inv loop.world) (hOrder : InOrder loop) {id epoch : Nat} {code : Py Value} {outcome}
    (hTask : loop.tasks[task]? = some ⟨.job id, code⟩)
    (hJob : (core loop.world.state).jobs[id]? = some (.probe epoch, outcome)) : stage loop task ≤ 1 := by
  refine stage_le fun op wait next hAwait => stage_low ?_
  obtain ⟨rfl, -⟩ := Task.mk.inj (Option.some.inj (hTask.symm.trans hAwait))
  refine ((hOrder task _ wait next hAwait).job id rfl).resolve_left fun hMaintains => ?_
  cases hMaintains.kind hInv hJob

theorem stage_of_head (hOrder : InOrder loop) (h : (loop.world.state.lock .head).holder = some task) :
    stage loop task ≤ 4 := by
  refine stage_le fun op wait next hTask => ?_
  rw [Wait.stage_poll ((hOrder task op wait next hTask).head h)]
  split <;> omega

theorem stage_of_slot (hOrder : InOrder loop) (h : HoldsSlot .slot task loop.world) : stage loop task ≤ 3 := by
  refine stage_le fun op wait next hTask => ?_
  obtain ⟨hHead, hQueue⟩ := (hOrder task op wait next hTask).slot h
  rw [decide_eq_false hHead]
  exact Wait.stage_slot hQueue

theorem stage_of_probe (hOrder : InOrder loop) (h : HoldsSlot .probe task loop.world) : stage loop task ≤ 0 :=
  stage_le fun op wait next hTask => (Wait.stage_remote ((hOrder task op wait next hTask).probe h)).le

/-- The places of a task in the queues of the locks. -/
def place (loop : Loop (gateway config)) (task : Nat) : Nat :=
  (loop.world.state.lock .head).waiters.idxOf task + (loop.world.state.lock .repair).waiters.idxOf task

theorem idxOf_lt_of_sublist {waiters : List Nat} {first second : Nat} (h : [first, second].Sublist waiters)
    (hFirst : waiters.count first ≤ 1) (hSecond : waiters.count second ≤ 1) :
    waiters.idxOf first < waiters.idxOf second := by
  induction waiters with
  | nil => cases h
  | cons head rest ih =>
      cases h with
      | cons _ hRest =>
          have hIn : first ∈ rest ∧ second ∈ rest := ⟨hRest.subset (by simp), hRest.subset (by simp)⟩
          have hNot : ∀ task, task ∈ rest → (head :: rest).count task ≤ 1 → head ≠ task := by
            rintro task hMem hCount rfl
            rw [List.count_cons_self] at hCount
            have hSome := List.count_pos_iff.mpr hMem
            omega
          rw [List.idxOf_cons_ne _ (hNot first hIn.1 hFirst), List.idxOf_cons_ne _ (hNot second hIn.2 hSecond)]
          refine Nat.succ_lt_succ (ih hRest ?_ ?_)
          · exact (List.count_le_count_cons).trans hFirst
          · exact (List.count_le_count_cons).trans hSecond
      | cons_cons _ hRest =>
          have hIn : second ∈ rest := hRest.subset (by simp)
          have hNe : first ≠ second := by
            rintro rfl
            rw [List.count_cons_self] at hFirst
            have hSome := List.count_pos_iff.mpr hIn
            omega
          rw [List.idxOf_cons_self, List.idxOf_cons_ne _ hNe]
          exact Nat.succ_pos _

theorem count_of_order (hOrder : InOrder loop) {op : Op} {wait : Wait} {next : Except Error wait.Reply → Py Value}
    (hTask : loop.tasks[task]? = some ⟨op, .await wait next⟩) (name : LockName) :
    (loop.world.state.lock name).waiters.count task = if wait.queues = some name then 1 else 0 :=
  (hOrder task op wait next hTask).waiters name

/-- Whoever is ahead in a queue waits there as well, nearer to its head. -/
theorem ahead_lt (hOrder : InOrder loop) {op : Op} {name : LockName} {deadline : Option ℚ}
    {next : Except Error Unit → Py Value}
    (hTask : loop.tasks[task]? = some ⟨op, .await (Wait.lock name deadline) next⟩)
    (hAhead : [other, task].Sublist (loop.world.state.lock name).waiters) :
    stage loop other < stage loop task ∨
      stage loop other = stage loop task ∧ place loop other < place loop task := by
  have hMember : other ∈ (loop.world.state.lock name).waiters := hAhead.subset (by simp)
  by_cases hWaits : ∃ op' wait, ∃ next' : Except Error (Wait.Reply wait) → Py Value,
      loop.tasks[other]? = some ⟨op', .await wait next'⟩
  · obtain ⟨op', wait, next', hOther⟩ := hWaits
    right
    have hCount := count_of_order hOrder hOther name
    have hQueues : wait.queues = some name := by
      by_contra hNot
      rw [if_neg hNot] at hCount
      exact absurd (List.count_pos_iff.mpr hMember) (by omega)
    have hLock : ∃ deadline', wait = .lock name deadline' := by
      cases wait <;> cases hQueues
      exact ⟨_, rfl⟩
    obtain ⟨deadline', rfl⟩ := hLock
    refine ⟨by rw [stage_await hOther, stage_await hTask]; cases name <;> rfl, ?_⟩
    have hHere : (loop.world.state.lock name).waiters.idxOf other < (loop.world.state.lock name).waiters.idxOf task :=
      idxOf_lt_of_sublist hAhead (by rw [hCount]; split <;> omega)
        (by rw [count_of_order hOrder hTask name]; split <;> omega)
    have hElsewhere : ∀ another, another ≠ name →
        (loop.world.state.lock another).waiters.idxOf other = (loop.world.state.lock another).waiters.idxOf task := by
      intro another hNe
      have hNone : ∀ {id : Nat} {op'' : Op} {due : Option ℚ} {next'' : Except Error Unit → Py Value},
          loop.tasks[id]? = some ⟨op'', .await (Wait.lock name due) next''⟩ →
          (loop.world.state.lock another).waiters.idxOf id = (loop.world.state.lock another).waiters.length := by
        intro id op'' due next'' hId
        have hZero := count_of_order hOrder hId another
        have hNot : ¬(Wait.lock name due).queues = some another := fun hSame => hNe (Option.some.inj hSame).symm
        rw [if_neg hNot] at hZero
        exact List.idxOf_eq_length (List.count_eq_zero.mp hZero)
      rw [hNone hOther, hNone hTask]
    unfold place
    cases name with
    | head => rw [hElsewhere .repair (by decide)]; omega
    | repair => rw [hElsewhere .head (by decide)]; omega
  · left
    have hZero : stage loop other = 0 := by
      unfold stage
      split
      · next op' wait next' hOther => exact absurd ⟨op', wait, next', hOther⟩ hWaits
      · rfl
    rw [hZero, stage_await hTask]
    cases name <;> exact Nat.succ_pos _

/-- Whoever is waited for is closer to the waits that end by themselves. -/
theorem WaitsFor.closer (hInv : Inv loop.world) (hOrder : InOrder loop) (h : WaitsFor loop task other) :
    stage loop other < stage loop task ∨
      stage loop other = stage loop task ∧ place loop other < place loop task := by
  cases h with
  | lock op name deadline next hTask hHolds =>
      left
      rw [stage_await hTask]
      cases name with
      | head => exact Nat.lt_succ_of_le (stage_of_head hOrder hHolds)
      | repair => exact (stage_of_repair hOrder hHolds).trans_lt (Nat.le_succ 2)
  | ahead op name deadline next hTask hAhead => exact ahead_lt hOrder hTask hAhead
  | slot op wait next hTask hPolls hHead hHolds =>
      left
      rw [stage_await hTask, Wait.stage_poll hPolls, if_pos (decide_eq_true hHead)]
      exact Nat.lt_succ_of_le (stage_of_slot hOrder hHolds)
  | probe op id next code hTask hRuns =>
      left
      obtain ⟨epoch, outcome, hJob⟩ := (hOrder task op (.probe id) next hTask).flight id rfl
      rw [stage_await hTask]
      exact Nat.lt_succ_of_le (stage_of_job hInv hOrder hRuns hJob)
  | probeSlot op wait next hTask hPolls hHead hHolds =>
      left
      rw [stage_await hTask, Wait.stage_poll hPolls, decide_eq_false hHead]
      exact Nat.lt_succ_of_le (stage_of_probe hOrder hHolds)

theorem closer_of_transGen (hInv : Inv loop.world) (hOrder : InOrder loop)
    (h : Relation.TransGen (WaitsFor loop) task other) : stage loop other < stage loop task ∨
      stage loop other = stage loop task ∧ place loop other < place loop task := by
  induction h with
  | single hStep => exact hStep.closer hInv hOrder
  | tail _ hStep ih =>
      have hLast := hStep.closer hInv hOrder
      omega

theorem SeeksSlot.stage_ge (h : SeeksSlot loop task) : 4 ≤ stage loop task := by
  cases h with
  | queue op deadline next hTask =>
      rw [stage_await hTask]
      exact Nat.le_succ 4
  | head op wait next hTask hPolls hHead =>
      rw [stage_await hTask, Wait.stage_poll hPolls, if_pos (decide_eq_true hHead)]

/-- There is no circle, and whoever holds the repair lock or runs a probe is not
kept waiting by the queue. -/
structure Acyclic (loop : Loop (gateway config)) : Prop where
  irreflexive : ∀ task, ¬Relation.TransGen (WaitsFor loop) task task
  unqueued : ∀ task other, (loop.world.state.lock .repair).holder = some task ∨ RunsProbe loop task →
    Relation.ReflTransGen (WaitsFor loop) task other → ¬SeeksSlot loop other

theorem acyclic_of_order (hInv : Inv loop.world) (hOrder : InOrder loop) : Acyclic loop where
  irreflexive := by
    intro task hCircle
    have hCloser := closer_of_transGen hInv hOrder hCircle
    omega
  unqueued := by
    intro task other hBusy hWaits hSeeks
    have hLow : stage loop task ≤ 1 := by
      rcases hBusy with hRepair | ⟨id, code, epoch, outcome, hTask, hJob⟩
      · exact stage_of_repair hOrder hRepair
      · exact stage_of_job hInv hOrder hTask hJob
    have hOther : stage loop other ≤ stage loop task := by
      rcases Relation.reflTransGen_iff_eq_or_transGen.mp hWaits with rfl | hMore
      · exact le_rfl
      · have hCloser := closer_of_transGen hInv hOrder hMore
        omega
    have hHigh := hSeeks.stage_ge
    omega

end Relation
end Supervision
end Pazuzu
