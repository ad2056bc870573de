import Mathlib.Data.List.Basic
import Pazuzu.Supervision.History

/-! The queue for operation slots and the leases, as the entries of a history
tell of them: who has come for a slot and in which order, who holds which
leases, and what the counters of the slots must say. -/
namespace Pazuzu

namespace Event

/-- A call of the task fails here, or its wait is given up. -/
def quits : Event → Bool
  | .interrupted _ _ | .fault _ => true
  | _ => false

/-- A lease is taken or given back here. -/
def isLease : Event → Bool
  | .leaseTaken _ | .leaseReleased _ => true
  | _ => false

/-- The events that neither the queue nor the leases are about. -/
def isAway : Event → Bool
  | .slotWanted | .leaseTaken _ | .leaseReleased _ | .returned _ | .raised _ => false
  | _ => true

end Event

namespace Supervision

open Asyncio

/-- Those who have come for an operation slot, in the order of their arrival,
and have neither obtained it nor left. -/
def pending : History → List Nat
  | [] => []
  | entry :: rest =>
      match entry.event with
      | .slotWanted => pending rest ++ [entry.task]
      | .leaseTaken lease => if lease.file.kind = .slot then (pending rest).erase entry.task else pending rest
      | event => if event.quits then (pending rest).erase entry.task else pending rest

/-- The leases that a task has taken and not given back. -/
def leased (task : Nat) : History → List SessionLease
  | [] => []
  | entry :: rest =>
      if entry.task = task then
        match entry.event with
        | .leaseTaken lease => lease :: leased task rest
        | .leaseReleased lease => (leased task rest).filter fun other => other ≠ lease
        | _ => leased task rest
      else leased task rest

/-- The leases that have been taken and not given back. -/
def kept : History → List SessionLease
  | [] => []
  | entry :: rest =>
      match entry.event with
      | .leaseTaken lease => lease :: kept rest
      | .leaseReleased lease => (kept rest).filter fun other => other ≠ lease
      | _ => kept rest

/-- Whether the task holds a slot of this kind. -/
def holdsSlot (kind : SlotKind) (task : Nat) (history : History) : Bool :=
  (leased task history).any fun lease => lease.file.kind = kind

/-- How many of the first tasks hold an operation slot. -/
def operating (count : Nat) (history : History) : Nat :=
  (List.range count).countP fun task => holdsSlot .slot task history

/-- A slot goes to whoever came first, a lease is new when it is taken and held
when it is released, and whoever ends holds none. -/
def Orderliness (entry : Record) (rest : History) : Prop :=
  match entry.event with
  | .slotWanted => entry.task ∉ pending rest
  | .leaseTaken lease => (∀ other ∈ rest, other.event ≠ .leaseTaken lease) ∧
      (lease.file.kind = .slot → (pending rest).head? = some entry.task)
  | .leaseReleased lease => lease ∈ leased entry.task rest
  | .returned _ | .raised _ => leased entry.task rest = []
  | _ => True

/-- Leases are numbered as they are taken, and the process has the locks of those
that have been taken and not given back. -/
structure Tabled (os : Os) (history : History) : Prop where
  fresh : ∀ entry ∈ history, ∀ lease, entry.event = .leaseTaken lease → lease.id < os.nextLease
  locked : (os.leases.filter fun lease => !lease.foreign) = kept history

/-- The locks and the numbering of leases are the same. -/
structure SameTable (before after : Os) : Prop where
  leases : after.leases = before.leases
  nextLease : after.nextLease = before.nextLease

/-- The counters of the slots, the lock at the head of their queue and the
leases. -/
structure Books (w : GatewayWorld) : Prop where
  queue : pending w.trace = (w.state.lock .head).holder.toList ++ (w.state.lock .head).waiters
  waiting : w.state.slots.waiting = (pending w.trace).length
  active : w.state.slots.active = operating w.started w.trace
  table : Tabled w.state.os w.trace
  orderly : Always Orderliness w.trace

/-- Neither a lock nor a counter nor a lease is touched. -/
structure Unbooked (before after : State) : Prop where
  lock : after.sup.repairLock = before.sup.repairLock
  slots : after.slots = before.slots
  table : SameTable before.os after.os

theorem Unbooked.refl (state : State) : Unbooked state state := ⟨rfl, rfl, rfl, rfl⟩

theorem Unbooked.locks {before after : State} (h : Unbooked before after) (name : LockName) :
    after.lock name = before.lock name := by
  cases name with
  | repair => exact h.lock
  | head => exact congrArg SessionSlots.head h.slots

variable {task : Nat} {entry : Record} {history : History}

section Leases

theorem leased_other (h : entry.task ≠ task) : leased task (entry :: history) = leased task history := by
  rw [leased, if_neg h]

theorem leased_same (h : entry.event.isLease = false) : leased task (entry :: history) = leased task history := by
  obtain ⟨owner, event, state⟩ := entry
  rw [leased]
  split
  · cases event <;> first | rfl | cases h
  · rfl

theorem Event.lease_of_away {event : Event} (h : event.isAway = true) : event.isLease = false := by
  cases event <;> first | rfl | cases h

theorem leased_taken {lease : SessionLease} {state : State} :
    leased task (⟨task, .leaseTaken lease, state⟩ :: history) = lease :: leased task history := by
  rw [leased, if_pos rfl]

theorem leased_released {lease : SessionLease} {state : State} :
    leased task (⟨task, .leaseReleased lease, state⟩ :: history) =
      (leased task history).filter fun other => other ≠ lease := by
  rw [leased, if_pos rfl]

theorem pending_away (h : entry.event.isAway = true) (hOut : entry.task ∉ pending history) :
    pending (entry :: history) = pending history := by
  obtain ⟨owner, event, state⟩ := entry
  have hErase : (pending history).erase owner = pending history := List.erase_of_not_mem hOut
  cases event <;> first | rfl | exact hErase | cases h

theorem pending_quits (h : entry.event.quits = true) :
    pending (entry :: history) = (pending history).erase entry.task := by
  obtain ⟨owner, event, state⟩ := entry
  cases event <;> first | rfl | cases h

theorem kept_same (h : entry.event.isLease = false) : kept (entry :: history) = kept history := by
  obtain ⟨owner, event, state⟩ := entry
  cases event <;> first | rfl | cases h

variable {os os' : Os} {lease : SessionLease} {state : State}

theorem Tabled.same (h : Tabled os history) (hSame : SameTable os os') : Tabled os' history where
  fresh := fun entry hEntry lease hTaken => (h.fresh entry hEntry lease hTaken).trans_eq hSame.nextLease.symm
  locked := by rw [hSame.leases, h.locked]

theorem Tabled.cons (h : Tabled os history) (hEvent : entry.event.isLease = false) :
    Tabled os (entry :: history) where
  fresh := by
    intro other hOther lease hTaken
    rcases List.mem_cons.mp hOther with rfl | hOld
    · rw [hTaken] at hEvent
      cases hEvent
    · exact h.fresh other hOld lease hTaken
  locked := h.locked.trans (kept_same hEvent).symm

theorem Tabled.taken (h : Tabled os history) (hLease : lease.id = os.nextLease) (hOwn : lease.foreign = false)
    (hLeases : os'.leases = lease :: os.leases) (hNext : os'.nextLease = os.nextLease + 1) :
    Tabled os' (⟨task, .leaseTaken lease, state⟩ :: history) where
  fresh := by
    intro entry hEntry other hTaken
    rw [hNext]
    rcases List.mem_cons.mp hEntry with rfl | hOld
    · obtain rfl := Event.leaseTaken.inj hTaken
      omega
    · exact Nat.lt_succ_of_lt (h.fresh entry hOld other hTaken)
  locked := by
    rw [hLeases, List.filter_cons_of_pos (by rw [hOwn]; rfl), h.locked]
    rfl

theorem Tabled.released (h : Tabled os history)
    (hLeases : os'.leases = os.leases.filter fun other => other ≠ lease) (hNext : os'.nextLease = os.nextLease) :
    Tabled os' (⟨task, .leaseReleased lease, state⟩ :: history) where
  fresh := by
    intro entry hEntry other hTaken
    rw [hNext]
    rcases List.mem_cons.mp hEntry with rfl | hOld
    · cases hTaken
    · exact h.fresh entry hOld other hTaken
  locked := by
    rw [hLeases, List.filter_comm, h.locked]
    rfl

theorem operating_congr {count : Nat} {old new : History}
    (h : ∀ task, holdsSlot .slot task new = holdsSlot .slot task old) : operating count new = operating count old := by
  unfold operating
  simp only [h]

/-- One more holds a slot, and nobody else has changed. -/
theorem operating_succ {count : Nat} {old new : History} (hTask : task < count)
    (hOld : holdsSlot .slot task old = false) (hNew : holdsSlot .slot task new = true)
    (h : ∀ other, other ≠ task → holdsSlot .slot other new = holdsSlot .slot other old) :
    operating count new = operating count old + 1 := by
  have hBelow : ∀ bound, operating bound new = operating bound old + if task < bound then 1 else 0 := by
    intro bound
    induction bound with
    | zero => rfl
    | succ bound ih =>
        unfold operating at ih ⊢
        rw [List.range_succ, List.countP_append, List.countP_append, ih, List.countP_singleton, List.countP_singleton]
        by_cases hHere : bound = task
        · subst hHere
          simp [hOld, hNew]
        · rw [h bound hHere]
          by_cases hLess : task < bound
          · rw [if_pos hLess, if_pos (Nat.lt_succ_of_lt hLess)]
            omega
          · have hNext : ¬task < bound + 1 := by omega
            rw [if_neg hLess, if_neg hNext, Nat.add_zero, Nat.add_zero]
  rw [hBelow count, if_pos hTask]

end Leases

section Books

variable {w : GatewayWorld} {event : Option Event} {state : State}

/-- What is away from the queue and the leases leaves the books as they are. -/
theorem Books.away (h : Books w) (hOut : task ∉ pending w.trace) (hEvent : ∀ e ∈ event, e.isAway = true)
    (hState : Unbooked w.state state) : Books (w.act task event state) := by
  cases event with
  | none =>
      refine ⟨?_, ?_, ?_, ?_, h.orderly⟩
      · rw [World.act_state, hState.locks]
        exact h.queue
      · rw [World.act_state, hState.slots]
        exact h.waiting
      · rw [World.act_state, hState.slots]
        exact h.active
      · exact h.table.same hState.table
  | some e =>
      have hAway := hEvent e rfl
      have hPending : pending (w.act task (some e) state).trace = pending w.trace :=
        pending_away hAway hOut
      refine ⟨?_, ?_, ?_, ?_, ?_, h.orderly⟩
      · rw [hPending, World.act_state, hState.locks, h.queue]
      · rw [hPending, World.act_state, hState.slots, h.waiting]
      · rw [World.act_state, World.act_started, hState.slots, h.active]
        exact (operating_congr fun other => by unfold holdsSlot; rw [World.act_some_trace, leased_same (Event.lease_of_away hAway)]).symm
      · exact (h.table.same hState.table).cons (Event.lease_of_away hAway)
      · cases e <;> trivial

variable {w' : GatewayWorld} {s : State} {e : Event}

/-- Somebody comes for a slot, and goes to the end of the queue or to its head. -/
theorem Books.arrive (h : Books w) (hTrace : w'.trace = ⟨task, .slotWanted, s⟩ :: w.trace)
    (hStarted : w'.started = w.started) (hOut : task ∉ pending w.trace)
    (hQueue : (w'.state.lock .head).holder.toList ++ (w'.state.lock .head).waiters =
      (w.state.lock .head).holder.toList ++ (w.state.lock .head).waiters ++ [task])
    (hWaiting : w'.state.slots.waiting = w.state.slots.waiting + 1)
    (hActive : w'.state.slots.active = w.state.slots.active)
    (hTable : SameTable w.state.os w'.state.os) : Books w' where
  queue := by
    rw [hTrace, hQueue, ← h.queue]
    rfl
  waiting := by
    rw [hTrace, hWaiting, h.waiting]
    simp [pending]
  active := by
    rw [hTrace, hStarted, hActive, h.active]
    exact (operating_congr fun other => by unfold holdsSlot; rw [leased_same rfl]).symm
  table := by
    rw [hTrace]
    exact (h.table.same hTable).cons rfl
  orderly := by
    rw [hTrace]
    exact ⟨hOut, h.orderly⟩

/-- The lock at the head changes hands within the queue. -/
theorem Books.pass (h : Books w) (hTrace : w'.trace = w.trace) (hStarted : w'.started = w.started)
    (hQueue : (w'.state.lock .head).holder.toList ++ (w'.state.lock .head).waiters =
      (w.state.lock .head).holder.toList ++ (w.state.lock .head).waiters)
    (hWaiting : w'.state.slots.waiting = w.state.slots.waiting)
    (hActive : w'.state.slots.active = w.state.slots.active)
    (hTable : SameTable w.state.os w'.state.os) : Books w' where
  queue := by rw [hTrace, hQueue, h.queue]
  waiting := by rw [hTrace, hWaiting, h.waiting]
  active := by rw [hTrace, hStarted, hActive, h.active]
  table := by
    rw [hTrace]
    exact h.table.same hTable
  orderly := by
    rw [hTrace]
    exact h.orderly

/-- Somebody leaves the queue without a slot. -/
theorem Books.quit (h : Books w) (hTrace : w'.trace = ⟨task, e, s⟩ :: w.trace) (hStarted : w'.started = w.started)
    (hQuits : e.quits = true) (hIn : task ∈ pending w.trace)
    (hQueue : (w'.state.lock .head).holder.toList ++ (w'.state.lock .head).waiters =
      ((w.state.lock .head).holder.toList ++ (w.state.lock .head).waiters).erase task)
    (hWaiting : w'.state.slots.waiting = w.state.slots.waiting - 1)
    (hActive : w'.state.slots.active = w.state.slots.active)
    (hTable : SameTable w.state.os w'.state.os) : Books w' := by
  have hAway : e.isAway = true := by cases e <;> first | rfl | cases hQuits
  have hPending : pending w'.trace = (pending w.trace).erase task := by
    rw [hTrace]
    exact pending_quits hQuits
  refine ⟨?_, ?_, ?_, ?_, ?_⟩
  · rw [hPending, hQueue, h.queue]
  · rw [hPending, hWaiting, h.waiting, List.length_erase_of_mem hIn]
  · rw [hTrace, hStarted, hActive, h.active]
    exact (operating_congr fun other => by unfold holdsSlot; rw [leased_same (Event.lease_of_away hAway)]).symm
  · rw [hTrace]
    exact (h.table.same hTable).cons (Event.lease_of_away hAway)
  · rw [hTrace]
    refine ⟨?_, h.orderly⟩
    cases e <;> trivial

theorem fresh_taken (h : Books w) {lease : SessionLease} (hLease : lease.id = w.state.os.nextLease) :
    ∀ other ∈ w.trace, other.event ≠ .leaseTaken lease := by
  intro other hOther hTaken
  have hLess := h.table.fresh other hOther lease hTaken
  omega

/-- The head of the queue takes a slot and leaves the queue. -/
theorem Books.take (h : Books w) {lease : SessionLease} (hTrace : w'.trace = ⟨task, .leaseTaken lease, s⟩ :: w.trace)
    (hStarted : w'.started = w.started) (hBorn : task < w.started) (hKind : lease.file.kind = .slot)
    (hLease : lease.id = w.state.os.nextLease) (hOwn : lease.foreign = false) (hNone : leased task w.trace = [])
    (hHead : (w.state.lock .head).holder = some task)
    (hQueue : (w'.state.lock .head).holder.toList ++ (w'.state.lock .head).waiters = (w.state.lock .head).waiters)
    (hWaiting : w'.state.slots.waiting = w.state.slots.waiting - 1)
    (hActive : w'.state.slots.active = w.state.slots.active + 1)
    (hLeases : w'.state.os.leases = lease :: w.state.os.leases)
    (hNext : w'.state.os.nextLease = w.state.os.nextLease + 1) : Books w' := by
  have hFirst : pending w.trace = task :: (w.state.lock .head).waiters := by
    rw [h.queue, hHead]
    rfl
  have hPending : pending w'.trace = (w.state.lock .head).waiters := by
    rw [hTrace]
    simp only [pending, hKind, if_true]
    rw [hFirst, List.erase_cons_head]
  refine ⟨?_, ?_, ?_, ?_, ?_⟩
  · rw [hPending, hQueue]
  · rw [hPending, hWaiting, h.waiting, hFirst, List.length_cons, Nat.add_sub_cancel]
  · rw [hTrace, hStarted, hActive, h.active]
    refine (operating_succ hBorn ?_ ?_ fun other hOther => ?_).symm
    · rw [holdsSlot, hNone]
      rfl
    · rw [holdsSlot, leased_taken, List.any_cons, hKind]
      rfl
    · rw [holdsSlot, leased_other (Ne.symm hOther)]
      rfl
  · rw [hTrace]
    exact h.table.taken hLease hOwn hLeases hNext
  · rw [hTrace]
    exact ⟨⟨fresh_taken h hLease, fun _ => by rw [hFirst]; rfl⟩, h.orderly⟩

/-- An operation gives its slot back. -/
theorem Books.leave (h : Books w) {lease : SessionLease} (hTrace : w'.trace = ⟨task, .leaseReleased lease, s⟩ :: w.trace)
    (hStarted : w'.started = w.started) (hBorn : task < w.started) (hKind : lease.file.kind = .slot)
    (hHeld : leased task w.trace = [lease])
    (hSlots : w'.state.slots = { w.state.slots with active := w.state.slots.active - 1 })
    (hLeases : w'.state.os.leases = w.state.os.leases.filter fun other => other ≠ lease)
    (hNext : w'.state.os.nextLease = w.state.os.nextLease) : Books w' := by
  have hPending : pending w'.trace = pending w.trace := by rw [hTrace]; rfl
  have hHead : w'.state.lock .head = w.state.lock .head := by
    change w'.state.slots.head = _
    rw [hSlots]
    rfl
  have hIn : lease ∈ leased task w.trace := by
    rw [hHeld]
    exact List.mem_singleton_self lease
  refine ⟨?_, ?_, ?_, ?_, ?_⟩
  · rw [hPending, hHead, h.queue]
  · rw [hPending, hSlots, h.waiting]
  · have hOne : operating w.started w.trace = operating w.started (⟨task, .leaseReleased lease, s⟩ :: w.trace) + 1 := by
      refine operating_succ hBorn ?_ ?_ fun other hOther => ?_
      · rw [holdsSlot, leased_released, hHeld]
        simp
      · rw [holdsSlot, hHeld, List.any_cons, hKind]
        rfl
      · rw [holdsSlot, holdsSlot, leased_other (Ne.symm hOther)]
    rw [hTrace, hStarted, hSlots, h.active, hOne, Nat.add_sub_cancel]
  · rw [hTrace]
    exact h.table.released hLeases hNext
  · rw [hTrace]
    exact ⟨hIn, h.orderly⟩

/-- A lease of the slot for probes comes and goes. -/
theorem Books.probeTaken (h : Books w) {lease : SessionLease} (hTrace : w'.trace = ⟨task, .leaseTaken lease, s⟩ :: w.trace)
    (hStarted : w'.started = w.started) (hKind : lease.file.kind = .probe) (hLease : lease.id = w.state.os.nextLease)
    (hOwn : lease.foreign = false) (hSlots : w'.state.slots = w.state.slots)
    (hLeases : w'.state.os.leases = lease :: w.state.os.leases)
    (hNext : w'.state.os.nextLease = w.state.os.nextLease + 1) : Books w' := by
  have hPending : pending w'.trace = pending w.trace := by
    rw [hTrace]
    simp only [pending, hKind]
    rfl
  have hHead : w'.state.lock .head = w.state.lock .head := congrArg SessionSlots.head hSlots
  refine ⟨?_, ?_, ?_, ?_, ?_⟩
  · rw [hPending, hHead, h.queue]
  · rw [hPending, hSlots, h.waiting]
  · rw [hTrace, hStarted, hSlots, h.active]
    refine (operating_congr fun other => ?_).symm
    by_cases hOwn : task = other
    · subst hOwn
      rw [holdsSlot, holdsSlot, leased_taken, List.any_cons, hKind]
      rfl
    · rw [holdsSlot, holdsSlot, leased_other hOwn]
  · rw [hTrace]
    exact h.table.taken hLease hOwn hLeases hNext
  · rw [hTrace]
    exact ⟨⟨fresh_taken h hLease, fun hSlot => by rw [hKind] at hSlot; cases hSlot⟩, h.orderly⟩

theorem Books.probeReleased (h : Books w) {lease : SessionLease}
    (hTrace : w'.trace = ⟨task, .leaseReleased lease, s⟩ :: w.trace) (hStarted : w'.started = w.started)
    (hKind : lease.file.kind = .probe) (hHeld : lease ∈ leased task w.trace)
    (hSlots : w'.state.slots = w.state.slots)
    (hLeases : w'.state.os.leases = w.state.os.leases.filter fun other => other ≠ lease)
    (hNext : w'.state.os.nextLease = w.state.os.nextLease) : Books w' := by
  have hPending : pending w'.trace = pending w.trace := by rw [hTrace]; rfl
  have hHead : w'.state.lock .head = w.state.lock .head := congrArg SessionSlots.head hSlots
  refine ⟨?_, ?_, ?_, ?_, ?_⟩
  · rw [hPending, hHead, h.queue]
  · rw [hPending, hSlots, h.waiting]
  · rw [hTrace, hStarted, hSlots, h.active]
    refine (operating_congr fun other => ?_).symm
    by_cases hOwn : task = other
    · subst hOwn
      rw [holdsSlot, holdsSlot, leased_released, List.any_filter]
      congr 1
      funext other
      by_cases hSame : other = lease
      · rw [hSame, hKind]
        simp
      · simp [hSame]
    · rw [holdsSlot, holdsSlot, leased_other hOwn]
  · rw [hTrace]
    exact h.table.released hLeases hNext
  · rw [hTrace]
    exact ⟨hHeld, h.orderly⟩

/-- A call ends with empty hands. -/
theorem Books.finish (h : Books w) (hEnd : e.isEnd = true) (hNone : leased task w.trace = []) :
    Books (w.act task (some e) w.state) := by
  have hPending : pending (w.act task (some e) w.state).trace = pending w.trace := by
    cases e <;> first | rfl | cases hEnd
  have hLeased : ∀ other, leased other (w.act task (some e) w.state).trace = leased other w.trace := fun other =>
    leased_same (by cases e <;> first | rfl | cases hEnd)
  refine ⟨?_, ?_, ?_, ?_, ?_⟩
  · rw [hPending, World.act_state, h.queue]
  · rw [hPending, World.act_state, h.waiting]
  · rw [World.act_state, World.act_started, h.active]
    exact (operating_congr fun other => by unfold holdsSlot; rw [hLeased]).symm
  · exact h.table.cons (by cases e <;> first | rfl | cases hEnd)
  · refine ⟨?_, h.orderly⟩
    cases e <;> first | exact hNone | cases hEnd

end Books
end Supervision
end Pazuzu
