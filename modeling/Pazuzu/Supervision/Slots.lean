import Mathlib.Data.List.Nodup
import Pazuzu.Supervision.Acyclicity

/-! The slots are granted in the order of arrival, their counters are right, and
no lease is lost: what the entries of a history must look like for the order
and the ledger of the leases, and that those of every run do. -/
namespace Pazuzu

namespace Event

/-- The task obtains an operation slot here, or a call of it fails. -/
def isServed : Event → Bool
  | .leaseTaken lease => lease.file.kind = .slot
  | event => event.quits

def takes (lease : SessionLease) : Event → Bool
  | .leaseTaken other => other = lease
  | _ => false

def releases (lease : SessionLease) : Event → Bool
  | .leaseReleased other => other = lease
  | _ => false

end Event

namespace Supervision

open Asyncio

/-- The task has come for a slot, and has neither obtained one nor failed since. -/
def Queued (task : Nat) (history : History) : Prop :=
  ∃ newer state older, history = newer ++ (⟨task, .slotWanted, state⟩ : Record) :: older ∧
    ∀ entry ∈ newer, entry.task = task → entry.event.isServed = false

variable {task : Nat} {history : History} {lease : SessionLease}

section Order

theorem pending_served {entry : Record} (h : entry.event.isServed = true) :
    pending (entry :: history) = (pending history).erase entry.task := by
  obtain ⟨owner, event, state⟩ := entry
  cases event with
  | leaseTaken lease => simp only [pending, if_pos (of_decide_eq_true h)]
  | interrupted | fault => rfl
  | _ => cases h

theorem pending_same {entry : Record} (h : entry.event.isServed = false) (hWanted : entry.event ≠ .slotWanted) :
    pending (entry :: history) = pending history := by
  obtain ⟨owner, event, state⟩ := entry
  cases event with
  | leaseTaken lease => simp only [pending, if_neg (of_decide_eq_false h)]
  | slotWanted => exact absurd rfl hWanted
  | interrupted | fault => cases h
  | _ => rfl

theorem pending_nodup (h : Always Orderliness history) : (pending history).Nodup := by
  induction history with
  | nil => exact List.nodup_nil
  | cons newest earlier ih =>
      have hEarlier := ih h.2
      obtain ⟨owner, event, state⟩ := newest
      by_cases hWanted : event = .slotWanted
      · subst hWanted
        have hNew : owner ∉ pending earlier := h.1
        exact List.nodup_append.mpr ⟨hEarlier, List.nodup_singleton _, fun other hOther another hLast hSame => by
          rw [hSame, List.mem_singleton.mp hLast] at hOther
          exact hNew hOther⟩
      · cases hServed : event.isServed with
        | true =>
            rw [pending_served hServed]
            exact hEarlier.erase _
        | false =>
            rw [pending_same hServed hWanted]
            exact hEarlier

theorem queued_wanted {state : State} : Queued task (⟨task, .slotWanted, state⟩ :: history) :=
  ⟨[], state, history, rfl, fun _ hEntry => nomatch hEntry⟩

theorem queued_cons {entry : Record} (hWanted : entry.event = .slotWanted → entry.task ≠ task) :
    Queued task (entry :: history) ↔
      (entry.task = task → entry.event.isServed = false) ∧ Queued task history := by
  constructor
  · rintro ⟨newer, state, older, hSplit, hNone⟩
    cases newer with
    | nil =>
        obtain ⟨rfl, -⟩ := List.cons.inj hSplit
        exact absurd rfl (hWanted rfl)
    | cons first rest =>
        obtain ⟨rfl, rfl⟩ := List.cons.inj hSplit
        exact ⟨hNone _ List.mem_cons_self, rest, state, older, rfl, fun entry' hEntry =>
          hNone entry' (List.mem_cons_of_mem _ hEntry)⟩
  · rintro ⟨hHere, newer, state, older, rfl, hNone⟩
    refine ⟨entry :: newer, state, older, rfl, fun entry' hEntry => ?_⟩
    rcases List.mem_cons.mp hEntry with rfl | hOld
    · exact hHere
    · exact hNone entry' hOld

/-- Those who are pending are those who are queued. -/
theorem mem_pending (h : Always Orderliness history) : task ∈ pending history ↔ Queued task history := by
  induction history with
  | nil => exact iff_of_false List.not_mem_nil fun ⟨newer, _, _, hSplit, _⟩ => by cases newer <;> cases hSplit
  | cons newest earlier ih =>
      have hEarlier := ih h.2
      by_cases hNew : newest.event = .slotWanted ∧ newest.task = task
      · obtain ⟨owner, event, state⟩ := newest
        obtain ⟨rfl, rfl⟩ := hNew
        exact iff_of_true (List.mem_append_right _ (List.mem_singleton_self _)) queued_wanted
      · rw [queued_cons fun hWanted hOwn => hNew ⟨hWanted, hOwn⟩, ← hEarlier]
        by_cases hWanted : newest.event = .slotWanted
        · have hOther : newest.task ≠ task := fun hOwn => hNew ⟨hWanted, hOwn⟩
          obtain ⟨owner, event, state⟩ := newest
          subst hWanted
          change task ∈ pending earlier ++ [owner] ↔ _
          rw [List.mem_append, List.mem_singleton]
          exact ⟨fun hIn => ⟨fun hOwn => absurd hOwn hOther, hIn.resolve_right (Ne.symm hOther)⟩, fun hIn => Or.inl hIn.2⟩
        · cases hServed : newest.event.isServed with
          | true =>
              rw [pending_served hServed, (pending_nodup h.2).mem_erase_iff]
              exact and_congr_left fun _ => ⟨fun hOther hOwn => absurd hOwn.symm hOther, fun hOwn hSame =>
                Bool.noConfusion (hOwn hSame.symm)⟩
          | false =>
              rw [pending_same hServed hWanted]
              exact ⟨fun hIn => ⟨fun _ => rfl, hIn⟩, And.right⟩

/-- One is queued and the other is not queued before it. -/
def Ahead (first second : Nat) (queue : List Nat) : Prop :=
  ∃ front back, queue = front ++ first :: back ∧ second ∉ front

variable {first second : Nat}

theorem ahead_erase {other : Nat} {queue : List Nat} (h : Ahead first second queue) (hOther : other ≠ first) :
    Ahead first second (queue.erase other) := by
  obtain ⟨front, back, rfl, hNot⟩ := h
  by_cases hIn : other ∈ front
  · exact ⟨front.erase other, back, List.erase_append_left _ hIn, fun hMem => hNot (List.mem_of_mem_erase hMem)⟩
  · refine ⟨front, back.erase other, ?_, hNot⟩
    rw [List.erase_append_right _ hIn, List.erase_cons_tail (by simpa using Ne.symm hOther)]

/-- Whoever is ahead stays ahead until it is served. -/
theorem ahead_later {later : History} (h : Ahead first second (pending history))
    (hWaits : ∀ entry ∈ later, entry.task = first → entry.event.isServed = false) :
    Ahead first second (pending (later ++ history)) := by
  induction later with
  | nil => exact h
  | cons newest rest ih =>
      have hRest := ih fun entry hEntry => hWaits entry (List.mem_cons_of_mem _ hEntry)
      by_cases hWanted : newest.event = .slotWanted
      · obtain ⟨owner, event, state⟩ := newest
        subst hWanted
        obtain ⟨front, back, hQueue, hNot⟩ := hRest
        refine ⟨front, back ++ [owner], ?_, hNot⟩
        change pending (rest ++ history) ++ [owner] = _
        rw [hQueue, List.append_assoc, List.cons_append]
      · cases hServed : newest.event.isServed with
        | true =>
            have hOther : newest.task ≠ first := fun hOwn => by
              rw [hWaits newest List.mem_cons_self hOwn] at hServed
              cases hServed
            rw [List.cons_append, pending_served hServed]
            exact ahead_erase hRest hOther
        | false =>
            rw [List.cons_append, pending_same hServed hWanted]
            exact hRest

/-- Whoever came earlier has been served before the other obtains its slot. -/
theorem served_in_order {newer later between older : History} {granted came earlier : State}
    (h : Always Orderliness history) (hKind : lease.file.kind = .slot)
    (hSplit : history = newer ++ (⟨second, .leaseTaken lease, granted⟩ : Record) ::
      (later ++ ⟨second, .slotWanted, came⟩ :: (between ++ ⟨first, .slotWanted, earlier⟩ :: older))) :
    ∃ entry ∈ later ++ between, entry.task = first ∧ entry.event.isServed = true := by
  by_contra hNone
  have hWaits : ∀ entry ∈ later ++ between, entry.task = first → entry.event.isServed = false := fun entry hEntry hOwn =>
    Bool.eq_false_iff.mpr fun hServed => hNone ⟨entry, hEntry, hOwn, hServed⟩
  have hGrant := h.of_suffix ⟨newer, hSplit.symm⟩
  have hBefore : (⟨second, .slotWanted, came⟩ :: (between ++ ⟨first, .slotWanted, earlier⟩ :: older) : History) <:+
      history := ⟨newer ++ (⟨second, .leaseTaken lease, granted⟩ : Record) :: later, by
    rw [hSplit, List.append_assoc, List.cons_append]⟩
  have hNew : second ∉ pending (between ++ ⟨first, .slotWanted, earlier⟩ :: older) := h.of_suffix hBefore
  have hHere : first ∈ pending (between ++ ⟨first, .slotWanted, earlier⟩ :: older) :=
    (mem_pending (h.suffix hBefore).2).mpr ⟨between, earlier, older, rfl, fun entry hEntry =>
      hWaits entry (List.mem_append_right _ hEntry)⟩
  have hAhead : Ahead first second
      (pending (⟨second, .slotWanted, came⟩ :: (between ++ ⟨first, .slotWanted, earlier⟩ :: older))) := by
    obtain ⟨front, back, hQueue⟩ := List.append_of_mem hHere
    refine ⟨front, back ++ [second], ?_, fun hFront => hNew (hQueue ▸ List.mem_append_left _ hFront)⟩
    change pending _ ++ [second] = _
    rw [hQueue, List.append_assoc, List.cons_append]
  obtain ⟨front, back, hQueue, hNot⟩ := ahead_later hAhead fun entry hEntry =>
    hWaits entry (List.mem_append_left _ hEntry)
  have hHead := hGrant.2 hKind
  rw [hQueue] at hHead
  cases front with
  | nil =>
      obtain rfl : first = second := Option.some.inj hHead
      exact hNew hHere
  | cons head rest =>
      obtain rfl : head = second := Option.some.inj hHead
      exact hNot List.mem_cons_self

end Order

section Ledger

theorem taken_unique (h : Always Orderliness history) {first second : Nat} {granted again : State}
    (hFirst : (⟨first, .leaseTaken lease, granted⟩ : Record) ∈ history)
    (hSecond : (⟨second, .leaseTaken lease, again⟩ : Record) ∈ history) : first = second := by
  induction history with
  | nil => cases hFirst
  | cons newest earlier ih =>
      rcases List.mem_cons.mp hFirst with rfl | hOld
      · rcases List.mem_cons.mp hSecond with hSame | hOther
        · exact (congrArg Entry.task hSame).symm
        · exact absurd rfl (h.1.1 ⟨second, .leaseTaken lease, again⟩ hOther)
      · rcases List.mem_cons.mp hSecond with rfl | hOther
        · exact absurd rfl (h.1.1 ⟨first, .leaseTaken lease, granted⟩ hOld)
        · exact ih h.2 hOld hOther

/-- A lease that has not been given back is held by the task that took it. -/
theorem mem_kept (h : Always Orderliness history) : lease ∈ kept history ↔ ∃ task, lease ∈ leased task history := by
  induction history with
  | nil => exact iff_of_false List.not_mem_nil fun ⟨task, hHeld⟩ => nomatch hHeld
  | cons newest earlier ih =>
      have hEarlier := ih h.2
      obtain ⟨owner, event, state⟩ := newest
      cases event with
      | leaseTaken taken =>
          change lease ∈ taken :: kept earlier ↔ _
          rw [List.mem_cons, hEarlier]
          constructor
          · rintro (rfl | ⟨task, hHeld⟩)
            · exact ⟨owner, leased_taken ▸ List.mem_cons_self⟩
            · by_cases hOwn : owner = task
              · exact ⟨task, by rw [← hOwn, leased_taken]; exact List.mem_cons_of_mem _ (hOwn ▸ hHeld)⟩
              · exact ⟨task, by rwa [leased_other hOwn]⟩
          · rintro ⟨task, hHeld⟩
            by_cases hOwn : owner = task
            · rw [← hOwn, leased_taken] at hHeld
              exact (List.mem_cons.mp hHeld).imp_right fun hOld => ⟨owner, hOld⟩
            · exact Or.inr ⟨task, by rwa [leased_other hOwn] at hHeld⟩
      | leaseReleased released =>
          change lease ∈ (kept earlier).filter _ ↔ _
          rw [List.mem_filter, hEarlier, decide_eq_true_iff]
          constructor
          · rintro ⟨⟨task, hHeld⟩, hOther⟩
            by_cases hOwn : owner = task
            · exact ⟨task, by rw [← hOwn, leased_released]; exact List.mem_filter.mpr ⟨hOwn ▸ hHeld, decide_eq_true hOther⟩⟩
            · exact ⟨task, by rwa [leased_other hOwn]⟩
          · rintro ⟨task, hHeld⟩
            by_cases hOwn : owner = task
            · rw [← hOwn, leased_released] at hHeld
              obtain ⟨hOld, hOther⟩ := List.mem_filter.mp hHeld
              exact ⟨⟨owner, hOld⟩, of_decide_eq_true hOther⟩
            · rw [leased_other hOwn] at hHeld
              refine ⟨⟨task, hHeld⟩, fun hSame => hOwn ?_⟩
              subst hSame
              have hReleased : lease ∈ leased owner earlier := h.1
              obtain ⟨first, hFirst⟩ := taken_of_leased hReleased
              obtain ⟨second, hSecond⟩ := taken_of_leased hHeld
              exact taken_unique h.2 hFirst hSecond
      | _ => exact hEarlier.trans (exists_congr fun task => by rw [leased_same rfl])

theorem takes_iff {event : Event} : event.takes lease = true ↔ event = .leaseTaken lease := by
  cases event with
  | leaseTaken other => simp [Event.takes]
  | _ => simp [Event.takes]

theorem releases_iff {event : Event} : event.releases lease = true ↔ event = .leaseReleased lease := by
  cases event with
  | leaseReleased other => simp [Event.releases]
  | _ => simp [Event.releases]

theorem taken_once (h : Always Orderliness history) : (history.countP fun entry => entry.event.takes lease) ≤ 1 := by
  induction history with
  | nil => exact Nat.zero_le 1
  | cons newest earlier ih =>
      rw [List.countP_cons]
      split
      · next hTakes =>
          obtain ⟨owner, event, state⟩ := newest
          obtain rfl : event = .leaseTaken lease := takes_iff.mp hTakes
          have hNone : (earlier.countP fun entry => entry.event.takes lease) = 0 := List.countP_eq_zero.mpr
            fun entry hEntry hAgain => h.1.1 entry hEntry (takes_iff.mp hAgain)
          omega
      · exact ih h.2

/-- Nobody gives back what nobody has taken. -/
theorem unreleased (h : Always Orderliness history) (hNone : ∀ entry ∈ history, entry.event ≠ .leaseTaken lease) :
    (history.countP fun entry => entry.event.releases lease) = 0 := by
  refine List.countP_eq_zero.mpr fun entry hEntry hReleases => ?_
  obtain ⟨rest, hSuffix⟩ := exists_suffix_of_mem hEntry
  have hHere := h.of_suffix hSuffix
  obtain ⟨owner, event, state⟩ := entry
  obtain rfl : event = .leaseReleased lease := releases_iff.mp hReleases
  obtain ⟨taken, hTaken⟩ := taken_of_leased hHere
  exact hNone _ (hSuffix.subset (List.mem_cons_of_mem _ hTaken)) rfl

/-- A lease that has been taken is either held or has been given back once. -/
theorem released_unless_held (h : Always Orderliness history) {granted : State}
    (hTaken : (⟨task, .leaseTaken lease, granted⟩ : Record) ∈ history) :
    (history.countP fun entry => entry.event.releases lease) = if lease ∈ leased task history then 0 else 1 := by
  induction history with
  | nil => cases hTaken
  | cons newest earlier ih =>
      obtain ⟨owner, event, state⟩ := newest
      rcases List.mem_cons.mp hTaken with hHere | hEarlier
      · obtain ⟨rfl, rfl, rfl⟩ := Entry.mk.inj hHere
        rw [leased_taken, if_pos List.mem_cons_self, List.countP_cons_of_neg (by simp [Event.releases])]
        exact unreleased h.2 h.1.1
      · have hCount := ih h.2 hEarlier
        cases event with
        | leaseTaken other =>
            have hOther : lease ≠ other := by
              rintro rfl
              exact h.1.1 _ hEarlier rfl
            rw [List.countP_cons_of_neg (by simp [Event.releases]), hCount]
            by_cases hOwn : owner = task
            · rw [← hOwn, leased_taken]
              exact if_congr (List.mem_cons.trans (or_iff_right hOther)).symm rfl rfl
            · rw [leased_other hOwn]
        | leaseReleased other =>
            by_cases hSame : other = lease
            · subst hSame
              have hHeld : other ∈ leased owner earlier := h.1
              obtain ⟨taken, hOwner⟩ := taken_of_leased hHeld
              obtain rfl := taken_unique h.2 hOwner hEarlier
              rw [List.countP_cons_of_pos (by simp [Event.releases]), hCount, if_pos hHeld, leased_released,
                if_neg (by simp)]
            · rw [List.countP_cons_of_neg (by simpa [Event.releases] using hSame), hCount]
              by_cases hOwn : owner = task
              · rw [← hOwn, leased_released]
                exact if_congr (by simp [Ne.symm hSame]) rfl rfl
              · rw [leased_other hOwn]
        | _ =>
            rw [List.countP_cons_of_neg (by simp [Event.releases]), hCount, leased_same rfl]

end Ledger

section Runs

/-- The process has the locks of the leases that its tasks hold. -/
theorem locked_iff {os : Os} (hTable : Tabled os history) (h : Always Orderliness history) :
    lease ∈ os.leases ∧ lease.foreign = false ↔ ∃ task, lease ∈ leased task history := by
  rw [← mem_kept h, ← hTable.locked, List.mem_filter, Bool.not_eq_true']

/-- Slots go in the order of arrival, the counters say how many wait and how
many hold a slot, the process has a lock exactly as long as a task holds the
lease, and every lease that a call has taken, it has given back once when it
ends. -/
structure Fair (w : GatewayWorld) : Prop where
  order : ∀ (first second : Nat) (lease : SessionLease) (newer later between older : History)
    (granted came earlier : State), lease.file.kind = .slot →
    w.trace = newer ++ (⟨second, .leaseTaken lease, granted⟩ : Record) ::
      (later ++ ⟨second, .slotWanted, came⟩ :: (between ++ ⟨first, .slotWanted, earlier⟩ :: older)) →
    ∃ entry ∈ later ++ between, entry.task = first ∧ entry.event.isServed = true
  queue : (pending w.trace).Nodup ∧ ∀ task, task ∈ pending w.trace ↔ Queued task w.trace
  waiting : w.state.slots.waiting = (pending w.trace).length
  active : w.state.slots.active = (List.range w.started).countP fun task => holdsSlot .slot task w.trace
  locked : ∀ lease, lease ∈ w.state.os.leases ∧ lease.foreign = false ↔ ∃ task, lease ∈ leased task w.trace
  taken : ∀ lease, (w.trace.countP fun entry => entry.event.takes lease) ≤ 1
  released : ∀ (task : Nat) (lease : SessionLease) (granted : State),
    (⟨task, .leaseTaken lease, granted⟩ : Record) ∈ w.trace →
    (w.trace.countP fun entry => entry.event.releases lease) = if lease ∈ leased task w.trace then 0 else 1
  ended : ∀ (task : Nat) (event : Event) (state : State) (newer older : History), event.isEnd = true →
    w.trace = newer ++ (⟨task, event, state⟩ : Record) :: older → ∀ (lease : SessionLease) (granted : State),
    (⟨task, .leaseTaken lease, granted⟩ : Record) ∈ older →
    (older.countP fun entry => entry.event.releases lease) = 1

theorem fair_of_books {w : GatewayWorld} (h : Books w) : Fair w where
  order := fun _ _ _ _ _ _ _ _ _ _ hKind hSplit => served_in_order h.orderly hKind hSplit
  queue := ⟨pending_nodup h.orderly, fun _ => mem_pending h.orderly⟩
  waiting := h.waiting
  active := h.active
  locked := fun _ => locked_iff h.table h.orderly
  taken := fun _ => taken_once h.orderly
  released := fun _ _ _ hTaken => released_unless_held h.orderly hTaken
  ended := by
    intro task event state newer older hEnd hSplit lease granted hTaken
    have hSuffix : (⟨task, event, state⟩ :: older : History) <:+ w.trace := ⟨newer, hSplit.symm⟩
    have hEmpty : leased task older = [] := by
      have hHere := h.orderly.of_suffix hSuffix
      cases event <;> first | exact hHere | cases hEnd
    rw [released_unless_held (h.orderly.suffix hSuffix).2 hTaken, hEmpty, if_neg List.not_mem_nil]

variable {config : Config} {os : Os} {choices : List (Choice (gateway config))} {final : Loop (gateway config)}

/-- In every run, whoever else takes and frees slots and whatever fails. -/
theorem fair_of_run (hRun : gatewayRun config os choices = some final) : Fair final.world :=
  fair_of_books (grounded_of_run hRun).books

/-- Others hold all slots when two commands arrive; then one slot becomes free. -/
def rush : List Sample :=
  (List.range 7).map (fun index => .disturb (.leaseTaken ⟨.slot, index⟩)) ++
    [execute, execute, .disturb (.leaseFreed ⟨⟨.slot, 1⟩, 1, true⟩), .disturb (.tick 1), resume 0]

theorem fair_rush : ∃ final, gatewayRun sample survivor rush = some final ∧ pending final.world.trace = [1] ∧
    final.world.state.slots.active = 1 ∧ Fair final.world := by
  have hRun : (gatewayRun sample survivor rush).any (fun final =>
      pending final.world.trace = [1] && final.world.state.slots.active = 1) = true := by decide +kernel
  obtain ⟨final, hFinal, hBoth⟩ := (Option.any_eq_true _ _).mp hRun
  obtain ⟨hPending, hActive⟩ := Bool.and_eq_true_iff.mp hBoth
  exact ⟨final, hFinal, of_decide_eq_true hPending, of_decide_eq_true hActive, fair_of_run hFinal⟩

end Runs
end Supervision
end Pazuzu
