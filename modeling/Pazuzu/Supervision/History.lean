import Pazuzu.Host

/-! What results about runs speak of: the fields of a state that decide, the
history of a run read backwards from its newest entry, and the story of one
task in it. -/
namespace Pazuzu

open Asyncio

abbrev GatewayWorld := World gatewaySignature

abbrev Record := Entry gatewaySignature

/-- Newest entry first. -/
abbrev History := List Record

namespace Supervision

/-- The fields that invariants are about. -/
structure Core where
  holder : Option Nat
  epoch : Nat
  generation : Nat
  connection : ConnectionState
  failures : Nat
  closed : Bool
  cancelling : Bool
  flight : Option (Nat × Nat)
  jobs : List (JobKind × Option (Except Error (Option ProbeOutcome)))

def core (state : State) : Core where
  holder := state.sup.repairLock.holder
  epoch := state.sup.repairEpoch
  generation := state.sup.generation
  connection := state.sup.state
  failures := state.sup.failures
  closed := state.sup.closed
  cancelling := state.sup.jobs.any Job.cancelling
  flight := state.sup.probeFlight
  jobs := state.sup.jobs.map fun job => (job.kind, job.outcome)

end Supervision

namespace Event

/-- Whether the surroundings make a call of the code raise here. A receipt
that cannot be written is not among them, since the code handles it. Nothing
handles a number that is no process number, a NUL in a word, or text of `ps`
that cannot be decoded. -/
def fails : Event → Bool
  | .fault .writeOwner => false
  | .fault _ | .garbledOwner | .backoffOverflowed => true
  | .interrupted _ .overflowError | .interrupted _ (.valueError _) => true
  | _ => false

/-- Whether an operation is thrown off its course here: by a failing call or
by its own cancellation. -/
def disturbs (op : Op) (event : Event) : Prop :=
  event.fails = true ∨ event = .interrupted op .cancelled

/-- Whether a call was given up at a wait. -/
def isCancellation : Event → Bool
  | .interrupted _ .cancelled | .rethrown _ .cancelled => true
  | _ => false

def endsRepair : Event → Bool
  | .masterConnected | .failureRecorded | .backoffOverflowed | .repairAborted _ => true
  | _ => false

/-- Whether a repair is recorded as failed here, with or without a delay. -/
def isFailure : Event → Bool
  | .failureRecorded | .backoffOverflowed => true
  | _ => false

def isEnd : Event → Bool
  | .returned _ | .raised _ => true
  | _ => false

/-- Whether an event is part of the story a call tells its client. -/
def isStory : Event → Bool
  | .called _ | .returned _ | .raised _ | .sessionCalled _ _ | .sessionStarted _
  | .sessionEnded _ _ | .transferCalled _ | .checkAnswered _ _ | .checkRaised _ _ => true
  | _ => false

/-- The events that the transport and the slots leave, away from any decision. -/
def isMinor : Event → Bool
  | .fault _ | .garbledOwner | .stopMasterCalled | .masterRecognised _ _ | .controlChecked _
  | .probeOpened | .probeEnded _ | .slotWanted | .leaseTaken _ | .leaseReleased _ => true
  | _ => false

/-- The marks of maintenance itself. -/
def isUpkeep : Event → Bool
  | .maintenanceWaits | .maintenanceActs => true
  | _ => false

/-- The events that calm code may leave. -/
def isBackground : Event → Bool
  | .startMasterCalled | .probeCounted _ | .checkProbed _ => true
  | event => event.isUpkeep || event.isMinor

def isRepair : Event → Bool
  | .repairBegan => true
  | event => event.endsRepair

end Event

namespace Supervision

/-- Whether a repair has begun and not ended yet. -/
def repairing : History → Bool
  | [] => false
  | entry :: rest =>
      if entry.event.isRepair then !entry.event.endsRepair else repairing rest

/-- How many repairs have failed since the last master was connected. -/
def consecutiveFailures : History → Nat
  | [] => 0
  | entry :: rest =>
      match entry.event with
      | .masterConnected => 0
      | .failureRecorded | .backoffOverflowed => consecutiveFailures rest + 1
      | _ => consecutiveFailures rest

/-- Some repair was thrown off its course: a disturbance met the task that was
performing it. -/
def Broken (history : History) : Prop :=
  ∃ entry rest, (entry :: rest) <:+ history ∧ (∃ op, entry.event.disturbs op) ∧
    entry.state.sup.repairLock.holder = some entry.task ∧ repairing rest = true

/-- The events of one call, newest first. -/
def story (task : Nat) (history : History) : List Event :=
  (history.filter fun entry => entry.task = task ∧ entry.event.isStory).map Entry.event

/-- The entry, with everything before it, was added since an older history. -/
def Since (old new : History) (entry : Record) (rest : History) : Prop :=
  (entry :: rest) <:+ new ∧ old <:+ rest

/-- Every entry has the property, given the history before it. -/
def Always (P : Record → History → Prop) : History → Prop
  | [] => True
  | entry :: rest => P entry rest ∧ Always P rest

instance decidableAlways {P : Record → History → Prop} [∀ entry rest, Decidable (P entry rest)] :
    ∀ history, Decidable (Always P history)
  | [] => isTrue trivial
  | entry :: rest =>
      have := decidableAlways (P := P) rest
      inferInstanceAs (Decidable (P entry rest ∧ Always P rest))

theorem Always.of_suffix {P : Record → History → Prop} {entry : Record} {rest history : History}
    (h : Always P history) (hSuffix : (entry :: rest) <:+ history) : P entry rest := by
  induction history with
  | nil => cases List.suffix_nil.mp hSuffix
  | cons newest earlier ih =>
      rcases List.suffix_cons_iff.mp hSuffix with hEq | hIn
      · obtain ⟨rfl, rfl⟩ := List.cons.inj hEq
        exact h.1
      · exact ih h.2 hIn

theorem Always.suffix {P : Record → History → Prop} {rest history : History} (h : Always P history)
    (hSuffix : rest <:+ history) : Always P rest := by
  induction history with
  | nil => exact List.suffix_nil.mp hSuffix ▸ trivial
  | cons newest earlier ih =>
      rcases List.suffix_cons_iff.mp hSuffix with rfl | hIn
      · exact h
      · exact ih h.2 hIn

theorem exists_suffix_of_mem {entry : Record} {history : History} (h : entry ∈ history) :
    ∃ rest, (entry :: rest) <:+ history := by
  obtain ⟨newer, rest, hHistory⟩ := List.append_of_mem h
  exact ⟨rest, newer, hHistory.symm⟩

section History

variable {old mid new rest : History} {entry : Record}

theorem Since.split (hOld : old <:+ mid) (hNew : mid <:+ new) (h : Since old new entry rest) :
    Since old mid entry rest ∨ Since mid new entry rest := by
  obtain ⟨hSuffix, hRest⟩ := h
  rcases List.suffix_or_suffix_of_suffix hSuffix hNew with hIn | hIn
  · exact Or.inl ⟨hIn, hRest⟩
  · rcases List.suffix_cons_iff.mp hIn with rfl | hLater
    · exact Or.inl ⟨List.suffix_rfl, hRest⟩
    · exact Or.inr ⟨hSuffix, hLater⟩

theorem Since.mono (hOld : old <:+ mid) (h : Since mid new entry rest) :
    Since old new entry rest :=
  ⟨h.1, hOld.trans h.2⟩

theorem Since.extend (hNew : mid <:+ new) (h : Since old mid entry rest) :
    Since old new entry rest :=
  ⟨h.1.trans hNew, h.2⟩

theorem Since.mem (h : Since old new entry rest) : entry ∈ new :=
  h.1.subset List.mem_cons_self

theorem Since.head (rest : History) (entry : Record) : Since rest (entry :: rest) entry rest :=
  ⟨List.suffix_rfl, List.suffix_rfl⟩

theorem since_self : ¬Since old old entry rest := by
  rintro ⟨hSuffix, hRest⟩
  have hLength := hSuffix.length_le
  have hLength' := hRest.length_le
  simp only [List.length_cons] at hLength
  omega

theorem since_cons {newest : Record} :
    Since old (newest :: old) entry rest ↔ entry = newest ∧ rest = old := by
  constructor
  · rintro ⟨hSuffix, hRest⟩
    rcases List.suffix_cons_iff.mp hSuffix with hEq | hIn
    · simpa using hEq
    · exact absurd ⟨hIn, hRest⟩ since_self
  · rintro ⟨rfl, rfl⟩
    exact Since.head _ _

theorem Broken.mono (h : Broken old) (hSuffix : old <:+ new) : Broken new := by
  obtain ⟨entry, rest, hEntry, hRest⟩ := h
  exact ⟨entry, rest, hEntry.trans hSuffix, hRest⟩

/-- A stretch of history without repair events leaves it open whether a repair
is going on. -/
theorem repairing_eq_of_since (hSuffix : old <:+ new)
    (h : ∀ entry rest, Since old new entry rest → entry.event.isRepair = false) :
    repairing new = repairing old := by
  obtain ⟨stretch, rfl⟩ := hSuffix
  induction stretch with
  | nil => rfl
  | cons newest earlier ih =>
      have hNewest := h newest (earlier ++ old) ⟨List.suffix_rfl, List.suffix_append _ _⟩
      have hEarlier := ih fun entry rest hSince =>
        h entry rest (hSince.extend (List.suffix_cons _ _))
      simp [repairing, hNewest, hEarlier]

@[simp] theorem story_nil (task : Nat) : story task [] = [] := rfl

theorem story_cons_same (task : Nat) (event : Event) (state : State) (history : History)
    (h : event.isStory = true) :
    story task (⟨task, event, state⟩ :: history) = event :: story task history := by
  simp [story, h]

theorem story_cons_other {task : Nat} {entry : Record} (history : History)
    (h : entry.task ≠ task ∨ entry.event.isStory = false) :
    story task (entry :: history) = story task history := by
  rcases h with hTask | hEvent
  · simp [story, hTask]
  · simp [story, hEvent]

theorem mem_of_mem_story {task : Nat} {history : History} {event : Event}
    (h : event ∈ story task history) : ∃ entry ∈ history, entry.task = task ∧ entry.event = event := by
  simp only [story, List.mem_map, List.mem_filter, decide_eq_true_eq] at h
  obtain ⟨entry, ⟨hMem, hTask, -⟩, rfl⟩ := h
  exact ⟨entry, hMem, hTask, rfl⟩

end History
end Supervision
end Pazuzu
