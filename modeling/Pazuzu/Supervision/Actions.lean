import Pazuzu.Supervision.Invariant

/-! The single actions of the gateway against the discipline: marks, lock
operations, the steps of a repair, and the life of created tasks. Each keeps
the invariant and what every other task relies on. -/
namespace Pazuzu.Supervision

open Asyncio

variable {w : GatewayWorld} {task : Nat} {event : Option Event} {state : State}

/-- What an action adds to the history is its own event. -/
theorem since_act {entry : Record} {rest : History}
    (h : Since w.trace (w.act task event state).trace entry rest) :
    ∃ e ∈ event, entry = ⟨task, e, state⟩ ∧ rest = w.trace := by
  cases event with
  | none => exact absurd h since_self
  | some e => exact ⟨e, rfl, since_cons.mp h⟩

theorem suffix_act : w.trace <:+ (w.act task event state).trace := by
  cases event with
  | none => exact List.suffix_rfl
  | some e => exact List.suffix_cons _ _

theorem Grows.act (hProgress : Progress (core w.state) (core state))
    (hProbes : ∀ (id epoch : Nat) outcome, (core w.state).jobs[id]? = some (.probe epoch, none) →
      (core state).jobs[id]? = some (.probe epoch, some (.ok (some outcome))) →
      event = some (.probeFinished epoch outcome)) :
    Grows w (w.act task event state) where
  started := by simp
  progress := by simpa using hProgress
  history := suffix_act
  entries := by
    intro entry rest hSince
    obtain ⟨e, -, rfl, -⟩ := since_act hSince
    simpa using ⟨hProgress, Progress.refl _⟩
  probes := by
    intro id epoch outcome hBefore hAfter
    rw [World.act_state] at hAfter
    obtain rfl := hProbes id epoch outcome hBefore hAfter
    exact ⟨_, _, Since.head _ _, rfl⟩

theorem story_act {other : Nat} (h : other ≠ task ∨ ∀ e ∈ event, e.isStory = false) :
    story other (w.act task event state).trace = story other w.trace := by
  cases event with
  | none => rfl
  | some e =>
      refine story_cons_other _ ?_
      rcases h with hOther | hEvent
      · exact Or.inl (Ne.symm hOther)
      · exact Or.inr (hEvent e rfl)

theorem repairing_act (h : ∀ e ∈ event, e.isRepair = false) :
    repairing (w.act task event state).trace = repairing w.trace := by
  refine repairing_eq_of_since suffix_act fun entry rest hSince => ?_
  obtain ⟨e, hEvent, rfl, -⟩ := since_act hSince
  exact h e hEvent

/-- The fields that repairs are about are unchanged. -/
structure SameRepair (before after : Core) : Prop where
  holder : after.holder = before.holder
  epoch : after.epoch = before.epoch
  generation : after.generation = before.generation
  connection : after.connection = before.connection
  failures : after.failures = before.failures

/-- An action away from the repair fields disturbs nobody. -/
theorem Rely.act {other : Nat} (hGrows : Grows w (w.act task event state))
    (hStory : other ≠ task ∨ ∀ e ∈ event, e.isStory = false)
    (hRepair : ∀ e ∈ event, e.isRepair = false)
    (hSame : SameRepair (core w.state) (core state)) :
    Rely other w (w.act task event state) where
  grows := hGrows
  story := story_act hStory
  held := by
    intro hHolder
    refine ⟨?_, ?_, ?_, ?_, ?_, ?_⟩
    · rw [World.act_state, hSame.holder, hHolder]
    · rw [World.act_state, hSame.epoch]
    · rw [World.act_state, hSame.generation]
    · rw [World.act_state, hSame.failures]
    · exact Or.inl (by rw [World.act_state, hSame.connection])
    · intro entry rest hSince
      obtain ⟨e, hEvent, rfl, -⟩ := since_act hSince
      exact ⟨hSame.holder.trans hHolder, hRepair e hEvent⟩
  steady := by
    intro hRepairing _ _
    refine ⟨by rw [repairing_act hRepair, hRepairing], ?_, Or.inl ?_⟩
    · rw [World.act_state, hSame.generation]
    · rw [World.act_state, hSame.connection]

/-- An action of the lock's holder, or of the task that takes the free lock:
the others rely on nothing but the course of the epochs. -/
theorem Rely.act_locked {other : Nat} (hGrows : Grows w (w.act task event state))
    (hOther : other ≠ task)
    (hLock : (core w.state).holder = none ∨ (core w.state).holder = some task)
    (hSteady : repairing w.trace = false → 1 ≤ (core w.state).generation →
      (core state).epoch = (core w.state).epoch → Kept w (w.act task event state)) :
    Rely other w (w.act task event state) where
  grows := hGrows
  story := story_act (Or.inl hOther)
  held := by
    intro hHolder
    rcases hLock with hFree | hMine
    · rw [hFree] at hHolder
      cases hHolder
    · rw [hMine] at hHolder
      exact absurd (Option.some.inj hHolder).symm hOther
  steady := by
    intro hRepairing hGeneration hEpoch
    exact hSteady hRepairing hGeneration (by simpa using hEpoch)

theorem FailureOf.mono {epoch : Nat} {old new : History} (h : FailureOf epoch old)
    (hSuffix : old <:+ new) : FailureOf epoch new := by
  obtain ⟨entry, hEntry, hEvent⟩ := h
  exact ⟨entry, hSuffix.subset hEntry, hEvent⟩

theorem FailureOf.of_act {epoch : Nat} (h : FailureOf epoch (w.act task event state).trace)
    (hEvent : ∀ e ∈ event, e.isFailure = false) : FailureOf epoch w.trace := by
  obtain ⟨entry, hEntry, hFailure, hEpoch⟩ := h
  cases event with
  | none => exact ⟨entry, hEntry, hFailure, hEpoch⟩
  | some e =>
      rcases List.mem_cons.mp hEntry with rfl | hOld
      · have hNot := hEvent e rfl
        rw [show e.isFailure = true from hFailure] at hNot
        cases hNot
      · exact ⟨entry, hOld, hFailure, hEpoch⟩

theorem RepairInv.act (h : RepairInv (core w.state) w.trace)
    (hRepair : ∀ e ∈ event, e.isRepair = false) (hSame : SameRepair (core w.state) (core state))
    (hClosed : (core w.state).closed = true → (core state).closed = true) :
    RepairInv (core state) (w.act task event state).trace where
  connected := by
    rw [hSame.connection, hSame.generation]
    exact h.connected
  held := by
    rw [repairing_act hRepair, hSame.holder, hSame.connection]
    exact fun hRepairing => (h.held hRepairing).imp_right (Or.imp_right (And.imp_left hClosed))
  reconnecting := by
    rw [repairing_act hRepair, hSame.connection]
    exact fun hState => (h.reconnecting hState).imp_right (Broken.mono · suffix_act)
  failed := by
    rw [hSame.generation, hSame.connection, hSame.epoch]
    exact fun hGeneration hUp hDown => (h.failed hGeneration hUp hDown).imp hClosed
      (FailureOf.mono · suffix_act)
  unrecorded := by
    rw [hSame.connection, hSame.epoch]
    refine fun hState hFailure => h.unrecorded hState (hFailure.of_act fun e he => ?_)
    have hNot := hRepair e he
    cases e <;> first | rfl | cases hNot
  settled := by
    intro entry hEntry hBegan
    rw [repairing_act hRepair, hSame.epoch]
    have hOld : entry ∈ w.trace := by
      cases event with
      | none => exact hEntry
      | some e =>
          rcases List.mem_cons.mp hEntry with rfl | hOld
          · have hNot := hRepair e rfl
            rw [show e = .repairBegan from hBegan] at hNot
            cases hNot
          · exact hOld
    refine (h.settled entry hOld hBegan).imp_right (Or.imp (Broken.mono · suffix_act) ?_)
    rintro ⟨ending, hEnding, hRest⟩
    exact ⟨ending, suffix_act.subset hEnding, hRest⟩
  counted := by
    rw [hSame.failures, h.counted]
    cases event with
    | none => rfl
    | some e =>
        have hNot := hRepair e rfl
        cases e <;> first | rfl | cases hNot

/-- The general form of an action: what is left to show of the invariant. -/
theorem Inv.act (h : Inv w) (hProgress : Progress (core w.state) (core state))
    (hTeller : ∀ e ∈ event, e.isStory = true →
      task < w.started ∧ Lawful (e :: story task w.trace))
    (hPermitted : ∀ e ∈ event, Permitted ⟨task, e, state⟩ w.trace)
    (hRepair : RepairInv (core state) (w.act task event state).trace)
    (hJobs : JobInv (core state) (w.act task event state).trace)
    (hFlight : FlightInv (core state))
    (hCancelling : (core state).cancelling = true → (core state).closed = true)
    (hShutdown : (core state).closed = true → (core w.state).closed = true ∨
      ∃ entry ∈ w.trace, entry.event = .called .close ∨ entry.event = .called .detach) :
    Inv (w.act task event state) where
  tellers := by
    intro entry hEntry hStory
    rw [World.act_started]
    cases event with
    | none => exact h.tellers entry hEntry hStory
    | some e =>
        rcases List.mem_cons.mp hEntry with rfl | hOld
        · exact (hTeller e rfl hStory).1
        · exact h.tellers entry hOld hStory
  past := by
    intro entry hEntry
    rw [World.act_state]
    cases event with
    | none => exact (h.past entry hEntry).trans hProgress
    | some e =>
        rcases List.mem_cons.mp hEntry with rfl | hOld
        · exact Progress.refl _
        · exact (h.past entry hOld).trans hProgress
  ordered := by
    intro entry rest hSuffix other hOther
    cases event with
    | none => exact h.ordered entry rest hSuffix other hOther
    | some e =>
        rcases List.suffix_cons_iff.mp hSuffix with hEq | hOld
        · obtain ⟨rfl, rfl⟩ := List.cons.inj hEq
          exact (h.past other hOther).trans hProgress
        · exact h.ordered entry rest hOld other hOther
  repair := by simpa using hRepair
  jobs := by simpa using hJobs
  flight := by simpa using hFlight
  cancelling := by simpa using hCancelling
  shutdown := by
    intro hClosed
    have hOld : ∃ entry ∈ w.trace, entry.event = .called .close ∨ entry.event = .called .detach :=
      (hShutdown (by simpa using hClosed)).elim h.shutdown id
    obtain ⟨entry, hEntry, hEvent⟩ := hOld
    exact ⟨entry, suffix_act.subset hEntry, hEvent⟩
  lawful := by
    intro other
    cases event with
    | none => exact h.lawful other
    | some e =>
        by_cases hOwn : task = other ∧ e.isStory = true
        · obtain ⟨rfl, hStory⟩ := hOwn
          rw [World.act_some_trace, story_cons_same _ _ _ _ hStory]
          exact (hTeller e rfl hStory).2
        · rw [World.act_some_trace, story_cons_other]
          · exact h.lawful other
          · by_cases hTask : task = other
            · exact Or.inr (by simpa [hTask] using hOwn)
            · exact Or.inl hTask
  permitted := by
    intro entry rest hSuffix
    cases event with
    | none => exact h.permitted entry rest hSuffix
    | some e =>
        rcases List.suffix_cons_iff.mp hSuffix with hEq | hOld
        · obtain ⟨rfl, rfl⟩ := List.cons.inj hEq
          exact hPermitted e rfl
        · exact h.permitted entry rest hOld

theorem JobInv.act (h : JobInv (core w.state) w.trace)
    (hJobs : (core state).jobs = (core w.state).jobs)
    (hClosed : (core w.state).closed = true → (core state).closed = true) :
    JobInv (core state) (w.act task event state).trace := by
  intro id epoch error hJob
  rw [hJobs] at hJob
  refine (h id epoch error hJob).imp_right (Or.imp hClosed ?_)
  rintro ⟨entry, hEntry, hFails⟩
  exact ⟨entry, suffix_act.subset hEntry, hFails⟩

theorem SameRepair.of_eq {c c' : Core} (h : c' = c) : SameRepair c c' := by
  subst h
  exact ⟨rfl, rfl, rfl, rfl, rfl⟩

theorem Progress.of_eq {c c' : Core} (h : c' = c) : Progress c c' := by
  subst h
  exact Progress.refl _

theorem Grows.act_same (hCore : core state = core w.state) : Grows w (w.act task event state) := by
  refine Grows.act (Progress.of_eq hCore) fun id epoch outcome hBefore hAfter => ?_
  rw [hCore, hBefore] at hAfter
  cases hAfter

/-- A mark, or an update outside the deciding fields. -/
theorem Inv.act_same (h : Inv w) (hCore : core state = core w.state)
    (hRepair : ∀ e ∈ event, e.isRepair = false)
    (hTeller : ∀ e ∈ event, e.isStory = true →
      task < w.started ∧ Lawful (e :: story task w.trace))
    (hPermitted : ∀ e ∈ event, Permitted ⟨task, e, state⟩ w.trace) :
    Inv (w.act task event state) := by
  have hClosed : (core state).closed = (core w.state).closed := by rw [hCore]
  exact h.act (Progress.of_eq hCore) hTeller hPermitted
    (h.repair.act hRepair (SameRepair.of_eq hCore) (by rw [hClosed]; exact id))
    (h.jobs.act (by rw [hCore]) (by rw [hClosed]; exact id)) (by rw [hCore]; exact h.flight)
    (by rw [hCore]; exact h.cancelling) (by rw [hClosed]; exact Or.inl)

theorem Rely.act_same {other : Nat} (hCore : core state = core w.state)
    (hStory : other ≠ task ∨ ∀ e ∈ event, e.isStory = false)
    (hRepair : ∀ e ∈ event, e.isRepair = false) :
    Rely other w (w.act task event state) :=
  Rely.act (Grows.act_same hCore) hStory hRepair (SameRepair.of_eq hCore)

/-- Without any task's action, the deciding fields being the same. -/
theorem Inv.of_core (h : Inv w) (hCore : core state = core w.state) : Inv { w with state } :=
  (h.act_same hCore (by simp) (by simp) (by simp) : Inv (w.act 0 none state))

theorem Rely.of_core {other : Nat} (hCore : core state = core w.state) :
    Rely other w { w with state } :=
  (Rely.act_same hCore (Or.inr (by simp)) (by simp) : Rely other w (w.act 0 none state))

variable (config : Config)

theorem act_same (h : Inv w) (hCore : core state = core w.state)
    (hRepair : ∀ e ∈ event, e.isRepair = false)
    (hTeller : ∀ e ∈ event, e.isStory = true →
      task < w.started ∧ Lawful (e :: story task w.trace))
    (hPermitted : ∀ e ∈ event, Permitted ⟨task, e, state⟩ w.trace) :
    (discipline config).Act task w (w.act task event state) :=
  ⟨h.act_same hCore hRepair hTeller hPermitted,
    fun _ hOther => Rely.act_same hCore (Or.inl hOther) hRepair⟩

/-- A mark, with what it has to say. -/
theorem act_mark (task : Nat) (event : Event) (h : Inv w) (hRepair : event.isRepair = false)
    (hTeller : event.isStory = true → task < w.started ∧ Lawful (event :: story task w.trace))
    (hPermitted : Permitted ⟨task, event, w.state⟩ w.trace) :
    (discipline config).Act task w (w.act task (some event) w.state) := by
  refine act_same config h rfl ?_ ?_ ?_ <;> rintro e ⟨⟩
  · exact hRepair
  · exact hTeller
  · exact hPermitted

end Pazuzu.Supervision
