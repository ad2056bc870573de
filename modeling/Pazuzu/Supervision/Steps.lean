import Pazuzu.Supervision.Actions

/-! The actions that change the deciding fields: taking and leaving the repair
lock, the steps of an adoption or a repair, and what happens to created tasks
and at shutdown. -/
namespace Pazuzu.Supervision

open Asyncio

variable (config : Config) {w : GatewayWorld} {task : Nat} {state : State}

section Repair

theorem RepairInv.idle {c : Core} {trace : History} (h : RepairInv c trace)
    (hFree : c.holder = none) : repairing trace = false := by
  cases hRepairing : repairing trace with
  | false => rfl
  | true =>
      have hHeld := (h.held hRepairing).1
      rw [hFree] at hHeld
      cases hHeld

theorem RepairInv.setHolder {c : Core} {trace : History} (h : RepairInv c trace)
    (hIdle : repairing trace = false) (holder : Option Nat) :
    RepairInv { c with holder } trace where
  connected := h.connected
  held := by simp [hIdle]
  reconnecting := h.reconnecting
  failed := h.failed
  unrecorded := h.unrecorded
  settled := h.settled
  counted := h.counted

theorem core_setHolder (state : State) (holder : Option Nat) :
    core (state.setLock .repair { state.lock .repair with holder }) =
      { core state with holder } := rfl

/-- Taking or leaving the lock while no repair runs. -/
theorem act_setHolder (hInv : Inv w) (hIdle : repairing w.trace = false) {holder : Option Nat}
    (hLock : (core w.state).holder = none ∨ (core w.state).holder = some task)
    (hCore : core state = { core w.state with holder }) :
    (discipline config).Act task w (w.act task none state) := by
  have hProgress : Progress (core w.state) (core state) := by
    rw [hCore]
    exact ⟨Nat.le_refl _, Nat.le_refl _, id, fun _ _ outcome h => ⟨outcome, h, fun _ => rfl⟩,
      fun h => Or.inl ⟨h, rfl⟩⟩
  have hGrows : Grows w (w.act task none state) := by
    refine Grows.act hProgress fun id epoch outcome hBefore hAfter => ?_
    rw [hCore, hBefore] at hAfter
    cases hAfter
  refine ⟨hInv.act hProgress (by simp) (by simp) ?_ ?_ ?_ ?_ ?_, fun other hOther => ?_⟩
  · rw [hCore]
    exact hInv.repair.setHolder hIdle holder
  · exact hInv.jobs.act (by rw [hCore]) (by rw [hCore]; exact id)
  · rw [hCore]
    exact hInv.flight
  · rw [hCore]
    exact hInv.cancelling
  · rw [hCore]
    exact Or.inl
  · refine Rely.act_locked hGrows hOther hLock fun hRepairing _ _ => ⟨hRepairing, ?_, Or.inl ?_⟩
    · rw [World.act_state, hCore]
    · rw [World.act_state, hCore]

theorem core_beginAdoption (state : State) :
    core state.beginAdoption = { core state with epoch := (core state).epoch + 1 } := rfl

theorem core_beginRepair (state : State) :
    core state.beginRepair =
      { core state with epoch := (core state).epoch + 1, connection := .reconnecting } := rfl

theorem core_recordConnected (state : State) :
    core state.recordConnected =
      { core state with
        generation := (core state).generation + 1, connection := .connected, failures := 0 } := rfl

theorem core_recordFailure (state : State) (detail : String) :
    core (state.recordFailure detail) =
      { core state with
        connection := classifyConnectionFailure detail, failures := (core state).failures + 1 } := rfl

@[simp] theorem core_setNextAttempt (state : State) (time : ℚ) :
    core (state.setNextAttempt time) = core state := rfl

theorem classify_cases (detail : String) :
    classifyConnectionFailure detail = .offline ∨
      classifyConnectionFailure detail = .authenticationRequired := by
  simp only [classifyConnectionFailure]
  split
  · exact Or.inr rfl
  · exact Or.inl rfl

theorem not_up_of_down {connection : ConnectionState}
    (h : connection = .offline ∨ connection = .authenticationRequired) :
    connection ≠ .connected ∧ connection ≠ .reconnecting := by
  rcases h with rfl | rfl <;> simp

/-- The holder's changes to epoch, generation, connection and failure count. -/
theorem act_repair {event : Event} (hInv : Inv w) (hHolder : (core w.state).holder = some task)
    (hStory : event.isStory = false)
    {epoch generation failures : Nat} {connection : ConnectionState}
    (hCore : core state = { core w.state with epoch, generation, failures, connection })
    (hProgress : Progress (core w.state) (core state))
    (hPermitted : Permitted ⟨task, event, state⟩ w.trace)
    (hRepair : RepairInv (core state) (⟨task, event, state⟩ :: w.trace))
    (hSteady : repairing w.trace = false → 1 ≤ (core w.state).generation →
      (core state).epoch = (core w.state).epoch → Kept w (w.act task (some event) state)) :
    (discipline config).Act task w (w.act task (some event) state) := by
  have hGrows : Grows w (w.act task (some event) state) := by
    refine Grows.act hProgress fun id epoch outcome hBefore hAfter => ?_
    rw [hCore, hBefore] at hAfter
    cases hAfter
  refine ⟨hInv.act hProgress ?_ ?_ hRepair ?_ ?_ ?_ ?_, fun other hOther => ?_⟩
  · rintro e ⟨⟩ hTells
    rw [hStory] at hTells
    cases hTells
  · rintro e ⟨⟩
    exact hPermitted
  · exact hInv.jobs.act (by rw [hCore]) (by rw [hCore]; exact id)
  · rw [hCore]
    exact hInv.flight
  · rw [hCore]
    exact hInv.cancelling
  · rw [hCore]
    exact Or.inl
  · exact Rely.act_locked hGrows hOther (Or.inr hHolder) hSteady

/-- No failure is recorded of an epoch that has only just begun. -/
theorem no_failure_ahead {epoch : Nat} (hInv : Inv w) (hEpoch : (core w.state).epoch < epoch)
    {event : Event} (hEvent : event.isFailure = false) :
    ¬FailureOf epoch (⟨task, event, state⟩ :: w.trace) := by
  rintro ⟨entry, hEntry, hFailure, rfl⟩
  rcases List.mem_cons.mp hEntry with rfl | hOld
  · rw [show event.isFailure = true from hFailure] at hEvent
    cases hEvent
  · exact absurd (hInv.past entry hOld).epoch (Nat.not_le.mpr hEpoch)

theorem epoch_ahead (hInv : Inv w) : ∀ other ∈ w.trace,
    (core other.state).epoch < (core w.state).epoch + 1 :=
  fun other hOther => Nat.lt_succ_of_le (hInv.past other hOther).epoch

theorem act_beginAdoption (hInv : Inv w) (hHolder : (core w.state).holder = some task)
    (hIdle : repairing w.trace = false) (hFirst : (core w.state).generation = 0) :
    (discipline config).Act task w (w.act task (some .adoptionBegan) w.state.beginAdoption) := by
  refine act_repair config hInv hHolder rfl (core_beginAdoption _) ?_ (epoch_ahead hInv) ?_ ?_
  · rw [core_beginAdoption]
    refine ⟨Nat.le_succ _, Nat.le_refl _, id, fun _ _ outcome h => ⟨outcome, h, fun _ => rfl⟩, ?_⟩
    intro hConnected
    have hPositive := hInv.repair.connected hConnected
    omega
  · rw [core_beginAdoption]
    exact
      { connected := hInv.repair.connected
        held := by simp [repairing, Event.isRepair, Event.endsRepair, hIdle]
        reconnecting := fun hState => (hInv.repair.reconnecting hState).imp
          (by simp [hIdle]) (Broken.mono · (List.suffix_cons _ _))
        failed := fun hGeneration => absurd hGeneration (by simp [hFirst])
        unrecorded := fun _ => no_failure_ahead hInv (Nat.lt_succ_self _) rfl
        settled := by
          intro entry hEntry hBegan
          rcases List.mem_cons.mp hEntry with rfl | hOld
          · cases hBegan
          · rcases hInv.repair.settled entry hOld hBegan with hRunning | hBroken | hEnded
            · rw [hIdle] at hRunning
              cases hRunning.2
            · exact Or.inr (Or.inl (hBroken.mono (List.suffix_cons _ _)))
            · obtain ⟨ending, hEnding, hRest⟩ := hEnded
              exact Or.inr (Or.inr ⟨ending, List.mem_cons_of_mem _ hEnding, hRest⟩)
        counted := hInv.repair.counted }
  · intro _ _ hEpoch
    rw [core_beginAdoption] at hEpoch
    exact absurd hEpoch (Nat.succ_ne_self _)

theorem act_beginRepair (hInv : Inv w) (hHolder : (core w.state).holder = some task)
    (hIdle : repairing w.trace = false) :
    (discipline config).Act task w (w.act task (some .repairBegan) w.state.beginRepair) := by
  refine act_repair config hInv hHolder rfl (core_beginRepair _) ?_ (epoch_ahead hInv) ?_ ?_
  · rw [core_beginRepair]
    exact ⟨Nat.le_succ _, Nat.le_refl _, id, fun _ _ outcome h => ⟨outcome, h, fun _ => rfl⟩,
      fun h => by cases h⟩
  · rw [core_beginRepair]
    exact
      { connected := fun h => by cases h
        held := fun _ => ⟨by simp [hHolder], Or.inl rfl⟩
        reconnecting := fun _ => Or.inl rfl
        failed := fun _ _ hDown => absurd rfl hDown
        unrecorded := fun _ => no_failure_ahead hInv (Nat.lt_succ_self _) rfl
        settled := by
          intro entry hEntry hBegan
          rcases List.mem_cons.mp hEntry with rfl | hOld
          · exact Or.inl ⟨by rw [core_beginRepair], rfl⟩
          · rcases hInv.repair.settled entry hOld hBegan with hRunning | hBroken | hEnded
            · rw [hIdle] at hRunning
              cases hRunning.2
            · exact Or.inr (Or.inl (hBroken.mono (List.suffix_cons _ _)))
            · obtain ⟨ending, hEnding, hRest⟩ := hEnded
              exact Or.inr (Or.inr ⟨ending, List.mem_cons_of_mem _ hEnding, hRest⟩)
        counted := hInv.repair.counted }
  · intro _ _ hEpoch
    rw [core_beginRepair] at hEpoch
    exact absurd hEpoch (Nat.succ_ne_self _)

/-- Once a repair has ended, it is among the settled ones. -/
theorem settled_of_ending {event : Event} (hInv : Inv w)
    (hEpoch : (core state).epoch = (core w.state).epoch)
    (hEvent : event = .masterConnected ∨ event = .failureRecorded) :
    ∀ entry ∈ (⟨task, event, state⟩ :: w.trace : History), entry.event = .repairBegan →
      ((core entry.state).epoch = (core state).epoch ∧
        repairing (⟨task, event, state⟩ :: w.trace) = true) ∨
      Broken (⟨task, event, state⟩ :: w.trace) ∨
      ∃ ending ∈ (⟨task, event, state⟩ :: w.trace : History),
        (core ending.state).epoch = (core entry.state).epoch ∧
        (ending.event = .masterConnected ∨ ending.event = .failureRecorded) := by
  intro entry hEntry hBegan
  rcases List.mem_cons.mp hEntry with rfl | hOld
  · rcases hEvent with rfl | rfl <;> cases hBegan
  · rcases hInv.repair.settled entry hOld hBegan with hRunning | hBroken | hEnded
    · exact Or.inr (Or.inr ⟨_, List.mem_cons_self, hEpoch.trans hRunning.1.symm, hEvent⟩)
    · exact Or.inr (Or.inl (hBroken.mono (List.suffix_cons _ _)))
    · obtain ⟨ending, hEnding, hRest⟩ := hEnded
      exact Or.inr (Or.inr ⟨ending, List.mem_cons_of_mem _ hEnding, hRest⟩)

theorem act_recordConnected (hInv : Inv w) (hHolder : (core w.state).holder = some task)
    (hBusy : repairing w.trace = true ∨ (core w.state).generation = 0) :
    (discipline config).Act task w
      (w.act task (some .masterConnected) w.state.recordConnected) := by
  refine act_repair config hInv hHolder rfl (core_recordConnected _) ?_ ?_ ?_ ?_
  · rw [core_recordConnected]
    exact ⟨Nat.le_refl _, Nat.le_succ _, id, fun _ _ outcome h => ⟨outcome, h, fun _ => rfl⟩,
      fun _ => Or.inr (Nat.lt_succ_self _)⟩
  · refine ⟨by rw [core_recordConnected], fun other hOther => ?_⟩
    have hPast := (hInv.past other hOther).generation
    simp only [core_recordConnected]
    omega
  · rw [core_recordConnected]
    exact
      { connected := fun _ => Nat.le_add_left 1 _
        held := by simp [repairing, Event.isRepair, Event.endsRepair]
        reconnecting := fun h => by cases h
        failed := fun _ h => absurd rfl h
        unrecorded := fun h => by cases h
        settled := settled_of_ending hInv rfl (Or.inl rfl)
        counted := rfl }
  · intro hIdle hGeneration
    rcases hBusy with hRepairing | hFirst
    · rw [hIdle] at hRepairing
      cases hRepairing
    · omega

theorem act_failureRecorded (hInv : Inv w) (hHolder : (core w.state).holder = some task)
    (hRepairing : repairing w.trace = true) (detail : String) {delay : Nat}
    (hDelay : boundedBackoff (w.state.sup.failures + 1) = some delay) :
    (discipline config).Act task w (w.act task (some .failureRecorded)
      ((w.state.recordFailure detail).setNextAttempt (w.state.os.clock + delay))) := by
  have hCore : core ((w.state.recordFailure detail).setNextAttempt (w.state.os.clock + delay)) =
      { core w.state with
        connection := classifyConnectionFailure detail
        failures := (core w.state).failures + 1 } := rfl
  have hDown := classify_cases detail
  refine act_repair config hInv hHolder rfl hCore ?_ ?_ ?_ ?_
  · rw [hCore]
    refine ⟨Nat.le_refl _, Nat.le_refl _, id, fun _ _ outcome h => ⟨outcome, h, fun _ => rfl⟩, ?_⟩
    intro hConnected
    exact absurd hConnected (not_up_of_down hDown).1
  · exact ⟨by rw [hCore]; exact hDown, congrArg (· + 1) hInv.repair.counted, delay, hDelay, rfl⟩
  · rw [hCore]
    exact
      { connected := fun h => absurd h (not_up_of_down hDown).1
        held := by simp [repairing, Event.isRepair, Event.endsRepair]
        reconnecting := fun h => absurd h (not_up_of_down hDown).2
        failed := fun _ _ _ => Or.inr ⟨_, List.mem_cons_self, rfl, rfl⟩
        unrecorded := fun h => absurd h (not_up_of_down hDown).2
        settled := settled_of_ending hInv rfl (Or.inr rfl)
        counted := congrArg (· + 1) hInv.repair.counted }
  · intro hIdle
    rw [hIdle] at hRepairing
    cases hRepairing

theorem act_backoffOverflowed (hInv : Inv w) (hHolder : (core w.state).holder = some task)
    (hRepairing : repairing w.trace = true) (detail : String)
    (hNoDelay : boundedBackoff (w.state.sup.failures + 1) = none) :
    (discipline config).Act task w
      (w.act task (some .backoffOverflowed) (w.state.recordFailure detail)) := by
  have hDown := classify_cases detail
  have hBroken : Broken (⟨task, .backoffOverflowed, w.state.recordFailure detail⟩ :: w.trace) :=
    ⟨_, _, List.suffix_rfl, ⟨.start, Or.inl rfl⟩, hHolder, hRepairing⟩
  refine act_repair config hInv hHolder rfl (core_recordFailure _ _) ?_
    ⟨congrArg (· + 1) hInv.repair.counted, hNoDelay⟩ ?_ ?_
  · rw [core_recordFailure]
    exact ⟨Nat.le_refl _, Nat.le_refl _, id, fun _ _ outcome h => ⟨outcome, h, fun _ => rfl⟩,
      fun h => absurd h (not_up_of_down hDown).1⟩
  · rw [core_recordFailure]
    exact
      { connected := fun h => absurd h (not_up_of_down hDown).1
        held := by simp [repairing, Event.isRepair, Event.endsRepair]
        reconnecting := fun h => absurd h (not_up_of_down hDown).2
        failed := fun _ _ _ => Or.inr ⟨_, List.mem_cons_self, rfl, rfl⟩
        unrecorded := fun h => absurd h (not_up_of_down hDown).2
        settled := fun _ _ _ => Or.inr (Or.inl hBroken)
        counted := congrArg (· + 1) hInv.repair.counted }
  · intro hIdle
    rw [hIdle] at hRepairing
    cases hRepairing

theorem act_repairAborted (hInv : Inv w) (hHolder : (core w.state).holder = some task)
    (hBroken : Broken w.trace) (error : Error) :
    (discipline config).Act task w (w.act task (some (.repairAborted error)) w.state) := by
  have hBroken' := hBroken.mono (List.suffix_cons ⟨task, .repairAborted error, w.state⟩ w.trace)
  have hOlder : FailureOf (core w.state).epoch (w.act task (some (.repairAborted error)) w.state).trace →
      FailureOf (core w.state).epoch w.trace := fun hFailure => hFailure.of_act (by rintro e ⟨⟩; rfl)
  refine act_repair config hInv hHolder rfl rfl (Progress.refl _) hBroken ?_ ?_
  · exact
      { connected := hInv.repair.connected
        held := by simp [repairing, Event.isRepair, Event.endsRepair]
        reconnecting := fun _ => Or.inr hBroken'
        failed := fun hGeneration hUp hDown => (hInv.repair.failed hGeneration hUp hDown).imp_right
          (FailureOf.mono · (List.suffix_cons _ _))
        unrecorded := fun hState hFailure => hInv.repair.unrecorded hState (hOlder hFailure)
        settled := fun _ _ _ => Or.inr (Or.inl hBroken')
        counted := hInv.repair.counted }
  · exact fun _ _ _ => ⟨rfl, rfl, Or.inl rfl⟩

end Repair

section Jobs

/-- An action on the created tasks, away from the repair fields. -/
theorem act_jobs {event : Option Event} (hInv : Inv w)
    (hSame : SameRepair (core w.state) (core state))
    (hClosed : (core state).closed = (core w.state).closed)
    (hProgress : Progress (core w.state) (core state))
    (hEvent : ∀ e ∈ event, e.isRepair = false ∧ e.isStory = false ∧
      Permitted ⟨task, e, state⟩ w.trace)
    (hProbes : ∀ (id epoch : Nat) outcome, (core w.state).jobs[id]? = some (.probe epoch, none) →
      (core state).jobs[id]? = some (.probe epoch, some (.ok (some outcome))) →
      event = some (.probeFinished epoch outcome))
    (hJobs : JobInv (core state) (w.act task event state).trace) (hFlight : FlightInv (core state))
    (hCancelling : (core state).cancelling = true → (core state).closed = true) :
    (discipline config).Act task w (w.act task event state) ∧
      ∀ other, Rely other w (w.act task event state) := by
  have hGrows : Grows w (w.act task event state) := Grows.act hProgress hProbes
  have hRely : ∀ other, Rely other w (w.act task event state) := fun other =>
    Rely.act hGrows (Or.inr fun e he => (hEvent e he).2.1) (fun e he => (hEvent e he).1) hSame
  refine ⟨⟨hInv.act hProgress ?_ (fun e he => (hEvent e he).2.2) ?_ hJobs hFlight hCancelling ?_,
    fun other _ => hRely other⟩, hRely⟩
  · intro e he hTells
    rw [(hEvent e he).2.1] at hTells
    cases hTells
  · exact hInv.repair.act (fun e he => (hEvent e he).1) hSame (by rw [hClosed]; exact id)
  · rw [hClosed]
    exact Or.inl

theorem core_createJob (state : State) (kind : JobKind) :
    core (state.createJob kind) = { core state with jobs := (core state).jobs ++ [(kind, none)] } := by
  simp [core, State.createJob]

/-- A created task may become the probe in flight. -/
theorem act_createJob (task : Nat) (hInv : Inv w) (kind : JobKind) {flight : Option (Nat × Nat)}
    (hCore : core state =
      { core w.state with jobs := (core w.state).jobs ++ [(kind, none)], flight })
    (hFlight : flight = (core w.state).flight ∨
      ∃ epoch, kind = .probe epoch ∧ flight = some (epoch, (core w.state).jobs.length)) :
    (discipline config).Act task w (w.act task none state) ∧
      ∀ other, Rely other w (w.act task none state) := by
  have hOld : ∀ (id : Nat) job, (core w.state).jobs[id]? = some job →
      (core state).jobs[id]? = some job := by
    intro id job hJob
    rw [hCore]
    exact (List.getElem?_append_left (List.getElem?_eq_some_iff.mp hJob).1).trans hJob
  refine act_jobs config hInv (by rw [hCore]; exact ⟨rfl, rfl, rfl, rfl, rfl⟩) (by rw [hCore]) ?_
    (by simp) ?_ ?_ ?_ (by rw [hCore]; exact hInv.cancelling)
  · refine ⟨?_, ?_, ?_, fun id kind outcome hJob => ⟨outcome, hOld id _ hJob, fun _ => rfl⟩, ?_⟩
    · rw [hCore]
    · rw [hCore]
    · rw [hCore]
      exact id
    · rw [hCore]
      exact fun h => Or.inl ⟨h, rfl⟩
  · intro id epoch outcome hBefore hAfter
    rw [hOld id _ hBefore] at hAfter
    cases hAfter
  · intro id epoch error hJob
    rw [hCore] at hJob ⊢
    rw [List.getElem?_append] at hJob
    split at hJob
    · exact hInv.jobs id epoch error hJob
    · have hNew := List.mem_singleton.mp (List.mem_of_getElem? hJob)
      cases hNew
  · rintro epoch id hIn
    rcases hFlight with hSame | ⟨epoch', rfl, hNew⟩
    · rw [hCore] at hIn
      obtain ⟨outcome, hJob⟩ := hInv.flight epoch id (hSame ▸ hIn)
      exact ⟨outcome, hOld id _ hJob⟩
    · rw [hCore] at hIn ⊢
      obtain ⟨rfl, rfl⟩ : epoch' = epoch ∧ (core w.state).jobs.length = id := by
        simpa using hNew.symm.trans hIn
      exact ⟨none, by simp⟩

theorem jobs_settle (jobs : List Job) (id : Nat) (result : Except Error (Option ProbeOutcome)) :
    ((jobs.modify id fun job => { job with outcome := some (job.outcome.getD result) }).map
      fun job => (job.kind, job.outcome)) =
    (jobs.map fun job => (job.kind, job.outcome)).modify id fun job =>
      (job.1, some (job.2.getD result)) := by
  induction jobs generalizing id with
  | nil => simp
  | cons job rest ih => cases id <;> simp [ih]

theorem cancelling_modify (jobs : List Job) (id : Nat) (change : Job → Job)
    (h : ∀ job, (change job).cancelling = job.cancelling) :
    (jobs.modify id change).any Job.cancelling = jobs.any Job.cancelling := by
  induction jobs generalizing id with
  | nil => simp
  | cons job rest ih => cases id <;> simp [ih, h]

theorem core_settleJob (state : State) (id : Nat) (result : Except Error (Option ProbeOutcome)) :
    core (state.settleJob id result) =
      { core state with jobs := (core state).jobs.modify id fun job =>
          (job.1, some (job.2.getD result)) } := by
  simp only [core, State.settleJob, jobs_settle]
  congr 1
  exact cancelling_modify _ _ _ fun _ => rfl

/-- A task's end is its outcome, unless it had one. -/
theorem act_settleJob (task : Nat) (event : Option Event) (hInv : Inv w) (id : Nat)
    (result : Except Error (Option ProbeOutcome))
    (hEvent : ∀ e ∈ event, ∃ epoch outcome, e = .probeFinished epoch outcome)
    (hOk : ∀ epoch outcome, (core w.state).jobs[id]? = some (.probe epoch, none) →
      result = .ok (some outcome) → event = some (.probeFinished epoch outcome))
    (hError : ∀ epoch error, (core w.state).jobs[id]? = some (.probe epoch, none) →
      result = .error error → error.isPazuzu = false ∧
        ((core w.state).closed = true ∨ ∃ entry ∈ w.trace, entry.event.fails = true)) :
    (discipline config).Act task w (w.act task event (w.state.settleJob id result)) ∧
      ∀ other, Rely other w (w.act task event (w.state.settleJob id result)) := by
  have hCore := core_settleJob w.state id result
  have hAt : ∀ other : Nat, (core (w.state.settleJob id result)).jobs[other]? =
      if other = id then ((core w.state).jobs[other]?).map fun job => (job.1, some (job.2.getD result))
      else (core w.state).jobs[other]? := by
    intro other
    rw [hCore]
    simp only [List.getElem?_modify, eq_comm]
    split <;> simp
  refine act_jobs config hInv (by rw [hCore]; exact ⟨rfl, rfl, rfl, rfl, rfl⟩) (by rw [hCore]) ?_ ?_ ?_ ?_
    ?_ (by rw [hCore]; exact hInv.cancelling)
  · refine ⟨by rw [hCore], by rw [hCore], by rw [hCore]; exact fun h => h, ?_, ?_⟩
    · intro other kind outcome hJob
      rw [hAt]
      split
      · refine ⟨some (outcome.getD result), by rw [hJob]; rfl, fun hSome => ?_⟩
        obtain ⟨settled, rfl⟩ := Option.isSome_iff_exists.mp hSome
        rfl
      · exact ⟨outcome, hJob, fun _ => rfl⟩
    · rw [hCore]
      exact fun h => Or.inl ⟨h, rfl⟩
  · intro e he
    obtain ⟨epoch, outcome, rfl⟩ := hEvent e he
    exact ⟨rfl, rfl, trivial⟩
  · intro other epoch outcome hBefore hAfter
    rw [hAt] at hAfter
    split at hAfter
    · next hSame =>
        subst hSame
        rw [hBefore] at hAfter
        exact hOk epoch outcome hBefore (by simpa using hAfter)
    · rw [hBefore] at hAfter
      cases hAfter
  · intro other epoch error hJob
    rw [hAt] at hJob
    have hOld : (core w.state).jobs[other]? = some (.probe epoch, some (.error error)) ∨
        (other = id ∧ (core w.state).jobs[other]? = some (.probe epoch, none) ∧
          result = .error error) := by
      split at hJob
      · next hSame =>
          obtain ⟨⟨kind, outcome⟩, hSome, hJob⟩ := Option.map_eq_some_iff.mp hJob
          cases outcome with
          | none =>
              simp only [Option.getD_none, Prod.mk.injEq, Option.some.injEq] at hJob
              exact Or.inr ⟨hSame, by rw [hSome, hJob.1], hJob.2⟩
          | some settled =>
              simp only [Option.getD_some, Prod.mk.injEq, Option.some.injEq] at hJob
              exact Or.inl (by rw [hSome, hJob.1, hJob.2])
      · exact Or.inl hJob
    have hWhy : error.isPazuzu = false ∧
        ((core w.state).closed = true ∨ ∃ entry ∈ w.trace, entry.event.fails = true) := by
      rcases hOld with hOld | ⟨rfl, hNone, hResult⟩
      · exact hInv.jobs other epoch error hOld
      · exact hError epoch error hNone hResult
    refine hWhy.imp_right (Or.imp (by rw [hCore]; exact fun h => h) ?_)
    rintro ⟨entry, hEntry, hFails⟩
    exact ⟨entry, suffix_act.subset hEntry, hFails⟩
  · intro epoch other hIn
    obtain ⟨outcome, hJob⟩ := hInv.flight epoch other (by rw [hCore] at hIn; exact hIn)
    rw [hAt]
    split
    · exact ⟨some (outcome.getD result), by rw [hJob]; rfl⟩
    · exact ⟨outcome, hJob⟩

theorem jobs_modify_cancelling (jobs : List Job) (id : Nat) (change : Job → Bool) :
    ((jobs.modify id fun job => { job with cancelling := change job }).map
      fun job => (job.kind, job.outcome)) = jobs.map fun job => (job.kind, job.outcome) := by
  induction jobs generalizing id with
  | nil => simp
  | cons job rest ih => cases id <;> simp [ih]

/-- Ordering a cancellation, or delivering it, at shutdown. -/
theorem act_cancelling (task : Nat) (event : Option Event) (hInv : Inv w) {cancelling : Bool}
    (hCore : core state = { core w.state with cancelling })
    (hClosed : (core w.state).closed = true)
    (hEvent : ∀ e ∈ event, ∃ op error, e = .interrupted op error ∨ e = .rethrown op error) :
    (discipline config).Act task w (w.act task event state) ∧
      ∀ other, Rely other w (w.act task event state) := by
  refine act_jobs config hInv (by rw [hCore]; exact ⟨rfl, rfl, rfl, rfl, rfl⟩) (by rw [hCore]) ?_ ?_ ?_ ?_
    (by rw [hCore]; exact hInv.flight) (by rw [hCore]; exact fun _ => hClosed)
  · rw [hCore]
    exact ⟨Nat.le_refl _, Nat.le_refl _, id, fun _ _ outcome h => ⟨outcome, h, fun _ => rfl⟩,
      fun h => Or.inl ⟨h, rfl⟩⟩
  · intro e he
    have hState : (core state).closed = true := by rw [hCore]; exact hClosed
    obtain ⟨op, error, rfl | rfl⟩ := hEvent e he
    · refine ⟨rfl, rfl, ?_⟩
      unfold Permitted
      split <;> simp_all
    · exact ⟨rfl, rfl, trivial⟩
  · intro id epoch outcome hBefore hAfter
    rw [hCore, hBefore] at hAfter
    cases hAfter
  · exact hInv.jobs.act (by rw [hCore]) (by rw [hCore]; exact fun h => h)

end Jobs

section Shutdown

/-- `close` and `detach` begin by marking the gateway closed. -/
theorem act_shutdown (task : Nat) (hInv : Inv w)
    (hCore : core state = { core w.state with closed := true, flight := none })
    (hCalled : ∃ entry ∈ w.trace, entry.event = .called .close ∨ entry.event = .called .detach) :
    (discipline config).Act task w (w.act task none state) ∧
      ∀ other, Rely other w (w.act task none state) := by
  have hSame : SameRepair (core w.state) (core state) := by
    rw [hCore]
    exact ⟨rfl, rfl, rfl, rfl, rfl⟩
  have hProgress : Progress (core w.state) (core state) := by
    rw [hCore]
    exact ⟨Nat.le_refl _, Nat.le_refl _, fun _ => rfl,
      fun _ _ outcome h => ⟨outcome, h, fun _ => rfl⟩, fun h => Or.inl ⟨h, rfl⟩⟩
  have hGrows : Grows w (w.act task none state) := by
    refine Grows.act hProgress fun id epoch outcome hBefore hAfter => ?_
    rw [hCore, hBefore] at hAfter
    cases hAfter
  have hRely : ∀ other, Rely other w (w.act task none state) := fun other =>
    Rely.act hGrows (Or.inr (by simp)) (by simp) hSame
  refine ⟨⟨hInv.act hProgress (by simp) (by simp) ?_ ?_ ?_ ?_ fun _ => Or.inr hCalled,
    fun other _ => hRely other⟩, hRely⟩
  · exact hInv.repair.act (by simp) hSame (by rw [hCore]; exact fun _ => rfl)
  · exact hInv.jobs.act (by rw [hCore]) (by rw [hCore]; exact fun _ => rfl)
  · simp [FlightInv, hCore]
  · rw [hCore]
    exact fun _ => rfl

theorem core_setState (state : State) (connection : ConnectionState) :
    core (state.setState connection) = { core state with connection } := rfl

theorem grows_setState {connection : ConnectionState} (hNot : connection ≠ .connected) :
    Grows w (w.act task none (w.state.setState connection)) := by
  refine Grows.act ?_ fun id epoch outcome hBefore hAfter => ?_
  · rw [core_setState]
    exact ⟨Nat.le_refl _, Nat.le_refl _, id, fun _ _ outcome h => ⟨outcome, h, fun _ => rfl⟩,
      fun h => absurd h hNot⟩
  · rw [core_setState, hBefore] at hAfter
    cases hAfter

/-- The last act of `close`, under the lock, and of `detach`, without it. -/
theorem act_setState (task : Nat) (hInv : Inv w) (hClosed : (core w.state).closed = true)
    {connection : ConnectionState}
    (hState : connection = .detached ∨
      connection = .stopped ∧ (core w.state).holder = some task) :
    (discipline config).Act task w (w.act task none (w.state.setState connection)) := by
  have hNot : connection ≠ .connected ∧ connection ≠ .reconnecting := by
    rcases hState with rfl | ⟨rfl, -⟩ <;> simp
  have hCore := core_setState w.state connection
  have hGrows : Grows w (w.act task none (w.state.setState connection)) := grows_setState hNot.1
  have hProgress : Progress (core w.state) (core (w.state.setState connection)) := by
    simpa using hGrows.progress
  refine ⟨hInv.act hProgress (by simp) (by simp) ?_ ?_ ?_ ?_ ?_, fun other hOther => ?_⟩
  · rw [hCore]
    exact
      { connected := fun h => absurd h hNot.1
        held := fun hRepairing =>
          (hInv.repair.held hRepairing).imp_right fun _ => Or.inr ⟨hClosed, hNot.1⟩
        reconnecting := fun h => absurd h hNot.2
        failed := fun _ _ _ => Or.inl hClosed
        unrecorded := fun h => absurd h hNot.2
        settled := hInv.repair.settled
        counted := hInv.repair.counted }
  · exact hInv.jobs.act (by rw [hCore]) (by rw [hCore]; exact id)
  · rw [hCore]
    exact hInv.flight
  · rw [hCore]
    exact hInv.cancelling
  · rw [hCore]
    exact Or.inl
  · refine ⟨hGrows, story_act (Or.inl hOther), fun hHolder => ?_, fun hIdle _ _ => ?_⟩
    · rcases hState with rfl | ⟨-, hMine⟩
      · exact ⟨hHolder, rfl, rfl, rfl, Or.inr ⟨hClosed, rfl⟩, fun _ _ h => absurd h since_self⟩
      · rw [hMine] at hHolder
        exact absurd (Option.some.inj hHolder).symm hOther
    · exact ⟨hIdle, rfl, Or.inr hClosed⟩

end Shutdown
end Pazuzu.Supervision
