import Pazuzu.Supervision.Steps

/-! Every answer of the surroundings respects the discipline, and so does code
that stays away from the deciding fields. -/
namespace Pazuzu.Supervision

open Asyncio

variable {config : Config} {w : GatewayWorld} {task : Nat}

theorem core_os (state : State) (os : Os) : core { state with os } = core state := rfl

/-- A normal answer changes nothing but the operating system. -/
theorem core_returns {state after : State} {wait : Wait} {reply : wait.Reply}
    (h : Host.returns config task state wait reply = some after) : core after = core state := by
  rcases Host.returns_cases h with rfl | ⟨argv, pid, os, -, -, rfl⟩
  · rfl
  · rfl

theorem core_abandon (wait : Wait) (state : State) : core (Host.abandon wait state) = core state := by
  cases wait <;> rfl

theorem cancel_job {id : Nat} {state after : State} (h : Host.cancel (.job id) state = some after) :
    (core state).cancelling = true := by
  simp only [Host.cancel, Option.ite_none_right_eq_some] at h
  obtain ⟨job, hJob, hCancelling⟩ := (Option.any_eq_true _ _).mp h.1
  exact List.any_eq_true.mpr ⟨job, List.mem_of_getElem? hJob, hCancelling⟩

/-- A cancellation changes at most the order that it carries out. -/
theorem core_cancel {op : Op} {state after : State} (h : Host.cancel op state = some after) :
    core after = core state ∨
      ((core state).cancelling = true ∧ ∃ cancelling, core after = { core state with cancelling }) := by
  cases op with
  | job id =>
      refine Or.inr ⟨cancel_job h, (core after).cancelling, ?_⟩
      simp only [Host.cancel, Option.ite_none_right_eq_some, Option.some.injEq] at h
      rw [← h.2]
      simp only [core, jobs_modify_cancelling]
  | _ =>
      left
      cases h
      rfl

theorem raises_cancelled {wait : Wait} {state : State} (h : Host.raises wait .cancelled state = true) :
    (∃ id, wait = .probe id) ∨ ∃ id, wait = .settled id := by
  cases wait with
  | probe id => exact Or.inl ⟨id, rfl⟩
  | settled id => exact Or.inr ⟨id, rfl⟩
  | _ => cases h

theorem note_plain (op : Op) (wait : Wait) (reply : Except Error wait.Reply) :
    ∀ e ∈ Host.note op wait reply, e.isRepair = false ∧ e.isStory = false := by
  intro e he
  cases reply with
  | ok value => cases he
  | error error =>
      simp only [Host.note] at he
      split at he <;> cases he <;> exact ⟨rfl, rfl⟩

/-- An answer that leaves the deciding fields alone. -/
theorem answer_same (op : Op) (wait : Wait) (reply : Except Error wait.Reply) {state : State}
    (hInv : Inv w) (hCore : core state = core w.state)
    (hPermitted : ∀ e ∈ Host.note op wait reply, Permitted ⟨task, e, state⟩ w.trace) :
    (discipline config).Act task w (w.act task (Host.note op wait reply) state) ∧
      Rely task w (w.act task (Host.note op wait reply) state) := by
  have hPlain := note_plain op wait reply
  refine ⟨act_same config hInv hCore (fun e he => (hPlain e he).1) ?_ hPermitted,
    Rely.act_same hCore (Or.inr fun e he => (hPlain e he).2) fun e he => (hPlain e he).1⟩
  intro e he hStory
  rw [(hPlain e he).2] at hStory
  cases hStory

/-- Only a cancellation of a created task has to be accounted for. -/
theorem note_permitted {op : Op} {wait : Wait} {reply : Except Error wait.Reply} {state : State}
    (h : ∀ id, op = .job id → reply = .error .cancelled →
      (∃ id, wait = .probe id) ∨ (∃ id, wait = .settled id) ∨ (core state).closed = true) :
    ∀ e ∈ Host.note op wait reply, Permitted ⟨task, e, state⟩ w.trace := by
  intro e he
  cases reply with
  | ok value => cases he
  | error error =>
      cases op with
      | job id =>
          cases error with
          | cancelled =>
              rcases h id rfl rfl with ⟨other, rfl⟩ | ⟨other, rfl⟩ | hClosed
              · cases he
                trivial
              · cases he
                trivial
              · simp only [Host.note] at he
                split at he <;> cases he
                · trivial
                · trivial
                · exact hClosed
          | _ =>
              simp only [Host.note] at he
              split at he <;> cases he <;> trivial
      | _ =>
          simp only [Host.note] at he
          split at he <;> cases he <;> trivial

theorem answers : (discipline config).Answers := by
  intro op task wait reply world state hInv hDeliver
  cases reply with
  | ok value =>
      exact answer_same op wait (.ok value) hInv (core_returns hDeliver)
        (note_permitted fun _ _ h => by cases h)
  | error error =>
      simp only [gateway, Host.deliver] at hDeliver
      split at hDeliver
      · next hRaises =>
          cases hDeliver
          refine answer_same op wait (.error error) hInv rfl (note_permitted fun _ _ hError => ?_)
          cases hError
          exact (raises_cancelled hRaises).imp_right Or.inl
      · split at hDeliver
        · next hError =>
            subst hError
            obtain ⟨middle, hCancel, rfl⟩ := Option.map_eq_some_iff.mp hDeliver
            have hJob : ∀ id, op = .job id → (core world.state).closed = true := by
              rintro id rfl
              exact hInv.cancelling (cancel_job hCancel)
            rcases core_cancel hCancel with hSame | ⟨hOrdered, cancelling, hCore⟩
            · have hAll := (core_abandon wait middle).trans hSame
              refine answer_same op wait (.error .cancelled) hInv hAll (note_permitted fun id hOp _ => ?_)
              rw [hAll]
              exact Or.inr (Or.inr (hJob id hOp))
            · have hAll := (core_abandon wait middle).trans hCore
              obtain ⟨hAct, hRely⟩ := act_cancelling config task
                (Host.note op wait (.error .cancelled)) hInv hAll
                (hInv.cancelling hOrdered) (by
                  intro e he
                  simp only [Host.note] at he
                  split at he <;> cases he
                  · exact ⟨_, _, Or.inr rfl⟩
                  · exact ⟨_, _, Or.inr rfl⟩
                  · exact ⟨_, _, Or.inl rfl⟩)
              exact ⟨hAct, hRely task⟩
        · cases hDeliver

/-- Code outside the supervisor's own bookkeeping. -/
def frame (config : Config) : Frame (gateway config) where
  step := fun before after => core after = core before
  event := fun event => event.isBackground = true
  disturbs := fun op event => event.disturbs op

theorem background_plain {event : Event} (h : event.isBackground = true) (entry : Record)
    (hEntry : entry.event = event) (rest : History) :
    event.isRepair = false ∧ event.isStory = false ∧ Permitted entry rest := by
  obtain ⟨task, e, state⟩ := entry
  subst hEntry
  cases e <;> first | exact ⟨rfl, rfl, trivial⟩ | cases h

theorem frame_fits : (frame config).Fits (discipline config) where
  act := by
    intro task world event state hInv hStep hEvent
    have hPlain : ∀ e ∈ event, e.isRepair = false ∧ e.isStory = false ∧
        Permitted ⟨task, e, state⟩ world.trace := fun e he =>
      background_plain (hEvent e he) ⟨task, e, state⟩ rfl world.trace
    refine ⟨act_same config hInv hStep (fun e he => (hPlain e he).1) ?_ fun e he => (hPlain e he).2.2,
      Rely.act_same hStep (Or.inr fun e he => (hPlain e he).2.1) fun e he => (hPlain e he).1⟩
    intro e he hStory
    rw [(hPlain e he).2.1] at hStory
    cases hStory
  answers := answers
  keeps := fun _ _ _ hRely => hRely.grows.history

/-- What happens on its own concerns the operating system only. -/
theorem disturb_same {move : Move} {state : State} (hInv : Inv w)
    (hMove : (gateway config).disturb move w.state = some state) :
    Inv { w with state } ∧ ∀ task, Rely task w { w with state } := by
  obtain ⟨os, -, rfl⟩ := Option.map_eq_some_iff.mp hMove
  exact ⟨hInv.of_core (core_os _ os), fun task => Rely.of_core (core_os _ os)⟩

theorem core_accept {op : Op} {state after : State} (h : Host.accept op state = some after) :
    core after = core state := by
  cases op with
  | job id =>
      simp only [Host.accept, Option.ite_none_right_eq_some, Option.some.injEq] at h
      rw [← h.2]
      have hJobs : ∀ (jobs : List Job) (id : Nat),
          ((jobs.modify id fun job => { job with started := true }).map
            fun job => (job.kind, job.outcome)) = jobs.map fun job => (job.kind, job.outcome) := by
        intro jobs
        induction jobs with
        | nil => simp
        | cons job rest ih => intro id; cases id <;> simp [ih]
      simp only [core, hJobs]
      congr 1
      exact cancelling_modify _ _ _ fun _ => rfl
  | _ =>
      cases h
      rfl

/-- A new task tells its story from the beginning. -/
theorem start_same {op : Op} {state : State} (hInv : Inv w)
    (hAccept : (gateway config).accept op w.state = some state) :
    (discipline config).Act w.started w { w with state, started := w.started + 1 } ∧
      story w.started w.trace = [] := by
  have hCore := core_accept hAccept
  have hSame := hInv.of_core hCore
  refine ⟨⟨?_, fun other _ => ?_⟩, ?_⟩
  · exact
      { tellers := fun entry hEntry hStory => Nat.lt_succ_of_lt (hInv.tellers entry hEntry hStory)
        past := hSame.past
        ordered := hSame.ordered
        repair := hSame.repair
        jobs := hSame.jobs
        flight := hSame.flight
        cancelling := hSame.cancelling
        shutdown := hSame.shutdown
        lawful := hSame.lawful
        permitted := hSame.permitted }
  · have hRely : Rely other w { w with state } := Rely.of_core hCore
    exact
      { grows :=
          { started := Nat.le_succ _
            progress := hRely.grows.progress
            history := hRely.grows.history
            entries := hRely.grows.entries
            probes := hRely.grows.probes }
        story := rfl
        held := fun hHolder =>
          { holder := (hRely.held hHolder).holder
            epoch := (hRely.held hHolder).epoch
            generation := (hRely.held hHolder).generation
            failures := (hRely.held hHolder).failures
            connection := (hRely.held hHolder).connection
            entries := (hRely.held hHolder).entries }
        steady := fun hIdle hGeneration hEpoch =>
          { repairing := (hRely.steady hIdle hGeneration hEpoch).repairing
            generation := (hRely.steady hIdle hGeneration hEpoch).generation
            connection := (hRely.steady hIdle hGeneration hEpoch).connection } }
  · simp only [story, List.map_eq_nil_iff, List.filter_eq_nil_iff, decide_eq_true_eq, not_and]
    intro entry hEntry hTask hStory
    have hLess := hInv.tellers entry hEntry hStory
    omega

end Pazuzu.Supervision
