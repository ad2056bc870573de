import Pazuzu.Gateway.Serve

/-! When the shutdown of a gateway leaves nothing behind. It cancels and awaits
the requests, the maintenance and one remembered probe, in this order, and any
exception among them ends it. -/
namespace Pazuzu.Serve

open Asyncio Surroundings

/-- No probe but the remembered one runs and no master is about to be started
when the maintenance is cancelled; whoever is awaited ends in peace or with a
cancellation; the master is stopped. -/
def Happening.Settles : Happening → Prop
  | .forgetting probes spawning => probes = [] ∧ spawning = []
  | .joined error => error = none ∨ error = some .cancelled
  | .masterStopped error => error = none

def Orderly (journal : List Happening) : Prop := ∀ happening ∈ journal, happening.Settles

/-- No task of this number is still running. -/
def Over (state : State) (id : Nat) : Prop :=
  ∀ task, state.tasks[id]? = some task → task.status.isEnded = true

/-- Nobody starts anything any more. -/
structure Quiet (state : State) : Prop where
  closing : state.closing = true
  idle : ∀ id, state.goesOn id = false

/-- What the tasks of a quiet gateway can still do: end. -/
structure Fades (before after : State) : Prop where
  quiet : Quiet after
  journal : after.journal = before.journal
  unlinked : after.unlinked = before.unlinked
  spawning : before.spawning = [] → after.spawning = []
  ended : ∀ id, Over before id → Over after id

theorem isEnded_finish {task : Task} (error : Option Error) (h : task.status.isEnded = true) :
    (task.finish error).status.isEnded = true := by
  unfold Task.finish
  rw [if_pos h]
  exact h

theorem kind_finish (error : Option Error) (task : Task) : (task.finish error).kind = task.kind := by
  unfold Task.finish
  split <;> rfl

theorem kind_cancel (task : Task) : task.cancel.kind = task.kind := by
  unfold Task.cancel
  split <;> rfl

theorem isEnded_cancel {task : Task} (h : task.status.isEnded = true) : task.cancel.status.isEnded = true := by
  unfold Task.cancel
  split
  · next hGoesOn =>
      cases hStatus : task.status with
      | ended error => rw [hStatus] at hGoesOn; cases hGoesOn
      | _ => rw [hStatus] at h; cases h
  · exact h

theorem goesOn_cancel (task : Task) : task.cancel.status.goesOn = false := by
  unfold Task.cancel
  split
  · rfl
  · next hStopped => exact Bool.not_eq_true _ ▸ hStopped

theorem kind_leave (task : Task) : task.leave.kind = task.kind := by
  unfold Task.leave
  split <;> rfl

theorem goesOn_finish {task : Task} {error : Option Error} (h : (task.finish error).status.goesOn = true) :
    task.status.goesOn = true := by
  unfold Task.finish at h
  split at h
  · exact h
  · cases h

theorem goesOn_eq_true {state : State} {id : Nat} : state.goesOn id = true ↔
    ∃ task, state.tasks[id]? = some task ∧ task.kind ≠ .probe ∧ task.status.goesOn = true := by
  unfold State.goesOn
  split
  · next task hTask => simp [hTask]
  · next hNone => simp [hNone]

theorem goesOn_of_works {state : State} {id : Nat} (h : state.works id = true) : state.goesOn id = true :=
  (Bool.and_eq_true_iff.mp h).1

/-- Changing one task by something that starts nothing and ends nothing anew. -/
theorem quiet_modify {state : State} (h : Quiet state) {id : Nat} {f : Task → Task}
    (hKind : ∀ task, (f task).kind = task.kind)
    (hGoesOn : ∀ task, (f task).status.goesOn = true → task.status.goesOn = true) :
    Quiet { state with tasks := state.tasks.modify id f } := by
  refine ⟨h.closing, fun other => Bool.eq_false_iff.mpr fun hWorks => ?_⟩
  obtain ⟨task, hTask, hOther, hStatus⟩ := goesOn_eq_true.mp hWorks
  rw [List.getElem?_modify] at hTask
  obtain ⟨earlier, hEarlier, rfl⟩ := Option.map_eq_some_iff.mp hTask
  have hWorked : state.goesOn other = true := by
    refine goesOn_eq_true.mpr ⟨earlier, hEarlier, ?_, ?_⟩
    · split at hOther
      · rwa [hKind] at hOther
      · exact hOther
    · split at hStatus
      · exact hGoesOn earlier hStatus
      · exact hStatus
  rw [h.idle other] at hWorked
  cases hWorked

theorem over_modify {state : State} {id other : Nat} {f : Task → Task} (h : Over state other)
    (hEnded : ∀ task, task.status.isEnded = true → (f task).status.isEnded = true) :
    Over { state with tasks := state.tasks.modify id f } other := by
  intro task hTask
  rw [List.getElem?_modify] at hTask
  obtain ⟨earlier, hEarlier, rfl⟩ := Option.map_eq_some_iff.mp hTask
  split
  · exact hEnded earlier (h earlier hEarlier)
  · exact h earlier hEarlier

/-- What only cancels or ends one task. -/
theorem fades_modify {before : State} (h : Quiet before) {id : Nat} {f : Task → Task}
    (hKind : ∀ task, (f task).kind = task.kind)
    (hGoesOn : ∀ task, (f task).status.goesOn = true → task.status.goesOn = true)
    (hEnded : ∀ task, task.status.isEnded = true → (f task).status.isEnded = true) :
    Fades before { before with tasks := before.tasks.modify id f } :=
  ⟨quiet_modify h hKind hGoesOn, rfl, rfl, fun h => h, fun _ hOver => over_modify hOver hEnded⟩

theorem fades_cancel {before : State} (h : Quiet before) (id : Nat) : Fades before (before.cancel id) :=
  fades_modify h kind_cancel (fun task hRuns => by rw [goesOn_cancel] at hRuns; cases hRuns) fun _ => isEnded_cancel

theorem fades_of_disturb {move : Move} {before after : State} (h : Quiet before)
    (hMove : disturb move before = some after) : Fades before after := by
  have hIdle : ∀ {id : Nat}, before.works id ≠ true := fun {id} hWorks => by
    have hGoesOn := goesOn_of_works hWorks
    rw [h.idle id] at hGoesOn
    cases hGoesOn
  cases move with
  | accept =>
      simp only [disturb, h.closing, if_true] at hMove
      cases hMove
  | disconnect id | handle id =>
      simp only [disturb, Option.ite_none_right_eq_some, Option.some.injEq] at hMove
      obtain ⟨-, rfl⟩ := hMove
      exact fades_cancel h id
  | finish id error =>
      simp only [disturb, Option.ite_none_left_eq_some, Option.some.injEq] at hMove
      obtain ⟨-, rfl⟩ := hMove
      exact fades_modify h (kind_finish error) (fun _ => goesOn_finish) fun _ => isEnded_finish error
  | probe id =>
      simp only [disturb, Option.ite_none_right_eq_some] at hMove
      exact absurd hMove.1 hIdle
  | repair id =>
      simp only [disturb, Option.ite_none_right_eq_some] at hMove
      exact absurd hMove.1 hIdle
  | spawn id =>
      simp only [disturb, Option.ite_none_right_eq_some] at hMove
      exact absurd hMove.1 hIdle
  | spawned id =>
      cases hMove
      refine ⟨⟨h.closing, h.idle⟩, rfl, rfl, fun hNone => ?_, fun _ hOver => hOver⟩
      rw [hNone]
      rfl
  | stop preserveMaster =>
      cases hMove
      exact ⟨⟨h.closing, h.idle⟩, rfl, rfl, fun h => h, fun _ hOver => hOver⟩

theorem fades {before after : State} (h : Quiet before) (hDrifts : surroundings.Drifts before after) :
    Fades before after := by
  induction hDrifts with
  | refl => exact ⟨h, rfl, rfl, fun h => h, fun _ hOver => hOver⟩
  | tail _ hLast ih =>
      obtain ⟨move, hMove⟩ := hLast
      have hNext := fades_of_disturb ih.quiet hMove
      exact ⟨hNext.quiet, hNext.journal.trans ih.journal, hNext.unlinked.trans ih.unlinked, fun h => hNext.spawning (ih.spawning h),
        fun id hOver => hNext.ended id (ih.ended id hOver)⟩

/-- The gateway is up, and the task of this number is its only maintenance. -/
structure Underway (number : Nat) (state : State) : Prop where
  maintainer : state.maintainer = some number
  only : ∀ (id : Nat) (task : Task), state.tasks[id]? = some task → task.kind = .maintenance → id = number

/-- No request is running and none is accepted. -/
structure Closed (state : State) : Prop where
  closing : state.closing = true
  requests : ∀ (id : Nat) (task : Task), state.tasks[id]? = some task → task.kind = .request →
    task.status.isEnded = true

/-- A task of the state after a change of one task comes from one of the same kind. -/
theorem task_of_modify {state : State} {id other : Nat} {f : Task → Task} {task : Task}
    (hKind : ∀ task, (f task).kind = task.kind)
    (h : (state.tasks.modify id f)[other]? = some task) :
    ∃ earlier, state.tasks[other]? = some earlier ∧ task.kind = earlier.kind ∧
      (task = earlier ∨ task = f earlier) := by
  rw [List.getElem?_modify] at h
  obtain ⟨earlier, hEarlier, rfl⟩ := Option.map_eq_some_iff.mp h
  refine ⟨earlier, hEarlier, ?_⟩
  split
  · exact ⟨hKind earlier, Or.inr rfl⟩
  · exact ⟨rfl, Or.inl rfl⟩

theorem task_of_append {tasks : List Task} {last task : Task} {id : Nat}
    (h : (tasks ++ [last])[id]? = some task) : tasks[id]? = some task ∨ task = last := by
  rw [List.getElem?_append] at h
  split at h
  · exact Or.inl h
  · rw [List.getElem?_singleton] at h
    split at h
    · exact Or.inr (Option.some.inj h).symm
    · cases h

/-- Every move keeps what is known of the tasks, but not that nobody works. -/
structure Meanwhile (before after : State) : Prop where
  journal : after.journal = before.journal
  closing : before.closing = true → after.closing = true
  underway : ∀ number, Underway number before → Underway number after
  closed : Closed before → Closed after

/-- What only cancels or ends one task. -/
theorem meanwhile_modify {before : State} {id : Nat} {f : Task → Task}
    (hKind : ∀ task, (f task).kind = task.kind)
    (hEnded : ∀ task, task.status.isEnded = true → (f task).status.isEnded = true) :
    Meanwhile before { before with tasks := before.tasks.modify id f } := by
  refine ⟨rfl, fun h => h, fun maintainer h => ⟨h.maintainer, fun other task hTask hMaintains => ?_⟩,
    fun h => ⟨h.closing, fun other task hTask hRequests => ?_⟩⟩
  · obtain ⟨earlier, hEarlier, hSame, -⟩ := task_of_modify hKind hTask
    exact h.only other earlier hEarlier (hSame ▸ hMaintains)
  · obtain ⟨earlier, hEarlier, hSame, hTask⟩ := task_of_modify hKind hTask
    have hOver := h.requests other earlier hEarlier (hSame ▸ hRequests)
    rcases hTask with rfl | rfl
    · exact hOver
    · exact hEnded earlier hOver

theorem meanwhile_probe (before : State) (id : Nat) :
    Meanwhile before ((if before.needsProbe then before.openProbe else before).shield id) := by
  split
  · refine ⟨rfl, fun h => h, fun maintainer h => ⟨h.maintainer, fun other task hTask hKind => ?_⟩,
      fun h => ⟨h.closing, fun other task hTask hKind => ?_⟩⟩
    · rcases task_of_append hTask with hTask | rfl
      · exact h.only other task hTask hKind
      · cases hKind
    · rcases task_of_append hTask with hTask | rfl
      · exact h.requests other task hTask hKind
      · cases hKind
  · exact ⟨rfl, fun h => h, fun _ h => ⟨h.maintainer, h.only⟩, fun h => ⟨h.closing, h.requests⟩⟩

theorem meanwhile_of_disturb {move : Move} {before after : State} (hMove : disturb move before = some after) :
    Meanwhile before after := by
  cases move with
  | accept =>
      simp only [disturb, Option.ite_none_left_eq_some, Option.some.injEq] at hMove
      obtain ⟨hOpen, rfl⟩ := hMove
      refine ⟨rfl, fun h => h, fun maintainer h => ⟨h.maintainer, fun id task hTask hKind => ?_⟩,
        fun h => absurd h.closing hOpen⟩
      rcases task_of_append hTask with hTask | rfl
      · exact h.only id task hTask hKind
      · cases hKind
  | disconnect id | handle id =>
      simp only [disturb, Option.ite_none_right_eq_some, Option.some.injEq] at hMove
      obtain ⟨-, rfl⟩ := hMove
      exact meanwhile_modify kind_cancel fun _ => isEnded_cancel
  | finish id error =>
      simp only [disturb, Option.ite_none_left_eq_some, Option.some.injEq] at hMove
      obtain ⟨-, rfl⟩ := hMove
      exact meanwhile_modify (kind_finish error) fun _ => isEnded_finish error
  | probe id =>
      simp only [disturb, Option.ite_none_right_eq_some, Option.some.injEq] at hMove
      obtain ⟨-, rfl⟩ := hMove
      exact meanwhile_probe before id
  | repair id =>
      simp only [disturb, Option.ite_none_right_eq_some, Option.some.injEq] at hMove
      obtain ⟨-, rfl⟩ := hMove
      exact ⟨rfl, fun h => h, fun _ h => ⟨h.maintainer, h.only⟩, fun h => ⟨h.closing, h.requests⟩⟩
  | spawn id =>
      simp only [disturb, Option.ite_none_right_eq_some, Option.some.injEq] at hMove
      obtain ⟨-, rfl⟩ := hMove
      exact ⟨rfl, fun h => h, fun _ h => ⟨h.maintainer, h.only⟩, fun h => ⟨h.closing, h.requests⟩⟩
  | spawned id =>
      cases hMove
      exact ⟨rfl, fun h => h, fun _ h => ⟨h.maintainer, h.only⟩, fun h => ⟨h.closing, h.requests⟩⟩
  | stop preserveMaster =>
      cases hMove
      exact ⟨rfl, fun h => h, fun _ h => ⟨h.maintainer, h.only⟩, fun h => ⟨h.closing, h.requests⟩⟩

theorem meanwhile {before after : State} (h : surroundings.Drifts before after) : Meanwhile before after :=
  h.lift (fun _ => ⟨rfl, fun h => h, fun _ h => h, fun h => h⟩) (fun _ _ _ hFirst hSecond =>
    ⟨hSecond.journal.trans hFirst.journal, fun h => hSecond.closing (hFirst.closing h),
      fun m h => hSecond.underway m (hFirst.underway m h),
      fun h => hSecond.closed (hFirst.closed h)⟩) fun _ _ _ => meanwhile_of_disturb

/-- In an orderly run, at most these tasks are still there, and no master is
about to be started. -/
def Leaves (ids : List Nat) (state : State) : Prop :=
  Orderly state.journal → (∀ id, id ∉ ids → Over state id) ∧ state.spawning = []

theorem Leaves.fades {ids : List Nat} {before after : State} (h : Leaves ids before)
    (hFades : Fades before after) : Leaves ids after := fun hOrderly => by
  obtain ⟨hOver, hNone⟩ := h (hFades.journal ▸ hOrderly)
  exact ⟨fun id hId => hFades.ended id (hOver id hId), hFades.spawning hNone⟩

theorem Leaves.note {ids : List Nat} {state : State} (h : Leaves ids state) (happening : Happening) :
    Leaves ids (state.note happening) := fun hOrderly =>
  h fun earlier hMem => hOrderly earlier (List.mem_cons_of_mem _ hMem)

section Code

variable {state : State}

abbrev Always (_ : State) : Prop := True

/-- What a part of the shutdown ends with: a quiet gateway with at most these
tasks, or an exception that no orderly run has. -/
def Leaving (ids : List Nat) : Except Raised Unit → State → Prop
  | .ok _, state => Quiet state ∧ Leaves ids state
  | .error _, state => ¬Orderly state.journal

/-- Awaiting a task settles it. -/
theorem wp_join {id : Nat} {ids : List Nat} (hQuiet : Quiet state) (h : Leaves (id :: ids) state) :
    surroundings.wp Always (Coro.tryCatch (wait (.join id)) fun
      | .error .cancelled => return ()
      | raised => raise raised) (Leaving ids) state := by
  refine (wp_tryCatch _ _).mpr (wp_suspend fun later reply after _ hDrifts hDeliver => ⟨trivial, ?_⟩)
  have hFades := fades hQuiet hDrifts
  have hLater := h.fades hFades
  have hEnd : ∀ {error : Option Error}, later.status id = some (.ended error) →
      Leaves ids (later.note (.joined error)) := by
    intro error hStatus hOrderly
    obtain ⟨hOver, hNone⟩ := hLater.note (.joined error) hOrderly
    refine ⟨fun other hOther => ?_, hNone⟩
    by_cases hId : other = id
    · intro task hTask
      obtain ⟨joined, hJoined, hEnded⟩ := Option.map_eq_some_iff.mp hStatus
      rw [hId] at hTask
      obtain rfl := Option.some.inj (hJoined.symm.trans hTask)
      rw [hEnded]
      rfl
    · exact hOver other fun hMem => (List.mem_cons.mp hMem).elim hId hOther
  have hStill : ∀ {error : Option Error}, Quiet (later.note (.joined error)) :=
    ⟨hFades.quiet.closing, hFades.quiet.idle⟩
  cases reply with
  | ok value =>
      simp only [deliver, Option.ite_none_right_eq_some, Option.some.injEq] at hDeliver
      obtain ⟨hStatus, rfl⟩ := hDeliver
      exact ⟨hStill, hEnd hStatus⟩
  | error raised =>
      cases raised with
      | runtimeError message => cases hDeliver
      | error error =>
          simp only [deliver, Option.ite_none_right_eq_some, Option.some.injEq] at hDeliver
          obtain ⟨hStatus, rfl⟩ := hDeliver
          by_cases hCancelled : error = .cancelled
          · subst hCancelled
            exact ⟨hStill, hEnd hStatus⟩
          · have hRaised : ¬Orderly (later.note (.joined (some error))).journal := fun hOrderly =>
              (hOrderly _ List.mem_cons_self).elim nofun fun h => hCancelled (Option.some.inj h)
            cases error with
            | cancelled => exact absurd rfl hCancelled
            | _ => exact hRaised

theorem wp_reap {id : Nat} {ids : List Nat} (hQuiet : Quiet (state.cancel id))
    (h : Leaves (id :: ids) (state.cancel id)) :
    surroundings.wp Always (reap (some id)) (Leaving ids) state := by
  refine wp_update_bind fun later _ hBetween => ⟨trivial, ?_⟩
  obtain rfl := hBetween.eq rfl
  exact wp_join hQuiet h

theorem mem_forgotten {id : Nat} {task : Task} (hTask : state.tasks[id]? = some task)
    (hKind : task.kind = .probe) (hRunning : task.status.isEnded = false)
    (hFlight : state.flight.map Prod.snd ≠ some id) : id ∈ state.forgotten := by
  refine List.mem_filter.mpr ⟨List.mem_range.mpr (List.getElem?_eq_some_iff.mp hTask).1, ?_⟩
  rw [hTask]
  exact decide_eq_true ⟨hKind, hRunning, hFlight⟩

/-- The state in which the maintenance is cancelled. -/
def State.forget (state : State) : State :=
  { state.note (.forgetting state.forgotten state.spawning) with maintainer := none, flight := none }

/-- With the requests over and the maintenance cancelled, nobody works. -/
theorem quiet_forget {number : Nat} (h : Underway number state) (hClosed : Closed state) :
    Quiet (state.forget.cancel number) := by
  refine ⟨hClosed.closing, fun id => Bool.eq_false_iff.mpr fun hWorks => ?_⟩
  obtain ⟨task, hTask, hKind, hStatus⟩ := goesOn_eq_true.mp hWorks
  obtain ⟨earlier, hEarlier, hSame, hTaskEq⟩ := task_of_modify kind_cancel hTask
  rw [hSame] at hKind
  cases hEarlierKind : earlier.kind with
  | probe => exact hKind hEarlierKind
  | request =>
      have hEnded := hClosed.requests id earlier hEarlier hEarlierKind
      have hStill : task.status.isEnded = true := by
        rcases hTaskEq with rfl | rfl
        · exact hEnded
        · exact isEnded_cancel hEnded
      cases hOver : task.status with
      | ended error =>
          rw [hOver] at hStatus
          cases hStatus
      | _ =>
          rw [hOver] at hStill
          cases hStill
  | maintenance =>
      obtain rfl := h.only id earlier hEarlier hEarlierKind
      have hCancelled : task = earlier.cancel := by
        have hBefore : state.tasks[id]? = some earlier := hEarlier
        have hModified : (state.tasks.modify id Task.cancel)[id]? = some task := hTask
        rw [List.getElem?_modify, hBefore] at hModified
        simpa using hModified.symm
      rw [hCancelled, goesOn_cancel] at hStatus
      cases hStatus

/-- In an orderly run, only the maintenance and the remembered probe are left then. -/
theorem leaves_forget {number : Nat} (h : Underway number state) (hClosed : Closed state) :
    Leaves (number :: (state.flight.map Prod.snd).toList) (state.forget.cancel number) := by
  intro hOrderly
  obtain ⟨hProbes, hSpawning⟩ : state.forgotten = [] ∧ state.spawning = [] := hOrderly _ List.mem_cons_self
  refine ⟨fun id hId task hTask => ?_, hSpawning⟩
  obtain ⟨earlier, hEarlier, -, hTaskEq⟩ := task_of_modify kind_cancel hTask
  have hEnded : earlier.status.isEnded = true := by
    cases hKind : earlier.kind with
    | request => exact hClosed.requests id earlier hEarlier hKind
    | maintenance =>
        obtain rfl := h.only id earlier hEarlier hKind
        exact absurd List.mem_cons_self hId
    | probe =>
        cases hRunning : earlier.status.isEnded with
        | true => rfl
        | false =>
            have hBefore : state.tasks[id]? = some earlier := hEarlier
            have hForgotten := mem_forgotten hBefore hKind hRunning fun hFlight =>
              hId (List.mem_cons_of_mem _ (Option.mem_toList.mpr hFlight))
            rw [hProbes] at hForgotten
            cases hForgotten
  rcases hTaskEq with rfl | rfl
  · exact hEnded
  · exact isEnded_cancel hEnded

theorem leaves_cancel {ids : List Nat} (h : Leaves ids state) (id : Nat) : Leaves ids (state.cancel id) :=
  fun hOrderly => ⟨fun other hOther => over_modify ((h hOrderly).1 other hOther) fun _ => isEnded_cancel,
    (h hOrderly).2⟩

theorem wp_stopMaintenance {number : Nat} (h : Underway number state) (hClosed : Closed state) :
    surroundings.wp Always stopMaintenance (Leaving []) state := by
  refine wp_get fun later _ hBetween => ?_
  obtain rfl := hBetween.eq rfl
  refine wp_update_bind fun seen _ hBetween => ⟨trivial, ?_⟩
  obtain rfl := hBetween.eq rfl
  rw [h.maintainer]
  refine (wp_bind _ _ _ _).mpr (wp_mono (wp_reap (quiet_forget h hClosed) (leaves_forget h hClosed)) ?_)
  intro outcome after hLeaving
  cases outcome with
  | error raised => exact hLeaving
  | ok value =>
      obtain ⟨hQuiet, hLeaves⟩ := hLeaving
      cases hFlight : seen.flight with
      | none =>
          rw [hFlight] at hLeaves
          exact ⟨hQuiet, hLeaves⟩
      | some flight =>
          rw [hFlight] at hLeaves
          exact wp_reap (fades_cancel hQuiet flight.2).quiet (leaves_cancel hLeaves flight.2)

theorem wp_close {number : Nat} (h : Underway number state) (hClosed : Closed state) :
    surroundings.wp Always close (Leaving []) state := by
  refine (wp_bind _ _ _ _).mpr (wp_mono (wp_stopMaintenance h hClosed) fun outcome after hLeaving => ?_)
  cases outcome with
  | error raised => exact hLeaving
  | ok value =>
      obtain ⟨hQuiet, hLeaves⟩ := hLeaving
      refine (wp_bind _ _ _ _).mpr (wp_suspend fun locked reply after _ hDrifts hDeliver => ⟨trivial, ?_⟩)
      have hLocked := fades hQuiet hDrifts
      cases reply with
      | error raised => cases hDeliver
      | ok value =>
          cases hDeliver
          refine wp_suspend fun stopped reply after _ hDrifts hDeliver => ⟨trivial, ?_⟩
          have hStopped := fades hLocked.quiet hDrifts
          cases reply with
          | ok value =>
              cases hDeliver
              exact ⟨⟨hStopped.quiet.closing, hStopped.quiet.idle⟩,
                ((hLeaves.fades hLocked).fades hStopped).note _⟩
          | error raised =>
              cases raised with
              | runtimeError message => cases hDeliver
              | error error =>
                  cases hDeliver
                  exact fun hOrderly => Option.some_ne_none error (hOrderly _ List.mem_cons_self)

/-- Nothing is left behind. -/
structure Nothing (state : State) : Prop where
  ended : ∀ id, Over state id
  spawning : state.spawning = []
  unlinked : state.unlinked = true

/-- How the shutdown ends, whatever it was called for. -/
def Shut (state : State) : Prop := Orderly state.journal → Quiet state ∧ Nothing state

theorem wp_watch {number : Nat} (h : Underway number state) :
    surroundings.wp Always watch (fun _ after => Underway number after) state := by
  refine (wp_bind _ _ _ _).mpr (wp_suspend fun later reply after _ hDrifts hDeliver => ⟨trivial, ?_⟩)
  have hLater := (meanwhile hDrifts).underway number h
  cases reply with
  | error raised => cases hDeliver
  | ok stopped =>
      obtain rfl : later = after := by
        simp only [deliver] at hDeliver
        split at hDeliver <;> split at hDeliver <;> cases hDeliver <;> rfl
      cases stopped with
      | true => exact hLater
      | false =>
          refine wp_get fun last _ hBetween => ?_
          obtain rfl := hBetween.eq rfl
          dsimp only
          split <;> exact hLater

/-- The last step, after either way to stop the supervisor. -/
theorem wp_unlink (hQuiet : Quiet state) (h : Leaves [] state) :
    surroundings.wp Always (update fun state => { state with unlinked := true })
      (fun _ after => Shut after) state := by
  refine wp_update fun later _ hBetween => ⟨trivial, fun hOrderly => ?_⟩
  obtain rfl := hBetween.eq rfl
  exact ⟨⟨hQuiet.closing, hQuiet.idle⟩, fun id => (h hOrderly).1 id List.not_mem_nil, (h hOrderly).2, rfl⟩

theorem Underway.cancelRequests {number : Nat} (h : Underway number state) :
    Underway number { state with
      closing := true
      tasks := state.tasks.map Task.leave } := by
  refine ⟨h.maintainer, fun id task hTask hKind => ?_⟩
  rw [List.getElem?_map] at hTask
  obtain ⟨earlier, hEarlier, rfl⟩ := Option.map_eq_some_iff.mp hTask
  rw [kind_leave] at hKind
  exact h.only id earlier hEarlier hKind

theorem wp_shutdown {number : Nat} (h : Underway number state) :
    surroundings.wp Always shutdown (fun _ after => Shut after) state := by
  refine wp_update_bind fun first _ hBetween => ⟨trivial, ?_⟩
  obtain rfl := hBetween.eq rfl
  refine (wp_bind _ _ _ _).mpr (wp_suspend fun later reply after _ hDrifts hDeliver => ⟨trivial, ?_⟩)
  have hMean := meanwhile hDrifts
  have hUnderway := hMean.underway number h.cancelRequests
  cases reply with
  | error raised => cases hDeliver
  | ok value =>
      simp only [deliver, Option.ite_none_right_eq_some, Option.some.injEq] at hDeliver
      obtain ⟨hGathered, rfl⟩ := hDeliver
      have hClosed : Closed later := by
        refine ⟨hMean.closing rfl, fun id task hTask hKind => ?_⟩
        have hAll := List.all_eq_true.mp hGathered task (List.mem_of_getElem? hTask)
        exact (of_decide_eq_true hAll).resolve_left fun hOther => hOther hKind
      refine (wp_bind _ _ _ _).mpr (wp_suspend fun waited reply after _ hDrifts hDeliver => ⟨trivial, ?_⟩)
      have hWaited := meanwhile hDrifts
      cases reply with
      | error raised => cases hDeliver
      | ok value =>
          cases hDeliver
          refine wp_get fun last _ hBetween => ?_
          obtain rfl := hBetween.eq rfl
          have hLast := hWaited.underway number hUnderway
          have hLastClosed := hWaited.closed hClosed
          have hStop : surroundings.wp Always (stopSupervisor last.preserveMaster) (Leaving []) last := by
            unfold stopSupervisor
            split
            · exact wp_stopMaintenance hLast hLastClosed
            · exact wp_close hLast hLastClosed
          refine (wp_bind _ _ _ _).mpr (wp_mono hStop fun outcome stopped hLeaving => ?_)
          cases outcome with
          | error raised => exact fun hOrderly => absurd hOrderly hLeaving
          | ok value => exact wp_unlink hLeaving.1 hLeaving.2

/-- However `serve` ends, it has shut down. -/
theorem wp_serve : surroundings.wp Always serve (fun _ after => Shut after) {} := by
  refine wp_update_bind fun first _ hBetween => ⟨trivial, ?_⟩
  obtain rfl := hBetween.eq rfl
  have hStarted : Underway 0 { tasks := [⟨.maintenance, .running⟩], maintainer := some 0 } := by
    refine ⟨rfl, fun id task hTask _ => ?_⟩
    have hLength := (List.getElem?_eq_some_iff.mp hTask).1
    exact Nat.lt_one_iff.mp hLength
  refine (wp_tryFinally _ _).mpr (wp_mono (wp_watch hStarted) fun outcome after hUnderway => ?_)
  refine wp_mono (wp_shutdown hUnderway) fun result last hShut => ?_
  cases result <;> exact hShut

end Code

/-- Once `serve` has returned or raised, an orderly run has left nothing behind:
no task is running, no master is about to be started, and the path is unlinked. -/
theorem nothing_left {picks : List (Pick surroundings)} {final : Solo signature Unit}
    (hRun : surroundings.run ⟨serve, {}⟩ picks = some final) {outcome : Except Raised Unit}
    (hEnd : final.code = Coro.ofExcept outcome) (hOrderly : Orderly final.state.journal) :
    Nothing final.state := by
  have hMoves : ∀ move before after, Always before → disturb move before = some after → Always after :=
    fun _ _ _ _ _ => trivial
  obtain ⟨ending, hDrifts, hShut⟩ := run_post hMoves trivial wp_serve hRun hEnd
  obtain ⟨hQuiet, hNothing⟩ := hShut ((meanwhile hDrifts).journal ▸ hOrderly)
  have hFades := fades hQuiet hDrifts
  exact ⟨fun id => hFades.ended id (hNothing.ended id), hFades.spawning hNothing.spawning,
    hFades.unlinked.trans hNothing.unlinked⟩

/-- Every task that is awaited ends with its cancellation. -/
def inPeace : (wait : Wait) → Except Raised wait.Reply
  | .watch => .ok true
  | .gatherClients | .waitClosed | .repairLock | .stopMaster => .ok ()
  | .join _ => .error (.error .cancelled)

/-- The stop finds a request that still opens a probe in the turn before its
handler cancels it. -/
def onRequest : List (Pick surroundings) :=
  [.go, .disturb .accept, .disturb (.stop false), .answer inPeace, .go, .disturb (.probe 1), .disturb (.handle 1),
    .disturb (.finish 1 (some .cancelled)), .answer inPeace, .answer inPeace, .go, .go, .go, .go,
    .disturb (.finish 0 (some .cancelled)), .answer inPeace, .go,
    .disturb (.finish 2 (some .cancelled)), .answer inPeace, .answer inPeace, .answer inPeace, .go]

theorem nothing_left_request : ∃ final, surroundings.run ⟨serve, {}⟩ onRequest = some final ∧
    Nothing final.state := by
  obtain ⟨final, hRun, hEnd, hJournal⟩ : ∃ final, surroundings.run ⟨serve, {}⟩ onRequest = some final ∧
      final.code = Coro.ofExcept (.ok ()) ∧ final.state.journal =
        [.masterStopped none, .joined (some .cancelled), .joined (some .cancelled), .forgetting [] []] :=
    ⟨_, rfl, rfl, rfl⟩
  refine ⟨final, hRun, nothing_left hRun hEnd ?_⟩
  rw [hJournal]
  simp [Orderly, Happening.Settles]

/-- The maintenance has failed. -/
def inTrouble : (wait : Wait) → Except Raised wait.Reply
  | .watch => .ok false
  | .gatherClients | .waitClosed | .repairLock | .stopMaster => .ok ()
  | .join _ => .error (.error (.osError "Read-only file system"))

/-- The probe of the maintenance has ended and its control check is not back yet
when a request opens another one, whose client leaves. The control check finds no
master, and the repair fails in `stop_master`. -/
def onFailure : List (Pick surroundings) :=
  [.go, .disturb (.probe 0), .disturb (.finish 1 none), .disturb .accept, .disturb (.probe 2),
    .disturb (.disconnect 2), .disturb (.finish 2 none), .disturb (.repair 0),
    .disturb (.finish 0 (some (.osError "Read-only file system"))), .answer inTrouble, .go,
    .go, .answer inTrouble, .answer inTrouble, .go, .go, .go, .go, .answer inTrouble]

/-- The exception of the maintenance ends the shutdown: the probe of the request
still runs and the path stays. -/
theorem left_behind : ∃ final, surroundings.run ⟨serve, {}⟩ onFailure = some final ∧
    final.code = Coro.ofExcept (.error (Raised.error (.osError "Read-only file system"))) ∧
      ¬Over final.state 3 ∧ final.state.unlinked = false := by
  obtain ⟨final, hRun, hEnd, hProbe, hPath⟩ : ∃ final,
      surroundings.run ⟨serve, {}⟩ onFailure = some final ∧
        final.code = Coro.ofExcept (.error (Raised.error (.osError "Read-only file system"))) ∧
          final.state.tasks[3]? = some ⟨.probe, .running⟩ ∧ final.state.unlinked = false :=
    ⟨_, rfl, rfl, rfl, rfl⟩
  exact ⟨final, hRun, hEnd, fun hOver => Bool.noConfusion (hOver _ hProbe), hPath⟩

end Pazuzu.Serve
