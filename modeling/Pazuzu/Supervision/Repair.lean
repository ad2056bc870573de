import Pazuzu.Supervision.Quiet

/-! The repair lock and what happens under it: adoption, replacement, and the
recording of failures, each with what it leaves behind on every way out. -/
namespace Pazuzu.Supervision

open Asyncio Coro Supervisor

variable {config : Config} {op : Op} {task : Nat} {α β : Type}

/-- Weakest preconditions under the gateway's discipline. -/
abbrev Wp (config : Config) (op : Op) (task : Nat) (code : Py α)
    (post : Except Error α → GatewayWorld → Prop) (w : GatewayWorld) : Prop :=
  (discipline config).wp op task code post w

/-- Since an older history, something of the task's own failed or it was given up. -/
def Upset (task : Nat) (old new : History) : Prop :=
  ∃ entry rest, Since old new entry rest ∧ entry.task = task ∧
    (entry.event.fails = true ∨ entry.event.isCancellation = true)

theorem Upset.extend {old mid new : History} (h : Upset task old mid) (hNew : mid <:+ new) :
    Upset task old new := by
  obtain ⟨entry, rest, hSince, hRest⟩ := h
  exact ⟨entry, rest, hSince.extend hNew, hRest⟩

theorem Upset.mono {old mid new : History} (h : Upset task mid new) (hOld : old <:+ mid) :
    Upset task old new := by
  obtain ⟨entry, rest, hSince, hRest⟩ := h
  exact ⟨entry, rest, hSince.mono hOld, hRest⟩

theorem disturbs_plain {event : Event} (h : event.disturbs op) :
    event.fails = true ∨ event.isCancellation = true :=
  h.imp_right fun hEq => by rw [hEq]; rfl

/-- A mark of the frame, with the history it was made on. -/
theorem since_of_marked {history : History} {w : GatewayWorld}
    (h : (frame config).Marked op task history w) :
    ∃ entry rest, Since history w.trace entry rest ∧ entry.task = task ∧ entry.event.disturbs op := by
  obtain ⟨new, hTrace, entry, hEntry, hTask, hDisturbs⟩ := h
  obtain ⟨newer, older, rfl⟩ := List.append_of_mem hEntry
  refine ⟨entry, older ++ history, ⟨?_, List.suffix_append _ _⟩, hTask, hDisturbs⟩
  rw [hTrace, List.append_assoc]
  exact List.suffix_append _ _

theorem upset_of_marked {history : History} {w : GatewayWorld}
    (h : (frame config).Marked op task history w) : Upset task history w.trace := by
  obtain ⟨entry, rest, hSince, hTask, hDisturbs⟩ := since_of_marked h
  exact ⟨entry, rest, hSince, hTask, disturbs_plain hDisturbs⟩

section Rules

variable {post : Except Error β → GatewayWorld → Prop} {w : GatewayWorld} {expected : Error → Prop}

theorem wp_seq {code : Py α} {next : α → Py β}
    (h : Wp config op task code (fun outcome w => match outcome with
      | .ok value => Wp config op task (next value) post w
      | .error error => post (.error error) w) w) :
    Wp config op task (code.bind next) post w :=
  (Discipline.wp_bind code next post w).mpr (Discipline.wp_mono h fun outcome _ hPost => by
    cases outcome <;> exact hPost)

theorem wp_get_seq {next : State → Py β} (h : Wp config op task (next w.state) post w) :
    Wp config op task (Coro.get.bind next) post w := h

theorem wp_update_seq {f : State → State} {next : Unit → Py β}
    (hAct : (discipline config).Act task w (w.act task none (f w.state)))
    (h : Wp config op task (next ()) post (w.act task none (f w.state))) :
    Wp config op task ((Coro.update f).bind next) post w := ⟨hAct, h⟩

theorem wp_record_seq {event : Event} {f : State → State} {next : Unit → Py β}
    (hAct : (discipline config).Act task w (w.act task (some event) (f w.state)))
    (h : Wp config op task (next ()) post (w.act task (some event) (f w.state))) :
    Wp config op task ((Coro.record event f).bind next) post w := ⟨hAct, h⟩

theorem wp_mark_seq {event : Event} {next : Unit → Py β}
    (hAct : (discipline config).Act task w (w.act task (some event) w.state))
    (h : Wp config op task (next ()) post (w.act task (some event) w.state)) :
    Wp config op task ((Coro.mark event).bind next) post w := ⟨hAct, h⟩

/-- A mark of the frame is unconditional. -/
theorem wp_background_seq {event : Event} {next : Unit → Py β} (hEvent : event.isBackground = true)
    (hInv : Inv w) (h : ∀ w', Inv w' → Rely task w w' → w'.state = w.state →
      Wp config op task (next ()) post w') :
    Wp config op task ((Coro.mark event).bind next) post w := by
  obtain ⟨hAct, hSelf⟩ := (@frame_fits config).act task w (some event) w.state hInv rfl
    fun _ he => Option.mem_some_iff.mp he ▸ hEvent
  exact wp_mark_seq hAct (h _ hAct.1 hSelf (World.act_state _ _ _ _))

/-- Calm code keeps what its task relies on. -/
theorem wp_quiet {code : Py β} (h : Quiet (frame config) op expected False code) (hInv : Inv w)
    (hOk : ∀ value w', Inv w' → Rely task w w' → post (.ok value) w')
    (hError : ∀ error w', Inv w' → Rely task w w' →
      expected error ∨ (error.isPazuzu = false ∧ (frame config).Marked op task w.trace w') →
      post (.error error) w') :
    Wp config op task code post w := by
  refine Discipline.wp_mono (frame_fits.wp h hInv) ?_
  rintro (error | value) w' ⟨hInv', hRely, hRaised⟩
  · refine hError error w' hInv' hRely ?_
    obtain ⟨hPossible, hWhy⟩ := hRaised error rfl
    rcases hWhy with hExpected | hMarked
    · exact Or.inl hExpected
    · exact hPossible.symm.imp id fun hOwn => ⟨hOwn, hMarked⟩
  · exact hOk value w' hInv' hRely

theorem wp_quiet_seq {code : Py α} {next : α → Py β} (h : Quiet (frame config) op expected False code)
    (hInv : Inv w)
    (hOk : ∀ value w', Inv w' → Rely task w w' → Wp config op task (next value) post w')
    (hError : ∀ error w', Inv w' → Rely task w w' →
      expected error ∨ (error.isPazuzu = false ∧ (frame config).Marked op task w.trace w') →
      post (.error error) w') :
    Wp config op task (code.bind next) post w :=
  wp_seq (wp_quiet h hInv hOk hError)

/-- Calm code that only a disturbance can make fail. -/
theorem wp_steady_seq {code : Py α} {next : α → Py β}
    (h : Quiet (frame config) op (fun _ => False) False code) (hInv : Inv w)
    (hOk : ∀ value w', Inv w' → Rely task w w' → Wp config op task (next value) post w')
    (hError : ∀ error w', Inv w' → Rely task w w' → error.isPazuzu = false →
      (frame config).Marked op task w.trace w' → post (.error error) w') :
    Wp config op task (code.bind next) post w :=
  wp_quiet_seq h hInv hOk fun error w' hInv' hRely hRaised => by
    rcases hRaised with hNever | ⟨hOwn, hMarked⟩
    · cases hNever
    · exact hError error w' hInv' hRely hOwn hMarked

end Rules

section Lock

/-- The lock has been left, and nothing else has happened. -/
structure Released (before after : GatewayWorld) : Prop where
  core : core after.state = { Supervision.core before.state with holder := none }
  trace : after.trace = before.trace
  started : after.started = before.started

theorem Released.grows {before after : GatewayWorld} (h : Released before after) :
    Grows before after where
  started := h.started.ge
  progress := by
    rw [h.core]
    exact ⟨Nat.le_refl _, Nat.le_refl _, id, fun _ _ outcome hJob => ⟨outcome, hJob, fun _ => rfl⟩,
      fun hUp => Or.inl ⟨hUp, rfl⟩⟩
  history := ⟨[], h.trace.symm⟩
  entries := by
    intro entry rest hSince
    rw [h.trace] at hSince
    exact absurd hSince since_self
  probes := by
    intro id epoch outcome hBefore hAfter
    rw [h.core] at hAfter
    rw [hBefore] at hAfter
    cases hAfter

theorem rely_take {w : GatewayWorld} {state : State}
    (hFree : (core w.state).holder = none)
    (hCore : core state = { core w.state with holder := some task }) :
    Rely task w (w.act task none state) where
  grows := by
    refine Grows.act ?_ fun id epoch outcome hBefore hAfter => ?_
    · rw [hCore]
      exact ⟨Nat.le_refl _, Nat.le_refl _, id, fun _ _ outcome hJob => ⟨outcome, hJob, fun _ => rfl⟩,
        fun hUp => Or.inl ⟨hUp, rfl⟩⟩
    · rw [hCore, hBefore] at hAfter
      cases hAfter
  story := rfl
  held := by
    intro hHolder
    rw [hFree] at hHolder
    cases hHolder
  steady := by
    intro hIdle _ _
    refine ⟨hIdle, ?_, Or.inl ?_⟩
    · rw [World.act_state, hCore]
    · rw [World.act_state, hCore]

/-- Taking the lock: at once or after a wait, and then no repair is running.
The wait can only end by a cancellation. -/
theorem wp_acquire {w : GatewayWorld} (hInv : Inv w)
    {post : Except Error Unit → GatewayWorld → Prop}
    (hOk : ∀ w', Inv w' → Rely task w w' → (core w'.state).holder = some task →
      repairing w'.trace = false → post (.ok ()) w')
    (hError : ∀ w', Inv w' → Rely task w w' → (frame config).Marked op task w.trace w' →
      post (.error .cancelled) w') :
    Wp config op task (acquire .repair) post w := by
  have hTake : ∀ (v : GatewayWorld), Inv v → Rely task w v → (core v.state).holder = none →
      Wp config op task (setHolder .repair (some task)) post v := by
    intro v hInvV hRely hFree
    have hIdle := hInvV.repair.idle hFree
    have hCore := core_setHolder v.state (some task)
    have hAct : (discipline config).Act task v _ :=
      act_setHolder config hInvV hIdle (Or.inl hFree) hCore
    refine ⟨hAct, hOk _ hAct.1 (hRely.trans (rely_take hFree hCore)) ?_ ?_⟩
    · rw [World.act_state, hCore]
    · exact hIdle
  have hLine : ∀ (v : GatewayWorld) (f : Lock → Lock), Inv v →
      (∀ lock, (f lock).holder = lock.holder) →
      (discipline config).Act task v
        (v.act task none (v.state.setLock .repair (f (v.state.lock .repair)))) ∧
      Rely task v (v.act task none (v.state.setLock .repair (f (v.state.lock .repair)))) := by
    intro v f hInvV hHolder
    have hCore : core (v.state.setLock .repair (f (v.state.lock .repair))) = core v.state := by
      simp [core, State.setLock, State.lock, hHolder]
    exact ⟨act_same config hInvV hCore (by simp) (by simp) (by simp),
      Rely.act_same hCore (Or.inr (by simp)) (by simp)⟩
  change Wp config op task (if _ then _ else _) post w
  split
  · next hFree => exact hTake w hInv (Rely.refl task w) hFree.1
  · obtain ⟨hAct, hRely⟩ := hLine w (fun lock => { lock with waiters := lock.waiters ++ [task] })
      hInv fun _ => rfl
    refine wp_update_seq hAct (wp_seq ((Discipline.wp_tryFinally _ _).mpr ?_))
    refine (Discipline.wp_suspend (G := gatewaySignature) (P := gateway config) _ _).mpr ?_
    intro later reply state hLater hWait hDeliver
    obtain ⟨hAnswer, hSelf⟩ := answers op task (.lock .repair none) reply later state hLater hDeliver
    obtain ⟨hAct', hRely'⟩ := hLine _ (fun lock => { lock with waiters := lock.waiters.erase task })
      hAnswer.1 fun _ => rfl
    refine ⟨hAct', ?_⟩
    have hAll := ((hRely.trans hWait).trans hSelf).trans hRely'
    cases reply with
    | ok value =>
        refine hTake _ hAct'.1 hAll ?_
        simp only [gateway, Host.deliver, Host.returns, Option.ite_none_right_eq_some,
          Option.some.injEq] at hDeliver
        obtain ⟨⟨hFree, -⟩, rfl⟩ := hDeliver
        exact hFree
    | error error =>
        have hCancelled : error = .cancelled := by
          simp only [gateway, Host.deliver] at hDeliver
          split at hDeliver
          · next hRaises => cases error <;> cases hRaises
          · split at hDeliver
            · assumption
            · cases hDeliver
        subst hCancelled
        refine hError _ hAct'.1 hAll ?_
        obtain ⟨new, hNew⟩ := (hRely.trans hWait).grows.history
        exact ⟨⟨task, .interrupted op .cancelled, state⟩ :: new, congrArg (List.cons _) hNew.symm, _,
          List.mem_cons_self, rfl, Or.inr rfl⟩

/-- A body under the repair lock begins and must end while no repair runs. -/
theorem wp_withLock {w : GatewayWorld} {body : Py α} (hInv : Inv w)
    {post : Except Error α → GatewayWorld → Prop}
    (hBody : ∀ v, Inv v → Rely task w v → (core v.state).holder = some task →
      repairing v.trace = false →
      Wp config op task body (fun outcome v' => Inv v' ∧ (core v'.state).holder = some task ∧
        repairing v'.trace = false ∧ ∀ w', Inv w' → Released v' w' → post outcome w') v)
    (hError : ∀ w', Inv w' → Rely task w w' → (frame config).Marked op task w.trace w' →
      post (.error .cancelled) w') :
    Wp config op task (withLock .repair body) post w := by
  refine wp_seq (wp_acquire hInv (fun v hInvV hRely hHolder hIdle => ?_) hError)
  refine (Discipline.wp_tryFinally _ _).mpr
    (Discipline.wp_mono (hBody v hInvV hRely hHolder hIdle) ?_)
  rintro outcome v' ⟨hInv', hHolder', hIdle', hPost⟩
  have hCore := core_setHolder v'.state none
  have hAct := act_setHolder config hInv' hIdle' (Or.inr hHolder') hCore
  exact ⟨hAct, hPost _ hAct.1 ⟨hCore, rfl, rfl⟩⟩

end Lock

section Repair

/-- Inside the lock: what the holder knows of the world since an older one. -/
structure Locked (task : Nat) (start w : GatewayWorld) : Prop where
  inv : Inv w
  grows : Grows start w
  story : story task w.trace = story task start.trace
  holder : (core w.state).holder = some task

theorem Locked.refl {w : GatewayWorld} (hInv : Inv w) (hHolder : (core w.state).holder = some task) :
    Locked task w w :=
  ⟨hInv, Grows.refl w, rfl, hHolder⟩

theorem Locked.rely {start w w' : GatewayWorld} (h : Locked task start w) (hInv : Inv w')
    (hRely : Rely task w w') : Locked task start w' :=
  ⟨hInv, h.grows.trans hRely.grows, hRely.story.trans h.story, (hRely.held h.holder).holder⟩

/-- Under the lock a wait leaves it as it was whether a repair is running. -/
theorem Locked.repairing {start w w' : GatewayWorld} (h : Locked task start w)
    (hRely : Rely task w w') : repairing w'.trace = repairing w.trace :=
  repairing_eq_of_since hRely.grows.history fun _ _ hSince =>
    ((hRely.held h.holder).entries _ _ hSince).2

/-- A disturbance of the task that performs a repair breaks the repair. -/
theorem Locked.broken {start w w' : GatewayWorld} (h : Locked task start w) (hRely : Rely task w w')
    (hRepairing : Supervision.repairing w.trace = true)
    (hMarked : (frame config).Marked op task w.trace w') : Broken w'.trace := by
  obtain ⟨entry, rest, hSince, rfl, hDisturbs⟩ := since_of_marked hMarked
  have hProtected := hRely.held h.holder
  refine ⟨entry, rest, hSince.1, ⟨op, hDisturbs⟩, (hProtected.entries _ _ hSince).1, ?_⟩
  rw [repairing_eq_of_since hSince.2 fun other before hOther =>
    (hProtected.entries other before (hOther.extend ((List.suffix_cons _ _).trans hSince.1))).2]
  exact hRepairing

/-- What a holder's own step adds, apart from its story. -/
theorem Locked.act {start w : GatewayWorld} {event : Event} {state : State}
    (h : Locked task start w) (hInv : Inv (w.act task (some event) state))
    (hGrows : Grows w (w.act task (some event) state)) (hStory : event.isStory = false)
    (hHolder : (core state).holder = (core w.state).holder) :
    Locked task start (w.act task (some event) state) where
  inv := hInv
  grows := h.grows.trans hGrows
  story := (story_act (Or.inr (by rintro e ⟨⟩; exact hStory))).trans h.story
  holder := by rw [World.act_state, hHolder, h.holder]

/-- A way out of a repair that nobody provided for. -/
structure Aborted (task : Nat) (start w : GatewayWorld) (error : Error) : Prop where
  locked : Locked task start w
  broken : Broken w.trace
  upset : Upset task start.trace w.trace
  own : error.isPazuzu = false

/-- A master has been connected, as a new generation. -/
structure Connected (task : Nat) (start w : GatewayWorld) : Prop where
  locked : Locked task start w
  idle : Supervision.repairing w.trace = false
  up : (core w.state).connection = .connected
  newer : (core start.state).generation < (core w.state).generation

/-- A failed repair has been recorded. -/
structure Failed (task : Nat) (start w : GatewayWorld) : Prop where
  locked : Locked task start w
  idle : Supervision.repairing w.trace = false
  down : (core w.state).connection ≠ .connected
  recorded : FailureOf (core w.state).epoch w.trace

theorem grows_same_jobs {w : GatewayWorld} {event : Event} {state : State}
    (hProgress : Progress (core w.state) (core state))
    (hJobs : (core state).jobs = (core w.state).jobs) :
    Grows w (w.act task (some event) state) := by
  refine Grows.act hProgress fun id epoch outcome hBefore hAfter => ?_
  rw [hJobs, hBefore] at hAfter
  cases hAfter

theorem wp_recordConnected {start w : GatewayWorld} (hLocked : Locked task start w)
    (hBusy : Supervision.repairing w.trace = true ∨ (core w.state).generation = 0)
    {post : Except Error Unit → GatewayWorld → Prop}
    (hOk : ∀ w', Connected task start w' → post (.ok ()) w') :
    Wp config op task (Coro.record .masterConnected State.recordConnected) post w := by
  have hAct := act_recordConnected config hLocked.inv hLocked.holder hBusy
  have hProgress : Progress (core w.state) (core w.state.recordConnected) :=
    ⟨Nat.le_refl _, Nat.le_succ _, id, fun _ _ outcome h => ⟨outcome, h, fun _ => rfl⟩,
      fun _ => Or.inr (Nat.lt_succ_self _)⟩
  refine ⟨hAct, hOk _ ⟨hLocked.act hAct.1 (grows_same_jobs hProgress rfl) rfl rfl, rfl, rfl, ?_⟩⟩
  have hOld := hLocked.grows.progress.generation
  exact Nat.lt_succ_of_le hOld

theorem wp_startAttempts {start w : GatewayWorld} (hLocked : Locked task start w)
    (hBusy : Supervision.repairing w.trace = true) (attempt : Nat) (detail : String)
    (remaining : Nat) {post : Except Error (Option String) → GatewayWorld → Prop}
    (hConnected : ∀ w', Connected task start w' → post (.ok none) w')
    (hFailed : ∀ detail w', Locked task start w' → Supervision.repairing w'.trace = true →
      post (.ok (some detail)) w')
    (hError : ∀ error w', Aborted task start w' error → post (.error error) w') :
    Wp config op task (startAttempts config attempt detail remaining) post w := by
  have hBreak : ∀ (v : GatewayWorld), Locked task start v → Supervision.repairing v.trace = true →
      ∀ error w', Inv w' → Rely task v w' → error.isPazuzu = false →
        (frame config).Marked op task v.trace w' → post (.error error) w' := by
    intro v hV hBusyV error w' hInv hRely hOwn hMarked
    exact hError error w' ⟨hV.rely hInv hRely, hV.broken hRely hBusyV hMarked,
      (upset_of_marked hMarked).mono hV.grows.history, hOwn⟩
  induction remaining generalizing w attempt detail with
  | zero => exact hFailed detail w hLocked hBusy
  | succ remaining ih =>
      -- A failed attempt is cleaned up before the next one.
      have hNext : ∀ message (v : GatewayWorld), Locked task start v →
          Supervision.repairing v.trace = true →
          Wp config op task (do
            Transport.stopMaster config
            if classifyConnectionFailure message = .authenticationRequired then
              return some message
            else
              Coro.when (remaining ≠ 0) (sleep (min 2 (1 / 2 * 2 ^ attempt)))
              startAttempts config (attempt + 1) message remaining) post v := by
        intro message v hV hBusyV
        refine wp_steady_seq (quiet_stopMaster rfl) hV.inv (fun _ v' hInv hRely => ?_) (hBreak v hV hBusyV)
        have hV' := hV.rely hInv hRely
        have hBusyV' := (hV.repairing hRely).trans hBusyV
        refine (Discipline.wp_ite _ _ _).mpr ⟨fun _ => hFailed message v' hV' hBusyV', fun _ => ?_⟩
        refine wp_steady_seq (Calm.when (quiet_sleep _)) hV'.inv (fun _ v'' hInv' hRely' => ?_)
          (hBreak v' hV' hBusyV')
        exact ih (hV'.rely hInv' hRely') ((hV'.repairing hRely').trans hBusyV') (attempt + 1) message
      refine wp_seq ((Discipline.wp_attempt _ _ _).mpr ?_)
      refine wp_quiet (quiet_startMaster rfl) hLocked.inv (fun _ v hInv hRely => ?_)
        fun error v hInv hRely hRaised => ?_
      · refine wp_seq (wp_recordConnected (hLocked.rely hInv hRely)
          (Or.inl ((hLocked.repairing hRely).trans hBusy)) fun v' hUp => hConnected v' hUp)
      · have hV := hLocked.rely hInv hRely
        have hBusyV := (hLocked.repairing hRely).trans hBusy
        cases error with
        | connectionUnavailable message | commandTimedOut message => exact hNext message v hV hBusyV
        | _ =>
            rcases hRaised with hNever | ⟨hOwn, hMarked⟩
            · cases hNever
            · exact hBreak w hLocked hBusy _ v hInv hRely hOwn hMarked

theorem wp_raiseUnavailable {w : GatewayWorld} {post : Except Error α → GatewayWorld → Prop}
    (h : ∀ message, post (.error (.connectionUnavailable message)) w) :
    Wp config op task (raiseUnavailable : Py α) post w := h _

theorem wp_recordFailure {start w : GatewayWorld} (hLocked : Locked task start w)
    (hBusy : Supervision.repairing w.trace = true) (detail : String)
    {post : Except Error Unit → GatewayWorld → Prop}
    (hOk : ∀ w', Failed task start w' → post (.ok ()) w')
    (hError : ∀ w', Aborted task start w' .overflowError → post (.error .overflowError) w') :
    Wp config op task (Supervisor.recordFailure detail) post w := by
  have hDown := classify_cases detail
  have hProgress : Progress (core w.state) (core (w.state.recordFailure detail)) := by
    rw [core_recordFailure]
    exact ⟨Nat.le_refl _, Nat.le_refl _, id, fun _ _ outcome h => ⟨outcome, h, fun _ => rfl⟩,
      fun h => absurd h (not_up_of_down hDown).1⟩
  refine wp_get_seq ?_
  split
  · next delay hDelay =>
      have hAct := act_failureRecorded config hLocked.inv hLocked.holder hBusy detail hDelay
      exact ⟨hAct, hOk _ ⟨hLocked.act hAct.1 (grows_same_jobs hProgress rfl) rfl rfl, rfl,
        (not_up_of_down hDown).1, _, List.mem_cons_self, rfl, rfl⟩⟩
  · next hNoDelay =>
    have hAct := act_backoffOverflowed config hLocked.inv hLocked.holder hBusy detail hNoDelay
    refine wp_record_seq hAct
      (hError _ ⟨hLocked.act hAct.1 (grows_same_jobs hProgress rfl) rfl rfl, ?_, ?_, rfl⟩)
    · exact ⟨_, _, List.suffix_rfl, ⟨.start, Or.inl rfl⟩, hLocked.holder, hBusy⟩
    · exact ⟨_, _, ⟨List.suffix_rfl, hLocked.grows.history⟩, rfl, Or.inl rfl⟩

/-- The only error of a repair that is not a disturbance is the one it has
recorded. -/
theorem wp_repair {w : GatewayWorld} (hInv : Inv w) (hHolder : (core w.state).holder = some task)
    (hIdle : Supervision.repairing w.trace = false)
    {post : Except Error Unit → GatewayWorld → Prop}
    (hOk : ∀ w', Connected task w w' → post (.ok ()) w')
    (hFailed : ∀ message w', Failed task w w' → post (.error (.connectionUnavailable message)) w')
    (hError : ∀ error w', Aborted task w w' error → post (.error error) w') :
    Wp config op task (repair config) post w := by
  have hAct := act_beginRepair config hInv hHolder hIdle
  have hProgress : Progress (core w.state) (core w.state.beginRepair) :=
    ⟨Nat.le_succ _, Nat.le_refl _, id, fun _ _ outcome h => ⟨outcome, h, fun _ => rfl⟩,
      fun h => by cases h⟩
  have hLocked : Locked task w (w.act task (some .repairBegan) w.state.beginRepair) :=
    (Locked.refl hInv hHolder).act hAct.1 (grows_same_jobs hProgress rfl) rfl rfl
  refine wp_record_seq hAct
    (wp_steady_seq (quiet_stopMaster rfl) hLocked.inv (fun _ v hInvV hRely => ?_) ?_)
  · have hV := hLocked.rely hInvV hRely
    have hBusy : Supervision.repairing v.trace = true := (hLocked.repairing hRely).trans rfl
    refine wp_seq (wp_startAttempts hV hBusy 0 _ _ hOk (fun detail v' hV' hBusy' => ?_) hError)
    exact wp_seq (wp_recordFailure hV' hBusy' detail
      (fun w' hRecorded => wp_raiseUnavailable fun message => hFailed message w' hRecorded)
      fun w' hAborted => hError _ w' hAborted)
  · intro error w' hInv' hRely hOwn hMarked
    exact hError error w' ⟨hLocked.rely hInv' hRely, hLocked.broken hRely rfl hMarked,
      (upset_of_marked hMarked).mono hLocked.grows.history, hOwn⟩

/-- What is left when a repair was aborted, and noted so. -/
structure Abandoned (task : Nat) (start w : GatewayWorld) (error : Error) : Prop where
  locked : Locked task start w
  idle : Supervision.repairing w.trace = false
  broken : Broken w.trace
  upset : Upset task start.trace w.trace
  own : error.isPazuzu = false

theorem wp_replaceMaster {w : GatewayWorld} (hInv : Inv w)
    (hHolder : (core w.state).holder = some task) (hIdle : Supervision.repairing w.trace = false)
    {post : Except Error Unit → GatewayWorld → Prop}
    (hOk : ∀ w', Connected task w w' → post (.ok ()) w')
    (hFailed : ∀ message w', Failed task w w' → post (.error (.connectionUnavailable message)) w')
    (hError : ∀ error w', Abandoned task w w' error → post (.error error) w') :
    Wp config op task (replaceMaster config) post w := by
  refine (Discipline.wp_tryCatch _ _).mpr (wp_repair hInv hHolder hIdle hOk hFailed ?_)
  intro error v hAborted
  have hAct := act_repairAborted config hAborted.locked.inv hAborted.locked.holder
    hAborted.broken error
  have hLocked : Locked task w (v.act task (some (.repairAborted error)) v.state) :=
    hAborted.locked.act hAct.1 (grows_same_jobs (Progress.refl _) rfl) rfl rfl
  have hSuffix : v.trace <:+ (v.act task (some (.repairAborted error)) v.state).trace :=
    List.suffix_cons _ _
  have hLeft : Abandoned task w (v.act task (some (.repairAborted error)) v.state) error :=
    ⟨hLocked, rfl, hAborted.broken.mono hSuffix, hAborted.upset.extend hSuffix, hAborted.own⟩
  have hOwn := hAborted.own
  cases error <;> first | exact ⟨hAct, hError _ _ hLeft⟩ | cases hOwn

end Repair
end Pazuzu.Supervision
