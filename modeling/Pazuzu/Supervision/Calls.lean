import Pazuzu.Supervision.Check

/-! The calls of clients. `execute` and `transfer` are walked through stage by
stage; of every other call only the discipline has to be shown. -/
namespace Pazuzu.Supervision

open Asyncio Supervisor

variable {config : Config} {op : Op} {task : Nat} {α β : Type}

section Slots

theorem quiet_admission {F : Frame (gateway config)} [Transparent F] {marked : Prop} (timeout : ℚ) :
    Quiet F op (fun error => error.isPazuzu = true) marked (admission config timeout) := by
  refine Coro.Calm.bind (quiet_record rfl fun _ => ⟨rfl, rfl⟩) fun _ => Coro.Calm.bind Coro.Calm.get fun state =>
    Coro.Calm.tryFinally ?_ fun _ => quiet_update fun _ => ⟨rfl, rfl⟩
  refine Quiet.tryCatch (quiet_withLock_head _ (quiet_acquireAsync _ _ _)) (fun error hError => ?_)
    fun error hError => ?_
  · subst hError
    exact Coro.Calm.bind Coro.Calm.get fun _ => Quiet.raise rfl
  · cases error <;> first
      | exact Coro.Calm.bind Coro.Calm.get fun _ => Quiet.raise rfl
      | exact Quiet.passOn hError

/-- Calm code has run, and the deciding fields are as before. -/
structure Untouched (task : Nat) (before after : GatewayWorld) : Prop where
  core : core after.state = Supervision.core before.state
  rely : Rely task before after

theorem Untouched.trans {first second third : GatewayWorld} (h : Untouched task first second)
    (h' : Untouched task second third) : Untouched task first third :=
  ⟨h'.core.trans h.core, h.rely.trans h'.rely⟩

theorem Untouched.ran {before after : GatewayWorld} (h : Untouched task before after)
    (hInv : Inv after) : Ran task before after :=
  Ran.of_rely hInv h.rely

theorem act_untouched (config : Config) (task : Nat) (event : Option Event) (state : State)
    {w : GatewayWorld} (hInv : Inv w) (hCore : core state = core w.state)
    (hEvent : ∀ e ∈ event, e.isBackground = true) :
    (discipline config).Act task w (w.act task event state) ∧
      Untouched task w (w.act task event state) := by
  obtain ⟨hAct, hRely⟩ := (@frame_fits config).act task w event state hInv hCore hEvent
  exact ⟨hAct, by rw [World.act_state, hCore], hRely⟩

/-- A slot is held around the body and given back on every way out. -/
theorem wp_hold {w : GatewayWorld} {timeout : ℚ} {body : Py α} (hInv : Inv w)
    {post : Except Error α → GatewayWorld → Prop}
    (hBody : ∀ v, Ran task w v → Wp config op task body (fun outcome v' => Inv v' ∧
      ∀ w', Inv w' → Untouched task v' w' → post outcome w') v)
    (hError : ∀ error w', Ran task w w' → post (.error error) w') :
    Wp config op task (hold config timeout body) post w := by
  refine wp_quiet_seq (quiet_admission timeout) hInv (fun lease v hInvV hRely => ?_)
    fun error v hInvV hRely _ => hError error v (Ran.of_rely hInvV hRely)
  obtain ⟨hAct, hAdded⟩ := act_untouched config task none (State.addActive v.state) hInvV rfl (by simp)
  refine wp_update_seq hAct ((Discipline.wp_tryFinally _ _).mpr
    (Discipline.wp_mono (hBody _ (Ran.of_rely hAct.1 (hRely.trans hAdded.rely))) ?_))
  rintro outcome v' ⟨hInv', hPost⟩
  obtain ⟨hDrop, hDropped⟩ :=
    act_untouched config task none (State.dropActive v'.state) hInv' rfl (by simp)
  obtain ⟨hFree, hFreed⟩ := act_untouched config task (some (.leaseReleased lease))
    { State.dropActive v'.state with os := v'.state.os.free lease } hDrop.1 rfl
    fun _ he => Option.mem_some_iff.mp he ▸ rfl
  exact wp_update_seq hDrop ⟨hFree, hPost _ hFree.1 (hDropped.trans hFreed)⟩

/-- An operation's body starts on a connected generation. -/
theorem wp_operation {w : GatewayWorld} {timeout : ℚ} {body : Nat → ℚ → Py α} (hInv : Inv w)
    {post : Except Error α → GatewayWorld → Prop}
    (hBody : ∀ remaining v, Ran task w v → 1 ≤ (core v.state).generation →
      Wp config op task (body (core v.state).generation remaining) (fun outcome v' => Inv v' ∧
        ∀ w', Inv w' → Untouched task v' w' → post outcome w') v)
    (hError : ∀ error w', Ran task w w' → post (.error error) w') :
    Wp config op task (operation config timeout body) post w := by
  refine wp_get_seq (wp_hold hInv (fun v hRan => ?_) hError)
  have hFail : ∀ error v', Ran task v v' → Inv v' ∧
      ∀ w', Inv w' → Untouched task v' w' → post (.error error) w' := fun error v' hRan' =>
    ⟨hRan'.inv, fun w' hInv' hSame => hError error w' ((hRan.trans hRan').trans (hSame.ran hInv'))⟩
  refine wp_seq (wp_ensureConnected hRan.inv true (fun v' hRan' hPositive => ?_)
    fun error v' hRan' => hFail error v' hRan')
  refine wp_get_seq ((Discipline.wp_ite _ _ _).mpr ⟨fun _ => ?_, fun _ => ?_⟩)
  · exact hFail _ v' hRan'
  · exact hBody _ v' (hRan.trans hRan') hPositive

end Slots

section Stages

/-- A command stands at a stage. -/
structure Stands (op : Op) (task : Nat) (stage : Stage) (w : GatewayWorld) : Prop where
  inv : Inv w
  born : task < w.started
  path : Path op (story task w.trace) stage

theorem Stands.ran {stage : Stage} {w w' : GatewayWorld} (h : Stands op task stage w)
    (hRan : Ran task w w') : Stands op task stage w' :=
  ⟨hRan.inv, h.born.trans_le hRan.grows.started, by rw [hRan.story]; exact h.path⟩

/-- A mark that takes a command to its next stage. -/
theorem Stands.tell (config : Config) {stage next : Stage} {w : GatewayWorld} {event : Event}
    (h : Stands op task stage w) (hStep : Step op stage event next) (hRepair : event.isRepair = false)
    (hStory : event.isStory = true) (hPermitted : Permitted ⟨task, event, w.state⟩ w.trace) :
    (discipline config).Act task w (w.act task (some event) w.state) ∧
      Stands op task next (w.act task (some event) w.state) ∧
      Grows w (w.act task (some event) w.state) := by
  have hPath : Path op (event :: story task w.trace) next := Path.step h.path hStep
  have hAct := act_mark config task event h.inv hRepair (fun _ => ⟨h.born, hPath.lawful⟩) hPermitted
  refine ⟨hAct, ⟨hAct.1, by simpa using h.born, ?_⟩, Grows.act_same rfl⟩
  rw [World.act_some_trace, story_cons_same _ _ _ _ hStory]
  exact hPath

/-- A command may end by this event. -/
def Ending (op : Op) (task : Nat) (event : Event) (w : GatewayWorld) : Prop :=
  ∃ stage next, Stands op task stage w ∧ Step op stage event next

theorem Ending.ran {event : Event} {w w' : GatewayWorld} (h : Ending op task event w)
    (hRan : Ran task w w') : Ending op task event w' := by
  obtain ⟨stage, next, hStands, hStep⟩ := h
  exact ⟨stage, next, hStands.ran hRan, hStep⟩

/-- The session has ended, and the deciding fields are as they were then. -/
def JustEnded (task generation : Nat) (result : ProcessResult) (w : GatewayWorld) : Prop :=
  ∃ state before, (⟨task, .sessionEnded generation result, state⟩ :: before) <:+ w.trace ∧
    core state = core w.state

theorem JustEnded.untouched {generation : Nat} {result : ProcessResult} {w w' : GatewayWorld}
    (h : JustEnded task generation result w) (hSame : Untouched task w w') :
    JustEnded task generation result w' := by
  obtain ⟨state, before, hTrace, hCore⟩ := h
  exact ⟨state, before, hTrace.trans hSame.rely.grows.history, hCore.trans hSame.core.symm⟩

/-- A process that exists fails its caller by its deadline or by the caller's
own cancellation only. -/
theorem wp_process {w : GatewayWorld} (argv : List String) (stdin : Python.Bytes) (deadline : ℚ)
    (limit : Nat) {post : Except Error ProcessResult → GatewayWorld → Prop}
    (hOk : ∀ result w', Inv w' → Rely task w w' → post (.ok result) w')
    (hError : ∀ error w', Inv w' → Rely task w w' → error = .timeoutError ∨ error = .cancelled →
      post (.error error) w') :
    Wp config op task (wait (.process argv stdin deadline limit)) post w := by
  refine (Discipline.wp_suspend (G := gatewaySignature) (P := gateway config) _ _).mpr ?_
  intro later reply state hLater hWait hDeliver
  obtain ⟨hAnswer, hSelf⟩ := answers op task (.process argv stdin deadline limit) reply later state
    hLater hDeliver
  have hAll := hWait.trans hSelf
  cases reply with
  | ok result => exact hOk result _ hAnswer.1 hAll
  | error error =>
      refine hError error _ hAnswer.1 hAll ?_
      simp only [gateway, Host.deliver] at hDeliver
      split at hDeliver
      · next hRaises => cases error <;> first | exact Or.inl rfl | cases hRaises
      · split at hDeliver
        · next hCancelled => exact Or.inr hCancelled
        · cases hDeliver

/-- One session of a command, from the mark before it to the mark after it. -/
theorem wp_session {stage : Stage} {first : Option Nat} {w : GatewayWorld} (command : String)
    (stdin : Python.Bytes) (remaining : ℚ) (hStands : Stands op task stage w)
    (hSend : Step op stage (.sessionCalled (core w.state).generation remaining)
      (.sent first (core w.state).generation))
    {post : Except Error (ProcessResult × Nat) → GatewayWorld → Prop}
    (hOk : ∀ result w', Grows w w' →
      Stands op task (.ended first (core w.state).generation result) w' →
      JustEnded task (core w.state).generation result w' →
      post (.ok (result, (core w.state).generation)) w')
    (hError : ∀ error w', Grows w w' → Ending op task (.raised error) w' → post (.error error) w') :
    Wp config op task (do
      Coro.mark (.sessionCalled (core w.state).generation remaining)
      let result ← Transport.session config command stdin remaining
        (Coro.mark (.sessionStarted (core w.state).generation))
      Coro.mark (.sessionEnded (core w.state).generation result)
      return (result, (core w.state).generation)) post w := by
  obtain ⟨hAct, hSent, hGrows⟩ := hStands.tell config hSend rfl rfl trivial
  refine wp_mark_seq hAct (wp_seq ((Discipline.wp_tryCatch _ _).mpr ?_))
  -- A launch fails before there is a process for the command.
  refine wp_quiet_seq (quiet_launch _) hSent.inv (fun _ v hInvV hRely => ?_)
    fun error v hInvV hRely hRaised => ?_
  · have hV := hSent.ran (Ran.of_rely hInvV hRely)
    obtain ⟨hAct', hRunning, hGrows'⟩ := hV.tell config
      (Step.start first (core w.state).generation) rfl rfl trivial
    refine wp_mark_seq hAct' (wp_get_seq (wp_process _ _ _ _ (fun result u hInvU hRely' => ?_)
      fun error u hInvU hRely' hWhy => ?_))
    · have hU := hRunning.ran (Ran.of_rely hInvU hRely')
      obtain ⟨hAct'', hEnded, hGrows''⟩ := hU.tell config
        (Step.finish first (core w.state).generation result) rfl rfl trivial
      refine wp_mark_seq hAct'' (hOk result _ ?_ hEnded ⟨_, _, List.suffix_rfl, by simp⟩)
      exact (((hGrows.trans hRely.grows).trans hGrows').trans hRely'.grows).trans hGrows''
    · have hU := hRunning.ran (Ran.of_rely hInvU hRely')
      have hAll := ((hGrows.trans hRely.grows).trans hGrows').trans hRely'.grows
      rcases hWhy with rfl | rfl <;>
        exact hError _ u hAll ⟨_, _, hU, Step.giveUpRunning first _ _ rfl⟩
  · have hEnding : ∀ e : Error, Ending op task (.raised e) v := fun e =>
      ⟨_, _, hSent.ran (Ran.of_rely hInvV hRely), Step.giveUpSent first _ e⟩
    have hAll := hGrows.trans hRely.grows
    cases error <;> exact hError _ v hAll (hEnding _)

/-- A session under a slot, on a generation that is connected by then. -/
theorem wp_runSession {stage : Stage} {first : Option Nat} {w : GatewayWorld} (command : String)
    (stdin : Python.Bytes) (timeout : ℚ) (hStands : Stands op task stage w)
    (hSend : ∀ generation remaining, (core w.state).generation ≤ generation →
      Step op stage (.sessionCalled generation remaining) (.sent first generation))
    (hGiveUp : ∀ error, Step op stage (.raised error) .done)
    {post : Except Error (ProcessResult × Nat) → GatewayWorld → Prop}
    (hOk : ∀ result generation w', Grows w w' → 1 ≤ generation →
      generation ≤ (core w'.state).generation → Stands op task (.ended first generation result) w' →
      JustEnded task generation result w' → post (.ok (result, generation)) w')
    (hError : ∀ error w', Grows w w' → Ending op task (.raised error) w' → post (.error error) w') :
    Wp config op task (runSession config command stdin timeout) post w := by
  refine wp_operation hStands.inv (fun remaining v hRan hPositive => ?_) fun error w' hRan =>
    hError error w' hRan.grows ⟨_, _, hStands.ran hRan, hGiveUp error⟩
  refine wp_session command stdin remaining (hStands.ran hRan)
    (hSend _ _ hRan.grows.progress.generation) (fun result v' hGrows hEnded hJust => ?_)
    fun error v' hGrows hEnding => ?_
  · refine ⟨hEnded.inv, fun w' hInv' hSame => ?_⟩
    have hRan' : Ran task _ w' := hSame.ran hInv'
    have hAll := hGrows.trans hRan'.grows
    exact hOk result _ w' (hRan.grows.trans hAll) hPositive hAll.progress.generation
      (hEnded.ran hRan') (hJust.untouched hSame)
  · obtain ⟨stage', next, hAt, hStep⟩ := hEnding
    refine ⟨hAt.inv, fun w' hInv' hSame => ?_⟩
    have hRan' : Ran task _ w' := hSame.ran hInv'
    exact hError error w' (hRan.grows.trans (hGrows.trans hRan'.grows))
      ⟨stage', next, hAt.ran hRan', hStep⟩

end Stages

section Results

/-- How a command ends: with a result or an error its story allows, and with
the evidence that an exit 255 takes. -/
def Finished (op : Op) (task : Nat) : Except Error CommandResult → GatewayWorld → Prop
  | .ok result, w => Ending op task (.returned (.command result)) w ∧
      Permitted ⟨task, .returned (.command result), w.state⟩ w.trace
  | .error error, w => Ending op task (.raised error) w

/-- The abstract step that a check's verdict, or its error, makes. -/
theorem Stands.told {stage next : Stage} {event : Event} {w w' : GatewayWorld}
    (h : Stands op task stage w) (hTold : Told task event w w') (hStep : Step op stage event next) :
    Stands op task next w' :=
  ⟨hTold.inv, h.born.trans_le hTold.grows.started, by rw [hTold.story]; exact Path.step h.path hStep⟩

theorem Stands.checkable {stage : Stage} {generation : Nat} {w : GatewayWorld}
    (h : Stands op task stage w)
    (hAnswered : ∀ verdict, ∃ next, Step op stage (.checkAnswered generation verdict) next)
    (hRaised : ∀ error, ∃ next, Step op stage (.checkRaised generation error) next) :
    Checkable task generation w := by
  refine ⟨h.born, fun verdict => ?_, fun error => ?_⟩
  · obtain ⟨next, hStep⟩ := hAnswered verdict
    exact (Path.step h.path hStep).lawful
  · obtain ⟨next, hStep⟩ := hRaised error
    exact (Path.step h.path hStep).lawful

/-- After a session that exited with 255 every outcome of a check is foreseen. -/
theorem Stands.checkable_ended {first : Option Nat} {generation : Nat} {result : ProcessResult}
    {w : GatewayWorld} (h : Stands op task (.ended first generation result) w)
    (hExit : result.exitCode = 255) : Checkable task generation w := by
  refine h.checkable (fun verdict => ?_) fun error => ⟨_, Step.doubt first generation result error hExit⟩
  by_cases hVerdict : verdict = .healthy
  · subst hVerdict
    exact ⟨_, Step.confirm first generation result hExit⟩
  · exact ⟨_, Step.lose first generation result verdict hExit hVerdict⟩

/-- A check that finds the master healthy is the evidence for an exit 255. -/
theorem JustEnded.evidence {generation : Nat} {result : ProcessResult} {event answer : Event}
    {w w' : GatewayWorld} (h : JustEnded task generation result w) (hExit : result.exitCode = 255)
    (hTold : Told task event w w') (hAnswer : Answer generation .healthy w w') :
    Evidence ⟨task, answer, w'.state⟩ w'.trace generation := by
  obtain ⟨state, before, hTrace, hCore⟩ := h
  obtain ⟨hEpoch, probe, earlier, hSince, hProbe, hGeneration⟩ := hAnswer.healthy rfl
  refine ⟨⟨task, .sessionEnded generation result, state⟩, before, result, ?_, rfl, rfl, hExit, ?_,
    probe, earlier, ?_, ?_, hGeneration⟩
  · exact hTrace.trans hTold.grows.history
  · rw [hCore, hEpoch]
  · exact hSince.mono hTrace
  · rw [hCore]
    exact hProbe

theorem Finished.answer {first : Option Nat} {generation : Nat} {result : ProcessResult}
    {w : GatewayWorld} (h : Stands op task (.ended first generation result) w)
    (hExit : result.exitCode ≠ 255) :
    Finished op task (.ok (commandResult result generation first.isSome)) w :=
  ⟨⟨_, _, h, Step.answer first generation result hExit⟩, fun hSame => absurd hSame hExit⟩

theorem wp_safeRepairAfterCommand {w : GatewayWorld} {generation : Nat} (hInv : Inv w)
    (hLow : 1 ≤ generation) (hHigh : generation ≤ (core w.state).generation)
    (hCheckable : Checkable task generation w) {post : Except Error Bool → GatewayWorld → Prop}
    (hOk : ∀ verdict w', Told task (.checkAnswered generation verdict) w w' →
      Answer generation verdict w w' → post (.ok (verdict != .healthy)) w')
    (hUnavailable : ∀ message detail w',
      Told task (.checkRaised generation (.connectionUnavailable detail)) w w' →
      post (.error (.uncertainExecution message)) w')
    (hError : ∀ error w', Told task (.checkRaised generation error) w w' →
      error.isPazuzu = false → post (.error error) w') :
    Wp config op task (safeRepairAfterCommand config generation) post w := by
  refine (Discipline.wp_tryCatch _ _).mpr (wp_seq (wp_check hInv hLow hHigh hCheckable hOk
    (fun detail w' hTold => hUnavailable _ detail w' hTold) fun error w' hTold hOwn => ?_))
  cases error <;> first | exact hError _ w' hTold hOwn | cases hOwn

theorem not_unavailable {error : Error} (h : error.isPazuzu = false) :
    error.isConnectionUnavailable = false := by
  cases error <;> first | rfl | cases h

/-- The one replay, with its own check. -/
theorem wp_replayOnce {w : GatewayWorld} {generation : Nat} {verdict : Verdict} (command : String)
    (stdin : Python.Bytes) (timeout : ℚ) (hStands : Stands op task (.lost none generation verdict) w)
    (hSafe : op.isRetrySafe = true) (hHigh : generation ≤ (core w.state).generation)
    (hReplaced : verdict = .replaced → generation < (core w.state).generation) :
    Wp config op task (replayOnce config command stdin timeout) (Finished op task) w := by
  refine wp_seq (wp_runSession command stdin timeout hStands (fun next remaining hNext =>
      Step.resend generation next verdict remaining hSafe (hHigh.trans hNext) fun h =>
        (hReplaced h).trans_le hNext)
    (fun error => Step.giveUpReplay generation verdict error hSafe)
    (fun result next v _ hLow hNext hEnded hJust => ?_) fun error v _ hEnding => hEnding)
  refine (Discipline.wp_ite _ _ _).mpr ⟨fun hExit => ?_, fun hExit => ?_⟩
  · refine wp_seq (wp_check hEnded.inv hLow hNext (hEnded.checkable_ended hExit)
      (fun verdict' u hTold hAnswer => ?_) (fun message u hTold => ?_) fun error u hTold _ => ?_)
    · refine (Discipline.wp_ite _ _ _).mpr ⟨fun hHealthy => ?_, fun hNot => ?_⟩
      · subst hHealthy
        have hConfirmed := hEnded.told hTold (Step.confirm _ next result hExit)
        exact ⟨⟨_, _, hConfirmed, Step.answerConfirmed _ next result⟩, fun _ _ _ _ _ _ =>
          hJust.evidence hExit hTold hAnswer⟩
      · exact ⟨_, _, hEnded.told hTold (Step.lose _ next result verdict' hExit hNot),
          Step.loseAgain generation next verdict' _⟩
    · exact ⟨_, _, hEnded.told hTold (Step.doubt _ next result _ hExit),
        Step.failSecondCheck generation _⟩
    · exact ⟨_, _, hEnded.told hTold (Step.doubt _ next result _ hExit),
        Step.failSecondCheck generation _⟩
  · exact Finished.answer hEnded hExit

theorem wp_settle {w : GatewayWorld} {generation : Nat} {result : ProcessResult} (command : String)
    (stdin : Python.Bytes) (timeout : ℚ) (hStands : Stands op task (.ended none generation result) w)
    (hJust : JustEnded task generation result w) (hLow : 1 ≤ generation)
    (hHigh : generation ≤ (core w.state).generation) :
    Wp config op task (settle config command stdin timeout op.isRetrySafe result generation)
      (Finished op task) w := by
  refine (Discipline.wp_ite _ _ _).mpr ⟨fun hExit => Finished.answer hStands hExit, fun hExit => ?_⟩
  have hExit' : result.exitCode = 255 := by simpa using hExit
  refine wp_seq (wp_safeRepairAfterCommand hStands.inv hLow hHigh (hStands.checkable_ended hExit')
    (fun verdict v hTold hAnswer => ?_) (fun message detail v hTold => ?_)
    fun error v hTold hOwn => ?_)
  · refine (Discipline.wp_ite _ _ _).mpr ⟨fun hBad => ?_, fun hGood => ?_⟩
    · have hVerdict : verdict ≠ .healthy := by simpa using hBad
      have hLost := hStands.told hTold (Step.lose none generation result verdict hExit' hVerdict)
      refine (Discipline.wp_ite _ _ _).mpr ⟨fun hSafe => ?_, fun hUnsafe => ?_⟩
      · exact wp_replayOnce command stdin timeout hLost hSafe
          (hHigh.trans hTold.grows.progress.generation) hAnswer.replaced
      · exact ⟨_, _, hLost, Step.refuseReplay generation verdict _ (by simpa using hUnsafe)⟩
    · obtain rfl : verdict = .healthy := by simpa using hGood
      have hConfirmed := hStands.told hTold (Step.confirm none generation result hExit')
      exact ⟨⟨_, _, hConfirmed, Step.answerConfirmed none generation result⟩, fun _ _ _ _ _ _ =>
        hJust.evidence hExit' hTold hAnswer⟩
  · exact ⟨_, _, hStands.told hTold (Step.doubt none generation result _ hExit'),
      Step.uncertain _ message⟩
  · exact ⟨_, _, hStands.told hTold (Step.doubt none generation result _ hExit'),
      Step.failCheck error (not_unavailable hOwn)⟩

/-- `execute` walks the machine of a command to its end. -/
theorem wp_execute {w : GatewayWorld} (command : String) (stdin : Python.Bytes) (timeout : ℚ)
    (hStands : Stands op task .waiting w) :
    Wp config op task (execute config command stdin timeout op.isRetrySafe) (Finished op task) w := by
  have hRefused : ∀ error, Finished op task (.error error) w := fun error =>
    ⟨_, _, hStands, Step.giveUp error⟩
  refine (Discipline.wp_ite _ _ _).mpr ⟨fun _ => hRefused _, fun _ =>
    (Discipline.wp_ite _ _ _).mpr ⟨fun _ => hRefused _, fun _ => ?_⟩⟩
  exact wp_seq (wp_runSession command stdin timeout hStands
    (fun generation remaining _ => Step.send generation remaining) Step.giveUp
    (fun result generation v _ hLow hHigh hEnded hJust =>
      wp_settle command stdin timeout hEnded hJust hLow hHigh) fun error v _ hEnding => hEnding)

theorem quiet_runTransfer {F : Frame (gateway config)} [Transparent F] {marked : Prop}
    (argv : List String) (timeout : ℚ) (limit : Nat) :
    Quiet F op (fun _ => True) marked (runTransfer argv timeout limit) := by
  refine Coro.Calm.ite (Quiet.raise trivial) (Quiet.tryCatch (quiet_runProcess _ _ _ _
    (Coro.Calm.pure _)) (fun error _ => ?_) fun error _ => ?_)
  · cases error <;> exact Quiet.raise trivial
  · cases error <;> exact Quiet.raise trivial

/-- Once the transfer is called, its story may go on with any event but a
second call. -/
theorem Finished.copied {generation : Nat} {outcome : Except Error CommandResult} {w : GatewayWorld}
    (h : Stands op task (.copying generation) w) (hTransfer : op.isTransfer = true) :
    Finished op task outcome w := by
  have hEnding : ∀ event, (∀ later, event ≠ .transferCalled later) →
      (∀ other, event ≠ .called other) → Ending op task event w := fun event hCopy hCall =>
    ⟨_, _, h, Step.copyEvent generation event hCopy hCall⟩
  cases outcome with
  | error error => exact hEnding _ (by simp) (by simp)
  | ok result =>
      refine ⟨hEnding _ (by simp) (by simp), fun _ command stdin timeout retrySafe hCalled => ?_⟩
      rw [← h.path.called_unique hCalled] at hTransfer
      cases hTransfer

/-- `transfer` calls its copy at most once, whatever happens. -/
theorem wp_transfer {w : GatewayWorld} (tool : String) (arguments : List String)
    (executable : String) (timeout : ℚ) (hStands : Stands op task .waiting w)
    (hTransfer : op.isTransfer = true) :
    Wp config op task (transfer config tool arguments executable timeout) (Finished op task) w := by
  have hRefused : ∀ error (v : GatewayWorld), Stands op task .waiting v →
      Finished op task (.error error) v := fun error v hV => ⟨_, _, hV, Step.giveUp error⟩
  refine (Discipline.wp_ite _ _ _).mpr ⟨fun _ => hRefused _ w hStands, fun _ =>
    (Discipline.wp_ite _ _ _).mpr ⟨fun _ => hRefused _ w hStands, fun _ =>
      (Discipline.wp_ite _ _ _).mpr ⟨fun _ => hRefused _ w hStands, fun _ => wp_get_seq ?_⟩⟩⟩
  refine wp_seq ((Discipline.wp_ofExcept _).mpr ?_)
  split
  · refine wp_seq (wp_operation hStands.inv (fun remaining v hRan hPositive => ?_) fun error v hRan =>
      hRefused error v (hStands.ran hRan))
    obtain ⟨hAct, hCopying, hGrows⟩ := (hStands.ran hRan).tell config
      (Step.copy (core v.state).generation hTransfer) rfl rfl trivial
    refine wp_mark_seq hAct (wp_quiet_seq (quiet_runTransfer _ _ _) hCopying.inv
      (fun result u hInvU hRely => ?_) fun error u hInvU hRely _ => ?_)
    · refine ⟨hInvU, fun w' hInv' hSame => ?_⟩
      have hRan' := (Ran.of_rely hInvU hRely).trans (hSame.ran hInv')
      have hCopied := hCopying.ran hRan'
      refine (Discipline.wp_ite _ _ _).mpr ⟨fun _ => ?_, fun _ => Finished.copied hCopied hTransfer⟩
      have hTold' : ∀ (event : Event) (v' : GatewayWorld) (outcome : Except Error CommandResult),
          Told task event w' v' → (∀ later, event ≠ .transferCalled later) →
          (∀ other, event ≠ .called other) → Finished op task outcome v' :=
        fun event v' outcome hTold hCopy hCall => Finished.copied
          (hCopied.told hTold (Step.copyEvent _ event hCopy hCall)) hTransfer
      refine wp_seq (wp_safeRepairAfterCommand hInv' hPositive
        ((hGrows.trans hRan'.grows).progress.generation) (hCopied.checkable
          (fun verdict => ⟨_, Step.copyEvent _ _ (by simp) (by simp)⟩)
          fun error => ⟨_, Step.copyEvent _ _ (by simp) (by simp)⟩)
        (fun verdict v' hTold _ => hTold' _ v' (.ok _) hTold (by simp) (by simp))
        (fun message detail v' hTold => hTold' _ v' (.error _) hTold (by simp) (by simp))
        fun error v' hTold _ => hTold' _ v' (.error _) hTold (by simp) (by simp))
    · refine ⟨hInvU, fun w' hInv' hSame => ?_⟩
      have hCopied := hCopying.ran ((Ran.of_rely hInvU hRely).trans (hSame.ran hInv'))
      exact (Finished.copied hCopied hTransfer : Finished op task (.error error) w')
  · exact hRefused _ w hStands

end Results
end Pazuzu.Supervision
