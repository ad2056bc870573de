import Pazuzu.Supervision.Runs

/-! The generation a client is told of. A result or an attachment names one
that there has been by then. -/
namespace Pazuzu.Supervision

open Asyncio Supervisor

variable {config : Config} {op : Op} {task generation : Nat} {start v w : GatewayWorld}

/-- There has been this generation. -/
def Known (generation : Nat) (w : GatewayWorld) : Prop :=
  1 ≤ generation ∧ generation ≤ (core w.state).generation

theorem Known.grows (h : Known generation v) (hGrows : Grows v w) : Known generation w :=
  ⟨h.1, h.2.trans hGrows.progress.generation⟩

/-- A command that has ended well ran on a generation that there has been. -/
def RanOnKnown (outcome : Except Error CommandResult) (w : GatewayWorld) : Prop :=
  ∀ result, outcome = .ok result → Known result.connectionGeneration w

theorem RanOnKnown.error (error : Error) (w : GatewayWorld) : RanOnKnown (.error error) w :=
  fun _ h => by cases h

theorem RanOnKnown.ok {result : ProcessResult} (h : Known generation w) (replayed : Bool) :
    RanOnKnown (.ok (commandResult result generation replayed)) w :=
  fun _ hResult => by
    cases hResult
    exact h

theorem known_replayOnce {verdict : Verdict} (command : String) (stdin : Python.Bytes) (timeout : ℚ)
    (hStands : Stands op task (.lost none generation verdict) w) (hSafe : op.isRetrySafe = true)
    (hHigh : generation ≤ (core w.state).generation)
    (hReplaced : verdict = .replaced → generation < (core w.state).generation) :
    Wp config op task (replayOnce config command stdin timeout) RanOnKnown w := by
  refine wp_seq (wp_runSession command stdin timeout hStands (fun next remaining hNext =>
      Step.resend generation next verdict remaining hSafe (hHigh.trans hNext) fun h =>
        (hReplaced h).trans_le hNext)
    (fun error => Step.giveUpReplay generation verdict error hSafe)
    (fun result next v _ hLow hNext hEnded _ => ?_) fun error v _ _ => RanOnKnown.error error v)
  have hKnown : Known next v := ⟨hLow, hNext⟩
  refine (Discipline.wp_ite _ _ _).mpr ⟨fun hExit => ?_, fun _ => RanOnKnown.ok hKnown true⟩
  refine wp_seq (wp_check hEnded.inv hLow hNext (hEnded.checkable_ended hExit)
    (fun verdict' u hTold _ => ?_) (fun message u _ => RanOnKnown.error _ u)
    fun error u _ _ => RanOnKnown.error error u)
  exact (Discipline.wp_ite _ _ _).mpr
    ⟨fun _ => RanOnKnown.ok (hKnown.grows hTold.grows) true, fun _ => RanOnKnown.error _ u⟩

theorem known_settle {result : ProcessResult} (command : String) (stdin : Python.Bytes) (timeout : ℚ)
    (hStands : Stands op task (.ended none generation result) w) (hKnown : Known generation w) :
    Wp config op task (settle config command stdin timeout op.isRetrySafe result generation)
      RanOnKnown w := by
  refine (Discipline.wp_ite _ _ _).mpr ⟨fun _ => RanOnKnown.ok hKnown false, fun hExit => ?_⟩
  have hExit' : result.exitCode = 255 := by simpa using hExit
  refine wp_seq (wp_safeRepairAfterCommand hStands.inv hKnown.1 hKnown.2 (hStands.checkable_ended hExit')
    (fun verdict v hTold hAnswer => ?_) (fun message detail v _ => RanOnKnown.error _ v)
    fun error v _ _ => RanOnKnown.error error v)
  refine (Discipline.wp_ite _ _ _).mpr
    ⟨fun hBad => ?_, fun _ => RanOnKnown.ok (hKnown.grows hTold.grows) false⟩
  have hVerdict : verdict ≠ .healthy := by simpa using hBad
  refine (Discipline.wp_ite _ _ _).mpr ⟨fun hSafe => ?_, fun _ => RanOnKnown.error _ v⟩
  exact known_replayOnce command stdin timeout
    (hStands.told hTold (Step.lose none generation result verdict hExit' hVerdict)) hSafe
    (hKnown.grows hTold.grows).2 hAnswer.replaced

theorem known_execute (command : String) (stdin : Python.Bytes) (timeout : ℚ)
    (hStands : Stands op task .waiting w) :
    Wp config op task (Supervisor.execute config command stdin timeout op.isRetrySafe) RanOnKnown w := by
  refine (Discipline.wp_ite _ _ _).mpr ⟨fun _ => RanOnKnown.error _ w, fun _ =>
    (Discipline.wp_ite _ _ _).mpr ⟨fun _ => RanOnKnown.error _ w, fun _ => ?_⟩⟩
  exact wp_seq (wp_runSession command stdin timeout hStands
    (fun generation remaining _ => Step.send generation remaining) Step.giveUp
    (fun result generation v _ hLow hHigh hEnded _ => known_settle command stdin timeout hEnded ⟨hLow, hHigh⟩)
    fun error v _ _ => RanOnKnown.error error v)

theorem known_transfer (tool : String) (arguments : List String) (executable : String) (timeout : ℚ)
    (hStands : Stands op task .waiting w) (hTransfer : op.isTransfer = true) :
    Wp config op task (transfer config tool arguments executable timeout) RanOnKnown w := by
  refine (Discipline.wp_ite _ _ _).mpr ⟨fun _ => RanOnKnown.error _ w, fun _ =>
    (Discipline.wp_ite _ _ _).mpr ⟨fun _ => RanOnKnown.error _ w, fun _ =>
      (Discipline.wp_ite _ _ _).mpr ⟨fun _ => RanOnKnown.error _ w, fun _ => wp_get_seq ?_⟩⟩⟩
  refine wp_seq ((Discipline.wp_ofExcept _).mpr ?_)
  split
  · refine wp_seq (wp_operation hStands.inv (fun remaining v hRan hPositive => ?_) fun error v _ =>
      RanOnKnown.error error v)
    obtain ⟨hAct, hCopying, hGrows⟩ := (hStands.ran hRan).tell config
      (Step.copy (core v.state).generation hTransfer) rfl rfl trivial
    refine wp_mark_seq hAct (wp_quiet_seq (quiet_runTransfer _ _ _) hCopying.inv
      (fun result u hInvU hRely => ?_) fun error u hInvU _ _ =>
        ⟨hInvU, fun w' _ _ => RanOnKnown.error error w'⟩)
    refine ⟨hInvU, fun w' hInv' hSame => ?_⟩
    have hRan' := (Ran.of_rely hInvU hRely).trans (hSame.ran hInv')
    have hKnown : Known (core v.state).generation w' :=
      Known.grows ⟨hPositive, le_rfl⟩ (hGrows.trans hRan'.grows)
    refine (Discipline.wp_ite _ _ _).mpr ⟨fun _ => ?_, fun _ => RanOnKnown.ok hKnown false⟩
    exact wp_seq (wp_safeRepairAfterCommand hInv' hPositive hKnown.2 ((hCopying.ran hRan').checkable
        (fun verdict => ⟨_, Step.copyEvent _ _ (by simp) (by simp)⟩)
        fun error => ⟨_, Step.copyEvent _ _ (by simp) (by simp)⟩)
      (fun verdict u hTold _ => RanOnKnown.ok (hKnown.grows hTold.grows) false)
      (fun message detail u _ => RanOnKnown.error _ u) fun error u _ _ => RanOnKnown.error error u)
  · exact RanOnKnown.error _ w

/-- An attachment is made for the generation it names. -/
theorem generation_attachment {attachment : SshAttachment}
    (h : Supervisor.attachment config generation = .ok attachment) : attachment.generation = generation := by
  unfold Supervisor.attachment SshAttachment.make at h
  split_ifs at h
  cases h
  rfl

theorem known_connectionAttachment (hIdles : Idles task start w) :
    Wp config op task (connectionAttachment config) (fun outcome v => ∀ attachment,
      outcome = .ok attachment → Known attachment.generation v) w := by
  refine wp_seq (wp_ensureConnected hIdles.inv true (fun v hRan hPositive => ?_) fun error v _ _ h => by cases h)
  have hIdlesV := (hIdles.ran hRan).here
  refine wp_get_seq (wp_seq (Discipline.wp_mono (stays_repairIfBroken hIdlesV hPositive) ?_))
  rintro (error | value) u hIdlesU
  · exact fun _ h => by cases h
  · refine wp_get_seq ((Discipline.wp_ofExcept _).mpr fun attachment hAttachment => ?_)
    rw [generation_attachment hAttachment]
    exact ⟨hPositive.trans hIdlesU.grows.progress.generation, le_rfl⟩

end Pazuzu.Supervision
