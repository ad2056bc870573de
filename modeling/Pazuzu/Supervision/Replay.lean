import Pazuzu.Supervision.Bookkeeping

/-! Whether a replay runs on a newer master than the session it repeats. The
machine of a command decides; that the code follows it holds in every run. -/
namespace Pazuzu.Supervision

open Asyncio

/-- The generations on which a command was sent, the last one first. -/
def sessions (story : List Event) : List Nat :=
  story.filterMap fun event => match event with
    | .sessionCalled generation _ => some generation
    | _ => none

/-- The session on this generation ended with exit 255. -/
def Exited (generation : Nat) (story : List Event) : Prop :=
  ∃ result, .sessionEnded generation result ∈ story ∧ result.exitCode = 255

/-- Right after the only session so far, a check has kept its master. -/
def KeptOn (generation : Nat) (story : List Event) : Prop :=
  ∃ before, (.checkAnswered generation .degraded :: before) <:+ story ∧ sessions before = [generation]

/-- The sessions of a command. A replay follows an exit 255, and goes to a newer
generation unless the check of the first session has kept the old one. -/
def Sends (story : List Event) (first : Option Nat) (generation : Nat) : Prop :=
  sessions story = generation :: first.toList ∧ ∀ before ∈ first, Exited before story ∧
    (before < generation ∨ KeptOn before story)

/-- What the stage of a command says of its sessions. -/
def Sent (story : List Event) : Stage → Prop
  | .waiting => sessions story = []
  | .sent first generation | .running first generation | .confirmed first generation _ =>
      Sends story first generation
  | .ended first generation result => Sends story first generation ∧
      .sessionEnded generation result ∈ story
  | .lost first generation verdict => Sends story first generation ∧ Exited generation story ∧
      verdict ≠ .healthy ∧ ∃ before, story = .checkAnswered generation verdict :: before ∧
        sessions before = generation :: first.toList
  | .doubtful first _ => ∃ generation, Sends story first generation
  | .copying _ => False
  | .done => sessions story = [] ∨ ∃ first generation, Sends story first generation

section Sessions

variable {op : Op} {story : List Event} {stage : Stage} {event : Event}

theorem Exited.cons {generation : Nat} (h : Exited generation story) :
    Exited generation (event :: story) := by
  obtain ⟨result, hMem, hExit⟩ := h
  exact ⟨result, List.mem_cons_of_mem _ hMem, hExit⟩

theorem KeptOn.cons {generation : Nat} (h : KeptOn generation story) : KeptOn generation (event :: story) := by
  obtain ⟨before, hSuffix, hOnly⟩ := h
  exact ⟨before, hSuffix.trans (List.suffix_cons _ _), hOnly⟩

theorem Sends.cons {first : Option Nat} {generation : Nat} (h : Sends story first generation)
    (hEvent : sessions (event :: story) = sessions story) :
    Sends (event :: story) first generation :=
  ⟨hEvent.trans h.1, fun before hBefore =>
    ⟨(h.2 before hBefore).1.cons, (h.2 before hBefore).2.imp_right KeptOn.cons⟩⟩

theorem Path.sent (h : Path op story stage) (hOp : op.isTransfer = false) : Sent story stage := by
  induction h with
  | called => rfl
  | @step story before next event hPath hStep ih =>
      cases hStep with
      | send generation timeout => exact ⟨congrArg (List.cons generation) ih, by simp⟩
      | start => exact Sends.cons ih rfl
      | finish => exact ⟨Sends.cons ih rfl, List.mem_cons_self⟩
      | confirm => exact Sends.cons ih.1 rfl
      | lose first generation result verdict hExit hVerdict =>
          exact ⟨ih.1.cons rfl, ⟨result, List.mem_cons_of_mem _ ih.2, hExit⟩, hVerdict,
            story, rfl, ih.1.1⟩
      | doubt first generation => exact ⟨generation, ih.1.cons rfl⟩
      | resend generation next verdict timeout hSafe hOrder hReplaced =>
          obtain ⟨hSends, hExited, hVerdict, earlier, rfl, hOnly⟩ := ih
          refine ⟨congrArg (List.cons next) hSends.1, ?_⟩
          rintro other ⟨⟩
          refine ⟨hExited.cons, ?_⟩
          cases verdict with
          | healthy => exact absurd rfl hVerdict
          | degraded => exact Or.inr ⟨earlier, List.suffix_cons _ _, hOnly⟩
          | replaced => exact Or.inl (hReplaced rfl)
      | answer first generation => exact Or.inr ⟨first, generation, ih.1.cons rfl⟩
      | answerConfirmed first generation => exact Or.inr ⟨first, generation, Sends.cons ih rfl⟩
      | giveUp => exact Or.inl ih
      | giveUpSent first generation | giveUpRunning first generation =>
          exact Or.inr ⟨first, generation, Sends.cons ih rfl⟩
      | refuseReplay generation | giveUpReplay generation =>
          exact Or.inr ⟨none, generation, ih.1.cons rfl⟩
      | loseAgain first generation => exact Or.inr ⟨some first, generation, ih.1.cons rfl⟩
      | uncertain | failCheck =>
          obtain ⟨generation, hSends⟩ := ih
          exact Or.inr ⟨none, generation, hSends.cons rfl⟩
      | failSecondCheck first =>
          obtain ⟨generation, hSends⟩ := ih
          exact Or.inr ⟨some first, generation, hSends.cons rfl⟩
      | copy generation hTransfer =>
          rw [hOp] at hTransfer
          cases hTransfer
      | copyEvent => exact ih

/-- A result reports the generation of the last session, and whether it was a
replay. -/
theorem Path.reported (h : Path op story stage) (hOp : op.isTransfer = false)
    {result : CommandResult} (hMem : .returned (.command result) ∈ story) :
    ∃ first, Sends story first result.connectionGeneration ∧ result.replayed = first.isSome := by
  obtain ⟨-, rest, before, rfl, hPath, hStep⟩ := h.ended hOp rfl hMem
  have hSent := hPath.sent hOp
  cases hStep with
  | answer first => exact ⟨first, hSent.1.cons rfl, rfl⟩
  | answerConfirmed first => exact ⟨first, Sends.cons hSent rfl, rfl⟩

end Sessions

/-- A command is sent at most twice, the second time only after an exit 255 of
the first session and on a newer generation, and a replayed result says so. -/
structure ReplaysOnNewer (story : List Event) : Prop where
  twice : (sessions story).length ≤ 2
  exited : ∀ first second, sessions story = [second, first] → Exited first story
  newer : ∀ first second, sessions story = [second, first] → first < second
  reported : ∀ result, .returned (.command result) ∈ story → result.replayed = true →
    ∃ first, sessions story = [result.connectionGeneration, first] ∧
      first < result.connectionGeneration

theorem Sends.of_sessions {story : List Event} {first second : Nat}
    (h : sessions story = [] ∨ ∃ first generation, Sends story first generation)
    (hSessions : sessions story = [second, first]) : Sends story (some first) second := by
  rcases h with hNone | ⟨before, generation, hSends⟩
  · rw [hNone] at hSessions
    cases hSessions
  · have hEq := hSends.1.symm.trans hSessions
    cases before with
    | none => cases hEq
    | some before =>
        cases hEq
        exact hSends

/-- Whatever the stage, the sessions are those of one command. -/
theorem Sent.any {story : List Event} {stage : Stage} (h : Sent story stage) :
    sessions story = [] ∨ ∃ first generation, Sends story first generation := by
  cases stage with
  | waiting => exact Or.inl h
  | sent first generation | running first generation | confirmed first generation =>
      exact Or.inr ⟨first, generation, h⟩
  | ended first generation | lost first generation => exact Or.inr ⟨first, generation, h.1⟩
  | doubtful first => exact Or.inr ⟨first, h⟩
  | copying => exact h.elim
  | done => exact h

theorem Path.replaysOnNewer {op : Op} {story : List Event} {stage : Stage} (h : Path op story stage)
    (hOp : op.isTransfer = false) (hKept : ∀ generation, ¬KeptOn generation story) :
    ReplaysOnNewer story := by
  have hAny := (h.sent hOp).any
  have hNewer : ∀ first second, Sends story (some first) second → first < second :=
    fun first second hSends => (hSends.2 first rfl).2.resolve_right (hKept first)
  refine ⟨?_, ?_, ?_, ?_⟩
  · rcases hAny with hNone | ⟨first, generation, hSends⟩
    · simp [hNone]
    · rw [hSends.1]
      cases first <;> simp
  · exact fun first second hSessions => ((Sends.of_sessions hAny hSessions).2 first rfl).1
  · exact fun first second hSessions => hNewer first second (Sends.of_sessions hAny hSessions)
  · intro result hReturned hReplayed
    obtain ⟨first, hSends, hSame⟩ := h.reported hOp hReturned
    rw [hReplayed] at hSame
    obtain ⟨before, rfl⟩ := Option.isSome_iff_exists.mp hSame.symm
    exact ⟨before, hSends.1, hNewer _ _ hSends⟩

/-- The events of a story stand in the history. -/
theorem exists_entry {task : Nat} {event : Event} {before : List Event} {history : History}
    (h : (event :: before) <:+ story task history) :
    ∃ entry rest, (entry :: rest) <:+ history ∧ entry.task = task ∧ entry.event = event ∧
      story task rest = before := by
  induction history with
  | nil => cases List.suffix_nil.mp h
  | cons newest rest ih =>
      obtain ⟨teller, told, state⟩ := newest
      by_cases hOwn : teller = task ∧ told.isStory = true
      · obtain ⟨rfl, hStory⟩ := hOwn
        rw [story_cons_same _ _ _ _ hStory] at h
        rcases List.suffix_cons_iff.mp h with hEq | hIn
        · obtain ⟨rfl, rfl⟩ := List.cons.inj hEq
          exact ⟨_, rest, List.suffix_rfl, rfl, rfl, rfl⟩
        · obtain ⟨entry, older, hSuffix, hEntry⟩ := ih hIn
          exact ⟨entry, older, hSuffix.trans (List.suffix_cons _ _), hEntry⟩
      · have hOther : teller ≠ task ∨ told.isStory = false := by
          rw [← Bool.not_eq_true]
          exact not_and_or.mp hOwn
        rw [story_cons_other _ hOther] at h
        obtain ⟨entry, older, hSuffix, hEntry⟩ := ih h
        exact ⟨entry, older, hSuffix.trans (List.suffix_cons _ _), hEntry⟩

/-- After the first session, and before the second is called, the command's
check is never told of a slow or busy probe, with too few of them against the
master, by whose socket `-O check` is then answered. -/
def NeverAnswersLocally (config : Config) (task : Nat) (history : History) : Prop :=
  ∀ rest, rest <:+ history → (sessions (story task rest)).length = 1 → ¬AnswersLocally config task rest

/-- In every run, a command that may be replayed is replayed on a newer
generation, unless the check of its first session finds an ambiguous probe that
does not count enough and a master that answers locally. -/
theorem replaysOnNewer_of_run {config : Config} {os : Os} {choices : List (Choice (gateway config))}
    {final : Loop (gateway config)} (hRun : gatewayRun config os choices = some final) (task : Nat)
    {command : String} {stdin : Python.Bytes} {timeout : ℚ}
    (hCalled : .execute command stdin timeout true ∈ calls (story task final.world.trace))
    (hLocal : NeverAnswersLocally config task final.world.trace) :
    ReplaysOnNewer (story task final.world.trace) := by
  obtain ⟨stage, hPath⟩ := (inv_of_run hRun).lawful task _ (mem_calls.mp hCalled) rfl
  refine hPath.replaysOnNewer rfl ?_
  rintro generation ⟨before, hSuffix, hOnly⟩
  obtain ⟨entry, rest, hEntry, hTask, hEvent, hStory⟩ := exists_entry hSuffix
  have hWarranted := (ledger_of_run hRun).warranted entry rest hEntry
  unfold Warranted at hWarranted
  rw [hEvent, hTask] at hWarranted
  refine hLocal rest ((List.suffix_cons _ _).trans hEntry) ?_ hWarranted
  rw [hStory, hOnly]
  rfl

/-- Whether the task's check is told of an ambiguous probe here. -/
def asksAmbiguously (task : Nat) (entry : Record) : Bool :=
  entry.task == task && match entry.event with
    | .checkProbed .slow | .checkProbed .busy => true
    | _ => false

theorem AnswersLocally.asks {config : Config} {task : Nat} {history : History}
    (h : AnswersLocally config task history) : history.any (asksAmbiguously task) = true := by
  obtain ⟨asked, earlier, weighed, checked, rest, outcome, hAsked, hSince, ⟨hTask, hEvent⟩, hAmbiguous, -⟩ := h
  have hMem : asked ∈ history := ((hAsked.trans hSince.2).trans ((List.suffix_cons _ _).trans hSince.1)).subset
    List.mem_cons_self
  refine List.any_eq_true.mpr ⟨asked, hMem, ?_⟩
  rcases hAmbiguous with rfl | rfl <;> simp [asksAmbiguously, hTask, hEvent]

/-- The first session is lost, the master replaced, and the command repeated.
The repeated session ends with exit 255 as well, and the check after it keeps
the new master. -/
def replay : List Sample :=
  [execute true] ++ resumes 0 5 ++ [resume 0 255, .start (.job 0)] ++ resumes 1 2 ++
    [resume 1 1, resume 0 0 .failed, resume 0, resume 0 255] ++ recovery ++ resumes 0 3 ++
    [resume 0 255, .start (.job 1)] ++ resumes 2 2 ++ [.disturb (.tick 30), late 2, resume 0 0 .slow] ++ resumes 0 2

theorem replaysOnNewer_replay : ∃ final, gatewayRun sample survivor replay = some final ∧
    ReplaysOnNewer (story 0 final.world.trace) ∧ sessions (story 0 final.world.trace) = [2, 1] := by
  have hRun : (gatewayRun sample survivor replay).any (fun final : Loop (gateway sample) => decide
      (Op.execute "x" [] 100 true ∈ calls (story 0 final.world.trace) ∧
        sessions (story 0 final.world.trace) = [2, 1] ∧
        ∀ rest ∈ final.world.trace.tails, (sessions (story 0 rest)).length = 1 →
          rest.any (asksAmbiguously 0) = false)) = true := by decide +kernel
  obtain ⟨final, hFinal, hStory⟩ := (Option.any_eq_true _ _).mp hRun
  obtain ⟨hCalled, hSessions, hNever⟩ := of_decide_eq_true hStory
  refine ⟨final, hFinal, replaysOnNewer_of_run hFinal 0 hCalled fun rest hRest hOne hLocal => ?_, hSessions⟩
  have hAsks := hLocal.asks
  rw [hNever rest ((List.mem_tails _ _).mpr hRest) hOne] at hAsks
  cases hAsks

/-- A probe that ends too late lets the check keep the master, and the command
is sent again through it. -/
theorem replayed_on_same : ¬∀ (config : Config) (os : Os) (choices : List (Choice (gateway config)))
    (final : Loop (gateway config)), gatewayRun config os choices = some final →
    ∀ task command stdin timeout,
      .execute command stdin timeout true ∈ calls (story task final.world.trace) →
      ReplaysOnNewer (story task final.world.trace) := by
  intro hClaim
  have hRun : (gatewayRun sample survivor ([execute true] ++ resumes 0 5 ++
      [resume 0 255, .start (.job 0)] ++ resumes 1 2 ++
      [.disturb (.tick 30), late 1, resume 0 0 .slow] ++ resumes 0 6)).any (fun final => decide
        (Op.execute "x" [] 100 true ∈ calls (story 0 final.world.trace) ∧
          sessions (story 0 final.world.trace) = [1, 1])) = true := by decide +kernel
  obtain ⟨final, hFinal, hStory⟩ := (Option.any_eq_true _ _).mp hRun
  obtain ⟨hCalled, hSessions⟩ := of_decide_eq_true hStory
  exact absurd ((hClaim sample survivor _ final hFinal 0 _ _ _ hCalled).newer 1 1 hSessions)
    (Nat.lt_irrefl 1)

end Pazuzu.Supervision
