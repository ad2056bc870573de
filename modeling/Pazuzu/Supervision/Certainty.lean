import Pazuzu.Supervision.Replay

/-! Work that must not be repeated is started at most once, and the error of
such a call tells whether it was started. -/
namespace Pazuzu.Supervision

open Asyncio

/-- The sessions that got a process, by their generations. -/
def starts (story : List Event) : List Nat :=
  story.filterMap fun event => match event with
    | .sessionStarted generation => some generation
    | _ => none

/-- The sessions that came to an end, with their results. -/
def ends (story : List Event) : List (Nat × ProcessResult) :=
  story.filterMap fun event => match event with
    | .sessionEnded generation result => some (generation, result)
    | _ => none

theorem mem_ends {generation : Nat} {result : ProcessResult} {story : List Event} :
    (generation, result) ∈ ends story ↔ .sessionEnded generation result ∈ story := by
  simp only [ends, List.mem_filterMap]
  constructor
  · rintro ⟨event, hEvent, hEnd⟩
    split at hEnd <;> cases hEnd
    exact hEvent
  · exact fun h => ⟨_, h, rfl⟩

/-- What the stage of a command that is never repeated says of its session. -/
def SentOnce (story : List Event) : Stage → Prop
  | .waiting => sessions story = [] ∧ starts story = [] ∧ ends story = []
  | .sent first generation => first = none ∧ sessions story = [generation] ∧ starts story = [] ∧
      ends story = []
  | .running first generation => first = none ∧ sessions story = [generation] ∧ ends story = []
  | .ended first generation result => first = none ∧ sessions story = [generation] ∧
      ends story = [(generation, result)]
  | .confirmed first generation result => first = none ∧ sessions story = [generation] ∧
      ends story = [(generation, result)] ∧ .checkAnswered generation .healthy ∈ story
  | .lost first generation _ => first = none ∧ sessions story = [generation]
  | .doubtful first error => first = none ∧ (∃ generation, sessions story = [generation]) ∧
      ∃ generation, .checkRaised generation error ∈ story
  | .copying _ => False
  | .done => (sessions story).length ≤ 1

section Sessions

variable {op : Op} {story : List Event} {stage : Stage}

theorem Path.sentOnce (h : Path op story stage) (hOp : op.isTransfer = false)
    (hUnsafe : op.isRetrySafe = false) : SentOnce story stage := by
  have hNever : op.isRetrySafe ≠ true := by simp [hUnsafe]
  induction h with
  | called => exact ⟨rfl, rfl, rfl⟩
  | @step story before next event hPath hStep ih =>
      cases hStep with
      | send generation => exact ⟨rfl, congrArg (List.cons generation) ih.1, ih.2.1, ih.2.2⟩
      | start => exact ⟨ih.1, ih.2.1, ih.2.2.2⟩
      | finish first generation result =>
          exact ⟨ih.1, ih.2.1, congrArg (List.cons (generation, result)) ih.2.2⟩
      | confirm => exact ⟨ih.1, ih.2.1, ih.2.2, List.mem_cons_self⟩
      | lose => exact ⟨ih.1, ih.2.1⟩
      | doubt first generation result error =>
          exact ⟨ih.1, ⟨generation, ih.2.1⟩, generation, List.mem_cons_self⟩
      | resend generation next verdict timeout hSafe => exact absurd hSafe hNever
      | giveUpReplay generation verdict error hSafe => exact absurd hSafe hNever
      | giveUp => exact (congrArg List.length ih.1).trans_le (Nat.zero_le 1)
      | answer | answerConfirmed | giveUpSent | giveUpRunning =>
          exact (congrArg List.length ih.2.1).le
      | refuseReplay => exact (congrArg List.length ih.2).le
      | loseAgain => exact nomatch ih.1
      | uncertain | failCheck =>
          obtain ⟨-, ⟨generation, hSessions⟩, -⟩ := ih
          exact (congrArg List.length hSessions).le
      | failSecondCheck => exact nomatch ih.1
      | copy generation hTransfer =>
          rw [hOp] at hTransfer
          cases hTransfer
      | copyEvent => exact ih

/-- After an exit 255 the call returns it as confirmed, is uncertain, or its
check failed in a way that the connection does not explain. -/
theorem Path.outcome (h : Path op story stage) (hOp : op.isTransfer = false)
    (hUnsafe : op.isRetrySafe = false) {generation : Nat} {result : ProcessResult}
    (hEnded : .sessionEnded generation result ∈ story) (hExit : result.exitCode = 255)
    (hEnd : ∃ event ∈ story, event.isEnd = true) :
    (.checkAnswered generation .healthy ∈ story ∧
      .returned (.command (commandResult result generation)) ∈ story) ∨
    (∃ message, .raised (.uncertainExecution message) ∈ story) ∨
    ∃ checked error, .checkRaised checked error ∈ story ∧ error.isConnectionUnavailable = false := by
  obtain ⟨event, hMem, hIsEnd⟩ := hEnd
  obtain ⟨-, rest, before, rfl, hPath, hStep⟩ := h.ended hOp hIsEnd hMem
  have hOnce := hPath.sentOnce hOp hUnsafe
  have hIn : (generation, result) ∈ ends rest := by
    refine mem_ends.mpr ((List.mem_cons.mp hEnded).resolve_left ?_)
    rintro rfl
    cases hIsEnd
  cases hStep with
  | giveUp =>
      rw [hOnce.2.2] at hIn
      cases hIn
  | giveUpSent =>
      rw [hOnce.2.2.2] at hIn
      cases hIn
  | giveUpRunning =>
      rw [hOnce.2.2] at hIn
      cases hIn
  | answer first other finished hOther =>
      rw [hOnce.2.2, List.mem_singleton] at hIn
      cases hIn
      exact absurd hExit hOther
  | answerConfirmed first other finished =>
      obtain ⟨rfl, -, hEnds, hHealthy⟩ := hOnce
      rw [hEnds, List.mem_singleton] at hIn
      cases hIn
      exact Or.inl ⟨List.mem_cons_of_mem _ hHealthy, List.mem_cons_self⟩
  | refuseReplay generation verdict message => exact Or.inr (Or.inl ⟨message, List.mem_cons_self⟩)
  | giveUpReplay generation verdict error hSafe =>
      rw [hUnsafe] at hSafe
      cases hSafe
  | loseAgain => exact nomatch hOnce.1
  | uncertain error message => exact Or.inr (Or.inl ⟨message, List.mem_cons_self⟩)
  | failCheck error hError =>
      obtain ⟨-, -, checked, hRaised⟩ := hOnce
      exact Or.inr (Or.inr ⟨checked, error, List.mem_cons_of_mem _ hRaised, hError⟩)
  | failSecondCheck => exact nomatch hOnce.1

end Sessions

end Pazuzu.Supervision
