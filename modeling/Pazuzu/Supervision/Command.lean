import Pazuzu.Supervision.History

/-! The abstract life of one command. Where `execute` and `transfer` have got
to is a stage, and each event their client could be told of is a step between
stages. What is promised about a command is proved of the paths of this
machine; that the code walks only such paths is proved elsewhere. -/
namespace Pazuzu.Supervision

open Asyncio

/-- `first` is the generation of the session that a replay follows. -/
inductive Stage where
  | waiting
  | sent (first : Option Nat) (generation : Nat)
  | running (first : Option Nat) (generation : Nat)
  | ended (first : Option Nat) (generation : Nat) (result : ProcessResult)
  | confirmed (first : Option Nat) (generation : Nat) (result : ProcessResult)
  | lost (first : Option Nat) (generation : Nat) (verdict : Verdict)
  | doubtful (first : Option Nat) (error : Error)
  | copying (generation : Nat)
  | done

end Pazuzu.Supervision

namespace Pazuzu

/-- Calls that run something for a client. -/
def Op.isCommand : Op → Bool
  | .execute _ _ _ _ | .transfer _ _ _ _ => true
  | _ => false

/-- Calls whose command may be sent again. -/
def Op.isRetrySafe : Op → Bool
  | .execute _ _ _ retrySafe => retrySafe
  | _ => false

def Op.isTransfer : Op → Bool
  | .transfer _ _ _ _ => true
  | _ => false

def Error.isConnectionUnavailable : Error → Bool
  | .connectionUnavailable _ => true
  | _ => false

end Pazuzu

namespace Pazuzu.Supervision

inductive Step (op : Op) : Stage → Event → Stage → Prop where
  | send (generation : Nat) (timeout : ℚ) :
      Step op .waiting (.sessionCalled generation timeout) (.sent none generation)
  | start (first : Option Nat) (generation : Nat) :
      Step op (.sent first generation) (.sessionStarted generation) (.running first generation)
  | finish (first : Option Nat) (generation : Nat) (result : ProcessResult) :
      Step op (.running first generation) (.sessionEnded generation result)
        (.ended first generation result)
  | confirm (first : Option Nat) (generation : Nat) (result : ProcessResult)
      (hExit : result.exitCode = 255) :
      Step op (.ended first generation result) (.checkAnswered generation .healthy)
        (.confirmed first generation result)
  | lose (first : Option Nat) (generation : Nat) (result : ProcessResult) (verdict : Verdict)
      (hExit : result.exitCode = 255) (hVerdict : verdict ≠ .healthy) :
      Step op (.ended first generation result) (.checkAnswered generation verdict)
        (.lost first generation verdict)
  | doubt (first : Option Nat) (generation : Nat) (result : ProcessResult) (error : Error)
      (hExit : result.exitCode = 255) :
      Step op (.ended first generation result) (.checkRaised generation error)
        (.doubtful first error)
  | resend (generation next : Nat) (verdict : Verdict) (timeout : ℚ)
      (hSafe : op.isRetrySafe = true) (hOrder : generation ≤ next)
      (hReplaced : verdict = .replaced → generation < next) :
      Step op (.lost none generation verdict) (.sessionCalled next timeout)
        (.sent (some generation) next)
  | answer (first : Option Nat) (generation : Nat) (result : ProcessResult)
      (hExit : result.exitCode ≠ 255) :
      Step op (.ended first generation result)
        (.returned (.command (commandResult result generation first.isSome))) .done
  | answerConfirmed (first : Option Nat) (generation : Nat) (result : ProcessResult) :
      Step op (.confirmed first generation result)
        (.returned (.command (commandResult result generation first.isSome))) .done
  | giveUp (error : Error) : Step op .waiting (.raised error) .done
  | giveUpSent (first : Option Nat) (generation : Nat) (error : Error) :
      Step op (.sent first generation) (.raised error) .done
  | giveUpRunning (first : Option Nat) (generation : Nat) (error : Error)
      (hError : error.isConnectionUnavailable = false) :
      Step op (.running first generation) (.raised error) .done
  | refuseReplay (generation : Nat) (verdict : Verdict) (message : String)
      (hSafe : op.isRetrySafe = false) :
      Step op (.lost none generation verdict) (.raised (.uncertainExecution message)) .done
  | giveUpReplay (generation : Nat) (verdict : Verdict) (error : Error)
      (hSafe : op.isRetrySafe = true) :
      Step op (.lost none generation verdict) (.raised error) .done
  | loseAgain (first generation : Nat) (verdict : Verdict) (error : Error) :
      Step op (.lost (some first) generation verdict) (.raised error) .done
  | uncertain (error : Error) (message : String) :
      Step op (.doubtful none error) (.raised (.uncertainExecution message)) .done
  | failCheck (error : Error) (hError : error.isConnectionUnavailable = false) :
      Step op (.doubtful none error) (.raised error) .done
  | failSecondCheck (first : Nat) (error : Error) :
      Step op (.doubtful (some first) error) (.raised error) .done
  | copy (generation : Nat) (hTransfer : op.isTransfer = true) :
      Step op .waiting (.transferCalled generation) (.copying generation)
  | copyEvent (generation : Nat) (event : Event) (hCopy : ∀ later, event ≠ .transferCalled later)
      (hCall : ∀ other, event ≠ .called other) :
      Step op (.copying generation) event (.copying generation)

/-- The stories that lead to a stage. -/
inductive Path (op : Op) : List Event → Stage → Prop where
  | called : Path op [.called op] .waiting
  | step {story : List Event} {stage next : Stage} {event : Event}
      (hPath : Path op story stage) (hStep : Step op stage event next) :
      Path op (event :: story) next

/-- A story begins with its own call and with no other. -/
theorem Path.called_unique {op other : Op} {story : List Event} {stage : Stage}
    (h : Path op story stage) (hCalled : .called other ∈ story) : other = op := by
  induction h with
  | called => simpa using hCalled
  | step hPath hStep ih =>
      rcases List.mem_cons.mp hCalled with hEq | hOld
      · subst hEq
        cases hStep with
        | copyEvent generation event hCopy hCall => exact absurd rfl (hCall other)
      · exact ih hOld

/-- Only a transfer copies. -/
theorem not_copying {op : Op} {story : List Event} {generation : Nat} (hOp : op.isTransfer = false) :
    ¬Path op story (.copying generation) := by
  suffices h : ∀ stage, Path op story stage → ∀ copied, stage ≠ .copying copied from
    fun hPath => h _ hPath generation rfl
  intro stage hPath
  induction hPath with
  | called => simp
  | step hPath hStep ih =>
      cases hStep with
      | copy generation hTransfer =>
          rw [hOp] at hTransfer
          cases hTransfer
      | copyEvent generation => exact absurd rfl (ih generation)
      | _ => simp

/-- A story ends when its call does. -/
theorem Path.ended {op : Op} {story : List Event} {stage : Stage} {event : Event}
    (h : Path op story stage) (hOp : op.isTransfer = false) (hEvent : event.isEnd = true)
    (hMem : event ∈ story) :
    stage = .done ∧ ∃ rest before, story = event :: rest ∧ Path op rest before ∧
      Step op before event .done := by
  induction h with
  | called =>
      rw [List.mem_singleton] at hMem
      subst hMem
      cases hEvent
  | @step rest before stage newest hPath hStep ih =>
      rcases List.mem_cons.mp hMem with rfl | hOld
      · have hDone : stage = .done := by
          cases hStep <;> first | rfl | cases hEvent | skip
          next hCopy _ => exact absurd hPath (not_copying hOp)
        subst hDone
        exact ⟨rfl, rest, before, rfl, hPath, hStep⟩
      · obtain ⟨rfl, -⟩ := ih hOld
        cases hStep

/-- A story that a command may tell at any time. -/
def Lawful (story : List Event) : Prop :=
  ∀ op, .called op ∈ story → op.isCommand = true → ∃ stage, Path op story stage

theorem Path.lawful {op : Op} {story : List Event} {stage : Stage} (h : Path op story stage) :
    Lawful story := by
  intro other hCalled _
  obtain rfl := h.called_unique hCalled
  exact ⟨stage, h⟩

end Pazuzu.Supervision
