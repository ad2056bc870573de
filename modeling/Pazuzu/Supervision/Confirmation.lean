import Pazuzu.Supervision.Runs

/-! On what evidence an exit 255 is reported as the command's own. -/
namespace Pazuzu

def Event.isProbeOpened : Event → Bool
  | .probeOpened => true
  | _ => false

def Event.isSessionEnded : Event → Bool
  | .sessionEnded _ _ => true
  | _ => false

/-- Whether an attempt to adopt or to replace a master begins here. -/
def Event.beginsRepair : Event → Bool
  | .adoptionBegan | .repairBegan => true
  | _ => false

end Pazuzu

namespace Pazuzu.Supervision

open Asyncio

/-- Where the session with exit 255 ended that the answer is about. -/
def EndedBefore (answer : Record) (rest : History) (generation : Nat) (ending : Record)
    (before : History) : Prop :=
  (ending :: before) <:+ rest ∧ ending.task = answer.task ∧
    ∃ result, ending.event = .sessionEnded generation result ∧ result.exitCode = 255

/-- Between the end of the session and the answer, a probe of the same master
came back well, and no repair began. -/
def Confirmed (answer : Record) (rest : History) (generation : Nat) : Prop :=
  ∃ ending before, EndedBefore answer rest generation ending before ∧
    (∃ probe earlier epoch, Since (ending :: before) rest probe earlier ∧
      probe.event = .probeFinished epoch .ok ∧ (core ending.state).epoch = epoch ∧
      (core probe.state).generation = generation) ∧
    ∀ other earlier, Since (ending :: before) rest other earlier → other.event.beginsRepair = false

/-- The same with a probe whose own session was opened after the session with
exit 255 had ended. -/
def ConfirmedAfresh (answer : Record) (rest : History) (generation : Nat) : Prop :=
  ∃ ending before, EndedBefore answer rest generation ending before ∧
    (∃ opened earlier, Since (ending :: before) rest opened earlier ∧ opened.event = .probeOpened ∧
      (core opened.state).generation = generation ∧
      ∃ probe later, Since (opened :: earlier) rest probe later ∧ probe.task = opened.task ∧
        probe.event = .probeEnded .ok) ∧
    ∀ other earlier, Since (ending :: before) rest other earlier → other.event.beginsRepair = false

/-- Within one epoch no repair begins. -/
theorem no_repair_of_epoch {w : GatewayWorld} (hInv : Inv w) {answer ending other : Record}
    {rest before earlier : History} (hAnswer : (answer :: rest) <:+ w.trace)
    (hEpoch : (core ending.state).epoch = (core answer.state).epoch)
    (hOther : Since (ending :: before) rest other earlier) : other.event.beginsRepair = false := by
  have hSuffix : (other :: earlier) <:+ w.trace :=
    (hOther.1.trans (List.suffix_cons _ _)).trans hAnswer
  have hOrder := (hInv.ordered answer rest hAnswer other hOther.mem).epoch
  have hPermitted := hInv.permitted other earlier hSuffix
  have hEnding : ending ∈ earlier := hOther.2.subset List.mem_cons_self
  unfold Permitted at hPermitted
  cases hEvent : other.event with
  | adoptionBegan | repairBegan =>
      rw [hEvent] at hPermitted
      have hLater := hPermitted ending hEnding
      omega
  | _ => rfl

/-- In every run, an exit 255 is returned only with a probe that came back well
since, of the same master and with no repair in between. -/
theorem confirmed_of_run {config : Config} {os : Os} {choices : List (Choice (gateway config))}
    {final : Loop (gateway config)} (hRun : gatewayRun config os choices = some final)
    {answer : Record} {rest : History} (hAnswer : (answer :: rest) <:+ final.world.trace)
    {command : String} {stdin : Python.Bytes} {timeout : ℚ} {retrySafe : Bool}
    (hCalled : .execute command stdin timeout retrySafe ∈ calls (story answer.task rest))
    {result : CommandResult} (hReturned : answer.event = .returned (.command result))
    (hExit : result.exitCode = 255) : Confirmed answer rest result.connectionGeneration := by
  have hInv := inv_of_run hRun
  have hPermitted := hInv.permitted answer rest hAnswer
  unfold Permitted at hPermitted
  rw [hReturned] at hPermitted
  obtain ⟨ending, before, ended, hEnding, hTask, hEvent, hExit', hEpoch, probe, earlier, hProbe,
    hFinished, hGeneration⟩ := hPermitted hExit _ _ _ _ (mem_calls.mp hCalled)
  exact ⟨ending, before, ⟨hEnding, hTask, ended, hEvent, hExit'⟩,
    ⟨probe, earlier, _, hProbe, hFinished, rfl, hGeneration⟩,
    fun other earlier hOther => no_repair_of_epoch hInv hAnswer hEpoch hOther⟩

/-- A health check opens its probe while a command is still running. The
command then exits with 255 and shares the probe. -/
def sharedProbe : List Sample :=
  [execute] ++ resumes 0 5 ++ [.start (.health true), .start (.job 0)] ++ resumes 2 2 ++
    [resume 0 255, resume 2, resume 0]

/-- The newest entry is a returned exit 255, and no probe was opened since a
session ended. -/
def staleAnswer : History → Bool
  | [] => false
  | answer :: rest =>
      (match answer.event with
        | .returned (.command result) =>
            decide (result.exitCode = 255 ∧
              Op.execute "x" [] 100 false ∈ calls (story answer.task rest))
        | _ => false) &&
      decide (Always (fun entry before => entry.event.isProbeOpened = true →
        ∀ other ∈ before, other.event.isSessionEnded = false) rest)

theorem staleAnswer.elim {history : History} (h : staleAnswer history = true) :
    ∃ answer rest result, history = answer :: rest ∧ answer.event = .returned (.command result) ∧
      result.exitCode = 255 ∧ .execute "x" [] 100 false ∈ calls (story answer.task rest) ∧
      Always (fun entry before => entry.event.isProbeOpened = true →
        ∀ other ∈ before, other.event.isSessionEnded = false) rest := by
  cases history with
  | nil => cases h
  | cons answer rest =>
      simp only [staleAnswer, Bool.and_eq_true, decide_eq_true_eq] at h
      obtain ⟨hAnswer, hStale⟩ := h
      split at hAnswer
      · next result hEvent =>
          obtain ⟨hExit, hCalled⟩ := of_decide_eq_true hAnswer
          exact ⟨answer, rest, result, rfl, hEvent, hExit, hCalled, hStale⟩
      · cases hAnswer

theorem confirmed_sharedProbe : ∃ final answer rest result,
    gatewayRun sample survivor sharedProbe = some final ∧ (answer :: rest) <:+ final.world.trace ∧
      answer.event = .returned (.command result) ∧
      Confirmed answer rest result.connectionGeneration := by
  have hRun : (gatewayRun sample survivor sharedProbe).any
      (fun final => staleAnswer final.world.trace) = true := by decide +kernel
  obtain ⟨final, hFinal, hStale⟩ := (Option.any_eq_true _ _).mp hRun
  obtain ⟨answer, rest, result, hTrace, hEvent, hExit, hCalled, -⟩ := staleAnswer.elim hStale
  have hAnswer : (answer :: rest) <:+ final.world.trace := hTrace ▸ List.suffix_rfl
  exact ⟨final, answer, rest, result, hFinal, hAnswer, hEvent,
    confirmed_of_run hFinal hAnswer hCalled hEvent hExit⟩

/-- The probe that confirms an exit 255 may have been opened before. -/
theorem not_confirmedAfresh : ¬∀ (config : Config) (os : Os)
    (choices : List (Choice (gateway config))) (final : Loop (gateway config)),
    gatewayRun config os choices = some final → ∀ answer rest,
      (answer :: rest) <:+ final.world.trace → ∀ command stdin timeout retrySafe,
      .execute command stdin timeout retrySafe ∈ calls (story answer.task rest) →
      ∀ result, answer.event = .returned (.command result) → result.exitCode = 255 →
      ConfirmedAfresh answer rest result.connectionGeneration := by
  intro hClaim
  have hRun : (gatewayRun sample survivor sharedProbe).any
      (fun final => staleAnswer final.world.trace) = true := by decide +kernel
  obtain ⟨final, hFinal, hStale⟩ := (Option.any_eq_true _ _).mp hRun
  obtain ⟨answer, rest, result, hTrace, hEvent, hExit, hCalled, hNone⟩ := staleAnswer.elim hStale
  obtain ⟨ending, before, ⟨-, -, ended, hEnding, -⟩, ⟨opened, earlier, hOpened, hProbe, -⟩, -⟩ :=
    hClaim sample survivor sharedProbe final hFinal answer rest (hTrace ▸ List.suffix_rfl) _ _ _ _
      hCalled result hEvent hExit
  have hNot := hNone.of_suffix hOpened.1 (by rw [hProbe]; rfl) ending
    (hOpened.2.subset List.mem_cons_self)
  rw [hEnding] at hNot
  cases hNot

end Pazuzu.Supervision
