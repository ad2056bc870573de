import Pazuzu.Supervision.Runs

/-! What a repair leaves behind that is given up before it has connected or
recorded its failure, and what every other repair leaves. -/
namespace Pazuzu

/-- Whether a task is given up at a wait of its own. -/
def Event.isGivenUp : Event → Bool
  | .interrupted _ .cancelled => true
  | _ => false

end Pazuzu

namespace Pazuzu.Supervision

open Asyncio

section Waiting

/-- In every run, a check that finds the connection unavailable before the
gateway stops knows of a recorded failure of the last repair, exactly if it does
not find that repair abandoned. -/
theorem recorded_iff_of_run {config : Config} {os : Os} {choices : List (Choice (gateway config))}
    {final : Loop (gateway config)} (hRun : gatewayRun config os choices = some final)
    {entry : Record} {rest : History} (hSuffix : (entry :: rest) <:+ final.world.trace)
    {generation : Nat} {message : String}
    (hRaised : entry.event = .checkRaised generation (.connectionUnavailable message))
    (hOpen : (core entry.state).closed = false) :
    FailureOf (core entry.state).epoch rest ↔ (core entry.state).connection ≠ .reconnecting := by
  have hPermitted := (inv_of_run hRun).permitted entry rest hSuffix
  unfold Permitted at hPermitted
  rw [hRaised] at hPermitted
  obtain ⟨hOutage, hUnrecorded, -⟩ := hPermitted
  constructor
  · exact fun hFailure hState => hUnrecorded hState hFailure
  · intro hState
    rcases (hOutage rfl).2 with hClosed | hAbandoned | hFailure
    · rw [hOpen] at hClosed
      cases hClosed
    · exact absurd hAbandoned hState
    · exact hFailure

theorem eq_of_unavailable {error : Error} (h : error.isConnectionUnavailable = true) :
    ∃ message, error = .connectionUnavailable message := by
  cases error with
  | connectionUnavailable message => exact ⟨message, rfl⟩
  | _ => cases h

/-- No master can be launched. -/
def refuse (task : Nat) : Sample := .resume task fun wait => match wait with
  | .spawnMaster _ => .error (.osError "no such file")
  | other => oblige 255 .failed other

/-- Two commands have lost the master. The repair of the first fails, and the
second has waited for it. -/
def awaitedRepair : List Sample :=
  [execute] ++ resumes 0 5 ++ [execute] ++ resumes 1 3 ++
    [resume 0 255, resume 1 255, .start (.job 0)] ++ resumes 2 2 ++
    [resume 2 1, resume 0 0 .failed, resume 1 0 .failed, resume 0, resume 0 255, refuse 0, .disturb (.tick 1),
      resume 0, refuse 0, resume 1]

theorem recorded_awaitedRepair : ∃ final entry rest,
    gatewayRun sample survivor awaitedRepair = some final ∧ (entry :: rest) <:+ final.world.trace ∧
      entry.task = 1 ∧ (core entry.state).connection ≠ .reconnecting ∧
      FailureOf (core entry.state).epoch rest := by
  have hRun : (gatewayRun sample survivor awaitedRepair).any (fun final =>
      final.world.trace.any fun entry => match entry.event with
        | .checkRaised _ error => decide (entry.task = 1 ∧ error.isConnectionUnavailable = true ∧
            (core entry.state).closed = false ∧ (core entry.state).connection ≠ .reconnecting)
        | _ => false) = true := by decide +kernel
  obtain ⟨final, hFinal, hAny⟩ := (Option.any_eq_true _ _).mp hRun
  obtain ⟨entry, hEntry, hFound⟩ := List.any_eq_true.mp hAny
  obtain ⟨rest, hSuffix⟩ := exists_suffix_of_mem hEntry
  split at hFound
  · next generation error hRaised =>
      obtain ⟨hTask, hUnavailable, hOpen, hState⟩ := of_decide_eq_true hFound
      obtain ⟨message, rfl⟩ := eq_of_unavailable hUnavailable
      exact ⟨final, entry, rest, hFinal, hSuffix, hTask, hState,
        (recorded_iff_of_run hFinal hSuffix hRaised hOpen).mpr hState⟩
  · cases hFound

/-- Two commands have lost the master. The first begins the repair and is given
up; the second, which has waited for it, reports a failure nobody has recorded. -/
theorem abandoned_reported : ¬∀ (config : Config) (os : Os)
    (choices : List (Choice (gateway config))) (final : Loop (gateway config)),
    gatewayRun config os choices = some final → ∀ entry rest,
      (entry :: rest) <:+ final.world.trace → ∀ generation message,
      entry.event = .checkRaised generation (.connectionUnavailable message) →
      (core entry.state).closed = false → FailureOf (core entry.state).epoch rest := by
  intro hClaim
  have hRun : (gatewayRun sample survivor ([execute] ++ resumes 0 5 ++ [execute] ++ resumes 1 3 ++
      [resume 0 255, resume 1 255, .start (.job 0)] ++ resumes 2 2 ++
      [resume 2 1, resume 0 0 .failed, resume 1 0 .failed, cancel 0, resume 1])).any (fun final =>
        final.world.trace.all (fun entry => !entry.event.isFailure) &&
        final.world.trace.any fun entry => match entry.event with
          | .checkRaised _ error =>
              decide (error.isConnectionUnavailable = true ∧ (core entry.state).closed = false)
          | _ => false) = true := by decide +kernel
  obtain ⟨final, hFinal, hBoth⟩ := (Option.any_eq_true _ _).mp hRun
  obtain ⟨hNone, hAny⟩ := Bool.and_eq_true_iff.mp hBoth
  obtain ⟨entry, hEntry, hFound⟩ := List.any_eq_true.mp hAny
  obtain ⟨rest, hSuffix⟩ := exists_suffix_of_mem hEntry
  split at hFound
  · next generation error hRaised =>
      obtain ⟨hUnavailable, hOpen⟩ := of_decide_eq_true hFound
      obtain ⟨message, rfl⟩ := eq_of_unavailable hUnavailable
      obtain ⟨failure, hFailure, hRecorded, -⟩ := hClaim sample survivor _ final hFinal entry rest
        hSuffix generation message hRaised hOpen
      have hNot := List.all_eq_true.mp hNone failure
        (hSuffix.subset (List.mem_cons_of_mem _ hFailure))
      rw [hRecorded] at hNot
      cases hNot
  · cases hFound

end Waiting

section Leaving

/-- What a repair leaves that has failed: a state that says so, the failure
counted, and the next attempt scheduled. -/
def Recorded (entry : Record) (before : History) : Prop :=
  entry.event = .failureRecorded ∧
    ((core entry.state).connection = .offline ∨
      (core entry.state).connection = .authenticationRequired) ∧
    entry.state.sup.failures = consecutiveFailures before + 1 ∧
    ∃ delay, boundedBackoff entry.state.sup.failures = some delay ∧
      entry.state.sup.nextAttempt = entry.state.os.clock + delay

/-- The state is reconnecting only while somebody repairs, and each repair is
still running under the lock, has connected a master, or has left its failure. -/
structure Settled (w : GatewayWorld) : Prop where
  idle : (core w.state).holder = none → (core w.state).connection ≠ .reconnecting
  left : ∀ entry ∈ w.trace, entry.event = .repairBegan →
    ((core entry.state).epoch = (core w.state).epoch ∧ (core w.state).holder.isSome = true ∧
      repairing w.trace = true) ∨
    ∃ ending before, (ending :: before) <:+ w.trace ∧
      (core ending.state).epoch = (core entry.state).epoch ∧
      (ending.event = .masterConnected ∨ Recorded ending before)

/-- Nothing throws a task off its course while it is repairing. -/
def Undisturbed (entry : Record) (before : History) : Prop :=
  entry.event.fails = true ∨ entry.event.isGivenUp = true →
    entry.state.sup.repairLock.holder = some entry.task → repairing before = false

instance (entry : Record) (before : History) : Decidable (Undisturbed entry before) := by
  unfold Undisturbed
  infer_instance

theorem not_broken {history : History} (h : Always Undisturbed history) : ¬Broken history := by
  rintro ⟨entry, rest, hSuffix, ⟨op, hDisturbs⟩, hHolder, hRepairing⟩
  have hDisturbed : entry.event.fails = true ∨ entry.event.isGivenUp = true :=
    hDisturbs.imp_right fun hEvent => by rw [hEvent]; rfl
  rw [h.of_suffix hSuffix hDisturbed hHolder] at hRepairing
  cases hRepairing

theorem Inv.settled_of_undisturbed {w : GatewayWorld} (hInv : Inv w)
    (hUndisturbed : Always Undisturbed w.trace) : Settled w where
  idle := by
    intro hFree hState
    rcases hInv.repair.reconnecting hState with hRepairing | hBroken
    · have hHeld := (hInv.repair.held hRepairing).1
      rw [hFree] at hHeld
      cases hHeld
    · exact not_broken hUndisturbed hBroken
  left := by
    intro entry hEntry hBegan
    rcases hInv.repair.settled entry hEntry hBegan with ⟨hEpoch, hRepairing⟩ | hBroken | hEnded
    · exact Or.inl ⟨hEpoch, (hInv.repair.held hRepairing).1, hRepairing⟩
    · exact absurd hBroken (not_broken hUndisturbed)
    · obtain ⟨ending, hEnding, hEpoch, hEvent⟩ := hEnded
      obtain ⟨before, hSuffix, hPermitted⟩ := hInv.permitted_of_mem hEnding
      refine Or.inr ⟨ending, before, hSuffix, hEpoch, hEvent.imp_right fun hFailed => ?_⟩
      unfold Permitted at hPermitted
      rw [hFailed] at hPermitted
      exact ⟨hFailed, hPermitted⟩

/-- In every run in which nothing disturbs a task that is repairing, every state
reached is settled. -/
theorem settled_of_run {config : Config} {os : Os} {choices : List (Choice (gateway config))}
    {final : Loop (gateway config)} (hRun : gatewayRun config os choices = some final)
    (hUndisturbed : Always Undisturbed final.world.trace) : Settled final.world :=
  (inv_of_run hRun).settled_of_undisturbed hUndisturbed

def hopelessRepair : List Sample :=
  [execute] ++ resumes 0 5 ++ [resume 0 255, .start (.job 0)] ++ resumes 1 2 ++
    [resume 1 1, resume 0 0 .failed, resume 0, resume 0 255, refuse 0, .disturb (.tick 1), resume 0,
      refuse 0]

theorem settled_hopelessRepair : ∃ final,
    gatewayRun sample survivor hopelessRepair = some final ∧ Settled final.world := by
  have hRun : (gatewayRun sample survivor hopelessRepair).any
      (fun final => decide (Always Undisturbed final.world.trace)) = true := by decide +kernel
  obtain ⟨final, hFinal, hUndisturbed⟩ := (Option.any_eq_true _ _).mp hRun
  exact ⟨final, hFinal, settled_of_run hFinal (of_decide_eq_true hUndisturbed)⟩

/-- A reconnect is given up while it stops the old master. -/
theorem left_reconnecting : ¬∀ (config : Config) (os : Os)
    (choices : List (Choice (gateway config))) (final : Loop (gateway config)),
    gatewayRun config os choices = some final → Settled final.world := by
  intro hClaim
  have hRun : (gatewayRun sample survivor [.start (.reconnect true), cancel 0]).any
      (fun final => decide ((core final.world.state).holder = none ∧
        (core final.world.state).connection = .reconnecting)) = true := by decide +kernel
  obtain ⟨final, hFinal, hLeft⟩ := (Option.any_eq_true _ _).mp hRun
  obtain ⟨hFree, hState⟩ := of_decide_eq_true hLeft
  exact (hClaim sample survivor _ final hFinal).idle hFree hState

end Leaving
end Pazuzu.Supervision
