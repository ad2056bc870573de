import Pazuzu.Supervision.Bookkeeping
import Pazuzu.Supervision.Abandonment

/-! No repair begins before the delay after a failure is over, whoever begins
it and however long it has waited for the repair lock. -/
namespace Pazuzu.Supervision

open Asyncio Supervisor

/-- A failure is settled by the next master, or by a client who asks to reconnect. -/
def Excuses (event : Event) : Prop :=
  event = .masterConnected ∨ event.isReconnect = true

/-- A failure stays outstanding until it is settled. -/
theorem mem_outstanding {failure : Record} {before history : History}
    (hEvent : failure.event = .failureRecorded) (hSuffix : (failure :: before) <:+ history)
    (hNone : ∀ other earlier, Since (failure :: before) history other earlier → ¬Excuses other.event) :
    failure ∈ outstanding history := by
  obtain ⟨stretch, rfl⟩ := hSuffix
  induction stretch with
  | nil =>
      obtain ⟨task, event, state⟩ := failure
      cases hEvent
      exact List.mem_cons_self
  | cons newest earlier ih =>
      have hNewest := hNone newest _ ⟨List.suffix_rfl, List.suffix_append _ _⟩
      have hEarlier := ih fun other older hSince => hNone other older (hSince.extend (List.suffix_cons _ _))
      obtain ⟨task, event, state⟩ := newest
      cases event with
      | failureRecorded => exact List.mem_cons_of_mem _ hEarlier
      | masterConnected => exact absurd (Or.inl rfl) hNewest
      | called op =>
          cases op with
          | reconnect force => exact absurd (Or.inr rfl) hNewest
          | _ => exact hEarlier
      | _ => exact hEarlier

/-- The n-th failure in a row, at the time of its entry, keeps every repair
away for `min 60 (5 * 2 ^ (n - 1))` seconds, those for a reconnect excepted. -/
def KeepsAway (failure : Record) (before history : History) : Prop :=
  ∀ entry rest, Since (failure :: before) history entry rest → entry.event = .repairBegan →
    Reconnects entry.task rest ∨
      (∃ other earlier, Since (failure :: before) rest other earlier ∧ Excuses other.event) ∨
      failure.state.os.clock + min 60 (5 * 2 ^ consecutiveFailures before) ≤ entry.state.os.clock

/-- In every run, each recorded failure keeps repairs away. -/
theorem keepsAway_of_run {config : Config} {os : Os} {choices : List (Choice (gateway config))}
    {final : Loop (gateway config)} (hRun : gatewayRun config os choices = some final)
    {failure : Record} {before : History} (hFailure : (failure :: before) <:+ final.world.trace)
    (hEvent : failure.event = .failureRecorded) : KeepsAway failure before final.world.trace := by
  intro entry rest hSince hRepair
  have hPermitted := (inv_of_run hRun).permitted failure before hFailure
  have hWarranted := (ledger_of_run hRun).warranted entry rest hSince.1
  unfold Permitted at hPermitted
  unfold Warranted at hWarranted
  rw [hEvent] at hPermitted
  rw [hRepair] at hWarranted
  obtain ⟨-, hCount, delay, hDelay, hNext⟩ := hPermitted
  by_cases hExcused : ∃ other earlier, Since (failure :: before) rest other earlier ∧ Excuses other.event
  · exact Or.inr (Or.inl hExcused)
  · rcases hWarranted.1 with hReconnects | hDue
    · exact Or.inl hReconnects
    · have hStanding := mem_outstanding hEvent hSince.2 fun other earlier hOther hExcuses =>
        hExcused ⟨other, earlier, hOther, hExcuses⟩
      have hReady := hDue failure hStanding
      rw [boundedBackoff_eq, hCount] at hDelay
      split at hDelay
      · cases hDelay
        rw [hNext, Nat.add_sub_cancel] at hReady
        exact Or.inr (Or.inr (by exact_mod_cast hReady))
      · cases hDelay

/-- After a repair has failed, a new command waits out the delay. -/
def patientRetry : List Sample := hopelessRepair ++ [.disturb (.tick 5), execute]

theorem keepsAway_patientRetry : ∃ final failure before,
    gatewayRun sample survivor patientRetry = some final ∧
      (failure :: before) <:+ final.world.trace ∧ KeepsAway failure before final.world.trace := by
  have hRun : (gatewayRun sample survivor patientRetry).any (fun final =>
      final.world.trace.any fun entry => match entry.event with
        | .failureRecorded => true
        | _ => false) = true := by decide +kernel
  obtain ⟨final, hFinal, hAny⟩ := (Option.any_eq_true _ _).mp hRun
  obtain ⟨failure, hFailure, hFound⟩ := List.any_eq_true.mp hAny
  obtain ⟨before, hSuffix⟩ := exists_suffix_of_mem hFailure
  split at hFound
  · next hEvent => exact ⟨final, failure, before, hFinal, hSuffix, keepsAway_of_run hFinal hSuffix hEvent⟩
  · cases hFound

end Pazuzu.Supervision
