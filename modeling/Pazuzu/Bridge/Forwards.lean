import Pazuzu.Bridge.Stop

/-! What a bridge leaves on the master. It takes away the forwards whose success
it has seen. -/
namespace Pazuzu.Bridge

open Asyncio Surroundings

variable {request : Request} {published : Option Nat} {rounds : Nat} {picks : List (Pick surroundings)}
  {final : Solo signature Int}

/-- However the bridge has ended, the master has what was left over. -/
theorem Reaches.settled (h : Reaches request published rounds picks final)
    {outcome : Except Error Int} (hEnd : final.code = Coro.ofExcept outcome) :
    final.state.registered = leftover final.state.journal := by
  obtain ⟨ending, hDrifts, hIdle⟩ := run_post (fun _ _ _ hSound hMove => hSound.disturb hMove)
    Sound.initial (wp_runBridge request published rounds Fresh.initial) h hEnd
  exact (hIdle.meanwhile (meanwhile hDrifts)).settled

/-- A bridge launches its service only over its forward, however far it has come;
and once it has ended it leaves no forward behind if and only if none was left
over by a timeout. -/
theorem forwards_cleared_iff (hRun : Reaches request published rounds picks final) :
    .launched false ∉ final.state.journal ∧ ∀ outcome, final.code = Coro.ofExcept outcome →
      (final.state.registered = false ↔ leftover final.state.journal = false) := by
  refine ⟨hRun.sound.covered, fun outcome hEnd => ?_⟩
  rw [hRun.settled hEnd]

/-- The forward times out here after the master has taken it. -/
def tardily : (wait : Wait) → Except Error wait.Reply
  | .control _ _ => .ok (.timedOut true "timed out")
  | .retry _ => .ok true
  | wait => favourably wait

/-- The service ends, and the bridge is stopped when it looks for a request. -/
def afterService : List (Pick surroundings) :=
  [.disturb (.exit 0), .answer favourably, .go, .go, .answer favourably, .go] ++ stopRequest ++
    [.go, .go, .go, .answer favourably, .go]

theorem forwards_cleared_service : ∃ final,
    Reaches sample none 1 (upToForward ++ upToChild ++ afterService) final ∧
      .launched false ∉ final.state.journal ∧ final.state.registered = false := by
  obtain ⟨final, hRun, hEnd, hLeftover⟩ : ∃ final,
      Reaches sample none 1 (upToForward ++ upToChild ++ afterService) final ∧
        final.code = Coro.ofExcept (.ok 0) ∧ leftover final.state.journal = false := ⟨_, rfl, rfl, rfl⟩
  obtain ⟨hCovered, hCleared⟩ := forwards_cleared_iff hRun
  exact ⟨final, hRun, hCovered, (hCleared (.ok 0) hEnd).mpr hLeftover⟩

/-- The forward command times out, the bridge is stopped, and the master keeps
the forward. -/
theorem forward_left : ∃ final,
    Reaches sample none 1 (upToForward ++ [.answer tardily, .go] ++ stopRequest ++
      [.answer tardily, .go, .go, .answer favourably, .go]) final ∧
      final.code = Coro.ofExcept (.ok 0) ∧ final.state.registered = true := ⟨_, rfl, rfl, rfl⟩

end Pazuzu.Bridge
