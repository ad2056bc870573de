import Pazuzu.Bridge.Walk

/-! When a stop request reaches the bridged service. The handler can close only
the channel it can see, and the loop looks at the request only at its head. -/
namespace Pazuzu.Bridge

open Asyncio Surroundings

/-- The state a bridge's process can reach. -/
def Reaches (request : Request) (published : Option Nat) (rounds : Nat)
    (picks : List (Pick surroundings)) (final : Solo signature Int) : Prop :=
  surroundings.run ⟨runBridge request published rounds, {}⟩ picks = some final

theorem Reaches.sound {request : Request} {published : Option Nat} {rounds : Nat}
    {picks : List (Pick surroundings)} {final : Solo signature Int}
    (h : Reaches request published rounds picks final) : Sound final.state :=
  run_inv (fun _ _ _ hSound hMove => hSound.disturb hMove) Sound.initial
    (wp_runBridge request published rounds Fresh.initial) h

/-- Without a stop request at the wrong time, every stop request reaches the
service: nothing is launched after it, and what runs has lost its stdin. -/
theorem stop_reaches {request : Request} {published : Option Nat} {rounds : Nat}
    {picks : List (Pick surroundings)} {final : Solo signature Int}
    (hRun : Reaches request published rounds picks final) (hPunctual : Punctual final.state.journal) :
    NoneLate final.state.journal ∧ (final.state.stop = true →
      ∀ channel ∈ final.state.channels, channel.running = true → channel.leased = false) := by
  obtain ⟨hNoneLate, hClosed⟩ := hRun.sound.served hPunctual
  refine ⟨hNoneLate, fun hStop channel hChannel hRunning => ?_⟩
  have hBehind := hRun.sound.behind
  cases hChannels : final.state.channels with
  | nil =>
      rw [hChannels] at hChannel
      cases hChannel
  | cons newest older =>
      rw [hChannels] at hChannel hBehind hClosed
      rcases List.mem_cons.mp hChannel with rfl | hOlder
      · exact hClosed hStop channel rfl hRunning
      · rw [hBehind channel hOlder] at hRunning
        cases hRunning

/-- A bridge to one service. -/
def sample : Request :=
  { settings := { host := "h", controlPath := "/c" }, listenHost := "l", listenPort := 1
    remoteHost := "r", remotePort := 2, remoteCommand := ["s"] }

/-- Everything goes well. -/
def favourably : (wait : Wait) → Except Error wait.Reply
  | .acquire _ _ | .popen _ | .release => .ok ()
  | .control _ _ => .ok (.exited 0 "")
  | .childWait => .ok 0
  | .retry _ => .ok false
  | .never => .error .timeoutError

/-- The picks up to the first forward, which is still running. -/
def upToForward : List (Pick surroundings) :=
  [.go, .answer favourably, .go, .answer favourably, .go]

/-- From there to the channel that the handler can see. -/
def upToChild : List (Pick surroundings) :=
  [.answer favourably, .go, .go, .answer favourably, .go]

def stopRequest : List (Pick surroundings) := [.disturb .signal]

theorem stop_reaches_child : ∃ final,
    Reaches sample none 1 (upToForward ++ upToChild ++ stopRequest) final ∧
      NoneLate final.state.journal ∧ (final.state.stop = true →
        ∀ channel ∈ final.state.channels, channel.running = true → channel.leased = false) := by
  obtain ⟨final, hRun, hJournal⟩ : ∃ final,
      Reaches sample none 1 (upToForward ++ upToChild ++ stopRequest) final ∧
        final.state.journal = [.signalled, .assigned, .launched true,
          .controlled .forward (.exited 0 ""), .controlled .cancel (.exited 0 "")] := ⟨_, rfl, rfl⟩
  refine ⟨final, hRun, stop_reaches hRun ?_⟩
  rw [hJournal]
  simp [Punctual, launching, Happening.succeeds, Happening.settles]

/-- A stop request during the forward command: the service is launched all the
same, and its stdin stays open. -/
theorem stop_missed : ∃ final,
    Reaches sample none 1 (upToForward ++ stopRequest ++ upToChild) final ∧
      ¬NoneLate final.state.journal ∧ final.state.stop = true ∧
        final.state.channels = [⟨true, true⟩] := by
  obtain ⟨final, hRun, hJournal, hStop, hChannels⟩ : ∃ final,
      Reaches sample none 1 (upToForward ++ stopRequest ++ upToChild) final ∧
        final.state.journal = [.assigned, .launched true,
          .controlled .forward (.exited 0 ""), .signalled, .controlled .cancel (.exited 0 "")] ∧
        final.state.stop = true ∧ final.state.channels = [⟨true, true⟩] := ⟨_, rfl, rfl, rfl, rfl⟩
  refine ⟨final, hRun, ?_, hStop, hChannels⟩
  rw [hJournal]
  simp [NoneLate]

end Pazuzu.Bridge
