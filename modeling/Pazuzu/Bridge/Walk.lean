import Pazuzu.Bridge.Journal

/-! The bridge's invariant, and what its code knows from place to place. -/
namespace Pazuzu.Bridge

open Asyncio Surroundings

section Rules

variable {inv : State → Prop} {state : State}

/-- Every control command comes out some way. -/
theorem wp_control {operation : Operation} {argv : List String} {post : Except Error Outcome → State → Prop}
    (h : ∀ later outcome, inv later → surroundings.Drifts state later →
      inv (later.control operation outcome) ∧ post (.ok outcome) (later.control operation outcome)) :
    surroundings.wp inv (wait (.control operation argv)) post state := by
  refine wp_suspend fun later reply after hInv hDrifts hDeliver => ?_
  cases reply with
  | error error => cases hDeliver
  | ok outcome =>
      cases hDeliver
      exact h later outcome hInv hDrifts

/-- A lease is acquired, or not in time, or the directory of leases fails. -/
theorem wp_acquire {size : Nat} {timeout : ℚ} {post : Except Error Unit → State → Prop}
    (hOk : ∀ later, inv later → surroundings.Drifts state later → post (.ok ()) later)
    (hTimeout : ∀ later, inv later → surroundings.Drifts state later → post (.error .timeoutError) later)
    (hFails : ∀ later message, inv later → surroundings.Drifts state later → post (.error (.osError message)) later) :
    surroundings.wp inv (wait (.acquire size timeout)) post state := by
  refine wp_suspend fun later reply after hInv hDrifts hDeliver => ?_
  cases reply with
  | ok value =>
      cases hDeliver
      exact ⟨hInv, hOk later hInv hDrifts⟩
  | error error =>
      cases error with
      | timeoutError =>
          cases hDeliver
          exact ⟨hInv, hTimeout later hInv hDrifts⟩
      | osError message =>
          cases hDeliver
          exact ⟨hInv, hFails later message hInv hDrifts⟩
      | _ => cases hDeliver

/-- A channel is launched, or not. -/
theorem wp_popen {argv : List String} {post : Except Error Unit → State → Prop}
    (hOk : ∀ later, inv later → surroundings.Drifts state later →
      inv { later with
        channels := ⟨true, true⟩ :: later.channels
        journal := .launched later.registered :: later.journal } ∧
      post (.ok ()) { later with
        channels := ⟨true, true⟩ :: later.channels
        journal := .launched later.registered :: later.journal })
    (hFails : ∀ later message, inv later → surroundings.Drifts state later →
      inv (later.note .unlaunched) ∧ post (.error (.osError message)) (later.note .unlaunched)) :
    surroundings.wp inv (wait (.popen argv)) post state := by
  refine wp_suspend fun later reply after hInv hDrifts hDeliver => ?_
  cases reply with
  | ok value =>
      cases hDeliver
      exact hOk later hInv hDrifts
  | error error =>
      cases error with
      | osError message =>
          cases hDeliver
          exact hFails later message hInv hDrifts
      | _ => cases hDeliver

/-- The wait for a channel ends when it has ended. -/
theorem wp_childWait {post : Except Error Int → State → Prop}
    (h : ∀ later channel earlier code, inv later → surroundings.Drifts state later →
      later.channels = channel :: earlier → channel.running = false → post (.ok code) later) :
    surroundings.wp inv (wait .childWait) post state := by
  refine wp_suspend fun later reply after hInv hDrifts hDeliver => ?_
  cases reply with
  | error error => cases hDeliver
  | ok code =>
      simp only [deliver] at hDeliver
      split at hDeliver
      · next channel earlier hChannels =>
          split at hDeliver
          · cases hDeliver
          · next hStopped =>
              cases hDeliver
              exact ⟨hInv, h later channel earlier code hInv hDrifts hChannels (Bool.eq_false_iff.mpr hStopped)⟩
      · cases hDeliver

/-- A pause says whether a stop was requested. -/
theorem wp_waitForRetry {delay : ℚ} {post : Except Error Bool → State → Prop}
    (h : ∀ later, inv later → surroundings.Drifts state later → post (.ok later.stop) later) :
    surroundings.wp inv (waitForRetry delay) post state := by
  refine wp_suspend fun later reply after hInv hDrifts hDeliver => ?_
  cases reply with
  | error error => cases hDeliver
  | ok stopped =>
      simp only [deliver, Option.ite_none_right_eq_some, Option.some.injEq] at hDeliver
      obtain ⟨rfl, rfl⟩ := hDeliver
      exact ⟨hInv, h later hInv hDrifts⟩

theorem wp_release {post : Except Error Unit → State → Prop}
    (h : ∀ later, inv later → surroundings.Drifts state later → post (.ok ()) later) :
    surroundings.wp inv (wait .release) post state := by
  refine wp_suspend fun later reply after hInv hDrifts hDeliver => ?_
  cases reply with
  | error error => cases hDeliver
  | ok value =>
      cases hDeliver
      exact ⟨hInv, h later hInv hDrifts⟩

theorem wp_never {α : Type} {post : Except Error α → State → Prop} :
    surroundings.wp inv never post state := by
  refine (wp_bind _ _ _ _).mpr (wp_suspend fun later reply after _ _ hDeliver => ?_)
  cases reply with
  | ok value => cases value
  | error error => cases hDeliver

end Rules

/-- What holds between any two steps of a bridge and its surroundings. -/
structure Sound (state : State) : Prop where
  heard : state.stop = true ↔ .signalled ∈ state.journal
  behind : Ended state.channels.tail
  held : ∀ channel ∈ state.channels.head?, channel.running = true → channel.leased = true →
    state.child = true ∨ launching state.journal = true
  served : Punctual state.journal → NoneLate state.journal ∧
    (state.stop = true → ∀ channel ∈ state.channels.head?, channel.running = true → channel.leased = false)
  covered : .launched false ∉ state.journal

theorem Sound.initial : Sound {} :=
  ⟨⟨nofun, nofun⟩, nofun, nofun, fun _ => ⟨trivial, nofun⟩, nofun⟩

/-- The head of faded channels comes from a head. -/
theorem head_of_fades {before after : List Channel} (h : List.Forall₂ Channel.Fades before after)
    {channel : Channel} (hHead : channel ∈ after.head?) :
    ∃ earlier ∈ before.head?, earlier.Fades channel := by
  cases h with
  | nil => cases hHead
  | cons hFirst _ =>
      cases hHead
      exact ⟨_, rfl, hFirst⟩

theorem tail_of_fades {before after : List Channel} (h : List.Forall₂ Channel.Fades before after) :
    List.Forall₂ Channel.Fades before.tail after.tail := by
  cases h with
  | nil => exact .nil
  | cons _ hRest => exact hRest

theorem Sound.fade {state : State} (h : Sound state) {channels : List Channel}
    (hFades : List.Forall₂ Channel.Fades state.channels channels) : Sound { state with channels } := by
  refine ⟨h.heard, h.behind.fades (tail_of_fades hFades), ?_, fun hPunctual => ⟨(h.served hPunctual).1, ?_⟩,
    h.covered⟩
  · intro channel hHead hRunning hLeased
    obtain ⟨earlier, hEarlier, hFade⟩ := head_of_fades hFades hHead
    exact h.held earlier hEarlier (hFade.1 hRunning) (hFade.2 hLeased)
  · intro hStop channel hHead hRunning
    obtain ⟨earlier, hEarlier, hFade⟩ := head_of_fades hFades hHead
    have hClosed := (h.served hPunctual).2 hStop earlier hEarlier (hFade.1 hRunning)
    exact Bool.eq_false_iff.mpr fun hLeased => by rw [hFade.2 hLeased] at hClosed; cases hClosed

/-- A channel that the handler has dealt with has lost its stdin if it runs. -/
theorem Channel.closeStdin_closed {channel : Channel} (h : channel.closeStdin.running = true) :
    channel.closeStdin.leased = false := by
  unfold closeStdin at h ⊢
  split at h
  · next hRunning =>
      rw [if_pos hRunning]
      rfl
  · next hStopped => exact absurd h hStopped

/-- The handler keeps the invariant: where it cannot see the channel, it came
at the wrong time. -/
theorem Sound.relaySignal {state : State} (h : Sound state) : Sound (relaySignal state) := by
  have hFades : List.Forall₂ Channel.Fades state.channels (Bridge.relaySignal state).channels := by
    unfold Bridge.relaySignal
    split
    · exact fades_modifyHead Channel.closeStdin_fades _
    · exact List.forall₂_same.mpr fun _ _ => .refl _
  have hFaded := h.fade hFades
  refine ⟨⟨fun _ => List.mem_cons_self, fun _ => rfl⟩, hFaded.behind, hFaded.held, ?_, ?_⟩
  · intro hPunctual
    obtain ⟨hWindow, -, hEarlier⟩ := hPunctual
    refine ⟨⟨nofun, (h.served hEarlier).1⟩, fun _ channel hHead hRunning => ?_⟩
    cases hChild : state.child with
    | true =>
        have hChannels : (Bridge.relaySignal state).channels =
            state.channels.modifyHead Channel.closeStdin := if_pos hChild
        rw [hChannels, List.head?_modifyHead, Option.mem_map] at hHead
        obtain ⟨earlier, -, rfl⟩ := hHead
        exact Channel.closeStdin_closed hRunning
    | false =>
        refine Bool.eq_false_iff.mpr fun hLeased => ?_
        rcases hFaded.held channel hHead hRunning hLeased with hSeen | hLaunching
        · rw [hChild] at hSeen
          cases hSeen
        · rw [hWindow rfl] at hLaunching
          cases hLaunching
  · exact fun hMem => (List.mem_cons.mp hMem).elim nofun h.covered

theorem Sound.disturb {move : Move} {before after : State} (h : Sound before)
    (hMove : Bridge.disturb move before = some after) : Sound after := by
  cases move with
  | signal =>
      simp only [Bridge.disturb, Option.ite_none_right_eq_some, Option.some.injEq] at hMove
      obtain ⟨-, rfl⟩ := hMove
      exact h.relaySignal
  | exit index =>
      cases hMove
      exact h.fade (fades_modify Channel.exit_fades _ _)
  | pass seconds =>
      simp only [Bridge.disturb, Option.ite_none_right_eq_some, Option.some.injEq] at hMove
      obtain ⟨-, rfl⟩ := hMove
      exact ⟨h.heard, h.behind, h.held, h.served, h.covered⟩

/-- A note that is neither a launch nor the start of one. -/
theorem Sound.note {state : State} (h : Sound state) {happening : Happening}
    (hSignal : happening ≠ .signalled) (hLaunch : ∀ registered, happening ≠ .launched registered)
    (hHeld : happening.settles = true → ∀ channel ∈ state.channels.head?, channel.running = true →
      channel.leased = true → state.child = true) : Sound (state.note happening) := by
  refine ⟨?_, h.behind, ?_, fun hPunctual => ⟨⟨fun registered hEq => absurd hEq (hLaunch registered), ?_⟩, ?_⟩, ?_⟩
  · rw [State.note, List.mem_cons, or_iff_right (Ne.symm hSignal)]
    exact h.heard
  · intro channel hHead hRunning hLeased
    cases hSettles : happening.settles with
    | true => exact Or.inl (hHeld hSettles channel hHead hRunning hLeased)
    | false =>
        rcases h.held channel hHead hRunning hLeased with hSeen | hLaunching
        · exact Or.inl hSeen
        · refine Or.inr ?_
          rw [State.note, launching, hSettles, hLaunching, Bool.not_false, Bool.and_self, Bool.or_true]
  · exact (h.served hPunctual.2.2).1
  · exact (h.served hPunctual.2.2).2
  · rw [State.note, List.mem_cons, not_or]
    exact ⟨fun hEq => hLaunch false hEq.symm, h.covered⟩

/-- At the head of the loop and after it: no channel runs, and the master has
what was left over. -/
structure Idle (state : State) : Prop where
  child : state.child = false
  forwardRegistered : state.forwardRegistered = false
  ended : Ended state.channels
  settled : state.registered = leftover state.journal

/-- A forward has succeeded for a channel that is still to come. -/
structure Forwarded (state : State) : Prop where
  child : state.child = false
  ended : Ended state.channels
  launching : launching state.journal = true
  registered : state.registered = true
  settled : leftover state.journal = false

/-- The channel is over and its forward is still there. -/
structure Finished (state : State) : Prop where
  ended : Ended state.channels
  settled : leftover state.journal = false

/-- Before the first forward. -/
structure Fresh (state : State) : Prop extends Idle state where
  unregistered : state.registered = false

theorem Idle.meanwhile {before after : State} (h : Idle before) (hMean : Meanwhile before after) :
    Idle after :=
  ⟨hMean.child.trans h.child, hMean.forwardRegistered.trans h.forwardRegistered,
    h.ended.fades hMean.channels, by rw [hMean.registered, h.settled, hMean.leftover]⟩

theorem Fresh.initial : Fresh {} := ⟨⟨rfl, rfl, nofun, rfl⟩, rfl⟩

theorem Fresh.meanwhile {before after : State} (h : Fresh before) (hMean : Meanwhile before after) :
    Fresh after :=
  ⟨h.toIdle.meanwhile hMean, hMean.registered.trans h.unregistered⟩

theorem Forwarded.meanwhile {before after : State} (h : Forwarded before)
    (hMean : Meanwhile before after) : Forwarded after :=
  ⟨hMean.child.trans h.child, h.ended.fades hMean.channels, hMean.launching.trans h.launching,
    hMean.registered.trans h.registered, hMean.leftover.trans h.settled⟩

theorem Finished.meanwhile {before after : State} (h : Finished before)
    (hMean : Meanwhile before after) : Finished after :=
  ⟨h.ended.fades hMean.channels, hMean.leftover.trans h.settled⟩

theorem Sound.control {state : State} (h : Sound state) (operation : Operation) (outcome : Outcome) :
    Sound (state.control operation outcome) := by
  have hNote : Sound (state.note (.controlled operation outcome)) := h.note nofun nofun nofun
  exact ⟨hNote.heard, hNote.behind, hNote.held, hNote.served, hNote.covered⟩

/-- A channel is launched while its forward is there; a stop request before it
would have come at the wrong time. -/
theorem Sound.launch {state : State} (h : Sound state) (hForwarded : Forwarded state) :
    Sound { state with
      channels := ⟨true, true⟩ :: state.channels
      journal := .launched state.registered :: state.journal } := by
  have hUnsignalled : Punctual (.launched state.registered :: state.journal) →
      .signalled ∉ state.journal := fun hPunctual =>
    hPunctual.2.2.unsignalled hForwarded.launching
  refine ⟨?_, hForwarded.ended, fun _ _ _ _ => Or.inr hForwarded.launching, fun hPunctual => ?_, ?_⟩
  · rw [List.mem_cons, or_iff_right nofun]
    exact h.heard
  · refine ⟨⟨fun _ _ => hUnsignalled hPunctual, (h.served hPunctual.2.2).1⟩, fun hStop => ?_⟩
    exact absurd (h.heard.mp hStop) (hUnsignalled hPunctual)
  · rw [hForwarded.registered, List.mem_cons, not_or]
    exact ⟨nofun, h.covered⟩

section Code

variable {state : State}

/-- A cancel never raises. -/
theorem wp_cancel {argv : List String} {post : Except Error Unit → State → Prop}
    (h : ∀ later outcome, Sound later → Meanwhile state later →
      post (.ok ()) (later.control .cancel outcome)) :
    surroundings.wp Sound (controlBridge .cancel argv false) post state := by
  refine (wp_bind _ _ _ _).mpr (wp_control fun later outcome hSound hDrifts => ⟨hSound.control _ _, ?_⟩)
  have hPost := h later outcome hSound (meanwhile hDrifts)
  cases outcome <;> exact hPost

/-- A forward returns when the master has confirmed it and raises otherwise. -/
theorem wp_forward {argv : List String} {post : Except Error Unit → State → Prop}
    (hOk : ∀ later detail, Sound later → Meanwhile state later →
      post (.ok ()) (later.control .forward (.exited 0 detail)))
    (hError : ∀ later outcome message, Sound later → Meanwhile state later →
      (Happening.controlled .forward outcome).succeeds = false →
      post (.error (.connectionUnavailable message)) (later.control .forward outcome)) :
    surroundings.wp Sound (controlBridge .forward argv true) post state := by
  refine (wp_bind _ _ _ _).mpr (wp_control fun later outcome hSound hDrifts => ⟨hSound.control _ _, ?_⟩)
  cases outcome with
  | failed message => exact hError later _ _ hSound (meanwhile hDrifts) rfl
  | timedOut reached message => exact hError later _ _ hSound (meanwhile hDrifts) rfl
  | exited code detail =>
      by_cases hCode : code = 0
      · subst hCode
        exact hOk later detail hSound (meanwhile hDrifts)
      · have hRaise := hError later (.exited code detail)
          (if detail = "" then "could not register bridge forward" else detail) hSound
          (meanwhile hDrifts) (decide_eq_false hCode)
        simp only [Coro.when, hCode, ne_eq, not_false_eq_true, and_self, if_true]
        exact hRaise

/-- A channel is launched, watched and waited for, or not launched at all. -/
theorem wp_channelRun {argv : List String} (h : Forwarded state) :
    surroundings.wp Sound (channelRun argv) (fun _ after => Finished after) state := by
  refine (wp_bind _ _ _ _).mpr (wp_popen (fun later hSound hDrifts => ?_) fun later message hSound hDrifts => ?_)
  · have hLater := h.meanwhile (meanwhile hDrifts)
    refine ⟨hSound.launch hLater, wp_update_bind fun seen hSeen hBetween => ?_⟩
    have hMean := meanwhile hBetween.drifts
    have hSettled : leftover seen.journal = false := hMean.leftover.trans hLater.settled
    have hChild : Sound { seen with child := true } :=
      ⟨hSeen.heard, hSeen.behind, fun _ _ _ _ => Or.inl rfl, hSeen.served, hSeen.covered⟩
    refine ⟨hChild.note nofun nofun fun _ _ _ _ _ => rfl, ?_⟩
    refine wp_childWait fun last channel earlier code hLast hDrifts hChannels hStopped => ?_
    have hBehind := hLast.behind
    rw [hChannels] at hBehind
    refine ⟨?_, (meanwhile hDrifts).leftover.trans hSettled⟩
    rw [hChannels]
    exact List.forall_mem_cons.mpr ⟨hStopped, hBehind⟩
  · have hLater := h.meanwhile (meanwhile hDrifts)
    refine ⟨hSound.note nofun nofun fun _ channel hHead hRunning => ?_, hLater.ended, hLater.settled⟩
    rw [hLater.ended channel (List.mem_of_mem_head? hHead)] at hRunning
    cases hRunning

/-- The `finally` after a channel takes the forward away again. -/
theorem wp_channelEnd {argv : List String} (h : Finished state) :
    surroundings.wp Sound (channelEnd argv) (fun outcome after => outcome = .ok () ∧ Idle after) state := by
  refine wp_update_bind fun first hFirst hBetween => ?_
  have hEnded := h.meanwhile (meanwhile hBetween.drifts)
  have hClosed : Sound (closeLease first) ∧ Finished (closeLease first) := by
    unfold closeLease
    split
    · have hFades := fades_modifyHead Channel.close_fades first.channels
      exact ⟨hFirst.fade hFades, hEnded.ended.fades hFades, hEnded.settled⟩
    · exact ⟨hFirst, hEnded⟩
  refine ⟨hClosed.1, wp_update_bind fun second hSecond hBetween => ?_⟩
  have hSeen := hClosed.2.meanwhile (meanwhile hBetween.drifts)
  have hForgotten : Sound { second with child := false } := by
    refine ⟨hSecond.heard, hSecond.behind, fun channel hHead hRunning => ?_, hSecond.served, hSecond.covered⟩
    rw [hSeen.ended channel (List.mem_of_mem_head? hHead)] at hRunning
    cases hRunning
  refine ⟨hForgotten, (wp_bind _ _ _ _).mpr (wp_cancel fun third outcome hThird hMean => ?_)⟩
  refine wp_update fun last hLast hBetween => ?_
  have hLastMean := meanwhile hBetween.drifts
  refine ⟨⟨hLast.heard, hLast.behind, hLast.held, hLast.served, hLast.covered⟩, rfl, ?_, rfl, ?_, ?_⟩
  · exact hLastMean.child.trans hMean.child
  · exact (hSeen.ended.fades hMean.channels).fades hLastMean.channels
  · calc last.registered = false := hLastMean.registered
      _ = leftover last.journal := ((hLastMean.leftover.trans hMean.leftover).trans hSeen.settled).symm

theorem Sound.printed {line : String} (h : Sound state) : Sound (state.note (.printed line)) :=
  h.note nofun nofun nofun

/-- The pause between two rounds of the loop, which a stop request ends. -/
theorem wp_retry {line : String} {delay : ℚ} {next : Py Int} (h : Idle state)
    (hNext : ∀ later, Idle later → surroundings.wp Sound next (fun _ after => Idle after) later) :
    surroundings.wp Sound (do
      printed line
      if ← waitForRetry delay then return 0 else next) (fun _ after => Idle after) state := by
  refine wp_update_bind fun first hFirst hBetween => ⟨hFirst.printed, ?_⟩
  have hIdle := h.meanwhile (meanwhile hBetween.drifts)
  have hPrinted : Idle (first.note (.printed line)) :=
    ⟨hIdle.child, hIdle.forwardRegistered, hIdle.ended, hIdle.settled⟩
  refine (wp_bind _ _ _ _).mpr (wp_waitForRetry fun later hLater hDrifts => ?_)
  have hLaterIdle := hPrinted.meanwhile (meanwhile hDrifts)
  cases later.stop with
  | true => exact hLaterIdle
  | false => exact hNext later hLaterIdle

/-- A forward that did not succeed leaves behind what it may have left. -/
theorem Idle.failed {outcome : Outcome} (h : Idle state)
    (hFailed : (Happening.controlled .forward outcome).succeeds = false) :
    Idle (state.control .forward outcome) := by
  refine ⟨h.child, h.forwardRegistered, h.ended, ?_⟩
  have hSettled := h.settled
  cases outcome with
  | failed message => exact hSettled
  | timedOut reached message => exact (congrArg (· || reached) hSettled).trans (Bool.or_comm _ _)
  | exited code detail =>
      have hCode : decide (code = 0) = false := hFailed
      calc (state.registered || decide (code = 0)) = leftover state.journal := by
            rw [hCode, Bool.or_false, hSettled]
        _ = leftover (.controlled .forward (.exited code detail) :: state.journal) := by
            rw [leftover, hFailed, Bool.not_false, Bool.true_and]
            rfl

/-- Every round of the loop starts and ends idle, and so does every way out. -/
theorem wp_keepUp (argv : Argv) (rounds : Nat) (delay : ℚ) (h : Idle state) :
    surroundings.wp Sound (keepUp argv rounds delay) (fun _ after => Idle after) state := by
  induction rounds generalizing delay state with
  | zero => exact wp_never
  | succ rounds ih =>
      refine wp_get fun first hFirst hBetween => ?_
      have hIdle := h.meanwhile (meanwhile hBetween.drifts)
      split
      · exact hIdle
      · refine (wp_bind _ _ _ _).mpr ((wp_attempt _ _ _).mpr (wp_forward ?_ ?_))
        · intro later detail _ hMean
          have hLater := hIdle.meanwhile hMean
          refine wp_update_bind fun seen hSeen hBetween => ?_
          have hSeenMean := meanwhile hBetween.drifts
          have hForwarded : Forwarded { seen with forwardRegistered := true } := by
            refine ⟨hSeenMean.child.trans hLater.child, hLater.ended.fades hSeenMean.channels,
              hSeenMean.launching, ?_, hSeenMean.leftover⟩
            exact hSeenMean.registered.trans (Bool.or_true _)
          refine ⟨⟨hSeen.heard, hSeen.behind, hSeen.held, hSeen.served, hSeen.covered⟩, ?_⟩
          refine wp_get fun started _ hBetween => ?_
          have hStarted := hForwarded.meanwhile (meanwhile hBetween.drifts)
          refine (wp_bind _ _ _ _).mpr ((wp_tryFinally _ _).mpr ?_)
          refine wp_mono (wp_channelRun hStarted) fun outcome finished hFinished => ?_
          refine wp_mono (wp_channelEnd hFinished) fun result ended hEnded => ?_
          obtain ⟨rfl, hEnded⟩ := hEnded
          cases outcome with
          | error error => exact hEnded
          | ok exitCode =>
              refine wp_get fun second _ hBetween => ?_
              have hSecond := hEnded.meanwhile (meanwhile hBetween.drifts)
              split
              · exact hSecond
              · refine wp_get fun third _ hBetween => ?_
                exact wp_retry (hSecond.meanwhile (meanwhile hBetween.drifts)) fun _ hLater => ih _ hLater
        · intro later outcome message _ hMean hFailed
          exact wp_retry ((hIdle.meanwhile hMean).failed hFailed) fun _ hLater => ih _ hLater

theorem wp_acquireLease (pool : SessionLeasePool) (rounds : Nat) (h : Fresh state) :
    surroundings.wp Sound (acquireLease pool rounds) (fun _ after => Fresh after) state := by
  induction rounds generalizing state with
  | zero => exact wp_never
  | succ rounds ih =>
      refine (wp_bind _ _ _ _).mpr ((wp_attempt _ _ _).mpr ?_)
      refine wp_acquire (fun later _ hDrifts => ?_) (fun later _ hDrifts => ?_) fun later _ _ hDrifts => ?_
      · have hIdle := h.meanwhile (meanwhile hDrifts)
        refine wp_update_bind fun held hHeld hBetween => ?_
        have hHeldIdle := hIdle.meanwhile (meanwhile hBetween.drifts)
        exact ⟨⟨hHeld.heard, hHeld.behind, hHeld.held, hHeld.served, hHeld.covered⟩,
          ⟨hHeldIdle.child, hHeldIdle.forwardRegistered, hHeldIdle.ended, hHeldIdle.settled⟩,
          hHeldIdle.unregistered⟩
      · have hIdle := h.meanwhile (meanwhile hDrifts)
        refine wp_get fun last _ hBetween => ?_
        have hLast := hIdle.meanwhile (meanwhile hBetween.drifts)
        split
        · exact hLast
        · exact ih hLast
      · exact h.meanwhile (meanwhile hDrifts)

theorem wp_underLease (argv : Argv) (pool : SessionLeasePool) (rounds : Nat) (h : Fresh state) :
    surroundings.wp Sound (underLease argv pool rounds) (fun _ after => Idle after) state := by
  refine (wp_bind _ _ _ _).mpr (wp_mono (wp_acquireLease pool rounds h) fun outcome leased hLeased => ?_)
  cases outcome with
  | error error => exact hLeased.toIdle
  | ok acquired =>
      cases acquired with
      | false => exact hLeased.toIdle
      | true =>
          refine (wp_bind _ _ _ _).mpr (wp_cancel fun later outcome _ hMean => ?_)
          have hLater := hLeased.meanwhile hMean
          have hClean : leftover later.journal = false := hLater.settled.symm.trans hLater.unregistered
          exact wp_keepUp argv rounds 1
            ⟨hLater.child, hLater.forwardRegistered, hLater.ended, hClean.symm⟩

/-- The outer `finally` finds no forward that the code knows of. -/
theorem wp_bridgeEnd (argv : Argv) (h : Idle state) :
    surroundings.wp Sound (bridgeEnd argv) (fun outcome after => outcome = .ok () ∧ Idle after) state := by
  have hLast : ∀ {last : State}, Idle last →
      surroundings.wp Sound (update fun state => { state with handling := false })
        (fun outcome after => outcome = .ok () ∧ Idle after) last := by
    intro last hIdle
    refine wp_update fun later hLater hBetween => ?_
    have hLaterIdle := hIdle.meanwhile (meanwhile hBetween.drifts)
    exact ⟨⟨hLater.heard, hLater.behind, hLater.held, hLater.served, hLater.covered⟩, rfl,
      hLaterIdle.child, hLaterIdle.forwardRegistered, hLaterIdle.ended, hLaterIdle.settled⟩
  refine wp_get fun first hFirst hBetween => ?_
  have hIdle := h.meanwhile (meanwhile hBetween.drifts)
  refine (wp_bind _ _ _ _).mpr (wp_when (fun hRegistered => ?_) fun _ => ?_)
  · rw [hIdle.forwardRegistered] at hRegistered
    cases hRegistered
  · refine wp_get fun second _ hBetween => ?_
    have hSecond := hIdle.meanwhile (meanwhile hBetween.drifts)
    refine (wp_bind _ _ _ _).mpr (wp_when (fun _ => ?_) fun _ => hLast hSecond)
    exact wp_release fun later _ hDrifts => hLast (hSecond.meanwhile (meanwhile hDrifts))

/-- Whatever ends `run_bridge`, it ends idle. -/
theorem wp_runBridge (request : Request) (published : Option Nat) (rounds : Nat) (h : Fresh state) :
    surroundings.wp Sound (runBridge request published rounds) (fun _ after => Idle after) state := by
  refine (wp_bind _ _ _ _).mpr ((wp_ofExcept _).mpr ?_)
  split
  · next argv _ =>
      refine (wp_bind _ _ _ _).mpr ((wp_ofExcept _).mpr ?_)
      split
      · next pool _ =>
          refine wp_update_bind fun first hFirst hBetween => ?_
          have hFresh := h.meanwhile (meanwhile hBetween.drifts)
          refine ⟨⟨hFirst.heard, hFirst.behind, hFirst.held, hFirst.served, hFirst.covered⟩, ?_⟩
          have hHandling : Fresh { first with handling := true } :=
            ⟨⟨hFresh.child, hFresh.forwardRegistered, hFresh.ended, hFresh.settled⟩, hFresh.unregistered⟩
          refine (wp_tryFinally _ _).mpr ?_
          refine wp_mono (wp_underLease argv pool rounds hHandling) fun outcome last hLast => ?_
          refine wp_mono (wp_bridgeEnd argv hLast) fun result ended hEnded => ?_
          obtain ⟨rfl, hEnded⟩ := hEnded
          exact hEnded
      · exact h.toIdle
  · exact h.toIdle

end Code

end Pazuzu.Bridge
