import Pazuzu.Shell.Walk

/-! The shell loop reattaches safely: its journal keeps the law, whatever the
gateway answers and whenever the user cancels. -/
namespace Pazuzu.Shell

open Asyncio Python Surroundings

variable {session : Word} {state : State}

theorem wp_awaitConnected (pollInterval : ℚ) (rounds : Nat) {health : Health} {connection : Text}
    (h : Knows health state) (hState : connectionState health = .ok connection) :
    surroundings.wp (Sound session) (awaitConnected pollInterval rounds health connection)
      (Stops fun _ => MayAttach) state := by
  unfold awaitConnected
  split
  · exact wp_waitUntilConnected pollInterval rounds (some health) h.spawn fun _ hEq =>
      Option.some.inj hEq ▸ h
  · next hConnected =>
      obtain rfl := not_not.mp hConnected
      refine wp_get fun later _ hBetween => ?_
      obtain rfl := hBetween.eq rfl
      have hSeen : SeenConnected later.journal := ⟨health, h.last, hState⟩
      refine wp_when (fun _ => ?_) fun hSilent => ?_
      · refine wp_stops_mono (wp_stateChanged connected) fun _ shown hShown => ?_
        exact ⟨hShown.maySpawn h.spawn, hShown.seen hSeen, Or.inr hShown.lastState⟩
      · exact ⟨h.spawn, hSeen, Or.inl (Option.not_isSome_iff_eq_none.mp hSilent)⟩

/-- The shell has a fresh descriptor and may spawn with it. -/
structure Attached (attachment : SshAttachment) (state : State) : Prop where
  spawn : MaySpawn state.journal
  gained : Gained attachment state.journal
  shown : Presentable state

theorem wp_readyLoop (pollInterval : ℚ) (rounds : Nat) {health : Health} (h : Knows health state) :
    surroundings.wp (Sound session) (readyLoop pollInterval rounds health) (Stops Attached) state := by
  induction rounds generalizing health state with
  | zero => exact wp_never
  | succ rounds ih =>
      refine wp_connectionState fun connection hConnection => ?_
      refine wp_stops_bind (wp_awaitConnected pollInterval rounds h hConnection) fun _ ready hReady => ?_
      refine (wp_bind _ _ _ _).mpr ((wp_attempt _ _ _).mpr ?_)
      refine wp_callOrStop hReady.seen (fun _ hCancelled => hCancelled) fun later reply hNot hCalled => ?_
      have hSpawn := hCalled.maySpawn rfl hReady.spawn
      cases reply with
      | ok attachment =>
          refine ⟨hSpawn, hCalled.gained, ?_⟩
          unfold Presentable
          rw [hCalled.lastState]
          exact hReady.shown
      | error raised =>
          cases raised with
          | localCancellation => exact absurd rfl hNot
          | error error =>
              dsimp only
              split
              · refine wp_stops_bind (wp_status hSpawn) fun newer observed hObserved => ?_
                refine wp_connectionState fun connection _ => ?_
                split
                · trivial
                · exact ih hObserved
              · trivial

theorem wp_readyAttachment (pollInterval : ℚ) (rounds : Nat) {initial : Option Health}
    (hSpawn : MaySpawn state.journal) (h : ∀ health, initial = some health → Knows health state) :
    surroundings.wp (Sound session) (readyAttachment pollInterval rounds initial) (Stops Attached) state := by
  have hHealth : surroundings.wp (Sound session) (initialHealth initial) (Stops Knows) state := by
    unfold initialHealth
    split
    · next first rest => exact h (first :: rest) rfl
    · exact wp_status hSpawn
  exact wp_stops_bind hHealth fun _ _ hKnows => wp_readyLoop pollInterval rounds hKnows

/-- The state of the reporter is the one from before, and no spawn, exit or
reconnect has been noted. -/
structure Unspoken (before after : State) : Prop where
  lastState : after.lastState = before.lastState
  journal : ∃ added, after.journal = added ++ before.journal ∧
    ∀ happening ∈ added, happening.isMinor = true

section Unspoken

variable {before after last : State}

theorem Unspoken.refl : Unspoken state state := ⟨rfl, [], rfl, nofun⟩

theorem Unspoken.trans (h : Unspoken before after) (hLater : Unspoken after last) : Unspoken before last := by
  obtain ⟨added, hJournal, hMinor⟩ := h.journal
  obtain ⟨newer, hNewer, hNewerMinor⟩ := hLater.journal
  refine ⟨hLater.lastState.trans h.lastState, newer ++ added, ?_, fun happening hMem => ?_⟩
  · rw [hNewer, hJournal, List.append_assoc]
  · exact (List.mem_append.mp hMem).elim (hNewerMinor happening) (hMinor happening)

theorem Meanwhile.unspoken (h : Meanwhile before after) : Unspoken before after := by
  obtain ⟨count, hJournal⟩ := h.journal
  exact ⟨h.lastState, _, hJournal, fun happening hMem => by rw [mem_cancels hMem]; rfl⟩

theorem Unspoken.running (h : Unspoken before after) (hRunning : Running before.journal) :
    Running after.journal := by
  obtain ⟨added, hJournal, hMinor⟩ := h.journal
  rw [hJournal]
  exact hRunning.append hMinor

end Unspoken

/-- Only an answered call writes to the journal. -/
theorem deliver_eq (waited : Wait) (hRace : ∀ call, waited ≠ .race call)
    {reply : Except Raised waited.Reply} {before after : State}
    (h : deliver waited reply before = some after) :
    after = before ∧ ∀ raised, reply = .error raised → ∃ error, raised = .error error := by
  cases waited with
  | race call => exact absurd rfl (hRace call)
  | watch =>
      cases reply with
      | error raised => cases h
      | ok returncode =>
          cases returncode with
          | none =>
              simp only [deliver, Option.ite_none_right_eq_some, Option.some.injEq] at h
              exact ⟨h.2.symm, fun _ hEq => by cases hEq⟩
          | some code =>
              cases h
              exact ⟨rfl, fun _ hEq => by cases hEq⟩
  | never => cases reply <;> cases h
  | grace =>
      cases reply with
      | ok value =>
          cases h
          exact ⟨rfl, fun _ hEq => by cases hEq⟩
      | error raised =>
          cases raised with
          | localCancellation => cases h
          | error error =>
              cases error <;> cases h
              exact ⟨rfl, fun _ hEq => ⟨_, (Except.error.inj hEq).symm⟩⟩
  | spawn argv =>
      cases reply with
      | ok value =>
          cases h
          exact ⟨rfl, fun _ hEq => by cases hEq⟩
      | error raised =>
          cases raised <;> cases h
          exact ⟨rfl, fun _ hEq => ⟨_, (Except.error.inj hEq).symm⟩⟩
  | _ =>
      cases reply <;> cases h
      exact ⟨rfl, fun _ hEq => by cases hEq⟩

theorem wp_wait {waited : Wait} (hRace : ∀ call, waited ≠ .race call) :
    surroundings.wp (Sound session) (wait waited) (Stops fun _ => Unspoken state) state := by
  refine wp_suspend fun later reply after hLater hDrifts hDeliver => ?_
  obtain ⟨rfl, hRaised⟩ := deliver_eq waited hRace hDeliver
  refine ⟨hLater, ?_⟩
  cases reply with
  | ok value => exact (meanwhile hDrifts).unspoken
  | error raised =>
      obtain ⟨error, rfl⟩ := hRaised raised rfl
      trivial

/-- Code between two waits that says nothing. -/
theorem wp_unspoken_bind {α β : Type} {code : Py α} {next : α → Py β}
    (h : surroundings.wp (Sound session) code (Stops fun _ => Unspoken state) state)
    (hNext : ∀ value after, surroundings.wp (Sound session) (next value) (Stops fun _ => Unspoken after) after) :
    surroundings.wp (Sound session) (code.bind next) (Stops fun _ => Unspoken state) state :=
  wp_stops_bind h fun value after hSame =>
    wp_stops_mono (hNext value after) fun _ _ hLast => hSame.trans hLast

theorem wp_terminateAttachedProcess :
    surroundings.wp (Sound session) terminateAttachedProcess (Stops fun _ => Unspoken state) state := by
  refine (wp_bind _ _ _ _).mpr ((wp_attempt _ _ _).mpr ?_)
  refine wp_suspend fun later reply after hLater hDrifts hDeliver => ?_
  obtain ⟨rfl, hRaised⟩ := deliver_eq .grace nofun hDeliver
  have hMean := meanwhile hDrifts
  refine ⟨hLater, ?_⟩
  cases reply with
  | ok value => exact hMean.unspoken
  | error raised =>
      obtain ⟨error, rfl⟩ := hRaised raised rfl
      cases error with
      | timeoutError =>
          exact wp_stops_bind (wp_wait nofun) fun _ _ hReaped =>
            hMean.unspoken.trans hReaped
      | _ => trivial

theorem wp_watchProcess :
    surroundings.wp (Sound session) watchProcess (Stops fun _ => Unspoken state) state := by
  refine wp_unspoken_bind (wp_wait nofun) fun watched seen => ?_
  cases watched with
  | some returncode => exact Unspoken.refl
  | none =>
      refine wp_unspoken_bind wp_terminateAttachedProcess fun _ ended => ?_
      exact wp_unspoken_bind (wp_wait nofun) fun _ _ => Unspoken.refl

/-- A child is launched only without a cancellation. -/
theorem wp_runAttachedSsh (argv : List Word) :
    surroundings.wp (Sound session) (runAttachedSsh argv) (Stops fun _ => Unspoken state) state := by
  unfold runAttachedSsh
  split
  · trivial
  · refine wp_get fun later hLater hBetween => ?_
    obtain rfl := hBetween.eq rfl
    split
    · exact Unspoken.refl
    · next hOpen =>
        split
        · trivial
        · have hAllowed : Allowed session (.launched argv) later.journal :=
            fun hMem => hOpen (hLater.heard.mpr hMem)
          refine wp_note_bind (fun hSound => hSound.note nofun rfl hAllowed) fun _ => ?_
          have hLaunch : Unspoken later (later.note (.launched argv)) :=
            ⟨rfl, [.launched argv], rfl, List.forall_mem_singleton.mpr rfl⟩
          refine wp_stops_mono ?_ fun _ _ hLast => hLaunch.trans hLast
          refine wp_unspoken_bind (wp_wait nofun) fun _ started => ?_
          refine (wp_tryFinally _ _).mpr (wp_mono wp_watchProcess fun outcome ended hEnded => ?_)
          refine wp_suspend fun last reply after hLast hDrifts hDeliver => ?_
          obtain ⟨rfl, hRaised⟩ := deliver_eq .gather nofun hDeliver
          have hMean := meanwhile hDrifts
          refine ⟨hLast, ?_⟩
          cases reply with
          | error raised =>
              obtain ⟨error, rfl⟩ := hRaised raised rfl
              trivial
          | ok value =>
              cases outcome with
              | ok code => exact hEnded.trans hMean.unspoken
              | error raised =>
                  cases raised with
                  | localCancellation => exact hMean.cancelled hEnded
                  | error error => trivial

theorem wp_spawnSsh (spawn : Spawn) (argv : List Word) :
    surroundings.wp (Sound session) (spawnSsh spawn argv) (Stops fun _ => Unspoken state) state := by
  cases spawn with
  | attached => exact wp_runAttachedSsh argv
  | other => exact wp_wait nofun

/-- How the loop returns: after a cancellation with 130, and else with the exit
code of the last spawn. -/
def Returns (code : Int) (state : State) : Prop :=
  (state.cancelled = true → code = 130) ∧
    (state.cancelled = false → lastExit state.journal = some code ∧ code ≠ 255)

theorem wp_connectionLost {post : Except Raised Unit → State → Prop} (hShown : Presentable state)
    (h : ∀ line, post (.ok ())
      { state.note (.reported (text "lost") line) with lastState := some (text "lost") }) :
    surroundings.wp (Sound session) connectionLost post state := by
  refine wp_update fun later hLater hBetween => ?_
  obtain rfl := hBetween.eq rfl
  refine ⟨hLater.report ?_, h _⟩
  rcases hShown with hSilent | hConnected
  · rw [hSilent]
    exact nofun
  · rw [hConnected]
    decide

/-- Every round of the loop spawns with a fresh descriptor, and goes on only
after a lost connection and one reconnect. -/
theorem wp_attachLoop (spawn : Spawn) (pollInterval : ℚ) (rounds : Nat) {initial : Option Health}
    (hSpawn : MaySpawn state.journal) (h : ∀ health, initial = some health → Knows health state) :
    surroundings.wp (Sound session) (attachLoop session spawn pollInterval rounds initial)
      (Stops Returns) state := by
  induction rounds generalizing initial state with
  | zero => exact wp_never
  | succ rounds ih =>
      refine wp_stops_bind (wp_readyAttachment pollInterval rounds hSpawn h) fun attachment ready hReady => ?_
      have hAllowed : Allowed session (.spawned (shellArgv attachment session)) ready.journal :=
        ⟨⟨attachment, rfl, hReady.gained⟩, hReady.spawn⟩
      refine wp_note_bind (fun hSound => hSound.note nofun rfl hAllowed) fun _ => ?_
      refine wp_stops_bind (wp_spawnSsh spawn _) fun exitCode ended hEnded => ?_
      have hRunning : Running ended.journal := hEnded.running Running.spawn
      refine wp_note_bind (fun hSound => hSound.note nofun rfl hRunning) fun _ => ?_
      refine wp_get fun later _ hBetween => ?_
      obtain rfl := hBetween.eq rfl
      split
      · next hCancelled =>
          refine ⟨fun _ => rfl, fun hOpen => ?_⟩
          rw [hCancelled] at hOpen
          cases hOpen
      · next hOpen =>
          split
          · next hExit => exact ⟨fun hCancelled => absurd hCancelled hOpen, fun _ => ⟨rfl, hExit⟩⟩
          · next hLost =>
              obtain rfl := not_not.mp hLost
              have hShown : Presentable (ended.note (.exited 255)) := by
                have hSame : ended.lastState = ready.lastState := hEnded.lastState
                unfold Presentable
                rw [State.note, hSame]
                exact hReady.shown
              refine (wp_bind _ _ _ _).mpr (wp_connectionLost hShown fun line => ?_)
              refine (wp_bind _ _ _ _).mpr ((wp_attempt _ _ _).mpr ?_)
              refine wp_callOrStop ⟨rfl, hRunning.reconnects⟩ (fun _ hCancelled => hCancelled) fun last reply hNot hCalled => ?_
              have hAgain := hCalled.reconnected rfl hRunning.reconnects
              cases reply with
              | ok health =>
                  exact ih hAgain fun _ hEq => Option.some.inj hEq ▸ ⟨hAgain, hCalled.reobserved⟩
              | error raised =>
                  cases raised with
                  | localCancellation => exact absurd rfl hNot
                  | error error =>
                      dsimp only
                      split
                      · exact ih hAgain fun _ hEq => by cases hEq
                      · trivial

/-- What `run_shell` returns stands at the end of a lawful journal. -/
theorem wp_runShell (spawn : Spawn) (pollInterval : ℚ) (rounds : Nat) :
    surroundings.wp (Sound session) (runShell session spawn pollInterval rounds)
      (fun outcome after => ∀ code, outcome = .ok code → .returned code ∈ after.journal) {} := by
  have hReturned : ∀ (code : Int) (ended : State), Returns code ended →
      surroundings.wp (Sound session) (do note (.returned code); return code)
        (fun outcome after => ∀ code, outcome = .ok code → .returned code ∈ after.journal) ended := by
    intro code ended hReturns
    refine wp_update_bind fun later hLater hBetween => ?_
    obtain rfl := hBetween.eq rfl
    refine ⟨hLater.note nofun rfl ⟨fun hMem => hReturns.1 (hLater.heard.mpr hMem), fun hNone => ?_⟩, ?_⟩
    · exact hReturns.2 (Bool.eq_false_iff.mpr fun hCancelled => hNone (hLater.heard.mp hCancelled))
    · rintro _ ⟨⟩
      exact List.mem_cons_self
  refine (wp_bind _ _ _ _).mpr ((wp_ofExcept _).mpr ?_)
  split
  · split
    · exact nofun
    · refine (wp_bind _ _ _ _).mpr ((wp_tryCatch _ _).mpr ?_)
      refine wp_mono (wp_attachLoop spawn pollInterval rounds (Or.inl nofun) nofun) fun outcome ended hEnded => ?_
      cases outcome with
      | ok code => exact hReturned code ended hEnded
      | error raised =>
          cases raised with
          | localCancellation =>
              refine hReturned 130 ended ⟨fun _ => rfl, fun hOpen => ?_⟩
              rw [show ended.cancelled = true from hEnded] at hOpen
              cases hOpen
          | error error => exact nofun
  · exact nofun

/-- Whatever the gateway and `ssh` answer and whenever the user cancels, the
journal of a shell is lawful and ends with what the shell returns. -/
theorem shell_reattaches {spawn : Spawn} {pollInterval : ℚ} {rounds : Nat}
    {picks : List (Pick surroundings)} {final : Solo signature Int}
    (hRun : surroundings.run ⟨runShell session spawn pollInterval rounds, {}⟩ picks = some final) :
    Lawful session final.state.journal ∧
      ∀ code, final.code = .pure code → .returned code ∈ final.state.journal := by
  have hMoves : ∀ move before after, Sound session before → disturb move before = some after →
      Sound session after := fun _ _ _ hSound hMove => hSound.disturb hMove
  have hCode := @wp_runShell session spawn pollInterval rounds
  refine ⟨(run_inv hMoves Sound.initial hCode hRun).lawful, fun code hEnd => ?_⟩
  have hEnd' : final.code = Coro.ofExcept (.ok code) := hEnd
  obtain ⟨ending, hDrifts, hReturned⟩ := run_post hMoves Sound.initial hCode hRun hEnd'
  obtain ⟨count, hJournal⟩ := (meanwhile hDrifts).journal
  rw [hJournal]
  exact List.mem_append_right _ (hReturned code rfl)

/-- The gateway is connected throughout, and the processes end with one code. -/
def connectedWith (code : Int) : (wait : Wait) → Except Raised wait.Reply
  | .race .status | .race .reconnect => .ok (some (.ok [(text "connection", .str connected)]))
  | .race .getAttachment => .ok (some (.ok Transfer.localMaster))
  | .race (.sleep _) => .ok (some (.ok ()))
  | .gather | .started | .grace => .ok ()
  | .watch => .ok (some code)
  | .spawn _ | .reap => .ok code
  | .never => .error .localCancellation

/-- A connection is lost and the session attached again. -/
def lostOnce : List (Pick surroundings) :=
  [.go, .go, .answer (connectedWith 0), .answer (connectedWith 0), .go,
    .go, .go, .answer (connectedWith 0), .answer (connectedWith 0), .go,
    .answer (connectedWith 255), .go, .go, .go,
    .go, .go, .answer (connectedWith 0), .answer (connectedWith 0), .go, .go, .go,
    .go, .go, .answer (connectedWith 0), .answer (connectedWith 0), .go,
    .answer (connectedWith 0), .go, .go, .go]

theorem shell_reattaches_once : ∃ final,
    surroundings.run ⟨runShell "s".toList .other 1 4, {}⟩ lostOnce = some final ∧
      final.code = .pure 0 ∧ Lawful "s".toList final.state.journal ∧
        .returned 0 ∈ final.state.journal := by
  obtain ⟨final, hRun, hEnd⟩ : ∃ final,
      surroundings.run ⟨runShell "s".toList .other 1 4, {}⟩ lostOnce = some final ∧
        final.code = .pure 0 := ⟨_, rfl, rfl⟩
  obtain ⟨hLawful, hReturned⟩ := shell_reattaches hRun
  exact ⟨final, hRun, hEnd, hLawful, hReturned 0 hEnd⟩

end Pazuzu.Shell
