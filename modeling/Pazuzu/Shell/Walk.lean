import Pazuzu.Shell.Journal

/-! The shell's invariant, and what its loops know from place to place. -/
namespace Pazuzu.Shell

open Asyncio Python Surroundings

variable {session : Word} {state : State}

/-- What holds between any two steps of a shell. -/
structure Sound (session : Word) (state : State) : Prop where
  heard : state.cancelled = true ↔ .cancelled ∈ state.journal
  reporter : state.lastState = lastReported state.journal
  lawful : Lawful session state.journal

theorem Sound.initial : Sound session {} := ⟨⟨nofun, nofun⟩, rfl, trivial⟩

theorem Sound.disturb {move : Move} {before after : State} (h : Sound session before)
    (hMove : Shell.disturb move before = some after) : Sound session after := by
  cases move with
  | cancel =>
      cases hMove
      exact ⟨⟨fun _ => List.mem_cons_self, fun _ => rfl⟩, h.reporter, trivial, h.lawful⟩
  | launchability error =>
      cases hMove
      exact ⟨h.heard, h.reporter, h.lawful⟩

/-- What the surroundings add to a shell that waits. -/
structure Meanwhile (before after : State) : Prop where
  lastState : after.lastState = before.lastState
  cancelled : before.cancelled = true → after.cancelled = true
  journal : ∃ count, after.journal = List.replicate count .cancelled ++ before.journal

theorem meanwhile {before after : State} (h : surroundings.Drifts before after) :
    Meanwhile before after := by
  refine h.lift (fun _ => ⟨rfl, id, 0, rfl⟩) (fun a b c hFirst hSecond => ?_) fun move a b hMove => ?_
  · obtain ⟨first, hJournal⟩ := hFirst.journal
    obtain ⟨second, hJournal'⟩ := hSecond.journal
    refine ⟨hSecond.lastState.trans hFirst.lastState, fun h => hSecond.cancelled (hFirst.cancelled h),
      second + first, ?_⟩
    rw [hJournal', hJournal, ← List.append_assoc, List.replicate_append_replicate]
  · cases move with
    | cancel =>
        cases hMove
        exact ⟨rfl, fun _ => rfl, 1, rfl⟩
    | launchability error =>
        cases hMove
        exact ⟨rfl, id, 0, rfl⟩

/-- An entry that the reporter has nothing to do with. -/
theorem Sound.note {happening : Happening} (h : Sound session state) (hCancel : happening ≠ .cancelled)
    (hReport : happening.report = none) (hAllowed : Allowed session happening state.journal) :
    Sound session (state.note happening) := by
  refine ⟨?_, ?_, hAllowed, h.lawful⟩
  · rw [State.note, List.mem_cons, or_iff_right (Ne.symm hCancel)]
    exact h.heard
  · rw [State.note, lastReported, List.findSome?_cons, hReport]
    exact h.reporter

/-- Every way out of the code: with a value of which `P` holds, with a local
cancellation, or with an error. -/
def Stops {α : Type} (P : α → State → Prop) : Except Raised α → State → Prop
  | .ok value, state => P value state
  | .error .localCancellation, state => state.cancelled = true
  | .error (.error _), _ => True

theorem wp_stops_bind {α β : Type} {code : Py α} {next : α → Py β} {P : α → State → Prop}
    {Q : β → State → Prop} (h : surroundings.wp (Sound session) code (Stops P) state)
    (hNext : ∀ value after, P value after →
      surroundings.wp (Sound session) (next value) (Stops Q) after) :
    surroundings.wp (Sound session) (code.bind next) (Stops Q) state := by
  refine (wp_bind _ _ _ _).mpr (wp_mono h fun outcome after hOutcome => ?_)
  cases outcome with
  | ok value => exact hNext value after hOutcome
  | error raised => cases raised <;> exact hOutcome

theorem wp_stops_mono {α : Type} {code : Py α} {P Q : α → State → Prop}
    (h : surroundings.wp (Sound session) code (Stops P) state)
    (hMono : ∀ value after, P value after → Q value after) :
    surroundings.wp (Sound session) code (Stops Q) state :=
  wp_mono h fun outcome after hOutcome => by
    cases outcome with
    | ok value => exact hMono value after hOutcome
    | error raised => cases raised <;> exact hOutcome

theorem wp_never {α : Type} {post : Except Raised α → State → Prop} :
    surroundings.wp (Sound session) never post state := by
  refine (wp_bind _ _ _ _).mpr (wp_suspend fun later reply after _ _ hDeliver => ?_)
  cases reply with
  | ok value => cases value
  | error error => cases hDeliver

theorem wp_note_bind {α : Type} {happening : Happening} {next : Unit → Py α}
    {post : Except Raised α → State → Prop}
    (hSound : Sound session state → Sound session (state.note happening))
    (h : Sound session (state.note happening) →
      surroundings.wp (Sound session) (next ()) post (state.note happening)) :
    surroundings.wp (Sound session) ((note happening).bind next) post state := by
  refine wp_update_bind fun later hLater hBetween => ?_
  obtain rfl := hBetween.eq rfl
  exact ⟨hSound hLater, h (hSound hLater)⟩

/-- The state after a call that was answered. -/
structure Called (call : Call) (reply : Except Raised call.Reply) (before after : State) : Prop where
  lastState : after.lastState = before.lastState
  journal : ∃ newer older, after.journal =
    List.replicate newer .cancelled ++ (answered call (some reply) ++
      (List.replicate older .cancelled ++ .called call :: before.journal))

theorem Sound.answered {call : Call} {reply : Except Raised call.Reply} (h : Sound session state) :
    Sound session { state with journal := answered call (some reply) ++ state.journal } := by
  cases reply with
  | error raised =>
      cases call <;> exact h
  | ok value =>
      cases call with
      | status =>
          have hNote : Sound session (state.note (.observed value)) := h.note nofun rfl trivial
          exact hNote
      | reconnect =>
          have hNote : Sound session (state.note (.observed value)) := h.note nofun rfl trivial
          exact hNote
      | getAttachment =>
          have hNote : Sound session (state.note (.attached value)) := h.note nofun rfl trivial
          exact hNote
      | sleep seconds => exact h

/-- A call begins only without a cancellation, and ends with its reply or with
the cancellation. -/
theorem wp_callOrStop {call : Call} {post : Except Raised call.Reply → State → Prop}
    (hCall : MayCall call state.journal)
    (hStop : ∀ later, later.cancelled = true → post (.error .localCancellation) later)
    (hReply : ∀ later reply, reply ≠ .error .localCancellation → Called call reply state later →
      post reply later) :
    surroundings.wp (Sound session) (callOrStop call) post state := by
  refine wp_get fun later hLater hBetween => ?_
  obtain rfl := hBetween.eq rfl
  split
  · next hCancelled => exact hStop _ hCancelled
  · next hOpen =>
      have hAllowed : Allowed session (.called call) later.journal :=
        ⟨fun hMem => hOpen (hLater.heard.mpr hMem), hCall⟩
      refine wp_note_bind (fun hSound => hSound.note nofun rfl hAllowed) fun _ => ?_
      refine (wp_bind _ _ _ _).mpr (wp_suspend fun raced outcome after hRaced hDrifts hDeliver => ?_)
      have hMean := meanwhile hDrifts
      obtain ⟨older, hOlder⟩ := hMean.journal
      cases outcome with
      | error raised => cases hDeliver
      | ok outcome =>
          cases outcome with
          | none =>
              simp only [deliver, Option.ite_none_right_eq_some, Option.some.injEq] at hDeliver
              obtain ⟨hCancelled, rfl⟩ := hDeliver
              refine ⟨hRaced, (wp_bind _ _ _ _).mpr ?_⟩
              refine wp_suspend fun last reply end' hLast hDrifts hDeliver => ?_
              cases reply with
              | error raised => cases hDeliver
              | ok value =>
                  cases hDeliver
                  exact ⟨hLast, hStop _ ((meanwhile hDrifts).cancelled hCancelled)⟩
          | some reply =>
              have hAnswer : after = { raced with journal := answered call (some reply) ++ raced.journal } ∧
                  reply ≠ .error .localCancellation := by
                cases reply with
                | ok value => exact ⟨(Option.some.inj hDeliver).symm, nofun⟩
                | error raised =>
                    cases raised with
                    | localCancellation => cases hDeliver
                    | error error => exact ⟨(Option.some.inj hDeliver).symm, nofun⟩
              obtain ⟨rfl, hNot⟩ := hAnswer
              refine ⟨hRaced.answered, (wp_bind _ _ _ _).mpr ?_⟩
              refine wp_suspend fun last value end' hLast hDrifts hDeliver => ?_
              cases value with
              | error raised => cases hDeliver
              | ok value =>
                  cases hDeliver
                  have hLastMean := meanwhile hDrifts
                  obtain ⟨newer, hNewer⟩ := hLastMean.journal
                  refine ⟨hLast, (wp_ofExcept _).mpr (hReply _ reply hNot ?_)⟩
                  refine ⟨hLastMean.lastState.trans hMean.lastState, newer, older, ?_⟩
                  rw [hNewer, hOlder]
                  rfl

section Called

variable {before after : State}

theorem Called.added {call : Call} {reply : Except Raised call.Reply} (h : Called call reply before after) :
    ∃ added, after.journal = added ++ before.journal ∧ ∀ happening ∈ added,
      happening = .cancelled ∨ happening ∈ answered call (some reply) ∨ happening = .called call := by
  obtain ⟨newer, older, hJournal⟩ := h.journal
  refine ⟨List.replicate newer .cancelled ++ (answered call (some reply) ++
    (List.replicate older .cancelled ++ [.called call])), ?_, fun happening hMem => ?_⟩
  · simp only [hJournal, List.append_assoc, List.singleton_append]
  · rcases List.mem_append.mp hMem with hNewer | hMem
    · exact Or.inl (mem_cancels hNewer)
    · rcases List.mem_append.mp hMem with hAnswer | hMem
      · exact Or.inr (Or.inl hAnswer)
      · rcases List.mem_append.mp hMem with hOlder | hCalled
        · exact Or.inl (mem_cancels hOlder)
        · exact Or.inr (Or.inr (List.mem_singleton.mp hCalled))

/-- No answer is an exit or a reconnect. -/
theorem isMinor_of_answered {call : Call} {reply : Except Raised call.Reply} {happening : Happening}
    (h : happening ∈ answered call (some reply)) : happening.isMinor = true := by
  cases reply with
  | error raised => cases call <;> cases h
  | ok value =>
      cases call with
      | sleep seconds => cases h
      | _ =>
          obtain rfl := List.mem_singleton.mp h
          rfl

theorem Called.maySpawn {call : Call} {reply : Except Raised call.Reply}
    (h : Called call reply before after) (hMinor : (Happening.called call).isMinor = true)
    (hSpawn : MaySpawn before.journal) : MaySpawn after.journal := by
  obtain ⟨added, hJournal, hAdded⟩ := h.added
  rw [hJournal]
  refine hSpawn.append fun happening hMem => ?_
  rcases hAdded happening hMem with rfl | hAnswer | rfl
  · rfl
  · exact isMinor_of_answered hAnswer
  · exact hMinor

/-- The newest observation is what the call returned. -/
theorem Called.observed {health : Health} (h : Called .status (.ok health) before after) :
    lastHealth after.journal = some health := by
  obtain ⟨newer, older, hJournal⟩ := h.journal
  rw [hJournal]
  exact findSome_append_of_none fun happening hMem => by rw [mem_cancels hMem]; rfl

theorem Called.reobserved {health : Health} (h : Called .reconnect (.ok health) before after) :
    lastHealth after.journal = some health := by
  obtain ⟨newer, older, hJournal⟩ := h.journal
  rw [hJournal]
  exact findSome_append_of_none fun happening hMem => by rw [mem_cancels hMem]; rfl

theorem Called.gained {attachment : SshAttachment}
    (h : Called .getAttachment (.ok attachment) before after) : Gained attachment after.journal := by
  obtain ⟨newer, older, hJournal⟩ := h.journal
  have hCancels : ∀ count, ∀ happening ∈ List.replicate count Happening.cancelled,
      happening.isMinor = true := fun count happening hMem => by rw [mem_cancels hMem]; rfl
  refine ⟨List.replicate newer .cancelled, List.replicate older .cancelled, sinceExit before.journal, ?_,
    fun _ => mem_cancels⟩
  rw [hJournal, sinceExit_append (hCancels newer)]
  congr 1
  exact congrArg (Happening.attached attachment :: ·) (sinceExit_append (hCancels older))

/-- The one reconnect after a lost connection. -/
theorem Called.reconnected {reply : Except Raised Health} (h : Called .reconnect reply before after)
    (hExit : lastExit before.journal = some 255) (hNone : reconnects before.journal = 0) :
    MaySpawn after.journal := by
  obtain ⟨newer, older, hJournal⟩ := h.journal
  have hCancels : ∀ count, ∀ happening ∈ List.replicate count Happening.cancelled,
      happening.isMinor = true := fun count happening hMem => by rw [mem_cancels hMem]; rfl
  have hOnce : MaySpawn (.called .reconnect :: before.journal) := by
    refine Or.inr ⟨hExit, ?_⟩
    calc reconnects (.called .reconnect :: before.journal) = reconnects before.journal + 1 :=
          List.countP_cons_of_pos rfl
      _ = 1 := by rw [hNone]
  rw [hJournal]
  exact ((hOnce.append (hCancels older)).append fun _ => isMinor_of_answered).append (hCancels newer)

end Called

section Code

/-- A report leaves exits, reconnects and observations as they are. -/
structure Shows (newest : Text) (before after : State) : Prop where
  lastState : after.lastState = some newest
  journal : ∃ added, after.journal = added ++ before.journal ∧ ∀ happening ∈ added,
    happening.isMinor = true ∧ happening.health = none

theorem Sound.report {newest line : Text} (h : Sound session state) (hNew : state.lastState ≠ some newest) :
    Sound session { state.note (.reported newest line) with lastState := some newest } := by
  refine ⟨?_, rfl, ?_, h.lawful⟩
  · refine h.heard.trans ⟨List.mem_cons_of_mem _, fun hMem => ?_⟩
    exact (List.mem_cons.mp hMem).resolve_left nofun
  · exact fun hSame => hNew (h.reporter.trans hSame)

theorem wp_stateChanged (newest : Text) :
    surroundings.wp (Sound session) (stateChanged newest) (Stops fun _ after => Shows newest state after)
      state := by
  refine wp_get fun later hLater hBetween => ?_
  obtain rfl := hBetween.eq rfl
  split
  · next hSame => exact ⟨hSame.symm, [], rfl, nofun⟩
  · next hNew =>
      refine wp_update fun last hLast hBetween => ?_
      obtain rfl := hBetween.eq rfl
      refine ⟨hLast.report (Ne.symm hNew), rfl, [.reported newest (stateLine newest)], rfl, ?_⟩
      exact List.forall_mem_singleton.mpr ⟨rfl, rfl⟩

theorem Shows.maySpawn {newest : Text} {before after : State} (h : Shows newest before after)
    (hSpawn : MaySpawn before.journal) : MaySpawn after.journal := by
  obtain ⟨added, hJournal, hAdded⟩ := h.journal
  rw [hJournal]
  exact hSpawn.append fun happening hMem => (hAdded happening hMem).1

theorem Shows.seen {newest : Text} {before after : State} (h : Shows newest before after)
    (hSeen : SeenConnected before.journal) : SeenConnected after.journal := by
  obtain ⟨added, hJournal, hAdded⟩ := h.journal
  rw [hJournal]
  exact hSeen.append fun happening hMem => (hAdded happening hMem).2

/-- The reporter has said nothing yet, or last that the shell is connected. -/
def Presentable (state : State) : Prop := state.lastState = none ∨ state.lastState = some connected

/-- The shell may ask for a descriptor. -/
structure MayAttach (state : State) : Prop where
  spawn : MaySpawn state.journal
  seen : SeenConnected state.journal
  shown : Presentable state

/-- The health at hand is the one observed last. -/
structure Knows (health : Health) (state : State) : Prop where
  spawn : MaySpawn state.journal
  last : lastHealth state.journal = some health

theorem wp_status (hSpawn : MaySpawn state.journal) :
    surroundings.wp (Sound session) (callOrStop .status) (Stops Knows) state := by
  refine wp_callOrStop trivial (fun _ hCancelled => hCancelled) fun later reply hNot hCalled => ?_
  cases reply with
  | ok health => exact ⟨hCalled.maySpawn rfl hSpawn, hCalled.observed⟩
  | error raised =>
      cases raised with
      | localCancellation => exact absurd rfl hNot
      | error error => trivial

theorem wp_connectionState {α : Type} {health : Health} {next : Text → Py α} {Q : α → State → Prop}
    (h : ∀ connection, connectionState health = .ok connection →
      surroundings.wp (Sound session) (next connection) (Stops Q) state) :
    surroundings.wp (Sound session) ((@Coro.ofExcept signature _ (connectionState health)).bind next)
      (Stops Q) state := by
  refine (wp_bind _ _ _ _).mpr ((wp_ofExcept _).mpr ?_)
  cases hState : connectionState health with
  | ok connection => exact h connection hState
  | error raised =>
      cases raised with
      | localCancellation =>
          unfold connectionState at hState
          split at hState
          · split at hState <;> cases hState
          · cases hState
      | error error => trivial

/-- The wait ends when the newest health says `connected`, and has shown it. -/
theorem wp_waitUntilConnected (pollInterval : ℚ) (rounds : Nat) (known : Option Health)
    (hSpawn : MaySpawn state.journal) (hKnown : ∀ health, known = some health → Knows health state) :
    surroundings.wp (Sound session) (waitUntilConnected pollInterval rounds known)
      (Stops fun _ => MayAttach) state := by
  induction rounds generalizing known state with
  | zero => exact wp_never
  | succ rounds ih =>
      have hHealth : surroundings.wp (Sound session) (currentHealth known) (Stops Knows) state := by
        cases known with
        | none => exact wp_status hSpawn
        | some health => exact hKnown health rfl
      refine wp_stops_bind hHealth fun health later hLater => ?_
      refine wp_connectionState fun connection hConnection => ?_
      refine wp_stops_bind (wp_stateChanged connection) fun _ shown hShown => ?_
      split
      · next hConnected =>
          subst hConnected
          exact ⟨hShown.maySpawn hLater.spawn, hShown.seen ⟨health, hLater.last, hConnection⟩,
            Or.inr hShown.lastState⟩
      · refine wp_stops_bind (P := fun _ after => MaySpawn after.journal) ?_ fun _ slept hSlept =>
          ih none hSlept nofun
        refine wp_callOrStop trivial (fun _ hCancelled => hCancelled) fun last reply hNot hCalled => ?_
        cases reply with
        | ok value => exact hCalled.maySpawn rfl (hShown.maySpawn hLater.spawn)
        | error raised =>
            cases raised with
            | localCancellation => exact absurd rfl hNot
            | error error => trivial

end Code

end Pazuzu.Shell
