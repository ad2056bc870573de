import Pazuzu.Asyncio.Waits
import Pazuzu.Bridge.Stop

/-! What ends a bridge that has its lease. Of everything that can fail in a
round of the loop, only the launch of the channel is not turned into a retry. -/
namespace Pazuzu.Bridge

open Asyncio Surroundings

/-- No launch of a channel fails before a stop request. -/
def Launches : List Happening → Prop
  | [] => True
  | .unlaunched :: earlier => .signalled ∈ earlier ∧ Launches earlier
  | _ :: earlier => Launches earlier

section Excuses

variable {state before after : State}

/-- The handler of every signal has set the stop. -/
def Heard (state : State) : Prop := .signalled ∈ state.journal → state.stop = true

/-- A bridge may end here: on request, without a lease, or for a failed launch. -/
def Excused (state : State) : Prop :=
  state.stop = true ∨ state.bridgeLease = false ∨ ¬Launches state.journal

/-- Nothing is taken back, and the lease is as it was. -/
structure Onward (before after : State) : Prop where
  stop : before.stop = true → after.stop = true
  bridgeLease : after.bridgeLease = before.bridgeLease
  journal : ∃ later, after.journal = later ++ before.journal

theorem Onward.refl (state : State) : Onward state state := ⟨id, rfl, [], rfl⟩

theorem Onward.trans {a b c : State} (h : Onward a b) (h' : Onward b c) : Onward a c := by
  obtain ⟨first, hFirst⟩ := h.journal
  obtain ⟨second, hSecond⟩ := h'.journal
  exact ⟨fun hStop => h'.stop (h.stop hStop), h'.bridgeLease.trans h.bridgeLease, second ++ first,
    by simp [hFirst, hSecond]⟩

theorem Launches.earlier {later journal : List Happening} (h : Launches (later ++ journal)) : Launches journal := by
  induction later with
  | nil => exact h
  | cons happening later ih =>
      cases happening with
      | unlaunched => exact ih h.2
      | _ => exact ih h

theorem Excused.onward (h : Excused before) (hOnward : Onward before after) : Excused after := by
  rcases h with hStop | hLease | hFailed
  · exact Or.inl (hOnward.stop hStop)
  · exact Or.inr (Or.inl (hOnward.bridgeLease.trans hLease))
  · obtain ⟨later, hJournal⟩ := hOnward.journal
    exact Or.inr (Or.inr fun hLaunches => hFailed (hJournal ▸ hLaunches).earlier)

theorem disturb_onward {move : Move} (h : disturb move before = some after) : Onward before after := by
  cases move with
  | signal =>
      simp only [disturb, Option.ite_none_right_eq_some, Option.some.injEq] at h
      obtain ⟨-, rfl⟩ := h
      exact ⟨fun _ => rfl, rfl, [.signalled], rfl⟩
  | exit index =>
      cases h
      exact ⟨id, rfl, [], rfl⟩
  | pass seconds =>
      simp only [disturb, Option.ite_none_right_eq_some, Option.some.injEq] at h
      obtain ⟨-, rfl⟩ := h
      exact ⟨id, rfl, [], rfl⟩

theorem onward_of_drifts (h : surroundings.Drifts before after) : Onward before after :=
  h.lift Onward.refl (fun _ _ _ => Onward.trans) fun _ _ _ => disturb_onward

theorem Heard.disturb {move : Move} (h : Heard before) (hMove : disturb move before = some after) : Heard after := by
  cases move with
  | signal =>
      simp only [Bridge.disturb, Option.ite_none_right_eq_some, Option.some.injEq] at hMove
      obtain ⟨-, rfl⟩ := hMove
      exact fun _ => rfl
  | exit index =>
      cases hMove
      exact h
  | pass seconds =>
      simp only [Bridge.disturb, Option.ite_none_right_eq_some, Option.some.injEq] at hMove
      obtain ⟨-, rfl⟩ := hMove
      exact h

theorem Heard.note {happening : Happening} (h : Heard state) (hOther : happening ≠ .signalled) :
    Heard (state.note happening) := by
  intro hSignalled
  rcases List.mem_cons.mp hSignalled with hSame | hEarlier
  · exact absurd hSame.symm hOther
  · exact h hEarlier

theorem Heard.control (h : Heard state) (operation : Operation) (outcome : Outcome) :
    Heard (state.control operation outcome) := by
  have hNote : Heard (state.note (.controlled operation outcome)) := h.note nofun
  exact hNote

theorem Onward.control (state : State) (operation : Operation) (outcome : Outcome) :
    Onward state (state.control operation outcome) := ⟨id, rfl, [.controlled operation outcome], rfl⟩

end Excuses

section Keeping

variable {α : Type}

/-- Code that leaves an excuse as it is. -/
def Keeps (code : Py α) : Prop :=
  ∀ state, Excused state → surroundings.wp Heard code (fun _ after => Excused after) state

theorem Keeps.compositional : Compositional fun {α : Type} (code : Py α) => Keeps code where
  pure := fun _ _ h => h
  throw := fun _ _ h => h
  read := fun hNext state h later _ hBetween =>
    hNext 0 later later (h.onward (onward_of_drifts hBetween.drifts))
  bind := by
    intro α β code next hCode hNext state h
    refine (wp_bind _ _ _ _).mpr (wp_mono (hCode state h) fun outcome after hAfter => ?_)
    cases outcome with
    | ok value => exact hNext value after hAfter
    | error error => exact hAfter
  attempt := fun hCode state h => (wp_attempt _ _ _).mpr (hCode state h)

theorem Keeps.update {f : State → State} (hHeard : ∀ state, Heard state → Heard (f state))
    (hOnward : ∀ state, Onward state (f state)) : Keeps (Bridge.update f) :=
  fun _ h => wp_update fun later hLater hBetween =>
    ⟨hHeard later hLater, (h.onward (onward_of_drifts hBetween.drifts)).onward (hOnward later)⟩

theorem keeps_controlBridge (operation : Operation) (argv : List String) (required : Bool) :
    Keeps (controlBridge operation argv required) := by
  have hWait : Keeps (wait (.control operation argv)) := fun _ hExcused =>
    wp_control fun later outcome hLater hDrifts =>
      ⟨hLater.control _ _, (hExcused.onward (onward_of_drifts hDrifts)).onward (Onward.control _ _ _)⟩
  refine Keeps.compositional.bind hWait fun outcome => ?_
  cases outcome with
  | exited code detail => exact Keeps.compositional.when (Keeps.compositional.raise _)
  | timedOut reached message => exact Keeps.compositional.when (Keeps.compositional.raise _)
  | failed message => exact Keeps.compositional.when (Keeps.compositional.raise _)

theorem closeLease_heard {state : State} (h : Heard state) : Heard (closeLease state) := by
  unfold closeLease
  split <;> exact h

theorem closeLease_onward (state : State) : Onward state (closeLease state) := by
  unfold closeLease
  split <;> exact ⟨id, rfl, [], rfl⟩

theorem keeps_channelEnd (argv : List String) : Keeps (channelEnd argv) := by
  refine Keeps.compositional.bind (Keeps.update (fun _ => closeLease_heard) closeLease_onward) fun _ => ?_
  refine Keeps.compositional.bind (Keeps.update (fun _ => id) fun _ => ⟨id, rfl, [], rfl⟩) fun _ => ?_
  exact Keeps.compositional.bind (keeps_controlBridge _ _ _) fun _ =>
    Keeps.update (fun _ => id) fun _ => ⟨id, rfl, [], rfl⟩

theorem keeps_bridgeEnd (argv : Argv) : Keeps (bridgeEnd argv) := by
  have hRelease : Keeps (wait .release) := fun _ hExcused =>
    wp_release fun _ _ hDrifts => hExcused.onward (onward_of_drifts hDrifts)
  refine Keeps.compositional.get fun _ => ?_
  refine Keeps.compositional.bind (Keeps.compositional.when (keeps_controlBridge _ _ _)) fun _ => ?_
  refine Keeps.compositional.get fun _ => ?_
  exact Keeps.compositional.bind (Keeps.compositional.when hRelease) fun _ =>
    Keeps.update (fun _ => id) fun _ => ⟨id, rfl, [], rfl⟩

end Keeping

section Ends

variable {state : State}

/-- Of the two waits of a channel only its launch can fail. -/
theorem wp_channelRun_ends (argv : List String) :
    surroundings.wp Heard (channelRun argv)
      (fun outcome after => (∃ code, outcome = .ok code) ∨ Excused after) state := by
  refine (wp_bind _ _ _ _).mpr (wp_popen (fun later hLater _ => ?_) fun later message hLater _ => ?_)
  · have hLaunched : Heard (later.note (.launched later.registered)) := hLater.note nofun
    refine ⟨hLaunched, wp_update_bind fun seen hSeen _ => ⟨hSeen.note nofun, ?_⟩⟩
    exact wp_childWait fun last channel earlier code _ _ _ _ => Or.inl ⟨code, rfl⟩
  · refine ⟨hLater.note nofun, Or.inr ?_⟩
    cases hStop : later.stop with
    | true => exact Or.inl hStop
    | false =>
        refine Or.inr (Or.inr fun hLaunches => ?_)
        rw [hLater hLaunches.1] at hStop
        cases hStop

/-- A pause ends on request, or the loop goes on. -/
theorem wp_retry_ends {line : String} {delay : ℚ} {next : Py Int}
    (hNext : ∀ later, surroundings.wp Heard next (fun _ after => Excused after) later) :
    surroundings.wp Heard (do
      printed line
      if ← waitForRetry delay then return 0 else next) (fun _ after => Excused after) state := by
  refine wp_update_bind fun first hFirst hBetween => ⟨hFirst.note nofun, ?_⟩
  refine (wp_bind _ _ _ _).mpr (wp_waitForRetry fun later _ _ => ?_)
  cases hStop : later.stop with
  | true => exact Or.inl hStop
  | false => exact hNext later

/-- A forward raises nothing but what is tried again. -/
theorem wp_forward_ends {argv : List String} {post : Except Error Unit → State → Prop}
    (hOk : ∀ after, post (.ok ()) after)
    (hError : ∀ message after, post (.error (.connectionUnavailable message)) after) :
    surroundings.wp Heard (controlBridge .forward argv true) post state := by
  refine (wp_bind _ _ _ _).mpr (wp_control fun later outcome hLater _ => ⟨hLater.control _ _, ?_⟩)
  cases outcome with
  | failed message => exact hError _ _
  | timedOut reached message => exact hError _ _
  | exited code detail => exact wp_when (fun _ => hError _ _) fun _ => hOk _

theorem wp_cancel_ends {argv : List String} :
    surroundings.wp Heard (controlBridge .cancel argv false) (fun outcome _ => outcome = .ok ()) state := by
  refine (wp_bind _ _ _ _).mpr (wp_control fun later outcome hLater _ => ⟨hLater.control _ _, ?_⟩)
  cases outcome <;> exact wp_when (fun hRequired => by simp at hRequired) fun _ => rfl

/-- The `finally` after a channel does not raise. -/
theorem wp_channelEnd_ends {argv : List String} :
    surroundings.wp Heard (channelEnd argv) (fun outcome _ => outcome = .ok ()) state := by
  refine wp_update_bind fun first hFirst hBetween => ⟨closeLease_heard hFirst, ?_⟩
  refine wp_update_bind fun second hSecond hBetween => ⟨hSecond, ?_⟩
  refine (wp_bind _ _ _ _).mpr (wp_mono wp_cancel_ends fun outcome third hOutcome => ?_)
  subst hOutcome
  exact wp_update fun last hLast hBetween => ⟨hLast, rfl⟩

/-- Every way out of the loop is excused. -/
theorem wp_keepUp_ends (argv : Argv) (rounds : Nat) (delay : ℚ) :
    surroundings.wp Heard (keepUp argv rounds delay) (fun _ after => Excused after) state := by
  induction rounds generalizing delay state with
  | zero => exact wp_never
  | succ rounds ih =>
      refine wp_get fun first hFirst hBetween => ?_
      split
      · next hStop => exact Or.inl hStop
      · refine (wp_bind _ _ _ _).mpr ((wp_attempt _ _ _).mpr ?_)
        refine wp_forward_ends (fun after => ?_) fun message after => ?_
        · refine wp_update_bind fun seen hSeen hBetween => ⟨hSeen, ?_⟩
          refine wp_get fun started _ hBetween => ?_
          refine (wp_bind _ _ _ _).mpr ((wp_tryFinally _ _).mpr ?_)
          refine wp_mono (wp_channelRun_ends _) fun outcome finished hFinished => ?_
          cases outcome with
          | error error =>
              have hExcused := hFinished.resolve_left nofun
              refine wp_mono (keeps_channelEnd _ _ hExcused) fun result ended hEnded => ?_
              cases result <;> exact hEnded
          | ok exitCode =>
              refine wp_mono wp_channelEnd_ends fun result ended hResult => ?_
              subst hResult
              refine wp_get fun second _ hBetween => ?_
              split
              · next hStop => exact Or.inl hStop
              · exact wp_get fun third _ hBetween => wp_retry_ends fun _ => ih _
        · exact wp_retry_ends fun _ => ih _

/-- The lease is there only after it was acquired, and no way out before that has it. -/
theorem wp_acquireLease_ends (pool : SessionLeasePool) (rounds : Nat) (h : state.bridgeLease = false) :
    surroundings.wp Heard (acquireLease pool rounds)
      (fun outcome after => outcome = .ok true ∨ Excused after) state := by
  induction rounds generalizing state with
  | zero => exact wp_never
  | succ rounds ih =>
      refine (wp_bind _ _ _ _).mpr ((wp_attempt _ _ _).mpr ?_)
      refine wp_acquire (fun _ _ _ => ?_) (fun later _ hDrifts => ?_) fun later message _ hDrifts => ?_
      · exact wp_update_bind fun held hHeld _ => ⟨hHeld, Or.inl rfl⟩
      · have hUnleased := (onward_of_drifts hDrifts).bridgeLease.trans h
        refine wp_get fun last _ hBetween => ?_
        have hLast := (onward_of_drifts hBetween.drifts).bridgeLease.trans hUnleased
        split
        · exact Or.inr (Or.inr (Or.inl hLast))
        · exact ih hLast
      · exact Or.inr (Or.inr (Or.inl ((onward_of_drifts hDrifts).bridgeLease.trans h)))

theorem wp_underLease_ends (argv : Argv) (pool : SessionLeasePool) (rounds : Nat) (h : state.bridgeLease = false) :
    surroundings.wp Heard (underLease argv pool rounds) (fun _ after => Excused after) state := by
  have hLoop : ∀ leased, surroundings.wp Heard
      ((controlBridge .cancel argv.cancel false).bind fun _ => keepUp argv rounds 1)
      (fun _ after => Excused after) leased := by
    refine fun leased => (wp_bind _ _ _ _).mpr (wp_mono wp_cancel_ends fun outcome cleared hOutcome => ?_)
    subst hOutcome
    exact wp_keepUp_ends argv rounds 1
  refine (wp_bind _ _ _ _).mpr (wp_mono (wp_acquireLease_ends pool rounds h) fun outcome leased hLeased => ?_)
  cases outcome with
  | error error => exact hLeased.resolve_left nofun
  | ok acquired =>
      cases acquired with
      | false => exact hLeased.resolve_left nofun
      | true => exact hLoop leased

/-- Every way out of `run_bridge` is excused. -/
theorem wp_runBridge_ends (request : Request) (published : Option Nat) (rounds : Nat)
    (h : state.bridgeLease = false) :
    surroundings.wp Heard (runBridge request published rounds) (fun _ after => Excused after) state := by
  refine (wp_bind _ _ _ _).mpr ((wp_ofExcept _).mpr ?_)
  split
  · next argv _ =>
      refine (wp_bind _ _ _ _).mpr ((wp_ofExcept _).mpr ?_)
      split
      · next pool _ =>
          refine wp_update_bind fun first hFirst hBetween => ⟨hFirst, ?_⟩
          have hUnleased : ({ first with handling := true } : State).bridgeLease = false :=
            (onward_of_drifts hBetween.drifts).bridgeLease.trans h
          refine (wp_tryFinally _ _).mpr ?_
          refine wp_mono (wp_underLease_ends argv pool rounds hUnleased) fun outcome last hLast => ?_
          refine wp_mono (keeps_bridgeEnd argv _ hLast) fun result ended hEnded => ?_
          cases result <;> exact hEnded
      · exact Or.inr (Or.inl h)
  · exact Or.inr (Or.inl h)

end Ends

section Waits

/-- What the loop waits for: it pauses for 1 to 30 seconds and does not release
the lease. -/
def Wait.serves : Wait → Prop
  | .retry delay => 1 ≤ delay ∧ delay ≤ 30
  | .release => False
  | _ => True

/-- The wait that gives the lease back. -/
def Wait.frees (wait : Wait) : Prop := wait = .release

/-- A pause is one of 1 to 30 seconds. -/
def Wait.patient : Wait → Prop
  | .retry delay => 1 ≤ delay ∧ delay ≤ 30
  | _ => True

theorem Wait.patient_of_serves : ∀ wait : Wait, wait.serves → wait.patient
  | .retry _, h => h
  | .release, _ | .acquire _ _, _ | .control _ _, _ | .popen _, _ | .childWait, _ | .never, _ => trivial

theorem serves_compositional : Compositional fun {α : Type} (code : Py α) => code.Waits Wait.serves :=
  Coro.Waits.compositional _

theorem waits_update (f : State → State) : (update f).Waits Wait.serves := trivial

theorem waits_controlBridge (operation : Operation) (argv : List String) (required : Bool) :
    (controlBridge operation argv required).Waits Wait.serves := by
  refine serves_compositional.bind (Coro.Waits.suspend trivial) fun outcome => ?_
  cases outcome with
  | exited code detail => exact serves_compositional.when (serves_compositional.raise _)
  | timedOut reached message => exact serves_compositional.when (serves_compositional.raise _)
  | failed message => exact serves_compositional.when (serves_compositional.raise _)

theorem waits_never {α : Type} : (never : Py α).Waits Wait.serves :=
  serves_compositional.bind (Coro.Waits.suspend trivial) nofun

theorem waits_acquireLease (pool : SessionLeasePool) (rounds : Nat) :
    (acquireLease pool rounds).Waits Wait.serves := by
  induction rounds with
  | zero => exact waits_never
  | succ rounds ih =>
      refine serves_compositional.bind (serves_compositional.attempt (Coro.Waits.suspend trivial)) fun outcome => ?_
      cases outcome with
      | ok value => exact serves_compositional.bind (waits_update _) fun _ => trivial
      | error error =>
          cases error with
          | timeoutError => exact serves_compositional.get fun _ => Compositional.ite trivial ih
          | _ => exact serves_compositional.raise _

theorem waits_channelRun (argv : List String) : (channelRun argv).Waits Wait.serves :=
  serves_compositional.bind (Coro.Waits.suspend trivial) fun _ =>
    serves_compositional.bind (waits_update _) fun _ => Coro.Waits.suspend trivial

theorem waits_channelEnd (argv : List String) : (channelEnd argv).Waits Wait.serves :=
  serves_compositional.bind (waits_update _) fun _ => serves_compositional.bind (waits_update _) fun _ =>
    serves_compositional.bind (waits_controlBridge _ _ _) fun _ => waits_update _

theorem waits_retry {line : String} {delay : ℚ} {next : Py Int} (hDelay : 1 ≤ delay ∧ delay ≤ 30)
    (hNext : next.Waits Wait.serves) :
    (do
      printed line
      if ← waitForRetry delay then return 0 else next : Py Int).Waits Wait.serves :=
  serves_compositional.bind (waits_update _) fun _ =>
    serves_compositional.bind (Coro.Waits.suspend hDelay) fun _ => Compositional.ite trivial hNext

/-- The delay of the loop stays between 1 and 30 seconds. -/
theorem waits_keepUp (argv : Argv) (rounds : Nat) {delay : ℚ} (h : 1 ≤ delay ∧ delay ≤ 30) :
    (keepUp argv rounds delay).Waits Wait.serves := by
  induction rounds generalizing delay with
  | zero => exact waits_never
  | succ rounds ih =>
      have hDoubled : ∀ {delay : ℚ}, 1 ≤ delay → (1 ≤ min 30 (delay * 2) ∧ min 30 (delay * 2) ≤ 30) := by
        intro delay hLow
        exact ⟨le_min (by norm_num) (by linarith), min_le_left _ _⟩
      refine serves_compositional.get fun state => Compositional.ite trivial ?_
      refine serves_compositional.bind (serves_compositional.attempt (waits_controlBridge _ _ _)) fun outcome => ?_
      cases outcome with
      | error error =>
          cases error with
          | connectionUnavailable message => exact waits_retry h (ih (hDoubled h.1))
          | _ => exact serves_compositional.raise _
      | ok value =>
          refine serves_compositional.bind (waits_update _) fun _ => ?_
          refine serves_compositional.get fun started => ?_
          refine serves_compositional.bind
            (serves_compositional.tryFinally (waits_channelRun _) (waits_channelEnd _)) fun exitCode => ?_
          refine serves_compositional.get fun state => Compositional.ite trivial ?_
          refine serves_compositional.get fun ended => ?_
          have hReset : 1 ≤ (if 60 ≤ ended.clock - started.clock then 1 else delay) ∧
              (if 60 ≤ ended.clock - started.clock then 1 else delay) ≤ 30 := by
            split
            · norm_num
            · exact h
          exact waits_retry hReset (ih (hDoubled hReset.1))

theorem waits_underLease (argv : Argv) (pool : SessionLeasePool) (rounds : Nat) :
    (underLease argv pool rounds).Waits Wait.serves :=
  serves_compositional.bind (waits_acquireLease pool rounds) fun _ =>
    Compositional.ite (serves_compositional.bind (waits_controlBridge _ _ _) fun _ =>
      waits_keepUp argv rounds (by norm_num)) trivial

theorem patient_compositional : Compositional fun {α : Type} (code : Py α) => code.Waits Wait.patient :=
  Coro.Waits.compositional _

theorem waits_bridgeEnd (argv : Argv) : (bridgeEnd argv).Waits Wait.patient := by
  refine patient_compositional.get fun _ => ?_
  refine patient_compositional.bind
    (patient_compositional.when ((waits_controlBridge _ _ _).mono Wait.patient_of_serves)) fun _ => ?_
  refine patient_compositional.get fun _ => ?_
  exact patient_compositional.bind (patient_compositional.when (Coro.Waits.suspend trivial)) fun _ => trivial

theorem waits_runBridge (request : Request) (published : Option Nat) (rounds : Nat) :
    (runBridge request published rounds).Waits Wait.patient :=
  patient_compositional.bind (patient_compositional.ofExcept _) fun argv =>
    patient_compositional.bind (patient_compositional.ofExcept _) fun pool =>
      patient_compositional.bind (show (update _).Waits Wait.patient from trivial) fun _ =>
        patient_compositional.tryFinally ((waits_underLease argv pool rounds).mono Wait.patient_of_serves)
          (waits_bridgeEnd argv)

/-- Nothing is left but to restore the handlers and to end. -/
def Closing (code : Py Int) : Prop :=
  ∃ outcome, code = .act none (fun state => { state with handling := false }) (Coro.ofExcept outcome) ∨
    code = Coro.ofExcept outcome

theorem Closing.step {solo next : Solo signature Int} {pick : Pick surroundings} (h : Closing solo.code)
    (hStep : surroundings.step solo pick = some next) : Closing next.code := by
  obtain ⟨outcome, hCode⟩ := h
  rcases step_code hStep with hSame | ⟨more, hRead, -⟩ | ⟨event, update, hAct⟩ | ⟨wait, more, reply, hWait, -⟩
  · exact hSame ▸ ⟨outcome, hCode⟩
  · rcases hCode with hCode | hCode
    · cases hCode.symm.trans hRead
    · cases outcome <;> cases hCode.symm.trans hRead
  · rcases hCode with hCode | hCode
    · have hRest := (Coro.act.inj (hCode.symm.trans hAct)).2.2
      exact ⟨outcome, Or.inr hRest.symm⟩
    · cases outcome <;> cases hCode.symm.trans hAct
  · rcases hCode with hCode | hCode
    · cases hCode.symm.trans hWait
    · cases outcome <;> cases hCode.symm.trans hWait

theorem closes_ofExcept (outcome : Except Error Int) :
    (Coro.ofExcept outcome : Py Int).Closes Wait.frees Closing := by
  cases outcome <;> trivial

theorem not_frees : ∀ wait : Wait, wait.serves → ¬wait.frees := by
  rintro _ hServes rfl
  exact hServes

theorem closes_bridgeEnd (argv : Argv) (outcome : Except Error Int) :
    ((bridgeEnd argv).bind fun _ => Coro.ofExcept outcome : Py Int).Closes Wait.frees Closing := by
  intro _ first
  have hControl : (Coro.when first.forwardRegistered (controlBridge .cancel argv.cancel false)).Waits
      fun wait : Wait => ¬wait.frees :=
    (serves_compositional.when (waits_controlBridge _ _ _)).mono not_frees
  change ((Coro.bind (Coro.when first.forwardRegistered (controlBridge .cancel argv.cancel false)) _).bind _).Closes
    Wait.frees Closing
  rw [Coro.bind_assoc]
  refine Coro.Closes.bind hControl fun _ _ second => ?_
  change Coro.Closes _ _ (Coro.bind (Coro.bind (Coro.when second.bridgeLease (wait .release)) _) _)
  unfold Coro.when
  split
  · refine ⟨fun _ reply => ?_, fun reply => ?_⟩
    · cases reply with
      | ok value => exact ⟨outcome, Or.inl rfl⟩
      | error error => exact ⟨.error error, Or.inr rfl⟩
    · cases reply with
      | ok value => exact closes_ofExcept outcome
      | error error => trivial
  · exact closes_ofExcept outcome

/-- The release of the lease is the last wait. -/
theorem closes_runBridge (request : Request) (published : Option Nat) (rounds : Nat) :
    (runBridge request published rounds).Closes Wait.frees Closing := by
  have hNothing : ∀ {α : Type} (outcome : Except Error α),
      (Coro.ofExcept outcome : Py α).Waits fun wait : Wait => ¬wait.frees := fun outcome =>
    (serves_compositional.ofExcept outcome).mono not_frees
  refine Coro.Closes.bind (hNothing _) fun argv => Coro.Closes.bind (hNothing _) fun pool => ?_
  have hUnder := (serves_compositional.attempt (waits_underLease argv pool rounds)).mono not_frees
  exact Coro.Closes.bind (show (update _).Waits _ from trivial) fun _ =>
    Coro.Closes.bind hUnder fun outcome => closes_bridgeEnd argv outcome

end Waits

section Statement

/-- The lease has been released in the course of a run. -/
def Released (request : Request) (published : Option Nat) (rounds : Nat) (picks : List (Pick surroundings)) : Prop :=
  surroundings.Answers Wait.frees ⟨runBridge request published rounds, {}⟩ picks

/-- A bridge with its lease as it should be: it ends on request only, pauses for
1 to 30 seconds, and keeps the lease until nothing but its end is left. -/
structure Resident (released : Prop) (final : Solo signature Int) : Prop where
  stays : ∀ outcome, final.code = Coro.ofExcept outcome → final.state.stop = true
  pauses : ∀ delay next, final.code = .await (.retry delay) next → 1 ≤ delay ∧ delay ≤ 30
  keeps : released → Closing final.code ∧ final.state.stop = true

variable {request : Request} {published : Option Nat} {rounds : Nat} {picks : List (Pick surroundings)}
  {final : Solo signature Int}

/-- Where nothing but the end is left, the bridge may end. -/
theorem excused_of_closing (hRun : Reaches request published rounds picks final) (h : Closing final.code) :
    Excused final.state := by
  have hMoves : ∀ move before after, Heard before → surroundings.disturb move before = some after → Heard after :=
    fun _ _ _ hHeard hMove => hHeard.disturb hMove
  have hInitial : Heard {} := nofun
  obtain ⟨hHeard, start, hSince, hCode⟩ := run_keeps hMoves hInitial ⟨Drifts.refl, fun _ => Or.inl rfl⟩
    (wp_runBridge_ends request published rounds rfl) hRun
  obtain ⟨outcome, hActs | hEnds⟩ := h
  · rw [hActs] at hSince hCode
    have hLast := (hCode final.state hHeard (hSince.2 rfl)).2
    exact (wp_ofExcept outcome).mp hLast
  · rw [hEnds] at hCode
    exact ((wp_ofExcept outcome).mp hCode).onward (onward_of_drifts hSince.1)

/-- In every run of a bridge in which no launch of its channel fails before a
stop request, a bridge with its lease is as it should be. -/
theorem bridge_resides (hRun : Reaches request published rounds picks final)
    (hLease : final.state.bridgeLease = true) (hLaunches : Launches final.state.journal) :
    Resident (Released request published rounds picks) final := by
  have hStop : Closing final.code → final.state.stop = true := by
    intro hClosing
    rcases excused_of_closing hRun hClosing with hStop | hNone | hFailed
    · exact hStop
    · rw [hNone] at hLease
      cases hLease
    · exact absurd hLaunches hFailed
  refine ⟨fun outcome hEnd => hStop ⟨outcome, Or.inr hEnd⟩, fun delay next hWait => ?_, fun hReleased => ?_⟩
  · have hWaits := run_waits (waits_runBridge request published rounds) hRun
    rw [hWait] at hWaits
    exact hWaits.1
  · have hClosing := run_closes (fun _ _ _ => Closing.step) (closes_runBridge request published rounds) hRun hReleased
    exact ⟨hClosing, hStop hClosing⟩

/-- The picks from a running channel to the end of its bridge. -/
def upToEnd : List (Pick surroundings) :=
  [.disturb (.exit 0), .answer favourably, .go, .go, .answer favourably, .go, .go, .go, .go, .answer favourably, .go]

/-- A bridge that is asked to stop while its channel runs. -/
theorem bridge_resides_stopped : ∃ final,
    Reaches sample none 1 (upToForward ++ upToChild ++ stopRequest ++ upToEnd) final ∧ final.code = .pure 0 ∧
      Resident (Released sample none 1 (upToForward ++ upToChild ++ stopRequest ++ upToEnd)) final := by
  obtain ⟨final, hRun, hCode, hLease, hJournal⟩ : ∃ final,
      Reaches sample none 1 (upToForward ++ upToChild ++ stopRequest ++ upToEnd) final ∧ final.code = .pure 0 ∧
        final.state.bridgeLease = true ∧
        final.state.journal = [.controlled .cancel (.exited 0 ""), .signalled, .assigned, .launched true,
          .controlled .forward (.exited 0 ""), .controlled .cancel (.exited 0 "")] := ⟨_, rfl, rfl, rfl, rfl⟩
  refine ⟨final, hRun, hCode, bridge_resides hRun hLease ?_⟩
  rw [hJournal]
  trivial

/-- Everything goes well until the channel cannot be launched. -/
def unlaunchably : (wait : Wait) → Except Error wait.Reply
  | .popen _ => .error (.osError "e")
  | wait => favourably wait

/-- The picks from the first forward to the end of a bridge whose channel cannot
be launched. -/
def throughFailure : List (Pick surroundings) :=
  [.answer favourably, .go, .go, .answer unlaunchably, .go, .go, .answer favourably, .go, .go, .go,
    .answer favourably, .go]

/-- A launch that fails ends the bridge, with no stop request. -/
theorem bridge_leaves : ∃ picks final, Reaches sample none 1 picks final ∧ final.state.bridgeLease = true ∧
    ¬Resident (Released sample none 1 picks) final := by
  obtain ⟨final, hRun, hCode, hStop, hLease⟩ : ∃ final, Reaches sample none 1 (upToForward ++ throughFailure) final ∧
      final.code = .throw (.osError "e") ∧ final.state.stop = false ∧ final.state.bridgeLease = true :=
    ⟨_, rfl, rfl, rfl, rfl⟩
  refine ⟨_, final, hRun, hLease, fun hResident => ?_⟩
  have hStopped := hResident.stays (.error (.osError "e")) hCode
  rw [hStop] at hStopped
  cases hStopped

end Statement
end Pazuzu.Bridge
