import Pazuzu.Process

/-! When a deadline or a cancellation ends the whole process group. The cleanup
looks at the leader only. -/
namespace Pazuzu.Process

open Asyncio Python Surroundings

/-- The cleanup's decision is right for the whole group: a start is not
cancelled over a descendant, a leader that is gone has left nobody behind, and
the grace ends early only when nobody is left. -/
def Happening.Settles : Happening → Prop
  | .startCancelled descendants => descendants = []
  | .interrupted returncode living => returncode = none ∨ living = []
  | .graceEnded living => living = []
  | .started | .signalled _ => True

def Orderly (journal : List Happening) : Prop := ∀ happening ∈ journal, happening.Settles

/-- In an orderly run, nobody in the group is alive. -/
def Ending (state : State) : Prop := Orderly state.journal → state.living = []

/-- An empty group stays empty, and only the code writes to the journal. -/
structure Meanwhile (before after : State) : Prop where
  journal : after.journal = before.journal
  living : before.living = [] → after.living = []

theorem meanwhile {before after : State} (h : surroundings.Drifts before after) :
    Meanwhile before after := by
  refine h.lift (fun _ => ⟨rfl, id⟩) (fun a b c hFirst hSecond =>
    ⟨hSecond.journal.trans hFirst.journal, fun h => hSecond.living (hFirst.living h)⟩) fun move a b hMove => ?_
  cases move with
  | fork parent child =>
      simp only [disturb, Option.ite_none_right_eq_some, Option.some.injEq] at hMove
      obtain ⟨⟨hParent, -, -⟩, rfl⟩ := hMove
      refine ⟨rfl, fun hNone => ?_⟩
      rw [hNone] at hParent
      cases hParent
  | exit pid =>
      cases hMove
      refine ⟨rfl, fun hNone => ?_⟩
      rw [hNone]
      rfl
  | reap code =>
      simp only [disturb, Option.ite_none_right_eq_some, Option.some.injEq] at hMove
      obtain ⟨-, rfl⟩ := hMove
      exact ⟨rfl, id⟩
  | launchability error =>
      cases hMove
      exact ⟨rfl, id⟩

theorem Ending.meanwhile {before after : State} (h : Ending before) (hMean : Meanwhile before after) :
    Ending after := fun hOrderly => hMean.living (h (hMean.journal ▸ hOrderly))

theorem Ending.note {state : State} (h : Ending state) (happening : Happening) :
    Ending (state.note happening) := fun hOrderly =>
  h fun earlier hMem => hOrderly earlier (List.mem_cons_of_mem _ hMem)

/-- An entry that tells who was alive settles it. -/
theorem Ending.of_settles {state : State} {happening : Happening}
    (h : happening.Settles → state.living = []) : Ending (state.note happening) := fun hOrderly =>
  h (hOrderly happening List.mem_cons_self)

section Code

variable {state : State}

/-- The invariant of the walk holds of every state. -/
abbrev Always (_ : State) : Prop := True

theorem wp_ending {waited : Wait} {post : Except Error waited.Reply → State → Prop} (h : Ending state)
    (hSame : ∀ reply before after, deliver waited reply before = some after → after = before)
    (hPost : ∀ reply after, Ending after → post reply after) :
    surroundings.wp Always (wait waited) post state := by
  refine wp_suspend fun later reply after _ hDrifts hDeliver => ?_
  obtain rfl := hSame reply later after hDeliver
  exact ⟨trivial, hPost reply after (h.meanwhile (meanwhile hDrifts))⟩

theorem deliver_processWait {reply : Except Error Int} {before after : State}
    (h : deliver .processWait reply before = some after) : after = before := by
  cases reply with
  | ok code =>
      simp only [deliver, Option.ite_none_right_eq_some, Option.some.injEq] at h
      exact h.2.symm
  | error error => cases error <;> cases h <;> rfl

theorem deliver_cleanup {reply : Except Error Unit} {before after : State}
    (h : deliver .cleanup reply before = some after) : after = before := by
  cases reply with
  | ok value => cases h; rfl
  | error error => cases error <;> cases h; rfl

/-- The cleanup ends the group if the leader was still there, or nobody was. -/
theorem wp_stopProcess (h : state.returncode = none ∨ Ending state) :
    surroundings.wp Always stopProcess (fun _ after => Ending after) state := by
  refine wp_get fun later _ hBetween => ?_
  obtain rfl := hBetween.eq rfl
  split
  · next hReturned =>
      refine h.resolve_left fun hNone => ?_
      rw [hNone] at hReturned
      cases hReturned
  · refine wp_update_bind fun first _ hBetween => ?_
    obtain rfl := hBetween.eq rfl
    refine ⟨trivial, (wp_bind _ _ _ _).mpr ((wp_attempt _ _ _).mpr ?_)⟩
    refine wp_suspend fun waited reply after _ _ hDeliver => ⟨trivial, ?_⟩
    cases reply with
    | ok code =>
        simp only [deliver, Option.ite_none_right_eq_some, Option.some.injEq] at hDeliver
        obtain ⟨-, rfl⟩ := hDeliver
        exact Ending.of_settles id
    | error error =>
        cases error with
        | timeoutError =>
            refine wp_update_bind fun killed _ hBetween => ⟨trivial, ?_⟩
            refine (wp_bind _ _ _ _).mpr (wp_ending (fun _ => rfl) (fun _ _ _ => deliver_processWait) ?_)
            intro reply after hEnding
            cases reply <;> exact hEnding
        | cancelled =>
            cases hDeliver
            exact Ending.of_settles id
        | _ => cases hDeliver

/-- Every error that the caller sees as a deadline or a cancellation. -/
def Stopped {α : Type} (outcome : Except Error α) (state : State) : Prop :=
  ∀ error, outcome = .error error → error = .timeoutError ∨ error = .cancelled → Ending state

theorem wp_cleanUp (error : Error) :
    surroundings.wp Always (cleanUp error) Stopped state := by
  refine wp_update_bind fun first _ _ => ⟨trivial, (wp_bind _ _ _ _).mpr ?_⟩
  have hDecided : (first.note (.interrupted first.returncode first.living)).returncode = none ∨
      Ending (first.note (.interrupted first.returncode first.living)) := by
    cases hReturned : first.returncode with
    | none => exact Or.inl hReturned
    | some code => exact Or.inr (Ending.of_settles fun h => h.resolve_left nofun)
  refine wp_mono (wp_stopProcess hDecided) fun outcome after hEnding => ?_
  cases outcome with
  | error raised => exact fun _ _ _ => hEnding
  | ok value =>
      refine (wp_bind _ _ _ _).mpr (wp_ending hEnding (fun _ _ _ => deliver_cleanup) fun reply last hLast => ?_)
      cases reply <;> exact fun _ _ _ => hLast

/-- A cancelled start takes the leader away; a failed one has started nobody. -/
theorem wp_createSubprocessExec :
    surroundings.wp Always createSubprocessExec Stopped state := by
  refine wp_get fun later _ _ => ?_
  split
  · rintro _ ⟨⟩ (h | h) <;> cases h
  · refine wp_update_bind fun first _ _ => ⟨trivial, (wp_bind _ _ _ _).mpr ((wp_attempt _ _ _).mpr ?_)⟩
    refine wp_suspend fun waited reply after _ _ hDeliver => ⟨trivial, ?_⟩
    cases reply with
    | ok value => exact nofun
    | error error =>
        cases error with
        | cancelled =>
            cases hDeliver
            refine wp_update_bind fun second _ hBetween => ⟨trivial, ?_⟩
            obtain rfl := hBetween.eq rfl
            have hEnding : Ending { waited.note (.startCancelled waited.descendants) with
                living := waited.descendants } := fun hOrderly => hOrderly _ List.mem_cons_self
            refine (wp_bind _ _ _ _).mpr (wp_ending hEnding (fun _ _ _ => deliver_processWait) ?_)
            intro reply last hLast
            cases reply <;> exact fun _ _ _ => hLast
        | _ => cases hDeliver

theorem wp_any {α : Type} {code : Py α} : surroundings.wp Always code (fun _ _ => True) state := by
  induction code generalizing state with
  | pure value => trivial
  | throw error => trivial
  | read next ih => exact fun _ _ _ => ih 0 _
  | act event update next ih => exact fun _ _ _ => ⟨trivial, ih⟩
  | await wait next ih => exact fun _ _ _ _ _ _ => ⟨trivial, ih _⟩

theorem wp_runProcess (outputLimit : Nat) :
    surroundings.wp Always (runProcess outputLimit) Stopped state := by
  refine (wp_bind _ _ _ _).mpr (wp_mono wp_createSubprocessExec fun outcome after hOutcome => ?_)
  cases outcome with
  | error error =>
      rintro raised ⟨⟩ hKind
      exact hOutcome error rfl hKind
  | ok value =>
      refine (wp_tryCatch _ _).mpr (wp_mono wp_any fun result ended _ => ?_)
      cases result with
      | ok value => exact nofun
      | error error =>
          cases error with
          | timeoutError => exact wp_cleanUp .timeoutError
          | cancelled => exact wp_cleanUp .cancelled
          | _ => rintro _ ⟨⟩ (h | h) <;> cases h

end Code

/-- In an orderly run, a deadline or a cancellation leaves nobody in the group. -/
theorem group_ended {leader outputLimit : Nat} {picks : List (Pick surroundings)}
    {final : Solo signature ProcessResult}
    (hRun : surroundings.run ⟨runProcess outputLimit, { leader }⟩ picks = some final)
    {error : Error} (hEnd : final.code = .throw error)
    (hError : error = .timeoutError ∨ error = .cancelled) (hOrderly : Orderly final.state.journal) :
    final.state.living = [] := by
  have hEnd' : final.code = Coro.ofExcept (.error error) := hEnd
  have hMoves : ∀ move before after, Always before → disturb move before = some after → Always after :=
    fun _ _ _ _ _ => trivial
  obtain ⟨ending, hDrifts, hStopped⟩ :=
    run_post hMoves trivial (wp_runProcess outputLimit) hRun hEnd'
  exact (hStopped error rfl hError).meanwhile (meanwhile hDrifts) hOrderly

/-- The leader ignores `SIGTERM` through its grace. -/
def stubbornly : (wait : Wait) → Except Error wait.Reply
  | .connect | .cleanup => .ok ()
  | .processWait => .error .timeoutError
  | .readers | .feeder | .grace => .error .timeoutError

/-- The leader has ended with this code, and the streams stay open. -/
def endedWith (code : Int) : (wait : Wait) → Except Error wait.Reply
  | .connect | .cleanup => .ok ()
  | .processWait | .grace => .ok code
  | .readers | .feeder => .error .timeoutError

def toConnected : List (Pick surroundings) := [.go, .go, .answer stubbornly]

/-- The deadline comes, and `SIGKILL` two seconds later. -/
def toKilled : List (Pick surroundings) :=
  [.disturb (.fork 0 1), .answer stubbornly, .go, .go, .go, .answer stubbornly, .go,
    .disturb (.reap 9), .answer (endedWith 9), .answer stubbornly]

theorem group_ended_killed : ∃ final,
    surroundings.run ⟨runProcess 0, {}⟩ (toConnected ++ toKilled) = some final ∧
      final.code = .throw .timeoutError ∧ final.state.living = [] := by
  obtain ⟨final, hRun, hEnd, hJournal⟩ : ∃ final,
      surroundings.run ⟨runProcess 0, {}⟩ (toConnected ++ toKilled) = some final ∧
        final.code = .throw .timeoutError ∧ final.state.journal =
          [.signalled .sigkill, .signalled .sigterm, .interrupted none [1, 0], .started] := ⟨_, rfl, rfl, rfl⟩
  refine ⟨final, hRun, hEnd, group_ended hRun hEnd (Or.inl rfl) ?_⟩
  rw [hJournal]
  simp [Orderly, Happening.Settles]

/-- The leader ends and is reaped while the pipes are still being connected, and
its child keeps a stream open until the deadline. -/
def toAbandoned : List (Pick surroundings) :=
  [.go, .go, .disturb (.fork 0 1), .disturb (.exit 0), .disturb (.reap 0), .answer (endedWith 0),
    .answer (endedWith 0), .answer (endedWith 0), .go, .go, .answer (endedWith 0)]

/-- The cleanup finds a return code and leaves the child alone. -/
theorem group_abandoned : ∃ final,
    surroundings.run ⟨runProcess 0, {}⟩ toAbandoned = some final ∧
      final.code = .throw .timeoutError ∧ final.state.living = [1] := ⟨_, rfl, rfl, rfl⟩

end Pazuzu.Process
