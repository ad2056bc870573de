import Pazuzu.Asyncio.Leaving
import Pazuzu.Supervision.Acting
import Pazuzu.Supervision.Pause
import Pazuzu.Supervision.Replay

/-! Whether the deadline of a command covers its sessions. A session is given
what is left since its own operation began, and a replay is another operation
than the session it repeats. -/
namespace Pazuzu

namespace Event

def isAnswer : Event → Bool
  | .checkAnswered _ _ => true
  | _ => false

/-- The marks between which a command keeps time. -/
def isTiming : Event → Bool
  | .called _ | .checkAnswered _ _ | .sessionCalled _ _ => true
  | _ => false

end Event

namespace Supervision

open Asyncio Supervisor

/-- The last check the task has had an answer from. -/
def lastCheck (task : Nat) (history : History) : Option Record :=
  history.find? fun entry => entry.task = task ∧ entry.event.isAnswer

/-- A session of a command ends, at the latest, its whole timeout after the
last check, or after the call if there was none. -/
def Metered (entry : Record) (rest : History) : Prop :=
  match entry.event with
  | .sessionCalled _ remaining => ∃ call, firstCall entry.task rest = some call ∧
      ∀ command stdin timeout retrySafe, call.event = .called (.execute command stdin timeout retrySafe) →
        1 / 10 ≤ remaining ∧ entry.state.os.clock + remaining =
          ((lastCheck entry.task rest).getD call).state.os.clock + timeout
  | _ => True

variable {config : Config} {op : Op} {task : Nat} {α β : Type} {w : GatewayWorld}

section Meter

variable {entry : Record} {history : History}

theorem lastCheck_other (h : entry.task ≠ task ∨ entry.event.isAnswer = false) :
    lastCheck task (entry :: history) = lastCheck task history := by
  refine List.find?_cons_of_neg ?_
  rw [decide_eq_true_eq]
  rintro ⟨hTask, hAnswer⟩
  rcases h with hOther | hNone
  · exact hOther hTask
  · rw [hNone] at hAnswer
    cases hAnswer

theorem lastCheck_own (entry : Record) (h : entry.task = task) (hAnswer : entry.event.isAnswer = true) :
    lastCheck task (entry :: history) = some entry :=
  List.find?_cons_of_pos (decide_eq_true ⟨h, hAnswer⟩)

end Meter

/-- The sessions so far are metered. A task relies on its own marks of time. -/
def metering (config : Config) : Extension (discipline config) where
  inv := fun w => Always Metered w.trace
  rely := fun task before after => firstCall task after.trace = firstCall task before.trace ∧
    lastCheck task after.trace = lastCheck task before.trace
  waits := fun _ _ _ _ => True
  refl := fun _ _ => ⟨rfl, rfl⟩
  trans := fun _ _ _ _ h h' => ⟨h'.1.trans h.1, h'.2.trans h.2⟩
  stable := fun _ _ _ _ _ _ _ _ => trivial

/-- The task serves this call, and keeps time since this entry. -/
structure Timed (task : Nat) (call since : Record) (w : GatewayWorld) : Prop where
  first : firstCall task w.trace = some call
  last : (lastCheck task w.trace).getD call = since

section Rules

variable {event : Option Event} {state : State} {call since : Record}
  {post : Except Error β → GatewayWorld → Prop}

theorem metering_act (h : Always Metered w.trace) (hEvent : ∀ e ∈ event, Metered ⟨task, e, state⟩ w.trace) :
    (metering config).Act task w (w.act task event state) := by
  refine ⟨?_, fun other hOther => ?_⟩
  · cases event with
    | none => exact h
    | some e => exact ⟨hEvent e rfl, h⟩
  · cases event with
    | none => exact ⟨rfl, rfl⟩
    | some e => exact ⟨firstCall_other (Ne.symm hOther), lastCheck_other (Or.inl (Ne.symm hOther))⟩

theorem Timed.act (h : Timed task call since w) (hEvent : ∀ e ∈ event, e.isAnswer = false) :
    Timed task call since (w.act task event state) := by
  cases event with
  | none => exact ⟨h.first, h.last⟩
  | some e =>
      refine ⟨firstCall_kept h.first, ?_⟩
      rw [World.act_some_trace, lastCheck_other (Or.inr (hEvent e rfl)), h.last]

theorem Timed.rely {before after : GatewayWorld} (h : Timed task call since before)
    (hRely : (metering config).rely task before after) : Timed task call since after :=
  ⟨hRely.1.trans h.first, by rw [hRely.2, h.last]⟩

theorem note_untimed (op : Op) (wait : Wait) (reply : Except Error wait.Reply) :
    ∀ e ∈ Host.note op wait reply, e.isTiming = false := by
  intro e he
  cases reply with
  | ok value => cases he
  | error error =>
      simp only [Host.note] at he
      split at he <;> cases he <;> rfl

/-- Code that makes no mark of time. -/
abbrev Idle {α : Type} (code : Py α) : Prop := code.Leaves fun event : Event => event.isTiming = false

theorem idle_acts : Acts Idle where
  toCompositional := Coro.Leaves.compositional _
  update := fun f _ => Coro.Leaves.update f
  record := fun event f hStory _ => Coro.Leaves.record f (by cases event <;> first | rfl | cases hStory)
  wait := fun w => Coro.Leaves.suspend (G := gatewaySignature) w

theorem idle_mark {event : Event} (h : event.isTiming = false) : Idle (Coro.mark event) := Coro.Leaves.record id h

abbrev Mwp (config : Config) (op : Op) (task : Nat) (code : Py α)
    (post : Except Error α → GatewayWorld → Prop) (w : GatewayWorld) : Prop :=
  (metering config).wp op task code post w

theorem mwp_idle {code : Py α} (h : Idle code) (hTimed : Timed task call since w) :
    Mwp config op task code (fun _ v => Timed task call since v) w := by
  refine Extension.wp_leaves ?_ (fun _ _ hKnown => hKnown.rely) (fun _ _ => trivial) (note_untimed op) h hTimed
  intro world event state hInv hKnown hEvent
  refine ⟨metering_act hInv fun e he => ?_, hKnown.act fun e he => ?_⟩
  · have hPlain := hEvent e he
    cases e with
    | sessionCalled => cases hPlain
    | _ => trivial
  · have hPlain := hEvent e he
    cases e <;> first | rfl | cases hPlain

theorem mwp_idle_seq {code : Py α} {next : α → Py β} (h : Idle code) (hTimed : Timed task call since w)
    (hNext : ∀ value v, Timed task call since v → Mwp config op task (next value) post v)
    (hError : ∀ error v, Timed task call since v → post (.error error) v) :
    Mwp config op task (code.bind next) post w := by
  refine Extension.wp_bind (Extension.wp_mono (mwp_idle h hTimed) ?_)
  rintro (error | value) v _ hV
  · exact hError error v hV
  · exact hNext value v hV

/-- A mark of time. -/
theorem mwp_mark_seq {event : Event} {next : Unit → Py β} (h : Metered ⟨task, event, w.state⟩ w.trace)
    (hNext : Mwp config op task (next ()) post (w.act task (some event) w.state)) :
    Mwp config op task ((Coro.mark event).bind next) post w :=
  Extension.wp_act fun hInv _ => ⟨metering_act hInv fun e he => by cases he; exact h, hNext⟩

/-- A call other than a command keeps no time, whatever it does. -/
theorem mwp_other {code : Py α} (hCall : firstCall task w.trace = some call)
    (hOther : ∀ command stdin timeout retrySafe, call.event ≠ .called (.execute command stdin timeout retrySafe)) :
    Mwp config op task code (fun _ _ => True) w := by
  have hAll : code.Leaves fun _ => True := Coro.Leaves.of_all (fun _ => trivial) code
  have hKept : Mwp config op task code (fun _ v => firstCall task v.trace = some call) w := by
    refine Extension.wp_leaves ?_ (fun _ _ hKnown (hRely : (metering config).rely task _ _) => hRely.1.trans hKnown) (fun _ _ => trivial)
      (fun _ _ _ _ => trivial) hAll hCall
    intro world event state hInv hKnown _
    refine ⟨metering_act hInv fun e _ => ?_, ?_⟩
    · cases e with
      | sessionCalled => exact ⟨call, hKnown, fun command stdin timeout retrySafe h =>
          absurd h (hOther command stdin timeout retrySafe)⟩
      | _ => trivial
    · cases event with
      | none => exact hKnown
      | some e => exact firstCall_kept hKnown
  exact Extension.wp_mono hKept fun _ _ _ _ => trivial

end Rules

section Commands

variable {call since : Record} {command : String} {stdin : Python.Bytes} {timeout : ℚ} {retrySafe : Bool}

theorem idle_session (generation : Nat) (remaining : ℚ) :
    Idle (Transport.session config command stdin remaining (Coro.mark (.sessionStarted generation))) :=
  idle_acts.talks.session _ _ _ (idle_mark rfl)

/-- A session of the command the task was called for, which keeps time since now. -/
theorem mwp_runSession (hTimed : Timed task call since w)
    (hNow : since.state.os.clock = w.state.os.clock)
    (hCall : call.event = .called (.execute command stdin timeout retrySafe)) :
    Mwp config op task (runSession config command stdin timeout) (fun _ v => Timed task call since v) w := by
  refine Extension.wp_get_bind (mwp_idle_seq (idle_acts.admission timeout) hTimed (fun lease v hV => ?_)
    fun _ _ h => h)
  refine mwp_idle_seq (Coro.Leaves.update _) hV (fun _ u hU => ?_) fun _ _ h => h
  refine Extension.wp_tryFinally (Extension.wp_mono ?_ fun outcome x _ (hX : Timed task call since x) =>
    Extension.wp_mono (mwp_idle (idle_acts.leave lease) hX) fun r _ _ h => by cases r <;> exact h)
  refine mwp_idle_seq idle_acts.ensureConnected hU (fun generation x hX => ?_) fun _ _ h => h
  refine Extension.wp_get_bind (Extension.wp_ite (fun _ => Extension.wp_raise hX) fun hLeft => ?_)
  refine mwp_mark_seq ⟨call, hX.first, ?_⟩ ?_
  · rintro command' stdin' timeout' retrySafe' hSame
    obtain ⟨-, -, rfl, -⟩ := Op.execute.inj (Event.called.inj (hSame.symm.trans hCall))
    refine ⟨not_lt.mp hLeft, ?_⟩
    rw [hX.last, hNow]
    ring
  · refine mwp_idle_seq (idle_session generation _) (hX.act fun e he => by cases he; rfl)
      (fun result y hY => ?_) fun _ _ h => h
    exact mwp_idle_seq (idle_mark rfl) hY (fun _ _ h => Extension.wp_pure h) fun _ _ h => h

/-- A task keeps time since its last check, whatever else it has done. -/
def Timing (task : Nat) (call : Record) (w : GatewayWorld) : Prop :=
  ∃ since, Timed task call since w

theorem mwp_check (generation : Nat) (hTimed : Timed task call since w) :
    Mwp config op task (check config generation) (fun outcome v => Timing task call v ∧
      ∀ verdict, outcome = .ok verdict → ∃ since, Timed task call since v ∧
        since.state.os.clock = v.state.os.clock) w := by
  refine mwp_idle_seq (idle_mark rfl) hTimed (fun _ v hV => ?_) fun _ _ h => ⟨⟨_, h⟩, fun _ h => by cases h⟩
  refine Extension.wp_bind (Extension.wp_attempt (Extension.wp_mono
    (mwp_idle (idle_acts.checkMaster generation) hV) ?_))
  rintro (error | verdict) u _ hU
  · exact mwp_idle_seq (idle_mark rfl) hU (fun _ x hX => Extension.wp_raise ⟨⟨_, hX⟩, fun _ h => by cases h⟩)
      fun _ x hX => ⟨⟨_, hX⟩, fun _ h => by cases h⟩
  · refine mwp_mark_seq trivial (Extension.wp_pure ?_)
    have hLast : lastCheck task (u.act task (some (.checkAnswered generation verdict)) u.state).trace =
        some ⟨task, .checkAnswered generation verdict, u.state⟩ := lastCheck_own _ rfl rfl
    have hNow : Timed task call ⟨task, .checkAnswered generation verdict, u.state⟩
        (u.act task (some (.checkAnswered generation verdict)) u.state) :=
      ⟨firstCall_kept hU.first, by rw [hLast, Option.getD_some]⟩
    exact ⟨⟨_, hNow⟩, fun _ _ => ⟨_, hNow, rfl⟩⟩

theorem mwp_safeRepairAfterCommand (generation : Nat) (hTimed : Timed task call since w) :
    Mwp config op task (safeRepairAfterCommand config generation) (fun outcome v => Timing task call v ∧
      ∀ broken, outcome = .ok broken → ∃ since, Timed task call since v ∧
        since.state.os.clock = v.state.os.clock) w := by
  refine Extension.wp_tryCatch (Extension.wp_bind (Extension.wp_mono (mwp_check generation hTimed) ?_))
  rintro (error | verdict) v _ ⟨hTiming, hAnswered⟩
  · cases error <;> exact Extension.wp_raise ⟨hTiming, fun _ h => by cases h⟩
  · exact Extension.wp_pure ⟨hTiming, fun _ _ => hAnswered verdict rfl⟩

theorem mwp_replayOnce (hTimed : Timed task call since w) (hNow : since.state.os.clock = w.state.os.clock)
    (hCall : call.event = .called (.execute command stdin timeout retrySafe)) :
    Mwp config op task (replayOnce config command stdin timeout) (fun _ v => Timing task call v) w := by
  refine Extension.wp_bind (Extension.wp_mono (mwp_runSession hTimed hNow hCall) ?_)
  rintro (error | ⟨replay, generation⟩) v _ hV
  · exact ⟨_, hV⟩
  · refine Extension.wp_ite (fun _ => ?_) fun _ => Extension.wp_pure ⟨_, hV⟩
    refine Extension.wp_bind (Extension.wp_mono (mwp_check generation hV) ?_)
    rintro (error | verdict) u _ ⟨hTiming, -⟩
    · exact hTiming
    · exact Extension.wp_ite (fun _ => Extension.wp_pure hTiming) fun _ => Extension.wp_raise hTiming

theorem mwp_settle (result : ProcessResult) (generation : Nat) (hTimed : Timed task call since w)
    (hCall : call.event = .called (.execute command stdin timeout retrySafe)) :
    Mwp config op task (settle config command stdin timeout retrySafe result generation)
      (fun _ v => Timing task call v) w := by
  refine Extension.wp_ite (fun _ => Extension.wp_pure ⟨_, hTimed⟩) fun _ => ?_
  refine Extension.wp_bind (Extension.wp_mono (mwp_safeRepairAfterCommand generation hTimed) ?_)
  rintro (error | broken) v _ ⟨hTiming, hAnswered⟩
  · exact hTiming
  · obtain ⟨since', hSince, hNow⟩ := hAnswered broken rfl
    refine Extension.wp_ite (fun _ => ?_) fun _ => Extension.wp_pure hTiming
    exact Extension.wp_ite (fun _ => mwp_replayOnce hSince hNow hCall) fun _ => Extension.wp_raise hTiming

theorem mwp_execute (hTimed : Timed task call call w) (hNow : call.state.os.clock = w.state.os.clock)
    (hCall : call.event = .called (.execute command stdin timeout retrySafe)) :
    Mwp config op task (Supervisor.execute config command stdin timeout retrySafe)
      (fun _ v => Timing task call v) w := by
  refine Extension.wp_ite (fun _ => Extension.wp_raise ⟨_, hTimed⟩) fun _ =>
    Extension.wp_ite (fun _ => Extension.wp_raise ⟨_, hTimed⟩) fun _ => ?_
  refine Extension.wp_bind (Extension.wp_mono (mwp_runSession hTimed hNow hCall) ?_)
  rintro (error | ⟨result, generation⟩) v _ hV
  · exact ⟨_, hV⟩
  · exact mwp_settle result generation hV hCall

theorem mwp_serve (hFresh : ∀ entry ∈ w.trace, entry.task = task → entry.event.isStory = false) :
    Mwp config op task (serve config op) (fun _ _ => True) w := by
  have hNone : lastCheck task w.trace = none := by
    refine List.find?_eq_none.mpr fun entry hEntry => ?_
    rw [decide_eq_true_eq]
    rintro ⟨hTask, hAnswer⟩
    have hNot := hFresh entry hEntry hTask
    obtain ⟨owner, event, state⟩ := entry
    cases event with
    | checkAnswered generation verdict => cases hNot
    | _ => cases hAnswer
  have hTimed : Timed task ⟨task, .called op, w.state⟩ ⟨task, .called op, w.state⟩
      (w.act task (some (.called op)) w.state) := by
    refine ⟨?_, ?_⟩
    · rw [World.act_some_trace, firstCall_cons, firstCall_fresh hFresh, if_pos ⟨rfl, rfl⟩, Option.none_or]
    · rw [World.act_some_trace, lastCheck_other (Or.inr rfl), hNone]
      rfl
  refine mwp_mark_seq trivial ?_
  cases op with
  | execute command stdin timeout retrySafe =>
      refine Extension.wp_bind (Extension.wp_attempt (Extension.wp_bind (Extension.wp_mono
        (mwp_execute hTimed rfl rfl) ?_)))
      rintro (error | result) v _ ⟨since, hV⟩
      · exact mwp_idle_seq (idle_mark rfl) hV (fun _ _ _ => Extension.wp_raise trivial) fun _ _ _ => trivial
      · exact Extension.wp_pure (mwp_idle_seq (idle_mark rfl) hV (fun _ _ _ => Extension.wp_pure trivial)
          fun _ _ _ => trivial)
  | _ => exact mwp_other hTimed.first fun _ _ _ _ h => by cases h

end Commands

section Runs

theorem metering_sound (config : Config) : (metering config).Sound (fun _ => True) fun _ => True where
  disturbs := fun _ _ _ _ _ hMetered _ => ⟨hMetered, fun _ => ⟨rfl, rfl⟩⟩
  starts := by
    intro op world state _ hInv hMetered _ _
    have hFresh : ∀ entry ∈ world.trace, entry.task = world.started → entry.event.isStory = false := by
      intro entry hEntry hOwn
      by_contra hTells
      have hOld := hInv.tellers entry hEntry (by simpa using hTells)
      omega
    have hStart : (metering config).Act world.started world { world with state, started := world.started + 1 } :=
      ⟨hMetered, fun _ _ => ⟨rfl, rfl⟩⟩
    have hServe := @mwp_serve config op world.started { world with state, started := world.started + 1 } hFresh
    exact Extension.along_mono (hServe _ hStart) fun _ _ _ hEnd => hEnd.1

variable {os : Os} {choices : List (Choice (gateway config))} {final : Loop (gateway config)}

theorem metered_of_run (hRun : gatewayRun config os choices = some final) : Always Metered final.world.trace :=
  ((metering_sound config).run (sound config) (Inv.boot os) trivial hRun (fun _ _ => trivial)
    fun _ _ => trivial).inv

/-- The session is over before the deadline of its call, which leaves it a
tenth of a second at least. -/
def MeetsDeadline (call : Record) (timeout : ℚ) (session : Record) (remaining : ℚ) : Prop :=
  session.state.os.clock + remaining ≤ call.state.os.clock + timeout ∧
    1 / 10 ≤ call.state.os.clock + timeout - session.state.os.clock

instance (call : Record) (timeout : ℚ) (session : Record) (remaining : ℚ) :
    Decidable (MeetsDeadline call timeout session remaining) := inferInstanceAs (Decidable (_ ∧ _))

/-- In every run, a session of a command meets its deadline if and only if no
check that was answered after the call precedes it. -/
theorem deadline_of_run (hRun : gatewayRun config os choices = some final) {call session : Record}
    {rest : History} {command : String} {stdin : Python.Bytes} {timeout : ℚ} {retrySafe : Bool}
    {generation : Nat} {remaining : ℚ} (hCall : call ∈ final.world.trace)
    (hCalled : call.event = .called (.execute command stdin timeout retrySafe))
    (hSession : (session :: rest) <:+ final.world.trace) (hTask : session.task = call.task)
    (hOpened : session.event = .sessionCalled generation remaining) :
    MeetsDeadline call timeout session remaining ↔
      ∀ check ∈ lastCheck call.task rest, check.state.os.clock ≤ call.state.os.clock := by
  have hMetered := (metered_of_run hRun).of_suffix hSession
  unfold Metered at hMetered
  rw [hOpened] at hMetered
  obtain ⟨first, hFirst, hMeter⟩ := hMetered
  obtain ⟨hIn, hOwn, op, hOp⟩ := mem_of_firstCall hFirst
  have hSame : first = call := called_once (ledger_of_run hRun)
    (hSession.subset (List.mem_cons_of_mem _ hIn)) hCall (hOwn.trans hTask) hOp hCalled
  obtain ⟨hLeft, hClock⟩ := hMeter command stdin timeout retrySafe (hSame ▸ hCalled)
  rw [hSame, hTask] at hClock
  unfold MeetsDeadline
  cases hLast : lastCheck call.task rest with
  | none =>
      rw [hLast, Option.getD_none] at hClock
      refine iff_of_true ⟨hClock.le, ?_⟩ fun check hCheck => by cases hCheck
      rw [← hClock, add_sub_cancel_left]
      exact hLeft
  | some check =>
      rw [hLast, Option.getD_some] at hClock
      simp only [Option.mem_some_iff, forall_eq']
      constructor
      · rintro ⟨hEnds, -⟩
        linarith
      · intro hPrompt
        constructor <;> linarith

/-- The newest entry opens a session of the sample command, and no check has
been answered to it. -/
def opensFirst : History → Bool
  | [] => false
  | session :: rest =>
      match session.event with
      | .sessionCalled _ _ => (lastCheck session.task rest).isNone &&
          decide (Op.execute "x" [] 100 true ∈ calls (story session.task rest))
      | _ => false

theorem deadline_first : ∃ final, gatewayRun sample survivor ([execute true] ++ resumes 0 4) = some final ∧
    ∃ call ∈ final.world.trace, ∃ session ∈ final.world.trace, ∃ generation remaining,
      session.event = .sessionCalled generation remaining ∧ MeetsDeadline call 100 session remaining := by
  have hRun : (gatewayRun sample survivor ([execute true] ++ resumes 0 4)).any
      (fun final => opensFirst final.world.trace) = true := by decide +kernel
  obtain ⟨final, hFinal, hOpens⟩ := (Option.any_eq_true _ _).mp hRun
  refine ⟨final, hFinal, ?_⟩
  rcases hTrace : final.world.trace with _ | ⟨session, rest⟩
  · rw [hTrace] at hOpens
    cases hOpens
  · rw [hTrace] at hOpens
    simp only [opensFirst] at hOpens
    split at hOpens
    · next generation remaining hOpened =>
        obtain ⟨hUnchecked, hCalls⟩ := Bool.and_eq_true_iff.mp hOpens
        obtain ⟨call, hCall, hTask, hCalled⟩ := mem_of_mem_story (mem_calls.mp (of_decide_eq_true hCalls))
        refine ⟨call, List.mem_cons_of_mem _ hCall, session, List.mem_cons_self, generation, remaining, hOpened, ?_⟩
        have hSession : (session :: rest) <:+ final.world.trace := ⟨[], hTrace.symm⟩
        refine (deadline_of_run hFinal (hTrace ▸ List.mem_cons_of_mem _ hCall) hCalled
          hSession hTask.symm hOpened).mpr fun check hCheck => ?_
        rw [hTask, Option.isNone_iff_eq_none.mp hUnchecked] at hCheck
        cases hCheck
    · cases hOpens

/-- The session of a call that goes beyond its deadline. -/
def overruns (call session : Record) : Bool :=
  match call.event, session.event with
  | .called (.execute _ _ timeout _), .sessionCalled _ remaining =>
      decide (session.task = call.task ∧ ¬MeetsDeadline call timeout session remaining)
  | _, _ => false

/-- A second passes before the command is repeated, and its replay is given the
whole timeout all the same. -/
theorem not_meetsDeadline : ¬∀ (config : Config) (os : Os) (choices : List (Choice (gateway config)))
    (final : Loop (gateway config)), gatewayRun config os choices = some final →
    ∀ call ∈ final.world.trace, ∀ session ∈ final.world.trace, session.task = call.task →
      ∀ command stdin timeout retrySafe generation remaining,
        call.event = .called (.execute command stdin timeout retrySafe) →
        session.event = .sessionCalled generation remaining →
        MeetsDeadline call timeout session remaining := by
  intro hClaim
  have hRun : (gatewayRun sample survivor replay).any (fun final =>
      final.world.trace.any fun call => final.world.trace.any (overruns call)) = true := by decide +kernel
  obtain ⟨final, hFinal, hAny⟩ := (Option.any_eq_true _ _).mp hRun
  obtain ⟨call, hCall, hSessions⟩ := List.any_eq_true.mp hAny
  obtain ⟨session, hSession, hOverruns⟩ := List.any_eq_true.mp hSessions
  have hMeets := hClaim sample survivor _ final hFinal call hCall session hSession
  unfold overruns at hOverruns
  split at hOverruns
  · next command stdin timeout retrySafe generation remaining hCalled hOpened =>
      obtain ⟨hTask, hNot⟩ := of_decide_eq_true hOverruns
      exact hNot (hMeets hTask _ _ _ _ _ _ hCalled hOpened)
  · cases hOverruns

end Runs
end Supervision
end Pazuzu
