import Pazuzu.Supervision.Upkeep

/-! Every call the gateway serves keeps the discipline, so every run keeps the
invariant, however its tasks are interleaved. -/
namespace Pazuzu.Supervision

open Asyncio Supervisor

variable {config : Config} {op : Op} {task : Nat} {start w : GatewayWorld}

section Jobs

theorem core_recordProbe (state : State) (started : ℚ) (outcome : ProbeOutcome) :
    core (state.recordProbe started outcome) = core state := by
  unfold State.recordProbe
  dsimp only
  split <;> rfl

theorem quiet_runProbe {marked : Prop} (epoch : Nat) :
    Quiet (frame config) op (fun _ => False) marked (runProbe config epoch) :=
  Coro.Calm.bind Coro.Calm.get fun _ => Coro.Calm.bind quiet_probe fun _ =>
    Coro.Calm.bind Coro.Calm.get fun _ =>
      Coro.Calm.bind (Coro.Calm.when (⟨fun _ => core_recordProbe _ _ _, fun _ he => Option.mem_some_iff.mp he ▸ rfl, trivial⟩)) fun _ =>
        Coro.Calm.pure _

theorem quiet_begin {marked : Prop} {expected : Error → Prop} :
    Quiet (frame config) op expected marked (wait .begin) :=
  quiet_wait (fun _ => rfl) fun _ _ h => by cases h

theorem Idles.here (h : Idles task start w) : Idles task w w :=
  ⟨h.inv, Grows.refl w, h.born, h.plain⟩

theorem Idles.since {w' : GatewayWorld} (h : Idles task start w) (h' : Idles task w w') :
    Idles task start w' :=
  ⟨h'.inv, h.grows.trans h'.grows, h'.born, h'.plain⟩

/-- A task keeps its kind. -/
theorem kind_of_grows {id : Nat} {kind kind' : JobKind} {w' : GatewayWorld} {outcome}
    (hKind : (w.state.sup.jobs[id]?).map Job.kind = some kind) (hGrows : Grows w w')
    (hJob : (core w'.state).jobs[id]? = some (kind', outcome)) : kind' = kind := by
  obtain ⟨job, hSome, rfl⟩ := Option.map_eq_some_iff.mp hKind
  obtain ⟨settled, hLater, -⟩ := hGrows.progress.jobs id job.kind job.outcome (by
    rw [core_jobs, hSome]
    rfl)
  rw [hJob] at hLater
  cases hLater
  rfl

/-- Whatever disturbs a created task is a failing call, or the gateway closes. -/
theorem cause_of_marked {id : Nat} {history : History} (hInv : Inv w)
    (hMarked : (frame config).Marked (.job id) task history w) :
    (core w.state).closed = true ∨ ∃ entry ∈ w.trace, entry.event.fails = true := by
  obtain ⟨entry, rest, hSince, -, hFails | hCancelled⟩ := since_of_marked hMarked
  · exact Or.inr ⟨entry, hSince.mem, hFails⟩
  · have hPermitted := hInv.permitted entry rest hSince.1
    unfold Permitted at hPermitted
    rw [hCancelled] at hPermitted
    exact Or.inl ((hInv.past entry hSince.mem).closed hPermitted)

theorem stays_runJob (id : Nat) (hIdles : Idles task start w) :
    Stays config (.job id) task start (runJob config id) w := by
  refine wp_get_seq ?_
  split
  · exact hIdles
  · next epoch hKind =>
      refine wp_seq ((Discipline.wp_attempt _ _ _).mpr (wp_quiet
        (Coro.Calm.bind quiet_begin fun _ => quiet_runProbe epoch) hIdles.inv
        (fun outcome v hInvV hRely => ?_) fun error v hInvV hRely hRaised => ?_))
      · obtain ⟨hAct, hSelf⟩ := act_settleJob config task (some (.probeFinished epoch outcome)) hInvV id
          (.ok (some outcome)) (by rintro e ⟨⟩; exact ⟨_, _, rfl⟩)
          (fun other found hJob hSame => by
            cases hSame
            cases kind_of_grows hKind hRely.grows hJob
            rfl) fun _ _ _ h => by cases h
        exact ⟨hAct, (hIdles.rely hInvV hRely).rely hAct.1 (hSelf task)⟩
      · obtain ⟨hOwn, hMarked⟩ := hRaised.resolve_left fun h => h
        obtain ⟨hAct, hSelf⟩ := act_settleJob config task none hInvV id (.error error) (by simp)
          (fun _ _ _ h => by cases h) fun _ _ _ hSame => by
            cases hSame
            exact ⟨hOwn, cause_of_marked hInvV hMarked⟩
        exact ⟨hAct, (hIdles.rely hInvV hRely).rely hAct.1 (hSelf task)⟩
  · next hKind =>
      have hSettle : ∀ (result : Except Error (Option ProbeOutcome)) (v : GatewayWorld),
          (∀ outcome, result ≠ .ok (some outcome)) → Idles task w v →
          Stays config (.job id) task start (Coro.update fun state => state.settleJob id result) v := by
        intro result v hNone hV
        refine stays_update (hIdles.since hV) (act_settleJob config task none hV.inv id result (by simp)
          (fun _ outcome _ h => absurd h (hNone outcome)) fun _ _ hJob _ => ?_)
        cases kind_of_grows hKind hV.grows hJob
      refine wp_seq ((Discipline.wp_attempt _ _ _).mpr (Discipline.wp_mono
        (stays_then (stays_quiet quiet_begin hIdles.here) fun _ v hV => stays_maintain _ hV) ?_))
      rintro (error | value) v hV
      · exact hSettle (.error error) v (by simp) hV
      · exact hSettle (.ok none) v (by simp) hV

end Jobs

section Serve

/-- How a call ends: its end may be put on record, whatever it is. -/
def Ends (task : Nat) : Except Error Value → GatewayWorld → Prop := fun outcome w =>
  Inv w ∧ task < w.started ∧
    match outcome with
    | .ok value => Lawful (.returned value :: story task w.trace) ∧
        Permitted ⟨task, .returned value, w.state⟩ w.trace
    | .error error => Lawful (.raised error :: story task w.trace)

theorem Ending.ends {event : Event} (h : Ending op task event w) :
    Inv w ∧ task < w.started ∧ Lawful (event :: story task w.trace) := by
  obtain ⟨stage, next, hStands, hStep⟩ := h
  exact ⟨hStands.inv, hStands.born, (Path.step hStands.path hStep).lawful⟩

theorem Finished.ends {outcome : Except Error CommandResult} (h : Finished op task outcome w) :
    Ends task (outcome.map Value.command) w := by
  cases outcome with
  | ok result =>
      obtain ⟨hInv, hBorn, hLawful⟩ := h.1.ends
      exact ⟨hInv, hBorn, hLawful, h.2⟩
  | error error => exact Ending.ends h

theorem Idles.ends (h : Idles task start w) (outcome : Except Error Value) : Ends task outcome w := by
  refine ⟨h.inv, h.born, ?_⟩
  cases outcome with
  | error error => exact h.plain.lawful (by simp)
  | ok value =>
      refine ⟨h.plain.lawful (by simp), ?_⟩
      cases value with
      | command result =>
          intro _ command stdin timeout retrySafe hCalled
          cases h.plain _ hCalled
      | _ => trivial

theorem wp_stays {α : Type} {code : Py α} (f : α → Value) (h : Stays config op task start code w) :
    Wp config op task (code.bind fun value => .pure (f value)) (Ends task) w :=
  wp_seq (Discipline.wp_mono h fun outcome w' hIdles => by
    cases outcome with
    | ok value => exact hIdles.ends _
    | error error => exact hIdles.ends _)

theorem wp_finished {code : Py CommandResult} (h : Wp config op task code (Finished op task) w) :
    Wp config op task (code.bind fun value => .pure (.command value)) (Ends task) w :=
  wp_seq (Discipline.wp_mono h fun outcome w' hFinished => by
    cases outcome with
    | ok value => exact hFinished.ends
    | error error => exact hFinished.ends)

/-- A call that has just been put on record. -/
theorem wp_dispatch (hInv : Inv w) (hBorn : task < w.started)
    (hStory : story task w.trace = [.called op]) (hCalled : ∃ entry ∈ w.trace, entry.event = .called op) :
    Wp config op task (dispatch config op) (Ends task) w := by
  have hIdles : op.isCommand = false → Idles task w w := fun hPlain =>
    ⟨hInv, Grows.refl w, hBorn, fun other hOther => by
      rw [hStory, List.mem_singleton] at hOther
      cases hOther
      exact hPlain⟩
  have hStands : Stands op task .waiting w := ⟨hInv, hBorn, by rw [hStory]; exact Path.called⟩
  obtain ⟨entry, hEntry, hEvent⟩ := hCalled
  cases op with
  | execute command stdin timeout retrySafe => exact wp_finished (wp_execute command stdin timeout hStands)
  | transfer tool arguments executable timeout =>
      exact wp_finished (wp_transfer tool arguments executable timeout hStands rfl)
  | connectionAttachment => exact wp_stays .attachment (stays_connectionAttachment (hIdles rfl))
  | health probe => exact wp_stays .health (stays_health probe (hIdles rfl))
  | reconnect force => exact wp_stays .health (stays_reconnect force (hIdles rfl))
  | start => exact wp_stays (fun _ => .none) (stays_start (hIdles rfl))
  | close => exact wp_stays (fun _ => .none) (stays_close (hIdles rfl) ⟨entry, hEntry, Or.inl hEvent⟩)
  | detach => exact wp_stays (fun _ => .none) (stays_detach (hIdles rfl) ⟨entry, hEntry, Or.inr hEvent⟩)
  | job id => exact wp_stays (fun _ => .none) (stays_runJob id (hIdles rfl))

/-- A call serves its story from the first mark to the last. -/
theorem wp_serve (hInv : Inv w) (hBorn : task < w.started) (hStory : story task w.trace = []) :
    Wp config op task (serve config op) (fun _ _ => True) w := by
  have hBegun : Path op [.called op] .waiting := Path.called
  have hAct := act_mark config task (.called op) hInv rfl
    (fun _ => ⟨hBorn, by rw [hStory]; exact hBegun.lawful⟩) trivial
  have hNow : story task (w.act task (some (.called op)) w.state).trace = [.called op] := by
    rw [World.act_some_trace, story_cons_same _ _ _ _ rfl, hStory]
  refine wp_mark_seq hAct (wp_seq ((Discipline.wp_attempt _ _ _).mpr (Discipline.wp_mono
    (wp_dispatch hAct.1 (by simpa using hBorn) hNow ⟨_, List.mem_cons_self, rfl⟩) ?_)))
  rintro (error | value) v ⟨hInvV, hBornV, hEnd⟩
  · exact ⟨act_mark config task (.raised error) hInvV rfl (fun _ => ⟨hBornV, hEnd⟩) trivial, trivial⟩
  · exact ⟨act_mark config task (.returned value) hInvV rfl (fun _ => ⟨hBornV, hEnd.1⟩) hEnd.2, trivial⟩

end Serve

/-- The gateway keeps the discipline. -/
theorem sound (config : Config) : (discipline config).Sound fun _ => True where
  disturbs := fun _ _ _ hInv hMove => disturb_same hInv hMove
  answers := answers
  starts := by
    intro op world state _ hInv hAccept
    obtain ⟨hAct, hStory⟩ := start_same hInv hAccept
    exact ⟨hAct, wp_serve hAct.1 (Nat.lt_succ_self _) hStory⟩

/-- The invariant holds after every run. -/
theorem inv_of_run {os : Os} {choices : List (Choice (gateway config))} {final : Loop (gateway config)}
    (hRun : gatewayRun config os choices = some final) : Inv final.world :=
  (sound config).run (Inv.boot os) hRun fun _ _ => trivial

section Samples

/-! Runs can be replayed by evaluation. The samples begin with the living
master of an earlier gateway on the control path. -/

def sample : Config := ⟨{ host := "h", controlPath := "/c" }, 5⟩

def survivor : Os := { controlSocket := some 7, masters := [⟨7, "h", true⟩] }

/-- The answers of obliging surroundings. What they leave open is how a
process exits and what a probe says. -/
def oblige (exitCode : Int) (outcome : ProbeOutcome) : (wait : Wait) → Except Error wait.Reply
  | .begin | .lock _ _ | .sleep _ _ | .launch _ | .settled _ | .wake _ => .ok ()
  | .process _ _ _ _ => .ok ⟨exitCode, [], [], false, false⟩
  | .spawnMaster _ => .ok (9 : Nat)
  | .isRecordedMaster _ => .ok false
  | .probe _ => .ok outcome
  | .never => .error .timeoutError

abbrev Sample := Choice (gateway sample)

def resume (task : Nat) (exitCode : Int := 0) (outcome : ProbeOutcome := .ok) : Sample :=
  .resume task (oblige exitCode outcome)

def resumes (task rounds : Nat) : List Sample := List.replicate rounds (resume task)

def cancel (task : Nat) : Sample := .resume task fun _ => .error .cancelled

/-- The deadline of what the task waits for is over. -/
def late (task : Nat) : Sample := .resume task fun _ => .error .timeoutError

def execute (retrySafe : Bool := false) : Sample := .start (.execute "x" [] 100 retrySafe)

/-- The new master that the first task waits for comes up. -/
def recovery : List Sample :=
  [resume 0, .disturb (.masterBinds 9), .disturb (.tick 1)] ++ resumes 0 5

/-- The calls a story begins with. -/
def calls (story : List Event) : List Op :=
  story.filterMap fun event => match event with
    | .called op => some op
    | _ => none

theorem mem_calls {op : Op} {story : List Event} : op ∈ calls story ↔ .called op ∈ story := by
  simp only [calls, List.mem_filterMap]
  constructor
  · rintro ⟨event, hEvent, hCall⟩
    split at hCall <;> cases hCall
    exact hEvent
  · exact fun h => ⟨_, h, rfl⟩

end Samples
end Pazuzu.Supervision
