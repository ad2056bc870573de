import Pazuzu.Supervision.Repair

/-! Connecting, probing and checking: what `_connect`, `_probe` and `_check`
establish, whatever happens while they wait. -/
namespace Pazuzu.Supervision

open Asyncio Supervisor

variable {config : Config} {op : Op} {task : Nat} {α β : Type}

/-- Code has run, and the call's story has not gone on. -/
structure Ran (task : Nat) (start w : GatewayWorld) : Prop where
  inv : Inv w
  grows : Grows start w
  story : story task w.trace = story task start.trace

theorem Ran.refl {w : GatewayWorld} (hInv : Inv w) : Ran task w w := ⟨hInv, Grows.refl w, rfl⟩

theorem Ran.of_rely {start w : GatewayWorld} (hInv : Inv w) (hRely : Rely task start w) :
    Ran task start w :=
  ⟨hInv, hRely.grows, hRely.story⟩

theorem Ran.trans {first second third : GatewayWorld} (h : Ran task first second)
    (h' : Ran task second third) : Ran task first third :=
  ⟨h'.inv, h.grows.trans h'.grows, h'.story.trans h.story⟩

theorem Ran.rely {start w w' : GatewayWorld} (h : Ran task start w) (hInv : Inv w')
    (hRely : Rely task w w') : Ran task start w' :=
  h.trans (Ran.of_rely hInv hRely)

theorem Locked.released {start v w' : GatewayWorld} (h : Locked task start v) (hInv : Inv w')
    (hReleased : Released v w') : Ran task start w' :=
  ⟨hInv, h.grows.trans hReleased.grows, by rw [hReleased.trace, h.story]⟩

theorem Connected.positive {start w : GatewayWorld} (h : Connected task start w) :
    1 ≤ (core w.state).generation :=
  Nat.lt_of_le_of_lt (Nat.zero_le _) h.newer

section Connect

theorem wp_adoptOrReplace {w : GatewayWorld} (hInv : Inv w)
    (hHolder : (core w.state).holder = some task) (hIdle : repairing w.trace = false)
    (hFirst : (core w.state).generation = 0) {post : Except Error Unit → GatewayWorld → Prop}
    (hOk : ∀ w', Connected task w w' → post (.ok ()) w')
    (hError : ∀ error w', Locked task w w' → repairing w'.trace = false → post (.error error) w') :
    Wp config op task (adoptOrReplace config) post w := by
  have hAct := act_beginAdoption config hInv hHolder hIdle hFirst
  have hProgress : Progress (core w.state) (core w.state.beginAdoption) := by
    refine ⟨Nat.le_succ _, Nat.le_refl _, id, fun _ _ outcome h => ⟨outcome, h, fun _ => rfl⟩, ?_⟩
    intro hConnected
    have hPositive := hInv.repair.connected hConnected
    omega
  have hLocked : Locked task w (w.act task (some .adoptionBegan) w.state.beginAdoption) :=
    (Locked.refl hInv hHolder).act hAct.1 (grows_same_jobs hProgress rfl) rfl rfl
  refine wp_record_seq hAct (wp_quiet_seq quiet_adoptExisting hLocked.inv
    (fun adopted v hInvV hRely => ?_) fun error v hInvV hRely _ =>
      hError error v (hLocked.rely hInvV hRely) ((hLocked.repairing hRely).trans hIdle))
  have hV := hLocked.rely hInvV hRely
  have hIdleV : repairing v.trace = false := (hLocked.repairing hRely).trans hIdle
  refine (Discipline.wp_ite _ _ _).mpr ⟨fun _ => ?_, fun _ => ?_⟩
  · refine wp_recordConnected hV (Or.inr ?_) hOk
    rw [(hRely.held hLocked.holder).generation]
    exact hFirst
  · refine wp_replaceMaster hV.inv hV.holder hIdleV (fun w' hUp => hOk w' ?_)
      (fun message w' hFailed => hError _ w' ?_ hFailed.idle)
      fun error w' hAbandoned => hError error w' ?_ hAbandoned.idle
    · exact ⟨⟨hUp.locked.inv, hV.grows.trans hUp.locked.grows, hUp.locked.story.trans hV.story,
        hUp.locked.holder⟩, hUp.idle, hUp.up, hV.grows.progress.generation.trans_lt hUp.newer⟩
    · exact ⟨hFailed.locked.inv, hV.grows.trans hFailed.locked.grows,
        hFailed.locked.story.trans hV.story, hFailed.locked.holder⟩
    · exact ⟨hAbandoned.locked.inv, hV.grows.trans hAbandoned.locked.grows,
        hAbandoned.locked.story.trans hV.story, hAbandoned.locked.holder⟩

/-- Under the lock a connection is confirmed, found or made, unless it fails. -/
theorem wp_connectLocked {w : GatewayWorld} (hInv : Inv w)
    (hHolder : (core w.state).holder = some task) (hIdle : repairing w.trace = false)
    (force respectBackoff : Bool) {post : Except Error Unit → GatewayWorld → Prop}
    (hOk : ∀ w', Locked task w w' → repairing w'.trace = false → 1 ≤ (core w'.state).generation →
      post (.ok ()) w')
    (hError : ∀ error w', Locked task w w' → repairing w'.trace = false → post (.error error) w') :
    Wp config op task (connectLocked config force respectBackoff) post w := by
  have hSelf := Locked.refl hInv hHolder
  -- What follows the control check, whether it was made or not.
  have hRest : ∀ (up : Bool) (v : GatewayWorld), Inv v → Rely task w v →
      (up = true → 1 ≤ (core w.state).generation) →
      Wp config op task (if up then pure () else do
        let state ← Coro.get
        if force = false ∧ respectBackoff ∧ state.os.clock < state.sup.nextAttempt then
          raiseUnavailable
        else if force = false ∧ state.sup.generation = 0 then
          adoptOrReplace config
        else
          replaceMaster config) post v := by
    intro up v hInvV hRely hUp
    have hV := hSelf.rely hInvV hRely
    have hIdleV := (hSelf.repairing hRely).trans hIdle
    refine (Discipline.wp_ite _ _ _).mpr ⟨fun hTrue => ?_, fun _ => wp_get_seq ?_⟩
    · exact hOk v hV hIdleV ((hUp hTrue).trans hRely.grows.progress.generation)
    · have hLater : ∀ w', Locked task v w' → Locked task w w' := fun w' hIn =>
        ⟨hIn.inv, hV.grows.trans hIn.grows, hIn.story.trans hV.story, hIn.holder⟩
      have hMade : ∀ w', Connected task v w' → post (.ok ()) w' := fun w' hUp' =>
        hOk w' (hLater w' hUp'.locked) hUp'.idle hUp'.positive
      refine (Discipline.wp_ite _ _ _).mpr ⟨fun _ => wp_raiseUnavailable fun _ =>
        hError _ v hV hIdleV, fun _ => (Discipline.wp_ite _ _ _).mpr ⟨fun hFirst => ?_, fun _ => ?_⟩⟩
      · exact wp_adoptOrReplace hInvV hV.holder hIdleV hFirst.2 hMade
          fun error w' hIn hIdle' => hError error w' (hLater w' hIn) hIdle'
      · exact wp_replaceMaster hInvV hV.holder hIdleV hMade
          (fun _ w' hFailed => hError _ w' (hLater w' hFailed.locked) hFailed.idle)
          fun error w' hAbandoned => hError error w' (hLater w' hAbandoned.locked) hAbandoned.idle
  refine wp_get_seq ((Discipline.wp_ite _ _ _).mpr ⟨fun hUp => ?_, fun _ => ?_⟩)
  · refine wp_quiet_seq quiet_steadyCheck hInv
      (fun up v hInvV hRely => hRest up v hInvV hRely fun _ => hInv.repair.connected hUp.2)
      fun error v hInvV hRely _ => hError error v (hSelf.rely hInvV hRely)
        ((hSelf.repairing hRely).trans hIdle)
  · exact hRest false w hInv (Rely.refl task w) (by simp)

theorem wp_connect {w : GatewayWorld} (hInv : Inv w) (force respectBackoff : Bool)
    {post : Except Error Unit → GatewayWorld → Prop}
    (hOk : ∀ w', Ran task w w' → 1 ≤ (core w'.state).generation → post (.ok ()) w')
    (hError : ∀ error w', Ran task w w' → post (.error error) w') :
    Wp config op task (connect config force respectBackoff) post w := by
  refine wp_withLock hInv (fun v hInvV hRely hHolder hIdle => ?_) fun w' hInv' hRely _ =>
    hError _ w' (Ran.of_rely hInv' hRely)
  have hBefore := Ran.of_rely hInvV hRely
  refine wp_connectLocked hInvV hHolder hIdle force respectBackoff
    (fun v' hLocked hIdle' hPositive => ⟨hLocked.inv, hLocked.holder, hIdle', ?_⟩)
    fun error v' hLocked hIdle' => ⟨hLocked.inv, hLocked.holder, hIdle', ?_⟩
  · intro w' hInv' hReleased
    refine hOk w' (hBefore.trans (hLocked.released hInv' hReleased)) ?_
    rw [hReleased.core]
    exact hPositive
  · exact fun w' hInv' hReleased => hError error w' (hBefore.trans (hLocked.released hInv' hReleased))

theorem wp_ensureConnected {w : GatewayWorld} (hInv : Inv w) (respectBackoff : Bool)
    {post : Except Error Nat → GatewayWorld → Prop}
    (hOk : ∀ w', Ran task w w' → 1 ≤ (core w'.state).generation →
      post (.ok (core w'.state).generation) w')
    (hError : ∀ error w', Ran task w w' → post (.error error) w') :
    Wp config op task (ensureConnected config respectBackoff) post w := by
  have hRest : ∀ (up : Bool) (v : GatewayWorld), Inv v → Rely task w v →
      (up = true → 1 ≤ (core w.state).generation) →
      Wp config op task (do
        Coro.when (up = false) (connect config false respectBackoff)
        let state ← Coro.get
        return state.sup.generation) post v := by
    intro up v hInvV hRely hUp
    have hBefore := Ran.of_rely hInvV hRely
    refine wp_seq ((Discipline.wp_when _ _ _).mpr ⟨fun _ => ?_, fun hNot => ?_⟩)
    · exact wp_connect hInvV false respectBackoff
        (fun w' hRan hPositive => hOk w' (hBefore.trans hRan) hPositive)
        fun error w' hRan => hError error w' (hBefore.trans hRan)
    · exact hOk v hBefore ((hUp (by simpa using hNot)).trans hRely.grows.progress.generation)
  refine wp_get_seq ((Discipline.wp_ite _ _ _).mpr ⟨fun hUp => ?_, fun _ => ?_⟩)
  · exact wp_quiet_seq quiet_steadyCheck hInv
      (fun up v hInvV hRely => hRest up v hInvV hRely fun _ => hInv.repair.connected hUp)
      fun error v hInvV hRely _ => hError error v (Ran.of_rely hInvV hRely)
  · exact hRest false w hInv (Rely.refl task w) (by simp)

end Connect

section Probe

/-- Why a call raises something that is not one of the gateway's own errors. -/
def Excused (task : Nat) (start w : GatewayWorld) (error : Error) : Prop :=
  error.isPazuzu = false ∧ ((core w.state).closed = true ∨
    (∃ entry ∈ w.trace, entry.event.fails = true) ∨ Upset task start.trace w.trace)

theorem Excused.grows {start v w : GatewayWorld} {error : Error} (h : Excused task start v error)
    (hGrows : Grows v w) : Excused task start w error := by
  refine h.imp_right (Or.imp hGrows.progress.closed (Or.imp ?_ (Upset.extend · hGrows.history)))
  rintro ⟨entry, hEntry, hFails⟩
  exact ⟨entry, hGrows.history.subset hEntry, hFails⟩

theorem Excused.earlier {start v w : GatewayWorld} {error : Error} (h : Excused task v w error)
    (hGrows : Grows start v) : Excused task start w error :=
  h.imp_right (Or.imp_right (Or.imp_right (Upset.mono · hGrows.history)))

theorem Excused.of_marked {start w : GatewayWorld} {error : Error} (hOwn : error.isPazuzu = false)
    (hMarked : (frame config).Marked op task start.trace w) : Excused task start w error :=
  ⟨hOwn, Or.inr (Or.inr (upset_of_marked hMarked))⟩

theorem core_joinProbe (state : State) :
    core (let created := state.createJob (.probe state.sup.repairEpoch)
      { created with sup := { created.sup with
          probeFlight := some (state.sup.repairEpoch, state.sup.jobs.length) } }) =
      { core state with
        jobs := (core state).jobs ++ [(.probe (core state).epoch, none)]
        flight := some ((core state).epoch, (core state).jobs.length) } := by
  simp [core, State.createJob]

theorem core_jobs (state : State) (id : Nat) :
    (core state).jobs[id]? = (state.sup.jobs[id]?).map fun job => (job.kind, job.outcome) := by
  simp [core]

/-- The probe that is joined belongs to the current epoch and is not done. -/
theorem wp_joinProbe {w : GatewayWorld} (hInv : Inv w) {post : Except Error Nat → GatewayWorld → Prop}
    (hOk : ∀ id w', Inv w' → Rely task w w' →
      (core w'.state).jobs[id]? = some (.probe (core w.state).epoch, none) →
      (core w'.state).epoch = (core w.state).epoch → w'.trace = w.trace → post (.ok id) w') :
    Wp config op task joinProbe post w := by
  refine wp_get_seq ?_
  split
  · next id hFlight =>
      refine hOk id w hInv (Rely.refl task w) ?_ rfl rfl
      unfold State.flightFor at hFlight
      split at hFlight
      · cases hFlight
      · next flown other hIn =>
          split at hFlight
          · next hFresh =>
              obtain ⟨rfl, hPending⟩ := hFresh
              cases hFlight
              obtain ⟨outcome, hJob⟩ := hInv.flight _ _ hIn
              rw [core_jobs] at hJob ⊢
              obtain ⟨job, hSome, hPair⟩ := Option.map_eq_some_iff.mp hJob
              rw [State.jobOutcome, hSome] at hPending
              have hOutcome : job.outcome = none := hPending
              rw [hSome]
              have hKind : job.kind = .probe w.state.sup.repairEpoch := congrArg Prod.fst hPair
              simp [hKind, hOutcome, core]
          · cases hFlight
  · have hCore := core_joinProbe w.state
    obtain ⟨hAct, hRely⟩ := act_createJob config task hInv _ hCore
      (Or.inr ⟨_, rfl, rfl⟩)
    refine wp_update_seq hAct (hOk _ _ hAct.1 (hRely task) ?_ ?_ rfl)
    · rw [World.act_state, hCore]
      simp [core]
    · rw [World.act_state, hCore]

/-- A probe that answers has finished since it was asked for. -/
theorem wp_probe {w : GatewayWorld} (hInv : Inv w)
    {post : Except Error ProbeOutcome → GatewayWorld → Prop}
    (hOk : ∀ outcome w', Inv w' → Rely task w w' →
      (∃ entry rest, Since w.trace w'.trace entry rest ∧
        entry.event = .probeFinished (core w.state).epoch outcome) → post (.ok outcome) w')
    (hError : ∀ error w', Inv w' → Rely task w w' → Excused task w w' error →
      post (.error error) w') :
    Wp config op task Supervisor.probe post w := by
  refine wp_seq (wp_joinProbe hInv fun id v hInvV hRelyV hJob hEpoch hTrace => ?_)
  refine (Discipline.wp_suspend (G := gatewaySignature) (P := gateway config) _ _).mpr ?_
  intro later reply state hLater hWait hDeliver
  obtain ⟨hAnswer, hSelf⟩ := answers op task (.probe id) reply later state hLater hDeliver
  have hAll := (Rely.trans hRelyV hWait).trans hSelf
  obtain ⟨outcome', hLaterJob, -⟩ := hWait.grows.progress.jobs id _ _ hJob
  cases reply with
  | ok outcome =>
      refine hOk outcome _ hAnswer.1 hAll ?_
      simp only [gateway, Host.deliver, Host.returns, Option.ite_none_right_eq_some,
        Option.some.injEq] at hDeliver
      obtain ⟨hSettled, rfl⟩ := hDeliver
      rw [core_jobs] at hLaterJob
      obtain ⟨job, hSome, hPair⟩ := Option.map_eq_some_iff.mp hLaterJob
      rw [State.jobOutcome, hSome] at hSettled
      have hDone : job.outcome = some (.ok (some outcome)) := hSettled
      have hKind : job.kind = .probe (core w.state).epoch := congrArg Prod.fst hPair
      obtain ⟨entry, rest, hSince, hEvent⟩ := hWait.grows.probes id _ outcome hJob (by
        rw [core_jobs, hSome, Option.map_some, hDone, hKind])
      rw [hTrace] at hSince
      exact ⟨entry, rest, hSince.extend hSelf.grows.history, hEvent⟩
  | error error =>
      refine hError error _ hAnswer.1 hAll ?_
      simp only [gateway, Host.deliver] at hDeliver
      split at hDeliver
      · next hRaises =>
          cases hDeliver
          have hSettled : later.state.jobOutcome id = some (.error error) := by
            cases error <;> simpa [Host.raises] using hRaises
          rw [core_jobs] at hLaterJob
          obtain ⟨job, hSome, hPair⟩ := Option.map_eq_some_iff.mp hLaterJob
          rw [State.jobOutcome, hSome] at hSettled
          have hDone : job.outcome = some (.error error) := hSettled
          have hKind : job.kind = .probe (core w.state).epoch := congrArg Prod.fst hPair
          have hWhy := hLater.jobs id _ error (by
            rw [core_jobs, hSome, Option.map_some, hDone, hKind])
          refine Excused.grows (v := later) ⟨hWhy.1, ?_⟩ hSelf.grows
          exact hWhy.2.imp_right Or.inl
      · split at hDeliver
        · next hCancelled =>
            subst hCancelled
            refine ⟨rfl, Or.inr (Or.inr ⟨_, _, ⟨List.suffix_rfl, ?_⟩, rfl, Or.inr rfl⟩)⟩
            exact (Rely.trans hRelyV hWait).grows.history
        · cases hDeliver

end Probe

section Check

/-- What an answer of `_check` says about the generation it was asked for. -/
structure Answer (generation : Nat) (verdict : Verdict) (start w : GatewayWorld) : Prop where
  replaced : verdict = .replaced → generation < (core w.state).generation
  kept : verdict ≠ .replaced → (core w.state).generation = generation
  healthy : verdict = .healthy → (core w.state).epoch = (core start.state).epoch ∧
    ∃ entry rest, Since start.trace w.trace entry rest ∧
      entry.event = .probeFinished (core start.state).epoch .ok ∧
      (core entry.state).generation = generation

theorem RepairInv.idle_of_connected {c : Core} {trace : History} (h : RepairInv c trace)
    (hUp : c.connection = .connected) : repairing trace = false := by
  cases hRepairing : repairing trace with
  | false => rfl
  | true =>
      rcases (h.held hRepairing).2 with hState | ⟨-, hDown⟩
      · rw [hUp] at hState
        cases hState
      · exact absurd hUp hDown

/-- Once a master has been connected, a lost one is an outage. -/
theorem outage_of_down {w : GatewayWorld} (hInv : Inv w) (hGeneration : 1 ≤ (core w.state).generation)
    (hDown : (core w.state).connection ≠ .connected) : Outage (core w.state) w.trace := by
  refine ⟨hDown, ?_⟩
  by_cases hState : (core w.state).connection = .reconnecting
  · exact Or.inr (Or.inl hState)
  · exact (hInv.repair.failed hGeneration hDown hState).imp_right Or.inr

theorem Outage.released {w w' : GatewayWorld} (h : Outage (core w.state) w.trace)
    (hReleased : Released w w') : Outage (core w'.state) w'.trace := by
  unfold Outage
  rw [hReleased.core, hReleased.trace]
  exact h

theorem wp_tolerates {w : GatewayWorld} (hInv : Inv w) (outcome : ProbeOutcome)
    {post : Except Error Bool → GatewayWorld → Prop}
    (hYes : ∀ w', Inv w' → Rely task w w' → outcome = .slow ∨ outcome = .busy → post (.ok true) w')
    (hNo : ∀ w', Inv w' → Rely task w w' → post (.ok false) w')
    (hError : ∀ error w', Inv w' → Rely task w w' → error.isPazuzu = false →
      (frame config).Marked op task w.trace w' → post (.error error) w') :
    Wp config op task (tolerates config outcome) post w := by
  refine wp_get_seq ((Discipline.wp_ite _ _ _).mpr ⟨fun hSoft => ?_, fun _ => ?_⟩)
  · refine wp_quiet quiet_steadyCheck hInv ?_ ?_
    · rintro (_ | _) w' hInv' hRely
      · exact hNo w' hInv' hRely
      · exact hYes w' hInv' hRely hSoft.1
    · rintro error w' hInv' hRely (hNever | ⟨hOwn, hMarked⟩)
      · cases hNever
      · exact hError error w' hInv' hRely hOwn hMarked
  · exact hNo w hInv (Rely.refl task w)

/-- The decision under the lock, for a check that began at `start`. -/
theorem wp_checkLocked {start w : GatewayWorld} {generation : Nat} {outcome : ProbeOutcome}
    (hBefore : Rely task start w) (hInv : Inv w) (hHolder : (core w.state).holder = some task)
    (hIdle : repairing w.trace = false) (hLow : 1 ≤ generation)
    (hHigh : generation ≤ (core start.state).generation)
    (hAmbiguous : outcome = .slow ∨ outcome = .busy →
      (core start.state).generation = generation ∧ repairing start.trace = false)
    (hTimely : ((core start.state).generation = generation ∧ repairing start.trace = false) ∨
      Untimely task generation start.trace)
    {post : Except Error Verdict → GatewayWorld → Prop}
    (hOk : ∀ verdict w', Locked task w w' → repairing w'.trace = false → verdict ≠ .healthy →
      (verdict = .replaced → generation < (core w'.state).generation) →
      (verdict ≠ .replaced → (core w'.state).generation = generation) → post (.ok verdict) w')
    (hUnavailable : ∀ message w', Locked task w w' → repairing w'.trace = false →
      Outage (core w'.state) w'.trace → post (.error (.connectionUnavailable message)) w')
    (hError : ∀ error w', Locked task w w' → repairing w'.trace = false →
      Excused task w w' error → post (.error error) w') :
    Wp config op task (checkLocked config generation (core start.state).epoch outcome) post w := by
  have hSelf := Locked.refl hInv hHolder
  have hGrown : 1 ≤ (core w.state).generation :=
    (hLow.trans hHigh).trans hBefore.grows.progress.generation
  -- While the epoch stands, so does what was known when the check began.
  have hSteady : ∀ v, Rely task w v → (core start.state).epoch = (core w.state).epoch →
      (core start.state).generation = generation ∧ repairing start.trace = false →
      (core v.state).generation = generation := by
    rintro v hRely hEpoch ⟨hSame, hStartIdle⟩
    have hKept := (hBefore.trans hRely).steady hStartIdle (by omega)
      ((hRely.held hHolder).epoch.trans hEpoch.symm)
    rw [hKept.generation, hSame]
  refine wp_get_seq ((Discipline.wp_ite _ _ _).mpr ⟨fun hMoved => ?_, fun hSame => ?_⟩)
  · refine (Discipline.wp_ite _ _ _).mpr ⟨fun hUp => ?_, fun hDown => ?_⟩
    · refine hOk .replaced w hSelf hIdle (by simp) (fun _ => ?_) (fun h => absurd rfl h)
      rcases hBefore.grows.progress.connected hUp with ⟨-, hEpoch⟩ | hLess
      · exact absurd hEpoch.symm hMoved
      · exact hHigh.trans_lt hLess
    · exact wp_raiseUnavailable fun message =>
        hUnavailable message w hSelf hIdle (outage_of_down hInv hGrown hDown)
  · have hEpoch : (core start.state).epoch = (core w.state).epoch := by
      simpa [core] using hSame
    refine wp_seq (wp_tolerates hInv outcome (fun v hInvV hRely hSoft => ?_)
      (fun v hInvV hRely => ?_) fun error v hInvV hRely hOwn hMarked => ?_)
    · exact hOk .degraded v (hSelf.rely hInvV hRely) ((hSelf.repairing hRely).trans hIdle) (by simp)
        (fun h => by cases h) fun _ => hSteady v hRely hEpoch (hAmbiguous hSoft)
    · have hV := hSelf.rely hInvV hRely
      have hIdleV := (hSelf.repairing hRely).trans hIdle
      have hGrownV := hGrown.trans hRely.grows.progress.generation
      refine wp_get_seq ((Discipline.wp_ite _ _ _).mpr ⟨fun hWaiting => ?_, fun _ => ?_⟩)
      · exact wp_raiseUnavailable fun message =>
          hUnavailable message v hV hIdleV (outage_of_down hInvV hGrownV hWaiting.1)
      · have hPermitted : Permitted ⟨task, .checkReplaces generation, v.state⟩ v.trace := by
          rcases hTimely with hFirst | ⟨entry, before, hSuffix, hEntry⟩
          · exact Or.inl (hSteady v hRely hEpoch hFirst)
          · exact Or.inr ⟨entry, before,
              hSuffix.trans (hBefore.trans hRely).grows.history, hEntry⟩
        have hAct := act_mark config task (.checkReplaces generation) hInvV rfl (fun h => by cases h)
          hPermitted
        have hM := hV.act hAct.1 (Grows.act_same rfl) rfl rfl
        have hLater : ∀ w', Locked task (v.act task (some (.checkReplaces generation)) v.state) w' →
            Locked task w w' := fun w' hIn =>
          ⟨hIn.inv, hM.grows.trans hIn.grows, hIn.story.trans hM.story, hIn.holder⟩
        refine wp_mark_seq hAct (wp_seq (wp_replaceMaster hM.inv hM.holder hIdleV
          (fun w' hUp => hOk .replaced w' (hLater w' hUp.locked) hUp.idle (by simp) (fun _ => ?_)
            (fun h => absurd rfl h))
          (fun message w' hFailed => hUnavailable message w' (hLater w' hFailed.locked) hFailed.idle
            ⟨hFailed.down, Or.inr (Or.inr hFailed.recorded)⟩)
          fun error w' hAbandoned => hError error w' (hLater w' hAbandoned.locked) hAbandoned.idle
            ⟨hAbandoned.own, Or.inr (Or.inr (hAbandoned.upset.mono hM.grows.history))⟩))
        exact (hHigh.trans (hBefore.trans hRely).grows.progress.generation).trans_lt hUp.newer
    · exact hError error v (hSelf.rely hInvV hRely) ((hSelf.repairing hRely).trans hIdle)
        (Excused.of_marked hOwn hMarked)

/-- `_check` for a generation that has been connected, up to the marks around it. -/
theorem wp_checkMaster {w : GatewayWorld} {generation : Nat} (hInv : Inv w) (hLow : 1 ≤ generation)
    (hHigh : generation ≤ (core w.state).generation)
    (hTimely : (core w.state).connection = .connected ∨
      ((core w.state).generation = generation ∧ repairing w.trace = false) ∨
      Untimely task generation w.trace)
    {post : Except Error Verdict → GatewayWorld → Prop}
    (hOk : ∀ verdict w', Ran task w w' → Answer generation verdict w w' → post (.ok verdict) w')
    (hUnavailable : ∀ message w', Ran task w w' → Outage (core w'.state) w'.trace →
      post (.error (.connectionUnavailable message)) w')
    (hError : ∀ error w', Ran task w w' → Excused task w w' error → post (.error error) w') :
    Wp config op task (checkMaster config generation) post w := by
  -- The lock is taken after the probe, if there was one.
  have hLocked : ∀ (outcome : ProbeOutcome) (v : GatewayWorld), Inv v → Rely task w v →
      (outcome = .slow ∨ outcome = .busy →
        (core w.state).generation = generation ∧ repairing w.trace = false) →
      (((core w.state).generation = generation ∧ repairing w.trace = false) ∨
        Untimely task generation w.trace) →
      Wp config op task (withLock .repair
        (checkLocked config generation w.state.sup.repairEpoch outcome)) post v := by
    intro outcome v hInvV hRely hAmbiguous hBegan
    refine wp_withLock hInvV (fun u hInvU hRelyU hHolder hIdle => ?_) fun w' hInv' hRely' hMarked =>
      hError _ w' (Ran.of_rely hInv' (hRely.trans hRely'))
        ((Excused.of_marked rfl hMarked).earlier hRely.grows)
    have hBefore := hRely.trans hRelyU
    have hRan := Ran.of_rely hInvU hBefore
    refine wp_checkLocked hBefore hInvU hHolder hIdle hLow hHigh hAmbiguous hBegan
      (fun verdict v' hIn hIdle' hVerdict hReplaced hKept => ⟨hIn.inv, hIn.holder, hIdle', ?_⟩)
      (fun message v' hIn hIdle' hOutage => ⟨hIn.inv, hIn.holder, hIdle', ?_⟩)
      fun error v' hIn hIdle' hExcused => ⟨hIn.inv, hIn.holder, hIdle', ?_⟩
    · intro w' hInv' hReleased
      refine hOk verdict w' (hRan.trans (hIn.released hInv' hReleased))
        ⟨fun h => ?_, fun h => ?_, fun h => absurd h hVerdict⟩
      · rw [hReleased.core]
        exact hReplaced h
      · rw [hReleased.core]
        exact hKept h
    · exact fun w' hInv' hReleased => hUnavailable message w'
        (hRan.trans (hIn.released hInv' hReleased)) (Outage.released hOutage hReleased)
    · exact fun w' hInv' hReleased => hError error w' (hRan.trans (hIn.released hInv' hReleased))
        ((hExcused.earlier hBefore.grows).grows hReleased.grows)
  refine wp_get_seq ((Discipline.wp_ite _ _ _).mpr ⟨fun hOther => ?_, fun hNot => ?_⟩)
  · refine hOk .replaced w (Ran.refl hInv) ⟨fun _ => ?_, fun h => absurd rfl h, fun h => by cases h⟩
    exact lt_of_le_of_ne hHigh hOther.1
  · refine (Discipline.wp_ite _ _ _).mpr ⟨fun hUp => ?_, fun hDown => ?_⟩
    · have hSame : (core w.state).generation = generation := by
        by_contra hNe
        exact hNot ⟨fun h => hNe h.symm, hUp⟩
      have hIdle := hInv.repair.idle_of_connected hUp
      refine wp_seq (wp_probe hInv (fun outcome u hInvU hRelyU hFinished => ?_)
        fun error v hInvV hRely hExcused => hError error v (Ran.of_rely hInvV hRely) hExcused)
      refine wp_background_seq rfl hInvU fun v hInvV hRelyV hState => ?_
      have hRely := hRelyU.trans hRelyV
      refine wp_get_seq ((Discipline.wp_ite _ _ _).mpr ⟨fun hFresh => ?_, fun _ => ?_⟩)
      · obtain ⟨hGood, hEpoch⟩ := hFresh
        subst hGood
        have hEpoch' : (core v.state).epoch = (core w.state).epoch := hEpoch.symm
        have hKept := hRely.steady hIdle (by omega) hEpoch'
        refine hOk .healthy v (Ran.of_rely hInvV hRely)
          ⟨fun h => (by cases h), fun _ => hKept.generation.trans hSame, fun _ => ⟨hEpoch', ?_⟩⟩
        obtain ⟨entry, rest, hSinceU, hEvent⟩ := hFinished
        have hSince := hSinceU.extend hRelyV.grows.history
        obtain ⟨hFrom, hTo⟩ := hRely.grows.entries entry rest hSince
        have hLower := hFrom.generation
        have hUpper := hTo.generation
        rw [hKept.generation] at hUpper
        exact ⟨entry, rest, hSince, hEvent, by omega⟩
      · exact hLocked outcome v hInvV hRely (fun _ => ⟨hSame, hIdle⟩) (Or.inl ⟨hSame, hIdle⟩)
    · refine wp_background_seq rfl hInv fun v hInvV hRely _ => ?_
      refine wp_get_seq ((Discipline.wp_ite _ _ _).mpr ⟨fun hGood => (by cases hGood.1), fun _ => ?_⟩)
      refine hLocked .failed v hInvV hRely (by rintro (h | h) <;> cases h) ?_
      exact hTimely.resolve_left hDown

/-- The story of a call that is no command may go on in any way. -/
def Plain (task : Nat) (w : GatewayWorld) : Prop :=
  ∀ op, .called op ∈ story task w.trace → op.isCommand = false

/-- Whatever a check will say, the call's story may go on with it. -/
def Checkable (task generation : Nat) (w : GatewayWorld) : Prop :=
  task < w.started ∧
    (∀ verdict, Lawful (.checkAnswered generation verdict :: story task w.trace)) ∧
    ∀ error, Lawful (.checkRaised generation error :: story task w.trace)

theorem Plain.lawful {w : GatewayWorld} (h : Plain task w) {event : Event}
    (hEvent : ∀ op, event ≠ .called op) : Lawful (event :: story task w.trace) := by
  intro op hCalled hCommand
  rcases List.mem_cons.mp hCalled with hEq | hOld
  · exact absurd hEq.symm (hEvent op)
  · rw [h op hOld] at hCommand
    cases hCommand

theorem Plain.checkable {w : GatewayWorld} (h : Plain task w) (hTask : task < w.started)
    (generation : Nat) : Checkable task generation w :=
  ⟨hTask, fun _ => h.lawful (by simp), fun _ => h.lawful (by simp)⟩

/-- The world after a check: it has run, and its verdict is in the story. -/
structure Told (task : Nat) (event : Event) (start w : GatewayWorld) : Prop where
  inv : Inv w
  grows : Grows start w
  story : story task w.trace = event :: story task start.trace

theorem wp_check {w : GatewayWorld} {generation : Nat} (hInv : Inv w) (hLow : 1 ≤ generation)
    (hHigh : generation ≤ (core w.state).generation) (hCheckable : Checkable task generation w)
    {post : Except Error Verdict → GatewayWorld → Prop}
    (hOk : ∀ verdict w', Told task (.checkAnswered generation verdict) w w' →
      Answer generation verdict w w' → post (.ok verdict) w')
    (hUnavailable : ∀ message w',
      Told task (.checkRaised generation (.connectionUnavailable message)) w w' →
      post (.error (.connectionUnavailable message)) w')
    (hError : ∀ error w', Told task (.checkRaised generation error) w w' →
      error.isPazuzu = false → post (.error error) w') :
    Wp config op task (check config generation) post w := by
  obtain ⟨hTask, hAnswered, hRaised⟩ := hCheckable
  have hBegan := act_mark config task (.checkBegan generation) hInv rfl (fun h => by cases h)
    ⟨hLow, hHigh⟩
  have hStart : Ran task w (w.act task (some (.checkBegan generation)) w.state) :=
    ⟨hBegan.1, Grows.act_same rfl, story_act (Or.inr (by rintro e ⟨⟩; rfl))⟩
  -- The verdict is put on record in the state it was given in.
  have hTell : ∀ (event : Event) (v : GatewayWorld), event.isRepair = false → event.isStory = true →
      Ran task (w.act task (some (.checkBegan generation)) w.state) v →
      Lawful (event :: story task w.trace) → Permitted ⟨task, event, v.state⟩ v.trace →
      (discipline config).Act task v (v.act task (some event) v.state) ∧
        Told task event w (v.act task (some event) v.state) := by
    intro event v hRepair hStory hRan hLawful hPermitted
    have hAll := hStart.trans hRan
    have hAct := act_mark config task event hRan.inv hRepair
      (fun _ => ⟨hTask.trans_le hAll.grows.started, by rw [hAll.story]; exact hLawful⟩) hPermitted
    refine ⟨hAct, hAct.1, hAll.grows.trans (Grows.act_same rfl), ?_⟩
    rw [World.act_some_trace, story_cons_same _ _ _ _ hStory, hAll.story]
  refine wp_mark_seq hBegan (wp_seq ((Discipline.wp_attempt _ _ _).mpr
    (wp_checkMaster hBegan.1 hLow (by simpa using hHigh) ?_ (fun verdict v hRan hAnswer => ?_)
      (fun message v hRan hOutage => ?_) fun error v hRan hExcused => ?_)))
  · by_cases hTimely : Timely generation ⟨task, .checkBegan generation, w.state⟩ w.trace
    · exact hTimely.imp_right Or.inl
    · exact Or.inr (Or.inr ⟨_, _, List.suffix_rfl, rfl, rfl, hTimely⟩)
  · obtain ⟨hAct, hTold⟩ := hTell (.checkAnswered generation verdict) v rfl rfl hRan
      (hAnswered verdict) ⟨hAnswer.replaced, hAnswer.kept⟩
    refine wp_mark_seq hAct (hOk verdict _ hTold ⟨hAnswer.replaced, hAnswer.kept, fun h => ?_⟩)
    obtain ⟨hEpoch, entry, rest, hSince, hEvent⟩ := hAnswer.healthy h
    exact ⟨hEpoch, entry, rest,
      (hSince.mono (List.suffix_cons _ _)).extend (List.suffix_cons _ _), hEvent⟩
  · obtain ⟨hAct, hTold⟩ := hTell (.checkRaised generation (.connectionUnavailable message)) v rfl rfl
      hRan (hRaised _) ⟨fun _ => hOutage, hRan.inv.repair.unrecorded, fun h => by cases h⟩
    exact wp_mark_seq hAct (hUnavailable message _ hTold)
  · have hNot : error.isConnectionUnavailable = false := by
      have hOwn := hExcused.1
      cases error <;> first | rfl | cases hOwn
    have hWhy : (core v.state).closed = true ∨ ∃ other ∈ v.trace, other.event.fails = true ∨
        (other.task = task ∧ other.event.isCancellation = true) := by
      refine hExcused.2.imp_right ?_
      rintro (⟨entry, hEntry, hFails⟩ | ⟨entry, rest, hSince, hMine, hWhy⟩)
      · exact ⟨entry, hEntry, Or.inl hFails⟩
      · exact ⟨entry, hSince.mem, hWhy.imp id fun h => ⟨hMine, h⟩⟩
    obtain ⟨hAct, hTold⟩ := hTell (.checkRaised generation error) v rfl rfl hRan (hRaised error)
      ⟨fun h => (by rw [hNot] at h; cases h), hRan.inv.repair.unrecorded, fun _ => hWhy⟩
    exact wp_mark_seq hAct (hError error _ hTold hExcused.1)

end Check
end Pazuzu.Supervision
