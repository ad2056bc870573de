import Pazuzu.Supervision.Decisions

/-! The grounds of a check and of a probe that is counted: what was asked, what
came back, and that no attempt came in between. -/
namespace Pazuzu.Supervision

open Asyncio Coro Supervisor

variable {config : Config} {op : Op} {task : Nat} {α β : Type} {v w : GatewayWorld}

section Probe

/-- A wait for another task may end in whatever that task has raised. -/
theorem calm_wait {F : Frame (gateway config)} (wait' : Wait) (marked : Prop) :
    (wait wait').Calm F op ⟨fun _ => True, fun _ => True⟩ marked := by
  intro task reply before after _
  cases reply with
  | ok value => trivial
  | error error => exact ⟨trivial, Or.inr trivial⟩

/-- A new task, for a probe of the master that is connected or for maintenance. -/
theorem Balance.create {sup : Supervisor} {trace : History} (h : Balance sup trace) {kind : JobKind}
    (hKind : kind = .maintain ∨
      (kind = .probe sup.repairEpoch ∧ sup.state = .connected ∧ 1 ≤ sup.generation))
    (flight : Option (Nat × Nat)) (maintainer : Option Nat) :
    Balance { sup with jobs := sup.jobs ++ [{ kind }], probeFlight := flight, maintainer } trace where
  generation := h.generation
  epoch := h.epoch
  bounded := h.bounded
  connected := h.connected
  standing := h.standing
  strikes := h.strikes
  lastProbe := h.lastProbe
  outstanding := h.outstanding
  jobs := by
    intro id epoch hJob
    simp only [List.map_append, List.map_cons, List.map_nil, List.getElem?_append] at hJob
    split at hJob
    · exact h.jobs id epoch hJob
    · rw [List.getElem?_singleton, Option.ite_none_right_eq_some, Option.some.injEq] at hJob
      obtain ⟨-, rfl⟩ := hJob
      rcases hKind with hMaintain | ⟨hProbe, hUp, hGeneration⟩
      · cases hMaintain
      · cases hProbe
        exact ⟨le_rfl, hGeneration, fun _ => (h.connected hUp).1⟩

theorem lwp_joinProbe (hInv : Inv w) (hUp : w.state.sup.state = .connected) :
    Lwp config op task joinProbe (fun _ v => Inv v ∧ Calmed task w v) w := by
  refine Extension.wp_get_bind ?_
  split
  · exact Extension.wp_pure ⟨hInv, Calmed.refl task w⟩
  · exact lwp_act rfl (fun e he => by cases he)
      (fun hLedger => ⟨hLedger.balance.create (Or.inr ⟨rfl, hUp, hInv.repair.connected hUp⟩) _ _,
        fun e he => by cases he⟩)
      fun hInv' _ => Extension.wp_pure ⟨hInv', Calmed.act le_rfl (Or.inr fun e he => by cases he)⟩

theorem lwp_probe (hInv : Inv w) (hUp : w.state.sup.state = .connected) :
    Lwp config op task Supervisor.probe (fun outcome v => Waited task w v ∧
      ∀ result, outcome = .ok result → Probed result v.trace) w := by
  have hKnown : Wp config op task Supervisor.probe (fun outcome v => Inv v ∧ Rely task w v ∧
      ∀ result, outcome = .ok result → ∃ entry ∈ v.trace, ∃ epoch, entry.event = .probeFinished epoch result) w := by
    refine wp_probe hInv (fun outcome v hInvV hRely hFinished => ⟨hInvV, hRely, ?_⟩)
      fun error v hInvV hRely _ => ⟨hInvV, hRely, fun _ h => by cases h⟩
    rintro result ⟨⟩
    obtain ⟨entry, rest, hSince, hEvent⟩ := hFinished
    exact ⟨entry, hSince.mem, _, hEvent⟩
  have hBooks : Lwp config op task Supervisor.probe (fun _ v => Calmed task w v) w := by
    refine Extension.wp_bind (Extension.wp_mono (lwp_joinProbe hInv hUp) ?_)
    rintro (error | id) v _ ⟨hInvV, hCalmed⟩
    · exact hCalmed
    · exact Extension.wp_mono (lwp_calm (calm_wait _ _) hInvV) fun _ _ _ hLater => hCalmed.trans hLater
  refine Extension.wp_mono (Extension.wp_and hKnown hBooks) ?_
  rintro outcome v hLedger ⟨⟨hInvV, hRely, hFinished⟩, hCalmed⟩
  refine ⟨⟨hInvV, hRely, hCalmed⟩, fun result hResult => ?_⟩
  obtain ⟨entry, hEntry, epoch, hEvent⟩ := hFinished result hResult
  obtain ⟨rest, hSuffix⟩ := exists_suffix_of_mem hEntry
  have hWarranted := hLedger.warranted entry rest hSuffix
  simp only [Warranted, hEvent] at hWarranted
  obtain ⟨probe, hProbe, hEnded⟩ := hWarranted
  exact ⟨probe, hSuffix.subset (List.mem_cons_of_mem _ hProbe), hEnded⟩

end Probe

section Check

/-- An ambiguous probe is tolerated unless it is one too many, or the master
does not answer. -/
theorem lwp_tolerates (hInv : Inv w) (result : ProbeOutcome) :
    Lwp config op task (tolerates config result) (fun outcome v => Waited task w v ∧
      (outcome = .ok false → result = .slow ∨ result = .busy →
        config.settings.probeFailures ≤ v.state.sup.probeFailures ∨
          Entered task (.controlChecked false) w.trace v.trace) ∧
      (outcome = .ok true → (result = .slow ∨ result = .busy) ∧
        w.state.sup.probeFailures < config.settings.probeFailures ∧
          Entered task (.controlChecked true) w.trace v.trace)) w := by
  refine Extension.wp_get_bind (Extension.wp_ite (fun hFew => ?_) fun hNot => ?_)
  · have hChecked : Finds config op task (Transport.controlCheck config)
        (fun up new => Entered task (.controlChecked up) w.trace new) w := finds_controlCheck hInv
    refine Extension.wp_mono (Extension.wp_and hChecked (lwp_calm quiet_steadyCheck hInv)) ?_
    rintro outcome v _ ⟨⟨hInvV, hRely, hFound⟩, hCalmed⟩
    exact ⟨⟨hInvV, hRely, hCalmed⟩, fun hSoft _ => Or.inr (hFound false hSoft),
      fun hKept => ⟨hFew.1, hFew.2, hFound true hKept⟩⟩
  · refine Extension.wp_pure ⟨Waited.refl task hInv, fun _ hAmbiguous => Or.inl ?_, fun hKept => by cases hKept⟩
    exact not_lt.mp fun hFew => hNot ⟨hAmbiguous, hFew⟩

/-- What a check has learned before it takes the lock. -/
structure Asked (task : Nat) (beginning asked : Record) (before earlier : History) (outcome : ProbeOutcome)
    (w : GatewayWorld) : Prop where
  began : (beginning :: before) <:+ earlier
  answered : (asked :: earlier) <:+ w.trace
  question : beginning.task = task ∧ ∃ generation, beginning.event = .checkBegan generation
  answer : asked.task = task ∧ asked.event = .checkProbed outcome
  first : Silent task (beginning :: before) earlier
  last : Silent task (asked :: earlier) w.trace
  probed : if beginning.state.sup.state = .connected then Probed outcome earlier
    else outcome = .failed ∧ (attempting (beginning :: before) = true ∨ Ended (beginning :: before))
  moved : outcome = .ok → beginning.state.sup.repairEpoch < w.state.sup.repairEpoch
  story : story task w.trace = story task earlier

theorem Asked.waited {beginning asked : Record} {before earlier : History} {outcome : ProbeOutcome}
    (h : Asked task beginning asked before earlier outcome v) (hV : Waited task v w) :
    Asked task beginning asked before earlier outcome w :=
  { h with
    answered := h.answered.trans hV.audit.history
    last := h.last.trans h.answered hV.audit.history hV.calmed.silent
    moved := fun hGood => (h.moved hGood).trans_le hV.rely.grows.progress.epoch
    story := hV.rely.story.trans h.story }

/-- How a check leaves the world: a master is kept only on its grounds. -/
def Judges (config : Config) (task : Nat) (w : GatewayWorld) (outcome : Except Error Verdict) (v : GatewayWorld) :
    Prop :=
  Leaves task w outcome v ∧ (outcome = .ok .degraded → AnswersLocally config task v.trace)

theorem Leaves.judges {outcome : Except Error Verdict} (h : Leaves task w outcome v)
    (hNot : outcome ≠ .ok .degraded) : Judges config task w outcome v :=
  ⟨h, fun hKept => absurd hKept hNot⟩

theorem lwp_checkLocked {beginning asked : Record} {before earlier : History} {generation : Nat}
    {outcome : ProbeOutcome} (hInv : Inv w) (hHolder : (core w.state).holder = some task)
    (hAsked : Asked task beginning asked before earlier outcome w) :
    Lwp config op task (checkLocked config generation beginning.state.sup.repairEpoch outcome)
      (Judges config task w) w := by
  have hSelf : ∀ end' : Except Error Verdict, Leaves task w end' w := fun _ => ⟨hInv, Audit.refl task w⟩
  refine Extension.wp_inv fun hBooks => Extension.wp_get_bind (Extension.wp_ite (fun _ => Extension.wp_ite
    (fun _ => Extension.wp_pure ((hSelf _).judges (by simp)))
    fun _ => lwp_raiseUnavailable fun _ => (hSelf _).judges (by simp)) fun hSame => ?_)
  refine Extension.wp_bind (Extension.wp_mono (lwp_tolerates hInv outcome) ?_)
  rintro (error | _ | _) v hLedger ⟨hV, hHard, hSoft⟩
  · exact (hV.leaves _).judges (by simp)
  · have hHolderV := (hV.protected hHolder).holder
    refine Extension.wp_get_bind (Extension.wp_ite
      (fun _ => lwp_raiseUnavailable fun _ => (hV.leaves _).judges (by simp)) fun hNow => ?_)
    have hEpoch : beginning.state.sup.repairEpoch = v.state.sup.repairEpoch :=
      (not_not.mp hSame).trans (hV.protected hHolder).epoch.symm
    have hAskedV := hAsked.waited hV
    have hFails : CheckFails config ⟨task, .checkReplaces generation, v.state⟩ v.trace := by
      refine ⟨beginning, before, asked, earlier, outcome, hAskedV.began, hAskedV.answered, hAskedV.question,
        hAskedV.answer, hAskedV.first, hAskedV.last, hEpoch, fun hGood => (hAsked.moved hGood).ne (not_not.mp hSame),
        hAskedV.probed, fun hAmbiguous => ?_⟩
      rw [← hLedger.balance.strikes]
      exact (hHard rfl hAmbiguous).imp_right fun hDead => hDead.mono hAsked.answered
    have hDue : Due v.trace v.state.os.clock := by
      intro failure hFailure
      by_cases hUp : v.state.sup.state = .connected
      · have hNone : v.state.sup.failures = 0 := (hLedger.balance.connected hUp).2.1
        rw [outstanding_eq_nil (hV.inv.repair.counted.symm.trans hNone)] at hFailure
        cases hFailure
      · exact (hLedger.balance.outstanding failure hFailure).trans
          (not_lt.mp fun hEarly => hNow ⟨hUp, hEarly⟩)
    refine lwp_mark_seq rfl rfl (fun _ => hFails) fun hInv' hAudit => ?_
    refine Extension.wp_bind (Extension.wp_mono (lwp_replaceMaster hHolderV
      ⟨Or.inr hDue, Or.inl ⟨rfl, _, rfl⟩⟩) ?_)
    rintro (error | value) u _ hLeaves
    · exact Leaves.judges (hLeaves.earlier (hV.audit.trans hAudit)) (by simp)
    · exact Extension.wp_pure (Leaves.judges (hLeaves.earlier (hV.audit.trans hAudit)) (by simp))
  · obtain ⟨hAmbiguous, hFew, checked, rest, hSince, hOwn⟩ := hSoft rfl
    refine Extension.wp_pure ⟨hV.leaves _, fun _ => ⟨asked, earlier, w.trace, checked, rest, outcome,
      hAsked.answered, hSince, hAsked.answer, hAmbiguous, ?_, hOwn, hV.rely.story.trans hAsked.story⟩⟩
    rw [← hBooks.balance.strikes]
    exact hFew

theorem lwp_checkMaster {before : History} {generation : Nat} (hInv : Inv w)
    (hBegan : w.trace = ⟨task, .checkBegan generation, w.state⟩ :: before) :
    Lwp config op task (checkMaster config generation) (Judges config task w) w := by
  -- The lock is taken after the probe, if there was one.
  have hDecide : ∀ outcome v, Waited task w v →
      (if w.state.sup.state = .connected then Probed outcome v.trace
        else outcome = .failed ∧ (attempting w.trace = true ∨ Ended w.trace)) →
      Lwp config op task (do
        Coro.mark (.checkProbed outcome)
        let state ← Coro.get
        if outcome = .ok ∧ w.state.sup.repairEpoch = state.sup.repairEpoch then
          return .healthy
        else
          withLock .repair (checkLocked config generation w.state.sup.repairEpoch outcome)) (Judges config task w) v := by
    intro outcome v hV hProbed
    refine lwp_mark_seq rfl rfl (fun _ => trivial) fun hInv' hAudit => Extension.wp_get_bind ?_
    have hAll := hV.audit.trans hAudit
    refine Extension.wp_ite (fun _ => Extension.wp_pure (Leaves.judges ⟨hInv', hAll⟩ (by simp))) fun hNot => ?_
    have hAsked : Asked task ⟨task, .checkBegan generation, w.state⟩ ⟨task, .checkProbed outcome, v.state⟩
        before v.trace outcome (v.act task (some (.checkProbed outcome)) v.state) :=
      { began := hBegan ▸ hV.audit.history
        answered := List.suffix_rfl
        question := ⟨rfl, _, rfl⟩
        answer := ⟨rfl, rfl⟩
        first := hBegan ▸ hV.calmed.silent
        last := fun _ _ h => absurd h since_self
        probed := hBegan ▸ hProbed
        moved := fun hOk => lt_of_le_of_ne hV.rely.grows.progress.epoch fun hSame => hNot ⟨hOk, hSame⟩
        story := story_cons_other _ (Or.inr rfl) }
    refine Extension.wp_mono (lwp_withLock_found
      (fun verdict history => verdict = .ok .degraded → AnswersLocally config task history)
      (fun _ _ h => by cases h) hInv' fun u hU hHolder _ => lwp_checkLocked hU.inv hHolder (hAsked.waited hU)) ?_
    exact fun _ _ _ hEnd => ⟨Leaves.earlier hEnd.1 hAll, hEnd.2⟩
  have hSelf : Waited task w w := Waited.refl task hInv
  refine Extension.wp_get_bind (Extension.wp_ite
    (fun _ => Extension.wp_pure ((hSelf.leaves _).judges (by simp))) fun _ =>
    Extension.wp_ite (fun hUp => ?_) fun hDown => ?_)
  · refine Extension.wp_bind (Extension.wp_mono (lwp_probe hInv hUp) ?_)
    rintro (error | outcome) v _ ⟨hV, hEnded⟩
    · exact (hV.leaves _).judges (by simp)
    · exact hDecide outcome v hV ((if_pos hUp).mpr (hEnded outcome rfl))
  · refine Extension.wp_inv fun hLedger => hDecide .failed w hSelf ((if_neg hDown).mpr ⟨rfl, ?_⟩)
    have hPermitted := hInv.permitted ⟨task, .checkBegan generation, w.state⟩ before (hBegan ▸ List.suffix_rfl)
    exact attempting_or_ended hLedger (hPermitted.1.trans hPermitted.2) hDown

/-- A connection is up without failures, and while nobody repairs. -/
theorem settled_of_up (hInv : Inv w) (hLedger : Ledger config w) (hUp : w.state.sup.state = .connected) :
    consecutiveFailures w.trace = 0 ∧ repairing w.trace = false := by
  refine ⟨hInv.repair.counted.symm.trans (hLedger.balance.connected hUp).2.1, ?_⟩
  by_contra hBusy
  rcases (hInv.repair.held (by simpa using hBusy)).2 with hDown | ⟨-, hDown⟩
  · cases hDown.symm.trans hUp
  · exact hDown hUp

/-- A check of maintenance begins on a connection. -/
theorem lwp_check (generation : Nat) (hInv : Inv w) (hCalled : Called op task w.trace)
    (hJob : ∀ id, op = .job id → w.state.sup.state = .connected) :
    Lwp config op task (check config generation) (Leaves task w) w := by
  refine lwp_mark_seq rfl rfl (fun hLedger => ⟨?_, settled_of_up hInv hLedger⟩) fun hInv' hAudit => ?_
  · obtain ⟨call, hCall, hTask, hEvent⟩ := hCalled.entry
    exact ⟨call, hCall, hTask, op, hEvent, fun ⟨id, hOp⟩ => hJob id hOp⟩
  · refine Extension.wp_bind (Extension.wp_attempt (Extension.wp_mono (lwp_checkMaster hInv' rfl) ?_))
    rintro (error | verdict) v _ ⟨⟨-, hAuditV⟩, hKept⟩
    · exact lwp_mark_seq rfl rfl (fun _ => trivial) fun hInvU hAuditU =>
        Extension.wp_raise ⟨hInvU, (hAudit.trans hAuditV).trans hAuditU⟩
    · refine lwp_mark_seq rfl rfl (fun _ => ?_) fun hInvU hAuditU =>
        Extension.wp_pure ⟨hInvU, (hAudit.trans hAuditV).trans hAuditU⟩
      cases verdict with
      | degraded => exact hKept rfl
      | _ => trivial

theorem serves_check (generation : Nat) (hOp : ∀ id, op ≠ .job id) :
    Serves config op task (check config generation) :=
  fun _ hInv hCalled => lwp_check generation hInv hCalled fun id hJob => absurd hJob (hOp id)

end Check

section Serves

theorem serves_pure (value : α) : Serves config op task (.pure value : Py α) :=
  fun w hInv _ => Extension.wp_pure ⟨hInv, Audit.refl task w⟩

theorem serves_bind {code : Py α} {next : α → Py β} (h : Serves config op task code)
    (hNext : ∀ value, Serves config op task (next value)) : Serves config op task (code.bind next) := by
  intro w hInv hCalled
  refine Extension.wp_bind (Extension.wp_mono (h w hInv hCalled) ?_)
  rintro (error | value) v _ ⟨hInvV, hAudit⟩
  · exact ⟨hInvV, hAudit⟩
  · exact lwp_leaves (hNext value v hInvV (hCalled.stable hAudit)) hAudit

theorem serves_attempt {code : Py α} (h : Serves config op task code) :
    Serves config op task code.attempt :=
  fun w hInv hCalled => Extension.wp_attempt (h w hInv hCalled)

theorem serves_calm {code : Py α} {R : Raises gatewaySignature}
    (h : code.Calm (bookFrame config) op R False) : Serves config op task code :=
  fun _ hInv _ => Extension.wp_mono (Extension.wp_known hInv (lwp_calm h hInv)) fun _ _ _ hEnd =>
    ⟨hEnd.1, hEnd.2.toAudit⟩

/-- Maintenance checks the master that is connected, or seeks another. -/
theorem serves_maintainOnce : Serves config op task (maintainOnce config) := by
  intro w hInv hCalled
  have hActs : Lwp config op task (do
      let state ← Coro.get
      if state.sup.state = .connected then do
        let _ ← repairIfBroken config state.sup.generation
      else
        connect config false : Py Unit) (Leaves task w) w := by
    refine Extension.wp_get_bind (Extension.wp_ite (fun hUp => ?_) fun _ =>
      serves_connect (fun h => by cases h) (by rintro (h | h) <;> cases h) w hInv hCalled)
    refine Extension.wp_bind (Extension.wp_bind (Extension.wp_mono (lwp_check _ hInv hCalled fun _ _ => hUp) ?_))
    rintro (error | verdict) v _ hLeaves
    · exact hLeaves
    · exact Extension.wp_pure (Extension.wp_pure hLeaves)
  refine Extension.wp_tryCatch (Extension.wp_mono hActs ?_)
  rintro (error | value) v _ hLeaves
  · exact Extension.wp_ite (fun _ => Extension.wp_pure hLeaves) fun _ => Extension.wp_raise hLeaves
  · exact hLeaves

end Serves

end Pazuzu.Supervision
