import Pazuzu.Supervision.Calls

/-! The calls that run nothing for a client: attachments, health, reconnects,
maintenance, and the end of the gateway. Their story is free, so only the
invariant has to be carried through them. -/
namespace Pazuzu.Supervision

open Asyncio Supervisor

variable {config : Config} {op : Op} {task : Nat} {α β : Type}

/-- A call that runs nothing for a client is under way. -/
structure Idles (task : Nat) (start w : GatewayWorld) : Prop where
  inv : Inv w
  grows : Grows start w
  born : task < w.started
  plain : Plain task w

section Rules

variable {start w : GatewayWorld}

theorem Idles.ran {w' : GatewayWorld} (h : Idles task start w) (hRan : Ran task w w') :
    Idles task start w' where
  inv := hRan.inv
  grows := h.grows.trans hRan.grows
  born := h.born.trans_le hRan.grows.started
  plain := by
    intro called hCalled
    rw [hRan.story] at hCalled
    exact h.plain called hCalled

theorem Idles.rely {w' : GatewayWorld} (h : Idles task start w) (hInv : Inv w')
    (hRely : Rely task w w') : Idles task start w' :=
  h.ran (Ran.of_rely hInv hRely)

theorem Idles.told {event : Event} {w' : GatewayWorld} (h : Idles task start w)
    (hTold : Told task event w w') (hEvent : ∀ other, event ≠ .called other) :
    Idles task start w' where
  inv := hTold.inv
  grows := h.grows.trans hTold.grows
  born := h.born.trans_le hTold.grows.started
  plain := by
    intro called hCalled
    rw [hTold.story] at hCalled
    rcases List.mem_cons.mp hCalled with hEq | hOld
    · exact absurd hEq.symm (hEvent called)
    · exact h.plain called hOld

/-- What every such call does, whatever comes of it. -/
abbrev Stays (config : Config) (op : Op) (task : Nat) (start : GatewayWorld) (code : Py α)
    (w : GatewayWorld) : Prop :=
  Wp config op task code (fun _ w' => Idles task start w') w

theorem stays_quiet {code : Py α} (h : Quiet (frame config) op (fun _ => True) False code)
    (hIdles : Idles task start w) : Stays config op task start code w :=
  wp_quiet h hIdles.inv (fun _ _ hInv hRely => hIdles.rely hInv hRely)
    fun _ _ hInv hRely _ => hIdles.rely hInv hRely

theorem stays_seq {code : Py α} {next : α → Py β}
    (h : Wp config op task code (fun outcome w' => match outcome with
      | .ok value => Stays config op task start (next value) w'
      | .error _ => Idles task start w') w) :
    Stays config op task start (code.bind next) w :=
  wp_seq (Discipline.wp_mono h fun outcome _ hPost => by cases outcome <;> exact hPost)

theorem stays_then {code : Py α} {next : α → Py β} (h : Stays config op task start code w)
    (hNext : ∀ value w', Idles task start w' → Stays config op task start (next value) w') :
    Stays config op task start (code.bind next) w :=
  stays_seq (Discipline.wp_mono h fun outcome w' hIdles => by
    cases outcome with
    | ok value => exact hNext value w' hIdles
    | error error => exact hIdles)

theorem stays_tryCatch {code : Py α} {handler : Error → Py α}
    (h : Stays config op task start code w)
    (hHandler : ∀ error w', Idles task start w' → Stays config op task start (handler error) w') :
    Stays config op task start (code.tryCatch handler) w :=
  (Discipline.wp_tryCatch _ _).mpr (Discipline.wp_mono h fun outcome w' hIdles => by
    cases outcome with
    | ok value => exact hIdles
    | error error => exact hHandler error w' hIdles)

theorem stays_tryFinally {code : Py α} {final : Py Unit} (h : Stays config op task start code w)
    (hFinal : ∀ w', Idles task start w' → Stays config op task start final w') :
    Stays config op task start (code.tryFinally final) w :=
  (Discipline.wp_tryFinally _ _).mpr (Discipline.wp_mono h fun _ w' hIdles =>
    Discipline.wp_mono (hFinal w' hIdles) fun outcome _ hPost => by cases outcome <;> exact hPost)

/-- A wait, answered in whatever way. -/
theorem stays_wait (wait : Wait) (hIdles : Idles task start w) :
    Stays config op task start (Pazuzu.wait wait) w := by
  refine (Discipline.wp_suspend (G := gatewaySignature) (P := gateway config) _ _).mpr ?_
  intro later reply state hLater hWait hDeliver
  obtain ⟨hAnswer, hSelf⟩ := answers op task wait reply later state hLater hDeliver
  exact hIdles.rely hAnswer.1 (hWait.trans hSelf)

/-- An update that the discipline permits and that leaves the call's story. -/
theorem stays_update {f : State → State} (hIdles : Idles task start w)
    (hAct : (discipline config).Act task w (w.act task none (f w.state)) ∧
      ∀ other, Rely other w (w.act task none (f w.state))) :
    Stays config op task start (Coro.update f) w :=
  ⟨hAct.1, hIdles.rely hAct.1.1 (hAct.2 task)⟩

theorem stays_connect (force respectBackoff : Bool) (hIdles : Idles task start w) :
    Stays config op task start (connect config force respectBackoff) w :=
  wp_connect hIdles.inv force respectBackoff (fun _ hRan _ => hIdles.ran hRan)
    fun _ _ hRan => hIdles.ran hRan

theorem stays_check {generation : Nat} (hIdles : Idles task start w) (hLow : 1 ≤ generation)
    (hHigh : generation ≤ (core w.state).generation) :
    Stays config op task start (check config generation) w :=
  wp_check hIdles.inv hLow hHigh (hIdles.plain.checkable hIdles.born generation)
    (fun _ _ hTold _ => hIdles.told hTold (by simp)) (fun _ _ hTold => hIdles.told hTold (by simp))
    fun _ _ hTold _ => hIdles.told hTold (by simp)

/-- A check of the current generation, which has been connected. -/
theorem stays_repairIfBroken (hIdles : Idles task start w) (hLow : 1 ≤ (core w.state).generation) :
    Stays config op task start (repairIfBroken config w.state.sup.generation) w :=
  stays_then (stays_check hIdles hLow le_rfl) fun _ _ h => h

end Rules

section Calls

variable {start w : GatewayWorld}

theorem stays_connectionAttachment (hIdles : Idles task start w) :
    Stays config op task start (connectionAttachment config) w := by
  refine stays_seq (wp_ensureConnected hIdles.inv true (fun v hRan hPositive => ?_)
    fun error v hRan => hIdles.ran hRan)
  refine wp_get_seq (stays_then (stays_repairIfBroken (hIdles.ran hRan) hPositive)
    fun _ u hIdles' => wp_get_seq ?_)
  exact (Discipline.wp_ofExcept _).mpr hIdles'

theorem stays_probedHealth (hIdles : Idles task start w) (hLow : 1 ≤ (core w.state).generation) :
    Stays config op task start (probedHealth config) w := by
  refine wp_get_seq (stays_then (stays_tryCatch (stays_then (stays_repairIfBroken hIdles hLow)
    fun _ _ h => h) fun error v hIdles' => ?_) fun _ _ h => h)
  cases error <;> exact hIdles'

theorem stays_health (probe : Bool) (hIdles : Idles task start w) :
    Stays config op task start (health config probe) w := by
  refine wp_get_seq ((Discipline.wp_ite _ _ _).mpr ⟨fun hProbe => ?_, fun _ => hIdles⟩)
  exact stays_then (stays_probedHealth hIdles (hIdles.inv.repair.connected hProbe.2)) fun _ _ h => h

theorem stays_same {f : State → State} (hIdles : Idles task start w)
    (h : ∀ state, core (f state) = core state) : Stays config op task start (Coro.update f) w :=
  stays_quiet (Coro.Calm.update h) hIdles

theorem stays_reconnect (force : Bool) (hIdles : Idles task start w) :
    Stays config op task start (reconnect config force) w := by
  refine stays_then (stays_same hIdles fun _ => rfl) fun _ v hV => ?_
  refine stays_then (stays_tryFinally ?_ fun u hU => stays_same hU fun _ => rfl)
    fun _ u hU => stays_health false hU
  refine (Discipline.wp_ite _ _ _).mpr ⟨fun _ => stays_connect true true hV, fun _ => ?_⟩
  exact stays_seq (wp_ensureConnected hV.inv false (fun u hRan hPositive =>
      stays_then (stays_check (hV.ran hRan) hPositive le_rfl) fun _ _ h => h)
    fun error u hRan => hV.ran hRan)

end Calls

section Maintenance

variable {start w : GatewayWorld}

theorem stays_waitForWake (timeout : ℚ) (hIdles : Idles task start w) :
    Stays config op task start (waitForWake timeout) w := by
  refine wp_get_seq ((Discipline.wp_ite _ _ _).mpr ⟨fun _ => ?_, fun _ => ?_⟩)
  · exact stays_then (stays_same hIdles fun _ => rfl) fun _ _ h => h
  · refine stays_tryCatch (stays_then (stays_wait _ hIdles) fun _ v hV =>
      stays_then (stays_same hV fun _ => rfl) fun _ _ h => h) fun error v hV => ?_
    cases error <;> exact hV

theorem stays_maintainOnce (hIdles : Idles task start w) :
    Stays config op task start (maintainOnce config) w := by
  refine stays_tryCatch (wp_get_seq ((Discipline.wp_ite _ _ _).mpr ⟨fun hUp => ?_, fun _ =>
    stays_connect false true hIdles⟩)) fun error v hV => ?_
  · exact stays_then (stays_repairIfBroken hIdles (hIdles.inv.repair.connected hUp)) fun _ _ h => h
  · exact (Discipline.wp_ite _ _ _).mpr ⟨fun _ => hV, fun _ => hV⟩

theorem stays_maintain (rounds : Nat) (hIdles : Idles task start w) :
    Stays config op task start (maintain config rounds) w := by
  induction rounds generalizing w with
  | zero => exact stays_quiet quiet_never hIdles
  | succ rounds ih =>
      refine wp_get_seq ((Discipline.wp_ite _ _ _).mpr ⟨fun _ => hIdles, fun _ =>
        (Discipline.wp_ite _ _ _).mpr ⟨fun _ => ?_, fun _ => ?_⟩⟩)
      · exact stays_then (stays_wait _ hIdles) fun _ v hV =>
          stays_then (stays_same hV fun _ => rfl) fun _ _ h => ih h
      · refine stays_then (stays_quiet (Coro.Calm.mark (fun _ => rfl) rfl) hIdles) fun _ u hU =>
          stays_then (stays_waitForWake _ hU) fun woken v hV =>
          (Discipline.wp_ite _ _ _).mpr ⟨fun _ => ih hV, fun _ => ?_⟩
        exact stays_then (stays_quiet (Coro.Calm.mark (fun _ => rfl) rfl) hV) fun _ _ h =>
          stays_then (stays_maintainOnce h) fun _ _ h => ih h

theorem stays_start (hIdles : Idles task start w) :
    Stays config op task start (Supervisor.start config) w := by
  refine wp_get_seq ((Discipline.wp_when _ _ _).mpr ⟨fun _ => ?_, fun _ => hIdles⟩)
  refine stays_then (stays_quiet ?_ hIdles) fun _ v hV => stays_update hV ?_
  · exact Coro.Calm.bind (quiet_fileOp _ (by simp)) fun _ => quiet_update fun _ => ⟨rfl, rfl⟩
  · exact act_createJob config task hV.inv .maintain (core_createJob v.state .maintain) (Or.inl rfl)

/-- Cancelling a task marks it and nothing else. -/
theorem core_cancelJob (state : State) (id : Nat) :
    core (state.cancelJob id) =
      { core state with cancelling := (core (state.cancelJob id)).cancelling } := by
  simp only [core, State.cancelJob, jobs_modify_cancelling]

theorem stays_reap (id : Option Nat) (hIdles : Idles task start w)
    (hClosed : (core w.state).closed = true) :
    Wp config op task (reap id)
      (fun _ w' => Idles task start w' ∧ (core w'.state).closed = true) w := by
  cases id with
  | none => exact ⟨hIdles, hClosed⟩
  | some id =>
      obtain ⟨hAct, hRely⟩ := act_cancelling config task none hIdles.inv
        (core_cancelJob w.state id) hClosed (by simp)
      have hStays : Stays config op task _ _ _ := stays_wait (.settled id)
        ⟨hAct.1, Grows.refl _, hIdles.born, hIdles.plain⟩
      refine wp_update_seq hAct ((Discipline.wp_tryCatch _ _).mpr (Discipline.wp_mono hStays ?_))
      have hBoth : ∀ v, Idles task (w.act task none (w.state.cancelJob id)) v →
          Idles task start v ∧ (core v.state).closed = true := fun v hV =>
        ⟨⟨hV.inv, hIdles.grows.trans ((hRely task).grows.trans hV.grows), hV.born, hV.plain⟩,
          hV.grows.progress.closed ((hRely task).grows.progress.closed hClosed)⟩
      rintro (error | value) v hV
      · cases error <;> exact hBoth v hV
      · exact hBoth v hV

end Maintenance

section Shutdown

variable {start w : GatewayWorld}

/-- Whoever stops the maintenance has been told to close or to detach. -/
def Ordered (w : GatewayWorld) : Prop :=
  ∃ entry ∈ w.trace, entry.event = .called .close ∨ entry.event = .called .detach

theorem core_shutdown (state : State) :
    core { state with sup := { state.sup with
      closed := true, wake := true, maintainer := none, probeFlight := none } } =
      { core state with closed := true, flight := none } := rfl

theorem stays_stopMaintenance (hIdles : Idles task start w) (hOrdered : Ordered w) :
    Wp config op task stopMaintenance (fun _ w' => Idles task start w' ∧
      (core w'.state).closed = true) w := by
  obtain ⟨hAct, hRely⟩ := act_shutdown config task hIdles.inv (core_shutdown w.state) hOrdered
  refine wp_get_seq (wp_update_seq hAct (wp_seq (Discipline.wp_mono
    (stays_reap _ (hIdles.rely hAct.1 (hRely task)) rfl) ?_)))
  rintro (error | value) v ⟨hV, hClosed⟩
  · exact ⟨hV, hClosed⟩
  · exact stays_reap _ hV hClosed

theorem stays_close (hIdles : Idles task start w) (hOrdered : Ordered w) :
    Stays config op task start (close config) w := by
  refine stays_seq (Discipline.wp_mono (stays_stopMaintenance hIdles hOrdered) ?_)
  rintro (error | value) v ⟨hV, hClosed⟩
  · exact hV
  refine wp_withLock hV.inv (fun u hInvU hRely hHolder hIdle => ?_) fun w' hInv' hRely _ =>
    hV.rely hInv' hRely
  have hRanU := Ran.of_rely hInvU hRely
  have hSelf := Locked.refl hInvU hHolder
  refine wp_steady_seq (quiet_stopMaster rfl) hInvU (fun _ u' hInvU' hRely' => ?_)
    fun error u' hInvU' hRely' _ _ => ?_
  · have hClosed' := hRely'.grows.progress.closed (hRely.grows.progress.closed hClosed)
    have hHolder' := (hRely'.held hHolder).holder
    have hAct := act_setState config task hInvU' hClosed' (Or.inr ⟨rfl, hHolder'⟩)
    refine ⟨hAct, hAct.1, hHolder', (hSelf.repairing hRely').trans hIdle, fun w' hInv' hReleased => ?_⟩
    have hRan : Ran task u' (u'.act task none (u'.state.setState .stopped)) :=
      ⟨hAct.1, grows_setState (by simp), rfl⟩
    exact hV.ran (hRanU.trans ((Ran.of_rely hInvU' hRely').trans
      (hRan.trans ⟨hInv', hReleased.grows, by rw [hReleased.trace]⟩)))
  · refine ⟨hInvU', (hRely'.held hHolder).holder, (hSelf.repairing hRely').trans hIdle,
      fun w' hInv' hReleased => ?_⟩
    exact hV.ran (hRanU.trans ((hSelf.rely hInvU' hRely').released hInv' hReleased))

theorem stays_detach (hIdles : Idles task start w) (hOrdered : Ordered w) :
    Stays config op task start Supervisor.detach w := by
  refine stays_seq (Discipline.wp_mono (stays_stopMaintenance hIdles hOrdered) ?_)
  rintro (error | value) v ⟨hV, hClosed⟩
  · exact hV
  obtain ⟨hLeft, hSame⟩ := act_untouched config task none
    { v.state with transport := { v.state.transport with masterLogOpen := false } } hV.inv rfl (by simp)
  have hAct := act_setState config task hLeft.1 (by rw [hSame.core]; exact hClosed)
    (Or.inl rfl)
  refine wp_update_seq hLeft ⟨hAct, ?_⟩
  exact (hV.rely hLeft.1 hSame.rely).ran ⟨hAct.1, grows_setState (by simp), rfl⟩

end Shutdown
end Pazuzu.Supervision
