import Pazuzu.Supervision.Ledger

/-! What the transport finds out, on record: the answers of control checks and
the outcomes of probe sessions stand behind what its functions return. -/
namespace Pazuzu.Supervision

open Asyncio Coro Transport

variable {config : Config} {op : Op} {task : Nat} {α β : Type} {w : GatewayWorld}

/-- Since an older history, the task has entered this event. -/
def Entered (task : Nat) (event : Event) (old new : History) : Prop :=
  ∃ entry rest, Since old new entry rest ∧ entry.task = task ∧ entry.event = event

theorem Entered.extend {event : Event} {old mid new : History} (h : Entered task event old mid)
    (hNew : mid <:+ new) : Entered task event old new := by
  obtain ⟨entry, rest, hSince, hEntry⟩ := h
  exact ⟨entry, rest, hSince.extend hNew, hEntry⟩

theorem Entered.mono {event : Event} {old mid new : History} (h : Entered task event mid new)
    (hOld : old <:+ mid) : Entered task event old new := by
  obtain ⟨entry, rest, hSince, hEntry⟩ := h
  exact ⟨entry, rest, hSince.mono hOld, hEntry⟩

theorem Entered.of_trace {event : Event} {state : State} {old new : History}
    (h : new = ⟨task, event, state⟩ :: old) : Entered task event old new := by
  subst h
  exact ⟨_, _, Since.head _ _, rfl, rfl⟩

/-- Since an older history, a probe of the task has ended so; a good one after
its session was opened. -/
def ProbeEnded (task : Nat) (result : ProbeOutcome) (old new : History) : Prop :=
  ∃ entry rest, Since old new entry rest ∧ entry.task = task ∧ entry.event = .probeEnded result ∧
    (result = .ok → Entered task .probeOpened old rest)

theorem ProbeEnded.extend {result : ProbeOutcome} {old mid new : History}
    (h : ProbeEnded task result old mid) (hNew : mid <:+ new) : ProbeEnded task result old new := by
  obtain ⟨entry, rest, hSince, hEntry⟩ := h
  exact ⟨entry, rest, hSince.extend hNew, hEntry⟩

theorem ProbeEnded.mono {result : ProbeOutcome} {old mid new : History}
    (h : ProbeEnded task result mid new) (hOld : old <:+ mid) : ProbeEnded task result old new := by
  obtain ⟨entry, rest, hSince, hTask, hEvent, hOpened⟩ := h
  exact ⟨entry, rest, hSince.mono hOld, hTask, hEvent, fun hOk => (hOpened hOk).mono hOld⟩

/-- Code that leaves the invariant and all that its task knew, and whose value,
if it returns one, the history explains. -/
def Finds (config : Config) (op : Op) (task : Nat) (code : Py α) (found : α → History → Prop)
    (w : GatewayWorld) : Prop :=
  Wp config op task code (fun outcome w' => Inv w' ∧ Rely task w w' ∧
    ∀ value, outcome = .ok value → found value w'.trace) w

theorem Finds.mono {code : Py α} {found found' : α → History → Prop}
    (h : Finds config op task code found w) (hFound : ∀ value new, found value new → found' value new) :
    Finds config op task code found' w :=
  Discipline.wp_mono h fun _ _ hEnd =>
    ⟨hEnd.1, hEnd.2.1, fun value hValue => hFound value _ (hEnd.2.2 value hValue)⟩

section Rules

variable {expected : Error → Prop} {found : α → History → Prop} {found' : β → History → Prop}

theorem finds_pure {value : α} (hInv : Inv w) (h : found value w.trace) :
    Finds config op task (.pure value) found w :=
  ⟨hInv, Rely.refl task w, fun _ hValue => by cases hValue; exact h⟩

theorem finds_raise {error : Error} (hInv : Inv w) :
    Finds config op task (Coro.raise error) found w :=
  ⟨hInv, Rely.refl task w, fun _ hValue => by cases hValue⟩

theorem finds_get {next : State → Py α} (h : Finds config op task (next w.state) found w) :
    Finds config op task (Coro.get.bind next) found w := h

theorem finds_ite {condition : Prop} [Decidable condition] {first second : Py α}
    (h : Finds config op task first found w) (h' : Finds config op task second found w) :
    Finds config op task (if condition then first else second) found w := by
  split
  · exact h
  · exact h'

theorem finds_quiet {code : Py α} (h : Quiet (frame config) op expected False code) (hInv : Inv w)
    (hFound : ∀ value new, w.trace <:+ new → found value new) :
    Finds config op task code found w :=
  wp_quiet h hInv (fun value _ hInv' hRely =>
      ⟨hInv', hRely, fun _ hValue => by cases hValue; exact hFound value _ hRely.grows.history⟩)
    fun _ _ hInv' hRely _ => ⟨hInv', hRely, fun _ hValue => by cases hValue⟩

/-- One after the other, with what the first has found. -/
theorem finds_seq {code : Py α} {next : α → Py β} (h : Finds config op task code found w)
    (hNext : ∀ value v, Inv v → w.trace <:+ v.trace → found value v.trace →
      Finds config op task (next value) found' v) :
    Finds config op task (code.bind next) found' w := by
  refine wp_seq (Discipline.wp_mono h ?_)
  rintro (error | value) v ⟨hInv, hRely, hFound⟩
  · exact ⟨hInv, hRely, fun _ hValue => by cases hValue⟩
  · refine Discipline.wp_mono (hNext value v hInv hRely.grows.history (hFound value rfl)) ?_
    rintro outcome w' ⟨hInv', hRely', hFound'⟩
    exact ⟨hInv', hRely.trans hRely', hFound'⟩

theorem finds_quiet_seq {code : Py α} {next : α → Py β}
    (h : Quiet (frame config) op expected False code) (hInv : Inv w)
    (hNext : ∀ value v, Inv v → w.trace <:+ v.trace → Finds config op task (next value) found' v) :
    Finds config op task (code.bind next) found' w := by
  have hCode : Finds config op task code (fun _ _ => True) w := finds_quiet h hInv fun _ _ _ => trivial
  exact finds_seq hCode fun value v hInvV hNew _ => hNext value v hInvV hNew

/-- What was there before code that only a disturbance can make fail is there
after it. -/
theorem finds_steady_seq {old : History} {code : Py α} {next : α → Py β}
    (h : Quiet (frame config) op (fun _ => False) False code) (hInv : Inv w) (hOld : old <:+ w.trace)
    (hNext : ∀ value v, Inv v → old <:+ v.trace → Finds config op task (next value) found' v) :
    Finds config op task (code.bind next) found' w :=
  finds_quiet_seq h hInv fun value v hInvV hNew => hNext value v hInvV (hOld.trans hNew)

theorem finds_mark {event : Event} {next : Unit → Py β} (hEvent : event.isBackground = true)
    (hInv : Inv w) (hNext : ∀ v, Inv v → v.trace = ⟨task, event, w.state⟩ :: w.trace →
      Finds config op task (next ()) found' v) :
    Finds config op task ((Coro.mark event).bind next) found' w := by
  obtain ⟨hAct, hSelf⟩ := (@frame_fits config).act task w (some event) w.state hInv rfl
    fun _ he => Option.mem_some_iff.mp he ▸ hEvent
  refine wp_mark_seq hAct (Discipline.wp_mono (hNext _ hAct.1 rfl) ?_)
  rintro outcome w' ⟨hInv', hRely', hFound⟩
  exact ⟨hInv', hSelf.trans hRely', hFound⟩

theorem finds_tryCatch {code : Py α} {handler : Error → Py α} (h : Finds config op task code found w)
    (hHandler : ∀ error v, Inv v → Finds config op task (handler error) found v) :
    Finds config op task (code.tryCatch handler) found w := by
  refine (Discipline.wp_tryCatch _ _).mpr (Discipline.wp_mono h ?_)
  rintro (error | value) v ⟨hInv, hRely, hFound⟩
  · refine Discipline.wp_mono (hHandler error v hInv) ?_
    rintro outcome w' ⟨hInv', hRely', hFound'⟩
    exact ⟨hInv', hRely.trans hRely', hFound'⟩
  · exact ⟨hInv, hRely, hFound⟩

theorem finds_catch_seq {code : Py α} {handler : Error → Py α} {next : α → Py β}
    (h : Finds config op task code found w)
    (hHandler : ∀ error v, Inv v → Finds config op task (handler error) found v)
    (hNext : ∀ value v, Inv v → w.trace <:+ v.trace → found value v.trace →
      Finds config op task (next value) found' v) :
    Finds config op task ((code.tryCatch handler).bind next) found' w :=
  finds_seq (finds_tryCatch h hHandler) hNext

theorem finds_tryFinally {code : Py α} {final : Py Unit} (h : Finds config op task code found w)
    (hFinal : Quiet (frame config) op expected False final)
    (hFound : ∀ value new newer, found value new → new <:+ newer → found value newer) :
    Finds config op task (code.tryFinally final) found w := by
  refine (Discipline.wp_tryFinally _ _).mpr (Discipline.wp_mono h ?_)
  rintro outcome v ⟨hInv, hRely, hOutcome⟩
  exact wp_quiet hFinal hInv (fun _ w' hInv' hRely' => ⟨hInv', hRely.trans hRely', fun value hValue =>
      hFound value _ _ (hOutcome value hValue) hRely'.grows.history⟩)
    fun error w' hInv' hRely' _ => ⟨hInv', hRely.trans hRely', fun _ hValue => by cases hValue⟩

end Rules

section Checks

/-- A control check's answer is on record. -/
theorem finds_controlCheck (hInv : Inv w) :
    Finds config op task (controlCheck config)
      (fun up new => Entered task (.controlChecked up) w.trace new) w := by
  have hTell : ∀ (up : Bool) (v : GatewayWorld), Inv v → w.trace <:+ v.trace →
      Finds config op task ((Coro.mark (Event.controlChecked up)).bind fun _ => (.pure up : Py Bool))
        (fun up new => Entered task (.controlChecked up) w.trace new) v := fun up v hInvV hOld =>
    finds_mark rfl hInvV fun u hInvU hTrace => finds_pure hInvU ((Entered.of_trace hTrace).mono hOld)
  refine finds_steady_seq (quiet_fileOp _ (by simp)) hInv List.suffix_rfl fun _ v hInvV hOld => ?_
  refine finds_get (finds_ite (hTell false v hInvV hOld) ?_)
  exact finds_steady_seq (quiet_controlCommand _) hInvV hOld fun _ u hInvU hOldU => hTell _ u hInvU hOldU

/-- A probe session that comes to a good end has been opened. -/
theorem finds_probeSession (hInv : Inv w) :
    Finds config op task (probeSession config)
      (fun result new => result = .ok → Entered task .probeOpened w.trace new) w := by
  have hProcess : Finds config op task
      (runProcess (sessionArgv config "true") [] config.settings.probeTimeout
        config.settings.maxOutputBytes (Coro.mark .probeOpened))
      (fun _ new => Entered task .probeOpened w.trace new) w := by
    refine finds_quiet_seq (quiet_launch _) hInv fun _ v hInvV hOld => ?_
    refine finds_mark rfl hInvV fun u hInvU hTrace => finds_get ?_
    exact finds_quiet (quiet_process _ _ _ _) hInvU fun _ _ hNew =>
      ((Entered.of_trace hTrace).mono hOld).extend hNew
  have hSession : Finds config op task
      (session config "true" [] config.settings.probeTimeout (Coro.mark .probeOpened))
      (fun _ new => Entered task .probeOpened w.trace new) w :=
    finds_tryCatch hProcess fun error v hInvV => by cases error <;> exact finds_raise hInvV
  refine finds_tryCatch (finds_seq hSession fun result v hInvV _ hOpened =>
    finds_pure hInvV fun _ => hOpened) fun error v hInvV => ?_
  cases error <;> first
    | exact finds_pure hInvV fun h => by cases h
    | exact finds_raise hInvV

theorem finds_probe (hInv : Inv w) :
    Finds config op task (probe config) (fun result new => ProbeEnded task result w.trace new) w := by
  have hTell : ∀ (result : ProbeOutcome) (v : GatewayWorld), Inv v → w.trace <:+ v.trace →
      (result = .ok → Entered task .probeOpened w.trace v.trace) →
      Finds config op task ((Coro.mark (Event.probeEnded result)).bind fun _ => (.pure result : Py ProbeOutcome))
        (fun result new => ProbeEnded task result w.trace new) v := by
    intro result v hInvV hOld hOpened
    refine finds_mark rfl hInvV fun u hInvU hTrace => finds_pure hInvU ?_
    rw [hTrace]
    exact ⟨_, _, ⟨List.suffix_rfl, hOld⟩, rfl, rfl, hOpened⟩
  refine finds_steady_seq (quiet_acquireAsync _ _ _).attempted hInv List.suffix_rfl
    fun lease v hInvV hOld => ?_
  cases lease with
  | error error =>
      cases error <;> first
        | exact hTell .slow v hInvV hOld fun h => by cases h
        | exact finds_raise hInvV
  | ok lease =>
      have hRelease : Quiet (frame config) op (fun _ => False) False lease.release :=
        quiet_releaseLease lease
      have hHeld : Finds config op task ((probeSession config).tryFinally lease.release)
          (fun result new => result = .ok → Entered task .probeOpened v.trace new) v :=
        finds_tryFinally (finds_probeSession hInvV) hRelease fun _ _ _ hOpened hNew hOk =>
          (hOpened hOk).extend hNew
      exact finds_seq hHeld fun result u hInvU hOldU hOpened =>
        hTell result u hInvU (hOld.trans hOldU) fun hOk => (hOpened hOk).mono hOld

theorem finds_probeRounds (outcome : ProbeOutcome) (rounds : Nat) (hInv : Inv w) :
    Finds config op task (probeRounds config outcome rounds) (fun result new =>
      (rounds = 0 ∧ result = outcome) ∨ ProbeEnded task result w.trace new) w := by
  induction rounds generalizing outcome w with
  | zero => exact finds_pure hInv (Or.inl ⟨rfl, rfl⟩)
  | succ rounds ih =>
      refine finds_quiet_seq quiet_raiseIfMasterExited hInv fun _ v hInvV hOld => ?_
      refine finds_seq (finds_probe hInvV) fun next u hInvU hOldU hEnded => finds_ite ?_ ?_
      · refine Discipline.wp_mono (ih next hInvU) ?_
        rintro result w' ⟨hInv', hRely, hFound⟩
        refine ⟨hInv', hRely, fun value hValue => Or.inr ?_⟩
        rcases hFound value hValue with ⟨-, rfl⟩ | hLater
        · exact (hEnded.mono hOld).extend hRely.grows.history
        · exact hLater.mono (hOld.trans hOldU)
      · exact finds_pure hInvU (Or.inr (hEnded.mono hOld))

/-- A surviving master is adopted after a good probe. If none is, it did not
answer, a probe said otherwise, or none was to be made. -/
theorem finds_adoptExisting (hInv : Inv w) :
    Finds config op task (adoptExisting config) (fun adopted new =>
      (adopted = true → ProbeEnded task .ok w.trace new) ∧
      (adopted = false → Entered task (.controlChecked false) w.trace new ∨
        (∃ result, result ≠ .ok ∧ ProbeEnded task result w.trace new) ∨
        config.settings.probeFailures = 0)) w := by
  refine finds_seq (finds_controlCheck hInv) fun up v hInvV hOld hChecked => ?_
  cases up with
  | false => exact finds_pure hInvV ⟨fun h => (by cases h), fun _ => Or.inl hChecked⟩
  | true =>
      refine finds_seq (finds_probeRounds _ _ hInvV) fun result u hInvU _ hResult =>
        finds_pure hInvU ⟨fun hAdopted => ?_, fun hAdopted => Or.inr ?_⟩
      · obtain rfl : result = .ok := by simpa using hAdopted
        rcases hResult with ⟨-, hBad⟩ | hEnded
        · cases hBad
        · exact hEnded.mono hOld
      · have hBad : result ≠ .ok := by simpa using hAdopted
        rcases hResult with ⟨hNone, -⟩ | hEnded
        · exact Or.inr hNone
        · exact Or.inl ⟨result, hBad, hEnded.mono hOld⟩

/-- What follows a failed start returns no master. -/
theorem finds_undo {found : α → History → Prop} (error : Error) (hInv : Inv w) :
    Finds config op task (stopOwnedMaster.bind fun _ => releaseMasterState.bind fun _ =>
      (Coro.raise error : Py α)) found w :=
  finds_steady_seq quiet_stopOwnedMaster hInv List.suffix_rfl fun _ _ hInvV _ =>
    finds_steady_seq quiet_releaseMasterState hInvV List.suffix_rfl fun _ _ hInvU _ => finds_raise hInvU

theorem finds_waitUntilReady (hInv : Inv w) :
    Finds config op task (waitUntilReady config) (fun _ new => ProbeEnded task .ok w.trace new) w := by
  refine finds_get (finds_quiet_seq (quiet_awaitControl _ _) hInv fun _ v hInvV hOld =>
    finds_seq (finds_probeRounds _ _ hInvV) fun result u hInvU _ hResult => finds_get ?_)
  cases result with
  | ok =>
      rcases hResult with ⟨-, hBad⟩ | hEnded
      · cases hBad
      · exact finds_pure hInvU (hEnded.mono hOld)
  | _ => exact finds_raise hInvU

/-- A master that has been started has opened a session. -/
theorem finds_startMaster (hInv : Inv w) :
    Finds config op task (startMaster config) (fun _ new => ProbeEnded task .ok w.trace new) w := by
  have hMark : ∀ v : GatewayWorld, v.trace = ⟨task, .startMasterCalled, w.state⟩ :: w.trace →
      w.trace <:+ v.trace := fun v hTrace => hTrace ▸ List.suffix_cons _ _
  refine finds_mark rfl hInv fun v hInvV hTrace =>
    finds_steady_seq (quiet_fileOp _ (by simp)) hInvV (hMark v hTrace) fun _ _ hInv hOld =>
    finds_steady_seq (quiet_fileOp _ (by simp)) hInv hOld fun _ _ hInv hOld =>
    finds_steady_seq (quiet_update fun _ => ⟨rfl, rfl⟩) hInv hOld fun _ _ hInv hOld =>
    finds_steady_seq (quiet_update fun _ => ⟨rfl, rfl⟩) hInv hOld fun _ _ hInv hOld =>
    finds_steady_seq (quiet_fileOp _ (by simp)) hInv hOld fun _ _ hInv hOld =>
    finds_steady_seq (quiet_update fun _ => ⟨rfl, rfl⟩) hInv hOld fun _ v hInvV hOld => ?_
  refine finds_catch_seq (finds_quiet (quiet_spawnMaster _) hInvV fun _ _ hNew => hOld.trans hNew)
    (fun error u hInvU => ?_) fun pid u hInvU _ hOldU =>
      finds_steady_seq (quiet_update fun _ => ⟨rfl, rfl⟩) hInvU hOldU fun _ v hInvV hOld => ?_
  · cases error <;> first
      | exact finds_raise hInvU
      | exact finds_steady_seq quiet_releaseMasterState hInvU List.suffix_rfl fun _ _ h _ => finds_raise h
  refine finds_catch_seq (finds_quiet (quiet_writeMasterOwner pid) hInvV fun _ _ hNew => hOld.trans hNew)
    (fun error u hInvU => ?_) fun _ u hInvU _ hOldU =>
      finds_tryCatch ((finds_waitUntilReady hInvU).mono fun _ _ hEnded => hEnded.mono hOldU)
        fun error _ h => finds_undo error h
  cases error <;> first
    | exact finds_raise hInvU
    | exact finds_undo _ hInvU

end Checks
end Pazuzu.Supervision
