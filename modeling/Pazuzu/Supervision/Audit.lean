import Pazuzu.Supervision.Findings

/-! The ledger over all interleavings: every action of the gateway keeps the
accounts balanced and has a warrant for what it enters. Under the repair lock
this is argued step by step; everything else leaves the accounts alone. -/
namespace Pazuzu.Supervision

open Asyncio

structure Ledger (config : Config) (w : GatewayWorld) : Prop where
  clock : ∀ entry ∈ w.trace, entry.state.os.clock ≤ w.state.os.clock
  balance : Balance w.state.sup w.trace
  warranted : ∀ entry rest, (entry :: rest) <:+ w.trace → Warranted config entry rest

/-- What a task relies on: time passes, and nobody else is called or counts a
probe in its place. -/
structure Audit (task : Nat) (before after : GatewayWorld) : Prop where
  history : before.trace <:+ after.trace
  clock : before.state.os.clock ≤ after.state.os.clock
  own : ∀ entry rest, Since before.trace after.trace entry rest → entry.task = task →
    entry.event.isSingle = false

theorem Audit.refl (task : Nat) (w : GatewayWorld) : Audit task w w :=
  ⟨List.suffix_rfl, le_rfl, fun _ _ h => absurd h since_self⟩

theorem Audit.trans {task : Nat} {first second third : GatewayWorld} (h : Audit task first second)
    (h' : Audit task second third) : Audit task first third where
  history := h.history.trans h'.history
  clock := h.clock.trans h'.clock
  own := by
    intro entry rest hSince
    rcases hSince.split h.history h'.history with hOld | hNew
    · exact h.own entry rest hOld
    · exact h'.own entry rest hNew

/-- So it is while others run, and while the task runs calm code: it makes no
mark of a check then. -/
structure Calmed (task : Nat) (before after : GatewayWorld) : Prop extends Audit task before after where
  silent : Silent task before.trace after.trace

theorem Calmed.refl (task : Nat) (w : GatewayWorld) : Calmed task w w :=
  ⟨Audit.refl task w, fun _ _ h => absurd h since_self⟩

theorem Silent.trans {task : Nat} {old mid new : History} (hOld : old <:+ mid) (hNew : mid <:+ new)
    (h : Silent task old mid) (h' : Silent task mid new) : Silent task old new := by
  intro entry rest hSince
  rcases hSince.split hOld hNew with hFirst | hSecond
  · exact h entry rest hFirst
  · exact h' entry rest hSecond

theorem Calmed.trans {task : Nat} {first second third : GatewayWorld} (h : Calmed task first second)
    (h' : Calmed task second third) : Calmed task first third :=
  ⟨h.toAudit.trans h'.toAudit, h.silent.trans h.history h'.history h'.silent⟩

/-- The ledger as a second discipline of the gateway. -/
def ledger (config : Config) : Extension (discipline config) where
  inv := Ledger config
  rely := Calmed
  waits := fun _ _ _ _ => True
  refl := Calmed.refl
  trans := fun _ _ _ _ => Calmed.trans
  stable := fun _ _ _ _ _ _ _ _ => trivial

variable {config : Config} {op : Op} {task : Nat} {α β : Type} {w : GatewayWorld}
  {event : Option Event} {state : State}

section Actions

theorem Ledger.act (h : Ledger config w) (hClock : w.state.os.clock ≤ state.os.clock)
    (hBalance : Balance state.sup (w.act task event state).trace)
    (hWarranted : ∀ e ∈ event, Warranted config ⟨task, e, state⟩ w.trace) :
    Ledger config (w.act task event state) where
  clock := by
    intro entry hEntry
    rw [World.act_state]
    cases event with
    | none => exact (h.clock entry hEntry).trans hClock
    | some e =>
        rcases List.mem_cons.mp hEntry with rfl | hOld
        · exact le_rfl
        · exact (h.clock entry hOld).trans hClock
  balance := by simpa using hBalance
  warranted := by
    intro entry rest hSuffix
    cases event with
    | none => exact h.warranted entry rest hSuffix
    | some e =>
        rcases List.suffix_cons_iff.mp hSuffix with hEq | hOld
        · obtain ⟨rfl, rfl⟩ := List.cons.inj hEq
          exact hWarranted e rfl
        · exact h.warranted entry rest hOld

theorem Audit.act {other : Nat} (hClock : w.state.os.clock ≤ state.os.clock)
    (hOwn : other ≠ task ∨ ∀ e ∈ event, e.isSingle = false) :
    Audit other w (w.act task event state) where
  history := suffix_act
  clock := by simpa using hClock
  own := by
    intro entry rest hSince hTask
    obtain ⟨e, hEvent, rfl, -⟩ := since_act hSince
    rcases hOwn with hOther | hOwn
    · exact absurd hTask.symm hOther
    · exact hOwn e hEvent

theorem Calmed.act {other : Nat} (hClock : w.state.os.clock ≤ state.os.clock)
    (hOwn : other ≠ task ∨ ∀ e ∈ event, e.isSingle = false ∧ e.isAsking = false) :
    Calmed other w (w.act task event state) := by
  refine ⟨Audit.act hClock (hOwn.imp_right fun h e he => (h e he).1), fun entry rest hSince hTask => ?_⟩
  obtain ⟨e, hEvent, rfl, -⟩ := since_act hSince
  rcases hOwn with hOther | hOwn
  · exact absurd hTask.symm hOther
  · exact (hOwn e hEvent).2

theorem ledger_act (h : Ledger config w) (hClock : w.state.os.clock ≤ state.os.clock)
    (hBalance : Balance state.sup (w.act task event state).trace)
    (hWarranted : ∀ e ∈ event, Warranted config ⟨task, e, state⟩ w.trace) :
    (ledger config).Act task w (w.act task event state) :=
  ⟨h.act hClock hBalance hWarranted, fun _ hOther => Calmed.act hClock (Or.inl hOther)⟩

theorem Balance.act_same {sup : Supervisor} (h : Balance w.state.sup w.trace)
    (hSame : SameBooks w.state.sup sup) (hEvent : ∀ e ∈ event, e.isEntered = false) :
    Balance sup (w.act task event state).trace := by
  cases event with
  | none => exact h.same hSame
  | some e => exact (h.same hSame).other (hEvent e rfl)

/-- Whatever leaves the accounts alone: any update of other fields, and entries
that need no warrant. -/
def bookFrame (config : Config) : Frame (gateway config) where
  step := fun before after => SameBooks before.sup after.sup ∧ after.os.clock = before.os.clock
  event := fun event => event.isEntered = false ∧ (event.isSingle = false ∧ event.isAsking = false) ∧
    ∀ entry rest, entry.event = event → Warranted config entry rest
  disturbs := fun op event => event.disturbs op

theorem warranted_incidental {event : Event} (h : event.isIncidental = true) (entry : Record)
    (hEntry : entry.event = event) (rest : History) : Warranted config entry rest := by
  obtain ⟨task, e, state⟩ := entry
  subst hEntry
  cases e <;> trivial

instance (config : Config) : Transparent (bookFrame config) where
  step := fun h => ⟨SameBooks.of_eq h.1, h.2⟩
  event := fun {event} h =>
    ⟨(by cases event <;> first | rfl | cases h),
      ⟨(by cases event <;> first | rfl | cases h), (by cases event <;> first | rfl | cases h)⟩,
      fun entry rest hEntry => warranted_incidental h entry hEntry rest⟩
  disturbs := id

theorem SameBooks.modify (sup : Supervisor) (id : Nat) {f : Job → Job} (h : ∀ job, (f job).kind = job.kind) :
    SameBooks sup { sup with jobs := sup.jobs.modify id f } :=
  ⟨rfl, rfl, rfl, rfl, rfl, rfl, rfl, rfl, kind_modify _ _ h⟩

/-- An answer leaves the accounts alone, and takes no time. -/
theorem books_deliver {wait : Wait} {reply : Except Error wait.Reply} {before after : State}
    (h : Host.deliver config op task wait reply before = some after) :
    SameBooks before.sup after.sup ∧ after.os.clock = before.os.clock := by
  have hSelf : ∀ s : State, SameBooks s.sup s.sup ∧ s.os.clock = s.os.clock := fun s =>
    ⟨SameBooks.of_eq rfl, rfl⟩
  cases reply with
  | ok value =>
      rcases Host.returns_cases h with rfl | ⟨argv, pid, os, -, hSpawn, rfl⟩
      · exact hSelf _
      · simp only [Os.spawn, Option.ite_none_right_eq_some, Option.some.injEq] at hSpawn
        rw [← hSpawn.2]
        exact hSelf _
  | error error =>
      simp only [Host.deliver] at h
      split at h
      · cases h
        exact hSelf _
      · split at h
        · obtain ⟨middle, hCancel, rfl⟩ := Option.map_eq_some_iff.mp h
          have hMiddle : SameBooks before.sup middle.sup ∧ middle.os.clock = before.os.clock := by
            cases op with
            | job id =>
                simp only [Host.cancel, Option.ite_none_right_eq_some, Option.some.injEq] at hCancel
                rw [← hCancel.2]
                exact ⟨SameBooks.modify _ _ fun _ => rfl, rfl⟩
            | _ =>
                cases hCancel
                exact hSelf _
          cases wait <;> exact hMiddle
        · cases h

theorem note_unentered (op : Op) (wait : Wait) (reply : Except Error wait.Reply) :
    ∀ e ∈ Host.note op wait reply, e.isEntered = false ∧ (e.isSingle = false ∧ e.isAsking = false) ∧
      ∀ entry rest, entry.event = e → Warranted config entry rest := by
  intro e he
  cases reply with
  | ok value => cases he
  | error error =>
      simp only [Host.note] at he
      split at he <;> cases he <;> exact ⟨rfl, ⟨rfl, rfl⟩, fun entry rest hEntry => by
        unfold Warranted
        rw [hEntry]
        trivial⟩

theorem bookFrame_suits : (bookFrame config).Suits (ledger config) where
  act := by
    intro task world event state _ hLedger hStep hEvent
    have hClock : world.state.os.clock ≤ state.os.clock := hStep.2.ge
    refine ⟨ledger_act hLedger hClock (hLedger.balance.act_same hStep.1 fun e he => (hEvent e he).1)
      fun e he => (hEvent e he).2.2 _ _ rfl, ?_⟩
    exact Calmed.act hClock (Or.inr fun e he => (hEvent e he).2.1)
  answers := by
    intro op task wait reply world state _ hLedger hDeliver
    have hStep := books_deliver hDeliver
    have hNote := @note_unentered config op wait reply
    refine ⟨ledger_act hLedger hStep.2.ge (hLedger.balance.act_same hStep.1 fun e he => (hNote e he).1)
      fun e he => (hNote e he).2.2 _ _ rfl, ?_⟩
    exact Calmed.act hStep.2.ge (Or.inr fun e he => (hNote e he).2.1)
  waits := fun _ _ _ _ _ => trivial

end Actions

section Rules

/-- Weakest preconditions under both disciplines, the first being taken for granted. -/
abbrev Lwp (config : Config) (op : Op) (task : Nat) (code : Py α)
    (post : Except Error α → GatewayWorld → Prop) (w : GatewayWorld) : Prop :=
  (ledger config).wp op task code post w

/-- Calm code has run on the task's behalf. -/
structure Waited (task : Nat) (before after : GatewayWorld) : Prop where
  inv : Inv after
  rely : Rely task before after
  calmed : Calmed task before after

theorem Waited.refl (task : Nat) {w : GatewayWorld} (hInv : Inv w) : Waited task w w :=
  ⟨hInv, Rely.refl task w, Calmed.refl task w⟩

theorem Waited.trans {first second third : GatewayWorld} (h : Waited task first second)
    (h' : Waited task second third) : Waited task first third :=
  ⟨h'.inv, h.rely.trans h'.rely, h.calmed.trans h'.calmed⟩

theorem Waited.audit {before after : GatewayWorld} (h : Waited task before after) : Audit task before after :=
  h.calmed.toAudit

variable {expected : Error → Prop} {post : Except Error β → GatewayWorld → Prop}

theorem lwp_calm {code : Py α} {R : Raises gatewaySignature} (h : code.Calm (bookFrame config) op R False)
    (hInv : Inv w) : Lwp config op task code (fun _ w' => Calmed task w w') w :=
  bookFrame_suits.wp h hInv

/-- Calm code under both disciplines. -/
theorem lwp_waited {code : Py α} {R R' : Raises gatewaySignature} (h : code.Calm (frame config) op R False)
    (h' : code.Calm (bookFrame config) op R' False) (hInv : Inv w) :
    Lwp config op task code (fun _ v => Waited task w v) w := by
  refine Extension.wp_mono (Extension.wp_and (frame_fits.wp h hInv) (lwp_calm h' hInv)) ?_
  rintro outcome v _ ⟨⟨hInvV, hRely, -⟩, hCalmed⟩
  exact ⟨hInvV, hRely, hCalmed⟩

/-- Code whose findings are known, and which leaves the accounts alone. -/
theorem lwp_finds_seq {code : Py α} {next : α → Py β} {found : α → History → Prop}
    (hFinds : Finds config op task code found w) (h : Quiet (bookFrame config) op expected False code)
    (hInv : Inv w)
    (hNext : ∀ value v, Waited task w v → found value v.trace → Lwp config op task (next value) post v)
    (hError : ∀ error v, Waited task w v → post (.error error) v) :
    Lwp config op task (code.bind next) post w := by
  refine Extension.wp_bind (Extension.wp_mono (Extension.wp_and hFinds (lwp_calm h hInv)) ?_)
  rintro (error | value) v _ ⟨⟨hInvV, hRely, hFound⟩, hCalmed⟩
  · exact hError error v ⟨hInvV, hRely, hCalmed⟩
  · exact hNext value v ⟨hInvV, hRely, hCalmed⟩ (hFound value rfl)

theorem lwp_quiet_seq {code : Py α} {next : α → Py β} (h : Quiet (frame config) op expected False code)
    (h' : Quiet (bookFrame config) op expected False code) (hInv : Inv w)
    (hNext : ∀ value v, Waited task w v → Lwp config op task (next value) post v)
    (hError : ∀ error v, Waited task w v → post (.error error) v) :
    Lwp config op task (code.bind next) post w := by
  have hFinds : Finds config op task code (fun _ _ => True) w := finds_quiet h hInv fun _ _ _ => trivial
  exact lwp_finds_seq hFinds h' hInv (fun value v hV _ => hNext value v hV) hError

/-- Code that only a disturbance can make fail. -/
theorem lwp_steady_seq {code : Py α} {next : α → Py β}
    (h : Quiet (frame config) op (fun _ => False) False code)
    (h' : Quiet (bookFrame config) op (fun _ => False) False code) (hInv : Inv w)
    (hNext : ∀ value v, Waited task w v → Lwp config op task (next value) post v)
    (hError : ∀ error v, Waited task w v → post (.error error) v) :
    Lwp config op task (code.bind next) post w :=
  lwp_quiet_seq h h' hInv hNext hError

/-- A step with what it does to the accounts and the warrant of its entry. -/
theorem lwp_act {event : Option Event} {f : State → State} {next : Py β}
    (hClock : (f w.state).os.clock = w.state.os.clock) (hSingle : ∀ e ∈ event, e.isSingle = false)
    (h : Ledger config w → Balance (f w.state).sup (w.act task event (f w.state)).trace ∧
      ∀ e ∈ event, Warranted config ⟨task, e, f w.state⟩ w.trace)
    (hNext : Inv (w.act task event (f w.state)) → Audit task w (w.act task event (f w.state)) →
      Lwp config op task next post (w.act task event (f w.state))) :
    Lwp config op task (.act event f next) post w := by
  refine Extension.wp_act fun hLedger hInv => ?_
  obtain ⟨hBalance, hWarranted⟩ := h hLedger
  exact ⟨ledger_act hLedger hClock.ge hBalance hWarranted,
    hNext hInv (Audit.act hClock.ge (Or.inr hSingle))⟩

theorem lwp_update_seq {f : State → State} {next : Unit → Py β}
    (hClock : (f w.state).os.clock = w.state.os.clock)
    (h : Ledger config w → Balance (f w.state).sup w.trace)
    (hNext : Inv (w.act task none (f w.state)) → Audit task w (w.act task none (f w.state)) →
      Lwp config op task (next ()) post (w.act task none (f w.state))) :
    Lwp config op task ((Coro.update f).bind next) post w :=
  lwp_act hClock (fun e he => by cases he) (fun hLedger => ⟨h hLedger, fun e he => by cases he⟩) hNext

theorem lwp_record_seq {event : Event} {f : State → State} {next : Unit → Py β}
    (hClock : (f w.state).os.clock = w.state.os.clock) (hSingle : event.isSingle = false)
    (h : Ledger config w → Balance (f w.state).sup (⟨task, event, f w.state⟩ :: w.trace) ∧
      Warranted config ⟨task, event, f w.state⟩ w.trace)
    (hNext : Inv (w.act task (some event) (f w.state)) →
      Audit task w (w.act task (some event) (f w.state)) →
      Lwp config op task (next ()) post (w.act task (some event) (f w.state))) :
    Lwp config op task ((Coro.record event f).bind next) post w :=
  lwp_act hClock (fun e he => by cases he; exact hSingle)
    (fun hLedger => ⟨(h hLedger).1, fun e he => by cases he; exact (h hLedger).2⟩) hNext

/-- An entry that is made once, of which the task relies on nothing. -/
theorem lwp_single {event : Event} {f : State → State} {next : Py β}
    (hClock : (f w.state).os.clock = w.state.os.clock)
    (h : Ledger config w → Balance (f w.state).sup (⟨task, event, f w.state⟩ :: w.trace) ∧
      Warranted config ⟨task, event, f w.state⟩ w.trace)
    (hNext : Inv (w.act task (some event) (f w.state)) →
      Lwp config op task next post (w.act task (some event) (f w.state))) :
    Lwp config op task (.act (some event) f next) post w := by
  refine Extension.wp_act fun hLedger hInv => ?_
  obtain ⟨hBalance, hWarranted⟩ := h hLedger
  exact ⟨ledger_act hLedger hClock.ge hBalance fun e he => (by cases he; exact hWarranted), hNext hInv⟩

theorem lwp_single_seq {event : Event} {next : Unit → Py β}
    (h : Ledger config w → Balance w.state.sup (⟨task, event, w.state⟩ :: w.trace) ∧
      Warranted config ⟨task, event, w.state⟩ w.trace)
    (hNext : Inv (w.act task (some event) w.state) →
      Lwp config op task (next ()) post (w.act task (some event) w.state)) :
    Lwp config op task ((Coro.mark event).bind next) post w :=
  lwp_single rfl h hNext

/-- A mark that changes no account, with its warrant. -/
theorem lwp_mark_seq {event : Event} {next : Unit → Py β} (hEvent : event.isEntered = false)
    (hSingle : event.isSingle = false)
    (hWarranted : Ledger config w → Warranted config ⟨task, event, w.state⟩ w.trace)
    (hNext : Inv (w.act task (some event) w.state) → Audit task w (w.act task (some event) w.state) →
      Lwp config op task (next ()) post (w.act task (some event) w.state)) :
    Lwp config op task ((Coro.mark event).bind next) post w :=
  lwp_act rfl (fun e he => by cases he; exact hSingle)
    (fun hLedger => ⟨hLedger.balance.other hEvent, fun e he => by cases he; exact hWarranted hLedger⟩) hNext

end Rules
end Pazuzu.Supervision
