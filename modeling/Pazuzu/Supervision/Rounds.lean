import Pazuzu.Asyncio.Leaving
import Pazuzu.Supervision.Acting
import Pazuzu.Supervision.Runs

/-! The rounds of maintenance: it looks at the connection, waits, and then may
repair. A failure that it records itself ends neither a round nor the task. -/
namespace Pazuzu

namespace Event

def isCall : Event → Bool
  | .called _ => true
  | _ => false

/-- Whether maintenance has looked at the connection here, and goes on to wait. -/
def isLook : Event → Bool
  | .maintenanceWaits => true
  | _ => false

/-- The entries that a round of maintenance turns on. -/
def isRound : Event → Bool
  | .maintenanceWaits | .repairBegan | .failureRecorded | .returned _ | .raised _ => true
  | _ => false

end Event

namespace Supervision

open Asyncio Supervisor

section Calls

/-- The call that the task was created for. -/
def firstCall (task : Nat) (history : History) : Option Record :=
  history.reverse.find? fun entry => entry.task = task ∧ entry.event.isCall

variable {task : Nat} {entry : Record} {history : History}

theorem firstCall_cons (entry : Record) (history : History) : firstCall task (entry :: history) =
    (firstCall task history).or (if entry.task = task ∧ entry.event.isCall then some entry else none) := by
  unfold firstCall
  rw [List.reverse_cons, List.find?_append]
  simp only [List.find?_singleton, decide_eq_true_eq]

theorem firstCall_other (h : entry.task ≠ task) : firstCall task (entry :: history) = firstCall task history := by
  rw [firstCall_cons, if_neg fun hOwn => h hOwn.1, Option.or_none]

theorem firstCall_kept {call : Record} (h : firstCall task history = some call) :
    firstCall task (entry :: history) = some call := by
  rw [firstCall_cons, h, Option.some_or]

theorem mem_of_firstCall {call : Record} (h : firstCall task history = some call) :
    call ∈ history ∧ call.task = task ∧ ∃ op, call.event = .called op := by
  have hOwn : call.task = task ∧ call.event.isCall = true := by simpa using List.find?_some h
  refine ⟨List.mem_reverse.mp (List.mem_of_find?_eq_some h), hOwn.1, ?_⟩
  obtain ⟨owner, event, state⟩ := call
  cases event with
  | called op => exact ⟨op, rfl⟩
  | _ => cases hOwn.2

/-- A task that has told nothing yet has not been called. -/
theorem firstCall_fresh (h : ∀ entry ∈ history, entry.task = task → entry.event.isStory = false) :
    firstCall task history = none := by
  refine List.find?_eq_none.mpr fun entry hEntry => ?_
  rw [decide_eq_true_eq]
  rintro ⟨hTask, hCall⟩
  have hNot := h entry (List.mem_reverse.mp hEntry) hTask
  obtain ⟨owner, event, state⟩ := entry
  cases event with
  | called op => cases hNot
  | _ => cases hCall

/-- Whether a task that was created for maintenance is called here. -/
def callsMaintenance (entry : Record) : Bool :=
  match entry.event with
  | .called (.job id) => (entry.state.sup.jobs[id]?).map Job.kind = some .maintain
  | _ => false

/-- The task was created for maintenance. -/
def Maintains (task : Nat) (history : History) : Prop :=
  ∃ entry ∈ history, entry.task = task ∧ callsMaintenance entry = true

instance (task : Nat) (history : History) : Decidable (Maintains task history) :=
  inferInstanceAs (Decidable (∃ entry ∈ history, entry.task = task ∧ callsMaintenance entry = true))

theorem called_of_callsMaintenance {entry : Record} (h : callsMaintenance entry = true) :
    ∃ id, entry.event = .called (.job id) := by
  unfold callsMaintenance at h
  split at h
  · next id hCalled => exact ⟨id, hCalled⟩
  · cases h

end Calls

section Looks

/-- The task's last look at the connection. -/
def lastLook (task : Nat) (history : History) : Option Record :=
  history.find? fun entry => entry.task = task ∧ entry.event.isLook

/-- What has happened since the task's last look, and before. -/
def sinceLook (task : Nat) (history : History) : History :=
  history.takeWhile fun entry => ¬(entry.task = task ∧ entry.event.isLook)

def fromLook (task : Nat) (history : History) : History :=
  history.dropWhile fun entry => ¬(entry.task = task ∧ entry.event.isLook)

/-- Whether the task has recorded a failure since its last look. -/
def failedSince (task : Nat) : History → Bool
  | [] => false
  | entry :: rest =>
      if entry.task = task then
        match entry.event with
        | .maintenanceWaits => false
        | .failureRecorded => true
        | _ => failedSince task rest
      else failedSince task rest

variable {task : Nat} {entry : Record} {history : History}

theorem lastLook_other (h : entry.task ≠ task ∨ entry.event.isLook = false) :
    lastLook task (entry :: history) = lastLook task history := by
  refine List.find?_cons_of_neg ?_
  rw [decide_eq_true_eq]
  rintro ⟨hTask, hLook⟩
  rcases h with hOther | hNone
  · exact hOther hTask
  · rw [hNone] at hLook
    cases hLook

theorem lastLook_own (entry : Record) (h : entry.task = task) (hLook : entry.event.isLook = true) :
    lastLook task (entry :: history) = some entry :=
  List.find?_cons_of_pos (decide_eq_true ⟨h, hLook⟩)

theorem failedSince_other (h : entry.task ≠ task) : failedSince task (entry :: history) = failedSince task history :=
  if_neg h

theorem failedSince_fresh (h : ∀ entry ∈ history, entry.task ≠ task) : failedSince task history = false := by
  induction history with
  | nil => rfl
  | cons newest earlier ih =>
      rw [failedSince_other (h newest List.mem_cons_self)]
      exact ih fun entry hEntry => h entry (List.mem_cons_of_mem _ hEntry)

theorem failedSince_plain (h : entry.event.isRound = false) :
    failedSince task (entry :: history) = failedSince task history := by
  obtain ⟨actor, event, state⟩ := entry
  rw [failedSince]
  split
  · cases event <;> first | rfl | cases h
  · rfl

theorem mem_of_lastLook {look : Record} (h : lastLook task history = some look) :
    look ∈ history ∧ look.task = task ∧ look.event = .maintenanceWaits := by
  have hLook : look.task = task ∧ look.event.isLook = true := by simpa using List.find?_some h
  refine ⟨List.mem_of_find?_eq_some h, hLook.1, ?_⟩
  obtain ⟨actor, event, state⟩ := look
  cases event with
  | maintenanceWaits => rfl
  | _ => cases hLook.2

end Looks

/-- What maintenance does in good order: it looks only where no authentication
is required, it repairs only after a look, and once it has recorded a failure it
ends only if the gateway is closed. -/
def Regular (entry : Record) (rest : History) : Prop :=
  match entry.event with
  | .maintenanceWaits => entry.state.sup.state ≠ .authenticationRequired
  | .repairBegan => ∃ look, lastLook entry.task rest = some look
  | .returned _ | .raised _ => failedSince entry.task rest = true → entry.state.sup.closed = true
  | _ => True

def Rounded (entry : Record) (rest : History) : Prop :=
  entry.event.isRound = true → ∃ call, firstCall entry.task rest = some call ∧
    (callsMaintenance call = true → Regular entry rest)

variable {config : Config} {op : Op} {task : Nat} {α β : Type} {w : GatewayWorld}

/-- The entries are those of tasks that have started, and all rounds so far are regular. -/
structure Rounds (w : GatewayWorld) : Prop where
  regular : Always Rounded w.trace
  born : ∀ entry ∈ w.trace, entry.task < w.started

/-- The task's own entries are as they were. -/
structure OwnRounds (task : Nat) (before after : GatewayWorld) : Prop where
  started : before.started ≤ after.started
  first : firstCall task after.trace = firstCall task before.trace
  look : lastLook task after.trace = lastLook task before.trace
  failed : failedSince task after.trace = failedSince task before.trace

def rounds (config : Config) : Extension (discipline config) where
  inv := Rounds
  rely := OwnRounds
  waits := fun _ _ _ _ => True
  refl := fun _ _ => ⟨le_rfl, rfl, rfl, rfl⟩
  trans := fun _ _ _ _ h h' =>
    ⟨h.started.trans h'.started, h'.first.trans h.first, h'.look.trans h.look, h'.failed.trans h.failed⟩
  stable := fun _ _ _ _ _ _ _ _ => trivial

/-- The task serves this call, and has looked and failed so far. -/
structure Round (task : Nat) (call : Record) (look : Option Record) (failed : Bool) (w : GatewayWorld) : Prop where
  born : task < w.started
  first : firstCall task w.trace = some call
  look : lastLook task w.trace = look
  failed : failedSince task w.trace = failed

section Rules

variable {event : Option Event} {state : State} {call : Record} {look : Option Record} {failed : Bool}
  {post : Except Error β → GatewayWorld → Prop} {entry : Record} {history : History}

theorem rounds_act (h : Rounds w) (hBorn : task < w.started)
    (hEvent : ∀ e ∈ event, Rounded ⟨task, e, state⟩ w.trace) :
    (rounds config).Act task w (w.act task event state) := by
  refine ⟨?_, fun other hOther => ?_⟩
  · cases event with
    | none => exact ⟨h.regular, h.born⟩
    | some e => exact ⟨⟨hEvent e rfl, h.regular⟩, List.forall_mem_cons.mpr ⟨hBorn, h.born⟩⟩
  · cases event with
    | none => exact ⟨le_rfl, rfl, rfl, rfl⟩
    | some e =>
        have hNot : (⟨task, e, state⟩ : Record).task ≠ other := Ne.symm hOther
        exact ⟨le_rfl, firstCall_other hNot, lastLook_other (Or.inl hNot), failedSince_other hNot⟩

theorem Round.act (h : Round task call look failed w) (hEvent : ∀ e ∈ event, e.isRound = false) :
    Round task call look failed (w.act task event state) := by
  cases event with
  | none => exact ⟨h.born, h.first, h.look, h.failed⟩
  | some e =>
      have hPlain := hEvent e rfl
      refine ⟨h.born, firstCall_kept h.first, ?_, (failedSince_plain hPlain).trans h.failed⟩
      rw [World.act_some_trace, lastLook_other (Or.inr ?_), h.look]
      cases e <;> first | rfl | cases hPlain

theorem Round.rely {before after : GatewayWorld} (h : Round task call look failed before)
    (hRely : OwnRounds task before after) : Round task call look failed after :=
  ⟨h.born.trans_le hRely.started, hRely.first.trans h.first, hRely.look.trans h.look, hRely.failed.trans h.failed⟩

theorem note_round (op : Op) (wait : Wait) (reply : Except Error wait.Reply) :
    ∀ e ∈ Host.note op wait reply, e.isRound = false := by
  intro e he
  cases reply with
  | ok value => cases he
  | error error =>
      simp only [Host.note] at he
      split at he <;> cases he <;> rfl

/-- Code that makes no entry of a round. -/
abbrev Still {α : Type} (code : Py α) : Prop := code.Leaves fun event : Event => event.isRound = false

abbrev Rwp (config : Config) (op : Op) (task : Nat) (code : Py α)
    (post : Except Error α → GatewayWorld → Prop) (w : GatewayWorld) : Prop :=
  (rounds config).wp op task code post w

theorem rwp_still {code : Py α} (h : Still code) (hRound : Round task call look failed w) :
    Rwp config op task code (fun _ v => Round task call look failed v) w := by
  refine Extension.wp_leaves ?_ (fun _ _ hKnown => hKnown.rely) (fun _ _ => trivial) (note_round op) h hRound
  intro world event state hInv hKnown hEvent
  refine ⟨rounds_act hInv hKnown.born fun e he hTurns => ?_, hKnown.act hEvent⟩
  rw [hEvent e he] at hTurns
  cases hTurns

theorem rwp_still_seq {code : Py α} {next : α → Py β} (h : Still code) (hRound : Round task call look failed w)
    (hNext : ∀ value v, Round task call look failed v → Rwp config op task (next value) post v)
    (hError : ∀ error v, Round task call look failed v → post (.error error) v) :
    Rwp config op task (code.bind next) post w := by
  refine Extension.wp_bind (Extension.wp_mono (rwp_still h hRound) ?_)
  rintro (error | value) v _ hV
  · exact hError error v hV
  · exact hNext value v hV

/-- A mark, as far as it is in good order. -/
theorem rwp_mark_seq {event : Event} {next : Unit → Py β} (hBorn : task < w.started)
    (h : Rounded ⟨task, event, w.state⟩ w.trace)
    (hNext : Rwp config op task (next ()) post (w.act task (some event) w.state)) :
    Rwp config op task ((Coro.mark event).bind next) post w :=
  Extension.wp_act fun hInv _ => ⟨rounds_act hInv hBorn fun e he => by cases he; exact h, hNext⟩

theorem rounded_plain (h : entry.event.isRound = false) : Rounded entry history := fun hTurns => by
  rw [h] at hTurns
  cases hTurns

theorem still_compositional : Compositional Still := Coro.Leaves.compositional _

theorem still_mark {event : Event} (h : event.isRound = false) : Still (Coro.mark event) := Coro.Leaves.record id h

theorem Event.round_of_minor {event : Event} (h : event.isMinor = true) : event.isRound = false := by
  cases event <;> first | rfl | cases h

theorem still_wait (w : Wait) : Still (Pazuzu.wait w) := Coro.Leaves.suspend (G := gatewaySignature) w

theorem still_sleep (seconds : ℚ) (deadline : Option ℚ) : Still (sleep seconds deadline) :=
  still_compositional.get fun _ => still_wait _

theorem still_never : Still (never : Py α) := still_compositional.bind (still_wait .never) nofun

theorem still_polls : Polls Still where
  toCompositional := still_compositional
  mark := fun _ hMinor _ => still_mark (Event.round_of_minor hMinor)
  launch := fun _ => still_wait _
  process := fun _ _ _ _ => still_wait _
  fault := fun operation => still_compositional.get fun state => by
    split
    · exact still_compositional.pure ()
    · exact still_compositional.bind (still_mark (show (Event.fault operation).isRound = false from rfl)) fun _ => still_compositional.throw _
  sleep := still_sleep
  never := still_never
  take := fun _ _ => Coro.Leaves.record _ rfl
  release := fun _ => Coro.Leaves.record _ rfl

theorem still_starts : Starts config Still where
  toAttends := still_polls.attends fun _ => still_wait _
  update := fun f _ => Coro.Leaves.update f
  begins := still_mark rfl
  connects := Coro.Leaves.record _ rfl
  spawn := fun _ => still_wait _

theorem still_acquire (name : LockName) (deadline : Option ℚ) : Still (acquire name deadline) := by
  have hBoth := still_compositional
  refine hBoth.current fun me => hBoth.get fun state => Compositional.ite (Coro.Leaves.update _) ?_
  exact hBoth.bind (Coro.Leaves.update _) fun _ =>
    hBoth.bind (hBoth.tryFinally (still_wait _) (Coro.Leaves.update _)) fun _ => Coro.Leaves.update _

theorem still_probe : Still Supervisor.probe := by
  have hBoth := still_compositional
  refine hBoth.bind (hBoth.get fun state => ?_) fun _ => still_wait _
  split
  · exact hBoth.pure _
  · exact hBoth.bind (Coro.Leaves.update _) fun _ => hBoth.pure _

theorem still_waitForWake (timeout : ℚ) : Still (waitForWake timeout) := by
  have hBoth := still_compositional
  refine hBoth.get fun _ => Compositional.ite (hBoth.bind (Coro.Leaves.update _) fun _ => hBoth.pure true)
    (hBoth.tryCatch (hBoth.bind (still_wait _) fun _ => hBoth.bind (Coro.Leaves.update _) fun _ => hBoth.pure true)
      fun error => ?_)
  cases error <;> exact trivial

end Rules

section Tries

variable {call look : Record}

/-- What an attempt leaves behind. Where it has recorded a failure, it raises an
error that maintenance passes over. -/
def Tried (task : Nat) (call look : Record) (outcome : Except Error α) (w : GatewayWorld) : Prop :=
  ∃ failed, Round task call (some look) failed w ∧
    (failed = true → ∃ error, outcome = .error error ∧ error.isPazuzu = true)

/-- Code that may repair, after a look and with no failure since. -/
def Tries (config : Config) (op : Op) (task : Nat) (call look : Record) (code : Py α) : Prop :=
  ∀ w, Round task call (some look) false w → Rwp config op task code (Tried task call look) w

theorem tries_still {code : Py α} (h : Still code) : Tries config op task call look code := fun _ hRound =>
  Extension.wp_mono (rwp_still h hRound) fun _ _ _ hV => ⟨false, hV, nofun⟩

theorem tries_pure (value : α) : Tries config op task call look (.pure value : Py α) :=
  tries_still (still_compositional.pure value)

theorem tries_bind {code : Py α} {next : α → Py β} (h : Tries config op task call look code)
    (hNext : ∀ value, Tries config op task call look (next value)) :
    Tries config op task call look (code.bind next) := by
  intro w hRound
  refine Extension.wp_bind (Extension.wp_mono (h w hRound) ?_)
  rintro (error | value) v _ ⟨failed, hV, hWhy⟩
  · refine ⟨failed, hV, fun hFailed => ?_⟩
    obtain ⟨raised, hRaised, hPazuzu⟩ := hWhy hFailed
    cases hRaised
    exact ⟨error, rfl, hPazuzu⟩
  · cases failed with
    | true =>
        obtain ⟨raised, hRaised, -⟩ := hWhy rfl
        cases hRaised
    | false => exact hNext value v hV

theorem tries_get {next : State → Py β} (h : ∀ state, Tries config op task call look (next state)) :
    Tries config op task call look (Coro.get.bind next) := fun w hRound => Extension.wp_get_bind (h w.state w hRound)

theorem tries_ite {condition : Prop} [Decidable condition] {first second : Py α}
    (hFirst : Tries config op task call look first) (hSecond : Tries config op task call look second) :
    Tries config op task call look (if condition then first else second) := fun w hRound =>
  Extension.wp_ite (fun _ => hFirst w hRound) fun _ => hSecond w hRound

/-- An error that is passed on, with a mark or without. -/
theorem tries_passed {code : Py α} {next : Except Error α → Py β} (h : Tries config op task call look code)
    (hOk : ∀ value, Tries config op task call look (next (.ok value)))
    (hError : ∀ error, next (.error error) = Coro.raise error ∨
      ∃ event : Event, event.isRound = false ∧ next (.error error) = (Coro.mark event).bind fun _ => Coro.raise error) :
    Tries config op task call look (code.attempt.bind next) := by
  intro w hRound
  refine Extension.wp_bind (Extension.wp_attempt (Extension.wp_mono (h w hRound) ?_))
  rintro (error | value) v _ ⟨failed, hV, hWhy⟩
  · have hRaised : failed = true → ∃ raised, (.error error : Except Error β) = .error raised ∧ raised.isPazuzu = true := by
      intro hFailed
      obtain ⟨raised, hSame, hPazuzu⟩ := hWhy hFailed
      cases hSame
      exact ⟨error, rfl, hPazuzu⟩
    change Rwp config op task (next (.error error)) (Tried task call look) v
    rcases hError error with hNext | ⟨event, hEvent, hNext⟩
    · rw [hNext]
      exact Extension.wp_raise ⟨failed, hV, hRaised⟩
    · rw [hNext]
      exact rwp_mark_seq hV.born (rounded_plain hEvent) (Extension.wp_raise
        ⟨failed, hV.act fun e he => by cases he; exact hEvent, hRaised⟩)
  · cases failed with
    | true =>
        obtain ⟨raised, hRaised, -⟩ := hWhy rfl
        cases hRaised
    | false => exact hOk value v hV

/-- What is done under the lock is passed on when the lock is given back. -/
theorem tries_withLock (name : LockName) {body : Py α} (h : Tries config op task call look body) :
    Tries config op task call look (withLock name body) := by
  refine tries_bind (tries_still (still_acquire name none)) fun _ w hRound => ?_
  refine Extension.wp_tryFinally (Extension.wp_mono (h w hRound) ?_)
  rintro outcome v _ ⟨failed, hV, hWhy⟩
  exact Extension.wp_act fun hInv _ => ⟨rounds_act hInv hV.born (fun e he => by cases he),
    Extension.wp_pure ⟨failed, hV.act (fun e he => by cases he), hWhy⟩⟩

/-- A recorded failure is raised as `ConnectionUnavailable`. -/
theorem tries_recordFailure (detail : String) :
    Tries config op task call look ((recordFailure detail).bind fun _ => (Supervisor.raiseUnavailable : Py Unit)) := by
  intro w hRound
  refine Extension.wp_bind (Extension.wp_get_bind ?_)
  split
  · next delay _ =>
      refine Extension.wp_act fun hInv _ => ⟨rounds_act hInv hRound.born fun e he _ => ?_, Extension.wp_pure (Extension.wp_get_bind
        (Extension.wp_raise ⟨true, ⟨hRound.born, firstCall_kept hRound.first, ?_, ?_⟩, fun _ => ⟨_, rfl, rfl⟩⟩))⟩
      · cases he
        exact ⟨call, hRound.first, fun _ => trivial⟩
      · exact (lastLook_other (Or.inr rfl)).trans hRound.look
      · exact if_pos rfl
  · refine Extension.wp_act fun hInv _ => ⟨rounds_act hInv hRound.born fun e he => ?_, Extension.wp_raise
      ⟨false, hRound.act fun e he => ?_, nofun⟩⟩
    · cases he
      exact rounded_plain rfl
    · cases he
      rfl

theorem tries_repair : Tries config op task call look (repair config) := by
  intro w hRound
  refine Extension.wp_act fun hInv _ => ⟨rounds_act hInv hRound.born fun e he _ => ?_, ?_⟩
  · cases he
    exact ⟨call, hRound.first, fun _ => ⟨look, hRound.look⟩⟩
  · refine tries_bind (tries_still still_starts.stopMaster) (fun _ => tries_bind
      (tries_still (still_starts.startAttempts _ _ _)) fun detail => ?_) _
      ⟨hRound.born, firstCall_kept hRound.first, (lastLook_other (Or.inr rfl)).trans hRound.look, (if_pos rfl).trans hRound.failed⟩
    cases detail with
    | none => exact tries_pure ()
    | some detail => exact tries_recordFailure detail

theorem tries_replaceMaster : Tries config op task call look (replaceMaster config) := by
  refine tries_passed tries_repair tries_pure fun error => ?_
  cases error with
  | connectionUnavailable message => exact Or.inl rfl
  | _ => exact Or.inr ⟨_, rfl, rfl⟩

theorem tries_raiseUnavailable : Tries config op task call look (Supervisor.raiseUnavailable : Py α) :=
  tries_still (raiseUnavailable still_compositional)

theorem tries_adoptOrReplace : Tries config op task call look (adoptOrReplace config) :=
  tries_bind (tries_still (Coro.Leaves.record _ rfl)) fun _ =>
    tries_bind (tries_still still_starts.adoptExisting) fun _ =>
      tries_ite (tries_still (Coro.Leaves.record _ rfl)) tries_replaceMaster

theorem tries_connect (force respectBackoff : Bool) :
    Tries config op task call look (connect config force respectBackoff) := by
  have hAttempt : Tries config op task call look (Coro.get.bind fun state =>
      if force = false ∧ respectBackoff = true ∧ state.os.clock < state.sup.nextAttempt then
        Supervisor.raiseUnavailable
      else if force = false ∧ state.sup.generation = 0 then Supervisor.adoptOrReplace config
      else Supervisor.replaceMaster config) :=
    tries_get fun _ => tries_ite tries_raiseUnavailable (tries_ite tries_adoptOrReplace tries_replaceMaster)
  refine tries_withLock .repair (tries_get fun _ => tries_ite ?_ hAttempt)
  exact tries_bind (tries_still still_polls.controlCheck) fun _ => tries_ite (tries_pure ()) hAttempt

theorem tries_checkLocked (generation epoch : Nat) (outcome : ProbeOutcome) :
    Tries config op task call look (checkLocked config generation epoch outcome) := by
  have hTolerates : Tries config op task call look (tolerates config outcome) :=
    tries_get fun _ => tries_ite (tries_still still_polls.controlCheck) (tries_pure _)
  have hReplace : Tries config op task call look (replaceChecked config generation) :=
    tries_bind (tries_still (still_mark rfl)) fun _ => tries_bind tries_replaceMaster fun _ => tries_pure _
  refine tries_get fun _ => tries_ite (tries_ite (tries_pure _) tries_raiseUnavailable) ?_
  exact tries_bind hTolerates fun _ => tries_ite (tries_pure _)
    (tries_get fun _ => tries_ite tries_raiseUnavailable hReplace)

theorem tries_checkMaster (generation : Nat) : Tries config op task call look (checkMaster config generation) := by
  refine tries_get fun before => tries_ite (tries_pure _) ?_
  have hRest : ∀ outcome, Tries config op task call look ((Coro.mark (Event.checkProbed outcome)).bind fun _ =>
      Coro.get.bind fun state =>
        if outcome = .ok ∧ before.sup.repairEpoch = state.sup.repairEpoch then (.pure .healthy : Py Verdict)
        else withLock .repair (checkLocked config generation before.sup.repairEpoch outcome)) := fun outcome =>
    tries_bind (tries_still (still_mark rfl)) fun _ => tries_get fun _ =>
      tries_ite (tries_pure _) (tries_withLock .repair (tries_checkLocked _ _ _))
  exact tries_ite (tries_bind (tries_still still_probe) hRest) (hRest .failed)

theorem tries_repairIfBroken (generation : Nat) :
    Tries config op task call look (repairIfBroken config generation) := by
  refine tries_bind (tries_bind (tries_still (still_mark rfl)) fun _ => ?_) fun _ => tries_pure _
  refine tries_passed (tries_checkMaster generation) (fun verdict => ?_) fun error => Or.inr ⟨_, rfl, rfl⟩
  exact tries_bind (tries_still (still_mark rfl)) fun _ => tries_pure _

end Tries

section Maintenance

variable {call : Record} {id : Nat}

/-- What has come of maintenance: it looks on, or it ends. After a failure it
ends only if the gateway is closed. -/
def Concluded (task : Nat) (call : Record) (w : GatewayWorld) : Prop :=
  ∃ look failed, Round task call look failed w ∧ (failed = true → w.state.sup.closed = true)

theorem Concluded.born (h : Concluded task call w) : task < w.started := by
  obtain ⟨_, _, hRound, _⟩ := h
  exact hRound.born

/-- Nothing but a cancellation interrupts this wait, and no task of the
supervisor is cancelled unless the gateway is closed. -/
theorem rwp_rest (wait : Wait) {look : Option Record} {failed : Bool}
    (hRaises : ∀ error state, Host.raises wait error state = false)
    (hNote : ∀ error, Host.note (.job id) wait (.error error) = some (.interrupted (.job id) error))
    (hRound : Round task call look failed w) :
    Rwp config (.job id) task (Pazuzu.wait wait) (fun outcome v => Round task call look failed v ∧
      ∀ error, outcome = .error error → v.state.sup.closed = true) w := by
  refine Extension.wp_suspend fun _ => ⟨trivial, fun later reply state _ hInv _ hRely hDeliver hAfter => ?_⟩
  have hPlain : ∀ e ∈ Host.note (.job id) wait reply, e.isRound = false := note_round (.job id) wait reply
  refine ⟨rounds_act hInv (hRound.rely hRely).born fun e he => rounded_plain (hPlain e he),
    (hRound.rely hRely).act hPlain, ?_⟩
  rintro error rfl
  change Inv (later.act task (Host.note (.job id) wait (.error error)) state) at hAfter
  change (later.act task (Host.note (.job id) wait (.error error)) state).state.sup.closed = true
  rw [hNote, World.act_state] at *
  have hCancelled : error = .cancelled := by
    change Host.deliver config (.job id) task wait (.error error) later.state = some state at hDeliver
    by_contra hOther
    simp only [Host.deliver, hRaises, Bool.false_eq_true, if_false, if_neg hOther] at hDeliver
    cases hDeliver
  subst hCancelled
  exact hAfter.permitted ⟨task, .interrupted (.job id) .cancelled, state⟩ later.trace List.suffix_rfl

theorem rwp_maintainOnce {look : Record} (hRound : Round task call (some look) false w) :
    Rwp config op task (maintainOnce config) (fun outcome v => ∃ failed, Round task call (some look) failed v ∧
      (failed = true → outcome = .ok ())) w := by
  have hTries : Tries config op task call look (Coro.get.bind fun state =>
      if state.sup.state = .connected then
        (repairIfBroken config state.sup.generation).bind fun _ => (.pure () : Py Unit)
      else connect config false : Py Unit) :=
    tries_get fun _ => tries_ite (tries_bind (tries_repairIfBroken _) fun _ => tries_pure ()) (tries_connect _ _)
  refine Extension.wp_tryCatch (Extension.wp_mono (hTries w hRound) ?_)
  rintro (error | value) v _ ⟨failed, hV, hWhy⟩
  · refine Extension.wp_ite (fun _ => Extension.wp_pure ⟨failed, hV, fun _ => rfl⟩) fun hOther =>
      Extension.wp_raise ⟨failed, hV, fun hFailed => ?_⟩
    obtain ⟨raised, hRaised, hPazuzu⟩ := hWhy hFailed
    cases hRaised
    exact absurd hPazuzu hOther
  · exact ⟨failed, hV, fun _ => rfl⟩

/-- Whatever it has failed in, maintenance looks again. -/
theorem rwp_maintain (rounds : Nat) {look : Option Record} {failed : Bool}
    (hRound : Round task call look failed w) :
    Rwp config (.job id) task (maintain config rounds) (fun _ v => Concluded task call v) w := by
  induction rounds generalizing w look failed with
  | zero =>
      refine Extension.wp_bind (Extension.wp_mono (rwp_rest .never (fun _ _ => rfl) (fun _ => rfl) hRound) ?_)
      rintro (error | impossible) v _ ⟨hV, hClosed⟩
      · exact ⟨look, failed, hV, fun _ => hClosed error rfl⟩
      · exact nomatch impossible
  | succ rounds ih =>
      refine Extension.wp_get_bind (Extension.wp_ite (fun hClosed => Extension.wp_pure
        ⟨look, failed, hRound, fun _ => hClosed⟩) fun _ => Extension.wp_ite (fun _ => ?_) fun hQuiet => ?_)
      · refine Extension.wp_bind (Extension.wp_mono
          (rwp_rest (.wake none) (fun error _ => by cases error <;> rfl) (fun _ => rfl) hRound) ?_)
        rintro (error | woken) v _ ⟨hV, hClosed⟩
        · exact ⟨look, failed, hV, fun _ => hClosed error rfl⟩
        · exact Extension.wp_act fun hInv _ => ⟨rounds_act hInv hV.born (fun e he => by cases he),
            ih (hV.act (fun e he => by cases he))⟩
      · refine rwp_mark_seq hRound.born (fun _ => ⟨call, hRound.first, fun _ => hQuiet⟩) ?_
        have hLooked : Round task call (some ⟨task, .maintenanceWaits, w.state⟩) false
            (w.act task (some .maintenanceWaits) w.state) :=
          ⟨hRound.born, firstCall_kept hRound.first, lastLook_own _ rfl rfl, if_pos rfl⟩
        refine rwp_still_seq (still_waitForWake _) hLooked (fun woken v hV => ?_) fun _ v hV => ⟨_, false, hV, nofun⟩
        refine Extension.wp_ite (fun _ => ih hV) fun _ => rwp_mark_seq hV.born (rounded_plain rfl) ?_
        refine Extension.wp_bind (Extension.wp_mono (rwp_maintainOnce (hV.act fun e he => by cases he; rfl)) ?_)
        rintro (error | value) u _ ⟨failed, hU, hEnds⟩
        · refine ⟨_, failed, hU, fun hFailed => ?_⟩
          cases hEnds hFailed
        · exact ih hU

theorem rwp_runJob (hKind : (w.state.sup.jobs[id]?).map Job.kind = some .maintain) {look : Option Record}
    (hRound : Round task call look false w) :
    Rwp config (.job id) task (runJob config id) (fun _ v => Concluded task call v) w := by
  refine Extension.wp_get_bind ?_
  split
  · next hNone =>
      rw [hNone] at hKind
      cases hKind
  · next epoch hProbe =>
      rw [hProbe] at hKind
      cases hKind
  · have hSettle : ∀ (outcome : Except Error (Option ProbeOutcome)) v, Concluded task call v →
        Rwp config (.job id) task (Coro.update fun state => state.settleJob id outcome)
          (fun _ u => Concluded task call u) v := by
      rintro outcome v ⟨look, failed, hV, hClosed⟩
      exact Extension.wp_act fun hInv _ => ⟨rounds_act hInv hV.born (fun e he => by cases he),
        Extension.wp_pure ⟨look, failed, hV.act (fun e he => by cases he), hClosed⟩⟩
    refine Extension.wp_bind (Extension.wp_attempt (rwp_still_seq (still_wait .begin) hRound (fun _ v hV => ?_)
      fun error v hV => hSettle _ v ⟨_, false, hV, nofun⟩))
    refine Extension.wp_mono (rwp_maintain config.rounds hV) ?_
    rintro (error | value) u _ hEnd
    · exact hSettle _ u hEnd
    · exact hSettle _ u hEnd

/-- A task for anything else makes its entries without regard to rounds. -/
theorem rwp_other {code : Py α} (hBorn : task < w.started) (hCall : firstCall task w.trace = some call)
    (hOther : callsMaintenance call = false) : Rwp config op task code (fun _ _ => True) w := by
  have hAll : code.Leaves fun _ => True := Coro.Leaves.of_all (fun _ => trivial) code
  have hKept : Rwp config op task code (fun _ v => task < v.started ∧ firstCall task v.trace = some call) w := by
    refine Extension.wp_leaves ?_ (fun _ _ hKnown (hRely : OwnRounds task _ _) =>
      ⟨hKnown.1.trans_le hRely.started, hRely.first.trans hKnown.2⟩) (fun _ _ => trivial) (fun _ _ _ _ => trivial)
      hAll ⟨hBorn, hCall⟩
    intro world event state hInv hKnown _
    refine ⟨rounds_act hInv hKnown.1 fun e _ _ => ⟨call, hKnown.2, fun hMaintains => ?_⟩, ?_⟩
    · rw [hOther] at hMaintains
      cases hMaintains
    · cases event with
      | none => exact hKnown
      | some e => exact ⟨hKnown.1, firstCall_kept hKnown.2⟩
  exact Extension.wp_mono hKept fun _ _ _ _ => trivial

theorem rwp_serve (hBorn : task < w.started) (hFresh : ∀ entry ∈ w.trace, entry.task ≠ task) :
    Rwp config op task (serve config op) (fun _ _ => True) w := by
  have hRound : Round task ⟨task, .called op, w.state⟩ none false (w.act task (some (.called op)) w.state) := by
    refine ⟨hBorn, ?_, ?_, ?_⟩
    · rw [World.act_some_trace, firstCall_cons, firstCall_fresh fun entry hEntry hOwn => absurd hOwn (hFresh entry hEntry),
        if_pos ⟨rfl, rfl⟩, Option.none_or]
    · rw [World.act_some_trace, lastLook_other (Or.inr rfl)]
      exact List.find?_eq_none.mpr fun entry hEntry => by simp [hFresh entry hEntry]
    · rw [World.act_some_trace, failedSince_plain rfl]
      exact failedSince_fresh hFresh
  refine rwp_mark_seq hBorn (rounded_plain rfl) ?_
  by_cases hMaintains : callsMaintenance ⟨task, .called op, w.state⟩ = true
  · obtain ⟨id, hJob⟩ := called_of_callsMaintenance hMaintains
    cases hJob
    have hKind : (w.state.sup.jobs[id]?).map Job.kind = some .maintain := of_decide_eq_true hMaintains
    -- The last mark is one of a task that has looked again or found the gateway closed.
    have hEnd : ∀ (event : Event) v, event.isEnd = true → Concluded task ⟨task, .called (.job id), w.state⟩ v →
        Rounded ⟨task, event, v.state⟩ v.trace := by
      rintro event v hEnds ⟨look, failed, hV, hClosed⟩ -
      refine ⟨_, hV.first, fun _ => ?_⟩
      cases event with
      | returned | raised => exact fun hFailed => hClosed (hV.failed.symm.trans hFailed)
      | _ => cases hEnds
    refine Extension.wp_bind (Extension.wp_attempt (Extension.wp_bind (Extension.wp_mono (rwp_runJob hKind hRound) ?_)))
    rintro (error | value) v _ hDone
    · exact rwp_mark_seq hDone.born (hEnd _ v rfl hDone) (Extension.wp_raise trivial)
    · exact Extension.wp_pure (rwp_mark_seq hDone.born (hEnd _ v rfl hDone) (Extension.wp_pure trivial))
  · exact rwp_other hBorn hRound.first (Bool.eq_false_iff.mpr hMaintains)

end Maintenance

section Runs

theorem rounds_sound (config : Config) : (rounds config).Sound (fun _ => True) fun _ => True where
  disturbs := fun _ _ _ _ _ hRounds _ => ⟨⟨hRounds.regular, hRounds.born⟩, fun _ => ⟨le_rfl, rfl, rfl, rfl⟩⟩
  starts := by
    intro op world state _ _ hRounds _ _
    have hStart : (rounds config).Act world.started world { world with state, started := world.started + 1 } :=
      ⟨⟨hRounds.regular, fun entry hEntry => Nat.lt_succ_of_lt (hRounds.born entry hEntry)⟩,
        fun _ _ => ⟨Nat.le_succ _, rfl, rfl, rfl⟩⟩
    have hServe := @rwp_serve config op world.started { world with state, started := world.started + 1 }
      (Nat.lt_succ_self _) fun entry hEntry => (hRounds.born entry hEntry).ne
    exact Extension.along_mono (hServe _ hStart) fun _ _ _ hEnd => hEnd.1

variable {os : Os} {choices : List (Choice (gateway config))} {final : Loop (gateway config)}

theorem rounded_of_run (hRun : gatewayRun config os choices = some final) : Always Rounded final.world.trace :=
  ((rounds_sound config).run (sound config) (Inv.boot os) ⟨trivial, by simp⟩ hRun (fun _ _ => trivial)
    fun _ _ => trivial).inv.regular

end Runs
end Supervision
end Pazuzu
