import Pazuzu.Asyncio.Extension
import Pazuzu.Supervision.Backoff

/-! What the supervisor's counters sum up. Generations, epochs, probe failures
and the next attempt are read off the history, and each decision in it is
entered with the reason for which it was made. -/
namespace Pazuzu

open Asyncio

namespace Event

/-- Whether an attempt begins here, to adopt a master or to replace one. -/
def beginsAttempt : Event → Bool
  | .adoptionBegan | .repairBegan => true
  | _ => false

def isReconnect : Event → Bool
  | .called (.reconnect _) => true
  | _ => false

/-- Whether a probe has been counted here. -/
def isCount : Event → Bool
  | .probeCounted _ => true
  | _ => false

/-- The marks of a check before it decides. -/
def isAsking : Event → Bool
  | .checkBegan _ | .checkProbed _ => true
  | _ => false

/-- The events a task enters at most once. -/
def isSingle : Event → Bool
  | .called _ | .probeCounted _ => true
  | _ => false

/-- The events that change an account. -/
def isEntered : Event → Bool
  | .adoptionBegan => true
  | event => event.isRepair || event.isReconnect || event.isCount

end Event

/-- The generation that a value names as its own. -/
def Value.named : Value → Option Nat
  | .command result => some result.connectionGeneration
  | .attachment made => some made.generation
  | .none | .health _ => Option.none

namespace Supervision

section Accounts

/-- How many masters have been connected. -/
def connections : History → Nat
  | [] => 0
  | entry :: rest =>
      match entry.event with
      | .masterConnected => connections rest + 1
      | _ => connections rest

/-- How many attempts have begun. -/
def attempts : History → Nat
  | [] => 0
  | entry :: rest => if entry.event.beginsAttempt then attempts rest + 1 else attempts rest

/-- Whether the last attempt has connected no master so far. -/
def attempting : History → Bool
  | [] => false
  | entry :: rest =>
      match entry.event with
      | .masterConnected => false
      | event => event.beginsAttempt || attempting rest

/-- The task whose repair has begun and not ended yet. -/
def repairer : History → Option Nat
  | [] => none
  | entry :: rest =>
      if entry.event.isRepair then if entry.event.endsRepair then none else some entry.task
      else repairer rest

/-- How many probes in a row have ended not ok since the last master was connected. -/
def strikes : History → Nat
  | [] => 0
  | entry :: rest =>
      match entry.event with
      | .masterConnected | .probeCounted .ok => 0
      | .probeCounted _ => strikes rest + 1
      | _ => strikes rest

/-- The last probe counted since the last master was connected. -/
def lastCounted : History → Option ProbeOutcome
  | [] => none
  | entry :: rest =>
      match entry.event with
      | .masterConnected => none
      | .probeCounted outcome => some outcome
      | _ => lastCounted rest

/-- The failures recorded since a master was connected or a reconnect called. -/
def outstanding : History → List Record
  | [] => []
  | entry :: rest =>
      match entry.event with
      | .masterConnected | .called (.reconnect _) => []
      | .failureRecorded => entry :: outstanding rest
      | _ => outstanding rest

variable {entry : Record} {rest : History}

theorem connections_other (h : entry.event.isEntered = false) :
    connections (entry :: rest) = connections rest := by
  obtain ⟨task, event, state⟩ := entry
  cases event <;> first | rfl | cases h

theorem attempts_other (h : entry.event.isEntered = false) :
    attempts (entry :: rest) = attempts rest := by
  obtain ⟨task, event, state⟩ := entry
  cases event <;> first | rfl | cases h

theorem attempting_other (h : entry.event.isEntered = false) :
    attempting (entry :: rest) = attempting rest := by
  obtain ⟨task, event, state⟩ := entry
  cases event <;> first | rfl | cases h

theorem strikes_other (h : entry.event.isEntered = false) :
    strikes (entry :: rest) = strikes rest := by
  obtain ⟨task, event, state⟩ := entry
  cases event <;> first | rfl | cases h

theorem lastCounted_other (h : entry.event.isEntered = false) :
    lastCounted (entry :: rest) = lastCounted rest := by
  obtain ⟨task, event, state⟩ := entry
  cases event <;> first | rfl | cases h

theorem outstanding_other (h : entry.event.isEntered = false) :
    outstanding (entry :: rest) = outstanding rest := by
  obtain ⟨task, event, state⟩ := entry
  cases event with
  | called op => cases op <;> first | rfl | cases h
  | _ => first | rfl | cases h

theorem repairing_eq_isSome (history : History) :
    repairing history = (repairer history).isSome := by
  induction history with
  | nil => rfl
  | cons entry rest ih =>
      simp only [repairing, repairer]
      split
      · cases entry.event.endsRepair <;> rfl
      · exact ih

/-- While no repair event occurs, the same task goes on repairing. -/
theorem repairer_eq_of_since {old new : History} (hSuffix : old <:+ new)
    (h : ∀ entry rest, Since old new entry rest → entry.event.isRepair = false) :
    repairer new = repairer old := by
  obtain ⟨stretch, rfl⟩ := hSuffix
  induction stretch with
  | nil => rfl
  | cons newest earlier ih =>
      have hNewest := h newest (earlier ++ old) ⟨List.suffix_rfl, List.suffix_append _ _⟩
      have hEarlier := ih fun entry rest hSince => h entry rest (hSince.extend (List.suffix_cons _ _))
      simp [repairer, hNewest, hEarlier]

theorem mem_of_mem_outstanding {failure : Record} {history : History}
    (h : failure ∈ outstanding history) :
    failure ∈ history ∧ failure.event = .failureRecorded := by
  induction history with
  | nil => cases h
  | cons entry rest ih =>
      obtain ⟨task, event, state⟩ := entry
      have hRest : failure ∈ outstanding rest → failure ∈ ⟨task, event, state⟩ :: rest ∧
          failure.event = .failureRecorded := fun hOld =>
        ⟨List.mem_cons_of_mem _ (ih hOld).1, (ih hOld).2⟩
      cases event with
      | failureRecorded =>
          rcases List.mem_cons.mp h with rfl | hOld
          · exact ⟨List.mem_cons_self, rfl⟩
          · exact hRest hOld
      | masterConnected => cases h
      | called op => cases op <;> first | exact hRest h | cases h
      | _ => exact hRest h

/-- An outstanding failure is one of those in a row. -/
theorem outstanding_le {failure : Record} {history : History} (h : failure ∈ outstanding history) :
    ∃ before, (failure :: before) <:+ history ∧
      consecutiveFailures before + 1 ≤ consecutiveFailures history := by
  induction history with
  | nil => cases h
  | cons entry rest ih =>
      have hRest : failure ∈ outstanding rest →
          consecutiveFailures rest ≤ consecutiveFailures (entry :: rest) →
          ∃ before, (failure :: before) <:+ entry :: rest ∧
            consecutiveFailures before + 1 ≤ consecutiveFailures (entry :: rest) := by
        intro hOld hLe
        obtain ⟨before, hSuffix, hBefore⟩ := ih hOld
        exact ⟨before, hSuffix.trans (List.suffix_cons _ _), hBefore.trans hLe⟩
      obtain ⟨task, event, state⟩ := entry
      cases event with
      | failureRecorded =>
          rcases List.mem_cons.mp h with rfl | hOld
          · exact ⟨rest, List.suffix_rfl, le_rfl⟩
          · exact hRest hOld (Nat.le_succ _)
      | masterConnected => cases h
      | backoffOverflowed => exact hRest h (Nat.le_succ _)
      | called op => cases op <;> first | exact hRest h le_rfl | cases h
      | _ => exact hRest h le_rfl

/-- Since the failures in a row have been none, no failure is outstanding. -/
theorem outstanding_eq_nil {history : History} (h : consecutiveFailures history = 0) :
    outstanding history = [] := by
  refine List.eq_nil_iff_forall_not_mem.mpr fun failure hFailure => ?_
  obtain ⟨before, -, hLe⟩ := outstanding_le hFailure
  omega

/-- Without a connection or a reconnect, an outstanding failure stays so; no
failure is outstanding that was not recorded since or outstanding before. -/
theorem outstanding_since {old new : History} (hSuffix : old <:+ new)
    (h : ∀ entry rest, Since old new entry rest → entry.event.isRepair = false)
    {failure : Record} (hFailure : failure ∈ outstanding new) : failure ∈ outstanding old := by
  obtain ⟨stretch, rfl⟩ := hSuffix
  induction stretch with
  | nil => exact hFailure
  | cons newest earlier ih =>
      have hNewest := h newest (earlier ++ old) ⟨List.suffix_rfl, List.suffix_append _ _⟩
      have hEarlier := ih fun entry rest hSince => h entry rest (hSince.extend (List.suffix_cons _ _))
      obtain ⟨task, event, state⟩ := newest
      cases event with
      | masterConnected | failureRecorded | backoffOverflowed | repairAborted => cases hNewest
      | called op =>
          cases op with
          | reconnect => cases hFailure
          | _ => exact hEarlier hFailure
      | _ => exact hEarlier hFailure

end Accounts

section Reasons

/-- The task was called to reconnect, by force if so asked. -/
def Reconnects (task : Nat) (history : History) : Prop :=
  ∃ entry ∈ history, entry.task = task ∧ entry.event.isReconnect = true

def Forced (task : Nat) (history : History) : Prop :=
  ∃ entry ∈ history, entry.task = task ∧ entry.event = .called (.reconnect true)

/-- A control check of the task has found no master, on a connection. -/
def FoundDead (task : Nat) (old history : History) : Prop :=
  ∃ entry rest, Since old history entry rest ∧ entry.task = task ∧
    entry.event = .controlChecked false

/-- Since an older history, a probe of the task has ended so. -/
def ProbeSays (task : Nat) (outcome : ProbeOutcome) (old history : History) : Prop :=
  ∃ entry rest, Since old history entry rest ∧ entry.task = task ∧ entry.event = .probeEnded outcome

/-- Since the task has begun its attempt, no master was connected, and a probe
session of its own was opened and ended well. -/
def Proved (task : Nat) (history : History) : Prop :=
  ∃ beginning before, (beginning :: before) <:+ history ∧ beginning.task = task ∧
    beginning.event.beginsAttempt = true ∧
    (∀ entry rest, Since (beginning :: before) history entry rest → entry.event.isRepair = false) ∧
    ∃ probe rest, Since (beginning :: before) history probe rest ∧ probe.task = task ∧
      probe.event = .probeEnded .ok ∧
      ∃ opened earlier, Since (beginning :: before) rest opened earlier ∧ opened.task = task ∧
        opened.event = .probeOpened

/-- The gateway was told to close, or it has been detached. -/
def Ended (history : History) : Prop :=
  (∃ entry ∈ history, entry.event = .called .close) ∨
    ∃ entry ∈ history, entry.event = .called .detach ∧
      ∃ ending ∈ history, ending.task = entry.task ∧ ending.event.isEnd = true

/-- Why `_connect` goes on to replace the master: it was told to, the gateway
has ended, the master does not answer, the last attempt has left none, or none
could be adopted. -/
def LacksMaster (config : Config) (task : Nat) (history : History) : Prop :=
  Forced task history ∨ Ended history ∨
    (∃ entry rest, (entry :: rest) <:+ history ∧ entry.task = task ∧
      entry.event = .controlChecked false ∧ 1 ≤ entry.state.sup.generation) ∨
    (attempting history = true ∧ 1 ≤ connections history) ∨
    (connections history = 0 ∧ (FoundDead task [] history ∨
      (∃ outcome, outcome ≠ .ok ∧ ProbeSays task outcome [] history) ∨
      config.settings.probeFailures = 0))

/-- A probe has ended so that was made after a master was first connected. -/
def Probed (outcome : ProbeOutcome) (history : History) : Prop :=
  ∃ probe ∈ history, probe.event = .probeEnded outcome ∧ 1 ≤ probe.state.sup.generation

/-- Since an older history the task has made none of its check's marks. -/
def Silent (task : Nat) (old history : History) : Prop :=
  ∀ entry rest, Since old history entry rest → entry.task = task → entry.event.isAsking = false

/-- Why `_check` replaces the master: since the check began no attempt has,
and it began without a connection, or its probe says so. An ambiguous probe
counts for too many, or the master does not answer. -/
def CheckFails (config : Config) (entry : Record) (history : History) : Prop :=
  ∃ beginning before asked earlier outcome, (beginning :: before) <:+ earlier ∧
    (asked :: earlier) <:+ history ∧
    (beginning.task = entry.task ∧ ∃ generation, beginning.event = .checkBegan generation) ∧
    (asked.task = entry.task ∧ asked.event = .checkProbed outcome) ∧
    Silent entry.task (beginning :: before) earlier ∧ Silent entry.task (asked :: earlier) history ∧
    beginning.state.sup.repairEpoch = entry.state.sup.repairEpoch ∧ outcome ≠ .ok ∧
    (if beginning.state.sup.state = .connected then
      Probed outcome earlier
    else outcome = .failed ∧ (attempting (beginning :: before) = true ∨ Ended (beginning :: before))) ∧
    (outcome = .slow ∨ outcome = .busy → config.settings.probeFailures ≤ strikes history ∨
      FoundDead entry.task (asked :: earlier) history)

/-- Why `_check` keeps a master without evidence: its probe came back slow or
busy, after that too few probes had counted against the master, and after that
its socket answered. The call has not gone on since. -/
def AnswersLocally (config : Config) (task : Nat) (history : History) : Prop :=
  ∃ asked earlier weighed checked rest outcome, (asked :: earlier) <:+ weighed ∧
    Since weighed history checked rest ∧ (asked.task = task ∧ asked.event = .checkProbed outcome) ∧
    (outcome = .slow ∨ outcome = .busy) ∧ strikes weighed < config.settings.probeFailures ∧
    (checked.task = task ∧ checked.event = .controlChecked true) ∧
    story task history = story task earlier

/-- Every failure outstanding has been waited for. -/
def Due (history : History) (clock : ℚ) : Prop :=
  ∀ failure ∈ outstanding history, failure.state.sup.nextAttempt ≤ clock

/-- The newest entry is the decision of the task's own check. -/
def FromCheck (task : Nat) : History → Prop
  | [] => False
  | entry :: _ => entry.task = task ∧ ∃ generation, entry.event = .checkReplaces generation

/-- The task's repair has not ended yet, or its delay has just overflowed. -/
def Unsettled (task : Nat) (history : History) : Prop :=
  repairer history = some task ∨ ∃ entry rest, history = entry :: rest ∧ entry.task = task ∧
    entry.event = .backoffOverflowed

/-- What an entry says of the history before it. -/
def Warranted (config : Config) (entry : Record) (rest : History) : Prop :=
  match entry.event with
  | .masterConnected => Proved entry.task rest
  | .adoptionBegan => connections rest = 0
  | .repairBegan => (Reconnects entry.task rest ∨ Due rest entry.state.os.clock) ∧
      (FromCheck entry.task rest ∨ LacksMaster config entry.task rest)
  | .checkReplaces _ => CheckFails config entry rest
  | .checkAnswered _ .degraded => AnswersLocally config entry.task rest
  | .called _ => ∀ other ∈ rest, other.task = entry.task → other.event.isSingle = false
  | .checkBegan _ =>
      (∃ call ∈ rest, call.task = entry.task ∧ ∃ op, call.event = .called op ∧
        ((∃ id, op = .job id) → entry.state.sup.state = .connected)) ∧
      (entry.state.sup.state = .connected → consecutiveFailures rest = 0 ∧ repairing rest = false)
  | .failureRecorded | .backoffOverflowed | .startMasterCalled => repairer rest = some entry.task
  | .repairAborted _ => Unsettled entry.task rest
  | .stopMasterCalled => repairer rest = some entry.task ∨
      ∃ other ∈ rest, other.task = entry.task ∧ other.event = .called .close
  | .probeFinished _ outcome => Probed outcome rest
  | .returned value => ∀ generation ∈ value.named, 1 ≤ generation ∧ generation ≤ connections rest
  | .probeCounted outcome =>
      (∀ other ∈ rest, other.task = entry.task → other.event.isCount = false) ∧
        ∃ beginning before, (beginning :: before) <:+ rest ∧ beginning.task = entry.task ∧
          (∃ id, beginning.event = .called (.job id)) ∧
          ProbeSays entry.task outcome (beginning :: before) rest ∧
          attempts before = attempts rest ∧ connections before = connections rest ∧
          attempting before = false
  | _ => True

end Reasons

section Balance

/-- The supervisor's fields against the history. -/
structure Balance (sup : Supervisor) (trace : History) : Prop where
  generation : sup.generation = connections trace
  epoch : sup.repairEpoch = attempts trace
  bounded : connections trace + (if attempting trace then 1 else 0) ≤ attempts trace
  connected : sup.state = .connected → attempting trace = false ∧ sup.failures = 0 ∧
    sup.nextAttempt = 0 ∧ sup.lastError = none
  standing : attempting trace = false → 1 ≤ sup.generation → sup.state = .connected ∨ Ended trace
  strikes : sup.probeFailures = Supervision.strikes trace
  lastProbe : sup.lastProbe = lastCounted trace
  outstanding : ∀ failure ∈ Supervision.outstanding trace,
    failure.state.sup.nextAttempt ≤ sup.nextAttempt
  jobs : ∀ (id epoch : Nat), (sup.jobs.map Job.kind)[id]? = some (.probe epoch) →
    epoch ≤ sup.repairEpoch ∧ 1 ≤ sup.generation ∧
      (epoch = sup.repairEpoch → attempting trace = false)

theorem Ended.cons {history : History} (h : Ended history) (entry : Record) : Ended (entry :: history) := by
  rcases h with ⟨other, hOther, hEvent⟩ | ⟨other, hOther, hEvent, ending, hEnding, hEnds⟩
  · exact Or.inl ⟨other, List.mem_cons_of_mem _ hOther, hEvent⟩
  · exact Or.inr ⟨other, List.mem_cons_of_mem _ hOther, hEvent, ending, List.mem_cons_of_mem _ hEnding, hEnds⟩

/-- None of the fields in an account has changed. -/
structure SameBooks (before after : Supervisor) : Prop where
  generation : after.generation = before.generation
  epoch : after.repairEpoch = before.repairEpoch
  state : after.state = before.state
  failures : after.failures = before.failures
  nextAttempt : after.nextAttempt = before.nextAttempt
  lastError : after.lastError = before.lastError
  probeFailures : after.probeFailures = before.probeFailures
  lastProbe : after.lastProbe = before.lastProbe
  jobs : after.jobs.map Job.kind = before.jobs.map Job.kind

theorem SameBooks.of_eq {before after : Supervisor} (h : after = before) : SameBooks before after := by
  subst h
  exact ⟨rfl, rfl, rfl, rfl, rfl, rfl, rfl, rfl, rfl⟩

/-- Changing a job in another respect leaves it the job it is. -/
theorem kind_modify (jobs : List Job) (id : Nat) {f : Job → Job} (h : ∀ job, (f job).kind = job.kind) :
    (jobs.modify id f).map Job.kind = jobs.map Job.kind := by
  induction jobs generalizing id with
  | nil => simp
  | cons job rest ih => cases id <;> simp [h, ih]

variable {sup sup' : Supervisor} {entry : Record} {trace : History}

theorem Balance.same (h : Balance sup trace) (hSame : SameBooks sup sup') : Balance sup' trace where
  generation := hSame.generation.trans h.generation
  epoch := hSame.epoch.trans h.epoch
  bounded := h.bounded
  connected := by
    rw [hSame.state, hSame.failures, hSame.nextAttempt, hSame.lastError]
    exact h.connected
  standing := by
    rw [hSame.generation, hSame.state]
    exact h.standing
  strikes := hSame.probeFailures.trans h.strikes
  lastProbe := hSame.lastProbe.trans h.lastProbe
  outstanding := by
    rw [hSame.nextAttempt]
    exact h.outstanding
  jobs := by
    rw [hSame.jobs, hSame.epoch, hSame.generation]
    exact h.jobs

theorem Balance.other (h : Balance sup trace) (hEvent : entry.event.isEntered = false) :
    Balance sup (entry :: trace) where
  generation := by rw [connections_other hEvent, h.generation]
  epoch := by rw [attempts_other hEvent, h.epoch]
  bounded := by
    rw [connections_other hEvent, attempting_other hEvent, attempts_other hEvent]
    exact h.bounded
  connected := by
    rw [attempting_other hEvent]
    exact h.connected
  standing := by
    rw [attempting_other hEvent]
    exact fun hSettled hGeneration => (h.standing hSettled hGeneration).imp_right (·.cons entry)
  strikes := by rw [strikes_other hEvent, h.strikes]
  lastProbe := by rw [lastCounted_other hEvent, h.lastProbe]
  outstanding := by
    rw [outstanding_other hEvent]
    exact h.outstanding
  jobs := by
    rw [attempting_other hEvent]
    exact h.jobs

/-- A new attempt. A connection is given up before another is sought. -/
theorem Balance.begin (h : Balance sup trace) {connection : ConnectionState}
    (hDown : connection ≠ .connected) (hEvent : entry.event.beginsAttempt = true) :
    Balance { sup with repairEpoch := sup.repairEpoch + 1, state := connection } (entry :: trace) := by
  obtain ⟨task, event, state⟩ := entry
  have hBounded := h.bounded
  have hLater : ∀ (id epoch : Nat), (sup.jobs.map Job.kind)[id]? = some (.probe epoch) →
      epoch < sup.repairEpoch + 1 := fun id epoch hJob => Nat.lt_succ_of_le (h.jobs id epoch hJob).1
  cases event with
  | adoptionBegan | repairBegan =>
      exact
        { generation := h.generation
          epoch := congrArg Nat.succ h.epoch
          bounded := by
            change connections trace + 1 ≤ attempts trace + 1
            omega
          connected := fun hUp => absurd hUp hDown
          standing := fun hSettled => by cases hSettled
          strikes := h.strikes
          lastProbe := h.lastProbe
          outstanding := h.outstanding
          jobs := fun id epoch hJob =>
            ⟨(hLater id epoch hJob).le, (h.jobs id epoch hJob).2.1,
              fun hEq => absurd hEq (hLater id epoch hJob).ne⟩ }
  | _ => cases hEvent

theorem Balance.connect (h : Balance sup trace) {connectedAt : Option ℚ} {task : Nat} {state : State}
    (hAttempting : attempting trace = true) :
    Balance { sup with
      generation := sup.generation + 1, state := .connected, connectedAt, lastSuccessAt := connectedAt
      lastError := none, failures := 0, nextAttempt := 0, probeFailures := 0, lastProbe := none }
      (⟨task, .masterConnected, state⟩ :: trace) where
  generation := congrArg Nat.succ h.generation
  epoch := h.epoch
  bounded := by
    have hBounded := h.bounded
    rw [hAttempting] at hBounded
    exact hBounded
  connected := fun _ => ⟨rfl, rfl, rfl, rfl⟩
  standing := fun _ _ => Or.inl rfl
  strikes := rfl
  lastProbe := rfl
  outstanding := by simp [Supervision.outstanding]
  jobs := fun id epoch hJob => ⟨(h.jobs id epoch hJob).1, Nat.le_add_left _ _, fun _ => rfl⟩

/-- A failed repair, with a delay that no earlier failure in a row exceeds. -/
theorem Balance.fail (h : Balance sup trace) {state : State} {task : Nat} {detail : String} {time : ℚ}
    (hSup : state.sup = sup) (hAttempting : attempting trace = true)
    (hTime : ∀ failure ∈ Supervision.outstanding trace, failure.state.sup.nextAttempt ≤ time) :
    Balance ((state.recordFailure detail).setNextAttempt time).sup
      (⟨task, .failureRecorded, (state.recordFailure detail).setNextAttempt time⟩ :: trace) := by
  subst hSup
  exact
    { generation := h.generation
      epoch := h.epoch
      bounded := h.bounded
      connected := fun hUp => absurd hUp (not_up_of_down (classify_cases detail)).1
      standing := fun hSettled => by
        rw [show attempting (_ :: trace) = attempting trace from rfl, hAttempting] at hSettled
        cases hSettled
      strikes := h.strikes
      lastProbe := h.lastProbe
      outstanding := by
        intro failure hFailure
        rcases List.mem_cons.mp hFailure with rfl | hOld
        · exact le_rfl
        · exact hTime failure hOld
      jobs := h.jobs }

/-- A failed repair without a delay. -/
theorem Balance.overflow (h : Balance sup trace) {state : State} {task : Nat} {detail : String}
    (hSup : state.sup = sup) (hAttempting : attempting trace = true) :
    Balance (state.recordFailure detail).sup
      (⟨task, .backoffOverflowed, state.recordFailure detail⟩ :: trace) := by
  subst hSup
  exact
    { generation := h.generation
      epoch := h.epoch
      bounded := h.bounded
      connected := fun hUp => absurd hUp (not_up_of_down (classify_cases detail)).1
      standing := fun hSettled => by
        rw [show attempting (_ :: trace) = attempting trace from rfl, hAttempting] at hSettled
        cases hSettled
      strikes := h.strikes
      lastProbe := h.lastProbe
      outstanding := h.outstanding
      jobs := h.jobs }

theorem Balance.count (h : Balance sup trace) {state : State} {task : Nat} {started : ℚ}
    {outcome : ProbeOutcome} (hSup : state.sup = sup) :
    Balance (state.recordProbe started outcome).sup
      (⟨task, .probeCounted outcome, state.recordProbe started outcome⟩ :: trace) := by
  subst hSup
  have hFields : ∀ (failed : Nat) (lastSuccessAt : Option ℚ), failed = Supervision.strikes
      (⟨task, .probeCounted outcome, state.recordProbe started outcome⟩ :: trace) →
      Balance { state.sup with
        lastProbe := some outcome, probeFailures := failed, lastSuccessAt
        lastProbeSeconds := some (Python.roundTo 3 (state.os.clock - started)) }
        (⟨task, .probeCounted outcome, state.recordProbe started outcome⟩ :: trace) :=
    fun _ _ hStrikes =>
      { generation := h.generation
        epoch := h.epoch
        bounded := h.bounded
        connected := h.connected
        standing := fun hSettled hGeneration => (h.standing hSettled hGeneration).imp_right (·.cons _)
        strikes := hStrikes
        lastProbe := rfl
        outstanding := h.outstanding
        jobs := h.jobs }
  unfold State.recordProbe
  dsimp only
  cases outcome with
  | ok => exact hFields 0 _ rfl
  | _ => exact hFields _ _ (congrArg Nat.succ h.strikes)

end Balance

end Supervision
end Pazuzu
