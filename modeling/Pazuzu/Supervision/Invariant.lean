import Pazuzu.Asyncio.Calm
import Pazuzu.Supervision.Command

/-! The invariant of a gateway over all interleavings of its tasks, and what
each task may rely on while it waits. Both speak of the deciding fields and of
the history only. -/
namespace Pazuzu.Supervision

open Asyncio

/-- What never goes back: epochs and generations grow, a closed gateway stays
closed, jobs are settled once, and a connection that was not there before in
the same epoch has a new generation. -/
structure Progress (before after : Core) : Prop where
  epoch : before.epoch ≤ after.epoch
  generation : before.generation ≤ after.generation
  closed : before.closed = true → after.closed = true
  jobs : ∀ (id : Nat) kind outcome, before.jobs[id]? = some (kind, outcome) →
    ∃ outcome', after.jobs[id]? = some (kind, outcome') ∧ (outcome.isSome = true → outcome' = outcome)
  connected : after.connection = .connected →
    (before.connection = .connected ∧ after.epoch = before.epoch) ∨
      before.generation < after.generation

theorem Progress.refl (c : Core) : Progress c c :=
  ⟨Nat.le_refl _, Nat.le_refl _, id, fun _ _ outcome h => ⟨outcome, h, fun _ => rfl⟩,
    fun h => Or.inl ⟨h, rfl⟩⟩

theorem Progress.trans {first second third : Core} (h : Progress first second)
    (h' : Progress second third) : Progress first third where
  epoch := h.epoch.trans h'.epoch
  generation := h.generation.trans h'.generation
  closed := h'.closed ∘ h.closed
  jobs := by
    intro id kind outcome hJob
    obtain ⟨middle, hMiddle, hSame⟩ := h.jobs id kind outcome hJob
    obtain ⟨last, hLast, hSame'⟩ := h'.jobs id kind middle hMiddle
    refine ⟨last, hLast, fun hSome => ?_⟩
    have hEq := hSame hSome
    rw [hSame' (by rw [hEq]; exact hSome), hEq]
  connected := by
    intro hConnected
    rcases h'.connected hConnected with ⟨hMiddle, hEpoch⟩ | hLess
    · rcases h.connected hMiddle with ⟨hFirst, hEpoch'⟩ | hLess
      · exact Or.inl ⟨hFirst, hEpoch.trans hEpoch'⟩
      · exact Or.inr (hLess.trans_le h'.generation)
    · exact Or.inr (h.generation.trans_lt hLess)

/-- What every action and every wait does to the world. -/
structure Grows (before after : GatewayWorld) : Prop where
  started : before.started ≤ after.started
  progress : Progress (core before.state) (core after.state)
  history : before.trace <:+ after.trace
  entries : ∀ entry rest, Since before.trace after.trace entry rest →
    Progress (core before.state) (core entry.state) ∧ Progress (core entry.state) (core after.state)
  probes : ∀ (id epoch : Nat) outcome,
    (core before.state).jobs[id]? = some (.probe epoch, none) →
    (core after.state).jobs[id]? = some (.probe epoch, some (.ok (some outcome))) →
    ∃ entry rest, Since before.trace after.trace entry rest ∧
      entry.event = .probeFinished epoch outcome

theorem Grows.refl (w : GatewayWorld) : Grows w w where
  started := Nat.le_refl _
  progress := Progress.refl _
  history := List.suffix_rfl
  entries := fun _ _ h => absurd h since_self
  probes := by
    intro id epoch outcome hBefore hAfter
    rw [hBefore] at hAfter
    cases hAfter

theorem Grows.trans {first second third : GatewayWorld} (h : Grows first second)
    (h' : Grows second third) : Grows first third where
  started := h.started.trans h'.started
  progress := h.progress.trans h'.progress
  history := h.history.trans h'.history
  entries := by
    intro entry rest hSince
    rcases hSince.split h.history h'.history with hOld | hNew
    · exact ⟨(h.entries _ _ hOld).1, (h.entries _ _ hOld).2.trans h'.progress⟩
    · exact ⟨h.progress.trans (h'.entries _ _ hNew).1, (h'.entries _ _ hNew).2⟩
  probes := by
    intro id epoch outcome hFirst hThird
    obtain ⟨middle, hMiddle, -⟩ := h.progress.jobs id _ _ hFirst
    cases middle with
    | none =>
        obtain ⟨entry, rest, hSince, hEvent⟩ := h'.probes id epoch outcome hMiddle hThird
        exact ⟨entry, rest, hSince.mono h.history, hEvent⟩
    | some settled =>
        obtain ⟨last, hLast, hSame⟩ := h'.progress.jobs id _ _ hMiddle
        rw [hThird, hSame rfl] at hLast
        obtain ⟨entry, rest, hSince, hEvent⟩ := h.probes id epoch outcome hFirst (by
          rw [hMiddle]; exact hLast.symm)
        exact ⟨entry, rest, hSince.extend h'.history, hEvent⟩

/-- Nobody touches what the holder of the repair lock protects. Only `detach`
may take the connection away from it. -/
structure Protected (before after : GatewayWorld) (task : Nat) : Prop where
  holder : (core after.state).holder = some task
  epoch : (core after.state).epoch = (core before.state).epoch
  generation : (core after.state).generation = (core before.state).generation
  failures : (core after.state).failures = (core before.state).failures
  connection : (core after.state).connection = (core before.state).connection ∨
    ((core after.state).closed = true ∧ (core after.state).connection = .detached)
  entries : ∀ entry rest, Since before.trace after.trace entry rest →
    (core entry.state).holder = some task ∧ entry.event.isRepair = false

/-- Within an epoch, and while no repair runs, a master that was once there is
kept. -/
structure Kept (before after : GatewayWorld) : Prop where
  repairing : Supervision.repairing after.trace = false
  generation : (core after.state).generation = (core before.state).generation
  connection : (core after.state).connection = (core before.state).connection ∨
    (core after.state).closed = true

/-- What a task relies on while it waits. -/
structure Rely (task : Nat) (before after : GatewayWorld) : Prop where
  grows : Grows before after
  story : story task after.trace = story task before.trace
  held : (core before.state).holder = some task → Protected before after task
  steady : repairing before.trace = false → 1 ≤ (core before.state).generation →
    (core after.state).epoch = (core before.state).epoch → Kept before after

theorem Protected.trans {first second third : GatewayWorld} {task : Nat}
    (h : Protected first second task) (h' : Protected second third task)
    (hGrows : Grows first second) (hGrows' : Grows second third) : Protected first third task where
  holder := h'.holder
  epoch := h'.epoch.trans h.epoch
  generation := h'.generation.trans h.generation
  failures := h'.failures.trans h.failures
  connection := by
    rcases h'.connection with hSame | hDetached
    · rw [hSame]
      exact h.connection.imp_right fun hDetached =>
        ⟨hGrows'.progress.closed hDetached.1, hDetached.2⟩
    · exact Or.inr hDetached
  entries := by
    intro entry rest hSince
    rcases hSince.split hGrows.history hGrows'.history with hOld | hNew
    · exact h.entries _ _ hOld
    · exact h'.entries _ _ hNew

theorem Rely.refl (task : Nat) (w : GatewayWorld) : Rely task w w where
  grows := Grows.refl w
  story := rfl
  held := fun hHolder => ⟨hHolder, rfl, rfl, rfl, Or.inl rfl, fun _ _ h => absurd h since_self⟩
  steady := fun hRepairing _ _ => ⟨hRepairing, rfl, Or.inl rfl⟩

theorem Rely.trans {task : Nat} {first second third : GatewayWorld} (h : Rely task first second)
    (h' : Rely task second third) : Rely task first third where
  grows := h.grows.trans h'.grows
  story := h'.story.trans h.story
  held := fun hHolder =>
    (h.held hHolder).trans (h'.held (h.held hHolder).holder) h.grows h'.grows
  steady := by
    intro hRepairing hGeneration hEpoch
    have hFirst := h.grows.progress.epoch
    have hSecond := h'.grows.progress.epoch
    have hKept := h.steady hRepairing hGeneration (by omega)
    have hKept' := h'.steady hKept.repairing (hKept.generation ▸ hGeneration) (by omega)
    refine ⟨hKept'.repairing, hKept'.generation.trans hKept.generation, ?_⟩
    rcases hKept'.connection with hSame | hClosed
    · rw [hSame]
      exact hKept.connection.imp_right h'.grows.progress.closed
    · exact Or.inr hClosed

/-- A check for a generation begins in time if the master is connected, or if
its own master is the last one and no repair is under way. -/
def Timely (generation : Nat) (entry : Record) (before : History) : Prop :=
  (core entry.state).connection = .connected ∨
    ((core entry.state).generation = generation ∧ repairing before = false)

/-- Some check of the task for this generation began at the wrong time. -/
def Untimely (task generation : Nat) (history : History) : Prop :=
  ∃ entry before, (entry :: before) <:+ history ∧ entry.task = task ∧
    entry.event = .checkBegan generation ∧ ¬Timely generation entry before

/-- The repair of this epoch failed and was recorded so. -/
def FailureOf (epoch : Nat) (history : History) : Prop :=
  ∃ entry ∈ history, entry.event.isFailure = true ∧ (core entry.state).epoch = epoch

/-- The master is gone. Unless the gateway closes, its last repair has failed,
or it has not come to an end. -/
def Outage (c : Core) (history : History) : Prop :=
  c.connection ≠ .connected ∧
    (c.closed = true ∨ c.connection = .reconnecting ∨ FailureOf c.epoch history)

/-- The evidence for an exit 255 of the remote command itself: since the
session ended no repair began, and a probe of the same master came back. -/
def Evidence (answer : Record) (rest : History) (generation : Nat) : Prop :=
  ∃ ending before result, (ending :: before) <:+ rest ∧ ending.task = answer.task ∧
    ending.event = .sessionEnded generation result ∧ result.exitCode = 255 ∧
    (core ending.state).epoch = (core answer.state).epoch ∧
    ∃ probe earlier, Since (ending :: before) rest probe earlier ∧
      probe.event = .probeFinished (core ending.state).epoch .ok ∧
      (core probe.state).generation = generation

/-- What each entry says about the history before it. -/
def Permitted (entry : Record) (rest : History) : Prop :=
  match entry.event with
  | .interrupted (.job _) .cancelled => (core entry.state).closed = true
  | .checkBegan generation => 1 ≤ generation ∧ generation ≤ (core entry.state).generation
  | .checkReplaces generation =>
      (core entry.state).generation = generation ∨ Untimely entry.task generation rest
  | .checkAnswered generation verdict =>
      (verdict = .replaced → generation < (core entry.state).generation) ∧
        (verdict ≠ .replaced → (core entry.state).generation = generation)
  | .checkRaised _ error =>
      (error.isConnectionUnavailable = true → Outage (core entry.state) rest) ∧
      ((core entry.state).connection = .reconnecting → ¬FailureOf (core entry.state).epoch rest) ∧
      (error.isConnectionUnavailable = false → (core entry.state).closed = true ∨
        ∃ other ∈ rest, other.event.fails = true ∨
          (other.task = entry.task ∧ other.event.isCancellation = true))
  | .masterConnected =>
      (core entry.state).connection = .connected ∧
        ∀ other ∈ rest, (core other.state).generation < (core entry.state).generation
  | .repairBegan | .adoptionBegan =>
      ∀ other ∈ rest, (core other.state).epoch < (core entry.state).epoch
  | .failureRecorded =>
      ((core entry.state).connection = .offline ∨
        (core entry.state).connection = .authenticationRequired) ∧
      entry.state.sup.failures = consecutiveFailures rest + 1 ∧
      ∃ delay, boundedBackoff entry.state.sup.failures = some delay ∧
        entry.state.sup.nextAttempt = entry.state.os.clock + delay
  | .backoffOverflowed =>
      entry.state.sup.failures = consecutiveFailures rest + 1 ∧
        boundedBackoff entry.state.sup.failures = none
  | .repairAborted _ => Broken rest
  | .returned (.command result) =>
      result.exitCode = 255 → ∀ command stdin timeout retrySafe,
        .called (.execute command stdin timeout retrySafe) ∈ story entry.task rest →
        Evidence entry rest result.connectionGeneration
  | _ => True

/-- The part of the invariant that repairs maintain. -/
structure RepairInv (c : Core) (trace : History) : Prop where
  connected : c.connection = .connected → 1 ≤ c.generation
  held : repairing trace = true →
    c.holder.isSome = true ∧
      (c.connection = .reconnecting ∨ (c.closed = true ∧ c.connection ≠ .connected))
  reconnecting : c.connection = .reconnecting → repairing trace = true ∨ Broken trace
  failed : 1 ≤ c.generation → c.connection ≠ .connected → c.connection ≠ .reconnecting →
    c.closed = true ∨ FailureOf c.epoch trace
  unrecorded : c.connection = .reconnecting → ¬FailureOf c.epoch trace
  settled : ∀ entry ∈ trace, entry.event = .repairBegan →
    ((core entry.state).epoch = c.epoch ∧ repairing trace = true) ∨ Broken trace ∨
      ∃ ending ∈ trace, (core ending.state).epoch = (core entry.state).epoch ∧
        (ending.event = .masterConnected ∨ ending.event = .failureRecorded)
  counted : c.failures = consecutiveFailures trace

/-- A probe task fails only because something failed it. -/
def JobInv (c : Core) (trace : History) : Prop :=
  ∀ (id epoch : Nat) error, c.jobs[id]? = some (.probe epoch, some (.error error)) →
    error.isPazuzu = false ∧ (c.closed = true ∨ ∃ entry ∈ trace, entry.event.fails = true)

/-- The probe in flight is one of the created tasks. -/
def FlightInv (c : Core) : Prop :=
  ∀ epoch id, c.flight = some (epoch, id) → ∃ outcome, c.jobs[id]? = some (.probe epoch, outcome)

structure Inv (w : GatewayWorld) : Prop where
  tellers : ∀ entry ∈ w.trace, entry.event.isStory = true → entry.task < w.started
  past : ∀ entry ∈ w.trace, Progress (core entry.state) (core w.state)
  ordered : ∀ entry rest, (entry :: rest) <:+ w.trace → ∀ other ∈ rest,
    Progress (core other.state) (core entry.state)
  repair : RepairInv (core w.state) w.trace
  jobs : JobInv (core w.state) w.trace
  flight : FlightInv (core w.state)
  cancelling : (core w.state).cancelling = true → (core w.state).closed = true
  shutdown : (core w.state).closed = true →
    ∃ entry ∈ w.trace, entry.event = .called .close ∨ entry.event = .called .detach
  lawful : ∀ task, Lawful (story task w.trace)
  permitted : ∀ entry rest, (entry :: rest) <:+ w.trace → Permitted entry rest

theorem Inv.permitted_of_mem {w : GatewayWorld} {entry : Record} (h : Inv w)
    (hEntry : entry ∈ w.trace) : ∃ rest, (entry :: rest) <:+ w.trace ∧ Permitted entry rest := by
  obtain ⟨rest, hSuffix⟩ := exists_suffix_of_mem hEntry
  exact ⟨rest, hSuffix, h.permitted entry rest hSuffix⟩

theorem Inv.boot (os : Os) : Inv { state := State.boot os } where
  tellers := by simp
  past := by simp
  ordered := by simp
  repair :=
    { connected := by simp [core, State.boot]
      held := by simp [repairing]
      reconnecting := by simp [core, State.boot]
      failed := by simp [core, State.boot]
      unrecorded := by simp [core, State.boot]
      settled := by simp
      counted := rfl }
  jobs := by simp [JobInv, core, State.boot]
  flight := by simp [FlightInv, core, State.boot]
  cancelling := by simp [core, State.boot]
  shutdown := by simp [core, State.boot]
  lawful := by simp [Lawful]
  permitted := by simp

/-- Rely and guarantee of all tasks of a gateway. -/
def discipline (config : Config) : Discipline (gateway config) where
  inv := Inv
  rely := Rely
  refl := Rely.refl
  trans := fun _ _ _ _ => Rely.trans

end Pazuzu.Supervision
