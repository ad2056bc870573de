import Pazuzu.Asyncio.EventLoop

/-! Rely-guarantee reasoning about cooperative tasks. A discipline names an
invariant of the world and, for each task, what the other tasks may do while it
waits. Every single action of a task must keep the invariant and respect the
other tasks' assumptions; then both hold in every interleaving. -/
namespace Asyncio

variable {G : Signature} {P : System G}

/-- An invariant with the interference each task has to tolerate. -/
structure Discipline (P : System G) where
  inv : World G → Prop
  rely : Nat → World G → World G → Prop
  refl : ∀ task world, rely task world world
  trans : ∀ task first second third,
    rely task first second → rely task second third → rely task first third

namespace Discipline

variable (D : Discipline P)

/-- One action of a task: it re-establishes the invariant and lies within what
every other task tolerates. -/
def Act (task : Nat) (before after : World G) : Prop :=
  D.inv after ∧ ∀ other, other ≠ task → D.rely other before after

/-- The world after a wait has been answered. -/
def answered (op : P.Op) (task : Nat) (wait : G.Wait) (reply : Except G.Error (G.Reply wait))
    (world : World G) (state : G.State) : World G :=
  world.act task (P.note op wait reply) state

/-- Weakest precondition of a task's code under all interference at its waits.
That an answer itself respects the discipline is an obligation of the system,
once for all waits, and not of the code. -/
def wp {α : Type} (op : P.Op) (task : Nat) :
    Coro G α → (Except G.Error α → World G → Prop) → World G → Prop
  | .pure value, post, world => post (.ok value) world
  | .throw error, post, world => post (.error error) world
  | .read next, post, world => wp op task (next task world.state) post world
  | .act event update next, post, world =>
      D.Act task world (world.act task event (update world.state)) ∧
        wp op task next post (world.act task event (update world.state))
  | .await wait next, post, world =>
      ∀ later reply state, D.inv later → D.rely task world later →
        P.deliver op task wait reply later.state = some state →
        wp op task (next reply) post (answered op task wait reply later state)

section Rules

variable {D} {op : P.Op} {task : Nat} {α β : Type}
  {post : Except G.Error α → World G → Prop} {world : World G}

theorem wp_mono {code : Coro G α} {post' : Except G.Error α → World G → Prop}
    (h : D.wp op task code post world) (hPost : ∀ r w, post r w → post' r w) :
    D.wp op task code post' world := by
  induction code generalizing world with
  | pure value => exact hPost _ _ h
  | throw error => exact hPost _ _ h
  | read next ih => exact ih task world.state h
  | act event update next ih => exact ⟨h.1, ih h.2⟩
  | await wait next ih =>
      intro later reply state hInv hRely hDeliver
      exact ih reply (h later reply state hInv hRely hDeliver)

theorem wp_congr {code : Coro G α} {post' : Except G.Error α → World G → Prop}
    (h : ∀ r w, post r w ↔ post' r w) :
    D.wp op task code post world ↔ D.wp op task code post' world :=
  ⟨fun hw => wp_mono hw fun r w => (h r w).mp, fun hw => wp_mono hw fun r w => (h r w).mpr⟩

/-- The outcome of the first part decides whether the rest runs. -/
@[simp] theorem wp_bind (code : Coro G α) (next : α → Coro G β)
    (post : Except G.Error β → World G → Prop) (world : World G) :
    D.wp op task (code.bind next) post world ↔
      D.wp op task code (fun outcome w => match outcome with
        | .ok value => D.wp op task (next value) post w
        | .error error => post (.error error) w) world := by
  induction code generalizing world with
  | pure value => rfl
  | throw error => rfl
  | read rest ih => exact ih task world.state world
  | act event update rest ih => exact and_congr_right fun _ => ih _
  | await wait rest ih =>
      refine forall_congr' fun later => forall_congr' fun reply => forall_congr' fun state =>
        imp_congr_right fun _ => imp_congr_right fun _ => imp_congr_right fun _ => ih reply _

@[simp] theorem wp_attempt (code : Coro G α)
    (post : Except G.Error (Except G.Error α) → World G → Prop) (world : World G) :
    D.wp op task code.attempt post world ↔
      D.wp op task code (fun outcome w => post (.ok outcome) w) world := by
  induction code generalizing world with
  | pure value => rfl
  | throw error => rfl
  | read rest ih => exact ih task world.state world
  | act event update rest ih => exact and_congr_right fun _ => ih _
  | await wait rest ih =>
      refine forall_congr' fun later => forall_congr' fun reply => forall_congr' fun state =>
        imp_congr_right fun _ => imp_congr_right fun _ => imp_congr_right fun _ => ih reply _

theorem wp_pure (value : α) : D.wp op task (.pure value) post world ↔ post (.ok value) world :=
  Iff.rfl

theorem wp_throw (error : G.Error) :
    D.wp op task (.throw error) post world ↔ post (.error error) world := Iff.rfl

theorem wp_raise (error : G.Error) :
    D.wp op task (Coro.raise error) post world ↔ post (.error error) world := Iff.rfl

theorem wp_get (post : Except G.Error G.State → World G → Prop) :
    D.wp op task Coro.get post world ↔ post (.ok world.state) world := Iff.rfl

theorem wp_update (f : G.State → G.State) (post : Except G.Error Unit → World G → Prop) :
    D.wp op task (Coro.update f) post world ↔
      D.Act task world (world.act task none (f world.state)) ∧
        post (.ok ()) (world.act task none (f world.state)) := Iff.rfl

theorem wp_ofExcept (outcome : Except G.Error α) :
    D.wp op task (Coro.ofExcept outcome) post world ↔ post outcome world := by
  cases outcome <;> rfl

theorem wp_suspend (wait : G.Wait) (post : Except G.Error (G.Reply wait) → World G → Prop) :
    D.wp op task (Coro.suspend wait) post world ↔
      ∀ later reply state, D.inv later → D.rely task world later →
        P.deliver op task wait reply later.state = some state →
        post reply (answered op task wait reply later state) := by
  refine forall_congr' fun later => forall_congr' fun reply => forall_congr' fun state =>
    imp_congr_right fun _ => imp_congr_right fun _ => imp_congr_right fun _ => wp_ofExcept reply

theorem wp_tryCatch (code : Coro G α) (handler : G.Error → Coro G α) :
    D.wp op task (code.tryCatch handler) post world ↔
      D.wp op task code (fun outcome w => match outcome with
        | .ok value => post (.ok value) w
        | .error error => D.wp op task (handler error) post w) world := by
  unfold Coro.tryCatch
  rw [wp_bind, wp_attempt]
  refine wp_congr fun outcome w => ?_
  cases outcome <;> exact Iff.rfl

theorem wp_tryFinally (code : Coro G α) (final : Coro G Unit) :
    D.wp op task (code.tryFinally final) post world ↔
      D.wp op task code (fun outcome w => D.wp op task final (fun r w => match r with
        | .ok _ => post outcome w
        | .error error => post (.error error) w) w) world := by
  unfold Coro.tryFinally
  rw [wp_bind, wp_attempt]
  refine wp_congr fun outcome w => ?_
  change D.wp op task (final.bind fun _ => Coro.ofExcept outcome) post w ↔ _
  rw [wp_bind]
  refine wp_congr fun r w => ?_
  cases r with
  | ok value => exact wp_ofExcept outcome
  | error error => exact Iff.rfl

theorem wp_when (condition : Prop) [Decidable condition] (code : Coro G Unit)
    (post : Except G.Error Unit → World G → Prop) :
    D.wp op task (Coro.when condition code) post world ↔
      (condition → D.wp op task code post world) ∧ (¬condition → post (.ok ()) world) := by
  unfold Coro.when
  split <;> simp [*, wp_pure]

theorem wp_ite (condition : Prop) [Decidable condition] (first second : Coro G α) :
    D.wp op task (if condition then first else second) post world ↔
      (condition → D.wp op task first post world) ∧
      (¬condition → D.wp op task second post world) := by
  split <;> simp [*]

end Rules

/-- What is left of a task's code is safe to resume: its next answer, whenever
it comes, finds a satisfied precondition. -/
def Ready (op : P.Op) (task : Nat) (code : Coro G P.Value) (world : World G) : Prop :=
  match code with
  | .await wait next => D.wp op task (.await wait next) (fun _ _ => True) world
  | _ => True

theorem Ready.stable {op : P.Op} {task : Nat} {code : Coro G P.Value}
    {before after : World G} (h : D.Ready op task code before)
    (hRely : D.rely task before after) : D.Ready op task code after := by
  cases code with
  | await wait next =>
      intro later reply state hInv hLater hDeliver
      exact h later reply state hInv (D.trans _ _ _ _ hRely hLater) hDeliver
  | _ => trivial

theorem Act.trans {task : Nat} {first second third : World G}
    (h : D.Act task first second) (h' : D.Act task second third) : D.Act task first third :=
  ⟨h'.1, fun other hne => D.trans _ _ _ _ (h.2 other hne) (h'.2 other hne)⟩

/-- Running code up to its next wait is one action of its task, and leaves the
task ready for whatever comes. -/
theorem wp_advance {op : P.Op} {task : Nat} {code : Coro G P.Value} {world : World G}
    (h : D.wp op task code (fun _ _ => True) world) (hInv : D.inv world) :
    D.Act task world (code.advance task world).2 ∧
      D.Ready op task (code.advance task world).1 (code.advance task world).2 := by
  induction code generalizing world with
  | pure value => exact ⟨⟨hInv, fun _ _ => D.refl _ _⟩, trivial⟩
  | throw error => exact ⟨⟨hInv, fun _ _ => D.refl _ _⟩, trivial⟩
  | await wait next => exact ⟨⟨hInv, fun _ _ => D.refl _ _⟩, h⟩
  | read next ih => exact ih task world.state h hInv
  | act event update next ih =>
      have hRest := ih h.2 h.1.1
      exact ⟨h.1.trans D hRest.1, hRest.2⟩

/-- An answer is an action of the waiting task, and within what that task
itself relies on. -/
def Answers : Prop :=
  ∀ op task wait reply world state, D.inv world →
    P.deliver op task wait reply world.state = some state →
    D.Act task world (answered op task wait reply world state) ∧
      D.rely task world (answered op task wait reply world state)

/-- The obligations of a whole program. Only operations in `allowed` are
covered, so that a result can be about runs that start no others. -/
structure Sound (allowed : P.Op → Prop) : Prop where
  disturbs : ∀ move world state, D.inv world → P.disturb move world.state = some state →
    D.inv ({ world with state }) ∧ ∀ task, D.rely task world ({ world with state })
  answers : D.Answers
  starts : ∀ op world state, allowed op → D.inv world → P.accept op world.state = some state →
    D.Act world.started world { world with state, started := world.started + 1 } ∧
      D.wp op world.started (P.body op) (fun _ _ => True)
        { world with state, started := world.started + 1 }

/-- The invariant holds and every task is ready to be resumed. -/
structure Safe (loop : Loop P) : Prop where
  inv : D.inv loop.world
  count : loop.world.started = loop.tasks.length
  ready : ∀ (task : Nat) (op : P.Op) (code : Coro G P.Value),
    loop.tasks[task]? = some ⟨op, code⟩ → D.Ready op task code loop.world

variable {D} {allowed : P.Op → Prop}

theorem Coro.advance_started {α : Type} (task : Nat) (code : Coro G α) (world : World G) :
    (code.advance task world).2.started = world.started := by
  induction code generalizing world with
  | pure value => rfl
  | throw error => rfl
  | await wait next => rfl
  | read next ih => exact ih task world.state world
  | act event update next ih => rw [Coro.advance, ih, World.act_started]

/-- One choice keeps the loop safe, whoever it resumes. -/
theorem Safe.step {loop next : Loop P} (hSound : D.Sound allowed) (hSafe : D.Safe loop)
    (choice : Choice P) (hStep : loop.step choice = some next)
    (hAllowed : ∀ op, choice = .start op → allowed op) : D.Safe next := by
  obtain ⟨op, state, rfl, hAccept, rfl⟩ | ⟨task, answer, op, wait, rest, state, rfl, hTask, hDeliver, rfl⟩ |
    ⟨move, state, rfl, hMove, rfl⟩ := Loop.step_cases hStep
  · obtain ⟨hAct, hWp⟩ := hSound.starts op loop.world state (hAllowed op rfl) hSafe.inv hAccept
    obtain ⟨hRun, hReady⟩ := wp_advance D hWp hAct.1
    have hAll := hAct.trans D hRun
    refine ⟨hAll.1, ?_, fun task op' code hTask => ?_⟩
    · simp [Loop.proceed, Coro.advance_started, hSafe.count]
    · rcases Loop.task_of_append hTask with ⟨hne, hOld⟩ | ⟨rfl, hNew⟩
      · rw [← hSafe.count] at hne
        exact (hSafe.ready task op' code hOld).stable D (hAll.2 task hne)
      · cases hNew
        rw [← hSafe.count]
        exact hReady
  · have hWait := hSafe.ready task op _ hTask loop.world (answer wait) state hSafe.inv (D.refl _ _) hDeliver
    obtain ⟨hAnswer, -⟩ := hSound.answers op task wait (answer wait) loop.world state hSafe.inv hDeliver
    obtain ⟨hRun, hReady⟩ := wp_advance D hWait hAnswer.1
    have hAll := hAnswer.trans D hRun
    refine ⟨hAll.1, ?_, fun other op' code hOther => ?_⟩
    · simp [Loop.proceed, Coro.advance_started, hSafe.count]
    · rcases Loop.task_of_set hOther with ⟨hne, hOld⟩ | ⟨rfl, hNew⟩
      · exact (hSafe.ready other op' code hOld).stable D (hAll.2 other hne)
      · cases hNew
        exact hReady
  · obtain ⟨hInv, hRely⟩ := hSound.disturbs move loop.world state hSafe.inv hMove
    exact ⟨hInv, hSafe.count, fun task op code hTask => (hSafe.ready task op code hTask).stable D (hRely task)⟩

/-- A run that starts only covered operations stays safe, in whatever order
its tasks are resumed. -/
theorem Safe.run {loop final : Loop P} {choices : List (Choice P)} (hSound : D.Sound allowed)
    (hSafe : D.Safe loop) (hRun : loop.run choices = some final)
    (hAllowed : ∀ op, .start op ∈ choices → allowed op) : D.Safe final :=
  Loop.run_keeps D.Safe (fun choice hIn _ _ hSoFar hStep =>
    hSoFar.step hSound choice hStep fun op hOp => hAllowed op (hOp ▸ hIn)) hSafe hRun

theorem Sound.run (hSound : D.Sound allowed) {state : G.State} {final : Loop P}
    {choices : List (Choice P)} (hInitial : D.inv { state })
    (hRun : (Loop.initial P state).run choices = some final)
    (hAllowed : ∀ op, .start op ∈ choices → allowed op) : D.inv final.world := by
  have hSafe : D.Safe (Loop.initial P state) :=
    ⟨hInitial, rfl, fun task op code hTask => by simp [Loop.initial] at hTask⟩
  exact (hSafe.run hSound hRun hAllowed).inv

end Discipline
end Asyncio
