import Pazuzu.Asyncio.Coroutine

/-! One event loop over any number of tasks. A run is a list of choices: which
operation starts, which task is resumed and with what answer, and what the
surroundings do. All nondeterminism of the scheduler and of the environment is
in these choices, so every run can be replayed by evaluation. -/
namespace Asyncio

/-- An event of the history, with the task that caused it and the state its
action left behind. -/
structure Entry (G : Signature) where
  task : Nat
  event : G.Event
  state : G.State

/-- The shared state with the run's history, newest entry first, and the
number of tasks started so far. -/
structure World (G : Signature) where
  state : G.State
  trace : List (Entry G) := []
  started : Nat := 0

namespace World

variable {G : Signature}

/-- A task's action: the new state, and an entry where the action has an event. -/
def act (world : World G) (task : Nat) (event : Option G.Event) (state : G.State) : World G :=
  match event with
  | none => { world with state }
  | some event => { world with state, trace := ⟨task, event, state⟩ :: world.trace }

@[simp] theorem act_state (w : World G) (t : Nat) (e : Option G.Event) (s : G.State) :
    (w.act t e s).state = s := by cases e <;> rfl

@[simp] theorem act_started (w : World G) (t : Nat) (e : Option G.Event) (s : G.State) :
    (w.act t e s).started = w.started := by cases e <;> rfl

@[simp] theorem act_none_trace (w : World G) (t : Nat) (s : G.State) :
    (w.act t none s).trace = w.trace := rfl

@[simp] theorem act_some_trace (w : World G) (t : Nat) (e : G.Event) (s : G.State) :
    (w.act t (some e) s).trace = ⟨t, e, s⟩ :: w.trace := rfl

end World

/-- A program of operations over one signature, with its surroundings.
`accept` says when an operation may start, `deliver` when a wait may be
answered so, and `disturb` what may happen without any task running; each
gives the state afterwards. `note` is what an answer leaves in the history. -/
structure System (G : Signature) where
  Op : Type
  Value : Type
  Move : Type
  body : Op → Coro G Value
  accept : Op → G.State → Option G.State
  deliver : Op → Nat → (wait : G.Wait) → Except G.Error (G.Reply wait) →
    G.State → Option G.State
  note : Op → (wait : G.Wait) → Except G.Error (G.Reply wait) → Option G.Event
  disturb : Move → G.State → Option G.State

/-- Run a task's code up to its next wait or its end. -/
def Coro.advance {G : Signature} {α : Type} (task : Nat) :
    Coro G α → World G → Coro G α × World G
  | .read next, world => (next task world.state).advance task world
  | .act event update next, world =>
      next.advance task (world.act task event (update world.state))
  | .pure value, world => (.pure value, world)
  | .throw error, world => (.throw error, world)
  | .await wait next, world => (.await wait next, world)

variable {G : Signature}

namespace Coro

variable {α β : Type} {task : Nat} {world after : World G}

/-- Code that comes to its end without a wait goes on with what follows. -/
theorem advance_bind {code : Coro G α} {next : α → Coro G β} {value : α}
    (h : code.advance task world = (.pure value, after)) :
    (code.bind next).advance task world = (next value).advance task after := by
  induction code generalizing world with
  | pure =>
      cases h
      rfl
  | throw => cases h
  | read rest ih => exact ih task world.state h
  | act event update rest ih => exact ih h
  | await => cases h

theorem advance_attempt {code : Coro G α} {outcome : Except G.Error α}
    (h : code.advance task world = (ofExcept outcome, after)) :
    code.attempt.advance task world = (.pure outcome, after) := by
  induction code generalizing world with
  | pure =>
      cases outcome <;> cases h
      rfl
  | throw =>
      cases outcome <;> cases h
      rfl
  | read rest ih => exact ih task world.state h
  | act event update rest ih => exact ih h
  | await => cases outcome <;> cases h

theorem advance_history (task : Nat) (code : Coro G α) (world : World G) :
    world.trace <:+ (code.advance task world).2.trace := by
  induction code generalizing world with
  | pure value => exact List.suffix_rfl
  | throw error => exact List.suffix_rfl
  | await wait next => exact List.suffix_rfl
  | read next ih => exact ih task world.state world
  | act event update next ih =>
      refine List.IsSuffix.trans ?_ (ih _)
      cases event with
      | none => exact List.suffix_rfl
      | some event => exact List.suffix_cons _ _

end Coro

structure Task (P : System G) where
  op : P.Op
  code : Coro G P.Value

structure Loop (P : System G) where
  world : World G
  tasks : List (Task P) := []

/-- A decision of the scheduler or of the surroundings. An answer is a
function of the wait, so that a choice need not repeat what is waited for. -/
inductive Choice (P : System G) where
  | start (op : P.Op)
  | resume (task : Nat) (answer : (wait : G.Wait) → Except G.Error (G.Reply wait))
  | disturb (move : P.Move)

namespace Loop

variable {P : System G}

def initial (P : System G) (state : G.State) : Loop P := { world := { state } }

/-- Let the code of one task run from a world, and keep what is left of it. -/
def proceed (loop : Loop P) (task : Nat) (op : P.Op) (code : Coro G P.Value)
    (world : World G) (place : Task P → List (Task P)) : Loop P :=
  let outcome := code.advance task world
  { loop with world := outcome.2, tasks := place ⟨op, outcome.1⟩ }

def step (loop : Loop P) : Choice P → Option (Loop P)
  | .start op =>
      match P.accept op loop.world.state with
      | none => none
      | some state => some (loop.proceed loop.world.started op (P.body op)
          { loop.world with state, started := loop.world.started + 1 }
          fun task => loop.tasks ++ [task])
  | .resume task answer =>
      match loop.tasks[task]? with
      | some ⟨op, .await wait next⟩ =>
          match P.deliver op task wait (answer wait) loop.world.state with
          | none => none
          | some state => some (loop.proceed task op (next (answer wait))
              (loop.world.act task (P.note op wait (answer wait)) state)
              fun resumed => loop.tasks.set task resumed)
      | _ => none
  | .disturb move =>
      match P.disturb move loop.world.state with
      | none => none
      | some state => some { loop with world := { loop.world with state } }

def run (loop : Loop P) : List (Choice P) → Option (Loop P)
  | [] => some loop
  | choice :: rest =>
      match loop.step choice with
      | none => none
      | some next => next.run rest

/-- Choices can be made in two stages. -/
theorem run_append {loop middle : Loop P} {choices more : List (Choice P)}
    (h : loop.run choices = some middle) : loop.run (choices ++ more) = middle.run more := by
  induction choices generalizing loop with
  | nil =>
      cases h
      rfl
  | cons choice rest ih =>
      simp only [run] at h
      simp only [List.cons_append, run]
      split at h
      · cases h
      · next next hStep => exact ih h

/-- What a step can be: a task starts, a task goes on with an answer, or the
surroundings move. -/
theorem step_cases {loop next : Loop P} {choice : Choice P} (h : loop.step choice = some next) :
    (∃ op state, choice = .start op ∧ P.accept op loop.world.state = some state ∧
      next = loop.proceed loop.world.started op (P.body op)
        { loop.world with state, started := loop.world.started + 1 } fun task => loop.tasks ++ [task]) ∨
    (∃ task answer op wait rest state, choice = .resume task answer ∧
      loop.tasks[task]? = some ⟨op, .await wait rest⟩ ∧
      P.deliver op task wait (answer wait) loop.world.state = some state ∧
      next = loop.proceed task op (rest (answer wait)) (loop.world.act task (P.note op wait (answer wait)) state)
        fun resumed => loop.tasks.set task resumed) ∨
    ∃ move state, choice = .disturb move ∧ P.disturb move loop.world.state = some state ∧
      next = { loop with world := { loop.world with state } } := by
  cases choice with
  | start op =>
      simp only [step] at h
      split at h
      · cases h
      · next state hAccept =>
          cases h
          exact Or.inl ⟨op, state, rfl, hAccept, rfl⟩
  | resume task answer =>
      simp only [step] at h
      split at h
      · next op wait rest hTask =>
          split at h
          · cases h
          · next state hDeliver =>
              cases h
              exact Or.inr (Or.inl ⟨task, answer, op, wait, rest, state, rfl, hTask, hDeliver, rfl⟩)
      · cases h
  | disturb move =>
      simp only [step] at h
      split at h
      · cases h
      · next state hMove =>
          cases h
          exact Or.inr (Or.inr ⟨move, state, rfl, hMove, rfl⟩)

/-- Behind the tasks that are there comes the one that starts. -/
theorem task_of_append {tasks : List (Task P)} {new found : Task P} {task : Nat}
    (h : (tasks ++ [new])[task]? = some found) :
    (task ≠ tasks.length ∧ tasks[task]? = some found) ∨ (task = tasks.length ∧ new = found) := by
  rw [List.getElem?_append] at h
  split at h
  · next hOld => exact Or.inl ⟨Nat.ne_of_lt hOld, h⟩
  · next hNew =>
      have hBound := (List.getElem?_eq_some_iff.mp h).1
      simp only [List.length_singleton] at hBound
      have hLast : task = tasks.length := by omega
      subst hLast
      exact Or.inr ⟨rfl, by simpa using h⟩

/-- In the place of the task that goes on is what is left of it. -/
theorem task_of_set {tasks : List (Task P)} {new found : Task P} {task other : Nat}
    (h : (tasks.set task new)[other]? = some found) :
    (other ≠ task ∧ tasks[other]? = some found) ∨ (task = other ∧ new = found) := by
  rw [List.getElem?_set] at h
  split at h
  · next hSame =>
      split at h
      · exact Or.inr ⟨hSame, Option.some.inj h⟩
      · cases h
  · next hOther => exact Or.inl ⟨Ne.symm hOther, h⟩

/-- Whoever runs, the history only grows. -/
theorem step_history {loop next : Loop P} {choice : Choice P} (h : loop.step choice = some next) :
    loop.world.trace <:+ next.world.trace := by
  obtain ⟨op, state, -, -, rfl⟩ | ⟨task, answer, op, wait, rest, state, -, -, -, rfl⟩ | ⟨move, state, -, -, rfl⟩ :=
    step_cases h
  · exact Coro.advance_history _ (P.body op) { loop.world with state, started := loop.world.started + 1 }
  · refine List.IsSuffix.trans ?_ (Coro.advance_history _ _ _)
    cases P.note op wait (answer wait) with
    | none => exact List.suffix_rfl
    | some event => exact List.suffix_cons _ _
  · exact List.suffix_rfl

/-- What every choice of a run preserves holds at its end. -/
theorem run_keeps (holds : Loop P → Prop) {loop final : Loop P} {choices : List (Choice P)}
    (hStep : ∀ choice ∈ choices, ∀ loop next : Loop P, holds loop → loop.step choice = some next → holds next)
    (h : holds loop) (hRun : loop.run choices = some final) : holds final := by
  induction choices generalizing loop with
  | nil =>
      cases hRun
      exact h
  | cons choice rest ih =>
      simp only [run] at hRun
      split at hRun
      · cases hRun
      · next next hNext =>
          exact ih (fun later hIn => hStep later (List.mem_cons_of_mem _ hIn))
            (hStep choice List.mem_cons_self loop next h hNext) hRun

theorem run_history {loop final : Loop P} {choices : List (Choice P)}
    (h : loop.run choices = some final) : loop.world.trace <:+ final.world.trace :=
  run_keeps (fun later => loop.world.trace <:+ later.world.trace)
    (fun _ _ _ _ hSoFar hStep => hSoFar.trans (step_history hStep)) List.suffix_rfl h

end Loop
end Asyncio
