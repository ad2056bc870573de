import Pazuzu.Asyncio.EventLoop

/-! Code whose every action is a step of one relation, whatever it is answered
and whoever runs in between. What the relation and the surroundings preserve
holds throughout a run. -/
namespace Asyncio

variable {G : Signature}

namespace Coro

def Within (step : G.State → G.State → Prop) {α : Type} : Coro G α → Prop
  | .pure _ | .throw _ => True
  | .read next => ∀ task state, (next task state).Within step
  | .act _ update next => (∀ state, step state (update state)) ∧ next.Within step
  | .await _ next => ∀ reply, (next reply).Within step

namespace Within

variable {step : G.State → G.State → Prop} {α β : Type}

theorem bind {code : Coro G α} {next : α → Coro G β} (h : code.Within step)
    (hNext : ∀ value, (next value).Within step) : (code.bind next).Within step := by
  induction code with
  | pure value => exact hNext value
  | throw error => trivial
  | read rest ih => exact fun task state => ih task state (h task state)
  | act event update rest ih => exact ⟨h.1, ih h.2⟩
  | await wait rest ih => exact fun reply => ih reply (h reply)

theorem attempt {code : Coro G α} (h : code.Within step) : code.attempt.Within step := by
  induction code with
  | pure value => trivial
  | throw error => trivial
  | read rest ih => exact fun task state => ih task state (h task state)
  | act event update rest ih => exact ⟨h.1, ih h.2⟩
  | await wait rest ih => exact fun reply => ih reply (h reply)

theorem ofExcept (outcome : Except G.Error α) : (Coro.ofExcept outcome).Within step := by
  cases outcome <;> trivial

theorem tryCatch {code : Coro G α} {handler : G.Error → Coro G α} (h : code.Within step)
    (hHandler : ∀ error, (handler error).Within step) : (code.tryCatch handler).Within step :=
  h.attempt.bind fun
    | .ok _ => trivial
    | .error error => hHandler error

theorem tryFinally {code : Coro G α} {final : Coro G Unit} (h : code.Within step)
    (hFinal : final.Within step) : (code.tryFinally final).Within step :=
  h.attempt.bind fun outcome => hFinal.bind fun _ => ofExcept outcome

theorem pure (value : α) : (.pure value : Coro G α).Within step := trivial

theorem raise (error : G.Error) : (Coro.raise error : Coro G α).Within step := trivial

theorem get : (Coro.get : Coro G G.State).Within step := fun _ _ => trivial

theorem current : (Coro.current : Coro G Nat).Within step := fun _ _ => trivial

theorem update {f : G.State → G.State} (h : ∀ state, step state (f state)) :
    (Coro.update f).Within step := ⟨h, trivial⟩

theorem record {event : G.Event} {f : G.State → G.State} (h : ∀ state, step state (f state)) :
    (Coro.record event f).Within step := ⟨h, trivial⟩

theorem mark {event : G.Event} (hRefl : ∀ state, step state state) :
    (Coro.mark event).Within step := ⟨hRefl, trivial⟩

theorem suspend (wait : G.Wait) : (Coro.suspend wait).Within step := ofExcept

theorem ite {condition : Prop} [Decidable condition] {first second : Coro G α}
    (h : first.Within step) (h' : second.Within step) :
    (if condition then first else second).Within step := by
  split
  · exact h
  · exact h'

theorem when {condition : Prop} [Decidable condition] {code : Coro G Unit} (h : code.Within step) :
    (Coro.when condition code).Within step := ite h trivial

end Within
end Coro

/-- The state and every state on record have the property. -/
def World.Throughout (holds : G.State → Prop) (world : World G) : Prop :=
  holds world.state ∧ ∀ entry ∈ world.trace, holds entry.state

theorem World.Throughout.act {holds : G.State → Prop} {world : World G} {state : G.State}
    (h : world.Throughout holds) (hState : holds state) (task : Nat) (event : Option G.Event) :
    (world.act task event state).Throughout holds := by
  cases event with
  | none => exact ⟨hState, h.2⟩
  | some event => exact ⟨hState, List.forall_mem_cons.mpr ⟨hState, h.2⟩⟩

/-- A property of states that neither the code nor the surroundings spoil. -/
structure System.Preserves (P : System G) (step : G.State → G.State → Prop)
    (holds : G.State → Prop) : Prop where
  body : ∀ op, (P.body op).Within step
  step : ∀ before after, step before after → holds before → holds after
  accept : ∀ op before after, P.accept op before = some after → holds before → holds after
  deliver : ∀ op task wait reply before after, P.deliver op task wait reply before = some after →
    holds before → holds after
  disturb : ∀ move before after, P.disturb move before = some after → holds before → holds after

namespace System.Preserves

variable {P : System G} {step : G.State → G.State → Prop} {holds : G.State → Prop}

theorem advance (hKeeps : P.Preserves step holds) (task : Nat) {α : Type} {code : Coro G α}
    {world : World G} (hCode : code.Within step) (hWorld : world.Throughout holds) :
    (code.advance task world).1.Within step ∧ (code.advance task world).2.Throughout holds := by
  induction code generalizing world with
  | pure value => exact ⟨hCode, hWorld⟩
  | throw error => exact ⟨hCode, hWorld⟩
  | read next ih => exact ih task world.state (hCode task world.state) hWorld
  | act event update next ih =>
      exact ih hCode.2 (hWorld.act (hKeeps.step _ _ (hCode.1 _) hWorld.1) task event)
  | await wait next ih => exact ⟨hCode, hWorld⟩

/-- What a loop keeps: the property so far, and code that will not spoil it. -/
def Fine (step : G.State → G.State → Prop) (holds : G.State → Prop) (loop : Loop P) : Prop :=
  loop.world.Throughout holds ∧ ∀ task ∈ loop.tasks, task.code.Within step

theorem step_fine (hKeeps : P.Preserves step holds) {loop next : Loop P} {choice : Choice P}
    (hFine : Fine step holds loop) (hStep : loop.step choice = some next) : Fine step holds next := by
  obtain ⟨op, state, -, hAccept, rfl⟩ | ⟨task, answer, op, wait, rest, state, -, hTask, hDeliver, rfl⟩ |
    ⟨move, state, -, hMove, rfl⟩ := Loop.step_cases hStep
  · have hAccepted : World.Throughout holds { loop.world with state, started := loop.world.started + 1 } :=
      ⟨hKeeps.accept op _ _ hAccept hFine.1.1, hFine.1.2⟩
    obtain ⟨hCode, hWorld⟩ := hKeeps.advance loop.world.started (hKeeps.body op) hAccepted
    refine ⟨hWorld, fun task hTask => ?_⟩
    rcases List.mem_append.mp hTask with hOld | hNew
    · exact hFine.2 task hOld
    · rw [List.mem_singleton.mp hNew]
      exact hCode
  · obtain ⟨hCode, hWorld⟩ := hKeeps.advance task
      (hFine.2 _ (List.mem_of_getElem? hTask) (answer wait))
      (hFine.1.act (hKeeps.deliver op task wait _ _ _ hDeliver hFine.1.1) task (P.note op wait (answer wait)))
    refine ⟨hWorld, fun other hOther => ?_⟩
    rcases List.mem_or_eq_of_mem_set hOther with hOld | rfl
    · exact hFine.2 other hOld
    · exact hCode
  · exact ⟨⟨hKeeps.disturb move _ _ hMove hFine.1.1, hFine.1.2⟩, hFine.2⟩

theorem run_fine (hKeeps : P.Preserves step holds) {loop final : Loop P} {choices : List (Choice P)}
    (hFine : Fine step holds loop) (hRun : loop.run choices = some final) : Fine step holds final :=
  Loop.run_keeps (Fine step holds) (fun _ _ _ _ hSoFar hStep => hKeeps.step_fine hSoFar hStep) hFine hRun

/-- The property holds throughout every run that starts with it. -/
theorem run (hKeeps : P.Preserves step holds) {state : G.State} {final : Loop P}
    {choices : List (Choice P)} (hState : holds state)
    (hRun : (Loop.initial P state).run choices = some final) : final.world.Throughout holds :=
  (hKeeps.run_fine ⟨⟨hState, by simp [Loop.initial]⟩, by simp [Loop.initial]⟩ hRun).1

end System.Preserves
end Asyncio
