/-! Coroutines of a cooperative event loop. A coroutine reads and updates the
shared state freely between two waits; other tasks run only at a wait. Nothing
here names a particular program: the state, the waits and the errors are the
signature's. -/
namespace Asyncio

/-- What the coroutines of one program share and what they can wait for. Each
wait has its own type of replies. -/
structure Signature where
  State : Type
  Wait : Type
  Reply : Wait → Type
  Error : Type
  Event : Type

/-- A suspended computation. `read` sees the running task and the state. `act`
updates the state and may leave an event in the run's history. Only `await`
yields to the loop, which resumes with a reply or with a raised error. -/
inductive Coro (G : Signature) (α : Type) : Type where
  | pure (value : α)
  | throw (error : G.Error)
  | read (next : Nat → G.State → Coro G α)
  | act (event : Option G.Event) (update : G.State → G.State) (next : Coro G α)
  | await (wait : G.Wait) (next : Except G.Error (G.Reply wait) → Coro G α)

namespace Coro

variable {G : Signature} {α β : Type}

def bind (code : Coro G α) (next : α → Coro G β) : Coro G β :=
  match code with
  | .pure value => next value
  | .throw error => .throw error
  | .read rest => .read fun task state => (rest task state).bind next
  | .act event update rest => .act event update (rest.bind next)
  | .await wait rest => .await wait fun reply => (rest reply).bind next

instance : Monad (Coro G) where
  pure := .pure
  bind := .bind

/-- Run to the end and hand over the outcome, raised or returned. Every
`try` statement below is this followed by a case distinction. -/
def attempt (code : Coro G α) : Coro G (Except G.Error α) :=
  match code with
  | .pure value => .pure (.ok value)
  | .throw error => .pure (.error error)
  | .read rest => .read fun task state => (rest task state).attempt
  | .act event update rest => .act event update rest.attempt
  | .await wait rest => .await wait fun reply => (rest reply).attempt

def ofExcept : Except G.Error α → Coro G α
  | .ok value => .pure value
  | .error error => .throw error

/-- `try: code` with the handler of `except`. -/
def tryCatch (code : Coro G α) (handler : G.Error → Coro G α) : Coro G α :=
  code.attempt.bind fun
    | .ok value => .pure value
    | .error error => handler error

/-- `try: code` with the block of `finally`, which runs on every way out. -/
def tryFinally (code : Coro G α) (final : Coro G Unit) : Coro G α :=
  code.attempt.bind fun outcome => final.bind fun _ => ofExcept outcome

def get : Coro G G.State := .read fun _ state => .pure state

def current : Coro G Nat := .read fun task _ => .pure task

def update (f : G.State → G.State) : Coro G Unit := .act none f (.pure ())

def mark (event : G.Event) : Coro G Unit := .act (some event) id (.pure ())

/-- Update the state and note the event in the same action. -/
def record (event : G.Event) (f : G.State → G.State) : Coro G Unit :=
  .act (some event) f (.pure ())

def raise (error : G.Error) : Coro G α := .throw error

/-- A statement under `if` without `else`. -/
def when (condition : Prop) [Decidable condition] (code : Coro G Unit) : Coro G Unit :=
  if condition then code else .pure ()

/-- Yield to the loop until it answers this wait. -/
def suspend (wait : G.Wait) : Coro G (G.Reply wait) := .await wait ofExcept

@[simp] theorem pure_eq (value : α) : (Pure.pure value : Coro G α) = .pure value := rfl

@[simp] theorem bind_eq (code : Coro G α) (next : α → Coro G β) :
    (code >>= next) = code.bind next := rfl

theorem bind_assoc {γ : Type} (code : Coro G α) (next : α → Coro G β) (more : β → Coro G γ) :
    (code.bind next).bind more = code.bind fun value => (next value).bind more := by
  induction code with
  | pure value => rfl
  | throw error => rfl
  | read rest ih => exact congrArg Coro.read (funext fun task => funext fun state => ih task state)
  | act event update rest ih => exact congrArg (Coro.act event update) ih
  | await wait rest ih => exact congrArg (Coro.await wait) (funext ih)

end Coro
end Asyncio
