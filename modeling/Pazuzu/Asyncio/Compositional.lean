import Pazuzu.Asyncio.Coroutine

/-! Properties of code that its control flow carries from the parts to the
whole. What such a property says of a program is then a matter of its single
actions and waits. -/
namespace Asyncio

variable {G : Signature}

/-- A property that sequencing and handling of errors preserve. -/
structure Compositional (can : {α : Type} → Coro G α → Prop) : Prop where
  pure : ∀ {α : Type} (value : α), can (.pure value)
  throw : ∀ {α : Type} (error : G.Error), can (.throw error : Coro G α)
  read : ∀ {α : Type} {next : Nat → G.State → Coro G α},
    (∀ task state, can (next task state)) → can (.read next)
  bind : ∀ {α β : Type} {code : Coro G α} {next : α → Coro G β},
    can code → (∀ value, can (next value)) → can (code.bind next)
  attempt : ∀ {α : Type} {code : Coro G α}, can code → can code.attempt

namespace Compositional

variable {can : {α : Type} → Coro G α → Prop} (h : Compositional can) {α β : Type}

include h

theorem raise (error : G.Error) : can (Coro.raise error : Coro G α) := h.throw error

theorem get {next : G.State → Coro G β} (hNext : ∀ state, can (next state)) :
    can (Coro.get.bind next) :=
  h.read fun _ state => hNext state

theorem current {next : Nat → Coro G β} (hNext : ∀ task, can (next task)) :
    can (Coro.current.bind next) :=
  h.read fun task _ => hNext task

theorem ofExcept (outcome : Except G.Error α) : can (Coro.ofExcept outcome) := by
  cases outcome with
  | ok value => exact h.pure value
  | error error => exact h.throw error

theorem tryCatch {code : Coro G α} {handler : G.Error → Coro G α} (hCode : can code)
    (hHandler : ∀ error, can (handler error)) : can (code.tryCatch handler) :=
  h.bind (h.attempt hCode) fun
    | .ok value => h.pure value
    | .error error => hHandler error

theorem tryFinally {code : Coro G α} {final : Coro G Unit} (hCode : can code) (hFinal : can final) :
    can (code.tryFinally final) :=
  h.bind (h.attempt hCode) fun outcome => h.bind hFinal fun _ => h.ofExcept outcome

omit h in
theorem ite {condition : Prop} [Decidable condition] {first second : Coro G α} (hFirst : can first)
    (hSecond : can second) : can (if condition then first else second) := by
  split
  · exact hFirst
  · exact hSecond

theorem when {condition : Prop} [Decidable condition] {code : Coro G Unit} (hCode : can code) :
    can (Coro.when condition code) :=
  ite hCode (h.pure ())

end Compositional
end Asyncio
