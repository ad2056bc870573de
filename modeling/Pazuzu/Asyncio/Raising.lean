import Pazuzu.Asyncio.Coroutine

/-! Errors that code can raise, where every state it sees is one of some kind
and every wait is answered by one of some replies. -/
namespace Asyncio

variable {G : Signature}

namespace Coro

/-- Among the seen states and with the replies that are given to its waits,
the code raises nothing but these errors. -/
def ThrowsOnly (seen : G.State → Prop) (gives : (wait : G.Wait) → Except G.Error (G.Reply wait) → Prop)
    (may : G.Error → Prop) {α : Type} : Coro G α → Prop
  | .pure _ => True
  | .throw error => may error
  | .read next => ∀ task state, seen state → (next task state).ThrowsOnly seen gives may
  | .act _ _ next => next.ThrowsOnly seen gives may
  | .await wait next => ∀ reply, gives wait reply → (next reply).ThrowsOnly seen gives may

namespace ThrowsOnly

variable {seen : G.State → Prop} {gives : (wait : G.Wait) → Except G.Error (G.Reply wait) → Prop}
  {may : G.Error → Prop} {α β : Type}

theorem bind {code : Coro G α} {next : α → Coro G β} (h : code.ThrowsOnly seen gives may)
    (hNext : ∀ value, (next value).ThrowsOnly seen gives may) : (code.bind next).ThrowsOnly seen gives may := by
  induction code with
  | pure value => exact hNext value
  | throw error => exact h
  | read rest ih => exact fun task state hSeen => ih task state (h task state hSeen)
  | act event update rest ih => exact ih h
  | await wait rest ih => exact fun reply hReply => ih reply (h reply hReply)

/-- What is raised first is raised by the whole. -/
theorem of_bind {code : Coro G α} {next : α → Coro G β} (h : (code.bind next).ThrowsOnly seen gives may) :
    code.ThrowsOnly seen gives may := by
  induction code with
  | pure value => trivial
  | throw error => exact h
  | read rest ih => exact fun task state hSeen => ih task state (h task state hSeen)
  | act event update rest ih => exact ih h
  | await wait rest ih => exact fun reply hReply => ih reply (h reply hReply)

/-- A handler gets the errors of the code it is for. -/
theorem attempt {code : Coro G α} {next : Except G.Error α → Coro G β} (h : code.ThrowsOnly seen gives may)
    (hOk : ∀ value, (next (.ok value)).ThrowsOnly seen gives may)
    (hError : ∀ error, may error → (next (.error error)).ThrowsOnly seen gives may) :
    (code.attempt.bind next).ThrowsOnly seen gives may := by
  induction code with
  | pure value => exact hOk value
  | throw error => exact hError error h
  | read rest ih => exact fun task state hSeen => ih task state (h task state hSeen)
  | act event update rest ih => exact ih h
  | await wait rest ih => exact fun reply hReply => ih reply (h reply hReply)

theorem tryCatch {code : Coro G α} {handler : G.Error → Coro G α} (h : code.ThrowsOnly seen gives may)
    (hHandler : ∀ error, may error → (handler error).ThrowsOnly seen gives may) :
    (code.tryCatch handler).ThrowsOnly seen gives may :=
  h.attempt (fun _ => trivial) hHandler

theorem get {next : G.State → Coro G β} (h : ∀ state, seen state → (next state).ThrowsOnly seen gives may) :
    (Coro.get.bind next).ThrowsOnly seen gives may :=
  fun _ state hSeen => h state hSeen

theorem update (f : G.State → G.State) : (Coro.update f).ThrowsOnly seen gives may := trivial

theorem mark (event : G.Event) : (Coro.mark event).ThrowsOnly seen gives may := trivial

theorem suspend {wait : G.Wait} (h : ∀ error, gives wait (.error error) → may error) :
    (Coro.suspend wait).ThrowsOnly seen gives may := by
  intro reply hReply
  cases reply with
  | ok value => trivial
  | error error => exact h error hReply

theorem ite {condition : Prop} [Decidable condition] {first second : Coro G α}
    (hFirst : first.ThrowsOnly seen gives may) (hSecond : second.ThrowsOnly seen gives may) :
    (if condition then first else second).ThrowsOnly seen gives may := by
  split
  · exact hFirst
  · exact hSecond

theorem when {condition : Prop} [Decidable condition] {code : Coro G Unit} (h : code.ThrowsOnly seen gives may) :
    (Coro.when condition code).ThrowsOnly seen gives may := ite h trivial

end ThrowsOnly
end Coro
end Asyncio
