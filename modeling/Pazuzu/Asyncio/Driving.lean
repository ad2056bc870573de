import Pazuzu.Asyncio.EventLoop

/-! Runs in which one task is resumed until it is done, with the same answer to
each of its waits. What it comes to is found along the structure of its code, so
that runs of any length can be put together from the calls in them. -/
namespace Asyncio

variable {G : Signature} {P : System G} {α β : Type}

namespace Coro

section Rules

variable (P) (op : P.Op) (task : Nat) (answer : (wait : G.Wait) → Except G.Error (G.Reply wait))

variable {P op task answer} {code : Coro G α} {post : Except G.Error α → World G → Prop} {world : World G}

end Rules

end Coro

namespace Loop

variable {op : P.Op} {task : Nat} {answer : (wait : G.Wait) → Except G.Error (G.Reply wait)}
  {post : Except G.Error P.Value → World G → Prop} {world : World G}

end Loop
end Asyncio
