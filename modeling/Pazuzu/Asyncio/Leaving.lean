import Pazuzu.Asyncio.Compositional
import Pazuzu.Asyncio.Extension

/-! Code known only by the kinds of entries it makes. Whatever the surroundings
and the others leave alone stays as it is while such code runs, if none of
these entries spoils it. -/
namespace Asyncio

variable {G : Signature}

namespace Coro

/-- Whatever it is answered, the code leaves only the allowed events. -/
def Leaves (allowed : G.Event → Prop) {α : Type} : Coro G α → Prop
  | .pure _ | .throw _ => True
  | .read next => ∀ task state, (next task state).Leaves allowed
  | .act event _ next => (∀ e ∈ event, allowed e) ∧ next.Leaves allowed
  | .await _ next => ∀ reply, (next reply).Leaves allowed

namespace Leaves

variable {allowed : G.Event → Prop} {α β : Type}

theorem bind {code : Coro G α} {next : α → Coro G β} (h : code.Leaves allowed)
    (hNext : ∀ value, (next value).Leaves allowed) : (code.bind next).Leaves allowed := by
  induction code with
  | pure value => exact hNext value
  | throw error => trivial
  | read rest ih => exact fun task state => ih task state (h task state)
  | act event update rest ih => exact ⟨h.1, ih h.2⟩
  | await wait rest ih => exact fun reply => ih reply (h reply)

theorem attempt {code : Coro G α} (h : code.Leaves allowed) : code.attempt.Leaves allowed := by
  induction code with
  | pure value => trivial
  | throw error => trivial
  | read rest ih => exact fun task state => ih task state (h task state)
  | act event update rest ih => exact ⟨h.1, ih h.2⟩
  | await wait rest ih => exact fun reply => ih reply (h reply)

theorem compositional (allowed : G.Event → Prop) :
    Compositional fun {α : Type} (code : Coro G α) => code.Leaves allowed where
  pure := fun _ => trivial
  throw := fun _ => trivial
  read := id
  bind := bind
  attempt := attempt

theorem update (f : G.State → G.State) : (Coro.update f).Leaves allowed := ⟨by simp, trivial⟩

theorem record {event : G.Event} (f : G.State → G.State) (h : allowed event) :
    (Coro.record event f).Leaves allowed := ⟨by simpa using h, trivial⟩

theorem suspend (wait : G.Wait) : (Coro.suspend wait).Leaves allowed :=
  fun reply => (compositional allowed).ofExcept reply

/-- Any code at all. -/
theorem of_all (h : ∀ event, allowed event) (code : Coro G α) : code.Leaves allowed := by
  induction code with
  | pure value => trivial
  | throw error => trivial
  | read next ih => exact ih
  | act event update next ih => exact ⟨fun e _ => h e, ih⟩
  | await wait next ih => exact ih

end Leaves
end Coro

namespace Extension

variable {P : System G} {D : Discipline P} {E : Extension D} {op : P.Op} {task : Nat}

/-- What is known, that the others leave alone and the allowed entries do not
spoil, is known afterwards. -/
theorem wp_leaves {allowed : G.Event → Prop} {known : World G → Prop}
    (hAct : ∀ world event state, E.inv world → known world → (∀ e ∈ event, allowed e) →
      E.Act task world (world.act task event state) ∧ known (world.act task event state))
    (hRely : ∀ before after, known before → E.rely task before after → known after)
    (hWaits : ∀ wait world, E.waits op task wait world) (hNote : ∀ wait reply, ∀ e ∈ P.note op wait reply, allowed e)
    {α : Type} {code : Coro G α} {world : World G} (h : code.Leaves allowed) (hKnown : known world) :
    E.wp op task code (fun _ w => known w) world := by
  induction code generalizing world with
  | pure value => exact wp_pure hKnown
  | throw error => exact wp_throw hKnown
  | read next ih => exact wp_read (ih task world.state (h task world.state) hKnown)
  | act event update next ih =>
      refine wp_act fun hInv _ => ?_
      obtain ⟨hStep, hAfter⟩ := hAct world event (update world.state) hInv hKnown h.1
      exact ⟨hStep, ih h.2 hAfter⟩
  | await wait next ih =>
      intro start hStart
      refine ⟨hStart, hWaits wait world, ?_⟩
      intro later reply state _ hInv _ hWaited _ _
      obtain ⟨hStep, hAfter⟩ := hAct later (P.note op wait reply) state hInv (hRely _ _ hKnown hWaited)
        (hNote wait reply)
      exact ih reply (h reply) hAfter later hStep

end Extension
end Asyncio
