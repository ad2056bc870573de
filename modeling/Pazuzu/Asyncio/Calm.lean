import Pazuzu.Asyncio.RelyGuarantee

/-! Code that stays within a frame. Most of a program only touches a part of
the state that no invariant depends on; such code needs no precondition of its
own. Calmness is checked by structure alone, and one theorem turns it into a
weakest precondition for every discipline the frame fits. -/
namespace Asyncio

variable {G : Signature} {P : System G}

/-- What calm code may do: change the state within `step` and leave events in
`event`. An event that `disturbs` an operation records that the surroundings
made it fail. -/
structure Frame (P : System G) where
  step : G.State → G.State → Prop
  event : G.Event → Prop
  disturbs : P.Op → G.Event → Prop

/-- The errors code may ever raise, and those it may raise undisturbed. -/
structure Raises (G : Signature) where
  possible : G.Error → Prop
  expected : G.Error → Prop

namespace Coro

/-- Every action stays within the frame, and each error is a possible one that
is expected unless a disturbance was recorded on the way (`marked`). -/
def Calm (F : Frame P) (op : P.Op) (R : Raises G) {α : Type} : Prop → Coro G α → Prop
  | _, .pure _ => True
  | marked, .throw error => R.possible error ∧ (marked ∨ R.expected error)
  | marked, .read next => ∀ task state, (next task state).Calm F op R marked
  | marked, .act event update next =>
      (∀ state, F.step state (update state)) ∧ (∀ e ∈ event, F.event e) ∧
        next.Calm F op R (marked ∨ ∃ e ∈ event, F.disturbs op e)
  | marked, .await wait next =>
      ∀ task reply before after, P.deliver op task wait reply before = some after →
        (next reply).Calm F op R (marked ∨ ∃ e ∈ P.note op wait reply, F.disturbs op e)

section Rules

variable {F : Frame P} {op : P.Op} {R R' : Raises G} {marked marked' : Prop} {α β : Type}

theorem Calm.mono {code : Coro G α} (h : code.Calm F op R marked) (hMarked : marked → marked')
    (hPossible : ∀ e, R.possible e → R'.possible e)
    (hExpected : ∀ e, R.possible e → R.expected e → R'.expected e) :
    code.Calm F op R' marked' := by
  induction code generalizing marked marked' with
  | pure value => trivial
  | throw error => exact ⟨hPossible _ h.1, h.2.imp hMarked (hExpected error h.1)⟩
  | read next ih => exact fun task state => ih task state (h task state) hMarked
  | act event update next ih => exact ⟨h.1, h.2.1, ih h.2.2 (Or.imp_left hMarked)⟩
  | await wait next ih =>
      exact fun task reply before after hDeliver =>
        ih reply (h task reply before after hDeliver) (Or.imp_left hMarked)

theorem Calm.weaken {code : Coro G α} (h : code.Calm F op R marked) (hMarked : marked → marked') :
    code.Calm F op R marked' :=
  h.mono hMarked (fun _ => id) fun _ _ => id

theorem Calm.bind {code : Coro G α} {next : α → Coro G β} (h : code.Calm F op R marked)
    (hNext : ∀ value, (next value).Calm F op R marked) :
    (code.bind next).Calm F op R marked := by
  induction code generalizing marked with
  | pure value => exact hNext value
  | throw error => exact h
  | read rest ih => exact fun task state => ih task state (h task state) hNext
  | act event update rest ih =>
      exact ⟨h.1, h.2.1, ih h.2.2 fun value => (hNext value).weaken Or.inl⟩
  | await wait rest ih =>
      exact fun task reply before after hDeliver =>
        ih reply (h task reply before after hDeliver) fun value =>
          (hNext value).weaken Or.inl

/-- A handler is calm if it is so on the errors the body may raise by itself,
and on any possible error once the body has been disturbed. -/
theorem Calm.attempt {code : Coro G α} {next : Except G.Error α → Coro G β}
    (h : code.Calm F op R marked)
    (hOk : ∀ value, (next (.ok value)).Calm F op R' marked)
    (hExpected : ∀ error, R.possible error → R.expected error →
      (next (.error error)).Calm F op R' marked)
    (hDisturbed : ∀ error, R.possible error → (next (.error error)).Calm F op R' True) :
    (code.attempt.bind next).Calm F op R' marked := by
  induction code generalizing marked with
  | pure value => exact hOk value
  | throw error =>
      rcases h.2 with hMarked | hRaises
      · exact (hDisturbed error h.1).weaken fun _ => hMarked
      · exact hExpected error h.1 hRaises
  | read rest ih => exact fun task state => ih task state (h task state) hOk hExpected
  | act event update rest ih =>
      exact ⟨h.1, h.2.1, ih h.2.2 (fun value => (hOk value).weaken Or.inl) fun error hError hRaises =>
        (hExpected error hError hRaises).weaken Or.inl⟩
  | await wait rest ih =>
      exact fun task reply before after hDeliver =>
        ih reply (h task reply before after hDeliver)
          (fun value => (hOk value).weaken Or.inl) fun error hError hRaises =>
            (hExpected error hError hRaises).weaken Or.inl

/-- What is handed over raises nothing any more. -/
theorem Calm.attempted {code : Coro G α} (h : code.Calm F op R marked) :
    code.attempt.Calm F op R' marked := by
  induction code generalizing marked with
  | pure value => trivial
  | throw error => trivial
  | read rest ih => exact fun task state => ih task state (h task state)
  | act event update rest ih => exact ⟨h.1, h.2.1, ih h.2.2⟩
  | await wait rest ih =>
      exact fun task reply before after hDeliver => ih reply (h task reply before after hDeliver)

theorem Calm.tryCatch {code : Coro G α} {handler : G.Error → Coro G α}
    (h : code.Calm F op R marked)
    (hExpected : ∀ error, R.possible error → R.expected error →
      (handler error).Calm F op R' marked)
    (hDisturbed : ∀ error, R.possible error → (handler error).Calm F op R' True) :
    (code.tryCatch handler).Calm F op R' marked :=
  h.attempt (fun _ => trivial) hExpected hDisturbed

theorem Calm.tryFinally {code : Coro G α} {final : Coro G Unit}
    (h : code.Calm F op R marked) (hFinal : ∀ m, final.Calm F op R m) :
    (code.tryFinally final).Calm F op R marked :=
  h.attempt (fun _ => (hFinal _).bind fun _ => trivial)
    (fun _ hError hRaises => (hFinal _).bind fun _ => ⟨hError, Or.inr hRaises⟩)
    fun _ hError => (hFinal _).bind fun _ => ⟨hError, Or.inl trivial⟩

theorem Calm.pure (value : α) : (.pure value : Coro G α).Calm F op R marked := trivial

theorem Calm.get : (Coro.get : Coro G G.State).Calm F op R marked := fun _ _ => trivial

theorem Calm.current : (Coro.current : Coro G Nat).Calm F op R marked := fun _ _ => trivial

theorem Calm.update {f : G.State → G.State} (h : ∀ state, F.step state (f state)) :
    (Coro.update f).Calm F op R marked := ⟨h, by simp, trivial⟩

theorem Calm.mark {event : G.Event} (hRefl : ∀ state, F.step state state)
    (h : F.event event) : (Coro.mark event).Calm F op R marked :=
  ⟨hRefl, by simpa using h, trivial⟩

theorem Calm.raise {error : G.Error} (h : R.possible error) (h' : R.expected error) :
    (Coro.raise error : Coro G α).Calm F op R marked := ⟨h, Or.inr h'⟩

theorem Calm.ite {condition : Prop} [Decidable condition] {first second : Coro G α}
    (h : first.Calm F op R marked) (h' : second.Calm F op R marked) :
    (if condition then first else second).Calm F op R marked := by
  split
  · exact h
  · exact h'

theorem Calm.when {condition : Prop} [Decidable condition] {code : Coro G Unit}
    (h : code.Calm F op R marked) : (Coro.when condition code).Calm F op R marked :=
  Calm.ite h trivial

end Rules
end Coro

namespace Frame

/-- Since a given history, the task has recorded a disturbance. -/
def Marked (F : Frame P) (op : P.Op) (task : Nat) (history : List (Entry G)) (world : World G) : Prop :=
  ∃ new, world.trace = new ++ history ∧ ∃ entry ∈ new, entry.task = task ∧ F.disturbs op entry.event

/-- Whatever the frame permits is tolerated by everybody, the acting task
included, and so is every answer. No history is ever lost. -/
structure Fits (F : Frame P) (D : Discipline P) : Prop where
  act : ∀ task world event state, D.inv world → F.step world.state state →
    (∀ e ∈ event, F.event e) →
    D.Act task world (world.act task event state) ∧ D.rely task world (world.act task event state)
  answers : D.Answers
  keeps : ∀ task before after, D.rely task before after → before.trace <:+ after.trace

variable {F : Frame P} {D : Discipline P}

theorem Marked.stable {op : P.Op} {task : Nat} {history : List (Entry G)} {before after : World G}
    (h : F.Marked op task history before) (hKeeps : before.trace <:+ after.trace) :
    F.Marked op task history after := by
  obtain ⟨new, hNew, entry, hEntry, hTask⟩ := h
  obtain ⟨newer, hNewer⟩ := hKeeps
  exact ⟨newer ++ new, by rw [← hNewer, hNew, List.append_assoc], entry,
    List.mem_append_right _ hEntry, hTask⟩

theorem Marked.of_act {op : P.Op} {task : Nat} {history : List (Entry G)} {world : World G}
    {event : Option G.Event} {state : G.State} (hSuffix : history <:+ world.trace)
    (h : ∃ e ∈ event, F.disturbs op e) :
    F.Marked op task history (world.act task event state) := by
  obtain ⟨e, rfl, hDisturbs⟩ := h
  obtain ⟨new, hNew⟩ := hSuffix
  exact ⟨⟨task, e, state⟩ :: new, by simp [← hNew], _, List.mem_cons_self, rfl, hDisturbs⟩

/-- Calm code keeps the invariant and everything its own task relies on. Its
errors are the expected ones, or its task was disturbed meanwhile. -/
theorem Fits.wp (hFits : F.Fits D) {op : P.Op} {task : Nat} {α : Type} {R : Raises G}
    {code : Coro G α} {start : World G} (h : code.Calm F op R False) (hInv : D.inv start) :
    D.wp op task code (fun outcome w => D.inv w ∧ D.rely task start w ∧
      ∀ error, outcome = .error error →
        R.possible error ∧ (R.expected error ∨ F.Marked op task start.trace w)) start := by
  suffices hGeneral : ∀ (marked : Prop) (world : World G), code.Calm F op R marked →
      D.inv world → D.rely task start world → (marked → F.Marked op task start.trace world) →
      D.wp op task code (fun outcome w => D.inv w ∧ D.rely task start w ∧
        ∀ error, outcome = .error error →
          R.possible error ∧ (R.expected error ∨ F.Marked op task start.trace w)) world from
    hGeneral False start h hInv (D.refl _ _) False.elim
  clear h hInv
  induction code with
  | pure value =>
      intro marked world _ hInv hRely _
      exact ⟨hInv, hRely, fun _ he => by cases he⟩
  | throw error =>
      intro marked world h hInv hRely hMarked
      refine ⟨hInv, hRely, fun e he => ?_⟩
      cases he
      exact ⟨h.1, h.2.symm.imp id hMarked⟩
  | read next ih =>
      intro marked world h hInv hRely hMarked
      exact ih task world.state marked world (h task world.state) hInv hRely hMarked
  | act event update next ih =>
      intro marked world h hInv hRely hMarked
      obtain ⟨hStep, hEvent, hNext⟩ := h
      obtain ⟨hAct, hSelf⟩ := hFits.act task world event _ hInv (hStep world.state) hEvent
      refine ⟨hAct, ih _ _ hNext hAct.1 (D.trans _ _ _ _ hRely hSelf) ?_⟩
      rintro (hOld | hNew)
      · exact (hMarked hOld).stable (hFits.keeps _ _ _ hSelf)
      · exact Marked.of_act (hFits.keeps _ _ _ hRely) hNew
  | await wait next ih =>
      intro marked world h hInv hRely hMarked later reply state hLater hWait hDeliver
      obtain ⟨hAct, hSelf⟩ := hFits.answers op task wait reply later state hLater hDeliver
      have hBefore := D.trans _ _ _ _ hRely hWait
      refine ih reply _ _ (h task reply later.state state hDeliver) hAct.1
        (D.trans _ _ _ _ hBefore hSelf) ?_
      rintro (hOld | hNew)
      · exact (hMarked hOld).stable (hFits.keeps _ _ _ (D.trans _ _ _ _ hWait hSelf))
      · exact Marked.of_act (hFits.keeps _ _ _ hBefore) hNew

end Frame
end Asyncio
