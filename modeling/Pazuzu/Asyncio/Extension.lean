import Pazuzu.Asyncio.Calm

/-! A second discipline over one that is already established. It may use the
first one's invariant and rely everywhere, and its own obligations are due only
where a task yields: in between, a task may leave its invariant and come back. -/
namespace Asyncio

variable {G : Signature} {P : System G}

/-- A further invariant with its rely, and what is known of a task at each of
its waits, which the others' interference must not change. -/
structure Extension (D : Discipline P) where
  inv : World G → Prop
  rely : Nat → World G → World G → Prop
  waits : P.Op → Nat → G.Wait → World G → Prop
  refl : ∀ task world, rely task world world
  trans : ∀ task first second third,
    rely task first second → rely task second third → rely task first third
  stable : ∀ op task wait before after, waits op task wait before →
    D.rely task before after → rely task before after → waits op task wait after

namespace Extension

variable {D : Discipline P} (E : Extension D)

/-- What a task has done since it was resumed is over, as far as the others see. -/
def Act (task : Nat) (before after : World G) : Prop :=
  E.inv after ∧ ∀ other, other ≠ task → E.rely other before after

theorem Act.trans {task : Nat} {first second third : World G}
    (h : E.Act task first second) (h' : E.Act task second third) : E.Act task first third :=
  ⟨h'.1, fun other hne => E.trans _ _ _ _ (h.2 other hne) (h'.2 other hne)⟩

theorem Act.refl (task : Nat) {world : World G} (h : E.inv world) : E.Act task world world :=
  ⟨h, fun _ _ => E.refl _ _⟩

/-- What holds when code has run, given the world at its task's last wait. The
first discipline is taken for granted. -/
def along {α : Type} (op : P.Op) (task : Nat) :
    Coro G α → (Except G.Error α → World G → World G → Prop) → World G → World G → Prop
  | .pure value, post, start, world => post (.ok value) start world
  | .throw error, post, start, world => post (.error error) start world
  | .read next, post, start, world => along op task (next task world.state) post start world
  | .act event update next, post, start, world =>
      D.inv (world.act task event (update world.state)) →
        along op task next post start (world.act task event (update world.state))
  | .await wait next, post, start, world =>
      E.Act task start world ∧ E.waits op task wait world ∧
      ∀ later reply state, D.inv later → E.inv later → D.rely task world later →
        E.rely task world later → P.deliver op task wait reply later.state = some state →
        D.inv (Discipline.answered op task wait reply later state) →
        along op task (next reply) post later (Discipline.answered op task wait reply later state)

section Along

variable {E} {op : P.Op} {task : Nat} {α β : Type} {start world : World G}
  {post post' : Except G.Error α → World G → World G → Prop}

theorem along_mono {code : Coro G α} (h : E.along op task code post start world)
    (hPost : ∀ r s w, post r s w → post' r s w) : E.along op task code post' start world := by
  induction code generalizing start world with
  | pure value => exact hPost _ _ _ h
  | throw error => exact hPost _ _ _ h
  | read next ih => exact ih task world.state h
  | act event update next ih => exact fun hInv => ih (h hInv)
  | await wait next ih =>
      refine ⟨h.1, h.2.1, ?_⟩
      intro later reply state hInv hInv' hRely hRely' hDeliver hAfter
      exact ih reply (h.2.2 later reply state hInv hInv' hRely hRely' hDeliver hAfter)

theorem along_bind {code : Coro G α} {next : α → Coro G β}
    {post : Except G.Error β → World G → World G → Prop}
    (h : E.along op task code (fun outcome s w => match outcome with
      | .ok value => E.along op task (next value) post s w
      | .error error => post (.error error) s w) start world) :
    E.along op task (code.bind next) post start world := by
  induction code generalizing start world with
  | pure value => exact h
  | throw error => exact h
  | read rest ih => exact ih task world.state h
  | act event update rest ih => exact fun hInv => ih (h hInv)
  | await wait rest ih =>
      refine ⟨h.1, h.2.1, ?_⟩
      intro later reply state hInv hInv' hRely hRely' hDeliver hAfter
      exact ih reply (h.2.2 later reply state hInv hInv' hRely hRely' hDeliver hAfter)

theorem along_attempt {code : Coro G α}
    {post : Except G.Error (Except G.Error α) → World G → World G → Prop}
    (h : E.along op task code (fun outcome s w => post (.ok outcome) s w) start world) :
    E.along op task code.attempt post start world := by
  induction code generalizing start world with
  | pure value => exact h
  | throw error => exact h
  | read rest ih => exact ih task world.state h
  | act event update rest ih => exact fun hInv => ih (h hInv)
  | await wait rest ih =>
      refine ⟨h.1, h.2.1, ?_⟩
      intro later reply state hInv hInv' hRely hRely' hDeliver hAfter
      exact ih reply (h.2.2 later reply state hInv hInv' hRely hRely' hDeliver hAfter)

/-- What the first discipline has shown of the code holds as well. -/
theorem along_and {code : Coro G α} {known : Except G.Error α → World G → Prop}
    (hKnown : D.wp op task code known world) (h : E.along op task code post start world) :
    E.along op task code (fun r s w => known r w ∧ post r s w) start world := by
  induction code generalizing start world with
  | pure value => exact ⟨hKnown, h⟩
  | throw error => exact ⟨hKnown, h⟩
  | read next ih => exact ih task world.state hKnown h
  | act event update next ih => exact fun hInv => ih hKnown.2 (h hInv)
  | await wait next ih =>
      refine ⟨h.1, h.2.1, ?_⟩
      intro later reply state hInv hInv' hRely hRely' hDeliver hAfter
      exact ih reply (hKnown later reply state hInv hRely hDeliver)
        (h.2.2 later reply state hInv hInv' hRely hRely' hDeliver hAfter)

/-- So does the first discipline's invariant. -/
theorem along_inv {code : Coro G α} (hInv : D.inv world) (h : E.along op task code post start world) :
    E.along op task code (fun r s w => D.inv w ∧ post r s w) start world := by
  induction code generalizing start world with
  | pure value => exact ⟨hInv, h⟩
  | throw error => exact ⟨hInv, h⟩
  | read next ih => exact ih task world.state hInv h
  | act event update next ih => exact fun hAfter => ih hAfter (h hAfter)
  | await wait next ih =>
      refine ⟨h.1, h.2.1, ?_⟩
      intro later reply state hLater hLater' hRely hRely' hDeliver hAfter
      exact ih reply hAfter (h.2.2 later reply state hLater hLater' hRely hRely' hDeliver hAfter)

theorem along_get_bind {next : G.State → Coro G α} (h : E.along op task (next world.state) post start world) :
    E.along op task (Coro.get.bind next) post start world := h

theorem along_current_bind {next : Nat → Coro G α} (h : E.along op task (next task) post start world) :
    E.along op task (Coro.current.bind next) post start world := h

theorem along_update {update : G.State → G.State} {post : Except G.Error Unit → World G → World G → Prop}
    (h : D.inv (world.act task none (update world.state)) →
      post (.ok ()) start (world.act task none (update world.state))) :
    E.along op task (Coro.update update) post start world := h

theorem along_ofExcept {outcome : Except G.Error α} (h : post outcome start world) :
    E.along op task (Coro.ofExcept outcome) post start world := by
  cases outcome <;> exact h

theorem along_suspend {wait : G.Wait} {post : Except G.Error (G.Reply wait) → World G → World G → Prop}
    (hAct : E.Act task start world) (hWaits : E.waits op task wait world)
    (h : ∀ later reply state, D.inv later → E.inv later → D.rely task world later →
      E.rely task world later → P.deliver op task wait reply later.state = some state →
      D.inv (Discipline.answered op task wait reply later state) →
      post reply later (Discipline.answered op task wait reply later state)) :
    E.along op task (Coro.suspend wait) post start world := by
  refine ⟨hAct, hWaits, ?_⟩
  intro later reply state hInv hInv' hRely hRely' hDeliver hAfter
  exact along_ofExcept (h later reply state hInv hInv' hRely hRely' hDeliver hAfter)

theorem along_tryCatch {code : Coro G α} {handler : G.Error → Coro G α}
    (h : E.along op task code (fun outcome s w => match outcome with
      | .ok value => post (.ok value) s w
      | .error error => E.along op task (handler error) post s w) start world) :
    E.along op task (code.tryCatch handler) post start world := by
  refine along_bind (along_attempt (along_mono h fun outcome s w hPost => ?_))
  cases outcome <;> exact hPost

theorem along_tryFinally {code : Coro G α} {final : Coro G Unit}
    (h : E.along op task code (fun outcome s w => E.along op task final (fun r s w => match r with
      | .ok _ => post outcome s w
      | .error error => post (.error error) s w) s w) start world) :
    E.along op task (code.tryFinally final) post start world := by
  refine along_bind (along_attempt (along_mono h fun outcome s w hFinal => ?_))
  refine along_bind (along_mono hFinal fun r s w hPost => ?_)
  cases r with
  | ok value => exact along_ofExcept hPost
  | error error => exact hPost

end Along

/-- Weakest precondition of code that keeps to the second discipline with each
of its actions. -/
def wp {α : Type} (op : P.Op) (task : Nat) (code : Coro G α)
    (post : Except G.Error α → World G → Prop) (world : World G) : Prop :=
  ∀ start, E.Act task start world →
    E.along op task code (fun outcome s w => E.Act task s w ∧ post outcome w) start world

section Rules

variable {E} {op : P.Op} {task : Nat} {α β : Type} {world : World G}
  {post post' : Except G.Error α → World G → Prop}

theorem wp_mono {code : Coro G α} (h : E.wp op task code post world)
    (hPost : ∀ r w, E.inv w → post r w → post' r w) : E.wp op task code post' world :=
  fun start hStart => along_mono (h start hStart) fun r _ w hEnd =>
    ⟨hEnd.1, hPost r w hEnd.1.1 hEnd.2⟩

/-- Where the code begins, the invariant holds. -/
theorem wp_inv {code : Coro G α} (h : E.inv world → E.wp op task code post world) :
    E.wp op task code post world :=
  fun start hStart => h hStart.1 start hStart

theorem wp_bind {code : Coro G α} {next : α → Coro G β} {post : Except G.Error β → World G → Prop}
    (h : E.wp op task code (fun outcome w => match outcome with
      | .ok value => E.wp op task (next value) post w
      | .error error => post (.error error) w) world) :
    E.wp op task (code.bind next) post world := by
  refine fun start hStart => along_bind (along_mono (h start hStart) ?_)
  rintro (error | value) s w ⟨hAct, hPost⟩
  · exact ⟨hAct, hPost⟩
  · exact hPost s hAct

theorem wp_and {code : Coro G α} {known : Except G.Error α → World G → Prop}
    (hKnown : D.wp op task code known world) (h : E.wp op task code post world) :
    E.wp op task code (fun r w => known r w ∧ post r w) world :=
  fun start hStart => along_mono (along_and hKnown (h start hStart)) fun _ _ _ hEnd =>
    ⟨hEnd.2.1, hEnd.1, hEnd.2.2⟩

theorem wp_known {code : Coro G α} (hInv : D.inv world) (h : E.wp op task code post world) :
    E.wp op task code (fun r w => D.inv w ∧ post r w) world :=
  fun start hStart => along_mono (along_inv hInv (h start hStart)) fun _ _ _ hEnd =>
    ⟨hEnd.2.1, hEnd.1, hEnd.2.2⟩

theorem wp_pure {value : α} (h : post (.ok value) world) : E.wp op task (.pure value) post world :=
  fun _ hStart => ⟨hStart, h⟩

theorem wp_throw {error : G.Error} (h : post (.error error) world) :
    E.wp op task (.throw error) post world :=
  fun _ hStart => ⟨hStart, h⟩

theorem wp_raise {error : G.Error} (h : post (.error error) world) :
    E.wp op task (Coro.raise error) post world :=
  wp_throw h

theorem wp_ofExcept {outcome : Except G.Error α} (h : post outcome world) :
    E.wp op task (Coro.ofExcept outcome) post world := by
  cases outcome <;> exact fun _ hStart => ⟨hStart, h⟩

theorem wp_read {next : Nat → G.State → Coro G α} (h : E.wp op task (next task world.state) post world) :
    E.wp op task (.read next) post world := h

theorem wp_get_bind {next : G.State → Coro G α} (h : E.wp op task (next world.state) post world) :
    E.wp op task (Coro.get.bind next) post world := h

theorem wp_current_bind {next : Nat → Coro G α} (h : E.wp op task (next task) post world) :
    E.wp op task (Coro.current.bind next) post world := h

theorem wp_act {event : Option G.Event} {update : G.State → G.State} {next : Coro G α}
    (h : E.inv world → D.inv (world.act task event (update world.state)) →
      E.Act task world (world.act task event (update world.state)) ∧
        E.wp op task next post (world.act task event (update world.state))) :
    E.wp op task (.act event update next) post world := by
  intro start hStart hInv
  obtain ⟨hAct, hNext⟩ := h hStart.1 hInv
  exact hNext start (hStart.trans E hAct)

theorem wp_suspend {wait : G.Wait} {post : Except G.Error (G.Reply wait) → World G → Prop}
    (h : E.inv world → E.waits op task wait world ∧
      ∀ later reply state, D.inv later → E.inv later → D.rely task world later →
        E.rely task world later → P.deliver op task wait reply later.state = some state →
        D.inv (Discipline.answered op task wait reply later state) →
        E.Act task later (Discipline.answered op task wait reply later state) ∧
          post reply (Discipline.answered op task wait reply later state)) :
    E.wp op task (Coro.suspend wait) post world := by
  intro start hStart
  obtain ⟨hWaits, hNext⟩ := h hStart.1
  exact along_suspend hStart hWaits hNext

theorem wp_attempt {code : Coro G α} {post : Except G.Error (Except G.Error α) → World G → Prop}
    (h : E.wp op task code (fun outcome w => post (.ok outcome) w) world) :
    E.wp op task code.attempt post world :=
  fun start hStart => along_attempt (h start hStart)

theorem wp_tryCatch {code : Coro G α} {handler : G.Error → Coro G α}
    (h : E.wp op task code (fun outcome w => match outcome with
      | .ok value => post (.ok value) w
      | .error error => E.wp op task (handler error) post w) world) :
    E.wp op task (code.tryCatch handler) post world := by
  refine fun start hStart => along_tryCatch (along_mono (h start hStart) ?_)
  rintro (error | value) s w ⟨hAct, hPost⟩
  · exact hPost s hAct
  · exact ⟨hAct, hPost⟩

theorem wp_tryFinally {code : Coro G α} {final : Coro G Unit}
    (h : E.wp op task code (fun outcome w => E.wp op task final (fun r w => match r with
      | .ok _ => post outcome w
      | .error error => post (.error error) w) w) world) :
    E.wp op task (code.tryFinally final) post world := by
  refine fun start hStart => along_tryFinally (along_mono (h start hStart) ?_)
  rintro outcome s w ⟨hAct, hFinal⟩
  refine along_mono (hFinal s hAct) ?_
  rintro (error | value) s' w' ⟨hAct', hPost⟩ <;> exact ⟨hAct', hPost⟩

theorem wp_ite {condition : Prop} [Decidable condition] {first second : Coro G α}
    (hFirst : condition → E.wp op task first post world)
    (hSecond : ¬condition → E.wp op task second post world) :
    E.wp op task (if condition then first else second) post world := by
  split
  · next h => exact hFirst h
  · next h => exact hSecond h

theorem wp_when {condition : Prop} [Decidable condition] {code : Coro G Unit}
    {post : Except G.Error Unit → World G → Prop}
    (hCode : condition → E.wp op task code post world) (hNot : ¬condition → post (.ok ()) world) :
    E.wp op task (Coro.when condition code) post world :=
  wp_ite hCode fun h => wp_pure (hNot h)

end Rules

section Soundness

/-- What is left of a task's code will keep to the discipline when resumed. -/
def Ready (op : P.Op) (task : Nat) (code : Coro G P.Value) (world : World G) : Prop :=
  match code with
  | .await wait next => E.waits op task wait world ∧
      ∀ later reply state, D.inv later → E.inv later → D.rely task world later →
        E.rely task world later → P.deliver op task wait reply later.state = some state →
        D.inv (Discipline.answered op task wait reply later state) →
        E.along op task (next reply) (fun _ s w => E.Act task s w) later
          (Discipline.answered op task wait reply later state)
  | _ => True

variable {E}

theorem Ready.stable {op : P.Op} {task : Nat} {code : Coro G P.Value} {before after : World G}
    (h : E.Ready op task code before) (hRely : D.rely task before after)
    (hRely' : E.rely task before after) : E.Ready op task code after := by
  cases code with
  | await wait next =>
      refine ⟨E.stable op task wait _ _ h.1 hRely hRely', ?_⟩
      intro later reply state hInv hInv' hLater hLater'
      exact h.2 later reply state hInv hInv' (D.trans _ _ _ _ hRely hLater)
        (E.trans _ _ _ _ hRely' hLater')
  | _ => trivial

/-- Running code up to its next wait is one action of its task. -/
theorem along_advance {op : P.Op} {task : Nat} {code : Coro G P.Value} {start world : World G}
    (hKnown : D.wp op task code (fun _ _ => True) world)
    (h : E.along op task code (fun _ s w => E.Act task s w) start world) :
    E.Act task start (code.advance task world).2 ∧
      E.Ready op task (code.advance task world).1 (code.advance task world).2 := by
  induction code generalizing world with
  | pure value => exact ⟨h, trivial⟩
  | throw error => exact ⟨h, trivial⟩
  | await wait next => exact h
  | read next ih => exact ih task world.state hKnown h
  | act event update next ih => exact ih hKnown.2 (h hKnown.1.1)

/-- The obligations of a program for the second discipline, under disturbances
of the kinds considered. -/
structure Sound (E : Extension D) (allowed : P.Op → Prop) (considered : P.Move → Prop) : Prop where
  disturbs : ∀ move world state, considered move → D.inv world → E.inv world →
    P.disturb move world.state = some state →
    E.inv { world with state } ∧ ∀ task, E.rely task world { world with state }
  starts : ∀ op world state, allowed op → D.inv world → E.inv world →
    P.accept op world.state = some state →
    D.inv { world with state, started := world.started + 1 } →
    E.along op world.started (P.body op) (fun _ s w => E.Act world.started s w) world
      { world with state, started := world.started + 1 }

/-- Both disciplines hold of a loop. -/
structure Safe (E : Extension D) (loop : Loop P) : Prop where
  base : D.Safe loop
  inv : E.inv loop.world
  ready : ∀ (task : Nat) (op : P.Op) (code : Coro G P.Value),
    loop.tasks[task]? = some ⟨op, code⟩ → E.Ready op task code loop.world

variable {allowed : P.Op → Prop} {considered : P.Move → Prop} {loop next : Loop P}

/-- The tasks other than the one that has acted stay ready. -/
theorem Safe.others (hSafe : E.Safe loop) {task : Nat} {world : World G}
    (hAct : D.Act task loop.world world) (hAct' : E.Act task loop.world world) :
    ∀ (other : Nat) (op : P.Op) (code : Coro G P.Value), other ≠ task →
      loop.tasks[other]? = some ⟨op, code⟩ → E.Ready op other code world :=
  fun other op code hne hTask =>
    (hSafe.ready other op code hTask).stable (hAct.2 other hne) (hAct'.2 other hne)

theorem Safe.step (hBase : D.Sound allowed) (hSound : E.Sound allowed considered)
    (hSafe : E.Safe loop) (choice : Choice P) (hStep : loop.step choice = some next)
    (hAllowed : ∀ op, choice = .start op → allowed op)
    (hConsidered : ∀ move, choice = .disturb move → considered move) : E.Safe next := by
  have hNext := hSafe.base.step hBase choice hStep hAllowed
  obtain ⟨op, state, rfl, hAccept, rfl⟩ | ⟨task, answer, op, wait, rest, state, rfl, hTask, hDeliver, rfl⟩ |
    ⟨move, state, rfl, hMove, rfl⟩ := Loop.step_cases hStep
  · obtain ⟨hAct, hWp⟩ := hBase.starts op loop.world state (hAllowed op rfl) hSafe.base.inv hAccept
    have hRun := (Discipline.wp_advance D hWp hAct.1).1
    obtain ⟨hAct', hReady⟩ := along_advance hWp
      (hSound.starts op loop.world state (hAllowed op rfl) hSafe.base.inv hSafe.inv hAccept hAct.1)
    refine ⟨hNext, hAct'.1, fun task op' code hTask => ?_⟩
    rcases Loop.task_of_append hTask with ⟨hne, hOld⟩ | ⟨rfl, hNew⟩
    · rw [← hSafe.base.count] at hne
      exact hSafe.others (hAct.trans D hRun) hAct' task op' code hne hOld
    · cases hNew
      rw [← hSafe.base.count]
      exact hReady
  · obtain ⟨hAnswer, -⟩ := hBase.answers op task wait (answer wait) loop.world state hSafe.base.inv hDeliver
    have hWait := hSafe.base.ready task op _ hTask loop.world (answer wait) state hSafe.base.inv (D.refl _ _) hDeliver
    have hRun := (Discipline.wp_advance D hWait hAnswer.1).1
    obtain ⟨hAct', hReady⟩ := along_advance hWait
      ((hSafe.ready task op _ hTask).2 loop.world (answer wait) state hSafe.base.inv
        hSafe.inv (D.refl _ _) (E.refl _ _) hDeliver hAnswer.1)
    refine ⟨hNext, hAct'.1, fun other op' code hOther => ?_⟩
    rcases Loop.task_of_set hOther with ⟨hne, hOld⟩ | ⟨rfl, hNew⟩
    · exact hSafe.others (hAnswer.trans D hRun) hAct' other op' code hne hOld
    · cases hNew
      exact hReady
  · obtain ⟨-, hRely⟩ := hBase.disturbs move loop.world state hSafe.base.inv hMove
    obtain ⟨hInv, hRely'⟩ := hSound.disturbs move loop.world state (hConsidered move rfl)
      hSafe.base.inv hSafe.inv hMove
    exact ⟨hNext, hInv, fun task op code hTask =>
      (hSafe.ready task op code hTask).stable (hRely task) (hRely' task)⟩

theorem Safe.run {final : Loop P} {choices : List (Choice P)} (hBase : D.Sound allowed)
    (hSound : E.Sound allowed considered) (hSafe : E.Safe loop)
    (hRun : loop.run choices = some final) (hAllowed : ∀ op, .start op ∈ choices → allowed op)
    (hConsidered : ∀ move, .disturb move ∈ choices → considered move) : E.Safe final :=
  Loop.run_keeps E.Safe (fun choice hIn _ _ hSoFar hStep =>
    hSoFar.step hBase hSound choice hStep (fun op hOp => hAllowed op (hOp ▸ hIn))
      fun move hMove => hConsidered move (hMove ▸ hIn)) hSafe hRun

theorem Sound.run {state : G.State} {final : Loop P} {choices : List (Choice P)}
    (hSound : E.Sound allowed considered) (hBase : D.Sound allowed) (hInitial : D.inv { state })
    (hInitial' : E.inv { state }) (hRun : (Loop.initial P state).run choices = some final)
    (hAllowed : ∀ op, .start op ∈ choices → allowed op)
    (hConsidered : ∀ move, .disturb move ∈ choices → considered move) : E.Safe final := by
  have hSafe : E.Safe (Loop.initial P state) :=
    ⟨⟨hInitial, rfl, fun task op code hTask => by simp [Loop.initial] at hTask⟩, hInitial',
      fun task op code hTask => by simp [Loop.initial] at hTask⟩
  exact hSafe.run hBase hSound hRun hAllowed hConsidered

end Soundness
end Extension

namespace Frame

variable {D : Discipline P}

/-- Whatever the frame permits is tolerated by everybody under the second
discipline too, the acting task included, and so is every answer. -/
structure Suits (F : Frame P) (E : Extension D) : Prop where
  act : ∀ task world event state, D.inv world → E.inv world → F.step world.state state →
    (∀ e ∈ event, F.event e) →
    E.Act task world (world.act task event state) ∧ E.rely task world (world.act task event state)
  answers : ∀ op task wait reply world state, D.inv world → E.inv world →
    P.deliver op task wait reply world.state = some state →
    E.Act task world (Discipline.answered op task wait reply world state) ∧
      E.rely task world (Discipline.answered op task wait reply world state)
  waits : ∀ op task wait world, E.inv world → E.waits op task wait world

variable {F : Frame P} {E : Extension D}

/-- Calm code keeps the second discipline, and what its own task relies on. -/
theorem Suits.wp (hSuits : F.Suits E) {op : P.Op} {task : Nat} {α : Type} {R : Raises G}
    {code : Coro G α} {marked : Prop} {start : World G} (h : code.Calm F op R marked)
    (hInv : D.inv start) : E.wp op task code (fun _ w => E.rely task start w) start := by
  suffices hGeneral : ∀ (marked : Prop) (world : World G), code.Calm F op R marked →
      D.inv world → E.rely task start world →
      E.wp op task code (fun _ w => E.rely task start w) world from
    hGeneral marked start h hInv (E.refl _ _)
  clear h hInv
  induction code with
  | pure value => exact fun _ world _ _ hRely => Extension.wp_pure hRely
  | throw error => exact fun _ world _ _ hRely => Extension.wp_throw hRely
  | read next ih =>
      exact fun marked world h hInv hRely =>
        ih task world.state marked world (h task world.state) hInv hRely
  | act event update next ih =>
      intro marked world h hInv hRely
      obtain ⟨hStep, hEvent, hNext⟩ := h
      refine Extension.wp_act fun hInv' hAfter => ?_
      obtain ⟨hAct, hSelf⟩ := hSuits.act task world event _ hInv hInv' (hStep world.state) hEvent
      exact ⟨hAct, ih _ _ hNext hAfter (E.trans _ _ _ _ hRely hSelf)⟩
  | await wait next ih =>
      intro marked world h hInv hRely segment hStart
      refine ⟨hStart, hSuits.waits op task wait world hStart.1, ?_⟩
      intro later reply state hLater hLater' _ hWait hDeliver hAfter
      obtain ⟨hAct, hSelf⟩ := hSuits.answers op task wait reply later state hLater hLater' hDeliver
      exact ih reply _ _ (h task reply later.state state hDeliver) hAfter
        (E.trans _ _ _ _ (E.trans _ _ _ _ hRely hWait) hSelf) later hAct

end Frame
end Asyncio
