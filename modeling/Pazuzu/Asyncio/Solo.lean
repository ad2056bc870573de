import Pazuzu.Asyncio.Coroutine
import Mathlib.Logic.Relation

/-! One coroutine alone with its surroundings. Surroundings that preempt move
between any two of its actions, as a signal handler does; others move only while
it waits. A run is a list of picks, so every run can be replayed by evaluation. -/
namespace Asyncio

/-- What may happen around one coroutine. `deliver` says when a wait may be
answered so, `disturb` what may happen by itself. -/
structure Surroundings (G : Signature) where
  Move : Type
  preempts : Bool
  deliver : (wait : G.Wait) → Except G.Error (G.Reply wait) → G.State → Option G.State
  disturb : Move → G.State → Option G.State

/-- The coroutine's rest and the state it has reached. -/
structure Solo (G : Signature) (α : Type) where
  code : Coro G α
  state : G.State

variable {G : Signature}

/-- The next action is the coroutine's own. -/
def Coro.busy {α : Type} : Coro G α → Bool
  | .read _ | .act _ _ _ => true
  | _ => false

inductive Pick (S : Surroundings G) where
  | go
  | answer (reply : (wait : G.Wait) → Except G.Error (G.Reply wait))
  | disturb (move : S.Move)

namespace Surroundings

variable (S : Surroundings G) {α β : Type}

def step (solo : Solo G α) : Pick S → Option (Solo G α)
  | .go =>
      match solo.code with
      | .read next => some ⟨next 0 solo.state, solo.state⟩
      | .act _ update next => some ⟨next, update solo.state⟩
      | _ => none
  | .answer reply =>
      match solo.code with
      | .await wait next =>
          match S.deliver wait (reply wait) solo.state with
          | none => none
          | some state => some ⟨next (reply wait), state⟩
      | _ => none
  | .disturb move =>
      if solo.code.busy = true ∧ S.preempts = false then none
      else
        match S.disturb move solo.state with
        | none => none
        | some state => some ⟨solo.code, state⟩

def run (solo : Solo G α) : List (Pick S) → Option (Solo G α)
  | [] => some solo
  | pick :: rest =>
      match S.step solo pick with
      | none => none
      | some next => run next rest

variable {S} in
/-- A wait that is answered. -/
theorem run_answer {wait : G.Wait} {next : Except G.Error (G.Reply wait) → Coro G α} {state after : G.State}
    {reply : (wait : G.Wait) → Except G.Error (G.Reply wait)} {rest : List (Pick S)}
    (h : S.deliver wait (reply wait) state = some after) :
    S.run ⟨.await wait next, state⟩ (.answer reply :: rest) = S.run ⟨next (reply wait), after⟩ rest := by
  have hStep : S.step ⟨.await wait next, state⟩ (.answer reply) = some ⟨next (reply wait), after⟩ := by
    simp only [step, h]
  rw [run, hStep]

/-- What the surroundings make of a state, in any number of moves. -/
def Drifts : G.State → G.State → Prop :=
  Relation.ReflTransGen fun before after => ∃ move, S.disturb move before = some after

/-- What may happen before the coroutine's next own action. -/
def Between (before after : G.State) : Prop :=
  after = before ∨ S.preempts = true ∧ S.Drifts before after

/-- Weakest precondition under everything the surroundings can do. The
invariant may be assumed of whatever they leave behind, and has to hold again
after each action. -/
def wp (inv : G.State → Prop) :
    Coro G α → (Except G.Error α → G.State → Prop) → G.State → Prop
  | .pure value, post, state => post (.ok value) state
  | .throw error, post, state => post (.error error) state
  | .read next, post, state =>
      ∀ later, inv later → S.Between state later → wp inv (next 0 later) post later
  | .act _ update next, post, state =>
      ∀ later, inv later → S.Between state later →
        inv (update later) ∧ wp inv next post (update later)
  | .await wait next, post, state =>
      ∀ later reply after, inv later → S.Drifts state later →
        S.deliver wait reply later = some after → inv after ∧ wp inv (next reply) post after

section Rules

variable {S} {inv : G.State → Prop} {post : Except G.Error α → G.State → Prop} {state : G.State}

theorem Drifts.refl : S.Drifts state state := Relation.ReflTransGen.refl

theorem Between.drifts {before after : G.State} (h : S.Between before after) :
    S.Drifts before after := by
  rcases h with rfl | ⟨-, h⟩
  · exact Drifts.refl
  · exact h

theorem Between.eq {before after : G.State} (h : S.Between before after)
    (hCooperative : S.preempts = false) : after = before :=
  h.resolve_right fun hPreempts => Bool.false_ne_true (hCooperative.symm.trans hPreempts.1)

/-- What every move keeps or enlarges holds along a drift. -/
theorem Drifts.lift {R : G.State → G.State → Prop} {before after : G.State}
    (h : S.Drifts before after) (hRefl : ∀ state, R state state)
    (hTrans : ∀ a b c, R a b → R b c → R a c)
    (hMove : ∀ move a b, S.disturb move a = some b → R a b) : R before after := by
  induction h with
  | refl => exact hRefl _
  | tail _ hLast ih =>
      obtain ⟨move, hMoved⟩ := hLast
      exact hTrans _ _ _ ih (hMove move _ _ hMoved)

theorem wp_mono {code : Coro G α} {post' : Except G.Error α → G.State → Prop}
    (h : S.wp inv code post state) (hPost : ∀ outcome state, post outcome state → post' outcome state) :
    S.wp inv code post' state := by
  induction code generalizing state with
  | pure value => exact hPost _ _ h
  | throw error => exact hPost _ _ h
  | read next ih => exact fun later hInv hLater => ih 0 later (h later hInv hLater)
  | act event update next ih =>
      exact fun later hInv hLater => ⟨(h later hInv hLater).1, ih (h later hInv hLater).2⟩
  | await wait next ih =>
      intro later reply after hInv hLater hDeliver
      have hAfter := h later reply after hInv hLater hDeliver
      exact ⟨hAfter.1, ih reply hAfter.2⟩

theorem wp_congr {code : Coro G α} {post' : Except G.Error α → G.State → Prop}
    (h : ∀ outcome state, post outcome state ↔ post' outcome state) :
    S.wp inv code post state ↔ S.wp inv code post' state :=
  ⟨fun hw => wp_mono hw fun o s => (h o s).mp, fun hw => wp_mono hw fun o s => (h o s).mpr⟩

theorem wp_bind (code : Coro G α) (next : α → Coro G β)
    (post : Except G.Error β → G.State → Prop) (state : G.State) :
    S.wp inv (code.bind next) post state ↔
      S.wp inv code (fun outcome after => match outcome with
        | .ok value => S.wp inv (next value) post after
        | .error error => post (.error error) after) state := by
  induction code generalizing state with
  | pure value => rfl
  | throw error => rfl
  | read rest ih =>
      exact forall_congr' fun later => imp_congr_right fun _ => imp_congr_right fun _ => ih 0 later later
  | act event update rest ih =>
      exact forall_congr' fun later => imp_congr_right fun _ => imp_congr_right fun _ =>
        and_congr_right fun _ => ih _
  | await wait rest ih =>
      exact forall_congr' fun later => forall_congr' fun reply => forall_congr' fun after =>
        imp_congr_right fun _ => imp_congr_right fun _ => imp_congr_right fun _ =>
          and_congr_right fun _ => ih reply _

theorem wp_attempt (code : Coro G α)
    (post : Except G.Error (Except G.Error α) → G.State → Prop) (state : G.State) :
    S.wp inv code.attempt post state ↔
      S.wp inv code (fun outcome after => post (.ok outcome) after) state := by
  induction code generalizing state with
  | pure value => rfl
  | throw error => rfl
  | read rest ih =>
      exact forall_congr' fun later => imp_congr_right fun _ => imp_congr_right fun _ => ih 0 later later
  | act event update rest ih =>
      exact forall_congr' fun later => imp_congr_right fun _ => imp_congr_right fun _ =>
        and_congr_right fun _ => ih _
  | await wait rest ih =>
      exact forall_congr' fun later => forall_congr' fun reply => forall_congr' fun after =>
        imp_congr_right fun _ => imp_congr_right fun _ => imp_congr_right fun _ =>
          and_congr_right fun _ => ih reply _

theorem wp_ofExcept (outcome : Except G.Error α) :
    S.wp inv (Coro.ofExcept outcome) post state ↔ post outcome state := by
  cases outcome <;> rfl

theorem wp_tryCatch (code : Coro G α) (handler : G.Error → Coro G α) :
    S.wp inv (code.tryCatch handler) post state ↔
      S.wp inv code (fun outcome after => match outcome with
        | .ok value => post (.ok value) after
        | .error error => S.wp inv (handler error) post after) state := by
  unfold Coro.tryCatch
  rw [wp_bind, wp_attempt]
  refine wp_congr fun outcome after => ?_
  cases outcome <;> exact Iff.rfl

theorem wp_tryFinally (code : Coro G α) (final : Coro G Unit) :
    S.wp inv (code.tryFinally final) post state ↔
      S.wp inv code (fun outcome after => S.wp inv final (fun r last => match r with
        | .ok _ => post outcome last
        | .error error => post (.error error) last) after) state := by
  unfold Coro.tryFinally
  rw [wp_bind, wp_attempt]
  refine wp_congr fun outcome after => ?_
  change S.wp inv (final.bind fun _ => Coro.ofExcept outcome) post after ↔ _
  rw [wp_bind]
  refine wp_congr fun r last => ?_
  cases r with
  | ok value => exact wp_ofExcept outcome
  | error error => exact Iff.rfl

theorem wp_when {condition : Prop} [Decidable condition] {code : Coro G Unit}
    {post : Except G.Error Unit → G.State → Prop} (h : condition → S.wp inv code post state)
    (hElse : ¬condition → post (.ok ()) state) : S.wp inv (Coro.when condition code) post state := by
  unfold Coro.when
  split
  · next hTrue => exact h hTrue
  · next hFalse => exact hElse hFalse

theorem wp_get {next : G.State → Coro G α}
    (h : ∀ later, inv later → S.Between state later → S.wp inv (next later) post later) :
    S.wp inv (Coro.get.bind next) post state := h

theorem wp_update_bind {f : G.State → G.State} {next : Unit → Coro G α}
    (h : ∀ later, inv later → S.Between state later →
      inv (f later) ∧ S.wp inv (next ()) post (f later)) :
    S.wp inv ((Coro.update f).bind next) post state := h

theorem wp_update {f : G.State → G.State} {post : Except G.Error Unit → G.State → Prop}
    (h : ∀ later, inv later → S.Between state later → inv (f later) ∧ post (.ok ()) (f later)) :
    S.wp inv (Coro.update f) post state := h

theorem wp_suspend {wait : G.Wait} {post : Except G.Error (G.Reply wait) → G.State → Prop}
    (h : ∀ later reply after, inv later → S.Drifts state later →
      S.deliver wait reply later = some after → inv after ∧ post reply after) :
    S.wp inv (Coro.suspend wait) post state := by
  intro later reply after hInv hLater hDeliver
  obtain ⟨hAfter, hPost⟩ := h later reply after hInv hLater hDeliver
  exact ⟨hAfter, (wp_ofExcept reply).mpr hPost⟩

end Rules

/-- The last state in which the coroutine acted, seen from a later one. -/
def Since (code : Coro G α) (start state : G.State) : Prop :=
  S.Drifts start state ∧ (code.busy = true → S.Between start state)

variable {S} {inv : G.State → Prop} {post : Except G.Error α → G.State → Prop}

/-- One pick keeps the invariant, and what is left of the coroutine stays
correct from where it last acted. -/
theorem step_keeps (hMoves : ∀ move before after, inv before → S.disturb move before = some after → inv after)
    {solo next : Solo G α} {pick : Pick S} {start : G.State} (hInv : inv solo.state)
    (hSince : S.Since solo.code start solo.state) (h : S.wp inv solo.code post start)
    (hStep : S.step solo pick = some next) :
    inv next.state ∧ ∃ start, S.Since next.code start next.state ∧ S.wp inv next.code post start := by
  obtain ⟨code, state⟩ := solo
  have hRest : ∀ {rest : Coro G α} {after : G.State}, S.wp inv rest post after →
      ∃ start, S.Since rest start after ∧ S.wp inv rest post start := fun hRest =>
    ⟨_, ⟨Drifts.refl, fun _ => Or.inl rfl⟩, hRest⟩
  cases pick with
  | go =>
      cases code with
      | read rest =>
          cases hStep
          exact ⟨hInv, hRest (h state hInv (hSince.2 rfl))⟩
      | act event update rest =>
          cases hStep
          have hAct := h state hInv (hSince.2 rfl)
          exact ⟨hAct.1, hRest hAct.2⟩
      | pure value => cases hStep
      | throw error => cases hStep
      | await wait rest => cases hStep
  | answer reply =>
      cases code with
      | await wait rest =>
          simp only [step] at hStep
          split at hStep
          · cases hStep
          · next after hDeliver =>
              cases hStep
              have hAfter := h state (reply wait) after hInv hSince.1 hDeliver
              exact ⟨hAfter.1, hRest hAfter.2⟩
      | pure value => cases hStep
      | throw error => cases hStep
      | read rest => cases hStep
      | act event update rest => cases hStep
  | disturb move =>
      simp only [step] at hStep
      split at hStep
      · cases hStep
      · next hOpen =>
          split at hStep
          · cases hStep
          · next after hMove =>
              cases hStep
              have hDrifts : S.Drifts start after := hSince.1.tail ⟨move, hMove⟩
              refine ⟨hMoves move state after hInv hMove, start, ⟨hDrifts, fun hBusy => ?_⟩, h⟩
              refine Or.inr ⟨?_, hDrifts⟩
              cases hPreempts : S.preempts with
              | true => rfl
              | false => exact absurd ⟨hBusy, hPreempts⟩ hOpen

/-- Whatever is picked, the invariant holds where a correct coroutine is. -/
theorem run_keeps (hMoves : ∀ move before after, inv before → S.disturb move before = some after → inv after)
    {solo final : Solo G α} {picks : List (Pick S)} {start : G.State} (hInv : inv solo.state)
    (hSince : S.Since solo.code start solo.state) (h : S.wp inv solo.code post start)
    (hRun : S.run solo picks = some final) :
    inv final.state ∧ ∃ start, S.Since final.code start final.state ∧ S.wp inv final.code post start := by
  induction picks generalizing solo start with
  | nil =>
      cases hRun
      exact ⟨hInv, start, hSince, h⟩
  | cons pick rest ih =>
      simp only [run] at hRun
      split at hRun
      · cases hRun
      · next next hStep =>
          obtain ⟨hNext, start', hSince', h'⟩ := step_keeps hMoves hInv hSince h hStep
          exact ih hNext hSince' h' hRun

/-- A correct coroutine keeps the invariant from its first state on. -/
theorem run_inv (hMoves : ∀ move before after, inv before → S.disturb move before = some after → inv after)
    {code : Coro G α} {state : G.State} {final : Solo G α} {picks : List (Pick S)} (hInv : inv state)
    (h : S.wp inv code post state) (hRun : S.run ⟨code, state⟩ picks = some final) : inv final.state :=
  (run_keeps hMoves hInv ⟨Drifts.refl, fun _ => Or.inl rfl⟩ h hRun).1

/-- Where the coroutine has come to its end, its postcondition held when it did. -/
theorem run_post (hMoves : ∀ move before after, inv before → S.disturb move before = some after → inv after)
    {code : Coro G α} {state : G.State} {final : Solo G α} {picks : List (Pick S)} (hInv : inv state)
    (h : S.wp inv code post state) (hRun : S.run ⟨code, state⟩ picks = some final)
    {outcome : Except G.Error α} (hEnd : final.code = Coro.ofExcept outcome) :
    ∃ ending, S.Drifts ending final.state ∧ post outcome ending := by
  obtain ⟨-, start, hSince, hFinal⟩ :=
    run_keeps hMoves hInv ⟨Drifts.refl, fun _ => Or.inl rfl⟩ h hRun
  rw [hEnd] at hFinal
  exact ⟨start, hSince.1, (wp_ofExcept outcome).mp hFinal⟩

end Surroundings
end Asyncio
