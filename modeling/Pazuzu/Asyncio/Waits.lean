import Pazuzu.Asyncio.Compositional
import Pazuzu.Asyncio.Solo

/-! What code may wait for, and what is left of it after certain waits, on every
path. Both are kept by each step, so they hold throughout a run. -/
namespace Asyncio

variable {G : Signature} {α β : Type}

namespace Coro

/-- Every wait that the code can come to is allowed. -/
def Waits (may : G.Wait → Prop) {α : Type} : Coro G α → Prop
  | .pure _ | .throw _ => True
  | .read next => ∀ task state, (next task state).Waits may
  | .act _ _ next => next.Waits may
  | .await wait next => may wait ∧ ∀ reply, (next reply).Waits may

/-- After each of these waits nothing but such a rest is left. -/
def Closes (last : G.Wait → Prop) (rest : Coro G α → Prop) : Coro G α → Prop
  | .pure _ | .throw _ => True
  | .read next => ∀ task state, (next task state).Closes last rest
  | .act _ _ next => next.Closes last rest
  | .await wait next => (last wait → ∀ reply, rest (next reply)) ∧ ∀ reply, (next reply).Closes last rest

namespace Waits

variable {may may' : G.Wait → Prop}

theorem compositional (may : G.Wait → Prop) :
    Compositional fun {α : Type} (code : Coro G α) => code.Waits may where
  pure := fun _ => trivial
  throw := fun _ => trivial
  read := id
  bind := by
    intro α β code next h hNext
    induction code with
    | pure value => exact hNext value
    | throw error => trivial
    | read rest ih => exact fun task state => ih task state (h task state)
    | act event update rest ih => exact ih h
    | await wait rest ih => exact ⟨h.1, fun reply => ih reply (h.2 reply)⟩
  attempt := by
    intro α code h
    induction code with
    | pure value => trivial
    | throw error => trivial
    | read rest ih => exact fun task state => ih task state (h task state)
    | act event update rest ih => exact ih h
    | await wait rest ih => exact ⟨h.1, fun reply => ih reply (h.2 reply)⟩

theorem suspend {wait : G.Wait} (h : may wait) : (Coro.suspend wait).Waits may :=
  ⟨h, fun reply => (compositional may).ofExcept reply⟩

theorem mono (hMay : ∀ wait, may wait → may' wait) {code : Coro G α} (h : code.Waits may) : code.Waits may' := by
  induction code with
  | pure value => trivial
  | throw error => trivial
  | read rest ih => exact fun task state => ih task state (h task state)
  | act event update rest ih => exact ih h
  | await wait rest ih => exact ⟨hMay wait h.1, fun reply => ih reply (h.2 reply)⟩

end Waits

/-- Code without such a wait leaves the closing to what comes after it. -/
theorem Closes.bind {last : G.Wait → Prop} {rest : Coro G β → Prop} {code : Coro G α} {next : α → Coro G β}
    (h : code.Waits fun wait => ¬last wait) (hNext : ∀ value, (next value).Closes last rest) :
    (code.bind next).Closes last rest := by
  induction code with
  | pure value => exact hNext value
  | throw error => trivial
  | read more ih => exact fun task state => ih task state (h task state)
  | act event update more ih => exact ih h
  | await wait more ih => exact ⟨fun hLast => absurd hLast h.1, fun reply => ih reply (h.2 reply)⟩

end Coro

namespace Surroundings

variable {S : Surroundings G} {may last : G.Wait → Prop} {rest : Coro G α → Prop} {solo next final : Solo G α}
  {pick : Pick S} {picks : List (Pick S)}

/-- What a step can make of the code. -/
theorem step_code (h : S.step solo pick = some next) :
    next.code = solo.code ∨ (∃ more, solo.code = .read more ∧ next.code = more 0 solo.state) ∨
      (∃ event update, solo.code = .act event update next.code) ∨
      ∃ wait more reply, solo.code = .await wait more ∧ next.code = more reply := by
  obtain ⟨code, state⟩ := solo
  cases pick with
  | go =>
      cases code with
      | read more =>
          cases h
          exact Or.inr (Or.inl ⟨more, rfl, rfl⟩)
      | act event update more =>
          cases h
          exact Or.inr (Or.inr (Or.inl ⟨event, update, rfl⟩))
      | pure value => cases h
      | throw error => cases h
      | await wait more => cases h
  | answer reply =>
      cases code with
      | await wait more =>
          simp only [step] at h
          split at h
          · cases h
          · cases h
            exact Or.inr (Or.inr (Or.inr ⟨wait, more, reply wait, rfl, rfl⟩))
      | pure value => cases h
      | throw error => cases h
      | read more => cases h
      | act event update more => cases h
  | disturb move =>
      simp only [step] at h
      split at h
      · cases h
      · split at h
        · cases h
        · cases h
          exact Or.inl rfl

/-- What every step preserves holds at the end of a run. -/
theorem run_stable (holds : Solo G α → Prop)
    (hStep : ∀ (solo next : Solo G α) (pick : Pick S), holds solo → S.step solo pick = some next → holds next)
    (h : holds solo) (hRun : S.run solo picks = some final) : holds final := by
  induction picks generalizing solo with
  | nil =>
      cases hRun
      exact h
  | cons pick picks ih =>
      simp only [run] at hRun
      split at hRun
      · cases hRun
      · next next hNext => exact ih (hStep _ _ _ h hNext) hRun

/-- What code hands on to its parts holds of what a step leaves of it. -/
theorem step_inherits {holds : Coro G α → Prop}
    (hRead : ∀ more, holds (.read more) → ∀ task state, holds (more task state))
    (hAct : ∀ event update more, holds (.act event update more) → holds more)
    (hAwait : ∀ wait more, holds (.await wait more) → ∀ reply, holds (more reply))
    (h : holds solo.code) (hStep : S.step solo pick = some next) : holds next.code := by
  rcases step_code hStep with hSame | ⟨more, hCode, hNext⟩ | ⟨event, update, hCode⟩ |
    ⟨wait, more, reply, hCode, hNext⟩
  · exact hSame ▸ h
  · exact hNext ▸ hRead more (hCode ▸ h) 0 solo.state
  · exact hAct event update next.code (hCode ▸ h)
  · exact hNext ▸ hAwait wait more (hCode ▸ h) reply

/-- Whatever is picked, the code waits only for what it may. -/
theorem run_waits (h : solo.code.Waits may) (hRun : S.run solo picks = some final) : final.code.Waits may :=
  run_stable (fun solo => solo.code.Waits may) (fun _ _ _ hSoFar hStep =>
    step_inherits (fun _ => id) (fun _ _ _ => id) (fun _ _ => And.right) hSoFar hStep) h hRun

theorem step_closes (h : solo.code.Closes last rest) (hStep : S.step solo pick = some next) :
    next.code.Closes last rest :=
  step_inherits (fun _ => id) (fun _ _ _ => id) (fun _ _ => And.right) h hStep

/-- One of these waits is answered in the course of a run. -/
def Answers (S : Surroundings G) (last : G.Wait → Prop) (solo : Solo G α) : List (Pick S) → Prop
  | [] => False
  | pick :: picks =>
      (∃ reply wait more, pick = .answer reply ∧ solo.code = .await wait more ∧ last wait) ∨
        ∃ next, S.step solo pick = some next ∧ S.Answers last next picks

/-- Once one of these waits is answered, nothing but such a rest is ever left. -/
theorem run_closes
    (hStable : ∀ (solo next : Solo G α) (pick : Pick S), rest solo.code → S.step solo pick = some next → rest next.code)
    (h : solo.code.Closes last rest) (hRun : S.run solo picks = some final) (hAnswers : S.Answers last solo picks) :
    rest final.code := by
  induction picks generalizing solo with
  | nil => exact hAnswers.elim
  | cons pick picks ih =>
      simp only [run] at hRun
      split at hRun
      · cases hRun
      · next next hStep =>
          rcases hAnswers with ⟨reply, wait, more, rfl, hCode, hLast⟩ | ⟨next', hStep', hLater⟩
          · have hRest : rest next.code := by
              obtain ⟨code, state⟩ := solo
              subst hCode
              simp only [step] at hStep
              split at hStep
              · cases hStep
              · cases hStep
                exact h.1 hLast _
            exact run_stable (fun solo => rest solo.code) hStable hRest hRun
          · cases hStep.symm.trans hStep'
            exact ih (step_closes h hStep) hRun hLater

end Surroundings
end Asyncio
