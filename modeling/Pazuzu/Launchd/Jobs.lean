import Pazuzu.Launchd

/-! What the calls of the agents' module do to files and jobs: a job that launchd
has is one with a file, whatever fails and wherever a command is cut off. -/
namespace Pazuzu.Launchd

open Asyncio Surroundings

variable {launchctl : Launchctl} {state after : State} {label other : Label} {α β : Type}

section Files

theorem lookup_erase (files : List (Label × Document)) :
    (erase label files).lookup other = if other = label then none else files.lookup other := by
  induction files with
  | nil => simp [erase]
  | cons pair files ih =>
      obtain ⟨key, document⟩ := pair
      rw [erase] at ih
      by_cases hKey : key = label
      · subst hKey
        rw [erase, List.filter_cons_of_neg (by simp), ih, List.lookup_cons]
        split
        · rfl
        · next hOther => rw [show (other == key) = false by simpa using hOther]
      · rw [erase, List.filter_cons_of_pos (by simpa using hKey), List.lookup_cons, List.lookup_cons, ih]
        split
        · next hSame =>
            have hOther : other ≠ label := by
              rintro rfl
              exact hKey (eq_of_beq hSame).symm
            rw [if_neg hOther]
        · rfl

theorem lookup_put (files : List (Label × Document)) (document : Document) :
    (put label document files).lookup other = if other = label then some document else files.lookup other := by
  rw [put, List.lookup_cons]
  by_cases hSame : other = label
  · rw [if_pos hSame, show (other == label) = true by simpa using hSame]
  · rw [if_neg hSame, show (other == label) = false by simpa using hSame]
    exact (lookup_erase files).trans (if_neg hSame)

end Files

section Drift

/-- What launchd has done meanwhile. -/
structure Drift (before after : State) : Prop where
  files : after.files = before.files
  drafts : after.drafts = before.drafts
  jobs : ∀ label, after.jobs label = before.jobs label ∨
    before.jobs label = .leaving ∧ after.jobs label = .unloaded

theorem drift (hDocumented : Documented launchctl) (h : (surroundings launchctl).Drifts state after) :
    Drift state after := by
  refine h.lift (fun _ => ⟨rfl, rfl, fun _ => Or.inl rfl⟩) (fun a b c hFirst hSecond => ?_) fun move a b hMove => ?_
  · refine ⟨hSecond.files.trans hFirst.files, hSecond.drafts.trans hFirst.drafts, fun label => ?_⟩
    rcases hSecond.jobs label with hSame | ⟨hLeaving, hGone⟩
    · rw [hSame]
      exact hFirst.jobs label
    · rcases hFirst.jobs label with hSame | ⟨-, hGone'⟩
      · exact Or.inr ⟨hSame ▸ hLeaving, hGone⟩
      · rw [hGone'] at hLeaving
        cases hLeaving
  · simp only [disturb] at hMove
    split at hMove
    · next hTurns =>
        cases hMove
        obtain ⟨hLeaving, hGone⟩ := hDocumented.turns hTurns
        refine ⟨rfl, rfl, fun label => ?_⟩
        by_cases hSame : label = move.1
        · subst hSame
          exact Or.inr ⟨hLeaving, (Function.update_self _ _ _).trans hGone⟩
        · exact Or.inl (Function.update_of_ne hSame _ _)
    · cases hMove

theorem Drift.file (h : Drift state after) (label : Label) : after.file label = state.file label := by
  rw [State.file, h.files, State.file]

theorem Drift.unloaded (h : Drift state after) (hGone : (state.jobs label).isUnloaded = true) :
    (after.jobs label).isUnloaded = true := by
  rcases h.jobs label with hSame | ⟨-, hNow⟩
  · rw [hSame]
    exact hGone
  · rw [hNow]
    rfl

/-- A job stays loaded. -/
theorem Drift.loaded {document : Document} (h : Drift state after) (hLoaded : state.jobs label = .loaded document) :
    after.jobs label = .loaded document := by
  rcases h.jobs label with hSame | ⟨hLeaving, -⟩
  · exact hSame.trans hLoaded
  · rw [hLoaded] at hLeaving
    cases hLeaving

end Drift

section Calls

/-- A call that fails has left at most a draft. -/
theorem deliver_error {wait : Wait} {raised : Raised} (h : deliver launchctl wait (.error raised) state = some after) :
    after.files = state.files ∧ after.jobs = state.jobs := by
  have hSame : ∀ {later : State}, some later = some after → later.files = state.files → later.jobs = state.jobs →
      after.files = state.files ∧ after.jobs = state.jobs := by
    rintro _ hAfter hFiles hJobs
    cases hAfter
    exact ⟨hFiles, hJobs⟩
  cases raised <;> cases wait <;>
    first
    | exact hSame h rfl rfl
    | cases h
    | (simp only [deliver] at h
       split at h
       · exact hSame h rfl rfl
       · cases h)

/-- The calls that change neither files nor jobs nor drafts. -/
def Wait.isQuiet : Wait → Bool
  | .writeDraft _ _ | .replace _ | .unlink _ | .launchctl (.bootout _) | .launchctl (.bootstrap _) => false
  | _ => true

/-- What `launchctl` does, it does to the job of its label. -/
theorem deliver_launchctl {call : Call} {completed : Completed}
    (h : deliver launchctl (.launchctl call) (.ok completed) state = some after) :
    launchctl.ends call (state.file call.label) (state.jobs call.label) completed = true ∧
      after = state.setJob call.label completed.left := by
  simp only [deliver] at h
  split at h
  · next hEnds => exact ⟨hEnds, (Option.some.inj h).symm⟩
  · cases h

theorem setJob_self (state : State) (label : Label) : state.setJob label (state.jobs label) = state := by
  rw [State.setJob, Function.update_eq_self]

/-- What `print` says is so, and it changes nothing. -/
theorem deliver_print (hDocumented : Documented launchctl) {completed : Completed}
    (h : deliver launchctl (.launchctl (.print label)) (.ok completed) state = some after) :
    after = state ∧ (completed.returncode = 0 ↔ (state.jobs label).isUnloaded = false) := by
  obtain ⟨hEnds, rfl⟩ := deliver_launchctl h
  obtain ⟨hLeft, hCode⟩ := hDocumented.print hEnds
  refine ⟨?_, hCode⟩
  rw [hLeft]
  exact setJob_self state label

theorem deliver_quiet (hDocumented : Documented launchctl) {wait : Wait} {reply : Except Raised wait.Reply}
    (hQuiet : wait.isQuiet = true) (h : deliver launchctl wait reply state = some after) : after = state := by
  cases reply with
  | error raised =>
      cases wait <;> cases raised <;>
        first
        | exact absurd hQuiet Bool.false_ne_true
        | exact (Option.some.inj h).symm
        | cases h
        | (simp only [deliver] at h
           split at h
           · exact (Option.some.inj h).symm
           · cases h)
  | ok value =>
      cases wait with
      | launchctl call =>
          cases call with
          | print label => exact (deliver_print hDocumented h).1
          | _ => cases hQuiet
      | _ =>
          first
          | exact absurd hQuiet Bool.false_ne_true
          | exact (Option.some.inj h).symm
          | cases h
          | (simp only [deliver] at h
             split at h
             · exact (Option.some.inj h).symm
             · cases h)

/-- What `bootout` does to a job. -/
theorem deliver_bootout (hDocumented : Documented launchctl) {completed : Completed}
    (h : deliver launchctl (.launchctl (.bootout label)) (.ok completed) state = some after) :
    after.files = state.files ∧ after.drafts = state.drafts ∧ ∀ other, after.jobs other = state.jobs other ∨
      other = label ∧ (state.jobs label).isUnloaded = false := by
  obtain ⟨hEnds, rfl⟩ := deliver_launchctl h
  refine ⟨rfl, rfl, fun other => ?_⟩
  by_cases hSame : other = label
  · subst hSame
    rcases hDocumented.bootout hEnds with hLeft | ⟨document, hLoaded, -⟩
    · exact Or.inl ((Function.update_self _ _ _).trans hLeft)
    · have hLoaded' : state.jobs other = .loaded document := hLoaded
      exact Or.inr ⟨rfl, by rw [hLoaded']; rfl⟩
  · exact Or.inl (Function.update_of_ne hSame _ _)

/-- What `bootstrap` does: it loads the agent of a file, or nothing. -/
theorem deliver_bootstrap (hDocumented : Documented launchctl) {completed : Completed}
    (h : deliver launchctl (.launchctl (.bootstrap label)) (.ok completed) state = some after) :
    completed.returncode ≠ 0 ∧ after = state ∨
      state.jobs label = .unloaded ∧ ∃ document, state.file label = some document ∧ document.arguments ≠ none ∧
        after = state.setJob label (.loaded document) := by
  obtain ⟨hEnds, rfl⟩ := deliver_launchctl h
  rcases hDocumented.bootstrap hEnds with ⟨hLeft, hCode⟩ | ⟨hFree, document, hFile, hArguments, hLeft⟩
  · refine Or.inl ⟨hCode, ?_⟩
    rw [hLeft]
    exact setJob_self state label
  · refine Or.inr ⟨hFree, document, hFile, hArguments, ?_⟩
    rw [hLeft]
    rfl

theorem deliver_replace {reply : Unit} (h : deliver launchctl (.replace label) (.ok reply) state = some after) :
    ∃ document, state.drafts.lookup label = some document ∧ after.jobs = state.jobs ∧
      ∀ other, after.file other = if other = label then some document else state.file other := by
  obtain ⟨document, hDraft, rfl⟩ := Option.map_eq_some_iff.mp h
  exact ⟨document, hDraft, rfl, fun other => lookup_put state.files document⟩

theorem deliver_unlink {reply : Unit} (h : deliver launchctl (.unlink label) (.ok reply) state = some after) :
    after.jobs = state.jobs ∧ after.drafts = state.drafts ∧
      ∀ other, after.file other = if other = label then none else state.file other := by
  simp only [deliver] at h
  split at h
  · cases h
    exact ⟨rfl, rfl, fun other => lookup_erase state.files⟩
  · cases h

/-- A job that launchd has belongs to a file. -/
def Backed (state : State) : Prop :=
  ∀ label, isManaged label = true → (state.jobs label).isUnloaded = false → (state.file label).isSome = true

theorem Backed.drift (h : Backed state) (hDrift : Drift state after) : Backed after := by
  intro label hManaged hHere
  rw [hDrift.file]
  refine h label hManaged ?_
  rcases hDrift.jobs label with hSame | ⟨hLeaving, -⟩
  · rw [← hSame]
    exact hHere
  · rw [hLeaving]
    rfl

/-- No call leaves a job without a file, if a file is only removed while its job
is unloaded. -/
theorem deliver_backed (hDocumented : Documented launchctl) {wait : Wait} {reply : Except Raised wait.Reply}
    (h : Backed state) (hUnlink : ∀ label, wait = .unlink label → (state.jobs label).isUnloaded = true)
    (hDeliver : deliver launchctl wait reply state = some after) : Backed after := by
  have hSame : after.files = state.files → after.jobs = state.jobs → Backed after := by
    intro hFiles hJobs label hManaged hHere
    rw [hJobs] at hHere
    rw [State.file, hFiles]
    exact h label hManaged hHere
  by_cases hQuiet : wait.isQuiet = true
  · rw [deliver_quiet hDocumented hQuiet hDeliver]
    exact h
  · cases reply with
    | error raised =>
        obtain ⟨hFiles, hJobs⟩ := deliver_error hDeliver
        exact hSame hFiles hJobs
    | ok value =>
        cases wait with
        | writeDraft target content =>
            obtain ⟨document, -, rfl⟩ := Option.map_eq_some_iff.mp hDeliver
            exact hSame rfl rfl
        | replace target =>
            obtain ⟨document, -, hJobs, hFiles⟩ := deliver_replace hDeliver
            intro label hManaged hHere
            rw [hJobs] at hHere
            rw [hFiles]
            split
            · rfl
            · exact h label hManaged hHere
        | launchctl call =>
            cases call with
            | print target => exact absurd rfl hQuiet
            | bootout target =>
                obtain ⟨hFiles, -, hJobs⟩ := deliver_bootout hDocumented hDeliver
                intro label hManaged hHere
                rw [State.file, hFiles]
                refine h label hManaged ?_
                rcases hJobs label with hKept | ⟨rfl, hLoaded⟩
                · rw [← hKept]
                  exact hHere
                · exact hLoaded
            | bootstrap target =>
                rcases deliver_bootstrap hDocumented hDeliver with ⟨-, rfl⟩ | ⟨-, document, hFile, -, rfl⟩
                · exact h
                · intro label hManaged hHere
                  by_cases hLabel : label = target
                  · rw [hLabel]
                    change (state.file target).isSome = true
                    rw [hFile]
                    rfl
                  · have hOther : (state.setJob target (.loaded document)).jobs label = state.jobs label :=
                      Function.update_of_ne hLabel _ _
                    rw [hOther] at hHere
                    exact h label hManaged hHere
        | unlink target =>
            obtain ⟨hJobs, -, hFiles⟩ := deliver_unlink hDeliver
            intro label hManaged hHere
            rw [hJobs] at hHere
            rw [hFiles]
            split
            · next hLabel =>
                rw [hLabel, hUnlink target rfl] at hHere
                cases hHere
            · exact h label hManaged hHere
        | _ => exact absurd rfl hQuiet

/-- What the commands keep, where `launchctl` does as its manual says. -/
class Kept (launchctl : Launchctl) (inv : State → Prop) : Prop where
  documented (inv) : Documented launchctl
  call : ∀ {wait : Wait} {reply : Except Raised wait.Reply} {state after : State}, inv state →
    (∀ label, wait = .unlink label → (state.jobs label).isUnloaded = true) →
    deliver launchctl wait reply state = some after → inv after

theorem kept_backed (hDocumented : Documented launchctl) : Kept launchctl Backed where
  documented := hDocumented
  call h hUnlink hDeliver := deliver_backed hDocumented h hUnlink hDeliver

theorem kept_true (hDocumented : Documented launchctl) : Kept launchctl fun _ => True where
  documented := hDocumented
  call _ _ _ := trivial

end Calls

section Rules

variable {inv : State → Prop} {post : Except Raised α → State → Prop}

theorem wp_wait [Kept launchctl inv] {wait : Wait} {post : Except Raised wait.Reply → State → Prop}
    (hUnlink : ∀ label later, wait = .unlink label → Drift state later → (later.jobs label).isUnloaded = true)
    (h : ∀ later reply after, inv later → Drift state later → deliver launchctl wait reply later = some after →
      post reply after) : (surroundings launchctl).wp inv (Launchd.wait wait) post state := by
  have hDocumented : Documented launchctl := Kept.documented inv
  refine wp_suspend fun later reply after hLater hDrifts hDeliver => ?_
  have hDrift := drift hDocumented hDrifts
  exact ⟨Kept.call hLater (fun label hWait => hUnlink label later hWait hDrift) hDeliver, h later reply after hLater hDrift hDeliver⟩

theorem wp_never : (surroundings launchctl).wp inv (never : Py α) post state := by
  refine (wp_bind _ _ _ _).mpr (wp_suspend fun later reply after _ _ hDeliver => ?_)
  cases reply with
  | ok value => cases value
  | error raised => cases hDeliver

variable (launchctl inv)

/-- Code that leaves what is kept, whatever it starts from. -/
def Safe (code : Py α) : Prop := ∀ state, (surroundings launchctl).wp inv code (fun _ _ => True) state

variable {launchctl inv}

theorem Safe.pure (value : α) : Safe launchctl inv (Pure.pure value : Py α) := fun _ => trivial

theorem Safe.raise (raised : Raised) : Safe launchctl inv (Launchd.raise raised : Py α) := fun _ => trivial

theorem Safe.bind {code : Py α} {next : α → Py β} (h : Safe launchctl inv code)
    (hNext : ∀ value, Safe launchctl inv (next value)) : Safe launchctl inv (code >>= next) := by
  intro state
  refine (wp_bind _ _ _ _).mpr (wp_mono (h state) fun outcome after _ => ?_)
  cases outcome with
  | ok value => exact hNext value after
  | error raised => trivial

theorem Safe.wait [Kept launchctl inv] {wait : Wait} (h : ∀ label, wait ≠ .unlink label) :
    Safe launchctl inv (Launchd.wait wait) := fun _ =>
  wp_wait (fun label _ hWait _ => absurd hWait (h label)) fun _ _ _ _ _ _ => trivial

theorem Safe.ite {condition : Prop} [Decidable condition] {code other : Py α} (h : Safe launchctl inv code)
    (hOther : Safe launchctl inv other) : Safe launchctl inv (if condition then code else other) := by
  split
  · exact h
  · exact hOther

theorem Safe.call [Kept launchctl inv] (call : Call) : Safe launchctl inv (Launchd.launchctl call) :=
  (Safe.wait fun _ h => by cases h).bind fun _ => .ite (.raise _) (.pure _)

end Rules
end Pazuzu.Launchd
