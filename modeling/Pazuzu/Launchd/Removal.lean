import Pazuzu.Launchd.Jobs

/-! An uninstallation that returns leaves no file and no job, and touches nothing
else; in between, launchd never has a job without a file. -/
namespace Pazuzu.Launchd

open Asyncio Surroundings

variable {launchctl : Launchctl} {inv : State → Prop} {state after : State} {label other : Label} {α β : Type} {rounds : Nat}

section Quiet

/-- A call that changes nothing. -/
theorem wp_quiet [Kept launchctl inv] {wait : Wait} {post : Except Raised wait.Reply → State → Prop}
    (hQuiet : wait.isQuiet = true)
    (h : ∀ later reply, Drift state later → deliver launchctl wait reply later = some later → post reply later) :
    (surroundings launchctl).wp inv (Launchd.wait wait) post state := by
  refine wp_wait (fun label _ hWait _ => by rw [hWait] at hQuiet; cases hQuiet) fun later reply after _ hDrift hDeliver => ?_
  obtain rfl := deliver_quiet (Kept.documented inv) hQuiet hDeliver
  exact h after reply hDrift hDeliver

theorem Drift.refl (state : State) : Drift state state := ⟨rfl, rfl, fun _ => Or.inl rfl⟩

theorem Drift.trans {middle : State} (h : Drift state middle) (h' : Drift middle after) : Drift state after := by
  refine ⟨h'.files.trans h.files, h'.drafts.trans h.drafts, fun label => ?_⟩
  rcases h'.jobs label with hSame | ⟨hLeaving, hGone⟩
  · rw [hSame]
    exact h.jobs label
  · rcases h.jobs label with hSame | ⟨-, hGone'⟩
    · exact Or.inr ⟨hSame ▸ hLeaving, hGone⟩
    · rw [hGone'] at hLeaving
      cases hLeaving

variable (launchctl inv) in
/-- Code that only looks: it ends where launchd has brought the state. -/
def Looks (code : Py α) : Prop := ∀ state, (surroundings launchctl).wp inv code (fun _ after => Drift state after) state

theorem Looks.pure (value : α) : Looks launchctl inv (Pure.pure value : Py α) := Drift.refl

theorem Looks.raise (raised : Raised) : Looks launchctl inv (Launchd.raise raised : Py α) := Drift.refl

theorem Looks.wait [Kept launchctl inv] (wait : Wait) (h : wait.isQuiet = true) : Looks launchctl inv (Launchd.wait wait) := fun _ =>
  wp_quiet h fun _ _ hDrift _ => hDrift

theorem Looks.attempt {code : Py α} (h : Looks launchctl inv code) : Looks launchctl inv code.attempt := fun state =>
  (wp_attempt _ _ _).mpr (h state)

theorem Looks.bind {code : Py α} {next : α → Py β} (h : Looks launchctl inv code) (hNext : ∀ value, Looks launchctl inv (next value)) :
    Looks launchctl inv (code >>= next) := by
  intro state
  refine (wp_bind _ _ _ _).mpr (wp_mono (h state) fun outcome after hDrift => ?_)
  cases outcome with
  | ok value => exact wp_mono (hNext value after) fun _ _ hLater => hDrift.trans hLater
  | error raised => exact hDrift

theorem looks_programArguments [Kept launchctl inv] (label : Label) : Looks launchctl inv (programArguments label) := by
  refine (Looks.wait _ rfl).attempt.bind fun outcome => ?_
  split
  · exact .pure _
  · exact .pure _
  · exact .raise _

theorem looks_configuredHost [Kept launchctl inv] : Looks launchctl inv configuredHost := (looks_programArguments _).bind fun _ => .pure _

theorem looks_stopDetachedMaster [Kept launchctl inv] (host : Option Word) :
    Looks launchctl inv (stopDetachedMaster host) := by
  cases host with
  | none => exact .pure _
  | some host =>
      refine (Looks.wait .controlExists rfl).bind fun found => ?_
      split
      · refine (Looks.wait _ rfl).attempt.bind fun outcome => ?_
        split
        · exact .pure _
        · exact .pure _
        · exact .pure _
        · exact .raise _
      · exact .pure _

/-- What `_loaded` says is so. -/
theorem wp_loaded [Kept launchctl inv] {post : Except Raised Bool → State → Prop}
    (hOk : ∀ here later, Drift state later → (here = true ↔ (later.jobs label).isUnloaded = false) → post (.ok here) later)
    (hError : ∀ raised later, Drift state later → post (.error raised) later) :
    (surroundings launchctl).wp inv (loaded label) post state := by
  refine (wp_bind _ _ _ _).mpr ((wp_bind _ _ _ _).mpr (wp_quiet rfl fun later reply hDrift hDeliver => ?_))
  cases reply with
  | error raised => exact hError _ _ hDrift
  | ok completed =>
      have hPrint := (deliver_print (Kept.documented inv) hDeliver).2
      dsimp only
      split
      · exact hError _ _ hDrift
      · exact hOk _ _ hDrift (by rw [decide_eq_true_eq]; exact hPrint)

/-- The wait for a teardown ends without the job. -/
theorem wp_unloadedLoop [Kept launchctl inv] (deadline : ℚ) {post : Except Raised Unit → State → Prop} {start : State}
    (hOk : ∀ later, Drift start later → (later.jobs label).isUnloaded = true → post (.ok ()) later)
    (hError : ∀ raised later, Drift start later → post (.error raised) later) (hStart : Drift start state) :
    (surroundings launchctl).wp inv (unloadedLoop label deadline rounds) post state := by
  induction rounds generalizing state with
  | zero => exact wp_never
  | succ rounds ih =>
      refine (wp_bind _ _ _ _).mpr (wp_loaded (fun here later hDrift hHere => ?_) fun raised later hDrift =>
        hError _ _ (hStart.trans hDrift))
      have hLater := hStart.trans hDrift
      dsimp only
      split
      · refine (wp_bind _ _ _ _).mpr (wp_quiet rfl fun later' reply hDrift' _ => ?_)
        have hLater' := hLater.trans hDrift'
        cases reply with
        | error raised => exact hError _ _ hLater'
        | ok now =>
            dsimp only
            split
            · exact hError _ _ hLater'
            · refine (wp_bind _ _ _ _).mpr (wp_quiet rfl fun last reply hDrift'' _ => ?_)
              have hLast := hLater'.trans hDrift''
              cases reply with
              | error raised => exact hError _ _ hLast
              | ok slept => exact ih hLast
      · next hGone =>
          refine hOk later hLater ?_
          rw [hHere, Bool.not_eq_false] at hGone
          exact hGone

theorem wp_waitUntilUnloaded [Kept launchctl inv] {post : Except Raised Unit → State → Prop}
    (hOk : ∀ later, Drift state later → (later.jobs label).isUnloaded = true → post (.ok ()) later)
    (hError : ∀ raised later, Drift state later → post (.error raised) later) :
    (surroundings launchctl).wp inv (waitUntilUnloaded rounds label) post state := by
  refine (wp_bind _ _ _ _).mpr (wp_quiet rfl fun later reply hDrift _ => ?_)
  cases reply with
  | error raised => exact hError _ _ hDrift
  | ok now => exact wp_unloadedLoop _ hOk hError hDrift

end Quiet

section Removing

/-- What has been done to one label, or what launchd has done to it by itself. -/
def Untouched (label : Label) (before after : State) : Prop :=
  after.file label = before.file label ∧
    (after.jobs label = before.jobs label ∨ before.jobs label = .leaving ∧ after.jobs label = .unloaded)

theorem Drift.untouched (h : Drift state after) (label : Label) : Untouched label state after :=
  ⟨h.file label, h.jobs label⟩

theorem Untouched.trans {middle : State} (h : Untouched label state middle) (h' : Untouched label middle after) :
    Untouched label state after := by
  refine ⟨h'.1.trans h.1, ?_⟩
  rcases h'.2 with hSame | ⟨hLeaving, hGone⟩
  · rw [hSame]
    exact h.2
  · rcases h.2 with hSame | ⟨-, hGone'⟩
    · exact Or.inr ⟨hSame ▸ hLeaving, hGone⟩
    · rw [hGone'] at hLeaving
      cases hLeaving

/-- Neither a file nor a job. -/
structure Gone (label : Label) (state : State) : Prop where
  file : state.file label = none
  job : (state.jobs label).isUnloaded = true

theorem Gone.untouched (h : Gone label state) (h' : Untouched label state after) : Gone label after := by
  refine ⟨h'.1.trans h.file, ?_⟩
  rcases h'.2 with hSame | ⟨-, hNow⟩
  · rw [hSame]
    exact h.job
  · rw [hNow]
    rfl

/-- A removal that returns. -/
structure Removed (label : Label) (before after : State) (removed : Option Label) : Prop where
  gone : Gone label after
  drafts : after.drafts = before.drafts
  others : ∀ other, other ≠ label → Untouched other before after
  told : removed = if (before.file label).isSome then some label else none

/-- The end of code that is only of interest where it returns. -/
def Returns {α : Type} (P : α → State → Prop) : Except Raised α → State → Prop
  | .ok value, state => P value state
  | .error _, _ => True

theorem wp_returns_bind {code : Py α} {next : α → Py β} {P : α → State → Prop} {Q : β → State → Prop}
    (h : (surroundings launchctl).wp inv code (Returns P) state)
    (hNext : ∀ value after, P value after → (surroundings launchctl).wp inv (next value) (Returns Q) after) :
    (surroundings launchctl).wp inv (code >>= next) (Returns Q) state := by
  refine (wp_bind _ _ _ _).mpr (wp_mono h fun outcome after hOutcome => ?_)
  cases outcome with
  | ok value => exact hNext value after hOutcome
  | error raised => trivial

theorem Looks.returns {code : Py α} (h : Looks launchctl inv code) :
    (surroundings launchctl).wp inv code (Returns fun _ after => Drift state after) state :=
  wp_mono (h state) fun outcome _ hDrift => by
    cases outcome with
    | ok value => exact hDrift
    | error raised => trivial

theorem wp_waitUnloaded_returns [Kept launchctl inv] :
    (surroundings launchctl).wp inv (waitUntilUnloaded rounds label)
      (Returns fun _ later => Drift state later ∧ (later.jobs label).isUnloaded = true) state :=
  wp_waitUntilUnloaded (fun _ hDrift hGone => ⟨hDrift, hGone⟩) fun _ _ _ => trivial

/-- A call of `launchctl` is of interest where its output is a text. -/
theorem wp_launchctl [Kept launchctl inv] {call : Call} {P : Completed → State → Prop}
    (h : ∀ later completed after, Drift state later →
      deliver launchctl (.launchctl call) (.ok completed) later = some after → P completed after) :
    (surroundings launchctl).wp inv (Launchd.launchctl call) (Returns P) state := by
  refine wp_returns_bind (P := P) ?_ fun completed after hAfter => ?_
  · refine wp_wait (fun _ _ hWait _ => by cases hWait) fun later reply after _ hDrift hDeliver => ?_
    cases reply with
    | error raised => trivial
    | ok completed => exact h later completed after hDrift hDeliver
  · split
    · trivial
    · exact hAfter

/-- What `bootout` leaves of the other labels and of all files. -/
theorem wp_bootout [Kept launchctl inv] :
    (surroundings launchctl).wp inv (Launchd.launchctl (.bootout label))
      (Returns fun _ later => later.drafts = state.drafts ∧ (∀ other, later.file other = state.file other) ∧
        ∀ other, other ≠ label → Untouched other state later) state := by
  refine wp_launchctl fun later completed after hDrift hDeliver => ?_
  obtain ⟨hFiles, hDrafts, hJobs⟩ := deliver_bootout (Kept.documented inv) hDeliver
  have hFile : ∀ other, after.file other = later.file other := fun other => by rw [State.file, hFiles, State.file]
  refine ⟨hDrafts.trans hDrift.drafts, fun other => (hFile other).trans (hDrift.file other), fun other hOther =>
    (hDrift.untouched other).trans ⟨hFile other, ?_⟩⟩
  exact Or.inl ((hJobs other).resolve_right fun hSame => hOther hSame.1)

theorem wp_exists [Kept launchctl inv] :
    (surroundings launchctl).wp inv (wait (.exists label))
      (Returns fun found later => Drift state later ∧ found = (later.file label).isSome) state := by
  refine wp_quiet rfl fun later reply hDrift hDeliver => ?_
  cases reply with
  | error raised => trivial
  | ok found =>
      simp only [deliver] at hDeliver
      split at hDeliver
      · next hFound => exact ⟨hDrift, hFound⟩
      · cases hDeliver

/-- One agent is unloaded and its file removed. -/
theorem wp_remove [Kept launchctl inv] (label : Label) :
    (surroundings launchctl).wp inv (remove rounds label) (Returns fun removed after => Removed label state after removed) state := by
  refine wp_returns_bind wp_bootout fun returncode booted hBooted => ?_
  refine wp_returns_bind wp_waitUnloaded_returns fun _ unloaded hUnloaded => ?_
  refine wp_returns_bind wp_exists fun found later hFound => ?_
  obtain ⟨hDrafts, hFiles, hOthers⟩ := hBooted
  obtain ⟨hDrift, hGone⟩ := hUnloaded
  obtain ⟨hDrift', rfl⟩ := hFound
  have hAll := hDrift.trans hDrift'
  have hJob := hDrift'.unloaded hGone
  have hFile : later.file label = state.file label := (hAll.file label).trans (hFiles label)
  split
  · next hSome =>
      refine wp_returns_bind (P := fun _ last => Removed label state last (some label)) ?_ fun _ last hLast => hLast
      refine wp_wait (fun target last hTarget hDrift'' => ?_) fun last reply after _ hDrift'' hDeliver => ?_
      · cases hTarget
        exact hDrift''.unloaded hJob
      · cases reply with
        | error raised => trivial
        | ok value =>
            obtain ⟨hJobs, hKept, hErased⟩ := deliver_unlink hDeliver
            refine ⟨⟨by rw [hErased, if_pos rfl], by rw [hJobs]; exact hDrift''.unloaded hJob⟩,
              hKept.trans ((hAll.trans hDrift'').drafts.trans hDrafts), fun other hOther => ?_, ?_⟩
            · refine ((hOthers other hOther).trans ((hAll.trans hDrift'').untouched other)).trans ⟨?_, Or.inl (by rw [hJobs])⟩
              rw [hErased, if_neg hOther]
            · rw [← hFile, if_pos hSome]
  · next hNone =>
      refine ⟨⟨?_, hJob⟩, hAll.drafts.trans hDrafts, fun other hOther => (hOthers other hOther).trans (hAll.untouched other), ?_⟩
      · rw [Bool.not_eq_true, Option.isSome_eq_false_iff, Option.isNone_iff_eq_none] at hNone
        exact hNone
      · rw [← hFile, if_neg hNone]

/-- All of some agents have been removed. -/
structure Cleared (labels : List Label) (before after : State) (removed : List Label) : Prop where
  gone : ∀ label ∈ labels, Gone label after
  drafts : after.drafts = before.drafts
  others : ∀ label, label ∉ labels → Untouched label before after
  told : ∀ label, label ∈ removed ↔ label ∈ labels ∧ (before.file label).isSome = true

theorem wp_removeAll [Kept launchctl inv] (labels : List Label) :
    (surroundings launchctl).wp inv (removeAll rounds labels)
      (Returns fun removed after => Cleared labels state after removed) state := by
  induction labels generalizing state with
  | nil => exact ⟨nofun, rfl, fun label _ => (Drift.refl state).untouched label, fun label => by simp⟩
  | cons first labels ih =>
      refine wp_returns_bind (wp_remove first) fun removed middle hFirst => ?_
      refine wp_returns_bind ih fun others last hRest => ?_
      refine ⟨fun label hIn => ?_, hRest.drafts.trans hFirst.drafts, fun label hNot => ?_, fun label => ?_⟩
      · by_cases hLater : label ∈ labels
        · exact hRest.gone label hLater
        · obtain rfl := (List.mem_cons.mp hIn).resolve_right hLater
          exact hFirst.gone.untouched (hRest.others _ hLater)
      · rw [List.mem_cons, not_or] at hNot
        exact (hFirst.others label hNot.1).trans (hRest.others label hNot.2)
      · rw [List.mem_append, hRest.told, List.mem_cons, hFirst.told]
        by_cases hSame : label = first
        · subst hSame
          rw [hFirst.gone.file]
          cases hFile : (state.file label).isSome <;> simp
        · rw [(hFirst.others label hSame).1]
          cases hFile : (state.file first).isSome <;> simp [hSame]

end Removing
end Pazuzu.Launchd
