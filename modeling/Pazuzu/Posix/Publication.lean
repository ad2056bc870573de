import Mathlib.Data.List.Infix
import Mathlib.Logic.Function.Basic

/-! A value that is published in a file: written into a file of another name and
then renamed over the old one. Writers may be cut off anywhere, and readers read
in pieces while other values are published. -/
namespace Pazuzu.Posix.Publication

variable {α β ω ρ : Type}

/-- The names in one directory, and the files they stand for. A file keeps its
content for those who have it open, whatever becomes of its name. -/
structure Disk (ω β : Type) where
  target : Option Nat := none
  draft : ω → Option Nat := fun _ => none
  content : Nat → List β := fun _ => []
  size : Nat := 0

namespace Disk

variable (disk : Disk ω β) (file found : Nat) (content : List β)

def put : Disk ω β :=
  { disk with content := Function.update disk.content file content, size := max disk.size (file + 1) }

theorem content_put : (disk.put file content).content found = if found = file then content else disk.content found :=
  Function.update_apply ..

variable [DecidableEq ω] (writer other : ω) (place : Option Nat)

/-- A name of a writer comes to stand for a file, or for none. -/
def name : Disk ω β := { disk with draft := Function.update disk.draft writer place }

theorem draft_name : (disk.name writer place).draft other = if other = writer then place else disk.draft other :=
  Function.update_apply ..

theorem of_draft_name {disk : Disk ω β} {writer other : ω} {place : Option Nat} {found : Nat}
    (h : (disk.name writer place).draft other = some found) :
    other = writer ∧ place = some found ∨ other ≠ writer ∧ disk.draft other = some found := by
  rw [draft_name] at h
  split at h
  · next hSame => exact Or.inl ⟨hSame, h⟩
  · next hSame => exact Or.inr ⟨hSame, h⟩

end Disk

inductive Writer (α β : Type) where
  | idle
  | writing (value : α) (file : Nat) (rest : List β)

inductive Reader (β : Type) where
  | idle
  | reading (file : Nat) (got : List β)
  | finished (content : Option (List β))

/-- `current` is the value in place, `seen` the one that was in place when a
reader opened the file; neither is read by anybody. -/
structure State (α β ω ρ : Type) where
  disk : Disk ω β := {}
  writers : ω → Writer α β := fun _ => .idle
  readers : ρ → Reader β := fun _ => .idle
  current : Option α := none
  seen : ρ → Option α := fun _ => none

/-- The system calls of writers and readers. `openDraft` makes a new file; over
what is left of an earlier attempt it fails if it is exclusive, and truncates it
otherwise. `crash` leaves all of it behind. -/
inductive Move (α ω ρ : Type) where
  | openDraft (writer : ω) (value : α)
  | write (writer : ω) (count : Nat)
  | replace (writer : ω)
  | unlinkDraft (writer : ω)
  | crash (writer : ω)
  | unlink
  | openTarget (reader : ρ)
  | read (reader : ρ) (count : Nat)

section Calls

variable [DecidableEq ω] [DecidableEq ρ] (encode : α → List β) (exclusive : Bool)

/-- One system call, none where its caller is not there or it fails. -/
def step (state : State α β ω ρ) : Move α ω ρ → Option (State α β ω ρ)
  | .openDraft writer value =>
      match state.writers writer with
      | .writing _ _ _ => none
      | .idle =>
          let file := (state.disk.draft writer).getD state.disk.size
          if exclusive && (state.disk.draft writer).isSome then none
          else some { state with
            disk := (state.disk.put file []).name writer (some file)
            writers := Function.update state.writers writer (.writing value file (encode value)) }
  | .write writer count =>
      match state.writers writer with
      | .idle => none
      | .writing value file rest =>
          some { state with
            disk := state.disk.put file (state.disk.content file ++ rest.take count)
            writers := Function.update state.writers writer (.writing value file (rest.drop count)) }
  | .replace writer =>
      match state.writers writer, state.disk.draft writer with
      | .writing value _ [], some file =>
          some { state with
            disk := { state.disk.name writer none with target := some file }
            writers := Function.update state.writers writer .idle
            current := some value }
      | _, _ => none
  | .unlinkDraft writer =>
      some { state with
        disk := state.disk.name writer none
        writers := Function.update state.writers writer .idle }
  | .crash writer => some { state with writers := Function.update state.writers writer .idle }
  | .unlink => some { state with disk := { state.disk with target := none }, current := none }
  | .openTarget reader =>
      match state.readers reader with
      | .reading _ _ => none
      | .idle | .finished _ =>
          let opened := match state.disk.target with
            | none => .finished none
            | some file => .reading file []
          some { state with
            readers := Function.update state.readers reader opened
            seen := Function.update state.seen reader state.current }
  | .read reader count =>
      match state.readers reader with
      | .idle | .finished _ => none
      | .reading file got =>
          let rest := (state.disk.content file).drop got.length
          let later := if rest = [] then .finished (some got) else .reading file (got ++ rest.take count)
          some { state with readers := Function.update state.readers reader later }

def run (state : State α β ω ρ) : List (Move α ω ρ) → Option (State α β ω ρ)
  | [] => some state
  | move :: moves => (step encode exclusive state move).bind fun next => run next moves

end Calls

section Soundness

variable {encode : α → List β} {state after : State α β ω ρ}

/-- A file that holds a whole value, and that no name of a writer stands for. -/
structure Whole (encode : α → List β) (disk : Disk ω β) (file : Nat) (value : α) : Prop where
  content : disk.content file = encode value
  placed : file < disk.size
  apart : ∀ writer, disk.draft writer ≠ some file

/-- What the file of a writer holds so far. -/
structure Partly (encode : α → List β) (disk : Disk ω β) (writer : ω) (value : α) (file : Nat) (rest : List β) : Prop where
  named : disk.draft writer = some file
  content : disk.content file ++ rest = encode value

/-- What a reader holds is of the value it has seen in place. -/
def Reader.Holds (encode : α → List β) (disk : Disk ω β) (seen : Option α) : Reader β → Prop
  | .idle => True
  | .reading file got => ∃ value, seen = some value ∧ Whole encode disk file value ∧ got <+: encode value
  | .finished content => content = seen.map encode

/-- Names in place and files in use are of whole values, and those of the writers
are their own. -/
structure Sound (encode : α → List β) (state : State α β ω ρ) : Prop where
  target : ∀ file, state.disk.target = some file →
    ∃ value, state.current = some value ∧ Whole encode state.disk file value
  missing : state.disk.target = none → state.current = none
  readers : ∀ reader, (state.readers reader).Holds encode state.disk (state.seen reader)
  drafts : ∀ writer file, state.disk.draft writer = some file →
    file < state.disk.size ∧ ∀ other, state.disk.draft other = some file → other = writer
  writers : ∀ writer value file rest, state.writers writer = .writing value file rest →
    Partly encode state.disk writer value file rest

theorem Sound.initial : Sound encode ({} : State α β ω ρ) where
  target := fun _ h => by cases h
  missing := fun _ => rfl
  readers := fun _ => trivial
  drafts := fun _ _ h => by cases h
  writers := fun _ _ _ _ h => by cases h

/-- A file stays whole while the files of writers change. -/
theorem Whole.carries {disk later : Disk ω β} {file : Nat} {value : α} (h : Whole encode disk file value)
    (hContent : later.content file = disk.content file) (hSize : disk.size ≤ later.size)
    (hDraft : ∀ writer, later.draft writer = some file → disk.draft writer = some file ∨ disk.size ≤ file) :
    Whole encode later file value where
  content := hContent.trans h.content
  placed := h.placed.trans_le hSize
  apart := by
    intro writer hNamed
    rcases hDraft writer hNamed with hOld | hNew
    · exact h.apart writer hOld
    · exact absurd h.placed (Nat.not_lt.mpr hNew)

theorem Reader.Holds.carries {disk later : Disk ω β} {seen : Option α} {reader : Reader β}
    (h : reader.Holds encode disk seen)
    (hWhole : ∀ file value, Whole encode disk file value → Whole encode later file value) :
    reader.Holds encode later seen := by
  cases reader with
  | idle => trivial
  | reading file got =>
      obtain ⟨value, hSeen, hFile, hGot⟩ := h
      exact ⟨value, hSeen, hWhole file value hFile, hGot⟩
  | finished content => exact h

/-- The target and the readers are as they were when only the files of writers
have changed. -/
theorem Sound.redraft (h : Sound encode state) {later : Disk ω β} {writers : ω → Writer α β}
    (hTarget : later.target = state.disk.target) (hSize : state.disk.size ≤ later.size)
    (hContent : ∀ file < state.disk.size, (∀ writer, state.disk.draft writer ≠ some file) →
      later.content file = state.disk.content file)
    (hDraft : ∀ writer file, later.draft writer = some file →
      state.disk.draft writer = some file ∨ state.disk.size ≤ file)
    (hDrafts : ∀ writer file, later.draft writer = some file →
      file < later.size ∧ ∀ other, later.draft other = some file → other = writer)
    (hWriters : ∀ writer value file rest, writers writer = .writing value file rest →
      Partly encode later writer value file rest) :
    Sound encode { state with disk := later, writers := writers } := by
  have hCarries : ∀ file value, Whole encode state.disk file value → Whole encode later file value :=
    fun file value hWhole => hWhole.carries (hContent file hWhole.placed hWhole.apart) hSize
      fun writer hNamed => hDraft writer file hNamed
  refine ⟨?_, ?_, fun reader => (h.readers reader).carries hCarries, hDrafts, hWriters⟩
  · intro file hFile
    obtain ⟨value, hCurrent, hWhole⟩ := h.target file (hTarget.symm.trans hFile)
    exact ⟨value, hCurrent, hCarries file value hWhole⟩
  · exact fun hNone => h.missing (hTarget.symm.trans hNone)

/-- Another file is put in place, or none. -/
theorem Sound.retarget (h : Sound encode state) {target : Option Nat} {current : Option α}
    (hTarget : ∀ file, target = some file → ∃ value, current = some value ∧ Whole encode state.disk file value)
    (hMissing : target = none → current = none) :
    Sound encode { state with disk := { state.disk with target := target }, current := current } := by
  have hCarries : ∀ file value, Whole encode state.disk file value →
      Whole encode { state.disk with target := target } file value :=
    fun file value hWhole => hWhole.carries rfl le_rfl fun _ hNamed => Or.inl hNamed
  refine ⟨?_, hMissing, fun reader => (h.readers reader).carries hCarries, h.drafts, ?_⟩
  · intro file hFile
    obtain ⟨value, hCurrent, hWhole⟩ := hTarget file hFile
    exact ⟨value, hCurrent, hCarries file value hWhole⟩
  · intro writer value file rest hWriting
    have hPartly := h.writers writer value file rest hWriting
    exact ⟨hPartly.named, hPartly.content⟩

end Soundness

section Steps

variable [DecidableEq ω] [DecidableEq ρ] {encode : α → List β} {exclusive : Bool} {state after : State α β ω ρ}

theorem Sound.openDraft (h : Sound encode state) {writer : ω} {value : α}
    (hStep : step encode exclusive state (.openDraft writer value) = some after) : Sound encode after := by
  simp only [step] at hStep
  split at hStep
  · cases hStep
  · next hIdle =>
      rw [Option.ite_none_left_eq_some] at hStep
      obtain ⟨-, hStep⟩ := hStep
      cases hStep
      generalize hFile : (state.disk.draft writer).getD state.disk.size = file
      have hPlace : state.disk.draft writer = some file ∨ state.disk.draft writer = none ∧ file = state.disk.size := by
        cases hDraft : state.disk.draft writer with
        | none => exact Or.inr ⟨rfl, by rw [← hFile, hDraft]; rfl⟩
        | some old => exact Or.inl (by rw [← hFile, hDraft]; rfl)
      have hOther : ∀ other, state.disk.draft other = some file → other = writer := by
        intro other hNamed
        rcases hPlace with hOld | ⟨-, hNew⟩
        · exact (h.drafts writer file hOld).2 other hNamed
        · exact absurd (h.drafts other file hNamed).1 (by omega)
      apply h.redraft
      · rfl
      · exact le_max_left _ _
      · intro found hUsed hApart
        refine (Disk.content_put ..).trans (if_neg ?_)
        rintro rfl
        rcases hPlace with hOld | ⟨-, hNew⟩
        · exact hApart writer hOld
        · omega
      · intro other found hNamed
        rcases Disk.of_draft_name hNamed with ⟨rfl, hFound⟩ | ⟨-, hOld⟩
        · cases hFound
          exact hPlace.imp_right fun hNew => hNew.2.ge
        · exact Or.inl hOld
      · intro other found hNamed
        rcases Disk.of_draft_name hNamed with ⟨rfl, hFound⟩ | ⟨hSame, hOld⟩
        · cases hFound
          refine ⟨(Nat.lt_succ_self _).trans_le (le_max_right _ _), fun third hThird => ?_⟩
          rcases Disk.of_draft_name hThird with ⟨hThis, -⟩ | ⟨-, hOld⟩
          · exact hThis
          · exact hOther third hOld
        · refine ⟨(h.drafts other found hOld).1.trans_le (le_max_left _ _), fun third hThird => ?_⟩
          rcases Disk.of_draft_name hThird with ⟨-, hFound⟩ | ⟨-, hNamed⟩
          · cases hFound
            exact absurd (hOther other hOld) hSame
          · exact (h.drafts other found hOld).2 third hNamed
      · intro other written found rest hWriting
        rw [Function.update_apply] at hWriting
        split at hWriting
        · next hSame =>
            cases hWriting
            have hEmpty : ((state.disk.put file []).name writer (some file)).content file = [] :=
              (Disk.content_put ..).trans (if_pos rfl)
            exact ⟨(Disk.draft_name ..).trans (if_pos hSame), by rw [hEmpty, List.nil_append]⟩
        · next hSame =>
            have hPartly := h.writers other written found rest hWriting
            have hApart : found ≠ file := fun hThis => hSame (hOther other (hThis ▸ hPartly.named))
            have hKept : ((state.disk.put file []).name writer (some file)).content found = state.disk.content found :=
              (Disk.content_put ..).trans (if_neg hApart)
            exact ⟨(Disk.draft_name ..).trans ((if_neg hSame).trans hPartly.named), by rw [hKept, hPartly.content]⟩

theorem Sound.write (h : Sound encode state) {writer : ω} {count : Nat}
    (hStep : step encode exclusive state (.write writer count) = some after) : Sound encode after := by
  simp only [step] at hStep
  split at hStep
  · cases hStep
  · next value file rest hWriter =>
      cases hStep
      have hOwn := h.writers writer value file rest hWriter
      apply h.redraft
      · rfl
      · exact le_max_left _ _
      · intro found _ hApart
        refine (Disk.content_put ..).trans (if_neg ?_)
        rintro rfl
        exact hApart writer hOwn.named
      · exact fun other found hNamed => Or.inl hNamed
      · intro other found hNamed
        obtain ⟨hUsed, hUnique⟩ := h.drafts other found hNamed
        exact ⟨hUsed.trans_le (le_max_left _ _), hUnique⟩
      · intro other written found left hWriting
        rw [Function.update_apply] at hWriting
        split at hWriting
        · next hSame =>
            cases hWriting
            refine ⟨hSame ▸ hOwn.named, ?_⟩
            rw [Disk.content_put, if_pos rfl, List.append_assoc, List.take_append_drop]
            exact hOwn.content
        · next hSame =>
            have hPartly := h.writers other written found left hWriting
            have hApart : found ≠ file := by
              rintro rfl
              exact hSame ((h.drafts writer found hOwn.named).2 other hPartly.named)
            refine ⟨hPartly.named, ?_⟩
            rw [Disk.content_put, if_neg hApart]
            exact hPartly.content

/-- A writer without a name of its own is no writer any more. -/
theorem Sound.unlinkDraft (h : Sound encode state) {writer : ω}
    (hStep : step encode exclusive state (.unlinkDraft writer) = some after) : Sound encode after := by
  cases hStep
  have hOld : ∀ other found, (state.disk.name writer none).draft other = some found →
      other ≠ writer ∧ state.disk.draft other = some found := by
    intro other found hNamed
    rcases Disk.of_draft_name hNamed with ⟨-, hNone⟩ | hOld
    · cases hNone
    · exact hOld
  apply h.redraft
  · rfl
  · exact le_rfl
  · exact fun found _ _ => rfl
  · exact fun other found hNamed => Or.inl (hOld other found hNamed).2
  · intro other found hNamed
    obtain ⟨hUsed, hUnique⟩ := h.drafts other found (hOld other found hNamed).2
    exact ⟨hUsed, fun third hThird => hUnique third (hOld third found hThird).2⟩
  · intro other written found rest hWriting
    rw [Function.update_apply] at hWriting
    split at hWriting
    · cases hWriting
    · next hSame =>
        have hPartly := h.writers other written found rest hWriting
        exact ⟨(Disk.draft_name ..).trans ((if_neg hSame).trans hPartly.named), hPartly.content⟩

theorem Sound.crash (h : Sound encode state) {writer : ω}
    (hStep : step encode exclusive state (.crash writer) = some after) : Sound encode after := by
  cases hStep
  refine h.redraft rfl le_rfl (fun _ _ _ => rfl) (fun _ _ hNamed => Or.inl hNamed) h.drafts ?_
  intro other written found rest hWriting
  rw [Function.update_apply] at hWriting
  split at hWriting
  · cases hWriting
  · exact h.writers other written found rest hWriting

/-- What is put in place is whole, and no name of a writer stands for it. -/
theorem Sound.replace (h : Sound encode state) {writer : ω}
    (hStep : step encode exclusive state (.replace writer) = some after) : Sound encode after := by
  have hRest : Sound encode { state with disk := state.disk.name writer none
                                         writers := Function.update state.writers writer .idle } :=
    h.unlinkDraft (show step encode exclusive state (.unlinkDraft writer) = _ from rfl)
  simp only [step] at hStep
  split at hStep
  · next value file place hWriter hPlace =>
      cases hStep
      have hOwn := h.writers writer value file [] hWriter
      obtain rfl : place = file := Option.some.inj (hPlace.symm.trans hOwn.named)
      apply hRest.retarget
      · intro found hFound
        cases hFound
        refine ⟨value, rfl, ?_, (h.drafts writer place hPlace).1, ?_⟩
        · have hContent := hOwn.content
          rwa [List.append_nil] at hContent
        · intro other hNamed
          rcases Disk.of_draft_name hNamed with ⟨-, hNone⟩ | ⟨hSame, hOld⟩
          · cases hNone
          · exact hSame ((h.drafts writer place hPlace).2 other hOld)
      · exact fun hNone => by cases hNone
  · cases hStep

theorem Sound.unlink (h : Sound encode state) (hStep : step encode exclusive state (.unlink : Move α ω ρ) = some after) :
    Sound encode after := by
  cases hStep
  exact h.retarget (fun _ hNone => by cases hNone) fun _ => rfl

theorem Sound.openTarget (h : Sound encode state) {reader : ρ}
    (hStep : step encode exclusive state (.openTarget reader) = some after) : Sound encode after := by
  have hOpened : (match state.disk.target with
      | none => Reader.finished none
      | some file => .reading file []).Holds encode state.disk state.current := by
    cases hTarget : state.disk.target with
    | none => rw [Reader.Holds, h.missing hTarget, Option.map_none]
    | some file =>
        obtain ⟨value, hCurrent, hWhole⟩ := h.target file hTarget
        exact ⟨value, hCurrent, hWhole, List.nil_prefix⟩
  have hReaders : ∀ other, (Function.update state.readers reader (match state.disk.target with
      | none => .finished none
      | some file => .reading file []) other).Holds encode state.disk
        (Function.update state.seen reader state.current other) := by
    intro other
    by_cases hSame : other = reader
    · rw [hSame, Function.update_self, Function.update_self]
      exact hOpened
    · rw [Function.update_of_ne hSame, Function.update_of_ne hSame]
      exact h.readers other
  simp only [step] at hStep
  split at hStep
  · cases hStep
  · cases hStep
    exact ⟨h.target, h.missing, hReaders, h.drafts, h.writers⟩
  · cases hStep
    exact ⟨h.target, h.missing, hReaders, h.drafts, h.writers⟩

/-- A reader goes on in the file it has open, and is done at its end. -/
theorem Sound.read (h : Sound encode state) {reader : ρ} {count : Nat}
    (hStep : step encode exclusive state (.read reader count) = some after) : Sound encode after := by
  simp only [step] at hStep
  split at hStep
  · cases hStep
  · cases hStep
  · next file got hReader =>
      cases hStep
      have hHolds := h.readers reader
      rw [hReader] at hHolds
      obtain ⟨value, hSeen, hWhole, rest, hRest⟩ := hHolds
      have hDrop : (state.disk.content file).drop got.length = rest := by
        rw [hWhole.content, ← hRest, List.drop_left]
      refine ⟨h.target, h.missing, fun other => ?_, h.drafts, h.writers⟩
      change Reader.Holds encode state.disk (state.seen other) (Function.update state.readers reader _ other)
      by_cases hSame : other = reader
      · subst hSame
        rw [Function.update_self, hDrop]
        split
        · next hDone =>
            rw [hDone, List.append_nil] at hRest
            rw [Reader.Holds, hSeen, Option.map_some, hRest]
        · refine ⟨value, hSeen, hWhole, rest.drop count, ?_⟩
          rw [List.append_assoc, List.take_append_drop]
          exact hRest
      · rw [Function.update_of_ne hSame]
        exact h.readers other

theorem Sound.step (h : Sound encode state) {move : Move α ω ρ}
    (hStep : Publication.step encode exclusive state move = some after) : Sound encode after := by
  cases move with
  | openDraft writer value => exact h.openDraft hStep
  | write writer count => exact h.write hStep
  | replace writer => exact h.replace hStep
  | unlinkDraft writer => exact h.unlinkDraft hStep
  | crash writer => exact h.crash hStep
  | unlink => exact h.unlink hStep
  | openTarget reader => exact h.openTarget hStep
  | read reader count => exact h.read hStep

theorem Sound.run (h : Sound encode state) {moves : List (Move α ω ρ)}
    (hRun : Publication.run encode exclusive state moves = some after) : Sound encode after := by
  induction moves generalizing state with
  | nil =>
      cases hRun
      exact h
  | cons move moves ih =>
      obtain ⟨next, hStep, hRest⟩ := Option.bind_eq_some_iff.mp hRun
      exact ih (h.step hStep) hRest

/-- Whoever has read to the end has read one published value whole: the one that
was in place when the file was opened. -/
theorem read_whole {moves : List (Move α ω ρ)} (hRun : Publication.run encode exclusive {} moves = some after) {reader : ρ}
    {content : Option (List β)} (hDone : after.readers reader = .finished content) :
    content = (after.seen reader).map encode := by
  have hHolds := (Sound.initial.run hRun).readers reader
  rw [hDone] at hHolds
  exact hHolds

end Steps

end Pazuzu.Posix.Publication
