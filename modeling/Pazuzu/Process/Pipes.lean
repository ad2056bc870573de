import Mathlib.Data.List.Induction
import Mathlib.Logic.Function.Basic
import Pazuzu.Process

/-! The three pipes of a running process: the feeder and the two readers at one end,
the members of its group at the other, each pipe with room for so much and no
more. -/
namespace Pazuzu.Process

open Python

inductive Fd where
  | stdout
  | stderr
  deriving DecidableEq

/-- One output: what is in its pipe, whether somebody can still write to it, and
the chunks its reader has. `written` is all that has ever been written to it. -/
structure Stream where
  written : Bytes := []
  pipe : Bytes := []
  isOpen : Bool := true
  chunks : Chunks := []
  ended : Bool := false

/-- The input is what the feeder and its transport have left, what is in the pipe
and what has been taken out of it; `fed` says that their end is closed, `isRead`
that somebody still has the other. -/
structure Pipes where
  unsent : Bytes
  pipe : Bytes := []
  consumed : Bytes := []
  fed : Bool := false
  isRead : Bool := true
  streams : Fd → Stream := fun _ => {}
  returncode : Option Int := none

/-- What the group does with its ends. -/
inductive Deed where
  | take (count : Nat)
  | closeInput
  | put (fd : Fd) (content : Bytes)
  | closeOutput (fd : Fd)
  | exit (returncode : Int)

/-- What `_feed_stdin` and `_read_bounded` do with theirs. The transport of the
feeder sends as much as there is room for. -/
inductive Service where
  | send (count : Nat)
  | giveUp
  | closeInput
  | read (fd : Fd) (count : Nat)
  | readEnd (fd : Fd)

/-- The longest chunk that a reader asks for. -/
def chunkSize : Nat := 64 * 1024

section Steps

variable (capacity : Nat)

def Pipes.setStream (pipes : Pipes) (fd : Fd) (stream : Stream) : Pipes :=
  { pipes with streams := Function.update pipes.streams fd stream }

/-- A deed of the group, none where it has to wait. -/
def Pipes.act (pipes : Pipes) : Deed → Option Pipes
  | .take count =>
      if pipes.isRead ∧ pipes.pipe ≠ [] then
        some { pipes with pipe := pipes.pipe.drop count, consumed := pipes.consumed ++ pipes.pipe.take count }
      else none
  | .closeInput => some { pipes with isRead := false }
  | .put fd content =>
      let stream := pipes.streams fd
      if stream.isOpen ∧ stream.pipe.length + content.length ≤ capacity then
        some (pipes.setStream fd
          { stream with written := stream.written ++ content, pipe := stream.pipe ++ content })
      else none
  | .closeOutput fd => some (pipes.setStream fd { pipes.streams fd with isOpen := false })
  | .exit returncode => if pipes.returncode.isNone then some { pipes with returncode := some returncode } else none

/-- A step of the feeder or of a reader, none where it has to wait. -/
def Pipes.serve (pipes : Pipes) : Service → Option Pipes
  | .send count =>
      let room := capacity - pipes.pipe.length
      if pipes.isRead ∧ pipes.unsent ≠ [] ∧ 0 < min count room then
        some { pipes with
          unsent := pipes.unsent.drop (min count room)
          pipe := pipes.pipe ++ pipes.unsent.take (min count room) }
      else none
  | .giveUp =>
      if ¬pipes.isRead ∧ pipes.unsent ≠ [] then some { pipes with unsent := [] } else none
  | .closeInput => if pipes.unsent = [] ∧ ¬pipes.fed then some { pipes with fed := true } else none
  | .read fd count =>
      let stream := pipes.streams fd
      if ¬stream.ended ∧ stream.pipe ≠ [] ∧ 0 < count ∧ count ≤ chunkSize then
        some (pipes.setStream fd
          { stream with pipe := stream.pipe.drop count, chunks := stream.chunks ++ [stream.pipe.take count] })
      else none
  | .readEnd fd =>
      let stream := pipes.streams fd
      if ¬stream.ended ∧ stream.pipe = [] ∧ ¬stream.isOpen then
        some (pipes.setStream fd { stream with ended := true })
      else none

inductive Turn where
  | deed (deed : Deed)
  | service (service : Service)

def Pipes.turn (pipes : Pipes) : Turn → Option Pipes
  | .deed deed => pipes.act capacity deed
  | .service service => pipes.serve capacity service

def Pipes.run (pipes : Pipes) : List Turn → Option Pipes
  | [] => some pipes
  | turn :: turns => (pipes.turn capacity turn).bind fun next => next.run turns

end Steps

/-- What `run_process` waits for, with the input closed: the feeder is done when
its transport has little left. -/
structure Pipes.Finished (pipes : Pipes) : Prop where
  exited : pipes.returncode ≠ none
  ended : ∀ fd, (pipes.streams fd).ended = true
  fed : pipes.fed = true

/-- What the waits of `communicate` come back with, where the group is done. -/
def Pipes.answers (pipes : Pipes) (returncode : Int) : (wait : Wait) → Except Error wait.Reply
  | .processWait | .grace => .ok returncode
  | .readers => .ok ((pipes.streams .stdout).chunks, (pipes.streams .stderr).chunks)
  | .connect | .feeder | .cleanup => .ok ()

/-- The result that is made of what the readers have. -/
def Pipes.result (limit : Nat) (pipes : Pipes) (returncode : Int) : ProcessResult :=
  let (stdout, stdoutTruncated) := readBounded limit (pipes.streams .stdout).chunks
  let (stderr, stderrTruncated) := readBounded limit (pipes.streams .stderr).chunks
  ⟨returncode, stdout, stderr, stdoutTruncated, stderrTruncated⟩

section Readers

/-- `communicate` makes its result of them. -/
theorem communicate_result {pipes : Pipes} {returncode : Int} {state : State} (hCode : state.returncode = some returncode)
    (limit : Nat) :
    surroundings.run ⟨communicate limit, state⟩ (List.replicate 3 (.answer (pipes.answers returncode))) =
      some ⟨.pure (pipes.result limit returncode), state⟩ := by
  have hDeliver : deliver .processWait (pipes.answers returncode .processWait) state = some state := if_pos hCode
  exact Asyncio.Surroundings.run_answer hDeliver

theorem readBounded_concat (limit : Nat) (chunks : Chunks) (chunk : Bytes) :
    readBounded limit (chunks ++ [chunk]) =
      ((readBounded limit chunks).1 ++ chunk.take (limit - (readBounded limit chunks).1.length),
        (readBounded limit chunks).2 || decide (limit - (readBounded limit chunks).1.length < chunk.length)) := by
  unfold readBounded
  rw [List.foldl_append]
  rfl

/-- Whatever the chunks are, the first bytes up to the limit are kept of them, and
it is known whether there were more. -/
theorem readBounded_eq (limit : Nat) (chunks : Chunks) :
    readBounded limit chunks = (chunks.flatten.take limit, decide (limit < chunks.flatten.length)) := by
  induction chunks using List.reverseRecOn with
  | nil => simp [readBounded]
  | append_singleton chunks chunk ih =>
      have hOutput : chunks.flatten.take limit ++ chunk.take (limit - (chunks.flatten.take limit).length) =
          (chunks.flatten ++ chunk).take limit := by
        rw [List.take_append, List.length_take]
        congr 2
        omega
      have hTruncated : (decide (limit < chunks.flatten.length) ||
          decide (limit - (chunks.flatten.take limit).length < chunk.length)) =
            decide (limit < (chunks.flatten ++ chunk).length) := by
        rw [List.length_take, List.length_append, ← Bool.decide_or]
        exact decide_eq_decide.mpr (by omega)
      rw [readBounded_concat, ih, List.flatten_concat]
      simp only [hOutput, hTruncated]

end Readers

section Accounts

variable {capacity : Nat} {content : Bytes} {pipes after : Pipes}

/-- A step that has been made was permitted. -/
theorem of_permitted {condition : Prop} [Decidable condition] {next : Pipes}
    (h : (if condition then some next else none) = some after) : condition ∧ next = after :=
  (Option.ite_none_right_eq_some.mp h).imp id Option.some.inj

/-- What is known of an output: nothing is lost on the way, and a reader that has
seen the end has everything. -/
structure Stream.Kept (capacity : Nat) (stream : Stream) : Prop where
  account : stream.written = stream.chunks.flatten ++ stream.pipe
  room : stream.pipe.length ≤ capacity
  ended : stream.ended = true → stream.pipe = [] ∧ stream.isOpen = false

/-- What is known of the input: it is taken from its beginning, and wholly while
somebody can take it. -/
structure Kept (capacity : Nat) (content : Bytes) (pipes : Pipes) : Prop where
  streams : ∀ fd, (pipes.streams fd).Kept capacity
  room : pipes.pipe.length ≤ capacity
  taken : pipes.consumed ++ pipes.pipe <+: content
  account : pipes.isRead = true → pipes.consumed ++ pipes.pipe ++ pipes.unsent = content
  fed : pipes.fed = true → pipes.unsent = []

theorem Kept.start : Kept capacity content ⟨content, [], [], false, true, fun _ => {}, none⟩ where
  streams := fun _ => ⟨rfl, Nat.zero_le _, fun h => by cases h⟩
  room := Nat.zero_le _
  taken := List.nil_prefix
  account := fun _ => rfl
  fed := fun h => by cases h

theorem Kept.setStream (h : Kept capacity content pipes) {fd : Fd} {stream : Stream} (hStream : stream.Kept capacity) :
    Kept capacity content (pipes.setStream fd stream) := by
  refine ⟨fun other => ?_, h.room, h.taken, h.account, h.fed⟩
  change (Function.update pipes.streams fd stream other).Kept capacity
  by_cases hSame : other = fd
  · rw [hSame, Function.update_self]
    exact hStream
  · rw [Function.update_of_ne hSame]
    exact h.streams other

theorem Kept.act (h : Kept capacity content pipes) {deed : Deed} (hAct : pipes.act capacity deed = some after) :
    Kept capacity content after := by
  cases deed with
  | take count =>
      obtain ⟨-, rfl⟩ := of_permitted hAct
      have hSame : pipes.consumed ++ pipes.pipe.take count ++ pipes.pipe.drop count = pipes.consumed ++ pipes.pipe := by
        rw [List.append_assoc, List.take_append_drop]
      refine ⟨h.streams, ?_, ?_, ?_, h.fed⟩
      · rw [List.length_drop]
        exact (Nat.sub_le _ _).trans h.room
      · rw [hSame]
        exact h.taken
      · intro hRead
        rw [hSame]
        exact h.account hRead
  | closeInput =>
      cases hAct
      exact ⟨h.streams, h.room, h.taken, fun hRead => (by cases hRead), h.fed⟩
  | put fd more =>
      obtain ⟨⟨hOpen, hRoom⟩, rfl⟩ := of_permitted hAct
      apply h.setStream
      have hKept := h.streams fd
      refine ⟨?_, ?_, ?_⟩
      · rw [hKept.account, List.append_assoc]
      · rw [List.length_append]
        exact hRoom
      · intro hEnded
        rw [(hKept.ended hEnded).2] at hOpen
        cases hOpen
  | closeOutput fd =>
      cases hAct
      have hKept := h.streams fd
      exact h.setStream ⟨hKept.account, hKept.room, fun hEnded => ⟨(hKept.ended hEnded).1, rfl⟩⟩
  | exit returncode =>
      obtain ⟨-, rfl⟩ := of_permitted hAct
      exact ⟨h.streams, h.room, h.taken, h.account, h.fed⟩

theorem Kept.serve (h : Kept capacity content pipes) {service : Service}
    (hServe : pipes.serve capacity service = some after) : Kept capacity content after := by
  cases service with
  | send count =>
      obtain ⟨⟨hRead, hSome, hRoom⟩, rfl⟩ := of_permitted hServe
      have hAccount := h.account hRead
      have hSame : pipes.consumed ++ (pipes.pipe ++ pipes.unsent.take (min count (capacity - pipes.pipe.length))) ++
          pipes.unsent.drop (min count (capacity - pipes.pipe.length)) = content := by
        rw [List.append_assoc, List.append_assoc, List.take_append_drop, ← List.append_assoc]
        exact hAccount
      refine ⟨h.streams, ?_, ⟨_, hSame⟩, fun _ => hSame, ?_⟩
      · rw [List.length_append, List.length_take]
        have hPipe := h.room
        omega
      · intro hFed
        exact absurd (h.fed hFed) hSome
  | giveUp =>
      obtain ⟨⟨hClosed, -⟩, rfl⟩ := of_permitted hServe
      exact ⟨h.streams, h.room, h.taken, fun hRead => absurd hRead hClosed, fun _ => rfl⟩
  | closeInput =>
      obtain ⟨⟨hNone, -⟩, rfl⟩ := of_permitted hServe
      exact ⟨h.streams, h.room, h.taken, h.account, fun _ => hNone⟩
  | read fd count =>
      obtain ⟨⟨hEnded, -, -⟩, rfl⟩ := of_permitted hServe
      apply h.setStream
      have hKept := h.streams fd
      refine ⟨?_, ?_, fun hNow => absurd hNow hEnded⟩
      · rw [hKept.account, List.flatten_concat, List.append_assoc, List.take_append_drop]
      · rw [List.length_drop]
        exact (Nat.sub_le _ _).trans hKept.room
  | readEnd fd =>
      obtain ⟨⟨-, hNone, hClosed⟩, rfl⟩ := of_permitted hServe
      have hKept := h.streams fd
      exact h.setStream ⟨hKept.account, hKept.room, fun _ => ⟨hNone, by simpa using hClosed⟩⟩

theorem Kept.turn (h : Kept capacity content pipes) {turn : Turn} (hTurn : pipes.turn capacity turn = some after) :
    Kept capacity content after := by
  cases turn with
  | deed deed => exact h.act hTurn
  | service service => exact h.serve hTurn

theorem Kept.run (h : Kept capacity content pipes) {turns : List Turn}
    (hRun : pipes.run capacity turns = some after) : Kept capacity content after := by
  induction turns generalizing pipes with
  | nil =>
      cases hRun
      exact h
  | cons turn turns ih =>
      obtain ⟨next, hTurn, hRest⟩ := Option.bind_eq_some_iff.mp hRun
      exact ih (h.turn hTurn) hRest

end Accounts

section Waiting

variable {capacity : Nat} {content : Bytes} {pipes after : Pipes}

/-- The group waits for nobody: in every output that somebody writes to there is
room for all that a pipe can hold, and in the input there is something, or its end. -/
structure Free (capacity : Nat) (pipes : Pipes) : Prop where
  outputs : ∀ fd, (pipes.streams fd).isOpen = true → ∀ content, content.length ≤ capacity →
    ∃ after, pipes.act capacity (.put fd content) = some after
  input : pipes.isRead = true → pipes.pipe ≠ [] ∨ pipes.fed = true

/-- Where neither the feeder nor a reader can do anything, the group is free. -/
theorem Kept.free (h : Kept capacity content pipes) (hRoom : 0 < capacity)
    (hIdle : ∀ service, pipes.serve capacity service = none) : Free capacity pipes := by
  refine ⟨?_, ?_⟩
  · intro fd hOpen more hMore
    have hEmpty : (pipes.streams fd).pipe = [] := by
      by_contra hSome
      have hEnded : ¬(pipes.streams fd).ended = true := fun hEnded => hSome ((h.streams fd).ended hEnded).1
      have hRead := hIdle (.read fd 1)
      simp [Pipes.serve, hEnded, hSome, chunkSize] at hRead
    have hFits : (pipes.streams fd).pipe.length + more.length ≤ capacity := by
      rw [hEmpty, List.length_nil, Nat.zero_add]
      exact hMore
    exact ⟨_, if_pos ⟨hOpen, hFits⟩⟩
  · intro hRead
    by_cases hUnsent : pipes.unsent = []
    · refine Or.inr ?_
      by_contra hOpen
      have hClose := hIdle .closeInput
      simp [Pipes.serve, hUnsent, hOpen] at hClose
    · refine Or.inl fun hEmpty => ?_
      have hSend := hIdle (.send 1)
      simp [Pipes.serve, hRead, hUnsent, hEmpty] at hSend
      omega

/-- A group that is gone: nobody is left at its ends of the pipes. -/
structure Gone (pipes : Pipes) : Prop where
  exited : pipes.returncode ≠ none
  outputs : ∀ fd, (pipes.streams fd).isOpen = false
  input : pipes.isRead = false

theorem Gone.setStream (h : Gone pipes) {fd : Fd} {stream : Stream} (hClosed : stream.isOpen = false) :
    Gone (pipes.setStream fd stream) := by
  refine ⟨h.exited, fun other => ?_, h.input⟩
  change (Function.update pipes.streams fd stream other).isOpen = false
  by_cases hSame : other = fd
  · rw [hSame, Function.update_self]
    exact hClosed
  · rw [Function.update_of_ne hSame]
    exact h.outputs other

theorem Gone.serve (h : Gone pipes) {service : Service} (hServe : pipes.serve capacity service = some after) :
    Gone after := by
  cases service with
  | send count | giveUp | closeInput =>
      obtain ⟨-, rfl⟩ := of_permitted hServe
      exact ⟨h.exited, h.outputs, h.input⟩
  | read fd count =>
      obtain ⟨-, rfl⟩ := of_permitted hServe
      exact h.setStream (h.outputs fd)
  | readEnd fd =>
      obtain ⟨-, rfl⟩ := of_permitted hServe
      exact h.setStream (h.outputs fd)

theorem Gone.services (h : Gone pipes) {services : List Service}
    (hRun : pipes.run capacity (services.map .service) = some after) : Gone after := by
  induction services generalizing pipes with
  | nil =>
      cases hRun
      exact h
  | cons service services ih =>
      obtain ⟨next, hServe, hRest⟩ := Option.bind_eq_some_iff.mp hRun
      exact ih (h.serve hServe) hRest

theorem finished_of_gone (hIdle : ∀ service, pipes.serve capacity service = none) (hGone : Gone pipes) :
    pipes.Finished := by
  refine ⟨hGone.exited, ?_, ?_⟩
  · intro fd
    by_contra hEnded
    by_cases hEmpty : (pipes.streams fd).pipe = []
    · have hEnd := hIdle (.readEnd fd)
      simp [Pipes.serve, hEnded, hEmpty, hGone.outputs fd] at hEnd
    · have hRead := hIdle (.read fd 1)
      simp [Pipes.serve, hEnded, hEmpty, chunkSize] at hRead
  · by_contra hOpen
    by_cases hUnsent : pipes.unsent = []
    · have hClose := hIdle .closeInput
      simp [Pipes.serve, hUnsent, hOpen] at hClose
    · have hGiveUp := hIdle .giveUp
      simp [Pipes.serve, hUnsent, hGone.input] at hGiveUp

/-- What a reader still has to do, at most. -/
def Stream.toDo (stream : Stream) : Nat := stream.pipe.length + (!stream.ended).toNat

/-- What the feeder and the readers still have to do, at most. -/
def Pipes.toDo (pipes : Pipes) : Nat :=
  pipes.unsent.length + (!pipes.fed).toNat + (pipes.streams .stdout).toDo + (pipes.streams .stderr).toDo

theorem toDo_setStream {fd : Fd} {stream : Stream} (h : stream.toDo < (pipes.streams fd).toDo) :
    (pipes.setStream fd stream).toDo < pipes.toDo := by
  cases fd with
  | stdout =>
      simp only [Pipes.toDo, Pipes.setStream, Function.update_self, ne_eq, reduceCtorEq, not_false_eq_true,
        Function.update_of_ne]
      omega
  | stderr =>
      simp only [Pipes.toDo, Pipes.setStream, Function.update_self, ne_eq, reduceCtorEq, not_false_eq_true,
        Function.update_of_ne]
      omega

theorem serve_toDo {service : Service} (hServe : pipes.serve capacity service = some after) : after.toDo < pipes.toDo := by
  cases service with
  | send count =>
      obtain ⟨⟨-, hSome, hRoom⟩, rfl⟩ := of_permitted hServe
      have hLength := List.length_pos_of_ne_nil hSome
      simp only [Pipes.toDo, List.length_drop]
      omega
  | giveUp =>
      obtain ⟨⟨-, hSome⟩, rfl⟩ := of_permitted hServe
      have hLength := List.length_pos_of_ne_nil hSome
      simp only [Pipes.toDo, List.length_nil]
      omega
  | closeInput =>
      obtain ⟨⟨-, hOpen⟩, rfl⟩ := of_permitted hServe
      simp [Pipes.toDo, hOpen]
  | read fd count =>
      obtain ⟨⟨-, hSome, hCount, -⟩, rfl⟩ := of_permitted hServe
      apply toDo_setStream
      have hLength := List.length_pos_of_ne_nil hSome
      simp only [Stream.toDo, List.length_drop]
      omega
  | readEnd fd =>
      obtain ⟨⟨hOpen, -, -⟩, rfl⟩ := of_permitted hServe
      apply toDo_setStream
      simp [Stream.toDo, hOpen]

theorem services_toDo {services : List Service} (hRun : pipes.run capacity (services.map .service) = some after) :
    services.length + after.toDo ≤ pipes.toDo := by
  induction services generalizing pipes with
  | nil =>
      cases hRun
      simp
  | cons service services ih =>
      obtain ⟨next, hServe, hRest⟩ := Option.bind_eq_some_iff.mp hRun
      have hLess : next.toDo < pipes.toDo := serve_toDo hServe
      have hMore := ih hRest
      rw [List.length_cons]
      omega

end Waiting

section Served

variable {capacity : Nat} {content : Bytes} {pipes : Pipes}

/-- The result of all that a process has written. -/
def Pipes.whole (limit : Nat) (pipes : Pipes) (returncode : Int) : ProcessResult :=
  let stdout := (pipes.streams .stdout).written
  let stderr := (pipes.streams .stderr).written
  ⟨returncode, stdout.take limit, stderr.take limit, limit < stdout.length, limit < stderr.length⟩

/-- What a process can rely on at any time: it gets its input from the beginning
and wholly if it takes it, nobody waits in a circle with it, what comes after its
end does come, and what is made of its output is all of it up to the limit. -/
structure Served (capacity : Nat) (content : Bytes) (pipes : Pipes) : Prop where
  taken : pipes.consumed <+: content
  all : pipes.isRead = true → pipes.fed = true → pipes.pipe = [] → pipes.consumed = content
  free : (∃ service next, pipes.serve capacity service = some next) ∨ Free capacity pipes
  drained : Gone pipes → ∀ (services : List Service) after, pipes.run capacity (services.map .service) = some after →
    services.length ≤ pipes.toDo ∧ ((∀ service, after.serve capacity service = none) → after.Finished)
  returned : (∀ fd, (pipes.streams fd).ended = true) → ∀ returncode, pipes.returncode = some returncode →
    ∀ limit (state : State), state.returncode = pipes.returncode →
      surroundings.run ⟨communicate limit, state⟩ (List.replicate 3 (.answer (pipes.answers returncode))) =
        some ⟨.pure (pipes.whole limit returncode), state⟩

/-- Whatever a process and those it has started do, and however its pipes fill. -/
theorem pipes_served (hRoom : 0 < capacity) {turns : List Turn}
    (hRun : Pipes.run capacity ⟨content, [], [], false, true, fun _ => {}, none⟩ turns = some pipes) :
    Served capacity content pipes := by
  have hKept := Kept.start.run hRun
  refine ⟨?_, ?_, ?_, ?_, ?_⟩
  · exact (List.prefix_append _ _).trans hKept.taken
  · intro hRead hFed hEmpty
    have hAccount := hKept.account hRead
    rwa [hEmpty, hKept.fed hFed, List.append_nil, List.append_nil] at hAccount
  · by_cases hBusy : ∃ service next, pipes.serve capacity service = some next
    · exact Or.inl hBusy
    · refine Or.inr (hKept.free hRoom fun service => ?_)
      cases hServe : pipes.serve capacity service with
      | none => rfl
      | some next => exact absurd ⟨service, next, hServe⟩ hBusy
  · intro hGone services after hServices
    have hBound := services_toDo hServices
    exact ⟨by omega, fun hIdle => finished_of_gone hIdle (hGone.services hServices)⟩
  · intro hEnded returncode hExited limit state hSame
    have hCode : state.returncode = some returncode := hSame.trans hExited
    have hWritten : ∀ fd, (pipes.streams fd).written = (pipes.streams fd).chunks.flatten := by
      intro fd
      have hStream := hKept.streams fd
      have hAccount := hStream.account
      rwa [(hStream.ended (hEnded fd)).1, List.append_nil] at hAccount
    have hWhole : pipes.result limit returncode = pipes.whole limit returncode := by
      simp only [Pipes.result, Pipes.whole, readBounded_eq, hWritten]
    rw [communicate_result hCode, hWhole]

/-- A process that copies its input in two pieces, reports it and leaves. -/
def copying : List Turn :=
  [.service (.send 9), .deed (.take 9), .service (.send 9), .deed (.put .stdout [1, 2, 3, 4]), .service .closeInput,
    .service (.read .stdout 3), .deed (.take 9), .deed (.put .stdout [5, 6]), .deed (.put .stderr [7]), .deed (.exit 0),
    .deed .closeInput, .deed (.closeOutput .stdout), .deed (.closeOutput .stderr), .service (.read .stderr chunkSize),
    .service (.read .stdout chunkSize), .service (.readEnd .stdout), .service (.readEnd .stderr)]

theorem pipes_served_copying : ∃ pipes : Pipes,
    Pipes.run 4 ⟨[1, 2, 3, 4, 5, 6], [], [], false, true, fun _ => {}, none⟩ copying = some pipes ∧
      Served 4 [1, 2, 3, 4, 5, 6] pipes ∧
      surroundings.run ⟨communicate 5, { returncode := some 0 }⟩ (List.replicate 3 (.answer (pipes.answers 0))) =
        some ⟨.pure ⟨0, [1, 2, 3, 4, 5], [7], true, false⟩, { returncode := some 0 }⟩ := by
  have hRuns : (Pipes.run 4 ⟨[1, 2, 3, 4, 5, 6], [], [], false, true, fun _ => {}, none⟩ copying).isSome = true := rfl
  obtain ⟨pipes, hRun, hStdout, hStderr, hExited, hWritten⟩ : ∃ pipes : Pipes,
      Pipes.run 4 ⟨[1, 2, 3, 4, 5, 6], [], [], false, true, fun _ => {}, none⟩ copying = some pipes ∧
        (pipes.streams .stdout).ended = true ∧ (pipes.streams .stderr).ended = true ∧ pipes.returncode = some 0 ∧
          pipes.whole 5 0 = ⟨0, [1, 2, 3, 4, 5], [7], true, false⟩ :=
    ⟨_, (Option.some_get hRuns).symm, rfl, rfl, rfl, rfl⟩
  have hRoom : 0 < 4 := by decide
  have hServed := pipes_served hRoom hRun
  have hEnded : ∀ fd, (pipes.streams fd).ended = true := by
    intro fd
    cases fd with
    | stdout => exact hStdout
    | stderr => exact hStderr
  have hReturned := hServed.returned hEnded 0 hExited 5 { returncode := some 0 } hExited.symm
  rw [hWritten] at hReturned
  exact ⟨pipes, hRun, hServed, hReturned⟩

end Served

end Pazuzu.Process
