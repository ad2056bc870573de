import Pazuzu.Bridge
import Pazuzu.Flock

/-! The remote wrappers of bridged services: any number of shells that run the
`lifecycle` script, with the processes each of them starts. A wrapper's
descriptor 9 is one open file description, shared by its shell, its `flock`, its
service and its guard; the lock goes when the last of them has gone. -/
namespace Pazuzu.Bridge.Remote

/-- The commands of `lifecycle`, in their order. -/
inductive Line where
  | commandFlock
  | hostname
  | caseHost
  | mkdir
  | openLock
  | flock
  | flockWait
  | define
  | trap
  | saveStdin
  | launch
  | rememberChild
  | startGuard
  | rememberGuard
  | waitChild
  | code
  | killGuard
  | waitGuard
  | exit
  deriving DecidableEq

namespace Line

def next : Line → Option Line
  | .commandFlock => some .hostname
  | .hostname => some .caseHost
  | .caseHost => some .mkdir
  | .mkdir => some .openLock
  | .openLock => some .flock
  | .flock => some .flockWait
  | .flockWait => some .define
  | .define => some .trap
  | .trap => some .saveStdin
  | .saveStdin => some .launch
  | .launch => some .rememberChild
  | .rememberChild => some .startGuard
  | .startGuard => some .rememberGuard
  | .rememberGuard => some .waitChild
  | .waitChild => some .code
  | .code => some .killGuard
  | .killGuard => some .waitGuard
  | .waitGuard => some .exit
  | .exit => none

/-- Descriptor 9 is open here. -/
def isOpened : Line → Bool
  | .commandFlock | .hostname | .caseHost | .mkdir | .openLock => false
  | _ => true

/-- `flock 9` has succeeded before this. -/
def isLocked : Line → Bool
  | .commandFlock | .hostname | .caseHost | .mkdir | .openLock | .flock | .flockWait => false
  | _ => true

/-- The service has not been started yet. -/
def isEarly : Line → Bool
  | .rememberChild | .startGuard | .rememberGuard | .waitChild | .code | .killGuard | .waitGuard | .exit =>
      false
  | _ => true

end Line

/-- A process that a wrapper starts at most once. -/
inductive Life where
  | absent
  | running
  | ended
  deriving DecidableEq

/-- One wrapper: where its shell is, or `none` once that is gone, what it has
started, and whether its `flock` got the lock. -/
structure Wrapper where
  file : String := ""
  started : Bool := false
  line : Option Line := none
  opened : Bool := false
  obtained : Bool := false
  trapped : Bool := false
  flock : Life := .absent
  service : Life := .absent
  guard : Life := .absent
  child : Bool := false
  guardVariable : Bool := false

/-- Some process of the wrapper has its descriptor 9 open. -/
def Wrapper.holds (wrapper : Wrapper) : Bool :=
  wrapper.line.isSome && wrapper.opened || wrapper.flock = .running ||
    wrapper.service = .running || wrapper.guard = .running

/-- The shell is gone. What it started lives on. -/
def Wrapper.leave (wrapper : Wrapper) : Wrapper := { wrapper with line := none }

/-- Whether the command the shell has come to can succeed now. -/
def Wrapper.ready (wrapper : Wrapper) : Line → Bool
  | .flockWait => wrapper.flock = .ended ∧ wrapper.obtained = true
  | .waitChild => wrapper.service = .ended
  | .waitGuard => wrapper.guard = .ended
  | _ => true

/-- What a command that succeeds changes. -/
def Wrapper.effect (wrapper : Wrapper) : Line → Wrapper
  | .openLock => { wrapper with opened := true }
  | .flock => { wrapper with flock := .running }
  | .trap => { wrapper with trapped := true }
  | .launch => { wrapper with service := .running }
  | .rememberChild => { wrapper with child := true }
  | .startGuard => { wrapper with guard := .running }
  | .rememberGuard => { wrapper with guardVariable := true }
  | _ => wrapper

def Wrapper.goes (wrapper : Wrapper) (line : Line) : Wrapper :=
  { wrapper.effect line with line := line.next }

/-- The shell runs the command it has come to. One that fails ends the script. -/
def Wrapper.advance (wrapper : Wrapper) (ok : Bool) : Option Wrapper :=
  match wrapper.line with
  | none => none
  | some line =>
      if ok = false then some wrapper.leave
      else if wrapper.ready line then some (wrapper.goes line)
      else none

/-- `HUP`, `INT` or `TERM`. A trapped one runs `cleanup`, which asks the guard and
the service to end, and returns to the script; it ends a `wait`. -/
def Wrapper.signal (wrapper : Wrapper) : Wrapper :=
  if wrapper.trapped = false then wrapper.leave
  else
    match wrapper.line with
    | some .waitChild => wrapper.goes .waitChild
    | some .waitGuard => wrapper.goes .waitGuard
    | _ => wrapper

/-- The processes a wrapper starts. -/
inductive Child where
  | flock
  | service
  | guard

/-- A child ends: by itself, because of a signal, or, for the guard, because
stdin has ended. -/
def Wrapper.ends (wrapper : Wrapper) : Child → Option Wrapper
  | .flock => if wrapper.flock = .running then some { wrapper with flock := .ended } else none
  | .service => if wrapper.service = .running then some { wrapper with service := .ended } else none
  | .guard => if wrapper.guard = .running then some { wrapper with guard := .ended } else none

/-- The wrappers of a host, and the locks that are held. -/
structure State where
  wrappers : Nat → Wrapper := fun _ => {}
  locks : Flock.Table String Nat := []

/-- Replace one wrapper. The kernel drops the locks that nobody holds open. -/
def State.put (state : State) (index : Nat) (wrapper : Wrapper) : State :=
  let wrappers := Function.update state.wrappers index wrapper
  { wrappers, locks := state.locks.drop fun holder => !(wrappers holder).holds }

inductive Choice where
  | start (index : Nat) (file : String)
  | run (index : Nat) (ok : Bool)
  | lock (index : Nat)
  | signal (index : Nat)
  | kill (index : Nat)
  | ends (index : Nat) (child : Child)

def step (state : State) : Choice → Option State
  | .start index file =>
      if (state.wrappers index).started = true then none
      else some (state.put index { file, started := true, line := some .commandFlock })
  | .run index ok => ((state.wrappers index).advance ok).map (state.put index)
  | .lock index =>
      let wrapper := state.wrappers index
      if wrapper.flock = .running ∧ wrapper.obtained = false then
        (state.locks.tryLock wrapper.file index).map fun locks =>
          { state with locks }.put index { wrapper with obtained := true }
      else none
  | .signal index => some (state.put index (state.wrappers index).signal)
  | .kill index => some (state.put index (state.wrappers index).leave)
  | .ends index child => ((state.wrappers index).ends child).map (state.put index)

def run (state : State) : List Choice → Option State
  | [] => some state
  | choice :: rest => (step state choice).bind fun next => run next rest

section Wrapper

variable {wrapper after : Wrapper}

/-- What holds of a wrapper wherever it is. -/
structure Wrapper.Sound (wrapper : Wrapper) : Prop where
  opened : ∀ line, wrapper.line = some line → line.isOpened = true → wrapper.opened = true
  closed : ∀ line, wrapper.line = some line → line.isOpened = false →
    wrapper.obtained = false ∧ wrapper.flock = .absent
  locked : ∀ line, wrapper.line = some line → line.isLocked = true → wrapper.obtained = true
  early : ∀ line, wrapper.line = some line → line.isEarly = true → wrapper.service = .absent
  served : wrapper.service = .running → wrapper.obtained = true

/-- What a step of a wrapper leaves as it is: its file, and that nobody comes to
hold a lock who did not hold the description before. -/
structure Wrapper.Keeps (wrapper after : Wrapper) : Prop where
  file : after.file = wrapper.file
  obtained : after.obtained = wrapper.obtained
  holds : after.obtained = true → after.holds = true → wrapper.holds = true

theorem Wrapper.Sound.fresh (file : String) :
    ({ file, started := true, line := some .commandFlock } : Wrapper).Sound := by
  refine ⟨fun line hLine hOpened => ?_, fun _ _ _ => ⟨rfl, rfl⟩, fun line hLine hLocked => ?_,
    fun _ _ _ => rfl, nofun⟩
  · cases hLine
    cases hOpened
  · cases hLine
    cases hLocked

theorem Wrapper.Sound.leave (h : wrapper.Sound) : wrapper.leave.Sound :=
  ⟨nofun, nofun, nofun, nofun, h.served⟩

theorem Wrapper.holds_iff : wrapper.holds = true ↔
    (wrapper.line.isSome = true ∧ wrapper.opened = true) ∨ wrapper.flock = .running ∨
      wrapper.service = .running ∨ wrapper.guard = .running := by
  simp only [holds, Bool.or_eq_true, Bool.and_eq_true, decide_eq_true_eq, or_assoc]

theorem Wrapper.keeps_leave : wrapper.Keeps wrapper.leave :=
  ⟨rfl, rfl, fun _ hHolds => holds_iff.mpr (Or.inr ((holds_iff.mp hHolds).resolve_left nofun))⟩

/-- The shell itself holds the description once it can have got the lock. -/
theorem Wrapper.Sound.alive (h : wrapper.Sound) {line : Line} (hLine : wrapper.line = some line)
    (hObtained : wrapper.obtained = true) : wrapper.holds = true := by
  cases hOpened : line.isOpened with
  | true =>
      refine holds_iff.mpr (Or.inl ⟨?_, h.opened line hLine hOpened⟩)
      rw [hLine]
      rfl
  | false =>
      rw [(h.closed line hLine hOpened).1] at hObtained
      cases hObtained

/-- The shell leaves or goes on to the next line. -/
theorem Wrapper.advance_cases {ok : Bool} (h : wrapper.advance ok = some after) :
    after = wrapper.leave ∨
      ∃ line, wrapper.line = some line ∧ wrapper.ready line = true ∧ after = wrapper.goes line := by
  unfold advance at h
  split at h
  · cases h
  · next line hLine =>
      split at h
      · exact Or.inl (Option.some.inj h).symm
      · split at h
        · next hReady => exact Or.inr ⟨line, hLine, hReady, (Option.some.inj h).symm⟩
        · cases h

/-- Only `openLock` opens, only `flockWait` needs the lock to go on, and only
`launch` starts the service. -/
theorem Wrapper.Sound.goes (h : wrapper.Sound) {line : Line} (hLine : wrapper.line = some line)
    (hWaited : line = .flockWait → wrapper.obtained = true) : (wrapper.goes line).Sound := by
  have hOpened := h.opened line hLine
  have hClosed := h.closed line hLine
  have hLocked := h.locked line hLine
  have hEarly := h.early line hLine
  have hServed := h.served
  cases line <;> constructor <;>
    simp_all [Wrapper.goes, Wrapper.effect, Line.next, Line.isOpened, Line.isLocked, Line.isEarly]

theorem Wrapper.Sound.keeps_goes (h : wrapper.Sound) {line : Line} (hLine : wrapper.line = some line) :
    wrapper.Keeps (wrapper.goes line) := by
  have hSame : (wrapper.goes line).file = wrapper.file ∧ (wrapper.goes line).obtained = wrapper.obtained := by
    cases line <;> exact ⟨rfl, rfl⟩
  exact ⟨hSame.1, hSame.2, fun hObtained _ => h.alive hLine (hSame.2 ▸ hObtained)⟩

theorem Wrapper.Sound.advance (h : wrapper.Sound) {ok : Bool} (hStep : wrapper.advance ok = some after) :
    after.Sound ∧ wrapper.Keeps after := by
  rcases advance_cases hStep with rfl | ⟨line, hLine, hReady, rfl⟩
  · exact ⟨h.leave, keeps_leave⟩
  · refine ⟨h.goes hLine fun hWait => ?_, h.keeps_goes hLine⟩
    subst hWait
    exact (of_decide_eq_true hReady).2

theorem Wrapper.keeps_refl : wrapper.Keeps wrapper := ⟨rfl, rfl, fun _ h => h⟩

/-- A trapped signal at most ends a `wait`. -/
theorem Wrapper.Sound.signal (h : wrapper.Sound) : wrapper.signal.Sound ∧ wrapper.Keeps wrapper.signal := by
  unfold Wrapper.signal
  split
  · exact ⟨h.leave, keeps_leave⟩
  · split
    · next hLine => exact ⟨h.goes hLine nofun, h.keeps_goes hLine⟩
    · next hLine => exact ⟨h.goes hLine nofun, h.keeps_goes hLine⟩
    · exact ⟨h, keeps_refl⟩

theorem Wrapper.Sound.ends (h : wrapper.Sound) {child : Child} (hStep : wrapper.ends child = some after) :
    after.Sound ∧ wrapper.Keeps after := by
  cases child with
  | flock =>
      simp only [Wrapper.ends, Option.ite_none_right_eq_some, Option.some.injEq] at hStep
      obtain ⟨hRunning, rfl⟩ := hStep
      refine ⟨⟨h.opened, fun line hLine hOpened => ?_, h.locked, h.early, h.served⟩, rfl, rfl, fun _ _ => ?_⟩
      · rw [(h.closed line hLine hOpened).2] at hRunning
        cases hRunning
      · exact holds_iff.mpr (Or.inr (Or.inl hRunning))
  | service =>
      simp only [Wrapper.ends, Option.ite_none_right_eq_some, Option.some.injEq] at hStep
      obtain ⟨hRunning, rfl⟩ := hStep
      refine ⟨⟨h.opened, h.closed, h.locked, fun line hLine hEarly => ?_, nofun⟩, rfl, rfl, fun _ _ => ?_⟩
      · rw [h.early line hLine hEarly] at hRunning
        cases hRunning
      · exact holds_iff.mpr (Or.inr (Or.inr (Or.inl hRunning)))
  | guard =>
      simp only [Wrapper.ends, Option.ite_none_right_eq_some, Option.some.injEq] at hStep
      obtain ⟨hRunning, rfl⟩ := hStep
      exact ⟨⟨h.opened, h.closed, h.locked, h.early, h.served⟩, rfl, rfl,
        fun _ _ => holds_iff.mpr (Or.inr (Or.inr (Or.inr hRunning)))⟩

end Wrapper

section Locks

variable {state next : State}

/-- Every wrapper is sound, and whoever got the lock keeps it while somebody has
its description open. -/
structure State.Sound (state : State) : Prop where
  exclusive : state.locks.Exclusive
  sound : ∀ index, (state.wrappers index).Sound
  held : ∀ index, (state.wrappers index).obtained = true → (state.wrappers index).holds = true →
    ((state.wrappers index).file, index) ∈ state.locks

theorem State.Sound.initial : State.Sound {} :=
  ⟨Flock.Table.exclusive_nil, fun _ => ⟨nofun, nofun, nofun, nofun, nofun⟩, nofun⟩

/-- Replacing one wrapper drops only the locks of those who hold nothing. -/
theorem State.Sound.put (h : state.Sound) {index : Nat} {wrapper : Wrapper} (hSound : wrapper.Sound)
    (hHeld : wrapper.obtained = true → wrapper.holds = true → (wrapper.file, index) ∈ state.locks) :
    (state.put index wrapper).Sound := by
  refine ⟨h.exclusive.sublist List.filter_sublist, fun other => ?_, fun other hObtained hHolds => ?_⟩
  · by_cases hOther : other = index
    · subst hOther
      simpa only [State.put, Function.update_self] using hSound
    · simpa only [State.put, Function.update_of_ne hOther] using h.sound other
  · refine List.mem_filter.mpr ⟨?_, ?_⟩
    · by_cases hOther : other = index
      · subst hOther
        simp only [State.put, Function.update_self] at hObtained hHolds ⊢
        exact hHeld hObtained hHolds
      · simp only [State.put, Function.update_of_ne hOther] at hObtained hHolds ⊢
        exact h.held other hObtained hHolds
    · rw [Bool.not_not]
      exact hHolds

theorem State.Sound.step (h : state.Sound) {choice : Choice} (hStep : Remote.step state choice = some next) :
    next.Sound := by
  have hPut : ∀ {index : Nat} {after : Wrapper}, after.Sound ∧ (state.wrappers index).Keeps after →
      (state.put index after).Sound := by
    intro index after ⟨hSound, hKeeps⟩
    refine h.put hSound fun hObtained hHolds => ?_
    rw [hKeeps.file]
    exact h.held index (hKeeps.obtained ▸ hObtained) (hKeeps.holds hObtained hHolds)
  cases choice with
  | start index file =>
      simp only [Remote.step, Option.ite_none_left_eq_some, Option.some.injEq] at hStep
      obtain ⟨-, rfl⟩ := hStep
      exact h.put (Wrapper.Sound.fresh file) nofun
  | run index ok =>
      obtain ⟨after, hAdvance, rfl⟩ := Option.map_eq_some_iff.mp hStep
      exact hPut ((h.sound index).advance hAdvance)
  | lock index =>
      simp only [Remote.step, Option.ite_none_right_eq_some] at hStep
      obtain ⟨⟨hRunning, -⟩, hLock⟩ := hStep
      obtain ⟨locks, hLocks, rfl⟩ := Option.map_eq_some_iff.mp hLock
      have hExclusive := h.exclusive.tryLock hLocks
      obtain ⟨-, rfl⟩ := Flock.Table.tryLock_eq_some hLocks
      have hLocked : State.Sound { state with locks := ((state.wrappers index).file, index) :: state.locks } :=
        ⟨hExclusive, h.sound, fun other hObtained hHolds =>
          List.mem_cons_of_mem _ (h.held other hObtained hHolds)⟩
      have hBefore := h.sound index
      refine hLocked.put ⟨hBefore.opened, fun line hLine hOpened => ?_, fun _ _ _ => rfl, hBefore.early,
        fun _ => rfl⟩ fun _ _ => List.mem_cons_self
      rw [(hBefore.closed line hLine hOpened).2] at hRunning
      cases hRunning
  | signal index =>
      cases hStep
      exact hPut (h.sound index).signal
  | kill index =>
      cases hStep
      exact hPut ⟨(h.sound index).leave, Wrapper.keeps_leave⟩
  | ends index child =>
      obtain ⟨after, hEnds, rfl⟩ := Option.map_eq_some_iff.mp hStep
      exact hPut ((h.sound index).ends hEnds)

theorem State.Sound.run (h : state.Sound) {choices : List Choice}
    (hRun : Remote.run state choices = some next) : next.Sound := by
  induction choices generalizing state with
  | nil =>
      cases hRun
      exact h
  | cons choice rest ih =>
      obtain ⟨middle, hStep, hRest⟩ := Option.bind_eq_some_iff.mp hRun
      exact ih (h.step hStep) hRest

/-- A running service keeps its wrapper's lock. -/
theorem State.Sound.service_locked (h : state.Sound) {index : Nat}
    (hRunning : (state.wrappers index).service = .running) :
    ((state.wrappers index).file, index) ∈ state.locks :=
  h.held index ((h.sound index).served hRunning)
    (Wrapper.holds_iff.mpr (Or.inr (Or.inr (Or.inl hRunning))))

/-- Whatever the wrappers of a host do and whoever dies first: at most one
service runs for each lock file, and whoever is about to launch one has the
lock and has launched none. -/
theorem one_service {choices : List Choice} (hRun : run {} choices = some state) :
    (∀ first second, (state.wrappers first).service = .running → (state.wrappers second).service = .running →
      (state.wrappers first).file = (state.wrappers second).file → first = second) ∧
    ∀ index, (state.wrappers index).line = some .launch →
      ((state.wrappers index).file, index) ∈ state.locks ∧ (state.wrappers index).service = .absent := by
  have hSound := State.Sound.initial.run hRun
  refine ⟨fun first second hFirst hSecond hFile => ?_, fun index hLine => ⟨?_, ?_⟩⟩
  · exact congrArg Prod.snd (hSound.exclusive.eq_of_file (hSound.service_locked hFirst)
      (hSound.service_locked hSecond) hFile)
  · have hObtained := (hSound.sound index).locked _ hLine rfl
    exact hSound.held index hObtained ((hSound.sound index).alive hLine hObtained)
  · exact (hSound.sound index).early _ hLine rfl

/-- A wrapper is killed after its launch, and the next one waits for the lock. -/
theorem one_service_killed : ∃ state, run {} ([.start 0 "l"] ++ List.replicate 6 (.run 0 true) ++
      [.lock 0, .ends 0 .flock] ++ List.replicate 5 (.run 0 true) ++ [.kill 0, .start 1 "l"] ++
      List.replicate 6 (.run 1 true)) = some state ∧
    (state.wrappers 0).service = .running ∧ step state (.lock 1) = none ∧
      ∀ second, (state.wrappers second).service = .running → (state.wrappers second).file = "l" → 0 = second := by
  obtain ⟨state, hRun, hRunning, hBlocked, hFile⟩ : ∃ state,
      run {} ([.start 0 "l"] ++ List.replicate 6 (.run 0 true) ++ [.lock 0, .ends 0 .flock] ++
        List.replicate 5 (.run 0 true) ++ [.kill 0, .start 1 "l"] ++
        List.replicate 6 (.run 1 true)) = some state ∧
      (state.wrappers 0).service = .running ∧ step state (.lock 1) = none ∧
        (state.wrappers 0).file = "l" := ⟨_, rfl, rfl, rfl, rfl⟩
  exact ⟨state, hRun, hRunning, hBlocked, fun second hSecond hSame =>
    (one_service hRun).1 0 second hRunning hSecond (hFile.trans hSame.symm)⟩

end Locks
end Pazuzu.Bridge.Remote
