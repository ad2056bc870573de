import Mathlib.Logic.Function.Basic

/-! The socket path of the gateway: any number of gateway processes that start
and stop on one path. A gateway's listener is named by the gateway's index. -/
namespace Pazuzu.Socket

/-- Where a gateway process is in `serve`. `clear` is the removal of a stale
socket inside `start_unix_server`, before its own `bind` and `listen`. -/
inductive Stage where
  | absent
  | test
  | connect
  | unlink
  | clear
  | bind
  | listen
  | serving
  | closing
  | stopping
  | finalUnlink
  | gone
  deriving DecidableEq

/-- The gateway has bound its socket and has not begun its own shutdown. -/
def Stage.isServing : Stage → Bool
  | .listen | .serving => true
  | _ => false

/-- The gateway's listener accepts connections. -/
def Stage.isListening : Stage → Bool
  | .serving | .closing => true
  | _ => false

/-- The gateway still goes on to remove whatever has the path's name. -/
def Stage.removes : Stage → Bool
  | .unlink | .clear | .closing | .stopping | .finalUnlink => true
  | _ => false

/-- The stage of every gateway, and whose listener the path refers to. -/
structure State where
  stage : Nat → Stage := fun _ => .absent
  path : Option Nat := none

def State.goes (state : State) (index : Nat) (stage : Stage) : State :=
  { state with stage := Function.update state.stage index stage }

/-- `run` is the next step of a gateway; `ok` is the outcome of a trial
connection. A gateway that is stopped closes its server first. -/
inductive Choice where
  | start (index : Nat)
  | run (index : Nat) (ok : Bool)
  | stop (index : Nat)
  | crash (index : Nat)

/-- One step of `_prepare_socket` or `serve`. -/
def advance (state : State) (index : Nat) (ok : Bool) : Option State :=
  match state.stage index with
  | .test => some (state.goes index (if state.path.isNone then .clear else .connect))
  | .connect =>
      -- Only a listener that listens can accept; even that one can fail to in time.
      if ok then
        match state.path with
        | some listener =>
            if (state.stage listener).isListening then some (state.goes index .gone) else none
        | none => none
      else some (state.goes index .unlink)
  | .unlink => some { state.goes index .clear with path := none }
  | .clear => some { state.goes index .bind with path := none }
  | .bind =>
      if state.path.isNone then some { state.goes index .listen with path := some index }
      else some (state.goes index .gone)
  | .listen => some (state.goes index .serving)
  | .closing => some (state.goes index .stopping)
  | .stopping => some (state.goes index .finalUnlink)
  | .finalUnlink => some { state.goes index .gone with path := none }
  | .absent | .serving | .gone => none

def step (state : State) : Choice → Option State
  | .start index => if state.stage index = .absent then some (state.goes index .test) else none
  | .run index ok => advance state index ok
  | .stop index => if state.stage index = .serving then some (state.goes index .closing) else none
  | .crash index => some (state.goes index .gone)

/-- The conditions on a step: a gateway binds only while no other one still goes
on to remove the path, and a trial connection to a gateway that has bound the
path does not fail. -/
def Apart (state : State) : Choice → Prop
  | .run index ok =>
      (state.stage index = .bind → ∀ other, other ≠ index → (state.stage other).removes = false) ∧
        (state.stage index = .connect → ok = false →
          ∀ listener, state.path = some listener → (state.stage listener).isServing = false)
  | _ => True

def run (state : State) : List Choice → Option State
  | [] => some state
  | choice :: rest => (step state choice).bind fun next => run next rest

/-- Every step of the run meets the conditions. -/
def AllApart (state : State) : List Choice → Prop
  | [] => True
  | choice :: rest => Apart state choice ∧ ∀ next, step state choice = some next → AllApart next rest

section Owner

variable {state next : State}

/-- The path belongs to the gateway that serves, and nobody is about to remove it. -/
def Owned (state : State) : Prop :=
  ∀ index, (state.stage index).isServing = true → state.path = some index ∧
    ∀ other, other ≠ index → (state.stage other).removes = false

theorem goes_stage (state : State) (index : Nat) (stage : Stage) :
    (state.goes index stage).stage index = stage := Function.update_self ..

theorem goes_other (state : State) {index other : Nat} (h : other ≠ index) (stage : Stage) :
    (state.goes index stage).stage other = state.stage other := Function.update_of_ne h ..

/-- A gateway that goes on without serving or removing anything. -/
theorem Owned.goes (h : Owned state) (index : Nat) {stage : Stage} (hServing : stage.isServing = false)
    (hRemoves : stage.removes = false) : Owned (state.goes index stage) := by
  intro owner hOwner
  have hOther : owner ≠ index := by
    rintro rfl
    rw [goes_stage, hServing] at hOwner
    cases hOwner
  rw [goes_other state hOther] at hOwner
  obtain ⟨hPath, hQuiet⟩ := h owner hOwner
  refine ⟨hPath, fun other hNot => ?_⟩
  by_cases hIndex : other = index
  · rw [hIndex, goes_stage, hRemoves]
  · rw [goes_other state hIndex]
    exact hQuiet other hNot

/-- Nobody serves while somebody else is about to remove the path. -/
theorem Owned.unserved (h : Owned state) {index : Nat} (hRemoves : (state.stage index).removes = true) :
    ∀ other, other ≠ index → (state.stage other).isServing = false := by
  intro other hOther
  refine Bool.eq_false_iff.mpr fun hServing => ?_
  rw [(h other hServing).2 index (Ne.symm hOther)] at hRemoves
  cases hRemoves

/-- Where nobody else serves, a gateway may do as it likes with the path. -/
theorem owned_of_unserved {index : Nat} {stage : Stage} {path : Option Nat}
    (hServing : stage.isServing = false)
    (hOthers : ∀ other, other ≠ index → (state.stage other).isServing = false) :
    Owned { state.goes index stage with path } := by
  intro owner hOwner
  by_cases hIndex : owner = index
  · have hStage : (state.goes index stage).stage owner = stage := hIndex ▸ goes_stage state index stage
    rw [show (State.mk (state.goes index stage).stage path).stage owner = stage from hStage, hServing] at hOwner
    cases hOwner
  · have hStage := goes_other state hIndex stage
    rw [show (State.mk (state.goes index stage).stage path).stage owner = _ from hStage,
      hOthers owner hIndex] at hOwner
    cases hOwner

/-- The gateway that binds owns the path, as long as nobody is about to remove it. -/
theorem Owned.bound (h : Owned state) {index : Nat} (hPath : state.path = none)
    (hQuiet : ∀ other, other ≠ index → (state.stage other).removes = false) :
    Owned { state.goes index .listen with path := some index } := by
  intro owner hOwner
  by_cases hIndex : owner = index
  · refine ⟨congrArg some hIndex.symm, fun other hOther => ?_⟩
    have hNot : other ≠ index := fun hEq => hOther (hEq.trans hIndex.symm)
    exact (congrArg Stage.removes (goes_other state hNot .listen)).trans (hQuiet other hNot)
  · have hServing : (state.stage owner).isServing = true :=
      (congrArg Stage.isServing (goes_other state hIndex .listen)).symm.trans hOwner
    rw [(h owner hServing).1] at hPath
    cases hPath

/-- The owner begins to accept connections. -/
theorem Owned.stays (h : Owned state) {index : Nat} (hStage : state.stage index = .listen) {stage : Stage}
    (hRemoves : stage.removes = false) : Owned (state.goes index stage) := by
  intro owner hOwner
  have hServing : (state.stage owner).isServing = true := by
    by_cases hIndex : owner = index
    · rw [hIndex, hStage]
      rfl
    · exact (congrArg Stage.isServing (goes_other state hIndex stage)).symm.trans hOwner
  obtain ⟨hPath, hQuiet⟩ := h owner hServing
  refine ⟨hPath, fun other hOther => ?_⟩
  by_cases hIndex : other = index
  · rw [hIndex, goes_stage, hRemoves]
  · exact (congrArg Stage.removes (goes_other state hIndex stage)).trans (hQuiet other hOther)

theorem Owned.advance (h : Owned state) {index : Nat} {ok : Bool} (hApart : Apart state (.run index ok))
    (hStep : advance state index ok = some next) : Owned next := by
  unfold Socket.advance at hStep
  cases hStage : state.stage index with
  | test =>
      rw [hStage] at hStep
      cases hStep
      cases hPath : state.path with
      | some listener => exact h.goes index rfl rfl
      | none =>
          refine owned_of_unserved rfl fun other _ => Bool.eq_false_iff.mpr fun hServing => ?_
          rw [(h other hServing).1] at hPath
          cases hPath
  | connect =>
      rw [hStage] at hStep
      cases ok with
      | true =>
          simp only [if_true] at hStep
          split at hStep
          · split at hStep <;> cases hStep
            exact h.goes index rfl rfl
          · cases hStep
      | false =>
          cases hStep
          refine owned_of_unserved rfl fun other _ => Bool.eq_false_iff.mpr fun hServing => ?_
          rw [hApart.2 hStage rfl other (h other hServing).1] at hServing
          cases hServing
  | unlink =>
      rw [hStage] at hStep
      cases hStep
      exact owned_of_unserved rfl (h.unserved (hStage ▸ rfl))
  | clear =>
      rw [hStage] at hStep
      cases hStep
      exact owned_of_unserved rfl (h.unserved (hStage ▸ rfl))
  | bind =>
      rw [hStage] at hStep
      cases hPath : state.path with
      | some listener =>
          simp only [hPath, Option.isNone_some, Bool.false_eq_true, if_false, Option.some.injEq] at hStep
          subst hStep
          exact h.goes index rfl rfl
      | none =>
          simp only [hPath, Option.isNone_none, if_true, Option.some.injEq] at hStep
          subst hStep
          exact h.bound hPath (hApart.1 hStage)
  | listen =>
      rw [hStage] at hStep
      cases hStep
      exact h.stays hStage rfl
  | closing =>
      rw [hStage] at hStep
      cases hStep
      exact owned_of_unserved rfl (h.unserved (hStage ▸ rfl))
  | stopping =>
      rw [hStage] at hStep
      cases hStep
      exact owned_of_unserved rfl (h.unserved (hStage ▸ rfl))
  | finalUnlink =>
      rw [hStage] at hStep
      cases hStep
      exact owned_of_unserved rfl (h.unserved (hStage ▸ rfl))
  | absent => rw [hStage] at hStep; cases hStep
  | serving => rw [hStage] at hStep; cases hStep
  | gone => rw [hStage] at hStep; cases hStep

theorem Owned.step (h : Owned state) {choice : Choice} (hApart : Apart state choice)
    (hStep : Socket.step state choice = some next) : Owned next := by
  cases choice with
  | start index =>
      simp only [Socket.step, Option.ite_none_right_eq_some, Option.some.injEq] at hStep
      obtain ⟨-, rfl⟩ := hStep
      exact h.goes index rfl rfl
  | run index ok => exact h.advance hApart hStep
  | stop index =>
      simp only [Socket.step, Option.ite_none_right_eq_some, Option.some.injEq] at hStep
      obtain ⟨hStage, rfl⟩ := hStep
      refine owned_of_unserved rfl fun other hOther => Bool.eq_false_iff.mpr fun hServing => hOther ?_
      have hOwner : state.path = some index := (h index (hStage ▸ rfl)).1
      exact Option.some.inj ((h other hServing).1.symm.trans hOwner)
  | crash index =>
      cases hStep
      exact h.goes index rfl rfl

theorem Owned.run (h : Owned state) {choices : List Choice} (hApart : AllApart state choices)
    (hRun : Socket.run state choices = some next) : Owned next := by
  induction choices generalizing state with
  | nil =>
      cases hRun
      exact h
  | cons choice rest ih =>
      obtain ⟨middle, hStep, hRest⟩ := Option.bind_eq_some_iff.mp hRun
      exact ih (h.step hApart.1 hStep) (hApart.2 middle hStep) hRest

theorem owned_initial : Owned {} := fun _ hServing => by cases hServing

/-- In a run whose starts and stops keep apart, the socket path belongs to the
gateway that serves, and at most one serves. -/
theorem socket_owned {choices : List Choice} (hRun : run {} choices = some state)
    (hApart : AllApart {} choices) :
    (∀ index, (state.stage index).isServing = true → state.path = some index) ∧
      ∀ first second, (state.stage first).isServing = true → (state.stage second).isServing = true →
        first = second := by
  have hOwned : Owned state := owned_initial.run hApart hRun
  refine ⟨fun index hServing => (hOwned index hServing).1, fun first second hFirst hSecond => ?_⟩
  exact Option.some.inj ((hOwned first hFirst).1.symm.trans (hOwned second hSecond).1)

/-- A gateway starts, and another one finds it there. -/
theorem socket_owned_refused : ∃ state,
    run {} [.start 0, .run 0 true, .run 0 true, .run 0 true, .run 0 true, .start 1, .run 1 true,
      .run 1 true] = some state ∧ state.stage 1 = .gone ∧ state.stage 0 = .serving ∧ state.path = some 0 := by
  obtain ⟨state, hRun, hFirst, hSecond⟩ : ∃ state,
      run {} [.start 0, .run 0 true, .run 0 true, .run 0 true, .run 0 true, .start 1, .run 1 true,
        .run 1 true] = some state ∧ state.stage 0 = .serving ∧ state.stage 1 = .gone := ⟨_, rfl, rfl, rfl⟩
  refine ⟨state, hRun, hSecond, hFirst, (socket_owned hRun ?_).1 0 (hFirst ▸ rfl)⟩
  have hAlone : ∀ other, other ≠ 0 → (if other = 0 then Stage.bind else .absent).removes = false :=
    fun other hOther => by rw [if_neg hOther]; rfl
  simpa +decide [AllApart, Apart, step, advance, State.goes, Function.update_apply, Stage.isListening]
    using hAlone

/-- Two gateways start at once: both find no socket, and the second removes the
first one's listener from the path. -/
theorem socket_shared : ∃ state,
    run {} [.start 0, .start 1, .run 0 true, .run 1 true, .run 0 true, .run 0 true, .run 0 true,
      .run 1 true, .run 1 true, .run 1 true] = some state ∧
      state.stage 0 = .serving ∧ state.stage 1 = .serving ∧ state.path = some 1 := ⟨_, rfl, rfl, rfl, rfl⟩

/-- A gateway that stops removes the listener of the one that has replaced it. -/
theorem socket_lost : ∃ state,
    run {} [.start 0, .run 0 true, .run 0 true, .run 0 true, .run 0 true, .stop 0, .run 0 true,
      .start 1, .run 1 true, .run 1 false, .run 1 true, .run 1 true, .run 1 true, .run 1 true,
      .run 0 true, .run 0 true] = some state ∧
      state.stage 1 = .serving ∧ state.path = none := ⟨_, rfl, rfl, rfl⟩

end Owner
end Pazuzu.Socket
