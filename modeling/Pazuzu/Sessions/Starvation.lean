import Pazuzu.Sessions.Budget

/-! Gateways and bridges with different budgets on one control path. A bridge
keeps the slot it took under an older budget, which may lie beyond the share
that a smaller budget leaves to bridges. -/
namespace Pazuzu.Sessions

/-- Bridges leave the running gateway one of its operation slots. -/
def Unstarved (control : Control) : Prop :=
  ∀ process budget, control.gateway = some (process, budget) →
    ∃ file ∈ budget.operations.files,
      ∀ lease ∈ control.sessions.leases, lease.1 = file → lease.2.use ≠ .bridge

/-- No bridge is running on a larger budget when a gateway starts. -/
def Control.Roomy (control : Control) : Control.Step → Prop
  | .startGateway _ maxSessions => ∀ bridge ∈ control.bridges, bridge.2.maxSessions ≤ maxSessions
  | _ => True

instance decidableRoomy (control : Control) : ∀ step, Decidable (control.Roomy step)
  | .startGateway _ maxSessions =>
      inferInstanceAs (Decidable (∀ bridge ∈ control.bridges, bridge.2.maxSessions ≤ maxSessions))
  | .startBridge _ _ | .operate _ | .seek _ | .proceed _ | .abort _ | .release _ | .exit _ =>
      isTrue trivial

/-- Each step of a run meets a condition on the state it starts from. -/
def Control.Each (condition : Control → Control.Step → Prop) : Control → List Control.Step → Prop
  | _, [] => True
  | control, step :: rest => condition control step ∧ (control.step step).Each condition rest

instance decidableEach {condition : Control → Control.Step → Prop}
    [∀ control step, Decidable (condition control step)] :
    ∀ (control : Control) steps, Decidable (control.Each condition steps)
  | _, [] => isTrue trivial
  | control, step :: rest =>
      have : Decidable ((control.step step).Each condition rest) := decidableEach (control.step step) rest
      inferInstanceAs (Decidable (condition control step ∧ (control.step step).Each condition rest))

/-- Bridges keep to the budget they have read, the running gateway's budget is
the published one, and no bridge has a larger one. -/
structure Balanced (control : Control) : Prop where
  sessions : Respects (fun process budget use file => use = .bridge →
    (process, budget) ∈ control.bridges ∧ file ∈ filesOf budget .bridge) control.sessions
  gateway : ∀ process budget, control.gateway = some (process, budget) →
    2 ≤ budget.maxSessions ∧ budget.maxSessions ≤ 64 ∧
      control.published = some budget.maxSessions ∧
      ∀ bridge ∈ control.bridges, bridge.2.maxSessions ≤ budget.maxSessions

namespace Balanced

variable {control : Control}

theorem withSessions (h : Balanced control) {sessions : State}
    (hSessions : Respects (fun process budget use file => use = .bridge →
      (process, budget) ∈ control.bridges ∧ file ∈ filesOf budget .bridge) sessions) :
    Balanced { control with sessions } :=
  ⟨hSessions, h.gateway⟩

theorem startGateway (h : Balanced control) {process maxSessions : Nat}
    (hRoomy : control.Roomy (.startGateway process maxSessions)) :
    Balanced (control.step (.startGateway process maxSessions)) := by
  simp only [Control.step]
  split
  · next hStart =>
      refine ⟨h.sessions, fun other budget hGateway => ?_⟩
      obtain ⟨rfl, rfl⟩ := Prod.mk.inj (Option.some.inj hGateway)
      exact ⟨hStart.2.1, hStart.2.2, rfl, hRoomy⟩
  · exact h

/-- A bridge that starts while a gateway is running reads that one's budget. -/
theorem startBridge (h : Balanced control) (process default : Nat) :
    Balanced (control.step (.startBridge process default)) := by
  simp only [Control.step]
  split
  · refine ⟨h.sessions.mono fun _ _ _ _ hOld hUse =>
      ⟨List.mem_cons_of_mem _ (hOld hUse).1, (hOld hUse).2⟩, fun other budget hGateway => ?_⟩
    obtain ⟨hLow, hHigh, hPublished, hBridges⟩ := h.gateway other budget hGateway
    refine ⟨hLow, hHigh, hPublished, fun bridge hBridge => ?_⟩
    rcases List.mem_cons.mp hBridge with rfl | hOld
    · simp [SessionBudget.published, hPublished, hLow, hHigh]
    · exact hBridges bridge hOld
  · exact h

theorem exit (h : Balanced control) (process : Nat) :
    Balanced (control.step (.exit process)) := by
  refine ⟨(h.sessions.exit process).mono ?_, fun other budget hGateway => ?_⟩
  · rintro other budget use file ⟨hOther, hOld⟩ hUse
    refine ⟨List.mem_filter.mpr ⟨(hOld hUse).1, ?_⟩, (hOld hUse).2⟩
    simpa using hOther
  · obtain ⟨hLow, hHigh, hPublished, hBridges⟩ :=
      h.gateway other budget (Option.filter_eq_some_iff.mp hGateway).1
    exact ⟨hLow, hHigh, hPublished, fun bridge hBridge =>
      hBridges bridge (List.mem_of_mem_filter hBridge)⟩

theorem step (h : Balanced control) (step : Control.Step) (hRoomy : control.Roomy step) :
    Balanced (control.step step) := by
  cases step with
  | startGateway process maxSessions => exact h.startGateway hRoomy
  | startBridge process default => exact h.startBridge process default
  | operate use =>
      simp only [Control.step]
      split
      · exact h
      · exact h
      · next hUse =>
          exact h.withSessions (h.sessions.acquire fun file _ hBridge => absurd hBridge hUse)
  | seek bridge =>
      simp only [Control.step]
      split
      · exact h
      · next process budget hBridge =>
          split
          · exact h.withSessions (h.sessions.acquire fun file hFile _ =>
              ⟨List.mem_of_getElem? hBridge, hFile⟩)
          · exact h
  | proceed attempt => exact h.withSessions (h.sessions.proceed attempt)
  | abort attempt => exact h.withSessions (h.sessions.abort attempt)
  | release handle => exact h.withSessions (h.sessions.release handle)
  | exit process => exact h.exit process

theorem unstarved (h : Balanced control) : Unstarved control := by
  intro process budget hGateway
  obtain ⟨hLow, -, -, hBridges⟩ := h.gateway process budget hGateway
  refine exists_operation_left hLow fun lease hLease hUse => ?_
  obtain ⟨hBridge, hFile⟩ := h.sessions.leases lease hLease hUse
  have hOwn := hBridges _ hBridge
  have hIndex := (mem_filesOf_bridge hFile).2
  dsimp only at hOwn
  omega

end Balanced

/-- In every run whose gateways start on budgets no smaller than those of the
bridges still running, no gateway is starved. -/
theorem unstarved_of_run (steps : List Control.Step)
    (hRoomy : Control.Each Control.Roomy {} steps) : Unstarved (Control.run {} steps) := by
  suffices hRun : ∀ control : Control, Balanced control → control.Each Control.Roomy steps →
      Balanced (control.run steps) from
    (hRun {} ⟨⟨by simp, by simp⟩, by simp⟩ hRoomy).unstarved
  clear hRoomy
  induction steps with
  | nil => exact fun control h _ => h
  | cons step rest ih => exact fun control h hEach => ih _ (h.step step hEach.1) hEach.2

/-- A bridge on the default budget outlives the start of a larger gateway. -/
def growing : List Control.Step :=
  [.startBridge 1 8, .seek 0, .proceed 0, .startGateway 2 10, .startBridge 3 8, .seek 0, .proceed 0,
    .proceed 0, .operate .operation, .proceed 0, .proceed 0, .proceed 0]

theorem unstarved_growing : Unstarved (Control.run {} growing) :=
  unstarved_of_run growing (by decide)

/-- Two bridges on the default budget hold both operation slots of a gateway
that is started with three sessions. -/
theorem starved : ¬∀ steps, Unstarved (Control.run {} steps) := by
  intro hClaim
  obtain ⟨file, hFile, hLeft⟩ := hClaim
    [.startBridge 1 8, .seek 0, .proceed 0, .startBridge 2 8, .seek 0, .proceed 0, .proceed 0,
      .startGateway 3 3] 3 ⟨3⟩ rfl
  have hTaken : ∀ taken ∈ (SessionBudget.mk 3).operations.files,
      ∃ lease ∈ (Control.run {} [.startBridge 1 8, .seek 0, .proceed 0, .startBridge 2 8, .seek 0,
        .proceed 0, .proceed 0, .startGateway 3 3]).sessions.leases,
        lease.1 = taken ∧ lease.2.use = .bridge := by decide
  obtain ⟨lease, hLease, hEq, hUse⟩ := hTaken file hFile
  exact hLeft lease hLease hEq hUse

end Pazuzu.Sessions
