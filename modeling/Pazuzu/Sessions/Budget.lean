import Pazuzu.Sessions

/-! The session budget of one control path. Every lease lies in the pool of its
use, the pools are ranges of one directory, and a slot file is locked once. -/
namespace Pazuzu.Sessions

variable {budget : SessionBudget} {state : State}

section Pools

/-- The slot files that a use may take from a budget. -/
def filesOf (budget : SessionBudget) (use : Use) : List SlotFile :=
  match poolOf budget use with
  | .ok pool => pool.files
  | .error _ => []

theorem mem_files {pool : SessionLeasePool} {file : SlotFile} (h : file ∈ pool.files) :
    file.kind = pool.kind ∧ pool.startSlot ≤ file.index ∧
      file.index < pool.startSlot + pool.size := by
  obtain ⟨offset, hOffset, rfl⟩ := List.mem_map.mp h
  have hSize := List.mem_range.mp hOffset
  exact ⟨rfl, Nat.le_add_right _ _, Nat.add_lt_add_left hSize _⟩

theorem length_files (pool : SessionLeasePool) : pool.files.length = pool.size := by
  simp [SessionLeasePool.files]

theorem mem_filesOf_bridge {file : SlotFile} (h : file ∈ filesOf budget .bridge) :
    file.kind = .slot ∧ file.index < budget.maxSessions - 2 := by
  unfold filesOf poolOf SessionBudget.bridges at h
  split at h
  · next pool hPool =>
      dsimp only at hPool
      split at hPool
      · cases hPool
      · cases hPool
        simpa using mem_files h
  · cases h

/-- Whatever is not a probe stays within the operation slots. -/
theorem mem_operations {use : Use} {file : SlotFile} (hUse : use ≠ .probe)
    (h : file ∈ filesOf budget use) : file ∈ budget.operations.files := by
  cases use with
  | operation => exact h
  | probe => exact absurd rfl hUse
  | bridge =>
      obtain ⟨hKind, hIndex⟩ := mem_filesOf_bridge h
      refine List.mem_map.mpr ⟨file.index, List.mem_range.mpr ?_, ?_⟩
      · simp only [SessionBudget.operations]
        omega
      · rw [show (budget.operations).kind = file.kind from hKind.symm]
        simp [SessionBudget.operations]

end Pools

section Clients

/-- What holds of every lease, and of every file that a pass may still lock. -/
structure Respects (P : Nat → SessionBudget → Use → SlotFile → Prop) (state : State) : Prop where
  leases : ∀ lease ∈ state.leases, P lease.2.process lease.2.budget lease.2.use lease.1
  attempts : ∀ attempt ∈ state.attempts, ∀ file ∈ attempt.rest,
    P attempt.process attempt.budget attempt.use file

variable {P Q : Nat → SessionBudget → Use → SlotFile → Prop}

theorem Respects.mono (h : Respects P state)
    (hWeaker : ∀ process budget use file, P process budget use file → Q process budget use file) :
    Respects Q state :=
  ⟨fun lease hLease => hWeaker _ _ _ _ (h.leases lease hLease),
    fun attempt hAttempt file hFile => hWeaker _ _ _ _ (h.attempts attempt hAttempt file hFile)⟩

theorem Respects.acquire (h : Respects P state) {process : Nat} {use : Use}
    (hFiles : ∀ file ∈ filesOf budget use, P process budget use file) :
    Respects P (state.acquire budget process use) := by
  unfold State.acquire
  split
  · next pool hPool =>
      refine ⟨h.leases, fun attempt hAttempt file hFile => ?_⟩
      rcases List.mem_append.mp hAttempt with hOld | hNew
      · exact h.attempts attempt hOld file hFile
      · rw [List.mem_singleton.mp hNew] at hFile ⊢
        exact hFiles file (by simpa [filesOf, hPool] using hFile)
  · exact h

theorem Respects.abort (h : Respects P state) (index : Nat) :
    Respects P { state with attempts := state.attempts.eraseIdx index } :=
  ⟨h.leases, fun attempt hAttempt => h.attempts attempt (List.mem_of_mem_eraseIdx hAttempt)⟩

/-- A lock that a pass has taken is on one of its files, and the rest of a
pass has no others. -/
theorem Respects.proceed (h : Respects P state) (index : Nat) :
    Respects P (state.proceed index) := by
  have hRemoved := (h.abort index).attempts
  unfold State.proceed
  split
  · exact h
  · exact ⟨h.leases, hRemoved⟩
  · next process use own file rest hAttempt =>
      have hFiles := h.attempts _ (List.mem_of_getElem? hAttempt)
      split
      · next leases hLock =>
          refine ⟨fun lease hLease => ?_, hRemoved⟩
          obtain ⟨-, rfl⟩ := Flock.Table.tryLock_eq_some hLock
          rcases List.mem_cons.mp hLease with rfl | hOld
          · exact hFiles file List.mem_cons_self
          · exact h.leases lease hOld
      · refine ⟨h.leases, fun attempt hOther other hFile => ?_⟩
        rcases List.mem_or_eq_of_mem_set hOther with hOld | rfl
        · exact h.attempts attempt hOld other hFile
        · exact hFiles other (List.mem_cons_of_mem _ hFile)

theorem Respects.release (h : Respects P state) (handle : Nat) :
    Respects P (state.release handle) :=
  ⟨fun lease hLease => h.leases lease (List.mem_of_mem_filter hLease), h.attempts⟩

/-- What remains after a process has ended belongs to other processes. -/
theorem Respects.exit (h : Respects P state) (process : Nat) :
    Respects (fun other budget use file => other ≠ process ∧ P other budget use file)
      (state.exit process) := by
  refine ⟨fun lease hLease => ?_, fun attempt hAttempt file hFile => ?_⟩
  · obtain ⟨hIn, hOther⟩ := List.mem_filter.mp hLease
    exact ⟨by simpa using hOther, h.leases lease hIn⟩
  · obtain ⟨hIn, hOther⟩ := List.mem_filter.mp hAttempt
    exact ⟨by simpa using hOther, h.attempts attempt hIn file hFile⟩

theorem Respects.perform (h : Respects P state)
    (hFiles : ∀ process use, ∀ file ∈ filesOf budget use, P process budget use file)
    (action : Action) : Respects P (state.perform budget action) := by
  cases action with
  | acquire process use => exact h.acquire (hFiles process use)
  | proceed attempt => exact h.proceed attempt
  | abort attempt => exact h.abort attempt
  | release handle => exact h.release handle
  | exit process => exact (h.exit process).mono fun _ _ _ _ hBoth => hBoth.2

theorem exclusive_proceed (h : state.leases.Exclusive) (index : Nat) :
    (state.proceed index).leases.Exclusive := by
  unfold State.proceed
  split
  · exact h
  · exact h
  · split
    · next leases hLock => exact h.tryLock hLock
    · exact h

theorem exclusive_perform (h : state.leases.Exclusive) (action : Action) :
    (state.perform budget action).leases.Exclusive := by
  cases action with
  | acquire process use =>
      simp only [State.perform, State.acquire]
      split <;> exact h
  | proceed attempt => exact exclusive_proceed h attempt
  | abort attempt => exact h
  | release handle => exact Flock.Table.Exclusive.sublist h List.filter_sublist
  | exit process => exact Flock.Table.Exclusive.sublist h List.filter_sublist

end Clients

section OneBudget

/-- Every client divides this budget, and keeps to the pool of its use. -/
abbrev Shares (budget : SessionBudget) : Nat → SessionBudget → Use → SlotFile → Prop :=
  fun _ own use file => own = budget ∧ file ∈ filesOf budget use

/-- Nobody goes beyond the session budget. -/
structure WithinBudget (budget : SessionBudget) (state : State) : Prop where
  oneHolder : ∀ lease ∈ state.leases, ∀ other ∈ state.leases, lease.1 = other.1 → lease = other
  total : state.leases.length ≤ budget.maxSessions
  shared : (state.leases.heldBy fun client => client.use ≠ .probe).length ≤ budget.maxSessions - 1
  bridges : (state.leases.heldBy fun client => client.use = .bridge).length ≤
    budget.maxSessions - 2
  probe : ∀ lease ∈ state.leases, lease.1 ∈ budget.probes.files → lease.2.use = .probe
  operationLeft : ∃ file ∈ budget.operations.files,
    ∀ lease ∈ state.leases, lease.1 = file → lease.2.use ≠ .bridge

theorem Respects.mem_filesOf {use : Use} {lease : SlotFile × Client}
    (h : Respects (Shares budget) state) (hLease : lease ∈ state.leases)
    (hUse : lease.2.use = use) : lease.1 ∈ filesOf budget use :=
  hUse ▸ (h.leases lease hLease).2

theorem length_bridges_le (hExclusive : state.leases.Exclusive)
    (h : Respects (Shares budget) state) :
    (state.leases.heldBy fun client => client.use = .bridge).length ≤ budget.maxSessions - 2 := by
  have hFiles : ∀ lease ∈ state.leases.heldBy fun client => client.use = .bridge,
      lease.1 ∈ (List.range (budget.maxSessions - 2)).map (SlotFile.mk .slot) := by
    intro lease hLease
    obtain ⟨hIn, hUse⟩ := Flock.Table.mem_heldBy.mp hLease
    obtain ⟨hKind, hIndex⟩ := mem_filesOf_bridge (h.mem_filesOf hIn (of_decide_eq_true hUse))
    exact List.mem_map.mpr ⟨lease.1.index, List.mem_range.mpr hIndex, by rw [← hKind]⟩
  have hLength := (hExclusive.heldBy _).length_le hFiles
  rwa [List.length_map, List.length_range] at hLength

theorem length_shared_le (hExclusive : state.leases.Exclusive)
    (h : Respects (Shares budget) state) :
    (state.leases.heldBy fun client => client.use ≠ .probe).length ≤ budget.maxSessions - 1 := by
  have hFiles : ∀ lease ∈ state.leases.heldBy fun client => client.use ≠ .probe,
      lease.1 ∈ budget.operations.files := by
    intro lease hLease
    obtain ⟨hIn, hUse⟩ := Flock.Table.mem_heldBy.mp hLease
    exact mem_operations (of_decide_eq_true hUse) (h.leases lease hIn).2
  have hLength := (hExclusive.heldBy _).length_le hFiles
  rwa [length_files] at hLength

theorem length_leases_le (hBudget : 1 ≤ budget.maxSessions) (hExclusive : state.leases.Exclusive)
    (h : Respects (Shares budget) state) : state.leases.length ≤ budget.maxSessions := by
  have hFiles : ∀ lease ∈ state.leases,
      lease.1 ∈ budget.operations.files ++ budget.probes.files := by
    intro lease hLease
    by_cases hUse : lease.2.use = .probe
    · exact List.mem_append_right _ (h.mem_filesOf hLease hUse)
    · exact List.mem_append_left _ (mem_operations hUse (h.leases lease hLease).2)
  have hLength := hExclusive.length_le hFiles
  rw [List.length_append, length_files, length_files] at hLength
  simp only [SessionBudget.operations, SessionBudget.probes] at hLength
  omega

/-- The slot after the last one a bridge may take. -/
theorem exists_operation_left (hBudget : 2 ≤ budget.maxSessions)
    (hBridges : ∀ lease ∈ state.leases, lease.2.use = .bridge →
      lease.1.index < budget.maxSessions - 2) :
    ∃ file ∈ budget.operations.files,
      ∀ lease ∈ state.leases, lease.1 = file → lease.2.use ≠ .bridge := by
  refine ⟨⟨.slot, 0 + (budget.maxSessions - 2)⟩,
    List.mem_map.mpr ⟨budget.maxSessions - 2, List.mem_range.mpr ?_, rfl⟩, ?_⟩
  · simp only [SessionBudget.operations]
    omega
  · intro lease hLease hFile hUse
    have hIndex := hBridges lease hLease hUse
    rw [hFile] at hIndex
    dsimp only at hIndex
    omega

theorem Respects.withinBudget (hBudget : 2 ≤ budget.maxSessions)
    (hExclusive : state.leases.Exclusive) (h : Respects (Shares budget) state) :
    WithinBudget budget state where
  oneHolder := fun _ hLease _ hOther hFile => hExclusive.eq_of_file hLease hOther hFile
  total := length_leases_le (by omega) hExclusive h
  shared := length_shared_le hExclusive h
  bridges := length_bridges_le hExclusive h
  probe := by
    intro lease hLease hProbe
    by_contra hUse
    have hSlot := mem_files (mem_operations hUse (h.leases lease hLease).2)
    have hKind := (mem_files hProbe).1.symm.trans hSlot.1
    cases hKind
  operationLeft := exists_operation_left hBudget fun lease hLease hUse =>
    (mem_filesOf_bridge (h.mem_filesOf hLease hUse)).2

/-- Whatever any number of processes do on one budget, it is never exceeded. -/
theorem withinBudget_of_run (budget : SessionBudget) (hBudget : 3 ≤ budget.maxSessions)
    (actions : List Action) : WithinBudget budget (actions.foldl (State.perform budget) {}) := by
  suffices hRun : ∀ state : State, state.leases.Exclusive → Respects (Shares budget) state →
      WithinBudget budget (actions.foldl (State.perform budget) state) from
    hRun {} Flock.Table.exclusive_nil ⟨by simp, by simp⟩
  induction actions with
  | nil => exact fun state hExclusive h => h.withinBudget (by omega) hExclusive
  | cons action rest ih =>
      intro state hExclusive h
      exact ih _ (exclusive_perform hExclusive action)
        (h.perform (fun _ _ _ hFile => ⟨rfl, hFile⟩) action)

/-- Three bridges seek the two slots that a budget of four leaves them, and one
of them dies. -/
def rush : List Action :=
  [.acquire 1 .bridge, .acquire 2 .bridge, .acquire 3 .bridge, .acquire 9 .operation,
    .acquire 9 .probe, .proceed 0, .proceed 0, .proceed 0, .proceed 0, .proceed 0, .proceed 0,
    .proceed 0, .proceed 0, .proceed 0, .release 0, .release 0, .exit 2]

theorem withinBudget_rush : WithinBudget ⟨4⟩ (rush.foldl (State.perform ⟨4⟩) {}) :=
  withinBudget_of_run ⟨4⟩ (by decide) rush

end OneBudget
end Pazuzu.Sessions
