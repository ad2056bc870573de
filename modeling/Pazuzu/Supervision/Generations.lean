import Pazuzu.Supervision.Bookkeeping

/-! What a generation stands for: how many masters have been connected, each
of them after a probe session that ended well. -/
namespace Pazuzu.Supervision

open Asyncio Supervisor

section Accounts

variable {entry other : Record} {rest older : History} {w : GatewayWorld}

theorem connections_append (newer older : History) :
    connections (newer ++ older) = connections newer + connections older := by
  induction newer with
  | nil => simp [connections]
  | cons entry rest ih =>
      obtain ⟨task, event, state⟩ := entry
      cases event with
      | masterConnected =>
          change connections (rest ++ older) + 1 = connections rest + 1 + connections older
          omega
      | _ => exact ih

theorem connections_mono (h : older <:+ rest) : connections older ≤ connections rest := by
  obtain ⟨newer, rfl⟩ := h
  rw [connections_append]
  exact Nat.le_add_left _ _

theorem connections_cons_le (entry : Record) (rest : History) :
    connections (entry :: rest) ≤ connections rest + 1 := by
  obtain ⟨task, event, state⟩ := entry
  cases event <;> first | exact le_rfl | exact Nat.le_succ _

/-- Each number up to the count of connections is that of one connection. -/
theorem exists_connection {number : Nat} (hLow : 1 ≤ number) (hHigh : number ≤ connections rest) :
    ∃ entry before, (entry :: before) <:+ rest ∧ entry.event = .masterConnected ∧
      connections (entry :: before) = number := by
  induction rest with
  | nil => exact absurd (hLow.trans hHigh) (by simp [connections])
  | cons newest earlier ih =>
      by_cases hOld : number ≤ connections earlier
      · obtain ⟨entry, before, hSuffix, hEntry⟩ := ih hOld
        exact ⟨entry, before, hSuffix.trans (List.suffix_cons _ _), hEntry⟩
      · have hNumber := connections_cons_le newest earlier
        refine ⟨newest, earlier, List.suffix_rfl, ?_, by omega⟩
        obtain ⟨task, event, state⟩ := newest
        cases event <;> first | rfl | exact absurd hHigh hOld

/-- A master is connected after the attempt has begun. -/
theorem Proved.ne_nil {task : Nat} : ¬Proved task [] := by
  rintro ⟨beginning, before, hSuffix, -⟩
  cases List.suffix_nil.mp hSuffix

/-- The generations of a stretch of history grow with its connections. -/
theorem generation_grows (hInv : Inv w) (hEntry : (entry :: rest) <:+ w.trace)
    (hOther : (other :: older) <:+ entry :: rest) :
    other.state.sup.generation + connections (entry :: rest) ≤
      entry.state.sup.generation + connections (other :: older) := by
  induction rest generalizing entry with
  | nil =>
      rcases List.suffix_cons_iff.mp hOther with hEq | hIn
      · obtain ⟨rfl, rfl⟩ := List.cons.inj hEq
        exact le_rfl
      · cases List.suffix_nil.mp hIn
  | cons next before ih =>
      rcases List.suffix_cons_iff.mp hOther with hEq | hIn
      · obtain ⟨rfl, rfl⟩ := List.cons.inj hEq
        exact le_rfl
      · have hRest := ih ((List.suffix_cons _ _).trans hEntry) hIn
        have hOrder := (hInv.ordered entry _ hEntry next List.mem_cons_self).generation
        have hPermitted := hInv.permitted entry _ hEntry
        obtain ⟨task, event, state⟩ := entry
        cases event with
        | masterConnected =>
            have hLess := hPermitted.2 next List.mem_cons_self
            change next.state.sup.generation < state.sup.generation at hLess
            change _ + (connections (next :: before) + 1) ≤ state.sup.generation + _
            omega
        | _ =>
            change next.state.sup.generation ≤ state.sup.generation at hOrder
            change _ + connections (next :: before) ≤ state.sup.generation + _
            omega

variable {config : Config}

/-- Each recorded generation is the number of connections up to its entry. -/
theorem recorded_generation (hInv : Inv w) (hLedger : Ledger config w)
    (hEntry : (entry :: rest) <:+ w.trace) :
    entry.state.sup.generation = connections (entry :: rest) := by
  refine Nat.le_antisymm ?_ ?_
  · -- from the newest entry back to this one
    obtain ⟨newest, earlier, hTrace⟩ : ∃ newest earlier, w.trace = newest :: earlier := by
      cases hTrace : w.trace with
      | nil =>
          rw [hTrace] at hEntry
          cases List.suffix_nil.mp hEntry
      | cons newest earlier => exact ⟨newest, earlier, rfl⟩
    have hGrows := generation_grows hInv (hTrace ▸ List.suffix_rfl) (hTrace ▸ hEntry)
    have hPast := (hInv.past newest (hTrace ▸ List.mem_cons_self)).generation
    have hNow := hLedger.balance.generation
    change newest.state.sup.generation ≤ w.state.sup.generation at hPast
    rw [hTrace] at hNow
    omega
  · -- from this entry back to the oldest one
    obtain ⟨earlier, oldest, hOldest⟩ : ∃ earlier oldest, entry :: rest = earlier ++ [oldest] :=
      ⟨_, _, (List.dropLast_concat_getLast (List.cons_ne_nil entry rest)).symm⟩
    have hSuffix : [oldest] <:+ entry :: rest := hOldest ▸ List.suffix_append _ _
    have hGrows := generation_grows hInv hEntry hSuffix
    have hWarranted := hLedger.warranted oldest [] (hSuffix.trans hEntry)
    have hNone : connections [oldest] = 0 := by
      obtain ⟨task, event, state⟩ := oldest
      cases event with
      | masterConnected => exact absurd hWarranted Proved.ne_nil
      | _ => rfl
    omega

end Accounts

section Runs

variable {config : Config} {os : Os}

/-- A generation is the number of masters connected so far. Each of them was
connected in an attempt whose own probe session, opened since the attempt
began, ended well. A result or an attachment names one of them. -/
structure Identifies (w : GatewayWorld) : Prop where
  connected : w.state.sup.state = .connected → 1 ≤ w.state.sup.generation ∧ w.state.sup.failures = 0 ∧
    w.state.sup.nextAttempt = 0 ∧ w.state.sup.lastError = none
  bounded : w.state.sup.generation ≤ w.state.sup.repairEpoch
  counted : w.state.sup.generation = connections w.trace
  recorded : ∀ entry rest, (entry :: rest) <:+ w.trace →
    entry.state.sup.generation = connections (entry :: rest)
  proved : ∀ entry rest, (entry :: rest) <:+ w.trace → entry.event = .masterConnected →
    Proved entry.task rest
  distinct : ∀ entry rest, (entry :: rest) <:+ w.trace → entry.event = .masterConnected →
    ∀ other ∈ rest, other.event = .masterConnected →
      other.state.sup.generation ≠ entry.state.sup.generation
  named : ∀ entry rest value, (entry :: rest) <:+ w.trace → entry.event = .returned value →
    ∀ generation ∈ value.named, ∃ connection ∈ rest, connection.event = .masterConnected ∧
      connection.state.sup.generation = generation

theorem identifies_of_run {choices : List (Choice (gateway config))} {final : Loop (gateway config)}
    (hRun : gatewayRun config os choices = some final) : Identifies final.world := by
  have hInv := inv_of_run hRun
  have hLedger := ledger_of_run hRun
  exact
    { connected := fun hUp => ⟨hInv.repair.connected hUp, (hLedger.balance.connected hUp).2⟩
      bounded := by
        have hBounded := hLedger.balance.bounded
        rw [hLedger.balance.generation, hLedger.balance.epoch]
        omega
      counted := hLedger.balance.generation
      recorded := fun entry rest hEntry => recorded_generation hInv hLedger hEntry
      proved := by
        intro entry rest hEntry hEvent
        have hWarranted := hLedger.warranted entry rest hEntry
        unfold Warranted at hWarranted
        rw [hEvent] at hWarranted
        exact hWarranted
      distinct := by
        intro entry rest hEntry hEvent other hOther _
        have hPermitted := hInv.permitted entry rest hEntry
        unfold Permitted at hPermitted
        rw [hEvent] at hPermitted
        exact (hPermitted.2 other hOther).ne
      named := by
        intro entry rest value hEntry hEvent generation hNamed
        have hWarranted := hLedger.warranted entry rest hEntry
        unfold Warranted at hWarranted
        rw [hEvent] at hWarranted
        obtain ⟨hLow, hHigh⟩ := hWarranted generation hNamed
        obtain ⟨connection, before, hConnection, hConnected, hNumber⟩ := exists_connection hLow hHigh
        refine ⟨connection, hConnection.subset List.mem_cons_self, hConnected, ?_⟩
        rw [recorded_generation hInv hLedger (hConnection.trans ((List.suffix_cons _ _).trans hEntry)), hNumber] }

/-- In every reachable state generations are so, and from one reachable state
to a later one the generation grows by one for each master connected. -/
theorem generations_of_run {choices more : List (Choice (gateway config))}
    {middle final : Loop (gateway config)} (hRun : gatewayRun config os choices = some middle)
    (hMore : middle.run more = some final) :
    Identifies final.world ∧ ∃ newer, final.world.trace = newer ++ middle.world.trace ∧
      final.world.state.sup.generation = middle.world.state.sup.generation + connections newer := by
  have hFinal := identifies_of_run ((Loop.run_append hRun).trans hMore)
  obtain ⟨newer, hNewer⟩ := Loop.run_history hMore
  refine ⟨hFinal, newer, hNewer.symm, ?_⟩
  rw [hFinal.counted, (identifies_of_run hRun).counted, ← hNewer, connections_append, Nat.add_comm]

/-- A survivor is adopted, and a new master replaces it when its connection is lost. -/
theorem generations_recovery : ∃ middle final : Loop (gateway sample),
    gatewayRun sample survivor ([execute true] ++ resumes 0 5) = some middle ∧
      final.world.state.sup.generation = middle.world.state.sup.generation + 1 ∧ Identifies final.world := by
  have hRun : ((gatewayRun sample survivor ([execute true] ++ resumes 0 5)).bind fun middle =>
      (middle.run ([resume 0 255, .start (.job 0)] ++ resumes 1 2 ++
        [resume 1 1, resume 0 0 .failed, resume 0, resume 0 255] ++ recovery ++ resumes 0 4)).filter
        fun final : Loop (gateway sample) =>
          final.world.state.sup.generation = middle.world.state.sup.generation + 1).isSome = true := by
    decide +kernel
  obtain ⟨final, hFinal⟩ := Option.isSome_iff_exists.mp hRun
  obtain ⟨middle, hMiddle, hMore⟩ := Option.bind_eq_some_iff.mp hFinal
  obtain ⟨hMore, hGrown⟩ := Option.filter_eq_some_iff.mp hMore
  exact ⟨middle, final, hMiddle, of_decide_eq_true hGrown, (generations_of_run hMiddle hMore).1⟩

end Runs

end Pazuzu.Supervision
