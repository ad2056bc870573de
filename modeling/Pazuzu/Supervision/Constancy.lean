import Pazuzu.Supervision.Tolerance

/-! A master that answers is kept: nothing but an order or the end of the
gateway has it replaced, and a surviving one is adopted as the first. -/
namespace Pazuzu

namespace Event

/-- The calls that have the connection replaced or closed, whatever it is like. -/
def isOrder : Event → Bool
  | .called (.reconnect true) | .called .close => true
  | _ => false

/-- A control check without an answer, or a probe that has not ended well. -/
def isTrouble : Event → Bool
  | .controlChecked up => !up
  | .probeEnded outcome => outcome ≠ .ok
  | _ => false

end Event

end Pazuzu

namespace Pazuzu.Supervision

open Asyncio Supervisor

variable {config : Config} {history : History}

/-- Nobody has ordered the connection to be replaced or closed. -/
def Unbidden (history : History) : Prop :=
  ∀ entry ∈ history, entry.event.isOrder = false

/-- Once connected, the master answers every control check and every probe. -/
def Healthy (history : History) : Prop :=
  ∀ entry ∈ history, 1 ≤ entry.state.sup.generation → entry.event.isTrouble = false

/-- The master on the control path does so from the start. -/
def Surviving (history : History) : Prop :=
  ∀ entry ∈ history, entry.event.isTrouble = false

instance (history : History) : Decidable (Unbidden history) := inferInstanceAs (Decidable (∀ _ ∈ _, _))

instance (history : History) : Decidable (Healthy history) := inferInstanceAs (Decidable (∀ _ ∈ _, _))

instance (history : History) : Decidable (Surviving history) := inferInstanceAs (Decidable (∀ _ ∈ _, _))

/-- An event that cannot be among those of a history. -/
theorem Unbidden.absurd (h : Unbidden history) {entry : Record} (hEntry : entry ∈ history)
    (hEvent : entry.event = .called (.reconnect true) ∨ entry.event = .called .close) : False := by
  have hNot := h entry hEntry
  rcases hEvent with hEvent | hEvent <;> rw [hEvent] at hNot <;> cases hNot

theorem Event.trouble_of_dead {event : Event} (h : event = .controlChecked false) : event.isTrouble = true := by
  rw [h]
  rfl

theorem Event.trouble_of_bad {event : Event} {outcome : ProbeOutcome} (h : event = .probeEnded outcome)
    (hBad : outcome ≠ .ok) : event.isTrouble = true := by
  rw [h]
  exact decide_eq_true hBad

theorem Ended.mono {old new : History} (h : Ended old) (hNew : old <:+ new) : Ended new := by
  obtain ⟨stretch, rfl⟩ := hNew
  induction stretch with
  | nil => exact h
  | cons newest earlier ih => exact ih.cons newest

/-- An attempt that is under way began when as many masters had been connected. -/
theorem attempt_of_attempting (h : attempting history = true) :
    ∃ entry rest, (entry :: rest) <:+ history ∧ entry.event.beginsAttempt = true ∧
      connections rest = connections history := by
  induction history with
  | nil => cases h
  | cons newest earlier ih =>
      have hEarlier : attempting earlier = true → connections (newest :: earlier) = connections earlier →
          ∃ entry rest, (entry :: rest) <:+ newest :: earlier ∧ entry.event.beginsAttempt = true ∧
            connections rest = connections (newest :: earlier) := by
        intro hBusy hSame
        obtain ⟨entry, rest, hSuffix, hBegins, hConnections⟩ := ih hBusy
        exact ⟨entry, rest, hSuffix.trans (List.suffix_cons _ _), hBegins, hConnections.trans hSame.symm⟩
      obtain ⟨task, event, state⟩ := newest
      cases event with
      | adoptionBegan | repairBegan => exact ⟨_, earlier, List.suffix_rfl, rfl, rfl⟩
      | masterConnected => cases h
      | _ => exact hEarlier h rfl

section Ledgers

variable {w : GatewayWorld}

/-- A check is of a master that was connected. -/
theorem connected_of_check (hInv : Inv w) (hLedger : Ledger config w) {beginning : Record} {before : History}
    {generation : Nat} (hSuffix : (beginning :: before) <:+ w.trace)
    (hEvent : beginning.event = .checkBegan generation) : 1 ≤ connections (beginning :: before) := by
  have hPermitted := hInv.permitted beginning before hSuffix
  unfold Permitted at hPermitted
  rw [hEvent] at hPermitted
  have hGeneration : 1 ≤ beginning.state.sup.generation := hPermitted.1.trans hPermitted.2
  rwa [recorded_generation hInv hLedger hSuffix] at hGeneration

/-- Once a master is connected, no attempt begins. -/
theorem no_attempt (hInv : Inv w) (hLedger : Ledger config w) (hUnbidden : Unbidden w.trace)
    (hHealthy : Healthy w.trace) (hHistory : history <:+ w.trace) : ∀ entry rest,
      (entry :: rest) <:+ history → ¬Ended rest → entry.event.beginsAttempt = true → connections rest = 0 := by
  induction history with
  | nil => exact fun entry rest hSuffix => absurd (List.suffix_nil.mp hSuffix) (List.cons_ne_nil _ _)
  | cons newest earlier ih =>
      have hEarlier := ih ((List.suffix_cons _ _).trans hHistory)
      intro entry rest hSuffix hOpen hBegins
      rcases List.suffix_cons_iff.mp hSuffix with hEq | hIn
      · obtain ⟨rfl, rfl⟩ := List.cons.inj hEq
        have hWarranted := hLedger.warranted entry rest hHistory
        have hRest : rest <:+ w.trace := (List.suffix_cons _ _).trans hHistory
        by_contra hSome
        -- An attempt under way with a master connected before it is ruled out.
        have hIdle : ∀ old, old <:+ rest → 1 ≤ connections old → attempting old ≠ true := by
          intro old hOld hConnected hBusy
          obtain ⟨other, older, hOther, hBegan, hSame⟩ := attempt_of_attempting hBusy
          have hOlder : older <:+ rest := (List.suffix_cons _ _).trans (hOther.trans hOld)
          have hNone := hEarlier other older (hOther.trans hOld) (fun h => hOpen (h.mono hOlder)) hBegan
          omega
        obtain ⟨task, event, state⟩ := entry
        cases event with
        | adoptionBegan => exact hSome hWarranted
        | repairBegan =>
            rcases hWarranted.2 with hCheck | hForced | hEnded | ⟨check, older, hIn, -, hEvent, hPositive⟩ |
              ⟨hBusy, hConnected⟩ | ⟨hNone, -⟩
            · obtain ⟨decision, older, rfl⟩ : ∃ decision older, rest = decision :: older := by
                cases rest with
                | nil => cases hCheck
                | cons decision older => exact ⟨decision, older, rfl⟩
              obtain ⟨hTask, generation, hReplaces⟩ := hCheck
              have hFails := hLedger.warranted decision older hRest
              unfold Warranted at hFails
              rw [hReplaces] at hFails
              obtain ⟨beginning, before, asked, between, outcome, hBegan, hAsked, ⟨-, number, hChecks⟩, -, -, -,
                -, hBad, hWhy, -⟩ := hFails
              have hBetween : between <:+ decision :: older :=
                ((List.suffix_cons _ _).trans hAsked).trans (List.suffix_cons _ _)
              split at hWhy
              · obtain ⟨probe, hProbe, hEnded, hPositive⟩ := hWhy
                exact Bool.false_ne_true ((hHealthy probe (hRest.subset (hBetween.subset hProbe)) hPositive).symm.trans
                  (Event.trouble_of_bad hEnded hBad))
              · rcases hWhy.2 with hBusy | hEnded
                · exact hIdle _ (hBegan.trans hBetween) (connected_of_check hInv hLedger
                    ((hBegan.trans hBetween).trans hRest) hChecks) hBusy
                · exact hOpen (hEnded.mono (hBegan.trans hBetween))
            · obtain ⟨order, hOrder, -, hEvent⟩ := hForced
              exact hUnbidden.absurd (hRest.subset hOrder) (Or.inl hEvent)
            · exact hOpen hEnded
            · exact Bool.false_ne_true ((hHealthy check ((hIn.trans hRest).subset List.mem_cons_self)
                hPositive).symm.trans (Event.trouble_of_dead hEvent))
            · exact hIdle rest List.suffix_rfl hConnected hBusy
            · exact hSome hNone
        | _ => cases hBegins
      · exact hEarlier entry rest hIn hOpen hBegins

/-- At most one master is connected before the gateway ends. -/
theorem connections_le_one (hInv : Inv w) (hLedger : Ledger config w) (hUnbidden : Unbidden w.trace)
    (hHealthy : Healthy w.trace) (hHistory : history <:+ w.trace)
    (hOpen : ∀ entry rest, (entry :: rest) <:+ history → ¬Ended rest) : connections history ≤ 1 := by
  induction history with
  | nil => exact Nat.zero_le 1
  | cons newest earlier ih =>
      have hEarlier : earlier <:+ w.trace := (List.suffix_cons _ _).trans hHistory
      have hLast := ih hEarlier fun entry rest hSuffix => hOpen entry rest (hSuffix.trans (List.suffix_cons _ _))
      have hWarranted := hLedger.warranted newest earlier hHistory
      obtain ⟨task, event, state⟩ := newest
      cases event with
      | masterConnected =>
          obtain ⟨beginning, before, hSuffix, -, hBegins, hSince, -⟩ := hWarranted
          have hNone := no_attempt hInv hLedger hUnbidden hHealthy hEarlier beginning before hSuffix
            (hOpen beginning before (hSuffix.trans (List.suffix_cons _ _))) hBegins
          have hBefore : connections (beginning :: before) = connections before := by
            obtain ⟨actor, began, then'⟩ := beginning
            cases began <;> first | rfl | cases hBegins
          have hSame : connections earlier = connections (beginning :: before) := by
            refine connections_eq_of_since hSuffix fun entry rest hEntry hEvent => ?_
            have hPlain := hSince entry rest hEntry
            rw [hEvent] at hPlain
            cases hPlain
          change connections earlier + 1 ≤ 1
          omega
      | _ => exact hLast

theorem probeFailures_pos (h : config.settings.validate = .ok ()) : config.settings.probeFailures ≠ 0 := by
  intro hZero
  unfold SshSettings.validate at h
  rw [hZero] at h
  split at h
  · cases h
  · split at h
    · cases h
    · split at h <;> cases h

/-- A master that has answered from the start is not replaced either, and none
is started or stopped. -/
theorem no_repair (hInv : Inv w) (hLedger : Ledger config w) (hUnbidden : Unbidden w.trace)
    (hSurviving : Surviving w.trace) (hValid : config.settings.validate = .ok ())
    {entry : Record} {rest : History} (hEntry : (entry :: rest) <:+ w.trace) (hOpen : ¬Ended rest) :
    entry.event ≠ .repairBegan := by
  intro hEvent
  have hRest : rest <:+ w.trace := (List.suffix_cons _ _).trans hEntry
  have hNone := no_attempt hInv hLedger hUnbidden (fun other hOther _ => hSurviving other hOther)
    List.suffix_rfl entry rest hEntry hOpen (by rw [hEvent]; rfl)
  have hWarranted := hLedger.warranted entry rest hEntry
  unfold Warranted at hWarranted
  rw [hEvent] at hWarranted
  rcases hWarranted.2 with hCheck | hForced | hEnded | ⟨check, older, hIn, -, hDead, -⟩ |
    ⟨-, hConnected⟩ | ⟨-, ⟨check, older, hSince, -, hDead⟩ | ⟨outcome, hBad, probe, older, hSince, -, hSays⟩ | hZero⟩
  · obtain ⟨decision, older, rfl⟩ : ∃ decision older, rest = decision :: older := by
      cases rest with
      | nil => cases hCheck
      | cons decision older => exact ⟨decision, older, rfl⟩
    obtain ⟨-, generation, hReplaces⟩ := hCheck
    have hFails := hLedger.warranted decision older hRest
    unfold Warranted at hFails
    rw [hReplaces] at hFails
    obtain ⟨beginning, before, asked, between, outcome, hBegan, hAsked, ⟨-, number, hChecks⟩, -⟩ := hFails
    have hBeginning : (beginning :: before) <:+ decision :: older :=
      ((hBegan.trans (List.suffix_cons _ _)).trans hAsked).trans (List.suffix_cons _ _)
    have hSome := connected_of_check hInv hLedger (hBeginning.trans hRest) hChecks
    have hMore := connections_mono hBeginning
    omega
  · obtain ⟨order, hOrder, -, hOrdered⟩ := hForced
    exact hUnbidden.absurd (hRest.subset hOrder) (Or.inl hOrdered)
  · exact hOpen hEnded
  · exact Bool.false_ne_true ((hSurviving check ((hIn.trans hRest).subset List.mem_cons_self)).symm.trans
      (Event.trouble_of_dead hDead))
  · omega
  · exact Bool.false_ne_true ((hSurviving check (hRest.subset hSince.mem)).symm.trans
      (Event.trouble_of_dead hDead))
  · exact Bool.false_ne_true ((hSurviving probe (hRest.subset hSince.mem)).symm.trans
      (Event.trouble_of_bad hSays hBad))
  · exact probeFailures_pos hValid hZero

end Ledgers

section Runs

variable {os : Os} {choices : List (Choice (gateway config))} {final : Loop (gateway config)}

/-- Up to the end of the gateway, no repair begins once a master is connected,
and the generation stays what it is then. -/
structure Retained (trace : History) : Prop where
  unreplaced : ∀ entry rest, (entry :: rest) <:+ trace → ¬Ended rest → entry.event = .repairBegan →
    ∀ other ∈ rest, other.event ≠ .masterConnected
  steady : ∀ entry rest, (entry :: rest) <:+ trace → ¬Ended rest →
    (∃ other ∈ entry :: rest, other.event = .masterConnected) → entry.state.sup.generation = 1

/-- Up to the end of the gateway, no master is started or stopped, and the one
that is connected was adopted as the first. -/
structure Adopted (trace : History) : Prop where
  untouched : ∀ entry rest, (entry :: rest) <:+ trace → ¬Ended rest → entry.event ≠ .repairBegan ∧
    entry.event ≠ .startMasterCalled ∧ entry.event ≠ .stopMasterCalled
  adopted : ∀ entry rest, (entry :: rest) <:+ trace → ¬Ended rest → entry.event = .masterConnected →
    entry.state.sup.generation = 1 ∧
      ∃ beginning ∈ rest, beginning.task = entry.task ∧ beginning.event = .adoptionBegan

theorem one_le_connections {other : Record} (hOther : other ∈ history) (hEvent : other.event = .masterConnected) :
    1 ≤ connections history := by
  obtain ⟨rest, hSuffix⟩ := exists_suffix_of_mem hOther
  refine le_trans ?_ (connections_mono hSuffix)
  simp [connections, hEvent]

theorem suffix_of_cons_suffix {entry other : Record} {rest older : History}
    (h : (other :: older) <:+ entry :: rest) : older <:+ rest := by
  rcases List.suffix_cons_iff.mp h with hEq | hIn
  · obtain ⟨rfl, rfl⟩ := List.cons.inj hEq
    exact List.suffix_rfl
  · exact (List.suffix_cons _ _).trans hIn

theorem retained_of_run (hRun : gatewayRun config os choices = some final)
    (hUnbidden : Unbidden final.world.trace) (hHealthy : Healthy final.world.trace) :
    Retained final.world.trace := by
  have hInv := inv_of_run hRun
  have hLedger := ledger_of_run hRun
  refine ⟨fun entry rest hEntry hOpen hEvent other hOther hConnected => ?_, fun entry rest hEntry hOpen hOnce => ?_⟩
  · have hNone := no_attempt hInv hLedger hUnbidden hHealthy List.suffix_rfl entry rest hEntry hOpen
      (by rw [hEvent]; rfl)
    have hSome := one_le_connections hOther hConnected
    omega
  · obtain ⟨other, hOther, hConnected⟩ := hOnce
    rw [recorded_generation hInv hLedger hEntry]
    refine Nat.le_antisymm ?_ (one_le_connections hOther hConnected)
    exact connections_le_one hInv hLedger hUnbidden hHealthy hEntry fun other older hOlder hEnded =>
      hOpen (hEnded.mono (suffix_of_cons_suffix hOlder))

theorem adopted_of_run (hRun : gatewayRun config os choices = some final)
    (hValid : config.settings.validate = .ok ()) (hUnbidden : Unbidden final.world.trace)
    (hSurviving : Surviving final.world.trace) : Adopted final.world.trace := by
  have hInv := inv_of_run hRun
  have hLedger := ledger_of_run hRun
  have hNone : ∀ entry rest, (entry :: rest) <:+ final.world.trace → ¬Ended rest →
      entry.event ≠ .repairBegan := fun entry rest hEntry hOpen =>
    no_repair hInv hLedger hUnbidden hSurviving hValid hEntry hOpen
  refine ⟨fun entry rest hEntry hOpen => ⟨hNone entry rest hEntry hOpen, fun hStart => ?_, fun hStop => ?_⟩,
    fun entry rest hEntry hOpen hConnected => ⟨?_, ?_⟩⟩
  · have hWarranted := hLedger.warranted entry rest hEntry
    unfold Warranted at hWarranted
    rw [hStart] at hWarranted
    obtain ⟨repair, older, hRepair, -, hBegan, -⟩ := repair_of_repairer hWarranted
    exact hNone repair older (hRepair.trans ((List.suffix_cons _ _).trans hEntry))
      (fun hEnded => hOpen (hEnded.mono ((List.suffix_cons _ _).trans hRepair))) hBegan
  · have hWarranted := hLedger.warranted entry rest hEntry
    unfold Warranted at hWarranted
    rw [hStop] at hWarranted
    rcases hWarranted with hRepairs | ⟨other, hOther, -, hClose⟩
    · obtain ⟨repair, older, hRepair, -, hBegan, -⟩ := repair_of_repairer hRepairs
      exact hNone repair older (hRepair.trans ((List.suffix_cons _ _).trans hEntry))
        (fun hEnded => hOpen (hEnded.mono ((List.suffix_cons _ _).trans hRepair))) hBegan
    · exact (hUnbidden.absurd (hEntry.subset (List.mem_cons_of_mem _ hOther)) (Or.inr hClose)).elim
  · exact (retained_of_run hRun hUnbidden fun other hOther _ => hSurviving other hOther).steady entry rest hEntry
      hOpen ⟨entry, List.mem_cons_self, hConnected⟩
  · have hWarranted := hLedger.warranted entry rest hEntry
    unfold Warranted at hWarranted
    rw [hConnected] at hWarranted
    obtain ⟨beginning, before, hSuffix, hTask, hBegins, -⟩ := hWarranted
    refine ⟨beginning, hSuffix.subset List.mem_cons_self, hTask, ?_⟩
    have hRest : rest <:+ final.world.trace := (List.suffix_cons _ _).trans hEntry
    have hNot := hNone beginning before (hSuffix.trans hRest) fun hEnded =>
      hOpen (hEnded.mono ((List.suffix_cons _ _).trans hSuffix))
    obtain ⟨actor, event, state⟩ := beginning
    cases event <;> first | rfl | exact absurd rfl hNot | cases hBegins

/-- In every run without such orders, a master that answers is retained, and
one that has answered from the start was adopted. -/
theorem constancy_of_run (hRun : gatewayRun config os choices = some final)
    (hValid : config.settings.validate = .ok ()) (hUnbidden : Unbidden final.world.trace)
    (hHealthy : Healthy final.world.trace) :
    Retained final.world.trace ∧ (Surviving final.world.trace → Adopted final.world.trace) :=
  ⟨retained_of_run hRun hUnbidden hHealthy, adopted_of_run hRun hValid hUnbidden⟩

/-- Two commands and a health check on an adopted master. One command exits
with 255, and the other is given up. -/
def busyDay : List Sample :=
  [execute] ++ resumes 0 5 ++ [execute] ++ resumes 1 2 ++ [.start (.health true), .start (.job 0)] ++
    resumes 3 2 ++ [resume 0 255, cancel 1, resume 3, resume 0]

theorem constancy_busyDay : ∃ final, gatewayRun sample survivor busyDay = some final ∧
    Retained final.world.trace ∧ Adopted final.world.trace := by
  have hRun : (gatewayRun sample survivor busyDay).any (fun final =>
      decide (Unbidden final.world.trace ∧ Surviving final.world.trace)) = true := by decide +kernel
  obtain ⟨final, hFinal, hAnswers⟩ := (Option.any_eq_true _ _).mp hRun
  obtain ⟨hUnbidden, hSurviving⟩ := of_decide_eq_true hAnswers
  obtain ⟨hRetained, hAdopted⟩ := constancy_of_run hFinal (by decide) hUnbidden
    fun entry hEntry _ => hSurviving entry hEntry
  exact ⟨final, hFinal, hRetained, hAdopted hSurviving⟩

end Runs

end Pazuzu.Supervision
