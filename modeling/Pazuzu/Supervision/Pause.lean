import Pazuzu.Supervision.Bookkeeping
import Pazuzu.Supervision.Confirmation
import Pazuzu.Supervision.Rounds

/-! Whether maintenance leaves the connection alone after an authentication
failure, until a client asks for it or another master is connected. -/
namespace Pazuzu.Supervision

open Asyncio Supervisor

variable {config : Config} {history : History}

/-- An authentication failure is outstanding. -/
def paused : History → Bool
  | [] => false
  | entry :: rest =>
      match entry.event with
      | .masterConnected | .called (.reconnect _) => false
      | .failureRecorded | .backoffOverflowed =>
          entry.state.sup.state = .authenticationRequired || paused rest
      | _ => paused rest

/-- Maintenance starts no master while an authentication failure is outstanding. -/
def Rests (history : History) : Prop :=
  ∀ entry rest, (entry :: rest) <:+ history → entry.event = .startMasterCalled →
    Maintains entry.task history → paused rest = false

/-- No authentication failure falls between the task's last look and now, and
one that was outstanding at the look was to be seen in the state there. -/
def Heeded (task : Nat) (history : History) : Prop :=
  paused (sinceLook task history) = false ∧
    (paused (fromLook task history) = true → ∀ look ∈ lastLook task history,
      look.state.sup.state = .authenticationRequired)

instance (task : Nat) (history : History) : Decidable (Heeded task history) := inferInstanceAs (Decidable (_ ∧ _))

/-- Whenever maintenance goes on to a repair in `_connect`, and not after its
own `_check`, no failure has fallen where it could not heed it. -/
def HeedsFailures (history : History) : Prop :=
  ∀ entry rest, (entry :: rest) <:+ history → entry.event = .repairBegan →
    Maintains entry.task history → ¬FromCheck entry.task rest → Heeded entry.task rest

/-- What is outstanding has been left by the newer part or by the older one. -/
theorem paused_append {newer older : History} (h : paused (newer ++ older) = true) :
    paused newer = true ∨ paused older = true := by
  induction newer with
  | nil => exact Or.inr h
  | cons newest earlier ih =>
      obtain ⟨task, event, state⟩ := newest
      cases event with
      | masterConnected => cases h
      | failureRecorded | backoffOverflowed =>
          rcases Bool.or_eq_true_iff.mp h with hNow | hBefore
          · exact Or.inl (Bool.or_eq_true_iff.mpr (Or.inl hNow))
          · exact (ih hBefore).imp_left fun hNewer => Bool.or_eq_true_iff.mpr (Or.inr hNewer)
      | called op => cases op <;> first | exact ih h | cases h
      | _ => exact ih h

theorem failed_of_paused (h : paused history = true) : 1 ≤ consecutiveFailures history := by
  induction history with
  | nil => cases h
  | cons newest earlier ih =>
      obtain ⟨task, event, state⟩ := newest
      cases event with
      | masterConnected => cases h
      | failureRecorded | backoffOverflowed => exact Nat.le_add_left _ _
      | called op => cases op <;> first | exact ih h | cases h
      | _ => exact ih h

/-- Without a repair event, a pause that there is was there before. -/
theorem paused_of_since {old new : History} (hSuffix : old <:+ new)
    (hPlain : ∀ entry rest, Since old new entry rest → entry.event.isRepair = false)
    (h : paused new = true) : paused old = true := by
  obtain ⟨stretch, rfl⟩ := hSuffix
  induction stretch with
  | nil => exact h
  | cons newest earlier ih =>
      have hNewest := hPlain newest (earlier ++ old) ⟨List.suffix_rfl, List.suffix_append _ _⟩
      have hEarlier := ih fun entry rest hSince => hPlain entry rest (hSince.extend (List.suffix_cons _ _))
      obtain ⟨task, event, state⟩ := newest
      cases event with
      | masterConnected | failureRecorded | backoffOverflowed => cases hNewest
      | called op => cases op <;> first | exact hEarlier h | cases h
      | _ => exact hEarlier h

/-- Where nobody repairs and none begins to, no failure is recorded. -/
theorem unfailed_since {old new : History} (hSuffix : old <:+ new)
    (hOld : consecutiveFailures old = 0 ∧ repairing old = false)
    (hBegins : ∀ entry rest, Since old new entry rest → entry.event.beginsRepair = false)
    (hFails : ∀ entry rest, (entry :: rest) <:+ new → entry.event.isFailure = true →
      repairer rest = some entry.task) :
    consecutiveFailures new = 0 ∧ repairing new = false := by
  obtain ⟨stretch, rfl⟩ := hSuffix
  induction stretch with
  | nil => exact hOld
  | cons newest earlier ih =>
      have hNewest := hBegins newest (earlier ++ old) ⟨List.suffix_rfl, List.suffix_append _ _⟩
      have hFailure := hFails newest (earlier ++ old) List.suffix_rfl
      obtain ⟨hNone, hIdle⟩ := ih (fun entry rest hSince => hBegins entry rest (hSince.extend (List.suffix_cons _ _)))
        fun entry rest hIn => hFails entry rest (hIn.trans (List.suffix_cons _ _))
      have hNobody : repairer (earlier ++ old) ≠ some newest.task := fun hBusy => by
        rw [repairing_eq_isSome, hBusy] at hIdle
        cases hIdle
      obtain ⟨task, event, state⟩ := newest
      cases event with
      | repairBegan => cases hNewest
      | failureRecorded | backoffOverflowed => exact absurd (hFailure rfl) hNobody
      | masterConnected => exact ⟨rfl, rfl⟩
      | repairAborted => exact ⟨hNone, rfl⟩
      | _ => exact ⟨hNone, hIdle⟩

section Runs

variable {os : Os} {choices : List (Choice (gateway config))} {final : Loop (gateway config)}

/-- A task is called once. -/
theorem called_once {w : GatewayWorld} (hLedger : Ledger config w) {call other : Record} {op op' : Op}
    (hCall : call ∈ w.trace) (hOther : other ∈ w.trace) (hTask : call.task = other.task)
    (hEvent : call.event = .called op) (hEvent' : other.event = .called op') : call = other := by
  have hNot : ∀ {first second : Record} {older older' : History} {called called' : Op},
      (first :: older) <:+ older' → (second :: older') <:+ w.trace → first.task = second.task →
      first.event = .called called → second.event ≠ .called called' := by
    intro first second older older' called called' hOlder hSuffix hSame hFirst hSecond
    have hWarranted := hLedger.warranted second older' hSuffix
    unfold Warranted at hWarranted
    rw [hSecond] at hWarranted
    have hSingle := hWarranted first (hOlder.subset List.mem_cons_self) hSame
    rw [hFirst] at hSingle
    cases hSingle
  obtain ⟨rest, hSuffix⟩ := exists_suffix_of_mem hCall
  obtain ⟨rest', hSuffix'⟩ := exists_suffix_of_mem hOther
  rcases List.suffix_or_suffix_of_suffix hSuffix hSuffix' with hIn | hIn
  · rcases List.suffix_cons_iff.mp hIn with hEq | hOlder
    · exact (List.cons.inj hEq).1
    · exact absurd hEvent' (hNot hOlder hSuffix' hTask hEvent)
  · rcases List.suffix_cons_iff.mp hIn with hEq | hOlder
    · exact (List.cons.inj hEq).1.symm
    · exact absurd hEvent (hNot hOlder hSuffix hTask.symm hEvent')

theorem call_unique {w : GatewayWorld} (hLedger : Ledger config w) {call other : Record} {op op' : Op}
    (hCall : call ∈ w.trace) (hOther : other ∈ w.trace) (hTask : call.task = other.task)
    (hEvent : call.event = .called op) (hEvent' : other.event = .called op') : op = op' := by
  obtain rfl := called_once hLedger hCall hOther hTask hEvent hEvent'
  exact Event.called.inj (hEvent.symm.trans hEvent')

/-- The tasks of maintenance make their rounds in good order. -/
theorem regular_of_run (hRun : gatewayRun config os choices = some final) {entry : Record} {rest : History}
    (hEntry : (entry :: rest) <:+ final.world.trace) (hTurns : entry.event.isRound = true)
    (hMaintains : Maintains entry.task final.world.trace) : Regular entry rest := by
  obtain ⟨call, hFirst, hRegular⟩ := (rounded_of_run hRun).of_suffix hEntry hTurns
  obtain ⟨mine, hMine, hOwner, hKind⟩ := hMaintains
  obtain ⟨id, hJob⟩ := called_of_callsMaintenance hKind
  obtain ⟨hCall, hCaller, op, hCalled⟩ := mem_of_firstCall hFirst
  have hIn : call ∈ final.world.trace := hEntry.subset (List.mem_cons_of_mem _ hCall)
  obtain rfl := called_once (ledger_of_run hRun) hIn hMine (hCaller.trans hOwner.symm) hCalled hJob
  exact hRegular hKind

/-- Maintenance repairs after a look at a state that requires no authentication. -/
theorem looked_of_run (hRun : gatewayRun config os choices = some final) {entry : Record} {rest : History}
    (hEntry : (entry :: rest) <:+ final.world.trace) (hBegan : entry.event = .repairBegan)
    (hMaintains : Maintains entry.task final.world.trace) :
    ∃ look, lastLook entry.task rest = some look ∧ look.state.sup.state ≠ .authenticationRequired := by
  have hRepairs := regular_of_run hRun hEntry (by rw [hBegan]; rfl) hMaintains
  unfold Regular at hRepairs
  rw [hBegan] at hRepairs
  obtain ⟨look, hLook⟩ := hRepairs
  obtain ⟨hIn, hTask, hWaits⟩ := mem_of_lastLook hLook
  obtain ⟨before, hBefore⟩ := exists_suffix_of_mem hIn
  have hSuffix : (look :: before) <:+ final.world.trace := (hBefore.trans (List.suffix_cons _ _)).trans hEntry
  have hLooks := regular_of_run hRun hSuffix (by rw [hWaits]; rfl) (hTask ▸ hMaintains)
  unfold Regular at hLooks
  rw [hWaits] at hLooks
  exact ⟨look, hLook, hLooks⟩

/-- A check of maintenance that replaces the master began on a connection, and
nothing has failed since. -/
theorem awake_of_check (hRun : gatewayRun config os choices = some final) {decision : Record}
    {rest : History} {generation : Nat} (hDecision : (decision :: rest) <:+ final.world.trace)
    (hReplaces : decision.event = .checkReplaces generation)
    (hMaintains : Maintains decision.task final.world.trace) : paused (decision :: rest) = false := by
  have hInv := inv_of_run hRun
  have hLedger := ledger_of_run hRun
  have hRest : rest <:+ final.world.trace := (List.suffix_cons _ _).trans hDecision
  have hFails := hLedger.warranted decision rest hDecision
  unfold Warranted at hFails
  rw [hReplaces] at hFails
  obtain ⟨beginning, before, asked, earlier, outcome, hBegan, hAsked, ⟨hTask, number, hChecks⟩, -, -, -, hEpoch, -⟩ :=
    hFails
  have hBeginning : (beginning :: before) <:+ rest := (hBegan.trans (List.suffix_cons _ _)).trans hAsked
  have hCheck := hLedger.warranted beginning before (hBeginning.trans hRest)
  unfold Warranted at hCheck
  rw [hChecks] at hCheck
  obtain ⟨⟨call, hCall, hCaller, op, hCalled, hConnected⟩, hSettled⟩ := hCheck
  -- Maintenance checks what was connected when the check began.
  obtain ⟨mine, hMine, hOwner, hKind⟩ := hMaintains
  obtain ⟨id, hJob⟩ := called_of_callsMaintenance hKind
  have hOp := call_unique hLedger ((((List.suffix_cons _ _).trans hBeginning).trans hRest).subset hCall)
    hMine (hCaller.trans (hTask.trans hOwner.symm)) hCalled hJob
  have hOld := hSettled (hConnected ⟨id, hOp⟩)
  have hBegins : ∀ other older, Since (beginning :: before) rest other older → other.event.beginsRepair = false :=
    fun other older hOther => no_repair_of_epoch hInv hDecision hEpoch hOther
  have hNone := unfailed_since hBeginning (by simpa [consecutiveFailures, repairing, hChecks, Event.isRepair,
    Event.endsRepair] using hOld) hBegins fun entry older hIn hFailure => by
      have hWarranted := hLedger.warranted entry older (hIn.trans hRest)
      obtain ⟨actor, event, state⟩ := entry
      cases event <;> first | exact hWarranted | cases hFailure
  by_contra hPaused
  have hFailed := failed_of_paused (show paused rest = true by simpa [paused, hReplaces] using hPaused)
  omega

/-- In every run where no failure falls between a look of maintenance and the
repair in `_connect` that comes of it, maintenance rests while an authentication
failure is outstanding. -/
theorem rests_of_run (hRun : gatewayRun config os choices = some final)
    (hHeeds : HeedsFailures final.world.trace) : Rests final.world.trace := by
  intro entry rest hEntry hStart hMaintains
  have hLedger := ledger_of_run hRun
  have hRest : rest <:+ final.world.trace := (List.suffix_cons _ _).trans hEntry
  have hRepairs := hLedger.warranted entry rest hEntry
  unfold Warranted at hRepairs
  rw [hStart] at hRepairs
  obtain ⟨beginning, before, hIn, hTask, hBegan, hPlain⟩ := repair_of_repairer hRepairs
  by_contra hPaused
  have hEarlier := paused_of_since hIn hPlain (by simpa using hPaused)
  have hBefore : paused before = true := by simpa [paused, hBegan] using hEarlier
  have hHistory : before <:+ final.world.trace := ((List.suffix_cons _ _).trans hIn).trans hRest
  have hMaintains' : Maintains beginning.task final.world.trace := hTask ▸ hMaintains
  by_cases hCheck : FromCheck beginning.task before
  · cases before with
    | nil => cases hCheck
    | cons decision older =>
        obtain ⟨hOwn, generation, hReplaces⟩ := hCheck
        rw [awake_of_check hRun hHistory hReplaces (hOwn ▸ hMaintains')] at hBefore
        cases hBefore
  · obtain ⟨hSince, hSeen⟩ := hHeeds beginning before (hIn.trans hRest) hBegan hMaintains' hCheck
    obtain ⟨look, hLook, hQuiet⟩ := looked_of_run hRun (hIn.trans hRest) hBegan hMaintains'
    rw [← List.takeWhile_append_dropWhile (p := fun entry : Record =>
      ¬(entry.task = beginning.task ∧ entry.event.isLook)) (l := before)] at hBefore
    rcases paused_append hBefore with hLater | hEarlier
    · rw [show paused (sinceLook beginning.task before) = true from hLater] at hSince
      cases hSince
    · exact hQuiet (hSeen hEarlier look hLook)

/-- Maintenance finds no master, and the one it starts is refused its login. -/
def refusedItself : List Sample :=
  [.start .start, .start (.job 0), resume 1, late 1, resume 1, .disturb (.masterLogs "Permission denied (publickey)."),
    .disturb (.masterExits 9), .disturb (.tick 1), resume 1]

/-- It has started one master, and none since the failure. -/
theorem rests_refusedItself : ∃ final, gatewayRun sample {} refusedItself = some final ∧
    paused final.world.trace = true ∧ Maintains 1 final.world.trace ∧
    (∃ entry ∈ final.world.trace, entry.task = 1 ∧ entry.event.isFailure = true) ∧ Rests final.world.trace := by
  have hRun : (gatewayRun sample {} refusedItself).any (fun final =>
      decide (paused final.world.trace = true ∧ Maintains 1 final.world.trace ∧
        (∃ entry ∈ final.world.trace, entry.task = 1 ∧ entry.event.isFailure = true) ∧
        Always (fun entry rest => entry.event.beginsRepair = true → Heeded entry.task rest) final.world.trace)) = true := by
    decide +kernel
  obtain ⟨final, hFinal, hAll⟩ := (Option.any_eq_true _ _).mp hRun
  obtain ⟨hPaused, hMaintains, hFails, hHeeds⟩ := of_decide_eq_true hAll
  exact ⟨final, hFinal, hPaused, hMaintains, hFails, rests_of_run hFinal fun entry rest hEntry hBegan _ _ =>
    hHeeds.of_suffix hEntry (by rw [hBegan]; rfl)⟩

/-- A command finds its connection lost. The new master exits before it answers,
and its log says why. -/
def refusedLogin (task job : Nat) : List Sample :=
  [execute] ++ resumes task 3 ++ [resume task 255, .start (.job job)] ++ resumes (task + 1) 2 ++
    [resume (task + 1) 1, resume task 0 .failed, resume task, resume task 255, resume task,
      .disturb (.masterLogs "Permission denied (publickey)."), .disturb (.masterExits 9),
      .disturb (.tick 1), resume task]

/-- The login is refused while maintenance waits out a probe interval. -/
def refusedMeanwhile : List Sample :=
  [.start .start, .start (.job 0), resume 1, late 1] ++ resumes 1 4 ++ refusedLogin 2 1

/-- The newest entry is a master that maintenance starts during a pause. -/
def startsPaused : History → Bool
  | [] => false
  | entry :: rest =>
      match entry.event with
      | .startMasterCalled => paused rest && decide (Maintains entry.task (entry :: rest))
      | _ => false

/-- When its wait is over, maintenance starts a master all the same. -/
theorem not_rests : ¬∀ (config : Config) (os : Os) (choices : List (Choice (gateway config)))
    (final : Loop (gateway config)),
    gatewayRun config os choices = some final → Rests final.world.trace := by
  intro hClaim
  have hRun : (gatewayRun sample survivor (refusedMeanwhile ++ [.disturb (.tick 60), late 1])).any
      (fun final => startsPaused final.world.trace) = true := by decide +kernel
  obtain ⟨final, hFinal, hStarts⟩ := (Option.any_eq_true _ _).mp hRun
  have hRests := hClaim sample survivor _ final hFinal
  generalize final.world.trace = trace at hStarts hRests
  unfold startsPaused at hStarts
  split at hStarts
  · cases hStarts
  · next entry rest =>
      split at hStarts
      · next hStart =>
          obtain ⟨hPaused, hMaintains⟩ := Bool.and_eq_true_iff.mp hStarts
          rw [hRests entry rest List.suffix_rfl hStart (of_decide_eq_true hMaintains)] at hPaused
          cases hPaused
      · cases hStarts

end Runs

end Pazuzu.Supervision
