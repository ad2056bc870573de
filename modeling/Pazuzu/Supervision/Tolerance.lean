import Pazuzu.Supervision.Generations

/-! How many ambiguous probes a master survives that still answers locally,
and which probes are counted for it. -/
namespace Pazuzu.Supervision

open Asyncio Supervisor

section Strikes

variable {history : History}

/-- A probe counted against the master, with no probe that came back well and
no new master since. -/
def Standing (history : History) (entry : Record) : Prop :=
  ∃ rest outcome, (entry :: rest) <:+ history ∧ entry.event = .probeCounted outcome ∧ outcome ≠ .ok ∧
    ∀ other earlier, Since (entry :: rest) history other earlier →
      other.event ≠ .probeCounted .ok ∧ other.event ≠ .masterConnected

theorem Standing.cons {entry newest : Record} (h : Standing history entry)
    (hNewest : newest.event ≠ .probeCounted .ok ∧ newest.event ≠ .masterConnected) :
    Standing (newest :: history) entry := by
  obtain ⟨rest, outcome, hSuffix, hEvent, hBad, hSince⟩ := h
  refine ⟨rest, outcome, hSuffix.trans (List.suffix_cons _ _), hEvent, hBad, fun other earlier hOther => ?_⟩
  rcases hOther.split hSuffix (List.suffix_cons _ _) with hOld | hNew
  · exact hSince other earlier hOld
  · obtain ⟨rfl, rfl⟩ := since_cons.mp hNew
    exact hNewest

/-- The strikes can be named, each by its own entry. -/
theorem exists_standing (history : History) : ∃ struck : List Record,
    struck.length = strikes history ∧ struck.Sublist history ∧ ∀ entry ∈ struck, Standing history entry := by
  induction history with
  | nil => exact ⟨[], rfl, List.nil_sublist _, by simp⟩
  | cons newest earlier ih =>
      obtain ⟨struck, hLength, hSublist, hStanding⟩ := ih
      have hNone : strikes (newest :: earlier) = 0 → ∃ struck : List Record,
          struck.length = strikes (newest :: earlier) ∧ struck.Sublist (newest :: earlier) ∧
            ∀ entry ∈ struck, Standing (newest :: earlier) entry := fun hZero =>
        ⟨[], hZero.symm, List.nil_sublist _, by simp⟩
      have hOld : newest.event ≠ .probeCounted .ok ∧ newest.event ≠ .masterConnected →
          ∀ entry ∈ struck, Standing (newest :: earlier) entry := fun hNewest entry hEntry =>
        (hStanding entry hEntry).cons hNewest
      obtain ⟨task, event, state⟩ := newest
      cases event with
      | masterConnected => exact hNone rfl
      | probeCounted outcome =>
          by_cases hGood : outcome = .ok
          · exact hNone (by rw [hGood]; rfl)
          · have hNewest : Event.probeCounted outcome ≠ .probeCounted .ok ∧
                Event.probeCounted outcome ≠ .masterConnected :=
              ⟨fun h => hGood (Event.probeCounted.inj h), fun h => by cases h⟩
            refine ⟨_ :: struck, ?_, hSublist.cons_cons _, fun entry hEntry => ?_⟩
            · cases outcome <;> first | exact absurd rfl hGood | exact congrArg Nat.succ hLength
            · rcases List.mem_cons.mp hEntry with rfl | hIn
              · exact ⟨earlier, outcome, List.suffix_rfl, rfl, hGood, fun _ _ h => absurd h since_self⟩
              · exact hOld hNewest entry hIn
      | _ => exact ⟨struck, hLength, hSublist.cons _, hOld ⟨fun h => (by cases h), fun h => (by cases h)⟩⟩

theorem pairwise_of_suffix {R : Record → Record → Prop}
    (h : ∀ entry rest, (entry :: rest) <:+ history → ∀ other ∈ rest, R entry other) :
    history.Pairwise R := by
  induction history with
  | nil => exact List.Pairwise.nil
  | cons newest earlier ih =>
      exact List.pairwise_cons.mpr ⟨h newest earlier List.suffix_rfl, ih fun entry rest hSuffix =>
        h entry rest (hSuffix.trans (List.suffix_cons _ _))⟩

/-- The probes counted belong to as many tasks. -/
theorem nodup_of_once {struck : List Record} (hSublist : struck.Sublist history)
    (hCount : ∀ entry ∈ struck, entry.event.isCount = true)
    (hOnce : ∀ entry rest, (entry :: rest) <:+ history → entry.event.isCount = true →
      ∀ other ∈ rest, other.event.isCount = true → other.task ≠ entry.task) :
    (struck.map Entry.task).Nodup := by
  have hAll : history.Pairwise fun entry other => entry.event.isCount = true →
      other.event.isCount = true → entry.task ≠ other.task :=
    pairwise_of_suffix fun entry rest hSuffix other hOther hEntry hIs =>
      (hOnce entry rest hSuffix hEntry other hOther hIs).symm
  refine List.pairwise_map.mpr ((hAll.sublist hSublist).imp_of_mem fun hEntry hOther hApart => ?_)
  exact hApart (hCount _ hEntry) (hCount _ hOther)

/-- Without a new master, as many have been connected as before. -/
theorem connections_eq_of_since {old new : History} (hSuffix : old <:+ new)
    (h : ∀ entry rest, Since old new entry rest → entry.event ≠ .masterConnected) :
    connections new = connections old := by
  obtain ⟨stretch, rfl⟩ := hSuffix
  induction stretch with
  | nil => rfl
  | cons newest earlier ih =>
      have hNewest := h newest (earlier ++ old) ⟨List.suffix_rfl, List.suffix_append _ _⟩
      have hEarlier := ih fun entry rest hSince => h entry rest (hSince.extend (List.suffix_cons _ _))
      obtain ⟨task, event, state⟩ := newest
      cases event <;> first | exact hEarlier | exact absurd rfl hNewest

/-- No attempt has begun since as many had. -/
theorem beginsAttempt_of_attempts {old new : History} (hSame : attempts old = attempts new)
    {entry : Record} {rest : History} (hSince : Since old new entry rest) :
    entry.event.beginsAttempt = false := by
  have hHigh := attempts_mono hSince.1
  have hLow := attempts_mono hSince.2
  cases hBegins : entry.event.beginsAttempt with
  | false => rfl
  | true =>
      rw [attempts, if_pos hBegins] at hHigh
      omega

end Strikes

section Runs

variable {config : Config} {os : Os} {choices : List (Choice (gateway config))}
  {final : Loop (gateway config)}

/-- The task of a probe began so, and the probe ended so since. -/
def ProbedSince (entry beginning : Record) (before rest : History) (outcome : ProbeOutcome) : Prop :=
  (beginning :: before) <:+ rest ∧ beginning.task = entry.task ∧
    (∃ id, beginning.event = .called (.job id)) ∧ ProbeSays entry.task outcome (beginning :: before) rest

/-- What the count of failed probes and the last probe go by: each task counts
once, and what it counts is a probe that no attempt has overlapped. -/
structure Accounted (w : GatewayWorld) : Prop where
  failures : w.state.sup.probeFailures = strikes w.trace
  last : w.state.sup.lastProbe = lastCounted w.trace
  once : ∀ entry rest, (entry :: rest) <:+ w.trace → entry.event.isCount = true →
    ∀ other ∈ rest, other.event.isCount = true → other.task ≠ entry.task
  apart : ∀ entry rest outcome, (entry :: rest) <:+ w.trace → entry.event = .probeCounted outcome →
    ∃ beginning before, ProbedSince entry beginning before rest outcome ∧ attempting before = false ∧
      ∀ other earlier, Since (beginning :: before) rest other earlier → other.event.beginsAttempt = false

/-- The task was created for a probe after the master of this generation was
connected. -/
def BegunUnder (generation : Nat) (history : History) (entry : Record) : Prop :=
  ∃ beginning before, (beginning :: before) <:+ history ∧ beginning.task = entry.task ∧
    (∃ id, beginning.event = .called (.job id)) ∧
    ∃ connection ∈ before, connection.event = .masterConnected ∧
      connection.state.sup.generation = generation

/-- As many distinct probes of the generation as are tolerated have counted
against its master, and none has come back well since. -/
def ThresholdReached (config : Config) (generation : Nat) (history : History) : Prop :=
  ∃ struck : List Record, config.settings.probeFailures ≤ struck.length ∧
    (struck.map Entry.task).Nodup ∧
    ∀ entry ∈ struck, Standing history entry ∧ BegunUnder generation history entry

/-- The last mark of its check before the decision: what its probe has said. -/
def AskedLast (decision asked : Record) (earlier rest : History) (outcome : ProbeOutcome) : Prop :=
  (asked :: earlier) <:+ rest ∧ asked.task = decision.task ∧ asked.event = .checkProbed outcome ∧
    Silent decision.task (asked :: earlier) rest

/-- A check has one last mark. -/
theorem AskedLast.unique {decision asked asked' : Record} {earlier earlier' rest : History}
    {outcome outcome' : ProbeOutcome} (h : AskedLast decision asked earlier rest outcome)
    (h' : AskedLast decision asked' earlier' rest outcome') : asked :: earlier = asked' :: earlier' := by
  have hNot : ∀ {first second : Record} {older older' : History} {said : ProbeOutcome},
      (first :: older) <:+ older' → (second :: older') <:+ rest → second.task = decision.task →
      second.event = .checkProbed said → ¬Silent decision.task (first :: older) rest := by
    intro first second older older' said hOlder hSuffix hTask hEvent hSilent
    have hAsks := hSilent second older' ⟨hSuffix, hOlder⟩ hTask
    rw [hEvent] at hAsks
    cases hAsks
  rcases List.suffix_or_suffix_of_suffix h.1 h'.1 with hIn | hIn
  · rcases List.suffix_cons_iff.mp hIn with hEq | hOlder
    · exact hEq
    · exact absurd h.2.2.2 (hNot hOlder h'.1 h'.2.1 h'.2.2.1)
  · rcases List.suffix_cons_iff.mp hIn with hEq | hOlder
    · exact hEq.symm
    · exact absurd h'.2.2.2 (hNot hOlder h.1 h.2.1 h.2.2.1)

theorem accounted_of_run (hRun : gatewayRun config os choices = some final) : Accounted final.world := by
  have hLedger := ledger_of_run hRun
  have hCounted : ∀ entry rest outcome, (entry :: rest) <:+ final.world.trace →
      entry.event = .probeCounted outcome → Warranted config ⟨entry.task, .probeCounted outcome, entry.state⟩ rest := by
    rintro ⟨task, event, state⟩ rest outcome hSuffix rfl
    exact hLedger.warranted _ rest hSuffix
  refine ⟨hLedger.balance.strikes, hLedger.balance.lastProbe, ?_, ?_⟩
  · intro entry rest hSuffix hCount other hOther hIs hTask
    obtain ⟨outcome, hEvent⟩ : ∃ outcome, entry.event = .probeCounted outcome := by
      cases hEvent : entry.event with
      | probeCounted outcome => exact ⟨outcome, rfl⟩
      | _ =>
          rw [hEvent] at hCount
          cases hCount
    rw [(hCounted entry rest outcome hSuffix hEvent).1 other hOther hTask] at hIs
    cases hIs
  · intro entry rest outcome hSuffix hEvent
    obtain ⟨-, beginning, before, hIn, hTask, hJob, hSays, hAttempts, -, hQuiet⟩ :=
      hCounted entry rest outcome hSuffix hEvent
    refine ⟨beginning, before, ⟨hIn, hTask, hJob, hSays⟩, hQuiet, fun other earlier hOther => ?_⟩
    exact beginsAttempt_of_attempts hAttempts (hOther.mono (List.suffix_cons _ _))

/-- A check whose probe was ambiguous, and which has not found the master dead
itself, replaces it only when too many probes have counted against it. -/
theorem threshold_of_decision (hRun : gatewayRun config os choices = some final)
    {decision asked : Record} {rest earlier : History} {generation : Nat} {outcome : ProbeOutcome}
    (hDecision : (decision :: rest) <:+ final.world.trace)
    (hReplaces : decision.event = .checkReplaces generation)
    (hAsked : AskedLast decision asked earlier rest outcome) (hAmbiguous : outcome = .slow ∨ outcome = .busy)
    (hAlive : ¬FoundDead decision.task (asked :: earlier) rest) :
    ThresholdReached config decision.state.sup.generation rest := by
  have hInv := inv_of_run hRun
  have hLedger := ledger_of_run hRun
  have hRest : rest <:+ final.world.trace := (List.suffix_cons _ _).trans hDecision
  have hFails := hLedger.warranted decision rest hDecision
  unfold Warranted at hFails
  rw [hReplaces] at hFails
  obtain ⟨beginning, before, asked', earlier', outcome', hBegan, hAnswered, ⟨-, own, hOwn⟩, ⟨hTask', hEvent'⟩,
    -, hLast, -, -, -, hHard⟩ := hFails
  -- The check's own last mark is the one it decides by.
  obtain ⟨rfl, rfl⟩ := List.cons.inj (hAsked.unique ⟨hAnswered, hTask', hEvent', hLast⟩)
  obtain rfl : outcome = outcome' := Event.checkProbed.inj (hAsked.2.2.1.symm.trans hEvent')
  have hStrikes := (hHard hAmbiguous).resolve_right hAlive
  -- The generation is that of a master that was connected.
  have hBeginning : (beginning :: before) <:+ rest := (hBegan.trans (List.suffix_cons _ _)).trans hAnswered
  have hGeneration : decision.state.sup.generation = connections rest := by
    rw [recorded_generation hInv hLedger hDecision]
    simp [connections, hReplaces]
  have hPositive : 1 ≤ decision.state.sup.generation := by
    have hPermitted := hInv.permitted beginning before (hBeginning.trans hRest)
    unfold Permitted at hPermitted
    rw [hOwn] at hPermitted
    have hLater := (hInv.ordered decision rest hDecision beginning
      (hBeginning.subset List.mem_cons_self)).generation
    exact (hPermitted.1.trans hPermitted.2).trans hLater
  have hAccounted := accounted_of_run hRun
  obtain ⟨struck, hLength, hSublist, hStanding⟩ := exists_standing rest
  have hCount : ∀ entry ∈ struck, entry.event.isCount = true := by
    intro entry hEntry
    obtain ⟨-, outcome, -, hEvent, -⟩ := hStanding entry hEntry
    rw [hEvent]
    rfl
  refine ⟨struck, hStrikes.trans hLength.ge, nodup_of_once hSublist hCount fun entry older hSuffix =>
    hAccounted.once entry older (hSuffix.trans hRest), fun entry hEntry => ⟨hStanding entry hEntry, ?_⟩⟩
  obtain ⟨older, counted, hSuffix, hEvent, -, hSince⟩ := hStanding entry hEntry
  have hWarranted := hLedger.warranted entry older (hSuffix.trans hRest)
  unfold Warranted at hWarranted
  rw [hEvent] at hWarranted
  obtain ⟨-, first, oldest, hFirst, hOwner, hJob, -, -, hConnections, -⟩ := hWarranted
  have hSame : connections rest = connections older := by
    rw [connections_eq_of_since hSuffix fun other between hOther => (hSince other between hOther).2]
    simp [connections, hEvent]
  obtain ⟨connection, between, hConnection, hConnected, hNumber⟩ := exists_connection hPositive
    (show decision.state.sup.generation ≤ connections oldest by omega)
  have hOldest : oldest <:+ final.world.trace :=
    ((((List.suffix_cons _ _).trans hFirst).trans (List.suffix_cons _ _)).trans hSuffix).trans hRest
  refine ⟨first, oldest, (hFirst.trans (List.suffix_cons _ _)).trans hSuffix, hOwner, hJob, connection,
    hConnection.subset List.mem_cons_self, hConnected, ?_⟩
  rw [recorded_generation hInv hLedger (hConnection.trans hOldest), hNumber]

/-- In every run, ambiguous probes are tolerated up to the threshold, each of
them counts once, and none that a repair has overlapped counts at all. -/
theorem tolerance_of_run (hRun : gatewayRun config os choices = some final) :
    Accounted final.world ∧ ∀ decision rest generation, (decision :: rest) <:+ final.world.trace →
      decision.event = .checkReplaces generation → ∀ asked earlier outcome,
      AskedLast decision asked earlier rest outcome → outcome = .slow ∨ outcome = .busy →
      ¬FoundDead decision.task (asked :: earlier) rest →
      ThresholdReached config decision.state.sup.generation rest :=
  ⟨accounted_of_run hRun, fun _ _ _ hDecision hReplaces _ _ _ hAsked hAmbiguous hAlive =>
    threshold_of_decision hRun hDecision hReplaces hAsked hAmbiguous hAlive⟩

/-- A command loses its channel, and the probe that follows is slow. -/
def slowCommand (task job rounds : Nat) : List Sample :=
  [execute] ++ resumes task rounds ++ [resume task 255, .start (.job job)] ++ resumes (task + 1) 2 ++
    [.disturb (.tick 30), late (task + 1), resume task 0 .slow]

/-- Two of them are tolerated, and the third has the master replaced. -/
def slowCommands : List Sample :=
  slowCommand 0 0 5 ++ resumes 0 2 ++ slowCommand 2 1 3 ++ resumes 2 2 ++ slowCommand 4 2 3

/-- Two entries ago a check has decided, right after it was told of a slow probe. -/
def decidesSlow : History → Bool
  | _ :: _ :: decision :: asked :: _ =>
      match decision.event, asked.event with
      | .checkReplaces _, .checkProbed .slow => asked.task = decision.task
      | _, _ => false
  | _ => false

theorem tolerance_slowCommands : ∃ final, gatewayRun sample survivor slowCommands = some final ∧
    Accounted final.world ∧ ∃ decision rest, (decision :: rest) <:+ final.world.trace ∧
      ThresholdReached sample decision.state.sup.generation rest := by
  have hRun : (gatewayRun sample survivor slowCommands).any
      (fun final => decidesSlow final.world.trace) = true := by decide +kernel
  obtain ⟨final, hFinal, hSlow⟩ := (Option.any_eq_true _ _).mp hRun
  obtain ⟨hAccounted, hTolerance⟩ := tolerance_of_run hFinal
  refine ⟨final, hFinal, hAccounted, ?_⟩
  generalize final.world.trace = trace at hSlow hTolerance
  unfold decidesSlow at hSlow
  split at hSlow
  · next newest next decision asked earlier =>
      have hSuffix : (decision :: asked :: earlier) <:+ newest :: next :: decision :: asked :: earlier :=
        List.suffix_append [newest, next] _
      split at hSlow
      · next hReplaces hProbed =>
          refine ⟨decision, asked :: earlier, hSuffix, hTolerance _ _ _ hSuffix hReplaces asked earlier .slow
            ⟨List.suffix_rfl, of_decide_eq_true hSlow, hProbed, fun _ _ h => absurd h since_self⟩
            (Or.inl rfl) ?_⟩
          rintro ⟨_, _, hSince, -⟩
          exact since_self hSince
      · cases hSlow
  · cases hSlow

end Runs

end Pazuzu.Supervision
