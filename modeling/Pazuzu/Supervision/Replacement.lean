import Pazuzu.Supervision.Runs

/-! A lost master is replaced once, whoever notices. A check that begins in
time never touches a newer master than its own. -/
namespace Pazuzu.Supervision

open Asyncio

/-- A check for this generation has called for a replacement, and that very
repair connects a master here. -/
def Replacement (generation : Nat) (entry : Record) (before : History) : Prop :=
  entry.event = .masterConnected ∧ ∃ call rest, (call :: rest) <:+ before ∧
    call.task = entry.task ∧ call.event = .checkReplaces generation ∧
    ∀ other earlier, Since (call :: rest) before other earlier → other.event.endsRepair = false

/-- What the checks for one generation do over a whole run: none replaces a
newer master that is connected, each that answers accepts a newer one, none
fails while a master is connected, and only one replacement succeeds. -/
structure ReplacedOnce (generation : Nat) (history : History) : Prop where
  kept : ∀ entry ∈ history, entry.event = .checkReplaces generation →
    (core entry.state).connection = .connected → (core entry.state).generation ≤ generation
  accepted : ∀ entry ∈ history, ∀ verdict, entry.event = .checkAnswered generation verdict →
    generation < (core entry.state).generation → verdict = .replaced
  refused : ∀ entry ∈ history, ∀ message,
    entry.event = .checkRaised generation (.connectionUnavailable message) →
    (core entry.state).connection ≠ .connected
  once : ∀ entry before entry' before', (entry :: before) <:+ history →
    (entry' :: before') <:+ history → Replacement generation entry before →
    Replacement generation entry' before' → entry :: before = entry' :: before'

/-- A check for this generation that begins here begins in time. -/
def BeginsTimely (generation : Nat) (entry : Record) (before : History) : Prop :=
  match entry.event with
  | .checkBegan checked => checked = generation → Timely generation entry before
  | _ => True

instance (generation : Nat) (entry : Record) (before : History) :
    Decidable (BeginsTimely generation entry before) := by
  unfold BeginsTimely Timely
  split <;> infer_instance

section Invariant

variable {w : GatewayWorld} {generation : Nat}

/-- A timely check calls for the replacement of its own master only. -/
theorem own_of_timely (hInv : Inv w) (hTimely : Always (BeginsTimely generation) w.trace)
    {entry : Record} {rest : History} (hSuffix : (entry :: rest) <:+ w.trace)
    (hEvent : entry.event = .checkReplaces generation) :
    (core entry.state).generation = generation := by
  have hPermitted := hInv.permitted entry rest hSuffix
  unfold Permitted at hPermitted
  rw [hEvent] at hPermitted
  refine hPermitted.resolve_right ?_
  rintro ⟨start, before, hStart, -, hBegan, hNot⟩
  have hBegins := hTimely.of_suffix ((hStart.trans (List.suffix_cons _ _)).trans hSuffix)
  unfold BeginsTimely at hBegins
  rw [hBegan] at hBegins
  exact hNot (hBegins rfl)

/-- Once a replacement has connected a master, no other one is called for. -/
theorem no_second_replacement (hInv : Inv w) (hTimely : Always (BeginsTimely generation) w.trace)
    {entry entry' : Record} {before before' : History} (hFirst : (entry :: before) <:+ before')
    (hSuffix : (entry' :: before') <:+ w.trace) (hEntry : Replacement generation entry before)
    (hEntry' : Replacement generation entry' before') : False := by
  obtain ⟨hConnected, call, rest, hCall, -, hEvent, -⟩ := hEntry
  obtain ⟨-, call', rest', hCall', -, hEvent', hRunning⟩ := hEntry'
  have hBefore' : before' <:+ w.trace := (List.suffix_cons _ _).trans hSuffix
  -- The second repair was called for after the first had connected its master.
  have hLater : (entry :: before) <:+ rest' := by
    rcases List.suffix_or_suffix_of_suffix hFirst hCall' with hIn | hIn
    · rcases List.suffix_cons_iff.mp hIn with hEq | hIn
      · obtain ⟨rfl, -⟩ := List.cons.inj hEq
        rw [hConnected] at hEvent'
        cases hEvent'
      · exact hIn
    · rcases List.suffix_cons_iff.mp hIn with hEq | hIn
      · obtain ⟨rfl, -⟩ := List.cons.inj hEq
        rw [hConnected] at hEvent'
        cases hEvent'
      · have hEnds := hRunning entry before ⟨hFirst, hIn⟩
        rw [hConnected] at hEnds
        cases hEnds
  have hOwn := own_of_timely hInv hTimely
    (((hCall.trans (List.suffix_cons _ _)).trans hFirst).trans hBefore') hEvent
  have hOwn' := own_of_timely hInv hTimely (hCall'.trans hBefore') hEvent'
  have hNewer : generation < (core entry.state).generation := by
    have hPermitted := hInv.permitted entry before (hFirst.trans hBefore')
    unfold Permitted at hPermitted
    rw [hConnected] at hPermitted
    exact hOwn ▸ hPermitted.2 call (hCall.subset List.mem_cons_self)
  have hOrder := (hInv.ordered call' rest' (hCall'.trans hBefore') entry
    (hLater.subset List.mem_cons_self)).generation
  omega

end Invariant

/-- In every run, a generation whose checks all begin in time is replaced once. -/
theorem replacedOnce_of_run {config : Config} {os : Os} {choices : List (Choice (gateway config))}
    {final : Loop (gateway config)} (hRun : gatewayRun config os choices = some final)
    (generation : Nat) (hTimely : Always (BeginsTimely generation) final.world.trace) :
    ReplacedOnce generation final.world.trace := by
  have hInv := inv_of_run hRun
  refine ⟨?_, ?_, ?_, ?_⟩
  · intro entry hEntry hEvent _
    obtain ⟨rest, hSuffix⟩ := exists_suffix_of_mem hEntry
    exact (own_of_timely hInv hTimely hSuffix hEvent).le
  · intro entry hEntry verdict hEvent hNewer
    obtain ⟨rest, -, hPermitted⟩ := hInv.permitted_of_mem hEntry
    unfold Permitted at hPermitted
    rw [hEvent] at hPermitted
    by_contra hVerdict
    exact absurd (hPermitted.2 hVerdict) hNewer.ne'
  · intro entry hEntry message hEvent
    obtain ⟨rest, -, hPermitted⟩ := hInv.permitted_of_mem hEntry
    unfold Permitted at hPermitted
    rw [hEvent] at hPermitted
    exact (hPermitted.1 rfl).1
  · intro entry before entry' before' hSuffix hSuffix' hEntry hEntry'
    rcases List.suffix_or_suffix_of_suffix hSuffix hSuffix' with hIn | hIn
    · rcases List.suffix_cons_iff.mp hIn with hEq | hIn
      · exact hEq
      · exact (no_second_replacement hInv hTimely hIn hSuffix' hEntry hEntry').elim
    · rcases List.suffix_cons_iff.mp hIn with hEq | hIn
      · exact hEq.symm
      · exact (no_second_replacement hInv hTimely hIn hSuffix hEntry' hEntry).elim

/-- Whether a check of this generation begins here. -/
def beginsCheck (generation : Nat) : Event → Bool
  | .checkBegan checked => checked = generation
  | _ => false

/-- The task has begun a check of this generation. -/
def HasChecked (task generation : Nat) (history : History) : Prop :=
  ∃ entry ∈ history, entry.task = task ∧ beginsCheck generation entry.event = true

instance (task generation : Nat) (history : History) : Decidable (HasChecked task generation history) :=
  inferInstanceAs (Decidable (∃ entry ∈ history, entry.task = task ∧ beginsCheck generation entry.event = true))

/-- Two commands share a master and lose it together. Both checks begin on it and
share one probe, and the first has it replaced. -/
def sharedChecks : List Sample :=
  [execute] ++ resumes 0 5 ++ [execute] ++ resumes 1 3 ++ [resume 0 255, .start (.job 0), resume 1 255] ++
    resumes 2 2 ++ [resume 2 1, resume 0 0 .failed, resume 1 0 .failed, resume 0, resume 0 255]

theorem replacedOnce_sharedLoss :
    ∃ final, gatewayRun sample survivor (sharedChecks ++ recovery ++ [resume 1]) = some final ∧
      HasChecked 0 1 final.world.trace ∧ HasChecked 1 1 final.world.trace ∧ ReplacedOnce 1 final.world.trace := by
  have hRun : (gatewayRun sample survivor (sharedChecks ++ recovery ++ [resume 1])).any (fun final =>
      decide (HasChecked 0 1 final.world.trace ∧ HasChecked 1 1 final.world.trace ∧
        Always (BeginsTimely 1) final.world.trace)) = true := by decide +kernel
  obtain ⟨final, hFinal, hBoth⟩ := (Option.any_eq_true _ _).mp hRun
  obtain ⟨hFirst, hSecond, hTimely⟩ := of_decide_eq_true hBoth
  exact ⟨final, hFinal, hFirst, hSecond, replacedOnce_of_run hFinal 1 hTimely⟩

/-- Two commands share a master. The first loses it and has it replaced. -/
def sharedLoss : List Sample :=
  [execute] ++ resumes 0 5 ++ [execute] ++ resumes 1 3 ++ [resume 0 255, .start (.job 0)] ++
    resumes 2 2 ++ [resume 2 1, resume 0 0 .failed, resume 0, resume 0 255]

/-- The second command's exit 255 arrives while the repair is running. Its
check then replaces the master that the repair has just connected. -/
theorem replaced_twice : ¬∀ (config : Config) (os : Os) (choices : List (Choice (gateway config)))
    (final : Loop (gateway config)), gatewayRun config os choices = some final →
    ∀ generation, ReplacedOnce generation final.world.trace := by
  intro hClaim
  have hRun : (gatewayRun sample survivor (sharedLoss ++ [resume 1 255] ++ recovery ++ [resume 1])).any
      (fun final => final.world.trace.any fun entry => match entry.event with
        | .checkReplaces 1 => (core entry.state).generation = 2 ∧ (core entry.state).connection = .connected
        | _ => false) = true := by decide +kernel
  obtain ⟨final, hFinal, hAny⟩ := (Option.any_eq_true _ _).mp hRun
  obtain ⟨entry, hEntry, hFound⟩ := List.any_eq_true.mp hAny
  split at hFound
  · next hEvent =>
      obtain ⟨hGeneration, hConnected⟩ := of_decide_eq_true hFound
      have hKept := (hClaim sample survivor _ final hFinal 1).kept entry hEntry hEvent hConnected
      omega
  · cases hFound

end Pazuzu.Supervision
