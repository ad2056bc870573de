import Pazuzu.Slurm

/-! Status lines: which line of an output the parsers take, and what they make
of it. -/
namespace Pazuzu.Slurm

open Python

variable {jobId id line text : Word} {lines : List Word}

section Lines

/-- The first line that tells something is the one that counts. -/
def Finds (tells : Word → Status → Prop) (lines : List Word) : Option Status → Prop
  | none => ∀ line ∈ lines, ∀ status, ¬tells line status
  | some status => ∃ before line after, lines = before ++ line :: after ∧ tells line status ∧
      ∀ earlier ∈ before, ∀ status, ¬tells earlier status

theorem Finds.here {tells : Word → Status → Prop} {status : Status} (h : tells line status) :
    Finds tells (line :: lines) (some status) :=
  ⟨[], line, lines, rfl, h, fun _ hIn => by cases hIn⟩

theorem Finds.later {tells : Word → Status → Prop} {result : Option Status} (h : ∀ status, ¬tells line status) :
    Finds tells (line :: lines) result ↔ Finds tells lines result := by
  cases result with
  | none => exact ⟨fun hAll => (List.forall_mem_cons.mp hAll).2, fun hRest => List.forall_mem_cons.mpr ⟨h, hRest⟩⟩
  | some status =>
      constructor
      · rintro ⟨before, found, after, hLines, hFound, hBefore⟩
        cases before with
        | nil =>
            obtain ⟨rfl, -⟩ := List.cons.inj hLines
            exact absurd hFound (h status)
        | cons first before =>
            obtain ⟨rfl, rfl⟩ := List.cons.inj hLines
            exact ⟨before, found, after, rfl, hFound, (List.forall_mem_cons.mp hBefore).2⟩
      · rintro ⟨before, found, after, rfl, hFound, hBefore⟩
        exact ⟨line :: before, found, after, rfl, hFound, List.forall_mem_cons.mpr ⟨h, hBefore⟩⟩

/-- A line of at least five fields, the last with all that is left. -/
def QueueFields (line id state elapsed timeLimit reason : Word) : Prop :=
  stripText line = id ++ '|' :: (state ++ '|' :: (elapsed ++ '|' :: (timeLimit ++ '|' :: reason))) ∧
    '|' ∉ id ∧ '|' ∉ state ∧ '|' ∉ elapsed ∧ '|' ∉ timeLimit

/-- A line of at least four fields. -/
def AccountFields (line id state elapsed exitCode : Word) : Prop :=
  stripText line = id ++ '|' :: (state ++ '|' :: (elapsed ++ '|' :: exitCode)) ∧
    '|' ∉ id ∧ '|' ∉ state ∧ '|' ∉ elapsed

/-- The status in a line of the queue, of the job or of one element of its array. -/
def QueueSays (jobId line : Word) (status : Status) : Prop :=
  ∃ id state elapsed timeLimit reason, QueueFields line id state elapsed timeLimit reason ∧
    (id = jobId ∨ ∃ element, id = jobId ++ '_' :: element) ∧
    status = { jobId, state, source := "squeue", elapsed := some elapsed, timeLimit := some timeLimit
               reason := orNone reason }

/-- The status in a line of the accounting, of the job itself: the state is its
first word without trailing plus signs. -/
def AccountSays (jobId line : Word) (status : Status) : Prop :=
  ∃ state elapsed exitCode, AccountFields line jobId state elapsed exitCode ∧
    status = { jobId, state := stripRight '+' ((firstWord state).getD []), source := "sacct"
               elapsed := orNone elapsed, exitCode := orNone exitCode }

theorem split_queue (line id state elapsed timeLimit reason : Word) :
    splitMax '|' 4 (stripText line) = [id, state, elapsed, timeLimit, reason] ↔
      QueueFields line id state elapsed timeLimit reason := by
  constructor
  · intro h
    obtain ⟨rest, hFirst, hId, h⟩ := splitMax_eq_cons h
    obtain ⟨rest, rfl, hState, h⟩ := splitMax_eq_cons h
    obtain ⟨rest, rfl, hElapsed, h⟩ := splitMax_eq_cons h
    obtain ⟨rest, rfl, hLimit, h⟩ := splitMax_eq_cons h
    obtain rfl : rest = reason := (List.cons.inj h).1
    exact ⟨hFirst, hId, hState, hElapsed, hLimit⟩
  · rintro ⟨hText, hId, hState, hElapsed, hLimit⟩
    rw [hText, splitMax_cut _ hId, splitMax_cut _ hState, splitMax_cut _ hElapsed, splitMax_cut _ hLimit]
    rfl

theorem split_account (line id state elapsed exitCode : Word) :
    splitMax '|' 3 (stripText line) = [id, state, elapsed, exitCode] ↔
      AccountFields line id state elapsed exitCode := by
  constructor
  · intro h
    obtain ⟨rest, hFirst, hId, h⟩ := splitMax_eq_cons h
    obtain ⟨rest, rfl, hState, h⟩ := splitMax_eq_cons h
    obtain ⟨rest, rfl, hElapsed, h⟩ := splitMax_eq_cons h
    obtain rfl : rest = exitCode := (List.cons.inj h).1
    exact ⟨hFirst, hId, hState, hElapsed⟩
  · rintro ⟨hText, hId, hState, hElapsed⟩
    rw [hText, splitMax_cut _ hId, splitMax_cut _ hState, splitMax_cut _ hElapsed]
    rfl

/-- What is before the first underscore. -/
theorem head_split_iff (hPlain : '_' ∉ jobId) :
    (splitMax '_' 1 id).headD [] = jobId ↔ id = jobId ∨ ∃ element, id = jobId ++ '_' :: element := by
  rcases cutAt_cases '_' id with ⟨hNone, -⟩ | ⟨front, rest, rfl, hFront, -⟩
  · rw [splitMax_all _ hNone]
    refine ⟨Or.inl, ?_⟩
    rintro (hSame | ⟨element, rfl⟩)
    · exact hSame
    · exact absurd (by simp) hNone
  · rw [splitMax_cut _ hFront]
    constructor
    · rintro rfl
      exact Or.inr ⟨rest, rfl⟩
    · rintro (hSame | ⟨element, hSame⟩)
      · exact absurd (hSame ▸ by simp) hPlain
      · have hCut := congrArg (cutAt '_') hSame
        rw [cutAt_of_notMem hFront, cutAt_of_notMem hPlain] at hCut
        exact (Prod.mk.inj hCut).1

end Lines

section Parsers

/-- The queue's status is found whatever the text is. -/
theorem finds_squeue (hPlain : '_' ∉ jobId) (lines : List Word) :
    Finds (QueueSays jobId) lines (parseSqueueLines jobId lines) := by
  induction lines with
  | nil => exact fun _ hIn => by cases hIn
  | cons line rest ih =>
      rw [parseSqueueLines]
      split
      · next id state elapsed timeLimit reason hFields =>
          rw [split_queue] at hFields
          split
          · next hId =>
              exact Finds.here ⟨id, state, elapsed, timeLimit, reason, hFields, (head_split_iff hPlain).mp hId, rfl⟩
          · next hOther =>
              refine (Finds.later ?_).mpr ih
              rintro status ⟨id', state', elapsed', timeLimit', reason', hFields', hId', -⟩
              have hSame := ((split_queue _ _ _ _ _ _).mpr hFields).symm.trans ((split_queue _ _ _ _ _ _).mpr hFields')
              obtain rfl := (List.cons.inj hSame).1
              exact hOther ((head_split_iff hPlain).mpr hId')
      · next hNot =>
          refine (Finds.later ?_).mpr ih
          rintro status ⟨id, state, elapsed, timeLimit, reason, hFields, -, -⟩
          exact hNot _ _ _ _ _ ((split_queue _ _ _ _ _ _).mpr hFields)

/-- The first line of the job in the accounting has a word in its state. -/
def StateSaid (jobId : Word) (lines : List Word) : Prop :=
  ∀ before line after state elapsed exitCode, lines = before ++ line :: after →
    (∀ earlier ∈ before, ∀ status, ¬AccountSays jobId earlier status) →
    AccountFields line jobId state elapsed exitCode → ∃ c ∈ state, isSpace c = false

theorem StateSaid.later (h : ∀ status, ¬AccountSays jobId line status) :
    StateSaid jobId (line :: lines) ↔ StateSaid jobId lines := by
  constructor
  · rintro hSaid before found after state elapsed exitCode rfl hBefore hFields
    exact hSaid (line :: before) found after state elapsed exitCode rfl
      (List.forall_mem_cons.mpr ⟨h, hBefore⟩) hFields
  · rintro hSaid before found after state elapsed exitCode hLines hBefore hFields
    cases before with
    | nil =>
        obtain ⟨rfl, -⟩ := List.cons.inj hLines
        exact absurd ⟨state, elapsed, exitCode, hFields, rfl⟩ (h _)
    | cons first before =>
        obtain ⟨rfl, rfl⟩ := List.cons.inj hLines
        exact hSaid before found after state elapsed exitCode rfl
          (fun earlier hIn => hBefore earlier (List.mem_cons_of_mem _ hIn)) hFields

/-- Where the first line is the job's, its state is what counts. -/
theorem StateSaid.here {state elapsed exitCode : Word} (h : AccountFields line jobId state elapsed exitCode) :
    StateSaid jobId (line :: lines) ↔ ∃ c ∈ state, isSpace c = false := by
  constructor
  · exact fun hSaid => hSaid [] line lines state elapsed exitCode rfl (fun _ hIn => by cases hIn) h
  · intro hWord before found after state' elapsed' exitCode' hLines hBefore hFields
    cases before with
    | nil =>
        obtain ⟨rfl, -⟩ := List.cons.inj hLines
        have hSame := ((split_account _ _ _ _ _).mpr h).symm.trans ((split_account _ _ _ _ _).mpr hFields)
        obtain rfl : state = state' := (List.cons.inj (List.cons.inj hSame).2).1
        exact hWord
    | cons first before =>
        obtain ⟨rfl, -⟩ := List.cons.inj hLines
        exact absurd ⟨state, elapsed, exitCode, h, rfl⟩ (hBefore line List.mem_cons_self _)

/-- The accounting's status is found exactly if its line has one. -/
theorem finds_sacct (jobId : Word) (lines : List Word) :
    (∃ result, parseSacctLines jobId lines = .ok result ∧ Finds (AccountSays jobId) lines result) ↔
      StateSaid jobId lines := by
  induction lines with
  | nil =>
      refine ⟨fun _ before line after state elapsed exitCode hLines => ?_,
        fun _ => ⟨none, rfl, fun _ hIn => by cases hIn⟩⟩
      simp at hLines
  | cons line rest ih =>
      rw [parseSacctLines]
      split
      · next id state elapsed exitCode hFields =>
          rw [split_account] at hFields
          split
          · next hId =>
              subst hId
              rw [StateSaid.here hFields]
              cases hWord : firstWord state with
              | none =>
                  have hBlank := firstWord_eq_none_iff.mp hWord
                  constructor
                  · rintro ⟨result, hResult, -⟩
                    cases hResult
                  · rintro ⟨c, hIn, hChar⟩
                    rw [hBlank c hIn] at hChar
                    cases hChar
              | some word =>
                  refine ⟨fun _ => ?_, fun _ => ⟨_, rfl, Finds.here ⟨state, elapsed, exitCode, hFields, ?_⟩⟩⟩
                  · by_contra hBlank
                    have hNone := firstWord_eq_none_iff.mpr (by simpa using hBlank)
                    rw [hWord] at hNone
                    cases hNone
                  · rw [hWord]
                    rfl
          · next hOther =>
              have hNot : ∀ status, ¬AccountSays jobId line status := by
                rintro status ⟨state', elapsed', exitCode', hFields', -⟩
                have hSame := ((split_account _ _ _ _ _).mpr hFields).symm.trans
                  ((split_account _ _ _ _ _).mpr hFields')
                exact hOther (List.cons.inj hSame).1
              simp only [StateSaid.later hNot, ← ih, Finds.later hNot]
      · next hNot' =>
          have hNot : ∀ status, ¬AccountSays jobId line status := by
            rintro status ⟨state, elapsed, exitCode, hFields, -⟩
            exact hNot' _ _ _ _ ((split_account _ _ _ _ _).mpr hFields)
          simp only [StateSaid.later hNot, ← ih, Finds.later hNot]

/-- For a numeric job ID, both parsers return the status of the first line that
is about the job, or none, exactly if that line of the accounting has a state. -/
theorem status_found_iff (hId : validateJobId jobId = .ok jobId) (queue accounting : Word) :
    (Finds (QueueSays jobId) (splitLines queue) (parseSqueue jobId queue) ∧
        ∃ result, parseSacct jobId accounting = .ok result ∧
          Finds (AccountSays jobId) (splitLines accounting) result) ↔
      StateSaid jobId (splitLines accounting) := by
  have hPlain : '_' ∉ jobId := by
    intro hIn
    unfold validateJobId at hId
    split at hId
    · next hDigits => exact absurd (List.all_eq_true.mp hDigits.2 _ hIn) (by decide)
    · cases hId
  rw [← finds_sacct]
  exact and_iff_right (finds_squeue hPlain _)

theorem status_found_running :
    Finds (QueueSays "12".toList) (splitLines "12_4|RUNNING|0:01|1:00|gpu".toList)
        (parseSqueue "12".toList "12_4|RUNNING|0:01|1:00|gpu".toList) ∧
      ∃ result, parseSacct "12".toList "12|CANCELLED by 7|0:01|0:0".toList = .ok result ∧
        Finds (AccountSays "12".toList) (splitLines "12|CANCELLED by 7|0:01|0:0".toList) result := by
  refine (status_found_iff (by decide) _ _).mpr ?_
  have hLines : splitLines "12|CANCELLED by 7|0:01|0:0".toList = ["12|CANCELLED by 7|0:01|0:0".toList] := by decide
  have hFields : AccountFields "12|CANCELLED by 7|0:01|0:0".toList "12".toList "CANCELLED by 7".toList
      "0:01".toList "0:0".toList := (split_account _ _ _ _ _).mp (by decide)
  rw [hLines]
  exact (StateSaid.here hFields).mpr ⟨'C', by decide, by decide⟩

/-- A line of the job without a state. -/
theorem status_blank : ¬∀ jobId queue accounting : Word, validateJobId jobId = .ok jobId →
    Finds (QueueSays jobId) (splitLines queue) (parseSqueue jobId queue) ∧
      ∃ result, parseSacct jobId accounting = .ok result ∧
        Finds (AccountSays jobId) (splitLines accounting) result := by
  intro hClaim
  obtain ⟨-, result, hResult, -⟩ := hClaim "1".toList [] "1||0:01|0:0".toList (by decide)
  have hRaises : parseSacct "1".toList "1||0:01|0:0".toList = .error .indexError := by decide
  rw [hRaises] at hResult
  cases hResult

end Parsers
end Pazuzu.Slurm
