import Pazuzu.Client.Asking
import Pazuzu.Slurm.Status

/-! What the client says of a job, by what the queue and the accounting have
answered. -/
namespace Pazuzu.Client

open Asyncio Python Slurm Surroundings

variable {jobId : Word} {journal : Journal}

section Answers

/-- The lines of an output. -/
def printed (result : CommandResult) : List Word := splitLines (string result.stdout)

def queueAsk (jobId : Word) : Ask := .execute ⟨squeueCommand jobId, [], halfMinute, true⟩

def accountAsk (jobId : Word) : Ask := .execute ⟨sacctCommand jobId, [], halfMinute, true⟩

/-- The queue was asked without success, or has no line about the job. -/
def QueueSilent (jobId : Word) (queued : CommandResult) : Prop :=
  queued.exitCode = 0 → Finds (QueueSays jobId) (printed queued) none

/-- The queue did not tell, and the accounting has answered. -/
structure Accounted (jobId : Word) (journal : Journal) (queued accounted : CommandResult) : Prop where
  queue : .answered (queueAsk jobId) (.ok queued) ∈ journal
  silent : QueueSilent jobId queued
  account : .answered (accountAsk jobId) (.ok accounted) ∈ journal

/-- What is left to say where no line is about the job. -/
def unknown (jobId : Word) : Status := { jobId, state := "UNKNOWN".toList, source := "none" }

/-- What a status or an error says about the answers. -/
def Concludes (jobId : Word) (journal : Journal) : Except Raised Status → Prop
  | .ok status =>
      (∃ queued, .answered (queueAsk jobId) (.ok queued) ∈ journal ∧ queued.exitCode = 0 ∧
        Finds (QueueSays jobId) (printed queued) (some status)) ∨
      ∃ queued accounted, Accounted jobId journal queued accounted ∧ accounted.exitCode = 0 ∧
        (Finds (AccountSays jobId) (printed accounted) (some status) ∨
          (Finds (AccountSays jobId) (printed accounted) none ∧ queued.exitCode = 0 ∧ status = unknown jobId))
  | .error raised =>
      validateJobId jobId ≠ .ok jobId ∨ .answered (queueAsk jobId) (.error raised) ∈ journal ∨
      (∃ queued, .answered (queueAsk jobId) (.ok queued) ∈ journal ∧ QueueSilent jobId queued ∧
        .answered (accountAsk jobId) (.error raised) ∈ journal) ∨
      ∃ queued accounted, Accounted jobId journal queued accounted ∧
        (accounted.exitCode ≠ 0 ∨ ¬StateSaid jobId (printed accounted) ∨
          (Finds (AccountSays jobId) (printed accounted) none ∧ queued.exitCode ≠ 0))

end Answers

section Parsers

/-- What the accounting's parser returns is the status of the first line. -/
theorem finds_of_parseSacct {lines : List Word} {result : Option Status}
    (h : parseSacctLines jobId lines = .ok result) : Finds (AccountSays jobId) lines result := by
  induction lines with
  | nil =>
      cases h
      nofun
  | cons line rest ih =>
      rw [parseSacctLines] at h
      split at h
      · next id state elapsed exitCode hFields =>
          rw [split_account] at hFields
          split at h
          · next hId =>
              subst hId
              split at h
              · cases h
              · next word hWord =>
                  cases h
                  exact Finds.here ⟨state, elapsed, exitCode, hFields, by rw [hWord]; rfl⟩
          · next hOther =>
              refine (Finds.later ?_).mpr (ih h)
              rintro status ⟨state', elapsed', exitCode', hFields', -⟩
              have hSame := ((split_account _ _ _ _ _).mpr hFields).symm.trans ((split_account _ _ _ _ _).mpr hFields')
              exact hOther (List.cons.inj hSame).1
      · next hNot =>
          refine (Finds.later ?_).mpr (ih h)
          rintro status ⟨state, elapsed, exitCode, hFields, -⟩
          exact hNot _ _ _ _ ((split_account _ _ _ _ _).mpr hFields)

theorem not_stateSaid {lines : List Word} {error : Slurm.Error} (h : parseSacctLines jobId lines = .error error) :
    ¬StateSaid jobId lines := by
  intro hSaid
  obtain ⟨result, hResult, -⟩ := (finds_sacct jobId lines).mpr hSaid
  rw [h] at hResult
  cases hResult

theorem plain_of_valid {text : Word} (h : validateJobId text = .ok jobId) : '_' ∉ jobId := fun hIn =>
  absurd ((validateJobId_ok h).2 _ hIn) (by decide)

end Parsers

section Runs

/-- Every outcome of `slurm_status` is what the answers say. -/
theorem slurmStatus_concludes (jobId : Word) :
    surroundings.wp (fun _ => True) (slurmStatus jobId) (fun outcome journal => Concludes jobId journal outcome) [] := by
  refine (wp_bind _ _ _ _).mpr ?_
  cases hId : validateJobId jobId with
  | error error =>
      have hInvalid : validateJobId jobId ≠ .ok jobId := by rw [hId]; nofun
      cases error <;> exact Or.inl hInvalid
  | ok value =>
      obtain rfl := validateJobId_same hId
      refine (wp_bind _ _ _ _).mpr (wp_send trivial fun reply => ⟨trivial, ?_⟩)
      cases reply with
      | error raised => exact Or.inr (Or.inl List.mem_cons_self)
      | ok queued =>
          have hFinds := finds_squeue (plain_of_valid hId) (printed queued)
          dsimp only
          split
          · next status hStatus =>
              unfold queuedStatus at hStatus
              split at hStatus
              · next hSuccess =>
                  have hSome : parseSqueueLines jobId (printed queued) = some status := hStatus
                  rw [hSome] at hFinds
                  exact Or.inl ⟨queued, List.mem_cons_self, hSuccess, hFinds⟩
              · cases hStatus
          · next hNone =>
              have hSilent : QueueSilent jobId queued := by
                intro hSuccess
                have hParsed : parseSqueueLines jobId (printed queued) = none := by
                  unfold queuedStatus at hNone
                  rw [if_pos hSuccess] at hNone
                  exact hNone
                rw [hParsed] at hFinds
                exact hFinds
              refine (wp_bind _ _ _ _).mpr (wp_send trivial fun reply => ⟨trivial, ?_⟩)
              cases reply with
              | error raised =>
                  have hQueued : Happening.answered (queueAsk jobId) (.ok queued) ∈
                      [.answered (accountAsk jobId) (.error raised), .asked (accountAsk jobId),
                        .answered (queueAsk jobId) (.ok queued), .asked (queueAsk jobId)] := by simp
                  exact Or.inr (Or.inr (Or.inl ⟨queued, hQueued, hSilent, List.mem_cons_self⟩))
              | ok accounted =>
                  have hAccounted : Accounted jobId (.answered (accountAsk jobId) (.ok accounted) :: .asked (accountAsk jobId) ::
                      .answered (queueAsk jobId) (.ok queued) :: [.asked (queueAsk jobId)]) queued accounted :=
                    ⟨by simp, hSilent, by simp⟩
                  have hAnother : ∀ {raised}, accounted.exitCode ≠ 0 ∨ ¬StateSaid jobId (printed accounted) ∨
                      (Finds (AccountSays jobId) (printed accounted) none ∧ queued.exitCode ≠ 0) →
                      Concludes jobId _ (.error raised) := fun hWhy =>
                    Or.inr (Or.inr (Or.inr ⟨queued, accounted, hAccounted, hWhy⟩))
                  refine wp_requireSuccess_bind (fun hSuccess => wp_ofSlurm_bind (fun found hFound => ?_)
                    fun _ _ hError => hAnother (Or.inr (Or.inl (not_stateSaid hError)))) fun _ hFailure => hAnother (Or.inl hFailure)
                  have hLast := finds_of_parseSacct hFound
                  cases found with
                  | some status => exact Or.inr ⟨queued, accounted, hAccounted, hSuccess, Or.inl hLast⟩
                  | none =>
                      exact wp_requireSuccess_bind
                        (fun hQueued => Or.inr ⟨queued, accounted, hAccounted, hSuccess, Or.inr ⟨hLast, hQueued, rfl⟩⟩)
                        fun _ hFailure => hAnother (Or.inr (Or.inr ⟨hLast, hFailure⟩))

/-- However the queue and the accounting answer: a status is that of the first
line about the job, the state is unknown only where both have answered and neither
has such a line, and an error is raised only where no status was found. -/
theorem slurmStatus_ends {outcome : Except Raised Status} {picks : List (Pick surroundings)}
    (hRun : surroundings.run ⟨slurmStatus jobId, []⟩ picks = some ⟨Coro.ofExcept outcome, journal⟩) :
    Concludes jobId journal outcome := by
  obtain ⟨ending, hDrifts, hEnding⟩ := run_post (fun (move : Empty) => move.elim) trivial (slurmStatus_concludes jobId)
    hRun rfl
  have hSame : journal = ending := drifts_eq hDrifts
  rw [hSame]
  exact hEnding

/-- A command that has printed this and succeeded. -/
def succeeded (stdout : String) : (ask : Ask) → Except Raised ask.Reply
  | .execute _ => .ok ⟨0, text stdout, [], false, false, 1, false⟩
  | .status _ _ | .reconnect _ => .ok []

/-- The queue knows nothing any more, the accounting does. -/
theorem slurmStatus_ends_accounted : Concludes "7".toList
    [.answered (accountAsk "7".toList) (succeeded "7|COMPLETED|00:01|0:0" _), .asked (accountAsk "7".toList),
      .answered (queueAsk "7".toList) (succeeded "" _), .asked (queueAsk "7".toList)]
    (.ok { jobId := "7".toList, state := "COMPLETED".toList, source := "sacct"
           elapsed := some "00:01".toList, exitCode := some "0:0".toList }) :=
  have hRun : surroundings.run ⟨slurmStatus "7".toList, []⟩
      [.go, .answer (succeeded ""), .go, .answer (succeeded "7|COMPLETED|00:01|0:0")] =
      some ⟨Coro.ofExcept (.ok _), _⟩ := rfl
  slurmStatus_ends hRun

end Runs
end Pazuzu.Client
