import Pazuzu.Client
import Pazuzu.Quoting
import Pazuzu.Slurm.Logs
import Pazuzu.Slurm.Script

/-! A shell reads the client's commands as the words they are to be, whatever
the job, the path or the arguments are. -/
namespace Pazuzu.Client

open Posix Python Slurm

variable {jobId : Word}

/-- A command of these words and no other, whatever the variables of the shell are. -/
def Runs (command : Word) (words : List Word) : Prop := ∀ environment, readCommands environment command = some [words]

theorem isBare_digit {c : Char} (h : c.isDigit = true) : isBare c = true := by
  refine isBare_of_safe ?_
  simp only [Char.isDigit, Bool.and_eq_true, decide_eq_true_eq] at h
  simp only [isShellSafe, decide_eq_true_eq]
  exact Or.inr (Or.inr (Or.inl h))

/-- A word that the program writes, or the digits of a job. -/
def IsPlain (word : Word) : Prop := word ≠ [] ∧ ∀ c ∈ word, isBare c = true

instance : DecidablePred IsPlain := fun word =>
  decidable_of_iff (word ≠ [] ∧ word.all isBare = true) (by simp only [IsPlain, List.all_eq_true])

theorem plain_jobId {text : Word} (h : validateJobId text = .ok jobId) : IsPlain jobId := by
  obtain ⟨hSome, hDigits⟩ := validateJobId_ok h
  exact ⟨hSome, fun c hIn => isBare_digit (hDigits c hIn)⟩

/-- Plain words and a quoted one behind them. -/
theorem spells_plain_quoted (first : Word) (others : List Word) (last : Word) (h : ∀ word ∈ first :: others, IsPlain word) :
    ∃ marks, SpellsAll ([' '].intercalate (first :: others) ++ ' ' :: shellQuote last) first (others ++ [last]) marks := by
  obtain ⟨marks, hFront⟩ := SpellsAll.bare first others h
  obtain ⟨marks', hLast⟩ := spells_shellQuote last
  exact ⟨_, hFront.append hLast.one⟩

theorem runs_plain (first : Word) (others : List Word) (h : ∀ word ∈ first :: others, IsPlain word)
    (hName : isCommandName first = true) :
    Runs ([' '].intercalate (first :: others)) (first :: others) := by
  obtain ⟨_, hAll⟩ := SpellsAll.bare first others h
  exact fun _ => readCommands_last hAll hName

theorem runs_plain_quoted (first : Word) (others : List Word) (last : Word) (h : ∀ word ∈ first :: others, IsPlain word)
    (hName : isCommandName first = true) :
    Runs ([' '].intercalate (first :: others) ++ ' ' :: shellQuote last) (first :: (others ++ [last])) := by
  obtain ⟨_, hAll⟩ := spells_plain_quoted first others last h
  exact fun _ => readCommands_last hAll hName

theorem runs_scriptCommand {interpreter : Word} (hName : isCommandName interpreter = true) (arguments : List Word) :
    Runs (scriptCommand interpreter arguments) (interpreter :: "-".toList :: arguments) := by
  obtain ⟨_, hAll⟩ := spellsAll_shellJoin interpreter ("-".toList :: arguments)
  exact fun _ => readCommands_last hAll hName

/-- The queue of the user who is logged in. -/
theorem reads_queueCommand (environment : Environment) :
    readCommands environment queueCommand =
      some [["squeue".toList, "-u".toList, environment "USER".toList, "-o".toList, "%.18i %.28j %.10T %.12M %.10l %.20R".toList]] := by
  have hRead : readCommands environment queueCommand = some [["squeue".toList, "-u".toList,
      environment "USER".toList ++ [], "-o".toList, "%.18i %.28j %.10T %.12M %.10l %.20R".toList]] := rfl
  rwa [List.append_nil] at hRead

theorem runs_inspectCommand (jobId : Word) :
    Runs (inspectCommand jobId) ["scontrol".toList, "show".toList, "job".toList, "-o".toList, jobId] :=
  runs_plain_quoted "scontrol".toList ["show".toList, "job".toList, "-o".toList] jobId (by decide) (by decide)

theorem numeral_natural {n : Int} (h : 0 ≤ n) : IsPlain (toString n).toList := by
  obtain ⟨n, rfl⟩ := Int.eq_ofNat_of_zero_le h
  have hText : (toString (n : Int)).toList = Nat.toDigits 10 n := by
    rw [show toString (n : Int) = toString n from rfl, Nat.toString_eq_ofList_toDigits, String.toList_ofList]
  rw [hText]
  exact ⟨Nat.toDigits_ne_nil, fun c hIn => isBare_digit (toDigits_isDigit c hIn)⟩

theorem runs_tailCommand (remotePath : Word) {lines : Int} (h : 1 ≤ lines) :
    Runs (tailCommand remotePath lines)
      ["tail".toList, "-n".toList, (toString lines).toList, "--".toList, remotePath] := by
  have hPlain : ∀ word ∈ ["tail".toList, "-n".toList, (toString lines).toList, "--".toList], IsPlain word := by
    simp only [List.forall_mem_cons, List.not_mem_nil, false_imp_iff, implies_true, and_true]
    exact ⟨by decide, by decide, numeral_natural (by omega), by decide⟩
  have hCommand := runs_plain_quoted "tail".toList ["-n".toList, (toString lines).toList, "--".toList] remotePath hPlain
    (by decide)
  have hText : tailCommand remotePath lines =
      [' '].intercalate ["tail".toList, "-n".toList, (toString lines).toList, "--".toList] ++ ' ' :: shellQuote remotePath := by
    have hFront : "tail -n ".toList = "tail".toList ++ ' ' :: ("-n".toList ++ [' ']) := by decide
    have hBack : " -- ".toList = ' ' :: ("--".toList ++ [' ']) := by decide
    unfold tailCommand
    rw [hFront, hBack]
    simp only [List.intercalate_cons_cons, List.intercalate_singleton, List.append_assoc, List.cons_append, List.nil_append]
  rw [hText]
  exact hCommand

theorem runs_cancelCommand {text : Word} (h : validateJobId text = .ok jobId) :
    Runs (cancelCommand jobId) ["scancel".toList, "--".toList, jobId] := by
  have hPlain : ∀ word ∈ ["scancel".toList, "--".toList, jobId], IsPlain word := by
    simp only [List.forall_mem_cons, List.not_mem_nil, false_imp_iff, implies_true, and_true]
    exact ⟨by decide, by decide, plain_jobId h⟩
  have hCommand := runs_plain "scancel".toList ["--".toList, jobId] hPlain (by decide)
  have hText : cancelCommand jobId = [' '].intercalate ["scancel".toList, "--".toList, jobId] := by
    have hFront : "scancel -- ".toList = [' '].intercalate ["scancel".toList, "--".toList] ++ [' '] := by decide
    unfold cancelCommand
    rw [hFront]
    simp only [List.intercalate_cons_cons, List.intercalate_singleton, List.append_assoc, List.cons_append, List.nil_append]
  rw [hText]
  exact hCommand

theorem runs_squeueCommand {text : Word} (h : validateJobId text = .ok jobId) :
    Runs (squeueCommand jobId)
      ["squeue".toList, "-h".toList, "-j".toList, jobId, "-o".toList, "%i|%T|%M|%l|%R".toList] := by
  have hPlain : ∀ word ∈ ["squeue".toList, "-h".toList, "-j".toList, jobId, "-o".toList], IsPlain word := by
    simp only [List.forall_mem_cons, List.not_mem_nil, false_imp_iff, implies_true, and_true]
    exact ⟨by decide, by decide, by decide, plain_jobId h, by decide⟩
  have hCommand := runs_plain_quoted "squeue".toList ["-h".toList, "-j".toList, jobId, "-o".toList]
    "%i|%T|%M|%l|%R".toList hPlain (by decide)
  have hText : squeueCommand jobId = [' '].intercalate ["squeue".toList, "-h".toList, "-j".toList, jobId, "-o".toList] ++
      ' ' :: shellQuote "%i|%T|%M|%l|%R".toList := by
    have hFront : "squeue -h -j ".toList = "squeue".toList ++ ' ' :: ("-h".toList ++ ' ' :: ("-j".toList ++ [' '])) := by decide
    have hBack : " -o '%i|%T|%M|%l|%R'".toList = ' ' :: ("-o".toList ++ ' ' :: shellQuote "%i|%T|%M|%l|%R".toList) := by
      decide
    unfold squeueCommand
    rw [hFront, hBack]
    simp only [List.intercalate_cons_cons, List.intercalate_singleton, List.append_assoc, List.cons_append, List.nil_append]
  rw [hText]
  exact hCommand

theorem runs_sacctCommand {text : Word} (h : validateJobId text = .ok jobId) :
    Runs (sacctCommand jobId) ["sacct".toList, "-n".toList, "-P".toList, "-X".toList, "-j".toList, jobId,
      "--format=JobIDRaw,State,Elapsed,ExitCode".toList] := by
  have hPlain : ∀ word ∈ ["sacct".toList, "-n".toList, "-P".toList, "-X".toList, "-j".toList, jobId,
      "--format=JobIDRaw,State,Elapsed,ExitCode".toList], IsPlain word := by
    simp only [List.forall_mem_cons, List.not_mem_nil, false_imp_iff, implies_true, and_true]
    exact ⟨by decide, by decide, by decide, by decide, by decide, plain_jobId h, by decide⟩
  have hCommand := runs_plain "sacct".toList ["-n".toList, "-P".toList, "-X".toList, "-j".toList, jobId,
    "--format=JobIDRaw,State,Elapsed,ExitCode".toList] hPlain (by decide)
  have hText : sacctCommand jobId = [' '].intercalate ["sacct".toList, "-n".toList, "-P".toList, "-X".toList, "-j".toList,
      jobId, "--format=JobIDRaw,State,Elapsed,ExitCode".toList] := by
    have hFront : "sacct -n -P -X -j ".toList =
        [' '].intercalate ["sacct".toList, "-n".toList, "-P".toList, "-X".toList, "-j".toList] ++ [' '] := by decide
    have hBack : " --format=JobIDRaw,State,Elapsed,ExitCode".toList =
        ' ' :: "--format=JobIDRaw,State,Elapsed,ExitCode".toList := by decide
    unfold sacctCommand
    rw [hFront, hBack]
    simp only [List.intercalate_cons_cons, List.intercalate_singleton, List.append_assoc, List.cons_append, List.nil_append]
  rw [hText]
  exact hCommand

/-- A submission makes the directory of the logs and only then asks for a job. -/
theorem runs_submitCommand (logDir : Word) :
    ∃ front back, submitCommand logDir = front ++ " && ".toList ++ back ∧
      Runs front ["mkdir".toList, "-p".toList, "--".toList, logDir] ∧ Runs back ["sbatch".toList, "--parsable".toList] := by
  have hSubmits : Runs "sbatch --parsable".toList ["sbatch".toList, "--parsable".toList] := fun _ => rfl
  refine ⟨_, "sbatch --parsable".toList, ?_, runs_plain_quoted "mkdir".toList ["-p".toList, "--".toList] logDir (by decide)
    (by decide), hSubmits⟩
  have hFront : "mkdir -p -- ".toList = [' '].intercalate ["mkdir".toList, "-p".toList, "--".toList] ++ [' '] := by decide
  have hBack : " && sbatch --parsable".toList = " && ".toList ++ "sbatch --parsable".toList := by decide
  unfold submitCommand
  rw [hFront, hBack]
  simp only [List.append_assoc, List.cons_append, List.nil_append]

end Pazuzu.Client
