import Mathlib.Data.Char
import Mathlib.Data.List.Lex
import Mathlib.Data.Prod.Lex
import Pazuzu.Python.Exceptions
import Pazuzu.Python.Number
import Pazuzu.Python.Strings
import Pazuzu.Transfer

/-! Generic Slurm jobs: their types with the checks of the constructors, the
rendering of a script, and the parsing of what Slurm prints. Values have the
types the checks ask for. -/
namespace Pazuzu.Slurm

open Python

/-- The exceptions of this module. -/
inductive Error where
  | valueError (message : String)
  | indexError
  deriving DecidableEq, Repr

section Checks

def isNamePart (extra : String) (c : Char) : Bool := c.isAlphanum || c ∈ extra.toList

/-- `_JOB_NAME`. -/
def isJobName : Word → Bool
  | [] => false
  | first :: rest => first.isAlphanum && rest.all (isNamePart "_.-") && rest.length ≤ 127

/-- `_ENVIRONMENT_NAME`. -/
def isEnvironmentName : Word → Bool
  | [] => false
  | first :: rest => (first.isAlpha || first = '_') && rest.all (isNamePart "_")

/-- `_NODE_LIST`. -/
def isNodeList : Word → Bool
  | [] => false
  | first :: rest => first.isAlphanum && rest.all (isNamePart "_.[],-")

/-- `_positive`. -/
def positive (name : String) (value : Int) : Except Error Unit :=
  if value < 1 then .error (.valueError (name ++ " must be a positive integer")) else .ok ()

/-- `_nonnegative`. -/
def nonnegative (name : String) (value : Int) : Except Error Unit :=
  if value < 0 then .error (.valueError (name ++ " must be a non-negative integer")) else .ok ()

/-- `_directive`. -/
def directive (name : String) (value : Option Word) : Except Error Unit :=
  if value.any fun value => value = [] || value.any isSpace then
    .error (.valueError (name ++ " must be a non-empty Slurm token without whitespace"))
  else .ok ()

/-- `PurePosixPath(value).is_absolute()`. -/
def isAbsolutePath (value : Word) : Bool := value.head? = some '/'

/-- `_absolute`. -/
def absolute (name : String) (value : Word) : Except Error Unit :=
  if '\x00' ∈ value ∨ ¬isAbsolutePath value then
    .error (.valueError (name ++ " must be an absolute POSIX path"))
  else .ok ()

/-- `_slurm_path`. -/
def slurmPath (name : String) (value : Word) : Except Error Unit := do
  absolute name value
  if value.any isSpace then
    .error (.valueError (name ++ " must not contain whitespace in an sbatch directive"))

def validateJobId (jobId : Word) : Except Error Word :=
  if jobId ≠ [] ∧ jobId.all Char.isDigit then .ok jobId
  else .error (.valueError "job_id must contain ASCII decimal digits")

end Checks

section Jobs

/-- Portable Slurm resources with explicit host memory and walltime. -/
structure Resources where
  memoryGbPerNode : Int
  timeLimit : Word
  cpusPerTask : Int := 1
  gpusPerNode : Int := 0
  nodes : Int := 1
  tasksPerNode : Int := 1
  «partition» : Option Word := none
  account : Option Word := none
  qos : Option Word := none
  «constraint» : Option Word := none
  array : Option Word := none
  dependency : Option Word := none
  nodeList : Option Word := none
  exclude : Option Word := none

def hostList (name : String) (value : Option Word) : Except Error Unit :=
  if value.any fun value => !isNodeList value then
    .error (.valueError (name ++ " must contain only ASCII host-list characters"))
  else .ok ()

/-- `SlurmResources.__post_init__`. -/
def Resources.check (resources : Resources) : Except Error Unit := do
  positive "memory_gb_per_node" resources.memoryGbPerNode
  positive "cpus_per_task" resources.cpusPerTask
  nonnegative "gpus_per_node" resources.gpusPerNode
  positive "nodes" resources.nodes
  positive "tasks_per_node" resources.tasksPerNode
  directive "time_limit" (some resources.timeLimit)
  directive "partition" resources.partition
  directive "account" resources.account
  directive "qos" resources.qos
  directive "constraint" resources.constraint
  directive "array" resources.array
  directive "dependency" resources.dependency
  directive "node_list" resources.nodeList
  directive "exclude" resources.exclude
  hostList "node_list" resources.nodeList
  hostList "exclude" resources.exclude

/-- One shell-free command and its Slurm execution context. The environment is
a mapping: its names are distinct. -/
structure Job where
  name : Word
  argv : List Word
  cwd : Word
  logDir : Word
  resources : Resources
  environment : List (Word × Word)
  environment_distinct : (environment.map Prod.fst).Nodup

/-- `SlurmJob.__post_init__`. -/
def Job.check (job : Job) : Except Error Unit := do
  if ¬isJobName job.name then
    .error (.valueError "name must contain only ASCII letters, digits, '.', '_' or '-'")
  if job.argv = [] ∨ job.argv.any fun item => item = [] || '\x00' ∈ item then
    .error (.valueError "argv must contain non-empty strings without NUL bytes")
  absolute "cwd" job.cwd
  slurmPath "log_dir" job.logDir
  if job.environment.any fun item => !isEnvironmentName item.1 || '\x00' ∈ item.2 then
    .error (.valueError "environment must contain valid names and values without NUL bytes")

/-- A job that has passed both constructors. -/
structure ValidJob extends Job where
  resources_checked : resources.check = .ok ()
  checked : toJob.check = .ok ()

/-- `posixpath.join`. -/
def posixJoin (path part : Word) : Word :=
  if part.head? = some '/' then part
  else if path = [] ∨ path.getLast? = some '/' then path ++ part
  else path ++ '/' :: part

def Job.stdoutPattern (job : Job) : Word := posixJoin job.logDir (job.name ++ "-%j.out".toList)

def Job.stderrPattern (job : Job) : Word := posixJoin job.logDir (job.name ++ "-%j.err".toList)

/-- Stable identity and log locations returned after submission. -/
structure Handle where
  jobId : Word
  name : Word
  stdoutPath : Word
  stderrPath : Word
  deriving DecidableEq

/-- Compact status from the live queue or from accounting. -/
structure Status where
  jobId : Word
  state : Word
  source : String
  elapsed : Option Word := none
  timeLimit : Option Word := none
  reason : Option Word := none
  exitCode : Option Word := none
  deriving DecidableEq

end Jobs

section Checked

theorem absolute_ok {name : String} {value : Word} (h : absolute name value = .ok ()) :
    '\x00' ∉ value ∧ value.head? = some '/' := by
  simpa [isAbsolutePath] using of_unless h

theorem slurmPath_ok {name : String} {value : Word} (h : slurmPath name value = .ok ()) :
    value.head? = some '/' ∧ ∀ c ∈ value, isSpace c = false := by
  obtain ⟨⟨⟩, hAbsolute, hSpaces⟩ := of_bind h
  exact ⟨(absolute_ok hAbsolute).2, by simpa using of_unless hSpaces⟩

theorem directive_ok {name : String} {value : Option Word} (h : directive name value = .ok ()) :
    ∀ token ∈ value, token ≠ [] ∧ ∀ c ∈ token, isSpace c = false := by
  rintro token rfl
  simpa using of_unless h

/-- What the constructor of a job has checked. -/
structure Job.Checked (job : Job) : Prop where
  name : isJobName job.name = true
  argv : job.argv ≠ []
  cwd : job.cwd.head? = some '/'
  logDir : job.logDir.head? = some '/'
  logDir_spaces : ∀ c ∈ job.logDir, isSpace c = false
  names : ∀ item ∈ job.environment, isEnvironmentName item.1 = true

theorem Job.check_ok {job : Job} (h : job.check = .ok ()) : job.Checked := by
  unfold Job.check at h
  obtain ⟨hName, h⟩ := of_guard h
  obtain ⟨hArgv, h⟩ := of_guard h
  obtain ⟨⟨⟩, hCwd, h⟩ := of_bind h
  obtain ⟨⟨⟩, hLogDir, h⟩ := of_bind h
  have hEnvironment := of_unless h
  simp only [List.any_eq_true, Bool.or_eq_true, Bool.not_eq_true', decide_eq_true_eq, not_exists, not_and, not_or,
    Bool.not_eq_false] at hArgv hEnvironment
  exact ⟨not_not.mp hName, hArgv.1, (absolute_ok hCwd).2, (slurmPath_ok hLogDir).1, (slurmPath_ok hLogDir).2,
    fun item hIn => (hEnvironment item hIn).1⟩

/-- What the constructor of the resources has checked of its texts. -/
theorem Resources.tokens_checked {resources : Resources} (h : resources.check = .ok ()) :
    ∀ value ∈ [some resources.timeLimit, resources.partition, resources.account, resources.qos,
      resources.constraint, resources.array, resources.dependency, resources.nodeList, resources.exclude],
        ∀ token ∈ value, token ≠ [] ∧ ∀ c ∈ token, isSpace c = false := by
  unfold Resources.check at h
  obtain ⟨⟨⟩, -, h⟩ := of_bind h
  obtain ⟨⟨⟩, -, h⟩ := of_bind h
  obtain ⟨⟨⟩, -, h⟩ := of_bind h
  obtain ⟨⟨⟩, -, h⟩ := of_bind h
  obtain ⟨⟨⟩, -, h⟩ := of_bind h
  obtain ⟨⟨⟩, hTime, h⟩ := of_bind h
  obtain ⟨⟨⟩, hPartition, h⟩ := of_bind h
  obtain ⟨⟨⟩, hAccount, h⟩ := of_bind h
  obtain ⟨⟨⟩, hQos, h⟩ := of_bind h
  obtain ⟨⟨⟩, hConstraint, h⟩ := of_bind h
  obtain ⟨⟨⟩, hArray, h⟩ := of_bind h
  obtain ⟨⟨⟩, hDependency, h⟩ := of_bind h
  obtain ⟨⟨⟩, hNodeList, h⟩ := of_bind h
  obtain ⟨⟨⟩, hExclude, -⟩ := of_bind h
  simp only [List.forall_mem_cons, List.not_mem_nil, false_imp_iff, implies_true, and_true]
  exact ⟨directive_ok hTime, directive_ok hPartition, directive_ok hAccount, directive_ok hQos,
    directive_ok hConstraint, directive_ok hArray, directive_ok hDependency, directive_ok hNodeList,
    directive_ok hExclude⟩

end Checked

section Rendering

/-- An integer in a text. -/
def decimal (n : Int) : Except Error Word :=
  if maxDigits < decimalDigits n then
    .error (.valueError "Exceeds the limit (4300 digits) for integer string conversion")
  else .ok (toString n).toList

/-- The GPUs of a node, where there are any. -/
def gpuCount (n : Int) : Except Error (Option Word) := if n = 0 then .ok none else (decimal n).map some

/-- The line of one directive. -/
def sbatch (option : String) (value : Word) : Word := "#SBATCH --".toList ++ option.toList ++ '=' :: value

/-- The line of a directive that may be left out. -/
def sbatchOptional (option : String) (value : Option Word) : List Word := value.toList.map (sbatch option)

/-- Sorted as Python sorts pairs of texts. -/
def sortedItems (environment : List (Word × Word)) : List (Word × Word) :=
  environment.mergeSort fun item other => toLex item ≤ toLex other

def exportLine (item : Word × Word) : Word := "export ".toList ++ item.1 ++ '=' :: shellQuote item.2

/-- `render_slurm_script`. -/
def renderSlurmScript (job : Job) : Except Error Word := do
  let resources := job.resources
  let nodes ← decimal resources.nodes
  let tasks ← decimal resources.tasksPerNode
  let cpus ← decimal resources.cpusPerTask
  let memory ← decimal resources.memoryGbPerNode
  let gpus ← gpuCount resources.gpusPerNode
  return ['\n'].intercalate (
    ["#!/usr/bin/env bash".toList, sbatch "job-name" job.name] ++
    sbatchOptional "partition" resources.partition ++
    sbatchOptional "account" resources.account ++
    sbatchOptional "qos" resources.qos ++
    sbatchOptional "constraint" resources.constraint ++
    sbatchOptional "nodelist" resources.nodeList ++
    sbatchOptional "exclude" resources.exclude ++
    [sbatch "nodes" nodes, sbatch "ntasks-per-node" tasks, sbatch "cpus-per-task" cpus,
      sbatch "mem" (memory ++ ['G']), sbatch "time" resources.timeLimit] ++
    sbatchOptional "gres" (gpus.map ("gpu:".toList ++ ·)) ++
    sbatchOptional "array" resources.array ++
    sbatchOptional "dependency" resources.dependency ++
    [sbatch "output" job.stdoutPattern, sbatch "error" job.stderrPattern, [],
      "set -euo pipefail".toList, "cd ".toList ++ shellQuote job.cwd] ++
    (sortedItems job.environment).map exportLine ++
    [[], "exec ".toList ++ shellJoin job.argv, []])

end Rendering

section Parsing

/-- `parse_submission`: a stable handle from what `sbatch --parsable` prints. -/
def parseSubmission (stdout : Word) (job : Job) : Except Error Handle :=
  match (((splitLines stdout).map stripText).filter (· ≠ [])).getLast? with
  | none => .error (.valueError "sbatch did not return a job ID")
  | some line => do
      let jobId ← validateJobId ((splitMax ';' 1 line).headD [])
      return ⟨jobId, job.name, replacePair '%' 'j' jobId job.stdoutPattern,
        replacePair '%' 'j' jobId job.stderrPattern⟩

/-- `value or None`. -/
def orNone (value : Word) : Option Word := if value = [] then none else some value

/-- `parse_squeue`, line by line. -/
def parseSqueueLines (jobId : Word) : List Word → Option Status
  | [] => none
  | line :: rest =>
      match splitMax '|' 4 (stripText line) with
      | [id, state, elapsed, timeLimit, reason] =>
          if (splitMax '_' 1 id).headD [] = jobId then
            some { jobId, state, source := "squeue", elapsed := some elapsed, timeLimit := some timeLimit
                   reason := orNone reason }
          else parseSqueueLines jobId rest
      | _ => parseSqueueLines jobId rest

def parseSqueue (jobId stdout : Word) : Option Status := parseSqueueLines jobId (splitLines stdout)

/-- `parse_sacct`, line by line. A state without a word has no first one. -/
def parseSacctLines (jobId : Word) : List Word → Except Error (Option Status)
  | [] => .ok none
  | line :: rest =>
      match splitMax '|' 3 (stripText line) with
      | [id, state, elapsed, exitCode] =>
          if id = jobId then
            match firstWord state with
            | none => .error .indexError
            | some word => .ok (some { jobId, state := stripRight '+' word, source := "sacct"
                                       elapsed := orNone elapsed, exitCode := orNone exitCode })
          else parseSacctLines jobId rest
      | _ => parseSacctLines jobId rest

def parseSacct (jobId stdout : Word) : Except Error (Option Status) :=
  parseSacctLines jobId (splitLines stdout)

end Parsing
end Pazuzu.Slurm
