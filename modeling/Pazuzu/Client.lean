import Pazuzu.Asyncio.Solo
import Pazuzu.Gateway.Client
import Pazuzu.Slurm

/-! The public client: what its methods ask the gateway for and what they make
of the answers. The gateway is the surroundings. Strings are those without lone
surrogates, as the texts of a result are. -/
namespace Pazuzu.Client

open Asyncio Python Slurm

/-- One execution that the gateway is asked for. -/
structure Request where
  command : Word
  stdin : Bytes
  timeout : Double
  retrySafe : Bool

/-- What the client sends. -/
inductive Ask where
  | execute (request : Request)
  | status (probe : Bool) (timeout : Double)
  | reconnect (force : Bool)

abbrev Ask.Reply : Ask → Type
  | .execute _ => CommandResult
  | .status _ _ | .reconnect _ => Fields

/-- The errors of a call, and the one that a parser adds to them. -/
inductive Raised where
  | call (error : CallError)
  | indexError

inductive Happening where
  | asked (ask : Ask)
  | answered (ask : Ask) (reply : Except Raised ask.Reply)

/-- What has happened so far, the newest first. -/
abbrev Journal := List Happening

abbrev signature : Signature := ⟨Journal, Ask, Ask.Reply, Raised, Empty⟩

abbrev Py := Coro signature

def raise {α : Type} (error : Error) : Py α := @Coro.raise signature α (.call (.raised error))

/-- `raise PazuzuError(message)`. -/
def fail {α : Type} (message : Text) : Py α := @Coro.raise signature α (.call (.reported message))

/-- Send a message and wait for its answer. -/
def send (ask : Ask) : Py ask.Reply := do
  @Coro.update signature (.asked ask :: ·)
  @Coro.suspend signature ask

/-- A text of a result, as a string. -/
def string (content : Text) : Word := content.map Char.ofNat

def codePoints (content : Word) : Text := content.map Char.toNat

/-- `str | bytes`. -/
inductive Content where
  | string (content : Word)
  | bytes (content : Bytes)

/-- `stdin.encode() if isinstance(stdin, str) else stdin`. -/
def Content.encode : Content → Bytes
  | .string content => content.flatMap String.utf8EncodeChar
  | .bytes content => content

/-- What a function of `slurm` ends with. -/
def ofSlurm {α : Type} : Except Slurm.Error α → Py α
  | .ok value => return value
  | .error (.valueError message) => raise (.valueError message)
  | .error .indexError => @Coro.raise signature α .indexError

section Methods

/-- `health`. -/
def health (probe : Bool) (timeout : Double) : Py Fields := send (.status probe timeout)

/-- `reconnect`. -/
def reconnect (force : Bool) : Py Fields := send (.reconnect force)

/-- `_execute`. -/
def execute (command : Word) (stdin : Content) (timeout : Double) (retrySafe : Bool) : Py CommandResult :=
  send (.execute ⟨command, stdin.encode, timeout, retrySafe⟩)

def run (command : Word) (stdin : Content) (timeout : Double) : Py CommandResult :=
  execute command stdin timeout false

def read (command : Word) (stdin : Content) (timeout : Double) : Py CommandResult :=
  execute command stdin timeout true

def noInput : Content := .bytes []

/-- The timeout of the Slurm methods and of `tail`. -/
def halfMinute : Double := .finite 30

def scriptCommand (interpreter : Word) (arguments : List Word) : Word :=
  shellJoin (interpreter :: "-".toList :: arguments)

/-- `run_script`. -/
def runScript (interpreter : Word) (source : Content) (arguments : List Word) (timeout : Double) : Py CommandResult :=
  if interpreter = [] ∨ '\x00' ∈ interpreter then
    raise (.valueError "interpreter must be a non-empty executable without NUL bytes")
  else run (scriptCommand interpreter arguments) source timeout

def queueCommand : Word := "squeue -u \"$USER\" -o \"%.18i %.28j %.10T %.12M %.10l %.20R\"".toList

/-- `slurm_queue`. -/
def slurmQueue : Py CommandResult := read queueCommand noInput halfMinute

def inspectCommand (jobId : Word) : Word := "scontrol show job -o ".toList ++ shellQuote jobId

/-- `inspect_slurm_job`. -/
def inspectSlurmJob (jobId : Word) : Py CommandResult := do
  let jobId ← ofSlurm (validateJobId jobId)
  read (inspectCommand jobId) noInput halfMinute

/-- `_require_success`. -/
def requireSuccess (result : CommandResult) (operation : String) : Py Unit :=
  if result.exitCode ≠ 0 then
    let stderr := stripText (string result.stderr)
    let stdout := stripText (string result.stdout)
    let detail := if stderr ≠ [] then stderr else if stdout ≠ [] then stdout else "no remote error output".toList
    fail (text operation ++ text " failed with exit " ++ text (toString result.exitCode) ++ text ": " ++ codePoints detail)
  else return ()

def submitCommand (logDir : Word) : Word := "mkdir -p -- ".toList ++ shellQuote logDir ++ " && sbatch --parsable".toList

/-- What `submit_slurm` makes of a submission. -/
def submitted (result : CommandResult) (job : Slurm.Job) : Py Handle :=
  match parseSubmission (string result.stdout) job with
  | .ok handle => return handle
  | .error (.valueError message) => fail (text message)
  | .error .indexError => @Coro.raise signature Handle .indexError

/-- `submit_slurm`. The script is rendered before anything is sent. -/
def submitSlurm (job : ValidJob) : Py Handle := do
  let script ← ofSlurm (renderSlurmScript job.toJob)
  let result ← run (submitCommand job.logDir) (.string script) halfMinute
  requireSuccess result "sbatch"
  submitted result job.toJob

def squeueCommand (jobId : Word) : Word := "squeue -h -j ".toList ++ jobId ++ " -o '%i|%T|%M|%l|%R'".toList

def sacctCommand (jobId : Word) : Word :=
  "sacct -n -P -X -j ".toList ++ jobId ++ " --format=JobIDRaw,State,Elapsed,ExitCode".toList

/-- The status in the queue, if the queue could be asked. -/
def queuedStatus (jobId : Word) (queued : CommandResult) : Option Status :=
  if queued.exitCode = 0 then parseSqueue jobId (string queued.stdout) else none

/-- `slurm_status`, behind the queue. -/
def accountedStatus (jobId : Word) (queued : CommandResult) : Py Status := do
  let accounted ← read (sacctCommand jobId) noInput halfMinute
  requireSuccess accounted "sacct"
  match ← ofSlurm (parseSacct jobId (string accounted.stdout)) with
  | some status => return status
  | none =>
      requireSuccess queued "squeue"
      return { jobId, state := "UNKNOWN".toList, source := "none" }

/-- `slurm_status`. -/
def slurmStatus (jobId : Word) : Py Status := do
  let jobId ← ofSlurm (validateJobId jobId)
  let queued ← read (squeueCommand jobId) noInput halfMinute
  match queuedStatus jobId queued with
  | some status => return status
  | none => accountedStatus jobId queued

def cancelCommand (jobId : Word) : Word := "scancel -- ".toList ++ jobId

/-- `cancel_slurm`. -/
def cancelSlurm (jobId : Word) : Py CommandResult := do
  let jobId ← ofSlurm (validateJobId jobId)
  let result ← run (cancelCommand jobId) noInput halfMinute
  requireSuccess result "scancel"
  return result

def tailCommand (remotePath : Word) (lines : Int) : Word :=
  "tail -n ".toList ++ (toString lines).toList ++ " -- ".toList ++ shellQuote remotePath

/-- `tail`. -/
def tail (remotePath : Word) (lines : Int) : Py CommandResult :=
  if ¬isAbsolutePath remotePath ∨ '\x00' ∈ remotePath then
    raise (.valueError "remote_path must be an absolute POSIX path")
  else if ¬(1 ≤ lines ∧ lines ≤ 1000) then raise (.valueError "lines must be between 1 and 1000")
  else read (tailCommand remotePath lines) noInput halfMinute

end Methods

section Surroundings

/-- Any answer may come, and is noted. -/
def deliver (ask : Ask) (reply : Except Raised ask.Reply) (journal : Journal) : Option Journal :=
  some (.answered ask reply :: journal)

abbrev surroundings : Surroundings signature where
  Move := Empty
  preempts := false
  deliver := deliver
  disturb _ _ := none

end Surroundings

section Gateway

/-- The answer to an execution from the other end of a socket. A response with
other fields than a result has, or without one of them, is no `CommandResult`. -/
def answer (python : Interpreter) (peer : Gateway.Peer) (path : String) (id : Text) (request : Request) :
    Except Raised CommandResult :=
  match Gateway.executeViaGateway python peer path id (codePoints request.command) request.stdin request.timeout
    request.retrySafe with
  | .error error => .error (.call error)
  | .ok fields =>
      match Gateway.resultOf fields with
      | some result => .ok result
      | none => .error (.call (.raised (.typeError "CommandResult.__init__() got unexpected or missing arguments")))

end Gateway
end Pazuzu.Client
