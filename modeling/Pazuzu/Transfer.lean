import Pazuzu.Transport

/-! File transfers through the existing master: the command lines of `cp` and
`rsync`, with every operand that could name another host turned away. Words
are lists of characters here, as all tests on them are by characters. -/
namespace Pazuzu

open Asyncio Python

abbrev Word := List Char

/-- `shlex.quote`: a word of safe characters stays as it is. -/
def isShellSafe (c : Char) : Bool :=
  ('a' ≤ c ∧ c ≤ 'z') ∨ ('A' ≤ c ∧ c ≤ 'Z') ∨ ('0' ≤ c ∧ c ≤ '9') ∨ c ∈ "_@%+=:,./-".toList

def shellQuote (word : Word) : Word :=
  if word = [] then "''".toList
  else if word.all isShellSafe then word
  else "'".toList ++ word.flatMap (fun c => if c = '\'' then "'\"'\"'".toList else [c]) ++ "'".toList

/-- `shlex.join`. -/
def shellJoin (words : List Word) : Word := [' '].intercalate (words.map shellQuote)

namespace Transfer

theorem nameable_localMaster : Nameable "h" ∧ Nameable "ssh" ∧ Nameable "/c" := by decide

/-- A short descriptor. -/
def localMaster : SshAttachment :=
  ⟨"h", "ssh", "/c", 1, nameable_localMaster.1, nameable_localMaster.2.1, nameable_localMaster.2.2, Nat.le_refl 1⟩

def commonSshOptions : List String :=
  ["ControlMaster=no", "ControlPersist=no", "ProxyCommand=/usr/bin/false", "ConnectTimeout=5",
    "BatchMode=yes"]

/-- The operands without the one leading `--`. -/
def arguments (values : List Word) : Except Error (List Word) :=
  let operands := if values.take 1 = ["--".toList] then values.drop 1 else values
  if operands = [] then .error (.valueError "provide transfer arguments after '--'")
  else .ok operands

/-- The options of `scp` that choose its SSH program or configure it. -/
def overridesCopy (argument : Word) : Bool :=
  ["-D", "-F", "-J", "-S", "-o"].any fun option => option.toList.isPrefixOf argument

def overridesRsync (argument : Word) : Bool :=
  argument = "-e".toList ∨ "--rsh".toList.isPrefixOf argument ∨
    ("-".toList.isPrefixOf argument ∧ ¬"--".toList.isPrefixOf argument ∧ 'e' ∈ argument.drop 1)

def rejectTransportOverrides (tool : String) : List Word → Except Error Unit
  | [] => .ok ()
  | argument :: rest =>
      if tool = "cp" ∧ overridesCopy argument then
        .error (.valueError "pazuzu cp does not allow SSH transport overrides")
      else if tool = "rsync" ∧ overridesRsync argument then
        .error (.valueError "pazuzu rsync does not allow a remote-shell override")
      else rejectTransportOverrides tool rest

/-- Whether `^[^/][^:]*:` matches. -/
def remoteSpec : Word → Bool
  | [] => false
  | first :: rest => first ≠ '/' ∧ ':' ∈ rest

/-- The loop over the operands, with the number of remote paths found. -/
def rewriteOperands (host : Word) : List Word → Except Error (List Word × Nat)
  | [] => .ok ([], 0)
  | argument :: rest =>
      if ":".toList.isPrefixOf argument ∧ ¬"::".toList.isPrefixOf argument then
        if argument.length = 1 then .error (.valueError "remote paths must not be empty")
        else do
          let (rewritten, count) ← rewriteOperands host rest
          return ((host ++ ':' :: argument.drop 1) :: rewritten, count + 1)
      else if ¬"-".toList.isPrefixOf argument ∧
          (contains "://".toList argument ∨ contains "::".toList argument ∨ remoteSpec argument) then
        .error (.valueError
          "remote paths must use the Pazuzu ':path' form; other hosts are not allowed")
      else do
        let (rewritten, count) ← rewriteOperands host rest
        return (argument :: rewritten, count)

def remoteArguments (host : Word) (values : List Word) (tool : String) :
    Except Error (List Word) := do
  let operands ← arguments values
  rejectTransportOverrides tool operands
  let (rewritten, count) ← rewriteOperands host operands
  if count ≠ 1 then
    .error (.valueError "provide exactly one remote path using the Pazuzu ':path' form")
  else .ok rewritten

def sshOptions (attachment : SshAttachment) : List Word :=
  (commonSshOptions ++ ["ControlPath=" ++ attachment.controlPath]).flatMap fun value =>
    ["-o".toList, value.toList]

/-- An scp command that fails rather than opening another SSH connection. -/
def copyArgv (attachment : SshAttachment) (values : List Word) (executable : Word) :
    Except Error (List Word) := do
  let operands ← remoteArguments attachment.host.toList values "cp"
  return executable :: "-S".toList :: attachment.sshBinary.toList :: sshOptions attachment ++ operands

/-- An rsync command whose remote shell is the current master. -/
def rsyncArgv (attachment : SshAttachment) (values : List Word) (executable : Word) :
    Except Error (List Word) := do
  let operands ← remoteArguments attachment.host.toList values "rsync"
  return executable :: "-e".toList ::
    shellJoin (attachment.sshBinary.toList :: sshOptions attachment) :: operands

end Transfer

/-- Run one transfer with a deadline. -/
def runTransfer (argv : List String) (timeout : ℚ) (outputLimit : Nat) : Py ProcessResult :=
  if timeout ≤ 0 then Coro.raise (.valueError "transfer timeout must be positive")
  else (runProcess argv [] timeout outputLimit).tryCatch fun
    | .timeoutError => Coro.raise (.commandTimedOut
        ("file transfer exceeded its " ++ formatG timeout ++ "s deadline"))
    | .osError message => Coro.raise (.connectionUnavailable
        ("could not launch file transfer: " ++ message))
    | error => Coro.raise error

end Pazuzu
