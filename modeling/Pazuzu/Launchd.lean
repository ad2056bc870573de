import Mathlib.Data.Char
import Mathlib.Data.List.Lex
import Mathlib.Data.List.Sort
import Mathlib.Logic.Function.Basic
import Pazuzu.Asyncio.Solo
import Pazuzu.Python.Strings
import Pazuzu.Transfer

/-! Installing the gateway, the MCP adapter and bridges as LaunchAgents. The file
system and launchd are the surroundings: every call of the system is a wait. -/
namespace Pazuzu.Launchd

open Asyncio

section Names

/-- The name of an agent, and of its file without the suffix. -/
abbrev Label := Word

def gatewayLabel : Label := "science.jamali.pazuzu.gateway".toList

def mcpLabel : Label := "science.jamali.pazuzu.mcp".toList

def bridgeLabelPrefix : Label := "science.jamali.pazuzu.bridge.".toList

def isBridgeStart (c : Char) : Bool := ('a' ≤ c ∧ c ≤ 'z') ∨ ('0' ≤ c ∧ c ≤ '9')

/-- `BRIDGE_NAME`. -/
def isBridgeName : Word → Bool
  | [] => false
  | first :: rest => isBridgeStart first && rest.all (fun c => isBridgeStart c || c = '-') && rest.length ≤ 31

/-- The agents this module is about. -/
def isManaged (label : Label) : Bool :=
  label = gatewayLabel ∨ label = mcpLabel ∨ bridgeLabelPrefix.isPrefixOf label

end Names

section Documents

/-- What `_plist` describes. -/
structure Agent where
  label : Label
  programArguments : List Word
  runAtLoad : Bool := true
  keepAlive : Bool := true
  processType : Word
  throttleInterval : Nat := 5
  umask : Nat := 0o077
  standardOutPath : Word
  standardErrorPath : Word
  deriving DecidableEq

def Agent.texts (agent : Agent) : List Word :=
  agent.label :: agent.processType :: agent.standardOutPath :: agent.standardErrorPath :: agent.programArguments

def Agent.mapTexts (f : Word → Word) (agent : Agent) : Agent :=
  { agent with
    label := f agent.label
    programArguments := agent.programArguments.map f
    processType := f agent.processType
    standardOutPath := f agent.standardOutPath
    standardErrorPath := f agent.standardErrorPath }

/-- A property list: one of ours, or another of which `_program_arguments` makes
this, or nothing but an exception. -/
inductive Document where
  | agent (agent : Agent)
  | foreign (arguments : Option (List Word))
  deriving DecidableEq

/-- What `_program_arguments` makes of a file. -/
def Document.arguments : Document → Option (List Word)
  | .agent content => some content.programArguments
  | .foreign arguments => arguments

/-- `plistlib` writes the ends of lines in one way. -/
def lineEnds : Word → Word
  | [] => []
  | '\r' :: '\n' :: rest => '\n' :: lineEnds rest
  | '\r' :: rest => '\n' :: lineEnds rest
  | c :: rest => c :: lineEnds rest

/-- The characters that `plistlib` refuses to write. -/
def isControl (c : Char) : Bool := c.toNat < 32 ∧ c ≠ '\t' ∧ c ≠ '\n' ∧ c ≠ '\r'

/-- The characters that it writes and no parser of XML accepts. -/
def isNoncharacter (c : Char) : Bool := c.toNat = 0xFFFE ∨ c.toNat = 0xFFFF

/-- `plistlib.dump`: what is in the file then, or nothing where it raises. -/
def Agent.dump (agent : Agent) : Option Document :=
  if agent.texts.any (·.any isControl) then none
  else if agent.texts.any (·.any isNoncharacter) then some (.foreign none)
  else some (.agent (agent.mapTexts lineEnds))

end Documents

section Machine

/-- What launchd has of a label. A job that is leaving still answers `print`. -/
inductive Job where
  | unloaded
  | loaded (document : Document)
  | leaving
  deriving DecidableEq

def Job.isUnloaded : Job → Bool
  | .unloaded => true
  | _ => false

/-- The property lists by their labels, the drafts of `_write_plist` and the jobs
of launchd. -/
structure State where
  files : List (Label × Document) := []
  drafts : List (Label × Document) := []
  jobs : Label → Job := fun _ => .unloaded

def put (label : Label) (document : Document) (files : List (Label × Document)) : List (Label × Document) :=
  (label, document) :: files.filter (·.1 ≠ label)

def erase (label : Label) (files : List (Label × Document)) : List (Label × Document) :=
  files.filter (·.1 ≠ label)

def State.file (state : State) (label : Label) : Option Document := state.files.lookup label

def State.setJob (state : State) (label : Label) (job : Job) : State :=
  { state with jobs := Function.update state.jobs label job }

/-- The calls of `launchctl`. -/
inductive Call where
  | print (label : Label)
  | bootout (label : Label)
  | bootstrap (label : Label)

def Call.label : Call → Label
  | .print label | .bootout label | .bootstrap label => label

/-- What a call ends with. An output that is no text is none. `left` is hidden from
the caller: what launchd has of the label then, whatever the return code is. -/
structure Completed where
  returncode : Int
  stdout : Option Word := some []
  left : Job

inductive Raised where
  | osError (message : String)
  | runtimeError (message : Word)
  | valueError (message : String)
  | unicodeDecodeError
  | timeoutExpired
  | other

/-- The calls of the system. `makeStateDir` is `mkdir` and `chmod`, `writeDraft`
opens the temporary file and fills it. -/
inductive Wait where
  | makeStateDir
  | writeDraft (label : Label) (content : Agent)
  | restrictDraft (label : Label)
  | replace (label : Label)
  | launchctl (call : Call)
  | monotonic
  | sleep (seconds : ℚ)
  | «exists» (label : Label)
  | unlink (label : Label)
  | glob
  | load (label : Label)
  | controlExists
  | stopMaster (host : Word)
  | connectUnix
  | connectTcp (host : Word) (port : Option Word)
  | never

abbrev Wait.Reply : Wait → Type
  | .launchctl _ => Completed
  | .monotonic => ℚ
  | .exists _ | .controlExists | .connectUnix | .connectTcp _ _ => Bool
  | .glob => List Label
  | .load _ => List Word
  | .never => Empty
  | _ => Unit

abbrev signature : Signature := ⟨State, Wait, Wait.Reply, Raised, Empty⟩

abbrev Py := Coro signature

def wait (wait : Wait) : Py wait.Reply := @Coro.suspend signature wait

def raise {α : Type} (raised : Raised) : Py α := @Coro.raise signature α raised

def never {α : Type} : Py α := (wait .never).bind fun (impossible : Empty) => nomatch impossible

end Machine

section Agents

variable (rounds : Nat)

def bridgeLabel (name : Word) : Py Label :=
  if isBridgeName name then return bridgeLabelPrefix ++ name
  else raise (.valueError "bridge name must be 1-32 lowercase letters, digits, or hyphens")

/-- Where the program finds itself and its files. `executable` is `_executable`,
with nothing for a program that is not beside this one. -/
structure Setup where
  darwin : Bool
  executable : String → Option Word
  absolute : ∀ name path, executable name = some path → path.head? = some '/'
  socketPath : Word
  controlPath : Word
  stateDir : Word

/-- `_executable`. -/
def executable (setup : Setup) (name : String) : Py Word :=
  match setup.executable name with
  | some path => return path
  | none => raise (.runtimeError ("could not find '".toList ++ name.toList ++
      "'; install Pazuzu with \x60uv tool install '.[mcp]'\x60 first".toList))

/-- `_plist`. -/
def plist (setup : Setup) (label : Label) (arguments : List Word) (logName processType : Word) : Py Agent := do
  wait .makeStateDir
  return { label, programArguments := arguments, processType
           standardOutPath := setup.stateDir ++ '/' :: logName ++ ".stdout.log".toList
           standardErrorPath := setup.stateDir ++ '/' :: logName ++ ".stderr.log".toList }

/-- `_write_plist`. -/
def writePlist (label : Label) (content : Agent) : Py Unit := do
  wait (.writeDraft label content)
  wait (.restrictDraft label)
  wait (.replace label)

/-- `_launchctl`. -/
def launchctl (call : Call) : Py Completed := do
  let completed ← wait (.launchctl call)
  if completed.stdout = none then raise .unicodeDecodeError else return completed

/-- `_loaded`. -/
def loaded (label : Label) : Py Bool := do
  let completed ← launchctl (.print label)
  return completed.returncode = 0

/-- The loop of `_wait_until_unloaded`. -/
def unloadedLoop (label : Label) (deadline : ℚ) : Nat → Py Unit
  | 0 => never
  | rounds + 1 => do
      if ← loaded label then
        let now ← wait .monotonic
        if deadline ≤ now then
          raise (.runtimeError ("launchd did not unload ".toList ++ label ++ " within 5s".toList))
        else
          wait (.sleep (1 / 20))
          unloadedLoop label deadline rounds
      else return ()

/-- `_wait_until_unloaded`. -/
def waitUntilUnloaded (label : Label) : Py Unit := do
  let now ← wait .monotonic
  unloadedLoop label (now + 5) rounds

/-- The attempts of `_bootstrap` that are left, after a failure. -/
def bootstrapLoop (label : Label) (failure : Word) : List ℚ → Py Unit
  | [] => raise (.runtimeError ("could not load ".toList ++ label ++ ": ".toList ++ failure))
  | delay :: delays => do
      let result ← launchctl (.bootstrap label)
      if result.returncode = 0 then return ()
      else if ← loaded label then return ()
      else
        let output := Python.stripText (result.stdout.getD [])
        let failure := if output ≠ [] then output else "exit code ".toList ++ (toString result.returncode).toList
        wait (.sleep delay)
        bootstrapLoop label failure delays

/-- `_bootstrap`. -/
def bootstrap (label : Label) : Py Unit := bootstrapLoop label [] [1 / 5, 2 / 5, 3 / 5, 4 / 5, 1]

/-- `_install`. -/
def install (label : Label) (content : Agent) : Py Label := do
  writePlist label content
  let _ ← launchctl (.bootout label)
  waitUntilUnloaded rounds label
  bootstrap label
  return label

/-- `_program_arguments`. -/
def programArguments (label : Label) : Py (List Word) := do
  match ← (wait (.load label)).attempt with
  | .ok arguments => return arguments
  | .error (.osError _) => return []
  | .error raised => raise raised

/-- `_option`. -/
def option (arguments : List Word) (name : Word) : Option Word :=
  (arguments.dropWhile (· ≠ name)).tail.head?

/-- `_configured_host`. -/
def configuredHost : Py (Option Word) := do
  let arguments ← programArguments gatewayLabel
  return option arguments "--host".toList

/-- `_stop_detached_master`. -/
def stopDetachedMaster (host : Option Word) : Py Unit :=
  match host with
  | none => return ()
  | some host => do
      if ← wait .controlExists then
        match ← (wait (.stopMaster host)).attempt with
        | .ok _ | .error (.osError _) | .error .timeoutExpired => return ()
        | .error raised => raise raised
      else return ()

def gatewayArguments (setup : Setup) (program host : Word) (maxSessions : Option Int) : List Word :=
  [program, "serve".toList, "--host".toList, host, "--socket".toList, setup.socketPath,
    "--control-path".toList, setup.controlPath] ++
  match maxSessions with
  | none => []
  | some count => ["--max-sessions".toList, (toString count).toList]

def mcpArguments (setup : Setup) (program : Word) (port : Int) : List Word :=
  [program, "--socket".toList, setup.socketPath, "--transport".toList, "streamable-http".toList,
    "--port".toList, (toString port).toList]

/-- The adapter, if a port is given for it. -/
def installMcp (setup : Setup) : Option Int → Py (List Label)
  | none => return []
  | some port => do
      let program ← executable setup "pazuzu-mcp"
      let content ← plist setup mcpLabel (mcpArguments setup program port) "mcp".toList "Standard".toList
      let target ← install rounds mcpLabel content
      return [target]

/-- `install_services`. -/
def installServices (setup : Setup) (host : Word) (mcpPort maxSessions : Option Int) : Py (List Label) := do
  if ¬setup.darwin then
    raise (.runtimeError "LaunchAgent installation is available only on macOS".toList)
  else
    let program ← executable setup "pazuzu"
    let content ← plist setup gatewayLabel (gatewayArguments setup program host maxSessions) "gateway".toList "Standard".toList
    let target ← install rounds gatewayLabel content
    let others ← installMcp rounds setup mcpPort
    return target :: others

/-- The places of a bridge. -/
structure Endpoints where
  listenHost : Word
  listenPort : Int
  remoteHost : Word
  remotePort : Int

def bridgeArguments (setup : Setup) (program host : Word) (ends : Endpoints) (remoteCommand : List Word) : List Word :=
  [program, "bridge".toList, "--host".toList, host, "--control-path".toList, setup.controlPath,
    "--listen-host".toList, ends.listenHost, "--listen-port".toList, (toString ends.listenPort).toList,
    "--remote-host".toList, ends.remoteHost, "--remote-port".toList, (toString ends.remotePort).toList,
    "--".toList] ++ remoteCommand

/-- `install_bridge`. An empty host counts as none. -/
def installBridge (setup : Setup) (name : Word) (remoteCommand : List Word) (ends : Endpoints) : Py Label := do
  let host ← configuredHost
  if host.getD [] = [] then
    raise (.runtimeError "install the Pazuzu gateway before installing a bridge".toList)
  else if remoteCommand = [] then raise (.valueError "remote command must not be empty")
  else
    let label ← bridgeLabel name
    let program ← executable setup "pazuzu"
    let content ← plist setup label (bridgeArguments setup program (host.getD []) ends remoteCommand)
      ("bridge-".toList ++ name) "Background".toList
    install rounds label content

/-- Unload an agent and remove its file, if there is one. -/
def remove (label : Label) : Py (Option Label) := do
  let _ ← launchctl (.bootout label)
  waitUntilUnloaded rounds label
  if ← wait (.exists label) then
    wait (.unlink label)
    return some label
  else return none

/-- `remove_bridge`. -/
def removeBridge (name : Word) : Py (Option Label) := do
  let label ← bridgeLabel name
  remove rounds label

/-- `_bridge_labels`. -/
def bridgeLabels : Py (List Label) := wait .glob

/-- The loop of `uninstall_services`. -/
def removeAll : List Label → Py (List Label)
  | [] => return []
  | label :: labels => do
      let removed ← remove rounds label
      let others ← removeAll labels
      return removed.toList ++ others

/-- `uninstall_services`. -/
def uninstallServices : Py (List Label) := do
  let host ← configuredHost
  let labels ← bridgeLabels
  let removed ← removeAll rounds (labels ++ [mcpLabel, gatewayLabel])
  stopDetachedMaster host
  return removed

/-- `_ready`. -/
def ready (label : Label) : Py Bool := do
  if label = gatewayLabel then wait .connectUnix
  else
    let arguments ← programArguments label
    if label = mcpLabel then wait (.connectTcp "127.0.0.1".toList (option arguments "--port".toList))
    else
      let host := option arguments "--listen-host".toList
      wait (.connectTcp (if host.getD [] = [] then "127.0.0.1".toList else host.getD [])
        (option arguments "--listen-port".toList))

inductive Readiness where
  | ready
  | waiting
  | notLoaded
  deriving DecidableEq

def readiness (label : Label) : Py Readiness := do
  if ← loaded label then
    if ← ready label then return .ready else return .waiting
  else return .notLoaded

def readinessAll : List Label → Py (List (Label × Readiness))
  | [] => return []
  | label :: labels => do
      let status ← readiness label
      let others ← readinessAll labels
      return (label, status) :: others

/-- `service_status`. -/
def serviceStatus : Py (List (Label × Readiness)) := do
  let labels ← bridgeLabels
  readinessAll (gatewayLabel :: mcpLabel :: labels)

end Agents

section Surroundings

/-- The files that the pattern matches, in the order of their names. -/
def State.bridges (state : State) : List Label :=
  ((state.files.map Prod.fst).filter (bridgeLabelPrefix.isPrefixOf ·)).insertionSort
    fun label other => label ++ ".plist".toList ≤ other ++ ".plist".toList

/-- `launchctl` and launchd, which are not part of the repository: whether a call
may end so, with this property list in the label's file and this job, and what
launchd may make of a job by itself. -/
structure Launchctl where
  ends : Call → Option Document → Job → Completed → Bool
  turns : Job → Job → Bool

/-- What their manuals say. `print` finds what launchd has, `bootout` does nothing
but begin to unload a loaded job, `bootstrap` loads nothing but the file, where it
is a property list and the label is free, and has done so where it succeeds. By
itself launchd only finishes the unloading of a job. -/
structure Documented (launchctl : Launchctl) : Prop where
  print : ∀ {label file job completed}, launchctl.ends (.print label) file job completed = true →
    completed.left = job ∧ (completed.returncode = 0 ↔ job.isUnloaded = false)
  bootout : ∀ {label file job completed}, launchctl.ends (.bootout label) file job completed = true →
    completed.left = job ∨ ∃ document, job = .loaded document ∧ (completed.left = .leaving ∨ completed.left = .unloaded)
  bootstrap : ∀ {label file job completed}, launchctl.ends (.bootstrap label) file job completed = true →
    completed.left = job ∧ completed.returncode ≠ 0 ∨
      job = .unloaded ∧ ∃ document, file = some document ∧ document.arguments ≠ none ∧ completed.left = .loaded document
  turns : ∀ {job left}, launchctl.turns job left = true → job = .leaving ∧ left = .unloaded

/-- What is left of a draft that could not be written. -/
def State.cutDraft (state : State) (label : Label) : State :=
  { state with drafts := put label (.foreign none) state.drafts }

variable (launchctl : Launchctl)

/-- Any call may fail with an error of the system. -/
def deliver : (wait : Wait) → Except Raised wait.Reply → State → Option State
  | .never, _, _ => none
  | .load label, .error .other, state => if (state.file label).any (·.arguments.isNone) then some state else none
  | .stopMaster _, .error .timeoutExpired, state => some state
  | .writeDraft label content, .error (.valueError _), state =>
      if content.dump.isNone then some (state.cutDraft label) else none
  | .writeDraft label _, .error (.osError _), state => some (state.cutDraft label)
  | _, .error (.osError _), state => some state
  | .makeStateDir, .ok _, state => some state
  | .writeDraft label content, .ok _, state =>
      content.dump.map fun document => { state with drafts := put label document state.drafts }
  | .restrictDraft _, .ok _, state => some state
  | .replace label, .ok _, state =>
      (state.drafts.lookup label).map fun document =>
        { state with files := put label document state.files, drafts := erase label state.drafts }
  | .launchctl call, .ok completed, state =>
      if launchctl.ends call (state.file call.label) (state.jobs call.label) completed then
        some (state.setJob call.label completed.left)
      else none
  | .monotonic, .ok _, state => some state
  | .sleep _, .ok _, state => some state
  | .exists label, .ok found, state => if found = (state.file label).isSome then some state else none
  | .unlink label, .ok _, state =>
      if (state.file label).isSome then some { state with files := erase label state.files } else none
  | .glob, .ok labels, state => if labels = state.bridges then some state else none
  | .load label, .ok arguments, state =>
      if (state.file label).bind (·.arguments) = some arguments then some state else none
  | .controlExists, .ok _, state => some state
  | .stopMaster _, .ok _, state => some state
  | .connectUnix, .ok _, state => some state
  | .connectTcp _ _, .ok _, state => some state
  | _, _, _ => none

/-- launchd makes this of the job of the label. -/
def disturb (move : Label × Job) (state : State) : Option State :=
  if launchctl.turns (state.jobs move.1) move.2 then some (state.setJob move.1 move.2) else none

/-- launchd works while a call is under way and between two of them. -/
abbrev surroundings : Surroundings signature where
  Move := Label × Job
  preempts := true
  deliver := deliver launchctl
  disturb := disturb launchctl

end Surroundings
end Pazuzu.Launchd
