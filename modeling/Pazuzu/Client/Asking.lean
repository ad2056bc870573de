import Pazuzu.Client.Commands

/-! What the client's methods send, over all answers: a write at most once and
never with leave to replay it. -/
namespace Pazuzu.Client

open Asyncio Python Slurm Surroundings

/-- A method with its arguments. -/
inductive Method where
  | health (probe : Bool) (timeout : Double)
  | reconnect (force : Bool)
  | run (command : Word) (stdin : Content) (timeout : Double)
  | read (command : Word) (stdin : Content) (timeout : Double)
  | runScript (interpreter : Word) (source : Content) (arguments : List Word) (timeout : Double)
  | slurmQueue
  | inspectSlurmJob (jobId : Word)
  | submitSlurm (job : ValidJob)
  | slurmStatus (jobId : Word)
  | cancelSlurm (jobId : Word)
  | tail (remotePath : Word) (lines : Int)

namespace Method

abbrev Result : Method → Type
  | .health _ _ | .reconnect _ => Fields
  | .submitSlurm _ => Handle
  | .slurmStatus _ => Status
  | _ => CommandResult

def code : (method : Method) → Py method.Result
  | .health probe timeout => Client.health probe timeout
  | .reconnect force => Client.reconnect force
  | .run command stdin timeout => Client.run command stdin timeout
  | .read command stdin timeout => Client.read command stdin timeout
  | .runScript interpreter source arguments timeout => Client.runScript interpreter source arguments timeout
  | .slurmQueue => Client.slurmQueue
  | .inspectSlurmJob jobId => Client.inspectSlurmJob jobId
  | .submitSlurm job => Client.submitSlurm job
  | .slurmStatus jobId => Client.slurmStatus jobId
  | .cancelSlurm jobId => Client.cancelSlurm jobId
  | .tail remotePath lines => Client.tail remotePath lines

/-- The methods that only read on the remote side. -/
def isRead : Method → Bool
  | .read _ _ _ | .slurmQueue | .inspectSlurmJob _ | .slurmStatus _ | .tail _ _ => true
  | _ => false

/-- The commands that the remote shell is to read, one after the other. An
interpreter that is an assignment or a reserved word is left to the shell. -/
def commands : Method → List (Word → Prop)
  | .run command _ _ | .read command _ _ => [(· = command)]
  | .runScript interpreter _ arguments _ =>
      [fun sent => sent = scriptCommand interpreter arguments ∧
        (Posix.isCommandName interpreter = true → Runs sent (interpreter :: "-".toList :: arguments))]
  | .slurmQueue =>
      [fun sent => ∀ environment, Posix.readCommands environment sent = some [["squeue".toList, "-u".toList,
        environment "USER".toList, "-o".toList, "%.18i %.28j %.10T %.12M %.10l %.20R".toList]]]
  | .inspectSlurmJob jobId => [(Runs · ["scontrol".toList, "show".toList, "job".toList, "-o".toList, jobId])]
  | .submitSlurm job =>
      [fun sent => ∃ front back, sent = front ++ " && ".toList ++ back ∧
        Runs front ["mkdir".toList, "-p".toList, "--".toList, job.logDir] ∧ Runs back ["sbatch".toList, "--parsable".toList]]
  | .slurmStatus jobId =>
      [(Runs · ["squeue".toList, "-h".toList, "-j".toList, jobId, "-o".toList, "%i|%T|%M|%l|%R".toList]),
        (Runs · ["sacct".toList, "-n".toList, "-P".toList, "-X".toList, "-j".toList, jobId,
          "--format=JobIDRaw,State,Elapsed,ExitCode".toList])]
  | .cancelSlurm jobId => [(Runs · ["scancel".toList, "--".toList, jobId])]
  | .tail remotePath lines =>
      [(Runs · ["tail".toList, "-n".toList, (toString lines).toList, "--".toList, remotePath])]
  | .health _ _ | .reconnect _ => []

/-- The input of the command. -/
def Feeds : Method → Bytes → Prop
  | .run _ stdin _, sent | .read _ stdin _, sent | .runScript _ stdin _ _, sent => sent = stdin.encode
  | .submitSlurm job, sent => ∃ script, renderSlurmScript job.toJob = .ok script ∧ sent = (Content.string script).encode
  | _, sent => sent = []

def timeout : Method → Double
  | .run _ _ timeout | .read _ _ timeout | .runScript _ _ _ timeout => timeout
  | _ => halfMinute

/-- An execution of such a command, as the method asks for it. -/
def Executes (method : Method) (means : Word → Prop) : Ask → Prop
  | .execute request => request.retrySafe = method.isRead ∧ request.timeout = method.timeout ∧ means request.command ∧
      method.Feeds request.stdin
  | .status _ _ | .reconnect _ => False

/-- What a method may send, in this order. -/
def plan : (method : Method) → List (Ask → Prop)
  | .health probe timeout => [(· = .status probe timeout)]
  | .reconnect force => [(· = .reconnect force)]
  | method => method.commands.map method.Executes

end Method

/-- What has been sent, in its order, is the beginning of a plan. -/
def Follows : List (Ask → Prop) → List Ask → Prop
  | _, [] => True
  | [], _ :: _ => False
  | expected :: plan, ask :: asks => expected ask ∧ Follows plan asks

/-- What has been sent, the oldest first. -/
def sent : Journal → List Ask
  | [] => []
  | .asked ask :: journal => sent journal ++ [ask]
  | .answered _ _ :: journal => sent journal

/-- What holds of the journal of a method at any time. -/
def Within (method : Method) (journal : Journal) : Prop := Follows method.plan (sent journal)

section Rules

variable {method : Method} {journal : Journal} {α β : Type} {inv : Journal → Prop}

theorem drifts_eq {before after : Journal} (h : surroundings.Drifts before after) : after = before := by
  induction h with
  | refl => rfl
  | tail _ hLast _ =>
      obtain ⟨move, -⟩ := hLast
      cases move

theorem wp_send {ask : Ask} {post : Except Raised ask.Reply → Journal → Prop} (hAsk : inv (.asked ask :: journal))
    (hReply : ∀ reply, inv (.answered ask reply :: .asked ask :: journal) ∧
      post reply (.answered ask reply :: .asked ask :: journal)) :
    surroundings.wp inv (send ask) post journal := by
  refine wp_update_bind fun later _ hBetween => ?_
  obtain rfl := hBetween.eq rfl
  refine ⟨hAsk, wp_suspend fun after reply final _ hDrifts hDeliver => ?_⟩
  obtain rfl := drifts_eq hDrifts
  obtain rfl := Option.some.inj hDeliver
  exact hReply reply

/-- What `slurm` has computed is returned or raised. -/
theorem wp_ofSlurm {code : Except Slurm.Error α} {post : Except Raised α → Journal → Prop}
    (hOk : ∀ value, code = .ok value → post (.ok value) journal)
    (hError : ∀ error raised, code = .error error → post (.error raised) journal) :
    surroundings.wp inv (ofSlurm code) post journal := by
  cases code with
  | ok value => exact hOk value rfl
  | error error => cases error <;> exact hError _ _ rfl

theorem wp_ofSlurm_bind {code : Except Slurm.Error α} {next : α → Py β} {post : Except Raised β → Journal → Prop}
    (hOk : ∀ value, code = .ok value → surroundings.wp inv (next value) post journal)
    (hError : ∀ error raised, code = .error error → post (.error raised) journal) :
    surroundings.wp inv ((ofSlurm code).bind next) post journal :=
  (wp_bind _ _ _ _).mpr (wp_ofSlurm hOk hError)

theorem wp_requireSuccess_bind {result : CommandResult} {operation : String} {next : Unit → Py β}
    {post : Except Raised β → Journal → Prop}
    (hOk : result.exitCode = 0 → surroundings.wp inv (next ()) post journal)
    (hError : ∀ raised, result.exitCode ≠ 0 → post (.error raised) journal) :
    surroundings.wp inv ((requireSuccess result operation).bind next) post journal := by
  unfold requireSuccess
  split
  · next hFailure => exact hError _ hFailure
  · next hSuccess => exact hOk (not_not.mp hSuccess)

/-- One thing more is sent. -/
theorem wp_send_within {ask : Ask} {post : Except Raised ask.Reply → Journal → Prop}
    (hFollows : Follows method.plan (sent journal ++ [ask]))
    (hPost : ∀ reply later, sent later = sent journal ++ [ask] → post reply later) :
    surroundings.wp (Within method) (send ask) post journal :=
  wp_send hFollows fun reply => ⟨hFollows, hPost reply _ rfl⟩

end Rules

section Methods

theorem Within.initial (method : Method) : Within method [] := by
  change Follows method.plan []
  cases method.plan <;> trivial

theorem validateJobId_same {text jobId : Word} (h : validateJobId text = .ok jobId) : text = jobId := by
  rw [validateJobId] at h
  split at h
  · exact Except.ok.inj h
  · cases h

/-- Any end of a method. -/
abbrev Ends {α : Type} : Except Raised α → Journal → Prop := fun _ _ => True

theorem wp_submitted {result : CommandResult} {job : Slurm.Job} {inv : Journal → Prop} {journal : Journal} :
    surroundings.wp inv (submitted result job) Ends journal := by
  unfold submitted
  split <;> trivial

/-- The queue is asked first, and the accounting only behind it. -/
theorem slurmStatus_within (jobId : Word) :
    surroundings.wp (Within (.slurmStatus jobId)) (Client.slurmStatus jobId) Ends [] := by
  refine wp_ofSlurm_bind (fun value hId => (wp_bind _ _ _ _).mpr ?_) fun _ _ _ => trivial
  obtain rfl := validateJobId_same hId
  have hQueue : (Method.slurmStatus jobId).Executes
      (Runs · ["squeue".toList, "-h".toList, "-j".toList, jobId, "-o".toList, "%i|%T|%M|%l|%R".toList])
      (.execute ⟨squeueCommand jobId, noInput.encode, halfMinute, true⟩) := ⟨rfl, rfl, runs_squeueCommand hId, rfl⟩
  refine wp_send_within ⟨hQueue, trivial⟩ fun reply journal hSent => ?_
  cases reply with
  | error raised => trivial
  | ok queued =>
      dsimp only
      split
      · trivial
      · have hBoth : Follows (Method.slurmStatus jobId).plan
            (sent journal ++ [.execute ⟨sacctCommand jobId, noInput.encode, halfMinute, true⟩]) := by
          rw [hSent]
          exact ⟨hQueue, ⟨rfl, rfl, runs_sacctCommand hId, rfl⟩, trivial⟩
        refine (wp_bind _ _ _ _).mpr (wp_send_within hBoth fun reply later _ => ?_)
        cases reply with
        | error raised => trivial
        | ok accounted =>
            refine wp_requireSuccess_bind (fun _ => wp_ofSlurm_bind (fun found _ => ?_) fun _ _ _ => trivial) fun _ _ => trivial
            cases found with
            | some status => trivial
            | none => exact wp_requireSuccess_bind (fun _ => trivial) fun _ _ => trivial

/-- Each method sends what it may. -/
theorem method_within (method : Method) : surroundings.wp (Within method) method.code Ends [] := by
  have hOnce : ∀ ask, Follows method.plan [ask] → surroundings.wp (Within method) (send ask) Ends [] :=
    fun ask hFollows => wp_send_within hFollows fun _ _ _ => trivial
  cases method with
  | health probe timeout => exact hOnce _ ⟨rfl, trivial⟩
  | reconnect force => exact hOnce _ ⟨rfl, trivial⟩
  | run command stdin timeout => exact hOnce _ ⟨⟨rfl, rfl, rfl, rfl⟩, trivial⟩
  | read command stdin timeout => exact hOnce _ ⟨⟨rfl, rfl, rfl, rfl⟩, trivial⟩
  | runScript interpreter source arguments timeout =>
      change surroundings.wp _ (Client.runScript interpreter source arguments timeout) Ends []
      unfold runScript
      split
      · trivial
      · exact hOnce _ ⟨⟨rfl, rfl, ⟨rfl, fun hName => runs_scriptCommand hName arguments⟩, rfl⟩, trivial⟩
  | slurmQueue => exact hOnce _ ⟨⟨rfl, rfl, reads_queueCommand, rfl⟩, trivial⟩
  | inspectSlurmJob jobId =>
      refine wp_ofSlurm_bind (fun value hId => ?_) fun _ _ _ => trivial
      obtain rfl := validateJobId_same hId
      exact hOnce _ ⟨⟨rfl, rfl, runs_inspectCommand _, rfl⟩, trivial⟩
  | submitSlurm job =>
      refine wp_ofSlurm_bind (fun script hScript => (wp_bind _ _ _ _).mpr ?_) fun _ _ _ => trivial
      refine wp_mono (hOnce _ ⟨⟨rfl, rfl, runs_submitCommand _, script, hScript, rfl⟩, trivial⟩) fun outcome journal _ => ?_
      cases outcome with
      | error raised => trivial
      | ok result => exact wp_requireSuccess_bind (fun _ => wp_submitted) fun _ _ => trivial
  | slurmStatus jobId => exact slurmStatus_within jobId
  | cancelSlurm jobId =>
      refine wp_ofSlurm_bind (fun value hId => (wp_bind _ _ _ _).mpr ?_) fun _ _ _ => trivial
      obtain rfl := validateJobId_same hId
      refine wp_mono (hOnce _ ⟨⟨rfl, rfl, runs_cancelCommand hId, rfl⟩, trivial⟩) fun outcome journal _ => ?_
      cases outcome with
      | error raised => trivial
      | ok result => exact wp_requireSuccess_bind (fun _ => trivial) fun _ _ => trivial
  | tail remotePath lines =>
      change surroundings.wp _ (Client.tail remotePath lines) Ends []
      unfold tail
      split
      · trivial
      · split
        · trivial
        · next hLines => exact hOnce _ ⟨⟨rfl, rfl, runs_tailCommand _ (not_not.mp hLines).1, rfl⟩, trivial⟩

/-- Whatever is answered, a method sends at most what it may, in the order it may:
with leave to replay it if and only if it reads, and with a command that the shell
reads as the words of the method. -/
theorem run_within {method : Method} {final : Solo signature method.Result} {picks : List (Pick surroundings)}
    (hRun : surroundings.run ⟨method.code, []⟩ picks = some final) : Within method final.state :=
  run_inv (fun (move : Empty) => move.elim) (Within.initial method) (method_within method) hRun

/-- Cancelling one job, up to the answer. -/
theorem run_within_cancel :
    Within (.cancelSlurm "17".toList)
      [.asked (.execute ⟨"scancel -- 17".toList, [], .finite 30, false⟩)] :=
  have hRun : surroundings.run ⟨(Method.cancelSlurm "17".toList).code, []⟩ [.go] = some ⟨_, _⟩ := rfl
  run_within hRun

end Methods
end Pazuzu.Client
