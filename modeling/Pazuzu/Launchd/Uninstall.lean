import Pazuzu.Launchd.Removal

/-! Commands one after another, each run to its end or cut off anywhere, and what
an uninstallation leaves of them. -/
namespace Pazuzu.Launchd

open Asyncio Surroundings

variable {launchctl : Launchctl} {inv : State → Prop} {state : State} {label : Label} {rounds : Nat} {setup : Setup}

section Commands

/-- The commands of the module with their arguments. -/
inductive Command where
  | installServices (host : Word) (mcpPort maxSessions : Option Int)
  | installBridge (name : Word) (remoteCommand : List Word) (ends : Endpoints)
  | removeBridge (name : Word)
  | uninstallServices
  | serviceStatus

/-- A command without its value. -/
def Command.code (rounds : Nat) (setup : Setup) : Command → Py Unit
  | .installServices host mcpPort maxSessions => Launchd.installServices rounds setup host mcpPort maxSessions >>= fun _ => pure ()
  | .installBridge name remoteCommand ends => Launchd.installBridge rounds setup name remoteCommand ends >>= fun _ => pure ()
  | .removeBridge name => Launchd.removeBridge rounds name >>= fun _ => pure ()
  | .uninstallServices => Launchd.uninstallServices rounds >>= fun _ => pure ()
  | .serviceStatus => Launchd.serviceStatus >>= fun _ => pure ()

/-- One command as far as it comes: it may fail, be interrupted or be killed. -/
structure Session (launchctl : Launchctl) where
  rounds : Nat
  setup : Setup
  command : Command
  picks : List (Pick (surroundings launchctl))

/-- The state that the commands leave, the first of them first. -/
def perform : State → List (Session launchctl) → Option State
  | state, [] => some state
  | state, session :: rest =>
      match (surroundings launchctl).run ⟨session.command.code session.rounds session.setup, state⟩ session.picks with
      | none => none
      | some solo => perform solo.state rest

theorem Safe.of_returns {α : Type} {code : Py α} {P : State → α → State → Prop}
    (h : ∀ state, (surroundings launchctl).wp inv code (Returns (P state)) state) : Safe launchctl inv code := fun state =>
  wp_mono (h state) fun _ _ _ => trivial

theorem Safe.of_looks {α : Type} {code : Py α} (h : Looks launchctl inv code) : Safe launchctl inv code := fun state =>
  wp_mono (h state) fun _ _ _ => trivial

theorem safe_executable (name : String) : Safe launchctl inv (executable setup name) := by
  unfold executable
  split
  · exact .pure _
  · exact .raise _

theorem safe_bridgeLabel (name : Word) : Safe launchctl inv (bridgeLabel name) := .ite (.pure _) (.raise _)

variable [Kept launchctl inv]

theorem safe_plist (label : Label) (arguments : List Word) (logName processType : Word) :
    Safe launchctl inv (plist setup label arguments logName processType) :=
  (Safe.wait fun _ h => by cases h).bind fun _ => .pure _

theorem safe_waitUntilUnloaded : Safe launchctl inv (waitUntilUnloaded rounds label) := fun _ =>
  wp_waitUntilUnloaded (fun _ _ _ => trivial) fun _ _ _ => trivial

theorem safe_loaded : Safe launchctl inv (loaded label) := (Safe.call _).bind fun _ => .pure _

theorem safe_bootstrapLoop (failure : Word) (delays : List ℚ) :
    Safe launchctl inv (bootstrapLoop label failure delays) := by
  induction delays generalizing failure with
  | nil => exact .raise _
  | cons delay delays ih =>
      refine (Safe.call _).bind fun result => .ite (.pure _) (safe_loaded.bind fun here => ?_)
      exact .ite (.pure _) ((Safe.wait fun _ h => by cases h).bind fun _ => ih _)

theorem safe_writePlist (content : Agent) : Safe launchctl inv (writePlist label content) :=
  (Safe.wait fun _ h => by cases h).bind fun _ => (Safe.wait fun _ h => by cases h).bind fun _ =>
    Safe.wait fun _ h => by cases h

theorem safe_install (content : Agent) : Safe launchctl inv (install rounds label content) :=
  (safe_writePlist content).bind fun _ => (Safe.call _).bind fun _ =>
    safe_waitUntilUnloaded.bind fun _ => (safe_bootstrapLoop _ _).bind fun _ => .pure _

theorem safe_installMcp (port : Option Int) : Safe launchctl inv (installMcp rounds setup port) := by
  cases port with
  | none => exact .pure _
  | some port =>
      exact (safe_executable _).bind fun _ => (safe_plist _ _ _ _).bind fun _ => (safe_install _).bind fun _ => .pure _

theorem safe_readinessAll (labels : List Label) : Safe launchctl inv (readinessAll labels) := by
  have hArguments : ∀ label, Safe launchctl inv (programArguments label) := fun label => .of_looks (looks_programArguments label)
  induction labels with
  | nil => exact .pure _
  | cons label labels ih =>
      refine Safe.bind (safe_loaded.bind fun here => ?_) fun _ => ih.bind fun _ => .pure _
      refine .ite (Safe.bind (.ite (Safe.wait fun _ h => by cases h) ((hArguments label).bind fun _ =>
        .ite (Safe.wait fun _ h => by cases h) (Safe.wait fun _ h => by cases h))) fun answering => ?_) (.pure _)
      exact .ite (.pure _) (.pure _)

/-- Neither does a command that is run to any point. -/
theorem safe_command (command : Command) : Safe launchctl inv (command.code rounds setup) := by
  cases command with
  | installServices host mcpPort maxSessions =>
      refine Safe.bind (.ite (.raise _) ?_) fun _ => .pure _
      exact (safe_executable _).bind fun _ => (safe_plist _ _ _ _).bind fun _ => (safe_install _).bind fun _ =>
        (safe_installMcp mcpPort).bind fun _ => .pure _
  | installBridge name remoteCommand ends =>
      refine Safe.bind ((Safe.of_looks looks_configuredHost).bind fun host => .ite (.raise _) (.ite (.raise _) ?_))
        fun _ => .pure _
      exact (safe_bridgeLabel name).bind fun _ => (safe_executable _).bind fun _ => (safe_plist _ _ _ _).bind fun _ =>
        safe_install _
  | removeBridge name =>
      exact Safe.bind ((safe_bridgeLabel name).bind fun label => .of_returns fun _ => wp_remove label) fun _ => .pure _
  | uninstallServices =>
      refine Safe.bind ((Safe.of_looks looks_configuredHost).bind fun host => ?_) fun _ => .pure _
      refine (Safe.wait fun _ h => by cases h).bind fun labels => ?_
      exact (Safe.of_returns fun _ => wp_removeAll _).bind fun removed =>
        (Safe.of_looks (looks_stopDetachedMaster host)).bind fun _ => .pure _
  | serviceStatus =>
      exact Safe.bind ((Safe.wait fun _ h => by cases h).bind fun labels => safe_readinessAll _) fun _ => .pure _

omit [Kept launchctl inv]

theorem backed_moves (hDocumented : Documented launchctl) (move : Label × Job) (before after : State) (h : Backed before)
    (hMove : disturb launchctl move before = some after) : Backed after :=
  h.drift (drift hDocumented (Relation.ReflTransGen.single ⟨move, hMove⟩))

/-- No sequence of commands ever leaves launchd with a job whose file is gone:
wherever one fails, is interrupted or is killed. -/
theorem backed_of_perform (hDocumented : Documented launchctl) {sessions : List (Session launchctl)} {final : State}
    (hStart : Backed state) (hRun : perform state sessions = some final) : Backed final := by
  have := kept_backed hDocumented
  induction sessions generalizing state with
  | nil =>
      cases hRun
      exact hStart
  | cons session rest ih =>
      rw [perform] at hRun
      split at hRun
      · cases hRun
      · next solo hSolo =>
          exact ih (run_inv (backed_moves hDocumented) hStart (safe_command session.command state) hSolo) hRun

end Commands

section Uninstalling

/-- Nothing is left of the managed agents and nothing else is touched. -/
structure Uninstalled (before after : State) (removed : List Label) : Prop where
  gone : ∀ label, isManaged label = true → Gone label after
  drafts : after.drafts = before.drafts
  others : ∀ label, isManaged label = false → Untouched label before after
  told : ∀ label, label ∈ removed ↔ isManaged label = true ∧ (before.file label).isSome = true

theorem mem_bridges : label ∈ state.bridges ↔ bridgeLabelPrefix.isPrefixOf label = true ∧ (state.file label).isSome = true := by
  have hFile : (state.file label).isSome = true ↔ label ∈ state.files.map Prod.fst := by
    rw [State.file, List.lookup_isSome_iff, List.mem_map]
    constructor
    · rintro ⟨pair, hIn, hSame⟩
      exact ⟨pair, hIn, (eq_of_beq hSame).symm⟩
    · rintro ⟨pair, hIn, rfl⟩
      exact ⟨pair, hIn, beq_self_eq_true _⟩
  rw [State.bridges, List.mem_insertionSort, List.mem_filter, hFile]
  exact and_comm

theorem isManaged_iff :
    isManaged label = true ↔ label = gatewayLabel ∨ label = mcpLabel ∨ bridgeLabelPrefix.isPrefixOf label = true :=
  decide_eq_true_iff

/-- The labels that are removed are managed, and no other managed one is left. -/
theorem managed_of_listed (h : label ∈ state.bridges ++ [mcpLabel, gatewayLabel]) : isManaged label = true := by
  rw [isManaged_iff]
  rcases List.mem_append.mp h with hBridge | hFixed
  · exact Or.inr (Or.inr (mem_bridges.mp hBridge).1)
  · rcases List.mem_cons.mp hFixed with hMcp | hGateway
    · exact Or.inr (Or.inl hMcp)
    · exact Or.inl (List.mem_singleton.mp hGateway)

theorem gone_of_unlisted (hBacked : Backed state) (hManaged : isManaged label = true)
    (h : label ∉ state.bridges ++ [mcpLabel, gatewayLabel]) : Gone label state := by
  simp only [List.mem_append, List.mem_cons, List.not_mem_nil, or_false, not_or] at h
  have hPrefix := ((isManaged_iff.mp hManaged).resolve_left h.2.2).resolve_left h.2.1
  have hNoFile : (state.file label).isSome = false := Bool.eq_false_iff.mpr fun hSome => h.1 (mem_bridges.mpr ⟨hPrefix, hSome⟩)
  refine ⟨Option.isNone_iff_eq_none.mp (Option.isSome_eq_false_iff.mp hNoFile), ?_⟩
  by_contra hHere
  rw [hBacked label hManaged (Bool.not_eq_true _ ▸ hHere)] at hNoFile
  cases hNoFile

theorem wp_uninstallServices (hDocumented : Documented launchctl) :
    (surroundings launchctl).wp Backed (Launchd.uninstallServices rounds)
      (Returns fun removed after => Uninstalled state after removed) state := by
  have := kept_backed hDocumented
  refine wp_returns_bind looks_configuredHost.returns fun host asked hAsked => ?_
  refine wp_returns_bind (P := fun labels listed => Backed listed ∧ Drift asked listed ∧ labels = listed.bridges) ?_
    fun labels listed hListed => ?_
  · refine wp_suspend fun later reply after hLater hDrifts hDeliver => ?_
    have hDrift := drift hDocumented hDrifts
    obtain rfl := deliver_quiet hDocumented rfl hDeliver
    refine ⟨hLater, ?_⟩
    cases reply with
    | error raised => trivial
    | ok labels =>
        simp only [deliver] at hDeliver
        split at hDeliver
        · next hLabels => exact ⟨hLater, hDrift, hLabels⟩
        · cases hDeliver
  · obtain ⟨hBacked, hDrift, rfl⟩ := hListed
    refine wp_returns_bind (wp_removeAll _) fun removed cleared hCleared => ?_
    refine wp_returns_bind (looks_stopDetachedMaster host).returns fun _ last hLast => ?_
    have hBefore : ∀ label, Untouched label state listed := (hAsked.trans hDrift).untouched
    have hAfter : ∀ label, Untouched label cleared last := hLast.untouched
    refine ⟨fun label hManaged => ?_, ?_, fun label hForeign => ?_, fun label => ?_⟩
    · refine Gone.untouched ?_ (hAfter label)
      by_cases hIn : label ∈ listed.bridges ++ [mcpLabel, gatewayLabel]
      · exact hCleared.gone label hIn
      · exact (gone_of_unlisted hBacked hManaged hIn).untouched (hCleared.others label hIn)
    · exact hLast.drafts.trans (hCleared.drafts.trans (hAsked.trans hDrift).drafts)
    · have hNot : label ∉ listed.bridges ++ [mcpLabel, gatewayLabel] := fun hIn => by
        rw [managed_of_listed hIn] at hForeign
        cases hForeign
      exact ((hBefore label).trans (hCleared.others label hNot)).trans (hAfter label)
    · rw [hCleared.told, ← (hBefore label).1]
      refine ⟨fun h => ⟨managed_of_listed h.1, h.2⟩, fun h => ⟨?_, h.2⟩⟩
      by_contra hNot
      have hNone := (gone_of_unlisted hBacked h.1 hNot).file
      rw [hNone] at h
      cases h.2

/-- After any commands, each run to its end or cut off anywhere, an uninstallation
that returns has left no file and no job of the managed agents, has touched no
other agent and no draft, and tells which files it has removed. -/
theorem uninstall_leaves_nothing (hDocumented : Documented launchctl) {sessions : List (Session launchctl)} {middle : State}
    (hStart : Backed state) (hSessions : perform state sessions = some middle) {removed : List Label} {final : State}
    {picks : List (Pick (surroundings launchctl))}
    (hRun : (surroundings launchctl).run ⟨Launchd.uninstallServices rounds, middle⟩ picks = some ⟨.pure removed, final⟩) :
    Uninstalled middle final removed := by
  obtain ⟨ending, hDrifts, hEnding⟩ := run_post (backed_moves hDocumented) (backed_of_perform hDocumented hStart hSessions)
    (wp_uninstallServices hDocumented) hRun (show Coro.pure removed = Coro.ofExcept (.ok removed) from rfl)
  have hDrift := drift hDocumented hDrifts
  have hLater := hDrift.untouched
  exact ⟨fun label hManaged => (hEnding.gone label hManaged).untouched (hLater label), hDrift.drafts.trans hEnding.drafts,
    fun label hForeign => (hEnding.others label hForeign).trans (hLater label), hEnding.told⟩

/-- A `launchctl` that takes every property list at once. -/
def prompt : Launchctl where
  ends
    | .print _, _, job, completed => completed.left = job ∧ (completed.returncode = 0 ↔ job.isUnloaded = false)
    | .bootout _, _, job, completed =>
        match job with
        | .loaded _ => completed.returncode = 0 ∧ completed.left = .leaving
        | _ => completed.returncode ≠ 0 ∧ completed.left = job
    | .bootstrap _, file, job, completed =>
        if completed.returncode = 0 then
          job = .unloaded ∧ file.any fun document => document.arguments.isSome && completed.left = .loaded document
        else completed.left = job
  turns job left := job = .leaving ∧ left = .unloaded

theorem documented_prompt : Documented prompt where
  print h := of_decide_eq_true h
  bootout {label file job completed} h := by
    cases job with
    | loaded document => exact Or.inr ⟨document, rfl, Or.inl (of_decide_eq_true h).2⟩
    | _ => exact Or.inl (of_decide_eq_true h).2
  bootstrap {label file job completed} h := by
    simp only [prompt] at h
    split at h
    · next hCode =>
        obtain ⟨hJob, hFile⟩ := of_decide_eq_true h
        obtain ⟨document, hDocument, hTaken⟩ := (Option.any_eq_true _ _).mp hFile
        rw [Bool.and_eq_true, Option.isSome_iff_ne_none, decide_eq_true_eq] at hTaken
        exact Or.inr ⟨hJob, document, hDocument, hTaken⟩
    · next hCode => exact Or.inl ⟨of_decide_eq_true h, hCode⟩
  turns h := of_decide_eq_true h

/-- Each call as it goes on a machine with nothing on it: an agent that is asked
for is not there, and this one is loaded at once. -/
def empty (content : Document) : (wait : Wait) → Except Raised wait.Reply
  | .launchctl (.print _) | .launchctl (.bootout _) => .ok ⟨113, some [], .unloaded⟩
  | .launchctl (.bootstrap _) => .ok ⟨0, some [], .loaded content⟩
  | .monotonic => .ok 0
  | .exists _ | .controlExists | .connectUnix | .connectTcp _ _ => .ok false
  | .glob | .load _ => .ok []
  | .never => .error (.osError "")
  | .makeStateDir | .writeDraft _ _ | .restrictDraft _ | .replace _ | .sleep _ | .unlink _ | .stopMaster _ => .ok ()

def mac : Setup where
  darwin := true
  executable _ := some "/bin/pazuzu".toList
  absolute := by
    rintro name path ⟨⟩
    rfl
  socketPath := "/s".toList
  controlPath := "/c".toList
  stateDir := "/d".toList

def gatewayAgent : Document := .agent
  { label := gatewayLabel, programArguments := gatewayArguments mac "/bin/pazuzu".toList "host".toList none
    processType := "Standard".toList, standardOutPath := "/d/gateway.stdout.log".toList
    standardErrorPath := "/d/gateway.stderr.log".toList }

/-- And on one with a gateway. -/
def occupied (content : Document) : (wait : Wait) → Except Raised wait.Reply
  | .launchctl (.bootout _) => .ok ⟨0, some [], .leaving⟩
  | .exists _ => .ok true
  | .load _ => .ok (gatewayArguments mac "/bin/pazuzu".toList "host".toList none)
  | wait => empty content wait

/-- The installation of a gateway that is killed behind the bootstrap. -/
def killed : Session prompt :=
  ⟨1, mac, .installServices "host".toList none none, List.replicate 8 (.answer (empty gatewayAgent))⟩

/-- What it leaves. -/
def gatewayOnly : State := (perform {} [killed]).getD {}

/-- What `launchctl` and the system answer to an uninstallation then. -/
def uninstallation : List (Pick (surroundings prompt)) :=
  [.answer (occupied gatewayAgent)] ++ List.replicate 5 (.answer (empty gatewayAgent)) ++
    [.answer (occupied gatewayAgent), .disturb (gatewayLabel, .unloaded)] ++
    List.replicate 2 (.answer (empty gatewayAgent)) ++ List.replicate 2 (.answer (occupied gatewayAgent)) ++
    [.answer (empty gatewayAgent)]

def uninstalled : State :=
  (((surroundings prompt).run ⟨Launchd.uninstallServices 1, gatewayOnly⟩ uninstallation).map Solo.state).getD {}

theorem uninstall_leaves_nothing_killed : gatewayOnly.file gatewayLabel = some gatewayAgent ∧
    gatewayOnly.jobs gatewayLabel = .loaded gatewayAgent ∧ Uninstalled gatewayOnly uninstalled [gatewayLabel] := by
  have hSessions : perform {} [killed] = some gatewayOnly := rfl
  have hRun : (surroundings prompt).run ⟨Launchd.uninstallServices 1, gatewayOnly⟩ uninstallation =
      some ⟨.pure [gatewayLabel], uninstalled⟩ := rfl
  exact ⟨rfl, rfl, uninstall_leaves_nothing documented_prompt (fun _ _ hHere => by cases hHere) hSessions hRun⟩

end Uninstalling
end Pazuzu.Launchd
