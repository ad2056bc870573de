import Pazuzu.Launchd.Uninstall

/-! An installation that returns has loaded the very agent that is in the file,
and a bridge uses the host that the gateway was installed for. -/
namespace Pazuzu.Launchd

open Asyncio Surroundings

variable {launchctl : Launchctl} {inv : State → Prop} {state : State} {label : Label} {content : Agent}
  {document : Document} {rounds : Nat} {setup : Setup}

section Loading

/-- The agent is in its file, and the other labels are as they were. -/
structure Written (label : Label) (document : Document) (before after : State) : Prop where
  file : after.file label = some document
  others : ∀ other, other ≠ label → Untouched other before after

theorem Written.drift {after later : State} (h : Written label document state after) (hDrift : Drift after later) :
    Written label document state later :=
  ⟨(hDrift.file label).trans h.file, fun other hOther => (h.others other hOther).trans (hDrift.untouched other)⟩

theorem wp_writePlist [Kept launchctl inv] :
    (surroundings launchctl).wp inv (writePlist label content)
      (Returns fun _ after => ∃ document, content.dump = some document ∧ Written label document state after) state := by
  refine wp_returns_bind (P := fun _ later => Drift state { later with drafts := state.drafts } ∧
    ∃ document, content.dump = some document ∧ later.drafts.lookup label = some document) ?_ fun _ drafted hDrafted => ?_
  · refine wp_wait (fun _ _ hWait _ => by cases hWait) fun later reply after _ hDrift hDeliver => ?_
    cases reply with
    | error raised => trivial
    | ok value =>
        obtain ⟨document, hDump, rfl⟩ := Option.map_eq_some_iff.mp hDeliver
        exact ⟨⟨hDrift.files, rfl, hDrift.jobs⟩, document, hDump, (lookup_put later.drafts document).trans (if_pos rfl)⟩
  · obtain ⟨hBefore, document, hDump, hDraft⟩ := hDrafted
    refine wp_returns_bind (Looks.wait (.restrictDraft label) rfl).returns fun _ restricted hRestricted => ?_
    refine wp_wait (fun _ _ hWait _ => by cases hWait) fun later reply after _ hDrift hDeliver => ?_
    cases reply with
    | error raised => trivial
    | ok value =>
        obtain ⟨found, hFound, hJobs, hFiles⟩ := deliver_replace hDeliver
        have hSame : found = document := by
          rw [hDrift.drafts, hRestricted.drafts, hDraft] at hFound
          exact (Option.some.inj hFound).symm
        refine ⟨document, hDump, by rw [hFiles, if_pos rfl, hSame], fun other hOther => ?_⟩
        have hMeanwhile : Untouched other state later :=
          (hBefore.untouched other).trans ((hRestricted.trans hDrift).untouched other)
        exact hMeanwhile.trans ⟨by rw [hFiles, if_neg hOther], Or.inl (by rw [hJobs])⟩

/-- The agent is in its file, which can be read, and launchd has loaded it from
there. -/
structure Installed (label : Label) (document : Document) (before after : State) : Prop
    extends Written label document before after where
  readable : document.arguments ≠ none
  job : after.jobs label = .loaded document

theorem Installed.drift {after later : State} (h : Installed label document state after) (hDrift : Drift after later) :
    Installed label document state later := ⟨h.toWritten.drift hDrift, h.readable, hDrift.loaded h.job⟩

/-- A call of `bootstrap` loads the file or fails. -/
theorem wp_bootstrap_call [Kept launchctl inv] {start : State} (hFile : Written label document start state)
    (hGone : (state.jobs label).isUnloaded = true) :
    (surroundings launchctl).wp inv (Launchd.launchctl (.bootstrap label))
      (Returns fun completed after => completed.returncode ≠ 0 ∧ Written label document start after ∧
        (after.jobs label).isUnloaded = true ∨ Installed label document start after) state := by
  refine wp_launchctl fun later completed after hDrift hDeliver => ?_
  have hWritten := hFile.drift hDrift
  rcases deliver_bootstrap (Kept.documented inv) hDeliver with ⟨hCode, rfl⟩ | ⟨-, found, hFound, hReadable, rfl⟩
  · exact Or.inl ⟨hCode, hWritten, hDrift.unloaded hGone⟩
  · obtain rfl : found = document := Option.some.inj (hFound.symm.trans hWritten.file)
    refine Or.inr ⟨⟨hWritten.file, fun other hOther => (hWritten.others other hOther).trans ⟨rfl, Or.inl ?_⟩⟩, hReadable, ?_⟩
    · exact Function.update_of_ne hOther _ _
    · exact Function.update_self _ _ _

/-- The attempts end with the job, where they end. -/
theorem wp_bootstrapLoop [Kept launchctl inv] (failure : Word) (delays : List ℚ) {start : State}
    (hFile : Written label document start state) (hGone : (state.jobs label).isUnloaded = true) :
    (surroundings launchctl).wp inv (bootstrapLoop label failure delays)
      (Returns fun _ after => Installed label document start after) state := by
  induction delays generalizing state failure with
  | nil => trivial
  | cons delay delays ih =>
      refine wp_returns_bind (wp_bootstrap_call hFile hGone) fun result tried hTried => ?_
      split
      · next hSuccess => exact hTried.resolve_left fun hFailed => hFailed.1 hSuccess
      · refine (wp_bind _ _ _ _).mpr (wp_loaded (fun here seen hDrift hHere => ?_) fun _ _ _ => trivial)
        dsimp only
        rcases hTried with ⟨-, hWritten, hGone'⟩ | hInstalled
        · have hUnloaded := hDrift.unloaded hGone'
          have hNot : ¬here = true := fun hTrue => by
            rw [hHere.mp hTrue] at hUnloaded
            cases hUnloaded
          rw [if_neg hNot]
          refine wp_returns_bind (Looks.wait (.sleep delay) rfl).returns fun _ slept hSlept => ?_
          exact ih _ (hWritten.drift (hDrift.trans hSlept)) (hSlept.unloaded hUnloaded)
        · have hLoaded := (hInstalled.drift hDrift).job
          have hTrue : here = true := hHere.mpr (by rw [hLoaded]; rfl)
          rw [if_pos hTrue]
          exact hInstalled.drift hDrift

/-- An installation that returns has installed. -/
theorem wp_install [Kept launchctl inv] :
    (surroundings launchctl).wp inv (install rounds label content)
      (Returns fun target after => target = label ∧
        ∃ document, content.dump = some document ∧ Installed label document state after) state := by
  refine wp_returns_bind wp_writePlist fun _ written hWritten => ?_
  obtain ⟨document, hDump, hWritten⟩ := hWritten
  refine wp_returns_bind wp_bootout fun returncode booted hBooted => ?_
  refine wp_returns_bind wp_waitUnloaded_returns fun _ unloaded hUnloaded => ?_
  have hFile : Written label document state unloaded :=
    ⟨(hUnloaded.1.file label).trans ((hBooted.2.1 label).trans hWritten.file), fun other hOther =>
      ((hWritten.others other hOther).trans (hBooted.2.2 other hOther)).trans (hUnloaded.1.untouched other)⟩
  refine wp_returns_bind (wp_bootstrapLoop [] _ hFile hUnloaded.2) fun _ after hAfter => ?_
  exact ⟨rfl, document, hDump, hAfter⟩

end Loading

section Services

theorem wp_plist [Kept launchctl inv] (arguments : List Word) (logName processType : Word) :
    (surroundings launchctl).wp inv (plist setup label arguments logName processType)
      (Returns fun content after => Drift state after ∧ content.programArguments = arguments) state :=
  wp_returns_bind (Looks.wait .makeStateDir rfl).returns fun _ _ hDrift => ⟨hDrift, rfl⟩

theorem wp_executable (name : String) :
    (surroundings launchctl).wp inv (executable setup name)
      (Returns fun program after => after = state ∧ setup.executable name = some program) state := by
  unfold executable
  split
  · next hProgram => exact ⟨rfl, hProgram⟩
  · trivial

/-- What is read back of an agent: the ends of lines have become the same. -/
theorem arguments_dump (hDump : content.dump = some document) (hReadable : document.arguments ≠ none) :
    document.arguments = some (content.programArguments.map lineEnds) := by
  unfold Agent.dump at hDump
  split at hDump
  · cases hDump
  · split at hDump
    · cases hDump
      exact absurd rfl hReadable
    · cases hDump
      rfl

/-- An agent of these arguments, as `plistlib` writes them, is in its file and loaded. -/
def Runs (label : Label) (arguments : List Word) (state : State) : Prop :=
  ∃ document, document.arguments = some (arguments.map lineEnds) ∧ state.file label = some document ∧
    state.jobs label = .loaded document

theorem Runs.untouched {arguments : List Word} {after : State} (h : Runs label arguments state)
    (h' : Untouched label state after) : Runs label arguments after := by
  obtain ⟨document, hArguments, hFile, hJob⟩ := h
  refine ⟨document, hArguments, h'.1.trans hFile, ?_⟩
  rcases h'.2 with hSame | ⟨hLeaving, -⟩
  · exact hSame.trans hJob
  · rw [hJob] at hLeaving
    cases hLeaving

theorem Installed.runs {after : State} (h : Installed label document state after) (hDump : content.dump = some document) :
    Runs label content.programArguments after :=
  ⟨document, arguments_dump hDump h.readable, h.file, h.job⟩

theorem wp_installMcp [Kept launchctl inv] (mcpPort : Option Int) :
    (surroundings launchctl).wp inv (installMcp rounds setup mcpPort)
      (Returns fun _ after => (∀ port ∈ mcpPort, ∃ program, setup.executable "pazuzu-mcp" = some program ∧
          Runs mcpLabel (mcpArguments setup program port) after) ∧
        ∀ label, (label = mcpLabel → mcpPort = none) → Untouched label state after) state := by
  cases mcpPort with
  | none => exact ⟨nofun, fun label _ => (Drift.refl state).untouched label⟩
  | some port =>
      refine wp_returns_bind (wp_executable "pazuzu-mcp") fun program same hProgram => ?_
      obtain ⟨rfl, hProgram⟩ := hProgram
      refine wp_returns_bind (wp_plist _ _ _) fun content planned hPlanned => ?_
      refine wp_returns_bind wp_install fun target after hInstalled => ?_
      obtain ⟨-, document, hDump, hInstalled⟩ := hInstalled
      refine ⟨?_, fun label hOther => ?_⟩
      · intro given hGiven
        cases hGiven
        exact ⟨program, hProgram, hPlanned.2 ▸ hInstalled.runs hDump⟩
      · have hNot : label ≠ mcpLabel := fun hSame => by cases hOther hSame
        exact (hPlanned.1.untouched label).trans (hInstalled.others label hNot)

/-- What an installation of the services leaves. -/
structure Served (setup : Setup) (host : Word) (mcpPort maxSessions : Option Int) (before after : State) : Prop where
  gateway : ∃ program, setup.executable "pazuzu" = some program ∧
    Runs gatewayLabel (gatewayArguments setup program host maxSessions) after
  mcp : ∀ port ∈ mcpPort, ∃ program, setup.executable "pazuzu-mcp" = some program ∧
    Runs mcpLabel (mcpArguments setup program port) after
  others : ∀ label, label ≠ gatewayLabel → (label = mcpLabel → mcpPort = none) → Untouched label before after

theorem wp_installServices [Kept launchctl inv] (host : Word) (mcpPort maxSessions : Option Int) :
    (surroundings launchctl).wp inv (installServices rounds setup host mcpPort maxSessions)
      (Returns fun _ after => Served setup host mcpPort maxSessions state after) state := by
  unfold installServices
  split
  · trivial
  · refine wp_returns_bind (wp_executable "pazuzu") fun program same hProgram => ?_
    obtain ⟨rfl, hProgram⟩ := hProgram
    refine wp_returns_bind (wp_plist _ _ _) fun content planned hPlanned => ?_
    refine wp_returns_bind wp_install fun target installed hInstalled => ?_
    obtain ⟨-, document, hDump, hInstalled⟩ := hInstalled
    refine wp_returns_bind (wp_installMcp mcpPort) fun others after hMcp => ?_
    have hNotMcp : gatewayLabel ≠ mcpLabel := by decide
    have hRuns : Runs gatewayLabel (gatewayArguments setup program host maxSessions) installed :=
      hPlanned.2 ▸ hInstalled.runs hDump
    refine ⟨⟨program, hProgram, hRuns.untouched (hMcp.2 _ fun hSame => absurd hSame hNotMcp)⟩, hMcp.1,
      fun label hOther hAdapter => ?_⟩
    exact ((hPlanned.1.untouched label).trans (hInstalled.others label hOther)).trans (hMcp.2 label hAdapter)

/-- What `_configured_host` finds in the gateway's file. -/
theorem wp_configuredHost [Kept launchctl inv] {arguments : List Word} (h : Runs gatewayLabel arguments state) :
    (surroundings launchctl).wp inv configuredHost
      (Returns fun host after => Drift state after ∧
        (host = option (arguments.map lineEnds) "--host".toList ∨ host = none)) state := by
  refine wp_returns_bind (P := fun found after => Drift state after ∧ (found = arguments.map lineEnds ∨ found = [])) ?_
    fun found after hFound => ⟨hFound.1, ?_⟩
  · refine wp_returns_bind (P := fun outcome after => Drift state after ∧
      (outcome = .ok (arguments.map lineEnds) ∨ ∃ raised, outcome = .error raised)) ?_ fun outcome after hOutcome => ?_
    · refine (wp_attempt _ _ _).mpr (wp_quiet rfl fun later reply hDrift hDeliver => ⟨hDrift, ?_⟩)
      cases reply with
      | error raised => exact Or.inr ⟨raised, rfl⟩
      | ok found =>
          obtain ⟨content, hArguments, hFile, -⟩ := h
          simp only [deliver] at hDeliver
          split at hDeliver
          · next hFound =>
              rw [hDrift.file, hFile] at hFound
              have hSame : found = arguments.map lineEnds := Option.some.inj (hFound.symm.trans hArguments)
              rw [hSame]
              exact Or.inl rfl
          · cases hDeliver
    · obtain ⟨hDrift, rfl | ⟨raised, rfl⟩⟩ := hOutcome
      · exact ⟨hDrift, Or.inl rfl⟩
      · cases raised with
        | osError message => exact ⟨hDrift, Or.inr rfl⟩
        | _ => trivial
  · rcases hFound.2 with rfl | rfl
    · exact Or.inl rfl
    · exact Or.inr rfl

theorem option_skip {first name : Word} {arguments : List Word} (h : first ≠ name) :
    option (first :: arguments) name = option arguments name := by
  rw [option, List.dropWhile_cons_of_pos (by simpa using h), option]

theorem option_here (name value : Word) (arguments : List Word) : option (name :: value :: arguments) name = some value := by
  rw [option, List.dropWhile_cons_of_neg (by simp)]
  rfl

/-- The program's path is no option, so that the host is found. -/
theorem option_gatewayArguments {program host : Word} {maxSessions : Option Int}
    (h : setup.executable "pazuzu" = some program) :
    option ((gatewayArguments setup program host maxSessions).map lineEnds) "--host".toList = some (lineEnds host) := by
  have hProgram : lineEnds program ≠ "--host".toList := by
    have hAbsolute := setup.absolute _ _ h
    cases program with
    | nil => cases hAbsolute
    | cons first rest =>
        obtain rfl := Option.some.inj hAbsolute
        rw [lineEnds.eq_4 _ _ (by rintro _ ⟨⟩) (by rintro ⟨⟩)]
        rintro ⟨⟩
  have hServe : lineEnds "serve".toList ≠ "--host".toList := by decide
  exact (option_skip hProgram).trans ((option_skip hServe).trans (option_here _ _ _))

theorem lineEnds_eq_self {word : Word} (h : '\r' ∉ word) : lineEnds word = word := by
  fun_induction lineEnds word with
  | case1 => rfl
  | case2 | case3 => exact absurd List.mem_cons_self h
  | case4 c rest _ _ ih => rw [ih fun hIn => h (List.mem_cons_of_mem _ hIn)]

theorem return_notMem_lineEnds (word : Word) : '\r' ∉ lineEnds word := by
  fun_induction lineEnds word with
  | case1 => exact List.not_mem_nil
  | case2 rest ih | case3 rest _ ih => exact List.not_mem_cons_of_ne_of_not_mem (by decide) ih
  | case4 c rest _ hOther ih => exact List.not_mem_cons_of_ne_of_not_mem (fun hSame => hOther hSame.symm) ih

theorem lineEnds_idem (word : Word) : lineEnds (lineEnds word) = lineEnds word :=
  lineEnds_eq_self (return_notMem_lineEnds word)

/-- What an installation of a bridge leaves, with the host of the gateway. -/
structure Bridged (setup : Setup) (name : Word) (host : Word) (ends : Endpoints) (remoteCommand : List Word)
    (before after : State) (label : Label) : Prop where
  named : label = bridgeLabelPrefix ++ name
  bridge : ∃ program, setup.executable "pazuzu" = some program ∧
    Runs label (bridgeArguments setup program host ends remoteCommand) after
  others : ∀ other, other ≠ label → Untouched other before after

theorem wp_installBridge [Kept launchctl inv] (name : Word) (remoteCommand : List Word) (ends : Endpoints)
    {arguments : List Word} {host : Word} (h : Runs gatewayLabel arguments state)
    (hHost : option (arguments.map lineEnds) "--host".toList = some (lineEnds host)) :
    (surroundings launchctl).wp inv (installBridge rounds setup name remoteCommand ends)
      (Returns fun label after => Bridged setup name host ends remoteCommand state after label) state := by
  refine wp_returns_bind (wp_configuredHost h) fun found asked hAsked => ?_
  split
  · trivial
  · next hSome =>
      have hFound : found.getD [] = lineEnds host := by
        rcases hAsked.2 with hSame | hNone
        · rw [hSame, hHost]
          rfl
        · rw [hNone] at hSome
          exact absurd rfl hSome
      split
      · trivial
      · refine wp_returns_bind (P := fun label after => after = asked ∧ label = bridgeLabelPrefix ++ name) ?_
          fun label same hLabel => ?_
        · unfold bridgeLabel
          split
          · exact ⟨rfl, rfl⟩
          · trivial
        · obtain ⟨rfl, rfl⟩ := hLabel
          refine wp_returns_bind (wp_executable "pazuzu") fun program same hProgram => ?_
          obtain ⟨rfl, hProgram⟩ := hProgram
          refine wp_returns_bind (wp_plist _ _ _) fun content planned hPlanned => ?_
          refine wp_mono wp_install fun outcome after hOutcome => ?_
          cases outcome with
          | error raised => trivial
          | ok target =>
              obtain ⟨rfl, document, hDump, hInstalled⟩ := hOutcome
              have hSame : (bridgeArguments setup program (found.getD []) ends remoteCommand).map lineEnds =
                  (bridgeArguments setup program host ends remoteCommand).map lineEnds := by
                simp [hFound, bridgeArguments, lineEnds_idem]
              obtain ⟨document, hArguments, hRuns⟩ := hInstalled.runs hDump
              rw [hPlanned.2, hSame] at hArguments
              refine ⟨rfl, ⟨program, hProgram, document, hArguments, hRuns⟩, fun other hOther => ?_⟩
              exact ((hAsked.1.trans hPlanned.1).untouched other).trans (hInstalled.others other hOther)

theorem bridge_ne_gateway (name : Word) : gatewayLabel ≠ bridgeLabelPrefix ++ name := by
  intro hSame
  have hPrefix : bridgeLabelPrefix <+: gatewayLabel := ⟨name, hSame.symm⟩
  revert hPrefix
  decide

/-- Once the services are installed for a host, launchd has loaded the gateway
from its file for that host; and a bridge that is installed then runs over the
same host, and leaves the gateway as it is. -/
theorem bridge_follows_gateway (hDocumented : Documented launchctl) {host name : Word}
    {mcpPort maxSessions : Option Int} {targets : List Label} {served final : State}
    {picks later : List (Pick (surroundings launchctl))} {remoteCommand : List Word} {ends : Endpoints}
    (hServices : (surroundings launchctl).run ⟨installServices rounds setup host mcpPort maxSessions, state⟩ picks =
      some ⟨.pure targets, served⟩)
    (hBridge : (surroundings launchctl).run ⟨installBridge rounds setup name remoteCommand ends, served⟩ later =
      some ⟨.pure label, final⟩) :
    Served setup host mcpPort maxSessions state served ∧ Bridged setup name host ends remoteCommand served final label ∧
      ∃ program, setup.executable "pazuzu" = some program ∧
        Runs gatewayLabel (gatewayArguments setup program host maxSessions) final := by
  have := kept_true hDocumented
  have hServing : (surroundings launchctl).wp (fun _ => True) (installServices rounds setup host mcpPort maxSessions)
      (Returns fun _ after => Served setup host mcpPort maxSessions state after) state := wp_installServices _ _ _
  obtain ⟨ending, hDrifts, hServed⟩ := run_post (fun _ _ _ _ _ => trivial) trivial hServing hServices
    (show Coro.pure targets = Coro.ofExcept (.ok targets) from rfl)
  have hLater := (drift hDocumented hDrifts).untouched
  obtain ⟨program, hPath, hGateway⟩ := hServed.gateway
  have hNow := hGateway.untouched (hLater gatewayLabel)
  have hBridging : (surroundings launchctl).wp (fun _ => True) (installBridge rounds setup name remoteCommand ends)
      (Returns fun label after => Bridged setup name host ends remoteCommand served after label) served :=
    wp_installBridge name remoteCommand ends hNow (option_gatewayArguments hPath)
  obtain ⟨ending', hDrifts', hBridged⟩ := run_post (fun _ _ _ _ _ => trivial) trivial hBridging hBridge
    (show Coro.pure label = Coro.ofExcept (.ok label) from rfl)
  have hLast := (drift hDocumented hDrifts').untouched
  have hUntouched : Untouched gatewayLabel served final :=
    (hBridged.others gatewayLabel (by rw [hBridged.named]; exact bridge_ne_gateway name)).trans (hLast gatewayLabel)
  refine ⟨⟨⟨program, hPath, hNow⟩, fun port hPort => ?_, fun other hOther hAdapter =>
    (hServed.others other hOther hAdapter).trans (hLater other)⟩, ⟨hBridged.named, ?_, fun other hOther =>
    (hBridged.others other hOther).trans (hLast other)⟩, program, hPath, hNow.untouched hUntouched⟩
  · obtain ⟨adapter, hAdapter, hRuns⟩ := hServed.mcp port hPort
    exact ⟨adapter, hAdapter, hRuns.untouched (hLater mcpLabel)⟩
  · obtain ⟨program', hProgram', hRuns⟩ := hBridged.bridge
    exact ⟨program', hProgram', hRuns.untouched (hLast label)⟩

/-- An agent that is not taken yet. -/
def busy (content : Document) : (wait : Wait) → Except Raised wait.Reply
  | .launchctl (.bootstrap _) => .ok ⟨5, some "Input/output error".toList, .unloaded⟩
  | wait => occupied content wait

def ends : Endpoints := ⟨"127.0.0.1".toList, 8080, "localhost".toList, 80⟩

def bridgeAgent : Document := .agent
  { label := bridgeLabelPrefix ++ "web".toList
    programArguments := bridgeArguments mac "/bin/pazuzu".toList "host".toList ends ["serve".toList]
    processType := "Background".toList, standardOutPath := "/d/bridge-web.stdout.log".toList
    standardErrorPath := "/d/bridge-web.stderr.log".toList }

/-- An installation on a machine without this agent, loaded in the second attempt. -/
def installation (content : Document) : List (Pick (surroundings prompt)) :=
  List.replicate 7 (.answer (empty content)) ++ [.answer (busy content)] ++ List.replicate 3 (.answer (empty content))

def gatewayInstalled : State :=
  (((surroundings prompt).run ⟨installServices 1 mac "host".toList none none, {}⟩
    (installation gatewayAgent)).map Solo.state).getD {}

def bothInstalled : State :=
  (((surroundings prompt).run ⟨installBridge 1 mac "web".toList ["serve".toList] ends, gatewayInstalled⟩
    (.answer (occupied bridgeAgent) :: installation bridgeAgent)).map Solo.state).getD {}

/-- A gateway and a bridge on a machine with nothing on it. -/
theorem bridge_follows_gateway_busy : Served mac "host".toList none none {} gatewayInstalled ∧
    Bridged mac "web".toList "host".toList ends ["serve".toList] gatewayInstalled bothInstalled
      (bridgeLabelPrefix ++ "web".toList) ∧
    ∃ program, mac.executable "pazuzu" = some program ∧
      Runs gatewayLabel (gatewayArguments mac program "host".toList none) bothInstalled :=
  have hServices : (surroundings prompt).run ⟨installServices 1 mac "host".toList none none, {}⟩
      (installation gatewayAgent) = some ⟨.pure [gatewayLabel], gatewayInstalled⟩ := rfl
  have hBridge : (surroundings prompt).run ⟨installBridge 1 mac "web".toList ["serve".toList] ends, gatewayInstalled⟩
      (.answer (occupied bridgeAgent) :: installation bridgeAgent) =
      some ⟨.pure (bridgeLabelPrefix ++ "web".toList), bothInstalled⟩ := rfl
  bridge_follows_gateway documented_prompt hServices hBridge

end Services
end Pazuzu.Launchd
