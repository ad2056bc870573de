import Mathlib.Data.List.Infix
import Pazuzu.Python.Strings
import Pazuzu.Transfer

/-! Which process a gateway takes for the master of its receipt. The test looks
for words anywhere in the process's command line. -/
namespace Pazuzu.Transport

open Asyncio Python

variable {α : Type} [DecidableEq α] {needle text : List α}

section Parts

theorem contains_iff : contains needle text = true ↔ needle <:+: text := by
  induction text with
  | nil => rw [contains, List.isEmpty_iff, List.infix_nil]
  | cons first rest ih =>
      rw [contains, Bool.or_eq_true, ih, List.infix_cons_iff, List.isPrefixOf_iff_prefix]

end Parts

section Recognition

variable {config other : Config} {pid : Nat}

/-- What the system says of a process: its group, unless `os.getpgid` raises,
and the exit code and output of `ps`, unless that cannot be launched or does
not end in time. -/
structure Listing where
  group : Option Nat
  command : Option (Int × Word)

/-- `_is_recorded_master`: whether a receipt still identifies this exact master. -/
def recognises (settings : SshSettings) (pid : Nat) (listing : Listing) : Bool :=
  match listing.group, listing.command with
  | some group, some (returncode, stdout) =>
      let command := stripText stdout
      group = pid && returncode = 0 && [settings.sshBinary.toList, " -N ".toList, settings.controlPath.toList,
        "ControlMaster=yes".toList, settings.host.toList].all fun token => contains token command
  | _, _ => false

/-- The words of a master's command, with blanks between them. -/
def commandLine (config : Config) : Word := [' '].intercalate ((masterArgv config).map String.toList)

/-- What is left of the line that `ps` prints for a master. -/
def strippedLine (config : Config) : Word := stripText (commandLine config ++ ['\n'])

/-- A living master, the leader of its group. -/
def masterListing (config : Config) (pid : Nat) : Listing := ⟨some pid, some (0, commandLine config ++ ['\n'])⟩

/-- The same program, control path and host. -/
def Agree (settings other : SshSettings) : Prop :=
  settings.sshBinary = other.sshBinary ∧ settings.controlPath = other.controlPath ∧ settings.host = other.host

/-- The path and the fixed words, from the first dash on. -/
theorem commandLine_core (config : Config) : ∃ front back,
    commandLine config ++ ['\n'] = front ++ '-' :: (("T -N -S ".toList ++ (config.settings.controlPath.toList ++
      " -o ControlMaster=ye".toList)) ++ 's' :: back) := by
  obtain ⟨more, hWords⟩ : ∃ more, (masterArgv config).map String.toList = config.settings.sshBinary.toList ::
      "-T".toList :: "-N".toList :: "-S".toList :: config.settings.controlPath.toList :: "-o".toList ::
        "ControlMaster=yes".toList :: "-o".toList :: more := ⟨_, rfl⟩
  refine ⟨config.settings.sshBinary.toList ++ [' '], ' ' :: ([' '].intercalate ("-o".toList :: more) ++ ['\n']), ?_⟩
  rw [commandLine, hWords]
  simp [List.intercalate_cons_cons]

/-- The words that the test looks for besides the host and the program. -/
theorem core_parts (config : Config) :
    " -N ".toList <:+: strippedLine config ∧ config.settings.controlPath.toList <:+: strippedLine config ∧
      "ControlMaster=yes".toList <:+: strippedLine config := by
  obtain ⟨front, back, hLine⟩ := commandLine_core config
  obtain ⟨front', back', hStripped⟩ := stripText_core '-'
    ("T -N -S ".toList ++ (config.settings.controlPath.toList ++ " -o ControlMaster=ye".toList)) 's'
    front back (by decide) (by decide)
  rw [strippedLine, hLine, hStripped]
  refine ⟨⟨front' ++ "-T".toList, "-S ".toList ++ (config.settings.controlPath.toList ++
    (" -o ControlMaster=yes".toList ++ back')), by simp⟩, ⟨front' ++ "-T -N -S ".toList,
      " -o ControlMaster=yes".toList ++ back', by simp⟩, ⟨front' ++ ("-T -N -S ".toList ++
        (config.settings.controlPath.toList ++ " -o ".toList)), back', by simp⟩⟩

theorem intercalate_snoc {words : List Word} (h : words ≠ []) (last : Word) :
    [' '].intercalate (words ++ [last]) = [' '].intercalate words ++ ' ' :: last := by
  induction words with
  | nil => exact absurd rfl h
  | cons word words ih =>
      cases words with
      | nil => simp [List.intercalate_cons_cons]
      | cons second words =>
          have hRest := ih (by simp)
          simp only [List.cons_append, List.intercalate_cons_cons] at hRest ⊢
          rw [hRest]
          simp

/-- The line begins with the program and ends with the host. -/
theorem commandLine_ends (config : Config) : ∃ middle, commandLine config ++ ['\n'] =
    config.settings.sshBinary.toList ++ ' ' :: '-' :: (middle ++ ' ' :: (config.settings.host.toList ++ ['\n'])) := by
  obtain ⟨more, hMore, hWords⟩ : ∃ more, more ≠ [] ∧ (masterArgv config).map String.toList =
      config.settings.sshBinary.toList :: "-T".toList :: (more ++ [config.settings.host.toList]) :=
    ⟨(((masterArgv config).map String.toList).drop 2).dropLast, nofun, rfl⟩
  refine ⟨'T' :: ' ' :: [' '].intercalate more, ?_⟩
  obtain ⟨first, others, rfl⟩ := List.exists_cons_of_ne_nil hMore
  have hJoin := intercalate_snoc hMore config.settings.host.toList
  rw [commandLine, hWords, List.intercalate_cons_cons, List.cons_append, List.intercalate_cons_cons,
    ← List.cons_append, hJoin]
  simp

/-- A gateway's own master has all the words where none begins or ends the line
with a blank. -/
theorem own_parts (config : Config) (hBinary : ∀ c ∈ config.settings.sshBinary.toList.head?, isSpace c = false)
    (hHost : ∀ c ∈ config.settings.host.toList.getLast?, isSpace c = false) :
    config.settings.sshBinary.toList <:+: strippedLine config ∧
      config.settings.host.toList <:+: strippedLine config := by
  obtain ⟨middle, hLine⟩ := commandLine_ends config
  constructor
  · cases hWord : config.settings.sshBinary.toList with
    | nil => exact List.nil_infix
    | cons first rest =>
        rw [hWord] at hLine hBinary
        obtain ⟨front', back', hStripped⟩ := stripText_core first (rest ++ [' ']) '-'
          [] (middle ++ ' ' :: (config.settings.host.toList ++ ['\n'])) (hBinary first rfl) (by decide)
        have hSplit : first :: rest ++ ' ' :: '-' :: (middle ++ ' ' :: (config.settings.host.toList ++ ['\n'])) =
            [] ++ first :: ((rest ++ [' ']) ++ '-' :: (middle ++ ' ' :: (config.settings.host.toList ++ ['\n']))) := by
          simp
        rw [strippedLine, hLine, hSplit, hStripped]
        exact ⟨front', ' ' :: '-' :: back', by simp⟩
  · rcases List.eq_nil_or_concat config.settings.host.toList with hNone | ⟨rest, last, hWord⟩
    · rw [hNone]
      exact List.nil_infix
    · rw [List.concat_eq_append] at hWord
      rw [hWord] at hLine hHost
      obtain ⟨front', back', hStripped⟩ := stripText_core '-' (middle ++ ' ' :: rest) last
        (config.settings.sshBinary.toList ++ [' ']) ['\n'] (by decide)
        (hHost last (by simp))
      have hSplit : config.settings.sshBinary.toList ++ ' ' :: '-' :: (middle ++ ' ' :: (rest ++ [last] ++ ['\n'])) =
          (config.settings.sshBinary.toList ++ [' ']) ++ '-' :: ((middle ++ ' ' :: rest) ++ last :: ['\n']) := by
        simp
      rw [strippedLine, hLine, hWord, hSplit, hStripped]
      exact ⟨front' ++ '-' :: (middle ++ [' ']), back', by simp⟩

/-- Of the five words only the three settings can be missing. -/
theorem recognises_master (settings : SshSettings) (other : Config) (pid : Nat) :
    recognises settings pid (masterListing other pid) = true ↔
      settings.sshBinary.toList <:+: strippedLine other ∧ settings.controlPath.toList <:+: strippedLine other ∧
        settings.host.toList <:+: strippedLine other := by
  obtain ⟨hFlag, -, hMaster⟩ := core_parts other
  simp only [recognises, masterListing, ← strippedLine.eq_1, List.all_cons, List.all_nil, Bool.and_true,
    Bool.and_eq_true, decide_true, contains_iff, hFlag, hMaster, true_and]

/-- Other settings that are not all found in the line of the master at hand, or
the master's own, whose program and host still occur in it once it is stripped. -/
def Clear (settings : SshSettings) (other : Config) : Prop :=
  (Agree settings other.settings ∧ other.settings.sshBinary.toList <:+: strippedLine other ∧
      other.settings.host.toList <:+: strippedLine other) ∨
    (¬Agree settings other.settings ∧ (¬settings.sshBinary.toList <:+: strippedLine other ∨
      ¬settings.controlPath.toList <:+: strippedLine other ∨ ¬settings.host.toList <:+: strippedLine other))

/-- The code that stops the process of a receipt, once the test has answered. -/
def afterAnswer (recognised : Bool) (task : Nat) (state : State) : Option (Py Unit) :=
  match stopRecordedMaster with
  | .read look =>
      match look task state with
      | .await (.isRecordedMaster _) next => some (next (.ok recognised))
      | _ => none
  | _ => none

/-- An unrecognised process is left alone. -/
theorem afterAnswer_false {task : Nat} {state : State} (h : readMasterOwner state.os.owner = .ok (some pid)) :
    afterAnswer false task state = some (.act (some (.masterRecognised pid false)) id (.pure ())) := by
  simp only [afterAnswer, stopRecordedMaster, Coro.get, Coro.bind_eq, Coro.bind, h]
  rfl

/-- A gateway takes a master for its own if and only if it is, exactly where
the settings are clear of each other; and it leaves alone what it does not
take for its own. -/
theorem recognises_own_iff (config other : Config) (pid : Nat) :
    ((recognises config.settings pid (masterListing other pid) = true ↔ Agree config.settings other.settings) ↔
        Clear config.settings other) ∧
      ∀ task state, readMasterOwner state.os.owner = .ok (some pid) →
        recognises config.settings pid (masterListing other pid) = false →
        afterAnswer (recognises config.settings pid (masterListing other pid)) task state =
          some (.act (some (.masterRecognised pid false)) id (.pure ())) := by
  refine ⟨?_, fun task state hOwner hUnrecognised => ?_⟩
  · rw [recognises_master]
    by_cases hAgree : Agree config.settings other.settings
    · obtain ⟨hBinary, hPath, hHost⟩ := id hAgree
      have hPathPart := (core_parts other).2.1
      simp only [Clear, hAgree, hBinary, hPath, hHost, hPathPart, true_and, iff_true, not_true_eq_false, false_and,
        or_false]
    · simp only [Clear, hAgree, iff_false, false_and, not_false_eq_true, true_and, false_or]
      tauto
  · rw [hUnrecognised]
    exact afterAnswer_false hOwner

/-- A master of the given host. -/
def masterOf (host : String) : Config := ⟨{ host, controlPath := "/c" }, 1⟩

/-- A gateway whose host is part of another's takes its master for its own. -/
theorem recognises_stranger : ¬∀ (config other : Config) (pid : Nat),
    recognises config.settings pid (masterListing other pid) = true ↔ Agree config.settings other.settings := by
  intro hClaim
  have hParts := own_parts (masterOf "host") (by rintro c ⟨⟩; decide) (by rintro c ⟨⟩; decide)
  have hFound := (recognises_master (masterOf "h").settings (masterOf "host") 1).mpr
    ⟨hParts.1, (core_parts (masterOf "host")).2.1, List.IsInfix.trans ⟨[], "ost".toList, rfl⟩ hParts.2⟩
  exact absurd ((hClaim (masterOf "h") (masterOf "host") 1).mp hFound).2.2 (by decide)

end Recognition
end Pazuzu.Transport
