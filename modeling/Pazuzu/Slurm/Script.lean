import Pazuzu.Posix.Words
import Pazuzu.Quoting
import Pazuzu.Slurm

/-! A script as its readers take it. Slurm takes the directives from the lines
before the first command, a POSIX shell the commands. -/
namespace Pazuzu.Slurm

open Python Posix

section Reader

/-- A blank within a line. -/
def isBlank (c : Char) : Bool := c ∈ " \t\x0b\x0c\r".toList

/-- A line that is blank or a comment. -/
def isIdle (line : Word) : Bool :=
  match line.dropWhile isBlank with
  | [] => true
  | c :: _ => c = '#'

/-- The lines before the first command. -/
def headerLines (script : Word) : List Word := (script.splitOn '\n').takeWhile isIdle

/-- The text from the first command on. -/
def shellText (script : Word) : Word := ['\n'].intercalate ((script.splitOn '\n').dropWhile isIdle)

/-- An option, with its value where it has one. -/
def readOption (word : Word) : Word × Option Word :=
  match cutAt '=' word with
  | (name, []) => (name, none)
  | (name, _ :: value) => (name, some value)

def readDirective (line : Word) : List (Word × Option Word) :=
  if "#SBATCH".toList.isPrefixOf line then
    (((line.drop 7).splitOnP isBlank).filter (· ≠ [])).map readOption
  else []

/-- The directives that Slurm takes from a script. -/
def readDirectives (script : Word) : List (Word × Option Word) := (headerLines script).flatMap readDirective

example : readDirectives "#!x\n#SBATCH --a=b -c\n\nd\n#SBATCH --e".toList =
    [("--a".toList, some "b".toList), ("-c".toList, none)] := by decide

end Reader

section Lines

variable {lines rest : List Word} {line first : Word}

theorem intercalate_line (line : Word) (h : rest ≠ []) :
    ['\n'].intercalate (line :: rest) = line ++ '\n' :: ['\n'].intercalate rest := by
  obtain ⟨second, others, rfl⟩ := List.exists_cons_of_ne_nil h
  simp [List.intercalate_cons_cons]

theorem splitOn_lines (hLines : ∀ line ∈ lines, '\n' ∉ line) (h : rest ≠ []) :
    (['\n'].intercalate (lines ++ rest)).splitOn '\n' = lines ++ (['\n'].intercalate rest).splitOn '\n' := by
  induction lines with
  | nil => rfl
  | cons line lines ih =>
      obtain ⟨hLine, hLines⟩ := List.forall_mem_cons.mp hLines
      rw [List.cons_append, intercalate_line line (by simp [h]), List.splitOn_append_cons_self_of_not_mem hLine,
        ih hLines, List.cons_append]

/-- Lines that are idle, and then one that is not. -/
theorem read_lines (rest : List Word) (hLines : ∀ line ∈ lines, '\n' ∉ line ∧ isIdle line = true)
    (hFirst : '\n' ∉ first) (hCommand : isIdle first = false) :
    headerLines (['\n'].intercalate (lines ++ first :: rest)) = lines ∧
      shellText (['\n'].intercalate (lines ++ first :: rest)) = ['\n'].intercalate (first :: rest) := by
  have hSplit := splitOn_lines (fun line hIn => (hLines line hIn).1) (List.cons_ne_nil first rest)
  obtain ⟨others, hOthers⟩ : ∃ others, (['\n'].intercalate (first :: rest)).splitOn '\n' = first :: others := by
    cases rest with
    | nil => exact ⟨[], by simp [List.splitOn_eq_singleton hFirst]⟩
    | cons second rest =>
        rw [intercalate_line first (List.cons_ne_nil _ _), List.splitOn_append_cons_self_of_not_mem hFirst]
        exact ⟨_, rfl⟩
  have hIdle : ∀ line ∈ lines, isIdle line = true := fun line hIn => (hLines line hIn).2
  have hBody : ['\n'].intercalate ((['\n'].intercalate (first :: rest)).splitOn '\n') =
      ['\n'].intercalate (first :: rest) := List.intercalate_splitOn '\n'
  rw [headerLines, shellText, hSplit, List.takeWhile_append_of_pos hIdle, List.dropWhile_append_of_pos hIdle]
  rw [hOthers] at hBody ⊢
  rw [List.takeWhile_cons_of_neg (by simp [hCommand]), List.dropWhile_cons_of_neg (by simp [hCommand]), hBody]
  simp

end Lines

section Directives

/-- A field that may be left out, as the directive of an option. -/
def optional (option : String) (value : Option Word) : List (String × Word) := value.toList.map (Prod.mk option)

def numeral (n : Int) : Word := (toString n).toList

/-- The directives of the declared fields. -/
def declared (job : Job) : List (String × Word) :=
  let resources := job.resources
  [("job-name", job.name)] ++
  optional "partition" resources.partition ++
  optional "account" resources.account ++
  optional "qos" resources.qos ++
  optional "constraint" resources.constraint ++
  optional "nodelist" resources.nodeList ++
  optional "exclude" resources.exclude ++
  [("nodes", numeral resources.nodes), ("ntasks-per-node", numeral resources.tasksPerNode),
    ("cpus-per-task", numeral resources.cpusPerTask), ("mem", numeral resources.memoryGbPerNode ++ ['G']),
    ("time", resources.timeLimit)] ++
  optional "gres" (if resources.gpusPerNode = 0 then none
    else some ("gpu:".toList ++ numeral resources.gpusPerNode)) ++
  optional "array" resources.array ++
  optional "dependency" resources.dependency ++
  [("output", job.stdoutPattern), ("error", job.stderrPattern)]

def optionNames : List String :=
  ["job-name"] ++ ["partition"] ++ ["account"] ++ ["qos"] ++ ["constraint"] ++ ["nodelist"] ++ ["exclude"] ++
  ["nodes", "ntasks-per-node", "cpus-per-task", "mem", "time"] ++ ["gres"] ++ ["array"] ++ ["dependency"] ++
  ["output", "error"]

theorem optionNames_nodup : optionNames.Nodup := by decide

theorem optional_names (option : String) (value : Option Word) :
    ((optional option value).map Prod.fst).Sublist [option] := by
  cases value with
  | none => exact List.nil_sublist _
  | some value => exact List.Sublist.refl _

/-- No option is declared twice. -/
theorem declared_names (job : Job) : ((declared job).map Prod.fst).Sublist optionNames := by
  simp only [declared, List.map_append]
  repeat' apply List.Sublist.append
  all_goals first | exact optional_names _ _ | exact List.Sublist.refl _

theorem isSpace_of_range {c : Char} (h : 0x20 < c.toNat) (h' : c.toNat < 0x85) : isSpace c = false := by
  simp only [isSpace, decide_eq_false_iff_not]
  omega

theorem isSpace_alphanum {c : Char} (h : c.isAlphanum = true) : isSpace c = false := by
  have hRanges : (('A'.val ≤ c.val ∧ c.val ≤ 'Z'.val) ∨ ('a'.val ≤ c.val ∧ c.val ≤ 'z'.val)) ∨
      ('0'.val ≤ c.val ∧ c.val ≤ '9'.val) := by
    rcases Bool.or_eq_true_iff.mp h with hAlpha | hDigit
    · refine Or.inl ((Bool.or_eq_true_iff.mp hAlpha).imp of_decide_eq_true fun hLower => ?_)
      exact (Bool.and_eq_true_iff.mp hLower).imp of_decide_eq_true of_decide_eq_true
    · exact Or.inr ((Bool.and_eq_true_iff.mp hDigit).imp of_decide_eq_true of_decide_eq_true)
  have hCode : c.toNat = c.val.toNat := rfl
  have hLetters : 'A'.val.toNat = 65 ∧ 'Z'.val.toNat = 90 ∧ 'a'.val.toNat = 97 ∧ 'z'.val.toNat = 122 := by decide
  have hDigits : '0'.val.toNat = 48 ∧ '9'.val.toNat = 57 := by decide
  simp only [UInt32.le_iff_toNat_le] at hRanges
  apply isSpace_of_range <;> omega

theorem repr_plain (n : Nat) : ∀ c ∈ n.repr.toList, isSpace c = false := by
  intro c hIn
  rw [Nat.toList_repr] at hIn
  have hDigit := Nat.isDigit_of_mem_toDigits (by decide) (by decide) hIn
  exact isSpace_alphanum (Bool.or_eq_true_iff.mpr (Or.inr hDigit))

theorem numeral_plain (n : Int) : ∀ c ∈ numeral n, isSpace c = false := by
  cases n with
  | ofNat n => exact repr_plain n
  | negSucc n =>
      have hText : numeral (.negSucc n) = '-' :: (n + 1).repr.toList := by
        simp [numeral, toString, Int.repr]
      rw [hText]
      exact List.forall_mem_cons.mpr ⟨by decide, repr_plain _⟩

theorem name_plain {name : Word} (h : isJobName name = true) : ∀ c ∈ name, isSpace c = false := by
  cases name with
  | nil => simp
  | cons first rest =>
      simp only [isJobName, isNamePart, Bool.and_eq_true, List.all_eq_true, Bool.or_eq_true, decide_eq_true_eq] at h
      obtain ⟨⟨hFirst, hRest⟩, -⟩ := h
      have hExtra : ∀ c ∈ "_.-".toList, isSpace c = false := forall_mem_of_all (by decide)
      exact List.forall_mem_cons.mpr ⟨isSpace_alphanum hFirst, fun c hIn =>
        (hRest c hIn).elim isSpace_alphanum (hExtra c)⟩

theorem pattern_plain {job : Job} (hChecked : job.Checked) {ending : Word}
    (hEnding : ∀ c ∈ ending, isSpace c = false) :
    ∀ c ∈ posixJoin job.logDir (job.name ++ ending), isSpace c = false := by
  have hFile : ∀ c ∈ job.name ++ ending, isSpace c = false :=
    List.forall_mem_append.mpr ⟨name_plain hChecked.name, hEnding⟩
  rw [posixJoin]
  split
  · exact hFile
  split
  · exact List.forall_mem_append.mpr ⟨hChecked.logDir_spaces, hFile⟩
  · exact List.forall_mem_append.mpr ⟨hChecked.logDir_spaces, List.forall_mem_cons.mpr ⟨by decide, hFile⟩⟩

theorem optional_plain {option : String} {value : Option Word}
    (h : ∀ token ∈ value, ∀ c ∈ token, isSpace c = false) :
    ∀ item ∈ optional option value, ∀ c ∈ item.2, isSpace c = false := by
  cases value with
  | none => simp [optional]
  | some value => simpa [optional] using h

/-- No value has a blank. -/
theorem declared_plain (job : ValidJob) : ∀ item ∈ declared job.toJob, ∀ c ∈ item.2, isSpace c = false := by
  have hChecked := Job.check_ok job.checked
  have hTokens : ∀ value ∈ _, ∀ token ∈ value, ∀ c ∈ token, isSpace c = false := fun value hIn token hToken =>
    (Resources.tokens_checked job.resources_checked value hIn token hToken).2
  simp only [List.forall_mem_cons, List.not_mem_nil, false_imp_iff, implies_true, and_true, Option.mem_def,
    Option.some.injEq, forall_eq'] at hTokens
  obtain ⟨hTime, hPartition, hAccount, hQos, hConstraint, hArray, hDependency, hNodeList, hExclude⟩ := hTokens
  have hGpus : ∀ token ∈ (if job.resources.gpusPerNode = 0 then none
      else some ("gpu:".toList ++ numeral job.resources.gpusPerNode)), ∀ c ∈ token, isSpace c = false := by
    intro token hToken
    split at hToken
    · cases hToken
    · cases hToken
      exact List.forall_mem_append.mpr ⟨forall_mem_of_all (by decide), numeral_plain _⟩
  simp only [declared, List.forall_mem_append, List.forall_mem_cons, List.not_mem_nil, false_imp_iff, implies_true,
    and_true]
  exact ⟨⟨⟨⟨⟨⟨⟨⟨⟨⟨⟨name_plain hChecked.name, optional_plain hPartition⟩, optional_plain hAccount⟩,
    optional_plain hQos⟩, optional_plain hConstraint⟩, optional_plain hNodeList⟩, optional_plain hExclude⟩,
    numeral_plain _, numeral_plain _, numeral_plain _, ⟨numeral_plain _, by decide⟩, hTime⟩, optional_plain hGpus⟩,
    optional_plain hArray⟩, optional_plain hDependency⟩,
    pattern_plain hChecked (forall_mem_of_all (by decide)), pattern_plain hChecked (forall_mem_of_all (by decide))⟩

theorem isBlank_of_plain {word : Word} (h : ∀ c ∈ word, isSpace c = false) :
    '\n' ∉ word ∧ ∀ c ∈ word, isBlank c = false := by
  have hBlanks : ∀ c ∈ " \t\x0b\x0c\r".toList, isSpace c = true := forall_mem_of_all (by decide)
  refine ⟨fun hIn => absurd (h _ hIn) (by decide), fun c hIn => ?_⟩
  rw [isBlank, decide_eq_false_iff_not]
  intro hBlank
  exact absurd (hBlanks c hBlank) (by simp [h c hIn])

theorem optionNames_letters :
    (optionNames.all fun option => option.toList.all fun c => c.isAlpha || c = '-') = true := by
  decide +kernel

theorem optionNames_plain {option : String} (h : option ∈ optionNames) :
    ('=' ∉ "--".toList ++ option.toList ∧ '\n' ∉ "--".toList ++ option.toList) ∧
      ∀ c ∈ "--".toList ++ option.toList, isBlank c = false := by
  have hLetters := List.all_eq_true.mp optionNames_letters option h
  have hOther : ∀ d ∈ "=\n \t\x0b\x0c\r".toList, (d.isAlpha || d = '-') = false :=
    forall_mem_of_all (by decide)
  have hDash : ∀ c ∈ "--".toList, (c.isAlpha || c = '-') = true := forall_mem_of_all (by decide)
  have hEach : ∀ c ∈ "--".toList ++ option.toList, c ∉ "=\n \t\x0b\x0c\r".toList := by
    intro c hIn hBlank
    have hLetter : (c.isAlpha || c = '-') = true :=
      (List.mem_append.mp hIn).elim (hDash c) (List.all_eq_true.mp hLetters c)
    rw [hOther c hBlank] at hLetter
    cases hLetter
  refine ⟨⟨fun hIn => hEach _ hIn (by decide), fun hIn => hEach _ hIn (by decide)⟩, fun c hIn => ?_⟩
  rw [isBlank, decide_eq_false_iff_not]
  exact fun hBlank => hEach c hIn (List.mem_cons_of_mem _ (List.mem_cons_of_mem _ hBlank))

theorem sbatch_eq (option : String) (value : Word) :
    sbatch option value = "#SBATCH".toList ++ ([] ++ ' ' :: ("--".toList ++ option.toList ++ '=' :: value)) := by
  have hMagic : "#SBATCH --".toList = "#SBATCH".toList ++ ([] ++ ' ' :: "--".toList) := by decide
  unfold sbatch
  rw [hMagic, List.append_assoc, List.append_assoc, List.append_assoc]
  simp only [List.nil_append, List.cons_append]
  exact congrArg _ (congrArg _ (List.append_assoc _ _ _).symm)

/-- The line of a directive is one line, and a comment. -/
theorem sbatch_idle {option : String} {value : Word} (hOption : option ∈ optionNames)
    (hValue : ∀ c ∈ value, isSpace c = false) :
    '\n' ∉ sbatch option value ∧ isIdle (sbatch option value) = true := by
  obtain ⟨⟨-, hName⟩, -⟩ := optionNames_plain hOption
  have hNewline := (isBlank_of_plain hValue).1
  have hMagic : '\n' ∉ "#SBATCH".toList := by decide
  rw [sbatch_eq]
  constructor
  · simp only [List.mem_append, List.mem_cons, List.not_mem_nil, not_or] at hName hMagic ⊢
    exact ⟨hMagic, not_false, by decide, hName, by decide, hNewline⟩
  · rfl

/-- The line of a directive is read as the option and its value. -/
theorem readDirective_sbatch {option : String} {value : Word} (hOption : option ∈ optionNames)
    (hValue : ∀ c ∈ value, isSpace c = false) :
    readDirective (sbatch option value) = [("--".toList ++ option.toList, some value)] := by
  obtain ⟨⟨hEquals, -⟩, hPlain⟩ := optionNames_plain hOption
  have hWord : ∀ c ∈ "--".toList ++ option.toList ++ '=' :: value, isBlank c = false :=
    List.forall_mem_append.mpr ⟨hPlain, List.forall_mem_cons.mpr ⟨by decide, (isBlank_of_plain hValue).2⟩⟩
  have hPrefix : "#SBATCH".toList.isPrefixOf (sbatch option value) = true := by
    rw [sbatch_eq, List.isPrefixOf_iff_prefix]
    exact List.prefix_append _ _
  have hRest : (sbatch option value).drop 7 = [] ++ ' ' :: ("--".toList ++ option.toList ++ '=' :: value) := by
    rw [sbatch_eq]
    exact List.drop_left' (by decide)
  have hRead : readOption ("--".toList ++ option.toList ++ '=' :: value) =
      ("--".toList ++ option.toList, some value) := by
    rw [readOption, cutAt_of_notMem hEquals]
  rw [readDirective, if_pos hPrefix, hRest, List.splitOnP_append_cons [] _ (by decide),
    List.splitOnP_eq_singleton hWord]
  simpa using hRead

end Directives

section Commands

variable {environment : List (Word × Word)} {rest : List Word}

theorem environmentName_safe {name : Word} (h : isEnvironmentName name = true) :
    ∀ c ∈ name ++ ['='], isBare c = true := by
  have hSpecial : ∀ d ∈ "'\"\n \t#".toList ++ "|&;<>()$\x60\\*?[~{}!^".toList, (d.isAlphanum || d = '_') = false :=
    forall_mem_of_all (by decide)
  have hWord : ∀ c : Char, (c.isAlphanum || c = '_') = true → isBare c = true := by
    intro c hChar
    have hOther : ∀ d ∈ "'\"\n \t#".toList ++ "|&;<>()$\x60\\*?[~{}!^".toList, c ≠ d := by
      rintro d hIn rfl
      rw [hSpecial c hIn] at hChar
      cases hChar
    simp only [isBare, isSpecial, decide_eq_true_eq]
    exact ⟨fun hIn => hOther c (List.mem_append_left _ hIn) rfl, fun hIn => hOther c (List.mem_append_right _ hIn) rfl⟩
  cases name with
  | nil => cases h
  | cons first others =>
      simp only [isEnvironmentName, isNamePart, Bool.and_eq_true, List.all_eq_true] at h
      obtain ⟨hFirst, hOthers⟩ := h
      refine List.forall_mem_append.mpr ⟨List.forall_mem_cons.mpr ⟨hWord first ?_, fun c hIn => hWord c ?_⟩, ?_⟩
      · rcases Bool.or_eq_true_iff.mp hFirst with hAlpha | hScore
        · exact Bool.or_eq_true_iff.mpr (Or.inl (Bool.or_eq_true_iff.mpr (Or.inl hAlpha)))
        · exact Bool.or_eq_true_iff.mpr (Or.inr hScore)
      · simpa using hOthers c hIn
      · simp only [List.forall_mem_cons, List.not_mem_nil, false_imp_iff, implies_true, and_true]
        decide

/-- What an entry of the environment is exported as. -/
def exportWords (item : Word × Word) : List Word := ["export".toList, item.1 ++ '=' :: item.2]

theorem spells_export {item : Word × Word} (h : isEnvironmentName item.1 = true) :
    ∃ marks, SpellsAll (exportLine item) "export".toList [item.1 ++ '=' :: item.2] marks := by
  obtain ⟨marks, hExport⟩ := Spells.bareAll (show "export".toList ≠ [] by decide) (forall_mem_of_all (by decide))
  obtain ⟨marks', hName⟩ := Spells.bareAll (by simp) (environmentName_safe h)
  obtain ⟨marks'', hValue⟩ := spells_shellQuote item.2
  have hAll := SpellsAll.cons hExport (hName.append hValue).one
  refine ⟨marks ++ .blank :: (marks' ++ marks''), ?_⟩
  have hCommand : "export ".toList = "export".toList ++ [' '] := by decide
  have hText : exportLine item = "export".toList ++ ' ' :: (item.1 ++ ['='] ++ shellQuote item.2) := by
    unfold exportLine
    rw [hCommand]
    simp only [List.append_assoc, List.cons_append, List.nil_append]
  have hWord : item.1 ++ '=' :: item.2 = item.1 ++ ['='] ++ item.2 := by simp
  rw [hText, hWord]
  exact hAll

theorem read_exports {values : Environment} (h : ∀ item ∈ environment, isEnvironmentName item.1 = true)
    (hRest : rest ≠ []) :
    readCommands values (['\n'].intercalate (environment.map exportLine ++ rest)) =
      (readCommands values (['\n'].intercalate rest)).map (environment.map exportWords ++ ·) := by
  induction environment with
  | nil => simp
  | cons item environment ih =>
      obtain ⟨hItem, hOthers⟩ := List.forall_mem_cons.mp h
      obtain ⟨marks, hLine⟩ := spells_export hItem
      rw [List.map_cons, List.cons_append, intercalate_line _ (by simp [hRest]), readCommands_line hLine (by decide), ih hOthers,
        Option.map_map]
      rfl

theorem spells_set : ∃ marks,
    SpellsAll "set -euo pipefail".toList "set".toList ["-euo".toList, "pipefail".toList] marks := by
  obtain ⟨marks, hSet⟩ := Spells.bareAll (show "set".toList ≠ [] by decide) (forall_mem_of_all (by decide))
  obtain ⟨marks', hFlags⟩ := Spells.bareAll (show "-euo".toList ≠ [] by decide) (forall_mem_of_all (by decide))
  obtain ⟨marks'', hOption⟩ := Spells.bareAll (show "pipefail".toList ≠ [] by decide) (forall_mem_of_all (by decide))
  exact ⟨_, SpellsAll.cons hSet (SpellsAll.cons hFlags hOption.one)⟩

theorem spells_cd (cwd : Word) : ∃ marks, SpellsAll ("cd ".toList ++ shellQuote cwd) "cd".toList [cwd] marks := by
  obtain ⟨marks, hCd⟩ := Spells.bareAll (show "cd".toList ≠ [] by decide) (forall_mem_of_all (by decide))
  obtain ⟨marks', hWord⟩ := spells_shellQuote cwd
  exact ⟨_, SpellsAll.cons hCd hWord.one⟩

theorem spells_exec (first : Word) (others : List Word) :
    ∃ marks, SpellsAll ("exec ".toList ++ shellJoin (first :: others)) "exec".toList (first :: others) marks := by
  obtain ⟨marks, hExec⟩ := Spells.bareAll (show "exec".toList ≠ [] by decide) (forall_mem_of_all (by decide))
  obtain ⟨marks', hCommand⟩ := spellsAll_shellJoin first others
  exact ⟨_, SpellsAll.cons hExec hCommand⟩

/-- The lines of the commands are read as them. -/
theorem read_commands {argv : List Word} (values : Environment) (cwd : Word) (h : ∀ item ∈ environment, isEnvironmentName item.1 = true)
    (hArgv : argv ≠ []) :
    readCommands values (['\n'].intercalate ("set -euo pipefail".toList :: ("cd ".toList ++ shellQuote cwd) ::
        (environment.map exportLine ++ [[], "exec ".toList ++ shellJoin argv, []]))) =
      some (["set".toList, "-euo".toList, "pipefail".toList] :: ["cd".toList, cwd] ::
        (environment.map exportWords ++ ["exec".toList :: argv])) := by
  obtain ⟨first, others, rfl⟩ := List.exists_cons_of_ne_nil hArgv
  obtain ⟨_, hSet⟩ := spells_set
  obtain ⟨_, hCd⟩ := spells_cd cwd
  obtain ⟨_, hExec⟩ := spells_exec first others
  have hEnd : readCommands values [] = some [] := rfl
  rw [intercalate_line _ (by simp), readCommands_line hSet (by decide), intercalate_line _ (by simp), readCommands_line hCd (by decide),
    read_exports h (by simp), intercalate_line _ (by simp), List.nil_append, readCommands_blank,
    intercalate_line _ (by simp), readCommands_line hExec (by decide), List.intercalate_singleton, hEnd]
  rfl

/-- The entries of a mapping in the order of their names. -/
theorem sortedItems_sorted (h : (environment.map Prod.fst).Nodup) :
    (sortedItems environment).Perm environment ∧
      (sortedItems environment).Pairwise fun item other => item.1 < other.1 := by
  have hPerm : (sortedItems environment).Perm environment := List.mergeSort_perm _ _
  have hSorted : (sortedItems environment).Pairwise fun item other => decide (toLex item ≤ toLex other) = true := by
    apply List.pairwise_mergeSort
    · intro a b c hFirst hSecond
      exact decide_eq_true (le_trans (of_decide_eq_true hFirst) (of_decide_eq_true hSecond))
    · intro a b
      simpa using le_total (toLex a) (toLex b)
  have hDistinct : (sortedItems environment).Pairwise fun item other => item.1 ≠ other.1 :=
    List.pairwise_map.mp ((hPerm.map Prod.fst).nodup_iff.mpr h)
  refine ⟨hPerm, (hSorted.and hDistinct).imp ?_⟩
  rintro item other ⟨hOrder, hNames⟩
  rcases Prod.Lex.toLex_le_toLex.mp (of_decide_eq_true hOrder) with hLess | ⟨hSame, -⟩
  · exact hLess
  · exact absurd hSame hNames

end Commands

section Rendered

theorem flatMap_singletons {α β : Type} {items : List α} {f : α → List β} {g : α → β}
    (h : ∀ item ∈ items, f item = [g item]) : items.flatMap f = items.map g := by
  induction items with
  | nil => rfl
  | cons item items ih =>
      obtain ⟨hItem, hItems⟩ := List.forall_mem_cons.mp h
      rw [List.flatMap_cons, List.map_cons, hItem, ih hItems, List.singleton_append]

variable {job : Job} {script : Word}

/-- The integers of a job. -/
def counts (job : Job) : List Int :=
  [job.resources.nodes, job.resources.tasksPerNode, job.resources.cpusPerTask, job.resources.memoryGbPerNode,
    job.resources.gpusPerNode]

/-- Every integer of a job has few enough digits for a text. -/
def Short (job : Job) : Prop := ∀ n ∈ counts job, decimalDigits n ≤ maxDigits

instance (job : Job) : Decidable (Short job) := by unfold Short; infer_instance

/-- What is read from a script is what the job says, and nothing else. -/
structure ReadAs (script : Word) (job : Job) : Prop where
  directives : readDirectives script = (declared job).map fun item => ("--".toList ++ item.1.toList, some item.2)
  once : ((readDirectives script).map Prod.fst).Nodup
  commands : ∃ entries : List (Word × Word), entries.Perm job.environment ∧
    (entries.Pairwise fun item other => item.1 < other.1) ∧ ∀ values, readCommands values (shellText script) =
      some (["set".toList, "-euo".toList, "pipefail".toList] :: ["cd".toList, job.cwd] ::
        (entries.map exportWords ++ ["exec".toList :: job.argv]))

def directiveLines (job : Job) : List Word :=
  "#!/usr/bin/env bash".toList :: ((declared job).map fun item => sbatch item.1 item.2) ++ [[]]

def commandLines (job : Job) : List Word :=
  "set -euo pipefail".toList :: ("cd ".toList ++ shellQuote job.cwd) ::
    ((sortedItems job.environment).map exportLine ++ [[], "exec ".toList ++ shellJoin job.argv, []])

theorem decimal_short {n : Int} (h : decimalDigits n ≤ maxDigits) : decimal n = .ok (numeral n) := by
  rw [decimal, if_neg (by omega)]
  rfl

theorem short_of_decimal {n : Int} {text : Word} (h : decimal n = .ok text) : decimalDigits n ≤ maxDigits := by
  rw [decimal] at h
  split at h
  · cases h
  · omega

theorem decimal_error {n : Int} {error : Error} (h : decimal n = .error error) :
    ∃ message, error = .valueError message := by
  rw [decimal] at h
  split at h
  · cases h
    exact ⟨_, rfl⟩
  · cases h

/-- No GPUs are no text, and some are a decimal. -/
theorem gpuCount_cases (n : Int) :
    (n = 0 ∧ gpuCount n = .ok none) ∨ gpuCount n = (decimal n).map some := by
  rw [gpuCount]
  split
  · next hNone => exact Or.inl ⟨hNone, rfl⟩
  · exact Or.inr rfl

theorem short_of_gpuCount {n : Int} {value : Option Word} (h : gpuCount n = .ok value) :
    decimalDigits n ≤ maxDigits := by
  rcases gpuCount_cases n with ⟨rfl, -⟩ | hCount
  · decide
  · cases hDecimal : decimal n with
    | ok text => exact short_of_decimal hDecimal
    | error error =>
        rw [hCount, hDecimal] at h
        cases h

theorem gpuCount_error {n : Int} {error : Error} (h : gpuCount n = .error error) :
    ∃ message, error = .valueError message := by
  rcases gpuCount_cases n with ⟨-, hNone⟩ | hCount
  · rw [hNone] at h
    cases h
  · cases hDecimal : decimal n with
    | ok text =>
        rw [hCount, hDecimal] at h
        cases h
    | error error =>
        rw [hCount, hDecimal] at h
        cases h
        exact decimal_error hDecimal

theorem sbatchOptional_eq (option : String) (value : Option Word) :
    sbatchOptional option value = (optional option value).map fun item => sbatch item.1 item.2 := by
  simp [sbatchOptional, optional, Function.comp_def]

/-- The script of a job whose integers are short. -/
theorem render_short (h : Short job) :
    renderSlurmScript job = .ok (['\n'].intercalate (directiveLines job ++ commandLines job)) := by
  simp only [Short, counts, List.forall_mem_cons, List.not_mem_nil, false_imp_iff, implies_true, and_true] at h
  obtain ⟨hNodes, hTasks, hCpus, hMemory, hGpus⟩ := h
  have hGres : gpuCount job.resources.gpusPerNode =
      .ok (if job.resources.gpusPerNode = 0 then none else some (numeral job.resources.gpusPerNode)) := by
    unfold gpuCount
    split
    · rfl
    · rw [decimal_short hGpus]
      rfl
  have hValue : (if job.resources.gpusPerNode = 0 then none else some (numeral job.resources.gpusPerNode)).map
      ("gpu:".toList ++ ·) =
      if job.resources.gpusPerNode = 0 then none else some ("gpu:".toList ++ numeral job.resources.gpusPerNode) := by
    split <;> rfl
  rw [renderSlurmScript, decimal_short hNodes, decimal_short hTasks, decimal_short hCpus, decimal_short hMemory, hGres]
  refine congrArg Except.ok (congrArg _ ?_)
  simp only [directiveLines, commandLines, declared, hValue, sbatchOptional_eq, List.map_append, List.map_cons,
    List.map_nil, List.append_assoc, List.cons_append, List.nil_append]

/-- A script is made of short integers only. -/
theorem short_of_render (h : renderSlurmScript job = .ok script) : Short job := by
  rw [renderSlurmScript] at h
  obtain ⟨_, hNodes, h⟩ := of_bind h
  obtain ⟨_, hTasks, h⟩ := of_bind h
  obtain ⟨_, hCpus, h⟩ := of_bind h
  obtain ⟨_, hMemory, h⟩ := of_bind h
  obtain ⟨_, hGpus, -⟩ := of_bind h
  simp only [Short, counts, List.forall_mem_cons, List.not_mem_nil, false_imp_iff, implies_true, and_true]
  exact ⟨short_of_decimal hNodes, short_of_decimal hTasks, short_of_decimal hCpus, short_of_decimal hMemory,
    short_of_gpuCount hGpus⟩

theorem render_error {error : Error} (h : renderSlurmScript job = .error error) :
    ∃ message, error = .valueError message := by
  rw [renderSlurmScript] at h
  rcases of_bind_error h with h | ⟨_, -, h⟩
  · exact decimal_error h
  rcases of_bind_error h with h | ⟨_, -, h⟩
  · exact decimal_error h
  rcases of_bind_error h with h | ⟨_, -, h⟩
  · exact decimal_error h
  rcases of_bind_error h with h | ⟨_, -, h⟩
  · exact decimal_error h
  rcases of_bind_error h with h | ⟨_, -, h⟩
  · exact gpuCount_error h
  · cases h

/-- The lines of a job are read as it. -/
theorem lines_readAs (job : ValidJob) :
    ReadAs (['\n'].intercalate (directiveLines job.toJob ++ commandLines job.toJob)) job.toJob := by
  have hChecked := Job.check_ok job.checked
  have hDeclared : ∀ item ∈ declared job.toJob, item.1 ∈ optionNames := fun item hIn =>
    (declared_names job.toJob).subset (List.mem_map_of_mem hIn)
  have hLine : ∀ item ∈ declared job.toJob, readDirective (sbatch item.1 item.2) =
      [("--".toList ++ item.1.toList, some item.2)] := fun item hIn =>
    readDirective_sbatch (hDeclared item hIn) (declared_plain job item hIn)
  have hHeader : ∀ line ∈ directiveLines job.toJob, '\n' ∉ line ∧ isIdle line = true := by
    simp only [directiveLines, List.cons_append, List.forall_mem_cons, List.forall_mem_append, List.forall_mem_map]
    exact ⟨by decide, fun item hIn => sbatch_idle (hDeclared item hIn) (declared_plain job item hIn), by decide, nofun⟩
  obtain ⟨hLines, hText⟩ := read_lines (("cd ".toList ++ shellQuote job.cwd) ::
    ((sortedItems job.environment).map exportLine ++ [[], "exec ".toList ++ shellJoin job.argv, []])) hHeader
    (show '\n' ∉ "set -euo pipefail".toList by decide) (by decide)
  have hDirectives : readDirectives (['\n'].intercalate (directiveLines job.toJob ++ commandLines job.toJob)) =
      (declared job.toJob).map fun item => ("--".toList ++ item.1.toList, some item.2) := by
    rw [readDirectives, commandLines, hLines, directiveLines, List.cons_append, List.flatMap_cons, List.flatMap_append,
      List.flatMap_map, flatMap_singletons hLine]
    have hShebang : readDirective "#!/usr/bin/env bash".toList = [] := by decide
    have hEmpty : [([] : Word)].flatMap readDirective = [] := by decide
    rw [hShebang, hEmpty, List.nil_append, List.append_nil]
  obtain ⟨hPerm, hSorted⟩ := sortedItems_sorted job.environment_distinct
  refine ⟨hDirectives, ?_, sortedItems job.environment, hPerm, hSorted, ?_⟩
  · have hNames : ((declared job.toJob).map Prod.fst).Nodup := (declared_names job.toJob).nodup optionNames_nodup
    rw [hDirectives, List.map_map]
    exact List.pairwise_map.mpr ((List.pairwise_map.mp hNames).imp fun hOther hSame =>
      hOther (String.toList_injective (List.append_cancel_left hSame)))
  · have hNames : ∀ item ∈ sortedItems job.environment, isEnvironmentName item.1 = true := fun item hIn =>
      hChecked.names item (hPerm.mem_iff.mp hIn)
    intro values
    rw [commandLines, hText]
    exact read_commands values job.cwd hNames hChecked.argv

/-- A job is rendered as a script that says it, or its integers are too long for one. -/
theorem script_read (job : ValidJob) :
    (Short job.toJob ∧ ∃ script, renderSlurmScript job.toJob = .ok script ∧ ReadAs script job.toJob) ∨
      (¬Short job.toJob ∧ ∃ message, renderSlurmScript job.toJob = .error (.valueError message)) := by
  by_cases hShort : Short job.toJob
  · exact Or.inl ⟨hShort, _, render_short hShort, lines_readAs job⟩
  · cases hRender : renderSlurmScript job.toJob with
    | ok script => exact absurd (short_of_render hRender) hShort
    | error error =>
        obtain ⟨message, rfl⟩ := render_error hRender
        exact Or.inr ⟨hShort, message, rfl⟩

theorem decimalDigits_le_iff {n : Int} : decimalDigits n ≤ maxDigits ↔ n.natAbs < 10 ^ maxDigits :=
  Nat.length_repr_le_iff (by decide)

/-- A job on a number of nodes. -/
def spread (nodes : Nat) : Job :=
  ⟨"n".toList, ["p".toList], "/".toList, "/l".toList,
    { memoryGbPerNode := 1, timeLimit := "1".toList, nodes := nodes }, [], List.nodup_nil⟩

theorem spread_checked {nodes : Nat} (h : 0 < nodes) : (spread nodes).resources.check = .ok () := by
  have hNodes : positive "nodes" nodes = .ok () := if_neg (by omega)
  simp only [Resources.check, spread, hNodes]
  rfl

/-- A number of nodes that is too long to be written. -/
theorem script_refused :
    ∃ job : ValidJob, ¬∃ script, renderSlurmScript job.toJob = .ok script ∧ ReadAs script job.toJob := by
  refine ⟨⟨spread (10 ^ maxDigits), spread_checked (by positivity), by decide⟩, ?_⟩
  rintro ⟨script, hRender, -⟩
  have hShort := short_of_render hRender _ (List.mem_cons_self ..)
  rw [decimalDigits_le_iff] at hShort
  exact absurd hShort (lt_irrefl _)

end Rendered
end Pazuzu.Slurm
