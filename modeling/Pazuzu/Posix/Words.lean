/-! How a POSIX shell splits its input into the words of simple commands. The
reader is strict: where an unquoted character has any meaning but its own, it
reads nothing. -/
namespace Pazuzu.Posix

abbrev Text := List Char

/-- Where the reader is: between two words, in one, in quotes, in the name of a
variable between double quotes, or in a comment. -/
inductive Mode where
  | between
  | inside
  | single
  | double
  | naming (name : Text)
  | comment
  deriving DecidableEq

/-- What the characters stand for. `opened` is a quotation, which makes a word
even where nothing is in it, and `value` what a variable has. -/
inductive Mark where
  | opened
  | char (c : Char)
  | value (name : Text)
  | blank
  | newline
  deriving DecidableEq

/-- Unquoted characters that are operators, expansions or patterns. -/
def isSpecial (c : Char) : Bool := c ∈ "|&;<>()$\x60\\*?[~{}!^".toList

/-- Characters that keep a meaning between double quotes. -/
def isActive (c : Char) : Bool := c ∈ "$\x60\\".toList

/-- The next mode and what the character leaves, outside of quotes. -/
def unquoted (mode : Mode) (c : Char) : Option (Mode × List Mark) :=
  if c = '\'' then some (.single, [.opened])
  else if c = '"' then some (.double, [.opened])
  else if c = '\n' then some (.between, [.newline])
  else if c = ' ' ∨ c = '\t' then some (.between, [.blank])
  else if c = '#' ∧ mode = .between then some (.comment, [])
  else if isSpecial c then none
  else some (.inside, [.char c])

/-- Between double quotes. -/
def doubled (c : Char) : Option (Mode × List Mark) :=
  if c = '"' then some (.inside, [])
  else if c = '$' then some (.naming [], [])
  else if isActive c then none
  else some (.double, [.char c])

/-- Whether the name of a variable goes on with the character. -/
def continues (name : Text) (c : Char) : Bool := c.isAlpha || c = '_' || !name.isEmpty && c.isDigit

/-- Behind a dollar sign between double quotes. Only a name may follow there. -/
def named (name : Text) (c : Char) : Option (Mode × List Mark) :=
  if continues name c then some (.naming (name ++ [c]), [])
  else if name.isEmpty then none
  else (doubled c).map fun later => (later.1, .value name :: later.2)

def next (mode : Mode) (c : Char) : Option (Mode × List Mark) :=
  match mode with
  | .between | .inside => unquoted mode c
  | .single => if c = '\'' then some (.inside, []) else some (.single, [.char c])
  | .double => doubled c
  | .naming name => named name c
  | .comment => if c = '\n' then some (.between, [.newline]) else some (.comment, [])

/-- The marks of a text, unless a quotation is left open. -/
def scan : Mode → Text → Option (List Mark)
  | mode, [] => if mode = .between ∨ mode = .inside ∨ mode = .comment then some [] else none
  | mode, c :: rest =>
      match next mode c with
      | none => none
      | some (mode, marks) => (scan mode rest).map (marks ++ ·)

/-- What has been gathered behind a place: the rest of the word there, the
other words of its command and the commands after it. -/
structure Gathered where
  word : Option Text := none
  words : List Text := []
  commands : List (List Text) := []

/-- The commands, where a new one begins. -/
def Gathered.close (gathered : Gathered) : List (List Text) :=
  match gathered.word.toList ++ gathered.words with
  | [] => gathered.commands
  | words => words :: gathered.commands

/-- The values of the variables; one that is not set is empty. -/
abbrev Environment := Text → Text

/-- A value between double quotes is not split. -/
def gather (environment : Environment) (mark : Mark) (gathered : Gathered) : Gathered :=
  match mark with
  | .opened => { gathered with word := some (gathered.word.getD []) }
  | .char c => { gathered with word := some (c :: gathered.word.getD []) }
  | .value name => { gathered with word := some (environment name ++ gathered.word.getD []) }
  | .blank => ⟨none, gathered.word.toList ++ gathered.words, gathered.commands⟩
  | .newline => ⟨none, [], gathered.close⟩

/-- The words that some shell reserves at the beginning of a command. -/
def reserved : List Text :=
  ["case", "coproc", "do", "done", "elif", "else", "esac", "fi", "for", "function", "if", "in", "select", "then", "time",
    "until", "while"].map String.toList

/-- Whether a first word can only be the name of a command, and neither an
assignment nor a reserved word. -/
def isCommandName (word : Text) : Bool := !word.contains '=' && !reserved.contains word

def areCommands (commands : List (List Text)) : Bool := commands.all fun words => words.head?.all isCommandName

/-- The simple commands of a text, each as its words. -/
def readCommands (environment : Environment) (text : Text) : Option (List (List Text)) :=
  ((scan .between text).map fun marks => (marks.foldr (gather environment) {}).close).filter areCommands

example (environment : Environment) : readCommands environment "a 'b c'\"d$E e\" '' # e\n\nf".toList =
    some [["a".toList, "b cd".toList ++ (environment "E".toList ++ " e".toList), []], ["f".toList]] := rfl

example (environment : Environment) : readCommands environment "A=1 b".toList = none := rfl

section Pieces

variable {text text' word word' : Text} {marks marks' : List Mark} {mode : Mode}

/-- A text that is a word, or the part of one, wherever it begins. -/
structure Spells (text word : Text) (marks : List Mark) : Prop where
  scans : ∀ mode rest, mode = .between ∨ mode = .inside →
    scan mode (text ++ rest) = (scan .inside rest).map (marks ++ ·)
  gathers : ∀ environment gathered, marks.foldr (gather environment) gathered =
    { gathered with word := some (word ++ gathered.word.getD []) }

theorem Spells.append (h : Spells text word marks) (h' : Spells text' word' marks') :
    Spells (text ++ text') (word ++ word') (marks ++ marks') where
  scans mode rest hMode := by
    rw [List.append_assoc, h.scans mode _ hMode, h'.scans .inside _ (Or.inr rfl), Option.map_map]
    congr 1
    funext more
    simp
  gathers environment gathered := by
    rw [List.foldr_append, h'.gathers, h.gathers]
    simp

theorem unquoted_bare {c : Char} (hQuote : c ≠ '\'' ∧ c ≠ '"') (hBlank : c ≠ '\n' ∧ c ≠ ' ' ∧ c ≠ '\t')
    (hComment : c ≠ '#') (hPlain : isSpecial c = false) : unquoted mode c = some (.inside, [.char c]) := by
  simp [unquoted, hQuote, hBlank, hComment, hPlain]

/-- A character that stands for itself outside of quotes. -/
def isBare (c : Char) : Bool := c ∉ "'\"\n \t#".toList ∧ ¬isSpecial c

theorem Spells.bare {c : Char} (h : isBare c = true) : Spells [c] [c] [.char c] where
  scans mode rest hMode := by
    simp only [isBare, decide_eq_true_eq, Bool.not_eq_true] at h
    obtain ⟨hOther, hPlain⟩ := h
    have hNext : next mode c = some (.inside, [.char c]) := by
      have hEach : ∀ d ∈ "'\"\n \t#".toList, c ≠ d := fun d hIn hSame => hOther (hSame ▸ hIn)
      have hUnquoted : unquoted mode c = some (.inside, [.char c]) :=
        unquoted_bare ⟨hEach _ (by decide), hEach _ (by decide)⟩
          ⟨hEach _ (by decide), hEach _ (by decide), hEach _ (by decide)⟩ (hEach _ (by decide)) hPlain
      rcases hMode with rfl | rfl <;> exact hUnquoted
    rw [List.singleton_append, scan, hNext]
  gathers _ _ := rfl

theorem Spells.bareAll (hSome : word ≠ []) (h : ∀ c ∈ word, isBare c = true) :
    ∃ marks, Spells word word marks := by
  induction word with
  | nil => exact absurd rfl hSome
  | cons c rest ih =>
      obtain ⟨hFirst, hRest⟩ := List.forall_mem_cons.mp h
      by_cases hLast : rest = []
      · subst hLast
        exact ⟨_, Spells.bare hFirst⟩
      · obtain ⟨marks, hMarks⟩ := ih hLast hRest
        exact ⟨_, (Spells.bare hFirst).append hMarks⟩

/-- A character between single quotes: one of these leaves them for double quotes. -/
def escaped (c : Char) : Text := if c = '\'' then "'\"'\"'".toList else [c]

def escapedMarks (c : Char) : List Mark := if c = '\'' then [.opened, .char c, .opened] else [.char c]

/-- A text in single quotes. -/
def quoted (text : Text) : Text := '\'' :: (text.flatMap escaped ++ ['\''])

/-- A quotation that has been opened, up to its end. -/
theorem scan_quoted (text rest : Text) :
    scan .single (text.flatMap escaped ++ '\'' :: rest) =
      (scan .inside rest).map (text.flatMap escapedMarks ++ ·) := by
  induction text with
  | nil => simp [scan, next]
  | cons c text ih =>
      rw [List.flatMap_cons, List.flatMap_cons, List.append_assoc]
      by_cases hQuote : c = '\''
      · subst hQuote
        simp [escaped, escapedMarks, scan, next, unquoted, doubled, isActive, ih, Function.comp_def]
      · simp [escaped, escapedMarks, hQuote, scan, next, ih, Function.comp_def]

theorem gather_quoted (environment : Environment) (text : Text) (gathered : Gathered) :
    gather environment .opened ((text.flatMap escapedMarks).foldr (gather environment) gathered) =
      { gathered with word := some (text ++ gathered.word.getD []) } := by
  induction text with
  | nil => rfl
  | cons c text ih =>
      simp only [gather, Gathered.mk.injEq, Option.some.injEq] at ih
      obtain ⟨hWord, hWords, hCommands⟩ := ih
      rw [List.flatMap_cons, List.foldr_append, escapedMarks]
      split <;> simp [gather, hWord, hWords, hCommands]

/-- A quoted text spells what it quotes. -/
theorem Spells.quoted (text : Text) :
    Spells (Posix.quoted text) text (.opened :: text.flatMap escapedMarks) where
  scans mode rest hMode := by
    have hNext : next mode '\'' = some (.single, [.opened]) := by
      rcases hMode with rfl | rfl <;> rfl
    rw [Posix.quoted, List.cons_append, scan, hNext]
    simp only [List.append_assoc, List.singleton_append, scan_quoted, Option.map_map]
    rfl
  gathers environment gathered := by rw [List.foldr_cons, gather_quoted]

/-- A text that is the words of one command, with a blank between two of them. -/
structure SpellsAll (text : Text) (first : Text) (others : List Text) (marks : List Mark) : Prop where
  scans : ∀ rest, scan .between (text ++ rest) = (scan .inside rest).map (marks ++ ·)
  gathers : ∀ environment words commands, marks.foldr (gather environment) ⟨none, words, commands⟩ = ⟨some first, others ++ words, commands⟩

theorem Spells.one (h : Spells text word marks) : SpellsAll text word [] marks where
  scans rest := h.scans .between rest (Or.inl rfl)
  gathers environment words commands := by simp [h.gathers]

theorem SpellsAll.cons {others : List Text} (h : Spells text word marks) (h' : SpellsAll text' word' others marks') :
    SpellsAll (text ++ ' ' :: text') word (word' :: others) (marks ++ .blank :: marks') where
  scans rest := by
    have hBlank : scan .inside (' ' :: (text' ++ rest)) = (scan .between (text' ++ rest)).map (.blank :: ·) := rfl
    rw [List.append_assoc, List.cons_append, h.scans .between _ (Or.inl rfl), hBlank, h'.scans, Option.map_map,
      Option.map_map]
    congr 1
    funext more
    simp
  gathers environment words commands := by
    rw [List.foldr_append, List.foldr_cons, h'.gathers, h.gathers]
    simp [gather]

/-- Words behind the words of a command. -/
theorem SpellsAll.append {others others' : List Text} (h : SpellsAll text word others marks)
    (h' : SpellsAll text' word' others' marks') :
    SpellsAll (text ++ ' ' :: text') word (others ++ word' :: others') (marks ++ .blank :: marks') where
  scans rest := by
    have hBlank : scan .inside (' ' :: (text' ++ rest)) = (scan .between (text' ++ rest)).map (.blank :: ·) := rfl
    rw [List.append_assoc, List.cons_append, h.scans, hBlank, h'.scans, Option.map_map, Option.map_map]
    congr 1
    funext more
    simp
  gathers environment words commands := by
    rw [List.foldr_append, List.foldr_cons, h'.gathers, gather]
    simp [h.gathers]

/-- Words of bare characters, with a blank between two of them. -/
theorem SpellsAll.bare (first : Text) (others : List Text)
    (h : ∀ word ∈ first :: others, word ≠ [] ∧ ∀ c ∈ word, isBare c = true) :
    ∃ marks, SpellsAll ([' '].intercalate (first :: others)) first others marks := by
  induction others generalizing first with
  | nil =>
      obtain ⟨hSome, hBare⟩ := h first List.mem_cons_self
      obtain ⟨marks, hFirst⟩ := Spells.bareAll hSome hBare
      rw [List.intercalate_singleton]
      exact ⟨_, hFirst.one⟩
  | cons second others ih =>
      obtain ⟨hSome, hBare⟩ := h first List.mem_cons_self
      obtain ⟨marks, hFirst⟩ := Spells.bareAll hSome hBare
      obtain ⟨marks', hOthers⟩ := ih second fun word hIn => h word (List.mem_cons_of_mem _ hIn)
      rw [List.intercalate_cons_cons, List.append_assoc, List.singleton_append]
      exact ⟨_, SpellsAll.cons hFirst hOthers⟩

variable {environment : Environment} {others : List Text}

/-- A command in front of others is one of them. -/
theorem filter_areCommands {name : Text} {words : List Text} (hName : isCommandName name = true)
    (commands : Option (List (List Text))) :
    (commands.map ((name :: words) :: ·)).filter areCommands = (commands.filter areCommands).map ((name :: words) :: ·) := by
  cases commands with
  | none => rfl
  | some commands => simp [Option.filter, areCommands, hName, apply_ite]

/-- A line that spells a command is read as that command. -/
theorem readCommands_line (h : SpellsAll text word others marks) (hName : isCommandName word = true) (rest : Text) :
    readCommands environment (text ++ '\n' :: rest) = (readCommands environment rest).map ((word :: others) :: ·) := by
  have hLine : scan .inside ('\n' :: rest) = (scan .between rest).map (.newline :: ·) := rfl
  rw [readCommands, h.scans, hLine, readCommands, ← filter_areCommands hName, Option.map_map, Option.map_map,
    Option.map_map]
  congr 2
  funext more
  simp only [Function.comp_apply, List.foldr_append, List.foldr_cons]
  rw [gather.eq_def, h.gathers]
  simp [Gathered.close]

theorem readCommands_last (h : SpellsAll text word others marks) (hName : isCommandName word = true) :
    readCommands environment text = some [word :: others] := by
  have hEnd := h.scans []
  rw [List.append_nil] at hEnd
  rw [readCommands, hEnd]
  simp [scan, h.gathers, Gathered.close, areCommands, hName]

theorem readCommands_blank (rest : Text) : readCommands environment ('\n' :: rest) = readCommands environment rest := by
  have hLine : scan .between ('\n' :: rest) = (scan .between rest).map (.newline :: ·) := rfl
  rw [readCommands, hLine, readCommands, Option.map_map]
  rfl

end Pieces
end Pazuzu.Posix
