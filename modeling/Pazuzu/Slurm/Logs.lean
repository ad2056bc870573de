import Pazuzu.Slurm

/-! The log files of a job. Slurm expands the patterns of the script; the handle
has the job ID put in for each '%j'. -/
namespace Pazuzu.Slurm

open Python

variable {job : Job} {jobId front rest text : Word} {handle : Handle} {stdout : Word} {c d : Char}

section Expansion

/-- What Slurm puts in besides the job's own data: the user's name, and texts for
its other letters. None of them has a percent sign. -/
structure Names where
  user : Word
  others : Char → Option Word
  user_plain : '%' ∉ user
  others_plain : ∀ c text, others c = some text → '%' ∉ text
  others_letters : ∀ c, (others c).isSome = true → c.isAlpha = true

/-- The symbols in the patterns of a job. -/
def Names.symbols (names : Names) (job : Job) (jobId : Word) (c : Char) : Option Word :=
  if c = 'j' then some jobId
  else if c = 'u' then some names.user
  else if c = 'x' then some job.name
  else names.others c

/-- The file name that Slurm makes of a pattern. -/
def expand (symbols : Char → Option Word) : Word → Word
  | '%' :: c :: rest =>
      if c = '%' then '%' :: expand symbols rest
      else
        match symbols c with
        | some text => text ++ expand symbols rest
        | none => '%' :: c :: expand symbols rest
  | c :: rest => c :: expand symbols rest
  | [] => []

/-- From left to right, every percent sign is that of a '%j' or stands before a
character that is no symbol. -/
def Verbatim (symbols : Char → Option Word) : Word → Prop
  | '%' :: c :: rest => (c = 'j' ∨ (c ≠ '%' ∧ symbols c = none)) ∧ Verbatim symbols rest
  | _ :: rest => Verbatim symbols rest
  | [] => True

/-- Symbols as the patterns have them: the job ID for 'j', and letters only. -/
structure Lawful (symbols : Char → Option Word) (jobId : Word) : Prop where
  job : symbols 'j' = some jobId
  digits : ∀ c ∈ jobId, c.isDigit = true
  some_digit : jobId ≠ []
  plain : ∀ c text, symbols c = some text → '%' ∉ text
  letters : symbols '/' = none

variable {symbols : Char → Option Word}

theorem expand_other (h : c ≠ '%') (rest : Word) : expand symbols (c :: rest) = c :: expand symbols rest := by
  rw [expand]
  rintro d tail rfl
  exact absurd rfl h

theorem verbatim_other (h : c ≠ '%') (rest : Word) : Verbatim symbols (c :: rest) ↔ Verbatim symbols rest := by
  rw [Verbatim]
  rintro d tail rfl
  exact absurd rfl h

theorem expand_escape (h : c ≠ '%') (hText : symbols c = some text) (rest : Word) :
    expand symbols ('%' :: c :: rest) = text ++ expand symbols rest := by
  rw [expand, if_neg h, hText]

theorem expand_unknown (h : c ≠ '%') (hNone : symbols c = none) (rest : Word) :
    expand symbols ('%' :: c :: rest) = '%' :: c :: expand symbols rest := by
  rw [expand, if_neg h, hNone]

theorem expand_plain (h : '%' ∉ front) (rest : Word) :
    expand symbols (front ++ rest) = front ++ expand symbols rest := by
  induction front with
  | nil => rfl
  | cons c front ih =>
      simp only [List.mem_cons, not_or] at h
      rw [List.cons_append, expand_other (Ne.symm h.1), ih h.2, List.cons_append]

/-- A slash ends what is read before it. -/
theorem expand_slash (hSlash : symbols '/' = none) : ∀ front rest : Word,
    expand symbols (front ++ '/' :: rest) = expand symbols (front ++ ['/']) ++ expand symbols rest
  | [], rest => by simp [expand_other, expand]
  | [c], rest => by
      by_cases hPercent : c = '%'
      · subst hPercent
        simp [expand_unknown (by decide) hSlash, expand]
      · simp [expand_other hPercent, expand_other, expand]
  | c :: d :: front, rest => by
      have hBoth := expand_slash hSlash front rest
      have hTail := expand_slash hSlash (d :: front) rest
      by_cases hPercent : c = '%'
      · subst hPercent
        simp only [List.cons_append] at hBoth ⊢
        rw [expand, expand]
        split
        · rw [hBoth, List.cons_append]
        · split
          · rw [hBoth, List.append_assoc]
          · rw [hBoth, List.cons_append, List.cons_append]
      · have hOther : ∀ rest, expand symbols (c :: rest) = c :: expand symbols rest := expand_other hPercent
        simp only [List.cons_append, hOther] at hTail ⊢
        rw [hTail]

theorem verbatim_slash (hSlash : symbols '/' = none) : ∀ front : Word,
    Verbatim symbols (front ++ ['/']) ↔ Verbatim symbols front
  | [] => by simp [Verbatim]
  | [c] => by
      by_cases hPercent : c = '%'
      · subst hPercent
        simp [Verbatim, hSlash]
      · simp [verbatim_other hPercent, Verbatim]
  | c :: d :: front => by
      have hBoth := verbatim_slash hSlash front
      have hTail := verbatim_slash hSlash (d :: front)
      by_cases hPercent : c = '%'
      · subst hPercent
        simp only [List.cons_append, Verbatim, hBoth]
      · rw [List.cons_append, verbatim_other hPercent, verbatim_other hPercent, hTail]

end Expansion

section Replacement

theorem replacePair_other (h : c ≠ '%') (rest : Word) :
    replacePair '%' 'j' jobId (c :: rest) = c :: replacePair '%' 'j' jobId rest := by
  cases rest with
  | nil => simp [replacePair]
  | cons d rest => rw [replacePair, if_neg fun hPair => h hPair.1]

theorem replacePair_job (rest : Word) :
    replacePair '%' 'j' jobId ('%' :: 'j' :: rest) = jobId ++ replacePair '%' 'j' jobId rest := by
  rw [replacePair, if_pos ⟨rfl, rfl⟩]

theorem replacePair_miss (h : c ≠ 'j') (rest : Word) :
    replacePair '%' 'j' jobId ('%' :: c :: rest) = '%' :: replacePair '%' 'j' jobId (c :: rest) := by
  rw [replacePair, if_neg fun hPair => h hPair.2]

theorem replacePair_plain (h : '%' ∉ front) (rest : Word) :
    replacePair '%' 'j' jobId (front ++ rest) = front ++ replacePair '%' 'j' jobId rest := by
  induction front with
  | nil => rfl
  | cons c front ih =>
      simp only [List.mem_cons, not_or] at h
      rw [List.cons_append, replacePair_other (Ne.symm h.1), ih h.2, List.cons_append]

theorem replacePair_slash (front rest : Word) :
    replacePair '%' 'j' jobId (front ++ '/' :: rest) =
      replacePair '%' 'j' jobId (front ++ ['/']) ++ replacePair '%' 'j' jobId rest := by
  fun_induction replacePair '%' 'j' jobId front with
  | case1 c d front hPair ih =>
      obtain ⟨rfl, rfl⟩ := hPair
      simp only [List.cons_append, replacePair_job, ih, List.append_assoc]
  | case2 c d front hPair ih =>
      simp only [List.cons_append] at ih ⊢
      rw [replacePair, if_neg hPair, ih, replacePair, if_neg hPair, List.cons_append]
  | case3 text hShort =>
      cases text with
      | nil => simp [replacePair_other, replacePair]
      | cons c text =>
          cases text with
          | nil => simp [replacePair, replacePair_other]
          | cons d text => exact absurd rfl (hShort c d text)

end Replacement

section Agreement

variable {symbols : Char → Option Word}

/-- Replacing never keeps fewer percent signs than it would one character later. -/
theorem count_replacePair_cons (hId : '%' ∉ jobId) (text : Word) :
    (replacePair '%' 'j' jobId text).count '%' ≤ (replacePair '%' 'j' jobId ('%' :: text)).count '%' := by
  cases text with
  | nil => simp [replacePair]
  | cons c rest =>
      by_cases hJob : c = 'j'
      · subst hJob
        rw [replacePair_job, replacePair_other (by decide), List.count_append,
          List.count_cons_of_ne (by decide), List.count_eq_zero_of_not_mem hId]
        omega
      · rw [replacePair_miss hJob]
        exact List.count_le_count_cons

/-- An expansion has no more percent signs than a replacement. -/
theorem count_expand_le (lawful : Lawful symbols jobId) : ∀ text : Word,
    (expand symbols text).count '%' ≤ (replacePair '%' 'j' jobId text).count '%'
  | [] => by simp [expand, replacePair]
  | [c] => by
      by_cases hPercent : c = '%'
      · subst hPercent
        simp [expand, replacePair]
      · rw [expand_other hPercent, replacePair_other hPercent]
        simp [expand, replacePair]
  | c :: d :: rest => by
      have hRest := count_expand_le lawful rest
      have hTail := count_expand_le lawful (d :: rest)
      have hId := lawful.plain _ _ lawful.job
      by_cases hPercent : c = '%'
      · subst hPercent
        by_cases hEscape : d = '%'
        · subst hEscape
          have hStep := count_replacePair_cons hId rest
          rw [replacePair_miss (by decide), expand, if_pos rfl, List.count_cons_self, List.count_cons_self]
          omega
        · cases hSymbol : symbols d with
          | none =>
              have hMiss : d ≠ 'j' := by
                rintro rfl
                cases lawful.job.symm.trans hSymbol
              rw [expand_unknown hEscape hSymbol, replacePair_miss hMiss, replacePair_other hEscape]
              simpa [List.count_cons_of_ne hEscape] using hRest
          | some text =>
              have hText := List.count_eq_zero_of_not_mem (lawful.plain d text hSymbol)
              rw [expand_escape hEscape hSymbol, List.count_append, hText]
              by_cases hJob : d = 'j'
              · subst hJob
                rw [replacePair_job, List.count_append]
                omega
              · rw [replacePair_miss hJob, replacePair_other hEscape, List.count_cons_self,
                  List.count_cons_of_ne hEscape]
                omega
      · rw [expand_other hPercent, replacePair_other hPercent, List.count_cons_of_ne hPercent,
          List.count_cons_of_ne hPercent]
        exact hTail

/-- A percent sign that Slurm takes for more than a character shows in the count. -/
theorem expand_ne_of_symbol (lawful : Lawful symbols jobId) (hEscape : c ≠ '%') (hJob : c ≠ 'j')
    (hSymbol : symbols c = some text) (rest : Word) :
    expand symbols ('%' :: c :: rest) ≠ replacePair '%' 'j' jobId ('%' :: c :: rest) := by
  intro hSame
  have hCount := congrArg (List.count '%') hSame
  have hRest := count_expand_le lawful rest
  have hText := List.count_eq_zero_of_not_mem (lawful.plain c text hSymbol)
  rw [expand_escape hEscape hSymbol, replacePair_miss hJob, replacePair_other hEscape, List.count_append, hText,
    List.count_cons_self, List.count_cons_of_ne hEscape] at hCount
  omega

theorem expand_ne_of_percent (lawful : Lawful symbols jobId) (rest : Word) :
    expand symbols ('%' :: '%' :: rest) ≠ replacePair '%' 'j' jobId ('%' :: '%' :: rest) := by
  intro hSame
  rw [replacePair_miss (by decide), expand, if_pos rfl] at hSame
  have hTail := (List.cons.inj hSame).2
  have hRest := count_expand_le lawful rest
  by_cases hJob : ∃ tail, rest = 'j' :: tail
  · -- one of them puts a letter where the other puts a digit
    obtain ⟨tail, rfl⟩ := hJob
    rw [expand_other (by decide), replacePair_job] at hTail
    obtain ⟨digit, digits, hDigits⟩ := List.exists_cons_of_ne_nil lawful.some_digit
    rw [hDigits, List.cons_append] at hTail
    have hLetter := lawful.digits digit (by simp [hDigits])
    rw [← (List.cons.inj hTail).1] at hLetter
    exact absurd hLetter (by decide)
  · have hCount := congrArg (List.count '%') hTail
    cases rest with
    | nil => simp [expand, replacePair] at hCount
    | cons c rest =>
        rw [replacePair_miss fun hSame => hJob ⟨rest, by rw [hSame]⟩, List.count_cons_self] at hCount
        omega

/-- Expanding and replacing agree just where a text is verbatim. -/
theorem expand_eq_replacePair_iff (lawful : Lawful symbols jobId) : ∀ text : Word,
    expand symbols text = replacePair '%' 'j' jobId text ↔ Verbatim symbols text
  | [] => by simp [expand, replacePair, Verbatim]
  | [c] => by
      by_cases hPercent : c = '%'
      · subst hPercent
        simp [expand, replacePair, Verbatim]
      · rw [expand_other hPercent, replacePair_other hPercent, verbatim_other hPercent]
        simp [expand, replacePair, Verbatim]
  | c :: d :: rest => by
      have hRest := expand_eq_replacePair_iff lawful rest
      have hTail := expand_eq_replacePair_iff lawful (d :: rest)
      by_cases hPercent : c = '%'
      · subst hPercent
        by_cases hJob : d = 'j'
        · subst hJob
          rw [expand_escape (by decide) lawful.job, replacePair_job, List.append_cancel_left_eq, hRest]
          simp [Verbatim]
        · by_cases hEscape : d = '%'
          · subst hEscape
            simp [expand_ne_of_percent lawful, Verbatim]
          · cases hSymbol : symbols d with
            | none =>
                rw [expand_unknown hEscape hSymbol, replacePair_miss hJob, replacePair_other hEscape]
                simp [hRest, Verbatim, hEscape, hSymbol]
            | some text =>
                simp [expand_ne_of_symbol lawful hEscape hJob hSymbol, Verbatim, hJob, hSymbol]
      · rw [expand_other hPercent, replacePair_other hPercent, verbatim_other hPercent, ← hTail]
        simp

end Agreement

section Handles

theorem notMem_name (h : isJobName job.name = true) (hOther : c.isAlphanum = false)
    (hExtra : c ∉ "_.-".toList) : c ∉ job.name := by
  cases hName : job.name with
  | nil => simp
  | cons first rest =>
      simp only [hName, isJobName, isNamePart, Bool.and_eq_true, List.all_eq_true, Bool.or_eq_true,
        decide_eq_true_eq] at h
      intro hIn
      rcases List.mem_cons.mp hIn with rfl | hIn
      · rw [hOther] at h
        exact absurd h.1.1 (by decide)
      · rcases h.1.2 c hIn with hPart | hPart
        · rw [hOther] at hPart
          cases hPart
        · exact hExtra hPart

/-- The pattern of a file is its directory, a slash and its name. -/
theorem posixJoin_directory (hLog : job.logDir.head? = some '/') (hText : text.head? ≠ some '/') :
    ∃ front, posixJoin job.logDir text = front ++ '/' :: text ∧
      (job.logDir = front ∨ job.logDir = front ++ ['/']) := by
  rw [posixJoin, if_neg hText]
  split
  · next hEnds =>
      rcases hEnds with hNone | hEnds
      · rw [hNone] at hLog
        cases hLog
      · obtain ⟨front, hFront⟩ := List.getLast?_eq_some_iff.mp hEnds
        exact ⟨front, by simp [hFront], Or.inr hFront⟩
  · exact ⟨job.logDir, rfl, Or.inl rfl⟩

theorem validateJobId_ok (h : validateJobId text = .ok jobId) : jobId ≠ [] ∧ ∀ c ∈ jobId, c.isDigit = true := by
  rw [validateJobId] at h
  split at h
  · next hDigits =>
      cases h
      exact ⟨hDigits.1, by simpa using hDigits.2⟩
  · cases h

theorem parseSubmission_ok (h : parseSubmission stdout job = .ok handle) :
    (handle.jobId ≠ [] ∧ ∀ c ∈ handle.jobId, c.isDigit = true) ∧
      handle.stdoutPath = replacePair '%' 'j' handle.jobId job.stdoutPattern ∧
      handle.stderrPath = replacePair '%' 'j' handle.jobId job.stderrPattern := by
  rw [parseSubmission] at h
  split at h
  · cases h
  · obtain ⟨jobId, hId, hHandle⟩ := of_bind h
    cases hHandle
    have hKept : ∀ {text}, validateJobId text = .ok jobId → jobId ≠ [] ∧ ∀ c ∈ jobId, c.isDigit = true :=
      validateJobId_ok
    exact ⟨hKept hId, rfl, rfl⟩

theorem lawful_symbols (names : Names) (hName : isJobName job.name = true)
    (hId : jobId ≠ [] ∧ ∀ c ∈ jobId, c.isDigit = true) : Lawful (names.symbols job jobId) jobId := by
  refine ⟨by simp [Names.symbols], hId.2, hId.1, ?_, ?_⟩
  · intro c text hSymbol
    simp only [Names.symbols] at hSymbol
    split at hSymbol
    · cases hSymbol
      exact fun hIn => absurd (hId.2 _ hIn) (by decide)
    split at hSymbol
    · cases hSymbol
      exact names.user_plain
    split at hSymbol
    · cases hSymbol
      exact notMem_name hName (by decide) (by decide)
    · exact names.others_plain c text hSymbol
  · cases hOther : names.others '/' with
    | none => simp [Names.symbols, hOther]
    | some text => exact absurd (names.others_letters '/' (by simp [hOther])) (by decide)

/-- The name of a log file is expanded as it is replaced. -/
theorem expand_file {symbols : Char → Option Word} (lawful : Lawful symbols jobId) (hName : isJobName job.name = true)
    {ending : Word} (hEnding : '%' ∉ ending) :
    expand symbols (job.name ++ '-' :: '%' :: 'j' :: ending) =
      replacePair '%' 'j' jobId (job.name ++ '-' :: '%' :: 'j' :: ending) := by
  have hPlain := notMem_name hName (c := '%') (by decide) (by decide)
  have hExpand : expand symbols (ending ++ []) = ending ++ expand symbols [] := expand_plain hEnding []
  have hReplace : replacePair '%' 'j' jobId (ending ++ []) = ending ++ replacePair '%' 'j' jobId [] :=
    replacePair_plain hEnding []
  rw [List.append_nil] at hExpand hReplace
  rw [expand_plain hPlain, replacePair_plain hPlain, expand_other (by decide), replacePair_other (by decide),
    expand_escape (by decide) lawful.job, replacePair_job, hExpand, hReplace, expand, replacePair]
  simp

/-- A pattern is expanded as it is replaced just where its directory is. -/
theorem expand_pattern_iff {symbols : Char → Option Word} (lawful : Lawful symbols jobId)
    (hName : isJobName job.name = true) (hLog : job.logDir.head? = some '/') (ending : Word) (hEnding : '%' ∉ ending) :
    replacePair '%' 'j' jobId (posixJoin job.logDir (job.name ++ '-' :: '%' :: 'j' :: ending)) =
        expand symbols (posixJoin job.logDir (job.name ++ '-' :: '%' :: 'j' :: ending)) ↔
      Verbatim symbols job.logDir := by
  have hHead : (job.name ++ '-' :: '%' :: 'j' :: ending).head? ≠ some '/' := by
    cases hText : job.name with
    | nil => simp
    | cons first rest =>
        have hSlash := notMem_name hName (c := '/') (by decide) (by decide)
        simp only [hText, List.mem_cons, not_or] at hSlash
        simpa using Ne.symm hSlash.1
  obtain ⟨front, hPattern, hDirectory⟩ := posixJoin_directory hLog hHead
  have hVerbatim : Verbatim symbols job.logDir ↔ Verbatim symbols (front ++ ['/']) := by
    rcases hDirectory with rfl | hSlash
    · exact (verbatim_slash lawful.letters _).symm
    · rw [hSlash]
  rw [hPattern, replacePair_slash, expand_slash lawful.letters, ← expand_file lawful hName hEnding,
    List.append_cancel_right_eq, hVerbatim, ← expand_eq_replacePair_iff lawful, eq_comm]

/-- The paths of a handle are the files that Slurm writes just when the log
directory is read verbatim. -/
theorem log_paths_iff (names : Names) (job : ValidJob) (h : parseSubmission stdout job.toJob = .ok handle) :
    (handle.stdoutPath = expand (names.symbols job.toJob handle.jobId) job.stdoutPattern ∧
        handle.stderrPath = expand (names.symbols job.toJob handle.jobId) job.stderrPattern) ↔
      Verbatim (names.symbols job.toJob handle.jobId) job.logDir := by
  obtain ⟨hId, hOut, hErr⟩ := parseSubmission_ok h
  have hChecked := Job.check_ok job.checked
  have lawful := lawful_symbols names hChecked.name hId
  have hEither := expand_pattern_iff lawful hChecked.name hChecked.logDir
  have hStdout := hEither ".out".toList (by decide)
  have hStderr := hEither ".err".toList (by decide)
  rw [hOut, hErr]
  exact (and_congr hStdout hStderr).trans and_self_iff

/-- A job that logs to a directory. -/
def logger (logDir : Word) : Job :=
  ⟨"n".toList, ["p".toList], "/".toList, logDir, { memoryGbPerNode := 1, timeLimit := "1".toList }, [], List.nodup_nil⟩

/-- A user, and no other symbol. -/
def onlyUser : Names := ⟨"u".toList, fun _ => none, by decide, nofun, nofun⟩

/-- A directory without a percent sign. -/
theorem log_paths_plain :
    (logger "/l".toList).stdoutPattern = "/l/n-%j.out".toList ∧
      expand (onlyUser.symbols (logger "/l".toList) "7".toList) (logger "/l".toList).stdoutPattern =
        "/l/n-7.out".toList := by
  have hRead : parseSubmission "7".toList (logger "/l".toList) =
      .ok ⟨"7".toList, "n".toList, "/l/n-7.out".toList, "/l/n-7.err".toList⟩ := by decide
  have hVerbatim : Verbatim (onlyUser.symbols (logger "/l".toList) "7".toList) "/l".toList := by
    simp [Verbatim]
  have hPaths := (log_paths_iff onlyUser ⟨logger "/l".toList, by decide, by decide⟩ hRead).mpr hVerbatim
  exact ⟨by decide, hPaths.1.symm⟩

/-- A directory of the user is a file name of its own to Slurm only. -/
theorem log_paths_user : ∃ names : Names, ∃ job : ValidJob, ∃ stdout handle,
    parseSubmission stdout job.toJob = .ok handle ∧ job.resources.array = none ∧
      handle.stdoutPath ≠ expand (names.symbols job.toJob handle.jobId) job.stdoutPattern :=
  ⟨onlyUser, ⟨logger "/%u".toList, by decide, by decide⟩, "7".toList,
    ⟨"7".toList, "n".toList, "/%u/n-7.out".toList, "/%u/n-7.err".toList⟩, by decide, rfl, by decide⟩

end Handles
end Pazuzu.Slurm
