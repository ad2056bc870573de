import Pazuzu.Quoting
import Pazuzu.Shell

/-! Session names as tmux takes them. It knows a session under its name with
every '.' and ':' made an '_'. -/
namespace Pazuzu.Shell

variable {session other : Word} {environment : Posix.Environment}

section Reader

/-- What tmux makes of one character of a name. -/
def tmuxChar (c : Char) : Char := if c = '.' ∨ c = ':' then '_' else c

/-- The last line of a text. -/
def lastLine (text : Word) : Word := (text.splitOn '\n').getLast?.getD []

/-- The session that the last command of a shell text attaches to. -/
def attachedSession (environment : Posix.Environment) (command : Word) : Option Word :=
  match Posix.readCommands environment (lastLine command) with
  | some [[exec, tmux, newSession, attach, target, name]] =>
      if [exec, tmux, newSession, attach, target] =
          ["exec".toList, "tmux".toList, "new-session".toList, "-A".toList, "-s".toList]
      then some (name.map tmuxChar) else none
  | _ => none

theorem lastLine_append {front line : Word} (h : '\n' ∉ line) : lastLine (front ++ '\n' :: line) = line := by
  rw [lastLine, List.splitOn_append_cons_self, List.splitOn_eq_singleton h]
  simp

end Reader

section Names

theorem chars_of_sessionName (h : isSessionName session = true) : ∀ c ∈ session, isSessionChar c = true := by
  unfold isSessionName at h
  split at h
  · cases h
  · next first rest =>
      simp only [Bool.and_eq_true, List.all_eq_true] at h
      refine List.forall_mem_cons.mpr ⟨?_, h.1.2⟩
      rw [isSessionChar, h.1.1, Bool.true_or]

theorem notMem_session {c : Char} (hOther : isSessionChar c = false) (h : isSessionName session = true) :
    c ∉ session := by
  intro hIn
  rw [chars_of_sessionName h c hIn] at hOther
  cases hOther

theorem break_before {front last line word rest : Word} (h : last = line ++ '\n' :: (word ++ [' '])) :
    front ++ last ++ rest = (front ++ line) ++ '\n' :: (word ++ ' ' :: rest) := by
  simp [h]

/-- The command of a name attaches to the session that tmux makes of it. -/
theorem attachedSession_command (h : isSessionName session = true) :
    attachedSession environment (remoteTmuxCommand session) = some (session.map tmuxChar) := by
  have hLine : ∃ front, remoteTmuxCommand session = front ++ '\n' ::
      shellJoin ["exec".toList, "tmux".toList, "new-session".toList, "-A".toList, "-s".toList, session] := by
    have hExec : shellQuote "exec".toList = "exec".toList := by decide
    have hBreak : "    exit 127\n\x7d\nexec ".toList =
        "    exit 127\n\x7d".toList ++ '\n' :: ("exec".toList ++ [' ']) := by decide
    have hJoin := shellJoin_cons "exec".toList "tmux".toList
      ["new-session".toList, "-A".toList, "-s".toList, session]
    exact ⟨_, (break_before hBreak).trans (congrArg _ (congrArg _ ((congrArg (· ++ _) hExec).symm.trans hJoin.symm)))⟩
  obtain ⟨front, hCommand⟩ := hLine
  have hOneLine : '\n' ∉
      shellJoin ["exec".toList, "tmux".toList, "new-session".toList, "-A".toList, "-s".toList, session] := by
    intro hIn
    rcases mem_shellJoin hIn with hChar | hChar | hChar | ⟨word, hWord, hChar⟩
    · cases hChar
    · cases hChar
    · cases hChar
    · simp only [List.mem_cons, List.not_mem_nil, or_false] at hWord
      rcases hWord with rfl | rfl | rfl | rfl | rfl | rfl
      · revert hChar; decide
      · revert hChar; decide
      · revert hChar; decide
      · revert hChar; decide
      · revert hChar; decide
      · exact notMem_session (by decide) h hChar
  obtain ⟨marks, hSpells⟩ := spellsAll_shellJoin "exec".toList
    ["tmux".toList, "new-session".toList, "-A".toList, "-s".toList, session]
  rw [attachedSession, hCommand, lastLine_append hOneLine, Posix.readCommands_last hSpells (by decide)]
  rfl

/-- Two characters that tmux keeps apart. -/
def Apart (c d : Char) : Prop := c ≠ d ∧ ¬(c = '.' ∧ d = '_') ∧ ¬(c = '_' ∧ d = '.')

instance (c d : Char) : Decidable (Apart c d) := inferInstanceAs (Decidable (_ ∧ _ ∧ _))

/-- Two names of different lengths, or with characters at one place that tmux
keeps apart. -/
def Distinct : Word → Word → Prop
  | [], [] => False
  | c :: rest, d :: others => Apart c d ∨ Distinct rest others
  | _, _ => True

theorem tmuxChar_ne_iff {c d : Char} (hLeft : c ≠ ':') (hRight : d ≠ ':') :
    tmuxChar c ≠ tmuxChar d ↔ Apart c d := by
  unfold tmuxChar Apart
  by_cases hFirst : c = '.'
  · by_cases hSecond : d = '.'
    · simp [hFirst, hSecond]
    · simp [hFirst, hSecond, hRight, eq_comm]
  · by_cases hSecond : d = '.'
    · simp [hFirst, hSecond, hLeft]
    · simp [hFirst, hSecond, hLeft, hRight]

theorem distinct_iff (hLeft : ':' ∉ session) (hRight : ':' ∉ other) :
    session.map tmuxChar ≠ other.map tmuxChar ↔ Distinct session other := by
  induction session generalizing other with
  | nil => cases other <;> simp [Distinct]
  | cons c rest ih =>
      cases other with
      | nil => simp [Distinct]
      | cons d others =>
          simp only [List.mem_cons, not_or] at hLeft hRight
          have hRest := ih hLeft.2 hRight.2
          have hFirst := tmuxChar_ne_iff (Ne.symm hLeft.1) (Ne.symm hRight.1)
          rw [Distinct, ← hRest, ← hFirst, List.map_cons, List.map_cons, ne_eq, List.cons.injEq, not_and_or]

instance : (session other : Word) → Decidable (Distinct session other)
  | [], [] => inferInstanceAs (Decidable False)
  | _ :: rest, _ :: others =>
      have := instDecidableDistinct rest others
      inferInstanceAs (Decidable (_ ∨ _))
  | [], _ :: _ | _ :: _, [] => inferInstanceAs (Decidable True)

/-- Two accepted names attach to two sessions exactly if they differ in length,
or at some place by more than a '.' in place of an '_'. -/
theorem sessions_apart_iff (hSession : validateSessionName session = .ok ())
    (hOther : validateSessionName other = .ok ()) :
    (∃ first second, attachedSession environment (remoteTmuxCommand session) = some first ∧
        attachedSession environment (remoteTmuxCommand other) = some second ∧ first ≠ second) ↔
      Distinct session other := by
  have hName : ∀ {name : Word}, validateSessionName name = .ok () → isSessionName name = true := by
    intro name h
    unfold validateSessionName at h
    split at h
    · next hTrue => exact hTrue
    · cases h
  rw [attachedSession_command (hName hSession), attachedSession_command (hName hOther),
    ← distinct_iff (notMem_session (by decide) (hName hSession)) (notMem_session (by decide) (hName hOther))]
  constructor
  · rintro ⟨first, second, hFirst, hSecond, hApart⟩
    rwa [Option.some.inj hFirst, Option.some.inj hSecond]
  · exact fun hApart => ⟨_, _, rfl, rfl, hApart⟩

theorem sessions_apart_named : ∃ first second, attachedSession (fun _ => []) (remoteTmuxCommand "a".toList) = some first ∧
    attachedSession (fun _ => []) (remoteTmuxCommand "b".toList) = some second ∧ first ≠ second :=
  (sessions_apart_iff (by decide) (by decide)).mpr (by decide)

/-- Two accepted names, one session. -/
theorem sessions_shared : ¬∀ (environment : Posix.Environment) (session other : Word), validateSessionName session = .ok () →
    validateSessionName other = .ok () → session ≠ other →
    ∃ first second, attachedSession environment (remoteTmuxCommand session) = some first ∧
      attachedSession environment (remoteTmuxCommand other) = some second ∧ first ≠ second := by
  intro hClaim
  obtain ⟨first, second, hFirst, hSecond, hApart⟩ :=
    hClaim (fun _ => []) "a.b".toList "a_b".toList (by decide) (by decide) (by decide)
  rw [attachedSession_command (by decide)] at hFirst hSecond
  exact hApart ((Option.some.inj hFirst).symm.trans (Option.some.inj hSecond))

end Names
end Pazuzu.Shell
