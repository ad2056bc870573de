import Pazuzu.Transfer.Places

/-! How `scp` reads the command line that is made for it: as `getopt` does,
with several letters in one word, and the value of a letter behind it or in
the next word. -/
namespace Pazuzu.Transfer

section Reader

/-- The letters that choose the SSH program or configure it. -/
def isTransport (letter : Char) : Bool := letter ∈ "DFJSo".toList

def takesValue (letter : Char) : Bool := isTransport letter ∨ letter ∈ "cilMPX".toList

/-- Whether the letters of a word end in one that takes the next word. -/
def wantsNext : Word → Bool
  | [] => false
  | letter :: rest => if takesValue letter then rest.isEmpty else wantsNext rest

/-- The letters of the option words, each with the next word where it is the
value of the last letter. A word without a dash ends the options, unless the
reader permutes; one whose value is missing is no option. -/
def optionWords (permutes : Bool) : Option Word → List Word → List (Word × Option Word)
  | _, [] => []
  | some letters, value :: rest => (letters, some value) :: optionWords permutes none rest
  | none, word :: rest =>
      match word with
      | ['-', '-'] => []
      | '-' :: letter :: letters =>
          if wantsNext (letter :: letters) then optionWords permutes (some (letter :: letters)) rest
          else (letter :: letters, none) :: optionWords permutes none rest
      | _ => if permutes then optionWords permutes none rest else []

/-- The options of one word: flags up to a letter that takes a value. -/
def readWord (value : Option Word) : Word → List (Char × Option Word)
  | [] => []
  | letter :: rest =>
      if takesValue letter then [(letter, if rest = [] then value else some rest)]
      else (letter, none) :: readWord value rest

/-- The options of `scp` that concern its transport, as it reads its words. -/
def transportOptions (permutes : Bool) (words : List Word) : List (Char × Option Word) :=
  (optionWords permutes none words).flatMap fun word =>
    (readWord word.2 word.1).filter fun option => isTransport option.1

/-- Behind letters without a value there is one that concerns the transport. -/
def Smuggles (letters : Word) : Prop :=
  ∃ flags letter rest, letters = flags ++ letter :: rest ∧ isTransport letter = true ∧
    ∀ flag ∈ flags, takesValue flag = false

theorem smuggles_cons (letter : Char) (rest : Word) :
    Smuggles (letter :: rest) ↔ isTransport letter = true ∨ (takesValue letter = false ∧ Smuggles rest) := by
  constructor
  · rintro ⟨flags, found, tail, hSplit, hTransport, hFlags⟩
    cases flags with
    | nil =>
        cases hSplit
        exact Or.inl hTransport
    | cons flag flags =>
        cases hSplit
        exact Or.inr ⟨hFlags letter List.mem_cons_self, flags, found, tail, rfl, hTransport,
          fun flag hFlag => hFlags flag (List.mem_cons_of_mem _ hFlag)⟩
  · rintro (hTransport | ⟨hFlag, flags, found, tail, rfl, hTransport, hFlags⟩)
    · exact ⟨[], letter, rest, rfl, hTransport, fun _ h => by cases h⟩
    · exact ⟨letter :: flags, found, tail, rfl, hTransport, List.forall_mem_cons.mpr ⟨hFlag, hFlags⟩⟩

theorem takesValue_of_isTransport {letter : Char} (h : isTransport letter = true) : takesValue letter = true := by
  simp [takesValue, h]

theorem readWord_plain_iff (value : Option Word) (letters : Word) :
    ((readWord value letters).filter fun option => isTransport option.1) = [] ↔ ¬Smuggles letters := by
  induction letters with
  | nil => simp [readWord, Smuggles]
  | cons letter rest ih =>
      rw [smuggles_cons]
      by_cases hValue : takesValue letter = true
      · simp [readWord, hValue]
      · have hPlain : isTransport letter = false := by
          by_contra hTransport
          exact hValue (takesValue_of_isTransport (by simpa using hTransport))
        simp [readWord, hValue, hPlain, ← ih]

theorem transportOptions_eq_nil_iff (permutes : Bool) (words : List Word) :
    transportOptions permutes words = [] ↔ ∀ word ∈ optionWords permutes none words, ¬Smuggles word.1 := by
  simp only [transportOptions, List.flatMap_eq_nil_iff, readWord_plain_iff]

/-- An option word. -/
def isGroup : Word → Bool
  | ['-', '-'] => false
  | '-' :: _ :: _ => true
  | _ => false

/-- Words behind which an option may stand: options, each with its value, and
operands where the reader permutes. -/
inductive Passed (permutes : Bool) : List Word → Prop
  | none : Passed permutes []
  | flags {letters : Word} {rest : List Word} : isGroup ('-' :: letters) = true → wantsNext letters = false →
      Passed permutes rest → Passed permutes (('-' :: letters) :: rest)
  | valued {letters value : Word} {rest : List Word} : isGroup ('-' :: letters) = true →
      wantsNext letters = true → Passed permutes rest → Passed permutes (('-' :: letters) :: value :: rest)
  | operand {word : Word} {rest : List Word} : permutes = true → isGroup word = false → word ≠ "--".toList →
      Passed permutes rest → Passed permutes (word :: rest)

theorem optionWords_group {letters : Word} (permutes : Bool) (rest : List Word) (h : isGroup ('-' :: letters) = true) :
    optionWords permutes none (('-' :: letters) :: rest) =
      if wantsNext letters then optionWords permutes (some letters) rest
      else (letters, none) :: optionWords permutes none rest := by
  unfold isGroup at h
  split at h
  · cases h
  · next letter others hNoEnd hEq =>
      obtain rfl := (List.cons.inj hEq).2
      rw [optionWords]
      intro hEnd
      exact hNoEnd (by rw [hEnd])
  · cases h

theorem optionWords_operand {word : Word} (permutes : Bool) (rest : List Word) (h : isGroup word = false)
    (hEnd : word ≠ "--".toList) :
    optionWords permutes none (word :: rest) = if permutes then optionWords permutes none rest else [] := by
  unfold isGroup at h
  split at h
  · exact absurd rfl hEnd
  · cases h
  · next hNoEnd hNoGroup => rw [optionWords] <;> assumption

theorem exists_letters {word : Word} (h : isGroup word = true) : ∃ letters, word = '-' :: letters := by
  unfold isGroup at h
  split at h
  · cases h
  · exact ⟨_, rfl⟩
  · cases h

theorem passed_of_mem {permutes : Bool} {letters : Word} {value : Option Word} {words : List Word}
    (h : (letters, value) ∈ optionWords permutes none words) :
    ∃ before after, words = before ++ ('-' :: letters) :: after ∧ Passed permutes before ∧
      isGroup ('-' :: letters) = true ∧ (wantsNext letters = true → after ≠ []) := by
  induction hLength : words.length using Nat.strong_induction_on generalizing words with
  | _ length ih =>
      cases words with
      | nil => cases h
      | cons word rest =>
          have hRest := fun hIn => @ih rest.length (hLength ▸ Nat.lt_succ_self _) rest hIn rfl
          cases hGroup : isGroup word with
          | true =>
              obtain ⟨group, rfl⟩ := exists_letters hGroup
              rw [optionWords_group _ _ hGroup] at h
              cases hWants : wantsNext group with
              | false =>
                  rw [hWants] at h
                  rcases List.mem_cons.mp h with hHere | hLater
                  · obtain ⟨rfl, -⟩ := Prod.mk.inj hHere
                    exact ⟨[], rest, rfl, .none, hGroup, fun hNext => by rw [hWants] at hNext; cases hNext⟩
                  · obtain ⟨before, after, rfl, hPassed, hOthers⟩ := hRest hLater
                    exact ⟨_ :: before, after, rfl, .flags hGroup hWants hPassed, hOthers⟩
              | true =>
                  rw [hWants, if_pos rfl] at h
                  cases rest with
                  | nil => cases h
                  | cons next rest =>
                      rcases List.mem_cons.mp h with hHere | hLater
                      · obtain ⟨rfl, -⟩ := Prod.mk.inj hHere
                        exact ⟨[], next :: rest, rfl, .none, hGroup, fun _ => List.cons_ne_nil _ _⟩
                      · have hShort : rest.length < length := by
                          rw [← hLength, List.length_cons, List.length_cons]
                          omega
                        obtain ⟨before, after, rfl, hPassed, hOthers⟩ := ih rest.length hShort hLater rfl
                        exact ⟨_ :: next :: before, after, rfl, .valued hGroup hWants hPassed, hOthers⟩
          | false =>
              by_cases hEnd : word = "--".toList
              · rw [hEnd] at h
                cases h
              · rw [optionWords_operand _ _ hGroup hEnd] at h
                split at h
                · next hPermutes =>
                    obtain ⟨before, after, rfl, hPassed, hOthers⟩ := hRest h
                    exact ⟨word :: before, after, rfl, .operand hPermutes hGroup hEnd hPassed, hOthers⟩
                · cases h

/-- What the reader takes for the letters of an option. -/
theorem mem_optionWords {permutes : Bool} {letters : Word} {words : List Word} :
    (∃ value, (letters, value) ∈ optionWords permutes none words) ↔
      ∃ before after, words = before ++ ('-' :: letters) :: after ∧ Passed permutes before ∧
        isGroup ('-' :: letters) = true ∧ (wantsNext letters = true → after ≠ []) := by
  constructor
  · rintro ⟨value, hIn⟩
    exact passed_of_mem hIn
  · rintro ⟨before, after, rfl, hPassed, hHere, hNext⟩
    induction hPassed with
    | none =>
        rw [List.nil_append, optionWords_group _ _ hHere]
        split
        · next hWants =>
            obtain ⟨value, rest, rfl⟩ := List.exists_cons_of_ne_nil (hNext hWants)
            exact ⟨some value, List.mem_cons_self⟩
        · exact ⟨none, List.mem_cons_self⟩
    | @flags group rest hGroup hWants _ ih =>
        obtain ⟨value, hIn⟩ := ih
        refine ⟨value, ?_⟩
        rw [List.cons_append, optionWords_group _ _ hGroup, hWants]
        exact List.mem_cons_of_mem _ hIn
    | @valued group value rest hGroup hWants _ ih =>
        obtain ⟨found, hIn⟩ := ih
        refine ⟨found, ?_⟩
        rw [List.cons_append, optionWords_group _ _ hGroup, hWants]
        exact List.mem_cons_of_mem _ hIn
    | @operand word rest hPermutes hWord hEnd _ ih =>
        obtain ⟨value, hIn⟩ := ih
        refine ⟨value, ?_⟩
        rw [List.cons_append, optionWords_operand _ _ hWord hEnd, if_pos hPermutes]
        exact hIn

/-- A transport option with its value in the next word, and what follows. -/
theorem transportOptions_pair (permutes : Bool) {letter : Char} (hLetter : isTransport letter = true)
    (value : Word) (rest : List Word) :
    transportOptions permutes (['-', letter] :: value :: rest) =
      (letter, some value) :: transportOptions permutes rest := by
  have hNoEnd : letter ≠ '-' := by
    rintro rfl
    cases hLetter
  have hWord : optionWords permutes none (['-', letter] :: value :: rest) =
      ([letter], some value) :: optionWords permutes none rest := by
    simp [optionWords, hNoEnd, wantsNext, takesValue_of_isTransport hLetter]
  simp [transportOptions, hWord, readWord, takesValue_of_isTransport hLetter, hLetter]

end Reader

section Copy

variable {attachment : SshAttachment} {values argv : List Word} {executable : Word}

/-- The SSH program and the SSH options of an attachment. -/
def attachmentOptions (attachment : SshAttachment) : List (Char × Option Word) :=
  ('S', some attachment.sshBinary.toList) ::
    (commonSshOptions ++ ["ControlPath=" ++ attachment.controlPath]).map fun value => ('o', some value.toList)

theorem transportOptions_sshOptions (permutes : Bool) (options : List String) (rest : List Word) :
    transportOptions permutes ((options.flatMap fun value => ["-o".toList, value.toList]) ++ rest) =
      options.map (fun value => ('o', some value.toList)) ++ transportOptions permutes rest := by
  induction options with
  | nil => rfl
  | cons option options ih =>
      have hOption : "-o".toList = ['-', 'o'] := rfl
      rw [List.flatMap_cons, List.append_assoc, List.cons_append, List.cons_append, List.nil_append, hOption,
        transportOptions_pair permutes (by decide), ← hOption, ih]
      rfl

/-- The word has a transport letter with its value behind one or more flags. A
word that names a place is read with the host in front of it, and may have the
letter first where the host begins with the dash. -/
def Hides (host word : Word) (after : List Word) : Prop :=
  ∃ flags letter rest, placed host word = '-' :: (flags ++ letter :: rest) ∧ isTransport letter = true ∧
    (∀ flag ∈ flags, takesValue flag = false) ∧ (rest = [] → after ≠ []) ∧ (flags = [] → isPlace word = true)

theorem wantsNext_flags {flags rest : Word} {letter : Char} (hFlags : ∀ flag ∈ flags, takesValue flag = false)
    (hLetter : isTransport letter = true) : wantsNext (flags ++ letter :: rest) = rest.isEmpty := by
  induction flags with
  | nil => exact if_pos (takesValue_of_isTransport hLetter)
  | cons flag flags ih =>
      obtain ⟨hFlag, hFlags⟩ := List.forall_mem_cons.mp hFlags
      rw [List.cons_append, wantsNext, hFlag]
      exact ih hFlags

theorem isGroup_flags {flags rest : Word} {letter : Char} (hLetter : isTransport letter = true) :
    isGroup ('-' :: (flags ++ letter :: rest)) = true := by
  unfold isGroup
  split
  · next hEnd =>
      have hIn : letter ∈ ['-'] := (List.cons.inj hEnd).2 ▸ List.mem_append_right flags List.mem_cons_self
      rw [List.mem_singleton.mp hIn] at hLetter
      cases hLetter
  · rfl
  · next hNoGroup =>
      cases flags with
      | nil => exact absurd rfl (hNoGroup letter rest)
      | cons flag flags => exact absurd rfl (hNoGroup flag (flags ++ letter :: rest))

/-- The filter turns away a transport letter right behind the dash. -/
theorem overridesCopy_of_isTransport {letter : Char} {rest : Word} (h : isTransport letter = true) :
    overridesCopy ('-' :: letter :: rest) = true := by
  have hLetter : letter ∈ ['D', 'F', 'J', 'S', 'o'] := by simpa [isTransport] using h
  simp only [List.mem_cons, List.not_mem_nil, or_false] at hLetter
  rcases hLetter with rfl | rfl | rfl | rfl | rfl <;> simp [overridesCopy, List.isPrefixOf]

theorem kept_of_rejectCopy {words : List Word} (h : rejectTransportOverrides "cp" words = .ok ()) :
    ∀ word ∈ words, overridesCopy word = false := by
  induction words with
  | nil => exact fun word hIn => by cases hIn
  | cons argument rest ih =>
      rw [rejectTransportOverrides] at h
      split at h
      · cases h
      · next hKept =>
          split at h
          · cases h
          · exact List.forall_mem_cons.mpr ⟨by simpa using hKept, ih h⟩

/-- Of the words that pass the filter, one is misread exactly if it hides a
letter behind flags. -/
theorem smuggles_iff_hides {host word : Word} {after : List Word} (hKept : overridesCopy word = false) :
    (∃ letters, placed host word = '-' :: letters ∧ isGroup ('-' :: letters) = true ∧
      (wantsNext letters = true → after ≠ []) ∧ Smuggles letters) ↔ Hides host word after := by
  constructor
  · rintro ⟨letters, hPlaced, -, hNext, flags, letter, rest, rfl, hLetter, hFlags⟩
    rw [wantsNext_flags hFlags hLetter] at hNext
    refine ⟨flags, letter, rest, hPlaced, hLetter, hFlags, fun hNone => hNext (by rw [hNone]; rfl), fun hFirst => ?_⟩
    by_contra hPlain
    rw [placed_plain (Bool.eq_false_iff.mpr hPlain), hFirst] at hPlaced
    rw [hPlaced] at hKept
    rw [List.nil_append, overridesCopy_of_isTransport hLetter] at hKept
    cases hKept
  · rintro ⟨flags, letter, rest, hPlaced, hLetter, hFlags, hNext, -⟩
    refine ⟨_, hPlaced, isGroup_flags hLetter, fun hWants => ?_, flags, letter, rest, rfl, hLetter, hFlags⟩
    rw [wantsNext_flags hFlags hLetter] at hWants
    exact hNext (List.isEmpty_iff.mp hWants)

/-- An accepted copy is made with the SSH program and options of its attachment
exactly if none of the caller's words, where options are read, hides a transport
letter behind flags: one that stands first is turned away. -/
theorem copy_transport_iff (permutes : Bool) (h : copyArgv attachment values executable = .ok argv) :
    transportOptions permutes argv.tail = attachmentOptions attachment ↔
      ∀ before word after, operandsOf values = before ++ word :: after →
        Passed permutes (before.map (placed attachment.host.toList)) →
          ¬Hides attachment.host.toList word after := by
  obtain ⟨rewritten, hRewritten, rfl⟩ : ∃ rewritten,
      remoteArguments attachment.host.toList values "cp" = .ok rewritten ∧
        argv = executable :: "-S".toList :: attachment.sshBinary.toList :: (sshOptions attachment ++ rewritten) := by
    simp only [copyArgv, bind, Except.bind] at h
    split at h
    · cases h
    · next rewritten hRewritten => exact ⟨rewritten, hRewritten, (Except.ok.inj h).symm⟩
  obtain ⟨hReject, rfl⟩ := accepted_of_remoteArguments hRewritten
  have hKept := kept_of_rejectCopy hReject
  have hRead : transportOptions permutes ("-S".toList :: attachment.sshBinary.toList ::
      (sshOptions attachment ++ (operandsOf values).map (placed attachment.host.toList))) =
      attachmentOptions attachment ++
        transportOptions permutes ((operandsOf values).map (placed attachment.host.toList)) :=
    (transportOptions_pair permutes rfl _ _).trans (congrArg _ (transportOptions_sshOptions permutes _ _))
  rw [List.tail_cons, hRead, List.append_right_eq_self, transportOptions_eq_nil_iff]
  constructor
  · intro hPlain before word after hSplit hPassed hHides
    have hIn : word ∈ operandsOf values := by
      rw [hSplit]
      exact List.mem_append_right _ List.mem_cons_self
    obtain ⟨letters, hPlaced, hGroup, hNext, hSmuggles⟩ := (smuggles_iff_hides (hKept word hIn)).mpr hHides
    obtain ⟨value, hOption⟩ := (@mem_optionWords permutes letters _).mpr
      ⟨before.map (placed attachment.host.toList), after.map (placed attachment.host.toList), rfl, hPassed, hGroup,
        fun hWants => fun hNone => hNext hWants (List.map_eq_nil_iff.mp hNone)⟩
    refine hPlain (letters, value) ?_ hSmuggles
    rwa [hSplit, List.map_append, List.map_cons, hPlaced]
  · rintro hNone ⟨letters, value⟩ hOption hSmuggles
    obtain ⟨before, rest, hSplit, hPassed, hGroup, hNext⟩ := mem_optionWords.mp ⟨value, hOption⟩
    obtain ⟨callers, others, hCallers, rfl, hOthers⟩ := List.map_eq_append_iff.mp hSplit
    obtain ⟨word, after, rfl, hPlaced, rfl⟩ := List.map_eq_cons_iff.mp hOthers
    have hIn : word ∈ operandsOf values := by
      rw [hCallers]
      exact List.mem_append_right _ List.mem_cons_self
    exact hNone callers word after hCallers hPassed ((smuggles_iff_hides (hKept word hIn)).mp
      ⟨letters, hPlaced, hGroup, fun hWants hNil => hNext hWants (by rw [hNil]; rfl), hSmuggles⟩)

/-- The filter looks at the first letter of a word only. -/
theorem copy_smuggled : ¬∀ (attachment : SshAttachment) (values argv : List Word) (executable : Word),
    copyArgv attachment values executable = .ok argv →
    ∀ permutes, transportOptions permutes argv.tail = attachmentOptions attachment := by
  intro hClaim
  have hAccepted : copyArgv localMaster ["-rSevil".toList, "d".toList, ":d".toList] "scp".toList =
      .ok ("scp".toList :: "-S".toList :: "ssh".toList :: sshOptions localMaster ++
        ["-rSevil".toList, "d".toList, "h:d".toList]) := by decide
  exact absurd (hClaim _ _ _ _ hAccepted false) (by decide)

/-- A recursive copy with flags only. -/
theorem copy_transport_recursive : transportOptions false ("-S".toList :: "ssh".toList :: sshOptions localMaster ++
    ["-rp".toList, "d".toList, "h:d".toList]) = attachmentOptions localMaster := by
  have hAccepted : copyArgv localMaster ["-rp".toList, "d".toList, ":d".toList] "scp".toList =
      .ok ("scp".toList :: "-S".toList :: "ssh".toList :: sshOptions localMaster ++
        ["-rp".toList, "d".toList, "h:d".toList]) := rfl
  refine (copy_transport_iff false hAccepted).mpr fun before word after hSplit _ hHides => ?_
  obtain ⟨flags, letter, rest, hPlaced, hLetter, -⟩ := hHides
  have hIn : word ∈ ["-rp".toList, "d".toList, ":d".toList] := by
    change word ∈ operandsOf ["-rp".toList, "d".toList, ":d".toList]
    rw [hSplit]
    exact List.mem_append_right _ List.mem_cons_self
  have hLetters : ∀ word ∈ ["-rp".toList, "d".toList, ":d".toList],
      (placed localMaster.host.toList word).all fun c => !isTransport c := by decide
  have hAll := List.all_eq_true.mp (hLetters word hIn) letter (by rw [hPlaced]; simp)
  rw [hLetter] at hAll
  cases hAll

end Copy
end Pazuzu.Transfer
