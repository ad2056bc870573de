import Pazuzu.Transfer.Operands

/-! The remote place of a transfer. An accepted list names one, in the `:path`
form, and none of its other words is one to `scp` or to `rsync`. -/
namespace Pazuzu.Transfer

variable {tool : String} {host word : Word} {values operands rewritten : List Word}

section Reader

/-- A colon before the first slash. -/
def colonFirst : Word → Bool
  | [] => false
  | c :: rest => c = ':' ∨ (c ≠ '/' ∧ colonFirst rest)

/-- What `scp` and `rsync` take for a remote place. -/
def readsRemote (word : Word) : Bool :=
  colonFirst word ∨ contains "::".toList word ∨ contains "://".toList word

def isOption (word : Word) : Bool := "-".toList.isPrefixOf word

/-- The form `:path`, with something behind the one colon. -/
def isPlace : Word → Bool
  | ':' :: c :: _ => c ≠ ':'
  | _ => false

/-- A remote place that is not named in that form. -/
def isForeign (word : Word) : Bool := ¬isOption word ∧ ¬isPlace word ∧ readsRemote word

theorem colon_of_colonFirst (h : colonFirst word = true) : ':' ∈ word := by
  induction word with
  | nil => cases h
  | cons c rest ih =>
      simp only [colonFirst, decide_eq_true_eq] at h
      rcases h with rfl | ⟨-, hRest⟩
      · exact List.mem_cons_self
      · exact List.mem_cons_of_mem _ (ih hRest)

/-- The source's pattern finds every colon before the first slash but a
leading one. -/
theorem remoteSpec_of_colonFirst {c : Char} {rest : Word} (hFirst : c ≠ ':')
    (h : colonFirst (c :: rest) = true) : remoteSpec (c :: rest) = true := by
  simp only [colonFirst, decide_eq_true_eq] at h
  rcases h with hColon | ⟨hSlash, hRest⟩
  · exact absurd hColon hFirst
  · exact (remoteSpec_iff c rest).mpr ⟨hSlash, colon_of_colonFirst hRest⟩

end Reader

section Words

/-- The operands: the words less one leading `--`. -/
def operandsOf (values : List Word) : List Word :=
  if values.take 1 = ["--".toList] then values.drop 1 else values

theorem arguments_eq (values : List Word) : arguments values =
    if operandsOf values = [] then .error (.valueError "provide transfer arguments after '--'")
    else .ok (operandsOf values) := rfl

/-- What becomes of one word. -/
def placed (host word : Word) : Word :=
  if isPlace word then host ++ word else word

/-- The words that the loop turns away. -/
def isRefused (word : Word) : Bool :=
  word = ":".toList ∨ (¬isOption word ∧ ¬isPlace word ∧
    (contains "://".toList word ∨ contains "::".toList word ∨ remoteSpec word))

/-- The loop's first test, for a word that it does not turn away. -/
theorem isPlace_iff (hBare : word ≠ ":".toList) :
    (":".toList.isPrefixOf word = true ∧ ¬"::".toList.isPrefixOf word = true) ↔ isPlace word = true := by
  unfold isPlace
  split
  · next c rest =>
      have hPrefix : "::".toList.isPrefixOf (':' :: c :: rest) = decide (c = ':') := by
        simp [List.isPrefixOf, BEq.comm, beq_eq_decide]
      rw [hPrefix]
      simp [List.isPrefixOf]
  · next hOther =>
      rcases word with _ | ⟨first, _ | ⟨second, rest⟩⟩
      · simp
      · have hFirst : first ≠ ':' := fun h => hBare (by rw [h]; rfl)
        simp [List.isPrefixOf, Ne.symm hFirst]
      · have hFirst : first ≠ ':' := fun h => hOther second rest (by rw [h])
        simp [List.isPrefixOf, Ne.symm hFirst]

/-- A foreign word is one that the loop turns away. -/
theorem refused_of_foreign (h : isForeign word = true) : isRefused word = true := by
  simp only [isForeign, decide_eq_true_eq] at h
  obtain ⟨hOption, hPlace, hRemote⟩ := h
  simp only [isRefused, decide_eq_true_eq]
  by_cases hBare : word = ":".toList
  · exact Or.inl hBare
  · refine Or.inr ⟨hOption, hPlace, ?_⟩
    simp only [readsRemote, decide_eq_true_eq] at hRemote
    rcases hRemote with hColon | hDouble | hScheme
    · rcases word with _ | ⟨first, rest⟩
      · cases hColon
      · by_cases hFirst : first = ':'
        · subst hFirst
          -- Two leading colons are left: one alone is bare, or names a place.
          rcases rest with _ | ⟨second, rest⟩
          · exact absurd rfl hBare
          · have hSecond : second = ':' := by simpa [isPlace] using hPlace
            subst hSecond
            exact Or.inr (Or.inl (by simp [contains, List.isPrefixOf]))
        · exact Or.inr (Or.inr (remoteSpec_of_colonFirst hFirst hColon))
    · exact Or.inr (Or.inl hDouble)
    · exact Or.inl hScheme

theorem placed_place (host : Word) {p : Word} (h : isPlace (':' :: p) = true) :
    placed host (':' :: p) = host ++ ':' :: p := if_pos h

theorem placed_plain (h : isPlace word = false) : placed host word = word := by
  simp [placed, h]

/-- One word of the loop. -/
theorem rewriteOperands_cons (host word : Word) (rest : List Word) :
    rewriteOperands host (word :: rest) =
      if isRefused word then .error (.valueError (if word = ":".toList then "remote paths must not be empty"
        else "remote paths must use the Pazuzu ':path' form; other hosts are not allowed"))
      else (rewriteOperands host rest).bind fun tail =>
        .ok (placed host word :: tail.1, tail.2 + [word].countP isPlace) := by
  by_cases hBare : word = ":".toList
  · subst hBare
    rfl
  · rw [rewriteOperands, if_congr (isPlace_iff hBare) rfl rfl]
    by_cases hPlace : isPlace word = true
    · obtain ⟨p, rfl⟩ : ∃ p, word = ':' :: p := by
        unfold isPlace at hPlace
        split at hPlace
        · exact ⟨_, rfl⟩
        · cases hPlace
      have hLong : (':' :: p).length ≠ 1 := by
        rcases p with _ | ⟨c, p⟩
        · cases hPlace
        · simp
      have hKept : isRefused (':' :: p) = false := by simpa [isRefused, hPlace] using hBare
      rw [if_pos hPlace, if_neg hLong, hKept, placed_place host hPlace]
      simp [hPlace, bind, pure, Except.pure]
    · have hPlain : isPlace word = false := by simpa using hPlace
      have hRefused : isRefused word = true ↔ ¬isOption word = true ∧
          (contains "://".toList word = true ∨ contains "::".toList word = true ∨ remoteSpec word = true) := by
        simp only [isRefused, hBare, hPlain, decide_eq_true_eq, false_or, Bool.false_eq_true, not_false_eq_true,
          true_and]
      rw [if_neg hPlace, placed_plain hPlain, if_congr hRefused rfl rfl, if_neg hBare]
      exact if_congr Iff.rfl rfl (by simp [hPlain, bind, pure, Except.pure])

/-- The loop accepts a list without refused words and counts its places. -/
theorem rewriteOperands_accepts (h : ∀ word ∈ operands, isRefused word = false) :
    rewriteOperands host operands = .ok (operands.map (placed host), operands.countP isPlace) := by
  induction operands with
  | nil => rfl
  | cons word rest ih =>
      obtain ⟨hWord, hRest⟩ := List.forall_mem_cons.mp h
      rw [rewriteOperands_cons, hWord, ih hRest]
      simp [Except.bind, List.countP_cons]

theorem rewriteOperands_refuses (host : Word) (h : ∃ word ∈ operands, isRefused word = true) :
    ∃ message, rewriteOperands host operands = .error (.valueError message) := by
  induction operands with
  | nil => obtain ⟨word, hIn, -⟩ := h; cases hIn
  | cons word rest ih =>
      rw [rewriteOperands_cons]
      by_cases hWord : isRefused word = true
      · exact ⟨_, if_pos hWord⟩
      · obtain ⟨found, hIn, hFound⟩ := h
        have hRest : found ∈ rest := (List.mem_cons.mp hIn).resolve_left fun hSame => hWord (hSame ▸ hFound)
        obtain ⟨message, hError⟩ := ih ⟨found, hRest, hFound⟩
        exact ⟨message, by rw [if_neg hWord, hError]; rfl⟩

end Words

section Lists

/-- The words of an accepted list: one `:path` for the given host, around it
words that name nothing remote. -/
def NamesOnePlace (host : Word) (operands rewritten : List Word) : Prop :=
  ∃ before p after, operands = before ++ (':' :: p) :: after ∧ isPlace (':' :: p) = true ∧
    rewritten = before ++ (host ++ ':' :: p) :: after ∧
    ∀ word ∈ before ++ after, isPlace word = false ∧ (isOption word = false → readsRemote word = false)

/-- What keeps a list from being accepted: no place or several, one without a
path, or a word that is remote in another way. -/
def Stray (operands : List Word) : Prop :=
  operands.countP isPlace ≠ 1 ∨ ":".toList ∈ operands ∨ ∃ word ∈ operands, isForeign word = true

/-- A list with one place has others before and behind it. -/
theorem split_of_countP (h : operands.countP isPlace = 1) :
    ∃ before p after, operands = before ++ (':' :: p) :: after ∧ isPlace (':' :: p) = true ∧
      ∀ word ∈ before ++ after, isPlace word = false := by
  have hSome : ∃ word ∈ operands, isPlace word = true := by
    rw [← List.countP_pos_iff]
    omega
  obtain ⟨place, hIn, hPlace⟩ := hSome
  obtain ⟨before, after, rfl⟩ := List.append_of_mem hIn
  obtain ⟨p, rfl⟩ : ∃ p, place = ':' :: p := by
    unfold isPlace at hPlace
    split at hPlace
    · exact ⟨_, rfl⟩
    · cases hPlace
  refine ⟨before, p, after, rfl, hPlace, ?_⟩
  have hNone : (before ++ after).countP isPlace = 0 := by
    simp only [List.countP_append, List.countP_cons, hPlace, if_true] at h ⊢
    omega
  intro word hWord
  simpa using List.countP_eq_zero.mp hNone word hWord

/-- Words that name no place are left as they are. -/
theorem map_placed (host : Word) (h : ∀ word ∈ operands, isPlace word = false) :
    operands.map (placed host) = operands := by
  induction operands with
  | nil => rfl
  | cons word rest ih =>
      obtain ⟨hWord, hRest⟩ := List.forall_mem_cons.mp h
      rw [List.map_cons, placed_plain hWord, ih hRest]

/-- A list that the loop accepts has no refused words. -/
theorem accepted_of_rewrite {result : List Word × Nat} (h : rewriteOperands host operands = .ok result) :
    ∀ word ∈ operands, isRefused word = false := by
  intro word hIn
  by_contra hRefused
  obtain ⟨message, hError⟩ := rewriteOperands_refuses host ⟨word, hIn, by simpa using hRefused⟩
  rw [hError] at h
  cases h

/-- Accepted words have passed the filter, and are handed on with the host in
front of the place. -/
theorem accepted_of_remoteArguments (h : remoteArguments host values tool = .ok rewritten) :
    rejectTransportOverrides tool (operandsOf values) = .ok () ∧ rewritten = (operandsOf values).map (placed host) := by
  have hOperands : arguments values = .ok (operandsOf values) := by
    rw [arguments_eq]
    refine if_neg fun hNone => ?_
    rw [remoteArguments, arguments_eq, if_pos hNone] at h
    cases h
  obtain ⟨hReject, hRewrite⟩ := (remoteArguments_ok_iff hOperands).mp h
  have hMap := @rewriteOperands_accepts host (operandsOf values) (accepted_of_rewrite hRewrite)
  exact ⟨hReject, congrArg Prod.fst (Except.ok.inj (hRewrite.symm.trans hMap))⟩

/-- Where the loop ends with one place, the list names one. -/
theorem namesOnePlace_of_rewrite (h : rewriteOperands host operands = .ok (rewritten, 1)) :
    NamesOnePlace host operands rewritten := by
  have hAccepted := accepted_of_rewrite h
  rw [rewriteOperands_accepts hAccepted] at h
  obtain ⟨rfl, hCount⟩ := Prod.mk.inj (Except.ok.inj h)
  obtain ⟨before, p, after, rfl, hPlace, hOthers⟩ := split_of_countP hCount
  refine ⟨before, p, after, rfl, hPlace, ?_, fun word hWord => ⟨hOthers word hWord, fun hOption => ?_⟩⟩
  · have hBefore := map_placed host fun word hWord => hOthers word (List.mem_append_left _ hWord)
    have hAfter := map_placed host fun word hWord => hOthers word (List.mem_append_right _ hWord)
    rw [List.map_append, List.map_cons, hBefore, hAfter, placed_place host hPlace]
  · by_contra hRemote
    have hForeign : isForeign word = true := by
      simp only [isForeign, hOption, hOthers word hWord, decide_eq_true_eq]
      exact ⟨nofun, nofun, by simpa using hRemote⟩
    have hIn : word ∈ before ++ (':' :: p) :: after := by
      rcases List.mem_append.mp hWord with hBefore | hAfter
      · exact List.mem_append_left _ hBefore
      · exact List.mem_append_right _ (List.mem_cons_of_mem _ hAfter)
    have hKept := hAccepted word hIn
    rw [refused_of_foreign hForeign] at hKept
    cases hKept

theorem rejectTransportOverrides_error (tool : String) (operands : List Word) :
    rejectTransportOverrides tool operands = .ok () ∨
      ∃ message, rejectTransportOverrides tool operands = .error (.valueError message) := by
  induction operands with
  | nil => exact Or.inl rfl
  | cons argument rest ih =>
      rw [rejectTransportOverrides]
      split
      · exact Or.inr ⟨_, rfl⟩
      · split
        · exact Or.inr ⟨_, rfl⟩
        · exact ih

/-- An accepted list of words has exactly one remote place, on the given host
and with all other words unchanged and local; a list with a stray word, or not
with one place, is refused. -/
theorem remote_place (tool : String) (host : Word) (values : List Word) :
    (∀ rewritten, remoteArguments host values tool = .ok rewritten →
      NamesOnePlace host (operandsOf values) rewritten) ∧
    (Stray (operandsOf values) → ∃ message, remoteArguments host values tool = .error (.valueError message)) := by
  by_cases hNone : operandsOf values = []
  · have hError : arguments values = .error (.valueError "provide transfer arguments after '--'") := by
      rw [arguments_eq, if_pos hNone]
    have hRefused : remoteArguments host values tool =
        .error (.valueError "provide transfer arguments after '--'") := by
      simp only [remoteArguments, hError, bind, Except.bind]
    refine ⟨fun rewritten h => ?_, fun _ => ⟨_, hRefused⟩⟩
    rw [hRefused] at h
    cases h
  · have hOperands : arguments values = .ok (operandsOf values) := by rw [arguments_eq, if_neg hNone]
    refine ⟨fun rewritten h => ?_, fun hStray => ?_⟩
    · exact namesOnePlace_of_rewrite ((remoteArguments_ok_iff hOperands).mp h).2
    · simp only [remoteArguments, hOperands, bind, Except.bind]
      rcases rejectTransportOverrides_error tool (operandsOf values) with hKept | ⟨message, hRejected⟩
      · rw [hKept]
        by_cases hRefused : ∃ word ∈ operandsOf values, isRefused word = true
        · obtain ⟨message, hError⟩ := rewriteOperands_refuses host hRefused
          exact ⟨message, by rw [hError]⟩
        · have hAccepted : ∀ word ∈ operandsOf values, isRefused word = false := by simpa using hRefused
          rw [rewriteOperands_accepts hAccepted]
          rcases hStray with hCount | hBare | ⟨word, hIn, hForeign⟩
          · exact ⟨_, if_pos hCount⟩
          · cases hAccepted _ hBare
          · have hKeptWord := hAccepted word hIn
            rw [refused_of_foreign hForeign] at hKeptWord
            cases hKeptWord
      · exact ⟨message, by rw [hRejected]⟩

example : remoteArguments "h".toList ["--".toList, "-r".toList, "a/b:c".toList, ":/d".toList] "cp" =
    .error (.valueError "remote paths must use the Pazuzu ':path' form; other hosts are not allowed") := by decide

/-- A directory is copied to the remote host. -/
theorem remote_place_directory : NamesOnePlace "h".toList ["-r".toList, "/a:b".toList, ":d".toList]
    ["-r".toList, "/a:b".toList, "h:d".toList] := by
  have hAccepted : remoteArguments "h".toList ["--".toList, "-r".toList, "/a:b".toList, ":d".toList] "cp" =
      .ok ["-r".toList, "/a:b".toList, "h:d".toList] := by decide
  exact (remote_place "cp" "h".toList ["--".toList, "-r".toList, "/a:b".toList, ":d".toList]).1 _ hAccepted

end Lists
end Pazuzu.Transfer
