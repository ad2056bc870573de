import Pazuzu.Transfer

/-! The operands of a transfer, word by word: which lists are accepted, and
what becomes of a word that is added to one. -/
namespace Pazuzu.Transfer

variable {tool : String} {host : Word} {lead before after rewritten : List Word}

/-- What is contained in a text is made of its characters. -/
theorem mem_of_contains {needle text : Word} (h : contains needle text = true) {c : Char}
    (hChar : c ∈ needle) : c ∈ text := by
  induction text with
  | nil =>
      cases needle with
      | nil => cases hChar
      | cons head rest => cases h
  | cons head rest ih =>
      rw [contains, Bool.or_eq_true] at h
      rcases h with hPrefix | hRest
      · exact (List.isPrefixOf_iff_prefix.mp hPrefix).subset hChar
      · exact List.mem_cons_of_mem _ (ih hRest)

theorem remoteSpec_iff (first : Char) (rest : Word) :
    remoteSpec (first :: rest) = true ↔ first ≠ '/' ∧ ':' ∈ rest := by
  simp [remoteSpec]

theorem rejectTransportOverrides_append (tool : String) (before after : List Word) :
    rejectTransportOverrides tool (before ++ after) =
      (rejectTransportOverrides tool before).bind fun _ => rejectTransportOverrides tool after := by
  induction before with
  | nil => rfl
  | cons argument rest ih =>
      simp only [List.cons_append, rejectTransportOverrides]
      split
      · rfl
      · split
        · rfl
        · exact ih

theorem rewriteOperands_append (host : Word) (before after : List Word) :
    rewriteOperands host (before ++ after) = (rewriteOperands host before).bind fun first =>
      (rewriteOperands host after).bind fun second => .ok (first.1 ++ second.1, first.2 + second.2) := by
  induction before with
  | nil =>
      simp only [List.nil_append, rewriteOperands, Except.bind]
      cases rewriteOperands host after <;> simp
  | cons argument rest ih =>
      simp only [List.cons_append, rewriteOperands, ih]
      split
      · split
        · rfl
        · cases rewriteOperands host rest with
          | error error => rfl
          | ok first =>
              cases rewriteOperands host after with
              | error error => rfl
              | ok second => simp [Except.bind, bind, pure, Except.pure, Nat.add_right_comm]
      · split
        · rfl
        · cases rewriteOperands host rest with
          | error error => rfl
          | ok first =>
              cases rewriteOperands host after with
              | error error => rfl
              | ok second => simp [Except.bind, bind, pure, Except.pure]

/-- Every word becomes one word. -/
theorem length_rewriteOperands {operands rewritten : List Word} {count : Nat}
    (h : rewriteOperands host operands = .ok (rewritten, count)) : rewritten.length = operands.length := by
  induction operands generalizing rewritten count with
  | nil =>
      cases h
      rfl
  | cons argument rest ih =>
      have hTail : ∀ (word : Word) (more : Nat), ((rewriteOperands host rest).bind fun tail =>
          .ok (word :: tail.1, tail.2 + more)) = Except.ok (ε := Error) (rewritten, count) →
          rewritten.length = rest.length + 1 := by
        intro word more hTail
        cases hRest : rewriteOperands host rest with
        | error error =>
            rw [hRest] at hTail
            cases hTail
        | ok tail =>
            rw [hRest] at hTail
            cases hTail
            rw [List.length_cons, ih hRest]
      simp only [rewriteOperands] at h
      split at h
      · split at h
        · cases h
        · exact hTail _ 1 h
      · split at h
        · cases h
        · exact hTail _ 0 h

/-- Acceptance is that of the overrides, the words and the count. -/
theorem remoteArguments_ok_iff {values operands : List Word} (hOperands : arguments values = .ok operands) :
    remoteArguments host values tool = .ok rewritten ↔
      rejectTransportOverrides tool operands = .ok () ∧ rewriteOperands host operands = .ok (rewritten, 1) := by
  simp only [remoteArguments, hOperands, bind, Except.bind]
  cases rejectTransportOverrides tool operands with
  | error error => simp
  | ok checked =>
      cases rewriteOperands host operands with
      | error error => simp
      | ok result =>
          obtain ⟨words, count⟩ := result
          by_cases hCount : count = 1
          · subst hCount
            simp
          · simp [hCount]

section Local

/-- The operand that the manual gives for a local file. -/
def localOperand (p : Word) : Word := '.' :: '/' :: p

theorem reject_local (tool : String) (p : Word) : rejectTransportOverrides tool [localOperand p] = .ok () := by
  simp [rejectTransportOverrides, localOperand, overridesCopy, overridesRsync, List.isPrefixOf]

/-- A local operand is let through exactly if no colon follows its prefix. -/
theorem rewrite_local (host p : Word) : rewriteOperands host [localOperand p] =
    if ':' ∈ p then .error (.valueError
      "remote paths must use the Pazuzu ':path' form; other hosts are not allowed")
    else .ok ([localOperand p], 0) := by
  have hSpec : remoteSpec (localOperand p) = true ↔ ':' ∈ p := by
    simp [localOperand, remoteSpec_iff]
  have hColon : ∀ {needle : Word}, ':' ∈ needle → contains needle (localOperand p) = true → ':' ∈ p := by
    intro needle hNeedle hContains
    simpa [localOperand] using mem_of_contains hContains hNeedle
  have hRemote : (contains "://".toList (localOperand p) = true ∨ contains "::".toList (localOperand p) = true ∨
      remoteSpec (localOperand p) = true) ↔ ':' ∈ p := by
    rw [hSpec]
    exact ⟨fun h => h.elim (hColon (by decide)) fun h => h.elim (hColon (by decide)) id,
      fun h => Or.inr (Or.inr h)⟩
  have hPlain : ":".toList.isPrefixOf (localOperand p) = false := by simp [localOperand, List.isPrefixOf]
  have hOption : "-".toList.isPrefixOf (localOperand p) = false := by simp [localOperand, List.isPrefixOf]
  simp only [rewriteOperands, hPlain, hOption, hRemote, Bool.false_eq_true, false_and, if_false, not_false_eq_true,
    true_and]
  rfl

/-- The operands are what follows the one leading `--`, if there is one. -/
theorem arguments_lead {operands : List Word} (hOperands : operands ≠ [])
    (hLead : lead = ["--".toList] ∨ (lead = [] ∧ operands.head? ≠ some "--".toList)) :
    arguments (lead ++ operands) = .ok operands := by
  rcases hLead with rfl | ⟨rfl, hHead⟩
  · simp [arguments, hOperands]
  · cases operands with
    | nil => exact absurd rfl hOperands
    | cons first rest =>
        have hFirst : ¬first = ['-', '-'] := fun h => hHead (by rw [h]; rfl)
        simp [arguments, hFirst]

/-- A local operand can be added to an accepted list, and leaves its other
words as they are, exactly if no colon follows the prefix. -/
theorem local_accepted_iff (hLead : lead = ["--".toList] ∨
      (lead = [] ∧ (before ++ after).head? ≠ some "--".toList))
    (hAccepted : remoteArguments host (lead ++ (before ++ after)) tool = .ok rewritten) (p : Word) :
    remoteArguments host (lead ++ (before ++ localOperand p :: after)) tool =
        .ok (rewritten.take before.length ++ localOperand p :: rewritten.drop before.length) ↔
      ':' ∉ p := by
  have hSome : before ++ after ≠ [] := by
    intro hNone
    rcases hLead with rfl | ⟨rfl, -⟩ <;> simp [hNone, remoteArguments, arguments, bind, Except.bind] at hAccepted
  have hLead' : lead = ["--".toList] ∨
      (lead = [] ∧ (before ++ localOperand p :: after).head? ≠ some "--".toList) := by
    refine hLead.imp_right fun h => ⟨h.1, ?_⟩
    cases before with
    | nil => simp [localOperand]
    | cons first rest => simpa using h.2
  obtain ⟨hRejects, hRewrites⟩ := (remoteArguments_ok_iff (arguments_lead hSome hLead)).mp hAccepted
  rw [remoteArguments_ok_iff (arguments_lead (by simp) hLead')]
  rw [rejectTransportOverrides_append] at hRejects
  rw [rewriteOperands_append] at hRewrites
  -- The list around the new word is accepted on either side of it.
  cases hBefore : rejectTransportOverrides tool before with
  | error error => rw [hBefore] at hRejects; cases hRejects
  | ok checked =>
    rw [hBefore] at hRejects
    cases hFirst : rewriteOperands host before with
    | error error => rw [hFirst] at hRewrites; cases hRewrites
    | ok first =>
      cases hSecond : rewriteOperands host after with
      | error error => rw [hFirst, hSecond] at hRewrites; cases hRewrites
      | ok second =>
        rw [hFirst, hSecond] at hRewrites
        obtain ⟨rfl, hCount⟩ := Prod.mk.inj (Except.ok.inj hRewrites)
        have hLength : first.1.length = before.length := length_rewriteOperands hFirst
        have hReject : rejectTransportOverrides tool (before ++ localOperand p :: after) = .ok () := by
          rw [rejectTransportOverrides_append, ← List.singleton_append, rejectTransportOverrides_append,
            hBefore, reject_local]
          exact hRejects
        rw [rewriteOperands_append, ← List.singleton_append, rewriteOperands_append, hFirst, hSecond,
          rewrite_local]
        by_cases hColon : ':' ∈ p
        · simp [hColon, Except.bind]
        · simp [hColon, Except.bind, hReject, ← hLength, hCount]

/-- A local name with a colon is refused with its prefix. -/
theorem local_refused : ¬∀ (tool : String) (host : Word) (lead before after rewritten : List Word),
    (lead = ["--".toList] ∨ (lead = [] ∧ (before ++ after).head? ≠ some "--".toList)) →
    remoteArguments host (lead ++ (before ++ after)) tool = .ok rewritten → ∀ p : Word,
    remoteArguments host (lead ++ (before ++ localOperand p :: after)) tool =
      .ok (rewritten.take before.length ++ localOperand p :: rewritten.drop before.length) := by
  intro hClaim
  have hBoth := hClaim "cp" "h".toList [] [] [":r".toList] ["h:r".toList] (by decide) (by decide) "a:b".toList
  exact absurd hBoth (by decide)

/-- A local name without a colon goes before the remote path. -/
theorem local_accepted_report : remoteArguments "h".toList ["./report".toList, ":r".toList] "cp" =
    .ok ["./report".toList, "h:r".toList] := by
  have hAccepted : remoteArguments "h".toList ([] ++ ([] ++ [":r".toList])) "cp" = .ok ["h:r".toList] := by
    decide
  exact (local_accepted_iff (by decide) hAccepted "report".toList).mpr (by decide)

end Local
end Pazuzu.Transfer
