import Pazuzu.Posix.Words
import Pazuzu.Python.Strings
import Pazuzu.Transfer

/-! A shell reads what `shlex` has quoted. -/
namespace Pazuzu

open Posix Python

theorem isBare_of_safe {c : Char} (h : isShellSafe c = true) : isBare c = true := by
  have hQuoting : ∀ d ∈ "'\"\n \t#".toList, isShellSafe d = false := forall_mem_of_all (by decide)
  have hSpecial : ∀ d ∈ "|&;<>()$\x60\\*?[~{}!^".toList, isShellSafe d = false := forall_mem_of_all (by decide)
  simp only [isBare, isSpecial, decide_eq_true_eq]
  refine ⟨fun hIn => ?_, fun hIn => ?_⟩
  · rw [hQuoting c hIn] at h
    cases h
  · rw [hSpecial c hIn] at h
    cases h

theorem spells_shellQuote (word : Word) : ∃ marks, Spells (shellQuote word) word marks := by
  unfold shellQuote
  split
  · next h =>
      subst h
      exact ⟨_, Spells.quoted []⟩
  · next hSome =>
      split
      · next hSafe => exact Spells.bareAll hSome fun c hIn => isBare_of_safe (List.all_eq_true.mp hSafe c hIn)
      · exact ⟨_, Spells.quoted word⟩

theorem shellJoin_cons (first second : Word) (others : List Word) :
    shellJoin (first :: second :: others) = shellQuote first ++ ' ' :: shellJoin (second :: others) := by
  simp [shellJoin, List.intercalate_cons_cons]

/-- The words of a joined command are read back. -/
theorem spellsAll_shellJoin (first : Word) (others : List Word) :
    ∃ marks, SpellsAll (shellJoin (first :: others)) first others marks := by
  induction others generalizing first with
  | nil =>
      obtain ⟨marks, hFirst⟩ := spells_shellQuote first
      refine ⟨marks, ?_⟩
      rw [show shellJoin [first] = shellQuote first by simp [shellJoin]]
      exact hFirst.one
  | cons second others ih =>
      obtain ⟨marks, hFirst⟩ := spells_shellQuote first
      obtain ⟨marks', hOthers⟩ := ih second
      rw [shellJoin_cons]
      exact ⟨_, SpellsAll.cons hFirst hOthers⟩

/-- Quoting adds nothing but quotation marks. -/
theorem mem_shellQuote {c : Char} {word : Word} (h : c ∈ shellQuote word) :
    c ∈ word ∨ c = '\'' ∨ c = '"' := by
  unfold shellQuote at h
  split at h
  · simp at h
    exact Or.inr (Or.inl h)
  · split at h
    · exact Or.inl h
    · simp only [List.mem_append, List.mem_flatMap] at h
      rcases h with (hOpen | ⟨d, hIn, hChar⟩) | hClose
      · exact Or.inr (Or.inl (by simpa using hOpen))
      · split at hChar
        · have hMark : c = '\'' ∨ c = '"' := by
            simp at hChar
            tauto
          exact Or.inr hMark
        · exact Or.inl (by simp_all)
      · exact Or.inr (Or.inl (by simpa using hClose))

theorem mem_shellJoin {c : Char} {words : List Word} (h : c ∈ shellJoin words) :
    c = ' ' ∨ c = '\'' ∨ c = '"' ∨ ∃ word ∈ words, c ∈ word := by
  induction words with
  | nil => simp [shellJoin] at h
  | cons first others ih =>
      have hFirst : c ∈ shellQuote first → c = ' ' ∨ c = '\'' ∨ c = '"' ∨ ∃ word ∈ first :: others, c ∈ word := by
        intro hIn
        rcases mem_shellQuote hIn with hWord | hQuote
        · exact Or.inr (Or.inr (Or.inr ⟨first, List.mem_cons_self, hWord⟩))
        · exact Or.inr (hQuote.elim Or.inl fun hDouble => Or.inr (Or.inl hDouble))
      cases others with
      | nil =>
          have hOne : shellJoin [first] = shellQuote first := by simp [shellJoin]
          exact hFirst (hOne ▸ h)
      | cons second others =>
          rw [shellJoin_cons, List.mem_append, List.mem_cons] at h
          rcases h with hIn | hBlank | hRest
          · exact hFirst hIn
          · exact Or.inl hBlank
          · rcases ih hRest with hOld | hOld | hOld | ⟨word, hWord, hChar⟩
            · exact Or.inl hOld
            · exact Or.inr (Or.inl hOld)
            · exact Or.inr (Or.inr (Or.inl hOld))
            · exact Or.inr (Or.inr (Or.inr ⟨word, List.mem_cons_of_mem _ hWord, hChar⟩))

end Pazuzu
