import Mathlib.Data.List.Infix

/-! `str(Path(text))`: what remains of the text of a path. -/
namespace Pazuzu.Python

abbrev Path := List Nat

def slash : Nat := '/'.toNat

/-- The part that stands for the directory it is in. -/
def dot : List Nat := ['.'.toNat]

/-- One slash in front, or exactly two. -/
def pathRoot (text : Path) : Path :=
  let slashes := (text.takeWhile (· = slash)).length
  if slashes = 0 then [] else if slashes = 2 then [slash, slash] else [slash]

def pathParts (text : Path) : List Path := (text.splitOn slash).filter fun part => part ≠ [] ∧ part ≠ dot

def joined (root : Path) (parts : List Path) : Path :=
  let text := root ++ [slash].intercalate parts
  if text = [] then dot else text

def pathText (text : Path) : Path := joined (pathRoot text) (pathParts text)

section Normal

variable {part text : Path} {parts : List Path}

/-- A part that a path keeps. -/
def IsPart (part : Path) : Prop := part ≠ [] ∧ part ≠ dot ∧ slash ∉ part

theorem notMem_splitOn : ∀ (text : Path), ∀ part ∈ text.splitOn slash, slash ∉ part := by
  intro text
  induction text with
  | nil => simp
  | cons c rest ih =>
      rw [List.splitOn_cons_eq_if_modifyHead]
      by_cases hSlash : c = slash
      · simpa [hSlash] using ih
      · have hOther : (c == slash) = false := by simp [hSlash]
        obtain ⟨first, others, hRest⟩ := List.exists_cons_of_ne_nil (List.splitOn_ne_nil slash rest)
        rw [hRest] at ih ⊢
        simp only [hOther, Bool.false_eq_true, if_false, List.modifyHead_cons, List.forall_mem_cons] at ih ⊢
        exact ⟨by simp [Ne.symm hSlash, ih.1], ih.2⟩

theorem isPart_of_mem (h : part ∈ pathParts text) : IsPart part := by
  obtain ⟨hIn, hKept⟩ := List.mem_filter.mp h
  have hSplit := notMem_splitOn text part hIn
  simp only [ne_eq, decide_eq_true_eq] at hKept
  exact ⟨hKept.1, hKept.2, hSplit⟩

theorem filter_parts (h : ∀ part ∈ parts, IsPart part) :
    parts.filter (fun part => part ≠ [] ∧ part ≠ dot) = parts :=
  List.filter_eq_self.mpr fun part hIn => decide_eq_true ⟨(h part hIn).1, (h part hIn).2.1⟩

/-- The parts of a path that is put together of them, whatever its root is. -/
theorem pathParts_root {root : Path} (hRoot : ∀ c ∈ root, c = slash) (h : ∀ part ∈ parts, IsPart part) :
    pathParts (root ++ [slash].intercalate parts) = parts := by
  induction root with
  | nil =>
      cases parts with
      | nil => simp [pathParts]
      | cons first others =>
          rw [List.nil_append, pathParts, List.splitOn_intercalate slash (fun part hIn => (h part hIn).2.2)
            (List.cons_ne_nil _ _)]
          exact filter_parts h
  | cons c rest ih =>
      obtain rfl := hRoot c List.mem_cons_self
      have hSplit : pathParts (slash :: (rest ++ [slash].intercalate parts)) = pathParts (rest ++ [slash].intercalate parts) := by
        simp [pathParts, List.splitOn_cons_eq_if_modifyHead]
      exact hSplit.trans (ih fun d hIn => hRoot d (List.mem_cons_of_mem _ hIn))

theorem head_parts (h : ∀ part ∈ parts, IsPart part) : ([slash].intercalate parts).head? ≠ some slash := by
  cases parts with
  | nil => simp
  | cons first others =>
      obtain ⟨hSome, -, hSlash⟩ := h first List.mem_cons_self
      obtain ⟨c, rest, rfl⟩ := List.exists_cons_of_ne_nil hSome
      have hOther : c ≠ slash := fun hSame => hSlash (hSame ▸ List.mem_cons_self)
      cases others <;> simp [hOther]

theorem takeWhile_root {root rest : Path} (hRoot : ∀ c ∈ root, c = slash) (hRest : rest.head? ≠ some slash) :
    (root ++ rest).takeWhile (· = slash) = root := by
  have hNone : rest.takeWhile (· = slash) = [] := by
    cases rest with
    | nil => rfl
    | cons c others =>
        have hOther : c ≠ slash := fun hSame => hRest (by rw [hSame]; rfl)
        simp [hOther]
  rw [List.takeWhile_append_of_pos (by simpa using hRoot), hNone, List.append_nil]

theorem pathRoot_cases (text : Path) : pathRoot text = [] ∨ pathRoot text = [slash] ∨ pathRoot text = [slash, slash] := by
  simp only [pathRoot]
  split
  · exact Or.inl rfl
  · split
    · exact Or.inr (Or.inr rfl)
    · exact Or.inr (Or.inl rfl)

theorem pathRoot_slashes (text : Path) : ∀ c ∈ pathRoot text, c = slash := by
  rcases pathRoot_cases text with h | h | h <;> simp [h]

/-- The text of a path is a path of the same text. -/
theorem pathText_pathText (text : Path) : pathText (pathText text) = pathText text := by
  have hParts : ∀ part ∈ pathParts text, IsPart part := fun part => isPart_of_mem
  have hRoot := pathRoot_slashes text
  by_cases hEmpty : pathRoot text ++ [slash].intercalate (pathParts text) = []
  · have hText : pathText text = dot := if_pos hEmpty
    rw [hText]
    decide
  · have hText : pathText text = pathRoot text ++ [slash].intercalate (pathParts text) := if_neg hEmpty
    have hSame : pathRoot (pathText text) = pathRoot text := by
      rw [hText, pathRoot, takeWhile_root hRoot (head_parts hParts)]
      rcases pathRoot_cases text with h | h | h <;> simp [h]
    have hKept : pathParts (pathText text) = pathParts text := by
      rw [hText, pathParts_root hRoot hParts]
    change joined (pathRoot (pathText text)) (pathParts (pathText text)) = pathText text
    rw [hSame, hKept]
    rfl

end Normal
end Pazuzu.Python
