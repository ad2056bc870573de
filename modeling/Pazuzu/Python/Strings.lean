import Mathlib.Data.List.TakeWhile

/-! The operations of `str` that cut a text into pieces, on its list of
characters: at the first occurrence of a separator, at most so many times, at
the ends, at line boundaries and at blanks. -/
namespace Pazuzu.Python

/-- What is checked of each character of a text. -/
theorem forall_mem_of_all {p : Char → Prop} [DecidablePred p] {text : List Char}
    (h : (text.all fun c => decide (p c)) = true) : ∀ c ∈ text, p c := by
  simpa using h

section Cut

variable {α : Type} [DecidableEq α] {stop c : α} {text front rest : List α}

/-- A text before the first occurrence of a separator, and from there on. -/
def cutAt (stop : α) (text : List α) : List α × List α :=
  (text.takeWhile (· ≠ stop), text.dropWhile (· ≠ stop))

theorem cutAt_of_notMem (h : stop ∉ front) : cutAt stop (front ++ stop :: rest) = (front, stop :: rest) := by
  have hKept : ∀ c ∈ front, (decide (c ≠ stop)) = true := fun c hIn =>
    decide_eq_true fun hSame => h (hSame ▸ hIn)
  rw [cutAt, List.takeWhile_append_of_pos hKept, List.dropWhile_append_of_pos hKept]
  simp

theorem cutAt_all (h : stop ∉ front) : cutAt stop front = (front, []) := by
  have hKept : ∀ c ∈ front, (decide (c ≠ stop)) = true := fun c hIn =>
    decide_eq_true fun hSame => h (hSame ▸ hIn)
  rw [cutAt, List.takeWhile_eq_self_iff.mpr hKept, List.dropWhile_eq_nil_iff.mpr hKept]

/-- A text holds the separator or is all front. -/
theorem cutAt_cases (stop : α) (text : List α) :
    (stop ∉ text ∧ cutAt stop text = (text, [])) ∨
      ∃ front rest, text = front ++ stop :: rest ∧ stop ∉ front ∧ cutAt stop text = (front, stop :: rest) := by
  by_cases hIn : stop ∈ text
  · refine Or.inr ?_
    obtain ⟨front, rest, rfl, hFront⟩ := List.eq_append_cons_of_mem hIn
    exact ⟨front, rest, rfl, hFront, cutAt_of_notMem hFront⟩
  · exact Or.inl ⟨hIn, cutAt_all hIn⟩

/-- `text.split(separator, count)`. -/
def splitMax (separator : α) : Nat → List α → List (List α)
  | 0, text => [text]
  | count + 1, text =>
      match cutAt separator text with
      | (field, []) => [field]
      | (field, _ :: rest) => field :: splitMax separator count rest

theorem splitMax_cut (count : Nat) (h : stop ∉ front) :
    splitMax stop (count + 1) (front ++ stop :: rest) = front :: splitMax stop count rest := by
  rw [splitMax, cutAt_of_notMem h]

theorem splitMax_all (count : Nat) (h : stop ∉ front) : splitMax stop count front = [front] := by
  cases count with
  | zero => rfl
  | succ count => rw [splitMax, cutAt_all h]

/-- Of the first field nothing but the separator is lost. -/
theorem splitMax_eq_cons {field : List α} {count : Nat} {first : List α} {others : List (List α)}
    (h : splitMax stop (count + 1) text = field :: first :: others) :
    ∃ rest, text = field ++ stop :: rest ∧ stop ∉ field ∧ splitMax stop count rest = first :: others := by
  rcases cutAt_cases stop text with ⟨hNone, -⟩ | ⟨front, rest, rfl, hFront, -⟩
  · rw [splitMax_all _ hNone] at h
    cases h
  · rw [splitMax_cut _ hFront] at h
    obtain ⟨rfl, hRest⟩ := List.cons.inj h
    exact ⟨rest, rfl, hFront, hRest⟩

end Cut

section Replace

/-- `text.replace(pair, new)` for a pair of characters. -/
def replacePair (first second : Char) (new : List Char) : List Char → List Char
  | c :: d :: rest =>
      if c = first ∧ d = second then new ++ replacePair first second new rest
      else c :: replacePair first second new (d :: rest)
  | text => text

end Replace

section Blanks

variable {text : List Char}

/-- `c.isspace()`. -/
def isSpace (c : Char) : Bool :=
  let code := c.toNat
  (0x09 ≤ code ∧ code ≤ 0x0D) ∨ (0x1C ≤ code ∧ code ≤ 0x20) ∨ code = 0x85 ∨ code = 0xA0 ∨ code = 0x1680 ∨
    (0x2000 ≤ code ∧ code ≤ 0x200A) ∨ code = 0x2028 ∨ code = 0x2029 ∨ code = 0x202F ∨ code = 0x205F ∨ code = 0x3000

/-- `text.strip()`. -/
def stripText (text : List Char) : List Char :=
  ((text.dropWhile isSpace).reverse.dropWhile isSpace).reverse

theorem dropWhile_core {c : Char} {front rest : List Char} (h : isSpace c = false) :
    (front ++ c :: rest).dropWhile isSpace = front.dropWhile isSpace ++ c :: rest := by
  induction front with
  | nil => simp [h]
  | cons first front ih =>
      by_cases hFirst : isSpace first = true
      · rw [List.cons_append, List.dropWhile_cons_of_pos hFirst, List.dropWhile_cons_of_pos hFirst, ih]
      · rw [List.cons_append, List.dropWhile_cons_of_neg hFirst, List.dropWhile_cons_of_neg hFirst, List.cons_append]

/-- Stripping leaves what begins and ends without a blank. -/
theorem stripText_core (first : Char) (middle : List Char) (last : Char) (front back : List Char)
    (hFirst : isSpace first = false) (hLast : isSpace last = false) :
    ∃ front' back', stripText (front ++ first :: (middle ++ last :: back)) =
      front' ++ first :: (middle ++ last :: back') := by
  have hReverse : (front.dropWhile isSpace ++ first :: (middle ++ last :: back)).reverse =
      back.reverse ++ last :: (middle.reverse ++ first :: (front.dropWhile isSpace).reverse) := by simp
  refine ⟨front.dropWhile isSpace, (back.reverse.dropWhile isSpace).reverse, ?_⟩
  rw [stripText, dropWhile_core hFirst, hReverse, dropWhile_core hLast]
  simp

/-- `text.split(maxsplit=1)[0]`, where there is a word. -/
def firstWord (text : List Char) : Option (List Char) :=
  match text.dropWhile isSpace with
  | [] => none
  | c :: rest => some ((c :: rest).takeWhile fun c => !isSpace c)

theorem firstWord_eq_none_iff : firstWord text = none ↔ ∀ c ∈ text, isSpace c = true := by
  rw [← List.dropWhile_eq_nil_iff, firstWord]
  split
  · next h => simp [h]
  · next h => simp [h]

/-- `text.rstrip(c)` for one character. -/
def stripRight (c : Char) (text : List Char) : List Char := (text.reverse.dropWhile (· = c)).reverse

end Blanks

section Lines

/-- The characters at which `splitlines` ends a line. -/
def isLineBreak (c : Char) : Bool :=
  let code := c.toNat
  (0x0A ≤ code ∧ code ≤ 0x0D) ∨ (0x1C ≤ code ∧ code ≤ 0x1E) ∨ code = 0x85 ∨ code = 0x2028 ∨ code = 0x2029

/-- `splitlines` from inside a line, whose characters so far are given last first. -/
def splitLinesFrom (line : List Char) : List Char → List (List Char)
  | [] => if line = [] then [] else [line.reverse]
  | '\r' :: '\n' :: rest => line.reverse :: splitLinesFrom [] rest
  | c :: rest =>
      if isLineBreak c then line.reverse :: splitLinesFrom [] rest else splitLinesFrom (c :: line) rest

/-- `text.splitlines()`. -/
def splitLines (text : List Char) : List (List Char) := splitLinesFrom [] text

example : splitLines "a\r\n\nb".toList = ["a".toList, [], "b".toList] := by decide

end Lines
end Pazuzu.Python
