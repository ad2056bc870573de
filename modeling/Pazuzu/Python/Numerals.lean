import Mathlib.Data.List.TakeWhile
import Pazuzu.Python.Loads

/-! The scanner reads the numbers that `json.dumps` has written: an integer is
that integer, and a finite double is that double. -/
namespace Pazuzu.Python.Json

section Numbers

variable {digits rest : Text}

/-- What may follow a number: nothing that would belong to it. -/
def Ends (rest : Text) : Prop :=
  ∀ c ∈ rest.head?, isDigit c = false ∧ c ≠ '.'.toNat ∧ c ≠ 'e'.toNat ∧ c ≠ 'E'.toNat

/-- The digits of a natural number. -/
def digitsOf (n : Nat) : Text := (Nat.toDigits 10 n).map Char.toNat

theorem text_toString (n : Nat) : text (toString n) = digitsOf n := by
  rw [text, Nat.toString_eq_ofList_toDigits, String.toList_ofList, digitsOf]

theorem isDigit_toNat {c : Char} (h : c.isDigit = true) : isDigit c.toNat = true := by
  simp only [Char.isDigit, Bool.and_eq_true, decide_eq_true_eq] at h
  exact decide_eq_true ⟨UInt32.le_iff_toNat_le.mp h.1, UInt32.le_iff_toNat_le.mp h.2⟩

theorem digitsOf_isDigit (n : Nat) : ∀ c ∈ digitsOf n, isDigit c = true := by
  intro c hIn
  obtain ⟨d, hDigit, rfl⟩ := List.mem_map.mp hIn
  exact isDigit_toNat (toDigits_isDigit d hDigit)

theorem digitsOf_ne_nil (n : Nat) : digitsOf n ≠ [] := by
  simp [digitsOf, Nat.toDigits_ne_nil]

theorem numberOf_map {chars : List Char} (h : ∀ c ∈ chars, c.isDigit = true) :
    numberOf (chars.map Char.toNat) = Nat.ofDigitChars 10 chars 0 := by
  have hFold : ∀ (chars : List Char) (start : Nat), (∀ c ∈ chars, c.isDigit = true) →
      (chars.map Char.toNat).foldl (fun n c => n * 10 + (c - '0'.toNat)) start = Nat.ofDigitChars 10 chars start := by
    intro chars
    induction chars with
    | nil => exact fun _ _ => rfl
    | cons c others ih =>
        intro start hAll
        rw [List.map_cons, List.foldl_cons, Nat.ofDigitChars_cons, ih _ fun d hIn => hAll d (List.mem_cons_of_mem _ hIn),
          Nat.mul_comm]
  exact hFold chars 0 h

theorem numberOf_digitsOf (n : Nat) : numberOf (digitsOf n) = n :=
  (numberOf_map toDigits_isDigit).trans Nat.ofDigitChars_ten_toDigits

/-- Digits are read up to the first other character. -/
theorem span_digits (hDigits : ∀ c ∈ digits, isDigit c = true) (hRest : ∀ c ∈ rest.head?, isDigit c = false) :
    (digits ++ rest).takeWhile isDigit = digits ∧ (digits ++ rest).dropWhile isDigit = rest := by
  rw [List.takeWhile_append_of_pos hDigits, List.dropWhile_append_of_pos hDigits]
  cases rest with
  | nil => simp
  | cons c others => simp [hRest c rfl]

/-- A whole part is a zero or begins with another digit. -/
theorem scanWhole_digits (hDigits : ∀ c ∈ digits, isDigit c = true) (hSome : digits ≠ [])
    (hZero : digits.head? = some '0'.toNat → digits = ['0'.toNat]) (hRest : ∀ c ∈ rest.head?, isDigit c = false) :
    scanWhole (digits ++ rest) = (digits, rest) := by
  obtain ⟨c, others, rfl⟩ := List.exists_cons_of_ne_nil hSome
  rw [List.cons_append, scanWhole]
  split
  · next hFirst =>
      obtain rfl : others = [] := (List.cons.inj (hZero (congrArg some hFirst))).2
      rfl
  · obtain ⟨hTaken, hDropped⟩ := span_digits hDigits hRest
    rw [← List.cons_append, hTaken, hDropped]

theorem zero_of_head {n : Nat} (h : (digitsOf n).head? = some '0'.toNat) : digitsOf n = ['0'.toNat] := by
  rcases Nat.eq_zero_or_pos n with rfl | hPos
  · rfl
  · exfalso
    rw [digitsOf, List.head?_map] at h
    obtain ⟨c, hHead, hZero⟩ := Option.map_eq_some_iff.mp h
    exact head_toDigits hPos c hHead (Char.toNat_inj.mp hZero)

theorem scanFraction_ends (h : Ends rest) : scanFraction rest = ([], rest) := by
  cases rest with
  | nil => rfl
  | cons c others => rw [scanFraction, if_neg fun hPoint => (h c rfl).2.1 hPoint.1]

theorem scanExponent_ends (h : Ends rest) : scanExponent rest = (none, rest) := by
  cases rest with
  | nil => rfl
  | cons c others =>
      simp only [scanExponent]
      rw [if_neg]
      exact fun hLetter => hLetter.1.elim (h c rfl).2.2.1 (h c rfl).2.2.2

/-- A digit is no sign. -/
theorem scanSign_digit {c : Nat} {plus : Bool} (h : isDigit c = true) :
    scanSign plus (c :: rest) = (false, c :: rest) := by
  have hOther : ∀ d, isDigit d = false → c ≠ d := by
    rintro d hNot rfl
    rw [hNot] at h
    cases h
  rw [scanSign, if_neg (hOther _ (by decide)), if_neg fun hPlus => hOther _ (by decide) hPlus.2]

theorem scanNumber_natural {negative : Bool} {source : Text} {n : Nat} (hSign : scanSign false source = (negative, digitsOf n ++ rest))
    (hShort : (digitsOf n).length ≤ maxDigits) (hEnds : Ends rest) :
    scanNumber source = .ok (.int (if negative then -n else n), rest) := by
  have hWhole : scanWhole (digitsOf n ++ rest) = (digitsOf n, rest) :=
    scanWhole_digits (digitsOf_isDigit n) (digitsOf_ne_nil n) zero_of_head fun c hHead => (hEnds c hHead).1
  simp only [scanNumber, hSign, hWhole, if_neg (digitsOf_ne_nil n), scanFraction_ends hEnds, scanExponent_ends hEnds,
    and_self, if_true, if_neg (Nat.not_lt.mpr hShort), numberOf_digitsOf]

/-- An integer is read back. -/
theorem scanNumber_int {n : Int} (h : decimalDigits n ≤ maxDigits) (hEnds : Ends rest) :
    scanNumber (text (toString n) ++ rest) = .ok (.int n, rest) := by
  have hLength : (digitsOf n.natAbs).length ≤ maxDigits := by
    rw [← text_toString, length_text]
    exact h
  cases n with
  | ofNat n =>
      obtain ⟨c, others, hDigits⟩ := List.exists_cons_of_ne_nil (digitsOf_ne_nil n)
      have hSign : scanSign false (text (toString (Int.ofNat n)) ++ rest) = (false, digitsOf n ++ rest) := by
        change scanSign false (text (toString n) ++ rest) = _
        rw [text_toString, hDigits]
        exact scanSign_digit (digitsOf_isDigit n c (hDigits ▸ List.mem_cons_self))
      exact scanNumber_natural hSign hLength hEnds
  | negSucc n =>
      have hText : text (toString (Int.negSucc n)) = '-'.toNat :: digitsOf (n + 1) := by
        have hRepr : toString (Int.negSucc n) = "-" ++ toString (n + 1) := rfl
        rw [← text_toString, hRepr, text, String.toList_append, List.map_append]
        rfl
      have hSign : scanSign false (text (toString (Int.negSucc n)) ++ rest) = (true, digitsOf (n + 1) ++ rest) := by
        rw [hText]
        rfl
      exact scanNumber_natural hSign hLength hEnds

end Numbers

section Values

variable {rest : Text} {fuel nesting : Nat}

/-- What begins like no word is a number. -/
theorem scanAtom_number {source : Text} (h : ∀ word ∈ words, ¬word.1 <+: source) :
    scanAtom source = scanNumber source := by
  have hNone : words.find? (fun word => word.1.isPrefixOf source) = none :=
    List.find?_eq_none.mpr fun word hIn hWord => h word hIn (List.isPrefixOf_iff_prefix.mp hWord)
  rw [scanAtom, hNone]

theorem not_word_digit {c : Nat} {source : Text} (h : isDigit c = true) : ∀ word ∈ words, ¬word.1 <+: c :: source := by
  intro word hIn hWord
  have hLetters : ∀ word ∈ words, word.1 ≠ [] ∧ ∀ d ∈ word.1.head?, isDigit d = false := by decide
  obtain ⟨hSome, hHead⟩ := hLetters word hIn
  obtain ⟨d, others, hSplit⟩ := List.exists_cons_of_ne_nil hSome
  rw [hSplit] at hHead hWord
  rw [← (List.cons_prefix_cons.mp hWord).1, hHead d rfl] at h
  cases h

theorem not_word_negative {c : Nat} {source : Text} (h : isDigit c = true) :
    ∀ word ∈ words, ¬word.1 <+: '-'.toNat :: c :: source := by
  intro word hIn hWord
  have hLetters : ∀ word ∈ words, word.1 ≠ [] ∧ word.1.tail ≠ [] ∧ ∀ d ∈ word.1.tail.head?, isDigit d = false := by decide
  obtain ⟨hSome, hTail, hHead⟩ := hLetters word hIn
  obtain ⟨d, others, hSplit⟩ := List.exists_cons_of_ne_nil hSome
  obtain ⟨e, others', hSplit'⟩ := List.exists_cons_of_ne_nil hTail
  rw [hSplit'] at hHead
  rw [hSplit, List.tail_cons] at hSplit'
  rw [hSplit, hSplit'] at hWord
  rw [← (List.cons_prefix_cons.mp (List.cons_prefix_cons.mp hWord).2).1, hHead e rfl] at h
  cases h

/-- The text of an integer is a sign and digits. -/
theorem text_int (n : Int) : ∃ c digits, isDigit c = true ∧
    (text (toString n) = c :: digits ∨ text (toString n) = '-'.toNat :: c :: digits) := by
  cases n with
  | ofNat n =>
      obtain ⟨c, digits, hDigits⟩ := List.exists_cons_of_ne_nil (digitsOf_ne_nil n)
      refine ⟨c, digits, digitsOf_isDigit n c (hDigits ▸ List.mem_cons_self), Or.inl ?_⟩
      exact (text_toString n).trans hDigits
  | negSucc n =>
      obtain ⟨c, digits, hDigits⟩ := List.exists_cons_of_ne_nil (digitsOf_ne_nil (n + 1))
      refine ⟨c, digits, digitsOf_isDigit (n + 1) c (hDigits ▸ List.mem_cons_self), Or.inr ?_⟩
      have hRepr : toString (Int.negSucc n) = "-" ++ toString (n + 1) := rfl
      rw [← hDigits, ← text_toString, hRepr, text, String.toList_append, List.map_append]
      rfl

/-- A digit or a minus sign begins neither a string nor a list nor an object. -/
theorem scanOnce_atom {c : Nat} {source : Text} (h : isDigit c = true ∨ c = '-'.toNat) :
    scanOnce (fuel + 1) nesting (c :: source) = scanAtom (c :: source) := by
  have hOther : ∀ d, isDigit d = false → d ≠ '-'.toNat → c ≠ d := by
    rintro d hNot hSign rfl
    rcases h with hDigit | hMinus
    · rw [hNot] at hDigit
      cases hDigit
    · exact hSign hMinus
  rw [scanOnce.eq_def]
  simp only [if_neg (hOther '"'.toNat (by decide) (by decide)), if_neg (hOther '['.toNat (by decide) (by decide)),
    if_neg (hOther '\x7b'.toNat (by decide) (by decide))]

theorem scanOnce_int {n : Int} (h : decimalDigits n ≤ maxDigits) (hEnds : Ends rest) :
    scanOnce (fuel + 1) nesting (text (toString n) ++ rest) = .ok (.int n, rest) := by
  have hNumber := scanNumber_int h hEnds
  obtain ⟨c, digits, hDigit, hText | hText⟩ := text_int n
  · rw [hText, List.cons_append] at hNumber ⊢
    rw [scanOnce_atom (Or.inl hDigit), scanAtom_number (not_word_digit hDigit), hNumber]
  · rw [hText, List.cons_append, List.cons_append] at hNumber ⊢
    rw [scanOnce_atom (Or.inr rfl), scanAtom_number (not_word_negative hDigit), hNumber]

/-- A double that is read back from its text, whatever follows it. -/
structure ReadsBack (x : Double) : Prop where
  starts : ∃ c digits, text x.repr = c :: digits ∧ (isDigit c = true ∨ c = '-'.toNat)
  printed : ∀ c ∈ text x.repr, 0x20 ≤ c ∧ c ≤ 0x7E
  reads : ∀ rest, Ends rest → scanAtom (text x.repr ++ rest) = .ok (.float x, rest)

/-- The digits of a decimal, as the scanner sees them. -/
theorem scanWhole_chars {chars : List Char} (hDigits : ∀ c ∈ chars, c.isDigit = true) (hSome : chars ≠ [])
    (hZero : chars.head? = some '0' → chars = ['0']) (hRest : ∀ c ∈ rest.head?, isDigit c = false) :
    scanWhole (chars.map Char.toNat ++ rest) = (chars.map Char.toNat, rest) := by
  refine scanWhole_digits (List.forall_mem_map.mpr fun c hIn => isDigit_toNat (hDigits c hIn)) (by simpa using hSome)
    (fun hHead => ?_) hRest
  rw [List.head?_map] at hHead
  obtain ⟨c, hFirst, hSame⟩ := Option.map_eq_some_iff.mp hHead
  rw [hZero (hFirst.trans (congrArg some (Char.toNat_inj.mp hSame)))]
  rfl

/-- A point and digits behind it, or neither. -/
theorem scanFraction_chars {chars : List Char} (hDigits : ∀ c ∈ chars, c.isDigit = true)
    (hRest : ∀ c ∈ rest.head?, isDigit c = false ∧ c ≠ '.'.toNat) :
    scanFraction ((if chars = [] then [] else '.' :: chars).map Char.toNat ++ rest) = (chars.map Char.toNat, rest) := by
  cases chars with
  | nil =>
      cases rest with
      | nil => rfl
      | cons c others =>
          change scanFraction (c :: others) = _
          rw [scanFraction, if_neg fun hPoint => (hRest c rfl).2 hPoint.1]
          rfl
  | cons d others =>
      have hSpan := span_digits (List.forall_mem_map.mpr fun c hIn => isDigit_toNat (hDigits c hIn))
        fun c hHead => (hRest c hHead).1
      have hHead : ((d :: others).map Char.toNat ++ rest).head?.any isDigit = true :=
        isDigit_toNat (hDigits d List.mem_cons_self)
      rw [if_neg (List.cons_ne_nil d others), List.map_cons, List.cons_append, scanFraction,
        if_pos ⟨rfl, hHead⟩, hSpan.1, hSpan.2]

theorem powerDigits_isDigit (exponent : Int) : ∀ c ∈ Decimal.powerDigits exponent, c.isDigit = true := by
  unfold Decimal.powerDigits
  dsimp only
  split
  · exact List.forall_mem_cons.mpr ⟨by decide, toDigits_isDigit⟩
  · exact toDigits_isDigit

theorem numberOf_powerDigits (exponent : Int) :
    numberOf ((Decimal.powerDigits exponent).map Char.toNat) = exponent.natAbs := by
  rw [numberOf_map (powerDigits_isDigit exponent), Decimal.powerDigits]
  split
  · rw [Nat.ofDigitChars_cons]
    exact Nat.ofDigitChars_ten_toDigits
  · exact Nat.ofDigitChars_ten_toDigits

/-- A letter, a sign and digits. -/
theorem scanExponent_chars (exponent : Int) (hRest : ∀ c ∈ rest.head?, isDigit c = false) :
    scanExponent ((Decimal.power (some exponent)).map Char.toNat ++ rest) = (some exponent, rest) := by
  have hDigits : ∀ c ∈ (Decimal.powerDigits exponent).map Char.toNat, isDigit c = true :=
    List.forall_mem_map.mpr fun c hIn => isDigit_toNat (powerDigits_isDigit exponent c hIn)
  have hSpan := span_digits hDigits hRest
  have hHead : ((Decimal.powerDigits exponent).map Char.toNat ++ rest).head?.any isDigit = true := by
    have hSome : Decimal.powerDigits exponent ≠ [] := by
      unfold Decimal.powerDigits
      dsimp only
      split
      · nofun
      · exact Nat.toDigits_ne_nil
    obtain ⟨c, others, hSplit⟩ := List.exists_cons_of_ne_nil hSome
    rw [hSplit] at hDigits ⊢
    exact hDigits _ List.mem_cons_self
  have hSign : scanSign true ((if exponent < 0 then '-' else '+').toNat ::
      ((Decimal.powerDigits exponent).map Char.toNat ++ rest)) =
      (decide (exponent < 0), (Decimal.powerDigits exponent).map Char.toNat ++ rest) := by
    by_cases hNegative : exponent < 0
    · rw [if_pos hNegative, decide_eq_true hNegative]
      rfl
    · rw [if_neg hNegative, decide_eq_false hNegative]
      rfl
  have hText : (Decimal.power (some exponent)).map Char.toNat ++ rest =
      'e'.toNat :: (if exponent < 0 then '-' else '+').toNat ::
        ((Decimal.powerDigits exponent).map Char.toNat ++ rest) := rfl
  have hPower : (if decide (exponent < 0) = true then -(exponent.natAbs : Int) else exponent.natAbs) = exponent := by
    split
    · next hNegative =>
        have := of_decide_eq_true hNegative
        omega
    · next hNegative =>
        rw [decide_eq_true_eq] at hNegative
        omega
  rw [hText]
  simp only [scanExponent, hSign, hHead, true_or, and_self, if_true, hSpan.1, hSpan.2, numberOf_powerDigits, hPower]

/-- A decimal with a point or an exponent is a float. -/
theorem scanNumber_decimal {negative : Bool} {source : Text} {decimal : Decimal} (h : decimal.Sound)
    (hSign : scanSign false source = (negative, decimal.chars.map Char.toNat ++ rest)) (hEnds : Ends rest) :
    scanNumber source = .ok (.float (if negative then (Double.ofRat decimal.value).negate else .ofRat decimal.value), rest) := by
  obtain ⟨whole, fraction, exponent⟩ := decimal
  obtain ⟨hWhole, hBegun, hZero, hFraction, hMarked⟩ := h
  dsimp only at hWhole hBegun hZero hFraction hMarked
  have hText : (Decimal.chars ⟨whole, fraction, exponent⟩).map Char.toNat ++ rest = whole.map Char.toNat ++
      ((if fraction = [] then [] else '.' :: fraction).map Char.toNat ++ ((Decimal.power exponent).map Char.toNat ++ rest)) := by
    simp only [Decimal.chars, List.map_append, List.append_assoc]
  have hPowerRest : ∀ c ∈ ((Decimal.power exponent).map Char.toNat ++ rest).head?, isDigit c = false ∧ c ≠ '.'.toNat := by
    cases exponent with
    | none => exact fun c hHead => ⟨(hEnds c hHead).1, (hEnds c hHead).2.1⟩
    | some exponent =>
        intro c hHead
        cases hHead
        decide
  have hWholeRest : ∀ c ∈ ((if fraction = [] then [] else '.' :: fraction).map Char.toNat ++
      ((Decimal.power exponent).map Char.toNat ++ rest)).head?, isDigit c = false := by
    split
    · exact fun c hHead => (hPowerRest c hHead).1
    · intro c hHead
      cases hHead
      decide
  have hExponent : scanExponent ((Decimal.power exponent).map Char.toNat ++ rest) = (exponent, rest) := by
    cases exponent with
    | none => exact scanExponent_ends hEnds
    | some exponent => exact scanExponent_chars exponent fun c hHead => (hEnds c hHead).1
  have hFloat : ¬(fraction.map Char.toNat = [] ∧ exponent = none) := fun hNeither =>
    hMarked (List.map_eq_nil_iff.mp hNeither.1) hNeither.2
  have hNumber : numberOf (whole.map Char.toNat ++ fraction.map Char.toNat) = Nat.ofDigitChars 10 (whole ++ fraction) 0 := by
    rw [← List.map_append]
    exact numberOf_map (List.forall_mem_append.mpr ⟨hWhole, hFraction⟩)
  rw [hText] at hSign
  simp only [scanNumber, hSign, scanWhole_chars hWhole hBegun hZero hWholeRest,
    if_neg (show whole.map Char.toNat ≠ [] by simpa using hBegun), scanFraction_chars hFraction hPowerRest, hExponent,
    if_neg hFloat, floatOf, hNumber, List.length_map, Decimal.value]

theorem decimal_starts {decimal : Decimal} (h : decimal.Sound) :
    ∃ c chars, isDigit c = true ∧ decimal.chars.map Char.toNat = c :: chars := by
  obtain ⟨c, others, hWhole⟩ := List.exists_cons_of_ne_nil h.begun
  have hDigit := isDigit_toNat (h.whole c (hWhole ▸ List.mem_cons_self))
  rw [Decimal.chars, hWhole]
  exact ⟨_, _, hDigit, rfl⟩

theorem decimal_printed {decimal : Decimal} (h : decimal.Sound) :
    ∀ c ∈ decimal.chars.map Char.toNat, 0x20 ≤ c ∧ c ≤ 0x7E := by
  have hDigit : ∀ c : Char, c.isDigit = true → 0x20 ≤ c.toNat ∧ c.toNat ≤ 0x7E := by
    intro c hIs
    have hBounds := isDigit_toNat hIs
    simp only [isDigit, decide_eq_true_eq] at hBounds
    change 48 ≤ c.toNat ∧ c.toNat ≤ 57 at hBounds
    omega
  refine List.forall_mem_map.mpr (List.forall_mem_append.mpr ⟨List.forall_mem_append.mpr ⟨?_, ?_⟩, ?_⟩)
  · exact fun c hIn => hDigit c (h.whole c hIn)
  · split
    · nofun
    · exact List.forall_mem_cons.mpr ⟨by decide, fun c hIn => hDigit c (h.fraction c hIn)⟩
  · cases decimal.exponent with
    | none => nofun
    | some exponent =>
        refine List.forall_mem_cons.mpr ⟨by decide, List.forall_mem_cons.mpr ⟨?_, ?_⟩⟩
        · split <;> decide
        · exact fun c hIn => hDigit c (powerDigits_isDigit exponent c hIn)

/-- A double whose text is a decimal, with a sign or without, is read back. -/
theorem readsBack_of_decimal {x : Double} {decimal : Decimal} (h : decimal.Sound) (negative : Bool)
    (hText : x.repr.toList = (if negative then ['-'] else []) ++ decimal.chars)
    (hReads : (if negative then (Double.ofRat decimal.value).negate else .ofRat decimal.value) = x) : ReadsBack x := by
  obtain ⟨c, chars, hDigit, hSplit⟩ := decimal_starts h
  have hAll : text x.repr = (if negative then ['-'.toNat] else []) ++ c :: chars := by
    rw [text, hText, List.map_append, hSplit]
    cases negative <;> rfl
  refine ⟨?_, ?_, fun rest hEnds => ?_⟩
  · cases negative with
    | false => exact ⟨c, chars, hAll, Or.inl hDigit⟩
    | true => exact ⟨'-'.toNat, c :: chars, hAll, Or.inr rfl⟩
  · rw [hAll, ← hSplit]
    refine List.forall_mem_append.mpr ⟨?_, decimal_printed h⟩
    cases negative <;> decide
  · have hSign : scanSign false (text x.repr ++ rest) = (negative, decimal.chars.map Char.toNat ++ rest) := by
      rw [hAll, hSplit]
      cases negative with
      | false => exact scanSign_digit hDigit
      | true => rfl
    have hWord : ∀ word ∈ words, ¬word.1 <+: text x.repr ++ rest := by
      rw [hAll]
      cases negative with
      | false => exact not_word_digit hDigit
      | true => exact not_word_negative hDigit
    rw [scanAtom_number hWord, scanNumber_decimal h hSign hEnds, hReads]

/-- Zero with its point. -/
theorem zero_sound : Decimal.Sound ⟨['0'], ['0'], none⟩ :=
  ⟨by simp, by simp, fun _ => rfl, by simp, nofun⟩

theorem zero_value : Double.ofRat (Decimal.value ⟨['0'], ['0'], none⟩) = .finite 0 := by
  have hValue : Decimal.value ⟨['0'], ['0'], none⟩ = 0 := by
    have hDigits : Nat.ofDigitChars 10 ['0', '0'] 0 = 0 := by decide
    simp [Decimal.value, hDigits]
  rw [hValue]
  rfl

/-- Every finite double is read back from its text. -/
theorem readsBack_of_isFinite {x : Double} (h : x.IsFinite) : ReadsBack x := by
  cases x with
  | finite x =>
      rcases lt_trichotomy x 0 with hNegative | rfl | hPos
      · have hOpposite := neg_pos.mpr hNegative
        obtain ⟨decimal, hSound, hText, hReads⟩ := Double.repr_positive hOpposite (Double.ofRat_neg hNegative h)
        refine readsBack_of_decimal hSound true ?_ ?_
        · rw [if_pos rfl, ← hText, Double.repr_negative hNegative, String.toList_append]
          rfl
        · rw [if_pos rfl, hReads, Double.negate, if_neg hOpposite.ne', neg_neg]
      · exact readsBack_of_decimal zero_sound false rfl zero_value
      · obtain ⟨decimal, hSound, hText, hReads⟩ := Double.repr_positive hPos h
        exact readsBack_of_decimal hSound false hText hReads
  | negativeZero =>
      refine readsBack_of_decimal zero_sound true rfl ?_
      rw [if_pos rfl, zero_value]
      rfl
  | infinite negative => exact h.elim
  | nan => exact h.elim

/-- A double in a list or an object. -/
theorem scanOnce_float {x : Double} (h : x.IsFinite) (hEnds : Ends rest) :
    scanOnce (fuel + 1) nesting (text x.repr ++ rest) = .ok (.float x, rest) := by
  have hReads := (readsBack_of_isFinite h).reads rest hEnds
  obtain ⟨c, digits, hText, hStart⟩ := (readsBack_of_isFinite h).starts
  rw [hText, List.cons_append] at hReads ⊢
  rw [scanOnce_atom hStart, hReads]

end Values
end Pazuzu.Python.Json
