import Pazuzu.Python.Escapes
import Pazuzu.Python.Numerals

/-! `json.loads` reads what `json.dumps` has written. -/
namespace Pazuzu.Python.Json

section Values

mutual

/-- A value that is read back from its text. -/
def Readable : Json → Prop
  | .int n => decimalDigits n ≤ maxDigits
  | .float x => x.IsFinite
  | .str content => Carried content
  | .arr items => ReadableItems items
  | .obj fields => (fields.map Prod.fst).Nodup ∧ ReadableFields fields
  | .null | .bool _ => True

def ReadableItems : List Json → Prop
  | [] => True
  | item :: rest => item.Readable ∧ ReadableItems rest

def ReadableFields : List (Text × Json) → Prop
  | [] => True
  | (key, value) :: rest => Carried key ∧ value.Readable ∧ ReadableFields rest

end

theorem setItem_new {key : Text} {value : Json} {dict : List (Text × Json)} (h : key ∉ dict.map Prod.fst) :
    setItem key value dict = dict ++ [(key, value)] := by
  induction dict with
  | nil => rfl
  | cons pair dict ih =>
      rw [List.map_cons, List.mem_cons, not_or] at h
      rw [setItem, if_neg fun hSame => h.1 hSame.symm, ih h.2]
      rfl

/-- Pairs with different keys are a dictionary already. -/
theorem dictOf_distinct {pairs : List (Text × Json)} (h : (pairs.map Prod.fst).Nodup) : dictOf pairs = pairs := by
  have hFold : ∀ (pairs dict : List (Text × Json)), ((dict ++ pairs).map Prod.fst).Nodup →
      pairs.foldl (fun dict pair => setItem pair.1 pair.2 dict) dict = dict ++ pairs := by
    intro pairs
    induction pairs with
    | nil => exact fun dict _ => (List.append_nil dict).symm
    | cons pair pairs ih =>
        intro dict hDistinct
        obtain ⟨key, value⟩ := pair
        have hNew : key ∉ dict.map Prod.fst := by
          rw [List.map_append, List.map_cons] at hDistinct
          exact fun hIn => (List.nodup_append.mp hDistinct).2.2 _ hIn _ List.mem_cons_self rfl
        rw [List.foldl_cons, setItem_new hNew, ih _ (by rwa [List.append_assoc]), List.append_assoc]
        rfl
  exact hFold pairs [] h

/-- A blank begins nothing that is written. -/
theorem skipBlanks_other {c : Nat} {source : Text} (h : isBlank c = false) : skipBlanks (c :: source) = c :: source := by
  rw [skipBlanks, List.dropWhile_cons, if_neg (by simp [h])]

theorem ends_cons {c : Nat} (h : isDigit c = false) (hOther : c ≠ '.'.toNat ∧ c ≠ 'e'.toNat ∧ c ≠ 'E'.toNat)
    (source : Text) : Ends (c :: source) := by
  intro d hHead
  cases hHead
  exact ⟨h, hOther⟩

/-- What a value's text begins with: no blank, and no end of a list or an
object. -/
theorem render_head {value : Json} (h : value.Readable) :
    ∃ c source, value.render = c :: source ∧ isBlank c = false ∧ c ≠ ']'.toNat := by
  have hNumeral : ∀ {c : Nat}, isDigit c = true ∨ c = '-'.toNat → isBlank c = false ∧ c ≠ ']'.toNat := by
    rintro c (hDigit | rfl)
    · simp only [isDigit, decide_eq_true_eq] at hDigit
      simp only [isBlank, decide_eq_false_iff_not]
      change 48 ≤ c ∧ c ≤ 57 at hDigit
      change _ ∧ c ≠ 93
      omega
    · decide
  cases value with
  | null => exact ⟨_, _, rfl, by decide, by decide⟩
  | bool value => cases value <;> exact ⟨_, _, rfl, by decide, by decide⟩
  | int n =>
      obtain ⟨c, digits, hDigit, hText | hText⟩ := text_int n
      · exact ⟨c, digits, hText, hNumeral (Or.inl hDigit)⟩
      · exact ⟨_, _, hText, hNumeral (Or.inr rfl)⟩
  | float x =>
      obtain ⟨c, digits, hText, hStart⟩ := (readsBack_of_isFinite h).starts
      exact ⟨c, digits, hText, hNumeral hStart⟩
  | str content => exact ⟨_, _, rfl, by decide, by decide⟩
  | arr items => exact ⟨_, _, rfl, by decide, by decide⟩
  | obj fields => exact ⟨_, _, rfl, by decide, by decide⟩

theorem renderItems_head {item : Json} (h : item.Readable) (items : List Json) :
    ∃ c source, renderItems (item :: items) = c :: source ∧ isBlank c = false ∧ c ≠ ']'.toNat := by
  obtain ⟨c, source, hText, hHead⟩ := render_head h
  cases items with
  | nil => exact ⟨c, source, hText, hHead⟩
  | cons next items =>
      refine ⟨c, source ++ comma :: renderItems (next :: items), ?_, hHead⟩
      rw [renderItems, hText]
      · rfl
      · nofun

theorem renderFields_head (key : Text) (value : Json) (fields : List (Text × Json)) :
    ∃ source, renderFields ((key, value) :: fields) = '"'.toNat :: source := by
  cases fields with
  | nil => exact ⟨_, rfl⟩
  | cons next fields => exact ⟨_, rfl⟩

theorem width_pos {value : Json} (h : value.Readable) : 0 < value.width := by
  obtain ⟨c, source, hText, -⟩ := render_head h
  rw [← length_render, hText]
  exact Nat.succ_pos _

mutual

/-- A value's text is read up to its end. -/
theorem scanOnce_render : ∀ (value : Json) (fuel nesting : Nat) (rest : Text), value.Readable →
    value.depth ≤ nesting → value.width < fuel → Ends rest →
    scanOnce fuel nesting (value.render ++ rest) = .ok (value, rest)
  | value, 0, _, _, _, _, hFuel, _ => absurd hFuel (Nat.not_lt_zero _)
  | .null, fuel + 1, nesting, rest, _, _, _, _ => by
      rw [scanOnce.eq_def]
      rfl
  | .bool value, fuel + 1, nesting, rest, _, _, _, _ => by
      cases value
      · rw [scanOnce.eq_def]
        rfl
      · rw [scanOnce.eq_def]
        rfl
  | .int n, fuel + 1, nesting, rest, h, _, _, hEnds => scanOnce_int h hEnds
  | .float x, fuel + 1, nesting, rest, h, _, _, hEnds => scanOnce_float h hEnds
  | .str content, fuel + 1, nesting, rest, h, _, _, _ => by
      have hText : (Json.str content).render ++ rest = '"'.toNat :: (escape content ++ '"'.toNat :: rest) := by
        simp [render, quote]
      rw [hText, scanOnce.eq_def]
      simp only [if_true, scanString_escape h]
      rfl
  | .arr [], fuel + 1, nesting, rest, _, hDepth, _, _ => by
      obtain ⟨nesting, rfl⟩ := Nat.exists_eq_succ_of_ne_zero (Nat.ne_zero_of_lt hDepth)
      rw [scanOnce.eq_def]
      rfl
  | .arr (item :: items), fuel + 1, nesting, rest, h, hDepth, hFuel, _ => by
      obtain ⟨nesting, rfl⟩ := Nat.exists_eq_succ_of_ne_zero (Nat.ne_zero_of_lt hDepth)
      have hItems := scanItems_render item items fuel nesting rest h (Nat.le_of_succ_le_succ hDepth)
        (by simp only [width] at hFuel; omega)
      obtain ⟨c, source, hText, hBlank, hClose⟩ := renderItems_head h.1 items
      have hAll : (Json.arr (item :: items)).render ++ rest = '['.toNat :: (renderItems (item :: items) ++ ']'.toNat :: rest) := by
        simp [render]
      rw [hText, List.cons_append] at hItems
      rw [hAll, hText, List.cons_append, scanOnce.eq_def]
      simp only [if_neg (show '['.toNat ≠ '"'.toNat by decide), if_true, skipBlanks_other hBlank, if_neg hClose, hItems]
      rfl
  | .obj [], fuel + 1, nesting, rest, _, hDepth, _, _ => by
      obtain ⟨nesting, rfl⟩ := Nat.exists_eq_succ_of_ne_zero (Nat.ne_zero_of_lt hDepth)
      rw [scanOnce.eq_def]
      rfl
  | .obj ((key, value) :: fields), fuel + 1, nesting, rest, h, hDepth, hFuel, _ => by
      obtain ⟨nesting, rfl⟩ := Nat.exists_eq_succ_of_ne_zero (Nat.ne_zero_of_lt hDepth)
      have hFields := scanFields_render key value fields fuel nesting rest h.2 (Nat.le_of_succ_le_succ hDepth)
        (by simp only [width] at hFuel; omega)
      obtain ⟨source, hText⟩ := renderFields_head key value fields
      have hAll : (Json.obj ((key, value) :: fields)).render ++ rest =
          '\x7b'.toNat :: (renderFields ((key, value) :: fields) ++ '\x7d'.toNat :: rest) := by
        simp [render]
      rw [hText, List.cons_append] at hFields
      rw [hAll, hText, List.cons_append, scanOnce.eq_def]
      simp only [if_neg (show '\x7b'.toNat ≠ '"'.toNat by decide), if_neg (show '\x7b'.toNat ≠ '['.toNat by decide), if_true,
        skipBlanks_other (show isBlank '"'.toNat = false by decide), if_neg (show '"'.toNat ≠ '\x7d'.toNat by decide), hFields]
      simp [Except.map, dictOf_distinct h.1]

theorem scanItems_render : ∀ (item : Json) (items : List Json) (fuel nesting : Nat) (rest : Text),
    ReadableItems (item :: items) → depthItems (item :: items) ≤ nesting → widthItems (item :: items) + 1 < fuel →
    scanItems fuel nesting (renderItems (item :: items) ++ ']'.toNat :: rest) = .ok (item :: items, rest)
  | _, _, 0, _, _, _, _, hFuel => absurd hFuel (Nat.not_lt_zero _)
  | item, [], fuel + 1, nesting, rest, h, hDepth, hFuel => by
      have hItem := scanOnce_render item fuel nesting (']'.toNat :: rest) h.1 (le_trans (le_max_left _ _) hDepth)
        (by simp only [widthItems] at hFuel; omega) (ends_cons (by decide) (by decide) rest)
      rw [scanItems, renderItems, hItem]
      rfl
  | item, next :: items, fuel + 1, nesting, rest, h, hDepth, hFuel => by
      have hWidth := width_pos h.1
      simp only [widthItems] at hFuel
      have hItem := scanOnce_render item fuel nesting (comma :: (renderItems (next :: items) ++ ']'.toNat :: rest)) h.1
        (le_trans (le_max_left _ _) hDepth) (by omega) (ends_cons (by decide) (by decide) _)
      have hItems := scanItems_render next items fuel nesting rest h.2 (le_trans (le_max_right _ _) hDepth)
        (by omega)
      obtain ⟨c, source, hText, hBlank, -⟩ := renderItems_head h.2.1 items
      have hAll : renderItems (item :: next :: items) ++ ']'.toNat :: rest =
          item.render ++ comma :: (renderItems (next :: items) ++ ']'.toNat :: rest) := by
        simp [renderItems]
      rw [hText, List.cons_append] at hItems
      rw [scanItems, hAll, hItem]
      simp only [bind, Except.bind, skipBlanks_other (show isBlank comma = false by decide),
        if_neg (show comma ≠ ']'.toNat by decide), if_true, hText, List.cons_append, skipBlanks_other hBlank, hItems]
      rfl

theorem scanFields_render : ∀ (key : Text) (value : Json) (fields : List (Text × Json)) (fuel nesting : Nat) (rest : Text),
    ReadableFields ((key, value) :: fields) → depthFields ((key, value) :: fields) ≤ nesting →
    widthFields ((key, value) :: fields) + 1 < fuel →
    scanFields fuel nesting (renderFields ((key, value) :: fields) ++ '\x7d'.toNat :: rest) =
      .ok ((key, value) :: fields, rest)
  | _, _, _, 0, _, _, _, _, hFuel => absurd hFuel (Nat.not_lt_zero _)
  | key, value, [], fuel + 1, nesting, rest, h, hDepth, hFuel => by
      have hValue := scanOnce_render value fuel nesting ('\x7d'.toNat :: rest) h.2.1 (le_trans (le_max_left _ _) hDepth)
        (by simp only [widthFields] at hFuel; omega) (ends_cons (by decide) (by decide) rest)
      obtain ⟨c, source, hText, hBlank, -⟩ := render_head h.2.1
      have hAll : renderFields [(key, value)] ++ '\x7d'.toNat :: rest =
          '"'.toNat :: (escape key ++ '"'.toNat :: (colon :: (value.render ++ '\x7d'.toNat :: rest))) := by
        simp [renderFields, quote]
      rw [hText, List.cons_append] at hValue
      rw [hAll, hText, scanFields]
      simp only [if_true, scanString_escape h.1, bind, Except.bind, skipBlanks_other (show isBlank colon = false by decide),
        List.cons_append, skipBlanks_other hBlank, hValue, skipBlanks_other (show isBlank '\x7d'.toNat = false by decide)]
  | key, value, (next, other) :: fields, fuel + 1, nesting, rest, h, hDepth, hFuel => by
      have hWidth := width_pos h.2.1
      simp only [widthFields] at hFuel
      have hValue := scanOnce_render value fuel nesting
        (comma :: (renderFields ((next, other) :: fields) ++ '\x7d'.toNat :: rest)) h.2.1
        (le_trans (le_max_left _ _) hDepth) (by omega) (ends_cons (by decide) (by decide) _)
      have hFields := scanFields_render next other fields fuel nesting rest h.2.2 (le_trans (le_max_right _ _) hDepth)
        (by omega)
      obtain ⟨c, source, hText, hBlank, -⟩ := render_head h.2.1
      obtain ⟨source', hMore⟩ := renderFields_head next other fields
      have hAll : renderFields ((key, value) :: (next, other) :: fields) ++ '\x7d'.toNat :: rest =
          '"'.toNat :: (escape key ++ '"'.toNat :: (colon :: (value.render ++
            comma :: (renderFields ((next, other) :: fields) ++ '\x7d'.toNat :: rest)))) := by
        simp [renderFields, quote]
      rw [hText, List.cons_append] at hValue
      rw [hMore, List.cons_append] at hFields hValue
      rw [hAll, hText, hMore, scanFields]
      simp only [if_true, scanString_escape h.1, bind, Except.bind, skipBlanks_other (show isBlank colon = false by decide),
        List.cons_append, skipBlanks_other hBlank, hValue, skipBlanks_other (show isBlank comma = false by decide),
        if_neg (show comma ≠ '\x7d'.toNat by decide), skipBlanks_other (show isBlank '"'.toNat = false by decide), hFields]
      rfl

end

/-- The text that `json.dumps` makes of a value is read as that value, with
blanks around it or none. -/
theorem loads_render {value : Json} {nesting : Nat} (h : value.Readable) (hDepth : value.depth ≤ nesting)
    {blanks : Text} (hBlanks : ∀ c ∈ blanks, isBlank c = true) :
    loads nesting (value.render ++ blanks) = .ok value := by
  obtain ⟨c, source, hText, hBlank, -⟩ := render_head h
  have hEnds : Ends blanks := by
    intro d hHead
    have hSpace := hBlanks d (List.mem_of_mem_head? hHead)
    simp only [isBlank, decide_eq_true_eq] at hSpace
    rcases hSpace with rfl | rfl | rfl | rfl <;> decide
  have hWidth : value.width < (value.render ++ blanks).length + 1 := by
    rw [List.length_append, length_render]
    omega
  have hRead := scanOnce_render value _ nesting blanks h hDepth hWidth hEnds
  have hFront : skipBlanks (value.render ++ blanks) = value.render ++ blanks := by
    rw [hText, List.cons_append, skipBlanks_other hBlank]
  have hBack : skipBlanks blanks = [] := List.dropWhile_eq_nil_iff.mpr hBlanks
  rw [loads, hFront, hRead]
  simp only [bind, Except.bind, hBack, if_true]

end Values

section Printed

/-- A printed ASCII character. -/
def Printed (content : Text) : Prop := ∀ c ∈ content, 0x20 ≤ c ∧ c ≤ 0x7E

theorem Printed.append {front back : Text} (h : Printed front) (h' : Printed back) : Printed (front ++ back) := by
  intro c hIn
  exact (List.mem_append.mp hIn).elim (h c) (h' c)

theorem Printed.cons {c : Nat} {content : Text} (h : 0x20 ≤ c ∧ c ≤ 0x7E) (h' : Printed content) :
    Printed (c :: content) := by
  intro d hIn
  rcases List.mem_cons.mp hIn with rfl | hRest
  · exact h
  · exact h' d hRest

theorem printed_digits (n : Nat) : Printed (digitsOf n) := by
  intro c hIn
  have hDigit := digitsOf_isDigit n c hIn
  simp only [isDigit, decide_eq_true_eq] at hDigit
  change 48 ≤ c ∧ c ≤ 57 at hDigit
  omega

theorem printed_int (n : Int) : Printed (text (toString n)) := by
  cases n with
  | ofNat n => exact text_toString n ▸ printed_digits n
  | negSucc n =>
      have hRepr : toString (Int.negSucc n) = "-" ++ toString (n + 1) := rfl
      have hDigits : Printed (text (toString (n + 1))) := text_toString (n + 1) ▸ printed_digits (n + 1)
      rw [hRepr, text, String.toList_append, List.map_append]
      exact Printed.append (by unfold Printed; decide) hDigits

theorem printed_unicodeEscape (unit : Nat) : Printed (unicodeEscape unit) := by
  have hDigit : ∀ n < 16, 0x20 ≤ (Nat.digitChar n).toNat ∧ (Nat.digitChar n).toNat ≤ 0x7E := by decide
  refine Printed.append (by unfold Printed; decide) fun c hIn => ?_
  obtain ⟨n, -, rfl⟩ := List.mem_map.mp hIn
  exact hDigit (n % 16) (Nat.mod_lt n (by decide))

theorem printed_escapeChar (c : Nat) : Printed (escapeChar c) := by
  unfold escapeChar
  cases hShort : shortEscapes.lookup c with
  | some letter =>
      obtain ⟨front, back, hSplit, -⟩ := List.lookup_eq_some_iff.mp hShort
      have hIn : ∀ short ∈ shortEscapes, 0x20 ≤ short.2.toNat ∧ short.2.toNat ≤ 0x7E := by decide
      exact Printed.cons (by decide) (Printed.cons
        (hIn (c, letter) (hSplit ▸ List.mem_append_right front List.mem_cons_self)) nofun)
  | none =>
      dsimp only
      split
      · next hPrinted => exact Printed.cons hPrinted nofun
      · split
        · exact printed_unicodeEscape c
        · exact Printed.append (printed_unicodeEscape _) (printed_unicodeEscape _)

theorem printed_quote (content : Text) : Printed (quote content) := by
  refine Printed.cons (by decide) (Printed.append (fun c hIn => ?_) (Printed.cons (by decide) nofun))
  obtain ⟨d, -, hChar⟩ := List.mem_flatMap.mp hIn
  exact printed_escapeChar d c hChar

mutual

/-- A message is printed ASCII: no newline is inside it. -/
theorem printed_render : ∀ value : Json, value.Readable → Printed value.render
  | .null, _ => by unfold Printed; decide
  | .bool value, _ => by cases value <;> (unfold Printed; decide)
  | .int n, _ => printed_int n
  | .float _, h => (readsBack_of_isFinite h).printed
  | .str content, _ => printed_quote content
  | .arr items, h => Printed.cons (by decide) (Printed.append (printed_renderItems items h) (Printed.cons (by decide) nofun))
  | .obj fields, h =>
      Printed.cons (by decide) (Printed.append (printed_renderFields fields h.2) (Printed.cons (by decide) nofun))

theorem printed_renderItems : ∀ items : List Json, ReadableItems items → Printed (renderItems items)
  | [], _ => nofun
  | [item], h => printed_render item h.1
  | item :: next :: rest, h =>
      Printed.append (printed_render item h.1) (Printed.cons (by decide) (printed_renderItems (next :: rest) h.2))

theorem printed_renderFields : ∀ fields : List (Text × Json), ReadableFields fields → Printed (renderFields fields)
  | [], _ => nofun
  | [(key, value)], h =>
      Printed.append (printed_quote key) (Printed.cons (by decide) (printed_render value h.2.1))
  | (key, value) :: next :: rest, h => by
      rw [renderFields]
      · exact Printed.append (Printed.append (printed_quote key) (Printed.cons (by decide) (printed_render value h.2.1)))
          (Printed.cons (by decide) (printed_renderFields (next :: rest) h.2.2))
      · nofun

end

end Printed
end Pazuzu.Python.Json
