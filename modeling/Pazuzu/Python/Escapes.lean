import Mathlib.Data.List.Chain
import Pazuzu.Python.Loads

/-! The scanner reads the strings that `json.dumps` has written, and a text that
has been decoded is such a string. -/
namespace Pazuzu.Python.Json

section Strings

/-- What the scanner makes of the text of a character. -/
def unitsOf (c : Nat) : List Escaped :=
  if (shortEscapes.lookup c).isSome then [(c, false)]
  else if 0x20 ≤ c ∧ c ≤ 0x7E then [(c, false)]
  else if c < 0x10000 then [(c, true)]
  else [(0xD800 + (c - 0x10000) / 0x400, true), (0xDC00 + (c - 0x10000) % 0x400, true)]

/-- A text that JSON can carry: a surrogate pair in it would come back as one
character. -/
structure Carried (content : Text) : Prop where
  chars : ∀ c ∈ content, c < 0x110000
  unpaired : content.IsChain fun high low => ¬(isHigh high = true ∧ isLow low = true)

theorem hexDigit_digitChar {n : Nat} (h : n < 16) : hexDigit (Nat.digitChar n).toNat = some n := by
  revert n
  decide

theorem readUnit_unicodeEscape {unit : Nat} (h : unit < 0x10000) :
    readUnit (Nat.digitChar (unit / 4096 % 16)).toNat (Nat.digitChar (unit / 256 % 16)).toNat
      (Nat.digitChar (unit / 16 % 16)).toNat (Nat.digitChar (unit % 16)).toNat = some unit := by
  have hBound : ∀ n : Nat, n % 16 < 16 := fun n => Nat.mod_lt n (by decide)
  simp only [readUnit, hexDigit_digitChar (hBound _), Option.bind_eq_bind, Option.bind_some, Option.pure_def]
  congr 1
  omega

/-- A `\u` escape is one unit. -/
theorem scanUnits_unicodeEscape {unit : Nat} (h : unit < 0x10000) (rest : Text) :
    scanUnits (unicodeEscape unit ++ rest) =
      (scanUnits rest).map fun (units, rest) => ((unit, true) :: units, rest) := by
  have hText : unicodeEscape unit ++ rest = '\\'.toNat :: 'u'.toNat :: (Nat.digitChar (unit / 4096 % 16)).toNat ::
      (Nat.digitChar (unit / 256 % 16)).toNat :: (Nat.digitChar (unit / 16 % 16)).toNat ::
      (Nat.digitChar (unit % 16)).toNat :: rest := rfl
  rw [hText, scanUnits, if_neg (by decide), if_pos rfl]
  simp only [if_true, readUnit_unicodeEscape h]

/-- A character that stands for itself. -/
theorem scanUnits_plain {c : Nat} (hMark : c ≠ '"'.toNat) (hEscape : c ≠ '\\'.toNat) (hPrinted : 0x20 ≤ c)
    (rest : Text) :
    scanUnits (c :: rest) = (scanUnits rest).map fun (units, rest) => ((c, false) :: units, rest) := by
  rw [scanUnits.eq_def]
  simp only [if_neg hMark, if_neg hEscape, if_neg (show ¬c ≤ 0x1F by omega)]

theorem scanUnits_short {c : Nat} {letter : Char} (h : shortEscapes.lookup c = some letter) (rest : Text) :
    scanUnits ('\\'.toNat :: letter.toNat :: rest) =
      (scanUnits rest).map fun (units, rest) => ((c, false) :: units, rest) := by
  have hKnown : letter.toNat ≠ 'u'.toNat ∧ unescape letter.toNat = some c := by
    have hIn : ∀ short ∈ shortEscapes, short.2.toNat ≠ 'u'.toNat ∧ unescape short.2.toNat = some short.1 := by decide
    obtain ⟨front, back, hSplit, -⟩ := List.lookup_eq_some_iff.mp h
    exact hIn (c, letter) (hSplit ▸ List.mem_append_right front List.mem_cons_self)
  rw [scanUnits.eq_def]
  simp only [if_neg (show ('\\'.toNat = '"'.toNat → False) by decide), if_true, if_neg hKnown.1, hKnown.2]

/-- The text of a character is read back as its units. -/
theorem scanUnits_escapeChar {c : Nat} (h : c < 0x110000) (rest : Text) :
    scanUnits (escapeChar c ++ rest) = (scanUnits rest).map fun (units, rest) => (unitsOf c ++ units, rest) := by
  unfold escapeChar unitsOf
  cases hShort : shortEscapes.lookup c with
  | some letter => exact scanUnits_short hShort rest
  | none =>
      have hMark : c ≠ '"'.toNat := by
        rintro rfl
        cases hShort
      have hEscape : c ≠ '\\'.toNat := by
        rintro rfl
        cases hShort
      simp only [Option.isSome_none, Bool.false_eq_true, if_false]
      split
      · next hPrinted => exact scanUnits_plain hMark hEscape hPrinted.1 rest
      · split
        · next hSmall => exact scanUnits_unicodeEscape hSmall rest
        · rw [List.append_assoc, scanUnits_unicodeEscape (by omega), scanUnits_unicodeEscape (by omega)]
          cases scanUnits rest <;> rfl

/-- The text of a string is read back up to its closing mark. -/
theorem scanUnits_escape {content : Text} (h : ∀ c ∈ content, c < 0x110000) (rest : Text) :
    scanUnits (escape content ++ '"'.toNat :: rest) = .ok (content.flatMap unitsOf, rest) := by
  induction content with
  | nil =>
      rw [scanUnits.eq_def]
      rfl
  | cons c content ih =>
      have hText : escape (c :: content) ++ '"'.toNat :: rest = escapeChar c ++ (escape content ++ '"'.toNat :: rest) := by
        rw [escape, List.flatMap_cons, List.append_assoc]
        rfl
      rw [hText, scanUnits_escapeChar (h c List.mem_cons_self), ih fun d hIn => h d (List.mem_cons_of_mem _ hIn)]
      rfl

theorem joinPairs_literal (c : Nat) (units : List Escaped) :
    joinPairs ((c, false) :: units) = c :: joinPairs units := by
  simp [joinPairs]

theorem joinPairs_unpaired {c : Nat} {units : List Escaped}
    (h : ∀ low ∈ units.head?, low.2 = true → ¬(isHigh c = true ∧ isLow low.1 = true)) :
    joinPairs ((c, true) :: units) = c :: joinPairs units := by
  match units with
  | [] => simp [joinPairs]
  | (low, false) :: rest => simp [joinPairs]
  | (low, true) :: rest =>
      rw [joinPairs, if_neg]
      simpa using h (low, true) rfl rfl

theorem joinPairs_pair {c : Nat} (hLarge : 0x10000 ≤ c) (hChar : c < 0x110000) (units : List Escaped) :
    joinPairs ((0xD800 + (c - 0x10000) / 0x400, true) :: (0xDC00 + (c - 0x10000) % 0x400, true) :: units) =
      c :: joinPairs units := by
  have hHigh : isHigh (0xD800 + (c - 0x10000) / 0x400) = true := by
    simp only [isHigh, decide_eq_true_eq]
    omega
  have hLow : isLow (0xDC00 + (c - 0x10000) % 0x400) = true := by
    simp only [isLow, decide_eq_true_eq]
    omega
  have hBoth : 0x10000 + (0xD800 + (c - 0x10000) / 0x400 - 0xD800) * 0x400 +
      (0xDC00 + (c - 0x10000) % 0x400 - 0xDC00) = c := by omega
  rw [joinPairs.eq_def]
  simp only [hHigh, hLow, and_self, if_true, hBoth]

/-- The first unit of a character is a low surrogate only if the character is. -/
theorem isLow_of_units {c : Nat} {unit : Escaped} (hChar : c < 0x110000) (hUnit : unit ∈ (unitsOf c).head?) (hLow : isLow unit.1 = true) :
    unit.1 = c := by
  unfold unitsOf at hUnit
  split at hUnit
  · cases hUnit
    rfl
  · split at hUnit
    · cases hUnit
      rfl
    · split at hUnit
      · cases hUnit
        rfl
      · cases hUnit
        simp only [isLow, decide_eq_true_eq] at hLow
        omega

theorem head_units (c : Nat) (rest : List Escaped) : (unitsOf c ++ rest).head? = (unitsOf c).head? := by
  have hSome : unitsOf c ≠ [] := by
    unfold unitsOf
    split
    · nofun
    · split
      · nofun
      · split <;> nofun
  exact List.head?_append_of_ne_nil _ hSome

/-- A carried text comes back from its units. -/
theorem joinPairs_units {content : Text} (h : Carried content) : joinPairs (content.flatMap unitsOf) = content := by
  induction content with
  | nil => rfl
  | cons c content ih =>
      have hRest : Carried content :=
        ⟨fun d hIn => h.chars d (List.mem_cons_of_mem _ hIn), h.unpaired.tail⟩
      have hNext : ∀ low ∈ (content.flatMap unitsOf).head?, low.2 = true → ¬(isHigh c = true ∧ isLow low.1 = true) := by
        intro low hHead _ hPair
        cases content with
        | nil => cases hHead
        | cons d others =>
            rw [List.flatMap_cons, head_units] at hHead
            have hSame := isLow_of_units (hRest.chars d List.mem_cons_self) hHead hPair.2
            exact (List.isChain_cons_cons.mp h.unpaired).1 ⟨hPair.1, hSame ▸ hPair.2⟩
      rw [List.flatMap_cons, unitsOf]
      split
      · exact (joinPairs_literal c _).trans (congrArg _ (ih hRest))
      · split
        · exact (joinPairs_literal c _).trans (congrArg _ (ih hRest))
        · split
          · exact (joinPairs_unpaired hNext).trans (congrArg _ (ih hRest))
          · exact (joinPairs_pair (by omega) (h.chars c List.mem_cons_self) _).trans (congrArg _ (ih hRest))

/-- A quoted text is read back behind its opening mark. -/
theorem scanString_escape {content : Text} (h : Carried content) (rest : Text) :
    scanString (escape content ++ '"'.toNat :: rest) = .ok (content, rest) := by
  rw [scanString, scanUnits_escape h.chars]
  simp [Except.map, joinPairs_units h]

end Strings

section Decoded

/-- A code point that is no surrogate. -/
def IsScalar (c : Nat) : Prop := c < 0x110000 ∧ (c < 0xD800 ∨ 0xE000 ≤ c)

theorem carried_of_scalar {content : Text} (h : ∀ c ∈ content, IsScalar c) : Carried content := by
  refine ⟨fun c hIn => (h c hIn).1, List.Pairwise.isChain (List.pairwise_of_forall_mem_list fun c hIn d _ hPair => ?_)⟩
  have hHigh := hPair.1
  have hScalar := (h c hIn).2
  simp only [isHigh, decide_eq_true_eq] at hHigh
  omega

/-- The characters of a string are scalar. -/
theorem carried_chars (content : List Char) : Carried (content.map Char.toNat) := by
  refine carried_of_scalar fun c hIn => ?_
  obtain ⟨d, -, rfl⟩ := List.mem_map.mp hIn
  have hValid := d.valid
  rcases hValid with hSmall | ⟨hLow, hHigh⟩
  · change d.toNat < 0xD800 at hSmall
    exact ⟨by omega, Or.inl hSmall⟩
  · change 0xDFFF < d.toNat at hLow
    change d.toNat < 0x110000 at hHigh
    exact ⟨hHigh, Or.inr (by omega)⟩

theorem carried_text (literal : String) : Carried (text literal) := carried_chars literal.toList

/-- Whatever completes a started sequence is scalar. -/
structure Pending.Sound (pending : Pending) : Prop where
  missing : 1 ≤ pending.missing
  low : 0x80 ≤ pending.low
  chars : (pending.value * 64 + (pending.high - 0x80) + 1) * 64 ^ (pending.missing - 1) ≤ 0x110000
  unpaired : (pending.value * 64 + (pending.high - 0x80) + 1) * 64 ^ (pending.missing - 1) ≤ 0xD800 ∨
    0xE000 ≤ (pending.value * 64 + (pending.low - 0x80)) * 64 ^ (pending.missing - 1)

/-- A byte that is a character is ASCII. -/
theorem char_of_lead {byte : UInt8} {value : Nat} (h : lead byte = .char value) : value = byte.toNat ∧ byte.toNat < 0x80 := by
  unfold lead at h
  dsimp only at h
  split at h
  · next hSmall => exact ⟨(Lead.char.inj h).symm, hSmall⟩
  · split at h <;> try cases h
    split at h <;> try cases h
    split at h <;> try cases h
    split at h <;> cases h

theorem isScalar_of_lead {byte : UInt8} {value : Nat} (h : lead byte = .char value) : IsScalar value := by
  obtain ⟨rfl, hSmall⟩ := char_of_lead h
  exact ⟨by omega, Or.inl (by omega)⟩

theorem sound_of_lead {byte : UInt8} {pending : Pending} (h : lead byte = .sequence pending) : Pending.Sound pending := by
  unfold lead at h
  dsimp only at h
  split at h
  · cases h
  · split at h
    · cases h
    · split at h
      · obtain rfl := Lead.sequence.inj h
        refine ⟨le_refl _, le_refl _, ?_, Or.inl ?_⟩
        · simp only [Nat.sub_self, pow_zero, mul_one]
          omega
        · simp only [Nat.sub_self, pow_zero, mul_one]
          omega
      · split at h
        · obtain rfl := Lead.sequence.inj h
          refine ⟨Nat.succ_pos _, by dsimp only; split <;> omega, ?_, ?_⟩
          · simp only [Nat.reduceSub, pow_one]
            split <;> omega
          · simp only [Nat.reduceSub, pow_one]
            split <;> split <;> omega
        · split at h
          · obtain rfl := Lead.sequence.inj h
            refine ⟨Nat.succ_pos _, by dsimp only; split <;> omega, ?_, ?_⟩
            · simp only [Nat.reduceSub, Nat.reducePow]
              split <;> omega
            · simp only [Nat.reduceSub, Nat.reducePow]
              split <;> split <;> omega
          · cases h

theorem Pending.Sound.last {pending : Pending} (h : Pending.Sound pending) (hLast : pending.missing = 1) {b : Nat}
    (hBounds : pending.low ≤ b ∧ b ≤ pending.high) : IsScalar (pending.value * 64 + (b - 0x80)) := by
  have hLow := h.low
  have hChars := h.chars
  have hUnpaired := h.unpaired
  simp only [hLast, Nat.sub_self, pow_zero, mul_one] at hChars hUnpaired
  constructor <;> omega

theorem Pending.Sound.more {pending : Pending} (h : Pending.Sound pending) (hMore : pending.missing ≠ 1) {b : Nat}
    (hBounds : pending.low ≤ b ∧ b ≤ pending.high) :
    Pending.Sound ⟨pending.value * 64 + (b - 0x80), pending.missing - 1, 0x80, 0xBF⟩ := by
  obtain ⟨k, hMissing⟩ : ∃ k, pending.missing = k + 2 := ⟨pending.missing - 2, by have := h.missing; omega⟩
  have hLow := h.low
  have hPower : 64 ^ (k + 1) = 64 * 64 ^ k := by rw [pow_succ, mul_comm]
  have hBelow : (pending.value * 64 + (b - 0x80) + 1) * 64 ^ (k + 1) ≤
      (pending.value * 64 + (pending.high - 0x80) + 1) * 64 ^ (k + 1) := Nat.mul_le_mul_right _ (by omega)
  have hAbove : (pending.value * 64 + (pending.low - 0x80)) * 64 ^ (k + 1) ≤
      (pending.value * 64 + (b - 0x80)) * 64 ^ (k + 1) := Nat.mul_le_mul_right _ (by omega)
  have hEnd : ((pending.value * 64 + (b - 0x80)) * 64 + (0xBF - 0x80) + 1) * 64 ^ k =
      (pending.value * 64 + (b - 0x80) + 1) * 64 ^ (k + 1) := by rw [hPower]; ring
  have hStart : ((pending.value * 64 + (b - 0x80)) * 64 + (0x80 - 0x80)) * 64 ^ k =
      (pending.value * 64 + (b - 0x80)) * 64 ^ (k + 1) := by rw [hPower]; ring
  have hChars := h.chars
  have hUnpaired := h.unpaired
  simp only [hMissing, Nat.add_succ_sub_one] at hChars hUnpaired
  refine ⟨by simp only [hMissing]; omega, le_refl _, ?_, ?_⟩
  · simp only [hMissing, Nat.add_succ_sub_one, Nat.add_sub_cancel, hEnd]
    exact hBelow.trans hChars
  · simp only [hMissing, Nat.add_succ_sub_one, Nat.add_sub_cancel, hEnd, hStart]
    exact hUnpaired.imp hBelow.trans fun hFar => hFar.trans hAbove

/-- What is decoded is scalar throughout. -/
theorem isScalar_decodeFrom (content : Bytes) : ∀ pending : Option Pending, (∀ p ∈ pending, Pending.Sound p) →
    ∀ c ∈ decodeFrom pending content, IsScalar c := by
  have hReplacement : IsScalar replacement := by
    unfold IsScalar replacement
    omega
  induction content with
  | nil =>
      rintro (_ | pending) _ c hIn
      · cases hIn
      · rw [List.mem_singleton.mp hIn]
        exact hReplacement
  | cons byte rest ih =>
      have hNone := ih none nofun
      have hSome : ∀ p, Pending.Sound p → ∀ c ∈ decodeFrom (some p) rest, IsScalar c := fun p hSound =>
        ih (some p) fun q hIn => Option.some.inj hIn ▸ hSound
      rintro (_ | pending) hPending c hIn
      · unfold decodeFrom at hIn
        split at hIn
        · next value hChar =>
            rcases List.mem_cons.mp hIn with rfl | hRest
            · exact isScalar_of_lead hChar
            · exact hNone c hRest
        · next started hStart => exact hSome started (sound_of_lead hStart) c hIn
        · rcases List.mem_cons.mp hIn with rfl | hRest
          · exact hReplacement
          · exact hNone c hRest
      · have hSound := hPending pending rfl
        unfold decodeFrom at hIn
        split at hIn
        · next hBounds =>
            dsimp only at hIn
            split at hIn
            · next hLast =>
                rcases List.mem_cons.mp hIn with hFirst | hRest
                · exact hFirst ▸ hSound.last hLast hBounds
                · exact hNone c hRest
            · next hMore => exact hSome _ (hSound.more hMore hBounds) c hIn
        · split at hIn
          · next value hChar =>
              rcases List.mem_cons.mp hIn with rfl | hRest
              · exact hReplacement
              · rcases List.mem_cons.mp hRest with rfl | hMore
                · exact isScalar_of_lead hChar
                · exact hNone c hMore
          · next started hStart =>
              rcases List.mem_cons.mp hIn with rfl | hRest
              · exact hReplacement
              · exact hSome started (sound_of_lead hStart) c hRest
          · rcases List.mem_cons.mp hIn with rfl | hRest
            · exact hReplacement
            · rcases List.mem_cons.mp hRest with rfl | hMore
              · exact hReplacement
              · exact hNone c hMore

/-- Whatever the bytes are, JSON can carry what they decode to. -/
theorem carried_decodeReplace (content : Bytes) : Carried (decodeReplace content) :=
  carried_of_scalar (isScalar_decodeFrom content none nofun)

end Decoded

end Pazuzu.Python.Json
