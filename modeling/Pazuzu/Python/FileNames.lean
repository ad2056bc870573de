import Pazuzu.Python.Escapes

/-! The names that the system gives to Python and takes from it: UTF-8, in which
a byte that is none stands as a lone surrogate. -/
namespace Pazuzu.Python

section Names

def escapeByte (byte : UInt8) : Nat := 0xDC00 + byte.toNat

/-- Decode from inside or outside a sequence, of which the bytes are kept. A
sequence that breaks off is escaped byte by byte. -/
def fsdecodeFrom : Option (Pending × Bytes) → Bytes → Text
  | none, [] => []
  | some (_, taken), [] => taken.map escapeByte
  | none, byte :: rest =>
      match lead byte with
      | .char value => value :: fsdecodeFrom none rest
      | .sequence pending => fsdecodeFrom (some (pending, [byte])) rest
      | .invalid => escapeByte byte :: fsdecodeFrom none rest
  | some (pending, taken), byte :: rest =>
      if pending.low ≤ byte.toNat ∧ byte.toNat ≤ pending.high then
        let value := pending.value * 64 + (byte.toNat - 0x80)
        if pending.missing = 1 then value :: fsdecodeFrom none rest
        else fsdecodeFrom (some (⟨value, pending.missing - 1, 0x80, 0xBF⟩, taken ++ [byte])) rest
      else
        taken.map escapeByte ++
          match lead byte with
          | .char value => value :: fsdecodeFrom none rest
          | .sequence next => fsdecodeFrom (some (next, [byte])) rest
          | .invalid => escapeByte byte :: fsdecodeFrom none rest

/-- `os.fsdecode`. -/
def fsdecode (content : Bytes) : Text := fsdecodeFrom none content

/-- A code point in UTF-8. -/
def utf8 (c : Nat) : Bytes :=
  (if c < 0x80 then [c]
  else if c < 0x800 then [0xC0 + c / 64, 0x80 + c % 64]
  else if c < 0x10000 then [0xE0 + c / 4096, 0x80 + c / 64 % 64, 0x80 + c % 64]
  else [0xF0 + c / 262144, 0x80 + c / 4096 % 64, 0x80 + c / 64 % 64, 0x80 + c % 64]).map UInt8.ofNat

/-- The bytes of a character, which a surrogate has only where it stands for one. -/
def encodeChar (c : Nat) : Option Bytes :=
  if 0xDC80 ≤ c ∧ c ≤ 0xDCFF then some [UInt8.ofNat (c - 0xDC00)]
  else if c < 0xD800 ∨ (0xE000 ≤ c ∧ c < 0x110000) then some (utf8 c)
  else none

/-- `os.fsencode`. -/
def fsencode : Text → Option Bytes
  | [] => some []
  | c :: rest =>
      match encodeChar c with
      | some front => (fsencode rest).map (front ++ ·)
      | none => none

example : fsdecode [0x68, 0xC3, 0xA9, 0xF0, 0x9F, 0x41, 0xFF] = [0x68, 0xE9, 0xDCF0, 0xDC9F, 0x41, 0xDCFF] := by decide

end Names

section RoundTrip

variable {pending : Pending} {taken content : Bytes} {byte : UInt8} {rest : Text}

/-- The first bytes of a character, and what is known of it from them. -/
inductive Opened : Pending → Bytes → Prop where
  | two (a : UInt8) (hFirst : 0xC2 ≤ a.toNat ∧ a.toNat < 0xE0) : Opened ⟨a.toNat - 0xC0, 1, 0x80, 0xBF⟩ [a]
  | three (a : UInt8) (low high : Nat) (hFirst : 0xE0 ≤ a.toNat ∧ a.toNat < 0xF0) (hBounds : 0x80 ≤ low ∧ high ≤ 0xBF)
      (hLong : a.toNat = 0xE0 → 0xA0 ≤ low) (hUnpaired : a.toNat = 0xED → high ≤ 0x9F) :
      Opened ⟨a.toNat - 0xE0, 2, low, high⟩ [a]
  | threeOfTwo (a b : UInt8) (value : Nat) (hFirst : 0xE0 ≤ a.toNat ∧ a.toNat < 0xF0)
      (hSecond : 0x80 ≤ b.toNat ∧ b.toNat ≤ 0xBF) (hValue : value = (a.toNat - 0xE0) * 64 + (b.toNat - 0x80))
      (hLong : 0x20 ≤ value) (hUnpaired : value < 0x360 ∨ 0x380 ≤ value) : Opened ⟨value, 1, 0x80, 0xBF⟩ [a, b]
  | four (a : UInt8) (low high : Nat) (hFirst : 0xF0 ≤ a.toNat ∧ a.toNat < 0xF5) (hBounds : 0x80 ≤ low ∧ high ≤ 0xBF)
      (hLong : a.toNat = 0xF0 → 0x90 ≤ low) (hSmall : a.toNat = 0xF4 → high ≤ 0x8F) :
      Opened ⟨a.toNat - 0xF0, 3, low, high⟩ [a]
  | fourOfTwo (a b : UInt8) (value : Nat) (hFirst : 0xF0 ≤ a.toNat ∧ a.toNat < 0xF5)
      (hSecond : 0x80 ≤ b.toNat ∧ b.toNat ≤ 0xBF) (hValue : value = (a.toNat - 0xF0) * 64 + (b.toNat - 0x80))
      (hLong : 0x10 ≤ value) (hSmall : value < 0x110) : Opened ⟨value, 2, 0x80, 0xBF⟩ [a, b]
  | fourOfThree (a b c : UInt8) (value : Nat) (hFirst : 0xF0 ≤ a.toNat ∧ a.toNat < 0xF5)
      (hSecond : 0x80 ≤ b.toNat ∧ b.toNat ≤ 0xBF) (hThird : 0x80 ≤ c.toNat ∧ c.toNat ≤ 0xBF)
      (hValue : value = ((a.toNat - 0xF0) * 64 + (b.toNat - 0x80)) * 64 + (c.toNat - 0x80))
      (hLong : 0x400 ≤ value) (hSmall : value < 0x4400) : Opened ⟨value, 1, 0x80, 0xBF⟩ [a, b, c]

theorem opened_of_lead (h : lead byte = .sequence pending) : Opened pending [byte] := by
  unfold lead at h
  dsimp only at h
  split at h
  · cases h
  · split at h
    · cases h
    · split at h
      · obtain rfl := Lead.sequence.inj h
        exact Opened.two byte (by omega)
      · split at h
        · obtain rfl := Lead.sequence.inj h
          apply Opened.three
          · omega
          · constructor <;> split <;> omega
          · intro hByte
            rw [if_pos hByte]
          · intro hByte
            rw [if_pos hByte]
        · split at h
          · obtain rfl := Lead.sequence.inj h
            apply Opened.four
            · omega
            · constructor <;> split <;> omega
            · intro hByte
              rw [if_pos hByte]
            · intro hByte
              rw [if_pos hByte]
          · cases h

theorem high_of_invalid (h : lead byte = .invalid) : 0x80 ≤ byte.toNat := by
  unfold lead at h
  dsimp only at h
  split at h
  · cases h
  · omega

theorem Opened.high (h : Opened pending taken) : ∀ byte ∈ taken, 0x80 ≤ byte.toNat := by
  cases h with
  | two a hFirst | three a low high hFirst | four a low high hFirst => exact List.forall_mem_singleton.mpr (by omega)
  | threeOfTwo a b value hFirst hSecond | fourOfTwo a b value hFirst hSecond =>
      exact List.forall_mem_cons.mpr ⟨by omega, List.forall_mem_singleton.mpr hSecond.1⟩
  | fourOfThree a b c value hFirst hSecond hThird =>
      exact List.forall_mem_cons.mpr ⟨by omega, List.forall_mem_cons.mpr ⟨hSecond.1, List.forall_mem_singleton.mpr hThird.1⟩⟩

theorem Opened.more (h : Opened pending taken) (hMore : pending.missing ≠ 1)
    (hByte : pending.low ≤ byte.toNat ∧ byte.toNat ≤ pending.high) :
    Opened ⟨pending.value * 64 + (byte.toNat - 0x80), pending.missing - 1, 0x80, 0xBF⟩ (taken ++ [byte]) := by
  cases h with
  | two a hFirst | threeOfTwo a b value | fourOfThree a b c value => exact absurd rfl hMore
  | three a low high hFirst hBounds hLong hUnpaired =>
      dsimp only at hByte ⊢
      exact Opened.threeOfTwo a byte _ hFirst (by omega) rfl (by omega) (by omega)
  | four a low high hFirst hBounds hLong hSmall =>
      dsimp only at hByte ⊢
      exact Opened.fourOfTwo a byte _ hFirst (by omega) rfl (by omega) (by omega)
  | fourOfTwo a b value hFirst hSecond hValue hLong hSmall =>
      dsimp only at hByte ⊢
      exact Opened.fourOfThree a b byte _ hFirst hSecond hByte (by rw [hValue]) (by omega) (by omega)

theorem ofNat_eq {n : Nat} (h : n = byte.toNat) : UInt8.ofNat n = byte := by
  rw [h]
  exact UInt8.ofNat_toNat

/-- The last byte completes a character, and that is encoded as all its bytes. -/
theorem Opened.last (h : Opened pending taken) (hLast : pending.missing = 1)
    (hByte : pending.low ≤ byte.toNat ∧ byte.toNat ≤ pending.high) :
    encodeChar (pending.value * 64 + (byte.toNat - 0x80)) = some (taken ++ [byte]) := by
  cases h with
  | three a low high | four a low high | fourOfTwo a b value => cases hLast
  | two a hFirst =>
      dsimp only at hByte ⊢
      rw [encodeChar, if_neg (by omega), if_pos (by omega), utf8, if_neg (by omega), if_pos (by omega)]
      simp only [List.map_cons, List.map_nil, List.cons_append, List.nil_append, Option.some.injEq, List.cons.injEq, and_true]
      exact ⟨ofNat_eq (by omega), ofNat_eq (by omega)⟩
  | threeOfTwo a b value hFirst hSecond hValue hLong hUnpaired =>
      dsimp only at hByte ⊢
      rw [encodeChar, if_neg (by omega), if_pos (by omega), utf8, if_neg (by omega), if_neg (by omega), if_pos (by omega)]
      simp only [List.map_cons, List.map_nil, List.cons_append, List.nil_append, Option.some.injEq, List.cons.injEq, and_true]
      exact ⟨ofNat_eq (by omega), ofNat_eq (by omega), ofNat_eq (by omega)⟩
  | fourOfThree a b c value hFirst hSecond hThird hValue hLong hSmall =>
      dsimp only at hByte ⊢
      rw [encodeChar, if_neg (by omega), if_pos (by omega), utf8, if_neg (by omega), if_neg (by omega), if_neg (by omega)]
      simp only [List.map_cons, List.map_nil, List.cons_append, List.nil_append, Option.some.injEq, List.cons.injEq, and_true]
      exact ⟨ofNat_eq (by omega), ofNat_eq (by omega), ofNat_eq (by omega), ofNat_eq (by omega)⟩

theorem fsencode_cons {c : Nat} {front : Bytes} (h : encodeChar c = some front) :
    fsencode (c :: rest) = (fsencode rest).map (front ++ ·) := by
  rw [fsencode, h]

theorem encodeChar_ascii (h : byte.toNat < 0x80) : encodeChar byte.toNat = some [byte] := by
  rw [encodeChar, if_neg (by omega), if_pos (by omega), utf8, if_pos h]
  simp only [List.map_cons, List.map_nil, UInt8.ofNat_toNat]

theorem encodeChar_escape (h : 0x80 ≤ byte.toNat) : encodeChar (escapeByte byte) = some [byte] := by
  have hByte := byte.toNat_lt
  rw [encodeChar, escapeByte, if_pos (by omega)]
  simp only [Nat.add_sub_cancel_left, UInt8.ofNat_toNat]

theorem fsencode_escaped (h : ∀ byte ∈ taken, 0x80 ≤ byte.toNat) :
    fsencode (taken.map escapeByte ++ rest) = (fsencode rest).map (taken ++ ·) := by
  induction taken with
  | nil =>
      simp
  | cons byte taken ih =>
      obtain ⟨hByte, hTaken⟩ := List.forall_mem_cons.mp h
      rw [List.map_cons, List.cons_append, fsencode_cons (encodeChar_escape hByte), ih hTaken, Option.map_map]
      rfl

theorem fsencode_fsdecodeFrom (content : Bytes) : ∀ started : Option (Pending × Bytes),
    (∀ pending taken, started = some (pending, taken) → Opened pending taken) →
      fsencode (fsdecodeFrom started content) = some ((started.map Prod.snd).getD [] ++ content) := by
  induction content with
  | nil =>
      rintro (_ | ⟨pending, taken⟩) hStarted
      · rfl
      · have hEscaped : fsencode (taken.map escapeByte ++ []) = some (taken ++ []) :=
          fsencode_escaped (hStarted pending taken rfl).high
        rwa [List.append_nil] at hEscaped
  | cons byte content ih =>
      have hNone := ih none nofun
      have hSome : ∀ {pending taken}, Opened pending taken →
          fsencode (fsdecodeFrom (some (pending, taken)) content) = some (taken ++ content) := by
        intro pending taken hOpened
        refine ih (some (pending, taken)) fun other others hSame => ?_
        cases hSame
        exact hOpened
      -- What a byte comes to at the start of a character.
      have hStart : fsencode (fsdecodeFrom none (byte :: content)) = some (byte :: content) := by
        unfold fsdecodeFrom
        split
        · next value hChar =>
            obtain ⟨rfl, hSmall⟩ := Json.char_of_lead hChar
            rw [fsencode_cons (encodeChar_ascii hSmall), hNone]
            rfl
        · next pending hSequence => exact hSome (opened_of_lead hSequence)
        · next hInvalid =>
            rw [fsencode_cons (encodeChar_escape (high_of_invalid hInvalid)), hNone]
            rfl
      rintro (_ | ⟨pending, taken⟩) hStarted
      · exact hStart
      · have hOpened := hStarted pending taken rfl
        by_cases hByte : pending.low ≤ byte.toNat ∧ byte.toNat ≤ pending.high
        · rw [fsdecodeFrom, if_pos hByte]
          by_cases hLast : pending.missing = 1
          · simp only [if_pos hLast]
            rw [fsencode_cons (hOpened.last hLast hByte), hNone]
            simp
          · simp only [if_neg hLast]
            rw [hSome (hOpened.more hLast hByte)]
            simp
        · have hBroken : fsdecodeFrom (some (pending, taken)) (byte :: content) =
              taken.map escapeByte ++ fsdecodeFrom none (byte :: content) := by
            conv_lhs => rw [fsdecodeFrom, if_neg hByte]
            rfl
          rw [hBroken, fsencode_escaped hOpened.high, hStart]
          rfl

/-- Every name of the system is the name that Python gives back for it. -/
theorem fsencode_fsdecode (content : Bytes) : fsencode (fsdecode content) = some content :=
  fsencode_fsdecodeFrom content none nofun

/-- What is the name of something can be carried by JSON. -/
theorem carried_of_fsencode {name : Text} {content : Bytes} (h : fsencode name = some content) : Json.Carried name := by
  have hChars : ∀ c ∈ name, c < 0x110000 ∧ Json.isHigh c = false := by
    induction name generalizing content with
    | nil => exact fun c hIn => by cases hIn
    | cons c rest ih =>
        rw [fsencode] at h
        split at h
        · next front hFront =>
            obtain ⟨back, hBack, -⟩ := Option.map_eq_some_iff.mp h
            refine List.forall_mem_cons.mpr ⟨?_, ih hBack⟩
            have hEncoded : encodeChar c ≠ none := by simp [hFront]
            unfold encodeChar at hEncoded
            simp only [Json.isHigh, decide_eq_false_iff_not]
            split at hEncoded
            · omega
            · split at hEncoded
              · omega
              · exact absurd rfl hEncoded
        · cases h
  refine ⟨fun c hIn => (hChars c hIn).1, List.Pairwise.isChain (List.pairwise_of_forall_mem_list fun c hIn d _ hPair => ?_)⟩
  rw [(hChars c hIn).2] at hPair
  cases hPair.1

end RoundTrip
end Pazuzu.Python
