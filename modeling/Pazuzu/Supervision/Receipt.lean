import Mathlib.Data.List.Basic
import Pazuzu.Transport

/-! The receipt of a master reads back as the master's process. -/
namespace Pazuzu.Transport

open Python

/-- The digits of a number as bytes. -/
def digitBytes (n : Nat) : Bytes := (Nat.toDigits 10 n).map fun c : Char => c.val.toUInt8

theorem digit_bounds {c : Char} (h : c.isDigit = true) : 48 ≤ c.toNat ∧ c.toNat ≤ 57 := by
  simp only [Char.isDigit, Bool.and_eq_true, decide_eq_true_eq] at h
  exact ⟨UInt32.le_iff_toNat_le.mp h.1, UInt32.le_iff_toNat_le.mp h.2⟩

theorem toNat_digit {c : Char} (h : c.isDigit = true) : c.val.toUInt8.toNat = c.toNat := by
  have hBounds := digit_bounds h
  have hByte : c.val.toUInt8.toNat = c.toNat % 256 := rfl
  omega

theorem encode_digit {c : Char} (h : c.isDigit = true) : String.utf8EncodeChar c = [c.val.toUInt8] := by
  refine String.utf8EncodeChar_eq_singleton ?_
  rw [Char.utf8Size_eq_one_iff, UInt32.le_iff_toNat_le]
  have hBounds : c.val.toNat ≤ 57 := (digit_bounds h).2
  have hLimit : (127 : UInt32).toNat = 127 := rfl
  omega

theorem digits_isDigit {pid : Nat} : ∀ c ∈ Nat.toDigits 10 pid, c.isDigit = true := fun _ hIn =>
  Nat.isDigit_of_mem_toDigits (by decide) (by decide) hIn

theorem encode_digits {digits : List Char} (h : ∀ c ∈ digits, c.isDigit = true) :
    digits.flatMap String.utf8EncodeChar = digits.map fun c : Char => c.val.toUInt8 := by
  induction digits with
  | nil => rfl
  | cons c rest ih =>
      rw [List.flatMap_cons, List.map_cons, encode_digit (h c List.mem_cons_self),
        ih fun c' hIn => h c' (List.mem_cons_of_mem _ hIn)]
      rfl

theorem toList_loop (bytes : ByteArray) (index : Nat) (front : List UInt8) :
    ByteArray.toList.loop bytes index front = front.reverse ++ bytes.data.toList.drop index := by
  fun_induction ByteArray.toList.loop bytes index front with
  | case1 index front hLess ih =>
      have hLength : index < bytes.data.toList.length := hLess
      have hByte : bytes.get! index = bytes.data.toList[index] := by
        change bytes.data[index]! = _
        rw [getElem!_pos bytes.data index hLess, Array.getElem_toList]
      rw [ih, List.drop_eq_getElem_cons hLength, List.reverse_cons, List.append_assoc, hByte]
      rfl
  | case2 index front hLess =>
      have hLength : bytes.data.toList.length ≤ index := Nat.le_of_not_lt hLess
      rw [List.drop_eq_nil_of_le hLength, List.append_nil]

theorem toList_toByteArray (bytes : List UInt8) : bytes.toByteArray.toList = bytes := by
  unfold ByteArray.toList
  rw [toList_loop, List.drop_zero, List.toList_data_toByteArray]
  rfl

theorem ownerReceipt_eq (pid : Nat) : ownerReceipt pid = digitBytes pid ++ [10] := by
  have hText : toString pid ++ "\n" = String.ofList (Nat.toDigits 10 pid ++ ['\n']) := by
    rw [Nat.toString_eq_ofList_toDigits, String.ofList_append]
  unfold ownerReceipt digitBytes
  rw [hText, ← encode_digits digits_isDigit]
  change (List.flatMap String.utf8EncodeChar (Nat.toDigits 10 pid ++ ['\n'])).toByteArray.toList = _
  rw [List.flatMap_append, toList_toByteArray]
  rfl

theorem digitBytes_decimal (pid : Nat) : ∀ byte ∈ digitBytes pid, 48 ≤ byte.toNat ∧ byte.toNat ≤ 57 := by
  intro byte hIn
  obtain ⟨c, hDigit, rfl⟩ := List.mem_map.mp hIn
  rw [toNat_digit (digits_isDigit c hDigit)]
  exact digit_bounds (digits_isDigit c hDigit)

theorem digitBytes_all (pid : Nat) : (digitBytes pid).all isDecimal = true := by
  rw [List.all_eq_true]
  intro byte hIn
  have hBounds := digitBytes_decimal pid byte hIn
  simp only [isDecimal, decide_eq_true_eq, UInt8.le_iff_toNat_le]
  exact hBounds

theorem digitBytes_ne_nil (pid : Nat) : digitBytes pid ≠ [] := by
  simp [digitBytes, Nat.toDigits_ne_nil]

theorem decimalValue_digitBytes (pid : Nat) : decimalValue (digitBytes pid) = pid := by
  have hFold : ∀ (digits : List Char) (start : Nat), (∀ c ∈ digits, c.isDigit = true) →
      (digits.map fun c : Char => c.val.toUInt8).foldl (fun value digit => value * 10 + (digit.toNat - 0x30)) start =
        Nat.ofDigitChars 10 digits start := by
    intro digits
    induction digits with
    | nil => exact fun _ _ => rfl
    | cons c rest ih =>
        intro start hAll
        rw [List.map_cons, List.foldl_cons, Nat.ofDigitChars_cons, ih _ fun c' hIn => hAll c' (List.mem_cons_of_mem _ hIn),
          toNat_digit (hAll c List.mem_cons_self), Nat.mul_comm]
        rfl
  exact (hFold _ 0 digits_isDigit).trans Nat.ofDigitChars_ten_toDigits

theorem isBlank_of_decimal {byte : UInt8} (h : 48 ≤ byte.toNat ∧ byte.toNat ≤ 57) : isBlank byte = false := by
  simp only [isBlank, decide_eq_false_iff_not, UInt8.le_iff_toNat_le, ← UInt8.toNat_inj]
  simp
  omega

theorem dropWhile_of_head {bytes : Bytes} (h : ∀ byte ∈ bytes.head?, isBlank byte = false) :
    bytes.dropWhile isBlank = bytes := by
  cases bytes with
  | nil => rfl
  | cons first rest => rw [List.dropWhile_cons, if_neg (by simp [h first rfl])]

theorem strip_receipt (pid : Nat) : strip (ownerReceipt pid) = digitBytes pid := by
  have hBlank : ∀ byte ∈ digitBytes pid, isBlank byte = false := fun byte hIn =>
    isBlank_of_decimal (digitBytes_decimal pid byte hIn)
  have hFront : (digitBytes pid ++ [10]).dropWhile isBlank = digitBytes pid ++ [10] := dropWhile_of_head (by
    obtain ⟨first, rest, hDigits⟩ := List.exists_cons_of_ne_nil (digitBytes_ne_nil pid)
    rw [hDigits]
    intro byte hByte
    cases hByte
    exact hBlank first (by rw [hDigits]; exact List.mem_cons_self))
  have hBack : ((digitBytes pid).reverse).dropWhile isBlank = (digitBytes pid).reverse := dropWhile_of_head fun byte hByte =>
    hBlank byte (List.mem_reverse.mp (List.mem_of_mem_head? hByte))
  rw [strip, ownerReceipt_eq, hFront, List.reverse_append, List.reverse_singleton, List.singleton_append,
    List.dropWhile_cons, if_pos (by decide), hBack, List.reverse_reverse]

/-- A receipt names its process, if its numeral can be read at all. -/
theorem readMasterOwner_receipt {pid : Nat} (h : pid ≠ 0) :
    readMasterOwner (some (ownerReceipt pid)) = .ok (some pid) ∨
      ∃ error, readMasterOwner (some (ownerReceipt pid)) = .error error := by
  simp only [readMasterOwner, strip_receipt, decimalValue_digitBytes, digitBytes_all]
  split
  · exact Or.inr ⟨_, rfl⟩
  · rw [if_pos ⟨digitBytes_ne_nil pid, trivial⟩]
    split
    · exact Or.inr ⟨_, rfl⟩
    · rw [if_pos (Nat.pos_of_ne_zero h)]
      exact Or.inl rfl

end Pazuzu.Transport
