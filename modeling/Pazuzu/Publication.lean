import Pazuzu.Posix.Publication
import Pazuzu.Transport.Owner

/-! The files that are written under another name and renamed into place: the
budget, which bridges read whenever they start, and the receipt of a master,
which the next gateway reads. -/
namespace Pazuzu

open Posix Posix.Publication Python

section Numerals

/-- A sign in front of a numeral, and whether it is a minus. -/
def splitSign : Bytes → Bool × Bytes
  | [] => (false, [])
  | byte :: rest => if byte = 0x2D then (true, rest) else if byte = 0x2B then (false, rest) else (false, byte :: rest)

/-- Digits with single underscores between them. -/
def isNumeral : Bytes → Bool
  | [] => false
  | [byte] => isDecimal byte
  | byte :: next :: rest =>
      isDecimal byte && if next = 0x5F then isNumeral rest else isNumeral (next :: rest)

/-- `int` of a stripped text, without a result where it raises a `ValueError`. -/
def readInt (content : Bytes) : Option Int :=
  let (negative, numeral) := splitSign (strip content)
  let digits := numeral.filter isDecimal
  if isNumeral numeral = true ∧ digits.length ≤ maxDigits then
    some (if negative then -decimalValue digits else decimalValue digits)
  else none

theorem isNumeral_decimal {digits : Bytes} (hSome : digits ≠ []) (h : digits.all isDecimal = true) :
    isNumeral digits = true := by
  induction digits with
  | nil => exact absurd rfl hSome
  | cons first rest ih =>
      rw [List.all_cons, Bool.and_eq_true] at h
      cases rest with
      | nil => exact h.1
      | cons second others =>
          have hSecond : second ≠ 0x5F := by
            rintro rfl
            have hFirst := (List.all_eq_true.mp h.2) 0x5F List.mem_cons_self
            cases hFirst
          rw [isNumeral, if_neg hSecond, h.1, ih (List.cons_ne_nil _ _) h.2]
          rfl

theorem splitSign_decimal {digits : Bytes} (h : digits.all isDecimal = true) : splitSign digits = (false, digits) := by
  cases digits with
  | nil => rfl
  | cons first rest =>
      rw [List.all_cons, Bool.and_eq_true] at h
      have hMinus : first ≠ 0x2D := by
        rintro rfl
        cases h.1
      have hPlus : first ≠ 0x2B := by
        rintro rfl
        cases h.1
      rw [splitSign, if_neg hMinus, if_neg hPlus]

end Numerals

theorem receipt_below (pid : Nat) : (Transport.ownerReceipt pid).any (128 ≤ ·) = false := by
  rw [List.any_eq_false]
  intro byte hByte
  have hBelow := Transport.receipt_ascii pid byte hByte
  simpa using hBelow

namespace SessionBudget

/-- What `publish` writes. -/
def publishedText (maxSessions : Nat) : Bytes := (toString maxSessions ++ "\n").toUTF8.toList

/-- What `published` makes of the file, `none` where it falls back. -/
def readPublished : Option Bytes → Option Nat
  | none => none
  | some content =>
      if content.any (128 ≤ ·) then none
      else (readInt content).bind fun value => if 0 ≤ value then some value.toNat else none

section Budgets

open Transport

variable {maxSessions : Nat}

/-- The same bytes as a receipt for a process of that number. -/
theorem publishedText_eq (maxSessions : Nat) : publishedText maxSessions = ownerReceipt maxSessions := rfl

theorem readInt_published (h : (digitBytes maxSessions).length ≤ maxDigits) :
    readInt (publishedText maxSessions) = some maxSessions := by
  have hDigits := digitBytes_all maxSessions
  have hAll : (digitBytes maxSessions).filter isDecimal = digitBytes maxSessions :=
    List.filter_eq_self.mpr (List.all_eq_true.mp hDigits)
  have hNumeral := isNumeral_decimal (digitBytes_ne_nil maxSessions) hDigits
  simp only [readInt, publishedText_eq, strip_receipt, splitSign_decimal hDigits, hAll, hNumeral, true_and]
  rw [if_pos h, decimalValue_digitBytes]
  rfl

theorem readPublished_text (h : maxSessions ≤ 64) : readPublished (some (publishedText maxSessions)) = some maxSessions := by
  have hShort : ∀ n ≤ 64, (digitBytes n).length ≤ maxDigits := by decide
  rw [readPublished, publishedText_eq, receipt_below, ← publishedText_eq, if_neg Bool.false_ne_true, readInt_published (hShort maxSessions h)]
  simp

/-- A budget that settings may ask for. -/
abbrev Settled := { maxSessions : Nat // 2 ≤ maxSessions ∧ maxSessions ≤ 64 }

/-- Whatever a reader of the budget file gets, it divides the sessions by the
budget that was in place when it opened the file, and by its own before any was:
gateways that are cut off while they publish, and those that publish meanwhile,
are never noticed. -/
theorem published_whole {moves : List (Publication.Move Settled Nat Nat)} {after : Publication.State Settled UInt8 Nat Nat}
    (hRun : Publication.run (fun budget => publishedText budget.val) false {} moves = some after) {reader : Nat}
    {content : Option Bytes} (hDone : after.readers reader = .finished content) (default : Nat) :
    published (readPublished content) default = ⟨((after.seen reader).map Subtype.val).getD default⟩ := by
  rw [read_whole hRun hDone]
  cases hSeen : after.seen reader with
  | none =>
      change (⟨if 2 ≤ default ∧ default ≤ 64 then default else default⟩ : SessionBudget) = ⟨default⟩
      rw [ite_self]
  | some budget =>
      obtain ⟨maxSessions, hLeast, hMost⟩ := budget
      rw [Option.map_some, readPublished_text hMost]
      simp [published, hLeast, hMost]

/-- A gateway is killed in the middle of its file and started again under the same
number, while a bridge reads what is in place. -/
def rush : List (Publication.Move Settled Nat Nat) :=
  let eight : Settled := ⟨8, by decide⟩
  let twelve : Settled := ⟨12, by decide⟩
  [.openDraft 1 eight, .write 1 2, .replace 1, .unlinkDraft 1, .openDraft 2 twelve, .write 2 1, .crash 2, .openTarget 9,
    .openDraft 2 twelve, .write 2 3, .read 9 1, .replace 2, .read 9 4096, .read 9 4096]

theorem published_whole_rush : ∃ after : Publication.State Settled UInt8 Nat Nat,
    Publication.run (fun budget => publishedText budget.val) false {} rush = some after ∧ after.current.map Subtype.val = some 12 ∧
      published (readPublished (some (publishedText 8))) 5 = ⟨8⟩ := by
  have hText : (fun budget : Settled => publishedText budget.val) = fun budget => digitBytes budget.val ++ [10] :=
    funext fun budget => ownerReceipt_eq budget.val
  have hRuns : (Publication.run (fun budget : Settled => digitBytes budget.val ++ [10]) false
    ({} : Publication.State Settled UInt8 Nat Nat) rush).isSome = true := rfl
  obtain ⟨after, hRun, hDone, hSeen, hLast⟩ : ∃ after : Publication.State Settled UInt8 Nat Nat,
      Publication.run (fun budget : Settled => digitBytes budget.val ++ [10]) false {} rush = some after ∧
        after.readers 9 = .finished (some (digitBytes 8 ++ [10])) ∧ (after.seen 9).map Subtype.val = some 8 ∧
        after.current.map Subtype.val = some 12 :=
    ⟨_, (Option.some_get hRuns).symm, rfl, rfl, rfl⟩
  rw [← ownerReceipt_eq] at hDone
  rw [← hText] at hRun
  have hBudget := published_whole hRun hDone 5
  rw [hSeen] at hBudget
  exact ⟨after, hRun, hLast, hBudget⟩

end Budgets

end SessionBudget

section Receipts

open Transport

variable {moves : List (Publication.Move Nat Nat Nat)} {after : Publication.State Nat UInt8 Nat Nat} {reader : Nat}
  {content : Option Bytes}

/-- The receipt that a gateway reads is that of the master whose receipt was in
place when it opened the file, however many write theirs meanwhile. -/
theorem receipt_whole (hRun : Publication.run ownerReceipt true {} moves = some after)
    (hDone : after.readers reader = .finished content)
    (hMaster : ∀ pid ∈ after.seen reader, 0 < pid ∧ (digitBytes pid).length ≤ maxDigits) :
    readMasterOwner content = .ok (after.seen reader) := by
  rw [read_whole hRun hDone]
  cases hSeen : after.seen reader with
  | none => rfl
  | some pid =>
      obtain ⟨hPositive, hShort⟩ := hMaster pid hSeen
      simp only [Option.map_some, readMasterOwner, receipt_below, strip_receipt, decimalValue_digitBytes, digitBytes_all]
      rw [if_neg Bool.false_ne_true, if_pos ⟨digitBytes_ne_nil pid, trivial⟩, if_neg (Nat.not_lt.mpr hShort), if_pos hPositive]

/-- A gateway is killed in the middle of a receipt, and another writes its own. A
third has a master of the first one's number: it fails over the remains, which it
takes away, and then writes. -/
def handover : List (Publication.Move Nat Nat Nat) :=
  [.openDraft 1234 1234, .write 1234 2, .crash 1234, .openDraft 77 77, .write 77 3, .replace 77, .openTarget 9,
    .unlinkDraft 1234, .openDraft 1234 1234, .read 9 1, .write 1234 1, .read 9 4096, .read 9 4096]

theorem receipt_whole_handover : ∃ after : Publication.State Nat UInt8 Nat Nat,
    Publication.run ownerReceipt true {} handover = some after ∧ readMasterOwner (some (ownerReceipt 77)) = .ok (some 77) := by
  have hText : ownerReceipt = fun pid => digitBytes pid ++ [10] := funext ownerReceipt_eq
  have hRuns : (Publication.run (fun pid => digitBytes pid ++ [10]) true ({} : Publication.State Nat UInt8 Nat Nat)
    handover).isSome = true := rfl
  obtain ⟨after, hRun, hDone, hSeen⟩ : ∃ after : Publication.State Nat UInt8 Nat Nat,
      Publication.run (fun pid => digitBytes pid ++ [10]) true {} handover = some after ∧
        after.readers 9 = .finished (some (digitBytes 77 ++ [10])) ∧ after.seen 9 = some 77 :=
    ⟨_, (Option.some_get hRuns).symm, rfl, rfl⟩
  rw [← ownerReceipt_eq] at hDone
  rw [← hText] at hRun
  have hMaster : ∀ pid ∈ after.seen 9, 0 < pid ∧ (digitBytes pid).length ≤ maxDigits := by
    rw [hSeen]
    intro pid hPid
    obtain rfl := Option.some.inj hPid
    exact ⟨by decide, by decide⟩
  have hRead := receipt_whole hRun hDone hMaster
  rw [hSeen] at hRead
  exact ⟨after, hRun, hRead⟩

end Receipts

end Pazuzu
