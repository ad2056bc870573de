/-! Bytes and text. A text is the list of its code points, so that it can hold
the lone surrogates a JSON string may name. `decodeReplace` is
`bytes.decode(errors="replace")` for UTF-8. -/
namespace Pazuzu.Python

abbrev Bytes := List UInt8

/-- A `str`, as its code points. -/
abbrev Text := List Nat

def replacement : Nat := 0xFFFD

/-- A started multi-byte sequence: what it has so far, how many bytes are
missing and between which bounds the next one has to lie. -/
structure Pending where
  value : Nat
  missing : Nat
  low : Nat
  high : Nat
  deriving DecidableEq, Repr

inductive Lead where
  | char (value : Nat)
  | sequence (pending : Pending)
  | invalid
  deriving DecidableEq, Repr

/-- What a byte means at the start of a character. The bounds of the second
byte exclude overlong forms, surrogates and values above U+10FFFF. -/
def lead (byte : UInt8) : Lead :=
  let b := byte.toNat
  if b < 0x80 then .char b
  else if b < 0xC2 then .invalid
  else if b < 0xE0 then .sequence ⟨b - 0xC0, 1, 0x80, 0xBF⟩
  else if b < 0xF0 then
    .sequence ⟨b - 0xE0, 2, if b = 0xE0 then 0xA0 else 0x80, if b = 0xED then 0x9F else 0xBF⟩
  else if b < 0xF5 then
    .sequence ⟨b - 0xF0, 3, if b = 0xF0 then 0x90 else 0x80, if b = 0xF4 then 0x8F else 0xBF⟩
  else .invalid

/-- Decode from inside or outside a sequence. A sequence that breaks off, at
the end or at an unexpected byte, becomes one replacement character, and that
byte is read again as a start. -/
def decodeFrom : Option Pending → Bytes → Text
  | none, [] => []
  | some _, [] => [replacement]
  | none, byte :: rest =>
      match lead byte with
      | .char value => value :: decodeFrom none rest
      | .sequence pending => decodeFrom (some pending) rest
      | .invalid => replacement :: decodeFrom none rest
  | some pending, byte :: rest =>
      if pending.low ≤ byte.toNat ∧ byte.toNat ≤ pending.high then
        let value := pending.value * 64 + (byte.toNat - 0x80)
        if pending.missing = 1 then value :: decodeFrom none rest
        else decodeFrom (some ⟨value, pending.missing - 1, 0x80, 0xBF⟩) rest
      else
        match lead byte with
        | .char value => replacement :: value :: decodeFrom none rest
        | .sequence next => replacement :: decodeFrom (some next) rest
        | .invalid => replacement :: replacement :: decodeFrom none rest

/-- `content.decode(errors="replace")`. -/
def decodeReplace (content : Bytes) : Text := decodeFrom none content

example : decodeReplace [0x68, 0xC3, 0xA9, 0xF0, 0x9F, 0x41, 0xFF] =
    [0x68, 0xE9, replacement, 0x41, replacement] := by decide

end Pazuzu.Python
