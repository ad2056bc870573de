import Pazuzu.Python.Number
import Pazuzu.Python.Text

/-! JSON values and the text `json.dumps` makes of them, with the length of that
text as a sum over the value. The encoder knows ASCII only, so a character may
cost up to twelve. -/
namespace Pazuzu.Python

/-- The code points of a literal. -/
def text (literal : String) : Text := literal.toList.map Char.toNat

/-- A value as `json.loads` builds it. An object lists each key once. -/
inductive Json where
  | null
  | bool (value : Bool)
  | int (value : Int)
  | float (value : Double)
  | str (value : Text)
  | arr (items : List Json)
  | obj (fields : List (Text × Json))

section Characters

/-- The escapes with a letter of their own, and the two that must not stand
alone. -/
def shortEscapes : List (Nat × Char) :=
  [(0x22, '"'), (0x5C, '\\'), (0x08, 'b'), (0x09, 't'), (0x0A, 'n'), (0x0C, 'f'), (0x0D, 'r')]

def unicodeEscape (unit : Nat) : Text :=
  text "\\u" ++ [unit / 4096, unit / 256, unit / 16, unit].map fun n => (Nat.digitChar (n % 16)).toNat

def escapeChar (c : Nat) : Text :=
  match shortEscapes.lookup c with
  | some letter => ['\\'.toNat, letter.toNat]
  | none =>
      if 0x20 ≤ c ∧ c ≤ 0x7E then [c]
      else if c < 0x10000 then unicodeEscape c
      else unicodeEscape (0xD800 + (c - 0x10000) / 0x400) ++
        unicodeEscape (0xDC00 + (c - 0x10000) % 0x400)

/-- How many ASCII characters a character becomes. -/
def charWidth (c : Nat) : Nat :=
  if (shortEscapes.lookup c).isSome then 2
  else if 0x20 ≤ c ∧ c ≤ 0x7E then 1
  else if c < 0x10000 then 6
  else 12

theorem length_unicodeEscape (unit : Nat) : (unicodeEscape unit).length = 6 := rfl

theorem length_escapeChar (c : Nat) : (escapeChar c).length = charWidth c := by
  unfold escapeChar charWidth
  split
  · next hShort => rw [hShort]; rfl
  · next hNone =>
      rw [hNone]
      split
      · rfl
      · split
        · rfl
        · rw [List.length_append, length_unicodeEscape, length_unicodeEscape]
          rfl

/-- A text inside quotation marks. -/
def escape (content : Text) : Text := content.flatMap escapeChar

def escapedWidth (content : Text) : Nat := (content.map charWidth).sum

theorem length_escape (content : Text) : (escape content).length = escapedWidth content := by
  simp only [escape, escapedWidth, List.length_flatMap, length_escapeChar]

def quote (content : Text) : Text := '"'.toNat :: escape content ++ ['"'.toNat]

theorem length_quote (content : Text) : (quote content).length = escapedWidth content + 2 := by
  simp [quote, length_escape]

end Characters

namespace Json

def comma : Nat := ','.toNat

def colon : Nat := ':'.toNat

/-- Why `json.dumps` rejects a number. -/
def numeralFault : Json → Option String
  | .int n =>
      if maxDigits < decimalDigits n then
        some "Exceeds the limit (4300 digits) for integer string conversion"
      else none
  | .float (.infinite _) | .float .nan => some "Out of range float values are not JSON compliant"
  | _ => none

mutual

/-- Why `json.dumps` rejects a value: its first fault in the order of the text. -/
def fault : Json → Option String
  | .arr items => faultItems items
  | .obj fields => faultFields fields
  | value => value.numeralFault

def faultItems : List Json → Option String
  | [] => none
  | item :: rest => item.fault.or (faultItems rest)

def faultFields : List (Text × Json) → Option String
  | [] => none
  | (_, value) :: rest => value.fault.or (faultFields rest)

end

mutual

/-- The text without a blank between its parts. -/
def render : Json → Text
  | .null => text "null"
  | .bool value => text (if value then "true" else "false")
  | .int n => text (toString n)
  | .float x => text x.repr
  | .str content => quote content
  | .arr items => '['.toNat :: renderItems items ++ [']'.toNat]
  | .obj fields => '\x7b'.toNat :: renderFields fields ++ ['\x7d'.toNat]

def renderItems : List Json → Text
  | [] => []
  | [item] => item.render
  | item :: rest => item.render ++ comma :: renderItems rest

def renderFields : List (Text × Json) → Text
  | [] => []
  | [(key, value)] => quote key ++ colon :: value.render
  | (key, value) :: rest => quote key ++ colon :: value.render ++ comma :: renderFields rest

end

mutual

/-- The length of the text. -/
def width : Json → Nat
  | .null => 4
  | .bool value => if value then 4 else 5
  | .int n => (toString n).length
  | .float x => x.repr.length
  | .str content => escapedWidth content + 2
  | .arr items => widthItems items + 2
  | .obj fields => widthFields fields + 2

def widthItems : List Json → Nat
  | [] => 0
  | [item] => item.width
  | item :: rest => item.width + 1 + widthItems rest

def widthFields : List (Text × Json) → Nat
  | [] => 0
  | [(key, value)] => escapedWidth key + 3 + value.width
  | (key, value) :: rest => escapedWidth key + 3 + value.width + 1 + widthFields rest

end

mutual

/-- How deep lists and objects are nested. -/
def depth : Json → Nat
  | .arr items => depthItems items + 1
  | .obj fields => depthFields fields + 1
  | _ => 0

def depthItems : List Json → Nat
  | [] => 0
  | item :: rest => max item.depth (depthItems rest)

def depthFields : List (Text × Json) → Nat
  | [] => 0
  | (_, value) :: rest => max value.depth (depthFields rest)

end

theorem length_text (literal : String) : (text literal).length = literal.length := by
  simp [text, String.length_toList]

mutual

theorem length_render : ∀ value : Json, value.render.length = value.width
  | .null => rfl
  | .bool value => by cases value <;> rfl
  | .int n => length_text _
  | .float x => length_text _
  | .str content => length_quote content
  | .arr items => by simp [render, width, length_renderItems items]
  | .obj fields => by simp [render, width, length_renderFields fields]

theorem length_renderItems : ∀ items : List Json, (renderItems items).length = widthItems items
  | [] => rfl
  | [item] => length_render item
  | item :: next :: rest => by
      simp only [renderItems, widthItems, List.length_append, List.length_cons, length_render item,
        length_renderItems (next :: rest)]
      omega

theorem length_renderFields : ∀ fields : List (Text × Json),
    (renderFields fields).length = widthFields fields
  | [] => rfl
  | [(key, value)] => by
      simp only [renderFields, widthFields, List.length_append, List.length_cons, length_quote,
        length_render value]
      omega
  | (key, value) :: next :: rest => by
      simp only [renderFields, widthFields, List.length_append, List.length_cons, length_quote,
        length_render value, length_renderFields (next :: rest)]
      omega

end

end Json
end Pazuzu.Python
