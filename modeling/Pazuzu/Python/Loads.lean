import Pazuzu.Python.Json

/-! `json.loads` of a text, by the recursive descent of the interpreter's
scanner. `fuel` bounds the calls and is the length of the text, of which every
call reads something; `nesting` is how deep the interpreter lets them go. -/
namespace Pazuzu.Python

/-- Why a text is not read: it is no JSON, an integer is beyond the digit limit,
or lists and objects are nested too deep. -/
inductive ScanError where
  | malformed
  | digits
  | nesting
  deriving DecidableEq, Repr

/-- `-x`. -/
def Double.negate : Double → Double
  | .finite x => if x = 0 then .negativeZero else .finite (-x)
  | .negativeZero => .finite 0
  | .infinite negative => .infinite !negative
  | .nan => .nan

namespace Json

section Strings

def hexDigit (c : Nat) : Option Nat :=
  if '0'.toNat ≤ c ∧ c ≤ '9'.toNat then some (c - '0'.toNat)
  else if 'a'.toNat ≤ c ∧ c ≤ 'f'.toNat then some (c - 'a'.toNat + 10)
  else if 'A'.toNat ≤ c ∧ c ≤ 'F'.toNat then some (c - 'A'.toNat + 10)
  else none

/-- The four digits of a `\u` escape. -/
def readUnit (a b c d : Nat) : Option Nat := do
  return (← hexDigit a) * 4096 + (← hexDigit b) * 256 + (← hexDigit c) * 16 + (← hexDigit d)

/-- The character that a letter behind a backslash stands for. -/
def unescape (letter : Nat) : Option Nat :=
  if letter = '/'.toNat then some '/'.toNat
  else (shortEscapes.find? fun short => short.2.toNat = letter).map Prod.fst

/-- A character of a string, and whether a `\u` escape made it. -/
abbrev Escaped := Nat × Bool

/-- What stands before the closing quotation mark, and what behind it. -/
def scanUnits : Text → Except ScanError (List Escaped × Text)
  | [] => .error .malformed
  | c :: rest =>
      if c = '"'.toNat then .ok ([], rest)
      else if c = '\\'.toNat then
        match rest with
        | [] => .error .malformed
        | letter :: rest =>
            if letter = 'u'.toNat then
              match rest with
              | first :: second :: third :: fourth :: rest =>
                  match readUnit first second third fourth with
                  | none => .error .malformed
                  | some unit => (scanUnits rest).map fun (units, rest) => ((unit, true) :: units, rest)
              | _ => .error .malformed
            else
              match unescape letter with
              | none => .error .malformed
              | some char => (scanUnits rest).map fun (units, rest) => ((char, false) :: units, rest)
      else if c ≤ 0x1F then .error .malformed
      else (scanUnits rest).map fun (units, rest) => ((c, false) :: units, rest)

def isHigh (c : Nat) : Bool := 0xD800 ≤ c ∧ c ≤ 0xDBFF

def isLow (c : Nat) : Bool := 0xDC00 ≤ c ∧ c ≤ 0xDFFF

/-- Two escapes next to each other that are a surrogate pair are one character. -/
def joinPairs : List Escaped → Text
  | (high, true) :: (low, true) :: rest =>
      if isHigh high ∧ isLow low then
        (0x10000 + (high - 0xD800) * 0x400 + (low - 0xDC00)) :: joinPairs rest
      else high :: joinPairs ((low, true) :: rest)
  | (c, _) :: rest => c :: joinPairs rest
  | [] => []

/-- A string behind its opening quotation mark. -/
def scanString (source : Text) : Except ScanError (Text × Text) :=
  (scanUnits source).map fun (units, rest) => (joinPairs units, rest)

end Strings

section Numbers

def isDigit (c : Nat) : Bool := '0'.toNat ≤ c ∧ c ≤ '9'.toNat

/-- The number that decimal digits are. -/
def numberOf (digits : Text) : Nat := digits.foldl (fun n c => n * 10 + (c - '0'.toNat)) 0

/-- The digits before the point: a zero is alone. -/
def scanWhole : Text → Text × Text
  | [] => ([], [])
  | c :: rest =>
      if c = '0'.toNat then ([c], rest)
      else ((c :: rest).takeWhile isDigit, (c :: rest).dropWhile isDigit)

/-- The digits behind the point, if there are some. -/
def scanFraction (source : Text) : Text × Text :=
  match source with
  | [] => ([], [])
  | c :: rest =>
      if c = '.'.toNat ∧ rest.head?.any isDigit then (rest.takeWhile isDigit, rest.dropWhile isDigit)
      else ([], source)

/-- A sign that is not the digit it stands before. -/
def scanSign (plus : Bool) (source : Text) : Bool × Text :=
  match source with
  | [] => (false, [])
  | c :: rest =>
      if c = '-'.toNat then (true, rest)
      else if plus ∧ c = '+'.toNat then (false, rest)
      else (false, source)

/-- The exponent, if there is one. -/
def scanExponent (source : Text) : Option Int × Text :=
  match source with
  | [] => (none, [])
  | c :: rest =>
      let (negative, digits) := scanSign true rest
      if (c = 'e'.toNat ∨ c = 'E'.toNat) ∧ digits.head?.any isDigit then
        let power := numberOf (digits.takeWhile isDigit)
        (some (if negative then -power else power), digits.dropWhile isDigit)
      else (none, source)

/-- `float` of a decimal: the nearest double. -/
def floatOf (negative : Bool) (digits : Nat) (exponent : Int) : Double :=
  let magnitude := Double.ofRat (digits * (10 : ℚ) ^ exponent)
  if negative then magnitude.negate else magnitude

/-- A number. One without point and exponent is an integer. -/
def scanNumber (source : Text) : Except ScanError (Json × Text) :=
  let (negative, unsigned) := scanSign false source
  let (whole, rest) := scanWhole unsigned
  if whole = [] then .error .malformed
  else
    let (fraction, rest) := scanFraction rest
    let (exponent, rest) := scanExponent rest
    if fraction = [] ∧ exponent = none then
      if maxDigits < whole.length then .error .digits
      else .ok (.int (if negative then -numberOf whole else numberOf whole), rest)
    else
      .ok (.float (floatOf negative (numberOf (whole ++ fraction))
        (exponent.getD 0 - fraction.length)), rest)

end Numbers

section Values

def isBlank (c : Nat) : Bool := c = 0x20 ∨ c = 0x09 ∨ c = 0x0A ∨ c = 0x0D

def skipBlanks (source : Text) : Text := source.dropWhile isBlank

/-- The words of JSON, and those that only `json` knows. -/
def words : List (Text × Json) :=
  [(text "null", .null), (text "true", .bool true), (text "false", .bool false), (text "NaN", .float .nan),
    (text "Infinity", .float (.infinite false)), (text "-Infinity", .float (.infinite true))]

/-- A word or a number. -/
def scanAtom (source : Text) : Except ScanError (Json × Text) :=
  match words.find? fun word => word.1.isPrefixOf source with
  | some (word, value) => .ok (value, source.drop word.length)
  | none => scanNumber source

/-- `dict[key] = value`: a key keeps its first place and gets the last value. -/
def setItem (key : Text) (value : Json) : List (Text × Json) → List (Text × Json)
  | [] => [(key, value)]
  | (other, old) :: rest =>
      if other = key then (key, value) :: rest else (other, old) :: setItem key value rest

/-- The dictionary of the pairs of an object. -/
def dictOf (pairs : List (Text × Json)) : List (Text × Json) :=
  pairs.foldl (fun dict (key, value) => setItem key value dict) []

mutual

def scanOnce : Nat → Nat → Text → Except ScanError (Json × Text)
  | 0, _, _ => .error .malformed
  | _ + 1, _, [] => .error .malformed
  | fuel + 1, nesting, c :: rest =>
      if c = '"'.toNat then (scanString rest).map fun (content, rest) => (.str content, rest)
      else if c = '['.toNat then
        match nesting with
        | 0 => .error .nesting
        | nesting + 1 =>
            match skipBlanks rest with
            | [] => .error .malformed
            | d :: rest =>
                if d = ']'.toNat then .ok (.arr [], rest)
                else (scanItems fuel nesting (d :: rest)).map fun (items, rest) => (.arr items, rest)
      else if c = '\x7b'.toNat then
        match nesting with
        | 0 => .error .nesting
        | nesting + 1 =>
            match skipBlanks rest with
            | [] => .error .malformed
            | d :: rest =>
                if d = '\x7d'.toNat then .ok (.obj [], rest)
                else (scanFields fuel nesting (d :: rest)).map fun (pairs, rest) => (.obj (dictOf pairs), rest)
      else scanAtom (c :: rest)

/-- The items of a list, with its closing bracket. -/
def scanItems : Nat → Nat → Text → Except ScanError (List Json × Text)
  | 0, _, _ => .error .malformed
  | fuel + 1, nesting, source => do
      let (item, rest) ← scanOnce fuel nesting source
      match skipBlanks rest with
      | [] => .error .malformed
      | c :: rest =>
          if c = ']'.toNat then .ok ([item], rest)
          else if c = comma then do
            let (items, rest) ← scanItems fuel nesting (skipBlanks rest)
            return (item :: items, rest)
          else .error .malformed

/-- The pairs of an object, with its closing brace. -/
def scanFields : Nat → Nat → Text → Except ScanError (List (Text × Json) × Text)
  | 0, _, _ => .error .malformed
  | _ + 1, _, [] => .error .malformed
  | fuel + 1, nesting, c :: rest =>
      if c = '"'.toNat then do
        let (key, rest) ← scanString rest
        match skipBlanks rest with
        | [] => .error .malformed
        | c :: rest =>
            if c = colon then do
              let (value, rest) ← scanOnce fuel nesting (skipBlanks rest)
              match skipBlanks rest with
              | [] => .error .malformed
              | c :: rest =>
                  if c = '\x7d'.toNat then .ok ([(key, value)], rest)
                  else if c = comma then do
                    let (pairs, rest) ← scanFields fuel nesting (skipBlanks rest)
                    return ((key, value) :: pairs, rest)
                  else .error .malformed
            else .error .malformed
      else .error .malformed

end

/-- `json.loads`. -/
def loads (nesting : Nat) (source : Text) : Except ScanError Json := do
  let (value, rest) ← scanOnce (source.length + 1) nesting (skipBlanks source)
  if skipBlanks rest = [] then .ok value else .error .malformed

end Values
end Json
end Pazuzu.Python
