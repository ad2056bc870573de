import Mathlib.Data.List.TakeWhile
import Mathlib.Data.Rat.Floor
import Mathlib.Data.Nat.Log
import Mathlib.Tactic.FieldSimp
import Mathlib.Tactic.Linarith
import Mathlib.Tactic.Positivity
import Mathlib.Tactic.Ring

/-! Numbers as Python computes with them, as far as the gateway needs it:
rounding and formatting of times, and the conversion of an unbounded integer
to a double with the multiplication that follows it. -/
namespace Pazuzu.Python

/-- The digit limit of the conversions between integers and decimal text. -/
def maxDigits : Nat := 4300

def decimalDigits (n : Int) : Nat := (toString n.natAbs).length

/-- Round half to even, as `round` and the fixed formats do. -/
def roundHalfEven (x : ℚ) : Int :=
  let below := x.floor
  if x - below < 1 / 2 then below
  else if 1 / 2 < x - below then below + 1
  else if below % 2 = 0 then below else below + 1

/-- `round(x, digits)`. -/
def roundTo (digits : Nat) (x : ℚ) : ℚ := roundHalfEven (x * 10 ^ digits) / 10 ^ digits

/-- The decimal exponent of a positive number. -/
def decimalExponent (x : ℚ) : Int :=
  let guess : Int := Nat.log 10 x.num.toNat - Nat.log 10 x.den
  if (10 : ℚ) ^ guess ≤ x then guess else guess - 1

/-- A number of significant digits, with the exponent of the first, after
rounding. -/
def significant (digits : Nat) (x : ℚ) : Nat × Int :=
  let exponent := decimalExponent x
  let mantissa := (roundHalfEven (x / (10 : ℚ) ^ (exponent + 1 - digits))).toNat
  if mantissa = 10 ^ digits then (10 ^ (digits - 1), exponent + 1) else (mantissa, exponent)

private def dropZeros (digits : List Char) : List Char :=
  (digits.reverse.dropWhile (· = '0')).reverse

private def pointed (whole fraction : List Char) : String :=
  match dropZeros fraction with
  | [] => String.ofList whole
  | rest => String.ofList (whole ++ '.' :: rest)

/-- The exponent as the formats write it: with its sign and two digits. -/
private def exponentSuffix (exponent : Int) : String :=
  let power := toString exponent.natAbs
  (if exponent < 0 then "e-" else "e+") ++ (if power.length < 2 then "0" ++ power else power)

/-- The format `g` of a non-negative number. -/
def formatG (x : ℚ) : String :=
  if x = 0 then "0"
  else
    let (mantissa, exponent) := significant 6 x
    let digits := (toString mantissa).toList
    if 0 ≤ exponent ∧ exponent < 6 then
      pointed (digits.take (exponent.toNat + 1)) (digits.drop (exponent.toNat + 1))
    else if -4 ≤ exponent ∧ exponent < 0 then
      pointed ['0'] (List.replicate ((-exponent).toNat - 1) '0' ++ digits)
    else pointed (digits.take 1) (digits.drop 1) ++ exponentSuffix exponent

/-- The nearest number of the form `m * 2 ^ k` with `m < 2 ^ 53`, ties to the
even `m`: what an integer becomes as a double, if it is not too large. -/
def nearestDouble (n : Nat) : Nat :=
  if n < 2 ^ 53 then n
  else
    let unit := 2 ^ (Nat.log 2 n - 52)
    let below := n / unit
    let rest := n % unit
    if unit < 2 * rest ∨ (unit = 2 * rest ∧ below % 2 = 1) then (below + 1) * unit
    else below * unit

/-- Doubles begin to overflow here. -/
@[irreducible]
def doubleLimit : Nat := 2 ^ 1024

/-- Non-negative doubles without a fractional part. -/
inductive Magnitude where
  | finite (value : Nat)
  | infinite
  deriving DecidableEq, Repr

namespace Magnitude

def ofNearest (n : Nat) : Magnitude := if n < doubleLimit then .finite n else .infinite

/-- `float(n)`; `none` stands for `OverflowError`. -/
def ofInt (n : Nat) : Option Nat :=
  if nearestDouble n < doubleLimit then some (nearestDouble n) else none

/-- The product of two finite doubles overflows to infinity without raising. -/
def product (x y : Nat) : Magnitude := ofNearest (nearestDouble (x * y))

/-- `min(bound, y)` with a finite bound, which is the result on a tie. -/
def atMost (bound : Nat) : Magnitude → Nat
  | .finite y => if y < bound then y else bound
  | .infinite => bound

end Magnitude

/-- A double, by its exact value. -/
inductive Double where
  | finite (value : ℚ)
  | negativeZero
  | infinite (negative : Bool)
  | nan
  deriving DecidableEq, Repr

namespace Double

/-- `float(n)`; `none` stands for `OverflowError`. -/
@[irreducible]
def ofInt (n : Int) : Option Double :=
  (Magnitude.ofInt n.natAbs).map fun magnitude : Nat =>
    .finite (if n < 0 then -(magnitude : ℚ) else magnitude)

/-- `0 < x <= bound`, which is false of what is not a number. -/
def isBetween (bound : ℚ) : Double → Bool
  | .finite x => 0 < x ∧ x ≤ bound
  | _ => false

/-- The binary exponent of a positive number. -/
private def binaryExponent (x : ℚ) : Int :=
  let guess : Int := Nat.log 2 x.num.toNat - Nat.log 2 x.den
  if (2 : ℚ) ^ guess ≤ x then guess else guess - 1

/-- The double a positive decimal reads as: 53 significant bits, and fewer
below the smallest normal one. -/
private def nearest (x : ℚ) : ℚ :=
  let unit := (2 : ℚ) ^ max (binaryExponent x - 52) (-1074)
  roundHalfEven (x / unit) * unit

/-- The double nearest to a number. -/
def ofRat (x : ℚ) : Double :=
  if x = 0 then .finite 0
  else
    let magnitude := nearest (if x < 0 then -x else x)
    if (doubleLimit : ℚ) ≤ magnitude then .infinite (x < 0)
    else .finite (if x < 0 then -magnitude else magnitude)

/-- The decimals of so many digits that may read back as the number: the
nearest one, and the next one above it, since there is more room above a power
of two than below. -/
private def candidates (x : ℚ) (digits : Nat) : List (Nat × Int) :=
  let near := significant digits x
  if near.1 + 1 < 10 ^ digits then [near, (near.1 + 1, near.2)] else [near]

/-- The fewest significant digits that read back as the number. -/
private def shortest (x : ℚ) : Nat × Int :=
  let decimals : List (Nat × Nat × Int) := (List.range 17).flatMap fun digits =>
    (candidates x (digits + 1)).map fun decimal => (digits + 1, decimal)
  match decimals.find? fun (digits, mantissa, exponent) =>
    nearest (mantissa * (10 : ℚ) ^ (exponent + 1 - digits)) = x with
  | some (_, decimal) => decimal
  | none => significant 17 x

private def positiveRepr (x : ℚ) : String :=
  let (mantissa, exponent) := shortest x
  let digits := (toString mantissa).toList
  if 0 ≤ exponent ∧ exponent < 16 then
    let whole := exponent.toNat + 1
    String.ofList (digits.take whole ++ List.replicate (whole - digits.length) '0' ++ '.' ::
      (if digits.length ≤ whole then ['0'] else digits.drop whole))
  else if -4 ≤ exponent ∧ exponent < 0 then
    String.ofList ('0' :: '.' :: List.replicate ((-exponent).toNat - 1) '0' ++ digits)
  else pointed (digits.take 1) (digits.drop 1) ++ exponentSuffix exponent

/-- `float.__repr__`. -/
def repr : Double → String
  | .finite x =>
      if x = 0 then "0.0" else if x < 0 then "-" ++ positiveRepr (-x) else positiveRepr x
  | .negativeZero => "-0.0"
  | .infinite negative => if negative then "-inf" else "inf"
  | .nan => "nan"

end Double

private def padded (width n : Nat) : String :=
  let digits := toString n
  "".pushn '0' (width - digits.length) ++ digits

/-- Year, month and day of a number of days since 1970. -/
private def civil (days : Nat) : Nat × Nat × Nat :=
  let shifted := days + 719468
  let era := shifted / 146097
  let dayOfEra := shifted % 146097
  let yearOfEra := (dayOfEra - dayOfEra / 1460 + dayOfEra / 36524 - dayOfEra / 146096) / 365
  let dayOfYear := dayOfEra - (365 * yearOfEra + yearOfEra / 4 - yearOfEra / 100)
  let month := (5 * dayOfYear + 2) / 153
  (yearOfEra + era * 400 + (if month < 10 then 0 else 1), if month < 10 then month + 3 else month - 9,
    dayOfYear - (153 * month + 2) / 5 + 1)

/-- `datetime.isoformat(timespec="milliseconds")` of a time in UTC, given in
seconds since 1970. -/
def isoformat (utc : ℚ) : String :=
  let millis := (utc * 1000).floor.toNat
  let seconds := millis / 1000
  let (year, month, day) := civil (seconds / 86400)
  padded 4 year ++ "-" ++ padded 2 month ++ "-" ++ padded 2 day ++ "T" ++
    padded 2 (seconds / 3600 % 24) ++ ":" ++ padded 2 (seconds / 60 % 60) ++ ":" ++
    padded 2 (seconds % 60) ++ "." ++ padded 3 (millis % 1000) ++ "+00:00"

private theorem log_mul_two_pow (m k : Nat) (hPos : m ≠ 0) :
    Nat.log 2 (m * 2 ^ k) = Nat.log 2 m + k := by
  induction k with
  | zero => simp
  | succ k ih =>
      rw [pow_succ, ← Nat.mul_assoc, Nat.log_mul_base (by omega) (by positivity), ih]
      omega

/-- A small multiple of a power of two is a double itself. -/
theorem nearestDouble_mul_two_pow (m k : Nat) (hSmall : m < 2 ^ 53) :
    nearestDouble (m * 2 ^ k) = m * 2 ^ k := by
  unfold nearestDouble
  split
  · rfl
  · next hLarge =>
      have hPos : m ≠ 0 := by rintro rfl; simp at hLarge
      have hLog := log_mul_two_pow m k hPos
      have hBits : Nat.log 2 m < 53 := Nat.log_lt_of_lt_pow hPos hSmall
      have hUnit : 2 ^ (Nat.log 2 (m * 2 ^ k) - 52) ∣ m * 2 ^ k :=
        (Nat.pow_dvd_pow 2 (by omega)).trans (Nat.dvd_mul_left _ _)
      have hRest : m * 2 ^ k % 2 ^ (Nat.log 2 (m * 2 ^ k) - 52) = 0 := Nat.mod_eq_zero_of_dvd hUnit
      have hUnitPos : 0 < 2 ^ (Nat.log 2 (m * 2 ^ k) - 52) := Nat.two_pow_pos _
      simp only [hRest, Nat.mul_zero]
      rw [if_neg (by omega)]
      exact Nat.div_mul_cancel hUnit

theorem small_lt_doubleLimit {n : Nat} (h : n < 2 ^ 53) : n < doubleLimit := by
  have hPower : ∀ k, 53 ≤ k → 2 ^ 53 ≤ 2 ^ k := fun _ => Nat.pow_le_pow_right (by decide)
  unfold doubleLimit
  exact h.trans_le (hPower _ (by decide))

/-- An integer of up to 53 bits is a double. -/
theorem Double.ofInt_isSome {n : Int} (h : n.natAbs < 2 ^ 53) : (Double.ofInt n).isSome = true := by
  have hNearest : nearestDouble n.natAbs = n.natAbs := if_pos h
  have hLimit := small_lt_doubleLimit h
  simp only [Double.ofInt, Magnitude.ofInt, hNearest, hLimit, ↓reduceIte, Option.map_some,
    Option.isSome_some]

section Decimals

/-- A number near to an integer is rounded to it. -/
theorem roundHalfEven_near {x : ℚ} {k : Int} (h : |x - k| < 1 / 2) : roundHalfEven x = k := by
  obtain ⟨hBelow, hAbove⟩ := abs_lt.mp h
  have hFloor : (x.floor : ℚ) ≤ x := Rat.floor_le x
  have hCeil : x < x.floor + 1 := by exact_mod_cast Rat.lt_floor_add_one x
  have hLow : k - 1 ≤ x.floor := by
    by_contra hNot
    have hLess : (x.floor : ℚ) + 1 ≤ k - 1 := by exact_mod_cast (by omega : x.floor + 1 ≤ k - 1)
    linarith
  have hHigh : x.floor ≤ k := by
    by_contra hNot
    have hMore : (k : ℚ) + 1 ≤ x.floor := by exact_mod_cast (by omega : k + 1 ≤ x.floor)
    linarith
  have hCases : x.floor = k ∨ x.floor = k - 1 := by omega
  unfold roundHalfEven
  rcases hCases with hSame | hPrevious
  · rw [hSame]
    have hNear : x - k < 1 / 2 := hAbove
    simp only [if_pos hNear]
  · have hRest : 1 / 2 < x - (x.floor : ℚ) := by
      rw [hPrevious]
      push_cast
      linarith
    have hFar : ¬x - (x.floor : ℚ) < 1 / 2 := not_lt.mpr hRest.le
    simp only [if_neg hFar, if_pos hRest]
    omega

/-- Rounding moves a number by at most one half. -/
theorem abs_roundHalfEven_sub (x : ℚ) : |roundHalfEven x - x| ≤ 1 / 2 := by
  have hFloor : (x.floor : ℚ) ≤ x := Rat.floor_le x
  have hCeil : x < x.floor + 1 := by exact_mod_cast Rat.lt_floor_add_one x
  unfold roundHalfEven
  dsimp only
  rw [abs_le]
  split
  · constructor <;> linarith
  · split
    · push_cast
      constructor <;> linarith
    · split
      · constructor <;> linarith
      · push_cast
        constructor <;> linarith

/-- A number lies between two powers of the base next to each other. -/
theorem exponent_bounds {b : Nat} (hBase : 2 ≤ b) {x : ℚ} (hPos : 0 < x) :
    let guess : Int := Nat.log b x.num.toNat - Nat.log b x.den
    let exponent := if (b : ℚ) ^ guess ≤ x then guess else guess - 1
    (b : ℚ) ^ exponent ≤ x ∧ x < (b : ℚ) ^ (exponent + 1) := by
  intro guess exponent
  have hNum : 0 < x.num := Rat.num_pos.mpr hPos
  have hB : (0 : ℚ) < b := by exact_mod_cast (by omega : 0 < b)
  have hOne : (1 : ℚ) ≤ b := by exact_mod_cast (by omega : 1 ≤ b)
  have hDen : (0 : ℚ) < x.den := by exact_mod_cast x.den_pos
  have hValue : (x.num.toNat : ℚ) = x * x.den := by
    have hCast : ((x.num.toNat : Int) : ℚ) = x.num := by rw [Int.toNat_of_nonneg hNum.le]
    have hMul : x * x.den = x.num := Rat.mul_den_eq_num x
    rw [hMul, ← hCast]
    rfl
  have hNumLow : (b : ℚ) ^ Nat.log b x.num.toNat ≤ x.num.toNat := by
    exact_mod_cast Nat.pow_log_le_self b (by omega)
  have hNumHigh : (x.num.toNat : ℚ) < (b : ℚ) ^ (Nat.log b x.num.toNat + 1) := by
    exact_mod_cast Nat.lt_pow_succ_log_self (by omega) _
  have hDenLow : (b : ℚ) ^ Nat.log b x.den ≤ x.den := by
    exact_mod_cast Nat.pow_log_le_self b x.den_nz
  have hDenHigh : (x.den : ℚ) < (b : ℚ) ^ (Nat.log b x.den + 1) := by
    exact_mod_cast Nat.lt_pow_succ_log_self (by omega) _
  rw [hValue] at hNumLow hNumHigh
  have hGuess : (b : ℚ) ^ guess * (b : ℚ) ^ Nat.log b x.den = (b : ℚ) ^ Nat.log b x.num.toNat := by
    rw [← zpow_natCast, ← zpow_natCast, ← zpow_add₀ hB.ne']
    congr 1
    simp only [guess]
    omega
  have hPowDen : (0 : ℚ) < (b : ℚ) ^ Nat.log b x.den := by positivity
  have hUpper : x < (b : ℚ) ^ (guess + 1) := by
    rw [zpow_add₀ hB.ne', zpow_one]
    have hChain : x * (b : ℚ) ^ Nat.log b x.den < (b : ℚ) ^ guess * b * (b : ℚ) ^ Nat.log b x.den := by
      calc x * (b : ℚ) ^ Nat.log b x.den ≤ x * x.den := mul_le_mul_of_nonneg_left hDenLow hPos.le
        _ < (b : ℚ) ^ (Nat.log b x.num.toNat + 1) := hNumHigh
        _ = (b : ℚ) ^ guess * b * (b : ℚ) ^ Nat.log b x.den := by rw [pow_succ, ← hGuess]; ring
    exact lt_of_mul_lt_mul_right hChain hPowDen.le
  have hLower : (b : ℚ) ^ (guess - 1) ≤ x := by
    have hChain : (b : ℚ) ^ (guess - 1) * (b * (b : ℚ) ^ Nat.log b x.den) ≤ x * (b * (b : ℚ) ^ Nat.log b x.den) := by
      calc (b : ℚ) ^ (guess - 1) * (b * (b : ℚ) ^ Nat.log b x.den)
          = (b : ℚ) ^ guess * (b : ℚ) ^ Nat.log b x.den := by
            rw [zpow_sub_one₀ hB.ne']
            field_simp
        _ = (b : ℚ) ^ Nat.log b x.num.toNat := hGuess
        _ ≤ x * x.den := hNumLow
        _ ≤ x * (b : ℚ) ^ (Nat.log b x.den + 1) := mul_le_mul_of_nonneg_left hDenHigh.le hPos.le
        _ = x * (b * (b : ℚ) ^ Nat.log b x.den) := by rw [pow_succ]; ring
    exact le_of_mul_le_mul_right hChain (by positivity)
  simp only [exponent]
  split
  · next hLess => exact ⟨hLess, hUpper⟩
  · next hMore =>
      rw [sub_add_cancel]
      exact ⟨hLower, not_le.mp hMore⟩

namespace Double

theorem binaryExponent_bounds {x : ℚ} (hPos : 0 < x) :
    (2 : ℚ) ^ binaryExponent x ≤ x ∧ x < (2 : ℚ) ^ (binaryExponent x + 1) := by
  have hBounds := exponent_bounds (le_refl 2) hPos
  simp only [Nat.cast_ofNat] at hBounds
  exact hBounds

theorem zpow_lt_two {m n : Int} : (2 : ℚ) ^ m < (2 : ℚ) ^ n ↔ m < n := zpow_lt_zpow_iff_right₀ (by norm_num)

/-- A power of two is a multiple of every smaller one. -/
theorem multiple_of_le {m n : Int} (h : m ≤ n) : (2 : ℚ) ^ n = ((2 ^ (n - m).toNat : Nat) : Int) * (2 : ℚ) ^ m := by
  have hCast : (((2 ^ (n - m).toNat : Nat) : Int) : ℚ) = (2 : ℚ) ^ (n - m) := by
    push_cast
    rw [← zpow_natCast, Int.toNat_of_nonneg (by omega)]
  rw [hCast, ← zpow_add₀ (by norm_num)]
  congr 1
  omega

theorem nearest_of_near {x y : ℚ} {k : Int} (hMultiple : x = k * (2 : ℚ) ^ max (binaryExponent y - 52) (-1074))
    (hNear : |y - x| < (2 : ℚ) ^ max (binaryExponent y - 52) (-1074) / 2) : nearest y = x := by
  unfold nearest
  have hUnit : (0 : ℚ) < (2 : ℚ) ^ max (binaryExponent y - 52) (-1074) := zpow_pos (by norm_num) _
  generalize (2 : ℚ) ^ max (binaryExponent y - 52) (-1074) = unit at *
  have hQuotient : y / unit - k = (y - x) / unit := by
    rw [hMultiple]
    field_simp
  have hRound : roundHalfEven (y / unit) = k := by
    refine roundHalfEven_near ?_
    rw [hQuotient, abs_div, abs_of_pos hUnit, div_lt_iff₀ hUnit]
    linarith
  simp only [hRound, hMultiple]

/-- What is near enough to a double is read as that double. -/
theorem nearest_of_seventeen {x y : ℚ} (hPos : 0 < x) (hDouble : nearest x = x) (hNear : |y - x| ≤ x / (2 * 10 ^ 16)) :
    nearest y = x := by
  obtain ⟨hLow, hHigh⟩ := binaryExponent_bounds hPos
  obtain ⟨hBelow, hAbove⟩ := abs_le.mp hNear
  have hYPos : 0 < y := by linarith
  obtain ⟨hYLow, hYHigh⟩ := binaryExponent_bounds hYPos
  set b := binaryExponent x with hb
  set c := binaryExponent y with hc
  set t := max (b - 52) (-1074) with ht
  obtain ⟨k, hMultiple⟩ : ∃ k : Int, x = k * (2 : ℚ) ^ t := ⟨_, hDouble.symm⟩
  have hUnit : (0 : ℚ) < (2 : ℚ) ^ t := zpow_pos (by norm_num) _
  have hDoubled : (2 : ℚ) ^ (b + 1) = 2 * (2 : ℚ) ^ b := by rw [zpow_add_one₀ (by norm_num)]; ring
  have hUnitLow : (2 : ℚ) ^ b / 2 ^ 52 ≤ (2 : ℚ) ^ t := by
    have hPower : (2 : ℚ) ^ b / 2 ^ 52 = (2 : ℚ) ^ (b - 52) := by rw [zpow_sub₀ (by norm_num)]; norm_num
    rw [hPower]
    exact zpow_le_zpow_right₀ (by norm_num) (le_max_left _ _)
  have hHalf : |y - x| < (2 : ℚ) ^ t / 2 := by
    have hScale : x / (2 * 10 ^ 16) < (2 : ℚ) ^ b / 2 ^ 53 := by
      rw [div_lt_div_iff₀ (by norm_num) (by norm_num)]
      nlinarith
    have hSplit : (2 : ℚ) ^ b / 2 ^ 53 = (2 : ℚ) ^ b / 2 ^ 52 / 2 := by ring
    linarith
  obtain ⟨hHalfBelow, hHalfAbove⟩ := abs_lt.mp hHalf
  have hOne : 1 ≤ k := by
    by_contra hNot
    have hCast : (k : ℚ) ≤ 0 := by exact_mod_cast (by omega : k ≤ 0)
    nlinarith
  have hOneCast : (1 : ℚ) ≤ k := by exact_mod_cast hOne
  have hLevel : t ≤ b := by
    have hLess : (2 : ℚ) ^ t < (2 : ℚ) ^ (b + 1) := by nlinarith
    have := zpow_lt_two.mp hLess
    omega
  have hLeast : -1074 ≤ t := le_max_right _ _
  rcases lt_trichotomy c b with hLess | hSame | hMore
  · have hYBelow : y < (2 : ℚ) ^ b :=
      hYHigh.trans_le (zpow_le_zpow_right₀ (by norm_num) (by omega))
    have hPower := multiple_of_le hLevel
    have hFirst : x = (2 : ℚ) ^ b := by
      refine le_antisymm ?_ hLow
      by_contra hNot
      rw [hPower, hMultiple] at hNot
      have hStrict : ((2 ^ (b - t).toNat : Nat) : Int) < k := by
        by_contra hSmall
        exact hNot (mul_le_mul_of_nonneg_right (by exact_mod_cast not_lt.mp hSmall) hUnit.le)
      have hStep : (((2 ^ (b - t).toNat : Nat) : Int) : ℚ) + 1 ≤ k := by exact_mod_cast hStrict
      nlinarith
    have hC : c = b - 1 := by
      have hHalved : (2 : ℚ) ^ (b - 1) = (2 : ℚ) ^ b / 2 := by rw [zpow_sub_one₀ (by norm_num)]; ring
      have hAtLeast : (2 : ℚ) ^ (b - 1) < (2 : ℚ) ^ (c + 1) := by
        rw [hHalved]
        linarith
      have := zpow_lt_two.mp hAtLeast
      omega
    have hUnder : max (c - 52) (-1074) ≤ b := by omega
    refine nearest_of_near (hFirst.trans (multiple_of_le hUnder)) ?_
    have hFine : (2 : ℚ) ^ b / 2 ^ 53 ≤ (2 : ℚ) ^ max (c - 52) (-1074) := by
      have hShift : (2 : ℚ) ^ b / 2 ^ 53 = (2 : ℚ) ^ (b - 53) := by rw [zpow_sub₀ (by norm_num)]; norm_num
      rw [hShift]
      exact zpow_le_zpow_right₀ (by norm_num) (by omega)
    have hScale : x / (2 * 10 ^ 16) < (2 : ℚ) ^ b / 2 ^ 53 / 2 := by
      rw [hFirst, div_div, div_lt_div_iff₀ (by norm_num) (by norm_num)]
      have hPositive : (0 : ℚ) < (2 : ℚ) ^ b := zpow_pos (by norm_num) _
      nlinarith
    linarith
  · refine nearest_of_near (k := k) ?_ ?_
    · rw [← hc, hSame]
      exact hMultiple
    · rw [← hc, hSame]
      exact hHalf
  · exfalso
    have hYAbove : (2 : ℚ) ^ (b + 1) ≤ y := (zpow_le_zpow_right₀ (by norm_num) (by omega)).trans hYLow
    have hPower := multiple_of_le (show t ≤ b + 1 by omega)
    rw [hPower] at hYAbove hHigh
    rw [hMultiple] at hHigh
    have hStrict : k < ((2 ^ (b + 1 - t).toNat : Nat) : Int) := by
      by_contra hLarge
      exact absurd hHigh (not_lt.mpr (mul_le_mul_of_nonneg_right (by exact_mod_cast not_lt.mp hLarge) hUnit.le))
    have hStep : (k : ℚ) + 1 ≤ ((2 ^ (b + 1 - t).toNat : Nat) : Int) := by exact_mod_cast hStrict
    nlinarith

theorem decimalExponent_bounds {x : ℚ} (hPos : 0 < x) :
    (10 : ℚ) ^ decimalExponent x ≤ x ∧ x < (10 : ℚ) ^ (decimalExponent x + 1) := by
  have hBounds := exponent_bounds (show 2 ≤ 10 by decide) hPos
  simp only [Nat.cast_ofNat] at hBounds
  exact hBounds

/-- A number of significant digits has so many, and is as near as they allow. -/
theorem significant_spec {x : ℚ} (hPos : 0 < x) {digits : Nat} (hDigits : 1 ≤ digits) :
    10 ^ (digits - 1) ≤ (significant digits x).1 ∧ (significant digits x).1 < 10 ^ digits ∧
      |(significant digits x).1 * (10 : ℚ) ^ ((significant digits x).2 + 1 - digits) - x| ≤
        (10 : ℚ) ^ (decimalExponent x + 1 - digits) / 2 := by
  obtain ⟨hLow, hHigh⟩ := decimalExponent_bounds hPos
  set e := decimalExponent x with he
  have hUnit : (0 : ℚ) < (10 : ℚ) ^ (e + 1 - digits) := zpow_pos (by norm_num) _
  set unit := (10 : ℚ) ^ (e + 1 - digits) with hUnitEq
  have hNear := abs_roundHalfEven_sub (x / unit)
  set z := roundHalfEven (x / unit) with hz
  have hLeast : (10 : ℚ) ^ (digits - 1) ≤ x / unit := by
    rw [le_div_iff₀ hUnit, hUnitEq, ← zpow_natCast, ← zpow_add₀ (by norm_num)]
    refine le_trans (le_of_eq ?_) hLow
    congr 1
    omega
  have hMost : x / unit < (10 : ℚ) ^ digits := by
    rw [div_lt_iff₀ hUnit, hUnitEq, ← zpow_natCast, ← zpow_add₀ (by norm_num)]
    refine lt_of_lt_of_eq hHigh ?_
    congr 1
    omega
  obtain ⟨hBelow, hAbove⟩ := abs_le.mp hNear
  have hZLow : (10 : Int) ^ (digits - 1) ≤ z := by
    by_contra hNot
    have hStep : (z : ℚ) + 1 ≤ (10 : ℚ) ^ (digits - 1) := by exact_mod_cast (by omega : z + 1 ≤ (10 : Int) ^ (digits - 1))
    linarith
  have hZHigh : z ≤ (10 : Int) ^ digits := by
    by_contra hNot
    have hStep : (10 : ℚ) ^ digits + 1 ≤ z := by exact_mod_cast (by omega : (10 : Int) ^ digits + 1 ≤ z)
    linarith
  have hZPos : 0 ≤ z := le_trans (by positivity) hZLow
  have hCast : ((z.toNat : Nat) : ℚ) = z := by
    have := Int.toNat_of_nonneg hZPos
    exact_mod_cast congrArg (Int.cast : Int → ℚ) this
  have hError : |(z : ℚ) * unit - x| ≤ unit / 2 := by
    have hScale : (z : ℚ) * unit - x = (z - x / unit) * unit := by field_simp
    rw [hScale, abs_mul, abs_of_pos hUnit]
    nlinarith
  have hSignificant : significant digits x = if z.toNat = 10 ^ digits then (10 ^ (digits - 1), e + 1) else (z.toNat, e) := rfl
  rw [hSignificant]
  split
  · next hFull =>
      have hSame : ((10 ^ (digits - 1) : Nat) : ℚ) * (10 : ℚ) ^ (e + 1 + 1 - digits) = z * unit := by
        rw [← hCast, hFull, hUnitEq]
        push_cast
        rw [← zpow_natCast, ← zpow_natCast, ← zpow_add₀ (by norm_num), ← zpow_add₀ (by norm_num)]
        congr 1
        omega
      refine ⟨le_refl _, Nat.pow_lt_pow_right (by decide) (by omega), ?_⟩
      dsimp only
      rw [hSame]
      exact hError
  · next hPart =>
      refine ⟨?_, ?_, ?_⟩
      · have : ((10 ^ (digits - 1) : Nat) : Int) ≤ z := by exact_mod_cast hZLow
        omega
      · have : z ≤ ((10 ^ digits : Nat) : Int) := by exact_mod_cast hZHigh
        dsimp only
        omega
      · dsimp only
        rw [hCast]
        exact hError

private theorem candidates_spec {x : ℚ} (hPos : 0 < x) {digits : Nat} (hDigits : 1 ≤ digits)
    {decimal : Nat × Int} (h : decimal ∈ candidates x digits) :
    10 ^ (digits - 1) ≤ decimal.1 ∧ decimal.1 < 10 ^ digits := by
  obtain ⟨hLeast, hMost, -⟩ := significant_spec hPos hDigits
  unfold candidates at h
  dsimp only at h
  split at h
  · next hRoom =>
      rcases List.mem_cons.mp h with rfl | hNext
      · exact ⟨hLeast, hMost⟩
      · rw [List.mem_singleton] at hNext
        subst hNext
        exact ⟨Nat.le_succ_of_le hLeast, hRoom⟩
  · rw [List.mem_singleton] at h
    subst h
    exact ⟨hLeast, hMost⟩

/-- The shortest digits read back as the double. -/
theorem shortest_spec {x : ℚ} (hPos : 0 < x) (hDouble : nearest x = x) : ∃ digits : Nat, 1 ≤ digits ∧
    10 ^ (digits - 1) ≤ (shortest x).1 ∧ (shortest x).1 < 10 ^ digits ∧
      nearest ((shortest x).1 * (10 : ℚ) ^ ((shortest x).2 + 1 - digits)) = x := by
  unfold shortest
  dsimp only
  split
  · next found decimal hFind =>
      have hReads := List.find?_some hFind
      rw [decide_eq_true_eq] at hReads
      obtain ⟨digits, -, hIn⟩ := List.mem_flatMap.mp (List.mem_of_find?_eq_some hFind)
      obtain ⟨_, hCandidate, hSame⟩ := List.mem_map.mp hIn
      obtain ⟨rfl, rfl⟩ := Prod.mk.inj hSame
      obtain ⟨hLeast, hMost⟩ := candidates_spec hPos (by omega) hCandidate
      exact ⟨digits + 1, by omega, hLeast, hMost, hReads⟩
  · next hNone =>
      obtain ⟨hLeast, hMost, hNear⟩ := significant_spec hPos (show 1 ≤ 17 by decide)
      refine ⟨17, by decide, hLeast, hMost, nearest_of_seventeen hPos hDouble (hNear.trans ?_)⟩
      obtain ⟨hLow, -⟩ := decimalExponent_bounds hPos
      have hPower : (10 : ℚ) ^ (decimalExponent x + 1 - (17 : Nat)) = (10 : ℚ) ^ decimalExponent x / 10 ^ 16 := by
        rw [show decimalExponent x + 1 - ((17 : Nat) : Int) = decimalExponent x - 16 by push_cast; ring,
          zpow_sub₀ (by norm_num)]
        norm_num
      rw [hPower, div_div, div_le_div_iff₀ (by norm_num) (by norm_num)]
      nlinarith

end Double
/-- Only zero begins with a zero. -/
theorem head_toDigits {n : Nat} (h : 0 < n) : ∀ c ∈ (Nat.toDigits 10 n).head?, c ≠ '0' := by
  induction n using Nat.strongRecOn with
  | ind n ih =>
      by_cases hSmall : n < 10
      · rw [Nat.toDigits_of_lt_base hSmall]
        intro c hHead
        cases hHead
        have hDigit : ∀ n < 10, 0 < n → Nat.digitChar n ≠ '0' := by decide
        exact hDigit n hSmall h
      · rw [Nat.toDigits_of_base_le (by decide) (by omega), List.head?_append_of_ne_nil _ Nat.toDigits_ne_nil]
        exact ih (n / 10) (by omega) (by omega)

theorem toDigits_isDigit {n : Nat} : ∀ c ∈ Nat.toDigits 10 n, c.isDigit = true := fun _ hIn =>
  Nat.isDigit_of_mem_toDigits (by decide) (by decide) hIn

/-- How many digits a number has. -/
theorem length_toDigits {n digits : Nat} (hDigits : 1 ≤ digits) (hLow : 10 ^ (digits - 1) ≤ n) (hHigh : n < 10 ^ digits) :
    (Nat.toDigits 10 n).length = digits := by
  have hMost : (Nat.toDigits 10 n).length ≤ digits := (Nat.length_toDigits_le_iff (by decide) (by omega)).mpr hHigh
  have hLeast : digits ≤ (Nat.toDigits 10 n).length := by
    by_contra hNot
    have hPos : 0 < (Nat.toDigits 10 n).length := Nat.length_toDigits_pos
    have hFewer := (Nat.length_toDigits_le_iff (by decide) (by omega)).mp (show (Nat.toDigits 10 n).length ≤ digits - 1 by omega)
    omega
  omega

/-- A decimal as it is written: the digits before and behind its point, and its
exponent. -/
structure Decimal where
  whole : List Char
  fraction : List Char
  exponent : Option Int

namespace Decimal

/-- The digits of an exponent, which are two at least. -/
def powerDigits (exponent : Int) : List Char :=
  let power := Nat.toDigits 10 exponent.natAbs
  if power.length < 2 then '0' :: power else power

/-- An exponent with its letter and sign. -/
def power : Option Int → List Char
  | none => []
  | some exponent => 'e' :: (if exponent < 0 then '-' else '+') :: powerDigits exponent

def chars (decimal : Decimal) : List Char :=
  decimal.whole ++ (if decimal.fraction = [] then [] else '.' :: decimal.fraction) ++ power decimal.exponent

def value (decimal : Decimal) : ℚ :=
  Nat.ofDigitChars 10 (decimal.whole ++ decimal.fraction) 0 *
    (10 : ℚ) ^ (decimal.exponent.getD 0 - decimal.fraction.length)

/-- It reads as a float: a leading zero is alone, and there is a point or an
exponent. -/
structure Sound (decimal : Decimal) : Prop where
  whole : ∀ c ∈ decimal.whole, c.isDigit = true
  begun : decimal.whole ≠ []
  zero : decimal.whole.head? = some '0' → decimal.whole = ['0']
  fraction : ∀ c ∈ decimal.fraction, c.isDigit = true
  marked : decimal.fraction = [] → decimal.exponent ≠ none

end Decimal

private theorem exponentSuffix_chars (exponent : Int) : (exponentSuffix exponent).toList =
    'e' :: (if exponent < 0 then '-' else '+') :: Decimal.powerDigits exponent := by
  have hLength : (toString exponent.natAbs).length = (Nat.toDigits 10 exponent.natAbs).length := by
    rw [Nat.toString_eq_ofList_toDigits, String.length_ofList]
  unfold exponentSuffix Decimal.powerDigits
  simp only [String.toList_append, hLength]
  rw [Nat.toString_eq_ofList_toDigits]
  split <;> split <;> simp

private theorem dropZeros_append (digits : List Char) :
    ∃ zeros, digits = dropZeros digits ++ List.replicate zeros '0' := by
  have hZeros : digits.reverse.takeWhile (· = '0') = List.replicate (digits.reverse.takeWhile (· = '0')).length '0' :=
    List.eq_replicate_of_mem fun c hIn => by simpa using List.mem_takeWhile_imp hIn
  refine ⟨(digits.reverse.takeWhile (· = '0')).length, ?_⟩
  have hSplit := congrArg List.reverse (List.takeWhile_append_dropWhile (p := (· = '0')) (l := digits.reverse))
  rw [List.reverse_append, List.reverse_reverse, hZeros, List.reverse_replicate] at hSplit
  exact hSplit.symm

private theorem pointed_chars (whole fraction : List Char) : (pointed whole fraction).toList =
    whole ++ if dropZeros fraction = [] then [] else '.' :: dropZeros fraction := by
  unfold pointed
  split
  · next hNone => simp [hNone]
  · next hSome =>
      rw [if_neg hSome, String.toList_ofList]

/-- Zeros behind digits are powers of ten. -/
theorem ofDigitChars_zeros (digits : List Char) (zeros : Nat) :
    Nat.ofDigitChars 10 (digits ++ List.replicate zeros '0') 0 = Nat.ofDigitChars 10 digits 0 * 10 ^ zeros := by
  rw [Nat.ofDigitChars_append, Nat.ofDigitChars_replicate_zero, Nat.mul_comm]

namespace Double

private theorem scaled (n zeros : Nat) (power : Int) :
    ((n * 10 ^ zeros : Nat) : ℚ) * (10 : ℚ) ^ power = n * (10 : ℚ) ^ (zeros + power) := by
  rw [zpow_add₀ (by norm_num), zpow_natCast]
  push_cast
  ring

/-- The text of a positive double is a decimal that reads as it. -/
theorem positive_decimal {x : ℚ} (hPos : 0 < x) (hDouble : nearest x = x) :
    ∃ decimal : Decimal, decimal.Sound ∧ (positiveRepr x).toList = decimal.chars ∧ nearest decimal.value = x := by
  obtain ⟨count, hCount, hLow, hHigh, hReads⟩ := shortest_spec hPos hDouble
  obtain ⟨mantissa, exponent, hShortest⟩ : ∃ mantissa exponent, shortest x = (mantissa, exponent) := ⟨_, _, rfl⟩
  unfold positiveRepr
  rw [hShortest] at hLow hHigh hReads ⊢
  dsimp only at hLow hHigh hReads ⊢
  have hText : (toString mantissa).toList = Nat.toDigits 10 mantissa := by
    rw [Nat.toString_eq_ofList_toDigits, String.toList_ofList]
  have hLength := length_toDigits hCount hLow hHigh
  have hNumber : Nat.ofDigitChars 10 (Nat.toDigits 10 mantissa) 0 = mantissa := Nat.ofDigitChars_ten_toDigits
  have hSome : Nat.toDigits 10 mantissa ≠ [] := Nat.toDigits_ne_nil
  have hZero : (Nat.toDigits 10 mantissa).head? ≠ some '0' := fun hHead =>
    head_toDigits (lt_of_lt_of_le (Nat.pow_pos (by decide)) hLow) _ hHead rfl
  have hDigits : ∀ c ∈ Nat.toDigits 10 mantissa, c.isDigit = true := toDigits_isDigit
  have hZeros : ∀ n, ∀ c ∈ List.replicate n '0', c.isDigit = true := fun n c hIn => by
    rw [List.eq_of_mem_replicate hIn]
    decide
  rw [hText]
  generalize Nat.toDigits 10 mantissa = digits at *
  have hTaken : ∀ n, 0 < n → (digits.take n).head? = digits.head? ∧ digits.take n ≠ [] := by
    intro n hPart
    obtain ⟨c, others, rfl⟩ := List.exists_cons_of_ne_nil hSome
    obtain ⟨n, rfl⟩ := Nat.exists_eq_succ_of_ne_zero hPart.ne'
    exact ⟨rfl, by simp⟩
  have hTakenDigits : ∀ n, ∀ c ∈ digits.take n, c.isDigit = true := fun n c hIn => hDigits c (List.mem_of_mem_take hIn)
  split
  · next hRange =>
      by_cases hShort : digits.length ≤ exponent.toNat + 1
      · refine ⟨⟨digits ++ List.replicate (exponent.toNat + 1 - digits.length) '0', ['0'], none⟩,
          ⟨List.forall_mem_append.mpr ⟨hDigits, hZeros _⟩, by simp [hSome], fun hHead => ?_,
            List.forall_mem_singleton.mpr (by decide), nofun⟩, ?_, ?_⟩
        · rw [List.head?_append_of_ne_nil _ hSome] at hHead
          exact absurd hHead hZero
        · rw [String.toList_ofList, List.take_of_length_le hShort, if_pos hShort]
          simp [Decimal.chars, Decimal.power]
        · have hJoined : digits ++ List.replicate (exponent.toNat + 1 - digits.length) '0' ++ ['0'] =
              digits ++ List.replicate (exponent.toNat + 1 - digits.length + 1) '0' := by
            rw [List.append_assoc, List.replicate_succ']
          have hPower : ((exponent.toNat + 1 - digits.length + 1 : Nat) : Int) + (0 - 1) = exponent + 1 - count := by omega
          rw [Decimal.value, hJoined, ofDigitChars_zeros, hNumber]
          simp only [Option.getD_none, List.length_singleton, Nat.cast_one]
          rw [scaled, hPower, hReads]
      · refine ⟨⟨digits.take (exponent.toNat + 1), digits.drop (exponent.toNat + 1), none⟩,
          ⟨hTakenDigits _, (hTaken _ (by omega)).2, fun hHead => ?_, fun c hIn => hDigits c (List.mem_of_mem_drop hIn),
            fun hNone => ?_⟩, ?_, ?_⟩
        · rw [(hTaken _ (by omega)).1] at hHead
          exact absurd hHead hZero
        · rw [List.drop_eq_nil_iff] at hNone
          exact absurd hNone hShort
        · rw [String.toList_ofList, if_neg hShort, Nat.sub_eq_zero_of_le (by omega)]
          simp [Decimal.chars, Decimal.power, hShort]
        · have hPower : (0 : Int) - ((digits.length - (exponent.toNat + 1) : Nat) : Int) = exponent + 1 - count := by omega
          rw [Decimal.value, List.take_append_drop, hNumber]
          simp only [Option.getD_none, List.length_drop]
          rw [hPower, hReads]
  · split
    · next hRange =>
        refine ⟨⟨['0'], List.replicate ((-exponent).toNat - 1) '0' ++ digits, none⟩,
          ⟨List.forall_mem_singleton.mpr (by decide), by simp, fun _ => rfl, List.forall_mem_append.mpr ⟨hZeros _, hDigits⟩, fun hNone => ?_⟩, ?_, ?_⟩
        · exact absurd (List.append_eq_nil_iff.mp hNone).2 hSome
        · rw [String.toList_ofList]
          simp [Decimal.chars, Decimal.power, hSome]
        · have hLeading : Nat.ofDigitChars 10 (['0'] ++ (List.replicate ((-exponent).toNat - 1) '0' ++ digits)) 0 = mantissa := by
            rw [Nat.ofDigitChars_append, Nat.ofDigitChars_append, Nat.ofDigitChars_replicate_zero]
            exact hNumber
          have hPower : (0 : Int) - (((-exponent).toNat - 1 + digits.length : Nat) : Int) = exponent + 1 - count := by omega
          rw [Decimal.value, hLeading]
          simp only [Option.getD_none, List.length_append, List.length_replicate]
          rw [hPower, hReads]
    · obtain ⟨zeros, hSplit⟩ := dropZeros_append (digits.drop 1)
      have hFraction : ∀ c ∈ dropZeros (digits.drop 1), c.isDigit = true := fun c hIn => by
        have hDropped : c ∈ digits.drop 1 := by
          rw [hSplit]
          exact List.mem_append_left _ hIn
        exact hDigits c (List.mem_of_mem_drop hDropped)
      refine ⟨⟨digits.take 1, dropZeros (digits.drop 1), some exponent⟩,
        ⟨hTakenDigits 1, (hTaken 1 Nat.one_pos).2, fun hHead => ?_, hFraction, nofun⟩, ?_, ?_⟩
      · rw [(hTaken 1 Nat.one_pos).1] at hHead
        exact absurd hHead hZero
      · rw [String.toList_append, pointed_chars, exponentSuffix_chars]
        rfl
      · have hJoined : digits = digits.take 1 ++ dropZeros (digits.drop 1) ++ List.replicate zeros '0' := by
          rw [List.append_assoc, ← hSplit, List.take_append_drop]
        have hMantissa : Nat.ofDigitChars 10 (digits.take 1 ++ dropZeros (digits.drop 1)) 0 * 10 ^ zeros = mantissa := by
          rw [← ofDigitChars_zeros, ← hJoined, hNumber]
        have hDropped := congrArg List.length hSplit
        rw [List.length_drop, List.length_append, List.length_replicate] at hDropped
        have hPower : (zeros : Int) + (exponent + 1 - count) = exponent - (dropZeros (digits.drop 1)).length := by omega
        rw [← hMantissa, scaled, hPower] at hReads
        rw [Decimal.value]
        exact hReads

theorem ofRat_pos {x y : ℚ} (hPos : 0 < y) (hNearest : nearest y = x) (hSmall : x < doubleLimit) :
    ofRat y = .finite x := by
  unfold ofRat
  rw [if_neg hPos.ne']
  simp only [if_neg (not_lt.mpr hPos.le), hNearest, if_neg (not_le.mpr hSmall)]

theorem nearest_of_ofRat {x : ℚ} (hPos : 0 < x) (h : ofRat x = .finite x) : nearest x = x ∧ x < doubleLimit := by
  unfold ofRat at h
  rw [if_neg hPos.ne'] at h
  simp only [if_neg (not_lt.mpr hPos.le)] at h
  split at h
  · cases h
  · next hSmall =>
      have hSame := Double.finite.inj h
      exact ⟨hSame, by rw [hSame] at hSmall; exact not_le.mp hSmall⟩

/-- The text of a positive double, and what reads it. -/
theorem repr_positive {x : ℚ} (hPos : 0 < x) (h : ofRat x = .finite x) :
    ∃ decimal : Decimal, decimal.Sound ∧ (repr (.finite x)).toList = decimal.chars ∧ ofRat decimal.value = .finite x := by
  obtain ⟨hDouble, hSmall⟩ := nearest_of_ofRat hPos h
  obtain ⟨decimal, hSound, hText, hReads⟩ := positive_decimal hPos hDouble
  refine ⟨decimal, hSound, ?_, ofRat_pos ?_ hReads hSmall⟩
  · rw [repr, if_neg hPos.ne', if_neg (not_lt.mpr hPos.le), hText]
  · have hZero : nearest 0 = 0 := by
      have hRound : roundHalfEven 0 = 0 := roundHalfEven_near (by norm_num)
      simp [nearest, hRound]
    have hLeast : 0 ≤ decimal.value := mul_nonneg (Nat.cast_nonneg _) (zpow_nonneg (by norm_num) _)
    rcases hLeast.lt_or_eq with hMore | hNone
    · exact hMore
    · rw [← hNone, hZero] at hReads
      exact absurd hReads hPos.ne

/-- The opposite of a negative double is a double. -/
theorem ofRat_neg {x : ℚ} (hNegative : x < 0) (h : ofRat x = .finite x) : ofRat (-x) = .finite (-x) := by
  have hPos := neg_pos.mpr hNegative
  unfold ofRat at h
  rw [if_neg hNegative.ne] at h
  simp only [if_pos hNegative] at h
  split at h
  · cases h
  · next hSmall =>
      have hSame := neg_eq_iff_eq_neg.mp (Double.finite.inj h)
      exact ofRat_pos hPos hSame (by rw [hSame] at hSmall; exact not_le.mp hSmall)

theorem repr_negative {x : ℚ} (hNegative : x < 0) : repr (.finite x) = "-" ++ repr (.finite (-x)) := by
  have hPos := neg_pos.mpr hNegative
  rw [repr, if_neg hNegative.ne, if_pos hNegative, repr, if_neg hPos.ne', if_neg (not_lt.mpr hPos.le)]

/-- Below `2 ^ 53` every natural number is a double. -/
theorem ofRat_natural {n : Nat} (hPos : 0 < n) (hSmall : n < 2 ^ 53) : ofRat n = .finite n := by
  have hCast : (0 : ℚ) < n := by exact_mod_cast hPos
  obtain ⟨hLow, -⟩ := binaryExponent_bounds hCast
  have hExponent : binaryExponent (n : ℚ) < 53 := by
    refine zpow_lt_two.mp (hLow.trans_lt ?_)
    exact_mod_cast hSmall
  have hMultiple : (n : ℚ) = ((n * 2 ^ (0 - max (binaryExponent (n : ℚ) - 52) (-1074)).toNat : Nat) : Int) *
      (2 : ℚ) ^ max (binaryExponent (n : ℚ) - 52) (-1074) := by
    have hOne := multiple_of_le (show max (binaryExponent (n : ℚ) - 52) (-1074) ≤ 0 by omega)
    push_cast at hOne ⊢
    rw [mul_assoc, ← hOne, mul_one]
  refine ofRat_pos hCast (nearest_of_near hMultiple ?_) ?_
  · rw [sub_self, abs_zero]
    exact half_pos (zpow_pos (by norm_num) _)
  · exact_mod_cast small_lt_doubleLimit hSmall

/-- A finite double: one that rounding leaves as it is. -/
def IsFinite : Double → Prop
  | .finite x => ofRat x = .finite x
  | .negativeZero => True
  | .infinite _ | .nan => False

end Double

end Decimals
end Pazuzu.Python
