import AccessProfiler.Number.Shortest

/-!
# The text of a floating point number

A number is written with the digits of its shortest decimal, without an exponent and without a
fraction that is zero: `1`, `0.1`, `-0`, `inf`, `-inf`, `NaN`.  Inside of the structural text of a
value the fraction has at least one digit, and numbers from `1e16` on or below `0.0001` are written
with an exponent.
-/

namespace AccessProfiler.Number

namespace Decimal

/-- Divide out the powers of ten, at most `limit` of them. -/
def normalize (coefficient : Nat) (exponent : Int) : Nat → Decimal
  | 0 => ⟨coefficient, exponent⟩
  | limit + 1 =>
    if coefficient % 10 = 0 ∧ coefficient ≠ 0 then
      normalize (coefficient / 10) (exponent + 1) limit
    else
      ⟨coefficient, exponent⟩

/-- The same number with the fewest digits. -/
def normalized (decimal : Decimal) : Decimal :=
  normalize decimal.coefficient decimal.exponent mostDigits

/-- The text of a number of `places` decimal places, `coefficient / 10 ^ places`, written with all
of its places. -/
def withPlaces (coefficient places : Nat) : String :=
  let digits := Nat.toDigits 10 coefficient
  let padded := List.replicate (places + 1 - digits.length) '0' ++ digits
  let whole := padded.take (padded.length - places)
  let fraction := padded.drop (padded.length - places)
  String.ofList (if fraction.isEmpty then whole else whole ++ '.' :: fraction)

/-- Write without an exponent, with at least `leastPlaces` decimal places. -/
def positional (leastPlaces : Nat) (decimal : Decimal) : String :=
  let reduced := decimal.normalized
  let places := max leastPlaces (-reduced.exponent).toNat
  withPlaces (reduced.coefficient * Nat.pow 10 (reduced.exponent + places).toNat) places

/-- The exponent of the leading digit. -/
def leadingExponent (decimal : Decimal) : Int :=
  decimal.exponent + (Nat.toDigits 10 decimal.coefficient).length - 1

/-- Write with one digit before the point and an exponent. -/
def scientific (decimal : Decimal) : String :=
  let reduced := decimal.normalized
  let places := (Nat.toDigits 10 reduced.coefficient).length - 1
  withPlaces reduced.coefficient places ++ "e" ++ toString reduced.leadingExponent

/-- Inside of structural texts: positional from `0.0001` up to below `1e16`. -/
def structural (decimal : Decimal) : String :=
  let exponent := decimal.normalized.leadingExponent
  if decimal.coefficient = 0 ∨ (-4 ≤ exponent ∧ exponent < 16) then decimal.positional 1
  else decimal.scientific

end Decimal

/-- The text of a signed magnitude, its digits written by `write`. -/
def magnitudeText
    (layout : Layout)
    (write : Decimal → String)
    (negative : Bool)
    (magnitude : Magnitude) : String :=
  let sign := if negative then "-" else ""
  match magnitude with
  | .finite significand exponent => sign ++ write (shortest layout significand exponent)
  | .infinite => sign ++ "inf"
  | .notANumber => "NaN"

def Binary32.text (number : Binary32) : String :=
  magnitudeText .single (Decimal.positional 0) number.isNegative number.magnitude

def Binary64.text (number : Binary64) : String :=
  magnitudeText .double (Decimal.positional 0) number.isNegative number.magnitude

def Binary32.structuralText (number : Binary32) : String :=
  magnitudeText .single Decimal.structural number.isNegative number.magnitude

def Binary64.structuralText (number : Binary64) : String :=
  magnitudeText .double Decimal.structural number.isNegative number.magnitude

/-- Write a finite magnitude with exactly `places` decimal places, its exact value rounded to the
nearest, halfway to even. -/
def fixedText (places significand : Nat) (exponent : Int) : String :=
  Decimal.withPlaces
    (roundHalfEven (significand * Nat.pow 2 exponent.toNat * Nat.pow 10 places)
      (Nat.pow 2 (-exponent).toNat))
    places

end AccessProfiler.Number
