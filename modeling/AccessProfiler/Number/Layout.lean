import AccessProfiler.Number.Rounding

/-!
# Binary floating point numbers

A floating point number is its bit pattern: a sign, a biased exponent and a fraction.  A `Layout`
says how many bits the last two have; `Layout.decode` reads a pattern as a significand times a power
of two, and `Layout.nearest` finds the pattern of the number nearest to a quotient of natural
numbers, ties to the even significand.
-/

namespace AccessProfiler.Number

/-- The widths of the fraction and of the exponent. -/
structure Layout where
  fractionBits : Nat
  exponentBits : Nat
deriving DecidableEq

namespace Layout

/-- Thirty-two bits: twenty-three of fraction, eight of exponent. -/
def single : Layout := ⟨23, 8⟩

/-- Sixty-four bits: fifty-two of fraction, eleven of exponent. -/
def double : Layout := ⟨52, 11⟩

/-- The exponent of the last place of the smallest numbers. -/
def leastExponent (layout : Layout) : Int :=
  2 - (Nat.pow 2 (layout.exponentBits - 1) : Nat) - layout.fractionBits

/-- The largest biased exponent, kept for infinities and for results that are no number. -/
def topExponent (layout : Layout) : Nat :=
  Nat.pow 2 layout.exponentBits - 1

/-- The pattern of positive infinity. -/
def infinity (layout : Layout) : Nat :=
  layout.topExponent * Nat.pow 2 layout.fractionBits

/-- The pattern whose only set bit is the sign. -/
def signBit (layout : Layout) : Nat :=
  Nat.pow 2 (layout.fractionBits + layout.exponentBits)

end Layout

/-- What the magnitude of a bit pattern says. -/
inductive Magnitude
  /-- The number `significand * 2 ^ exponent`. -/
  | finite (significand : Nat) (exponent : Int)
  | infinite
  | notANumber
deriving DecidableEq

namespace Layout

/-- The sign is set. -/
def isNegative (layout : Layout) (pattern : Nat) : Bool :=
  layout.signBit ≤ pattern

/-- The magnitude that a bit pattern stands for. -/
def decode (layout : Layout) (pattern : Nat) : Magnitude :=
  let fraction := pattern % Nat.pow 2 layout.fractionBits
  let biased := pattern / Nat.pow 2 layout.fractionBits % Nat.pow 2 layout.exponentBits
  if biased = 0 then
    .finite fraction layout.leastExponent
  else if biased = layout.topExponent then
    if fraction = 0 then .infinite else .notANumber
  else
    .finite (fraction + Nat.pow 2 layout.fractionBits) (layout.leastExponent + (biased - 1 : Nat))

/-- The largest power of two that does not exceed a positive quotient. -/
def floorLog2 (numerator denominator : Nat) : Int :=
  let guess : Int := (numerator.log2 : Int) - denominator.log2
  if numerator * Nat.pow 2 (-guess).toNat < denominator * Nat.pow 2 guess.toNat then guess - 1
  else guess

/-- The pattern of the number nearest to a quotient; infinity beyond the largest number. -/
def nearest (layout : Layout) (numerator denominator : Nat) : Nat :=
  if numerator = 0 then 0
  else
    let exponent :=
      max layout.leastExponent (floorLog2 numerator denominator - layout.fractionBits)
    let significand :=
      roundHalfEven (numerator * Nat.pow 2 (-exponent).toNat)
        (denominator * Nat.pow 2 exponent.toNat)
    let pattern :=
      (exponent - layout.leastExponent).toNat * Nat.pow 2 layout.fractionBits + significand
    min pattern layout.infinity

/-- The pattern nearest to `coefficient * 10 ^ exponent`.  A coefficient of so many digits that the
number lies far outside of the layout is not multiplied out. -/
def ofDecimal (layout : Layout) (coefficient : Nat) (exponent : Int) : Nat :=
  let reach : Int := Int.pow 2 layout.exponentBits
  let digits : Int := (Nat.toDigits 10 coefficient).length
  if coefficient = 0 ∨ exponent + digits < -reach then 0
  else if reach < exponent then layout.infinity
  else layout.nearest (coefficient * Nat.pow 10 exponent.toNat) (Nat.pow 10 (-exponent).toNat)

end Layout
end AccessProfiler.Number
