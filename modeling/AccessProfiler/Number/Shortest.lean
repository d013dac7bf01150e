import AccessProfiler.Number.Binary

/-!
# The shortest decimal of a binary number

Among the decimals that are nearer to a binary number than to its neighbours, `shortest` takes one
with the fewest digits, and of those the nearest; of two equally near the larger.  The candidates
with a given number of digits are the two points of that decimal grid around the number, and the
grids are tried from the coarsest on.
-/

namespace AccessProfiler.Number

/-- The number `coefficient * 10 ^ exponent`. -/
structure Decimal where
  coefficient : Nat
  exponent : Int
deriving DecidableEq

/-- A positive number `value / unit` and the distances, in the same unit, within which a decimal
still reads back as the number; `closed` says that the ends of that interval count. -/
structure Neighbourhood where
  value : Nat
  below : Nat
  above : Nat
  unit : Nat
  closed : Bool

namespace Neighbourhood

/-- The interval of reals that round to `significand * 2 ^ exponent`.  Below a power of two the
numbers lie twice as dense, except among the smallest. -/
def ofBinary
    (layout : Layout)
    (significand : Nat)
    (exponent : Int) : Neighbourhood :=
  let scale := Nat.pow 2 exponent.toNat
  let narrow :=
    significand = Nat.pow 2 layout.fractionBits && layout.leastExponent < exponent
  { value := 4 * significand * scale
    below := if narrow then scale else 2 * scale
    above := 2 * scale
    unit := 4 * Nat.pow 2 (-exponent).toNat
    closed := significand % 2 = 0 }

/-- A decimal, given as `point / unit` over the same unit, reads back as the number. -/
def covers (neighbourhood : Neighbourhood) (point scale : Nat) : Bool :=
  let value := neighbourhood.value * scale
  let low := value - neighbourhood.below * scale
  let high := value + neighbourhood.above * scale
  if neighbourhood.closed then low ≤ point && point ≤ high else low < point && point < high

/-- The decimal with spacing `10 ^ exponent` that reads back as the number, if there is one: the
nearer of the two grid points around the number, the upper one if both are equally near. -/
def onGrid? (neighbourhood : Neighbourhood) (exponent : Int) : Option Decimal :=
  let step := neighbourhood.unit * Nat.pow 10 exponent.toNat
  let scale := Nat.pow 10 (-exponent).toNat
  let value := neighbourhood.value * scale
  let lower := value / step
  let lowerCovered := neighbourhood.covers (lower * step) scale
  let upperCovered := neighbourhood.covers ((lower + 1) * step) scale
  let upperNearer := step ≤ 2 * (value % step)
  if upperCovered && (upperNearer || !lowerCovered) then some ⟨lower + 1, exponent⟩
  else if lowerCovered then some ⟨lower, exponent⟩
  else none

/-- The least exponent `e` with `value / unit < 10 ^ e`, found by counting digits. -/
def decimalExponent (neighbourhood : Neighbourhood) : Int :=
  let guess : Int :=
    ((Nat.toDigits 10 neighbourhood.value).length : Int) -
      (Nat.toDigits 10 neighbourhood.unit).length
  if neighbourhood.value * Nat.pow 10 (-guess).toNat <
      neighbourhood.unit * Nat.pow 10 guess.toNat then guess
  else guess + 1

/-- Try the grids from `exponent` downwards, `grids` of them. -/
def search (neighbourhood : Neighbourhood) (exponent : Int) : Nat → Decimal
  | 0 => ⟨0, 0⟩
  | grids + 1 =>
    match neighbourhood.onGrid? exponent with
    | some decimal => decimal
    | none => search neighbourhood (exponent - 1) grids

end Neighbourhood

/-- Seventeen digits tell any two doubles apart. -/
def mostDigits : Nat := 17

/-- The shortest decimal that reads back as `significand * 2 ^ exponent`. -/
def shortest
    (layout : Layout)
    (significand : Nat)
    (exponent : Int) : Decimal :=
  if significand = 0 then ⟨0, 0⟩
  else
    let neighbourhood := Neighbourhood.ofBinary layout significand exponent
    neighbourhood.search (neighbourhood.decimalExponent - 1) mostDigits

end AccessProfiler.Number
