import AccessProfiler.Number.Layout

/-!
# Single and double precision

Constants and data of the two floating point types are bit patterns, so that two of them are equal
exactly when they are the same number, sign of zero included.  Addition, subtraction and
multiplication are those of the hardware.
-/

namespace AccessProfiler.Number

/-- A single precision number. -/
structure Binary32 where
  bits : UInt32
deriving DecidableEq

/-- A double precision number. -/
structure Binary64 where
  bits : UInt64
deriving DecidableEq

namespace Binary32

def isNegative (number : Binary32) : Bool :=
  Layout.single.isNegative number.bits.toNat

def magnitude (number : Binary32) : Magnitude :=
  Layout.single.decode number.bits.toNat

private def lift
    (operation : Float32 → Float32 → Float32)
    (left right : Binary32) : Binary32 :=
  ⟨(operation (Float32.ofBits left.bits) (Float32.ofBits right.bits)).toBits⟩

def add : Binary32 → Binary32 → Binary32 := lift (· + ·)
def sub : Binary32 → Binary32 → Binary32 := lift (· - ·)
def mul : Binary32 → Binary32 → Binary32 := lift (· * ·)

def zero : Binary32 := ⟨0⟩

/-- The single nearest to an integer. -/
def ofInt (value : Int) : Binary32 :=
  let pattern := Layout.single.nearest value.natAbs 1
  ⟨UInt32.ofNat (if value < 0 then Layout.single.signBit + pattern else pattern)⟩

end Binary32

namespace Binary64

def isNegative (number : Binary64) : Bool :=
  Layout.double.isNegative number.bits.toNat

def magnitude (number : Binary64) : Magnitude :=
  Layout.double.decode number.bits.toNat

private def lift
    (operation : Float → Float → Float)
    (left right : Binary64) : Binary64 :=
  ⟨(operation (Float.ofBits left.bits) (Float.ofBits right.bits)).toBits⟩

def add : Binary64 → Binary64 → Binary64 := lift (· + ·)
def sub : Binary64 → Binary64 → Binary64 := lift (· - ·)
def mul : Binary64 → Binary64 → Binary64 := lift (· * ·)

def zero : Binary64 := ⟨0⟩

/-- Attach a sign to the pattern of a magnitude. -/
def ofPattern (negative : Bool) (pattern : Nat) : Binary64 :=
  ⟨UInt64.ofNat (if negative then Layout.double.signBit + pattern else pattern)⟩

/-- The double nearest to an integer. -/
def ofInt (value : Int) : Binary64 :=
  ofPattern (value < 0) (Layout.double.nearest value.natAbs 1)

/-- The double nearest to a signed decimal. -/
def ofDecimal (negative : Bool) (coefficient : Nat) (exponent : Int) : Binary64 :=
  ofPattern negative (Layout.double.ofDecimal coefficient exponent)

def isFinite (number : Binary64) : Bool :=
  match number.magnitude with
  | .finite _ _ => true
  | .infinite => false
  | .notANumber => false

/-- The order of numbers; nothing is less than what is no number. -/
def lt (left right : Binary64) : Bool :=
  Float.ofBits left.bits < Float.ofBits right.bits

/-- Less or equal; zero and negative zero are equal. -/
def le (left right : Binary64) : Bool :=
  Float.ofBits left.bits ≤ Float.ofBits right.bits

/-- The single nearest to a double. -/
def toSingle (number : Binary64) : Binary32 :=
  let sign := if number.isNegative then Layout.single.signBit else 0
  let pattern :=
    match number.magnitude with
    | .finite significand exponent =>
      Layout.single.nearest (significand * Nat.pow 2 exponent.toNat)
        (Nat.pow 2 (-exponent).toNat)
    | .infinite => Layout.single.infinity
    | .notANumber => Layout.single.infinity + Nat.pow 2 (Layout.single.fractionBits - 1)
  ⟨UInt32.ofNat (sign + pattern)⟩

end Binary64
end AccessProfiler.Number
