import AccessProfiler.Number.Binary

/-!
# Reading numerals

The numerals of log lines.  An integer is a run of digits that a sign may precede; a decimal may
have a point, with digits on either side of it, and an exponent, and may be one of the words for
infinity and for what is no number.  No blanks are allowed.
-/

namespace AccessProfiler.Number

/-- The number that a run of digits spells; at least one has to be there. -/
def digits? (text : List Char) : Option Nat :=
  if text.isEmpty || !text.all Char.isDigit then none
  else some (text.foldl (fun value digit => 10 * value + (digit.toNat - '0'.toNat)) 0)

/-- A natural number up to a limit, which a plus may precede. -/
def natural? (limit : Nat) (text : List Char) : Option Nat :=
  let unsigned :=
    match text with
    | '+' :: rest => rest
    | _ => text
  (digits? unsigned).filter fun value => value ≤ limit

/-- An integer of sixty-four bits. -/
def long? (text : List Char) : Option Int :=
  let value : Option Int :=
    match text with
    | '-' :: rest => (digits? rest).map fun value => -(value : Int)
    | '+' :: rest => (digits? rest).map Int.ofNat
    | _ => (digits? text).map Int.ofNat
  value.filter fun value => -Int.pow 2 63 ≤ value ∧ value < Int.pow 2 63

/-- An exponent, which either sign may precede. -/
def exponent? (text : List Char) : Option Int :=
  match text with
  | '-' :: rest => (digits? rest).map fun value => -(value : Int)
  | '+' :: rest => (digits? rest).map Int.ofNat
  | _ => (digits? text).map Int.ofNat

/-- A character of an exponent mark. -/
def isExponentMark (character : Char) : Bool :=
  character == 'e' || character == 'E'

/-- The double nearest to an unsigned decimal. -/
def decimal? (negative : Bool) (text : List Char) : Option Binary64 := do
  let mantissa := text.takeWhile fun character => !isExponentMark character
  let exponent ←
    match text.dropWhile fun character => !isExponentMark character with
    | _ :: rest => exponent? rest
    | [] => some 0
  let whole := mantissa.takeWhile (· != '.')
  let places := (mantissa.dropWhile (· != '.')).drop 1
  let coefficient ← digits? (whole ++ places)
  return Binary64.ofDecimal negative coefficient (exponent - places.length)

/-- The double that a numeral spells. -/
def double? (text : List Char) : Option Binary64 :=
  let (negative, unsigned) :=
    match text with
    | '-' :: rest => (true, rest)
    | '+' :: rest => (false, rest)
    | _ => (false, text)
  let lower := String.ofList (unsigned.map Char.toLower)
  if lower = "inf" ∨ lower = "infinity" then
    some (Binary64.ofPattern negative Layout.double.infinity)
  else if lower = "nan" then
    some (Binary64.ofPattern negative
      (Layout.double.infinity + Nat.pow 2 (Layout.double.fractionBits - 1)))
  else
    decimal? negative unsigned

end AccessProfiler.Number
