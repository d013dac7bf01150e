/-!
# Cutting texts

Cutting a text at every occurrence of a separator, and reading the digits of base sixteen.
-/

namespace AccessProfiler.Text

/-- The parts between the separators; one more than there are separators. -/
def splitAll (separator : Char) : List Char → List (List Char)
  | [] => [[]]
  | character :: rest =>
    if character = separator then [] :: splitAll separator rest
    else
      match splitAll separator rest with
      | part :: parts => (character :: part) :: parts
      | [] => [[character]]

/-- The value of a hexadecimal digit of either case. -/
def hexadecimalDigit? (character : Char) : Option Nat :=
  if character.isDigit then some (character.toNat - '0'.toNat)
  else if 'a' ≤ character ∧ character ≤ 'f' then some (character.toNat - 'a'.toNat + 10)
  else if 'A' ≤ character ∧ character ≤ 'F' then some (character.toNat - 'A'.toNat + 10)
  else none

/-- The number that hexadecimal digits spell; at least one has to be there. -/
def ofHexadecimal? (digits : List Char) : Option Nat :=
  if digits.isEmpty then none
  else (digits.mapM hexadecimalDigit?).map fun values =>
    values.foldl (fun number digit => 16 * number + digit) 0

end AccessProfiler.Text
