/-!
# Blank characters

The white space of Unicode: twenty-five characters in ten ranges.  Type names and flag lists may
stand between blanks, which `trim` removes from both ends; the interior of a text is left alone.
-/

namespace AccessProfiler.Text

/-- The first and last code point of each run of white space. -/
def blankRanges : List (Nat × Nat) :=
  [(0x9, 0xd), (0x20, 0x20), (0x85, 0x85), (0xa0, 0xa0), (0x1680, 0x1680), (0x2000, 0x200a),
    (0x2028, 0x2029), (0x202f, 0x202f), (0x205f, 0x205f), (0x3000, 0x3000)]

/-- A code point lies in one of the given closed ranges. -/
def inRanges
    (ranges : List (Nat × Nat))
    (codePoint : Nat) : Bool :=
  ranges.any fun range => range.1 ≤ codePoint && codePoint ≤ range.2

/-- The character is white space. -/
def isBlank (character : Char) : Bool :=
  inRanges blankRanges character.toNat

/-- Remove the blanks in front. -/
def trimLeft (text : List Char) : List Char :=
  text.dropWhile isBlank

/-- Remove the blanks at the end. -/
def trimRight (text : List Char) : List Char :=
  (trimLeft text.reverse).reverse

/-- Remove the blanks at both ends. -/
def trim (text : List Char) : List Char :=
  trimRight (trimLeft text)

end AccessProfiler.Text
