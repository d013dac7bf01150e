import AccessProfiler.Text.Blank

/-!
# Searching texts

Cutting a text at the first or at the last occurrence of another one, into words, and into lines.
-/

namespace AccessProfiler.Text

/-- The text in front of the first occurrence of a pattern, and the text after it. -/
def cutFirst? (pattern : List Char) : List Char → Option (List Char × List Char)
  | [] => if pattern.isEmpty then some ([], []) else none
  | character :: rest =>
    if pattern.isPrefixOf (character :: rest) then
      some ([], (character :: rest).drop pattern.length)
    else
      (cutFirst? pattern rest).map fun (before, after) => (character :: before, after)

/-- The text in front of the last occurrence of a pattern, and the text after it. -/
def cutLast? (pattern text : List Char) : Option (List Char × List Char) :=
  (cutFirst? pattern.reverse text.reverse).map fun (after, before) =>
    (before.reverse, after.reverse)

/-- The text in front of an ending. -/
def beforeEnding? (ending text : List Char) : Option (List Char) :=
  if ending.reverse.isPrefixOf text.reverse then
    some (text.take (text.length - ending.length))
  else none

/-- The words that blanks separate. -/
def words (text : List Char) : List (List Char) :=
  let step (character : Char) (state : List Char × List (List Char)) :=
    let (word, found) := state
    if isBlank character then
      ([], if word.isEmpty then found else word :: found)
    else (character :: word, found)
  let (word, found) := text.foldr step ([], [])
  if word.isEmpty then found else word :: found

/-- Put an element in front of the first of several lists. -/
def pushFirst {Element : Type} (element : Element) : List (List Element) → List (List Element)
  | [] => [[element]]
  | line :: lines => (element :: line) :: lines

/-- The lines of a sequence.  A line ends with a line feed, which a carriage return may precede; the
last line may lack its end. -/
def linesOf
    {Element : Type}
    [DecidableEq Element]
    (carriageReturn lineFeed : Element) : List Element → List (List Element)
  | first :: second :: rest =>
    if first = carriageReturn ∧ second = lineFeed then
      [] :: linesOf carriageReturn lineFeed rest
    else if first = lineFeed then
      [] :: linesOf carriageReturn lineFeed (second :: rest)
    else
      pushFirst first (linesOf carriageReturn lineFeed (second :: rest))
  | [last] => if last = lineFeed then [[]] else [[last]]
  | [] => []

/-- The lines of a text. -/
def lines (text : List Char) : List (List Char) :=
  linesOf '\r' '\n' text

/-- The lines of some bytes. -/
def byteLines (bytes : List UInt8) : List (List UInt8) :=
  linesOf 13 10 bytes

end AccessProfiler.Text
