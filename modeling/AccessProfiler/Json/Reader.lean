import AccessProfiler.Json.Basic
import AccessProfiler.Text.Splitting

/-!
# Reading JSON text

A recursive descent over the characters of a text.  Each function takes the characters that are
left and gives back what it did not use; `depth` bounds the nesting, and a text is never nested
deeper than it is long.
-/

namespace AccessProfiler.Json.Reader

open Number

/-- Drop the blanks that JSON allows between tokens. -/
def skipBlanks (text : List Char) : List Char :=
  text.dropWhile fun character =>
    character == ' ' || character == '\n' || character == '\r' || character == '\t'

/-- The digits in front, and the rest. -/
def digits (text : List Char) : List Char × List Char :=
  text.span Char.isDigit

/-- The number that decimal digits spell. -/
def ofDigits (digits : List Char) : Nat :=
  digits.foldl (fun value digit => 10 * value + (digit.toNat - '0'.toNat)) 0

/-- The digits after a point, if there is one; at least one has to follow. -/
def fraction (text : List Char) : Option (List Char × List Char) :=
  match text with
  | '.' :: rest =>
    let (found, rest) := digits rest
    if found.isEmpty then none else some (found, rest)
  | _ => some ([], text)

/-- The exponent, if there is one. -/
def exponent (text : List Char) : Option (Option Int × List Char) :=
  let magnitude (sign : Int) (text : List Char) : Option (Option Int × List Char) :=
    let (found, rest) := digits text
    if found.isEmpty then none else some (some (sign * ofDigits found), rest)
  let signed (text : List Char) : Option (Option Int × List Char) :=
    match text with
    | '+' :: rest => magnitude 1 rest
    | '-' :: rest => magnitude (-1) rest
    | _ => magnitude 1 text
  match text with
  | 'e' :: rest => signed rest
  | 'E' :: rest => signed rest
  | _ => some (none, text)

/-- An integer of sixty-four bits, signed or unsigned.  Negative zero is none: it keeps its sign as
a floating point number. -/
def fitsInteger (negative : Bool) (magnitude : Nat) : Bool :=
  if negative then 0 < magnitude && magnitude ≤ Nat.pow 2 63 else magnitude < Nat.pow 2 64

/-- A number.  One too large for a double is no number. -/
def number (text : List Char) : Option (Json × List Char) := do
  let (negative, unsigned) :=
    match text with
    | '-' :: rest => (true, rest)
    | _ => (false, text)
  let (whole, rest) := digits unsigned
  if whole.isEmpty || (whole.length > 1 && whole.head? == some '0') then none
  let (places, rest) ← fraction rest
  let (power, rest) ← exponent rest
  let magnitude := ofDigits whole
  if places.isEmpty && power.isNone && fitsInteger negative magnitude then
    return (.integer (if negative then -(magnitude : Int) else magnitude), rest)
  let value :=
    Binary64.ofDecimal negative (ofDigits (whole ++ places)) (power.getD 0 - places.length)
  if value.isFinite then return (.double value, rest) else none

/-- The unit is the first of the two that make a character beyond sixteen bits. -/
def isLeading (unit : Nat) : Bool :=
  0xd800 ≤ unit && unit < 0xdc00

/-- The unit is the second of two. -/
def isTrailing (unit : Nat) : Bool :=
  0xdc00 ≤ unit && unit < 0xe000

/-- The character of two units. -/
def paired (leading trailing : Nat) : Char :=
  Char.ofNat (0x10000 + (leading - 0xd800) * 0x400 + (trailing - 0xdc00))

/-- The character that a letter after a backslash stands for. -/
def escapedLetter : Char → Option Char
  | '"' => some '"'
  | '\\' => some '\\'
  | '/' => some '/'
  | 'b' => some '\x08'
  | 'f' => some '\x0c'
  | 'n' => some '\n'
  | 'r' => some '\r'
  | 't' => some '\t'
  | _ => none

/-- The rest of a string after its opening quotation mark; `read` are the characters before it, the
last one first. -/
def stringBody (read : List Char) : List Char → Option (String × List Char)
  | [] => none
  | '"' :: rest => some (String.ofList read.reverse, rest)
  | '\\' :: 'u' :: a :: b :: c :: d :: rest =>
    match Text.ofHexadecimal? [a, b, c, d] with
    | none => none
    | some unit =>
      if isTrailing unit then none
      else if isLeading unit then
        match rest with
        | '\\' :: 'u' :: e :: f :: g :: h :: rest =>
          match Text.ofHexadecimal? [e, f, g, h] with
          | none => none
          | some next => if isTrailing next then stringBody (paired unit next :: read) rest else none
        | _ => none
      else stringBody (Char.ofNat unit :: read) rest
  | '\\' :: letter :: rest =>
    match escapedLetter letter with
    | none => none
    | some character => stringBody (character :: read) rest
  | character :: rest =>
    if character.toNat < 0x20 then none else stringBody (character :: read) rest

/-- A string. -/
def string : List Char → Option (String × List Char)
  | '"' :: rest => stringBody [] rest
  | _ => none

/-- A fixed word in front of the text. -/
def word (spelling : String) (value : Json) (text : List Char) : Option (Json × List Char) :=
  if spelling.toList.isPrefixOf text then some (value, text.drop spelling.length) else none

/-- Put a member in front of those read before it, in the place of an earlier one of its name. -/
def insert
    (name : String)
    (member : Json)
    (read : List (String × Json)) : List (String × Json) :=
  (name, member) :: read.filter fun entry => entry.1 != name

mutual

/-- A value nested at most `depth` deep, blanks before it skipped. -/
def value : Nat → List Char → Option (Json × List Char)
  | 0, _ => none
  | depth + 1, text =>
    let text := skipBlanks text
    match text with
    | '[' :: rest =>
      match skipBlanks rest with
      | ']' :: rest => some (.array [], rest)
      | _ => elements depth [] rest
    | '\x7b' :: rest =>
      match skipBlanks rest with
      | '\x7d' :: rest => some (.object [], rest)
      | _ => members depth [] rest
    | '"' :: _ => do
      let (text, rest) ← string text
      return (.string text, rest)
    | 't' :: _ => word "true" (.bool true) text
    | 'f' :: _ => word "false" (.bool false) text
    | 'n' :: _ => word "null" .null text
    | _ => number text

/-- The elements of an array up to its closing bracket. -/
def elements : Nat → List Json → List Char → Option (Json × List Char)
  | 0, _, _ => none
  | depth + 1, read, text => do
    let (element, rest) ← value depth text
    match skipBlanks rest with
    | ',' :: rest => elements depth (element :: read) rest
    | ']' :: rest => return (.array (element :: read).reverse, rest)
    | _ => none

/-- The members of an object up to its closing brace. -/
def members : Nat → List (String × Json) → List Char → Option (Json × List Char)
  | 0, _, _ => none
  | depth + 1, read, text => do
    let (name, rest) ← string (skipBlanks text)
    match skipBlanks rest with
    | ':' :: rest =>
      let (member, rest) ← value depth rest
      match skipBlanks rest with
      | ',' :: rest => members depth (insert name member read) rest
      | '\x7d' :: rest => return (.object (insert name member read).reverse, rest)
      | _ => none
    | _ => none

end

end Reader

/-- The value that a text spells, nothing but blanks around it. -/
def parse? (text : String) : Option Json := do
  let characters := text.toList
  let (value, rest) ← Reader.value (characters.length + 1) characters
  if (Reader.skipBlanks rest).isEmpty then some value else none

end AccessProfiler.Json
