import AccessProfiler.Language.Ty
import AccessProfiler.Text.Alphanumeric

/-!
# Reading types

A written type is a name followed by any number of `[]`, with blanks allowed around the name and
before each `[]`.  The name is a keyword or a class name: letters, numbers, `_` and `$`, in parts
separated by single points.  There are no arrays of `void` and none of `null`.
-/

namespace AccessProfiler

/-- The type that a keyword names. -/
def Ty.ofKeyword? (spelling : String) : Option Ty :=
  match spelling with
  | "void" => some .void
  | "boolean" => some .boolean
  | "byte" => some .byte
  | "char" => some .char
  | "short" => some .short
  | "int" => some .int
  | "long" => some .long
  | "float" => some .float
  | "double" => some .double
  | "null" => some .null
  | _ => none

/-- The character may stand in a class name. -/
def isNameCharacter (character : Char) : Bool :=
  Text.isAlphanumeric character || character == '.' || character == '_' || character == '$'

/-- Two points stand next to each other. -/
def hasDoublePoint : List Char → Bool
  | '.' :: '.' :: _ => true
  | _ :: rest => hasDoublePoint rest
  | [] => false

/-- The text is the name of a class. -/
def isClassName (name : List Char) : Bool :=
  !name.isEmpty && name.head? != some '.' && name.getLast? != some '.' && !hasDoublePoint name &&
    name.all isNameCharacter

namespace Ty

/-- The type that a name without blanks around it stands for; a failure names the name. -/
def ofName (name : List Char) : Except String Ty :=
  let spelling := String.ofList name
  match ofKeyword? spelling with
  | some keyword => .ok keyword
  | none => if isClassName name then .ok (.object spelling) else .error spelling

/-- The array of an element, unless there is none; a failure names the text of the array, which is
given from its last character to its first. -/
def ofElement (reversed : List Char) : Ty → Except String Ty
  | .void | .null => .error (String.ofList reversed.reverse)
  | element => .ok (.array element)

/-- Read a type from its last character to its first, which is no blank.  Blanks at the end are
skipped, a closing `[]` makes an array of what stands in front of it, and the rest is a name. -/
def parseReversed : List Char → Except String Ty
  | [] => ofName []
  | ']' :: '[' :: rest => do ofElement (']' :: '[' :: rest) (← parseReversed rest)
  | last :: rest =>
    if Text.isBlank last then parseReversed rest else ofName (last :: rest).reverse

/-- Read a type from its source spelling.  What cannot be read is reported as the trimmed text in
which the fault lies: the whole text for an array of `void`, the text before the brackets for a bad
name. -/
def parse (text : String) : Except String Ty :=
  parseReversed (Text.trimLeft text.toList).reverse

end Ty
end AccessProfiler
