import AccessProfiler.Json.Basic
import AccessProfiler.Number.Display
import AccessProfiler.Text.Quoted

/-!
# Writing JSON text

The text of a value on one line, without blanks.  A floating point number is written with the digits
of its shortest decimal, and as null if it is not finite.
-/

namespace AccessProfiler.Json

open Number

/-- The spelling of one character of a string. -/
def writtenCharacter (character : Char) : String :=
  match character with
  | '"' => "\\\""
  | '\\' => "\\\\"
  | '\n' => "\\n"
  | '\r' => "\\r"
  | '\t' => "\\t"
  | other =>
    if other.toNat < 0x20 then
      let digits := Text.hexadecimal other.toNat
      "\\u" ++ String.ofList (List.replicate (4 - digits.length) '0') ++ digits
    else
      other.toString

/-- The text of a string, between quotation marks. -/
def writtenString (text : String) : String :=
  "\"" ++ String.join (text.toList.map writtenCharacter) ++ "\""

mutual

/-- The text of a value. -/
def render : Json → String
  | .null => "null"
  | .bool value => if value then "true" else "false"
  | .integer value => toString value
  | .single value =>
    match value.magnitude with
    | .finite _ _ => value.structuralText
    | _ => "null"
  | .double value => if value.isFinite then value.structuralText else "null"
  | .string text => writtenString text
  | .array elements => "[" ++ renderElements elements ++ "]"
  | .object members => "\x7b" ++ renderMembers members ++ "\x7d"

/-- The elements of an array, separated by commas. -/
def renderElements : List Json → String
  | [] => ""
  | [element] => render element
  | element :: rest => render element ++ "," ++ renderElements rest

/-- The members of an object, separated by commas. -/
def renderMembers : List (String × Json) → String
  | [] => ""
  | [(name, member)] => writtenString name ++ ":" ++ render member
  | (name, member) :: rest =>
    writtenString name ++ ":" ++ render member ++ "," ++ renderMembers rest

end

end AccessProfiler.Json
