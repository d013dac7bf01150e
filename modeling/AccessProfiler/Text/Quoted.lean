import AccessProfiler.Text.Unprintable

/-!
# Quoted texts

A text in a listing stands between quotation marks.  A quotation mark or backslash in it follows a
backslash, five controls have short names, every other character without a glyph is spelled
`\u{hex}`, and the rest stands for itself.
-/

namespace AccessProfiler.Text

/-- The lower-case hexadecimal digits of a number. -/
def hexadecimal (number : Nat) : String :=
  String.ofList (Nat.toDigits 16 number)

/-- The spelling of one character between quotation marks. -/
def quotedCharacter (character : Char) : String :=
  match character with
  | '"' => "\\\""
  | '\\' => "\\\\"
  | '\n' => "\\n"
  | '\r' => "\\r"
  | '\t' => "\\t"
  | '\x00' => "\\0"
  | other =>
    if isUnprintable other then
      "\\u\x7b" ++ hexadecimal other.toNat ++ "\x7d"
    else
      other.toString

/-- The text between quotation marks. -/
def quote (text : String) : String :=
  "\"" ++ String.join (text.toList.map quotedCharacter) ++ "\""

end AccessProfiler.Text
