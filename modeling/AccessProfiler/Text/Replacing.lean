/-!
# Replacing parts of names

Generated names are made from the spellings of types and methods: points and angle brackets are left
out, and the brackets of an array are spelled as a word.
-/

namespace AccessProfiler.Text

/-- The text without certain characters. -/
def without (left : List Char) (text : String) : String :=
  String.ofList (text.toList.filter fun character => !left.contains character)

/-- The characters with each pair of brackets spelled as a word. -/
def spellBracketsIn (word : List Char) : List Char → List Char
  | '[' :: ']' :: rest => word ++ spellBracketsIn word rest
  | character :: rest => character :: spellBracketsIn word rest
  | [] => []

/-- The text with each pair of brackets spelled as a word. -/
def spellBrackets (word text : String) : String :=
  String.ofList (spellBracketsIn word.toList text.toList)

/-- The text without an ending; the whole text if it does not end so. -/
def withoutEnding (ending text : String) : String :=
  let reversed := text.toList.reverse
  let length := ending.toList.length
  if ending.toList.reverse.isPrefixOf reversed then String.ofList (reversed.drop length).reverse
  else text

end AccessProfiler.Text
