import AccessProfiler.Language.Structure

/-!
# Data

What locals, fields and array elements hold while a program runs.
-/

namespace AccessProfiler

open Number

/-- A datum; a reference is the position of an object on the heap. -/
inductive Datum
  | void
  | int (value : Int32)
  | long (value : Int64)
  | float (value : Binary32)
  | double (value : Binary64)
  | str (value : String)
  | null
  | reference (slot : Nat)
deriving DecidableEq

namespace Datum

instance : Inhabited Datum := ⟨.void⟩

/-- What a variable of a type holds before anything is stored in it. -/
def zero (type : Ty) : Datum :=
  match type with
  | .void => .void
  | .long => .long 0
  | .float => .float .zero
  | .double => .double .zero
  | .boolean | .byte | .char | .short | .int => .int 0
  | .null | .object _ | .array _ => .null

/-- The datum that a literal stands for. -/
def ofConstant : Constant → Datum
  | .int value => .int value
  | .long value => .long value
  | .float value => .float value
  | .double value => .double value
  | .str value => .str value
  | .null => .null

def isNull : Datum → Bool
  | .null => true
  | _ => false

/-- The text of a datum; a text is its own. -/
def render : Datum → String
  | .void => "void"
  | .int value => toString value.toInt
  | .long value => toString value.toInt
  | .float value => value.text
  | .double value => value.text
  | .str value => value
  | .null => "null"
  | .reference slot => "@" ++ toString slot

def structuralText : Datum → String
  | .void => "Void"
  | .int value => "Int(" ++ toString value.toInt ++ ")"
  | .long value => "Long(" ++ toString value.toInt ++ ")"
  | .float value => "Float(" ++ value.structuralText ++ ")"
  | .double value => "Double(" ++ value.structuralText ++ ")"
  | .str value => "Str(" ++ Text.quote value ++ ")"
  | .null => "Null"
  | .reference slot => "Ref(HeapRef(" ++ toString slot ++ "))"

end Datum
end AccessProfiler
