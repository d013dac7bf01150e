/-!
# Types

The static types of a program: the primitive types, `void`, the type of `null`, classes and arrays.
The written form of a type is its source spelling, `int` or `java.lang.String[][]`.
-/

namespace AccessProfiler

/-- The class that every other class descends from. -/
def objectClass : String := "java.lang.Object"

/-- The class of texts. -/
def stringClass : String := "java.lang.String"

/-- A static type. -/
inductive Ty
  | void
  | boolean
  | byte
  | char
  | short
  | int
  | long
  | float
  | double
  /-- The type of the constant `null`. -/
  | null
  | object (name : String)
  | array (element : Ty)
deriving DecidableEq

namespace Ty

instance : Inhabited Ty := ⟨.void⟩

/-- The type of texts. -/
def string : Ty := .object stringClass

/-- The source spelling. -/
def render : Ty → String
  | .void => "void"
  | .boolean => "boolean"
  | .byte => "byte"
  | .char => "char"
  | .short => "short"
  | .int => "int"
  | .long => "long"
  | .float => "float"
  | .double => "double"
  | .null => "null"
  | .object name => name
  | .array element => element.render ++ "[]"

/-- A value of the type is a number, a character or a truth value. -/
def isPrimitive : Ty → Bool
  | .boolean | .byte | .char | .short | .int | .long | .float | .double => true
  | .void | .null | .object _ | .array _ => false

/-- A value of the type is an object, an array or `null`. -/
def isReference : Ty → Bool
  | .null | .object _ | .array _ => true
  | _ => false

def isArray : Ty → Bool
  | .array _ => true
  | _ => false

/-- An array of arrays. -/
def isMultiDimensional : Ty → Bool
  | .array element => element.isArray
  | _ => false

/-- What the array holds. -/
def element? : Ty → Option Ty
  | .array element => some element
  | _ => none

/-- The name of the class. -/
def className? : Ty → Option String
  | .object name => some name
  | _ => none

/-- How many times `[]` is written. -/
def dimensions : Ty → Nat
  | .array element => element.dimensions + 1
  | _ => 0

/-- The types that the machine keeps as an `int`. -/
def isIntLike : Ty → Bool
  | .boolean | .byte | .char | .short | .int => true
  | _ => false

end Ty
end AccessProfiler
