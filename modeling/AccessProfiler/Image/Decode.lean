import AccessProfiler.Image.Schema
import AccessProfiler.Language.Program
import AccessProfiler.Language.TyReader

/-!
# Reading programs from JSON

The readers that belong to the written forms, one for each kind of declaration.  What is left out
counts as the empty list, no flags, a class of the application without superclass, a field of the
instances.  Inside an instruction or an expression variants are read leniently, elsewhere strictly.
-/

namespace AccessProfiler

open Number Schema

def Ty.ofJson : Json → Readable Ty
  | .string text =>
    match Ty.parse text with
    | .ok type => .ok type
    | .error invalid => .error (.type invalid)
  | _ => .error .shape

def LocalId.ofJson (value : Json) : Readable LocalId :=
  (natural 32 value).map LocalId.mk

/-- A single precision literal; an integer is rounded once, another number first to double
precision. -/
def singleOfJson : Json → Readable Binary32
  | .integer value => .ok (Binary32.ofInt value)
  | .double value => .ok value.toSingle
  | .single value => .ok value
  | _ => .error .shape

def doubleOfJson : Json → Readable Binary64
  | .integer value => .ok (Binary64.ofInt value)
  | .double value => .ok value
  | _ => .error .shape

/-- The literal of a kind whose value is present. -/
def Constant.ofKind (kind : String) (value : Json) : Readable Constant :=
  match kind with
  | "int" => (integer (-Int.pow 2 31) (Int.pow 2 31) value).map fun number => .int (Int32.ofInt number)
  | "long" => (integer (-Int.pow 2 63) (Int.pow 2 63) value).map fun number => .long (Int64.ofInt number)
  | "float" => (singleOfJson value).map .float
  | "double" => (doubleOfJson value).map .double
  | "str" => (string value).map .str
  | "null" =>
    match value with
    | .null => .ok .null
    | _ => .error .shape
  | _ => .error .shape

/-- A literal: its kind and, unless it is null, its value. -/
def Constant.ofJson (latitude : Latitude) : Json → Readable Constant
  | .object members =>
    match members.lookup "kind", members.lookup "value" with
    | some kind, some value => do Constant.ofKind (← symbol latitude kind) value
    | some kind, none => do
      if (← symbol latitude kind) = "null" then return .null else .error .shape
    | none, _ => .error .shape
  | .array [kind, value] => do Constant.ofKind (← symbol latitude kind) value
  | _ => .error .shape

def Operand.ofJson (latitude : Latitude) (value : Json) : Readable Operand := do
  match ← single value with
  | ("local", source) => (LocalId.ofJson source).map .variable
  | ("const", constant) => (Constant.ofJson latitude constant).map .literal
  | _ => .error .shape

def FieldRef.ofJson : Json → Readable FieldRef :=
  record (FieldRef.mk <$> required "class" string <*> required "name" string <*>
    required "ty" Ty.ofJson <*> optional "is_static" false bool)

def MethodRef.ofJson : Json → Readable MethodRef :=
  record (MethodRef.mk <$> required "class" string <*> required "name" string <*>
    optional "params" [] (list Ty.ofJson) <*> required "ret" Ty.ofJson)

def CallKind.ofJson (latitude : Latitude) (value : Json) : Readable CallKind := do
  match ← symbol latitude value with
  | "static" => return .static
  | "virtual" => return .virtual
  | "interface" => return .interface
  | "special" => return .special
  | _ => .error .shape

/-- An operator stands in an expression. -/
def Operator.ofJson (value : Json) : Readable Operator := do
  match ← symbol .lenient value with
  | "add" => return .add
  | "sub" => return .sub
  | "mul" => return .mul
  | _ => .error .shape

/-- A call stands in an expression or an instruction. -/
def Call.ofJson : Json → Readable Call :=
  record (Call.mk <$> required "kind" (CallKind.ofJson .lenient) <*>
    required "method" MethodRef.ofJson <*> perhaps "receiver" LocalId.ofJson <*>
    optional "args" [] (list (Operand.ofJson .lenient)))

/-- The tags of expressions, in order. -/
def Expression.tags : List String :=
  ["local", "constant", "instance_field", "static_field", "array_element", "new_object",
    "new_array", "length", "binary", "invoke"]

/-- The expression of a tag from its members. -/
def Expression.ofTag (tag : String) : Json → Readable Expression :=
  let operand := Operand.ofJson .lenient
  match tag with
  | "local" => record (.variable <$> required "local" LocalId.ofJson)
  | "constant" => record (.literal <$> required "constant" (Constant.ofJson .lenient))
  | "instance_field" =>
    record (.instanceField <$> required "base" LocalId.ofJson <*>
      required "field" FieldRef.ofJson)
  | "static_field" => record (.staticField <$> required "field" FieldRef.ofJson)
  | "array_element" =>
    record (.element <$> required "base" LocalId.ofJson <*> required "index" operand)
  | "new_object" => record (.newObject <$> required "class" string)
  | "new_array" =>
    record (.newArray <$> required "element" Ty.ofJson <*> required "size" operand)
  | "length" => record (.length <$> required "base" LocalId.ofJson)
  | "binary" =>
    record (.binary <$> required "op" Operator.ofJson <*> required "lhs" operand <*>
      required "rhs" operand)
  | "invoke" => record (.call <$> required "expr" Call.ofJson)
  | _ => fun _ => .error .shape

def Expression.ofJson (latitude : Latitude) (value : Json) : Readable Expression := do
  let (tag, members) ← tagged latitude "value" Expression.tags value
  Expression.ofTag tag members

/-- A binding stands in an instruction. -/
def Binding.ofJson (value : Json) : Readable Binding := do
  match ← single value with
  | ("this", type) => (Ty.ofJson type).map .receiver
  | ("parameter", position) =>
    record (.parameter <$> required "index" (natural 64) <*> required "ty" Ty.ofJson) position
  | _ => .error .shape

/-- The tags of instructions, in order. -/
def Instruction.tags : List String := ["identity", "assign", "invoke", "return"]

/-- The instruction of a tag from its members. -/
def Instruction.ofTag (tag : String) : Json → Readable Instruction :=
  let expression := Expression.ofJson .lenient
  match tag with
  | "identity" =>
    record (.bind <$> required "local" LocalId.ofJson <*> required "source" Binding.ofJson)
  | "assign" => record (.assign <$> required "lhs" expression <*> required "rhs" expression)
  | "invoke" => record (.invoke <$> required "expr" Call.ofJson)
  | "return" => record (.return <$> perhaps "value" (Operand.ofJson .lenient))
  | _ => fun _ => .error .shape

/-- An instruction stands in no other. -/
def Instruction.ofJson (value : Json) : Readable Instruction := do
  let (tag, members) ← tagged .strict "op" Instruction.tags value
  Instruction.ofTag tag members

def LocalDecl.ofJson : Json → Readable LocalDecl :=
  record (LocalDecl.mk <$> required "name" string <*> required "ty" Ty.ofJson)

def Body.ofJson : Json → Readable Body :=
  record (Body.mk <$> required "locals" (list LocalDecl.ofJson) <*>
    required "instructions" (list Instruction.ofJson))

/-- A set of flags with the given names. -/
def Flags.ofJson (names : FlagNames) : Json → Readable Flags
  | .string text => (Flags.parse? names text).elim (.error .shape) .ok
  | _ => .error .shape

def Field.ofJson : Json → Readable Field :=
  record (Field.mk <$> required "name" string <*> required "ty" Ty.ofJson <*>
    optional "flags" .none (Flags.ofJson Field.flagNames))

def Method.ofJson : Json → Readable Method :=
  record (Method.mk <$> required "name" string <*> optional "params" [] (list Ty.ofJson) <*>
    required "ret" Ty.ofJson <*> optional "flags" .none (Flags.ofJson Method.flagNames) <*>
    perhaps "body" Body.ofJson)

def ClassKind.ofJson (value : Json) : Readable ClassKind := do
  match ← symbol .strict value with
  | "application" => return .application
  | "library" => return .library
  | _ => .error .shape

def Class.ofJson : Json → Readable Class :=
  record (Class.mk <$> required "name" string <*> perhaps "superclass" string <*>
    optional "interfaces" [] (list string) <*> optional "kind" .application ClassKind.ofJson <*>
    optional "flags" .none (Flags.ofJson Class.flagNames) <*>
    optional "fields" [] (list Field.ofJson) <*> optional "methods" [] (list Method.ofJson))

/-- The classes of an image. -/
def imageOfJson : Json → Readable (List Class) :=
  record (required "classes" (list Class.ofJson))

end AccessProfiler
