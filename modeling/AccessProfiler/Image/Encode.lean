import AccessProfiler.Json.Basic
import AccessProfiler.Language.Program

/-!
# Writing programs as JSON

Types and flags are written as their texts, literals with their kind, expressions and instructions
with a tag among their members.  A receiver, a superclass, a returned value and a body are left out
when there is none, the interfaces when the list is empty; everything else is always written.
-/

namespace AccessProfiler

def Ty.toJson (type : Ty) : Json :=
  .string type.render

def LocalId.toJson (id : LocalId) : Json :=
  .integer id.index

def Constant.toJson : Constant → Json
  | .int value => .object [("kind", .string "int"), ("value", .integer value.toInt)]
  | .long value => .object [("kind", .string "long"), ("value", .integer value.toInt)]
  | .float value => .object [("kind", .string "float"), ("value", .single value)]
  | .double value => .object [("kind", .string "double"), ("value", .double value)]
  | .str value => .object [("kind", .string "str"), ("value", .string value)]
  | .null => .object [("kind", .string "null")]

def Operand.toJson : Operand → Json
  | .variable source => .object [("local", source.toJson)]
  | .literal value => .object [("const", value.toJson)]

def FieldRef.toJson (field : FieldRef) : Json :=
  .object
    [("class", .string field.owner), ("name", .string field.name), ("ty", field.type.toJson),
      ("is_static", .bool field.isStatic)]

def MethodRef.toJson (method : MethodRef) : Json :=
  .object
    [("class", .string method.owner), ("name", .string method.name),
      ("params", .array (method.parameters.map Ty.toJson)), ("ret", method.result.toJson)]

def Call.toJson (target : Call) : Json :=
  .objectOf
    [("kind", some (.string target.kind.render)), ("method", some target.method.toJson),
      ("receiver", target.receiver.map LocalId.toJson),
      ("args", some (.array (target.arguments.map Operand.toJson)))]

/-- The tag of an operator. -/
def Operator.tag : Operator → String
  | .add => "add"
  | .sub => "sub"
  | .mul => "mul"

def Expression.toJson : Expression → Json
  | .variable source => .object [("value", .string "local"), ("local", source.toJson)]
  | .literal value => .object [("value", .string "constant"), ("constant", value.toJson)]
  | .instanceField base field =>
    .object
      [("value", .string "instance_field"), ("base", base.toJson), ("field", field.toJson)]
  | .staticField field => .object [("value", .string "static_field"), ("field", field.toJson)]
  | .element base index =>
    .object [("value", .string "array_element"), ("base", base.toJson), ("index", index.toJson)]
  | .newObject className =>
    .object [("value", .string "new_object"), ("class", .string className)]
  | .newArray content size =>
    .object
      [("value", .string "new_array"), ("element", content.toJson), ("size", size.toJson)]
  | .length base => .object [("value", .string "length"), ("base", base.toJson)]
  | .binary operator left right =>
    .object
      [("value", .string "binary"), ("op", .string operator.tag), ("lhs", left.toJson),
        ("rhs", right.toJson)]
  | .call target => .object [("value", .string "invoke"), ("expr", target.toJson)]

def Binding.toJson : Binding → Json
  | .receiver type => .object [("this", type.toJson)]
  | .parameter index type =>
    .object [("parameter", .object [("index", .integer index), ("ty", type.toJson)])]

def Instruction.toJson : Instruction → Json
  | .bind target source =>
    .object [("op", .string "identity"), ("local", target.toJson), ("source", source.toJson)]
  | .assign place value =>
    .object [("op", .string "assign"), ("lhs", place.toJson), ("rhs", value.toJson)]
  | .invoke target => .object [("op", .string "invoke"), ("expr", target.toJson)]
  | .return value =>
    .objectOf [("op", some (.string "return")), ("value", value.map Operand.toJson)]

def LocalDecl.toJson (declaration : LocalDecl) : Json :=
  .object [("name", .string declaration.name), ("ty", declaration.type.toJson)]

def Body.toJson (body : Body) : Json :=
  .object
    [("locals", .array (body.locals.map LocalDecl.toJson)),
      ("instructions", .array (body.instructions.map Instruction.toJson))]

def Field.toJson (field : Field) : Json :=
  .object
    [("name", .string field.name), ("ty", field.type.toJson),
      ("flags", .string (field.flags.render Field.flagNames))]

def Method.toJson (method : Method) : Json :=
  .objectOf
    [("name", some (.string method.name)),
      ("params", some (.array (method.parameters.map Ty.toJson))),
      ("ret", some method.result.toJson),
      ("flags", some (.string (method.flags.render Method.flagNames))),
      ("body", method.body.map Body.toJson)]

def Class.toJson (declaration : Class) : Json :=
  let interfaces :=
    if declaration.interfaces.isEmpty then none
    else some (Json.array (declaration.interfaces.map Json.string))
  .objectOf
    [("name", some (.string declaration.name)),
      ("superclass", declaration.superclass.map Json.string),
      ("interfaces", interfaces),
      ("kind", some (.string declaration.kind.render)),
      ("flags", some (.string (declaration.flags.render Class.flagNames))),
      ("fields", some (.array (declaration.fields.map Field.toJson))),
      ("methods", some (.array (declaration.methods.map Method.toJson)))]

/-- The image of a program: its classes. -/
def imageToJson (classes : List Class) : Json :=
  .object [("classes", .array (classes.map Class.toJson))]

end AccessProfiler
