import AccessProfiler.Language.Expression

/-!
# Structural texts

Some faults show an operand or an expression as the tree that it is: each constructor by name, its
parts in parentheses or, if they have names, in braces.
-/

namespace AccessProfiler

/-- Parts with names, in braces. -/
def bracedParts (name : String) (parts : List (String × String)) : String :=
  name ++ " \x7b " ++ ", ".intercalate (parts.map fun part => part.1 ++ ": " ++ part.2) ++ " \x7d"

/-- A list, in brackets. -/
def bracketed (elements : List String) : String :=
  "[" ++ ", ".intercalate elements ++ "]"

def Ty.structuralText : Ty → String
  | .void => "Void"
  | .boolean => "Boolean"
  | .byte => "Byte"
  | .char => "Char"
  | .short => "Short"
  | .int => "Int"
  | .long => "Long"
  | .float => "Float"
  | .double => "Double"
  | .null => "Null"
  | .object name => "Class(" ++ Text.quote name ++ ")"
  | .array element => "Array(" ++ element.structuralText ++ ")"

def LocalId.structuralText (id : LocalId) : String :=
  "LocalId(" ++ toString id.index ++ ")"

def Constant.structuralText : Constant → String
  | .int value => "Int(" ++ toString value.toInt ++ ")"
  | .long value => "Long(" ++ toString value.toInt ++ ")"
  | .float value => "Float(" ++ value.structuralText ++ ")"
  | .double value => "Double(" ++ value.structuralText ++ ")"
  | .str value => "Str(" ++ Text.quote value ++ ")"
  | .null => "Null"

def Operand.structuralText : Operand → String
  | .variable source => "Local(" ++ source.structuralText ++ ")"
  | .literal value => "Const(" ++ value.structuralText ++ ")"

def FieldRef.structuralText (field : FieldRef) : String :=
  bracedParts "FieldRef"
    [("class", Text.quote field.owner), ("name", Text.quote field.name),
      ("ty", field.type.structuralText), ("is_static", if field.isStatic then "true" else "false")]

def MethodRef.structuralText (method : MethodRef) : String :=
  bracedParts "MethodRef"
    [("class", Text.quote method.owner), ("name", Text.quote method.name),
      ("params", bracketed (method.parameters.map Ty.structuralText)),
      ("ret", method.result.structuralText)]

def CallKind.structuralText : CallKind → String
  | .static => "Static"
  | .virtual => "Virtual"
  | .interface => "Interface"
  | .special => "Special"

def Call.structuralText (target : Call) : String :=
  let receiver :=
    match target.receiver with
    | some receiver => "Some(" ++ receiver.structuralText ++ ")"
    | none => "None"
  bracedParts "InvokeExpr"
    [("kind", target.kind.structuralText), ("method", target.method.structuralText),
      ("receiver", receiver), ("args", bracketed (target.arguments.map Operand.structuralText))]

def Operator.structuralText : Operator → String
  | .add => "Add"
  | .sub => "Sub"
  | .mul => "Mul"

def Expression.structuralText : Expression → String
  | .variable source => bracedParts "Local" [("local", source.structuralText)]
  | .literal value => bracedParts "Constant" [("constant", value.structuralText)]
  | .instanceField base field =>
    bracedParts "InstanceField"
      [("base", base.structuralText), ("field", field.structuralText)]
  | .staticField field => bracedParts "StaticField" [("field", field.structuralText)]
  | .element base index =>
    bracedParts "ArrayElement" [("base", base.structuralText), ("index", index.structuralText)]
  | .newObject className => bracedParts "NewObject" [("class", Text.quote className)]
  | .newArray content size =>
    bracedParts "NewArray" [("element", content.structuralText), ("size", size.structuralText)]
  | .length base => bracedParts "Length" [("base", base.structuralText)]
  | .binary operator left right =>
    bracedParts "Binary"
      [("op", operator.structuralText), ("lhs", left.structuralText),
        ("rhs", right.structuralText)]
  | .call target => bracedParts "Invoke" [("expr", target.structuralText)]

end AccessProfiler
