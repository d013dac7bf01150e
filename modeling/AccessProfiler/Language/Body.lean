import AccessProfiler.Language.Error
import AccessProfiler.Language.Instruction
import AccessProfiler.Text.Fresh

/-!
# Bodies

The body of a method: a table of local variables and a sequence of instructions.  A local variable
is named by its position in the table, so locals are only ever added at its end.  A listing of a
body spells out the names.
-/

namespace AccessProfiler

/-- The declaration of a local variable. -/
structure LocalDecl where
  name : String
  type : Ty
deriving DecidableEq

/-- The body of a method. -/
structure Body where
  locals : List LocalDecl
  instructions : List Instruction
deriving DecidableEq

namespace Body

/-- No locals, no instructions. -/
def empty : Body := ⟨[], []⟩

instance : Inhabited Body := ⟨.empty⟩

/-- The names of the locals, in order. -/
def localNames (body : Body) : List String :=
  body.locals.map LocalDecl.name

/-- Declare a local of the given name, which has to be new. -/
def addLocal
    (body : Body)
    (name : String)
    (type : Ty) : Except Defect (LocalId × Body) :=
  if body.localNames.contains name then
    .error (.duplicateLocal name)
  else
    .ok (⟨body.locals.length⟩, { body with locals := body.locals ++ [⟨name, type⟩] })

/-- The name of the next generated local: the stem with the number of locals or, if that is taken,
with the next number that is free. -/
def freshName (body : Body) (stem : String) : String :=
  Text.firstFree body.localNames fun offset => stem ++ toString (body.locals.length + offset)

/-- Declare a local with a generated name. -/
def newLocal (body : Body) (stem : String) (type : Ty) : LocalId × Body :=
  (⟨body.locals.length⟩, { body with locals := body.locals ++ [⟨body.freshName stem, type⟩] })

/-- The declaration of a local. -/
def local? (body : Body) (id : LocalId) : Option LocalDecl :=
  body.locals[id.index]?

/-- The declared type of a local. -/
def localType? (body : Body) (id : LocalId) : Option Ty :=
  (body.local? id).map LocalDecl.type

/-- Declare another type for a local; a local that does not exist is ignored. -/
def setLocalType (body : Body) (id : LocalId) (type : Ty) : Body :=
  { body with locals := body.locals.modify id.index fun declaration => { declaration with type } }

/-- Add an instruction at the end. -/
def push (body : Body) (instruction : Instruction) : Body :=
  { body with instructions := body.instructions ++ [instruction] }

/-- The local that the receiver is bound to. -/
def receiver? (body : Body) : Option LocalId :=
  body.instructions.findSome? fun instruction =>
    match instruction with
    | .bind target (.receiver _) => some target
    | _ => none

/-- How many bindings stand in front. -/
def bindingCount (body : Body) : Nat :=
  (body.instructions.takeWhile Instruction.isBinding).length

/-- The type of an operand, if it is declared. -/
def operandType? (body : Body) : Operand → Option Ty
  | .variable source => body.localType? source
  | .literal value => some value.type

/-- The type of an expression, if the locals that decide it are declared. -/
def type? (body : Body) : Expression → Option Ty
  | .variable source => body.localType? source
  | .literal value => some value.type
  | .instanceField _ field => some field.type
  | .staticField field => some field.type
  | .element base _ => (body.localType? base).bind Ty.element?
  | .newObject className => some (.object className)
  | .newArray element _ => some (.array element)
  | .length _ => some .int
  | .binary _ left _ => body.operandType? left
  | .call target => some target.method.result

/-- The name of a local in a listing. -/
def localText (body : Body) (id : LocalId) : String :=
  match body.local? id with
  | some declaration => declaration.name
  | none => "<?>"

/-- An operand in a listing. -/
def operandText (body : Body) : Operand → String
  | .variable source => body.localText source
  | .literal value => value.render

/-- A call in a listing. -/
def callText (body : Body) (target : Call) : String :=
  let receiver :=
    match target.receiver with
    | some receiver => body.localText receiver ++ "."
    | none => ""
  target.kind.render ++ "invoke " ++ receiver ++ target.method.render ++ "(" ++
    ", ".intercalate (target.arguments.map body.operandText) ++ ")"

/-- An expression in a listing. -/
def expressionText (body : Body) : Expression → String
  | .variable source => body.localText source
  | .literal value => value.render
  | .instanceField base field => body.localText base ++ "." ++ field.render
  | .staticField field => field.render
  | .element base index => body.localText base ++ "[" ++ body.operandText index ++ "]"
  | .newObject className => "new " ++ className
  | .newArray element size =>
    "newarray (" ++ element.render ++ ")[" ++ body.operandText size ++ "]"
  | .length base => "lengthof " ++ body.localText base
  | .binary operator left right =>
    body.operandText left ++ " " ++ operator.render ++ " " ++ body.operandText right
  | .call target => body.callText target

/-- An instruction in a listing. -/
def instructionText (body : Body) : Instruction → String
  | .bind target (.receiver type) => body.localText target ++ " := @this: " ++ type.render
  | .bind target (.parameter index type) =>
    body.localText target ++ " := @parameter" ++ toString index ++ ": " ++ type.render
  | .assign place value => body.expressionText place ++ " = " ++ body.expressionText value
  | .invoke target => body.callText target
  | .return none => "return"
  | .return (some operand) => "return " ++ body.operandText operand

/-- The listing: the locals with their types, a blank line if there are any, the instructions. -/
def listing (body : Body) : String :=
  let line (text : String) := "    " ++ text ++ ";\n"
  let declarations :=
    body.locals.map fun declaration => line (declaration.type.render ++ " " ++ declaration.name)
  let separator := if body.locals.isEmpty then "" else "\n"
  String.join declarations ++ separator ++
    String.join (body.instructions.map fun instruction => line (body.instructionText instruction))

end Body
end AccessProfiler
