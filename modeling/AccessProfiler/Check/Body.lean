import AccessProfiler.Check.Violation

/-!
# The rules for bodies

What the checker demands of every instruction: locals are declared, both sides of an assignment
agree in type, bindings agree with the signature, arguments and returned values with what is
declared, and members exist.  An instruction with unknown locals is reported for those alone.
-/

namespace AccessProfiler

/-- The methods of the root class, known without its declaration. -/
def rootMethods : List String :=
  ["<init>", "clone", "equals", "finalize", "getClass", "hashCode", "notify", "notifyAll",
    "toString", "wait"]

/-- A body, the method that it belongs to, and the program around it. -/
structure CheckedBody where
  program : Program
  owner : String
  method : Method
  body : Body

namespace CheckedBody

variable (checked : CheckedBody)

/-- The types agree as far as the program says. -/
def agrees (source target : Ty) : Bool :=
  checked.program.isAssignable source target

/-- The message if the condition holds. -/
def reportIf (condition : Bool) (message : String) : List String :=
  if condition then [message] else []

/-- The locals of an instruction that are not declared. -/
def unknownLocals (instruction : Instruction) : List String :=
  (instruction.locals.filter fun id => checked.body.locals.length ≤ id.index).map fun id =>
    s!"unknown local #{id.index}"

/-- An array is used as one. -/
def arrayFaults (base : LocalId) : List String :=
  match checked.body.localType? base with
  | some type => reportIf (!type.isArray) ("array operation on a " ++ type.render)
  | none => []

/-- An index or a size is a number. -/
def intFaults (operand : Operand) (what : String) : List String :=
  match checked.body.operandType? operand with
  | some type => reportIf (!type.isIntLike) (what ++ " of type " ++ type.render)
  | none => []

/-- A field exists as it is referred to. -/
def fieldFaults (field : FieldRef) : List String :=
  let declared (declaration : Class) : Option FieldRef :=
    (declaration.field? field.name).map fun found => found.reference declaration.name
  match checked.program.lookup field.owner declared with
  | .found declared =>
    reportIf (declared.type != field.type)
        (field.render ++ " declared as " ++ declared.type.render ++ " " ++ declared.name) ++
      reportIf (declared.isStatic != field.isStatic) (field.render ++ " static mismatch")
  | .missing => ["unresolved field " ++ field.render]
  | .unknown => []

/-- The arguments of a call agree with the parameters. -/
def argumentFaults (target : Call) : List String :=
  let callee := target.method
  if target.arguments.length ≠ callee.parameters.length then
    [callee.render ++
      s!" called with {target.arguments.length} arguments, expects {callee.parameters.length}"]
  else
    (target.arguments.zip callee.parameters).zipIdx.flatMap fun ((argument, parameter), position) =>
      match checked.body.operandType? argument with
      | some type =>
        reportIf (!checked.agrees type parameter)
          (s!"argument {position} of " ++ callee.render ++ ": " ++ type.render ++ " is not a " ++
            parameter.render)
      | none => []

/-- A call has a receiver if and only if its kind takes one, and the receiver has the method. -/
def receiverFaults (target : Call) : List String :=
  let callee := target.method
  match target.kind, target.receiver with
  | .static, some _ => ["static call with a receiver"]
  | .static, none => []
  | _, none => ["instance call of " ++ callee.render ++ " without receiver"]
  | _, some receiver =>
    match checked.body.localType? receiver with
    | some type =>
      reportIf (!checked.agrees type (.object callee.owner))
        (callee.render ++ " called on a " ++ type.render)
    | none => []

/-- A method exists as it is called. -/
def methodFaults (target : Call) : List String :=
  let callee := target.method
  match checked.program.lookup callee.owner fun declaration =>
      declaration.method? callee.name callee.parameters with
  | .found declared =>
    reportIf (declared.result != callee.result)
        (callee.render ++ " declared to return " ++ declared.result.render) ++
      reportIf (declared.isStatic != (target.kind == .static))
        (callee.render ++ " called with " ++ target.kind.render ++ " dispatch")
  | .missing =>
    let inherited := rootMethods.contains callee.name && !checked.program.contains objectClass
    reportIf (!inherited) ("unresolved method " ++ callee.render)
  | .unknown => []

/-- The rules for calls. -/
def callFaults (target : Call) : List String :=
  checked.argumentFaults target ++ checked.receiverFaults target ++ checked.methodFaults target

/-- The rules for expressions, on either side of an assignment. -/
def expressionFaults : Expression → List String
  | .variable _ | .literal _ => []
  | .instanceField base field =>
    let access :=
      match checked.body.localType? base with
      | some type =>
        reportIf (!checked.agrees type (.object field.owner))
          (field.render ++ " accessed on a " ++ type.render)
      | none => []
    reportIf field.isStatic ("static field " ++ field.render ++ " accessed on an instance") ++
      access ++ checked.fieldFaults field
  | .staticField field =>
    reportIf (!field.isStatic) ("instance field " ++ field.render ++ " accessed statically") ++
      checked.fieldFaults field
  | .element base index => checked.arrayFaults base ++ checked.intFaults index "array index"
  | .length base => checked.arrayFaults base
  | .newArray content size =>
    reportIf (content == .void) "array of void" ++ checked.intFaults size "array size"
  | .newObject className =>
    reportIf (checked.program.isInterface className) ("instantiation of interface " ++ className)
  | .binary operator left right =>
    match checked.body.operandType? left, checked.body.operandType? right with
    | some leftType, some rightType =>
      let numeric := leftType.isPrimitive && rightType.isPrimitive
      let agree := checked.agrees leftType rightType || checked.agrees rightType leftType
      reportIf (!numeric || !agree)
        ("operator " ++ operator.render ++ " applied to " ++ leftType.render ++ " and " ++
          rightType.render)
    | _, _ => []
  | .call target => checked.callFaults target

/-- The rules for assignments. -/
def assignmentFaults (place value : Expression) : List String :=
  let disagreement :=
    match checked.body.type? place, checked.body.type? value with
    | some target, some source =>
      reportIf (!checked.agrees source target)
        ("cannot assign " ++ source.render ++ " to " ++ target.render)
    | _, _ => ["assignment of an untyped value"]
  reportIf (!place.isPlace) "assignment to a non-place value" ++
    checked.expressionFaults place ++ checked.expressionFaults value ++ disagreement

/-- The rules for what is bound, apart from the local. -/
def bindingFaults : Binding → List String
  | .receiver type =>
    reportIf checked.method.isStatic "@this bound in a static method" ++
      reportIf (type != .object checked.owner)
        ("@this bound as " ++ type.render ++ " in " ++ checked.owner)
  | .parameter index type =>
    match checked.method.parameters[index]? with
    | none =>
      let count := checked.method.parameters.length
      [s!"@parameter{index} bound but the method takes {count} parameters"]
    | some declared =>
      reportIf (declared != type)
        (s!"@parameter{index} bound as " ++ type.render ++ " but declared as " ++ declared.render)

/-- The rules for bindings. -/
def bindFaults (target : LocalId) (source : Binding) : List String :=
  let disagreement :=
    match checked.body.localType? target with
    | some type =>
      reportIf (!checked.agrees source.type type)
        (source.type.render ++ " bound to a local of type " ++ type.render)
    | none => []
  checked.bindingFaults source ++ disagreement

/-- The rules for returns. -/
def returnFaults (value : Option Operand) : List String :=
  let result := checked.method.result
  match value with
  | none => reportIf (result != .void) ("missing return value of type " ++ result.render)
  | some operand =>
    if result = .void then ["value returned from void method"]
    else
      match checked.body.operandType? operand with
      | some type =>
        reportIf (!checked.agrees type result)
          ("returns " ++ type.render ++ " where " ++ result.render ++ " is declared")
      | none => []

/-- The rules for an instruction. -/
def instructionFaults (instruction : Instruction) : List String :=
  let unknown := checked.unknownLocals instruction
  if !unknown.isEmpty then unknown
  else
    match instruction with
    | .bind target source => checked.bindFaults target source
    | .assign place value => checked.assignmentFaults place value
    | .invoke target => checked.callFaults target
    | .return value => checked.returnFaults value

/-- Everything that is wrong with a body, instruction by instruction. -/
def violations : List Violation :=
  checked.body.instructions.zipIdx.flatMap fun (instruction, index) =>
    (checked.instructionFaults instruction).map fun message =>
      ⟨checked.owner ++ "." ++ checked.method.name, some index, message⟩

end CheckedBody
end AccessProfiler
