import AccessProfiler.Machine.Basic

/-!
# Execution

How a machine runs calls.  Bodies have no branches, so the instructions of a body are folded over
the values of its locals; the only recursion is through calls and through the initialization of
classes.  Each function that needs either takes it as an argument, `Callees`, and `invoke` and
`prepare` at the end tie the knot: their first argument bounds how deep calls and initializations
nest.

Static and special calls look for their target from the class that they name, virtual and interface
calls from the class of the receiver.  A class is initialized, after its superclass, before the
first allocation of an instance, access to a static field and static call that names it.  Calls of
the sink are not looked up at all: they print a line.
-/

namespace AccessProfiler

/-- How to make a call and how to initialize a class. -/
structure Callees where
  invoke : CallKind → MethodRef → Option Datum → List Datum → Run Datum
  prepare : String → Run Unit

namespace Run

/-- The value of a local. -/
def localValue (locals : List Datum) (id : LocalId) : Run Datum :=
  match locals[id.index]? with
  | some value => pure value
  | none => throw (.fault (.unknownLocal id.index))

/-- The value of an operand. -/
def operandValue (locals : List Datum) : Operand → Run Datum
  | .variable source => localValue locals source
  | .literal value => pure (.ofConstant value)

/-- The object that a local refers to. -/
def objectIn (locals : List Datum) (id : LocalId) : Run Nat := do
  ofExcept (← localValue locals id).asReference

/-- The number that an operand is. -/
def intOf (locals : List Datum) (operand : Operand) : Run Int32 := do
  ofExcept (← operandValue locals operand).asInt

/-- Store a value in a local. -/
def setLocal (locals : List Datum) (id : LocalId) (value : Datum) : Run (List Datum) :=
  if id.index < locals.length then pure (locals.set id.index value)
  else throw (.fault (.unknownLocal id.index))

/-- Integers wrap around, floating point numbers are rounded; both operands have to be of one
type. -/
def arithmetic (operator : Operator) (left right : Datum) : Run Datum :=
  match operator, left, right with
  | .add, .int left, .int right => pure (.int (left + right))
  | .sub, .int left, .int right => pure (.int (left - right))
  | .mul, .int left, .int right => pure (.int (left * right))
  | .add, .long left, .long right => pure (.long (left + right))
  | .sub, .long left, .long right => pure (.long (left - right))
  | .mul, .long left, .long right => pure (.long (left * right))
  | .add, .float left, .float right => pure (.float (left.add right))
  | .sub, .float left, .float right => pure (.float (left.sub right))
  | .mul, .float left, .float right => pure (.float (left.mul right))
  | .add, .double left, .double right => pure (.double (left.add right))
  | .sub, .double left, .double right => pure (.double (left.sub right))
  | .mul, .double left, .double right => pure (.double (left.mul right))
  | operator, left, right => throw (.fault (.badOperands operator left right))

/-- Print what the sink is called with: a label and a number. -/
def report (sink : Sink) (arguments : List Datum) : Run Datum := do
  match arguments with
  | [.str label, .int value] => print ⟨sink.tag, label, value.toInt⟩
  | [.str label, .long value] => print ⟨sink.tag, label, value.toInt⟩
  | _ => throw (.fault (.badReport arguments))
  return .void

/-- The field that a reference means: its declaration or, without one, the reference itself. -/
def declaredField (program : Program) (field : FieldRef) : FieldRef :=
  (program.resolveField? field.owner field.name).getD field

section Bodies

variable (world : World) (callees : Callees)

/-- Make a call of a body. -/
def callValue (locals : List Datum) (target : Call) : Run Datum := do
  let receiver ← target.receiver.mapM (localValue locals)
  let arguments ← target.arguments.mapM (operandValue locals)
  callees.invoke target.kind target.method receiver arguments

/-- The value of an expression. -/
def expressionValue (locals : List Datum) : Expression → Run Datum
  | .variable source => localValue locals source
  | .literal value => pure (.ofConstant value)
  | .instanceField base field => do
    let slot ← objectIn locals base
    askHeap fun heap => heap.readField slot (declaredField world.program field)
  | .staticField field => do
    let declared := declaredField world.program field
    callees.prepare declared.owner
    return (← get).statics.read declared
  | .element base index => do
    let slot ← objectIn locals base
    let index ← intOf locals index
    askHeap fun heap => heap.readElement slot index
  | .newObject className => do
    callees.prepare className
    allocate fun heap => heap.allocateInstance className
  | .newArray content size => do
    let size ← intOf locals size
    if size.toInt < 0 then
      throw (.fault (.negativeSize size))
    allocate fun heap => heap.allocateArray content size.toInt.toNat
  | .length base => do
    let slot ← objectIn locals base
    let length ← askHeap fun heap => heap.arrayLength slot
    return .int (Int32.ofNat (min length (Nat.pow 2 31 - 1)))
  | .binary operator left right => do
    let left ← operandValue locals left
    let right ← operandValue locals right
    arithmetic operator left right
  | .call target => callValue callees locals target

/-- Store a value where an expression says; gives the locals afterwards. -/
def store (locals : List Datum) (place : Expression) (value : Datum) : Run (List Datum) := do
  match place with
  | .variable target => setLocal locals target value
  | .instanceField base field =>
    let slot ← objectIn locals base
    changeHeap fun heap => heap.writeField slot (declaredField world.program field) value
    return locals
  | .staticField field =>
    let declared := declaredField world.program field
    callees.prepare declared.owner
    modify fun machine => { machine with statics := machine.statics.write declared value }
    return locals
  | .element base index =>
    let slot ← objectIn locals base
    let index ← intOf locals index
    changeHeap fun heap => heap.writeElement slot index value
    return locals
  | other => throw (.fault (.notAPlace other))

/-- What the caller passed. -/
def boundValue (receiver : Option Datum) (arguments : List Datum) : Binding → Run Datum
  | .receiver _ =>
    match receiver with
    | some value => pure value
    | none => throw (.fault .noReceiver)
  | .parameter index _ =>
    match arguments[index]? with
    | some value => pure value
    | none => throw (.fault (.missingArgument index))

/-- Run the instructions of a body up to the first return; without one, nothing is returned. -/
def instructions
    (receiver : Option Datum)
    (arguments : List Datum)
    (locals : List Datum) : List Instruction → Run Datum
  | [] => pure .void
  | instruction :: rest => do
    tick world.limits
    match instruction with
    | .bind target source =>
      let value ← boundValue receiver arguments source
      let locals ← setLocal locals target value
      instructions receiver arguments locals rest
    | .assign place expression =>
      let value ← expressionValue world callees locals expression
      let locals ← store world callees locals place value
      instructions receiver arguments locals rest
    | .invoke target =>
      let _ ← callValue callees locals target
      instructions receiver arguments locals rest
    | .return none => pure .void
    | .return (some operand) => operandValue locals operand

/-- Run a body; each local starts as the zero of its type. -/
def body (body : Body) (receiver : Option Datum) (arguments : List Datum) : Run Datum :=
  let locals := body.locals.map fun declaration => Datum.zero declaration.type
  instructions world callees receiver arguments locals body.instructions

/-- Enter a method of the program, called by the given reference. -/
def enter
    (id : MethodId)
    (method : MethodRef)
    (receiver : Option Datum)
    (arguments : List Datum) : Run Datum := do
  match world.program.body? id with
  | none => throw (.fault (.noBody method))
  | some entered =>
    if 0 < world.limits.depth ∧ world.limits.depth ≤ (← get).depth then
      throw (.excess (.depth world.limits.depth method))
    nested (body world callees entered receiver arguments)

/-- The class from which the target of a call is searched.  A static call initializes the class it
names. -/
def searchStart
    (kind : CallKind)
    (method : MethodRef)
    (receiver : Option Datum) : Run String := do
  match kind, receiver with
  | .virtual, some (.reference slot) | .interface, some (.reference slot) =>
    let runtimeClass ← askHeap fun heap => heap.className? slot
    return runtimeClass.getD method.owner
  | .static, _ =>
    callees.prepare method.owner
    return method.owner
  | _, _ => return method.owner

/-- The method that a call means, searched from a class and, failing that, from the class that the
call names. -/
def target? (program : Program) (start : String) (method : MethodRef) : Option MethodId := do
  let (owner, _) ←
    program.resolveMethod? start method.name method.parameters <|>
      program.resolveMethod? method.owner method.name method.parameters
  program.findMethod? owner method.name method.parameters

/-- One call, its own calls left to `callees`.  Without a declaration, the constructor of the root
class does nothing. -/
def invokeStep
    (kind : CallKind)
    (method : MethodRef)
    (receiver : Option Datum)
    (arguments : List Datum) : Run Datum := do
  if method.owner = world.sink.owner ∧ method.name = world.sink.method then
    report world.sink arguments
  else if kind ≠ .static ∧ (receiver.getD .null).isNull then
    throw (.fault (.nullReceiver method))
  else
    let start ← searchStart callees kind method receiver
    match target? world.program start method with
    | some id => enter world callees id method receiver arguments
    | none =>
      if method.name = constructorName ∧ method.owner = objectClass then
        return .void
      else
        throw (.fault (.noImplementation method))

/-- The initialization of one class; it counts as initialized from its start on. -/
def prepareStep (className : String) : Run Unit := do
  if ← mark className then
    match world.program.superclass? className with
    | some superclass => callees.prepare superclass
    | none => pure ()
    match world.program.findMethod? className staticInitializerName [] with
    | none => pure ()
    | some id =>
      if (world.program.body? id).isSome then
        let method : MethodRef := ⟨className, staticInitializerName, [], .void⟩
        let _ ← enter world callees id method none []

/-- The class and the method name of an entry: what stands before and after its last point. -/
def entryParts? (entry : String) : Option (String × String) :=
  let reversed := entry.toList.reverse
  let name := reversed.takeWhile (· != '.')
  match reversed.dropWhile (· != '.') with
  | _ :: owner => some (String.ofList owner.reverse, String.ofList name.reverse)
  | [] => none

/-- The method that an entry names: the first of that name, as its class declares it. -/
def entryMethod? (program : Program) (entry : String) : Option MethodRef := do
  let (owner, name) ← entryParts? entry
  let id ← program.findMethodNamed? owner name
  program.methodRef? id

/-- What a method is given from outside.  It may take an array, and then gets one without
elements. -/
def entryArguments (method : MethodRef) : Run (List Datum) := do
  match method.parameters with
  | [] => return []
  | [.array element] =>
    let array ← allocate fun heap => heap.allocateArray element 0
    return [array]
  | _ => throw (.fault (.entryParameters method))

/-- A run of a method from outside, by the name of its class and its own. -/
def entryStep (name : String) : Run Datum := do
  match entryMethod? world.program name with
  | none => throw (.unknownEntry name)
  | some method =>
    let arguments ← entryArguments method
    callees.invoke .static method none arguments

end Bodies

mutual

/-- Make a call; `levels` bounds how deep calls and initializations nest. -/
def invoke
    (world : World)
    (levels : Nat) : CallKind → MethodRef → Option Datum → List Datum → Run Datum :=
  match levels with
  | 0 => fun _ _ _ _ => throw .exhausted
  | levels + 1 => invokeStep world ⟨invoke world levels, prepare world levels⟩

/-- Initialize a class unless that has been done. -/
def prepare (world : World) (levels : Nat) : String → Run Unit :=
  match levels with
  | 0 => fun _ => throw .exhausted
  | levels + 1 => prepareStep world ⟨invoke world levels, prepare world levels⟩

end

/-- Run a method from outside. -/
def entry (world : World) (levels : Nat) (name : String) : Run Datum :=
  entryStep world ⟨invoke world levels, prepare world levels⟩ name

end Run

/-- How deep calls and initializations of a run can nest under its limits: every open call is
counted by one of the limits, and between two open calls the initializations go up through different
classes.  Without a limit on either, a number that no run in practice comes near to. -/
def World.levels (world : World) : Nat :=
  let calls :=
    if 0 < world.limits.depth then world.limits.depth
    else if 0 < world.limits.instructions then world.limits.instructions
    else Nat.pow 2 40
  (calls + 2) * (world.program.entries.length + 3)

end AccessProfiler
