import AccessProfiler.Wrapping.Adaptation
import AccessProfiler.Wrapping.Signature

/-!
# Bodies with wrappers

How the body of a method takes wrappers in the place of arrays, after the signatures have been
changed.  Locals of array type get the type of the wrapper.  A parameter is bound to the wrapper if
the signature names it; if the signature was kept, the array is bound to a local of its own and
wrapped after the bindings.  Calls follow the signatures of what they call, and code that is not
transformed gets arrays.  New arrays are made inside of wrappers, elements are read and stored
through their methods, and lengths are read off the array.  A repair scan settles what is left.
-/

namespace AccessProfiler.Draft

/-- The pass and the method that the events of a body name. -/
structure Origin where
  pass : String
  method : String

/-- Record an event of a body. -/
def recordAt (origin : Origin) (kind : EventKind) (index : Nat) (message : String) :
    Draft Unit :=
  record ((Event.located kind origin.method index message).recordedBy origin.pass)

/-- The wrapper that a local holds. -/
def wrapperOfLocal? (id : LocalId) : Draft (Option Wrapper) := do
  match (← body).localType? id with
  | some type => return (← session).wrapperOfType? type
  | none => return none

/-- Give the type of the wrapper to a local of array type. -/
def retypeLocal (id : LocalId) : Draft Bool := do
  match (← body).localType? id with
  | some (.array element) =>
    match ← lift (Transform.wrapperFor element) with
    | some wrapper =>
      modify fun body => body.setLocalType id wrapper.type
      return true
    | none => return false
  | _ => return false

/-- Give the types of wrappers to all locals of array type. -/
def retypeLocals : Draft Bool := do
  let changes ← (List.range (← body).locals.length).mapM fun index => retypeLocal ⟨index⟩
  return changes.any id

/-- The method that a call means, before or after signatures were changed. -/
def callee? (method : MethodRef) : Draft (Option (String × Method)) := do
  let program := (← session).program
  match program.resolveMethod? method.owner method.name method.parameters with
  | some found => return some found
  | none =>
    let mapped ← lift (method.parameters.mapM Transform.mapType)
    if mapped = method.parameters then return none
    return (← session).program.resolveMethod? method.owner method.name mapped

/-- What a call is made to: the types of its parameters, of its result, and whether the code that is
called takes arrays. -/
structure Callee where
  parameters : List Ty
  result : Ty
  foreign : Bool

/-- What a call of a method is made to; without a declaration, what the call says. -/
def calleeOf (method : MethodRef) : Draft Callee := do
  match ← callee? method with
  | some (declaring, declared) =>
    return ⟨declared.parameters, declared.result, !(← session).isTransformableClass declaring⟩
  | none => return ⟨method.parameters, method.result, true⟩

/-- The receiver of a call: the array inside of a wrapper, unless the wrapper itself is called. -/
def adaptReceiver
    (origin : Origin)
    (index : Nat)
    (method : MethodRef)
    (receiver : LocalId) : Draft (LocalId × List Instruction) := do
  match ← wrapperOfLocal? receiver with
  | none => return (receiver, [])
  | some wrapper =>
    if method.owner = wrapper.name then return (receiver, [])
    let raw ← newLocal "$raw" wrapper.arrayType
    recordAt origin .argumentUnwrapped index ("receiver of " ++ method.render)
    return (raw, [wrapper.unwrapInto raw receiver])

/-- The adaptation of an argument.  Code that is not transformed gets the array even where its
parameter would take the wrapper. -/
def argumentPlan?
    (session : Session)
    (foreign : Bool)
    (source target : Ty) : Option Adaptation :=
  match session.wrapperOfType? source with
  | some wrapper =>
    if foreign && target.isReference && !target.isArray then some (.unwrap wrapper)
    else session.plan? source target
  | none => session.plan? source target

/-- One argument of a call. -/
def adaptArgument
    (origin : Origin)
    (index position : Nat)
    (method : MethodRef)
    (foreign : Bool)
    (target : Ty)
    (argument : Operand) : Draft (Operand × List Instruction) := do
  match (← body).operandType? argument with
  | none => return (argument, [])
  | some source =>
    match argumentPlan? (← session) foreign source target with
    | none => return (argument, [])
    | some adaptation =>
      let place := s!"argument {position} of " ++ method.render
      match ← adapt adaptation argument with
      | some adapted =>
        let kind :=
          match adaptation with
          | .unwrap _ => EventKind.argumentUnwrapped
          | _ => EventKind.adaptationInserted
        recordAt origin kind index place
        return adapted
      | none =>
        recordAt origin .skippedUnsupported index
          (place ++ ": " ++ source.render ++ " -> " ++ target.render)
        return (argument, [])

/-- A call, and the instructions before it.  Calls of the sink and calls with a wrong number of
arguments are left as they are. -/
def wrapCall
    (origin : Origin)
    (index : Nat)
    (target : Call) : Draft (Call × List Instruction) := do
  if target.method = (← session).settings.sink.methodRef then
    return (target, [])
  let callee ← calleeOf target.method
  if callee.parameters.length ≠ target.arguments.length then
    return (target, [])
  let method :=
    if callee.foreign then target.method
    else { target.method with parameters := callee.parameters, result := callee.result }
  let (receiver, unwrapping) ←
    match target.receiver with
    | none => pure (none, [])
    | some receiver => do
      let (receiver, unwrapping) ← adaptReceiver origin index method receiver
      pure (some receiver, unwrapping)
  let arguments ←
    (callee.parameters.zip target.arguments).zipIdx.mapM fun ((parameter, argument), position) =>
      adaptArgument origin index position method callee.foreign parameter argument
  let wrapped : Call := { target with method, receiver, arguments := arguments.map Prod.fst }
  return (wrapped, unwrapping ++ arguments.flatMap Prod.snd)

/-- A new array that is stored in a local of the wrapper of its type is made inside of it. -/
def wrapAllocation
    (origin : Origin)
    (index : Nat)
    (place : Expression)
    (element : Ty)
    (size : Operand) : Draft (Option (List Instruction)) := do
  if element.isArray then
    recordAt origin .skippedUnsupported index
      ("multi-dimensional allocation of " ++ element.render ++ "[]")
    return none
  match place with
  | .variable target =>
    match ← wrapperOfLocal? target with
    | none => return none
    | some wrapper =>
      if wrapper.element ≠ element then return none
      recordAt origin .allocationWrapped index
        ("newarray (" ++ element.render ++ ") -> " ++ wrapper.name)
      return some (wrapper.allocateInto target size)
  | _ => return none

/-- The right side of an assignment, and the instructions before it. -/
def wrapValue
    (origin : Origin)
    (index : Nat)
    (value : Expression) : Draft (Expression × List Instruction) := do
  match value with
  | .element base slot =>
    match ← wrapperOfLocal? base with
    | none => return (value, [])
    | some wrapper =>
      recordAt origin .elementAccessWrapped index ("load through " ++ wrapper.get.render)
      return (wrapper.getValue base slot, [])
  | .length base =>
    match ← wrapperOfLocal? base with
    | none => return (value, [])
    | some wrapper =>
      let raw ← newLocal "$raw" wrapper.arrayType
      recordAt origin .adaptationInserted index "lengthof reads the raw array"
      return (.length raw, [wrapper.unwrapInto raw base])
  | .call target =>
    let (wrapped, steps) ← wrapCall origin index target
    return (.call wrapped, steps)
  | _ => return (value, [])

/-- An assignment to an element of a wrapper is a call. -/
def wrapStore
    (origin : Origin)
    (index : Nat)
    (wrapper : Wrapper)
    (base : LocalId)
    (slot : Operand)
    (value : Expression) : Draft (List Instruction) := do
  let (stored, evaluation) ←
    match value.operand? with
    | some operand => pure (operand, [])
    | none => do
      let result ← newLocal "$elem" wrapper.element
      pure (.variable result, [.assign (.variable result) value])
  recordAt origin .elementAccessWrapped index ("store through " ++ wrapper.set.render)
  return evaluation ++ [wrapper.setCall base slot stored]

/-- What takes the place of an assignment, if it has to be changed. -/
def wrapAssignment
    (origin : Origin)
    (index : Nat)
    (place value : Expression) : Draft (Option (List Instruction)) := do
  match value with
  | .newArray content size => wrapAllocation origin index place content size
  | _ =>
    let (wrapped, steps) ← wrapValue origin index value
    let wrapper? ←
      match place with
      | .element base slot => do
        pure ((← wrapperOfLocal? base).map (·, base, slot))
      | _ => pure none
    match wrapper? with
    | some (wrapper, base, slot) =>
      return some (steps ++ (← wrapStore origin index wrapper base slot wrapped))
    | none =>
      if steps.isEmpty && wrapped == value then return none
      return some (steps ++ [.assign place wrapped])

/-- What takes the place of an instruction, if it has to be changed. -/
def wrapInstruction
    (origin : Origin)
    (index : Nat) : Instruction → Draft (Option (List Instruction))
  | .assign place value => wrapAssignment origin index place value
  | .invoke target => do
    let (wrapped, steps) ← wrapCall origin index target
    if steps.isEmpty && wrapped == target then return none
    return some (steps ++ [.invoke wrapped])
  | .bind _ _ | .return _ => return none

/-- The binding of a parameter to a wrapper: of the wrapper itself if the signature names it, and
else of the array, which is wrapped before the given position. -/
def wrapBinding
    (origin : Origin)
    (signature : Method)
    (position index : Nat)
    (batch : EditBatch)
    (wrapper : Wrapper)
    (target : LocalId)
    (parameter : Nat)
    (type : Ty) : Draft EditBatch := do
  let replace (batch : EditBatch) (binding : Instruction) : Draft EditBatch :=
    lift (Transform.ofDefect (batch.replace index [binding]))
  if signature.parameters[parameter]? = some wrapper.type then
    let batch ← replace batch (.bind target (.parameter parameter wrapper.type))
    recordAt origin .bindingRetyped index s!"@parameter{parameter}"
    return batch
  else
    let raw ← newLocal "$param" type
    let batch ← replace batch (.bind raw (.parameter parameter type))
    recordAt origin .adaptationInserted index
      (s!"@parameter{parameter} wrapped into " ++ wrapper.name)
    return batch.insertBefore position (wrapper.wrapInto target (.variable raw))

/-- Queue the edits of one instruction. -/
def queue
    (origin : Origin)
    (signature : Method)
    (position : Nat)
    (batch : EditBatch)
    (index : Nat)
    (instruction : Instruction) : Draft EditBatch := do
  match instruction with
  | .bind target (.parameter parameter type) =>
    if !type.isArray then return batch
    match ← wrapperOfLocal? target with
    | none => return batch
    | some wrapper =>
      wrapBinding origin signature position index batch wrapper target parameter type
  | _ =>
    match ← wrapInstruction origin index instruction with
    | none => return batch
    | some replacement => lift (Transform.ofDefect (batch.replace index replacement))

/-- Put wrappers in the place of arrays in a body; tells whether it changed. -/
def propagate (pass : String) (id : MethodId) : Draft Bool := do
  let program := (← session).program
  match program.method? id with
  | none => return false
  | some signature =>
    let origin : Origin := ⟨pass, program.qualifiedName id⟩
    let retyped ← retypeLocals
    let position := (← body).bindingCount
    let batch ← (← body).instructions.zipIdx.foldlM
      (fun batch (instruction, index) => queue origin signature position batch index instruction)
      .empty
    apply batch
    let adapted ← repair signature.result origin.method
    return retyped || !batch.isEmpty || 0 < adapted

end AccessProfiler.Draft
