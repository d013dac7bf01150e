import AccessProfiler.Instrument.Draft
import AccessProfiler.Language.Hierarchy
import AccessProfiler.Language.TyReader

/-!
# Inserting counting calls

The steps on a body that only insert calls: constructors get their serial number, accesses to fields
and elements are counted for the object or for the type, calls are counted for the method.  In front
of an assignment the calls for its left side come before those for its right side, and nothing but
calls is inserted.
-/

namespace AccessProfiler

/-- The class that declares the field that is meant; the class that is named if none does. -/
def Session.declaringClass (session : Session) (field : FieldRef) : String :=
  match session.program.resolveField? field.owner field.name with
  | some declared => declared.owner
  | none => field.owner

/-- What the count of an access to an instance field comes to. -/
inductive FieldCount
  /-- There is nothing to count. -/
  | ignored
  /-- The call counts the access. -/
  | counted (field : FieldRef) (call : Instruction)
  /-- The declaring class was not instrumented. -/
  | unprofiled (field : FieldRef) (declaring : String)
deriving DecidableEq

namespace FieldCount

/-- What the count of one side of an assignment comes to. -/
def of (session : Session) (access : Access) : Expression → FieldCount
  | .instanceField base field =>
    if isInstrumentationName field.name then .ignored
    else
      let declaring := session.declaringClass field
      match session.profiles.get? declaring with
      | some profile => .counted field (profile.countingCall base access)
      | none => .unprofiled field declaring
  | _ => .ignored

/-- The call that counts. -/
def call? : FieldCount → Option Instruction
  | .counted _ call => some call
  | _ => none

/-- The event of the count, at an instruction of a method. -/
def event? (access : Access) (method : String) (index : Nat) : FieldCount → Option Event
  | .ignored => none
  | .counted field _ =>
    some (.located .fieldAccessInstrumented method index (access.render ++ " " ++ field.render))
  | .unprofiled field declaring =>
    some (.located .skippedMissingMetadata method index
      (declaring ++ " has no profile (" ++ access.render ++ " " ++ field.render ++ ")"))

/-- The counts of an instruction: the left side of an assignment is written, the right side read. -/
def ofInstruction (session : Session) : Instruction → List (Access × FieldCount)
  | .assign place value =>
    [(.write, .of session .write place), (.read, .of session .read value)]
  | _ => []

/-- The calls in front of an instruction. -/
def calls (session : Session) (instruction : Instruction) : List Instruction :=
  (ofInstruction session instruction).filterMap fun entry => entry.2.call?

/-- The events of the instructions of a method. -/
def events (session : Session) (method : String) (instructions : List Instruction) : List Event :=
  instructions.zipIdx.flatMap fun (instruction, index) =>
    (ofInstruction session instruction).filterMap fun entry => entry.2.event? entry.1 method index

end FieldCount

namespace Draft

/-- Count the accesses to instance fields for each object. -/
def countFieldAccesses (pass method : String) : Draft Bool := do
  let session ← session
  let instructions := (← body).instructions
  (FieldCount.events session method instructions).forM fun event =>
    record (event.recordedBy pass)
  setInstructions (instructions.flatMap fun instruction =>
    FieldCount.calls session instruction ++ [instruction])
  return instructions.any fun instruction => !(FieldCount.calls session instruction).isEmpty

/-- The name spells a primitive type. -/
def isPrimitiveKey (name : String) : Bool :=
  match Ty.parse name with
  | .ok type => type.isPrimitive
  | .error _ => false

/-- The types that an access to an expression counts for: the declaring class of an instance field,
the type of an array, and the type of what is accessed if it is primitive. -/
def typeKeys (session : Session) (body : Body) : Expression → List String
  | .instanceField _ field =>
    if isInstrumentationName field.name then []
    else
      let type := field.type.render
      session.declaringClass field :: (if isPrimitiveKey type then [type] else [])
  | .element base _ =>
    match body.localType? base with
    | none => []
    | some type =>
      let element := Text.spellBrackets "" type.render
      Text.spellBrackets "Array" type.render ::
        (if isPrimitiveKey element then [element] else [])
  | _ => []

/-- The calls that count an access for types. -/
def typeCalls
    (pass method : String)
    (index : Nat)
    (access : Access)
    (keys : List String) : Draft (List Instruction) :=
  keys.mapM fun key => do
    let counter ← lift (Transform.typeCounter key)
    record ((Event.located .typeCounterInserted method index
      (key ++ " " ++ access.render)).recordedBy pass)
    return counter.call access

/-- The calls that count the accesses of an instruction for types. -/
def instructionTypeCalls
    (pass method : String)
    (index : Nat)
    (body : Body) : Instruction → Draft (List Instruction)
  | .assign place value => do
    let written ← typeCalls pass method index .write (typeKeys (← session) body place)
    let read ← typeCalls pass method index .read (typeKeys (← session) body value)
    return written ++ read
  | _ => return []

/-- Count the accesses to fields and elements for each type. -/
def countTypeAccesses (pass method : String) : Draft Bool := do
  let body ← body
  let counted ← body.instructions.zipIdx.mapM fun (instruction, index) => do
    let calls ← instructionTypeCalls pass method index body instruction
    return calls ++ [instruction]
  setInstructions counted.flatten
  return counted.any fun instructions => 1 < instructions.length

/-- Count a call of the method right after its bindings. -/
def countCalls (pass : String) (id : MethodId) : Draft Bool := do
  let program := (← session).program
  match program.methodRef? id with
  | none => return false
  | some target =>
    let counter ← lift (Transform.callCounter (Transform.callCounterName target.owner target.name))
    let position := (← body).bindingCount
    let (bindings, rest) := (← body).instructions.splitAt position
    setInstructions (bindings ++ counter.call :: rest)
    record ((Event.located .callCounterInserted ((← session).program.qualifiedName id) position
      counter.name).recordedBy pass)
    return true

/-- Let a constructor of an instrumented class assign the serial number. -/
def assignSerial (pass method : String) (id : MethodId) : Draft Bool := do
  let session ← session
  match session.profiles.get? id.owner with
  | none => return false
  | some profile =>
    match ← lift (Transform.ofDefect
        (profile.patchConstructor session.settings.sink (← body))) with
    | .error _ => return false
    | .ok patched =>
      set patched
      record ((Event.mk .constructorPatched (some method) none
        EventKind.constructorPatched.description none).recordedBy pass)
      return true

end Draft
end AccessProfiler
