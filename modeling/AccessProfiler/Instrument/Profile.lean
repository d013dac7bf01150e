import AccessProfiler.Language.Program
import AccessProfiler.Language.Sink
import AccessProfiler.Text.Replacing

/-!
# Profiles of classes

What an instrumented class has: a static counter of its instances, three fields in each instance
for its serial number and its two counts, and two methods that count an access and report it.
-/

namespace AccessProfiler

/-- A kind of access to a field or an element. -/
inductive Access
  | read
  | write
deriving DecidableEq

def Access.render : Access → String
  | .read => "read"
  | .write => "write"

/-- The field that holds the serial number of an instance. -/
def serialField : String := "serial"

/-- The field that counts how often an instance is read. -/
def readsField : String := "reads"

/-- The field that counts how often an instance is written. -/
def writesField : String := "writes"

/-- The method that counts a read. -/
def readIncrementor : String := "incReads"

/-- The method that counts a write. -/
def writeIncrementor : String := "incWrites"

/-- The field is one of those that instrumentation adds; accesses to it are not counted. -/
def isInstrumentationName (name : String) : Bool :=
  name == serialField || name == readsField || name == writesField

/-- The members of an instrumented class. -/
structure Profile where
  className : String
  staticCounter : FieldRef
  serial : FieldRef
  reads : FieldRef
  writes : FieldRef
  incReads : MethodRef
  incWrites : MethodRef
  callKind : CallKind
deriving DecidableEq

namespace Profile

/-- The method that counts an access. -/
def incrementor (profile : Profile) : Access → MethodRef
  | .read => profile.incReads
  | .write => profile.incWrites

/-- The call that counts an access to the object in a local. -/
def countingCall (profile : Profile) (base : LocalId) (access : Access) : Instruction :=
  .invoke ⟨profile.callKind, profile.incrementor access, some base, []⟩

/-- The field is one of those that instrumentation added to this class. -/
def isInstrumentationField (profile : Profile) (field : FieldRef) : Bool :=
  field.owner == profile.className && isInstrumentationName field.name

/-- The name of a class without its points. -/
def flattenedName (className : String) : String :=
  Text.without ['.'] className

/-- Add one to a local. -/
def increment (count : LocalId) : Instruction :=
  .assign (.variable count) (.binary .add (.variable count) (.literal (.int 1)))

/-- The body that counts an access: add one to the counter of the instance, then report the serial
number and the count. -/
def incrementorBody
    (sink : Sink)
    (className : String)
    (counter serial : FieldRef) : Body :=
  let this : LocalId := ⟨0⟩
  let count : LocalId := ⟨1⟩
  let id : LocalId := ⟨2⟩
  let operation := if counter.name = readsField then "reads" else "writes"
  { locals := [⟨"r0", .object className⟩, ⟨"$count", .int⟩, ⟨"$serial", .int⟩]
    instructions :=
      [.bind this (.receiver (.object className)),
        .assign (.variable count) (.instanceField this counter),
        increment count,
        .assign (.instanceField this counter) (.variable count),
        .assign (.variable id) (.instanceField this serial),
        sink.report (Sink.serialLabel className) (.variable id),
        sink.report (Sink.counterLabel className operation) (.variable count),
        .return none] }

/-- The body that adds one to a static counter and reports the count. -/
def staticIncrementorBody (sink : Sink) (label : String) (counter : FieldRef) : Body :=
  let count : LocalId := ⟨0⟩
  { locals := [⟨"$count", .int⟩]
    instructions :=
      [.assign (.variable count) (.staticField counter),
        increment count,
        .assign (.staticField counter) (.variable count),
        sink.report (label ++ " counter = ") (.variable count),
        .return none] }

/-- Why a constructor is left as it is. -/
inductive Skip
  /-- It assigns the serial number already. -/
  | alreadyPatched
  /-- It calls another constructor of its class, which assigns the serial number. -/
  | delegating
deriving DecidableEq

def Skip.name : Skip → String
  | .alreadyPatched => "AlreadyPatched"
  | .delegating => "Delegating"

/-- What an instruction of a constructor says about the serial number. -/
def skipOf (profile : Profile) (this : LocalId) : Instruction → Option Skip
  | .assign (.instanceField _ field) _ =>
    if field = profile.serial then some .alreadyPatched else none
  | .invoke target =>
    if target.receiver = some this ∧ target.method.name = constructorName ∧
        target.method.owner = profile.className then
      some .delegating
    else none
  | _ => none

/-- Why the constructor is left as it is, if it is. -/
def skip? (profile : Profile) (this : LocalId) (instructions : List Instruction) : Option Skip :=
  let skips := instructions.filterMap (profile.skipOf this)
  if skips.contains .alreadyPatched then some .alreadyPatched
  else if skips.contains .delegating then some .delegating
  else none

/-- The instructions that give the next serial number to an instance. -/
def serialAssignment
    (profile : Profile)
    (sink : Sink)
    (this count : LocalId) : List Instruction :=
  [.assign (.variable count) (.staticField profile.staticCounter),
    increment count,
    .assign (.instanceField this profile.serial) (.variable count),
    .assign (.staticField profile.staticCounter) (.variable count),
    sink.report (Sink.serialLabel profile.className) (.variable count)]

/-- Let a constructor assign a serial number right after its bindings.  One that does so already or
leaves it to another constructor of the class is skipped. -/
def patchConstructor
    (profile : Profile)
    (sink : Sink)
    (body : Body) : Except Defect (Except Skip Body) :=
  match body.receiver? with
  | none => .error (.receiverUnbound profile.className)
  | some this =>
    match profile.skip? this body.instructions with
    | some skip => .ok (.error skip)
    | none =>
      let (count, extended) := body.newLocal "$serial" .int
      let position := extended.bindingCount
      let (bindings, rest) := extended.instructions.splitAt position
      .ok (.ok
        { extended with
          instructions := bindings ++ profile.serialAssignment sink this count ++ rest })

end Profile
end AccessProfiler
