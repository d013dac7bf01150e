import AccessProfiler.Instrument.Counter
import AccessProfiler.Journal.Tally
import AccessProfiler.Wrapping.Wrapper

/-!
# Sessions

A session is the program that is being transformed together with everything that was generated for
it.  Whatever was generated is remembered under its name, so that asking again gives the same.  A
step that fails keeps what it had changed by then.
-/

namespace AccessProfiler

/-- The static counters of a type, and the methods that count. -/
structure TypeCounter where
  name : String
  readField : FieldRef
  writeField : FieldRef
  read : MethodRef
  write : MethodRef
deriving DecidableEq

/-- The call that counts an access. -/
def TypeCounter.call (counter : TypeCounter) : Access → Instruction
  | .read => .invoke (.ofStatic counter.read [])
  | .write => .invoke (.ofStatic counter.write [])

/-- The static counter of the calls of a method, and the method that counts. -/
structure CallCounter where
  name : String
  field : FieldRef
  method : MethodRef
deriving DecidableEq

/-- The call that counts a call. -/
def CallCounter.call (counter : CallCounter) : Instruction :=
  .invoke (.ofStatic counter.method [])

/-- A program that is being transformed, and what was generated for it. -/
structure Session where
  settings : Settings
  program : Program
  counters : CounterTable
  profiles : Table String Profile
  wrappers : Table String Wrapper
  typeCounters : Table String TypeCounter
  callCounters : Table String CallCounter
  /-- The generated methods, by class and name. -/
  generated : List String
  transformed : List MethodId
  journal : Journal

namespace Session

/-- Nothing was generated yet. -/
def start (settings : Settings) (program : Program) : Session where
  settings := settings
  program := program
  counters := .empty settings.counterClassName
  profiles := .empty
  wrappers := .empty
  typeCounters := .empty
  callCounters := .empty
  generated := []
  transformed := []
  journal := []

def isWrapper (session : Session) (className : String) : Bool :=
  (session.wrappers.get? className).isSome

/-- The wrapper whose instances have a type. -/
def wrapperOfType? (session : Session) (type : Ty) : Option Wrapper :=
  type.className?.bind session.wrappers.get?

def isGenerated (session : Session) (qualifiedName : String) : Bool :=
  session.generated.contains qualifiedName

/-- The class is one of those that are transformed: a class of the application that was not
generated and is not left alone. -/
def isTransformableClass (session : Session) (className : String) : Bool :=
  !session.settings.excludes className && !session.counters.holds className &&
    !session.isWrapper className &&
    (session.program.class? className).any fun declaration =>
      declaration.isApplication && !declaration.isSynthetic

/-- The method is one of those that are transformed. -/
def isTransformable (session : Session) (id : MethodId) : Bool :=
  session.isTransformableClass id.owner &&
    (session.program.method? id).any fun method =>
      !method.isSynthetic && !session.isGenerated (id.owner ++ "." ++ method.name)

end Session

/-- A step of a transformation. -/
abbrev Transform := ExceptT Error (StateM Session)

namespace Transform

/-- Run on a session. -/
def on
    {Result : Type}
    (step : Transform Result)
    (session : Session) : Except Error Result × Session :=
  StateT.run (ExceptT.run step) session

/-- The result of a computation that needs no session. -/
def ofExcept {Result : Type} (result : Except Error Result) : Transform Result :=
  ExceptT.mk (pure result)

/-- A fault in the shape of what was to be done. -/
def ofDefect {Result : Type} (result : Except Defect Result) : Transform Result :=
  ofExcept (result.mapError .malformed)

/-- Record an event. -/
def record (event : Event) : Transform Unit :=
  modify fun session => { session with journal := session.journal ++ [event] }

/-- Change the program. -/
def changeProgram
    {Result : Type}
    (change : Program → Except Error (Result × Program)) : Transform Result := do
  let session ← get
  let (result, program) ← ofExcept (change session.program)
  set { session with program }
  return result

/-- Register a class unless its name is taken; tells whether it was free. -/
def ensureClass (name : String) (declaration : Class) : Transform Bool := do
  let session ← get
  let (created, program) := session.program.ensureClass name declaration
  set { session with program }
  return created

/-- Remember that a method was generated. -/
def markGenerated (method : MethodRef) : Transform Unit :=
  modify fun session =>
    if session.isGenerated method.qualifiedName then session
    else { session with generated := session.generated ++ [method.qualifiedName] }

/-- Remember that the body of a method was changed. -/
def markTransformed (id : MethodId) : Transform Unit :=
  modify fun session =>
    if session.transformed.contains id then session
    else { session with transformed := session.transformed ++ [id] }

end Transform
end AccessProfiler
