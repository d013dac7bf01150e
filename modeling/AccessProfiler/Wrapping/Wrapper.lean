import AccessProfiler.Instrument.Profile
import AccessProfiler.Settings

/-!
# Array wrappers

A wrapper is a generated class that stands in the place of the arrays of one element type.  It keeps
the array in a field and counts the accesses to its elements like any instrumented class.  Arrays of
arrays have no wrapper.
-/

namespace AccessProfiler

/-- The field in which a wrapper keeps its array. -/
def arrayField : String := "array"

/-- The method that reads an element. -/
def getMethod : String := "get"

/-- The method that stores an element. -/
def setMethod : String := "set"

/-- The wrapper of the arrays of an element type. -/
structure Wrapper where
  name : String
  element : Ty
  arrayField : FieldRef
  fromArray : MethodRef
  withLength : MethodRef
  get : MethodRef
  set : MethodRef
  profile : Profile
deriving DecidableEq

namespace Wrapper

/-- The type of the wrapper. -/
def type (wrapper : Wrapper) : Ty :=
  .object wrapper.name

/-- The type of the arrays that it stands for. -/
def arrayType (wrapper : Wrapper) : Ty :=
  .array wrapper.element

/-- Read the array out of a wrapper. -/
def unwrapInto (wrapper : Wrapper) (target source : LocalId) : Instruction :=
  .assign (.variable target) (.instanceField source wrapper.arrayField)

/-- Make a wrapper by one of its constructors. -/
def construct
    (wrapper : Wrapper)
    (constructor : MethodRef)
    (target : LocalId)
    (argument : Operand) : List Instruction :=
  [.assign (.variable target) (.newObject wrapper.name),
    .invoke (.ofSpecial target constructor [argument])]

/-- Make a wrapper of an array. -/
def wrapInto (wrapper : Wrapper) (target : LocalId) (raw : Operand) : List Instruction :=
  wrapper.construct wrapper.fromArray target raw

/-- Make a wrapper of a new array. -/
def allocateInto (wrapper : Wrapper) (target : LocalId) (size : Operand) : List Instruction :=
  wrapper.construct wrapper.withLength target size

/-- Read an element through a wrapper. -/
def getValue (wrapper : Wrapper) (base : LocalId) (index : Operand) : Expression :=
  .call (.ofVirtual base wrapper.get [index])

/-- Store an element through a wrapper. -/
def setCall (wrapper : Wrapper) (base : LocalId) (index value : Operand) : Instruction :=
  .invoke (.ofVirtual base wrapper.set [index, value])

/-- The name of the wrapper for an element type: the spelling of the array type without points, and
its brackets spelled `Array`. -/
def nameFor? (settings : Settings) (element : Ty) : Option String :=
  match element with
  | .array _ | .void | .null => none
  | _ =>
    some (settings.qualify
      (Text.spellBrackets "Array" (Text.without ['.'] (Ty.array element).render)))

/-- The declaration of a wrapper before it has members. -/
def declaration (name : String) : Class :=
  .plain name (Class.syntheticFlag.union Class.wrapperFlag)

/-- The constructor of the root class. -/
def rootConstructor : MethodRef :=
  ⟨objectClass, constructorName, [], .void⟩

section Members

variable (name : String) (element : Ty) (field : FieldRef)

/-- The constructor that takes an array, before it assigns a serial number. -/
def fromArrayBody : Body :=
  let this : LocalId := ⟨0⟩
  let raw : LocalId := ⟨1⟩
  { locals := [⟨"r0", .object name⟩, ⟨"r1", .array element⟩]
    instructions :=
      [.bind this (.receiver (.object name)),
        .bind raw (.parameter 0 (.array element)),
        .invoke (.ofSpecial this rootConstructor []),
        .assign (.instanceField this field) (.variable raw),
        .return none] }

/-- The constructor that makes an array, before it assigns a serial number. -/
def withLengthBody : Body :=
  let this : LocalId := ⟨0⟩
  let length : LocalId := ⟨1⟩
  let storage : LocalId := ⟨2⟩
  { locals := [⟨"r0", .object name⟩, ⟨"i0", .int⟩, ⟨"$array", .array element⟩]
    instructions :=
      [.bind this (.receiver (.object name)),
        .bind length (.parameter 0 .int),
        .invoke (.ofSpecial this rootConstructor []),
        .assign (.variable storage) (.newArray element (.variable length)),
        .assign (.instanceField this field) (.variable storage),
        .return none] }

/-- The method that reads an element and counts the read. -/
def getBody (profile : Profile) : Body :=
  let this : LocalId := ⟨0⟩
  let index : LocalId := ⟨1⟩
  let storage : LocalId := ⟨2⟩
  let value : LocalId := ⟨3⟩
  { locals :=
      [⟨"r0", .object name⟩, ⟨"i0", .int⟩, ⟨"$array", .array element⟩, ⟨"$value", element⟩]
    instructions :=
      [.bind this (.receiver (.object name)),
        .bind index (.parameter 0 .int),
        .assign (.variable storage) (.instanceField this field),
        .assign (.variable value) (.element storage (.variable index)),
        profile.countingCall this .read,
        .return (some (.variable value))] }

/-- The method that stores an element and counts the write. -/
def setBody (profile : Profile) : Body :=
  let this : LocalId := ⟨0⟩
  let index : LocalId := ⟨1⟩
  let value : LocalId := ⟨2⟩
  let storage : LocalId := ⟨3⟩
  { locals :=
      [⟨"r0", .object name⟩, ⟨"i0", .int⟩, ⟨"$value", element⟩, ⟨"$array", .array element⟩]
    instructions :=
      [.bind this (.receiver (.object name)),
        .bind index (.parameter 0 .int),
        .bind value (.parameter 1 element),
        .assign (.variable storage) (.instanceField this field),
        .assign (.element storage (.variable index)) (.variable value),
        profile.countingCall this .write,
        .return none] }

end Members
end Wrapper
end AccessProfiler
