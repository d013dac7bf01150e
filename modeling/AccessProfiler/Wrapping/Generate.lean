import AccessProfiler.Instrument.Generate

/-!
# Generating wrappers

The step that makes the wrapper of an element type.  The class is registered before its members are
declared and stays if one of them cannot be; members that it has already are used.
-/

namespace AccessProfiler.Transform

/-- Declare a member of a wrapper unless it is there; constructors assign the serial number. -/
def addMember
    (profile : Profile)
    (owner name : String)
    (parameters : List Ty)
    (result : Ty)
    (body : Body) : Transform MethodRef := do
  let session ← get
  let reference : MethodRef := ⟨owner, name, parameters, result⟩
  let existing :=
    (session.program.class? owner).bind fun declared => declared.method? name parameters
  if existing.isSome then
    return reference
  let body ←
    if name = constructorName then do
      let patched ← ofDefect (profile.patchConstructor session.settings.sink body)
      pure (patched.toOption.getD body)
    else pure body
  addGenerated owner
    { name := name
      parameters := parameters
      result := result
      flags := Method.synthetic
      body := some body }
  return reference

/-- Declare the members of a wrapper. -/
def buildWrapper (name : String) (element : Ty) : Transform Wrapper := do
  let field ← changeProgram fun program =>
    program.addField name ⟨AccessProfiler.arrayField, .array element, Field.synthetic⟩
  let profile ← instrument name
  let fromArray ←
    addMember profile name constructorName [.array element] .void
      (Wrapper.fromArrayBody name element field)
  let withLength ←
    addMember profile name constructorName [.int] .void
      (Wrapper.withLengthBody name element field)
  let get ←
    addMember profile name getMethod [.int] element (Wrapper.getBody name element field profile)
  let set ←
    addMember profile name setMethod [.int, element] .void
      (Wrapper.setBody name element field profile)
  return { name, element, arrayField := field, fromArray, withLength, get, set, profile }

/-- The wrapper of an element type, made on the first request; arrays of arrays have none. -/
def wrapperFor (element : Ty) : Transform (Option Wrapper) := do
  let session ← get
  match Wrapper.nameFor? session.settings element with
  | none => return none
  | some name =>
    match session.wrappers.get? name with
    | some wrapper => return some wrapper
    | none =>
      let created ← ensureClass name (Wrapper.declaration name)
      let wrapper ← buildWrapper name element
      modify fun session => { session with wrappers := session.wrappers.put name wrapper }
      if created then
        record (.general .wrapperSynthesized (name ++ " wraps " ++ wrapper.arrayType.render))
      return some wrapper

/-- The type that stands for a type: the wrapper of an array that has one, and else the type. -/
def mapType (type : Ty) : Transform Ty := do
  match type with
  | .array element =>
    match ← wrapperFor element with
    | some wrapper => return wrapper.type
    | none => return type
  | _ => return type

end AccessProfiler.Transform
