import AccessProfiler.Instrument.Session

/-!
# Generating counters

The steps that give a static counter to an owner, instrument a class, and make the methods that
count on the class of the counters.  Members that a class has already are used, never declared
twice.
-/

namespace AccessProfiler.Transform

/-- Register the class of the counters unless that has been done. -/
def ensureCounterClass : Transform Bool := do
  let counters := (← get).counters
  ensureClass counters.className counters.declaration

/-- The static counter of an owner, declared on the first request.  The name stays claimed even if
the field cannot be declared. -/
def counterFor (owner : CounterOwner) (key : String) : Transform FieldRef := do
  let session ← get
  match session.counters.fields.get? owner with
  | some field => return field
  | none =>
    let (name, counters) := session.counters.claim owner key
    set { session with counters }
    let _ ← ensureCounterClass
    let field ← changeProgram fun program =>
      program.addField counters.className ⟨name, .int, Field.static.union Field.synthetic⟩
    modify fun session =>
      { session with
        counters :=
          { session.counters with fields := session.counters.fields.put owner field } }
    return field

/-- Declare a generated method. -/
def addGenerated (owner : String) (method : Method) : Transform Unit := do
  let _ ← changeProgram fun program => program.addMethod owner method
  markGenerated (method.reference owner)

/-- The method of the class of the counters that counts on a static counter. -/
def staticIncrementor (key label : String) (counter : FieldRef) : Transform MethodRef := do
  let session ← get
  let owner := session.counters.className
  let name := "increment" ++ key
  let reference : MethodRef := ⟨owner, name, [], .void⟩
  let existing := (session.program.class? owner).bind fun declared => declared.method? name []
  if existing.isSome then
    return reference
  addGenerated owner
    { name := name
      parameters := []
      result := .void
      flags := Method.static.union Method.synthetic
      body := some (Profile.staticIncrementorBody session.settings.sink label counter) }
  record (.general .incrementorSynthesized reference.render)
  return reference

/-- The method of a class that counts on one of its fields.  A method of that name is used whatever
its parameters are. -/
def incrementor (owner name : String) (counter serial : FieldRef) : Transform MethodRef := do
  let session ← get
  match (session.program.class? owner).bind fun declared => declared.methodNamed? name with
  | some method => return method.reference owner
  | none =>
    let method : Method :=
      { name := name
        parameters := []
        result := .void
        flags := Method.synthetic
        body := some (Profile.incrementorBody session.settings.sink owner counter serial) }
    addGenerated owner method
    record (.general .incrementorSynthesized (method.reference owner).render)
    return method.reference owner

/-- Declare what an instrumented class has. -/
def buildProfile (className : String) : Transform Profile := do
  let staticCounter ← counterFor (.instances className) (Profile.flattenedName className)
  record (.general .counterCreated staticCounter.render)
  let declare (name : String) : Transform FieldRef :=
    changeProgram fun program => program.addField className ⟨name, .int, Field.synthetic⟩
  let serial ← declare serialField
  let reads ← declare readsField
  let writes ← declare writesField
  let incReads ← incrementor className readIncrementor reads serial
  let incWrites ← incrementor className writeIncrementor writes serial
  let callKind := (← get).program.callKind className
  return { className, staticCounter, serial, reads, writes, incReads, incWrites, callKind }

/-- The profile of a class, which is instrumented on the first request. -/
def instrument (className : String) : Transform Profile := do
  let session ← get
  match session.profiles.get? className with
  | some profile => return profile
  | none =>
    match session.program.class? className with
    | none => throw (.unknownClass className)
    | some declared =>
      if declared.isInterface then
        throw (.malformed (.interfaceInstrumented className))
      let profile ← buildProfile className
      modify fun session =>
        { session with profiles := session.profiles.put className profile }
      record (.general .classInstrumented
        (className ++ " counter " ++ profile.staticCounter.name))
      return profile

/-- The counters of a type, declared on the first request. -/
def typeCounter (name : String) : Transform TypeCounter := do
  match (← get).typeCounters.get? name with
  | some counter => return counter
  | none =>
    let joined := Text.without ['.'] name
    let readField ← counterFor (.reads name) (joined ++ "Read")
    let writeField ← counterFor (.writes name) (joined ++ "Write")
    let read ← staticIncrementor (counterKey readField) (name ++ " read") readField
    let write ← staticIncrementor (counterKey writeField) (name ++ " write") writeField
    let counter : TypeCounter := { name, readField, writeField, read, write }
    modify fun session =>
      { session with typeCounters := session.typeCounters.put name counter }
    return counter

/-- The name under which the calls of a method are counted; overloads share it. -/
def callCounterName (className method : String) : String :=
  className ++ "_" ++ Text.without ['<', '>'] method

/-- The counter of the calls under a name, declared on the first request. -/
def callCounter (name : String) : Transform CallCounter := do
  match (← get).callCounters.get? name with
  | some counter => return counter
  | none =>
    let field ← counterFor (.calls name) (Text.without ['.'] name ++ "Call")
    let method ← staticIncrementor (counterKey field) (name ++ " function call") field
    let counter : CallCounter := { name, field, method }
    modify fun session =>
      { session with callCounters := session.callCounters.put name counter }
    return counter

end AccessProfiler.Transform
