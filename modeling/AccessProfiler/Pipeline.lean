import AccessProfiler.Check.Program
import AccessProfiler.Instrument.Counting
import AccessProfiler.Wrapping.BodyWrapping

/-!
# The pipeline

A transformation is a sequence of passes.  A global pass works on the program as a whole; the others
work on the bodies of methods, one after the other, each body taken out of the program and put back
whether the pass succeeded or not.  All eligible methods are worked on even if one fails, and then
the first failure is the failure of the pass.  Afterwards the program is checked.
-/

namespace AccessProfiler

/-- A change to a program. -/
inductive Pass
  | instrument
  | patchConstructors
  | profileTypes
  | countFields
  | trackCalls
  | wrapSignatures
  | propagateArrays
deriving DecidableEq

namespace Pass

/-- Every pass, in the order in which they run. -/
def all : List Pass :=
  [.instrument, .patchConstructors, .profileTypes, .countFields, .trackCalls, .wrapSignatures,
    .propagateArrays]

def name : Pass → String
  | .instrument => "InstanceInstrumentation"
  | .patchConstructors => "ConstructorPatch"
  | .profileTypes => "TypeProfiling"
  | .countFields => "FieldAccess"
  | .trackCalls => "CallTracking"
  | .wrapSignatures => "SignatureRewrite"
  | .propagateArrays => "ArrayPropagation"

/-- The pass of a name. -/
def named? (name : String) : Option Pass :=
  all.find? fun pass => pass.name == name

def description : Pass → String
  | .instrument => "Adds serial, reads and writes counters to every application class"
  | .patchConstructors => "Assigns a per-class serial number in every constructor"
  | .profileTypes => "Counts reads and writes per accessed type on the counter class"
  | .countFields => "Counts reads and writes of instance fields per object"
  | .trackCalls => "Counts calls of every application method"
  | .wrapSignatures => "Replaces array types in method signatures with wrapper types"
  | .propagateArrays => "Replaces raw arrays in method bodies with counting wrappers"

/-- The pass works on the program as a whole. -/
def isGlobal : Pass → Bool
  | .instrument | .wrapSignatures => true
  | _ => false

/-- The settings ask for the pass. -/
def isWanted (settings : Settings) : Pass → Bool
  | .instrument | .patchConstructors | .countFields => settings.objects
  | .profileTypes => settings.typeProfiling
  | .trackCalls => settings.callTracking
  | .wrapSignatures | .propagateArrays => settings.arrays

/-- The passes that the settings ask for. -/
def wanted (settings : Settings) : List Pass :=
  all.filter (isWanted settings)

/-- The pass works on this method. -/
def isEligible (pass : Pass) (session : Session) (id : MethodId) : Bool :=
  match pass with
  | .patchConstructors =>
    session.isTransformable id && (session.profiles.get? id.owner).isSome &&
      (session.program.method? id).any Method.isConstructor
  | _ => session.isTransformable id

/-- Work on one body; tells whether it changed. -/
def onBody (pass : Pass) (id : MethodId) : Draft Bool := do
  let method := (← Draft.session).program.qualifiedName id
  match pass with
  | .instrument | .wrapSignatures => return false
  | .patchConstructors => Draft.assignSerial pass.name method id
  | .profileTypes => Draft.countTypeAccesses pass.name method
  | .countFields => Draft.countFieldAccesses pass.name method
  | .trackCalls => Draft.countCalls pass.name id
  | .propagateArrays => Draft.propagate pass.name id

/-- Instrument a class if it is transformed and no interface; tells whether it is. -/
def instrumentClass (className : String) : Transform Bool := do
  let session ← get
  if session.isTransformableClass className && !session.program.isInterface className then
    let _ ← Transform.instrument className
    return true
  else
    return false

/-- Instrument every class that is transformed, apart from interfaces. -/
def instrumentAll : Transform Bool := do
  let _ ← Transform.ensureCounterClass
  let changes ← (← get).program.applicationClasses.mapM instrumentClass
  return changes.any id

/-- Work on the program as a whole; tells whether it changed. -/
def onProgram (pass : Pass) : Transform Bool :=
  match pass with
  | .instrument => instrumentAll
  | .wrapSignatures => Transform.wrapSignatures pass.name
  | _ => return false

/-- Work on the body of a method of the program.  What the pass reports is kept aside, so that the
methods after it are worked on all the same. -/
def onMethod (pass : Pass) (id : MethodId) : Transform (Except Error Bool) := do
  let session ← get
  match session.program.body? id with
  | none => return .ok false
  | some body =>
    let taken := { session with program := session.program.dropBody id }
    let ((result, changed), after) := (pass.onBody id).on body taken
    set after
    match after.program.setBody id changed with
    | .error error => return .error error
    | .ok program =>
      set { after with program }
      if let .ok true := result then
        Transform.markTransformed id
      return result

/-- The first failure of several steps; without one, whether any of them changed something. -/
def summarize (results : List (Except Error Bool)) : Except Error Bool :=
  results.foldlM (fun changed result => do return changed || (← result)) false

/-- Work on the bodies of all eligible methods. -/
def onMethods (pass : Pass) : Transform Bool := do
  let session ← get
  let eligible := session.program.applicationMethods.filter (pass.isEligible session)
  let results ← eligible.mapM pass.onMethod
  Transform.ofExcept (summarize results)

/-- Run a pass; tells whether it changed something. -/
def run (pass : Pass) : Transform Bool := do
  Transform.record ((Event.general .passStarted pass.description).recordedBy pass.name)
  let changed ← if pass.isGlobal then pass.onProgram else pass.onMethods
  Transform.record
    ((Event.general .passCompleted (if changed then "changed" else "unchanged")).recordedBy
      pass.name)
  return changed

/-- Run passes one after the other, up to the first that fails; tells whether anything changed. -/
def runAll (passes : List Pass) : Transform Bool := do
  let changes ← passes.mapM run
  return changes.any id

end Pass

namespace Transform

/-- Check the program of the session. -/
def checkProgram : Transform Unit := do
  let session ← get
  let violations := session.program.violations (some session.settings)
  violations.forM fun violation =>
    record ⟨.verificationFailed, some violation.method, none, violation.message, none⟩
  ofExcept (firstViolation violations)

/-- Run the passes that the settings ask for, then check the program if they ask for that. -/
def pipeline : Transform Unit := do
  let settings := (← get).settings
  let _ ← Pass.runAll (Pass.wanted settings)
  if settings.verify then
    checkProgram

end Transform

/-- Transform a program as the settings say.  The session afterwards holds the program, transformed
as far as it went. -/
def transformProgram (program : Program) (settings : Settings) : Except Error Unit × Session :=
  Transform.pipeline.on (.start settings program)

end AccessProfiler
