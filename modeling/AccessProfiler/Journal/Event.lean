/-!
# Events

Each step of a transformation is recorded as an event: something was changed, or something was left
alone because of its shape or for lack of information about a class.  Passes and the final check
leave events too, which are none of these.
-/

namespace AccessProfiler

/-- What became of a step. -/
inductive Outcome
  | applied
  | skippedUnsupported
  | skippedMissingMetadata
deriving DecidableEq

namespace Outcome

/-- Every outcome, in order. -/
def all : List Outcome := [.applied, .skippedUnsupported, .skippedMissingMetadata]

def name : Outcome → String
  | .applied => "Applied"
  | .skippedUnsupported => "SkippedUnsupported"
  | .skippedMissingMetadata => "SkippedMissingMetadata"

end Outcome

/-- What an event is about. -/
inductive EventKind
  | classInstrumented
  | counterCreated
  | incrementorSynthesized
  | constructorPatched
  | fieldAccessInstrumented
  | wrapperSynthesized
  | signatureWrapped
  | bindingRetyped
  | argumentUnwrapped
  | allocationWrapped
  | elementAccessWrapped
  | adaptationInserted
  | typeCounterInserted
  | callCounterInserted
  | skippedMissingMetadata
  | skippedUnsupported
  | passStarted
  | passCompleted
  | verificationFailed
deriving DecidableEq

namespace EventKind

/-- Every kind, in order. -/
def all : List EventKind :=
  [.classInstrumented, .counterCreated, .incrementorSynthesized, .constructorPatched,
    .fieldAccessInstrumented, .wrapperSynthesized, .signatureWrapped, .bindingRetyped,
    .argumentUnwrapped, .allocationWrapped, .elementAccessWrapped, .adaptationInserted,
    .typeCounterInserted, .callCounterInserted, .skippedMissingMetadata, .skippedUnsupported,
    .passStarted, .passCompleted, .verificationFailed]

/-- The identifier of a kind. -/
def name : EventKind → String
  | .classInstrumented => "ClassInstrumented"
  | .counterCreated => "CounterCreated"
  | .incrementorSynthesized => "IncrementorSynthesized"
  | .constructorPatched => "ConstructorPatched"
  | .fieldAccessInstrumented => "FieldAccessInstrumented"
  | .wrapperSynthesized => "WrapperSynthesized"
  | .signatureWrapped => "SignatureRewritten"
  | .bindingRetyped => "BindingRetyped"
  | .argumentUnwrapped => "ArgumentUnwrapped"
  | .allocationWrapped => "AllocationWrapped"
  | .elementAccessWrapped => "ElementAccessRewritten"
  | .adaptationInserted => "AdaptationInserted"
  | .typeCounterInserted => "TypeCounterInserted"
  | .callCounterInserted => "CallCounterInserted"
  | .skippedMissingMetadata => "SkippedMissingMetadata"
  | .skippedUnsupported => "SkippedUnsupported"
  | .passStarted => "PassStarted"
  | .passCompleted => "PassCompleted"
  | .verificationFailed => "VerificationFailed"

/-- The kind of a name. -/
def named? (name : String) : Option EventKind :=
  all.find? fun kind => kind.name == name

/-- The words for a kind. -/
def description : EventKind → String
  | .classInstrumented => "class instrumented"
  | .counterCreated => "instance counter created"
  | .incrementorSynthesized => "incrementor synthesized"
  | .constructorPatched => "constructor patched"
  | .fieldAccessInstrumented => "field access instrumented"
  | .wrapperSynthesized => "array wrapper synthesized"
  | .signatureWrapped => "signature rewritten"
  | .bindingRetyped => "binding retyped"
  | .argumentUnwrapped => "argument unwrapped"
  | .allocationWrapped => "allocation wrapped"
  | .elementAccessWrapped => "element access rewritten"
  | .adaptationInserted => "adaptation inserted"
  | .typeCounterInserted => "type counter inserted"
  | .callCounterInserted => "call counter inserted"
  | .skippedMissingMetadata => "skipped (missing metadata)"
  | .skippedUnsupported => "skipped (unsupported)"
  | .passStarted => "pass started"
  | .passCompleted => "pass completed"
  | .verificationFailed => "verification failed"

/-- What became of the step, if the event is about one. -/
def outcome? : EventKind → Option Outcome
  | .skippedMissingMetadata => some .skippedMissingMetadata
  | .skippedUnsupported => some .skippedUnsupported
  | .passStarted | .passCompleted | .verificationFailed => none
  | _ => some .applied

/-- Something was changed. -/
def isTransformation (kind : EventKind) : Bool :=
  kind.outcome? == some .applied

end EventKind

/-- A recorded event. -/
structure Event where
  kind : EventKind
  /-- The method that it is about, by class and name. -/
  method : Option String
  /-- The index of an instruction of the method. -/
  location : Option Nat
  message : String
  /-- The pass that recorded it. -/
  pass : Option String
deriving DecidableEq

namespace Event

/-- An event about the program as a whole. -/
def general (kind : EventKind) (message : String) : Event :=
  ⟨kind, none, none, message, none⟩

/-- An event about an instruction of a method. -/
def located (kind : EventKind) (method : String) (location : Nat) (message : String) : Event :=
  ⟨kind, some method, some location, message, none⟩

/-- The same event, recorded by a pass. -/
def recordedBy (event : Event) (pass : String) : Event :=
  { event with pass := some pass }

/-- Written `[kind] method@location: message`. -/
def render (event : Event) : String :=
  let place :=
    match event.method, event.location with
    | some method, some location => s!"{method}@{location}: "
    | some method, none => s!"{method}: "
    | none, _ => ""
  "[" ++ event.kind.description ++ "] " ++ place ++ event.message

end Event
end AccessProfiler
