import AccessProfiler.Image.Encode
import AccessProfiler.Instrument.Session
import AccessProfiler.Machine.Datum
import AccessProfiler.Wrapping.Adaptation

/-!
# Writing results as JSON

What a transformation counted, what it generated, and what a machine computed.  The declarations and
references within are written as in the image of a program.
-/

namespace AccessProfiler

/-- A count as a number. -/
def Json.count (number : Nat) : Json :=
  .integer number

/-- Texts as an array. -/
def Json.texts (items : List String) : Json :=
  .array (items.map Json.string)

/-- The settings, without the sink. -/
def Settings.members (settings : Settings) : List (String × Json) :=
  [("package", .string settings.package), ("counter_class", .string settings.counterClass),
    ("counter_class_name", .string settings.counterClassName), ("objects", .bool settings.objects),
    ("arrays", .bool settings.arrays), ("type_profiling", .bool settings.typeProfiling),
    ("call_tracking", .bool settings.callTracking), ("verify", .bool settings.verify),
    ("excluded_packages", .texts settings.excluded)]

/-- The outcomes that occur, with their counts. -/
def Journal.outcomesToJson (journal : Journal) : Json :=
  .array (journal.outcomes.map fun (outcome, count) =>
    .array [.string outcome.name, .count count])

/-- The counts with the sentence that reports them. -/
def Tally.toJson (tally : Tally) (elapsed : Elapsed) : Json :=
  .object
    [("methods_rewritten", .count tally.methodsTransformed),
      ("classes_instrumented", .count tally.classesInstrumented),
      ("constructors_patched", .count tally.constructorsPatched),
      ("field_accesses", .count tally.fieldAccesses),
      ("wrappers_created", .count tally.wrappersCreated),
      ("array_rewrites", .count tally.arrayChanges),
      ("adaptations", .count tally.adaptations),
      ("profiling_calls", .count tally.profilingCalls),
      ("skipped_missing_metadata", .count tally.skippedMissingMetadata),
      ("skipped_unsupported", .count tally.skippedUnsupported),
      ("verification_failures", .count tally.verificationFailures),
      ("summary", .string (tally.summary elapsed))]

def Profile.toJson (profile : Profile) : Json :=
  .object
    [("class", .string profile.className), ("static_counter", profile.staticCounter.toJson),
      ("serial", profile.serial.toJson), ("reads", profile.reads.toJson),
      ("writes", profile.writes.toJson), ("inc_reads", profile.incReads.toJson),
      ("inc_writes", profile.incWrites.toJson),
      ("call_kind", .string profile.callKind.render)]

def Wrapper.toJson (wrapper : Wrapper) : Json :=
  .object
    [("name", .string wrapper.name), ("element", wrapper.element.toJson),
      ("type", wrapper.type.toJson), ("array_type", wrapper.arrayType.toJson),
      ("array_field", wrapper.arrayField.toJson), ("from_array", wrapper.fromArray.toJson),
      ("with_length", wrapper.withLength.toJson), ("get", wrapper.get.toJson),
      ("set", wrapper.set.toJson), ("profile", wrapper.profile.toJson)]

def TypeCounter.toJson (counter : TypeCounter) : Json :=
  .object
    [("name", .string counter.name), ("read_field", counter.readField.toJson),
      ("write_field", counter.writeField.toJson), ("read", counter.read.toJson),
      ("write", counter.write.toJson), ("read_call", (counter.call .read).toJson),
      ("write_call", (counter.call .write).toJson)]

def CallCounter.toJson (counter : CallCounter) : Json :=
  .object
    [("name", .string counter.name), ("field", counter.field.toJson),
      ("method", counter.method.toJson), ("call", counter.call.toJson)]

/-- An adaptation as its name, followed by the wrappers that take part. -/
def Adaptation.toJson : Adaptation → Json
  | .unwrap wrapper => .texts ["unwrap", wrapper.name]
  | .wrap wrapper => .texts ["wrap", wrapper.name]
  | .rewrap source target => .texts ["rewrap", source.name, target.name]
  | .unsupported => .texts ["unsupported"]

/-- The kind of a datum. -/
def Datum.kind : Datum → String
  | .void => "void"
  | .int _ => "int"
  | .long _ => "long"
  | .float _ => "float"
  | .double _ => "double"
  | .str _ => "str"
  | .null => "null"
  | .reference _ => "ref"

/-- A datum as its kind and its text. -/
def Datum.toJson (datum : Datum) : Json :=
  .object [("kind", .string datum.kind), ("text", .string datum.render)]

/-- A printed line as its parts. -/
def TraceLine.toJson (line : TraceLine) : Json :=
  .object
    [("tag", .string line.tag), ("label", .string line.label), ("value", .integer line.value)]

end AccessProfiler
