import AccessProfiler.Journal.Event
import AccessProfiler.Number.Display

/-!
# What a journal adds up to

The counts of a list of events, and the sentences that report them.
-/

namespace AccessProfiler

/-- The events of a transformation, in the order in which they were recorded. -/
abbrev Journal := List Event

namespace Journal

/-- How many events are of a kind. -/
def count (journal : Journal) (kind : EventKind) : Nat :=
  journal.countP fun event => event.kind = kind

/-- The kinds that occur, with their counts. -/
def kinds (journal : Journal) : List (EventKind × Nat) :=
  (EventKind.all.map fun kind => (kind, journal.count kind)).filter fun entry => 0 < entry.2

/-- The outcomes that occur, with their counts. -/
def outcomes (journal : Journal) : List (Outcome × Nat) :=
  (Outcome.all.map fun outcome =>
      (outcome, journal.countP fun event => event.kind.outcome? == some outcome)).filter
    fun entry => 0 < entry.2

/-- The methods in which something was changed, each once. -/
def methodsAffected (journal : Journal) : List String :=
  ((journal.filter fun event => event.kind.isTransformation).filterMap Event.method).eraseDups

/-- The kinds that have an outcome, with their counts, in the order of their texts. -/
def summary (journal : Journal) : String :=
  if journal.isEmpty then "no events"
  else
    let parts :=
      (journal.kinds.filter fun entry => entry.1.outcome?.isSome).map fun (kind, count) =>
        toString count ++ " " ++ kind.description
    if parts.isEmpty then toString journal.length ++ " events"
    else ", ".intercalate (parts.mergeSort fun left right => left ≤ right)

end Journal

/-- A length of time in nanoseconds. -/
structure Elapsed where
  nanoseconds : Nat
deriving DecidableEq

/-- Written in the largest unit of which there is one, with two places. -/
def Elapsed.render (elapsed : Elapsed) : String :=
  let time := elapsed.nanoseconds
  let (unit, name) :=
    if 1000000000 ≤ time then (1000000000, "s")
    else if 1000000 ≤ time then (1000000, "ms")
    else if 1000 ≤ time then (1000, "µs")
    else (1, "ns")
  Number.Decimal.withPlaces (Number.roundHalfEven (time * 100) unit) 2 ++ name

/-- The counts that a transformation reports. -/
structure Tally where
  methodsTransformed : Nat
  classesInstrumented : Nat
  constructorsPatched : Nat
  fieldAccesses : Nat
  wrappersCreated : Nat
  arrayChanges : Nat
  adaptations : Nat
  profilingCalls : Nat
  skippedMissingMetadata : Nat
  skippedUnsupported : Nat
  verificationFailures : Nat
deriving DecidableEq

namespace Tally

/-- The counts of a journal. -/
def ofJournal (journal : Journal) : Tally where
  methodsTransformed := journal.methodsAffected.length
  classesInstrumented := journal.count .classInstrumented
  constructorsPatched := journal.count .constructorPatched
  fieldAccesses := journal.count .fieldAccessInstrumented
  wrappersCreated := journal.count .wrapperSynthesized
  arrayChanges :=
    journal.count .allocationWrapped + journal.count .elementAccessWrapped +
      journal.count .signatureWrapped + journal.count .bindingRetyped
  adaptations := journal.count .adaptationInserted + journal.count .argumentUnwrapped
  profilingCalls := journal.count .typeCounterInserted + journal.count .callCounterInserted
  skippedMissingMetadata := journal.count .skippedMissingMetadata
  skippedUnsupported := journal.count .skippedUnsupported
  verificationFailures := journal.count .verificationFailed

/-- The counts that are not zero, in one sentence. -/
def summary (tally : Tally) (elapsed : Elapsed) : String :=
  let parts :=
    [(tally.classesInstrumented, "classes instrumented"),
      (tally.constructorsPatched, "constructors patched"),
      (tally.fieldAccesses, "field accesses"),
      (tally.wrappersCreated, "wrappers"),
      (tally.arrayChanges, "array rewrites"),
      (tally.adaptations, "adaptations"),
      (tally.profilingCalls, "profiling calls"),
      (tally.skippedMissingMetadata + tally.skippedUnsupported, "skipped")].filter
        fun part => 0 < part.1
  if parts.isEmpty then "no changes"
  else
    ", ".intercalate (parts.map fun part => toString part.1 ++ " " ++ part.2) ++
      s!" in {tally.methodsTransformed} methods (" ++ elapsed.render ++ ")"

end Tally
end AccessProfiler
