import AccessProfiler.Json.Basic
import AccessProfiler.Log.Summary

/-!
# Writing log summaries as JSON

A timestamp is written with its fields and with its text; a summary with its counts, the last
values, the snapshots and its text.
-/

namespace AccessProfiler

def Timestamp.toJson (stamp : Timestamp) : Json :=
  .object
    [("month", .integer stamp.month), ("day", .integer stamp.day), ("hour", .integer stamp.hour),
      ("minute", .integer stamp.minute), ("seconds", .double stamp.seconds),
      ("text", .string stamp.render), ("of_day", .double stamp.ofDay)]

def LogRecord.toJson (record : LogRecord) : Json :=
  .object
    [("timestamp", .ofOption (record.timestamp.map Timestamp.toJson)),
      ("name", .string record.name), ("operation", .string record.operation.name),
      ("label", .string record.operation.label), ("value", .integer record.value)]

def CounterEntry.toJson (entry : CounterEntry) : Json :=
  .object
    [("name", .string entry.name), ("operation", .string entry.operation.name),
      ("value", .integer entry.value)]

def Snapshot.toJson (snapshot : Snapshot) : Json :=
  .object
    [("time", snapshot.time.toJson),
      ("counters", .array (snapshot.counters.map CounterEntry.toJson))]

/-- The members of the object that a summary is written as. -/
def LogSummary.members (summary : LogSummary) : List (String × Json) :=
  [("records", .integer summary.records), ("malformed", .integer summary.malformed),
    ("latest", .array (summary.latest.map CounterEntry.toJson)),
    ("snapshots", .array (summary.snapshots.map Snapshot.toJson)),
    ("text", .string summary.render)]

end AccessProfiler
