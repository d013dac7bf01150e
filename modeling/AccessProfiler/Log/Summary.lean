import AccessProfiler.Log.Record

/-!
# Summaries of logs

A summary keeps the last value of every name and operation.  When the timestamps of a log have moved
on by an interval since the last snapshot, the values so far are kept as a snapshot; the first
timestamp only starts the clock.  A timestamp earlier than the last one lies on the next day.
-/

namespace AccessProfiler

open Number

/-- What is looked for in a log. -/
structure LogSettings where
  tag : String
  /-- The seconds between snapshots. -/
  interval : Binary64

/-- The standard tag, and a snapshot every ten seconds. -/
def LogSettings.standard : LogSettings := ⟨"HEAPSCOPE", .ofInt 10⟩

/-- The last value of a name and operation. -/
structure CounterEntry where
  name : String
  operation : Operation
  value : Int
deriving DecidableEq

namespace CounterEntry

/-- Entries are ordered by name and then by operation. -/
def precedes (left right : CounterEntry) : Bool :=
  left.name < right.name || (left.name == right.name && left.operation.rank < right.operation.rank)

/-- Written `name -> value operation`, on a line. -/
def render (entry : CounterEntry) : String :=
  entry.name ++ " -> " ++ toString entry.value ++ " " ++ entry.operation.label ++ "\n"

end CounterEntry

/-- Put an entry into its place, where it displaces one of its name and operation. -/
def putCounter (entry : CounterEntry) : List CounterEntry → List CounterEntry
  | [] => [entry]
  | other :: rest =>
    if other.precedes entry then other :: putCounter entry rest
    else if entry.precedes other then entry :: other :: rest
    else entry :: rest

/-- The values at some time. -/
structure Snapshot where
  time : Timestamp
  counters : List CounterEntry
deriving DecidableEq

/-- What a log adds up to. -/
structure LogSummary where
  records : Nat
  malformed : Nat
  snapshots : List Snapshot
  latest : List CounterEntry
deriving DecidableEq

namespace LogSummary

/-- The last value of a name and operation. -/
def latestValue? (summary : LogSummary) (name : String) (operation : Operation) : Option Int :=
  (summary.latest.find? fun entry => entry.name == name && entry.operation == operation).map
    CounterEntry.value

/-- The snapshots and the last values, line by line. -/
def render (summary : LogSummary) : String :=
  let counters (entries : List CounterEntry) := String.join (entries.map CounterEntry.render)
  let snapshot (snapshot : Snapshot) :=
    "Time: " ++ snapshot.time.render ++ "\n" ++ counters snapshot.counters ++ "==============\n"
  String.join (summary.snapshots.map snapshot) ++ "Final:\n" ++ counters summary.latest

end LogSummary

/-- A summary in the making. -/
structure Summarizer where
  settings : LogSettings
  records : Nat
  malformed : Nat
  snapshots : List Snapshot
  latest : List CounterEntry
  /-- The seconds of the day at the last snapshot, or at the first timestamp. -/
  clock : Option Binary64

namespace Summarizer

/-- Nothing was read yet. -/
def start (settings : LogSettings) : Summarizer :=
  ⟨settings, 0, 0, [], [], none⟩

def secondsPerDay : Binary64 := .ofInt 86400

/-- The seconds from one time of day to the next occurrence of another. -/
def elapsed (last now : Binary64) : Binary64 :=
  let difference := now.sub last
  if difference.lt .zero then difference.add secondsPerDay else difference

/-- Let the clock move on to a timestamp. -/
def advance (summarizer : Summarizer) (time : Timestamp) : Summarizer :=
  let now := time.ofDay
  match summarizer.clock with
  | none => { summarizer with clock := some now }
  | some last =>
    if summarizer.settings.interval.le (elapsed last now) then
      { summarizer with
        snapshots := summarizer.snapshots ++ [⟨time, summarizer.latest⟩]
        clock := some now }
    else summarizer

/-- Take a record in. -/
def feed (summarizer : Summarizer) (record : LogRecord) : Summarizer :=
  let counted :=
    { summarizer with
      records := summarizer.records + 1
      latest := putCounter ⟨record.name, record.operation, record.value⟩ summarizer.latest }
  match record.timestamp with
  | some time => counted.advance time
  | none => counted

/-- Take a line in; tells whether it is a record. -/
def feedLine (summarizer : Summarizer) (line : String) : Bool × Summarizer :=
  match LogRecord.parse? summarizer.settings.tag line with
  | some record => (true, summarizer.feed record)
  | none =>
    let malformed := if LogRecord.isMarked summarizer.settings.tag line then 1 else 0
    (false, { summarizer with malformed := summarizer.malformed + malformed })

/-- Take all lines of a text in. -/
def feedText (summarizer : Summarizer) (text : String) : Summarizer :=
  (Text.lines text.toList).foldl (fun state line => (state.feedLine (String.ofList line)).2)
    summarizer

/-- Take the lines of some bytes in, up to the first that is no text; tells whether all were. -/
def feedByteLines (summarizer : Summarizer) : List (List UInt8) → Bool × Summarizer
  | [] => (true, summarizer)
  | line :: rest =>
    match String.fromUTF8? (ByteArray.mk line.toArray) with
    | some text => (summarizer.feedLine text).2.feedByteLines rest
    | none => (false, summarizer)

/-- Take some bytes in. -/
def feedBytes (summarizer : Summarizer) (bytes : List UInt8) : Bool × Summarizer :=
  summarizer.feedByteLines (Text.byteLines bytes)

/-- What was read adds up to this. -/
def finish (summarizer : Summarizer) : LogSummary :=
  ⟨summarizer.records, summarizer.malformed, summarizer.snapshots, summarizer.latest⟩

end Summarizer

/-- The summary of a log. -/
def summarize (settings : LogSettings) (text : String) : LogSummary :=
  ((Summarizer.start settings).feedText text).finish

end AccessProfiler
