import AccessProfiler.Log.Timestamp

/-!
# Log records

What a line of a log reports: the serial number of an object, or a count of some operation on a
class, a type or a method.  The report stands behind a tag; in front of it there may be a timestamp
and other columns, which are ignored.
-/

namespace AccessProfiler

/-- What is reported. -/
inductive Operation
  | read
  | write
  | functionCall
  | serial
deriving DecidableEq

namespace Operation

/-- Every operation, in order. -/
def all : List Operation := [.read, .write, .functionCall, .serial]

/-- The position in that order. -/
def rank : Operation → Nat
  | .read => 0
  | .write => 1
  | .functionCall => 2
  | .serial => 3

/-- The identifier of an operation. -/
def name : Operation → String
  | .read => "read"
  | .write => "write"
  | .functionCall => "function_call"
  | .serial => "serial"

/-- The words for an operation in a report. -/
def label : Operation → String
  | .read => "reads"
  | .write => "writes"
  | .functionCall => "function calls"
  | .serial => "serial id"

/-- The operation that the words between a name and `counter` mean. -/
def ofLabel? (label : String) : Option Operation :=
  match label with
  | "read" | "reads" => some .read
  | "write" | "writes" => some .write
  | "function call" | "function calls" => some .functionCall
  | _ => none

end Operation

/-- What a line reports. -/
structure LogRecord where
  timestamp : Option Timestamp
  name : String
  operation : Operation
  value : Int
deriving DecidableEq

namespace LogRecord

/-- The name and the operation that a label spells. -/
def label? (label : List Char) : Option (List Char × Operation) :=
  match Text.beforeEnding? " serial id".toList label with
  | some name => some (name, .serial)
  | none => do
    let counted ← Text.beforeEnding? " counter".toList label
    let (name, words) ← Text.cutFirst? [' '] counted
    let operation ← Operation.ofLabel? (String.ofList words)
    return (name, operation)

/-- The timestamp in the columns in front of the tag. -/
def timestamp? (columns : List Char) : Option Timestamp :=
  match Text.words columns with
  | date :: time :: _ => Timestamp.parse? date time
  | _ => none

/-- What marks a report: the tag and a colon. -/
def marker (tag : String) : List Char :=
  tag.toList ++ [':']

/-- Read a line. -/
def parse? (tag line : String) : Option LogRecord := do
  let (columns, rest) ← Text.cutFirst? (marker tag) line.toList
  let (label, value) ← Text.cutLast? " = ".toList (Text.trim rest)
  let value ← Number.long? (Text.trim value)
  let (name, operation) ← label? label
  if name.isEmpty || name.any Text.isBlank then none
  else some ⟨timestamp? columns, String.ofList name, operation, value⟩

/-- A report stands in the line, readable or not. -/
def isMarked (tag line : String) : Bool :=
  (Text.cutFirst? (marker tag) line.toList).isSome

end LogRecord
end AccessProfiler
