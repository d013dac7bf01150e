import AccessProfiler.Language.Instruction

/-!
# The trace sink

Inserted code reports through one static method outside of the program, which takes a label and a
number and prints them behind a tag.  Labels end in ` = ` and have two shapes: the serial number of
an object, and a counter of some operation.
-/

namespace AccessProfiler

/-- The class and the name of the sink method, and the tag of the lines it prints. -/
structure Sink where
  owner : String
  method : String
  tag : String
deriving DecidableEq

namespace Sink

/-- The sink that is used unless another one is named. -/
def standard : Sink := ⟨"heapscope.runtime.Trace", "emit", "HEAPSCOPE"⟩

/-- How calls refer to the sink method. -/
def methodRef (sink : Sink) : MethodRef :=
  ⟨sink.owner, sink.method, [.string, .int], .void⟩

/-- The call that reports a number under a label. -/
def report (sink : Sink) (label : String) (value : Operand) : Instruction :=
  .invoke (.ofStatic sink.methodRef [.literal (.str label), value])

/-- The label of a serial number. -/
def serialLabel (name : String) : String :=
  name ++ " serial id = "

/-- The label of a counter of an operation. -/
def counterLabel (name operation : String) : String :=
  name ++ " " ++ operation ++ " counter = "

end Sink

/-- A line that was printed through the sink. -/
structure TraceLine where
  tag : String
  label : String
  value : Int
deriving DecidableEq

/-- Written `tag: label` with the value right behind the label. -/
def TraceLine.render (line : TraceLine) : String :=
  line.tag ++ ": " ++ line.label ++ toString line.value

end AccessProfiler
