import AccessProfiler.Language.Hierarchy
import AccessProfiler.Language.Sink
import AccessProfiler.Machine.Heap

/-!
# The state of a machine

A machine runs the bodies of one program.  Its state is what outlives a call: the heap, the static
fields, the lines that were printed, the classes that were initialized, and the counts of
instructions and of open calls that the limits are about.
-/

namespace AccessProfiler

/-- How far a run may go; zero stands for no limit. -/
structure Limits where
  instructions : Nat
  depth : Nat
  objects : Nat
deriving DecidableEq

namespace Limits

/-- Ten million instructions, five hundred and twelve open calls, a million objects. -/
def standard : Limits := ⟨10000000, 512, 1000000⟩

/-- Nothing is limited. -/
def unlimited : Limits := ⟨0, 0, 0⟩

end Limits

/-- What a machine runs, and under which limits. -/
structure World where
  program : Program
  sink : Sink
  limits : Limits

/-- What outlives a call. -/
structure Machine where
  heap : Heap
  statics : FieldTable
  trace : List TraceLine
  initialized : List String
  executed : Nat
  depth : Nat
deriving DecidableEq

/-- Nothing has run yet. -/
def Machine.fresh (limits : Limits) : Machine :=
  ⟨.empty limits.objects, .empty, [], [], 0, 0⟩

/-- A computation of a machine; what a failed one changed stays changed. -/
abbrev Run := ExceptT Failure (StateM Machine)

namespace Run

/-- Run on a machine. -/
def on {Result : Type} (run : Run Result) (machine : Machine) : Except Failure Result × Machine :=
  StateT.run (ExceptT.run run) machine

/-- The result of a computation that needs no machine. -/
def ofExcept {Result : Type} (result : Except Failure Result) : Run Result :=
  ExceptT.mk (pure result)

/-- Look at the heap. -/
def askHeap {Result : Type} (question : Heap → Except Failure Result) : Run Result := do
  let machine ← get
  ofExcept (question machine.heap)

/-- Change the heap. -/
def changeHeap (change : Heap → Except Failure Heap) : Run Unit := do
  let machine ← get
  let heap ← ofExcept (change machine.heap)
  set { machine with heap }

/-- Add an object to the heap. -/
def allocate (allocation : Heap → Except Failure (Nat × Heap)) : Run Datum := do
  let machine ← get
  let (slot, heap) ← ofExcept (allocation machine.heap)
  set { machine with heap }
  return .reference slot

/-- Run with one more open call, which is closed again whatever the outcome. -/
def nested {Result : Type} (run : Run Result) : Run Result :=
  fun machine =>
    let (result, after) := run { machine with depth := machine.depth + 1 }
    (result, { after with depth := after.depth - 1 })

/-- Count an instruction, unless no more may run.  One that may not is counted all the same. -/
def tick (limits : Limits) : Run Unit := do
  modify fun machine => { machine with executed := machine.executed + 1 }
  let machine ← get
  if 0 < limits.instructions ∧ limits.instructions < machine.executed then
    throw (.excess (.instructions limits.instructions))

/-- Mark a class as initialized; tells whether it was not before. -/
def mark (className : String) : Run Bool := do
  let machine ← get
  if machine.initialized.contains className then
    return false
  else
    set { machine with initialized := machine.initialized ++ [className] }
    return true

/-- Print a line. -/
def print (line : TraceLine) : Run Unit :=
  modify fun machine => { machine with trace := machine.trace ++ [line] }

end Run
end AccessProfiler
