import AccessProfiler.Machine.Failure
import AccessProfiler.Table

/-!
# The heap

Objects are instances of classes or arrays, and are known by the order in which they came to be.  An
instance keeps its fields by declaring class and name, so that a class and its superclass may both
have a field of one name.  What was never stored reads as the zero of its type.  An operation that
fails leaves the heap as it was.
-/

namespace AccessProfiler

/-- Values of fields, by declaring class and name. -/
abbrev FieldTable := Table (String × String) Datum

namespace FieldTable

/-- The value of a field. -/
def read (fields : FieldTable) (field : FieldRef) : Datum :=
  (fields.get? (field.owner, field.name)).getD (.zero field.type)

/-- Store a value in a field. -/
def write (fields : FieldTable) (field : FieldRef) (value : Datum) : FieldTable :=
  fields.put (field.owner, field.name) value

end FieldTable

/-- An object. -/
inductive HeapObject
  | instanceOf (className : String) (fields : FieldTable)
  | array (element : Ty) (values : Array Datum)
deriving DecidableEq

/-- The name of the kind of an object. -/
def HeapObject.kind : HeapObject → String
  | .instanceOf _ _ => "instance"
  | .array _ _ => "array"

/-- The objects, and how many there may be; zero stands for any number. -/
structure Heap where
  objects : Array HeapObject
  limit : Nat
deriving DecidableEq

namespace Heap

def empty (limit : Nat) : Heap := ⟨#[], limit⟩

def size (heap : Heap) : Nat :=
  heap.objects.size

/-- The object in a slot. -/
def object (heap : Heap) (slot : Nat) : Except Failure HeapObject :=
  match heap.objects[slot]? with
  | some object => .ok object
  | none => .error (.fault (.danglingReference slot))

/-- Put another object into a slot. -/
def replace (heap : Heap) (slot : Nat) (object : HeapObject) : Heap :=
  { heap with objects := heap.objects.setIfInBounds slot object }

/-- Add an object. -/
def allocate (heap : Heap) (object : HeapObject) : Except Failure (Nat × Heap) :=
  if 0 < heap.limit ∧ heap.limit ≤ heap.size then
    .error (.excess (.objects heap.limit))
  else
    .ok (heap.size, { heap with objects := heap.objects.push object })

/-- A new instance of a class. -/
def allocateInstance (heap : Heap) (className : String) : Except Failure (Nat × Heap) :=
  heap.allocate (.instanceOf className .empty)

/-- A new array, each element the zero of its type. -/
def allocateArray
    (heap : Heap)
    (element : Ty)
    (length : Nat) : Except Failure (Nat × Heap) :=
  heap.allocate (.array element (Array.replicate length (.zero element)))

/-- The class of an instance; an array has none. -/
def className? (heap : Heap) (slot : Nat) : Except Failure (Option String) := do
  match ← heap.object slot with
  | .instanceOf className _ => return some className
  | .array _ _ => return none

/-- The value of a field of an instance. -/
def readField (heap : Heap) (slot : Nat) (field : FieldRef) : Except Failure Datum := do
  match ← heap.object slot with
  | .instanceOf _ fields => return fields.read field
  | .array _ _ => throw (.fault (.readFromArray field))

/-- Store a value in a field of an instance. -/
def writeField
    (heap : Heap)
    (slot : Nat)
    (field : FieldRef)
    (value : Datum) : Except Failure Heap := do
  match ← heap.object slot with
  | .instanceOf className fields =>
    return heap.replace slot (.instanceOf className (fields.write field value))
  | .array _ _ => throw (.fault (.writtenToArray field))

/-- The elements of an array. -/
def elements (heap : Heap) (slot : Nat) : Except Failure (Ty × Array Datum) := do
  match ← heap.object slot with
  | .array element values => return (element, values)
  | .instanceOf className _ => throw (.fault (.arrayOperation className))

/-- The position that an index means in an array. -/
def position (length : Nat) (index : Int32) : Except Failure Nat :=
  if 0 ≤ index.toInt ∧ index.toInt < length then .ok index.toInt.toNat
  else .error (.fault (.indexOutOfBounds index length))

/-- An element of an array. -/
def readElement (heap : Heap) (slot : Nat) (index : Int32) : Except Failure Datum := do
  let (element, values) ← heap.elements slot
  let position ← position values.size index
  return values[position]?.getD (.zero element)

/-- Store a value in an element of an array. -/
def writeElement
    (heap : Heap)
    (slot : Nat)
    (index : Int32)
    (value : Datum) : Except Failure Heap := do
  let (element, values) ← heap.elements slot
  let position ← position values.size index
  return heap.replace slot (.array element (values.setIfInBounds position value))

/-- How many elements an array has. -/
def arrayLength (heap : Heap) (slot : Nat) : Except Failure Nat := do
  let (_, values) ← heap.elements slot
  return values.size

/-- The instances of exactly this class, oldest first. -/
def instancesOf (heap : Heap) (className : String) : List Nat :=
  (List.range heap.size).filter fun slot =>
    match heap.objects[slot]? with
    | some (.instanceOf name _) => name == className
    | _ => false

end Heap
end AccessProfiler
