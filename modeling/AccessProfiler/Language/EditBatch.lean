import AccessProfiler.Language.Body
import AccessProfiler.Table

/-!
# Batches of edits

A body is never changed while it is walked.  Edits are queued under the index of an instruction of
the body as it was walked, and applied together: every index gets what was inserted before it, in
the order of queueing, and then its replacement or else the instruction itself.  Inserting before
the index past the last instruction appends.
-/

namespace AccessProfiler

/-- What is queued for one index. -/
structure Edit where
  before : List Instruction
  replacement : Option (List Instruction)
deriving DecidableEq

/-- Nothing is inserted and nothing is replaced. -/
def Edit.none : Edit := ⟨[], Option.none⟩

/-- Edits by the index that they are queued for. -/
structure EditBatch where
  edits : Table Nat Edit
deriving DecidableEq

namespace EditBatch

/-- Nothing is queued. -/
def empty : EditBatch := ⟨.empty⟩

instance : Inhabited EditBatch := ⟨.empty⟩

/-- What is queued for an index. -/
def editAt (batch : EditBatch) (index : Nat) : Edit :=
  (batch.edits.get? index).getD .none

/-- Queue instructions in front of an index. -/
def insertBefore
    (batch : EditBatch)
    (index : Nat)
    (instructions : List Instruction) : EditBatch :=
  let edit := batch.editAt index
  ⟨batch.edits.put index { edit with before := edit.before ++ instructions }⟩

/-- A replacement is queued for an index. -/
def isReplaced (batch : EditBatch) (index : Nat) : Bool :=
  (batch.editAt index).replacement.isSome

/-- Queue the replacement of an instruction; each is replaced at most once. -/
def replace
    (batch : EditBatch)
    (index : Nat)
    (instructions : List Instruction) : Except Defect EditBatch :=
  if batch.isReplaced index then
    .error (.conflictingReplacements index)
  else
    .ok ⟨batch.edits.put index { batch.editAt index with replacement := some instructions }⟩

/-- For how many indices something is queued. -/
def size (batch : EditBatch) : Nat :=
  batch.edits.entries.length

def isEmpty (batch : EditBatch) : Bool :=
  batch.edits.entries.isEmpty

/-- The largest index that lies outside of a body of the given size: beyond its end or, if something
is to be replaced there, at its end. -/
def outside? (batch : EditBatch) (size : Nat) : Option Nat :=
  match batch.edits.keys.max? with
  | some last => if size < last ∨ (last = size ∧ batch.isReplaced last) then some last else none
  | none => none

/-- The instructions that stand for one instruction afterwards. -/
def edited (batch : EditBatch) (index : Nat) (instruction : Instruction) : List Instruction :=
  let edit := batch.editAt index
  edit.before ++ edit.replacement.getD [instruction]

/-- The instructions after all edits. -/
def applyTo (batch : EditBatch) (instructions : List Instruction) : List Instruction :=
  (instructions.zipIdx.flatMap fun (instruction, index) => batch.edited index instruction) ++
    (batch.editAt instructions.length).before

/-- Apply the batch to a body; an edit outside of the body is refused and nothing is changed. -/
def apply (batch : EditBatch) (body : Body) : Except Defect Body :=
  match batch.outside? body.instructions.length with
  | some index => .error (.editOutside index body.instructions.length)
  | none => .ok { body with instructions := batch.applyTo body.instructions }

end EditBatch
end AccessProfiler
