import AccessProfiler.Language.Program
import AccessProfiler.Table
import AccessProfiler.Text.Fresh
import AccessProfiler.Text.Replacing

/-!
# Static counters

One generated class holds a static counter for everything that is counted apart from the instances:
how many instances a class has, how often a type is read and written, how often a method is called.
Each owner of a counter has a field of its own.  The field is named for a key; if another owner has
that name, the key is numbered, from two on.
-/

namespace AccessProfiler

/-- What a static counter counts. -/
inductive CounterOwner
  | instances (name : String)
  | reads (name : String)
  | writes (name : String)
  | calls (name : String)
deriving DecidableEq

def CounterOwner.render : CounterOwner → String
  | .instances name => "instances of " ++ name
  | .reads name => "reads of " ++ name
  | .writes name => "writes of " ++ name
  | .calls name => "calls of " ++ name

/-- The owner of a kind; instances are counted unless another kind is spelled. -/
def CounterOwner.ofKind (kind name : String) : CounterOwner :=
  match kind with
  | "reads" => .reads name
  | "writes" => .writes name
  | "calls" => .calls name
  | _ => .instances name

/-- How the name of every counter ends. -/
def counterEnding : String := "Counter"

/-- The key of a counter, which is its name without the ending. -/
def counterKey (field : FieldRef) : String :=
  Text.withoutEnding counterEnding field.name

/-- The counters that there are: the field of each owner, and the owner of each name. -/
structure CounterTable where
  className : String
  fields : Table CounterOwner FieldRef
  names : Table String CounterOwner
deriving DecidableEq

namespace CounterTable

/-- No counters on a class. -/
def empty (className : String) : CounterTable :=
  ⟨className, .empty, .empty⟩

/-- The names for a key in the order in which they are tried, counted from zero. -/
def candidate (key : String) : Nat → String
  | 0 => key ++ counterEnding
  | attempt + 1 => key ++ toString (attempt + 2) ++ counterEnding

/-- The names that other owners have. -/
def takenFrom (table : CounterTable) (owner : CounterOwner) : List String :=
  (table.names.entries.filter fun entry => entry.2 ≠ owner).map Prod.fst

/-- The first name for a key that no other owner has. -/
def nameFor (table : CounterTable) (owner : CounterOwner) (key : String) : String :=
  Text.firstFree (table.takenFrom owner) (candidate key)

/-- Give a name to an owner. -/
def claim (table : CounterTable) (owner : CounterOwner) (key : String) : String × CounterTable :=
  let name := table.nameFor owner key
  (name, { table with names := table.names.put name owner })

/-- The counter of a name. -/
def named? (table : CounterTable) (name : String) : Option FieldRef :=
  (table.names.get? name).bind table.fields.get?

/-- How many counters there are. -/
def size (table : CounterTable) : Nat :=
  table.fields.entries.length

/-- The class is the one that holds the counters. -/
def holds (table : CounterTable) (className : String) : Bool :=
  className == table.className

/-- The declaration of the class of the counters before it has any. -/
def declaration (table : CounterTable) : Class :=
  .plain table.className (Class.syntheticFlag.union Class.counterFlag)

end CounterTable
end AccessProfiler
