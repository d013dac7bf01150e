import AccessProfiler.Number.Binary

/-!
# JSON values

Programs are exchanged as JSON.  A number without fraction and exponent that fits in sixty-four bits
is an integer; every other number is a floating point number.  An object has at most one member of a
name.
-/

namespace AccessProfiler

open Number

/-- A JSON value. -/
inductive Json
  | null
  | bool (value : Bool)
  | integer (value : Int)
  | single (value : Binary32)
  | double (value : Binary64)
  | string (value : String)
  | array (elements : List Json)
  | object (members : List (String × Json))

namespace Json

instance : Inhabited Json := ⟨.null⟩

/-- The value of a member of an object. -/
def member? (name : String) : Json → Option Json
  | .object members => members.lookup name
  | _ => none

/-- An object whose absent members are left out. -/
def objectOf (members : List (String × Option Json)) : Json :=
  .object (members.filterMap fun entry => entry.2.map (entry.1, ·))

/-- The absent value is written as null. -/
def ofOption (value : Option Json) : Json :=
  value.getD .null

end Json
end AccessProfiler
