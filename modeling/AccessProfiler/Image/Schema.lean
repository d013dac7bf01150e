import AccessProfiler.Json.Basic

/-!
# Records, variants and lists in JSON

How declarations are laid out in JSON, independent of what they declare.  A record is an object
whose unknown members are ignored; it may also be given as the list of its members in the order in
which they are declared.  A variant with members carries its tag among them or, where the tag is
the only member, as the name of that member.

Of several faults one is reported.  The members of an object are read in the alphabetical order of
their names, those of a list in the order of their declaration, and a member that is missing or one
too many is noticed after all that are there.
-/

namespace AccessProfiler

/-- Why a value is not what it should be. -/
inductive Unreadable
  /-- The value has another shape. -/
  | shape
  /-- The text stands where a type is expected and is none. -/
  | type (text : String)
deriving DecidableEq

/-- A reading of JSON. -/
abbrev Readable (Result : Type) := Except Unreadable Result

/-- How freely variants are spelled.  Where it is lenient, a tag among the members may be the
position of the variant, and the empty object does for null beside a tag without members. -/
inductive Latitude
  | strict
  | lenient
deriving DecidableEq

namespace Schema

/-- The members of an object or of a list by position. -/
abbrev Members := List (String × Json)

/-- The members that cannot be read, with the reasons. -/
abbrev Faults := List (String × Unreadable)

namespace Faults

/-- The reason of the first; if no member is at fault, one is missing. -/
def first : Faults → Unreadable
  | [] => .shape
  | (_, reason) :: _ => reason

/-- The fault whose name comes first in the alphabet. -/
def least? : Faults → Option (String × Unreadable)
  | [] => none
  | fault :: rest =>
    match least? rest with
    | some other => if other.1 < fault.1 then some other else some fault
    | none => some fault

/-- The reason of the alphabetically first; if no member is at fault, one is missing. -/
def alphabetical (faults : Faults) : Unreadable :=
  first faults.least?.toList

end Faults

/-- A reader of records: the names of its members in the order of their declaration, and what it
makes of those that are there, or all their faults. -/
structure RecordReader (Result : Type) where
  names : List String
  result : Members → Except Faults Result

namespace RecordReader

/-- Apply what one reader makes to what another makes; the faults of both are kept. -/
def apply
    {Argument Result : Type}
    (function : RecordReader (Argument → Result))
    (argument : RecordReader Argument) : RecordReader Result where
  names := function.names ++ argument.names
  result members :=
    match function.result members, argument.result members with
    | .ok function, .ok argument => .ok (function argument)
    | .ok _, .error faults => .error faults
    | .error faults, .ok _ => .error faults
    | .error earlier, .error later => .error (earlier ++ later)

instance : Applicative RecordReader where
  pure value := ⟨[], fun _ => .ok value⟩
  seq function argument := function.apply (argument ())

end RecordReader

/-- Read a member that may be missing. -/
def member?
    {Result : Type}
    (name : String)
    (read : Json → Readable Result) : RecordReader (Option Result) where
  names := [name]
  result members :=
    match members.lookup name with
    | none => .ok none
    | some value =>
      match read value with
      | .ok result => .ok (some result)
      | .error reason => .error [(name, reason)]

/-- Read a member that has to be there. -/
def required
    {Result : Type}
    (name : String)
    (read : Json → Readable Result) : RecordReader Result where
  names := [name]
  result members :=
    match (member? name read).result members with
    | .ok (some result) => .ok result
    | .ok none => .error []
    | .error faults => .error faults

/-- Read a member, or take a default if it is missing. -/
def optional
    {Result : Type}
    (name : String)
    (default : Result)
    (read : Json → Readable Result) : RecordReader Result :=
  (fun found => found.getD default) <$> member? name read

/-- Read null as the absent value. -/
def nullable
    {Result : Type}
    (read : Json → Readable Result) : Json → Readable (Option Result)
  | .null => .ok none
  | value => (read value).map some

/-- Read a member that may be missing or null. -/
def perhaps
    {Result : Type}
    (name : String)
    (read : Json → Readable Result) : RecordReader (Option Result) :=
  optional name none (nullable read)

/-- Read a record. -/
def record
    {Result : Type}
    (reader : RecordReader Result) : Json → Readable Result
  | .object members => (reader.result members).mapError Faults.alphabetical
  | .array elements =>
    match reader.result (reader.names.zip elements) with
    | .ok result => if elements.length ≤ reader.names.length then .ok result else .error .shape
    | .error faults => .error faults.first
  | _ => .error .shape

/-- Read every element of a list. -/
def list
    {Result : Type}
    (read : Json → Readable Result) : Json → Readable (List Result)
  | .array elements => elements.mapM read
  | _ => .error .shape

def string : Json → Readable String
  | .string text => .ok text
  | _ => .error .shape

def bool : Json → Readable Bool
  | .bool value => .ok value
  | _ => .error .shape

/-- An integer between two bounds, the upper one excluded. -/
def integer (lower upper : Int) : Json → Readable Int
  | .integer value => if lower ≤ value ∧ value < upper then .ok value else .error .shape
  | _ => .error .shape

/-- A natural number of the given number of bits. -/
def natural (bits : Nat) (value : Json) : Readable Nat :=
  (integer 0 (Int.pow 2 bits) value).map Int.toNat

/-- The value stands for nothing beside a tag. -/
def isNothing (latitude : Latitude) : Json → Bool
  | .null => true
  | .object [] => latitude = .lenient
  | _ => false

/-- A variant without members: its tag or an object with the tag as its only name. -/
def symbol (latitude : Latitude) : Json → Readable String
  | .string tag => .ok tag
  | .object [(tag, nothing)] => if isNothing latitude nothing then .ok tag else .error .shape
  | _ => .error .shape

/-- A tag among members: one of the given tags, or its position among them. -/
def tag (latitude : Latitude) (tags : List String) : Json → Readable String
  | .string tag => .ok tag
  | .integer position =>
    if latitude = .lenient ∧ 0 ≤ position then
      match tags[position.toNat]? with
      | some tag => .ok tag
      | none => .error .shape
    else .error .shape
  | _ => .error .shape

/-- A variant whose tag stands among its members, or in front of them in a list. -/
def tagged
    (latitude : Latitude)
    (key : String)
    (tags : List String) : Json → Readable (String × Json)
  | .object members =>
    match members.lookup key with
    | some value =>
      (tag latitude tags value).map
        (·, .object (members.filter fun entry => entry.1 != key))
    | none => .error .shape
  | .array (value :: rest) => (tag latitude tags value).map (·, .array rest)
  | _ => .error .shape

/-- A variant whose tag is its only name. -/
def single : Json → Readable (String × Json)
  | .object [(tag, value)] => .ok (tag, value)
  | _ => .error .shape

end Schema
end AccessProfiler
