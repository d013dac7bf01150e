import AccessProfiler.Language.Hierarchy

/-!
# Violations, and how the checker finds members

A violation is a place where a program breaks a rule.  The checker looks for the declaration of a
member in a class and everything above it.  Where part of that is not known, or belongs to a
library, a member that was not found may exist all the same, and the reference is trusted.
-/

namespace AccessProfiler

/-- A broken rule: in which class or method, at which instruction, and what is wrong. -/
structure Violation where
  method : String
  location : Option Nat
  message : String
deriving DecidableEq

/-- Written `method@location: message`. -/
def Violation.render (violation : Violation) : String :=
  match violation.location with
  | some location => s!"{violation.method}@{location}: {violation.message}"
  | none => s!"{violation.method}: {violation.message}"

/-- The first violation of a list as an error, if there is one. -/
def firstViolation (violations : List Violation) : Except Error Unit :=
  match violations with
  | [] => .ok ()
  | first :: _ =>
    let message :=
      match first.location with
      | some location => s!"instruction {location}: {first.message}"
      | none => first.message
    .error (.unverified first.method message violations.length)

/-- What the search for a declaration comes to. -/
inductive Lookup (Declaration : Type)
  | found (declaration : Declaration)
  /-- Everything above the class is known, and nothing declares the member. -/
  | missing
  /-- Part of what is above the class is not known. -/
  | unknown

namespace Program

/-- Everything that the program says about a class is in the program: it belongs to the application
or it is the root class, whose members are known. -/
def isClosed (program : Program) (name : String) : Bool :=
  match program.class? name with
  | some declaration => declaration.isApplication
  | none => name == objectClass

/-- Search a class and everything above it, nearest first. -/
def lookup
    {Declaration : Type}
    (program : Program)
    (className : String)
    (declared : Class → Option Declaration) : Lookup Declaration :=
  let visited := program.ancestors className
  match visited.findSome? fun name => (program.class? name).bind declared with
  | some declaration => .found declaration
  | none => if visited.all program.isClosed then .missing else .unknown

end Program
end AccessProfiler
