import AccessProfiler.Language.Reference

/-!
# What can go wrong with a program

A `Defect` is a fault in the shape of a program or of a change to it; an `Error` is what an
operation on programs reports.  Each cause is a constructor, and `message` puts it into words.
-/

namespace AccessProfiler

/-- A fault in the shape of a program or of a change to it. -/
inductive Defect
  | duplicateLocal (name : String)
  | fieldClash (owner name : String) (declared requested : Ty)
  | duplicateMethod (method : MethodRef)
  | conflictingReplacements (index : Nat)
  | editOutside (index size : Nat)
  | interfaceInstrumented (className : String)
  | receiverUnbound (className : String)
deriving DecidableEq

def Defect.message : Defect → String
  | .duplicateLocal name => s!"duplicate local '{name}'"
  | .fieldClash owner name declared requested =>
    "field " ++ owner ++ "." ++ name ++ " already declared as " ++ declared.render ++
      ", requested " ++ requested.render
  | .duplicateMethod method => "duplicate method " ++ method.render
  | .conflictingReplacements index => s!"conflicting replacements for instruction {index}"
  | .editOutside index size => s!"edit at {index} is outside a body of {size} instructions"
  | .interfaceInstrumented className => s!"cannot instrument interface {className}"
  | .receiverUnbound className => s!"constructor of {className} has no this binding"

/-- What an operation on programs reports. -/
inductive Error
  | malformed (defect : Defect)
  /-- The first violation that a check found, and how many there are. -/
  | unverified (method message : String) (count : Nat)
  | unknownClass (name : String)
  | unknownMethod (name : String)
  | unknownField (name : String)
  | duplicateClass (name : String)
  | invalidType (text : String)
deriving DecidableEq

def Error.message : Error → String
  | .malformed defect => defect.message
  | .unverified method message count =>
    s!"Verification failed in {method}: {message} ({count} violation(s))"
  | .unknownClass name => s!"Unknown class - {name}"
  | .unknownMethod name => s!"Unknown method - {name}"
  | .unknownField name => s!"Unknown field - {name}"
  | .duplicateClass name => s!"Duplicate class - {name}"
  | .invalidType text => s!"Invalid type - '{text}'"

end AccessProfiler
