import AccessProfiler.Machine.Datum

/-!
# How a run fails

A run stops at a fault of the program, at a limit or because its entry does not exist.  The last
failure, `exhausted`, says that a computation was given too few steps to tell; the limits of a run
decide how many steps are enough.
-/

namespace AccessProfiler

/-- A fault of the running program. -/
inductive Fault
  | expectedInt (found : Datum)
  | nullDereference
  | expectedReference (found : Datum)
  | danglingReference (slot : Nat)
  | readFromArray (field : FieldRef)
  | writtenToArray (field : FieldRef)
  | arrayOperation (className : String)
  | indexOutOfBounds (index : Int32) (length : Nat)
  | entryParameters (method : MethodRef)
  | nullReceiver (method : MethodRef)
  | noImplementation (method : MethodRef)
  | noBody (method : MethodRef)
  | noReceiver
  | missingArgument (index : Nat)
  | unknownLocal (index : Nat)
  | negativeSize (size : Int32)
  | notAPlace (target : Expression)
  | badOperands (operator : Operator) (left right : Datum)
  | badReport (arguments : List Datum)
deriving DecidableEq

def Fault.message : Fault → String
  | .expectedInt found => "expected int, found " ++ found.render
  | .nullDereference => "null dereference"
  | .expectedReference found => "expected reference, found " ++ found.render
  | .danglingReference slot => s!"dangling reference @{slot}"
  | .readFromArray field => "field " ++ field.render ++ " read from an array"
  | .writtenToArray field => "field " ++ field.render ++ " written to an array"
  | .arrayOperation className => s!"array operation on an instance of {className}"
  | .indexOutOfBounds index length =>
    "array index " ++ toString index.toInt ++ s!" out of bounds for length {length}"
  | .entryParameters method => "entry " ++ method.render ++ " takes parameters"
  | .nullReceiver method => "null receiver calling " ++ method.render
  | .noImplementation method => "no implementation of " ++ method.render
  | .noBody method => method.render ++ " has no body"
  | .noReceiver => "@this bound without a receiver"
  | .missingArgument index => s!"missing argument {index}"
  | .unknownLocal index => s!"unknown local #{index}"
  | .negativeSize size => "negative array size " ++ toString size.toInt
  | .notAPlace target => "assignment to non-place " ++ target.structuralText
  | .badOperands operator left right =>
    "operator " ++ operator.render ++ " applied to " ++ left.render ++ " and " ++ right.render
  | .badReport arguments =>
    "trace sink called with " ++ bracketed (arguments.map Datum.structuralText)

/-- A limit that a run reached. -/
inductive Excess
  | objects (limit : Nat)
  | depth (limit : Nat) (method : MethodRef)
  | instructions (limit : Nat)
deriving DecidableEq

def Excess.message : Excess → String
  | .objects limit => s!"heap object limit of {limit} reached"
  | .depth limit method => s!"call depth {limit} exceeded calling " ++ method.render
  | .instructions limit => s!"instruction limit of {limit} reached"

/-- Why a run stopped. -/
inductive Failure
  | fault (cause : Fault)
  | excess (cause : Excess)
  | unknownEntry (name : String)
  | exhausted
deriving DecidableEq

def Failure.message : Failure → String
  | .fault cause => "Emulation fault - " ++ cause.message
  | .excess cause => "Emulation limit exceeded - " ++ cause.message
  | .unknownEntry name => "Unknown method - " ++ name
  | .exhausted => "out of steps"

namespace Datum

/-- The number that an index or a size is. -/
def asInt : Datum → Except Failure Int32
  | .int value => .ok value
  | other => .error (.fault (.expectedInt other))

/-- The object that is used. -/
def asReference : Datum → Except Failure Nat
  | .reference slot => .ok slot
  | .null => .error (.fault .nullDereference)
  | other => .error (.fault (.expectedReference other))

end Datum
end AccessProfiler
