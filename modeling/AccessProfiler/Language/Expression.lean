import AccessProfiler.Language.Constant
import AccessProfiler.Language.Reference

/-!
# Expressions

The right-hand sides of assignments.  Four kinds of expression are places and may stand on the left
as well: local variables, instance fields, static fields and array elements.
-/

namespace AccessProfiler

/-- How a call finds its target. -/
inductive CallKind
  | static
  | virtual
  | interface
  | special
deriving DecidableEq

namespace CallKind

/-- Every kind, in order. -/
def all : List CallKind := [.static, .virtual, .interface, .special]

def render : CallKind → String
  | .static => "static"
  | .virtual => "virtual"
  | .interface => "interface"
  | .special => "special"

end CallKind

/-- A call of a method. -/
structure Call where
  kind : CallKind
  method : MethodRef
  receiver : Option LocalId
  arguments : List Operand
deriving DecidableEq

namespace Call

def ofStatic (method : MethodRef) (arguments : List Operand) : Call :=
  ⟨.static, method, none, arguments⟩

def ofVirtual (receiver : LocalId) (method : MethodRef) (arguments : List Operand) : Call :=
  ⟨.virtual, method, some receiver, arguments⟩

def ofSpecial (receiver : LocalId) (method : MethodRef) (arguments : List Operand) : Call :=
  ⟨.special, method, some receiver, arguments⟩

end Call

/-- An operator of arithmetic. -/
inductive Operator
  | add
  | sub
  | mul
deriving DecidableEq

namespace Operator

/-- Every operator, in order. -/
def all : List Operator := [.add, .sub, .mul]

def render : Operator → String
  | .add => "+"
  | .sub => "-"
  | .mul => "*"

end Operator

/-- An expression. -/
inductive Expression
  | variable (source : LocalId)
  | literal (value : Constant)
  | instanceField (base : LocalId) (field : FieldRef)
  | staticField (field : FieldRef)
  | element (base : LocalId) (index : Operand)
  | newObject (className : String)
  | newArray (element : Ty) (size : Operand)
  | length (base : LocalId)
  | binary (operator : Operator) (left right : Operand)
  | call (target : Call)
deriving DecidableEq

namespace Expression

/-- The expression may stand on the left of an assignment. -/
def isPlace : Expression → Bool
  | .variable _ | .instanceField _ _ | .staticField _ | .element _ _ => true
  | _ => false

/-- The operand that says the same. -/
def operand? : Expression → Option Operand
  | .variable source => some (.variable source)
  | .literal value => some (.literal value)
  | _ => none

/-- The expression that says the same as an operand. -/
def ofOperand : Operand → Expression
  | .variable source => .variable source
  | .literal value => .literal value

/-- The local variables that are read, in order and with repetitions. -/
def uses : Expression → List LocalId
  | .variable source => [source]
  | .literal _ => []
  | .instanceField base _ => [base]
  | .staticField _ => []
  | .element base index => base :: index.variable?.toList
  | .newObject _ => []
  | .newArray _ size => size.variable?.toList
  | .length base => [base]
  | .binary _ left right => left.variable?.toList ++ right.variable?.toList
  | .call target => target.receiver.toList ++ target.arguments.filterMap Operand.variable?

end Expression
end AccessProfiler
