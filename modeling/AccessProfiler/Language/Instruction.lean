import AccessProfiler.Language.Expression

/-!
# Instructions

A body is a sequence of instructions without branches: bindings of the receiver and the parameters
to local variables, assignments, calls and returns.
-/

namespace AccessProfiler

/-- What the caller passes and a binding gives a name to. -/
inductive Binding
  | receiver (type : Ty)
  | parameter (index : Nat) (type : Ty)
deriving DecidableEq

/-- The type that the binding states. -/
def Binding.type : Binding → Ty
  | .receiver type => type
  | .parameter _ type => type

/-- An instruction. -/
inductive Instruction
  | bind (target : LocalId) (source : Binding)
  | assign (place value : Expression)
  | invoke (target : Call)
  | return (value : Option Operand)
deriving DecidableEq

namespace Instruction

def isBinding : Instruction → Bool
  | .bind _ _ => true
  | _ => false

/-- The call that the instruction makes, alone or for an assignment. -/
def call? : Instruction → Option Call
  | .invoke target => some target
  | .assign _ (.call target) => some target
  | _ => none

/-- Change the call that the instruction makes. -/
def mapCall (change : Call → Call) : Instruction → Instruction
  | .invoke target => .invoke (change target)
  | .assign place (.call target) => .assign place (.call (change target))
  | other => other

/-- The same instruction, its call without arguments. -/
def withoutArguments : Instruction → Instruction :=
  mapCall fun target => { target with arguments := [] }

/-- The local variables that occur, in order and with repetitions. -/
def locals : Instruction → List LocalId
  | .bind target _ => [target]
  | .assign place value => place.uses ++ value.uses
  | .invoke target => (Expression.call target).uses
  | .return value => (value.bind Operand.variable?).toList

end Instruction
end AccessProfiler
