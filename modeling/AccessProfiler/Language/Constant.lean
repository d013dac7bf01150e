import AccessProfiler.Language.Ty
import AccessProfiler.Number.Display
import AccessProfiler.Text.Quoted

/-!
# Constants and operands

The literals of a program, and the operands of an instruction, each a local variable or a literal.
-/

namespace AccessProfiler

open Number

/-- A local variable of a body, by its position in the table of locals. -/
structure LocalId where
  index : Nat
deriving DecidableEq

/-- A literal. -/
inductive Constant
  | int (value : Int32)
  | long (value : Int64)
  | float (value : Binary32)
  | double (value : Binary64)
  | str (value : String)
  | null
deriving DecidableEq

namespace Constant

/-- The type of a literal. -/
def type : Constant → Ty
  | .int _ => .int
  | .long _ => .long
  | .float _ => .float
  | .double _ => .double
  | .str _ => .string
  | .null => .null

/-- The spelling in a listing: a long ends in `L`, a float in `F`, a text stands in quotation
marks. -/
def render : Constant → String
  | .int value => toString value.toInt
  | .long value => toString value.toInt ++ "L"
  | .float value => value.text ++ "F"
  | .double value => value.text
  | .str value => Text.quote value
  | .null => "null"

end Constant

/-- What an instruction works on. -/
inductive Operand
  | variable (source : LocalId)
  | literal (value : Constant)
deriving DecidableEq

/-- The local variable that is read. -/
def Operand.variable? : Operand → Option LocalId
  | .variable source => some source
  | .literal _ => none

end AccessProfiler
