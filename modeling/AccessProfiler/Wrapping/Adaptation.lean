import AccessProfiler.Instrument.Draft
import AccessProfiler.Language.Hierarchy
import AccessProfiler.Wrapping.Generate

/-!
# Adaptations between arrays and wrappers

Where a wrapper meets a place that is declared as an array, the array is read out of it; where an
array meets a place that is declared as a wrapper, a wrapper is made of it; and between two wrappers
both happens.  Each is done only if the array on the one side may stand where the array on the other
side is declared.  The repair scan brings every assignment and every returned value of a body into
agreement this way.
-/

namespace AccessProfiler

/-- How a value of one type is made into one of another type. -/
inductive Adaptation
  | unwrap (source : Wrapper)
  | wrap (target : Wrapper)
  | rewrap (source target : Wrapper)
  /-- The types do not agree and nothing helps. -/
  | unsupported
deriving DecidableEq

/-- The adaptation from one type to another: none if the types agree or have nothing to do with
wrappers. -/
def Session.plan? (session : Session) (source target : Ty) : Option Adaptation :=
  let agrees (source target : Ty) := session.program.isAssignable source target
  if agrees source target then none
  else
    match session.wrapperOfType? source, session.wrapperOfType? target with
    | some wrapper, none =>
      some (if target.isArray && agrees wrapper.arrayType target then .unwrap wrapper
        else .unsupported)
    | none, some wrapper =>
      some (if source.isArray && agrees source wrapper.arrayType then .wrap wrapper
        else .unsupported)
    | some inner, some outer =>
      some (if agrees inner.arrayType outer.arrayType then .rewrap inner outer else .unsupported)
    | none, none => none

namespace Draft

/-- Read the array out of the wrapper in a local; a literal is left as it is. -/
def unwrapOperand (wrapper : Wrapper) : Operand → Draft (Operand × List Instruction)
  | .variable source => do
    let raw ← newLocal "$raw" wrapper.arrayType
    return (.variable raw, [wrapper.unwrapInto raw source])
  | .literal value => return (.literal value, [])

/-- Make a wrapper of an array. -/
def wrapOperand (wrapper : Wrapper) (operand : Operand) :
    Draft (Operand × List Instruction) := do
  let target ← newLocal "$wrap" wrapper.type
  return (.variable target, wrapper.wrapInto target operand)

/-- Adapt an operand: what takes its place, and the instructions that make it. -/
def adapt
    (adaptation : Adaptation)
    (operand : Operand) : Draft (Option (Operand × List Instruction)) := do
  match adaptation with
  | .unwrap wrapper => return some (← unwrapOperand wrapper operand)
  | .wrap wrapper => return some (← wrapOperand wrapper operand)
  | .rewrap source target =>
    let (raw, unwrapping) ← unwrapOperand source operand
    let (wrapped, wrapping) ← wrapOperand target raw
    return some (wrapped, unwrapping ++ wrapping)
  | .unsupported => return none

/-- Record that a value was left as it is although its type does not agree. -/
def recordUnsupported (method : String) (index : Nat) (source target : Ty) : Draft Unit :=
  record (.located .skippedUnsupported method index
    ("no adaptation from " ++ source.render ++ " to " ++ target.render))

/-- The instructions that make an assignment agree, if it has to be changed. -/
def repairAssignment
    (method : String)
    (index : Nat)
    (place value : Expression) : Draft (Option (List Instruction)) := do
  let declared ← body
  match declared.type? place, declared.type? value with
  | some target, some source =>
    match (← session).plan? source target with
    | none => return none
    | some adaptation =>
      let (operand, evaluation) ←
        match value.operand? with
        | some operand => pure (operand, [])
        | none => do
          let result ← newLocal "$tmp" source
          pure (.variable result, [.assign (.variable result) value])
      match ← adapt adaptation operand with
      | some (adapted, steps) =>
        record (.located .adaptationInserted method index
          (source.render ++ " -> " ++ target.render))
        return some (evaluation ++ steps ++ [.assign place (.ofOperand adapted)])
      | none =>
        recordUnsupported method index source target
        return none
  | _, _ => return none

/-- The instructions that make a returned value agree, if it has to be changed. -/
def repairReturn
    (result : Ty)
    (method : String)
    (index : Nat)
    (operand : Operand) : Draft (Option (List Instruction)) := do
  match (← body).operandType? operand with
  | none => return none
  | some source =>
    match (← session).plan? source result with
    | none => return none
    | some adaptation =>
      match ← adapt adaptation operand with
      | some (adapted, steps) =>
        record (.located .adaptationInserted method index
          ("return " ++ source.render ++ " -> " ++ result.render))
        return some (steps ++ [.return (some adapted)])
      | none =>
        recordUnsupported method index source result
        return none

/-- The instructions that make an instruction agree, if it has to be changed. -/
def repairInstruction
    (result : Ty)
    (method : String)
    (index : Nat) : Instruction → Draft (Option (List Instruction))
  | .assign place value => repairAssignment method index place value
  | .return (some operand) => repairReturn result method index operand
  | _ => return none

/-- Make every assignment and every returned value of the body agree in type; tells how many were
changed. -/
def repair (result : Ty) (method : String) : Draft Nat := do
  let repaired ← (← body).instructions.zipIdx.mapM fun (instruction, index) => do
    return (instruction, ← repairInstruction result method index instruction)
  setInstructions (repaired.flatMap fun (instruction, replacement) =>
    replacement.getD [instruction])
  return repaired.countP fun entry => entry.2.isSome

end Draft
end AccessProfiler
