import AccessProfiler.Instrument.Generate
import AccessProfiler.Language.EditBatch

/-!
# Drafts

A step on the body of one method within a session.  The body is taken out of the program while it is
worked on; a step that fails leaves what it had done to the body and to the session.
-/

namespace AccessProfiler

/-- A step on a body within a session. -/
abbrev Draft := ExceptT Error (StateT Body (StateM Session))

namespace Draft

/-- Run on a body within a session. -/
def on
    {Result : Type}
    (step : Draft Result)
    (body : Body)
    (session : Session) : (Except Error Result × Body) × Session :=
  (ExceptT.run step).run body |>.run session

/-- A step of the session that leaves the body alone. -/
def lift {Result : Type} (step : Transform Result) : Draft Result :=
  ExceptT.mk fun body session =>
    let (result, after) := step.on session
    ((result, body), after)

/-- The session at this point. -/
def session : Draft Session :=
  lift get

/-- The body at this point. -/
def body : Draft Body :=
  get

/-- Record an event. -/
def record (event : Event) : Draft Unit :=
  lift (Transform.record event)

/-- Declare a local with a generated name. -/
def newLocal (stem : String) (type : Ty) : Draft LocalId := do
  let (id, changed) := (← body).newLocal stem type
  set changed
  return id

/-- Put other instructions into the body. -/
def setInstructions (instructions : List Instruction) : Draft Unit :=
  modify fun body => { body with instructions }

/-- Apply a batch of edits. -/
def apply (batch : EditBatch) : Draft Unit := do
  let changed ← lift (Transform.ofDefect (batch.apply (← body)))
  set changed

end Draft
end AccessProfiler
