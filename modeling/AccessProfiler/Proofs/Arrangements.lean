import AccessProfiler.Pipeline

/-!
# Methods in any order

A pass on bodies is given the methods of the application in the order of their names.  It may as well work
on them in another one (`Arrangement`), as long as it works on the same.
-/

namespace AccessProfiler

/-- Orders in which passes work on the methods that they are given. -/
structure Arrangement where
  order : Pass → List MethodId → List MethodId
  perm : ∀ pass methods, (order pass methods).Perm methods

/-- Methods are worked on in the order in which they are given. -/
def Arrangement.given : Arrangement where
  order _ methods := methods
  perm _ _ := .refl _

namespace Pass

/-- Work on the bodies of all eligible methods, arranged in some order. -/
def onMethodsIn (arrangement : Arrangement) (pass : Pass) : Transform Bool := do
  let session ← get
  let eligible := session.program.applicationMethods.filter (pass.isEligible session)
  let results ← (arrangement.order pass eligible).mapM pass.onMethod
  Transform.ofExcept (summarize results)

/-- Run a pass on methods that are arranged in some order; tells whether it changed something. -/
def runIn (arrangement : Arrangement) (pass : Pass) : Transform Bool := do
  Transform.record ((Event.general .passStarted pass.description).recordedBy pass.name)
  let changed ← if pass.isGlobal then pass.onProgram else pass.onMethodsIn arrangement
  Transform.record
    ((Event.general .passCompleted (if changed then "changed" else "unchanged")).recordedBy
      pass.name)
  return changed

/-- Run passes one after the other, each on methods that are arranged in some order. -/
def runAllIn (arrangement : Arrangement) (passes : List Pass) : Transform Bool := do
  let changes ← passes.mapM (runIn arrangement)
  return changes.any id

end Pass

/-- Run the passes that the settings ask for on methods that are arranged in some order, then check the
program if they ask for that. -/
def Transform.pipelineIn (arrangement : Arrangement) : Transform Unit := do
  let settings := (← get).settings
  let _ ← Pass.runAllIn arrangement (Pass.wanted settings)
  if settings.verify then
    checkProgram

/-- Transform a program as the settings say, with the methods of each pass arranged in some order. -/
def transformProgramIn
    (arrangement : Arrangement)
    (program : Program)
    (settings : Settings) : Except Error Unit × Session :=
  (Transform.pipelineIn arrangement).on (.start settings program)

/-- A transformation works on methods in the order in which they are given. -/
theorem transformProgramIn_given : transformProgramIn .given = transformProgram := rfl

end AccessProfiler
