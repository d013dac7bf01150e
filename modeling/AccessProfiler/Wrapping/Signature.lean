import AccessProfiler.Language.Hierarchy
import AccessProfiler.Wrapping.Generate

/-!
# Signatures with wrappers

The signatures of transformed methods name wrappers in the place of arrays.  A signature is kept if
code that is not transformed calls the method with arrays: the main method of a program, and a
method that overrides one of a class that is not transformed.
-/

namespace AccessProfiler

/-- A class above the given one that is not transformed declares the method. -/
def Session.overridesForeign
    (session : Session)
    (className name : String)
    (parameters : List Ty) : Bool :=
  (session.program.above (session.program.parents className)).any fun ancestor =>
    (session.program.declaredMethod? ancestor name parameters).isSome &&
      !session.isTransformableClass ancestor

/-- The method is where a program starts: static, called `main`, and taking an array of texts. -/
def Method.isMain (method : Method) : Bool :=
  method.isStatic && method.name == "main" && method.result == .void &&
    method.parameters == [.array .string]

/-- Code that is not transformed calls the method with arrays. -/
def Session.keepsRaw (session : Session) (className : String) (method : Method) : Bool :=
  method.isMain ||
    (!method.isConstructor && !method.isStatic &&
      session.overridesForeign className method.name method.parameters)

namespace Transform

/-- Put wrappers into the signature of a method, unless it is kept; tells whether it changed. -/
def wrapSignature (pass : String) (id : MethodId) : Transform Bool := do
  let session ← get
  if !session.isTransformable id then
    return false
  match session.program.method? id with
  | none => return false
  | some method =>
    let hasArrays := method.result.isArray || method.parameters.any Ty.isArray
    if !hasArrays || session.keepsRaw id.owner method then
      return false
    let parameters ← method.parameters.mapM mapType
    let result ← mapType method.result
    if parameters = method.parameters ∧ result = method.result then
      return false
    let reference := method.reference id.owner
    changeProgram fun program =>
      (program.setSignature id parameters result).map ((), ·)
    record ((Event.mk .signatureWrapped (some reference.qualifiedName) none reference.render
      none).recordedBy pass)
    return true

/-- Put wrappers into the signature of every method that is transformed. -/
def wrapSignatures (pass : String) : Transform Bool := do
  let changes ← (← get).program.applicationMethods.mapM (wrapSignature pass)
  return changes.any id

end Transform
end AccessProfiler
