import AccessProfiler.Check.Body
import AccessProfiler.Settings

/-!
# Checking programs

A program is accepted if no class of the application has two fields of a name or two methods of one
name and one list of parameter types, and if every body keeps the rules.  Classes under an excluded
prefix are not checked.
-/

namespace AccessProfiler

/-- The elements whose key has occurred before. -/
def repeated
    {Element Key : Type}
    [BEq Key]
    (key : Element → Key)
    (elements : List Element) : List Element :=
  (elements.zipIdx.filter fun (element, index) =>
      ((elements.take index).map key).contains (key element)).map Prod.fst

namespace Program

/-- What is wrong with the body of a method. -/
def methodViolations (program : Program) (id : MethodId) : List Violation :=
  match program.method? id with
  | some method =>
    match method.body with
    | some body => CheckedBody.violations ⟨program, id.owner, method, body⟩
    | none => []
  | none => []

/-- The members of a class that are declared twice. -/
def classViolations (program : Program) (name : String) : List Violation :=
  match program.class? name with
  | none => []
  | some declaration =>
    let fields := (repeated Field.name declaration.fields).map fun field =>
      s!"duplicate field '{field.name}'"
    let signature (method : Method) := (method.name, method.parameters)
    let methods := (repeated signature declaration.methods).map fun method =>
      "duplicate method " ++ (method.reference name).render
    (fields ++ methods).map fun message => ⟨name, none, message⟩

/-- What is wrong with the classes of the application, apart from those that the settings exclude by
a prefix. -/
def violations (program : Program) (settings : Option Settings) : List Violation :=
  let checked := program.applicationClasses.filter fun name =>
    !settings.any fun settings => settings.isExcludedByPrefix name
  checked.flatMap fun name =>
    program.classViolations name ++ (program.methodsOf name).flatMap program.methodViolations

/-- Accept a program or report the first violation. -/
def check (program : Program) (settings : Option Settings) : Except Error Unit :=
  firstViolation (program.violations settings)

end Program
end AccessProfiler
