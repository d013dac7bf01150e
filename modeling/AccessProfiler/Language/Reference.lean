import AccessProfiler.Language.Ty

/-!
# References to members

Instructions name fields and methods by the class in which the search for a declaration starts,
their name and their types.
-/

namespace AccessProfiler

/-- The name of every constructor. -/
def constructorName : String := "<init>"

/-- The name of the method that runs before the first use of a class. -/
def staticInitializerName : String := "<clinit>"

/-- A field as an instruction names it. -/
structure FieldRef where
  owner : String
  name : String
  type : Ty
  isStatic : Bool
deriving DecidableEq

namespace FieldRef

/-- A field of every instance of a class. -/
def ofInstance (owner name : String) (type : Ty) : FieldRef :=
  ⟨owner, name, type, false⟩

/-- A field of the class itself. -/
def ofClass (owner name : String) (type : Ty) : FieldRef :=
  ⟨owner, name, type, true⟩

/-- Written `<owner: type name>`. -/
def render (field : FieldRef) : String :=
  "<" ++ field.owner ++ ": " ++ field.type.render ++ " " ++ field.name ++ ">"

end FieldRef

/-- A method as an instruction names it. -/
structure MethodRef where
  owner : String
  name : String
  parameters : List Ty
  result : Ty
deriving DecidableEq

namespace MethodRef

/-- Written `<owner: result name(parameters)>`. -/
def render (method : MethodRef) : String :=
  "<" ++ method.owner ++ ": " ++ method.result.render ++ " " ++ method.name ++ "(" ++
    ",".intercalate (method.parameters.map Ty.render) ++ ")>"

/-- The class and the name, joined by a point. -/
def qualifiedName (method : MethodRef) : String :=
  method.owner ++ "." ++ method.name

end MethodRef
end AccessProfiler
