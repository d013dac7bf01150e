import AccessProfiler.Language.Body
import AccessProfiler.Language.Flags

/-!
# Classes

The declarations of a program.  A class has at most one field of a name that instructions can refer
to, and its methods are told apart by name and parameter types; the first declaration counts.
-/

namespace AccessProfiler

/-- A field of a class. -/
structure Field where
  name : String
  type : Ty
  flags : Flags
deriving DecidableEq

namespace Field

def static : Flags := ⟨1⟩
def synthetic : Flags := ⟨2⟩

def flagNames : FlagNames := [("STATIC", 1), ("SYNTHETIC", 2)]

/-- The field belongs to the class, not to its instances. -/
def isStatic (field : Field) : Bool :=
  field.flags.includes static

/-- How instructions refer to the field of the given class. -/
def reference (field : Field) (owner : String) : FieldRef :=
  ⟨owner, field.name, field.type, field.isStatic⟩

end Field

/-- A method of a class; an abstract one has no body. -/
structure Method where
  name : String
  parameters : List Ty
  result : Ty
  flags : Flags
  body : Option Body
deriving DecidableEq

namespace Method

def static : Flags := ⟨1⟩
def abstract : Flags := ⟨2⟩
def native : Flags := ⟨4⟩
def synthetic : Flags := ⟨8⟩

def flagNames : FlagNames := [("STATIC", 1), ("ABSTRACT", 2), ("NATIVE", 4), ("SYNTHETIC", 8)]

def isConstructor (method : Method) : Bool :=
  method.name == constructorName

/-- The method is called without a receiver. -/
def isStatic (method : Method) : Bool :=
  method.flags.includes static

/-- The method was not written by hand. -/
def isSynthetic (method : Method) : Bool :=
  method.flags.includes synthetic

/-- The method has this name and these parameter types. -/
def fits (method : Method) (name : String) (parameters : List Ty) : Bool :=
  method.name == name && method.parameters == parameters

/-- How instructions refer to the method of the given class. -/
def reference (method : Method) (owner : String) : MethodRef :=
  ⟨owner, method.name, method.parameters, method.result⟩

/-- The method without its body. -/
def signature (method : Method) : Method :=
  { method with body := none }

end Method

/-- Classes of the application are instrumented, those of a library are not. -/
inductive ClassKind
  | application
  | library
deriving DecidableEq

def ClassKind.render : ClassKind → String
  | .application => "application"
  | .library => "library"

/-- A class or interface. -/
structure Class where
  name : String
  superclass : Option String
  interfaces : List String
  kind : ClassKind
  flags : Flags
  fields : List Field
  methods : List Method
deriving DecidableEq

namespace Class

def interfaceFlag : Flags := ⟨1⟩
def abstractFlag : Flags := ⟨2⟩
def syntheticFlag : Flags := ⟨4⟩
def wrapperFlag : Flags := ⟨8⟩
def counterFlag : Flags := ⟨16⟩

def flagNames : FlagNames :=
  [("INTERFACE", 1), ("ABSTRACT", 2), ("SYNTHETIC", 4), ("WRAPPER", 8), ("COUNTER", 16)]

/-- A class of the application, below the root class, without members. -/
def plain (name : String) (flags : Flags) : Class :=
  ⟨name, some objectClass, [], .application, flags, [], []⟩

def isApplication (declaration : Class) : Bool :=
  declaration.kind == .application

def isInterface (declaration : Class) : Bool :=
  declaration.flags.includes interfaceFlag

/-- The class was generated: it is synthetic, a wrapper or the class of the counters. -/
def isSynthetic (declaration : Class) : Bool :=
  declaration.flags.meets ((syntheticFlag.union wrapperFlag).union counterFlag)

/-- The type of the instances. -/
def type (declaration : Class) : Ty :=
  .object declaration.name

/-- The classes and interfaces directly above. -/
def parents (declaration : Class) : List String :=
  declaration.interfaces ++ declaration.superclass.toList

/-- The field of a name. -/
def field? (declaration : Class) (name : String) : Option Field :=
  declaration.fields.find? fun field => field.name == name

/-- The method of a name and parameter types. -/
def method?
    (declaration : Class)
    (name : String)
    (parameters : List Ty) : Option Method :=
  declaration.methods.find? fun method => method.fits name parameters

/-- The first method of a name. -/
def methodNamed? (declaration : Class) (name : String) : Option Method :=
  declaration.methods.find? fun method => method.name == name

/-- Declare a field.  A field of the same name and type is used as it is; one of another type is a
clash. -/
def addField
    (declaration : Class)
    (field : Field) : Except Defect (FieldRef × Class) :=
  match declaration.field? field.name with
  | some declared =>
    if declared.type = field.type then
      .ok (declared.reference declaration.name, declaration)
    else
      .error (.fieldClash declaration.name field.name declared.type field.type)
  | none =>
    .ok (field.reference declaration.name,
      { declaration with fields := declaration.fields ++ [field] })

/-- Declare a method, whose name and parameter types have to be new. -/
def addMethod
    (declaration : Class)
    (method : Method) : Except Defect Class :=
  match declaration.method? method.name method.parameters with
  | some _ => .error (.duplicateMethod (method.reference declaration.name))
  | none => .ok { declaration with methods := declaration.methods ++ [method] }

/-- The report that the class has no field of a name. -/
def unknownField (declaration : Class) (name : String) : Error :=
  .unknownField (declaration.name ++ "." ++ name)

/-- The class as an image holds it: members of the class of the counters are put in the order of
their names, because they are added in the order in which the transformation happens to ask for
them. -/
def canonical (declaration : Class) : Class :=
  if declaration.flags.includes counterFlag then
    { declaration with
      fields := declaration.fields.mergeSort fun left right => left.name ≤ right.name
      methods := declaration.methods.mergeSort fun left right => left.name ≤ right.name }
  else
    declaration

end Class
end AccessProfiler
