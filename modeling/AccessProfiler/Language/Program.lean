import AccessProfiler.Language.Class
import AccessProfiler.Text.Sorted

/-!
# Programs

A program registers classes under different names.  Everything finds a class by the name it is
registered under; references to its members carry the name that the class itself declares, which is
the same unless it was registered under another one.  The operations look declarations up, add them,
and replace the bodies and signatures of methods; none removes or renames a class.  The image of a
program lists the classes by name, and so does not depend on the order in which they came in.
-/

namespace AccessProfiler

/-- A method of a program: its class and its position among the methods of the class. -/
structure MethodId where
  owner : String
  index : Nat
deriving DecidableEq

def MethodId.render (id : MethodId) : String :=
  id.owner ++ "#" ++ toString id.index

/-- Classes under the names they are registered under. -/
structure Program where
  entries : List (String × Class)
  distinct : (entries.map Prod.fst).Nodup

instance : DecidableEq Program := fun left right =>
  decidable_of_iff (left.entries = right.entries) (by cases left; cases right; simp)

namespace Program

/-- No classes. -/
def empty : Program := ⟨[], List.nodup_nil⟩

instance : Inhabited Program := ⟨.empty⟩

/-- The registered names, in the order in which they came in. -/
def names (program : Program) : List String :=
  program.entries.map Prod.fst

/-- The declarations of the classes. -/
def classes (program : Program) : List Class :=
  program.entries.map Prod.snd

/-- The class registered under a name. -/
def class? (program : Program) (name : String) : Option Class :=
  (program.entries.find? fun entry => entry.1 == name).map Prod.snd

def contains (program : Program) (name : String) : Bool :=
  (program.class? name).isSome

theorem not_mem_names_of_class?_eq_none
    {program : Program}
    {name : String}
    (absent : program.class? name = none) :
    name ∉ program.names := by
  intro present
  obtain ⟨entry, member, equal⟩ := List.mem_map.1 present
  have := List.find?_eq_none.1 (Option.map_eq_none_iff.1 absent) entry member
  simp [equal] at this

/-- Register a class under a name that is free. -/
def register
    (program : Program)
    (name : String)
    (declaration : Class)
    (free : program.class? name = none) : Program where
  entries := program.entries ++ [(name, declaration)]
  distinct := by
    have fresh := not_mem_names_of_class?_eq_none free
    rw [List.map_append, List.nodup_append]
    refine ⟨program.distinct, by simp, ?_⟩
    intro taken member other single equal
    simp only [List.map_cons, List.map_nil, List.mem_singleton] at single
    exact fresh (single ▸ equal ▸ member)

/-- Add a class under its own name, which has to be new. -/
def addClass
    (program : Program)
    (declaration : Class) : Except Error Program :=
  match free : program.class? declaration.name with
  | some _ => .error (.duplicateClass declaration.name)
  | none => .ok (program.register declaration.name declaration free)

/-- Register a class unless the name is taken; tells whether it was free. -/
def ensureClass
    (program : Program)
    (name : String)
    (declaration : Class) : Bool × Program :=
  match free : program.class? name with
  | some _ => (false, program)
  | none => (true, program.register name declaration free)

/-- The program of a list of classes. -/
def ofClasses (classes : List Class) : Except Error Program :=
  classes.foldlM addClass empty

/-- Change the declaration of a class. -/
def modifyClass
    (program : Program)
    (name : String)
    (change : Class → Class) : Program where
  entries := program.entries.map fun entry =>
    if entry.1 = name then (entry.1, change entry.2) else entry
  distinct := by
    have names :
        (program.entries.map fun entry =>
            if entry.1 = name then (entry.1, change entry.2) else entry).map Prod.fst =
          program.entries.map Prod.fst := by
      rw [List.map_map]
      apply List.map_congr_left
      intro entry _
      simp only [Function.comp]
      split <;> rfl
    rw [names]
    exact program.distinct

/-- The registered names, sorted. -/
def classNames (program : Program) : List String :=
  Text.sorted program.names

/-- The names of the classes of the application, sorted. -/
def applicationClasses (program : Program) : List String :=
  Text.sorted ((program.entries.filter fun entry => entry.2.isApplication).map Prod.fst)

def isApplication (program : Program) (name : String) : Bool :=
  (program.class? name).any Class.isApplication

def isInterface (program : Program) (name : String) : Bool :=
  (program.class? name).any Class.isInterface

/-- How instances of a class are called: through the interface if it is one. -/
def callKind (program : Program) (name : String) : CallKind :=
  if program.isInterface name then .interface else .virtual

/-- The class directly above. -/
def superclass? (program : Program) (name : String) : Option String :=
  (program.class? name).bind Class.superclass

/-- The position of the method with this name and these parameter types. -/
def findMethod?
    (program : Program)
    (owner name : String)
    (parameters : List Ty) : Option MethodId :=
  (program.class? owner).bind fun declaration =>
    (declaration.methods.findIdx? fun method => method.fits name parameters).map
      (MethodId.mk owner)

/-- The position of the first method with this name. -/
def findMethodNamed? (program : Program) (owner name : String) : Option MethodId :=
  (program.class? owner).bind fun declaration =>
    (declaration.methods.findIdx? fun method => method.name == name).map (MethodId.mk owner)

/-- Every method of a class. -/
def methodsOf (program : Program) (owner : String) : List MethodId :=
  match program.class? owner with
  | some declaration => (List.range declaration.methods.length).map (MethodId.mk owner)
  | none => []

/-- Every method of the application, class by class in the order of the names. -/
def applicationMethods (program : Program) : List MethodId :=
  program.applicationClasses.flatMap program.methodsOf

/-- The declaration of a method, body included. -/
def method? (program : Program) (id : MethodId) : Option Method :=
  (program.class? id.owner).bind fun declaration => declaration.methods[id.index]?

/-- How instructions refer to a method. -/
def methodRef? (program : Program) (id : MethodId) : Option MethodRef :=
  (program.class? id.owner).bind fun declaration =>
    declaration.methods[id.index]?.map fun method => method.reference declaration.name

/-- The class and the name of a method, or its position if there is no such method. -/
def qualifiedName (program : Program) (id : MethodId) : String :=
  match program.methodRef? id with
  | some method => method.qualifiedName
  | none => id.render

/-- The body of a method, if it has one. -/
def body? (program : Program) (id : MethodId) : Option Body :=
  (program.method? id).bind Method.body

/-- Change the declaration of a method. -/
def modifyMethod
    (program : Program)
    (id : MethodId)
    (change : Method → Method) : Program :=
  program.modifyClass id.owner fun declaration =>
    { declaration with methods := declaration.methods.modify id.index change }

/-- Take the body out of a method; it stays without one. -/
def dropBody (program : Program) (id : MethodId) : Program :=
  program.modifyMethod id fun method => { method with body := none }

/-- Give a body to a method. -/
def setBody
    (program : Program)
    (id : MethodId)
    (body : Body) : Except Error Program :=
  match program.method? id with
  | some _ => .ok (program.modifyMethod id fun method => { method with body := some body })
  | none => .error (.unknownMethod id.render)

/-- Give other parameter types and another result type to a method. -/
def setSignature
    (program : Program)
    (id : MethodId)
    (parameters : List Ty)
    (result : Ty) : Except Error Program :=
  match program.method? id with
  | some _ =>
    .ok (program.modifyMethod id fun method =>
      { method with parameters := parameters, result := result })
  | none => .error (.unknownMethod id.render)

/-- Declare a field on a class. -/
def addField
    (program : Program)
    (owner : String)
    (field : Field) : Except Error (FieldRef × Program) :=
  match program.class? owner with
  | none => .error (.unknownClass owner)
  | some declaration =>
    match declaration.addField field with
    | .error defect => .error (.malformed defect)
    | .ok (reference, changed) => .ok (reference, program.modifyClass owner fun _ => changed)

/-- Declare a method on a class. -/
def addMethod
    (program : Program)
    (owner : String)
    (method : Method) : Except Error (MethodId × Program) :=
  match program.class? owner with
  | none => .error (.unknownClass owner)
  | some declaration =>
    match declaration.addMethod method with
    | .error defect => .error (.malformed defect)
    | .ok changed =>
      .ok (⟨owner, declaration.methods.length⟩, program.modifyClass owner fun _ => changed)

/-- The classes by name, each in its canonical form. -/
def image (program : Program) : List Class :=
  (program.classes.mergeSort fun left right => left.name ≤ right.name).map Class.canonical

/-- The listing of every body, under the name of its method. -/
def listings (program : Program) : List (String × String) :=
  program.entries.flatMap fun (owner, declaration) =>
    declaration.methods.zipIdx.filterMap fun (method, index) =>
      method.body.map fun body =>
        ((MethodId.mk owner index).render ++ " " ++
          (method.reference declaration.name).render, body.listing)

end Program
end AccessProfiler
