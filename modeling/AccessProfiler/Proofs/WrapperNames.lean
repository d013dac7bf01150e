import AccessProfiler.Proofs.Naming
import AccessProfiler.Wrapping.Wrapper

/-!
# The names of wrappers

The type of a wrapper takes the place of an array type (`Settings.mapped`).  Which classes wrapping can
generate for a program is decided by the types that the program mentions.  Wrappers can be told apart
from everything else in the program if it gives none of their names to something of its own, and if
no two of its parameter types become one (`Program.Wrappable`).  As with counting, the lists are
computed and the condition can be tested.
-/

namespace AccessProfiler

namespace Settings

/-- The wrapper that stands for a type, if one does. -/
def wrapperName? (settings : Settings) : Ty → Option String
  | .array element => Wrapper.nameFor? settings element
  | _ => none

/-- The type that stands for a type in the signatures of transformed methods. -/
def mapped (settings : Settings) (type : Ty) : Ty :=
  ((settings.wrapperName? type).map Ty.object).getD type

variable (settings : Settings)

theorem mapped_of_some
    {type : Ty}
    {name : String}
    (named : settings.wrapperName? type = some name) :
    settings.mapped type = .object name := by
  simp [mapped, named]

theorem mapped_of_none
    {type : Ty}
    (unnamed : settings.wrapperName? type = none) :
    settings.mapped type = type := by
  simp [mapped, unnamed]

/-- What stands for a type stands for itself. -/
@[simp]
theorem mapped_mapped (type : Ty) : settings.mapped (settings.mapped type) = settings.mapped type := by
  cases named : settings.wrapperName? type with
  | none => rw [settings.mapped_of_none named, settings.mapped_of_none named]
  | some name =>
    rw [settings.mapped_of_some named]
    exact settings.mapped_of_none rfl

theorem map_mapped_map_mapped (types : List Ty) :
    (types.map settings.mapped).map settings.mapped = types.map settings.mapped := by
  rw [List.map_map]
  apply List.map_congr_left
  intro type _
  exact settings.mapped_mapped type

end Settings

/-- The names of the methods that a wrapper has. -/
def Wrapper.memberNames : List String :=
  [constructorName, getMethod, setMethod, readIncrementor, writeIncrementor]

/-- The types of the parameters that an expression names. -/
def Expression.parameterTypes : Expression → List Ty
  | .call target => target.method.parameters
  | _ => []

namespace Program

/-- The types of the parameters of the methods that are declared and that bodies name. -/
def parameterTypes (program : Program) : List Ty :=
  program.classes.flatMap (fun declaration => declaration.methods.flatMap Method.parameters) ++
    program.expressions.flatMap Expression.parameterTypes

/-- The types that can be asked for a wrapper: of parameters, results and locals. -/
def mentionedTypes (program : Program) : List Ty :=
  program.parameterTypes ++
    program.classes.flatMap (fun declaration => declaration.methods.map Method.result) ++
    program.bodies.flatMap fun body => body.locals.map LocalDecl.type

/-- The classes that wrapping the arrays of the program can generate. -/
def generatedNames (program : Program) (settings : Settings) : List String :=
  settings.counterClassName :: program.mentionedTypes.filterMap settings.wrapperName?

/-- The methods of those classes, each as it is remembered when it is generated. -/
def generatedMethods (program : Program) (settings : Settings) : List String :=
  (program.generatedNames settings).flatMap fun owner =>
    Wrapper.memberNames.map fun name => owner ++ "." ++ name

/-- The declared methods, each as it is remembered if it was generated. -/
def qualifiedMethods (program : Program) : List String :=
  program.entries.flatMap fun entry =>
    entry.2.methods.map fun method => entry.1 ++ "." ++ method.name

/-- Nothing of the program has a name that wrapping its arrays gives to what it generates, and
different parameter types stay different. -/
structure Wrappable (settings : Settings) (program : Program) : Prop where
  classes : ∀ name ∈ program.generatedNames settings, name ∉ program.namedClasses
  methods : ∀ method ∈ program.generatedMethods settings, method ∉ program.qualifiedMethods
  types :
    ∀ type ∈ program.parameterTypes, ∀ other ∈ program.parameterTypes,
      settings.mapped type = settings.mapped other → type = other

instance (settings : Settings) (program : Program) : Decidable (program.Wrappable settings) :=
  decidable_of_iff
    ((∀ name ∈ program.generatedNames settings, name ∉ program.namedClasses) ∧
      (∀ method ∈ program.generatedMethods settings, method ∉ program.qualifiedMethods) ∧
      ∀ type ∈ program.parameterTypes, ∀ other ∈ program.parameterTypes,
        settings.mapped type = settings.mapped other → type = other)
    ⟨fun ⟨classes, methods, types⟩ => ⟨classes, methods, types⟩,
      fun wrappable => ⟨wrappable.classes, wrappable.methods, wrappable.types⟩⟩

variable
    {program : Program}
    {settings : Settings}
    {name : String}
    {declaration : Class}
    {method : Method}
    {body : Body}

theorem counterClassName_mem_generatedNames (program : Program) (settings : Settings) :
    settings.counterClassName ∈ program.generatedNames settings :=
  List.mem_cons_self

theorem mem_generatedNames
    {type : Ty}
    (mentioned : type ∈ program.mentionedTypes)
    (named : settings.wrapperName? type = some name) :
    name ∈ program.generatedNames settings :=
  List.mem_cons_of_mem _ (List.mem_filterMap.2 ⟨type, mentioned, named⟩)

theorem mem_parameterTypes_of_declared
    (found : program.class? name = some declaration)
    (member : method ∈ declaration.methods)
    {type : Ty}
    (parameter : type ∈ method.parameters) :
    type ∈ program.parameterTypes := by
  apply List.mem_append_left
  rw [List.mem_flatMap]
  exact ⟨declaration, mem_classes_of_class? found, List.mem_flatMap.2 ⟨method, member, parameter⟩⟩

theorem mem_parameterTypes_of_called
    {target : Call}
    (member : .call target ∈ program.expressions)
    {type : Ty}
    (parameter : type ∈ target.method.parameters) :
    type ∈ program.parameterTypes := by
  apply List.mem_append_right
  rw [List.mem_flatMap]
  exact ⟨.call target, member, parameter⟩

theorem mem_mentionedTypes_of_parameter
    {type : Ty}
    (member : type ∈ program.parameterTypes) :
    type ∈ program.mentionedTypes :=
  List.mem_append_left _ (List.mem_append_left _ member)

theorem mem_mentionedTypes_of_result
    (found : program.class? name = some declaration)
    (member : method ∈ declaration.methods) :
    method.result ∈ program.mentionedTypes := by
  apply List.mem_append_left
  apply List.mem_append_right
  rw [List.mem_flatMap]
  exact ⟨declaration, mem_classes_of_class? found, List.mem_map.2 ⟨method, member, rfl⟩⟩

theorem mem_mentionedTypes_of_local
    (member : body ∈ program.bodies)
    {declared : LocalDecl}
    (among : declared ∈ body.locals) :
    declared.type ∈ program.mentionedTypes := by
  apply List.mem_append_right
  rw [List.mem_flatMap]
  exact ⟨body, member, List.mem_map.2 ⟨declared, among, rfl⟩⟩

theorem mem_qualifiedMethods
    (found : program.class? name = some declaration)
    (member : method ∈ declaration.methods) :
    name ++ "." ++ method.name ∈ program.qualifiedMethods := by
  unfold qualifiedMethods
  rw [List.mem_flatMap]
  exact ⟨(name, declaration), mem_entries_of_class? found, List.mem_map.2 ⟨method, member, rfl⟩⟩

end Program

namespace Program.Wrappable

variable
    {program : Program}
    {settings : Settings}
    {name : String}
    {declaration : Class}
    {method : Method}

section

variable (wrappable : program.Wrappable settings)
include wrappable

theorem not_generated_of_named (named : name ∈ program.namedClasses) :
    name ∉ program.generatedNames settings := by
  intro generated
  exact wrappable.classes name generated named

theorem not_generated_of_class? (found : program.class? name = some declaration) :
    name ∉ program.generatedNames settings := by
  apply wrappable.not_generated_of_named
  apply List.mem_append_left
  apply List.mem_append_left
  exact List.mem_map.2 ⟨_, mem_entries_of_class? found, rfl⟩

theorem not_generated_of_parent
    (found : program.class? name = some declaration)
    {upper : String}
    (member : upper ∈ declaration.parents) :
    upper ∉ program.generatedNames settings := by
  apply wrappable.not_generated_of_named
  apply List.mem_append_left
  apply List.mem_append_right
  rw [List.mem_flatMap]
  exact ⟨declaration, mem_classes_of_class? found, List.mem_cons_of_mem _ member⟩

theorem not_generated_of_called
    {target : Call}
    (member : .call target ∈ program.expressions) :
    target.method.owner ∉ program.generatedNames settings := by
  apply wrappable.not_generated_of_named
  apply List.mem_append_right
  rw [List.mem_flatMap]
  exact ⟨.call target, member, List.mem_cons_self⟩

/-- No method of the program is taken for a generated one. -/
theorem qualifiedName_ne
    (found : program.class? name = some declaration)
    (member : method ∈ declaration.methods)
    {owner : String}
    (generated : owner ∈ program.generatedNames settings)
    {other : String}
    (among : other ∈ Wrapper.memberNames) :
    name ++ "." ++ method.name ≠ owner ++ "." ++ other := by
  intro same
  refine wrappable.methods (owner ++ "." ++ other) ?_ (same ▸ mem_qualifiedMethods found member)
  exact List.mem_flatMap.2 ⟨owner, generated, List.mem_map.2 ⟨other, among, rfl⟩⟩

/-- Lists of parameter types that become the same are the same. -/
theorem eq_of_map_mapped_eq
    {types others : List Ty}
    (among : ∀ type ∈ types, type ∈ program.parameterTypes)
    (amongOthers : ∀ type ∈ others, type ∈ program.parameterTypes)
    (same : types.map settings.mapped = others.map settings.mapped) :
    types = others := by
  induction types generalizing others with
  | nil => exact (List.map_eq_nil_iff.1 same.symm).symm
  | cons type rest hypothesis =>
    cases others with
    | nil => cases same
    | cons other restOthers =>
      rw [List.map_cons, List.map_cons, List.cons.injEq] at same
      rw [List.forall_mem_cons] at among amongOthers
      rw [wrappable.types type among.1 other amongOthers.1 same.1,
        hypothesis among.2 amongOthers.2 same.2]

section Lists

variable
    {types others : List Ty}
    (among : ∀ type ∈ types, type ∈ program.parameterTypes)
    (amongOthers : ∀ type ∈ others, type ∈ program.parameterTypes)
include among amongOthers

theorem map_mapped_eq_map_mapped_iff :
    types.map settings.mapped = others.map settings.mapped ↔ types = others := by
  constructor
  · exact wrappable.eq_of_map_mapped_eq among amongOthers
  · rintro rfl
    rfl

/-- Types become others of the program only if they are those and nothing has to become of them. -/
theorem map_mapped_eq_iff :
    types.map settings.mapped = others ↔
      types = others ∧ others.map settings.mapped = others := by
  constructor
  · intro become
    have stay : others.map settings.mapped = others := by
      rw [← become]
      exact settings.map_mapped_map_mapped types
    exact ⟨wrappable.eq_of_map_mapped_eq among amongOthers (become.trans stay.symm), stay⟩
  · rintro ⟨rfl, stay⟩
    exact stay

end Lists

end

end Program.Wrappable
end AccessProfiler
