import AccessProfiler.Machine.Execution
import AccessProfiler.Proofs.Instrumentation

/-!
# What a program names

The classes, fields and methods that a program declares or refers to.  Counting can be inserted into a
program without a trace in its results if these are not the names of what counting adds
(`Program.Countable`).  The lists are computed, so that the condition can be tested.
-/

namespace AccessProfiler

namespace Expression

/-- The classes that an expression names: of a member, or of a new instance. -/
def classNames : Expression → List String
  | .instanceField _ field => [field.owner]
  | .staticField field => [field.owner]
  | .newObject className => [className]
  | .call target => [target.method.owner]
  | _ => []

/-- The fields that an expression names. -/
def fieldNames : Expression → List String
  | .instanceField _ field => [field.name]
  | .staticField field => [field.name]
  | _ => []

/-- The methods that an expression names. -/
def methodNames : Expression → List String
  | .call target => [target.method.name]
  | _ => []

end Expression

namespace Instruction

/-- The expressions of an instruction; a call is one. -/
def expressions : Instruction → List Expression
  | .assign place value => [place, value]
  | .invoke target => [.call target]
  | _ => []

/-- The local that a binding gives a value to. -/
def boundLocal? : Instruction → Option LocalId
  | .bind target _ => some target
  | _ => none

end Instruction

namespace Program

/-- The bodies of all methods. -/
def bodies (program : Program) : List Body :=
  program.classes.flatMap fun declaration => declaration.methods.filterMap Method.body

/-- The expressions of all bodies. -/
def expressions (program : Program) : List Expression :=
  program.bodies.flatMap fun body => body.instructions.flatMap Instruction.expressions

/-- The classes that are registered, that stand above a class, and that bodies name. -/
def namedClasses (program : Program) : List String :=
  program.names ++
    program.classes.flatMap (fun declaration => declaration.name :: declaration.parents) ++
    program.expressions.flatMap Expression.classNames

/-- The fields that are declared and that bodies name. -/
def namedFields (program : Program) : List String :=
  program.classes.flatMap (fun declaration => declaration.fields.map Field.name) ++
    program.expressions.flatMap Expression.fieldNames

/-- The methods that are declared and that bodies name. -/
def namedMethods (program : Program) : List String :=
  program.classes.flatMap (fun declaration => declaration.methods.map Method.name) ++
    program.expressions.flatMap Expression.methodNames

end Program

/-- The bindings of the body stand in front and give values to different locals. -/
structure Body.BindsOnce (body : Body) : Prop where
  first : body.BindsFirst
  once : (body.bindings.filterMap Instruction.boundLocal?).Nodup

instance (body : Body) : Decidable body.BindsOnce :=
  decidable_of_iff
    (body.BindsFirst ∧ (body.bindings.filterMap Instruction.boundLocal?).Nodup)
    ⟨fun parts => ⟨parts.1, parts.2⟩, fun binds => ⟨binds.first, binds.once⟩⟩

/-- The receiver is bound in front. -/
theorem Body.BindsOnce.receiver_bound
    {body : Body}
    {this : LocalId}
    (binds : body.BindsOnce)
    (received : body.receiver? = some this) :
    ∃ type, .bind this (.receiver type) ∈ body.bindings := by
  obtain ⟨instruction, member, found⟩ := List.exists_of_findSome?_eq_some received
  cases instruction with
  | bind target source =>
    cases source with
    | receiver type =>
      cases found
      rw [← List.takeWhile_append_dropWhile (p := Instruction.isBinding) (l := body.instructions)]
        at member
      rcases List.mem_append.1 member with front | behind
      · exact ⟨type, front⟩
      · exact Bool.noConfusion (binds.first _ behind)
    | parameter index type => cases found
  | _ => cases found

/-- Nothing that counting adds has a name that the program gives to something else. -/
structure Program.NamesApart (counter : String) (program : Program) : Prop where
  classes : counter ∉ program.namedClasses
  fields : ∀ name ∈ program.namedFields, isInstrumentationName name = false
  methods : ∀ name ∈ program.namedMethods, ¬ IsIncrementor name

instance (counter : String) (program : Program) : Decidable (program.NamesApart counter) :=
  decidable_of_iff
    (counter ∉ program.namedClasses ∧
      (∀ name ∈ program.namedFields, isInstrumentationName name = false) ∧
      ∀ name ∈ program.namedMethods, ¬ IsIncrementor name)
    ⟨fun ⟨classes, fields, methods⟩ => ⟨classes, fields, methods⟩,
      fun apart => ⟨apart.classes, apart.fields, apart.methods⟩⟩

/-- Nothing that counting adds has a name that the program gives to something else, and the classes
that machines treat apart are not registered. -/
structure Program.Countable (counter : String) (sink : Sink) (program : Program) : Prop where
  root : program.class? objectClass = none
  sinkFree : program.class? sink.owner = none
  sinkApart : sink.owner ≠ counter
  classes : counter ∉ program.namedClasses
  fields : ∀ name ∈ program.namedFields, isInstrumentationName name = false
  methods : ∀ name ∈ program.namedMethods, ¬ IsIncrementor name
  bodies : ∀ body ∈ program.bodies, body.BindsOnce

instance (counter : String) (sink : Sink) (program : Program) :
    Decidable (program.Countable counter sink) :=
  decidable_of_iff
    (program.class? objectClass = none ∧ program.class? sink.owner = none ∧ sink.owner ≠ counter ∧
      counter ∉ program.namedClasses ∧
      (∀ name ∈ program.namedFields, isInstrumentationName name = false) ∧
      (∀ name ∈ program.namedMethods, ¬ IsIncrementor name) ∧
      ∀ body ∈ program.bodies, body.BindsOnce)
    ⟨fun ⟨root, sinkFree, sinkApart, classes, fields, methods, bodies⟩ =>
        ⟨root, sinkFree, sinkApart, classes, fields, methods, bodies⟩,
      fun countable =>
        ⟨countable.root, countable.sinkFree, countable.sinkApart, countable.classes,
          countable.fields, countable.methods, countable.bodies⟩⟩

namespace FieldRef

/-- A field that counting did not add. -/
def Plain (counter : String) (field : FieldRef) : Prop :=
  field.owner ≠ counter ∧ isInstrumentationName field.name = false

end FieldRef

namespace MethodRef

/-- A method that counting did not add. -/
def Plain (counter : String) (method : MethodRef) : Prop :=
  method.owner ≠ counter ∧ ¬ IsIncrementor method.name

end MethodRef

namespace Expression

/-- The expression names nothing that counting added. -/
def Plain (counter : String) : Expression → Prop
  | .instanceField _ field => field.Plain counter
  | .staticField field => field.Plain counter
  | .newObject className => className ≠ counter
  | .call target => target.method.Plain counter
  | _ => True

end Expression

namespace Instruction

/-- The instruction names nothing that counting added. -/
def Plain (counter : String) : Instruction → Prop
  | .assign place value => place.Plain counter ∧ value.Plain counter
  | .invoke target => target.method.Plain counter
  | _ => True

end Instruction

namespace Program

variable {program : Program} {name : String} {declaration : Class}

theorem mem_classes_of_class? (found : program.class? name = some declaration) :
    declaration ∈ program.classes :=
  List.mem_map.2 ⟨_, mem_entries_of_class? found, rfl⟩

theorem mem_bodies
    {method : Method}
    {body : Body}
    (found : program.class? name = some declaration)
    (member : method ∈ declaration.methods)
    (given : method.body = some body) :
    body ∈ program.bodies :=
  List.mem_flatMap.2
    ⟨declaration, mem_classes_of_class? found, List.mem_filterMap.2 ⟨method, member, given⟩⟩

theorem mem_bodies_of_body? {id : MethodId} {body : Body} (found : program.body? id = some body) :
    body ∈ program.bodies := by
  unfold body? method? at found
  obtain ⟨method, there, given⟩ := Option.bind_eq_some_iff.1 found
  obtain ⟨declaration, declares, located⟩ := Option.bind_eq_some_iff.1 there
  exact mem_bodies declares (List.mem_of_getElem? located) given

theorem mem_expressions
    {body : Body}
    {instruction : Instruction}
    {expression : Expression}
    (member : body ∈ program.bodies)
    (among : instruction ∈ body.instructions)
    (part : expression ∈ instruction.expressions) :
    expression ∈ program.expressions :=
  List.mem_flatMap.2 ⟨body, member, List.mem_flatMap.2 ⟨instruction, among, part⟩⟩

namespace NamesApart

variable {counter : String} (apart : program.NamesApart counter)
include apart

theorem unregistered : program.class? counter = none := by
  cases found : program.class? counter with
  | none => rfl
  | some declaration =>
    refine absurd ?_ apart.classes
    have registered : counter ∈ program.names :=
      List.mem_map.2 ⟨_, mem_entries_of_class? found, rfl⟩
    exact List.mem_append_left _ (List.mem_append_left _ registered)

theorem declared_ne
    (found : program.class? name = some declaration)
    {other : String}
    (member : other ∈ declaration.name :: declaration.parents) :
    other ≠ counter := by
  rintro rfl
  exact apart.classes (List.mem_append_left _ (List.mem_append_right _
    (List.mem_flatMap.2 ⟨declaration, mem_classes_of_class? found, member⟩)))

theorem field_plain
    (found : program.class? name = some declaration)
    {field : Field}
    (member : field ∈ declaration.fields) :
    isInstrumentationName field.name = false :=
  apart.fields _ (List.mem_append_left _ (List.mem_flatMap.2
    ⟨declaration, mem_classes_of_class? found, List.mem_map.2 ⟨field, member, rfl⟩⟩))

theorem method_plain
    (found : program.class? name = some declaration)
    {method : Method}
    (member : method ∈ declaration.methods) :
    ¬ IsIncrementor method.name :=
  apart.methods _ (List.mem_append_left _ (List.mem_flatMap.2
    ⟨declaration, mem_classes_of_class? found, List.mem_map.2 ⟨method, member, rfl⟩⟩))

theorem declaresNoIncrementor : program.DeclaresNoIncrementor :=
  fun _ _ _ found member => apart.method_plain found member

theorem expression_plain
    {expression : Expression}
    (member : expression ∈ program.expressions) :
    expression.Plain counter := by
  have classes : ∀ name ∈ expression.classNames, name ≠ counter := by
    rintro name among rfl
    exact apart.classes (List.mem_append_right _ (List.mem_flatMap.2 ⟨expression, member, among⟩))
  have fields : ∀ name ∈ expression.fieldNames, isInstrumentationName name = false :=
    fun name among => apart.fields name
      (List.mem_append_right _ (List.mem_flatMap.2 ⟨expression, member, among⟩))
  have methods : ∀ name ∈ expression.methodNames, ¬ IsIncrementor name :=
    fun name among => apart.methods name
      (List.mem_append_right _ (List.mem_flatMap.2 ⟨expression, member, among⟩))
  cases expression with
  | instanceField base field =>
    exact ⟨classes _ List.mem_cons_self, fields _ List.mem_cons_self⟩
  | staticField field => exact ⟨classes _ List.mem_cons_self, fields _ List.mem_cons_self⟩
  | newObject className => exact classes _ List.mem_cons_self
  | call target => exact ⟨classes _ List.mem_cons_self, methods _ List.mem_cons_self⟩
  | _ => trivial

theorem instruction_plain
    {body : Body}
    {instruction : Instruction}
    (member : body ∈ program.bodies)
    (among : instruction ∈ body.instructions) :
    instruction.Plain counter := by
  cases instruction with
  | assign place value =>
    exact ⟨apart.expression_plain (mem_expressions member among List.mem_cons_self),
      apart.expression_plain
        (mem_expressions member among (List.mem_cons_of_mem _ List.mem_cons_self))⟩
  | invoke target =>
    exact apart.expression_plain (mem_expressions member among List.mem_cons_self)
  | _ => trivial

/-- What a field means is declared under a name that counting did not add. -/
theorem declaredField_plain {field : FieldRef} (plain : field.Plain counter) :
    (Run.declaredField program field).Plain counter := by
  unfold Run.declaredField
  cases found : program.resolveField? field.owner field.name with
  | none => exact plain
  | some declared =>
    unfold resolveField? at found
    obtain ⟨ancestor, -, located⟩ := List.exists_of_findSome?_eq_some found
    unfold declaredField? at located
    obtain ⟨declaration, declares, there⟩ := Option.bind_eq_some_iff.1 located
    obtain ⟨here, isField, rfl⟩ := Option.map_eq_some_iff.1 there
    exact ⟨apart.declared_ne declares List.mem_cons_self,
      apart.field_plain declares (List.mem_of_find?_eq_some isField)⟩

end NamesApart

namespace Countable

variable {counter : String} {sink : Sink} (countable : program.Countable counter sink)
include countable

/-- The names are apart. -/
theorem apart : program.NamesApart counter :=
  ⟨countable.classes, countable.fields, countable.methods⟩

theorem unregistered : program.class? counter = none :=
  countable.apart.unregistered

theorem declaresNoIncrementor : program.DeclaresNoIncrementor :=
  countable.apart.declaresNoIncrementor

theorem bindsFirst : program.BindsFirst :=
  fun _ _ _ body found member given => (countable.bodies body (mem_bodies found member given)).first

end Countable
end Program
end AccessProfiler
