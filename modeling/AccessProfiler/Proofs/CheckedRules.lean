import AccessProfiler.Proofs.Naming
import AccessProfiler.Check.Program

/-!
# Keeping the rules

An instruction keeps the rules if its locals are declared and nothing is wrong with it otherwise
(`CheckedBody.keeps_iff`).  It goes on to keep them wherever at least as much is declared, as long as
it names nothing that was added (`CheckedBody.Covers.keeps`).  A program is accepted if the members of
each class can be told apart and every instruction keeps the rules (`Program.violations_eq_nil_iff`).
-/

namespace AccessProfiler

namespace CheckedBody

/-- The instruction breaks no rule. -/
def Keeps (checked : CheckedBody) (instruction : Instruction) : Prop :=
  checked.instructionFaults instruction = []

/-- The local is declared. -/
def Declares (checked : CheckedBody) (id : LocalId) : Prop :=
  id.index < checked.body.locals.length

/-- What is wrong with an instruction whose locals are declared. -/
def ruleFaults (checked : CheckedBody) : Instruction → List String
  | .bind target source => checked.bindFaults target source
  | .assign place value => checked.assignmentFaults place value
  | .invoke target => checked.callFaults target
  | .return value => checked.returnFaults value

section Rules

variable {checked : CheckedBody} {instruction : Instruction}

theorem reportIf_eq_nil_iff {condition : Bool} {message : String} :
    reportIf condition message = [] ↔ condition = false := by
  cases condition <;> simp [reportIf]

theorem keeps_iff :
    checked.Keeps instruction ↔
      (∀ id ∈ instruction.locals, checked.Declares id) ∧ checked.ruleFaults instruction = [] := by
  have known :
      checked.unknownLocals instruction = [] ↔ ∀ id ∈ instruction.locals, checked.Declares id := by
    simp [unknownLocals, Declares, List.filter_eq_nil_iff]
  have rules :
      checked.instructionFaults instruction =
        if (checked.unknownLocals instruction).isEmpty then checked.ruleFaults instruction
        else checked.unknownLocals instruction := by
    unfold instructionFaults
    dsimp only
    cases (checked.unknownLocals instruction).isEmpty <;> cases instruction <;> rfl
  rw [Keeps, rules, ← known]
  split
  · rename_i none
    exact ⟨fun faultless => ⟨List.isEmpty_iff.1 none, faultless⟩, And.right⟩
  · rename_i some
    constructor
    · intro faultless
      simp [faultless] at some
    · intro ⟨faultless, _⟩
      exact faultless

theorem Declares.localType? {id : LocalId} (declares : checked.Declares id) :
    ∃ type, checked.body.localType? id = some type :=
  ⟨(checked.body.locals.get ⟨id.index, declares⟩).type, by
    rw [Body.localType?, Body.local?, List.getElem?_eq_getElem declares, Option.map_some]
    rfl⟩

end Rules

/-- At least as much is declared around a body, apart from what has names that counting adds. -/
structure Covers (counter : String) (checked larger : CheckedBody) : Prop where
  owner : larger.owner = checked.owner
  parameters : larger.method.parameters = checked.method.parameters
  result : larger.method.result = checked.method.result
  isStatic : larger.method.isStatic = checked.method.isStatic
  types :
    ∀ id type, checked.body.localType? id = some type → larger.body.localType? id = some type
  agrees : ∀ source target, checked.agrees source target → larger.agrees source target
  interfaces :
    ∀ name, name ≠ counter → larger.program.isInterface name = checked.program.isInterface name
  fields :
    ∀ field : FieldRef, field.Plain counter → larger.fieldFaults field = checked.fieldFaults field
  methods :
    ∀ target : Call, target.method.Plain counter →
      larger.methodFaults target = checked.methodFaults target

namespace Covers

variable
    {counter : String}
    {checked larger : CheckedBody}
    {instruction : Instruction}
    (covers : checked.Covers counter larger)
include covers

theorem localType?_eq {id : LocalId} (declares : checked.Declares id) :
    larger.body.localType? id = checked.body.localType? id := by
  obtain ⟨type, found⟩ := declares.localType?
  rw [found, covers.types id type found]

theorem declares {id : LocalId} (declares : checked.Declares id) : larger.Declares id := by
  obtain ⟨type, found⟩ := declares.localType?
  have located := covers.types id type found
  rw [Body.localType?, Body.local?] at located
  obtain ⟨declaration, there, -⟩ := Option.map_eq_some_iff.1 located
  exact (List.getElem?_eq_some_iff.1 there).1

theorem operandType?_eq
    {operand : Operand}
    (declares : ∀ id ∈ operand.variable?, checked.Declares id) :
    larger.body.operandType? operand = checked.body.operandType? operand := by
  cases operand with
  | «variable» source => exact covers.localType?_eq (declares source rfl)
  | literal value => rfl

theorem type?_eq
    {expression : Expression}
    (declares : ∀ id ∈ expression.uses, checked.Declares id) :
    larger.body.type? expression = checked.body.type? expression := by
  cases expression with
  | «variable» source => exact covers.localType?_eq (declares source List.mem_cons_self)
  | element base index =>
    rw [Body.type?, Body.type?, covers.localType?_eq (declares base List.mem_cons_self)]
  | binary operator left right =>
    exact covers.operandType?_eq fun id member =>
      declares id (List.mem_append_left _ (Option.mem_toList.2 member))
  | _ => rfl

theorem disagreement
    {source target : Ty}
    {message : String}
    (faultless : reportIf (!checked.agrees source target) message = []) :
    reportIf (!larger.agrees source target) message = [] := by
  rw [reportIf_eq_nil_iff, Bool.not_eq_false'] at faultless ⊢
  exact covers.agrees source target faultless

theorem argumentFaults
    {target : Call}
    (declares : ∀ id ∈ (Expression.call target).uses, checked.Declares id)
    (faultless : checked.argumentFaults target = []) :
    larger.argumentFaults target = [] := by
  rw [CheckedBody.argumentFaults] at faultless ⊢
  dsimp only at faultless ⊢
  split
  · rename_i differs
    rw [if_pos differs] at faultless
    cases faultless
  · rename_i arity
    rw [if_neg arity] at faultless
    rw [List.flatMap_eq_nil_iff] at faultless ⊢
    rintro ⟨⟨argument, parameter⟩, position⟩ member
    have here := faultless _ member
    have paired : (argument, parameter) ∈ target.arguments.zip target.method.parameters :=
      List.mem_of_getElem? (List.mk_mem_zipIdx_iff_getElem?.1 member)
    have among : argument ∈ target.arguments := (List.of_mem_zip paired).1
    have same : larger.body.operandType? argument = checked.body.operandType? argument :=
      covers.operandType?_eq fun id used => declares id
        (List.mem_append_right _ (List.mem_filterMap.2 ⟨argument, among, used⟩))
    dsimp only at here ⊢
    rw [same]
    cases found : checked.body.operandType? argument with
    | none => rfl
    | some type =>
      rw [found] at here
      exact covers.disagreement here

theorem receiverFaults
    {target : Call}
    (declares : ∀ id ∈ (Expression.call target).uses, checked.Declares id)
    (faultless : checked.receiverFaults target = []) :
    larger.receiverFaults target = [] := by
  obtain ⟨kind, method, receiver, arguments⟩ := target
  cases receiver with
  | none => cases kind <;> exact faultless
  | some base =>
    have same : larger.body.localType? base = checked.body.localType? base :=
      covers.localType?_eq (declares base (List.mem_append_left _ List.mem_cons_self))
    cases kind with
    | static => exact faultless
    | _ =>
      simp only [CheckedBody.receiverFaults] at faultless ⊢
      rw [same]
      cases found : checked.body.localType? base with
      | none => rfl
      | some type =>
        rw [found] at faultless
        exact covers.disagreement faultless

theorem callFaults
    {target : Call}
    (plain : target.method.Plain counter)
    (declares : ∀ id ∈ (Expression.call target).uses, checked.Declares id)
    (faultless : checked.callFaults target = []) :
    larger.callFaults target = [] := by
  rw [CheckedBody.callFaults, List.append_eq_nil_iff, List.append_eq_nil_iff] at faultless ⊢
  obtain ⟨⟨arguments, receiver⟩, method⟩ := faultless
  exact ⟨⟨covers.argumentFaults declares arguments, covers.receiverFaults declares receiver⟩,
    (covers.methods target plain).trans method⟩

theorem arrayFaults_eq {base : LocalId} (declares : checked.Declares base) :
    larger.arrayFaults base = checked.arrayFaults base := by
  rw [CheckedBody.arrayFaults, CheckedBody.arrayFaults, covers.localType?_eq declares]

theorem intFaults_eq
    {operand : Operand}
    (declares : ∀ id ∈ operand.variable?, checked.Declares id)
    (what : String) :
    larger.intFaults operand what = checked.intFaults operand what := by
  rw [CheckedBody.intFaults, CheckedBody.intFaults, covers.operandType?_eq declares]

theorem expressionFaults
    {expression : Expression}
    (plain : expression.Plain counter)
    (declares : ∀ id ∈ expression.uses, checked.Declares id)
    (faultless : checked.expressionFaults expression = []) :
    larger.expressionFaults expression = [] := by
  cases expression with
  | «variable» source => rfl
  | literal value => rfl
  | instanceField base field =>
    rw [CheckedBody.expressionFaults, List.append_eq_nil_iff, List.append_eq_nil_iff]
      at faultless ⊢
    obtain ⟨⟨ofInstance, access⟩, fields⟩ := faultless
    refine ⟨⟨ofInstance, ?_⟩, (covers.fields field plain).trans fields⟩
    rw [covers.localType?_eq (declares base List.mem_cons_self)]
    cases found : checked.body.localType? base with
    | none => rfl
    | some type =>
      rw [found] at access
      exact covers.disagreement access
  | staticField field =>
    rw [CheckedBody.expressionFaults, List.append_eq_nil_iff] at faultless ⊢
    exact ⟨faultless.1, (covers.fields field plain).trans faultless.2⟩
  | element base index =>
    rw [CheckedBody.expressionFaults] at faultless ⊢
    rw [covers.arrayFaults_eq (declares base List.mem_cons_self),
      covers.intFaults_eq fun id used =>
        declares id (List.mem_cons_of_mem _ (Option.mem_toList.2 used))]
    exact faultless
  | newObject className =>
    rw [CheckedBody.expressionFaults] at faultless ⊢
    rw [covers.interfaces className plain]
    exact faultless
  | newArray content size =>
    rw [CheckedBody.expressionFaults] at faultless ⊢
    rw [covers.intFaults_eq fun id used => declares id (Option.mem_toList.2 used)]
    exact faultless
  | length base =>
    rw [CheckedBody.expressionFaults] at faultless ⊢
    rw [covers.arrayFaults_eq (declares base List.mem_cons_self)]
    exact faultless
  | binary operator left right =>
    rw [CheckedBody.expressionFaults] at faultless ⊢
    have leftSame : larger.body.operandType? left = checked.body.operandType? left :=
      covers.operandType?_eq fun id used =>
        declares id (List.mem_append_left _ (Option.mem_toList.2 used))
    have rightSame : larger.body.operandType? right = checked.body.operandType? right :=
      covers.operandType?_eq fun id used =>
        declares id (List.mem_append_right _ (Option.mem_toList.2 used))
    rw [leftSame, rightSame]
    split
    · rename_i leftType rightType foundLeft foundRight
      rw [foundLeft, foundRight] at faultless
      simp only [reportIf_eq_nil_iff, Bool.or_eq_false_iff, Bool.not_eq_false', Bool.or_eq_true]
        at faultless ⊢
      exact ⟨faultless.1, faultless.2.imp (covers.agrees _ _) (covers.agrees _ _)⟩
    · rfl
  | call target => exact covers.callFaults plain declares faultless

theorem assignmentFaults
    {place value : Expression}
    (plain : (Instruction.assign place value).Plain counter)
    (declares : ∀ id ∈ (Instruction.assign place value).locals, checked.Declares id)
    (faultless : checked.assignmentFaults place value = []) :
    larger.assignmentFaults place value = [] := by
  have ofPlace : ∀ id ∈ place.uses, checked.Declares id :=
    fun id used => declares id (List.mem_append_left _ used)
  have ofValue : ∀ id ∈ value.uses, checked.Declares id :=
    fun id used => declares id (List.mem_append_right _ used)
  rw [CheckedBody.assignmentFaults] at faultless ⊢
  simp only [List.append_eq_nil_iff] at faultless ⊢
  obtain ⟨⟨⟨isPlace, inPlace⟩, inValue⟩, types⟩ := faultless
  refine ⟨⟨⟨isPlace, covers.expressionFaults plain.1 ofPlace inPlace⟩,
    covers.expressionFaults plain.2 ofValue inValue⟩, ?_⟩
  rw [covers.type?_eq ofPlace, covers.type?_eq ofValue]
  split
  · rename_i target source foundTarget foundSource
    rw [foundTarget, foundSource] at types
    exact covers.disagreement types
  · rename_i untyped
    split at types
    · rename_i target source foundTarget foundSource
      exact absurd foundSource (untyped target source foundTarget)
    · cases types

theorem bindFaults
    {target : LocalId}
    {source : Binding}
    (declares : checked.Declares target)
    (faultless : checked.bindFaults target source = []) :
    larger.bindFaults target source = [] := by
  rw [CheckedBody.bindFaults] at faultless ⊢
  rw [List.append_eq_nil_iff] at faultless ⊢
  constructor
  · cases source with
    | receiver type =>
      rw [CheckedBody.bindingFaults, covers.isStatic, covers.owner]
      exact faultless.1
    | parameter index type =>
      rw [CheckedBody.bindingFaults, covers.parameters]
      exact faultless.1
  · have types := faultless.2
    rw [covers.localType?_eq declares]
    cases found : checked.body.localType? target with
    | none => rfl
    | some type =>
      rw [found] at types
      exact covers.disagreement types

theorem returnFaults
    {value : Option Operand}
    (declares : ∀ id ∈ (Instruction.return value).locals, checked.Declares id)
    (faultless : checked.returnFaults value = []) :
    larger.returnFaults value = [] := by
  cases value with
  | none =>
    rw [CheckedBody.returnFaults, covers.result]
    exact faultless
  | some operand =>
    rw [CheckedBody.returnFaults] at faultless ⊢
    rw [covers.result]
    split
    · rename_i void
      rw [if_pos void] at faultless
      cases faultless
    · rename_i returns
      rw [if_neg returns] at faultless
      rw [covers.operandType?_eq fun id used => declares id (Option.mem_toList.2 used)]
      cases found : checked.body.operandType? operand with
      | none => rfl
      | some type =>
        rw [found] at faultless
        exact covers.disagreement faultless

/-- Where at least as much is declared, the rules are still kept. -/
theorem keeps (plain : instruction.Plain counter) (kept : checked.Keeps instruction) :
    larger.Keeps instruction := by
  rw [keeps_iff] at kept ⊢
  obtain ⟨declares, faultless⟩ := kept
  refine ⟨fun id member => covers.declares (declares id member), ?_⟩
  cases instruction with
  | bind target source => exact covers.bindFaults (declares target List.mem_cons_self) faultless
  | assign place value => exact covers.assignmentFaults plain declares faultless
  | invoke target => exact covers.callFaults plain declares faultless
  | «return» value => exact covers.returnFaults declares faultless

end Covers
end CheckedBody

/-- No element has occurred before if all keys are different. -/
theorem repeated_eq_nil_iff
    {Element Key : Type}
    [BEq Key]
    [LawfulBEq Key]
    {key : Element → Key}
    {elements : List Element} :
    repeated key elements = [] ↔ (elements.map key).Nodup := by
  rw [repeated, List.map_eq_nil_iff, List.filter_eq_nil_iff, List.nodup_iff_pairwise_ne,
    List.pairwise_iff_getElem]
  constructor
  · intro fresh i j inFront bounded before same
    rw [List.length_map] at inFront bounded
    refine fresh (elements[j], j) (List.mk_mem_zipIdx_iff_getElem?.2
      (List.getElem?_eq_getElem bounded)) ?_
    rw [List.contains_iff_mem, List.map_take, List.mem_take_iff_getElem]
    refine ⟨i, ?_, by simpa using same⟩
    rw [List.length_map]
    omega
  · rintro distinct ⟨element, j⟩ member seen
    rw [List.contains_iff_mem, List.map_take, List.mem_take_iff_getElem] at seen
    obtain ⟨i, bound, same⟩ := seen
    obtain ⟨bounded, rfl⟩ := List.getElem?_eq_some_iff.1 (List.mk_mem_zipIdx_iff_getElem?.1 member)
    rw [List.length_map] at bound
    refine distinct i j ?_ ?_ ?_ ?_
    · rw [List.length_map]
      omega
    · rw [List.length_map]
      exact bounded
    · omega
    · simpa using same

namespace Program

variable {program : Program}

/-- Members of the class are not declared twice, and its bodies keep the rules. -/
structure Accepts (program : Program) (name : String) (declaration : Class) : Prop where
  fields : (declaration.fields.map Field.name).Nodup
  methods : (declaration.methods.map fun method => (method.name, method.parameters)).Nodup
  bodies :
    ∀ method ∈ declaration.methods, ∀ body ∈ method.body, ∀ instruction ∈ body.instructions,
      CheckedBody.Keeps ⟨program, name, method, body⟩ instruction

theorem classViolations_eq_nil_iff
    {name : String}
    {declaration : Class}
    (found : program.class? name = some declaration) :
    program.classViolations name = [] ↔
      (declaration.fields.map Field.name).Nodup ∧
        (declaration.methods.map fun method => (method.name, method.parameters)).Nodup := by
  rw [classViolations, found]
  simp only [List.map_eq_nil_iff, List.append_eq_nil_iff, repeated_eq_nil_iff]

theorem bodyViolations_eq_nil_iff {checked : CheckedBody} :
    checked.violations = [] ↔
      ∀ instruction ∈ checked.body.instructions, checked.Keeps instruction := by
  rw [CheckedBody.violations, List.flatMap_eq_nil_iff]
  constructor
  · intro faultless instruction member
    obtain ⟨index, located⟩ := List.getElem?_of_mem member
    exact List.map_eq_nil_iff.1 (faultless _ (List.mk_mem_zipIdx_iff_getElem?.2 located))
  · rintro kept ⟨instruction, index⟩ member
    have located := List.mk_mem_zipIdx_iff_getElem?.1 member
    exact List.map_eq_nil_iff.2 (kept instruction (List.mem_of_getElem? located))

theorem methodViolations_eq_nil_iff
    {name : String}
    {declaration : Class}
    (found : program.class? name = some declaration) :
    (program.methodsOf name).flatMap program.methodViolations = [] ↔
      ∀ method ∈ declaration.methods, ∀ body ∈ method.body, ∀ instruction ∈ body.instructions,
        CheckedBody.Keeps ⟨program, name, method, body⟩ instruction := by
  have each {index : Nat} {method : Method} (located : declaration.methods[index]? = some method) :
      program.methodViolations ⟨name, index⟩ = [] ↔
        ∀ body ∈ method.body, ∀ instruction ∈ body.instructions,
          CheckedBody.Keeps ⟨program, name, method, body⟩ instruction := by
    have there : program.method? ⟨name, index⟩ = some method :=
      Option.bind_eq_some_iff.2 ⟨declaration, found, located⟩
    rw [methodViolations, there]
    dsimp only
    cases given : method.body with
    | none => simp
    | some body => simp [bodyViolations_eq_nil_iff]
  rw [List.flatMap_eq_nil_iff, methodsOf, found]
  constructor
  · intro faultless method member
    obtain ⟨index, located⟩ := List.getElem?_of_mem member
    refine (each located).1 (faultless _ (List.mem_map.2 ⟨index, ?_, rfl⟩))
    exact List.mem_range.2 (List.getElem?_eq_some_iff.1 located).1
  · intro kept id member
    obtain ⟨index, bounded, rfl⟩ := List.mem_map.1 member
    have located := List.getElem?_eq_getElem (List.mem_range.1 bounded)
    exact (each located).2 (kept _ (List.mem_of_getElem? located))

/-- A program is accepted if each class that is checked is. -/
theorem violations_eq_nil_iff {settings : Option Settings} :
    program.violations settings = [] ↔
      ∀ name declaration, program.class? name = some declaration → declaration.isApplication →
        (settings.any fun settings => settings.isExcludedByPrefix name) = false →
        program.Accepts name declaration := by
  have listed {name : String} {declaration : Class}
      (found : program.class? name = some declaration) :
      (name ∈ program.applicationClasses.filter fun name =>
          !settings.any fun settings => settings.isExcludedByPrefix name) ↔
        declaration.isApplication ∧
          (settings.any fun settings => settings.isExcludedByPrefix name) = false := by
    rw [List.mem_filter, Bool.not_eq_true', mem_applicationClasses]
    refine and_congr_left fun _ => ⟨?_, fun application => ⟨_, found, application⟩⟩
    rintro ⟨other, there, application⟩
    cases found.symm.trans there
    exact application
  rw [violations, List.flatMap_eq_nil_iff]
  constructor
  · intro faultless name declaration found application included
    have ofClass := faultless name ((listed found).2 ⟨application, included⟩)
    rw [List.append_eq_nil_iff, classViolations_eq_nil_iff found,
      methodViolations_eq_nil_iff found] at ofClass
    exact ⟨ofClass.1.1, ofClass.1.2, ofClass.2⟩
  · intro accepted name member
    obtain ⟨_, found, -⟩ := mem_applicationClasses.1 (List.mem_filter.1 member).1
    obtain ⟨application, included⟩ := (listed found).1 member
    have accepts := accepted _ _ found application included
    rw [List.append_eq_nil_iff, classViolations_eq_nil_iff found, methodViolations_eq_nil_iff found]
    exact ⟨⟨accepts.fields, accepts.methods⟩, accepts.bodies⟩

end Program
end AccessProfiler
