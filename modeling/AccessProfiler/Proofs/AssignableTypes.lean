import AccessProfiler.Proofs.InsertedRules
import AccessProfiler.Proofs.Reachability

/-!
# Assignability as a preorder

Values of one type may be stored where another is declared by one of a few rules (`Assigns`): the types are
the same, the value is `null`, the machine keeps both as an `int`, the one class is below the other, an array
is stored as an instance of a class that all arrays have, or the elements of arrays are assigned.  Two rules
one after the other make a third, as long as nothing is above the classes that all arrays have but the root
class (`Assigns.trans`).  What is above one of these classes would be above arrays as well, and no rule says
so.
-/

namespace AccessProfiler

namespace Program

/-- Arrays are instances of these classes. -/
def arrayClasses : List String := objectClass :: arrayInterfaces

/-- Nothing is above the classes that arrays are instances of, themselves and the root class apart. -/
def ArrayClassesOnTop (program : Program) : Prop :=
  ∀ name ∈ arrayClasses, ∀ upper, program.Reaches name upper → upper = name ∨ upper = objectClass

instance (program : Program) : Decidable program.ArrayClassesOnTop :=
  decidable_of_iff
    (∀ name ∈ arrayClasses, ∀ upper ∈ program.ancestors name, upper = name ∨ upper = objectClass)
    (by simp only [ArrayClassesOnTop, mem_ancestors_iff])

/-- The rules by which a value of the one type may be stored where the other is declared. -/
inductive Assigns (program : Program) : Ty → Ty → Prop
  | same (type : Ty) : Assigns program type type
  | null {target : Ty} (reference : target.isReference) : Assigns program .null target
  | intLike {source target : Ty} (fromInt : source.isIntLike) (toInt : target.isIntLike) :
      Assigns program source target
  | upwards {lower upper : String} (below : program.isSubclass lower upper) :
      Assigns program (.object lower) (.object upper)
  | array (element : Ty) {upper : String} (ofArrays : upper ∈ arrayClasses) :
      Assigns program (.array element) (.object upper)
  | elements {source target : Ty}
      (fromReference : source.isReference)
      (toReference : target.isReference)
      (assigns : Assigns program source target) :
      Assigns program (.array source) (.array target)

variable {program : Program} {source between target : Ty}

theorem assigns_of_isAssignable (assignable : program.isAssignable source target) :
    program.Assigns source target := by
  induction source generalizing target with
  | array source hypothesis =>
    cases target with
    | array target =>
      simp only [isAssignable, Bool.or_eq_true, Bool.and_eq_true, beq_iff_eq] at assignable
      rcases assignable with rfl | ⟨⟨fromReference, toReference⟩, further⟩
      · exact .same _
      · exact .elements fromReference toReference (hypothesis further)
    | object upper =>
      simp only [isAssignable, Bool.or_eq_true, beq_iff_eq, reduceCtorEq, false_or,
        List.contains_iff_mem] at assignable
      exact .array source (List.mem_cons.2 assignable)
    | _ => simp [isAssignable, Ty.isIntLike] at assignable
  | object lower =>
    cases target with
    | object upper =>
      simp only [isAssignable, Bool.or_eq_true, beq_iff_eq, Ty.object.injEq] at assignable
      rcases assignable with rfl | below
      · exact .same _
      · exact .upwards below
    | _ => simp [isAssignable, Ty.isIntLike] at assignable
  | null =>
    simp only [isAssignable, Bool.or_eq_true, beq_iff_eq, Bool.and_eq_true] at assignable
    rcases assignable with rfl | ⟨reference, -⟩
    · exact .same _
    · exact .null reference
  | _ =>
    simp only [isAssignable, Bool.or_eq_true, beq_iff_eq, Bool.and_eq_true] at assignable
    rcases assignable with rfl | ⟨fromInt, toInt⟩
    · exact .same _
    · exact .intLike fromInt toInt

theorem Assigns.isAssignable (assigns : program.Assigns source target) :
    program.isAssignable source target := by
  induction assigns with
  | same type => exact program.isAssignable_refl type
  | @null target reference =>
    cases target with
    | null | object | array => rfl
    | _ => cases reference
  | @intLike source target fromInt toInt =>
    cases source with
    | boolean | byte | char | short | int => simp [Program.isAssignable, fromInt, toInt]
    | _ => cases fromInt
  | upwards below => simp [Program.isAssignable, below]
  | array element ofArrays => simpa [Program.isAssignable, arrayClasses] using ofArrays
  | elements fromReference toReference _ hypothesis =>
    simp [Program.isAssignable, fromReference, toReference, hypothesis]

/-- What is above a class is above each class below it. -/
theorem isSubclass_trans
    (top : program.ArrayClassesOnTop)
    {lower middle upper : String}
    (first : program.isSubclass lower middle)
    (second : program.isSubclass middle upper) :
    program.isSubclass lower upper := by
  rw [isSubclass_iff] at first second ⊢
  rcases second with root | above
  · exact .inl root
  · rcases first with rfl | below
    · exact .inl ((top objectClass List.mem_cons_self upper above).elim id id)
    · exact .inr (below.trans above)

/-- A class that arrays are instances of is only below such classes. -/
theorem mem_arrayClasses_of_isSubclass
    (top : program.ArrayClassesOnTop)
    {lower upper : String}
    (ofArrays : lower ∈ arrayClasses)
    (below : program.isSubclass lower upper) :
    upper ∈ arrayClasses := by
  rcases isSubclass_iff.1 below with rfl | reached
  · exact List.mem_cons_self
  · rcases top lower ofArrays upper reached with rfl | rfl
    · exact ofArrays
    · exact List.mem_cons_self

/-- What may be stored where a reference is declared is one. -/
theorem Assigns.isReference
    (assigns : program.Assigns source target)
    (reference : source.isReference) :
    target.isReference := by
  cases assigns with
  | same => exact reference
  | null target => exact target
  | upwards | array | elements => rfl
  | intLike fromInt =>
    cases source with
    | boolean | byte | char | short | int => cases reference
    | _ => cases fromInt

/-- Two rules one after the other make a third. -/
theorem Assigns.trans
    (top : program.ArrayClassesOnTop)
    (first : program.Assigns source between)
    (second : program.Assigns between target) :
    program.Assigns source target := by
  induction first generalizing target with
  | same type => exact second
  | null reference => exact .null (second.isReference reference)
  | intLike fromInt toInt =>
    cases second with
    | same => exact .intLike fromInt toInt
    | intLike _ target => exact .intLike fromInt target
    | null | upwards | array | elements => cases toInt
  | upwards first =>
    cases second with
    | same => exact .upwards first
    | upwards second => exact .upwards (isSubclass_trans top first second)
    | intLike fromInt => cases fromInt
  | array element ofArrays =>
    cases second with
    | same => exact .array element ofArrays
    | upwards below => exact .array element (mem_arrayClasses_of_isSubclass top ofArrays below)
    | intLike fromInt => cases fromInt
  | elements fromReference toReference first hypothesis =>
    cases second with
    | same => exact .elements fromReference toReference first
    | array _ ofArrays => exact .array _ ofArrays
    | elements _ reference second => exact .elements fromReference reference (hypothesis second)
    | intLike fromInt => cases fromInt

/-- Where nothing but the root class is above the classes that arrays are instances of, each type is
assignable to itself, and a value that passes through a type on its way may as well be stored at once. -/
theorem isAssignable_preorder (top : program.ArrayClassesOnTop) :
    (∀ type, program.isAssignable type type) ∧
      ∀ source between target, program.isAssignable source between →
        program.isAssignable between target → program.isAssignable source target := by
  refine ⟨program.isAssignable_refl, fun source between target first second => ?_⟩
  exact ((assigns_of_isAssignable first).trans top (assigns_of_isAssignable second)).isAssignable

/-- Printed books, with the classes that arrays are instances of. -/
def printedProgram : Program where
  entries :=
    [(objectClass, ⟨objectClass, none, [], .library, ⟨0⟩, [], []⟩),
      ("java.lang.Cloneable",
        ⟨"java.lang.Cloneable", some objectClass, [], .library, Class.interfaceFlag, [], []⟩),
      ("java.io.Serializable",
        ⟨"java.io.Serializable", some objectClass, [], .library, Class.interfaceFlag, [], []⟩),
      ("shop.Printed",
        ⟨"shop.Printed", some objectClass, ["java.io.Serializable"], .application,
          Class.interfaceFlag, [], []⟩),
      ("shop.Item", ⟨"shop.Item", some objectClass, ["shop.Printed"], .application, ⟨0⟩, [], []⟩),
      ("shop.Book", ⟨"shop.Book", some "shop.Item", [], .application, ⟨0⟩, [], []⟩)]
  distinct := by decide

/-- Arrays of arrays of books are arrays of arrays of what is printed, and so arrays of instances of a
class that all arrays have. -/
theorem isAssignable_preorder_printedProgram :
    let books : Ty := .array (.array (.object "shop.Book"))
    let printed : Ty := .array (.array (.object "shop.Printed"))
    let serialized : Ty := .array (.object "java.io.Serializable")
    printedProgram.ArrayClassesOnTop ∧
      printedProgram.isAssignable books books ∧
      printedProgram.isAssignable books printed ∧
      printedProgram.isAssignable printed serialized ∧
      printedProgram.isAssignable books serialized := by
  intro books printed serialized
  have top : printedProgram.ArrayClassesOnTop := by decide +kernel
  have first : printedProgram.isAssignable books printed := by decide +kernel
  have second : printedProgram.isAssignable printed serialized := by decide +kernel
  obtain ⟨same, transitive⟩ := isAssignable_preorder top
  exact ⟨top, same books, first, second, transitive books printed serialized first second⟩

end Program
end AccessProfiler
