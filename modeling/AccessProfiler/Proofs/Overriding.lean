import AccessProfiler.Proofs.CallTargets
import AccessProfiler.Proofs.Passes

/-!
# Overriding after wrapping

Whether the signature of a method is changed is decided for the method alone, by what is declared above
its own class.  So a method and one that it overrides need not be decided alike: a second supertype that
is not transformed keeps the signature of the lower method only.  Their parameter types agree afterwards
exactly if mapping leaves them or both were decided alike, and with that calls on objects select the same
method (`Pass.runAll_overriding`).
-/

namespace AccessProfiler

/-- A method of objects, and one that it overrides: of a class or an interface above its own, with its
name and its parameter types. -/
structure Program.Overrides
    (program : Program)
    (lower upper : MethodId)
    (method overridden : Method) : Prop where
  found : program.method? lower = some method
  foundUpper : program.method? upper = some overridden
  above : upper.owner ∈ program.above (program.parents lower.owner)
  name : overridden.name = method.name
  parameters : overridden.parameters = method.parameters
  ofObjects : method.isStatic = false ∧ overridden.isStatic = false
  ordinary : method.isConstructor = false

/-- The parameter types that a method has after signatures were changed if it had the given ones. -/
def Session.parametersAfter (session : Session) (id : MethodId) (parameters : List Ty) : List Ty :=
  if session.adaptsSignature id then parameters.map session.settings.mapped else parameters

/-- The reference as it has to be for it to name a method after signatures were changed. -/
def Session.renamed (session : Session) (named : MethodId) (reference : MethodRef) : MethodRef :=
  { reference with parameters := session.parametersAfter named reference.parameters }

section Deciding

variable
    {session : Session}
    {lower upper : MethodId}
    {method overridden : Method}

/-- What stands above a class stands above the classes below it. -/
theorem Program.above_parents_trans
    {program : Program}
    {lower upper ancestor : String}
    (above : upper ∈ program.above (program.parents lower))
    (member : ancestor ∈ program.above (program.parents upper)) :
    ancestor ∈ program.above (program.parents lower) :=
  Program.mem_above_trans (fun _ parent => Program.mem_above_of_parent above parent) member

/-- A declaration that keeps the signature of a method keeps those of all methods that override it. -/
theorem Session.overridesForeign_of_above
    {lower upper name : String}
    {parameters : List Ty}
    (above : upper ∈ session.program.above (session.program.parents lower))
    (foreign : session.overridesForeign upper name parameters) :
    session.overridesForeign lower name parameters := by
  unfold Session.overridesForeign at *
  rw [List.any_eq_true] at *
  obtain ⟨ancestor, member, declares⟩ := foreign
  exact ⟨ancestor, Program.above_parents_trans above member, declares⟩

/-- The signature of a method of objects is changed if the method is transformed and no class above that
is not transformed declares it. -/
theorem Session.adaptsSignature_of_instance
    {id : MethodId}
    (found : session.program.method? id = some method)
    (ofObjects : method.isStatic = false)
    (ordinary : method.isConstructor = false) :
    session.adaptsSignature id =
      (session.isTransformable id &&
        !session.overridesForeign id.owner method.name method.parameters) := by
  rw [Session.adaptsSignature_of_method? found]
  simp [Session.keepsRaw, Method.isMain, ofObjects, ordinary]

/-- Of two transformed methods, one overriding the other, the lower one only may keep its signature. -/
theorem Session.adaptsSignature_eq_iff
    (overrides : session.program.Overrides lower upper method overridden)
    (transformable : session.isTransformable lower)
    (transformableUpper : session.isTransformable upper) :
    session.adaptsSignature lower = session.adaptsSignature upper ↔
      (session.overridesForeign lower.owner method.name method.parameters →
        session.overridesForeign upper.owner method.name method.parameters) := by
  have ordinaryUpper : overridden.isConstructor = false := by
    unfold Method.isConstructor
    rw [overrides.name]
    exact overrides.ordinary
  have inherits :
      session.overridesForeign upper.owner method.name method.parameters →
        session.overridesForeign lower.owner method.name method.parameters :=
    Session.overridesForeign_of_above overrides.above
  rw [Session.adaptsSignature_of_instance overrides.found overrides.ofObjects.1 overrides.ordinary,
    Session.adaptsSignature_of_instance overrides.foundUpper overrides.ofObjects.2 ordinaryUpper,
    overrides.name, overrides.parameters, transformable, transformableUpper, Bool.true_and,
    Bool.true_and, Bool.not_inj_iff, Bool.eq_iff_iff]
  exact ⟨Iff.mp, fun shares => ⟨shares, inherits⟩⟩

theorem Session.resigned_parameters (session : Session) (id : MethodId) (method : Method) :
    (session.resigned id method).parameters = session.parametersAfter id method.parameters := by
  unfold Session.resigned Session.parametersAfter
  split <;> rfl

/-- Parameter types that agreed still agree if mapping leaves them or both methods were decided
alike. -/
theorem Session.parametersAfter_eq_iff
    (session : Session)
    (lower upper : MethodId)
    (parameters : List Ty) :
    session.parametersAfter lower parameters = session.parametersAfter upper parameters ↔
      parameters.map session.settings.mapped = parameters ∨
        session.adaptsSignature lower = session.adaptsSignature upper := by
  unfold Session.parametersAfter
  cases session.adaptsSignature lower <;> cases session.adaptsSignature upper <;> simp [eq_comm]

end Deciding

section Selecting

variable
    {settings : Settings}
    {program signed : Program}
    (wrappable : program.Wrappable settings)
    (resigned : (Session.start settings program).Resigned (program.generatedNames settings) signed)
    {reference : MethodRef}
    (types : ∀ type ∈ reference.parameters, type ∈ program.parameterTypes)
include wrappable resigned types

/-- A method fits a reference that follows another method if it fitted before and the two agree. -/
theorem fitsAt_renamed_iff
    (named : MethodId)
    {id : MethodId}
    (apart : id.owner ∉ program.generatedNames settings) :
    signed.fitsAt id reference.name
        ((Session.start settings program).parametersAfter named reference.parameters) ↔
      program.fitsAt id reference.name reference.parameters ∧
        (Session.start settings program).parametersAfter id reference.parameters =
          (Session.start settings program).parametersAfter named reference.parameters := by
  rw [Session.parametersAfter_eq_iff]
  unfold Session.parametersAfter
  cases (Session.start settings program).adaptsSignature named with
  | true => exact Session.Resigned.fitsAt_mapped_iff wrappable types resigned apart
  | false => exact Session.Resigned.fitsAt_iff wrappable types resigned apart

variable (apart : reference.owner ∉ program.generatedNames settings)
include apart

/-- A search for a reference that follows a method comes by the same classes, and fewer methods fit. -/
theorem fitsAt_of_renamed
    (named : MethodId)
    {ancestor : String}
    (member : ancestor ∈ program.searched reference.owner)
    {index : Nat}
    (fits :
      signed.fitsAt ⟨ancestor, index⟩ ((Session.start settings program).renamed named reference).name
        ((Session.start settings program).renamed named reference).parameters) :
    program.fitsAt ⟨ancestor, index⟩ reference.name reference.parameters :=
  ((fitsAt_renamed_iff wrappable resigned types named
    (wrappable.closedAbove.searched apart ancestor member)).1 fits).1

omit types in
theorem searched_renamed (named : MethodId) :
    signed.searched ((Session.start settings program).renamed named reference).owner =
      program.searched reference.owner :=
  resigned.hierarchy.searched_eq wrappable.closedAbove apart

/-- A reference that follows a method refers to what it referred to before if the two methods agree, and
otherwise to something else. -/
theorem referent?_renamed_iff
    (named : MethodId)
    {selected : MethodId}
    (refers : program.referent? reference = some selected) :
    signed.referent? ((Session.start settings program).renamed named reference) = some selected ↔
      (Session.start settings program).parametersAfter selected reference.parameters =
        (Session.start settings program).parametersAfter named reference.parameters := by
  have selectedFits := fitsAt_renamed_iff wrappable resigned types named
    (wrappable.closedAbove.searched apart selected.owner (program.owner_mem_searched refers))
  constructor
  · intro found
    exact (selectedFits.1 (signed.fitsAt_of_referent? found)).2
  · intro agree
    apply Program.referent?_of_fewer program (searched_renamed wrappable resigned apart named)
    · intro ancestor member index fits
      exact fitsAt_of_renamed wrappable resigned types apart named member fits
    · exact refers
    · exact selectedFits.2 ⟨program.fitsAt_of_referent? refers, agree⟩

/-- A reference to nothing still refers to nothing. -/
theorem referent?_renamed_eq_none
    (named : MethodId)
    (missing : program.referent? reference = none) :
    signed.referent? ((Session.start settings program).renamed named reference) = none := by
  apply Program.referent?_eq_none_of_fewer program (searched_renamed wrappable resigned apart named)
  · intro ancestor member index fits
    exact fitsAt_of_renamed wrappable resigned types apart named member fits
  · exact missing

/-- A call on an object selects the same method exactly if this method and the one that the call refers
to have the same parameter types afterwards. -/
theorem target?_renamed_iff
    {runtimeClass : String}
    (runtimeApart : runtimeClass ∉ program.generatedNames settings)
    {named selected : MethodId}
    (refers : program.referent? reference = some named)
    (selects : Run.target? program runtimeClass reference = some selected) :
    Run.target? signed runtimeClass ((Session.start settings program).renamed named reference) =
        some selected ↔
      (Session.start settings program).parametersAfter selected reference.parameters =
        (Session.start settings program).parametersAfter named reference.parameters := by
  have renamedStart :
      { (Session.start settings program).renamed named reference with owner := runtimeClass } =
        (Session.start settings program).renamed named
          { reference with owner := runtimeClass } := rfl
  have typesThere :
      ∀ type ∈ ({ reference with owner := runtimeClass } : MethodRef).parameters,
        type ∈ program.parameterTypes := types
  have byName := (referent?_renamed_iff wrappable resigned types apart named refers).2 rfl
  rw [Program.target?_eq_or, renamedStart, byName]
  rw [Program.target?_eq_or, refers] at selects
  cases found : program.referent? { reference with owner := runtimeClass } with
  | none =>
    rw [found, Option.none_or] at selects
    cases selects
    have missing := referent?_renamed_eq_none wrappable resigned typesThere runtimeApart named found
    rw [missing]
    exact ⟨fun _ => rfl, fun _ => rfl⟩
  | some other =>
    rw [found, Option.some_or] at selects
    cases selects
    have onRuntimeClass :=
      referent?_renamed_iff wrappable resigned typesThere runtimeApart named found
    rw [← onRuntimeClass]
    cases foundAfter :
        signed.referent?
          ((Session.start settings program).renamed named
            { reference with owner := runtimeClass }) with
    | some _ => rfl
    | none =>
      -- The call falls back to the method that it refers to, which agrees with itself.
      rw [foundAfter] at onRuntimeClass
      constructor
      · intro fallsBack
        cases fallsBack
        exact onRuntimeClass.2 rfl
      · intro impossible
        cases impossible

end Selecting

/-- A class that is not registered has no methods, its own or inherited ones. -/
theorem Program.class?_ne_none_of_referent?
    {program : Program}
    {reference : MethodRef}
    {id : MethodId}
    (refers : program.referent? reference = some id) :
    program.class? reference.owner ≠ none := by
  intro missing
  have superclass : program.superclass? reference.owner = none := by
    unfold superclass?
    rw [missing]
    rfl
  have chain : program.chain reference.owner = [reference.owner] := by
    change program.chainUpTo 257 reference.owner = _
    unfold chainUpTo
    rw [superclass]
  have interfaces : program.interfaces reference.owner = [] := by
    unfold Program.interfaces
    rw [missing]
  have searched : program.searched reference.owner = [reference.owner] := by
    unfold Program.searched
    dsimp only
    rw [chain, List.flatMap_singleton, interfaces]
    rfl
  have owned := program.owner_mem_searched refers
  rw [searched, List.mem_singleton] at owned
  obtain ⟨method, found, -⟩ := (Option.any_eq_true _ _).1 (program.fitsAt_of_referent? refers)
  obtain ⟨declaration, registered, -⟩ := Option.bind_eq_some_iff.1 found
  rw [owned, missing] at registered
  cases registered

/-- What a reference refers to has its parameter types, so that the program declares them. -/
theorem Program.mem_parameterTypes_of_referent?
    {program : Program}
    {reference : MethodRef}
    {id : MethodId}
    (refers : program.referent? reference = some id) :
    ∃ method, program.method? id = some method ∧ method.parameters = reference.parameters ∧
      ∀ type ∈ reference.parameters, type ∈ program.parameterTypes := by
  obtain ⟨method, found, fits⟩ := (Option.any_eq_true _ _).1 (program.fitsAt_of_referent? refers)
  obtain ⟨-, same⟩ := Method.fits_iff.1 fits
  obtain ⟨declaration, registered, indexed⟩ := Option.bind_eq_some_iff.1 found
  refine ⟨method, found, same, ?_⟩
  intro type member
  exact mem_parameterTypes_of_declared registered (List.mem_of_getElem? indexed) (same ▸ member)

/-- After signatures were changed, a method and one that it overrides have the same parameter types
exactly if mapping leaves them or both methods were decided alike; for transformed methods, if a
declaration that keeps the signature of the lower one keeps that of the upper one too.  A call on an
object selects the same method as before exactly if the parameter types of this method are those of the
method that the call refers to. -/
theorem Pass.runAll_overriding
    {settings : Settings}
    {program : Program}
    (wrappable : program.Wrappable settings)
    {changed : Bool}
    {after : Session}
    (ends : Ends (Pass.runAll [.wrapSignatures]) (.start settings program) changed after) :
    (∀ lower upper method overridden, program.Overrides lower upper method overridden →
      ∃ methodAfter overriddenAfter,
        after.program.method? lower = some methodAfter ∧
        after.program.method? upper = some overriddenAfter ∧
        (methodAfter.parameters = overriddenAfter.parameters ↔
          method.parameters.map settings.mapped = method.parameters ∨
            (Session.start settings program).adaptsSignature lower =
              (Session.start settings program).adaptsSignature upper) ∧
        ((Session.start settings program).isTransformable lower →
          (Session.start settings program).isTransformable upper →
          (methodAfter.parameters = overriddenAfter.parameters ↔
            method.parameters.map settings.mapped = method.parameters ∨
              ((Session.start settings program).overridesForeign lower.owner method.name
                  method.parameters →
                (Session.start settings program).overridesForeign upper.owner method.name
                  method.parameters)))) ∧
    ∀ reference named runtimeClass selected,
      program.referent? reference = some named →
      runtimeClass ∉ program.generatedNames settings →
      Run.target? program runtimeClass reference = some selected →
      ∃ namedAfter selectedAfter,
        after.program.method? named = some namedAfter ∧
        after.program.method? selected = some selectedAfter ∧
        (Run.target? after.program runtimeClass
            { reference with parameters := namedAfter.parameters } = some selected ↔
          selectedAfter.parameters = namedAfter.parameters) := by
  have generated := program.counterClassName_mem_generatedNames settings
  obtain ⟨results, runs⟩ := Pass.ends_runAll ends
  obtain ⟨_, between, others, runsFirst, runsOthers, -⟩ := Ends.mapM_cons_iff.1 runs
  obtain ⟨-, rfl⟩ := Ends.pure_iff.1 runsOthers
  obtain ⟨journal, worked, journalAfter, works, rfl⟩ := Pass.ends_run runsFirst
  have started := (Session.Orderly.start generated program).withJournal journal
  obtain ⟨-, resigned⟩ := wrapSignatures_resigned wrappable started rfl works
  have methodAfter
      {id : MethodId}
      {method : Method}
      (found : program.method? id = some method) :
      ∃ methodAfter, worked.program.method? id = some methodAfter ∧
        methodAfter.parameters =
          (Session.start settings program).parametersAfter id method.parameters := by
    obtain ⟨declaration, registered, -⟩ := Option.bind_eq_some_iff.1 found
    refine ⟨(Session.start settings program).resigned id method, ?_, Session.resigned_parameters ..⟩
    have startFound : (Session.start settings program).program.method? id = some method := found
    rw [resigned.method?_eq (wrappable.not_generated_of_class? registered), startFound]
    rfl
  constructor
  · intro lower upper method overridden overrides
    obtain ⟨lowerAfter, foundAfter, lowerParameters⟩ := methodAfter overrides.found
    obtain ⟨upperAfter, foundUpperAfter, upperParameters⟩ := methodAfter overrides.foundUpper
    have agree :
        lowerAfter.parameters = upperAfter.parameters ↔
          method.parameters.map settings.mapped = method.parameters ∨
            (Session.start settings program).adaptsSignature lower =
              (Session.start settings program).adaptsSignature upper := by
      rw [lowerParameters, upperParameters, overrides.parameters]
      exact Session.parametersAfter_eq_iff _ lower upper method.parameters
    refine ⟨lowerAfter, upperAfter, foundAfter, foundUpperAfter, agree, ?_⟩
    intro transformable transformableUpper
    have decided :
        (Session.start settings program).adaptsSignature lower =
            (Session.start settings program).adaptsSignature upper ↔
          ((Session.start settings program).overridesForeign lower.owner method.name
              method.parameters →
            (Session.start settings program).overridesForeign upper.owner method.name
              method.parameters) :=
      Session.adaptsSignature_eq_iff overrides transformable transformableUpper
    rw [agree, decided]
  · intro reference named runtimeClass selected refers runtimeApart selects
    obtain ⟨namedMethod, foundNamed, sameNamed, types⟩ :=
      Program.mem_parameterTypes_of_referent? refers
    obtain ⟨selectedMethod, foundSelected, -, sameSelected⟩ := Program.target?_eq_some selects
    obtain ⟨namedAfter, foundNamedAfter, namedParameters⟩ := methodAfter foundNamed
    obtain ⟨selectedAfter, foundSelectedAfter, selectedParameters⟩ := methodAfter foundSelected
    refine ⟨namedAfter, selectedAfter, foundNamedAfter, foundSelectedAfter, ?_⟩
    obtain ⟨declaration, registered⟩ :=
      Option.ne_none_iff_exists'.1 (Program.class?_ne_none_of_referent? refers)
    rw [namedParameters, selectedParameters, sameNamed, sameSelected]
    exact target?_renamed_iff wrappable (.of_resignedFor resigned) types
      (wrappable.not_generated_of_class? registered) runtimeApart refers selects

/-- A method that takes an array is overridden in a class that also implements an interface of the given
kind; the interface declares the method as well, and the method is called on an instance of the lower
class. -/
def pickerProgram (kind : ClassKind) : Program where
  entries :=
    [("lib.Picker",
      { name := "lib.Picker"
        superclass := some objectClass
        interfaces := []
        kind := kind
        flags := Class.interfaceFlag.union Class.abstractFlag
        fields := []
        methods := [⟨"pick", [.array .int], .int, Method.abstract, none⟩] }),
      ("shop.Base",
      { name := "shop.Base"
        superclass := some objectClass
        interfaces := []
        kind := .application
        flags := ⟨0⟩
        fields := []
        methods :=
          [⟨"pick", [.array .int], .int, ⟨0⟩, some ⟨[], [.return (some (.literal (.int 1)))]⟩⟩] }),
      ("shop.Main",
      { name := "shop.Main"
        superclass := some objectClass
        interfaces := []
        kind := .application
        flags := ⟨0⟩
        fields := []
        methods :=
          [{ name := "main"
             parameters := []
             result := .int
             flags := Method.static
             body := some
              { locals := [⟨"base", .object "shop.Base"⟩, ⟨"sizes", .array .int⟩, ⟨"picked", .int⟩]
                instructions :=
                  [.assign (.variable ⟨0⟩) (.newObject "shop.Special"),
                    .assign (.variable ⟨1⟩) (.newArray .int (.literal (.int 1))),
                    .assign (.variable ⟨2⟩)
                      (.call
                        { kind := .virtual
                          method := ⟨"shop.Base", "pick", [.array .int], .int⟩
                          receiver := some ⟨0⟩
                          arguments := [.variable ⟨1⟩] }),
                    .return (some (.variable ⟨2⟩))] } }] }),
      ("shop.Special",
      { name := "shop.Special"
        superclass := some "shop.Base"
        interfaces := ["lib.Picker"]
        kind := .application
        flags := ⟨0⟩
        fields := []
        methods :=
          [⟨"pick", [.array .int], .int, ⟨0⟩, some ⟨[], [.return (some (.literal (.int 2)))]⟩⟩] })]
  distinct := by
    show ["lib.Picker", "shop.Base", "shop.Main", "shop.Special"].Nodup
    decide

/-- The session after the signatures of the program were changed. -/
def wrappedPicker (kind : ClassKind) : Session :=
  ((Pass.runAll [.wrapSignatures]).on (.start .standard (pickerProgram kind))).2

/-- The call of the method as it is written. -/
def pickCall : MethodRef :=
  ⟨"shop.Base", "pick", [.array .int], .int⟩

/-- If the interface is transformed as well, the lower method still overrides the upper one. -/
theorem pickerProgram_keeps_override :
    (∃ methodAfter overriddenAfter,
      (wrappedPicker .application).program.method? ⟨"shop.Special", 0⟩ = some methodAfter ∧
        (wrappedPicker .application).program.method? ⟨"shop.Base", 0⟩ = some overriddenAfter ∧
        methodAfter.parameters = overriddenAfter.parameters) ∧
      ∃ namedAfter selectedAfter,
        (wrappedPicker .application).program.method? ⟨"shop.Base", 0⟩ = some namedAfter ∧
          (wrappedPicker .application).program.method? ⟨"shop.Special", 0⟩ = some selectedAfter ∧
          (Run.target? (wrappedPicker .application).program "shop.Special"
              { pickCall with parameters := namedAfter.parameters } = some ⟨"shop.Special", 0⟩ ↔
            selectedAfter.parameters = namedAfter.parameters) := by
  have ends :
      Ends (Pass.runAll [.wrapSignatures]) (.start .standard (pickerProgram .application)) true
        (wrappedPicker .application) :=
    Ends.of_result (by decide +kernel)
  have overrides :
      (pickerProgram .application).Overrides ⟨"shop.Special", 0⟩ ⟨"shop.Base", 0⟩
        ⟨"pick", [.array .int], .int, ⟨0⟩, some ⟨[], [.return (some (.literal (.int 2)))]⟩⟩
        ⟨"pick", [.array .int], .int, ⟨0⟩, some ⟨[], [.return (some (.literal (.int 1)))]⟩⟩ :=
    ⟨rfl, rfl, by decide +kernel, rfl, rfl, by decide, by decide⟩
  obtain ⟨agree, select⟩ := Pass.runAll_overriding (by decide +kernel) ends
  obtain ⟨methodAfter, overriddenAfter, found, foundUpper, same, -⟩ := agree _ _ _ _ overrides
  refine ⟨⟨methodAfter, overriddenAfter, found, foundUpper, same.2 (.inr (by decide +kernel))⟩, ?_⟩
  exact select pickCall ⟨"shop.Base", 0⟩ "shop.Special" ⟨"shop.Special", 0⟩ (by decide +kernel)
    (by decide +kernel) (by decide +kernel)

/-- If the interface is not transformed, the lower method no longer overrides the upper one: the call,
with the parameter types that the upper method has then, selects the upper method. -/
theorem libraryPicker_loses_override :
    (pickerProgram .library).Wrappable .standard ∧
      (pickerProgram .library).violations (some .standard) = [] ∧
      Ends (Pass.runAll [.wrapSignatures]) (.start .standard (pickerProgram .library)) true
        (wrappedPicker .library) ∧
      "shop.Base" ∈ (pickerProgram .library).above ((pickerProgram .library).parents "shop.Special") ∧
      ((pickerProgram .library).method? ⟨"shop.Special", 0⟩).map Method.parameters =
        some [.array .int] ∧
      ((pickerProgram .library).method? ⟨"shop.Base", 0⟩).map Method.parameters =
        some [.array .int] ∧
      Run.target? (pickerProgram .library) "shop.Special" pickCall = some ⟨"shop.Special", 0⟩ ∧
      ((wrappedPicker .library).program.method? ⟨"shop.Special", 0⟩).map Method.parameters =
        some [.array .int] ∧
      ((wrappedPicker .library).program.method? ⟨"shop.Base", 0⟩).map Method.parameters =
        some [.object "heapscope.generated.intArray"] ∧
      Run.target? (wrappedPicker .library).program "shop.Special"
          { pickCall with parameters := [.object "heapscope.generated.intArray"] } =
        some ⟨"shop.Base", 0⟩ :=
  ⟨by decide +kernel, by decide +kernel, Ends.of_result (by decide +kernel), by decide +kernel,
    by decide +kernel, by decide +kernel, by decide +kernel, by decide +kernel, by decide +kernel,
    by decide +kernel⟩

end AccessProfiler
