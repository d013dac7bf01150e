import AccessProfiler.Pipeline
import AccessProfiler.Proofs.Searches
import AccessProfiler.Proofs.WrapperClasses

/-!
# Signatures after wrapping

Which signatures are changed is decided by the program as it was before the first of them
(`Session.adaptsSignature`): a signature is kept because of methods that are not transformed, and these
stay as they are while the others change one after the other.  So the program afterwards is the original
one with wrappers in the signatures that are changed (`Session.Resigned`), apart from what was generated.
-/

namespace AccessProfiler

/-- The method with wrappers in the place of arrays in its signature. -/
def Settings.wrappedMethod (settings : Settings) (method : Method) : Method :=
  { method with
    parameters := method.parameters.map settings.mapped
    result := settings.mapped method.result }

/-- Wrappers are put into the signature of the method. -/
def Session.adaptsSignature (session : Session) (id : MethodId) : Bool :=
  session.isTransformable id &&
    (session.program.method? id).any fun method => !session.keepsRaw id.owner method

/-- The method as it is after signatures were changed. -/
def Session.resigned (session : Session) (id : MethodId) (method : Method) : Method :=
  if session.adaptsSignature id then session.settings.wrappedMethod method else method

/-- The program is that of the session with the signatures of some methods changed, apart from classes
of the given names. -/
structure Session.ResignedFor
    (session : Session)
    (names : List String)
    (done : List MethodId)
    (program : Program) : Prop where
  hierarchy : session.program.SameHierarchy (· ∉ names) program
  methods :
    ∀ id : MethodId, id.owner ∉ names →
      program.method? id =
        (session.program.method? id).map fun method =>
          if id ∈ done then session.resigned id method else method
  synthetic :
    ∀ name ∈ names, ∀ declaration, program.class? name = some declaration → declaration.isSynthetic

section Unchanged

variable {settings : Settings} {method : Method}

theorem Settings.mapped_of_not_isArray
    {type : Ty}
    (plain : type.isArray = false) :
    settings.mapped type = type := by
  cases type with
  | array element => cases plain
  | _ => rfl

/-- A signature without arrays stays as it is. -/
theorem Settings.wrappedMethod_of_no_arrays
    (plain : (method.result.isArray || method.parameters.any Ty.isArray) = false) :
    settings.wrappedMethod method = method := by
  rw [Bool.or_eq_false_iff, List.any_eq_false] at plain
  have parameters : method.parameters.map settings.mapped = method.parameters := by
    conv_rhs => rw [← List.map_id method.parameters]
    apply List.map_congr_left
    intro type member
    exact Settings.mapped_of_not_isArray (Bool.eq_false_iff.2 (plain.2 type member))
  unfold Settings.wrappedMethod
  rw [parameters, Settings.mapped_of_not_isArray plain.1]

theorem Session.resigned_name (session : Session) (id : MethodId) (method : Method) :
    (session.resigned id method).name = method.name := by
  unfold Session.resigned
  split <;> rfl

theorem Session.resigned_flags (session : Session) (id : MethodId) (method : Method) :
    (session.resigned id method).flags = method.flags := by
  unfold Session.resigned
  split <;> rfl

theorem Session.resigned_body (session : Session) (id : MethodId) (method : Method) :
    (session.resigned id method).body = method.body := by
  unfold Session.resigned
  split <;> rfl

end Unchanged

section Deciding

variable {session : Session} {id : MethodId} {method : Method}

theorem Session.resigned_of_not_isTransformable
    (untouched : session.isTransformable id = false)
    (method : Method) :
    session.resigned id method = method := by
  unfold Session.resigned Session.adaptsSignature
  rw [untouched]
  rfl

theorem Session.adaptsSignature_of_method?
    (found : session.program.method? id = some method) :
    session.adaptsSignature id = (session.isTransformable id && !session.keepsRaw id.owner method) := by
  unfold Session.adaptsSignature
  rw [found]
  rfl

/-- A method without arrays, or one that is called with arrays from outside, stays as it is. -/
theorem Session.resigned_of_kept
    (found : session.program.method? id = some method)
    (kept :
      (!(method.result.isArray || method.parameters.any Ty.isArray) ||
        session.keepsRaw id.owner method) = true) :
    session.resigned id method = method := by
  unfold Session.resigned
  split
  · rename_i adapts
    rw [Session.adaptsSignature_of_method? found, Bool.and_eq_true, Bool.not_eq_true'] at adapts
    rw [adapts.2, Bool.or_false, Bool.not_eq_true'] at kept
    exact Settings.wrappedMethod_of_no_arrays kept
  · rfl

theorem Session.resigned_of_adapted
    (found : session.program.method? id = some method)
    (transformable : session.isTransformable id)
    (adapted :
      ¬ (!(method.result.isArray || method.parameters.any Ty.isArray) ||
        session.keepsRaw id.owner method) = true) :
    session.resigned id method = session.settings.wrappedMethod method := by
  have adapts : session.adaptsSignature id := by
    rw [Bool.or_eq_true, not_or] at adapted
    rw [Session.adaptsSignature_of_method? found, transformable]
    simpa using adapted.2
  unfold Session.resigned
  rw [if_pos adapts]

end Deciding

namespace Program.SameApart

variable {names : List String} {before after : Program}

theorem method?_eq
    (same : before.SameApart names after)
    {id : MethodId}
    (apart : id.owner ∉ names) :
    after.method? id = before.method? id := by
  unfold method?
  rw [same.others id.owner apart]

theorem sameHierarchy (same : before.SameApart names after) :
    before.SameHierarchy (· ∉ names) after := by
  intro name apart
  rw [same.others name apart]

end Program.SameApart

/-- No class is above a class of the program that wrapping could generate. -/
theorem Program.Wrappable.closedAbove
    {settings : Settings}
    {program : Program}
    (wrappable : program.Wrappable settings) :
    program.ClosedAbove (· ∉ program.generatedNames settings) := by
  intro name _ upper member
  unfold parents at member
  cases found : program.class? name with
  | none =>
    rw [found] at member
    cases member
  | some declaration =>
    rw [found] at member
    exact wrappable.not_generated_of_parent found member

theorem Session.ResignedFor.start
    {settings : Settings}
    {program : Program}
    (wrappable : program.Wrappable settings) :
    (Session.start settings program).ResignedFor (program.generatedNames settings) [] program where
  hierarchy := .refl _ _
  methods id _ := by
    simp only [List.not_mem_nil, if_false, Option.map_id']
    rfl
  synthetic _ generated _ found := absurd generated (wrappable.not_generated_of_class? found)

/-- Apart from one method, nothing is changed that a resigned program is required to keep. -/
theorem Session.ResignedFor.add
    {session : Session}
    {names : List String}
    {done : List MethodId}
    {before after : Program}
    {id : MethodId}
    (resigned : session.ResignedFor names done before)
    (hierarchy : before.SameHierarchy (· ∉ names) after)
    (others :
      ∀ other : MethodId, other.owner ∉ names → other ≠ id →
        after.method? other = before.method? other)
    (this : after.method? id = (session.program.method? id).map (session.resigned id))
    (synthetic :
      ∀ name ∈ names, ∀ declaration, after.class? name = some declaration →
        declaration.isSynthetic) :
    session.ResignedFor names (done ++ [id]) after := by
  refine ⟨resigned.hierarchy.trans hierarchy, ?_, synthetic⟩
  intro other apart
  by_cases same : other = id
  · subst same
    rw [this]
    simp
  · rw [others other apart same, resigned.methods other apart]
    simp [same]

theorem Program.class?_modifyMethod_of_ne
    {program : Program}
    {id : MethodId}
    {change : Method → Method}
    {name : String}
    (differs : name ≠ id.owner) :
    (program.modifyMethod id change).class? name = program.class? name := by
  rw [class?_modifyMethod, if_neg differs]

theorem Program.sameHierarchy_modifyMethod
    {program : Program}
    {names : List String}
    {id : MethodId}
    {change : Method → Method} :
    program.SameHierarchy (· ∉ names) (program.modifyMethod id change) := by
  intro name _
  rw [class?_modifyMethod]
  split
  · rename_i same
    rw [same, Option.map_map]
    rfl
  · rfl

section Sessions

variable
    {settings : Settings}
    {program : Program}
    {session : Session}

/-- The same classes are transformed as at the start. -/
theorem Session.isTransformableClass_eq
    {names : List String}
    (generated : settings.counterClassName ∈ names)
    (orderly : session.Orderly settings names)
    (hierarchy : program.SameHierarchy (· ∉ names) session.program)
    {name : String}
    (apart : name ∉ names) :
    session.isTransformableClass name = (Session.start settings program).isTransformableClass name := by
  have startOrderly := Session.Orderly.start generated program
  have holds
      {session : Session}
      (orderly : session.Orderly settings names) :
      session.counters.holds name = false := by
    have differs : name ≠ session.counters.className := fun same => apart (same ▸ orderly.counters)
    simpa [CounterTable.holds] using differs
  have classes :
      ((session.program.class? name).any fun declaration =>
          declaration.isApplication && !declaration.isSynthetic) =
        (program.class? name).any fun declaration =>
          declaration.isApplication && !declaration.isSynthetic := by
    have shapes := congrArg
      (Option.any fun declaration : Class => declaration.isApplication && !declaration.isSynthetic)
      (hierarchy name apart)
    rw [Option.any_map, Option.any_map] at shapes
    exact shapes
  unfold Session.isTransformableClass
  rw [holds orderly, holds startOrderly, orderly.isWrapper_eq_false apart,
    startOrderly.isWrapper_eq_false apart, orderly.settings, startOrderly.settings, classes]
  rfl

variable (wrappable : program.Wrappable settings)
include wrappable

/-- The same methods are transformed as at the start. -/
theorem Session.isTransformable_eq
    (orderly : session.Orderly settings (program.generatedNames settings))
    (hierarchy : program.SameHierarchy (· ∉ program.generatedNames settings) session.program)
    {id : MethodId}
    (apart : id.owner ∉ program.generatedNames settings)
    {change : Method → Method}
    (changed : session.program.method? id = (program.method? id).map change)
    (name : ∀ method, (change method).name = method.name)
    (flags : ∀ method, (change method).flags = method.flags) :
    session.isTransformable id = (Session.start settings program).isTransformable id := by
  have generated := program.counterClassName_mem_generatedNames settings
  have startOrderly := Session.Orderly.start generated program
  have ungenerated
      {session : Session}
      (orderly : session.Orderly settings (program.generatedNames settings))
      {method : Method}
      (found : program.method? id = some method) :
      session.isGenerated (id.owner ++ "." ++ method.name) = false := by
    obtain ⟨declaration, located, indexed⟩ := Option.bind_eq_some_iff.1 found
    rw [Bool.eq_false_iff]
    intro remembered
    obtain ⟨owner, among, other, amongMembers, same⟩ :=
      orderly.generated _ (List.contains_iff_mem.1 remembered)
    exact wrappable.qualifiedName_ne located (List.mem_of_getElem? indexed) among amongMembers same
  unfold Session.isTransformable
  rw [Session.isTransformableClass_eq generated orderly hierarchy apart, changed]
  congr 1
  cases found : program.method? id with
  | none =>
    have startFound : (Session.start settings program).program.method? id = none := found
    rw [startFound]
    rfl
  | some method =>
    have startFound : (Session.start settings program).program.method? id = some method := found
    rw [startFound, Option.map_some, Option.any_some, Option.any_some, name,
      ungenerated orderly found, ungenerated startOrderly found]
    unfold Method.isSynthetic
    rw [flags]

section Keeping

variable
    (orderly : session.Orderly settings (program.generatedNames settings))
    {done : List MethodId}
    (resigned :
      (Session.start settings program).ResignedFor (program.generatedNames settings) done
        session.program)
include orderly resigned

omit wrappable orderly in
/-- Methods that are not transformed are declared as before. -/
theorem Session.declaredMethod?_isSome_eq
    {owner : String}
    (apart : owner ∉ program.generatedNames settings)
    (foreign : (Session.start settings program).isTransformableClass owner = false)
    (name : String)
    (parameters : List Ty) :
    (session.program.declaredMethod? owner name parameters).isSome =
      (program.declaredMethod? owner name parameters).isSome := by
  have keeps (index : Nat) (method : Method) :
      (Session.start settings program).resigned ⟨owner, index⟩ method = method := by
    have adapts : (Session.start settings program).adaptsSignature ⟨owner, index⟩ = false := by
      unfold Session.adaptsSignature Session.isTransformable
      rw [foreign]
      rfl
    unfold Session.resigned
    rw [adapts]
    rfl
  have kept (index : Nat) :
      session.program.method? ⟨owner, index⟩ = program.method? ⟨owner, index⟩ := by
    rw [resigned.methods ⟨owner, index⟩ apart]
    simp only [keeps, ite_self, Option.map_id']
    rfl
  have found :
      session.program.findMethod? owner name parameters =
        program.findMethod? owner name parameters := by
    apply Program.findMethod?_congr
    intro index
    unfold Program.fitsAt
    rw [kept index]
  rw [← Option.isSome_map (f := Prod.fst), Program.map_fst_declaredMethod?, found,
    ← Program.map_fst_declaredMethod?, Option.isSome_map]

/-- The same signatures are kept as at the start. -/
theorem Session.keepsRaw_eq
    {owner : String}
    (apart : owner ∉ program.generatedNames settings)
    (method : Method) :
    session.keepsRaw owner method = (Session.start settings program).keepsRaw owner method := by
  have generated := program.counterClassName_mem_generatedNames settings
  have closed := wrappable.closedAbove
  have parents : session.program.parents owner = program.parents owner :=
    resigned.hierarchy.parents_eq apart
  have aboves :
      session.program.above (session.program.parents owner) = program.above (program.parents owner) := by
    rw [parents]
    exact resigned.hierarchy.above_eq closed (closed owner apart)
  have overrides :
      session.overridesForeign owner method.name method.parameters =
        (Session.start settings program).overridesForeign owner method.name method.parameters := by
    unfold Session.overridesForeign
    rw [aboves]
    rw [Bool.eq_iff_iff, List.any_eq_true, List.any_eq_true]
    apply exists_congr
    intro ancestor
    apply and_congr_right
    intro member
    have apartThere := closed.above (closed owner apart) ancestor member
    have transformable :
        session.isTransformableClass ancestor =
          (Session.start settings program).isTransformableClass ancestor :=
      Session.isTransformableClass_eq generated orderly resigned.hierarchy apartThere
    rw [transformable]
    cases foreign : (Session.start settings program).isTransformableClass ancestor with
    | true => rw [Bool.not_true, Bool.and_false, Bool.and_false]
    | false =>
      rw [Session.declaredMethod?_isSome_eq resigned apartThere foreign]
      rfl
  unfold Session.keepsRaw
  rw [overrides]

omit wrappable orderly in
/-- To put the changed signature of a method is to have worked on it. -/
theorem Session.putSignature_resigned
    {id : MethodId}
    {method : Method}
    (apart : id.owner ∉ program.generatedNames settings)
    (unchanged : session.program.method? id = program.method? id)
    (found : program.method? id = some method)
    (resignedHere :
      (Session.start settings program).resigned id method = settings.wrappedMethod method)
    {mapped : Session}
    (same : session.program.SameApart (program.generatedNames settings) mapped.program)
    (orderly : mapped.Orderly settings (program.generatedNames settings))
    {event : Event}
    {changed : Bool}
    {after : Session}
    (ends :
      Ends
        (do
          Transform.changeProgram fun program =>
            (program.setSignature id (method.parameters.map settings.mapped)
              (settings.mapped method.result)).map ((), ·)
          Transform.record event
          return true)
        mapped changed after) :
    after.Orderly settings (program.generatedNames settings) ∧
      (Session.start settings program).ResignedFor (program.generatedNames settings) (done ++ [id])
        after.program := by
  obtain ⟨_, put, puts, rest⟩ := Ends.bind_iff.1 ends
  obtain ⟨_, recorded, records, rest⟩ := Ends.bind_iff.1 rest
  obtain ⟨-, rfl⟩ := Ends.pure_iff.1 rest
  obtain ⟨signed, given, rfl⟩ := Transform.ends_changeProgram.1 puts
  obtain ⟨orderlyAfter, sameAfter, -⟩ :=
    Transform.ChangesOnly.record (orderly.withProgram signed) _ () after records
  refine ⟨orderlyAfter, ?_⟩
  cases outcome :
      mapped.program.setSignature id (method.parameters.map settings.mapped)
        (settings.mapped method.result) with
  | error error =>
    rw [outcome] at given
    cases given
  | ok changedProgram =>
    rw [outcome] at given
    cases given
    obtain rfl := Program.setSignature_eq_ok outcome
    have startFound : (Session.start settings program).program.method? id = some method := found
    apply resigned.add
    · exact same.sameHierarchy.trans
        (Program.sameHierarchy_modifyMethod.trans sameAfter.sameHierarchy)
    · intro place apartThere differs
      rw [sameAfter.method?_eq apartThere, Program.method?_modifyMethod, if_neg differs,
        same.method?_eq apartThere]
    · rw [sameAfter.method?_eq apart, Program.method?_modifyMethod, if_pos rfl,
        same.method?_eq apart, unchanged, found, startFound, Option.map_some, Option.map_some,
        resignedHere]
      rfl
    · intro name generated
      apply sameAfter.synthetic name generated
      have differs : name ≠ id.owner := fun same => apart (same ▸ generated)
      intro declaration located
      apply same.synthetic name generated (resigned.synthetic name generated)
      rw [← located]
      exact (Program.class?_modifyMethod_of_ne differs).symm

/-- After one more method was worked on, its signature is changed if it was to be changed at the
start. -/
theorem wrapSignature_resigned
    {pass : String}
    {id : MethodId}
    (apart : id.owner ∉ program.generatedNames settings)
    (fresh : id ∉ done)
    {changed : Bool}
    {after : Session}
    (ends : Ends (Transform.wrapSignature pass id) session changed after) :
    after.Orderly settings (program.generatedNames settings) ∧
      (Session.start settings program).ResignedFor (program.generatedNames settings) (done ++ [id])
        after.program := by
  have unchanged : session.program.method? id = program.method? id := by
    rw [resigned.methods id apart]
    simp only [fresh, if_false, Option.map_id']
    rfl
  have transformable :
      session.isTransformable id = (Session.start settings program).isTransformable id :=
    Session.isTransformable_eq wrappable orderly resigned.hierarchy apart
      (unchanged.trans Option.map_id'.symm) (fun _ => rfl) (fun _ => rfl)
  -- A method that keeps its signature stays as it is, whatever was generated on the way.
  have skip
      (keeps :
        ∀ method, program.method? id = some method →
          (Session.start settings program).resigned id method = method)
      {other : Program}
      (same : session.program.SameApart (program.generatedNames settings) other) :
      (Session.start settings program).ResignedFor (program.generatedNames settings) (done ++ [id])
        other := by
    apply resigned.add same.sameHierarchy
    · intro place apartThere _
      exact same.method?_eq apartThere
    · rw [same.method?_eq apart, unchanged]
      exact Option.map_id'.symm.trans
        (Option.map_congr fun method found => (keeps method found).symm)
    · intro name generated
      exact same.synthetic name generated (resigned.synthetic name generated)
  unfold Transform.wrapSignature at ends
  rw [Ends.get_bind_iff, transformable, unchanged] at ends
  cases touched : (Session.start settings program).isTransformable id with
  | false =>
    rw [touched] at ends
    obtain ⟨-, rfl⟩ := Ends.pure_iff.1 ends
    refine ⟨orderly, skip ?_ (.refl _)⟩
    intro method _
    exact Session.resigned_of_not_isTransformable touched method
  | true =>
    rw [touched] at ends
    cases found : program.method? id with
    | none =>
      rw [found] at ends
      obtain ⟨-, rfl⟩ := Ends.pure_iff.1 ends
      refine ⟨orderly, skip ?_ (.refl _)⟩
      intro method impossible
      rw [found] at impossible
      cases impossible
    | some method =>
      have startFound : (Session.start settings program).program.method? id = some method := found
      rw [found] at ends
      dsimp only [Bool.not_true] at ends
      rw [if_neg (by decide), Session.keepsRaw_eq wrappable orderly resigned apart] at ends
      split at ends
      · rename_i kept
        obtain ⟨-, rfl⟩ := Ends.pure_iff.1 ends
        refine ⟨orderly, skip ?_ (.refl _)⟩
        intro other foundOther
        obtain rfl := Option.some.inj (found.symm.trans foundOther)
        exact Session.resigned_of_kept startFound kept
      · rename_i adapted
        obtain ⟨declaration, located, indexed⟩ := Option.bind_eq_some_iff.1 found
        have member := List.mem_of_getElem? indexed
        have resignedHere :
            (Session.start settings program).resigned id method = settings.wrappedMethod method :=
          Session.resigned_of_adapted startFound touched adapted
        obtain ⟨parameters, between, mapsParameters, rest⟩ := Ends.bind_iff.1 ends
        obtain ⟨result, mapped, mapsResult, rest⟩ := Ends.bind_iff.1 rest
        obtain ⟨orderlyBetween, sameBetween, rfl⟩ :=
          Transform.mapM_mapType_changesOnly orderly (fun type among _ named =>
            Program.mem_generatedNames (Program.mem_mentionedTypes_of_parameter
              (Program.mem_parameterTypes_of_declared located member among)) named)
            parameters between mapsParameters
        obtain ⟨orderlyMapped, sameMapped, rfl⟩ :=
          Transform.mapType_changesOnly orderlyBetween (fun _ named =>
            Program.mem_generatedNames
              (Program.mem_mentionedTypes_of_result located member) named)
            result mapped mapsResult
        have same := sameBetween.trans sameMapped
        split at rest
        · rename_i agree
          obtain ⟨-, rfl⟩ := Ends.pure_iff.1 rest
          refine ⟨orderlyMapped, skip ?_ same⟩
          intro other foundOther
          obtain rfl := Option.some.inj (found.symm.trans foundOther)
          rw [resignedHere]
          unfold Settings.wrappedMethod
          rw [agree.1, agree.2]
        · exact Session.putSignature_resigned resigned apart unchanged found resignedHere same
            orderlyMapped rest

end Keeping

/-- Every signature that was to be changed is changed in the end. -/
theorem wrapSignatures_resigned
    (orderly : session.Orderly settings (program.generatedNames settings))
    (unchanged : session.program = program)
    {pass : String}
    {changed : Bool}
    {after : Session}
    (ends : Ends (Transform.wrapSignatures pass) session changed after) :
    after.Orderly settings (program.generatedNames settings) ∧
      (Session.start settings program).ResignedFor (program.generatedNames settings)
        program.applicationMethods after.program := by
  have resigned :
      (Session.start settings program).ResignedFor (program.generatedNames settings) []
        session.program :=
    unchanged.symm ▸ Session.ResignedFor.start wrappable
  unfold Transform.wrapSignatures at ends
  rw [Ends.get_bind_iff, unchanged] at ends
  obtain ⟨results, _, works, rest⟩ := Ends.bind_iff.1 ends
  obtain ⟨-, rfl⟩ := Ends.pure_iff.1 rest
  refine Ends.mapM_advances
    (fun done session =>
      session.Orderly settings (program.generatedNames settings) ∧
        (Session.start settings program).ResignedFor (program.generatedNames settings) done
          session.program)
    (fun _ => True) ?_ ⟨orderly, resigned⟩ (fun _ _ => trivial) works
  rintro done id rest split before result last ⟨orderlyBefore, resignedBefore⟩ _ worked
  have member : id ∈ program.applicationMethods :=
    split ▸ List.mem_append_right _ List.mem_cons_self
  obtain ⟨declaration, located, -, -⟩ := Program.mem_applicationMethods member
  have fresh : id ∉ done := by
    intro among
    have distinct := program.nodup_applicationMethods
    rw [split, List.nodup_append] at distinct
    exact distinct.2.2 id among id List.mem_cons_self rfl
  exact wrapSignature_resigned wrappable orderlyBefore resignedBefore
    (wrappable.not_generated_of_class? located) fresh worked

end Sessions

/-- Only methods of the application are transformed. -/
theorem Session.mem_applicationMethods_of_isTransformable
    {session : Session}
    {id : MethodId}
    (transformable : session.isTransformable id) :
    id ∈ session.program.applicationMethods := by
  unfold Session.isTransformable Session.isTransformableClass at transformable
  simp only [Bool.and_eq_true] at transformable
  obtain ⟨⟨-, registered⟩, declared⟩ := transformable
  cases found : session.program.method? id with
  | none =>
    rw [found] at declared
    cases declared
  | some method =>
    apply Program.mem_applicationMethods_of_method? found
    rw [Option.any_eq_true] at registered ⊢
    obtain ⟨declaration, located, kind⟩ := registered
    exact ⟨declaration, located, (Bool.and_eq_true_iff.1 kind).1⟩

theorem Session.mem_applicationMethods_of_adaptsSignature
    {session : Session}
    {id : MethodId}
    (adapts : session.adaptsSignature id) :
    id ∈ session.program.applicationMethods :=
  session.mem_applicationMethods_of_isTransformable (Bool.and_eq_true_iff.1 adapts).1

/-- Synthetic classes are not transformed. -/
theorem Session.not_isTransformableClass_of_isSynthetic
    {session : Session}
    {name : String}
    (synthetic :
      ∀ declaration, session.program.class? name = some declaration → declaration.isSynthetic) :
    session.isTransformableClass name = false := by
  rw [Bool.eq_false_iff]
  intro transformable
  unfold Session.isTransformableClass at transformable
  obtain ⟨-, registered⟩ := Bool.and_eq_true_iff.1 transformable
  rw [Option.any_eq_true] at registered
  obtain ⟨declaration, located, kind⟩ := registered
  rw [synthetic declaration located, Bool.not_true, Bool.and_false] at kind
  cases kind

/-- When every method was worked on, each is as it is after signatures were changed. -/
theorem Session.ResignedFor.method?_eq
    {session : Session}
    {names : List String}
    {program : Program}
    (resigned : session.ResignedFor names session.program.applicationMethods program)
    {id : MethodId}
    (apart : id.owner ∉ names) :
    program.method? id = (session.program.method? id).map (session.resigned id) := by
  rw [resigned.methods id apart]
  apply Option.map_congr
  intro method _
  split
  · rfl
  · rename_i unlisted
    unfold Session.resigned
    rw [if_neg fun adapts => unlisted (session.mem_applicationMethods_of_adaptsSignature adapts)]

theorem Session.ResignedFor.body?_eq
    {session : Session}
    {names : List String}
    {program : Program}
    (resigned : session.ResignedFor names session.program.applicationMethods program)
    {id : MethodId}
    (apart : id.owner ∉ names) :
    program.body? id = session.program.body? id := by
  unfold Program.body?
  rw [resigned.method?_eq apart]
  cases session.program.method? id with
  | none => rfl
  | some method => exact session.resigned_body id method

/-- The program is that of the session with wrappers in the signatures that are changed, apart from
bodies and from classes of the given names. -/
structure Session.Resigned
    (session : Session)
    (names : List String)
    (program : Program) : Prop where
  hierarchy : session.program.SameHierarchy (· ∉ names) program
  signatures :
    ∀ id : MethodId, id.owner ∉ names →
      (program.method? id).map Method.signature =
        (session.program.method? id).map fun method => (session.resigned id method).signature

namespace Session.Resigned

variable
    {session : Session}
    {names : List String}
    {program other : Program}

theorem of_resignedFor
    (resigned : session.ResignedFor names session.program.applicationMethods program) :
    session.Resigned names program where
  hierarchy := resigned.hierarchy
  signatures id apart := by
    rw [resigned.method?_eq apart, Option.map_map]
    rfl

/-- Methods fit where they fit after signatures were changed. -/
theorem fitsAt_eq
    (resigned : session.Resigned names program)
    {id : MethodId}
    (apart : id.owner ∉ names)
    (name : String)
    (parameters : List Ty) :
    program.fitsAt id name parameters =
      (session.program.method? id).any fun method =>
        (session.resigned id method).fits name parameters := by
  have same := congrArg (Option.any fun method : Method => method.fits name parameters)
    (resigned.signatures id apart)
  rw [Option.any_map, Option.any_map] at same
  exact same

theorem sameApart
    (resigned : session.Resigned names program)
    (same : program.SameApart names other) :
    session.Resigned names other where
  hierarchy := resigned.hierarchy.trans same.sameHierarchy
  signatures id apart := by
    rw [same.method?_eq apart]
    exact resigned.signatures id apart

/-- Another body of a method changes no signature. -/
theorem modifyMethod
    (resigned : session.Resigned names program)
    {id : MethodId}
    {change : Method → Method}
    (keeps : ∀ method, (change method).signature = method.signature) :
    session.Resigned names (program.modifyMethod id change) where
  hierarchy := resigned.hierarchy.trans Program.sameHierarchy_modifyMethod
  signatures place apart := by
    rw [← resigned.signatures place apart, Program.method?_modifyMethod]
    split
    · rename_i same
      rw [same, Option.map_map]
      apply Option.map_congr
      intro method _
      exact keeps method
    · rfl

/-- References refer to the same methods in programs with the same signatures. -/
theorem referent?_eq
    (resigned : session.Resigned names program)
    (resignedOther : session.Resigned names other)
    (closed : session.program.ClosedAbove (· ∉ names))
    {method : MethodRef}
    (apart : method.owner ∉ names) :
    other.referent? method = program.referent? method := by
  rw [Program.referent?_eq_findSome?, Program.referent?_eq_findSome?,
    resigned.hierarchy.searched_eq closed apart, resignedOther.hierarchy.searched_eq closed apart]
  apply Program.findSome?_eq_of_eq
  intro ancestor member
  have apartThere := closed.searched apart ancestor member
  apply Program.findMethod?_congr
  intro index
  rw [resigned.fitsAt_eq apartThere, resignedOther.fitsAt_eq apartThere]

/-- What a reference refers to is no method of the given classes. -/
theorem owner_apart
    (resigned : session.Resigned names program)
    (closed : session.program.ClosedAbove (· ∉ names))
    {method : MethodRef}
    (apart : method.owner ∉ names)
    {id : MethodId}
    (refers : program.referent? method = some id) :
    id.owner ∉ names := by
  have member := program.owner_mem_searched refers
  rw [resigned.hierarchy.searched_eq closed apart] at member
  exact closed.searched apart id.owner member

end Session.Resigned
end AccessProfiler
