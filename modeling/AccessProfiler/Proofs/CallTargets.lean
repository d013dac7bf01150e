import AccessProfiler.Proofs.WrappedCalls

/-!
# What calls refer to after wrapping

A call in a transformed body is searched again after signatures were changed.  It refers to the same
method as before exactly if no method that fits along the search keeps its signature while the one that
was meant changes its own (`Session.KeepsReferent`): a method that keeps its signature is found by the
parameter types of the call as they stand, and these are tried first.
-/

namespace AccessProfiler

/-- No array is among the parameters of the reference, or the method that it refers to keeps its
signature, or every method that fits along the search changes its own. -/
def Session.KeepsReferent
    (session : Session)
    (method : MethodRef)
    (target : MethodId) : Prop :=
  (session.settings.mappedReference method).parameters = method.parameters ∨
    session.adaptsSignature target = false ∨
    ∀ ancestor ∈ session.program.searched method.owner, ∀ index,
      session.program.fitsAt ⟨ancestor, index⟩ method.name method.parameters →
        session.adaptsSignature ⟨ancestor, index⟩

theorem Method.fits_iff {method : Method} {name : String} {parameters : List Ty} :
    method.fits name parameters ↔ method.name = name ∧ method.parameters = parameters := by
  simp [Method.fits]

/-- What holds of the method at a place under a condition. -/
theorem any_iff_and
    {Item : Type}
    {found : Option Item}
    {holds holdsBefore : Item → Bool}
    {condition : Prop}
    (each : ∀ item, found = some item → (holds item ↔ holdsBefore item ∧ condition)) :
    found.any holds ↔ found.any holdsBefore ∧ condition := by
  cases found with
  | none => simp
  | some item => exact each item rfl

section Referents

variable
    {settings : Settings}
    {program signed : Program}
    (wrappable : program.Wrappable settings)
    {method : MethodRef}
    (types : ∀ type ∈ method.parameters, type ∈ program.parameterTypes)
    {id : MethodId}
include wrappable types

/-- A method fits the parameter types of a call afterwards if it did so before and keeps its
signature. -/
theorem fits_resigned_iff
    {declared : Method}
    (found : program.method? id = some declared) :
    ((Session.start settings program).resigned id declared).fits method.name method.parameters ↔
      declared.fits method.name method.parameters ∧
        ((settings.mappedReference method).parameters = method.parameters ∨
          (Session.start settings program).adaptsSignature id = false) := by
  obtain ⟨declaration, located, indexed⟩ := Option.bind_eq_some_iff.1 found
  have typesThere : ∀ type ∈ declared.parameters, type ∈ program.parameterTypes :=
    fun _ member =>
      Program.mem_parameterTypes_of_declared located (List.mem_of_getElem? indexed) member
  have become := wrappable.map_mapped_eq_iff typesThere types
  rw [Method.fits_iff, Method.fits_iff]
  unfold Session.resigned
  cases adapts : (Session.start settings program).adaptsSignature id with
  | false => simp
  | true =>
    change declared.name = method.name ∧ declared.parameters.map settings.mapped = method.parameters ↔ _
    rw [become]
    simp [Settings.mappedReference, and_assoc]

/-- It fits the mapped ones if it fitted those of the call and changes its signature. -/
theorem fits_resigned_mapped_iff
    {declared : Method}
    (found : program.method? id = some declared) :
    ((Session.start settings program).resigned id declared).fits method.name
        (settings.mappedReference method).parameters ↔
      declared.fits method.name method.parameters ∧
        ((settings.mappedReference method).parameters = method.parameters ∨
          (Session.start settings program).adaptsSignature id) := by
  obtain ⟨declaration, located, indexed⟩ := Option.bind_eq_some_iff.1 found
  have typesThere : ∀ type ∈ declared.parameters, type ∈ program.parameterTypes :=
    fun _ member =>
      Program.mem_parameterTypes_of_declared located (List.mem_of_getElem? indexed) member
  have become := wrappable.map_mapped_eq_map_mapped_iff typesThere types
  have remain := wrappable.map_mapped_eq_iff types typesThere
  rw [Method.fits_iff, Method.fits_iff]
  unfold Session.resigned
  cases adapts : (Session.start settings program).adaptsSignature id with
  | false =>
    change declared.name = method.name ∧ declared.parameters = method.parameters.map settings.mapped ↔ _
    rw [eq_comm (a := declared.parameters), remain]
    constructor
    · rintro ⟨named, same, stay⟩
      rw [← same] at stay
      exact ⟨⟨named, same.symm⟩, .inl stay⟩
    · rintro ⟨⟨named, same⟩, stay | changed⟩
      · rw [same]
        exact ⟨named, rfl, stay⟩
      · cases changed
  | true =>
    change declared.name = method.name ∧
      declared.parameters.map settings.mapped = method.parameters.map settings.mapped ↔ _
    rw [become]
    simp

variable
    (resigned : (Session.start settings program).Resigned (program.generatedNames settings) signed)
    (apart : id.owner ∉ program.generatedNames settings)
include resigned apart

theorem Session.Resigned.fitsAt_iff :
    signed.fitsAt id method.name method.parameters ↔
      program.fitsAt id method.name method.parameters ∧
        ((settings.mappedReference method).parameters = method.parameters ∨
          (Session.start settings program).adaptsSignature id = false) := by
  rw [resigned.fitsAt_eq apart]
  exact any_iff_and fun _ found => fits_resigned_iff wrappable types found

theorem Session.Resigned.fitsAt_mapped_iff :
    signed.fitsAt id method.name (settings.mappedReference method).parameters ↔
      program.fitsAt id method.name method.parameters ∧
        ((settings.mappedReference method).parameters = method.parameters ∨
          (Session.start settings program).adaptsSignature id) := by
  rw [resigned.fitsAt_eq apart]
  exact any_iff_and fun _ found => fits_resigned_mapped_iff wrappable types found

end Referents

theorem Program.referent?_congr
    (program : Program)
    {method other : MethodRef}
    (owner : other.owner = method.owner)
    (name : other.name = method.name)
    (parameters : other.parameters = method.parameters) :
    program.referent? other = program.referent? method := by
  unfold referent?
  rw [owner, name, parameters]

theorem Session.isTransformableClass_of_adaptsSignature
    {session : Session}
    {id : MethodId}
    (adapts : session.adaptsSignature id) :
    session.isTransformableClass id.owner := by
  unfold Session.adaptsSignature Session.isTransformable at adapts
  rw [Bool.and_eq_true, Bool.and_eq_true] at adapts
  exact adapts.1.1

section Retargeting

variable
    {settings : Settings}
    {program signed : Program}
    (wrappable : program.Wrappable settings)
    (resigned : (Session.start settings program).Resigned (program.generatedNames settings) signed)
    {original method : MethodRef}
    (types : ∀ type ∈ original.parameters, type ∈ program.parameterTypes)
    (apart : original.owner ∉ program.generatedNames settings)
    (retargeted : original.Retargeted settings program signed method)
    {target : MethodId}
    (refers : program.referent? original = some target)
include wrappable resigned types apart

/-- Methods that fit a call along its search, before and after signatures were changed. -/
theorem fitsAt_searched_iff
    {ancestor : String}
    (member : ancestor ∈ program.searched original.owner)
    (index : Nat) :
    signed.fitsAt ⟨ancestor, index⟩ original.name original.parameters ↔
      program.fitsAt ⟨ancestor, index⟩ original.name original.parameters ∧
        ((settings.mappedReference original).parameters = original.parameters ∨
          (Session.start settings program).adaptsSignature ⟨ancestor, index⟩ = false) :=
  Session.Resigned.fitsAt_iff wrappable types resigned
    (wrappable.closedAbove.searched apart ancestor member)

include refers

/-- A method that keeps its signature is still referred to by the call as it stands. -/
theorem referent?_of_kept
    (keeps :
      (settings.mappedReference original).parameters = original.parameters ∨
        (Session.start settings program).adaptsSignature target = false) :
    signed.referent? original = some target := by
  apply Program.referent?_of_fewer
  · exact resigned.hierarchy.searched_eq wrappable.closedAbove apart
  · intro ancestor member index fits
    exact ((fitsAt_searched_iff wrappable resigned types apart member index).1 fits).1
  · exact refers
  · rw [fitsAt_searched_iff wrappable resigned types apart (program.owner_mem_searched refers)]
    exact ⟨program.fitsAt_of_referent? refers, keeps⟩

/-- If every method that fits changes its signature, the mapped parameter types refer to the same
method. -/
theorem referent?_mapped_of_all_adapt
    (all :
      ∀ ancestor ∈ program.searched original.owner, ∀ index,
        program.fitsAt ⟨ancestor, index⟩ original.name original.parameters →
          (Session.start settings program).adaptsSignature ⟨ancestor, index⟩) :
    signed.referent? (settings.mappedReference original) = some target := by
  have closed := wrappable.closedAbove
  have searched :
      signed.searched (settings.mappedReference original).owner =
        program.searched original.owner :=
    resigned.hierarchy.searched_eq closed apart
  rw [← refers, Program.referent?_eq_findSome?, Program.referent?_eq_findSome?, searched]
  apply Program.findSome?_eq_of_eq
  intro ancestor member
  apply Program.findMethod?_congr
  intro index
  rw [Bool.eq_iff_iff]
  have fits :
      signed.fitsAt ⟨ancestor, index⟩ original.name (settings.mappedReference original).parameters ↔
        program.fitsAt ⟨ancestor, index⟩ original.name original.parameters ∧
          ((settings.mappedReference original).parameters = original.parameters ∨
            (Session.start settings program).adaptsSignature ⟨ancestor, index⟩) :=
    Session.Resigned.fitsAt_mapped_iff wrappable types resigned
      (closed.searched apart ancestor member)
  apply fits.trans
  constructor
  · intro parts
    exact parts.1
  · intro fitsBefore
    exact ⟨fitsBefore, .inr (all ancestor member index fitsBefore)⟩

include retargeted

/-- After wrapping, a call refers to the method that it referred to exactly if no method along its
search that keeps its signature stands in for one that changes its own. -/
theorem MethodRef.Retargeted.referent?_eq_some_iff :
    signed.referent? method = some target ↔
      (Session.start settings program).KeepsReferent original target := by
  have asItStands (same : method.parameters = original.parameters) :
      signed.referent? method = signed.referent? original :=
    signed.referent?_congr retargeted.owner retargeted.name same
  have searched : signed.searched original.owner = program.searched original.owner :=
    resigned.hierarchy.searched_eq wrappable.closedAbove apart
  have kept
      (keeps :
        (settings.mappedReference original).parameters = original.parameters ∨
          (Session.start settings program).adaptsSignature target = false) :
      signed.referent? method = some target := by
    have found := referent?_of_kept wrappable resigned types apart refers keeps
    rw [asItStands (retargeted.direct (Option.isSome_iff_exists.2 ⟨target, found⟩)), found]
  constructor
  · intro found
    by_contra loses
    unfold Session.KeepsReferent at loses
    push Not at loses
    obtain ⟨moves, adapts, ancestor, member, index, fits, keeps⟩ := loses
    -- Something fits as the call stands, so that the call stays as it is.
    have direct : (signed.referent? original).isSome := by
      rw [signed.referent?_isSome_iff, searched]
      refine ⟨ancestor, member, index, ?_⟩
      rw [fitsAt_searched_iff wrappable resigned types apart member]
      exact ⟨fits, .inr (Bool.eq_false_iff.2 keeps)⟩
    rw [asItStands (retargeted.direct direct)] at found
    have fitsAfter := signed.fitsAt_of_referent? found
    rw [fitsAt_searched_iff wrappable resigned types apart (program.owner_mem_searched refers)]
      at fitsAfter
    rcases fitsAfter.2 with stays | kept
    · exact moves stays
    · exact adapts kept
  · rintro (stays | keeps | all)
    · exact kept (.inl stays)
    · exact kept (.inr keeps)
    · by_cases stays : (settings.mappedReference original).parameters = original.parameters
      · exact kept (.inl stays)
      · have missing : signed.referent? original = none := by
          rw [← Option.not_isSome_iff_eq_none, signed.referent?_isSome_iff, searched]
          rintro ⟨ancestor, member, index, fits⟩
          obtain ⟨fitsBefore, stays' | keeps⟩ :=
            (fitsAt_searched_iff wrappable resigned types apart member index).1 fits
          · exact stays stays'
          · rw [all ancestor member index fitsBefore] at keeps
            cases keeps
        have found := referent?_mapped_of_all_adapt wrappable resigned types apart refers all
        have adapts := all target.owner (program.owner_mem_searched refers) target.index
          (program.fitsAt_of_referent? refers)
        have mapped := retargeted.mapped missing target found
          (Session.isTransformableClass_of_adaptsSignature adapts)
        rw [← found]
        exact signed.referent?_congr retargeted.owner retargeted.name mapped

end Retargeting

end AccessProfiler
