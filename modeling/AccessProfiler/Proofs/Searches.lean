import AccessProfiler.Proofs.Lookups

/-!
# Searches for methods

A search for a method comes by certain classes, one after the other (`Program.searched`), and ends at
the first of them that has a fitting method.  The classes depend on the hierarchy only, so that two
programs which differ in members of classes, and in classes out of reach, search the same ones
(`Program.SameHierarchy.searched_eq`).  What a reference refers to is then decided by where methods
fit.
-/

namespace AccessProfiler

/-- The class without its members. -/
def Class.shape (declaration : Class) : Class :=
  { declaration with fields := [], methods := [] }

namespace Program

/-- The classes and interfaces that a search for a method comes by, nearest first. -/
def searched (program : Program) (owner : String) : List String :=
  let chain := program.chain owner
  chain ++
    if chain.length < chainLimit then program.interfacesAbove (chain.flatMap program.interfaces)
    else []

/-- The method that a reference refers to: the first fitting one of the class at which the search
ends. -/
def referent? (program : Program) (method : MethodRef) : Option MethodId :=
  (program.resolveMethod? method.owner method.name method.parameters).bind fun found =>
    program.findMethod? found.1 method.name method.parameters

/-- There is a method at this place, and it has this name and these parameter types. -/
def fitsAt
    (program : Program)
    (id : MethodId)
    (name : String)
    (parameters : List Ty) : Bool :=
  (program.method? id).any fun method => method.fits name parameters

/-- The programs have the same classes of the given names, apart from their members. -/
def SameHierarchy (Within : String → Prop) (program other : Program) : Prop :=
  ∀ name, Within name → (other.class? name).map Class.shape = (program.class? name).map Class.shape

/-- What stands above a class of the given names is one of them. -/
def ClosedAbove (Within : String → Prop) (program : Program) : Prop :=
  ∀ name, Within name → ∀ upper ∈ program.parents name, Within upper

section Fitting

variable
    {program : Program}
    {owner name : String}
    {parameters : List Ty}

theorem fitsAt_eq_getElem?
    {declaration : Class}
    (found : program.class? owner = some declaration)
    (index : Nat) :
    program.fitsAt ⟨owner, index⟩ name parameters =
      (declaration.methods[index]?).any fun method => method.fits name parameters := by
  unfold fitsAt method?
  rw [found]
  rfl

/-- A method is found where one fits and none before it does. -/
theorem findMethod?_eq_some_iff {id : MethodId} :
    program.findMethod? owner name parameters = some id ↔
      id.owner = owner ∧ program.fitsAt id name parameters ∧
        ∀ index < id.index, ¬ program.fitsAt ⟨owner, index⟩ name parameters := by
  cases found : program.class? owner with
  | none =>
    rw [findMethod?_eq_none found]
    constructor
    · intro impossible
      cases impossible
    · rintro ⟨rfl, fits, -⟩
      unfold fitsAt method? at fits
      rw [found] at fits
      cases fits
  | some declaration =>
    have places (index : Nat) :
        program.fitsAt ⟨owner, index⟩ name parameters =
          (declaration.methods[index]?).any fun method => method.fits name parameters :=
      fitsAt_eq_getElem? found index
    unfold findMethod?
    rw [found, Option.bind_some, Option.map_eq_some_iff]
    constructor
    · rintro ⟨index, located, rfl⟩
      obtain ⟨bounded, fits, first⟩ := List.findIdx?_eq_some_iff_getElem.1 located
      refine ⟨rfl, ?_, ?_⟩
      · rw [places, List.getElem?_eq_getElem bounded]
        exact fits
      · intro earlier before
        rw [places, List.getElem?_eq_getElem (before.trans bounded)]
        exact first earlier before
    · rintro ⟨rfl, fits, first⟩
      have fitsThere := fits
      rw [places] at fitsThere
      refine ⟨id.index, List.findIdx?_eq_some_iff_getElem.2 ?_, rfl⟩
      cases located : declaration.methods[id.index]? with
      | none =>
        rw [located] at fitsThere
        cases fitsThere
      | some method =>
        obtain ⟨bounded, rfl⟩ := List.getElem?_eq_some_iff.1 located
        rw [located] at fitsThere
        refine ⟨bounded, fitsThere, ?_⟩
        intro earlier before
        have missed := first earlier before
        rw [places, List.getElem?_eq_getElem (before.trans bounded)] at missed
        exact missed

theorem findMethod?_eq_none_iff :
    program.findMethod? owner name parameters = none ↔
      ∀ index, ¬ program.fitsAt ⟨owner, index⟩ name parameters := by
  constructor
  · intro missing index
    induction index using Nat.strong_induction_on with
    | _ index hypothesis =>
      intro fits
      have found : program.findMethod? owner name parameters = some ⟨owner, index⟩ :=
        findMethod?_eq_some_iff.2 ⟨rfl, fits, hypothesis⟩
      rw [missing] at found
      cases found
  · intro missed
    cases found : program.findMethod? owner name parameters with
    | none => rfl
    | some id =>
      obtain ⟨rfl, fits, -⟩ := findMethod?_eq_some_iff.1 found
      exact absurd fits (missed id.index)

/-- Where the same places fit, the same method is found. -/
theorem findMethod?_congr
    {other : Program}
    {parametersOther : List Ty}
    (same :
      ∀ index, program.fitsAt ⟨owner, index⟩ name parameters =
        other.fitsAt ⟨owner, index⟩ name parametersOther) :
    program.findMethod? owner name parameters = other.findMethod? owner name parametersOther := by
  apply Option.ext
  intro id
  rw [findMethod?_eq_some_iff, findMethod?_eq_some_iff]
  constructor
  · rintro ⟨rfl, fits, first⟩
    refine ⟨rfl, (same id.index).symm.trans fits, ?_⟩
    intro index before
    rw [← same index]
    exact first index before
  · rintro ⟨rfl, fits, first⟩
    refine ⟨rfl, (same id.index).trans fits, ?_⟩
    intro index before
    rw [same index]
    exact first index before

end Fitting

section Searching

variable (program : Program)

theorem resolveMethod?_eq_findSome? (owner name : String) (parameters : List Ty) :
    program.resolveMethod? owner name parameters =
      (program.searched owner).findSome? fun ancestor =>
        program.declaredMethod? ancestor name parameters := by
  unfold resolveMethod? searched
  dsimp only
  rw [List.findSome?_append]
  cases (program.chain owner).findSome? fun ancestor =>
      program.declaredMethod? ancestor name parameters with
  | some found => rfl
  | none =>
    rw [Option.none_or]
    dsimp only
    split
    · rfl
    · rfl

/-- A reference refers to what the first class that has a fitting method has. -/
theorem referent?_eq_findSome? (method : MethodRef) :
    program.referent? method =
      (program.searched method.owner).findSome? fun ancestor =>
        program.findMethod? ancestor method.name method.parameters := by
  unfold referent?
  rw [resolveMethod?_eq_findSome?]
  induction program.searched method.owner with
  | nil => rfl
  | cons ancestor rest hypothesis =>
    have holder := program.map_fst_declaredMethod? ancestor method.name method.parameters
    rw [List.findSome?_cons, List.findSome?_cons]
    cases declared : program.declaredMethod? ancestor method.name method.parameters with
    | none =>
      rw [declared, Option.map_none] at holder
      rw [Option.map_eq_none_iff.1 holder.symm]
      exact hypothesis
    | some found =>
      rw [declared, Option.map_some] at holder
      obtain ⟨id, located, owned⟩ := Option.map_eq_some_iff.1 holder.symm
      obtain ⟨same, -, -⟩ := findMethod?_eq_some_iff.1 located
      rw [located]
      dsimp only [Option.bind_some]
      rw [← owned, same, located]

/-- A declaration that is found has the parameter types that were asked for, and its class has the
method that is referred to. -/
theorem resolveMethod?_eq_some
    {method : MethodRef}
    {holder : String}
    {declared : Method}
    (resolved :
      program.resolveMethod? method.owner method.name method.parameters = some (holder, declared)) :
    declared.parameters = method.parameters ∧
      ∃ id, program.referent? method = some id ∧ id.owner = holder := by
  have search := resolved
  rw [resolveMethod?_eq_findSome?] at search
  obtain ⟨ancestor, -, found⟩ := List.exists_of_findSome?_eq_some search
  have indexed := program.map_fst_declaredMethod? ancestor method.name method.parameters
  rw [found, Option.map_some] at indexed
  obtain ⟨id, located, owned⟩ := Option.map_eq_some_iff.1 indexed.symm
  obtain ⟨declaration, -, chosen⟩ := Option.bind_eq_some_iff.1 found
  obtain ⟨first, fitting, same⟩ := Option.map_eq_some_iff.1 chosen
  obtain ⟨rfl, rfl⟩ := Prod.mk.inj same
  have fits := List.find?_some fitting
  rw [Method.fits, Bool.and_eq_true, beq_iff_eq, beq_iff_eq] at fits
  refine ⟨fits.2, id, ?_, owned⟩
  unfold referent?
  rw [resolved]
  exact located

theorem referent?_eq_none
    {method : MethodRef}
    (missing : program.resolveMethod? method.owner method.name method.parameters = none) :
    program.referent? method = none := by
  unfold referent?
  rw [missing]
  rfl

/-- A reference refers to something if a method fits anywhere along the search. -/
theorem referent?_isSome_iff (method : MethodRef) :
    (program.referent? method).isSome ↔
      ∃ ancestor ∈ program.searched method.owner, ∃ index,
        program.fitsAt ⟨ancestor, index⟩ method.name method.parameters := by
  rw [referent?_eq_findSome?, List.findSome?_isSome_iff]
  apply exists_congr
  intro ancestor
  apply and_congr_right
  intro _
  rw [← not_iff_not, Option.not_isSome_iff_eq_none, findMethod?_eq_none_iff, not_exists]

theorem fitsAt_of_referent?
    {method : MethodRef}
    {id : MethodId}
    (refers : program.referent? method = some id) :
    program.fitsAt id method.name method.parameters := by
  rw [referent?_eq_findSome?] at refers
  obtain ⟨ancestor, -, found⟩ := List.exists_of_findSome?_eq_some refers
  exact (findMethod?_eq_some_iff.1 found).2.1

/-- Where fewer methods fit along the same search, and the one that is referred to still does, it is
referred to. -/
theorem referent?_of_fewer
    {other : Program}
    {method methodOther : MethodRef}
    {id : MethodId}
    (searched : other.searched methodOther.owner = program.searched method.owner)
    (fewer :
      ∀ ancestor ∈ program.searched method.owner, ∀ index,
        other.fitsAt ⟨ancestor, index⟩ methodOther.name methodOther.parameters →
          program.fitsAt ⟨ancestor, index⟩ method.name method.parameters)
    (refers : program.referent? method = some id)
    (fits : other.fitsAt id methodOther.name methodOther.parameters) :
    other.referent? methodOther = some id := by
  rw [referent?_eq_findSome?] at *
  rw [searched]
  generalize program.searched method.owner = list at fewer refers
  induction list with
  | nil => cases refers
  | cons ancestor rest hypothesis =>
    rw [List.findSome?_cons] at refers ⊢
    have fewerHere := fewer ancestor List.mem_cons_self
    have fewerLater := fun place member => fewer place (List.mem_cons_of_mem _ member)
    cases found : program.findMethod? ancestor method.name method.parameters with
    | some first =>
      rw [found] at refers
      cases refers
      obtain ⟨rfl, -, least⟩ := findMethod?_eq_some_iff.1 found
      have foundOther :
          other.findMethod? id.owner methodOther.name methodOther.parameters = some id :=
        findMethod?_eq_some_iff.2
          ⟨rfl, fits, fun index before fitsBefore => least index before (fewerHere index fitsBefore)⟩
      rw [foundOther]
    | none =>
      have missing : other.findMethod? ancestor methodOther.name methodOther.parameters = none :=
        findMethod?_eq_none_iff.2 fun index fitsThere =>
          findMethod?_eq_none_iff.1 found index (fewerHere index fitsThere)
      rw [found] at refers
      rw [missing]
      exact hypothesis fewerLater refers

/-- Where fewer methods fit along the same search, a reference to nothing still refers to nothing. -/
theorem referent?_eq_none_of_fewer
    {other : Program}
    {method methodOther : MethodRef}
    (searched : other.searched methodOther.owner = program.searched method.owner)
    (fewer :
      ∀ ancestor ∈ program.searched method.owner, ∀ index,
        other.fitsAt ⟨ancestor, index⟩ methodOther.name methodOther.parameters →
          program.fitsAt ⟨ancestor, index⟩ method.name method.parameters)
    (missing : program.referent? method = none) :
    other.referent? methodOther = none := by
  rw [← Option.not_isSome_iff_eq_none, referent?_isSome_iff] at missing ⊢
  rw [searched]
  rintro ⟨ancestor, member, index, fits⟩
  exact missing ⟨ancestor, member, index, fewer ancestor member index fits⟩

/-- The target of a call is what the search from its start refers to or else what the call itself
refers to. -/
theorem target?_eq_or (start : String) (method : MethodRef) :
    Run.target? program start method =
      (program.referent? { method with owner := start }).or (program.referent? method) := by
  have holds (owner : String) :
      program.referent? { method with owner } =
        ((program.resolveMethod? owner method.name method.parameters).map Prod.fst).bind
          fun holder => program.findMethod? holder method.name method.parameters := by
    rw [Option.bind_map]
    rfl
  rw [target?_eq_bind, holds start]
  cases resolved : (program.resolveMethod? start method.name method.parameters).map Prod.fst with
  | none => exact (holds method.owner).symm
  | some holder =>
    obtain ⟨id, located⟩ := exists_findMethod?_of_resolveMethod? resolved
    rw [Option.some_or, Option.bind_some, located]
    rfl

theorem owner_mem_searched
    {method : MethodRef}
    {id : MethodId}
    (refers : program.referent? method = some id) :
    id.owner ∈ program.searched method.owner := by
  rw [referent?_eq_findSome?] at refers
  obtain ⟨ancestor, member, found⟩ := List.exists_of_findSome?_eq_some refers
  obtain ⟨same, -, -⟩ := findMethod?_eq_some_iff.1 found
  exact same ▸ member

/-- A search from a class that is not registered comes by that class only. -/
theorem searched_of_absent {owner : String} (absent : program.class? owner = none) :
    program.searched owner = [owner] := by
  have chain : program.chain owner = [owner] := by
    rw [Program.chain, chainLimit, chainUpTo, superclass?_eq_none absent]
  have above : program.interfaces owner = [] := by
    rw [interfaces, absent]
  rw [searched, chain, List.flatMap_singleton, above]
  rfl

theorem target?_of_absent
    {method : MethodRef}
    (absent : program.class? method.owner = none) :
    Run.target? program method.owner method = none := by
  have missing : program.referent? method = none := by
    rw [referent?_eq_findSome?, searched_of_absent program absent, List.findSome?_singleton,
      findMethod?_eq_none absent]
  rw [target?_eq_or]
  exact (congrArg (Option.or · _) missing).trans missing

end Searching

section Hierarchies

variable {Within : String → Prop} {program other : Program} {owner : String}

theorem superclass?_eq_shape (program : Program) (name : String) :
    program.superclass? name = ((program.class? name).map Class.shape).bind Class.superclass := by
  unfold superclass?
  cases program.class? name <;> rfl

theorem interfaces_eq_shape (program : Program) (name : String) :
    program.interfaces name =
      ((program.class? name).map Class.shape).elim [] Class.interfaces := by
  unfold interfaces
  cases program.class? name <;> rfl

theorem parents_eq_shape (program : Program) (name : String) :
    program.parents name = ((program.class? name).map Class.shape).elim [] Class.parents := by
  unfold parents
  cases program.class? name <;> rfl

theorem ClosedAbove.superclass
    (closed : program.ClosedAbove Within)
    (within : Within owner)
    {upper : String}
    (found : program.superclass? owner = some upper) :
    Within upper := by
  apply closed owner within
  obtain ⟨declaration, located, above⟩ := Option.bind_eq_some_iff.1 found
  unfold parents
  rw [located]
  simp [Class.parents, above]

theorem ClosedAbove.interfaces (closed : program.ClosedAbove Within) :
    ∀ name, Within name → ∀ upper ∈ program.interfaces name, Within upper := by
  intro name within upper member
  apply closed name within
  unfold Program.interfaces at member
  unfold parents
  cases found : program.class? name with
  | none =>
    rw [found] at member
    cases member
  | some declaration =>
    rw [found] at member
    exact List.mem_append_left _ member

theorem ClosedAbove.chainUpTo
    (closed : program.ClosedAbove Within)
    (within : Within owner)
    (limit : Nat) :
    ∀ ancestor ∈ program.chainUpTo limit owner, Within ancestor := by
  induction limit generalizing owner with
  | zero =>
    intro ancestor member
    cases member
  | succ limit hypothesis =>
    intro ancestor member
    unfold Program.chainUpTo at member
    rcases List.mem_cons.1 member with rfl | later
    · exact within
    · cases found : program.superclass? owner with
      | none =>
        rw [found] at later
        cases later
      | some upper =>
        rw [found] at later
        exact hypothesis (closed.superclass within found) ancestor later

theorem ClosedAbove.startInterfaces
    (closed : program.ClosedAbove Within)
    (within : Within owner) :
    ∀ upper ∈ (program.chain owner).flatMap program.interfaces, Within upper := by
  intro upper member
  obtain ⟨ancestor, among, above⟩ := List.mem_flatMap.1 member
  exact closed.interfaces ancestor (closed.chainUpTo within chainLimit ancestor among) upper above

theorem ClosedAbove.above
    (closed : program.ClosedAbove Within)
    {start : List String}
    (within : ∀ name ∈ start, Within name) :
    ∀ ancestor ∈ program.above start, Within ancestor := by
  intro ancestor member
  exact within_of_mem_walk Within closed within member

/-- A search stays within names that the hierarchy does not leave. -/
theorem ClosedAbove.searched
    (closed : program.ClosedAbove Within)
    (within : Within owner) :
    ∀ ancestor ∈ program.searched owner, Within ancestor := by
  intro ancestor member
  rcases List.mem_append.1 member with inChain | above
  · exact closed.chainUpTo within chainLimit ancestor inChain
  · split at above
    · exact within_of_mem_walk Within closed.interfaces (closed.startInterfaces within) above
    · cases above

/-- The classes above a class are a part of the hierarchy that nothing leads out of. -/
theorem closedAbove_ancestors (program : Program) (owner : String) :
    program.ClosedAbove (· ∈ program.ancestors owner) :=
  fun _ within _ parent => mem_above_of_parent within parent

/-- The superclasses of a class are above it. -/
theorem mem_ancestors_of_mem_chain
    {ancestor : String}
    (member : ancestor ∈ program.chain owner) :
    ancestor ∈ program.ancestors owner :=
  (program.closedAbove_ancestors owner).chainUpTo (mem_above_of_mem (List.mem_singleton_self _))
    chainLimit ancestor member

/-- A search for a method comes by classes above only. -/
theorem mem_ancestors_of_mem_searched
    {ancestor : String}
    (member : ancestor ∈ program.searched owner) :
    ancestor ∈ program.ancestors owner :=
  (program.closedAbove_ancestors owner).searched (mem_above_of_mem (List.mem_singleton_self _))
    ancestor member

namespace SameHierarchy

theorem refl (Within : String → Prop) (program : Program) : SameHierarchy Within program program := by
  intro name _
  rfl

variable (same : SameHierarchy Within program other)
include same

theorem trans
    {last : Program}
    (further : SameHierarchy Within other last) :
    SameHierarchy Within program last := by
  intro name within
  exact (further name within).trans (same name within)

theorem superclass?_eq (within : Within owner) :
    other.superclass? owner = program.superclass? owner := by
  rw [superclass?_eq_shape, superclass?_eq_shape, same owner within]

theorem interfaces_eq (within : Within owner) :
    other.interfaces owner = program.interfaces owner := by
  rw [interfaces_eq_shape, interfaces_eq_shape, same owner within]

theorem parents_eq (within : Within owner) : other.parents owner = program.parents owner := by
  rw [parents_eq_shape, parents_eq_shape, same owner within]

variable (closed : program.ClosedAbove Within)
include closed

theorem chainUpTo_eq (within : Within owner) (limit : Nat) :
    other.chainUpTo limit owner = program.chainUpTo limit owner := by
  induction limit generalizing owner with
  | zero => rfl
  | succ limit hypothesis =>
    unfold chainUpTo
    rw [same.superclass?_eq within]
    cases found : program.superclass? owner with
    | none => rfl
    | some upper =>
      dsimp only
      rw [hypothesis (closed.superclass within found)]

/-- The same classes are above the given ones. -/
theorem above_eq
    {start : List String}
    (within : ∀ name ∈ start, Within name) :
    other.above start = program.above start :=
  (above_congr (fun _ there => (same.parents_eq there).symm) closed within).symm

/-- A search comes by the same classes. -/
theorem searched_eq (within : Within owner) : other.searched owner = program.searched owner := by
  have chains : other.chain owner = program.chain owner := same.chainUpTo_eq closed within chainLimit
  have starts :
      (program.chain owner).flatMap other.interfaces =
        (program.chain owner).flatMap program.interfaces := by
    apply List.flatMap_congr
    intro ancestor member
    exact same.interfaces_eq (closed.chainUpTo within chainLimit ancestor member)
  have aboves :
      other.interfacesAbove ((program.chain owner).flatMap program.interfaces) =
        program.interfacesAbove ((program.chain owner).flatMap program.interfaces) :=
    (interfacesAbove_congr (fun _ there => (same.interfaces_eq there).symm) closed.interfaces
      (closed.startInterfaces within)).symm
  unfold searched
  dsimp only
  rw [chains, starts, aboves]

end SameHierarchy

end Hierarchies

end Program
end AccessProfiler
