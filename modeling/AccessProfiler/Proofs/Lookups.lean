import AccessProfiler.Machine.Execution
import AccessProfiler.Proofs.Naming
import AccessProfiler.Proofs.Walk

/-!
# Searches in a program with counting

Every search that the original program makes finds the same in the program with counting: the
superclass chain and the interfaces above a class are the same, and so are the declarations of fields
and the targets of calls, apart from the bodies (`Program.Woven.declaredField_eq`,
`Program.Woven.target?_eq`).  What counting adds is found as well: the calls that it inserts reach
bodies that count.
-/

namespace AccessProfiler.Program

variable
    {counter : String}
    {sink : Sink}
    {original current : Program}
    {owner name : String}

theorem findSome?_eq_of_eq
    {Item Result : Type}
    {list : List Item}
    {first second : Item → Option Result}
    (agree : ∀ item ∈ list, first item = second item) :
    list.findSome? first = list.findSome? second := by
  induction list with
  | nil => rfl
  | cons item rest hypothesis =>
    rw [List.findSome?_cons, List.findSome?_cons, agree item List.mem_cons_self,
      hypothesis fun other member => agree other (List.mem_cons_of_mem _ member)]

/-- A method is declared where it is found. -/
theorem map_fst_declaredMethod? (program : Program) (owner name : String) (parameters : List Ty) :
    (program.declaredMethod? owner name parameters).map Prod.fst =
      (program.findMethod? owner name parameters).map MethodId.owner := by
  unfold declaredMethod? findMethod? Class.method?
  cases program.class? owner with
  | none => rfl
  | some declaration =>
    simp only [Option.bind_some, Option.map_map]
    rw [List.find?_eq_bind_findIdx?_getElem?]
    cases found : declaration.methods.findIdx? fun method => method.fits name parameters with
    | none => rfl
    | some index =>
      obtain ⟨bounded, -⟩ := List.findIdx?_eq_some_iff_getElem.1 found
      rw [Option.bind_some, List.getElem?_eq_getElem bounded]
      rfl

/-- What is found has the name and the parameters that were asked for. -/
theorem findMethod?_eq_some
    {program : Program}
    {parameters : List Ty}
    {id : MethodId}
    (found : program.findMethod? owner name parameters = some id) :
    id.owner = owner ∧
      ∃ method, program.method? id = some method ∧ method.name = name ∧
        method.parameters = parameters := by
  unfold findMethod? at found
  obtain ⟨declaration, declares, indexed⟩ := Option.bind_eq_some_iff.1 found
  obtain ⟨index, located, rfl⟩ := Option.map_eq_some_iff.1 indexed
  obtain ⟨bounded, fits, -⟩ := List.findIdx?_eq_some_iff_getElem.1 located
  have parts : declaration.methods[index].name = name ∧
      declaration.methods[index].parameters = parameters := by
    simpa [Method.fits] using fits
  refine ⟨rfl, declaration.methods[index], ?_, parts⟩
  exact Option.bind_eq_some_iff.2 ⟨declaration, declares, List.getElem?_eq_getElem bounded⟩

theorem findMethod?_isSome_of_offers {program : Program} (offered : program.offers owner name) :
    ∃ id, program.findMethod? owner name [] = some id := by
  have declares : ((program.declaredMethod? owner name []).map Prod.fst).isSome := by
    rw [Option.isSome_map]
    exact offered
  rw [map_fst_declaredMethod?, Option.isSome_map] at declares
  exact Option.isSome_iff_exists.1 declares

/-- The class at which the search for a method ends: one of the superclass chain or else an interface
above it. -/
theorem map_fst_resolveMethod? (program : Program) (owner name : String) (parameters : List Ty) :
    (program.resolveMethod? owner name parameters).map Prod.fst =
      ((program.chain owner).findSome? fun ancestor =>
          (program.findMethod? ancestor name parameters).map MethodId.owner).or
        (if (program.chain owner).length < chainLimit then
          (program.interfacesAbove ((program.chain owner).flatMap program.interfaces)).findSome?
            fun ancestor => (program.findMethod? ancestor name parameters).map MethodId.owner
        else none) := by
  have holder (list : List String) :
      list.findSome? (fun ancestor =>
          (program.findMethod? ancestor name parameters).map MethodId.owner) =
        (list.findSome? fun ancestor => program.declaredMethod? ancestor name parameters).map
          Prod.fst := by
    rw [List.map_findSome?]
    exact findSome?_eq_of_eq fun ancestor _ =>
      (map_fst_declaredMethod? program ancestor name parameters).symm
  unfold resolveMethod?
  dsimp only
  rw [holder, holder]
  cases (program.chain owner).findSome? fun ancestor =>
      program.declaredMethod? ancestor name parameters with
  | some found => rfl
  | none =>
    dsimp only [Option.map_none, Option.none_or]
    split
    · rfl
    · rfl

/-- Where the search for a method ends, one is found. -/
theorem exists_findMethod?_of_resolveMethod?
    {program : Program}
    {parameters : List Ty}
    {holder : String}
    (resolved : (program.resolveMethod? owner name parameters).map Prod.fst = some holder) :
    ∃ id, program.findMethod? holder name parameters = some id := by
  have searching {list : List String}
      (search :
        (list.findSome? fun ancestor =>
          (program.findMethod? ancestor name parameters).map MethodId.owner) = some holder) :
      ∃ id, program.findMethod? holder name parameters = some id := by
    obtain ⟨ancestor, -, located⟩ := List.exists_of_findSome?_eq_some search
    obtain ⟨id, found, rfl⟩ := Option.map_eq_some_iff.1 located
    obtain ⟨rfl, -⟩ := findMethod?_eq_some found
    exact ⟨id, found⟩
  rw [map_fst_resolveMethod?] at resolved
  rcases Option.or_eq_some_iff.1 resolved with inChain | ⟨-, above⟩
  · exact searching inChain
  · split at above
    · exact searching above
    · cases above

/-- A class that declares a method is where the search for it from there ends. -/
theorem resolveMethod?_of_findMethod?
    {program : Program}
    {parameters : List Ty}
    {id : MethodId}
    (found : program.findMethod? owner name parameters = some id) :
    (program.resolveMethod? owner name parameters).map Prod.fst = some owner := by
  have first : program.chain owner = owner :: (program.chain owner).tail := rfl
  obtain ⟨same, -⟩ := findMethod?_eq_some found
  rw [map_fst_resolveMethod?, first, List.findSome?_cons, found, Option.map_some, same]
  rfl

theorem superclass?_eq_none {program : Program} (absent : program.class? name = none) :
    program.superclass? name = none := by
  unfold superclass?
  rw [absent]
  rfl

theorem findMethod?_eq_none
    {program : Program}
    {parameters : List Ty}
    (absent : program.class? owner = none) :
    program.findMethod? owner name parameters = none := by
  unfold findMethod?
  rw [absent]
  rfl

theorem target?_eq_bind (program : Program) (start : String) (method : MethodRef) :
    Run.target? program start method =
      (((program.resolveMethod? start method.name method.parameters).map Prod.fst).or
        ((program.resolveMethod? method.owner method.name method.parameters).map Prod.fst)).bind
        fun holder => program.findMethod? holder method.name method.parameters := by
  unfold Run.target?
  cases program.resolveMethod? start method.name method.parameters with
  | some found => rfl
  | none =>
    cases program.resolveMethod? method.owner method.name method.parameters with
    | some found => rfl
    | none => rfl

/-- The target of a call has the name and the parameters of the call. -/
theorem target?_eq_some
    {program : Program}
    {start : String}
    {method : MethodRef}
    {id : MethodId}
    (found : Run.target? program start method = some id) :
    ∃ declared, program.method? id = some declared ∧ declared.name = method.name ∧
      declared.parameters = method.parameters := by
  rw [target?_eq_bind] at found
  obtain ⟨holder, -, located⟩ := Option.bind_eq_some_iff.1 found
  exact (findMethod?_eq_some located).2

/-- A call of a declared method has a target wherever its search starts. -/
theorem exists_target?
    {program : Program}
    (start : String)
    (method : MethodRef)
    {id : MethodId}
    (found : program.findMethod? method.owner method.name method.parameters = some id) :
    ∃ target, Run.target? program start method = some target := by
  rw [target?_eq_bind, resolveMethod?_of_findMethod? found]
  cases resolved : (program.resolveMethod? start method.name method.parameters).map Prod.fst with
  | none => exact ⟨id, found⟩
  | some holder => exact exists_findMethod?_of_resolveMethod? resolved

theorem mem_of_resolveMethod?
    {program : Program}
    {parameters : List Ty}
    {found : String × Method}
    (resolved : program.resolveMethod? owner name parameters = some found) :
    found.1 ∈ program.chain owner ∨
      found.1 ∈ program.interfacesAbove ((program.chain owner).flatMap program.interfaces) := by
  have named {list : List String}
      (search :
        (list.findSome? fun ancestor =>
          (program.findMethod? ancestor name parameters).map MethodId.owner) = some found.1) :
      found.1 ∈ list := by
    obtain ⟨ancestor, member, located⟩ := List.exists_of_findSome?_eq_some search
    obtain ⟨id, there, same⟩ := Option.map_eq_some_iff.1 located
    unfold findMethod? at there
    obtain ⟨declaration, -, indexed⟩ := Option.bind_eq_some_iff.1 there
    obtain ⟨index, -, rfl⟩ := Option.map_eq_some_iff.1 indexed
    exact same ▸ member
  have search := map_fst_resolveMethod? program owner name parameters
  rw [resolved, Option.map_some] at search
  rcases Option.or_eq_some_iff.1 search.symm with inChain | ⟨-, above⟩
  · exact .inl (named inChain)
  · split at above
    · exact .inr (named above)
    · cases above

namespace Woven

section Hierarchy

variable (woven : original.Woven counter sink current)
include woven

theorem superclass?_eq (differs : owner ≠ counter) :
    current.superclass? owner = original.superclass? owner := by
  unfold superclass?
  cases found : original.class? owner with
  | none => rw [woven.class?_eq_none differs found]
  | some declaration =>
    obtain ⟨changed, located, related⟩ := woven.class?_eq_some differs found
    rw [located]
    exact related.superclass

theorem interfaces_eq (differs : owner ≠ counter) :
    current.interfaces owner = original.interfaces owner := by
  unfold interfaces
  cases found : original.class? owner with
  | none => rw [woven.class?_eq_none differs found]
  | some declaration =>
    obtain ⟨changed, located, related⟩ := woven.class?_eq_some differs found
    rw [located]
    exact related.interfaces

end Hierarchy

section Chains

variable (countable : original.Countable counter sink)
include countable

theorem superclass?_ne {superclass : String} (found : original.superclass? owner = some superclass) :
    superclass ≠ counter := by
  unfold superclass? at found
  obtain ⟨declaration, located, above⟩ := Option.bind_eq_some_iff.1 found
  refine countable.apart.declared_ne located (List.mem_cons_of_mem _ ?_)
  simp [Class.parents, above]

theorem interfaces_ne : ∀ above ∈ original.interfaces owner, above ≠ counter := by
  intro above member
  unfold interfaces at member
  cases found : original.class? owner with
  | none =>
    rw [found] at member
    cases member
  | some declaration =>
    rw [found] at member
    exact countable.apart.declared_ne found (List.mem_cons_of_mem _ (List.mem_append_left _ member))

theorem ne_of_mem_interfacesAbove
    {start : List String}
    (apart : ∀ above ∈ start, above ≠ counter) :
    ∀ above ∈ original.interfacesAbove start, above ≠ counter :=
  fun _ member => within_of_mem_walk (fun name => name ≠ counter)
    (fun _ _ above member => interfaces_ne countable above member) apart member

theorem ne_of_mem_chainUpTo
    (differs : owner ≠ counter)
    {limit : Nat}
    {ancestor : String}
    (member : ancestor ∈ original.chainUpTo limit owner) :
    ancestor ≠ counter := by
  induction limit generalizing owner with
  | zero => cases member
  | succ limit hypothesis =>
    unfold chainUpTo at member
    rcases List.mem_cons.1 member with rfl | above
    · exact differs
    · cases found : original.superclass? owner with
      | none =>
        rw [found] at above
        cases above
      | some superclass =>
        rw [found] at above
        exact hypothesis (superclass?_ne countable found) above

variable (woven : original.Woven counter sink current)
include woven

theorem chainUpTo_eq (differs : owner ≠ counter) (limit : Nat) :
    current.chainUpTo limit owner = original.chainUpTo limit owner := by
  induction limit generalizing owner with
  | zero => rfl
  | succ limit hypothesis =>
    unfold chainUpTo
    rw [woven.superclass?_eq differs]
    cases found : original.superclass? owner with
    | none => rfl
    | some superclass =>
      dsimp only
      rw [hypothesis (superclass?_ne countable found)]

theorem chain_eq (differs : owner ≠ counter) : current.chain owner = original.chain owner :=
  chainUpTo_eq countable woven differs chainLimit

theorem interfacesAbove_eq
    {start : List String}
    (apart : ∀ above ∈ start, above ≠ counter) :
    current.interfacesAbove start = original.interfacesAbove start :=
  (interfacesAbove_congr (fun _ differs => (woven.interfaces_eq differs).symm)
    (fun _ _ above member => interfaces_ne countable above member) apart).symm

/-! ## Fields -/

omit countable woven in
theorem field?_eq
    {declaration changed : Class}
    (related : declaration.Woven counter sink current.offers changed)
    (plain : isInstrumentationName name = false) :
    changed.field? name = declaration.field? name := by
  obtain ⟨extra, parts, counting⟩ := related.fields
  unfold Class.field?
  rw [parts, List.find?_append]
  have absent : extra.find? (fun field => field.name == name) = none := by
    rw [List.find?_eq_none]
    intro field member same
    have named : field.name = name := by simpa using same
    rw [← named, (counting field member).1] at plain
    cases plain
  rw [absent, Option.or_none]

omit countable in
theorem declaredField?_eq (differs : owner ≠ counter) (plain : isInstrumentationName name = false) :
    current.declaredField? owner name = original.declaredField? owner name := by
  unfold declaredField?
  cases found : original.class? owner with
  | none => rw [woven.class?_eq_none differs found]
  | some declaration =>
    obtain ⟨changed, located, related⟩ := woven.class?_eq_some differs found
    rw [located, Option.bind_some, Option.bind_some, field?_eq related plain,
      related.name]

theorem resolveField?_eq (differs : owner ≠ counter) (plain : isInstrumentationName name = false) :
    current.resolveField? owner name = original.resolveField? owner name := by
  unfold resolveField?
  rw [chain_eq countable woven differs]
  apply findSome?_eq_of_eq
  intro ancestor member
  exact declaredField?_eq woven (ne_of_mem_chainUpTo countable differs member) plain

/-- A field means the same declaration. -/
theorem declaredField_eq {field : FieldRef} (plain : field.Plain counter) :
    Run.declaredField current field = Run.declaredField original field := by
  unfold Run.declaredField
  rw [resolveField?_eq countable woven plain.1 plain.2]

/-! ## Methods -/

omit countable woven in
theorem fits_eq
    {offers : Offers}
    {before after : Method}
    (related : before.Woven counter sink offers after) :
    after.fits = before.fits := by
  have same := Method.mk.inj related.signature
  funext name parameters
  unfold Method.fits
  rw [same.1, same.2.1]

omit countable woven in
theorem findIdx?_eq
    {offers : Offers}
    {declaration changed : Class}
    (related : declaration.Woven counter sink offers changed)
    {asks : Method → Bool}
    (sameSignature :
      ∀ before after : Method, before.Woven counter sink offers after → asks after = asks before)
    (plain : ∀ method : Method, method.CountsAccess sink → asks method = false) :
    changed.methods.findIdx? asks = declaration.methods.findIdx? asks := by
  obtain ⟨kept, extra, parts, methods, counting⟩ := related.methods
  have absent : extra.findIdx? asks = none := by
    rw [List.findIdx?_eq_none_iff]
    exact fun method member => plain method (counting method member)
  have same : kept.findIdx? asks = declaration.methods.findIdx? asks := by
    generalize declaration.methods = original at methods
    clear parts
    induction methods with
    | nil => rfl
    | cons first _ hypothesis =>
      rw [List.findIdx?_cons, List.findIdx?_cons, sameSignature _ _ first, hypothesis]
  rw [parts, List.findIdx?_append, absent, same]
  simp

omit countable in
theorem findMethod?_eq
    (differs : owner ≠ counter)
    (plain : ¬ IsIncrementor name)
    (parameters : List Ty) :
    current.findMethod? owner name parameters = original.findMethod? owner name parameters := by
  unfold findMethod?
  cases found : original.class? owner with
  | none => rw [woven.class?_eq_none differs found]
  | some declaration =>
    obtain ⟨changed, located, related⟩ := woven.class?_eq_some differs found
    rw [located, Option.bind_some, Option.bind_some,
      findIdx?_eq related (fun before after same => by rw [fits_eq same]) fun method counts => by
        have other : method.name ≠ name := fun same => plain (same ▸ counts.named)
        simp [Method.fits, other]]

/-- The first class at which the search for a method finds one is the same. -/
theorem resolveMethod?_eq
    (differs : owner ≠ counter)
    (plain : ¬ IsIncrementor name)
    (parameters : List Ty) :
    (current.resolveMethod? owner name parameters).map Prod.fst =
      (original.resolveMethod? owner name parameters).map Prod.fst := by
  have declaring {list : List String} (apart : ∀ ancestor ∈ list, ancestor ≠ counter) :
      list.findSome? (fun ancestor => (current.findMethod? ancestor name parameters).map MethodId.owner) =
        list.findSome? fun ancestor =>
          (original.findMethod? ancestor name parameters).map MethodId.owner :=
    findSome?_eq_of_eq fun ancestor member => by rw [findMethod?_eq woven (apart ancestor member) plain]
  have chained : ∀ ancestor ∈ original.chain owner, ancestor ≠ counter :=
    fun _ member => ne_of_mem_chainUpTo countable differs member
  have starts : ∀ above ∈ (original.chain owner).flatMap original.interfaces, above ≠ counter := by
    intro above member
    obtain ⟨ancestor, -, there⟩ := List.mem_flatMap.1 member
    exact interfaces_ne countable above there
  have sameStarts :
      (original.chain owner).flatMap current.interfaces =
        (original.chain owner).flatMap original.interfaces :=
    List.flatMap_congr fun ancestor member => woven.interfaces_eq (chained ancestor member)
  rw [map_fst_resolveMethod?, map_fst_resolveMethod?, chain_eq countable woven differs, sameStarts,
    interfacesAbove_eq countable woven starts, declaring chained,
    declaring (ne_of_mem_interfacesAbove countable starts)]

omit woven in
theorem resolveMethod?_ne
    (differs : owner ≠ counter)
    {parameters : List Ty}
    {found : String × Method}
    (resolved : original.resolveMethod? owner name parameters = some found) :
    found.1 ≠ counter := by
  have holds : found.1 ∈ original.chain owner ∨
      found.1 ∈ original.interfacesAbove ((original.chain owner).flatMap original.interfaces) :=
    mem_of_resolveMethod? resolved
  rcases holds with inChain | above
  · exact ne_of_mem_chainUpTo countable differs inChain
  · refine ne_of_mem_interfacesAbove countable (fun start member => ?_) _ above
    obtain ⟨ancestor, -, there⟩ := List.mem_flatMap.1 member
    exact interfaces_ne countable start there

/-- A call means the same method. -/
theorem target?_eq
    {start : String}
    {method : MethodRef}
    (differs : start ≠ counter)
    (plain : method.Plain counter) :
    Run.target? current start method = Run.target? original start method := by
  rw [target?_eq_bind, target?_eq_bind,
    resolveMethod?_eq countable woven differs plain.2,
    resolveMethod?_eq countable woven plain.1 plain.2]
  cases found :
      ((original.resolveMethod? start method.name method.parameters).map Prod.fst).or
        ((original.resolveMethod? method.owner method.name method.parameters).map Prod.fst) with
  | none => rfl
  | some holder =>
    have holderDiffers : holder ≠ counter := by
      rcases Option.or_eq_some_iff.1 found with first | ⟨-, second⟩
      · obtain ⟨pair, resolved, rfl⟩ := Option.map_eq_some_iff.1 first
        exact resolveMethod?_ne countable differs resolved
      · obtain ⟨pair, resolved, rfl⟩ := Option.map_eq_some_iff.1 second
        exact resolveMethod?_ne countable plain.1 resolved
    exact findMethod?_eq woven holderDiffers plain.2 method.parameters

omit woven in
theorem method?_ne {id : MethodId} {method : Method} (found : original.method? id = some method) :
    id.owner ≠ counter := by
  intro same
  obtain ⟨declaration, declares, -⟩ := Option.bind_eq_some_iff.1 found
  rw [same, countable.unregistered] at declares
  cases declares

/-- What the body of a method has become. -/
theorem body?_eq_some
    {id : MethodId}
    {body : Body}
    (found : original.body? id = some body) :
    ∃ method changed, original.method? id = some method ∧ current.body? id = some changed ∧
      body.Woven counter sink current.offers method.isConstructor changed := by
  unfold body? at found ⊢
  obtain ⟨method, there, given⟩ := Option.bind_eq_some_iff.1 found
  obtain ⟨changed, thereChanged, related⟩ :=
    woven.method?_eq_some (method?_ne countable there) there
  have bodies := related.body
  rw [given] at bodies
  cases foundBody : changed.body with
  | none =>
    rw [foundBody] at bodies
    cases bodies
  | some changedBody =>
    rw [foundBody] at bodies
    cases bodies with
    | some relatedBody =>
      refine ⟨method, changedBody, there, ?_, relatedBody⟩
      rw [thereChanged]
      exact foundBody

theorem body?_eq_none {id : MethodId} {method : Method}
    (has : original.method? id = some method)
    (bodiless : original.body? id = none) :
    current.body? id = none := by
  obtain ⟨changed, there, related⟩ := woven.method?_eq_some (method?_ne countable has) has
  have none : method.body = none := by
    unfold body? at bodiless
    rw [has] at bodiless
    exact bodiless
  have bodies := related.body
  rw [none] at bodies
  unfold body?
  rw [there]
  cases foundBody : changed.body with
  | none => exact foundBody
  | some body =>
    rw [foundBody] at bodies
    cases bodies

/-- An entry means the same method. -/
theorem entryMethod?_eq_some
    {entry : String}
    {method : MethodRef}
    (found : Run.entryMethod? original entry = some method) :
    Run.entryMethod? current entry = some method ∧ method.Plain counter := by
  unfold Run.entryMethod? at *
  obtain ⟨⟨owner, name⟩, split, rest⟩ := Option.bind_eq_some_iff.1 found
  obtain ⟨id, named, referred⟩ := Option.bind_eq_some_iff.1 rest
  unfold findMethodNamed? at named
  obtain ⟨declaration, declares, indexed⟩ := Option.bind_eq_some_iff.1 named
  obtain ⟨index, located, rfl⟩ := Option.map_eq_some_iff.1 indexed
  unfold methodRef? at referred
  obtain ⟨same, declaresSame, there⟩ := Option.bind_eq_some_iff.1 referred
  rw [declares] at declaresSame
  cases declaresSame
  obtain ⟨written, positioned, rfl⟩ := Option.map_eq_some_iff.1 there
  have differs : owner ≠ counter := by
    rintro rfl
    rw [countable.unregistered] at declares
    cases declares
  have plain := countable.apart.method_plain declares (List.mem_of_getElem? positioned)
  have namedSo : written.name = name := by
    obtain ⟨bounded, asked, -⟩ := List.findIdx?_eq_some_iff_getElem.1 located
    rw [List.getElem?_eq_getElem bounded] at positioned
    cases positioned
    simpa using asked
  obtain ⟨changedClass, declaresChanged, related⟩ := woven.class?_eq_some differs declares
  have locatedChanged :
      changedClass.methods.findIdx? (fun method => method.name == name) = some index := by
    rw [← located]
    refine findIdx?_eq related (fun before after same => by rw [same.name_eq]) fun method counts => ?_
    have other : method.name ≠ name := fun same => plain (namedSo ▸ same ▸ counts.named)
    simpa using other
  obtain ⟨changed, positionedChanged, relatedMethod⟩ := related.getElem?_methods positioned
  have sameReference : changed.reference changedClass.name = written.reference declaration.name := by
    have parts := Method.mk.inj relatedMethod.signature
    unfold Method.reference
    rw [parts.1, parts.2.1, parts.2.2.1, related.name]
  refine ⟨?_, countable.apart.declared_ne declares List.mem_cons_self, plain⟩
  rw [split]
  simp only [Option.bind_eq_bind, Option.bind_some, findMethodNamed?, methodRef?, declaresChanged,
    locatedChanged, Option.map_some, positionedChanged, sameReference]

end Chains

/-! ## What counting added -/

section Added

variable (woven : original.Woven counter sink current)
include woven

/-- A call of a method that counts on a static counter reaches its body. -/
theorem target?_of_tallies {method : String} (offered : current.offers counter method) :
    ∃ id label field, Run.target? current counter ⟨counter, method, [], .void⟩ = some id ∧
      current.body? id = some (Profile.staticIncrementorBody sink label field) ∧
      field.Tallies counter := by
  obtain ⟨id, found⟩ := findMethod?_isSome_of_offers offered
  obtain ⟨same, declared, there, -⟩ := findMethod?_eq_some found
  obtain ⟨declaration, declares, located⟩ := Option.bind_eq_some_iff.1 there
  rw [same] at declares
  have tallies :=
    (woven.counts declaration declares).methods declared (List.mem_of_getElem? located)
  obtain ⟨label, field, counts, body⟩ := tallies.body
  refine ⟨id, label, field, ?_, ?_, counts⟩
  · rw [target?_eq_bind, resolveMethod?_of_findMethod? found]
    exact found
  · unfold body?
    rw [there]
    exact body

/-- A call of a method that counts accesses reaches the body of such a method, whichever class the
search starts at. -/
theorem target?_of_counts
    (free : original.DeclaresNoIncrementor)
    (start : String)
    {method : String}
    (incrementing : IsIncrementor method)
    (offered : current.offers owner method) :
    ∃ id className field serial,
      Run.target? current start ⟨owner, method, [], .void⟩ = some id ∧
      current.body? id = some (Profile.incrementorBody sink className field serial) ∧
      field.CountsAccess ∧ serial.CountsAccess := by
  obtain ⟨declaredId, found⟩ := findMethod?_isSome_of_offers offered
  obtain ⟨id, reached⟩ :=
    exists_target? start ⟨owner, method, [], .void⟩ found
  obtain ⟨declared, there, named, -⟩ := target?_eq_some reached
  obtain ⟨declaration, declares, located⟩ := Option.bind_eq_some_iff.1 there
  have member := List.mem_of_getElem? located
  have counts : declared.CountsAccess sink := by
    by_cases here : id.owner = counter
    · rw [here] at declares
      refine absurd ?_ ((woven.counts declaration declares).methods declared member).not_isIncrementor
      exact named ▸ incrementing
    · rcases woven.method?_of_current here there with ⟨before, has, related⟩ | counts
      · obtain ⟨old, declaresOld, locatedOld⟩ := Option.bind_eq_some_iff.1 has
        refine absurd ?_ (free id.owner old before declaresOld (List.mem_of_getElem? locatedOld))
        exact related.name_eq ▸ named ▸ incrementing
      · exact counts
  obtain ⟨className, field, serial, countsField, countsSerial, body⟩ := counts.body
  refine ⟨id, className, field, serial, reached, ?_, countsField, countsSerial⟩
  unfold body?
  rw [there]
  exact body

/-- Above the class of the counters there is only the root class. -/
theorem mem_chainUpTo_counter
    (root : original.class? objectClass = none)
    {limit : Nat}
    {ancestor : String}
    (member : ancestor ∈ current.chainUpTo limit counter) :
    ancestor = counter ∨ ancestor = objectClass := by
  induction limit with
  | zero => cases member
  | succ limit hypothesis =>
    unfold chainUpTo at member
    rcases List.mem_cons.1 member with here | above
    · exact .inl here
    · cases found : current.superclass? counter with
      | none =>
        rw [found] at above
        cases above
      | some superclass =>
        rw [found] at above
        obtain ⟨declaration, declares, below⟩ := Option.bind_eq_some_iff.1 found
        rw [(woven.counts declaration declares).superclass] at below
        cases below
        by_cases same : objectClass = counter
        · dsimp only at above
          rw [same] at above
          exact hypothesis above
        · refine .inr ?_
          have top := superclass?_eq_none (woven.class?_eq_none same root)
          cases limit with
          | zero => cases above
          | succ limit =>
            unfold chainUpTo at above
            dsimp only at above
            rw [top] at above
            exact List.mem_singleton.1 above

/-- A static counter is a field of the class of the counters. -/
theorem declaredField_tallies
    (root : original.class? objectClass = none)
    {field : FieldRef}
    (tallies : field.Tallies counter) :
    (Run.declaredField current field).Tallies counter := by
  unfold Run.declaredField
  cases found : current.resolveField? field.owner field.name with
  | none => exact tallies
  | some declared =>
    unfold resolveField? at found
    obtain ⟨ancestor, member, located⟩ := List.exists_of_findSome?_eq_some found
    unfold declaredField? at located
    obtain ⟨declaration, declares, there⟩ := Option.bind_eq_some_iff.1 located
    obtain ⟨here, isField, rfl⟩ := Option.map_eq_some_iff.1 there
    have onCounter : ancestor = counter := by
      rcases mem_chainUpTo_counter woven root (tallies.1 ▸ member) with here | above
      · exact here
      · by_contra elsewhere
        subst above
        rw [woven.class?_eq_none elsewhere root] at declares
        cases declares
    subst onCounter
    have isCounter := woven.counts declaration declares
    exact ⟨isCounter.name, isCounter.fields here (List.mem_of_find?_eq_some isField)⟩

/-- A field with the name of a count is one. -/
theorem declaredField_countsAccess
    (countable : original.Countable counter sink)
    {field : FieldRef}
    (counts : field.CountsAccess) :
    (Run.declaredField current field).CountsAccess := by
  unfold Run.declaredField
  cases found : current.resolveField? field.owner field.name with
  | none => exact counts
  | some declared =>
    unfold resolveField? at found
    obtain ⟨ancestor, -, located⟩ := List.exists_of_findSome?_eq_some found
    unfold declaredField? at located
    obtain ⟨declaration, declares, there⟩ := Option.bind_eq_some_iff.1 located
    obtain ⟨here, isField, rfl⟩ := Option.map_eq_some_iff.1 there
    have named : here.name = field.name := by simpa using List.find?_some isField
    have member := List.mem_of_find?_eq_some isField
    refine ⟨?_, ?_⟩
    · change isInstrumentationName here.name
      rw [named]
      exact counts.1
    · by_cases onCounter : ancestor = counter
      · subst onCounter
        exact (woven.counts declaration declares).fields here member
      · obtain ⟨old, declaresOld, related⟩ := woven.class?_of_current onCounter declares
        obtain ⟨extra, parts, counting⟩ := related.fields
        rw [parts] at member
        rcases List.mem_append.1 member with inOld | inExtra
        · have plain := countable.apart.field_plain declaresOld inOld
          rw [named, counts.1] at plain
          cases plain
        · exact (counting here inExtra).2

end Added
end Woven
end AccessProfiler.Program
