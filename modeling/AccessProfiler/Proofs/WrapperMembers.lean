import AccessProfiler.Proofs.ConstructorBodies
import AccessProfiler.Proofs.CountedMembers
import AccessProfiler.Proofs.Searches
import AccessProfiler.Wrapping.Generate

/-!
# The members of wrappers

Where nothing has the names that generation gives, a request for a wrapper makes a class with exactly
the members of `Wrapper.complete`, and gives the wrapper that names them (`Transform.wrapperFor_builds`).
The members are added one by one; `Session.Redeclares` says what the class has become so far.  What a
search finds afterwards is read off the complete class: its fields are what they are taken to be, and
a call of one of its methods leads to the body that was made for it.
-/

namespace AccessProfiler

/-! ## The complete class -/

namespace Wrapper

/-- The wrapper of an element type whose members are those that it was given. -/
def ofElement (name : String) (element : Ty) (staticCounter : FieldRef) : Wrapper where
  name := name
  element := element
  arrayField := .ofInstance name AccessProfiler.arrayField (.array element)
  fromArray := ⟨name, constructorName, [.array element], .void⟩
  withLength := ⟨name, constructorName, [.int], .void⟩
  get := ⟨name, getMethod, [.int], element⟩
  set := ⟨name, setMethod, [.int, element], .void⟩
  profile := .ofClass name staticCounter

/-- The fields of an instance. -/
def fields (wrapper : Wrapper) : List FieldRef :=
  [wrapper.arrayField, wrapper.profile.serial, wrapper.profile.reads, wrapper.profile.writes]

/-- A generated method with its body. -/
def member (reference : MethodRef) (body : Body) : Method where
  name := reference.name
  parameters := reference.parameters
  result := reference.result
  flags := Method.synthetic
  body := some body

variable (sink : Sink) (wrapper : Wrapper)

/-- The field that keeps the array. -/
def storage : Field :=
  ⟨AccessProfiler.arrayField, .array wrapper.element, Field.synthetic⟩

/-- The methods of a wrapper, the constructors with the block that gives the serial number. -/
def methods : List Method :=
  [member wrapper.fromArray
      (wrapper.profile.patched sink
        (fromArrayBody wrapper.name wrapper.element wrapper.arrayField)),
    member wrapper.withLength
      (wrapper.profile.patched sink
        (withLengthBody wrapper.name wrapper.element wrapper.arrayField)),
    member wrapper.get (getBody wrapper.name wrapper.element wrapper.arrayField wrapper.profile),
    member wrapper.set (setBody wrapper.name wrapper.element wrapper.arrayField wrapper.profile)]

/-- The class of a wrapper with all its members. -/
def complete : Class :=
  { declaration wrapper.name with
    fields := wrapper.storage :: Profile.fields
    methods := wrapper.profile.methods sink ++ wrapper.methods sink }

end Wrapper

/-- A constructor that neither assigns the serial number nor leaves it to another one gets the block that
assigns it behind its bindings. -/
theorem Profile.patched_of_unskipped
    (sink : Sink)
    (profile : Profile)
    {body : Body}
    {this : LocalId}
    (received : body.receiver? = some this)
    (unskipped : profile.skip? this body.instructions = none) :
    ∃ declaration : LocalDecl,
      profile.patched sink body =
        { locals := body.locals ++ [declaration]
          instructions :=
            body.bindings ++
              (profile.serialAssignment sink this ⟨body.locals.length⟩ ++ body.unbound) } := by
  have instructions := profile.patched_instructions sink received
  rw [if_pos unskipped, List.append_assoc] at instructions
  refine ⟨⟨body.freshName "$serial", .int⟩, ?_⟩
  have locals :
      (profile.patched sink body).locals = body.locals ++ [⟨body.freshName "$serial", .int⟩] := by
    rw [Profile.patched, Profile.patchConstructor, received]
    dsimp only
    rw [unskipped]
    rfl
  rw [← instructions, ← locals]

/-- Neither constructor of a wrapper is skipped: each calls that of the root class, and assigns the
field that keeps the array. -/
theorem Wrapper.skip?_eq_none
    {name : String}
    {element : Ty}
    {staticCounter : FieldRef}
    (apart : name ≠ objectClass)
    (this : LocalId) :
    let wrapper : Wrapper := .ofElement name element staticCounter
    wrapper.profile.skip? this (fromArrayBody name element wrapper.arrayField).instructions = none ∧
      wrapper.profile.skip? this (withLengthBody name element wrapper.arrayField).instructions =
        none := by
  have stores :
      FieldRef.ofInstance name AccessProfiler.arrayField (.array element) ≠
        .ofInstance name serialField .int := by
    intro same
    cases (FieldRef.mk.inj same).2.2.1
  constructor <;>
    simp [Profile.skip?_eq_none_iff, fromArrayBody, withLengthBody, Profile.skipOf, ofElement,
      Profile.ofClass, Call.ofSpecial, rootConstructor, stores, apart.symm]

/-- The names that generation gives to a wrapper and to the class of the counters are different, not
taken, and apart from those of the sink and of the root class, which is not registered. -/
structure Settings.HasRoomFor (settings : Settings) (program : Program) (name : String) : Prop where
  root : program.class? objectClass = none
  wrapper : program.class? name = none
  counters : program.class? settings.counterClassName = none
  differs : name ≠ settings.counterClassName
  wrapperRoot : name ≠ objectClass
  wrapperSink : name ≠ settings.sink.owner
  countersRoot : settings.counterClassName ≠ objectClass
  countersSink : settings.counterClassName ≠ settings.sink.owner

/-- The static counter is one of the class of the counters, above which no class is registered. -/
structure Program.HasTally
    (program : Program)
    (counter : String)
    (sink : Sink)
    (field : FieldRef) : Prop where
  declares :
    ∃ declaration table, program.class? counter = some declaration ∧
      declaration.HoldsCounters table sink ∧ table.className = counter ∧
      (declaration.field? field.name).isSome
  tallies : field = .ofClass counter field.name .int
  root : program.class? objectClass = none

theorem Program.HasTally.congr
    {program other : Program}
    {counter : String}
    {sink : Sink}
    {field : FieldRef}
    (has : program.HasTally counter sink field)
    (counters : other.class? counter = program.class? counter)
    (root : other.class? objectClass = program.class? objectClass) :
    other.HasTally counter sink field :=
  ⟨counters ▸ has.declares, has.tallies, root.trans has.root⟩

/-- The program has the complete class of the wrapper and the static counter that numbers its
instances. -/
structure Program.HasWrapper
    (program : Program)
    (counter : String)
    (sink : Sink)
    (wrapper : Wrapper) : Prop where
  complete : program.class? wrapper.name = some (wrapper.complete sink)
  tally : program.HasTally counter sink wrapper.profile.staticCounter

/-! ## Adding the members -/

/-- One class of a session has these methods now, and nothing else of the program changed. -/
structure Session.Redeclares
    (base : Session)
    (name : String)
    (declaration : Class)
    (methods : List Method)
    (session : Session) : Prop where
  declared : session.program.class? name = some { declaration with methods }
  others : ∀ other, other ≠ name → session.program.class? other = base.program.class? other
  settings : session.settings = base.settings

namespace Transform

variable
    {base session : Session}
    {name : String}
    {declaration : Class}
    {methods : List Method}

/-- A member of a wrapper is declared if its class has none of its name and parameters. -/
theorem addMember_succeeds
    {profile : Profile}
    {body kept : Body}
    {this : LocalId}
    (redeclares : base.Redeclares name declaration methods session)
    (reference : MethodRef)
    (owned : reference.owner = name)
    (received : body.receiver? = some this)
    (keeps :
      (if reference.name = constructorName then profile.patched base.settings.sink body else body) =
        kept)
    (free : ∀ method ∈ methods, method.fits reference.name reference.parameters = false) :
    Succeeds
      (addMember profile name reference.name reference.parameters reference.result body) session
      fun given after => given = reference ∧
        base.Redeclares name declaration (methods ++ [Wrapper.member reference kept]) after := by
  subst owned
  have unfit :
      Class.method? { declaration with methods } reference.name reference.parameters = none :=
    List.find?_eq_none.2 fun method member => Bool.eq_false_iff.1 (free method member)
  have declare :
      Succeeds
        (do
          addGenerated reference.owner (Wrapper.member reference kept)
          return reference)
        session fun given after => given = reference ∧
          base.Redeclares reference.owner declaration (methods ++ [Wrapper.member reference kept])
            after := by
    have added :
        Succeeds (addGenerated reference.owner (Wrapper.member reference kept)) session
          fun _ after =>
            base.Redeclares reference.owner declaration
              (methods ++ [Wrapper.member reference kept]) after := by
      refine addGenerated_succeeds redeclares.declared unfit fun generated _ => ⟨?_, ?_, ?_⟩
      · simp only [Program.class?_modifyClass, if_pos, redeclares.declared, Option.map_some]
      · intro other elsewhere
        simp only [Program.class?_modifyClass, if_neg elsewhere]
        exact redeclares.others other elsewhere
      · exact redeclares.settings
    exact added.bind fun _ after became => .pure ⟨rfl, became⟩
  obtain ⟨outcome, patches⟩ :=
    Draft.patchConstructor_of_receiver? base.settings.sink profile received
  have patched : outcome.toOption.getD body = profile.patched base.settings.sink body := by
    rw [Profile.patched, patches]
    cases outcome <;> rfl
  unfold addMember
  apply Succeeds.get_bind
  rw [redeclares.declared, Option.bind_some, unfit, redeclares.settings]
  dsimp only
  rw [Option.isSome_none, if_neg Bool.false_ne_true]
  split
  · rename_i constructing
    rw [if_pos constructing, ← patched] at keeps
    subst keeps
    rw [patches]
    exact declare
  · rename_i other
    rw [if_neg other] at keeps
    rw [keeps]
    exact declare

/-- A class without methods that is instrumented gets the members of its profile, and the static
counter of its instances is declared. -/
theorem instrument_bare_succeeds
    {counter : String}
    {sink : Sink}
    (ledger : session.Ledger counter sink)
    (found : session.program.class? name = some declaration)
    (unprofiled : session.profiles.get? name = none)
    (proper : declaration.isInterface = false)
    (named : declaration.name = name)
    (fields : ∀ field ∈ declaration.fields, isInstrumentationName field.name = false)
    (methods : declaration.methods = [])
    (differs : name ≠ counter)
    (root : session.program.class? objectClass = none)
    (nameRoot : name ≠ objectClass)
    (counterRoot : counter ≠ objectClass) :
    Succeeds (instrument name) session fun profile after =>
      ∃ field, profile = .ofClass name field ∧ after.program.HasTally counter sink field ∧
        after.program.class? name =
          some
            { declaration with
              fields := declaration.fields ++ Profile.fields
              methods := profile.methods sink } ∧
        after.settings = session.settings := by
  have bare : ∀ method ∈ declaration.methods, ¬ IsIncrementor method.name := by simp [methods]
  unfold instrument
  apply Succeeds.get_bind
  rw [unprofiled, found]
  dsimp only
  rw [proper, if_neg Bool.false_ne_true]
  refine (buildProfile_succeeds ledger found differs named proper fields bare).bind ?_
  rintro profile built ⟨middle, field, extension, -, counted, rfl, declares⟩
  apply Succeeds.modify_bind
  apply record_bind
  intro journal
  have known : built.counters.fields.get? (.instances name) = some field := by
    rw [declares.counters]
    exact counted
  obtain ⟨counts, there, declared⟩ := declares.ledger.fields _ field known
  refine .pure ⟨field, rfl, ⟨⟨counts, built.counters, there, declares.ledger.holds counts there,
    declares.ledger.className, declared⟩, (declares.ledger.names _ field known).2, ?_⟩, ?_, ?_⟩
  · show built.program.class? objectClass = none
    rw [declares.others _ (Ne.symm nameRoot),
      extension.grows.program.others _ (Ne.symm counterRoot)]
    exact root
  · rw [methods, List.nil_append] at declares
    exact declares.declared
  · exact declares.settings.trans extension.grows.settings

/-- On a class without members all members of a wrapper are declared. -/
theorem buildWrapper_builds
    {counter : String}
    {sink : Sink}
    (ledger : session.Ledger counter sink)
    (found : session.program.class? name = some (Wrapper.declaration name))
    (unprofiled : session.profiles.get? name = none)
    (differs : name ≠ counter)
    (root : session.program.class? objectClass = none)
    (nameRoot : name ≠ objectClass)
    (counterRoot : counter ≠ objectClass)
    (element : Ty) :
    Succeeds (buildWrapper name element) session fun wrapper after =>
      ∃ staticCounter, wrapper = .ofElement name element staticCounter ∧
        after.program.HasWrapper counter sink wrapper := by
  let storage : Field := ⟨arrayField, .array element, Field.synthetic⟩
  let declared : Class := { Wrapper.declaration name with fields := [storage] }
  have reference : storage.reference name = .ofInstance name arrayField (.array element) := by
    have instance' : storage.isStatic = false := by
      have : Field.synthetic.includes Field.static = false := by decide
      exact this
    rw [Field.reference, instance']
    rfl
  have proper : declared.isInterface = false := by
    show (Class.syntheticFlag.union Class.wrapperFlag).includes Class.interfaceFlag = false
    decide
  have added : (Wrapper.declaration name).addField storage = .ok (storage.reference name, declared) :=
    Class.addField_of_absent rfl
  have stored :
      (session.program.modifyClass name fun _ => declared).class? name = some declared := by
    rw [Program.class?_modifyClass, if_pos rfl, found]
    rfl
  have elsewhere {other : String} (apart : other ≠ name) :
      (session.program.modifyClass name fun _ => declared).class? other =
        session.program.class? other := by
    rw [Program.class?_modifyClass, if_neg apart]
  unfold buildWrapper
  refine Succeeds.bind
    (changeProgram_succeeds (Program.addField_of_class? found added) ⟨rfl, rfl⟩ :
      Succeeds _ _ fun field after =>
        field = storage.reference name ∧
          after = { session with program := session.program.modifyClass name fun _ => declared }) ?_
  rintro _ _ ⟨rfl, rfl⟩
  rw [reference]
  refine (instrument_bare_succeeds (ledger.withProgram (elsewhere differs.symm)) stored unprofiled
    proper rfl (by simp [declared, storage]; decide) rfl differs
    ((elsewhere nameRoot.symm).trans root) nameRoot counterRoot).bind ?_
  rintro _ base ⟨staticCounter, rfl, tally, became, settings⟩
  have reports : base.settings.sink = sink := (congrArg Settings.sink settings).trans ledger.reports
  let wrapper : Wrapper := .ofElement name element staticCounter
  have getPlain : getMethod ≠ constructorName := by decide
  have setPlain : setMethod ≠ constructorName := by decide
  have start :
      base.Redeclares name (wrapper.complete sink) (wrapper.profile.methods sink) base :=
    ⟨became, fun _ _ => rfl, rfl⟩
  refine (addMember_succeeds start wrapper.fromArray rfl rfl (if_pos rfl) ?_).bind ?_
  · simp [Profile.methods, Profile.incrementorMethod, Method.fits, wrapper, Wrapper.ofElement]
  rintro _ first ⟨rfl, becameFirst⟩
  refine (addMember_succeeds becameFirst wrapper.withLength rfl rfl (if_pos rfl) ?_).bind ?_
  · simp [Profile.methods, Profile.incrementorMethod, Method.fits, wrapper, Wrapper.ofElement,
      Wrapper.member]
  rintro _ second ⟨rfl, becameSecond⟩
  refine (addMember_succeeds becameSecond wrapper.get rfl rfl (if_neg getPlain) ?_).bind ?_
  · simp [Profile.methods, Profile.incrementorMethod, Method.fits, wrapper, Wrapper.ofElement,
      Wrapper.member, getPlain.symm]
  rintro _ third ⟨rfl, becameThird⟩
  refine (addMember_succeeds becameThird wrapper.set rfl rfl (if_neg setPlain) ?_).bind ?_
  · simp [Profile.methods, Profile.incrementorMethod, Method.fits, wrapper, Wrapper.ofElement,
      Wrapper.member]
  rintro _ after ⟨rfl, becameLast⟩
  rw [reports] at becameLast
  exact .pure ⟨staticCounter, rfl, becameLast.declared,
    tally.congr (becameLast.others _ differs.symm) (becameLast.others _ nameRoot.symm)⟩

/-- A request for a wrapper that nothing is in the way of makes its complete class. -/
theorem wrapperFor_builds
    {settings : Settings}
    {program : Program}
    {element : Ty}
    (named : Wrapper.nameFor? settings element = some name)
    (room : settings.HasRoomFor program name) :
    Succeeds (wrapperFor element) (.start settings program) fun found after =>
      ∃ staticCounter, found = some (.ofElement name element staticCounter) ∧
        after.program.HasWrapper settings.counterClassName settings.sink
          (.ofElement name element staticCounter) := by
  have ledger := (Session.start_furnishes room.counters).ledger
  unfold wrapperFor
  apply Succeeds.get_bind
  rw [show (Session.start settings program).settings = settings from rfl, named]
  dsimp only
  rw [show (Session.start settings program).wrappers.get? name = none from rfl]
  dsimp only
  refine Succeeds.bind
    (⟨_, _, ends_ensureClass.2 ⟨rfl, rfl⟩, rfl⟩ :
      Succeeds _ _ fun _ after =>
        after =
          { Session.start settings program with
            program := (program.ensureClass name (Wrapper.declaration name)).2 }) ?_
  rintro created _ rfl
  have elsewhere {other : String} (apart : other ≠ name) :
      (program.ensureClass name (Wrapper.declaration name)).2.class? other = program.class? other := by
    rw [Program.class?_ensureClass, if_neg apart]
  have registered :
      (program.ensureClass name (Wrapper.declaration name)).2.class? name =
        some (Wrapper.declaration name) := by
    rw [Program.class?_ensureClass, if_pos rfl, room.wrapper]
    rfl
  refine (buildWrapper_builds (ledger.withProgram (elsewhere room.differs.symm)) registered rfl
    room.differs ((elsewhere room.wrapperRoot.symm).trans room.root) room.wrapperRoot
    room.countersRoot element).bind ?_
  rintro _ built ⟨staticCounter, rfl, has⟩
  apply Succeeds.modify_bind
  cases created with
  | true =>
    apply record_bind
    intro journal
    exact .pure ⟨staticCounter, rfl, has⟩
  | false => exact .pure ⟨staticCounter, rfl, has⟩

end Transform

/-! ## What is found -/

namespace Program

variable {program : Program} {counter name : String} {sink : Sink} {element : Ty} {field : FieldRef}

/-- If no two methods of a class have the same name and parameters, each is found by them. -/
theorem findMethod?_of_getElem?
    {owner : String}
    {declaration : Class}
    {index : Nat}
    {method : Method}
    (found : program.class? owner = some declaration)
    (distinct : (declaration.methods.map fun method => (method.name, method.parameters)).Nodup)
    (located : declaration.methods[index]? = some method) :
    program.findMethod? owner method.name method.parameters = some ⟨owner, index⟩ := by
  refine findMethod?_eq_some_iff.2 ⟨rfl, ?_, fun earlier before fits => ?_⟩
  · simp [fitsAt_eq_getElem? found, located, Method.fits]
  · rw [fitsAt_eq_getElem? found] at fits
    obtain ⟨other, there, same⟩ := (Option.any_eq_true _ _).1 fits
    obtain ⟨bounded, -⟩ := List.getElem?_eq_some_iff.1 there
    have keys :
        (declaration.methods.map fun method => (method.name, method.parameters))[earlier]? =
          (declaration.methods.map fun method => (method.name, method.parameters))[index]? := by
      simpa [there, located, Method.fits] using same
    have equal := (List.getElem?_inj (by rwa [List.length_map]) distinct).1 keys
    exact Nat.ne_of_lt before equal

namespace HasTally

variable (has : program.HasTally counter sink field)
include has

theorem declaredField_eq : Run.declaredField program field = field := by
  obtain ⟨declaration, table, found, holds, named, declared⟩ := has.declares
  refine Run.declaredField_of_declaredField? ?_
  rw [has.tallies, FieldRef.ofClass, Program.declaredField?, found, Option.bind_some]
  obtain ⟨other, located⟩ := Option.isSome_iff_exists.1 declared
  have same : other.name = field.name := by simpa using List.find?_some located
  obtain ⟨typed, isStatic⟩ := holds.fields other (List.mem_of_find?_eq_some located)
  rw [located, Option.map_some, Field.reference, same, typed, isStatic, holds.name_eq, named]

/-- The class of the counters stands directly below the root class, and nothing initializes it. -/
theorem superclass?_eq : program.superclass? counter = some objectClass := by
  obtain ⟨declaration, table, found, holds, -⟩ := has.declares
  rw [superclass?, found, Option.bind_some, holds.superclass_eq]

theorem findMethod?_staticInitializer :
    program.findMethod? counter staticInitializerName [] = none := by
  obtain ⟨declaration, table, found, holds, -⟩ := has.declares
  cases search : program.findMethod? counter staticInitializerName [] with
  | none => rfl
  | some id =>
    obtain ⟨same, declared, there, called, -⟩ := findMethod?_eq_some search
    obtain ⟨other, foundOther, located⟩ := Option.bind_eq_some_iff.1 there
    rw [same, found] at foundOther
    cases foundOther
    obtain ⟨key, label, owner, field, -, -, rfl⟩ :=
      holds.methods declared (List.mem_of_getElem? located)
    have letters := congrArg String.toList called
    simp [tallyMethod, staticInitializerName] at letters

end HasTally

namespace HasWrapper

variable
    {staticCounter : FieldRef}
    (has : program.HasWrapper counter sink (.ofElement name element staticCounter))
include has

/-- A field of a wrapper is declared where it is named. -/
theorem declaredField_eq
    (member : field ∈ (Wrapper.ofElement name element staticCounter).fields) :
    Run.declaredField program field = field := by
  have unflagged : Field.synthetic.includes Field.static = false := by decide
  have complete : program.class? name = _ := has.complete
  have distinct :
      arrayField ≠ serialField ∧ arrayField ≠ readsField ∧ arrayField ≠ writesField ∧
        serialField ≠ readsField ∧ serialField ≠ writesField ∧ readsField ≠ writesField := by
    decide
  refine Run.declaredField_of_declaredField? ?_
  simp only [Wrapper.fields, Wrapper.ofElement, Profile.ofClass, List.mem_cons, List.not_mem_nil,
    or_false] at member
  rcases member with rfl | rfl | rfl | rfl <;>
    simp [declaredField?, complete, FieldRef.ofInstance, Class.field?, Wrapper.complete,
      Wrapper.storage, Wrapper.declaration, Class.plain, Profile.fields, Profile.countField,
      Field.reference, Field.isStatic, unflagged, distinct, Wrapper.ofElement]

/-- A call of a method of a wrapper, searched from its class, leads to the body that it was given. -/
theorem target?_eq
    {index : Nat}
    {reference : MethodRef}
    {body : Body}
    (located :
      ((Wrapper.ofElement name element staticCounter).complete sink).methods[index]? =
        some (Wrapper.member reference body))
    (owned : reference.owner = name) :
    Run.target? program name reference = some ⟨name, index⟩ ∧
      program.body? ⟨name, index⟩ = some body := by
  have distinct :
      (((Wrapper.ofElement name element staticCounter).complete sink).methods.map fun method =>
        (method.name, method.parameters)).Nodup := by
    have names : readIncrementor ≠ writeIncrementor ∧ constructorName ≠ getMethod := by decide
    simpa [Wrapper.complete, Wrapper.methods, Wrapper.member, Profile.methods,
      Profile.incrementorMethod, Wrapper.ofElement] using names
  have search : program.findMethod? name reference.name reference.parameters = some ⟨name, index⟩ :=
    findMethod?_of_getElem? has.complete distinct located
  constructor
  · rw [target?_eq_bind, resolveMethod?_of_findMethod? search]
    rw [owned]
    exact search
  · have complete : program.class? name = _ := has.complete
    rw [body?, method?, complete, Option.bind_some, located]
    rfl

end HasWrapper
end Program
end AccessProfiler
