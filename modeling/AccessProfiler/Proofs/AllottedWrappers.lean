import AccessProfiler.Proofs.AllottedRequests
import AccessProfiler.Proofs.WrapperMembers

/-!
# Wrappers with one answer

A wrapper is complete when it is given away: its class has all its members, and its instances are counted
on the counter that the base allots (`Session.wrapperOf`).  So it does not matter who asked for it first,
as long as no other element type has the name.  While the class is being made it is the only one that
changes (`Session.Becomes`).
-/

namespace AccessProfiler

/-- A generated field of instances is referred to as one of an instance. -/
theorem Field.reference_synthetic (owner name : String) (type : Ty) :
    Field.reference ⟨name, type, Field.synthetic⟩ owner = .ofInstance owner name type := by
  have ofInstance : Field.isStatic ⟨name, type, Field.synthetic⟩ = false := by
    show Field.synthetic.includes Field.static = false
    decide
  rw [Field.reference, ofInstance]
  rfl

namespace Session

/-- The wrapper of an element type, whenever it is asked for. -/
def wrapperOf (base : Session) (name : String) (element : Ty) : Wrapper :=
  .ofElement name element (base.counters.allotted (.instances name))

/-- What comes in with a wrapper. -/
def wrapperAssets (name : String) : List Asset :=
  numberAssets (.instances name) ++ [.wrapper name]

/-- One class has these members now and methods of these names were generated for it; apart from
events, nothing else happened. -/
structure Becomes
    (base : Session)
    (name : String)
    (declaration : Class)
    (fields : List Field)
    (methods : List Method)
    (members : List String)
    (session : Session) : Prop where
  declared : session.program.class? name = some { declaration with fields, methods }
  others : ∀ other, other ≠ name → session.program.class? other = base.program.class? other
  generated :
    ∀ method, method ∈ session.generated ↔
      method ∈ base.generated ∨ ∃ member ∈ members, method = name ++ "." ++ member
  same :
    ∃ program generated journal, session = { base with program, generated, journal }

/-- The wrappers of the session are the ones that the base has in store, complete with their classes, and
nothing has the name of one that was not asked for. -/
structure Wraps (base : Session) (elements : Ty → Prop) (session : Session) : Prop where
  wrappers :
    ∀ name wrapper, session.wrappers.get? name = some wrapper →
      ∃ element, elements element ∧ Wrapper.nameFor? base.settings element = some name ∧
        wrapper = base.wrapperOf name element ∧ session.Has (.number (.instances name)) ∧
        session.program.class? name = some (wrapper.complete base.settings.sink)
  vacant :
    ∀ element name, elements element → Wrapper.nameFor? base.settings element = some name →
      session.wrappers.get? name = none →
        session.program.class? name = none ∧ session.profiles.get? name = none

/-- The names of wrappers tell the element types apart, and none is that of the class of the counters. -/
structure NamesWrappers (base : Session) (elements : Ty → Prop) : Prop where
  apart :
    ∀ first, elements first → ∀ second, elements second → ∀ name,
      Wrapper.nameFor? base.settings first = some name →
        Wrapper.nameFor? base.settings second = some name → first = second
  counters :
    ∀ element, elements element →
      Wrapper.nameFor? base.settings element ≠ some base.counters.className

/-- The name is one for the class of the counters or for a wrapper. -/
def Reserves (base : Session) (elements : Ty → Prop) (name : String) : Prop :=
  name = base.counters.className ∨
    ∃ element, elements element ∧ Wrapper.nameFor? base.settings element = some name

/-- Whatever is asked for has one answer: the owners and the element types that may ask are told apart,
and the classes of elements are none that come in. -/
structure Foresees
    (base : Session)
    (asked : CounterOwner → Prop)
    (elements : Ty → Prop) : Prop where
  names : base.NamesWrappers elements
  apart : CounterTable.Apart asked
  books : base.Books base.counters.className base.settings.sink
  asks :
    ∀ element name, elements element → Wrapper.nameFor? base.settings element = some name →
      asked (.instances name)
  classes :
    ∀ element, elements element → ∀ name, element.innermost.className? = some name →
      ¬ base.Reserves elements name
  root : ¬ base.Reserves elements objectClass
  text : ¬ base.Reserves elements stringClass

/-- The session has nothing but what the base foresees. -/
structure Foreseen
    (base : Session)
    (asked : CounterOwner → Prop)
    (elements : Ty → Prop)
    (session : Session) : Prop where
  allots : base.Allots asked session
  wraps : base.Wraps elements session
  settings : session.settings = base.settings

/-- At most the class of this name changed. -/
structure Touches (name : String) (before after : Session) : Prop where
  others : ∀ other, other ≠ name → after.program.class? other = before.program.class? other
  same : ∃ program, after = { before with program }

/-- The wrapper of an element type was made under this name, with its class. -/
structure Makes (base : Session) (name : String) (element : Ty) (before after : Session) : Prop where
  declared :
    after.program.class? name =
      some ((base.wrapperOf name element).complete base.settings.sink)
  others : ∀ other, other ≠ name → after.program.class? other = before.program.class? other
  generated :
    ∀ method, method ∈ after.generated ↔
      method ∈ before.generated ∨
        ∃ member ∈ Wrapper.memberNames, method = name ++ "." ++ member
  same :
    ∃ program generated journal,
      after =
        { before with
          program
          profiles := before.profiles.put name (base.wrapperOf name element).profile
          wrappers := before.wrappers.put name (base.wrapperOf name element)
          generated
          journal }

/-- What was asked for came in, and nothing changed under other names than the reserved ones. -/
structure Supplies
    (base : Session)
    (elements : Ty → Prop)
    (before after : Session)
    (assets : List Asset) : Prop where
  acquires : before.Acquires after assets
  settings : after.settings = before.settings
  profiles :
    ∀ name, ¬ base.Reserves elements name →
      after.profiles.get? name = before.profiles.get? name
  others :
    ∀ name, ¬ base.Reserves elements name →
      after.program.class? name = before.program.class? name

theorem Touches.profiles
    {before after : Session}
    {name : String}
    (touches : Touches name before after) :
    after.profiles = before.profiles := by
  obtain ⟨program, rfl⟩ := touches.same
  rfl

theorem Allots.touches
    {base before after : Session}
    {asked : CounterOwner → Prop}
    {name : String}
    (allots : base.Allots asked before)
    (touches : Touches name before after)
    (differs : name ≠ base.counters.className) :
    base.Allots asked after := by
  have counters := touches.others _ differs.symm
  obtain ⟨program, rfl⟩ := touches.same
  exact allots.elsewhere rfl rfl rfl rfl rfl rfl counters

theorem Touches.trans
    {before between after : Session}
    {name : String}
    (touches : Touches name before between)
    (further : Touches name between after) :
    Touches name before after := by
  refine ⟨fun other differs => (further.others other differs).trans (touches.others other differs),
    ?_⟩
  obtain ⟨_, rfl⟩ := touches.same
  obtain ⟨program, rfl⟩ := further.same
  exact ⟨program, rfl⟩

theorem Touches.has_iff
    {before after : Session}
    {name : String}
    (touches : Touches name before after)
    (differs : name ≠ before.counters.className)
    (asset : Asset) :
    after.Has asset ↔ before.Has asset := by
  have counters := touches.others _ differs.symm
  obtain ⟨program, rfl⟩ := touches.same
  exact has_iff_of_same before { before with program } rfl rfl rfl counters asset

namespace Makes

variable
    {base before after : Session}
    {name : String}
    {element : Ty}
    (makes : base.Makes name element before after)
include makes

theorem has_iff (differs : name ≠ before.counters.className) (asset : Asset) :
    after.Has asset ↔ before.Has asset ∨ asset = .wrapper name := by
  have counters := makes.others _ differs.symm
  obtain ⟨program, generated, journal, same⟩ := makes.same
  cases asset with
  | counters =>
    have className : after.counters.className = before.counters.className := by rw [same]
    simp [Has, className, counters]
  | number owner => simp [Has, same]
  | tally owner =>
    have tallies :=
      has_tally_iff_of_same before after (by rw [same]) (by rw [same]) counters owner
    simpa using tallies
  | wrapper other =>
    simp only [Has, same, Table.get?_put, Asset.wrapper.injEq]
    split
    · rename_i isName
      simp [isName]
    · rename_i differs
      simp [differs]

/-- The counters are still the allotted ones, and the members of the wrapper are remembered. -/
theorem allots
    {asked : CounterOwner → Prop}
    (allots : base.Allots asked before)
    (differs : name ≠ base.counters.className) :
    base.Allots asked after := by
  have has := makes.has_iff (allots.books.labels.className ▸ differs)
  have counters := makes.others _ differs.symm
  have marked (method : String) :
      method ∈ after.generated ↔
        method ∈ base.generated ∨ ∃ asset, after.Has asset ∧ method ∈ base.marks asset := by
    rw [makes.generated, allots.generated]
    constructor
    · rintro ((old | ⟨asset, there, mark⟩) | ⟨member, among, rfl⟩)
      · exact .inl old
      · exact .inr ⟨asset, (has asset).2 (.inl there), mark⟩
      · exact .inr ⟨.wrapper name, (has _).2 (.inr rfl), List.mem_map.2 ⟨member, among, rfl⟩⟩
    · rintro (old | ⟨asset, there, mark⟩)
      · exact .inl (.inl old)
      · rcases (has asset).1 there with before | rfl
        · exact .inl (.inr ⟨asset, before, mark⟩)
        · obtain ⟨member, among, rfl⟩ := List.mem_map.1 mark
          exact .inr ⟨member, among, rfl⟩
  obtain ⟨program, generated, journal, rfl⟩ := makes.same
  exact ⟨allots.books.elsewhere rfl rfl rfl rfl counters, allots.kept, allots.fields, marked⟩

end Makes

namespace Wraps

variable {base before after : Session} {elements : Ty → Prop} (wraps : base.Wraps elements before)
include wraps

/-- Wrappers are a matter of the classes under their names. -/
theorem elsewhere
    (has : ∀ asset, before.Has asset → after.Has asset)
    (profiles : after.profiles = before.profiles)
    (wrappers : after.wrappers = before.wrappers)
    (program :
      ∀ element name, elements element → Wrapper.nameFor? base.settings element = some name →
        after.program.class? name = before.program.class? name) :
    base.Wraps elements after where
  wrappers name wrapper known := by
    obtain ⟨element, among, named, isWrapper, counts, declared⟩ :=
      wraps.wrappers name wrapper (wrappers ▸ known)
    exact ⟨element, among, named, isWrapper, has _ counts,
      (program element name among named).trans declared⟩
  vacant element name among named unknown := by
    rw [program element name among named, profiles]
    exact wraps.vacant element name among named (wrappers ▸ unknown)

/-- Requests for counters leave the wrappers alone. -/
theorem serves
    (names : base.NamesWrappers elements)
    (named : before.counters.className = base.counters.className)
    {assets : List Asset}
    (serves : before.Serves after assets) :
    base.Wraps elements after :=
  wraps.elsewhere (fun _ had => serves.has (.inl had)) serves.profiles serves.wrappers
    fun element name among isName => serves.others name (by
      rintro rfl
      exact names.counters element among (isName.trans (congrArg some named)))

end Wraps

section Making

variable
    {base before stored counted after : Session}
    {elements : Ty → Prop}
    {name : String}
    {element : Ty}
    {assets : List Asset}
    (named : before.counters.className = base.counters.className)
    (differs : name ≠ base.counters.className)
    (touches : Touches name before stored)
    (serves : stored.Serves counted assets)
    (makes : base.Makes name element counted after)
include named differs touches serves makes

theorem Makes.acquires : before.Acquires after (assets ++ [.wrapper name]) := by
  obtain ⟨program, same⟩ := touches.same
  have namedStored : stored.counters.className = base.counters.className := by rw [same, named]
  intro asset
  rw [makes.has_iff ((serves.className.trans namedStored).symm ▸ differs), serves.acquires,
    touches.has_iff (named.symm ▸ differs), List.mem_append, List.mem_singleton, or_assoc]

omit differs in
/-- Other classes than the one that was made and that of the counters are as they were. -/
theorem Makes.elsewhere {other : String} (apart : other ≠ name) :
    (other ≠ base.counters.className →
        after.program.class? other = before.program.class? other) ∧
      after.profiles.get? other = before.profiles.get? other ∧
      after.wrappers.get? other = before.wrappers.get? other := by
  obtain ⟨program, same⟩ := touches.same
  have namedStored : stored.counters.className = base.counters.className := by rw [same, named]
  obtain ⟨_, _, _, made⟩ := makes.same
  refine ⟨fun apartCounters => ?_, ?_, ?_⟩
  · rw [makes.others other apart, serves.others other (namedStored.symm ▸ apartCounters),
      touches.others other apart]
  · rw [made, Table.get?_put, if_neg apart, serves.profiles, same]
  · rw [made, Table.get?_put, if_neg apart, serves.wrappers, same]

/-- With the one that was made the wrappers are the ones in store. -/
theorem Makes.wraps
    (names : base.NamesWrappers elements)
    (wraps : base.Wraps elements before)
    (among : elements element)
    (isName : Wrapper.nameFor? base.settings element = some name)
    (counts : .number (.instances name) ∈ assets) :
    base.Wraps elements after := by
  have acquires := makes.acquires named differs touches serves
  have apartCounters
      {element : Ty}
      {other : String}
      (among : elements element)
      (isName : Wrapper.nameFor? base.settings element = some other) :
      other ≠ base.counters.className := by
    rintro rfl
    exact names.counters element among isName
  have made : after.wrappers.get? name = some (base.wrapperOf name element) := by
    obtain ⟨_, _, _, same⟩ := makes.same
    rw [same, Table.get?_put, if_pos rfl]
  refine ⟨fun other wrapper known => ?_, fun further other amongFurther isOther unknown => ?_⟩
  · by_cases same : other = name
    · subst same
      cases made.symm.trans known
      exact ⟨element, among, isName, rfl,
        (acquires _).2 (.inr (List.mem_append_left _ counts)), makes.declared⟩
    · obtain ⟨declared, -, wrappers⟩ := makes.elsewhere named touches serves same
      obtain ⟨given, amongGiven, isGiven, isWrapper, has, there⟩ :=
        wraps.wrappers other wrapper (wrappers ▸ known)
      exact ⟨given, amongGiven, isGiven, isWrapper, (acquires _).2 (.inl has),
        (declared (apartCounters amongGiven isGiven)).trans there⟩
  · have apart : other ≠ name := by
      rintro rfl
      cases made.symm.trans unknown
    obtain ⟨declared, profiles, wrappers⟩ := makes.elsewhere named touches serves apart
    rw [declared (apartCounters amongFurther isOther), profiles]
    exact wraps.vacant further other amongFurther isOther (wrappers ▸ unknown)

/-- What was made was supplied. -/
theorem Makes.supplies
    (among : elements element)
    (isName : Wrapper.nameFor? base.settings element = some name) :
    Supplies base elements before after (assets ++ [.wrapper name]) := by
  obtain ⟨program, same⟩ := touches.same
  obtain ⟨_, _, _, made⟩ := makes.same
  have apart {other : String} (free : ¬ base.Reserves elements other) : other ≠ name := by
    rintro rfl
    exact free (.inr ⟨element, among, isName⟩)
  exact
    { acquires := makes.acquires named differs touches serves
      settings := by rw [made, serves.settings, same]
      profiles := fun other free => (makes.elsewhere named touches serves (apart free)).2.1
      others := fun other free =>
        (makes.elsewhere named touches serves (apart free)).1 fun isCounters =>
          free (.inl isCounters) }

end Making

namespace Supplies

variable {base before between after : Session} {elements : Ty → Prop} {assets : List Asset}

theorem refl (session : Session) : Supplies base elements session session [] :=
  ⟨.refl session, rfl, fun _ _ => rfl, fun _ _ => rfl⟩

theorem trans
    {further : List Asset}
    (supplies : Supplies base elements before between assets)
    (second : Supplies base elements between after further) :
    Supplies base elements before after (assets ++ further) where
  acquires := supplies.acquires.trans second.acquires
  settings := second.settings.trans supplies.settings
  profiles name free := (second.profiles name free).trans (supplies.profiles name free)
  others name free := (second.others name free).trans (supplies.others name free)

/-- Counters are supplied when they are asked for. -/
theorem of_serves
    (named : before.counters.className = base.counters.className)
    (serves : before.Serves after assets) :
    Supplies base elements before after assets where
  acquires := serves.acquires
  settings := serves.settings
  profiles _ _ := by rw [serves.profiles]
  others name free := serves.others name fun same => free (.inl (same.trans named))

end Supplies

end Session

namespace Transform

/-- A field is declared where its name is free. -/
theorem addField_touches
    {before after : Session}
    {name : String}
    {declaration : Class}
    (found : before.program.class? name = some declaration)
    {field : Field}
    (free : declaration.field? field.name = none)
    {reference : FieldRef}
    (ends :
      Ends (changeProgram fun program => program.addField name field) before reference after) :
    reference = field.reference declaration.name ∧ Session.Touches name before after ∧
      after.program.class? name =
        some { declaration with fields := declaration.fields ++ [field] } := by
  obtain ⟨program, added, rfl⟩ := ends_changeProgram.1 ends
  have addedThere := Program.addField_of_class? found (Class.addField_of_absent free)
  rw [addedThere, Except.ok.injEq, Prod.mk.injEq] at added
  obtain ⟨rfl, rfl⟩ := added
  refine ⟨rfl, ⟨fun other differs => ?_, _, rfl⟩, ?_⟩
  · rw [Program.class?_modifyClass, if_neg differs]
  · rw [Program.class?_modifyClass, if_pos rfl, found]
    rfl

section Members

variable
    {base session after : Session}
    {name : String}
    {declaration : Class}
    {fields : List Field}
    {methods : List Method}
    {members : List String}
    (becomes : base.Becomes name declaration fields methods members session)
include becomes

theorem record_becomes
    {event : Event}
    {done : Unit}
    (ends : Ends (record event) session done after) :
    base.Becomes name declaration fields methods members after := by
  rw [ends_record] at ends
  subst ends
  obtain ⟨program, generated, journal, rfl⟩ := becomes.same
  exact ⟨becomes.declared, becomes.others, becomes.generated, program, generated, _, rfl⟩

/-- A field whose name is free is one more. -/
theorem addField_becomes
    (named : declaration.name = name)
    {field : Field}
    {reference : FieldRef}
    (ends :
      Ends (changeProgram fun program => program.addField name field) session reference after)
    (free : fields.find? (fun declared => declared.name == field.name) = none) :
    reference = field.reference name ∧
      base.Becomes name declaration (fields ++ [field]) methods members after := by
  obtain ⟨rfl, ⟨elsewhere, changed, rfl⟩, declared⟩ := addField_touches becomes.declared free ends
  obtain ⟨program, generated, journal, rfl⟩ := becomes.same
  exact ⟨by rw [named], declared,
    fun other differs => (elsewhere other differs).trans (becomes.others other differs),
    becomes.generated, changed, generated, journal, rfl⟩

theorem addGenerated_becomes
    {method : Method}
    {done : Unit}
    (ends : Ends (addGenerated name method) session done after) :
    base.Becomes name declaration fields (methods ++ [method]) (members ++ [method.name]) after := by
  obtain ⟨found, generated, located, -, marked, rfl⟩ := ends_addGenerated ends
  cases located.symm.trans becomes.declared
  obtain ⟨program, old, journal, same⟩ := becomes.same
  refine ⟨?_, fun other differs => ?_, fun other => ?_, _, generated, journal, by rw [same]⟩
  · rw [Program.class?_modifyClass, if_pos rfl, becomes.declared]
    rfl
  · rw [Program.class?_modifyClass, if_neg differs]
    exact becomes.others other differs
  · rw [marked, becomes.generated]
    simp only [List.mem_append, List.mem_singleton, or_and_right, exists_or, exists_eq_left,
      or_assoc]

/-- A method that counts accesses is declared where its name is free. -/
theorem incrementor_becomes
    {method : String}
    {field serial : FieldRef}
    {reference : MethodRef}
    (ends : Ends (incrementor name method field serial) session reference after)
    (free : methods.find? (fun declared => declared.name == method) = none) :
    reference = ⟨name, method, [], .void⟩ ∧
      base.Becomes name declaration fields
        (methods ++ [Profile.incrementorMethod base.settings.sink name method field serial])
        (members ++ [method]) after := by
  obtain ⟨program, old, journal, same⟩ := becomes.same
  have settings : session.settings = base.settings := by rw [same]
  have free : Class.methodNamed? { declaration with fields, methods } method = none := free
  unfold incrementor at ends
  rw [Ends.get_bind_iff, becomes.declared, Option.bind_some, free, settings] at ends
  obtain ⟨_, between, adds, ends⟩ := Ends.bind_iff.1 ends
  obtain ⟨_, last, records, ends⟩ := Ends.bind_iff.1 ends
  obtain ⟨rfl, rfl⟩ := Ends.pure_iff.1 ends
  exact ⟨rfl, record_becomes (addGenerated_becomes becomes adds) records⟩

/-- A member of a wrapper is declared where its name and parameters are free. -/
theorem addMember_becomes
    {profile : Profile}
    {body kept : Body}
    {this : LocalId}
    (reference : MethodRef)
    (owned : reference.owner = name)
    (received : body.receiver? = some this)
    (keeps :
      (if reference.name = constructorName then profile.patched base.settings.sink body else body) =
        kept)
    (free : ∀ method ∈ methods, method.fits reference.name reference.parameters = false)
    {given : MethodRef}
    (ends :
      Ends (addMember profile name reference.name reference.parameters reference.result body)
        session given after) :
    given = reference ∧
      base.Becomes name declaration fields (methods ++ [Wrapper.member reference kept])
        (members ++ [reference.name]) after := by
  obtain ⟨program, old, journal, same⟩ := becomes.same
  have settings : session.settings = base.settings := by rw [same]
  have unfit :
      Class.method? { declaration with fields, methods } reference.name reference.parameters =
        none :=
    List.find?_eq_none.2 fun method member => Bool.eq_false_iff.1 (free method member)
  obtain ⟨outcome, patches⟩ :=
    Draft.patchConstructor_of_receiver? base.settings.sink profile received
  have patched : outcome.toOption.getD body = profile.patched base.settings.sink body := by
    rw [Profile.patched, patches]
    cases outcome <;> rfl
  have declare
      {between : Session}
      (ends :
        Ends
          (do
            addGenerated name (Wrapper.member reference kept)
            return (⟨name, reference.name, reference.parameters, reference.result⟩ : MethodRef))
          session given between) :
      given = reference ∧
        base.Becomes name declaration fields (methods ++ [Wrapper.member reference kept])
          (members ++ [reference.name]) between := by
    obtain ⟨_, last, adds, ends⟩ := Ends.bind_iff.1 ends
    obtain ⟨rfl, rfl⟩ := Ends.pure_iff.1 ends
    subst owned
    exact ⟨rfl, addGenerated_becomes becomes adds⟩
  unfold addMember at ends
  rw [Ends.get_bind_iff, becomes.declared, Option.bind_some, unfit, settings] at ends
  dsimp only at ends
  rw [Option.isSome_none, if_neg Bool.false_ne_true] at ends
  split at ends
  · rename_i constructing
    rw [if_pos constructing, ← patched] at keeps
    subst keeps
    rw [patches] at ends
    exact declare ends
  · rename_i other
    rw [if_neg other] at keeps
    rw [keeps] at ends
    exact declare ends

end Members

section Profiles

variable
    {base session after : Session}
    {name : String}
    {declaration : Class}

/-- The members of a profile are declared on a class without methods that has none of their names. -/
theorem profileMembers_become
    (becomes : base.Becomes name declaration declaration.fields [] [] session)
    (named : declaration.name = name)
    (plain : ∀ field ∈ declaration.fields, isInstrumentationName field.name = false)
    {serial reads writes : FieldRef}
    {incReads incWrites : MethodRef}
    {first second third fourth : Session}
    (serialEnds :
      Ends (changeProgram fun program => program.addField name ⟨serialField, .int, Field.synthetic⟩)
        session serial first)
    (readsEnds :
      Ends (changeProgram fun program => program.addField name ⟨readsField, .int, Field.synthetic⟩)
        first reads second)
    (writesEnds :
      Ends (changeProgram fun program => program.addField name ⟨writesField, .int, Field.synthetic⟩)
        second writes third)
    (incReadsEnds : Ends (incrementor name readIncrementor reads serial) third incReads fourth)
    (incWritesEnds : Ends (incrementor name writeIncrementor writes serial) fourth incWrites after) :
    serial = .ofInstance name serialField .int ∧ reads = .ofInstance name readsField .int ∧
      writes = .ofInstance name writesField .int ∧
      incReads = ⟨name, readIncrementor, [], .void⟩ ∧
      incWrites = ⟨name, writeIncrementor, [], .void⟩ ∧
      base.Becomes name declaration (declaration.fields ++ Profile.fields)
        [Profile.incrementorMethod base.settings.sink name readIncrementor
            (.ofInstance name readsField .int) (.ofInstance name serialField .int),
          Profile.incrementorMethod base.settings.sink name writeIncrementor
            (.ofInstance name writesField .int) (.ofInstance name serialField .int)]
        [readIncrementor, writeIncrementor] after := by
  have free {field : String} (instruments : isInstrumentationName field) :
      declaration.fields.find? (fun declared => declared.name == field) = none := by
    rw [List.find?_eq_none]
    intro declared member same
    have differs := plain declared member
    rw [beq_iff_eq.1 same, instruments] at differs
    cases differs
  obtain ⟨rfl, becomesFirst⟩ := addField_becomes becomes named serialEnds (free (by decide))
  obtain ⟨rfl, becomesSecond⟩ := addField_becomes becomesFirst named readsEnds (by
    rw [List.find?_append, free (by decide)]
    decide)
  obtain ⟨rfl, becomesThird⟩ := addField_becomes becomesSecond named writesEnds (by
    rw [List.find?_append, List.find?_append, free (by decide)]
    decide)
  obtain ⟨rfl, becomesFourth⟩ := incrementor_becomes becomesThird incReadsEnds rfl
  obtain ⟨rfl, becomesLast⟩ := incrementor_becomes becomesFourth incWritesEnds (by
    have other : (readIncrementor == writeIncrementor) = false := by decide
    simp [Profile.incrementorMethod, other])
  simp only [Field.reference_synthetic, List.append_assoc] at becomesLast
  exact ⟨Field.reference_synthetic .., Field.reference_synthetic .., Field.reference_synthetic ..,
    rfl, rfl, becomesLast⟩

end Profiles

section Requests

variable
    {base before after : Session}
    {asked : CounterOwner → Prop}
    {name : String}
    (apart : CounterTable.Apart asked)
    (booksBase : base.Books base.counters.className base.settings.sink)
include apart booksBase

/-- A class without methods that is instrumented gets the members of its profile, and its instances are
counted on the allotted counter. -/
theorem instrument_allotted
    (allots : base.Allots asked before)
    (asks : asked (.instances name))
    {declaration : Class}
    (found : before.program.class? name = some declaration)
    (unprofiled : before.profiles.get? name = none)
    (named : declaration.name = name)
    (proper : declaration.isInterface = false)
    (fields : ∀ field ∈ declaration.fields, isInstrumentationName field.name = false)
    (methods : declaration.methods = [])
    (differs : name ≠ base.counters.className)
    {profile : Profile}
    (ends : Ends (instrument name) before profile after) :
    profile = .ofClass name (base.counters.allotted (.instances name)) ∧
      ∃ counted, base.Allots asked counted ∧
        before.Serves counted (Session.numberAssets (.instances name)) ∧
        Session.Becomes { counted with profiles := counted.profiles.put name profile } name
          declaration (declaration.fields ++ Profile.fields) (profile.methods base.settings.sink)
          [readIncrementor, writeIncrementor] after := by
  obtain ⟨known, -⟩ | ⟨-, located, built, there, -, builds, same⟩ := ends_instrument.1 ends
  · cases known.symm.trans unprofiled
  cases there.symm.trans found
  unfold buildProfile at builds
  simp only [Ends.bind_iff, Ends.get_iff, Ends.pure_iff] at builds
  obtain ⟨staticCounter, first, counts, _, second, records, serial, third, serialEnds, reads,
    fourth, readsEnds, writes, fifth, writesEnds, incReads, sixth, incReadsEnds, incWrites, seventh,
    incWritesEnds, _, _, ⟨rfl, rfl⟩, profile_eq, rfl⟩ := builds
  obtain ⟨rfl, allotsFirst, servesFirst, -⟩ :=
    counterFor_allotted apart booksBase allots asks counts
  obtain ⟨allotsSecond, servesSecond⟩ := record_allotted allotsFirst records
  have serves := servesFirst.trans servesSecond
  have className := allots.books.labels.className
  have start : second.Becomes name declaration declaration.fields [] [] second :=
    { declared := by
        rw [serves.others name (className ▸ differs), found, ← methods]
      others := fun _ _ => rfl
      generated := by simp
      same := ⟨_, _, _, rfl⟩ }
  have settings : second.settings.sink = base.settings.sink := allotsSecond.books.labels.reports
  obtain ⟨rfl, rfl, rfl, rfl, rfl, becomes⟩ := profileMembers_become start named fields serialEnds
    readsEnds writesEnds incReadsEnds incWritesEnds
  rw [Program.callKind_eq becomes.declared proper] at profile_eq
  have given : profile = .ofClass name (base.counters.allotted (.instances name)) := profile_eq
  obtain ⟨program, generated, journal, rfl⟩ := becomes.same
  refine ⟨given, second, allotsSecond, serves, ?_, ?_, ?_, program, generated, _, same⟩
  · rw [same]
    show program.class? name = _
    rw [show program.class? name = _ from becomes.declared, given]
    simp [Profile.fields, Profile.countField, Profile.methods, Profile.ofClass, settings]
  · rw [same]
    exact becomes.others
  · rw [same]
    exact becomes.generated

/-- On a class without members all members of a wrapper are declared, and it counts on the allotted
counter. -/
theorem buildWrapper_allotted
    (allots : base.Allots asked before)
    (asks : asked (.instances name))
    (found : before.program.class? name = some (Wrapper.declaration name))
    (unprofiled : before.profiles.get? name = none)
    (differs : name ≠ base.counters.className)
    {element : Ty}
    {wrapper : Wrapper}
    (ends : Ends (buildWrapper name element) before wrapper after) :
    wrapper = base.wrapperOf name element ∧
      ∃ stored counted members, Session.Touches name before stored ∧ base.Allots asked counted ∧
        stored.Serves counted (Session.numberAssets (.instances name)) ∧
        (∀ member, member ∈ members ↔ member ∈ Wrapper.memberNames) ∧
        Session.Becomes
          { counted with profiles := counted.profiles.put name wrapper.profile } name
          (Wrapper.declaration name) (wrapper.storage :: Profile.fields)
          (wrapper.profile.methods base.settings.sink ++ wrapper.methods base.settings.sink)
          members after := by
  unfold buildWrapper at ends
  simp only [Ends.bind_iff, Ends.pure_iff] at ends
  obtain ⟨_, stored, storedEnds, profile, built, instruments, _, first, firstEnds, _, second,
    secondEnds, _, third, thirdEnds, _, fourth, fourthEnds, given, rfl⟩ := ends
  obtain ⟨rfl, touches, declared⟩ := addField_touches found rfl storedEnds
  rw [Field.reference_synthetic] at given firstEnds secondEnds thirdEnds fourthEnds
  have proper : (Wrapper.declaration name).isInterface = false := by
    show (Class.syntheticFlag.union Class.wrapperFlag).includes Class.interfaceFlag = false
    decide
  have plain : isInstrumentationName arrayField = false := by decide
  obtain ⟨rfl, counted, allotsCounted, serves, becomes⟩ :=
    instrument_allotted apart booksBase
      (allots.touches touches differs) asks declared (touches.profiles ▸ unprofiled) rfl proper
      (by simp [Wrapper.declaration, Class.plain, plain]) rfl differs instruments
  have reports : counted.settings.sink = base.settings.sink := allotsCounted.books.labels.reports
  let made : Wrapper := base.wrapperOf name element
  have constructs (body : Body) :
      (if constructorName = constructorName then
          made.profile.patched counted.settings.sink body else body) =
        made.profile.patched base.settings.sink body := by
    rw [if_pos rfl, reports]
  have getPlain : getMethod ≠ constructorName := by decide
  have setPlain : setMethod ≠ constructorName := by decide
  obtain ⟨rfl, becomesFirst⟩ :=
    addMember_becomes becomes made.fromArray rfl rfl (constructs _) (by
      simp [Profile.methods, Profile.incrementorMethod, Method.fits, made, Session.wrapperOf,
        Wrapper.ofElement]) firstEnds
  obtain ⟨rfl, becomesSecond⟩ :=
    addMember_becomes becomesFirst made.withLength rfl rfl (constructs _) (by
      simp [Profile.methods, Profile.incrementorMethod, Method.fits, made, Session.wrapperOf,
        Wrapper.ofElement, Wrapper.member]) secondEnds
  obtain ⟨rfl, becomesThird⟩ :=
    addMember_becomes becomesSecond made.get rfl rfl (if_neg getPlain) (by
      simp [Profile.methods, Profile.incrementorMethod, Method.fits, made, Session.wrapperOf,
        Wrapper.ofElement, Wrapper.member, getPlain.symm]) thirdEnds
  obtain ⟨rfl, becomesLast⟩ :=
    addMember_becomes becomesThird made.set rfl rfl (if_neg setPlain) (by
      simp [Profile.methods, Profile.incrementorMethod, Method.fits, made, Session.wrapperOf,
        Wrapper.ofElement, Wrapper.member]) fourthEnds
  subst given
  refine ⟨rfl, _, counted, _, touches, allotsCounted, serves, ?_, becomesLast.declared,
    becomesLast.others, becomesLast.generated, becomesLast.same⟩
  intro member
  simp [Wrapper.memberNames, made, Session.wrapperOf, Wrapper.ofElement]
  tauto

/-- A wrapper whose name is free is made. -/
theorem wrapperFor_makes
    (allots : base.Allots asked before)
    (asks : asked (.instances name))
    (vacant : before.program.class? name = none)
    (unprofiled : before.profiles.get? name = none)
    (differs : name ≠ base.counters.className)
    {element : Ty}
    {found : Option Wrapper}
    (ends :
      Ends
        (do
          let created ← ensureClass name (Wrapper.declaration name)
          let wrapper ← buildWrapper name element
          modify fun session => { session with wrappers := session.wrappers.put name wrapper }
          if created then
            record (.general .wrapperSynthesized (name ++ " wraps " ++ wrapper.arrayType.render))
          return some wrapper)
        before found after) :
    found = some (base.wrapperOf name element) ∧
      ∃ stored counted, Session.Touches name before stored ∧ base.Allots asked counted ∧
        stored.Serves counted (Session.numberAssets (.instances name)) ∧
        base.Makes name element counted after := by
  simp only [Ends.bind_iff, Ends.modify_iff] at ends
  obtain ⟨created, first, ensures, wrapper, built, builds, _, _, ⟨-, rfl⟩, ends⟩ := ends
  obtain ⟨-, firstSame⟩ := ends_ensureClass.1 ensures
  have declared : first.program.class? name = some (Wrapper.declaration name) := by
    rw [firstSame]
    show (before.program.ensureClass name (Wrapper.declaration name)).2.class? name = _
    rw [Program.class?_ensureClass, if_pos rfl, vacant]
    rfl
  have touches : Session.Touches name before first := by
    refine ⟨fun other apart => ?_, _, firstSame⟩
    rw [firstSame]
    show (before.program.ensureClass name (Wrapper.declaration name)).2.class? other = _
    rw [Program.class?_ensureClass, if_neg apart]
  obtain ⟨rfl, stored, counted, members, stores, allotsCounted, serves, listed, becomes⟩ :=
    buildWrapper_allotted apart booksBase (allots.touches touches differs) asks declared
      (touches.profiles ▸ unprofiled) differs builds
  have finish :
      found = some (base.wrapperOf name element) ∧
        ∃ journal,
          after =
            { built with
              wrappers := built.wrappers.put name (base.wrapperOf name element), journal } := by
    cases created with
    | true =>
      obtain ⟨_, _, records, ends⟩ := Ends.bind_iff.1 ends
      obtain ⟨rfl, rfl⟩ := Ends.pure_iff.1 ends
      exact ⟨rfl, _, ends_record.1 records⟩
    | false =>
      obtain ⟨rfl, rfl⟩ := Ends.pure_iff.1 ends
      exact ⟨rfl, _, rfl⟩
  obtain ⟨rfl, journal, rfl⟩ := finish
  obtain ⟨program, generated, _, same⟩ := becomes.same
  refine ⟨rfl, stored, counted, touches.trans stores, allotsCounted, serves, becomes.declared,
    becomes.others, fun method => ?_, program, generated, journal, by rw [same]⟩
  simp only [becomes.generated, listed]

/-- A request has one answer, and afterwards the wrapper is there with its class. -/
theorem wrapperFor_allotted
    {elements : Ty → Prop}
    (names : base.NamesWrappers elements)
    (asks :
      ∀ element name, elements element → Wrapper.nameFor? base.settings element = some name →
        asked (.instances name))
    (allots : base.Allots asked before)
    (wraps : base.Wraps elements before)
    (settings : before.settings = base.settings)
    {element : Ty}
    (among : elements element)
    {found : Option Wrapper}
    (ends : Ends (wrapperFor element) before found after) :
    found = (Wrapper.nameFor? base.settings element).map (base.wrapperOf · element) ∧
      base.Allots asked after ∧ base.Wraps elements after ∧
      Session.Supplies base elements before after
        (((Wrapper.nameFor? base.settings element).map Session.wrapperAssets).getD []) := by
  have className := allots.books.labels.className
  unfold wrapperFor at ends
  rw [Ends.get_bind_iff, settings] at ends
  dsimp only at ends
  cases named : Wrapper.nameFor? base.settings element with
  | none =>
    rw [named] at ends
    obtain ⟨rfl, rfl⟩ := Ends.pure_iff.1 ends
    exact ⟨rfl, allots, wraps, .refl _⟩
  | some name =>
    rw [named] at ends
    dsimp only at ends
    cases known : before.wrappers.get? name with
    | some wrapper =>
      rw [known] at ends
      obtain ⟨rfl, rfl⟩ := Ends.pure_iff.1 ends
      obtain ⟨other, amongOther, namedOther, rfl, counts, -⟩ := wraps.wrappers name wrapper known
      obtain rfl := names.apart other amongOther element among name namedOther named
      refine ⟨rfl, allots, wraps, { Session.Supplies.refl _ with
        acquires := (Session.Acquires.refl _).of_has ?_ }⟩
      obtain ⟨counter, given⟩ := Option.isSome_iff_exists.1 counts
      have present := allots.books.has_counters given
      have has : Session.Has _ (.wrapper name) := Option.isSome_iff_exists.2 ⟨_, known⟩
      simpa [Session.wrapperAssets, Session.numberAssets] using ⟨present, counts, has⟩
    | none =>
      rw [known] at ends
      obtain ⟨vacant, unprofiled⟩ := wraps.vacant element name among named known
      have differs : name ≠ base.counters.className := by
        rintro rfl
        exact names.counters element among named
      obtain ⟨rfl, stored, counted, touches, allotsCounted, serves, makes⟩ :=
        wrapperFor_makes apart booksBase allots (asks element name among named) vacant unprofiled
          differs ends
      exact ⟨rfl, makes.allots allotsCounted differs,
        makes.wraps className differs touches serves names wraps among named
          (Session.mem_numberAssets.2 (.inr rfl)),
        makes.supplies className differs touches serves among named⟩

end Requests

section Foreseen

variable
    {base before after : Session}
    {asked : CounterOwner → Prop}
    {elements : Ty → Prop}

/-- To record an event changes nothing of this. -/
theorem record_foreseen
    (foreseen : base.Foreseen asked elements before)
    {event : Event}
    {done : Unit}
    (ends : Ends (record event) before done after) :
    base.Foreseen asked elements after ∧ Session.Supplies base elements before after [] := by
  obtain ⟨allots, serves⟩ := record_allotted foreseen.allots ends
  rw [ends_record] at ends
  subst ends
  exact ⟨⟨allots, foreseen.wraps.elsewhere (fun _ had => serves.has (.inl had)) rfl rfl
    fun _ _ _ _ => rfl, foreseen.settings⟩, .of_serves foreseen.allots.books.labels.className serves⟩

variable (foresees : base.Foresees asked elements) (foreseen : base.Foreseen asked elements before)
include foresees foreseen

/-- Counters that came in were foreseen. -/
theorem foreseen_of_serves
    {assets : List Asset}
    (allots : base.Allots asked after)
    (serves : before.Serves after assets) :
    base.Foreseen asked elements after ∧ Session.Supplies base elements before after assets :=
  have named := foreseen.allots.books.labels.className
  ⟨⟨allots, foreseen.wraps.serves foresees.names named serves,
    serves.settings.trans foreseen.settings⟩, .of_serves named serves⟩

/-- The counters of a type are the ones that were foreseen. -/
theorem typeCounter_foreseen
    {name : String}
    (asksReads : asked (.reads name))
    (asksWrites : asked (.writes name))
    {found : TypeCounter}
    (ends : Ends (typeCounter name) before found after) :
    found = base.typeCounterOf name ∧ base.Foreseen asked elements after ∧
      Session.Supplies base elements before after (Session.typeAssets name) := by
  obtain ⟨same, allots, serves⟩ :=
    typeCounter_allotted foresees.apart foresees.books foreseen.allots asksReads asksWrites ends
  exact ⟨same, foreseen_of_serves foresees foreseen allots serves⟩

/-- The counter of the calls under a name is the one that was foreseen. -/
theorem callCounter_foreseen
    {name : String}
    (asks : asked (.calls name))
    {found : CallCounter}
    (ends : Ends (callCounter name) before found after) :
    found = base.callCounterOf name ∧ base.Foreseen asked elements after ∧
      Session.Supplies base elements before after (Session.callAssets name) := by
  obtain ⟨same, allots, serves⟩ :=
    callCounter_allotted foresees.apart foresees.books foreseen.allots asks ends
  exact ⟨same, foreseen_of_serves foresees foreseen allots serves⟩

/-- The wrapper of an element type is the one that was foreseen. -/
theorem wrapperFor_foreseen
    {element : Ty}
    (among : elements element)
    {found : Option Wrapper}
    (ends : Ends (wrapperFor element) before found after) :
    found = (Wrapper.nameFor? base.settings element).map (base.wrapperOf · element) ∧
      base.Foreseen asked elements after ∧
      Session.Supplies base elements before after
        (((Wrapper.nameFor? base.settings element).map Session.wrapperAssets).getD []) := by
  obtain ⟨same, allots, wraps, supplies⟩ :=
    wrapperFor_allotted foresees.apart foresees.books foresees.names foresees.asks foreseen.allots
      foreseen.wraps foreseen.settings among ends
  exact ⟨same, ⟨allots, wraps, supplies.settings.trans foreseen.settings⟩, supplies⟩

end Foreseen

end Transform
end AccessProfiler
