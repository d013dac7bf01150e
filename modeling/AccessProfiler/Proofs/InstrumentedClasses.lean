import AccessProfiler.Proofs.Ledger
import AccessProfiler.Proofs.Naming

/-!
# Instrumenting classes

A class of the program gets a profile on request, and exactly the members that the profile names
(`Transform.instrument_succeeds`).  The pass that does so for every class that is transformed
therefore succeeds, and leaves the original program furnished with the profiles of the session
(`Pass.instrumentAll_succeeds`).
-/

namespace AccessProfiler

/-- Every class is registered under its own name. -/
def Program.WellNamed (program : Program) : Prop :=
  ∀ entry ∈ program.entries, entry.2.name = entry.1

instance (program : Program) : Decidable program.WellNamed :=
  inferInstanceAs (Decidable (∀ entry ∈ program.entries, _))

theorem Program.WellNamed.name_eq
    {program : Program}
    (wellNamed : program.WellNamed)
    {name : String}
    {declaration : Class}
    (found : program.class? name = some declaration) :
    declaration.name = name :=
  wellNamed _ (Program.mem_entries_of_class? found)

/-- The session made of an original program what its profiles and a plan say, up to calls of a kind. -/
structure Session.Furnishes
    (counter : String)
    (sink : Sink)
    (Tally : Instruction → Prop)
    (plan : Plan)
    (original : Program)
    (session : Session) : Prop where
  ledger : session.Ledger counter sink
  counterName : session.settings.counterClassName = counter
  furnished : original.Furnished counter sink Tally session.profiles plan session.program
  profiled :
    ∀ name profile, session.profiles.get? name = some profile →
      (Session.start session.settings original).isTransformableClass name

/-- One class of a session became this, the class of the counters aside. -/
structure Session.Declares
    (counter : String)
    (sink : Sink)
    (base : Session)
    (name : String)
    (declaration : Class)
    (session : Session) : Prop where
  ledger : session.Ledger counter sink
  declared : session.program.class? name = some declaration
  others : ∀ other, other ≠ name → session.program.class? other = base.program.class? other
  counters : session.counters = base.counters
  profiles : session.profiles = base.profiles
  settings : session.settings = base.settings
  generated :
    ∀ method ∈ session.generated,
      method ∈ base.generated ∨ ∃ given, IsIncrementor given ∧ method = name ++ "." ++ given

section Members

variable
    {counter : String}
    {sink : Sink}
    {base session : Session}
    {name : String}
    {declaration : Class}

theorem Session.Declares.refl
    (ledger : session.Ledger counter sink)
    (found : session.program.class? name = some declaration) :
    session.Declares counter sink name declaration session :=
  ⟨ledger, found, fun _ _ => rfl, rfl, rfl, rfl, fun _ member => .inl member⟩

/-- The declaration may change. -/
theorem Session.Declares.redeclare
    (declares : base.Declares counter sink name declaration session)
    (differs : name ≠ counter)
    (changed : Class) :
    base.Declares counter sink name changed
      { session with program := session.program.modifyClass name fun _ => changed } where
  ledger := declares.ledger.withProgram <| by
    rw [Program.class?_modifyClass, if_neg (Ne.symm differs)]
  declared := by
    show (session.program.modifyClass name fun _ => changed).class? name = some changed
    rw [Program.class?_modifyClass, if_pos rfl, declares.declared]
    rfl
  others other elsewhere := by
    show (session.program.modifyClass name fun _ => changed).class? other = _
    rw [Program.class?_modifyClass, if_neg elsewhere]
    exact declares.others other elsewhere
  counters := declares.counters
  profiles := declares.profiles
  settings := declares.settings
  generated := declares.generated

namespace Transform

/-- A class gets a field that counts for each instance if it has none of that name. -/
theorem declareCount_succeeds
    (declares : base.Declares counter sink name declaration session)
    (differs : name ≠ counter)
    (named : declaration.name = name)
    (field : String)
    (free : declaration.field? field = none) :
    Succeeds
      (changeProgram fun program => program.addField name ⟨field, .int, Field.synthetic⟩) session
      fun reference after => reference = .ofInstance name field .int ∧
        base.Declares counter sink name
          { declaration with fields := declaration.fields ++ [Profile.countField field] } after := by
  have added :
      declaration.addField (Profile.countField field) =
        .ok ((Profile.countField field).reference declaration.name,
          { declaration with fields := declaration.fields ++ [Profile.countField field] }) :=
    Class.addField_of_absent free
  have reference :
      (Profile.countField field).reference declaration.name = .ofInstance name field .int := by
    have instance' : (Profile.countField field).isStatic = false := by
      have : Field.synthetic.includes Field.static = false := by decide
      exact this
    rw [Field.reference, instance', named]
    rfl
  exact changeProgram_succeeds (Program.addField_of_class? declares.declared added)
    ⟨reference, declares.redeclare differs _⟩

/-- A class gets a method that counts an access if it has none of that name. -/
theorem incrementor_succeeds
    (declares : base.Declares counter sink name declaration session)
    (differs : name ≠ counter)
    {method : String}
    (incrementing : IsIncrementor method)
    (free : declaration.methodNamed? method = none)
    (field serial : FieldRef) :
    Succeeds (incrementor name method field serial) session fun reference after =>
      reference = ⟨name, method, [], .void⟩ ∧
        base.Declares counter sink name
          { declaration with
            methods :=
              declaration.methods ++
                [Profile.incrementorMethod sink name method field serial] }
          after := by
  unfold incrementor
  apply Succeeds.get_bind
  rw [declares.declared, Option.bind_some, free, declares.ledger.reports]
  have absent : declaration.method? method [] = none := by
    rw [Class.method?, List.find?_eq_none]
    intro other member fits
    have := List.find?_eq_none.1 free other member
    simp only [Method.fits, Bool.and_eq_true] at fits
    exact this fits.1
  have changed := declares.redeclare differs
    { declaration with
      methods := declaration.methods ++ [Profile.incrementorMethod sink name method field serial] }
  have added :
      Succeeds (addGenerated name (Profile.incrementorMethod sink name method field serial)) session
        fun _ after =>
          base.Declares counter sink name
            { declaration with
              methods :=
                declaration.methods ++
                  [Profile.incrementorMethod sink name method field serial] }
            after := by
    refine addGenerated_succeeds declares.declared absent ?_
    intro generated marked
    refine { changed with
      ledger := changed.ledger.annotate generated session.transformed session.journal
      generated := ?_ }
    intro other member
    rcases marked with rfl | rfl
    · exact declares.generated other member
    · rcases List.mem_append.1 member with old | new
      · exact declares.generated other old
      · exact .inr ⟨method, incrementing, List.mem_singleton.1 new⟩
  refine added.bind ?_
  intro _ after declared
  apply record_bind
  intro journal
  exact .pure ⟨rfl, { declared with
    ledger := declared.ledger.annotate after.generated after.transformed journal }⟩

/-- A class that is no interface and has nothing by the names of what it is given gets its profile. -/
theorem buildProfile_succeeds
    (ledger : session.Ledger counter sink)
    (found : session.program.class? name = some declaration)
    (differs : name ≠ counter)
    (named : declaration.name = name)
    (proper : declaration.isInterface = false)
    (fields : ∀ field ∈ declaration.fields, isInstrumentationName field.name = false)
    (methods : ∀ method ∈ declaration.methods, ¬ IsIncrementor method.name) :
    Succeeds (buildProfile name) session fun profile after =>
      ∃ middle field, session.Extends counter middle ∧ middle.generated = session.generated ∧
        middle.counters.fields.get? (.instances name) = some field ∧
        profile = .ofClass name field ∧
        middle.Declares counter sink name
          { declaration with
            fields := declaration.fields ++ Profile.fields
            methods := declaration.methods ++ profile.methods sink }
          after := by
  have freeField {field : String} (instruments : isInstrumentationName field) :
      declaration.fields.find? (fun declared => declared.name == field) = none := by
    rw [List.find?_eq_none]
    intro declared member same
    have plain := fields declared member
    rw [beq_iff_eq.1 same, instruments] at plain
    cases plain
  have freeMethod {method : String} (incrementing : IsIncrementor method) :
      declaration.methods.find? (fun declared => declared.name == method) = none := by
    rw [List.find?_eq_none]
    intro declared member same
    exact methods declared member (beq_iff_eq.1 same ▸ incrementing)
  unfold buildProfile
  refine (counterFor_succeeds ledger (.instances name) _).bind ?_
  rintro staticCounter first ⟨ledgerFirst, extension, generated, counted⟩
  apply record_bind
  intro journal
  let base : Session := { first with journal }
  have start : base.Declares counter sink name declaration base :=
    .refl (ledgerFirst.annotate first.generated first.transformed journal)
      ((extension.grows.program.others name differs).trans found)
  refine (declareCount_succeeds start differs named serialField (freeField (by decide))).bind ?_
  rintro _ second ⟨rfl, declaresSecond⟩
  refine (declareCount_succeeds declaresSecond differs named readsField ?_).bind ?_
  · rw [Class.field?, List.find?_append, freeField (by decide)]
    decide
  rintro _ third ⟨rfl, declaresThird⟩
  refine (declareCount_succeeds declaresThird differs named writesField ?_).bind ?_
  · rw [Class.field?, List.find?_append, List.find?_append, freeField (by decide)]
    decide
  rintro _ fourth ⟨rfl, declaresFourth⟩
  refine (incrementor_succeeds declaresFourth differs (.inl rfl) (freeMethod (.inl rfl)) _ _).bind ?_
  rintro _ fifth ⟨rfl, declaresFifth⟩
  refine (incrementor_succeeds declaresFifth differs (.inr rfl) ?_ _ _).bind ?_
  · rw [Class.methodNamed?, List.find?_append, freeMethod (.inr rfl)]
    have other : (readIncrementor == writeIncrementor) = false := by decide
    simp [Profile.incrementorMethod, other]
  rintro _ after ⟨rfl, declaresAfter⟩
  apply Succeeds.get_bind
  have virtual : after.program.callKind name = .virtual := by
    rw [Program.callKind, Program.isInterface, declaresAfter.declared]
    have unflagged : declaration.flags.includes Class.interfaceFlag = false := proper
    simp [Class.isInterface, unflagged]
  rw [virtual]
  refine .pure ⟨base, staticCounter, ?_, generated, counted, rfl, ?_⟩
  · exact extension.trans (.annotate first first.generated first.transformed journal)
  · simpa only [Profile.fields, Profile.methods, List.append_assoc, List.cons_append,
      List.nil_append] using declaresAfter

end Transform
end Members

/-- What was generated are methods that count accesses. -/
def Session.GeneratesIncrementors (session : Session) : Prop :=
  ∀ method ∈ session.generated, ∃ owner given, IsIncrementor given ∧ method = owner ++ "." ++ given

/-- The class of the counters is not transformed. -/
theorem Session.ne_counterClassName_of_isTransformableClass
    {settings : Settings}
    {program : Program}
    {name : String}
    (transformable : (Session.start settings program).isTransformableClass name) :
    name ≠ settings.counterClassName := by
  rintro rfl
  have holds :
      (Session.start settings program).counters.holds settings.counterClassName = true := by
    simp [Session.start, CounterTable.holds, CounterTable.empty]
  simp [Session.isTransformableClass, holds] at transformable

/-- What is transformed is a class of the application that was written by hand. -/
theorem Session.class?_of_isTransformableClass
    {settings : Settings}
    {program : Program}
    {name : String}
    (transformable : (Session.start settings program).isTransformableClass name) :
    ∃ declaration, program.class? name = some declaration ∧ declaration.isApplication ∧
      declaration.isSynthetic = false := by
  simp only [Session.isTransformableClass, Bool.and_eq_true] at transformable
  obtain ⟨declaration, found, kinds⟩ := (Option.any_eq_true _ _).1 transformable.2
  simp only [Bool.and_eq_true, Bool.not_eq_true'] at kinds
  exact ⟨declaration, found, kinds⟩

section Instrumenting

variable
    {counter : String}
    {sink : Sink}
    {Tally : Instruction → Prop}
    {plan : Plan}
    {original : Program}
    {before : Session}
    {name : String}
    {declaration changed : Class}

theorem Class.Tallied.fields_eq
    {exact current : Class}
    (tallied : exact.Tallied Tally current) :
    current.fields = exact.fields :=
  (Class.mk.inj tallied.shape).2.2.2.2.2.1

theorem Class.Tallied.flags_eq
    {exact current : Class}
    (tallied : exact.Tallied Tally current) :
    current.flags = exact.flags :=
  (Class.mk.inj tallied.shape).2.2.2.2.1

theorem Class.Tallied.name_eq
    {exact current : Class}
    (tallied : exact.Tallied Tally current) :
    current.name = exact.name :=
  (Class.mk.inj tallied.shape).1

/-- The methods of a class that was not instrumented have the names that they had. -/
theorem Class.Tallied.method_plain
    {bodies : Nat → Body → Body}
    (tallied : (declaration.furnish sink none bodies).Tallied Tally changed)
    (plain : ∀ method ∈ declaration.methods, ¬ IsIncrementor method.name) :
    ∀ method ∈ changed.methods, ¬ IsIncrementor method.name := by
  intro method member
  obtain ⟨index, located⟩ := List.getElem?_of_mem member
  rcases tallied.cases_getElem?_methods located with ⟨old, locatedOld, related⟩ | ⟨profile, none, -⟩
  · rw [related.name_eq]
    exact plain old (List.mem_of_getElem? locatedOld)
  · cases none

/-- An instrumented class is given the members of its profile. -/
theorem Class.Tallied.instrument
    {bodies : Nat → Body → Body}
    (tallied : (declaration.furnish sink none bodies).Tallied Tally changed)
    (profile : Profile) :
    (declaration.furnish sink (some profile) bodies).Tallied Tally
      { changed with
        fields := changed.fields ++ Profile.fields
        methods := changed.methods ++ profile.methods sink } := by
  obtain ⟨shape, methods⟩ := tallied
  have parts := Class.mk.inj shape
  constructor
  · simp only [Class.furnish, Option.elim_none, Option.elim_some, List.append_nil] at parts ⊢
    simp [parts]
  · simp only [Class.furnish, Option.elim_none, Option.elim_some, List.append_nil] at methods ⊢
    refine List.rel_append methods ?_
    rw [List.forall₂_same]
    exact fun method _ => .refl method

namespace Transform

theorem instrument_succeeds
    (apart : original.NamesApart counter)
    (wellNamed : original.WellNamed)
    (furnishes : before.Furnishes counter sink Tally plan original)
    (generates : before.GeneratesIncrementors)
    (transformable : (Session.start before.settings original).isTransformableClass name)
    (found : original.class? name = some declaration)
    (proper : declaration.isInterface = false) :
    Succeeds (instrument name) before fun _ after =>
      after.Furnishes counter sink Tally plan original ∧ after.GeneratesIncrementors ∧
        after.settings = before.settings := by
  obtain ⟨ledger, counterName, furnished, profiled⟩ := furnishes
  have differs : name ≠ counter :=
    counterName ▸ Session.ne_counterClassName_of_isTransformableClass transformable
  obtain ⟨current, located, tallied⟩ := furnished.class?_eq_some differs found
  unfold instrument
  apply Succeeds.get_bind
  cases known : before.profiles.get? name with
  | some profile => exact .pure ⟨⟨ledger, counterName, furnished, profiled⟩, generates, rfl⟩
  | none =>
    rw [known] at tallied
    have named : current.name = name := by
      rw [tallied.name_eq]
      show declaration.name = name
      exact wellNamed.name_eq found
    have properNow : current.isInterface = false := by
      rw [Class.isInterface, tallied.flags_eq]
      exact proper
    have fields : ∀ field ∈ current.fields, isInstrumentationName field.name = false := by
      rw [tallied.fields_eq, Class.furnish]
      intro field member
      exact apart.field_plain found (by simpa using member)
    have methods := tallied.method_plain fun method member => apart.method_plain found member
    simp only [located, properNow]
    refine (buildProfile_succeeds ledger located differs named properNow fields methods).bind ?_
    rintro _ built ⟨middle, field, extension, generated, counted, rfl, declares⟩
    apply Succeeds.modify_bind
    apply record_bind
    intro journal
    have profiles : built.profiles = before.profiles :=
      declares.profiles.trans extension.grows.profiles
    have settings : built.settings = before.settings :=
      declares.settings.trans extension.grows.settings
    refine .pure ⟨⟨?_, ?_, ?_, ?_⟩, ?_, settings⟩
    · refine { declares.ledger with profiles := fun other profile known => ?_ }
      rw [Table.get?_put] at known
      split at known
      · rename_i same
        cases known
        refine ⟨field, ?_, by rw [same]⟩
        rw [same]
        show built.counters.fields.get? (.instances name) = some field
        rw [declares.counters]
        exact counted
      · exact declares.ledger.profiles other profile known
    · show built.settings.counterClassName = counter
      rw [settings]
      exact counterName
    · intro other notCounter
      show Option.Rel _ (Option.map (Class.furnish sink ((built.profiles.put name _).get? other) _) _)
        (built.program.class? other)
      rw [Table.get?_put]
      split
      · rename_i same
        subst same
        rw [found, declares.declared]
        exact .some (tallied.instrument _)
      · rename_i elsewhere
        rw [declares.others other elsewhere, extension.grows.program.others other notCounter,
          profiles]
        exact furnished other notCounter
    · intro other profile known
      show (Session.start built.settings original).isTransformableClass other
      rw [settings]
      rw [Table.get?_put] at known
      split at known
      · rename_i same
        subst same
        exact transformable
      · rw [profiles] at known
        exact profiled other profile known
    · intro method member
      rcases declares.generated method member with old | ⟨given, incrementing, same⟩
      · exact generates method (generated ▸ old)
      · exact ⟨name, given, incrementing, same⟩

end Transform

namespace Pass

/-- What is transformed are the same classes as at the start. -/
theorem isTransformableClass_start (furnishes : before.Furnishes counter sink Tally plan original) :
    before.isTransformableClass name =
      (Session.start before.settings original).isTransformableClass name := by
  have className : before.counters.className = before.settings.counterClassName :=
    furnishes.ledger.className.trans furnishes.counterName.symm
  by_cases here : name = before.settings.counterClassName
  · simp [Session.isTransformableClass, CounterTable.holds, className, here, Session.start,
      CounterTable.empty]
  · have unwrapped : before.wrappers.get? name = none := furnishes.ledger.wrappers name
    have kinds :
        ((before.program.class? name).any fun declaration =>
            declaration.isApplication && !declaration.isSynthetic) =
          (original.class? name).any fun declaration =>
            declaration.isApplication && !declaration.isSynthetic := by
      have differs : name ≠ counter := furnishes.counterName ▸ here
      cases found : original.class? name with
      | none => rw [furnishes.furnished.class?_eq_none differs found]
      | some declaration =>
        obtain ⟨changed, located, tallied⟩ := furnishes.furnished.class?_eq_some differs found
        have parts := Class.mk.inj tallied.shape
        simp only [Class.furnish] at parts
        rw [located]
        simp [Class.isApplication, Class.isSynthetic, parts]
    simp [Session.isTransformableClass, CounterTable.holds, className, Session.start,
      CounterTable.empty, Session.isWrapper, unwrapped, kinds]

/-- Whether a class is an interface does not change. -/
theorem isInterface_eq
    (furnished : original.Furnished counter sink Tally before.profiles plan before.program)
    (differs : name ≠ counter)
    (found : original.class? name = some declaration) :
    before.program.isInterface name = declaration.isInterface := by
  obtain ⟨changed, located, tallied⟩ := furnished.class?_eq_some differs found
  rw [Program.isInterface, located, Option.any_some, Class.isInterface, tallied.flags_eq]
  rfl

/-- Every class that is transformed can be instrumented, apart from interfaces. -/
theorem instrumentAll_succeeds
    (apart : original.NamesApart counter)
    (wellNamed : original.WellNamed)
    (furnishes : before.Furnishes counter sink Tally plan original)
    (generates : before.GeneratesIncrementors) :
    Succeeds instrumentAll before fun _ after =>
      after.Furnishes counter sink Tally plan original ∧ after.GeneratesIncrementors ∧
        after.settings = before.settings := by
  unfold instrumentAll
  refine (Transform.ensureCounterClass_succeeds furnishes.ledger).bind ?_
  rintro _ ensured ⟨ledger, extension, generated, counters, -⟩
  apply Succeeds.get_bind
  have profiles := extension.grows.profiles
  have furnishesEnsured : ensured.Furnishes counter sink Tally plan original := by
    refine ⟨ledger, ?_, ?_, ?_⟩
    · rw [extension.grows.settings]
      exact furnishes.counterName
    · rw [profiles]
      exact furnishes.furnished.grow extension.grows.program
    · rw [profiles, extension.grows.settings]
      exact furnishes.profiled
  have start :
      ensured.Furnishes counter sink Tally plan original ∧ ensured.GeneratesIncrementors ∧
        ensured.settings = before.settings := by
    refine ⟨furnishesEnsured, ?_, extension.grows.settings⟩
    intro method member
    exact generates method (generated ▸ member)
  refine Succeeds.bind
    (Succeeds.mapM
      (fun _ _ session =>
        session.Furnishes counter sink Tally plan original ∧ session.GeneratesIncrementors ∧
          session.settings = before.settings)
      start ?_)
    fun _ _ reached => .pure reached
  intro done className rest results session _ reached
  obtain ⟨furnishesNow, generatesNow, settings⟩ := reached
  unfold instrumentClass
  apply Succeeds.get_bind
  split
  · rename_i eligible
    simp only [Bool.and_eq_true, Bool.not_eq_true'] at eligible
    have transformable := (isTransformableClass_start furnishesNow).symm.trans eligible.1
    have differs := furnishesNow.counterName ▸
      Session.ne_counterClassName_of_isTransformableClass transformable
    obtain ⟨declaration, found, -⟩ := Session.class?_of_isTransformableClass transformable
    have proper : declaration.isInterface = false :=
      (isInterface_eq furnishesNow.furnished differs found).symm.trans eligible.2
    refine (Transform.instrument_succeeds apart wellNamed furnishesNow generatesNow transformable
      found proper).bind ?_
    rintro _ instrumented ⟨furnishesThen, generatesThen, settingsThen⟩
    exact .pure ⟨furnishesThen, generatesThen, settingsThen.trans settings⟩
  · exact .pure ⟨furnishesNow, generatesNow, settings⟩

end Pass
end Instrumenting
end AccessProfiler
