import AccessProfiler.Proofs.Generation
import AccessProfiler.Proofs.Success

/-!
# Members that are declared already

Generating code never takes a member away, nor puts one in front of another (`Program.ExtendsTo`), so
that a search that finds a member goes on to find it.  A field or a method that is there is used as it
is: to ask for it again gives the same reference and leaves the program as it was.
-/

namespace AccessProfiler

/-- The class has what it had, in front of what has come in. -/
structure Class.ExtendsTo (before after : Class) : Prop where
  name : after.name = before.name
  flags : after.flags = before.flags
  fields : before.fields <+: after.fields
  methods : before.methods <+: after.methods

namespace Class.ExtendsTo

variable {before between after : Class}

theorem refl (declaration : Class) : declaration.ExtendsTo declaration :=
  ⟨rfl, rfl, List.prefix_rfl, List.prefix_rfl⟩

theorem trans (first : before.ExtendsTo between) (second : between.ExtendsTo after) :
    before.ExtendsTo after :=
  ⟨second.name.trans first.name, second.flags.trans first.flags, first.fields.trans second.fields,
    first.methods.trans second.methods⟩

theorem field?_eq
    (extends' : before.ExtendsTo after)
    {name : String}
    {field : Field}
    (found : before.field? name = some field) :
    after.field? name = some field :=
  extends'.fields.find?_eq_some found

theorem methodNamed?_eq
    (extends' : before.ExtendsTo after)
    {name : String}
    {method : Method}
    (found : before.methodNamed? name = some method) :
    after.methodNamed? name = some method :=
  extends'.methods.find?_eq_some found

end Class.ExtendsTo

namespace Program

variable {program before between after : Program} {owner name : String}

/-- Every class has what it had. -/
def ExtendsTo (before after : Program) : Prop :=
  ∀ name declaration, before.class? name = some declaration →
    ∃ extended, after.class? name = some extended ∧ declaration.ExtendsTo extended

namespace ExtendsTo

theorem refl (program : Program) : program.ExtendsTo program :=
  fun _ declaration found => ⟨declaration, found, .refl _⟩

theorem trans (first : before.ExtendsTo between) (second : between.ExtendsTo after) :
    before.ExtendsTo after := by
  intro name declaration found
  obtain ⟨middle, foundMiddle, extendsFirst⟩ := first name declaration found
  obtain ⟨last, foundLast, extendsSecond⟩ := second name middle foundMiddle
  exact ⟨last, foundLast, extendsFirst.trans extendsSecond⟩

theorem ensureClass (program : Program) (name : String) (declaration : Class) :
    program.ExtendsTo (program.ensureClass name declaration).2 := by
  intro other existing found
  rw [class?_ensureClass]
  split
  · rename_i same
    rw [← same, found]
    exact ⟨existing, rfl, .refl _⟩
  · exact ⟨existing, found, .refl _⟩

theorem modifyClass
    {declaration extended : Class}
    (found : program.class? name = some declaration)
    (extends' : declaration.ExtendsTo extended) :
    program.ExtendsTo (program.modifyClass name fun _ => extended) := by
  intro other existing foundOther
  rw [class?_modifyClass]
  split
  · rename_i same
    rw [same, found] at foundOther
    cases foundOther
    rw [found]
    exact ⟨extended, rfl, extends'⟩
  · exact ⟨existing, foundOther, .refl _⟩

theorem addMethod
    {method : Method}
    {id : MethodId}
    (added : program.addMethod owner method = .ok (id, after)) :
    program.ExtendsTo after := by
  obtain ⟨declaration, found, -, rfl⟩ := addMethod_eq_ok added
  exact modifyClass found ⟨rfl, rfl, List.prefix_rfl, List.prefix_append _ _⟩

end ExtendsTo

/-- To give a class the declaration that it has changes nothing. -/
theorem modifyClass_self
    {declaration : Class}
    (found : program.class? name = some declaration) :
    program.modifyClass name (fun _ => declaration) = program := by
  have same :
      (program.entries.map fun entry => if entry.1 = name then (entry.1, declaration) else entry) =
        program.entries := by
    refine (List.map_congr_left fun entry member => ?_).trans (List.map_id _)
    obtain ⟨other, existing⟩ := entry
    dsimp only [id]
    split
    · rename_i named
      subst named
      rw [class?_of_mem_entries member] at found
      cases found
      rfl
    · rfl
  cases program
  simp only [modifyClass, mk.injEq]
  exact same

theorem ensureClass_of_class?
    {declaration existing : Class}
    (found : program.class? name = some existing) :
    program.ensureClass name declaration = (false, program) := by
  unfold ensureClass
  split
  · rfl
  · rename_i free
    rw [found] at free
    cases free

/-! ## Fields that hold a number -/

/-- A number of a name is declared on a class, and this refers to it. -/
def HasNumber (program : Program) (owner name : String) (field : FieldRef) : Prop :=
  ∃ declaration declared, program.class? owner = some declaration ∧
    declaration.field? name = some declared ∧ declared.type = .int ∧
    field = declared.reference declaration.name

namespace HasNumber

variable {field other : FieldRef}

theorem name_eq (has : program.HasNumber owner name field) : field.name = name := by
  obtain ⟨declaration, declared, -, located, -, rfl⟩ := has
  simpa [Field.reference] using List.find?_some located

theorem unique
    (has : program.HasNumber owner name field)
    (hasOther : program.HasNumber owner name other) :
    field = other := by
  obtain ⟨declaration, declared, found, located, -, rfl⟩ := has
  obtain ⟨declarationOther, declaredOther, foundOther, locatedOther, -, rfl⟩ := hasOther
  cases found.symm.trans foundOther
  cases located.symm.trans locatedOther
  rfl

theorem mono
    (has : before.HasNumber owner name field)
    (extends' : before.ExtendsTo after) :
    after.HasNumber owner name field := by
  obtain ⟨declaration, declared, found, located, number, rfl⟩ := has
  obtain ⟨extended, foundAfter, extendsClass⟩ := extends' owner declaration found
  exact ⟨extended, declared, foundAfter, extendsClass.field?_eq located, number, by
    rw [extendsClass.name]⟩

/-- A number that is declared is used as it is. -/
theorem addField
    (has : program.HasNumber owner name field)
    (flags : Flags) :
    program.addField owner ⟨name, .int, flags⟩ = .ok (field, program) := by
  obtain ⟨declaration, declared, found, located, number, rfl⟩ := has
  have added :
      declaration.addField ⟨name, .int, flags⟩ =
        .ok (declared.reference declaration.name, declaration) := by
    simp [Class.addField, located, number]
  rw [addField_of_class? found added, modifyClass_self found]

/-- After a number was declared it is there. -/
theorem of_addField
    {flags : Flags}
    (added : program.addField owner ⟨name, .int, flags⟩ = .ok (field, after)) :
    after.HasNumber owner name field ∧ program.ExtendsTo after := by
  obtain ⟨declaration, extended, found, addedThere, rfl⟩ := addField_eq_ok added
  have registered :
      (program.modifyClass owner fun _ => extended).class? owner = some extended := by
    rw [class?_modifyClass, if_pos rfl, found]
    rfl
  rcases Class.addField_cases addedThere with ⟨declared, located, number, rfl, rfl⟩ |
    ⟨absent, rfl, rfl⟩
  · exact ⟨⟨_, declared, registered, located, number, rfl⟩,
      ExtendsTo.modifyClass found (.refl _)⟩
  · refine ⟨⟨_, ⟨name, .int, flags⟩, registered, ?_, rfl, rfl⟩,
      ExtendsTo.modifyClass found ⟨rfl, rfl, List.prefix_append _ _, List.prefix_rfl⟩⟩
    rw [Class.field?, List.find?_append]
    rw [Class.field?] at absent
    simp [absent]

end HasNumber

/-! ## Methods -/

/-- The first method of a name on a class is this. -/
def HasMethod (program : Program) (owner name : String) (method : MethodRef) : Prop :=
  ∃ declared, ((program.class? owner).bind fun declaration => declaration.methodNamed? name) =
    some declared ∧ method = declared.reference owner

theorem HasMethod.mono
    {method : MethodRef}
    (has : before.HasMethod owner name method)
    (extends' : before.ExtendsTo after) :
    after.HasMethod owner name method := by
  obtain ⟨declared, located, rfl⟩ := has
  obtain ⟨declaration, found, there⟩ := Option.bind_eq_some_iff.1 located
  obtain ⟨extended, foundAfter, extendsClass⟩ := extends' owner declaration found
  exact ⟨declared, by rw [foundAfter]; exact extendsClass.methodNamed?_eq there, rfl⟩

end Program

namespace Transform

variable {before after : Session}

/-- A counter that is known is given; another one is declared under a name that is claimed for it. -/
theorem ends_counterFor
    {owner : CounterOwner}
    {key : String}
    {field : FieldRef} :
    Ends (counterFor owner key) before field after ↔
      before.counters.fields.get? owner = some field ∧ after = before ∨
        before.counters.fields.get? owner = none ∧
          ∃ program,
            (before.program.ensureClass before.counters.className
                  before.counters.declaration).2.addField before.counters.className
                ⟨before.counters.nameFor owner key, .int, Field.static.union Field.synthetic⟩ =
              .ok (field, program) ∧
            after =
              { before with
                program := program
                counters :=
                  { (before.counters.claim owner key).2 with
                    fields := before.counters.fields.put owner field } } := by
  unfold counterFor
  rw [Ends.get_bind_iff]
  cases known : before.counters.fields.get? owner with
  | some found => simp [eq_comm]
  | none =>
    rw [Ends.set_bind_iff]
    simp only [ensureCounterClass, Ends.bind_iff, Ends.get_iff, ends_ensureClass,
      ends_changeProgram, Ends.modify_iff, Ends.pure_iff, reduceCtorEq, false_and, true_and,
      false_or]
    constructor
    · rintro ⟨_, _, ⟨_, _, ⟨rfl, rfl⟩, rfl, rfl⟩, _, _, ⟨program, added, rfl⟩, _, _, rfl, rfl, rfl⟩
      exact ⟨program, added, rfl⟩
    · rintro ⟨program, added, rfl⟩
      exact ⟨_, _, ⟨_, _, ⟨rfl, rfl⟩, rfl, rfl⟩, _, _, ⟨program, added, rfl⟩, ⟨⟩, _, rfl, rfl, rfl⟩

end Transform

/-- Members may have come in; the counters and the profiles are as they were. -/
structure Session.Gains (before after : Session) : Prop where
  program : before.program.ExtendsTo after.program
  counters : after.counters = before.counters
  profiles : after.profiles = before.profiles

theorem Session.Gains.trans
    {before between after : Session}
    (first : before.Gains between)
    (second : between.Gains after) :
    before.Gains after :=
  ⟨first.program.trans second.program, second.counters.trans first.counters,
    second.profiles.trans first.profiles⟩

namespace Transform

variable {before after : Session} {owner name : String}

theorem record_gains
    {event : Event}
    (ends : Ends (record event) before () after) :
    before.Gains after := by
  rw [ends_record] at ends
  subst ends
  exact ⟨.refl _, rfl, rfl⟩

theorem declareNumber_gains
    {flags : Flags}
    {field : FieldRef}
    (ends :
      Ends (changeProgram fun program => program.addField owner ⟨name, .int, flags⟩) before field
        after) :
    after.program.HasNumber owner name field ∧ before.Gains after := by
  obtain ⟨program, added, rfl⟩ := ends_changeProgram.1 ends
  obtain ⟨has, extends'⟩ := Program.HasNumber.of_addField added
  exact ⟨has, extends', rfl, rfl⟩

theorem addGenerated_gains
    {method : Method}
    (ends : Ends (addGenerated owner method) before () after) :
    (∃ id, before.program.addMethod owner method = .ok (id, after.program)) ∧
      before.Gains after := by
  obtain ⟨id, between, adds, marks⟩ := Ends.bind_iff.1 ends
  obtain ⟨program, added, rfl⟩ := ends_changeProgram.1 adds
  have marked := Ends.modify_iff.1 marks
  have extends' := Program.ExtendsTo.addMethod added
  split at marked
  · subst marked
    exact ⟨⟨id, added⟩, extends', rfl, rfl⟩
  · subst marked
    exact ⟨⟨id, added⟩, extends', rfl, rfl⟩

/-- The method that counts an access is there after it was asked for. -/
theorem incrementor_gains
    {counter serial : FieldRef}
    {method : MethodRef}
    (ends : Ends (incrementor owner name counter serial) before method after) :
    after.program.HasMethod owner name method ∧ before.Gains after := by
  unfold incrementor at ends
  rw [Ends.get_bind_iff] at ends
  cases known : (before.program.class? owner).bind fun declared => declared.methodNamed? name with
  | some declared =>
    rw [known] at ends
    obtain ⟨rfl, rfl⟩ := Ends.pure_iff.1 ends
    exact ⟨⟨declared, known, rfl⟩, .refl _, rfl, rfl⟩
  | none =>
    rw [known] at ends
    obtain ⟨_, between, adds, ends⟩ := Ends.bind_iff.1 ends
    obtain ⟨_, last, records, ends⟩ := Ends.bind_iff.1 ends
    obtain ⟨rfl, rfl⟩ := Ends.pure_iff.1 ends
    obtain ⟨⟨id, added⟩, gains⟩ := addGenerated_gains adds
    refine ⟨Program.HasMethod.mono ⟨_, ?_, rfl⟩ (record_gains records).program,
      gains.trans (record_gains records)⟩
    obtain ⟨declaration, found, -, same⟩ := Program.addMethod_eq_ok added
    rw [found, Option.bind_some] at known
    rw [same, Program.class?_modifyClass, if_pos rfl, found]
    rw [Class.methodNamed?] at known
    simp [Class.methodNamed?, known]

/-- A method that is there is used as it is. -/
theorem incrementor_of_hasMethod
    {method : MethodRef}
    (has : before.program.HasMethod owner name method)
    (counter serial : FieldRef) :
    Ends (incrementor owner name counter serial) before method before := by
  obtain ⟨declared, known, rfl⟩ := has
  unfold incrementor
  rw [Ends.get_bind_iff, known]
  exact Ends.pure_iff.2 ⟨rfl, rfl⟩

end Transform

/-! ## Profiles -/

/-- The members of the profile are those that its class has, the static counter aside. -/
structure Profile.Settled (program : Program) (profile : Profile) : Prop where
  proper :
    ∃ declaration, program.class? profile.className = some declaration ∧
      declaration.isInterface = false
  serial : program.HasNumber profile.className serialField profile.serial
  reads : program.HasNumber profile.className readsField profile.reads
  writes : program.HasNumber profile.className writesField profile.writes
  incReads : program.HasMethod profile.className readIncrementor profile.incReads
  incWrites : program.HasMethod profile.className writeIncrementor profile.incWrites
  callKind : profile.callKind = .virtual

theorem Profile.Settled.mono
    {before after : Program}
    {profile : Profile}
    (settled : profile.Settled before)
    (extends' : before.ExtendsTo after) :
    profile.Settled after where
  proper := by
    obtain ⟨declaration, found, proper⟩ := settled.proper
    obtain ⟨extended, foundAfter, extendsClass⟩ := extends' _ declaration found
    refine ⟨extended, foundAfter, ?_⟩
    rw [Class.isInterface, extendsClass.flags]
    exact proper
  serial := settled.serial.mono extends'
  reads := settled.reads.mono extends'
  writes := settled.writes.mono extends'
  incReads := settled.incReads.mono extends'
  incWrites := settled.incWrites.mono extends'
  callKind := settled.callKind

theorem Program.callKind_eq
    {program : Program}
    {name : String}
    {declaration : Class}
    (found : program.class? name = some declaration)
    (proper : declaration.isInterface = false) :
    program.callKind name = .virtual := by
  simp [Program.callKind, Program.isInterface, found, proper]

namespace Transform

variable {before between after : Session} {name : String} {profile : Profile}

theorem counterFor_extends
    {owner : CounterOwner}
    {key : String}
    {field : FieldRef}
    (ends : Ends (counterFor owner key) before field after) :
    before.program.ExtendsTo after.program := by
  rcases ends_counterFor.1 ends with ⟨-, rfl⟩ | ⟨-, program, added, rfl⟩
  · exact .refl _
  · exact (Program.ExtendsTo.ensureClass _ _ _).trans (Program.HasNumber.of_addField added).2

/-- A profile that was built is settled. -/
theorem buildProfile_gains
    {declaration : Class}
    (found : before.program.class? name = some declaration)
    (proper : declaration.isInterface = false)
    (ends : Ends (buildProfile name) before profile after) :
    profile.className = name ∧ profile.Settled after.program ∧
      ∃ between,
        Ends (counterFor (.instances name) (Profile.flattenedName name)) before
            profile.staticCounter between ∧
          between.Gains after := by
  unfold buildProfile at ends
  simp only [Ends.bind_iff, Ends.get_iff, Ends.pure_iff] at ends
  obtain ⟨staticCounter, first, counts, _, second, records, serial, third, serialEnds, reads,
    fourth, readsEnds, writes, fifth, writesEnds, incReads, sixth, incReadsEnds, incWrites, seventh,
    incWritesEnds, _, _, ⟨rfl, rfl⟩, rfl, rfl⟩ := ends
  have toSecond := record_gains records
  obtain ⟨hasSerial, toThird⟩ := declareNumber_gains serialEnds
  obtain ⟨hasReads, toFourth⟩ := declareNumber_gains readsEnds
  obtain ⟨hasWrites, toFifth⟩ := declareNumber_gains writesEnds
  obtain ⟨hasIncReads, toSixth⟩ := incrementor_gains incReadsEnds
  obtain ⟨hasIncWrites, toSeventh⟩ := incrementor_gains incWritesEnds
  have fromFifth := toSixth.trans toSeventh
  have fromFourth := toFifth.trans fromFifth
  have fromThird := toFourth.trans fromFourth
  have fromFirst := toSecond.trans (toThird.trans fromThird)
  have extends' := (counterFor_extends counts).trans fromFirst.program
  obtain ⟨extended, foundAfter, extendsClass⟩ := extends' name declaration found
  have properAfter : extended.isInterface = false := by
    rw [Class.isInterface, extendsClass.flags]
    exact proper
  refine ⟨rfl, ⟨⟨extended, foundAfter, properAfter⟩, ?_, ?_, ?_, ?_, hasIncWrites, ?_⟩,
    first, counts, fromFirst⟩
  · exact hasSerial.mono fromThird.program
  · exact hasReads.mono fromFourth.program
  · exact hasWrites.mono fromFifth.program
  · exact hasIncReads.mono toSeventh.program
  · exact Program.callKind_eq foundAfter properAfter

/-- A settled profile is built again from what is there, with the static counter that the session
gives. -/
theorem buildProfile_of_settled
    {counter : FieldRef}
    (counts :
      Ends (counterFor (.instances profile.className) (Profile.flattenedName profile.className))
        before counter between)
    (settled : profile.Settled between.program) :
    ∃ journal,
      Ends (buildProfile profile.className) before { profile with staticCounter := counter }
        { between with journal } := by
  obtain ⟨declaration, found, proper⟩ := settled.proper
  unfold buildProfile
  simp only [Ends.bind_iff, Ends.get_iff, Ends.pure_iff]
  let recorded : Session :=
    { between with
      journal := between.journal ++ [.general .counterCreated counter.render] }
  have declares
      {field : String}
      {reference : FieldRef}
      (has : recorded.program.HasNumber profile.className field reference) :
      Ends
        (changeProgram fun program =>
          program.addField profile.className ⟨field, .int, Field.synthetic⟩)
        recorded reference recorded :=
    ends_changeProgram.2 ⟨between.program, has.addField _, rfl⟩
  have uses
      {method : String}
      {reference : MethodRef}
      (has : recorded.program.HasMethod profile.className method reference)
      (counts : FieldRef) :
      Ends (incrementor profile.className method counts profile.serial) recorded reference
        recorded :=
    incrementor_of_hasMethod has counts profile.serial
  refine ⟨recorded.journal, _, _, counts, (), recorded, ends_record.2 rfl,
    _, _, declares settled.serial, _, _, declares settled.reads, _, _, declares settled.writes,
    _, _, uses settled.incReads profile.reads, _, _, uses settled.incWrites profile.writes,
    _, _, ⟨rfl, rfl⟩, ?_, rfl⟩
  rw [Program.callKind_eq found proper, ← settled.callKind]

end Transform
end AccessProfiler
