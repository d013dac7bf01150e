import AccessProfiler.Proofs.Outcome
import AccessProfiler.Proofs.Registry
import AccessProfiler.Proofs.Weaving

/-!
# Generating counters

What is generated keeps two things.  The class of the counters has integer fields and methods that
count on them and no others (`Class.IsCounter`), and what a session remembers as generated is there
and of the right form (`Session.Stocked`).  A request for a static counter or for a method that counts
on one changes the class of the counters only (`Session.Grows`), so that it can be made while a body
of another class is being worked on.
-/

namespace AccessProfiler

/-- The method adds one to a static counter and reports the count. -/
structure Method.Tallies (counter : String) (sink : Sink) (method : Method) : Prop where
  named : ∃ key, method.name = "increment" ++ key
  parameters : method.parameters = []
  body :
    ∃ label field, field.Tallies counter ∧
      method.body = some (Profile.staticIncrementorBody sink label field)

/-- The method adds one to a count of its receiver and reports it. -/
structure Method.CountsAccess (sink : Sink) (method : Method) : Prop where
  named : IsIncrementor method.name
  parameters : method.parameters = []
  result : method.result = .void
  synthetic : method.isSynthetic
  body :
    ∃ className counter serial, counter.CountsAccess ∧ serial.CountsAccess ∧
      method.body = some (Profile.incrementorBody sink className counter serial)

/-- The class has static counters and the methods that count on them. -/
structure Class.IsCounter (counter : String) (sink : Sink) (declaration : Class) : Prop where
  name : declaration.name = counter
  superclass : declaration.superclass = some objectClass
  interfaces : declaration.interfaces = []
  fields : ∀ field ∈ declaration.fields, field.type = .int
  methods : ∀ method ∈ declaration.methods, method.Tallies counter sink

/-- What is registered under the name, if anything, is the class of the counters. -/
def Program.Counts (counter : String) (sink : Sink) (program : Program) : Prop :=
  ∀ declaration, program.class? counter = some declaration → declaration.IsCounter counter sink

/-- The programs differ at most in one class, and that one has more methods without parameters. -/
structure Program.GrowsAt (counter : String) (before after : Program) : Prop where
  others : ∀ name, name ≠ counter → after.class? name = before.class? name
  offers : ∀ owner name, before.offers owner name → after.offers owner name

/-- The members of an instrumented class can be used as they are remembered. -/
structure Profile.Usable (counter : String) (offers : Offers) (profile : Profile) : Prop where
  staticCounter : profile.staticCounter.Tallies counter
  serial : profile.serial.CountsAccess
  callKind : profile.callKind = .virtual ∨ profile.callKind = .interface
  incrementor :
    ∀ access, ∃ owner name, IsIncrementor name ∧ offers owner name ∧
      profile.incrementor access = ⟨owner, name, [], .void⟩

/-- What the session remembers as generated is there. -/
structure Session.Stocked (counter : String) (sink : Sink) (session : Session) : Prop where
  reports : session.settings.sink = sink
  className : session.counters.className = counter
  counts : session.program.Counts counter sink
  fields :
    ∀ owner field, session.counters.fields.get? owner = some field → field.Tallies counter
  profiles :
    ∀ name profile, session.profiles.get? name = some profile →
      profile.Usable counter session.program.offers
  typeCounters :
    ∀ name found access, session.typeCounters.get? name = some found →
      (found.call access).Tallies counter session.program.offers
  callCounters :
    ∀ name found, session.callCounters.get? name = some found →
      found.call.Tallies counter session.program.offers

/-- Only the class of the counters grows, and no class is instrumented. -/
structure Session.Grows (counter : String) (before after : Session) : Prop where
  program : before.program.GrowsAt counter after.program
  profiles : after.profiles = before.profiles
  settings : after.settings = before.settings

section Growth

variable {counter : String} {sink : Sink}

theorem Method.Tallies.not_isIncrementor
    {method : Method}
    (tallies : method.Tallies counter sink) :
    ¬ IsIncrementor method.name := by
  obtain ⟨key, named⟩ := tallies.named
  rw [named]
  rintro (same | same)
  · have letters := congrArg String.toList same
    simp [readIncrementor] at letters
  · have letters := congrArg String.toList same
    simp [writeIncrementor] at letters

theorem Method.Tallies.name_ne
    {method : Method}
    (tallies : method.Tallies counter sink) :
    method.name ≠ staticInitializerName := by
  obtain ⟨key, named⟩ := tallies.named
  rw [named]
  intro same
  have letters := congrArg String.toList same
  simp [staticInitializerName] at letters

theorem Program.GrowsAt.refl (program : Program) : program.GrowsAt counter program :=
  ⟨fun _ _ => rfl, fun _ _ offered => offered⟩

theorem Program.GrowsAt.trans
    {before between after : Program}
    (grows : before.GrowsAt counter between)
    (further : between.GrowsAt counter after) :
    before.GrowsAt counter after where
  others name differs := (further.others name differs).trans (grows.others name differs)
  offers owner name offered := further.offers owner name (grows.offers owner name offered)

theorem Session.Grows.refl (session : Session) : session.Grows counter session :=
  ⟨.refl _, rfl, rfl⟩

theorem Session.Grows.trans
    {before between after : Session}
    (grows : before.Grows counter between)
    (further : between.Grows counter after) :
    before.Grows counter after :=
  ⟨grows.program.trans further.program, further.profiles.trans grows.profiles,
    further.settings.trans grows.settings⟩

theorem Profile.Usable.mono
    {offers more : Offers}
    {profile : Profile}
    (le : ∀ owner name, offers owner name → more owner name)
    (usable : profile.Usable counter offers) :
    profile.Usable counter more where
  staticCounter := usable.staticCounter
  serial := usable.serial
  callKind := usable.callKind
  incrementor access := by
    obtain ⟨owner, name, incrementor, offered, same⟩ := usable.incrementor access
    exact ⟨owner, name, incrementor, le owner name offered, same⟩

/-- A session stays stocked while its program grows. -/
theorem Session.Stocked.withProgram
    {session : Session}
    {program : Program}
    (stocked : session.Stocked counter sink)
    (counts : program.Counts counter sink)
    (offers : ∀ owner name, session.program.offers owner name → program.offers owner name) :
    ({ session with program } : Session).Stocked counter sink where
  reports := stocked.reports
  className := stocked.className
  counts := counts
  fields := stocked.fields
  profiles name profile found := (stocked.profiles name profile found).mono offers
  typeCounters name counter access found := (stocked.typeCounters name counter access found).mono offers
  callCounters name counter found := (stocked.callCounters name counter found).mono offers

end Growth

namespace Program

variable {counter : String} {sink : Sink} {program changed : Program}

theorem offers_iff {owner name : String} :
    program.offers owner name ↔
      ∃ declaration, program.class? owner = some declaration ∧
        (declaration.method? name []).isSome := by
  unfold offers declaredMethod?
  cases program.class? owner with
  | none => simp
  | some declaration => simp

/-- What is offered depends on the methods of the classes only, and more methods offer more. -/
theorem offers_modifyClass
    {owner : String}
    {change : Class → Class}
    (keeps :
      ∀ declaration name, program.class? owner = some declaration →
        (declaration.method? name []).isSome → ((change declaration).method? name []).isSome) :
    ∀ other name, program.offers other name → (program.modifyClass owner change).offers other name := by
  intro other name offered
  obtain ⟨declaration, found, declared⟩ := offers_iff.1 offered
  refine offers_iff.2 ?_
  rw [class?_modifyClass]
  split
  · rename_i same
    subst same
    exact ⟨change declaration, by rw [found]; rfl, keeps declaration name found declared⟩
  · exact ⟨declaration, found, declared⟩

theorem method?_append_isSome
    {declaration : Class}
    {method : Method}
    {name : String}
    {parameters : List Ty}
    (declared : (declaration.method? name parameters).isSome) :
    ((Class.method? { declaration with methods := declaration.methods ++ [method] }) name
      parameters).isSome := by
  unfold Class.method? at *
  rw [List.find?_append]
  cases found : declaration.methods.find? fun method => method.fits name parameters with
  | none =>
    rw [found] at declared
    cases declared
  | some first => rfl

theorem growsAt_modifyClass
    {change : Class → Class}
    (keeps :
      ∀ declaration name, program.class? counter = some declaration →
        (declaration.method? name []).isSome → ((change declaration).method? name []).isSome) :
    program.GrowsAt counter (program.modifyClass counter change) where
  others name differs := by rw [class?_modifyClass, if_neg differs]
  offers := offers_modifyClass keeps

theorem counts_modifyClass
    {change : Class → Class}
    (keeps :
      ∀ declaration, program.class? counter = some declaration →
        (change declaration).IsCounter counter sink) :
    (program.modifyClass counter change).Counts counter sink := by
  intro declaration found
  rw [class?_modifyClass, if_pos rfl] at found
  obtain ⟨old, foundOld, rfl⟩ := Option.map_eq_some_iff.1 found
  exact keeps old foundOld

theorem growsAt_ensureClass (program : Program) (counter : String) (declaration : Class) :
    program.GrowsAt counter (program.ensureClass counter declaration).2 where
  others name differs := by rw [class?_ensureClass, if_neg differs]
  offers owner name offered := by
    obtain ⟨found, located, declared⟩ := offers_iff.1 offered
    refine offers_iff.2 ⟨found, ?_, declared⟩
    rw [class?_ensureClass]
    split
    · rename_i same
      rw [← same, located]
      rfl
    · exact located

theorem counts_ensureClass
    {declaration : Class}
    (counts : program.Counts counter sink)
    (isCounter : declaration.IsCounter counter sink) :
    (program.ensureClass counter declaration).2.Counts counter sink := by
  intro found located
  rw [class?_ensureClass, if_pos rfl] at located
  cases present : program.class? counter with
  | none =>
    rw [present] at located
    cases located
    exact isCounter
  | some old =>
    rw [present] at located
    cases located
    exact counts old present

end Program

theorem CounterTable.declaration_isCounter (table : CounterTable) (sink : Sink) :
    table.declaration.IsCounter table.className sink :=
  ⟨rfl, rfl, rfl, fun _ member => absurd member List.not_mem_nil,
    fun _ member => absurd member List.not_mem_nil⟩

namespace Transform

variable
    {counter : String}
    {sink : Sink}
    {before after : Session}

theorem ends_ensureClass {name : String} {declaration : Class} {created : Bool} :
    Ends (ensureClass name declaration) before created after ↔
      created = (before.program.ensureClass name declaration).1 ∧
        after = { before with program := (before.program.ensureClass name declaration).2 } := by
  unfold ensureClass
  simp only [Ends.bind_iff, Ends.get_iff, Ends.set_iff, Ends.pure_iff]
  constructor
  · rintro ⟨_, _, ⟨rfl, rfl⟩, _, _, rfl, rfl, rfl⟩
    exact ⟨rfl, rfl⟩
  · rintro ⟨rfl, rfl⟩
    exact ⟨_, _, ⟨rfl, rfl⟩, ⟨⟩, _, rfl, rfl, rfl⟩

/-- An event changes nothing that later steps read. -/
theorem record_stocked
    (stocked : before.Stocked counter sink)
    {event : Event}
    {done : Unit}
    (ends : Ends (record event) before done after) :
    after.Stocked counter sink ∧ before.Grows counter after := by
  obtain rfl := ends_record.1 ends
  exact ⟨⟨stocked.reports, stocked.className, stocked.counts, stocked.fields, stocked.profiles,
    stocked.typeCounters, stocked.callCounters⟩, ⟨.refl _, rfl, rfl⟩⟩

theorem markGenerated_stocked
    (stocked : before.Stocked counter sink)
    {method : MethodRef}
    {done : Unit}
    (ends : Ends (markGenerated method) before done after) :
    after.Stocked counter sink ∧ before.Grows counter after := by
  obtain rfl := Ends.modify_iff.1 ends
  split
  · exact ⟨stocked, .refl _⟩
  · exact ⟨⟨stocked.reports, stocked.className, stocked.counts, stocked.fields, stocked.profiles,
      stocked.typeCounters, stocked.callCounters⟩, ⟨.refl _, rfl, rfl⟩⟩

theorem ensureCounterClass_stocked
    (stocked : before.Stocked counter sink)
    {created : Bool}
    (ends : Ends ensureCounterClass before created after) :
    after.Stocked counter sink ∧ before.Grows counter after := by
  unfold ensureCounterClass at ends
  rw [Ends.get_bind_iff] at ends
  obtain ⟨-, rfl⟩ := ends_ensureClass.1 ends
  have named := stocked.className
  subst named
  have grows :=
    before.program.growsAt_ensureClass before.counters.className before.counters.declaration
  exact ⟨stocked.withProgram
    (Program.counts_ensureClass stocked.counts (before.counters.declaration_isCounter sink))
    grows.offers, ⟨grows, rfl, rfl⟩⟩

/-- An integer field may be declared on the class of the counters. -/
theorem addCounter_stocked
    (stocked : before.Stocked counter sink)
    {name : String}
    {flags : Flags}
    {reference : FieldRef}
    (ends :
      Ends (changeProgram fun program => program.addField counter ⟨name, .int, flags⟩)
        before reference after) :
    after.Stocked counter sink ∧ before.Grows counter after ∧ reference.Tallies counter := by
  obtain ⟨program, added, rfl⟩ := ends_changeProgram.1 ends
  obtain ⟨declaration, extended, found, addedThere, rfl⟩ := Program.addField_eq_ok added
  have isCounter := stocked.counts declaration found
  have changed :
      extended.IsCounter counter sink ∧ extended.methods = declaration.methods ∧
        reference.Tallies counter := by
    rcases Class.addField_cases addedThere with
      ⟨declared, -, typed, rfl, rfl⟩ | ⟨-, rfl, rfl⟩
    · exact ⟨isCounter, rfl, isCounter.name, typed⟩
    · refine ⟨⟨isCounter.name, isCounter.superclass, isCounter.interfaces, ?_, isCounter.methods⟩,
        rfl, isCounter.name, rfl⟩
      intro field member
      rcases List.mem_append.1 member with old | new
      · exact isCounter.fields field old
      · rw [List.mem_singleton.1 new]
  have keeps :
      ∀ current method, before.program.class? counter = some current →
        (current.method? method []).isSome → (extended.method? method []).isSome := by
    intro current method located declared
    rw [found] at located
    cases located
    unfold Class.method? at *
    rw [changed.2.1]
    exact declared
  exact ⟨stocked.withProgram (Program.counts_modifyClass fun _ _ => changed.1)
    (Program.offers_modifyClass keeps), ⟨Program.growsAt_modifyClass keeps, rfl, rfl⟩, changed.2.2⟩

/-- A static counter is an integer field of the class of the counters. -/
theorem counterFor_stocked
    (stocked : before.Stocked counter sink)
    {owner : CounterOwner}
    {key : String}
    {field : FieldRef}
    (ends : Ends (counterFor owner key) before field after) :
    after.Stocked counter sink ∧ before.Grows counter after ∧ field.Tallies counter := by
  unfold counterFor at ends
  rw [Ends.get_bind_iff] at ends
  cases known : before.counters.fields.get? owner with
  | some counted =>
    rw [known] at ends
    obtain ⟨rfl, rfl⟩ := Ends.pure_iff.1 ends
    exact ⟨stocked, .refl _, stocked.fields owner field known⟩
  | none =>
    rw [known] at ends
    simp only [Ends.bind_iff, Ends.set_iff, Ends.modify_iff, Ends.pure_iff] at ends
    obtain ⟨_, claimed, rfl, created, ensured, ensures, declared, extended, adds, _, _, rfl, rfl,
      rfl⟩ := ends
    have stockedClaimed :
        ({ before with counters := (before.counters.claim owner key).2 } : Session).Stocked
          counter sink :=
      ⟨stocked.reports, stocked.className, stocked.counts, stocked.fields, stocked.profiles,
        stocked.typeCounters, stocked.callCounters⟩
    obtain ⟨stockedEnsured, growsEnsured⟩ := ensureCounterClass_stocked stockedClaimed ensures
    have named : (before.counters.claim owner key).2.className = counter := stocked.className
    rw [named] at adds
    obtain ⟨stockedAdded, growsAdded, tallies⟩ := addCounter_stocked stockedEnsured adds
    have grows := growsEnsured.trans growsAdded
    refine ⟨⟨stockedAdded.reports, stockedAdded.className, stockedAdded.counts, ?_,
      stockedAdded.profiles, stockedAdded.typeCounters, stockedAdded.callCounters⟩,
      ⟨grows.program, grows.profiles, grows.settings⟩, tallies⟩
    intro other found located
    rw [Table.get?_put] at located
    split at located
    · cases located
      exact tallies
    · exact stockedAdded.fields other found located

/-- A method that counts may be declared on the class of the counters, and is offered then. -/
theorem addGenerated_stocked
    (stocked : before.Stocked counter sink)
    {method : Method}
    {done : Unit}
    (tallies : method.Tallies counter sink)
    (ends : Ends (addGenerated counter method) before done after) :
    after.Stocked counter sink ∧ before.Grows counter after ∧
      after.program.offers counter method.name := by
  unfold addGenerated at ends
  simp only [Ends.bind_iff] at ends
  obtain ⟨id, between, adds, marks⟩ := ends
  obtain ⟨program, added, rfl⟩ := ends_changeProgram.1 adds
  obtain ⟨declaration, found, absent, rfl⟩ := Program.addMethod_eq_ok added
  have isCounter := stocked.counts declaration found
  let extended : Class := { declaration with methods := declaration.methods ++ [method] }
  have changed : extended.IsCounter counter sink := by
    refine ⟨isCounter.name, isCounter.superclass, isCounter.interfaces, isCounter.fields, ?_⟩
    intro other member
    rcases List.mem_append.1 member with old | new
    · exact isCounter.methods other old
    · rw [List.mem_singleton.1 new]
      exact tallies
  have keeps :
      ∀ current name, before.program.class? counter = some current →
        (current.method? name []).isSome → (extended.method? name []).isSome := by
    intro current name located declared
    rw [found] at located
    cases located
    exact Program.method?_append_isSome declared
  have stockedAdded :
      ({ before with program := before.program.modifyClass counter fun _ => extended } :
        Session).Stocked counter sink :=
    stocked.withProgram (Program.counts_modifyClass fun _ _ => changed)
      (Program.offers_modifyClass keeps)
  obtain ⟨stockedMarked, growsMarked⟩ := markGenerated_stocked stockedAdded marks
  have growsAdded := Program.growsAt_modifyClass keeps
  refine ⟨stockedMarked,
    ⟨growsAdded.trans growsMarked.program, growsMarked.profiles, growsMarked.settings⟩,
    growsMarked.program.offers _ _ (Program.offers_iff.2 ⟨extended, ?_, ?_⟩)⟩
  · rw [Program.class?_modifyClass, if_pos rfl, found]
    rfl
  · rw [tallies.parameters] at absent
    unfold Class.method? at *
    rw [List.find?_append, absent]
    simp [Method.fits, tallies.parameters]

/-- The method that counts on a static counter is declared on the class of the counters. -/
theorem staticIncrementor_stocked
    (stocked : before.Stocked counter sink)
    {key label : String}
    {field : FieldRef}
    {method : MethodRef}
    (tallies : field.Tallies counter)
    (ends : Ends (staticIncrementor key label field) before method after) :
    after.Stocked counter sink ∧ before.Grows counter after ∧
      ∃ name, after.program.offers counter name ∧ method = ⟨counter, name, [], .void⟩ := by
  unfold staticIncrementor at ends
  rw [Ends.get_bind_iff] at ends
  rw [stocked.className, stocked.reports] at ends
  dsimp only at ends
  split at ends
  · rename_i existing
    obtain ⟨rfl, rfl⟩ := Ends.pure_iff.1 ends
    refine ⟨stocked, .refl _, _, Program.offers_iff.2 ?_, rfl⟩
    obtain ⟨method, located⟩ := Option.isSome_iff_exists.1 existing
    obtain ⟨declaration, found, declared⟩ := Option.bind_eq_some_iff.1 located
    exact ⟨declaration, found, by rw [declared]; rfl⟩
  · simp only [Ends.bind_iff, Ends.pure_iff] at ends
    obtain ⟨_, added, adds, _, recorded, records, rfl, rfl⟩ := ends
    obtain ⟨stockedAdded, growsAdded, offered⟩ :=
      addGenerated_stocked stocked ⟨⟨key, rfl⟩, rfl, label, field, tallies, rfl⟩ adds
    obtain ⟨stockedRecorded, growsRecorded⟩ := record_stocked stockedAdded records
    exact ⟨stockedRecorded, growsAdded.trans growsRecorded, _,
      growsRecorded.program.offers _ _ offered, rfl⟩

theorem typeCounter_stocked
    (stocked : before.Stocked counter sink)
    {name : String}
    {found : TypeCounter}
    (ends : Ends (typeCounter name) before found after) :
    after.Stocked counter sink ∧ before.Grows counter after ∧
      ∀ access, (found.call access).Tallies counter after.program.offers := by
  unfold typeCounter at ends
  rw [Ends.get_bind_iff] at ends
  cases known : before.typeCounters.get? name with
  | some counted =>
    rw [known] at ends
    obtain ⟨rfl, rfl⟩ := Ends.pure_iff.1 ends
    exact ⟨stocked, .refl _, fun access => stocked.typeCounters name found access known⟩
  | none =>
    rw [known] at ends
    simp only [Ends.bind_iff, Ends.modify_iff, Ends.pure_iff] at ends
    obtain ⟨readField, first, readFieldEnds, writeField, second, writeFieldEnds, read, third,
      readEnds, write, fourth, writeEnds, _, _, rfl, rfl, rfl⟩ := ends
    obtain ⟨stockedFirst, growsFirst, talliesRead⟩ := counterFor_stocked stocked readFieldEnds
    obtain ⟨stockedSecond, growsSecond, talliesWrite⟩ :=
      counterFor_stocked stockedFirst writeFieldEnds
    obtain ⟨stockedThird, growsThird, readName, offeredRead, rfl⟩ :=
      staticIncrementor_stocked stockedSecond talliesRead readEnds
    obtain ⟨stockedFourth, growsFourth, writeName, offeredWrite, rfl⟩ :=
      staticIncrementor_stocked stockedThird talliesWrite writeEnds
    have grows := ((growsFirst.trans growsSecond).trans growsThird).trans growsFourth
    have calls :
        ∀ access, Instruction.Tallies counter fourth.program.offers
          (TypeCounter.call ⟨name, readField, writeField, ⟨counter, readName, [], .void⟩,
            ⟨counter, writeName, [], .void⟩⟩ access) := by
      intro access
      cases access with
      | read => exact ⟨readName, growsFourth.program.offers _ _ offeredRead, rfl⟩
      | write => exact ⟨writeName, offeredWrite, rfl⟩
    refine ⟨⟨stockedFourth.reports, stockedFourth.className, stockedFourth.counts,
      stockedFourth.fields, stockedFourth.profiles, ?_, stockedFourth.callCounters⟩,
      ⟨grows.program, grows.profiles, grows.settings⟩, calls⟩
    intro other counted access located
    rw [Table.get?_put] at located
    split at located
    · cases located
      exact calls access
    · exact stockedFourth.typeCounters other counted access located

theorem callCounter_stocked
    (stocked : before.Stocked counter sink)
    {name : String}
    {found : CallCounter}
    (ends : Ends (callCounter name) before found after) :
    after.Stocked counter sink ∧ before.Grows counter after ∧
      found.call.Tallies counter after.program.offers := by
  unfold callCounter at ends
  rw [Ends.get_bind_iff] at ends
  cases known : before.callCounters.get? name with
  | some counted =>
    rw [known] at ends
    obtain ⟨rfl, rfl⟩ := Ends.pure_iff.1 ends
    exact ⟨stocked, .refl _, stocked.callCounters name found known⟩
  | none =>
    rw [known] at ends
    simp only [Ends.bind_iff, Ends.modify_iff, Ends.pure_iff] at ends
    obtain ⟨field, first, fieldEnds, method, second, methodEnds, _, _, rfl, rfl, rfl⟩ := ends
    obtain ⟨stockedFirst, growsFirst, tallies⟩ := counterFor_stocked stocked fieldEnds
    obtain ⟨stockedSecond, growsSecond, methodName, offered, rfl⟩ :=
      staticIncrementor_stocked stockedFirst tallies methodEnds
    have grows := growsFirst.trans growsSecond
    have calls :
        Instruction.Tallies counter second.program.offers
          (CallCounter.call ⟨name, field, ⟨counter, methodName, [], .void⟩⟩) :=
      ⟨methodName, offered, rfl⟩
    refine ⟨⟨stockedSecond.reports, stockedSecond.className, stockedSecond.counts,
      stockedSecond.fields, stockedSecond.profiles, stockedSecond.typeCounters, ?_⟩,
      ⟨grows.program, grows.profiles, grows.settings⟩, calls⟩
    intro other counted located
    rw [Table.get?_put] at located
    split at located
    · cases located
      exact calls
    · exact stockedSecond.callCounters other counted located

end Transform
end AccessProfiler
