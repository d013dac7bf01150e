import AccessProfiler.Proofs.FreeNames
import AccessProfiler.Proofs.Furnishing
import AccessProfiler.Proofs.Success

/-!
# What a session knows of its counters

Every static counter is a field of its own on the class of the counters, every method of that class
counts on one of them, and the profile of a class is decided by the static counter of its instances
(`Session.Ledger`).  The steps that generate static counters and methods on the class of the counters
always succeed, and keep the ledger (`Transform.counterFor_succeeds`, `typeCounter_succeeds`,
`callCounter_succeeds`).
-/

namespace AccessProfiler

namespace CounterTable

theorem candidate_injective (key : String) : Function.Injective (candidate key) := by
  intro first second same
  have letters := congrArg String.toList same
  cases first with
  | zero =>
    cases second with
    | zero => rfl
    | succ second =>
      have long := congrArg List.length letters
      simp [candidate, Nat.toDigits_ne_nil] at long
  | succ first =>
    cases second with
    | zero =>
      have long := congrArg List.length letters
      simp [candidate, Nat.toDigits_ne_nil] at long
    | succ second =>
      have same : toString (first + 2) = toString (second + 2) := by
        rw [← String.toList_inj]
        simpa [candidate] using letters
      have := Text.toString_injective same
      omega

/-- The name that an owner is given is no other owner's. -/
theorem owner_of_nameFor
    {table : CounterTable}
    {owner other : CounterOwner}
    {key : String}
    (named : table.names.get? (table.nameFor owner key) = some other) :
    other = owner := by
  by_contra differs
  refine Text.firstFree_not_mem (table.takenFrom owner) (candidate_injective key) ?_
  obtain ⟨entry, found, rfl⟩ := Option.map_eq_some_iff.1 named
  have same : entry.1 = table.nameFor owner key := by simpa using List.find?_some found
  refine List.mem_map.2 ⟨entry, List.mem_filter.2 ⟨List.mem_of_find?_eq_some found, ?_⟩, same⟩
  simpa using differs

end CounterTable

/-- The owner is not the instances of a class, whose numbers only constructors give. -/
def CounterOwner.IsTallied : CounterOwner → Prop
  | .instances _ => False
  | _ => True

/-- The method that counts on a static counter. -/
def tallyMethod (sink : Sink) (key label : String) (field : FieldRef) : Method where
  name := "increment" ++ key
  parameters := []
  result := .void
  flags := Method.static.union Method.synthetic
  body := some (Profile.staticIncrementorBody sink label field)

/-- The class that holds the counters of a table. -/
structure Class.HoldsCounters (table : CounterTable) (sink : Sink) (declaration : Class) : Prop where
  shape : { declaration with fields := [], methods := [] } = table.declaration
  fields : ∀ field ∈ declaration.fields, field.type = .int ∧ field.isStatic
  distinctFields : (declaration.fields.map Field.name).Nodup
  methods :
    ∀ method ∈ declaration.methods, ∃ key label owner field, owner.IsTallied ∧
      table.fields.get? owner = some field ∧ method = tallyMethod sink key label field
  distinctMethods : (declaration.methods.map Method.name).Nodup

/-- What a session knows of its counters is there, and nothing else is. -/
structure Session.Ledger (counter : String) (sink : Sink) (session : Session) : Prop where
  reports : session.settings.sink = sink
  className : session.counters.className = counter
  holds :
    ∀ declaration, session.program.class? counter = some declaration →
      declaration.HoldsCounters session.counters sink
  names :
    ∀ owner field, session.counters.fields.get? owner = some field →
      session.counters.names.get? field.name = some owner ∧
        field = .ofClass counter field.name .int
  fields :
    ∀ owner field, session.counters.fields.get? owner = some field →
      ∃ declaration, session.program.class? counter = some declaration ∧
        (declaration.field? field.name).isSome
  profiles :
    ∀ name profile, session.profiles.get? name = some profile →
      ∃ field, session.counters.fields.get? (.instances name) = some field ∧
        profile = .ofClass name field
  typeCounters :
    ∀ name found access, session.typeCounters.get? name = some found →
      session.program.Tally counter (found.call access)
  callCounters :
    ∀ name found, session.callCounters.get? name = some found →
      session.program.Tally counter found.call
  wrappers : ∀ name, session.wrappers.get? name = none

/-- Only the class of the counters changes, and only what counts on static counters is added. -/
structure Session.Extends (counter : String) (before after : Session) : Prop where
  grows : before.Grows counter after
  counters :
    ∀ owner field, before.counters.fields.get? owner = some field →
      after.counters.fields.get? owner = some field
  wrappers : after.wrappers = before.wrappers

section Ledgers

variable {counter : String} {sink : Sink} {session before between after : Session}

theorem Session.Extends.refl (session : Session) : session.Extends counter session :=
  ⟨.refl _, fun _ _ known => known, rfl⟩

theorem Session.Extends.trans
    (extendsFirst : before.Extends counter between)
    (further : between.Extends counter after) :
    before.Extends counter after :=
  ⟨extendsFirst.grows.trans further.grows,
    fun owner field known => further.counters owner field (extendsFirst.counters owner field known),
    further.wrappers.trans extendsFirst.wrappers⟩

/-- Two owners never share a static counter. -/
theorem Session.Ledger.owner_unique
    (ledger : session.Ledger counter sink)
    {first second : CounterOwner}
    {field : FieldRef}
    (known : session.counters.fields.get? first = some field)
    (knownToo : session.counters.fields.get? second = some field) :
    first = second := by
  have named := (ledger.names first field known).1
  rw [(ledger.names second field knownToo).1] at named
  exact (Option.some.inj named).symm

/-- Nothing of this depends on the events that were recorded, nor on what was generated where. -/
theorem Session.Ledger.annotate
    (ledger : session.Ledger counter sink)
    (generated : List String)
    (transformed : List MethodId)
    (journal : Journal) :
    ({ session with generated, transformed, journal } : Session).Ledger counter sink :=
  ⟨ledger.reports, ledger.className, ledger.holds, ledger.names, ledger.fields, ledger.profiles,
    ledger.typeCounters, ledger.callCounters, ledger.wrappers⟩

theorem Session.Extends.annotate
    (session : Session)
    (generated : List String)
    (transformed : List MethodId)
    (journal : Journal) :
    session.Extends counter { session with generated, transformed, journal } :=
  ⟨⟨.refl _, rfl, rfl⟩, fun _ _ known => known, rfl⟩

/-- The ledger speaks of one class only. -/
theorem Session.Ledger.withProgram
    (ledger : session.Ledger counter sink)
    {program : Program}
    (same : program.class? counter = session.program.class? counter) :
    ({ session with program } : Session).Ledger counter sink := by
  have tallies {call : Instruction} (tallied : session.program.Tally counter call) :
      program.Tally counter call :=
    tallied.mono fun name offered => by
      rw [Program.offers_iff] at offered ⊢
      rw [same]
      exact offered
  exact
    { reports := ledger.reports
      className := ledger.className
      holds := fun declaration found => ledger.holds declaration (same ▸ found)
      names := ledger.names
      fields := fun owner field known => by
        obtain ⟨declaration, found, declared⟩ := ledger.fields owner field known
        exact ⟨declaration, same.trans found, declared⟩
      profiles := ledger.profiles
      typeCounters := fun name found access known =>
        tallies (ledger.typeCounters name found access known)
      callCounters := fun name found known => tallies (ledger.callCounters name found known)
      wrappers := ledger.wrappers }

end Ledgers

namespace Class.HoldsCounters

variable
    {table : CounterTable}
    {sink : Sink}
    {declaration : Class}
    (holds : declaration.HoldsCounters table sink)
include holds

theorem name_eq : declaration.name = table.className :=
  (Class.mk.inj holds.shape).1

theorem superclass_eq : declaration.superclass = some objectClass :=
  (Class.mk.inj holds.shape).2.1

theorem interfaces_eq : declaration.interfaces = [] :=
  (Class.mk.inj holds.shape).2.2.1

/-- A method of the class has no parameters, so that its name tells it apart. -/
theorem parameters_eq {method : Method} (member : method ∈ declaration.methods) :
    method.parameters = [] := by
  obtain ⟨key, label, owner, field, -, -, rfl⟩ := holds.methods method member
  rfl

/-- More counters may come in. -/
theorem mono
    {larger : CounterTable}
    (className : larger.className = table.className)
    (le :
      ∀ owner field, table.fields.get? owner = some field → larger.fields.get? owner = some field) :
    declaration.HoldsCounters larger sink where
  shape := by
    rw [holds.shape, CounterTable.declaration, CounterTable.declaration, className]
  fields := holds.fields
  distinctFields := holds.distinctFields
  methods method member := by
    obtain ⟨key, label, owner, field, tallied, known, same⟩ := holds.methods method member
    exact ⟨key, label, owner, field, tallied, le owner field known, same⟩
  distinctMethods := holds.distinctMethods

/-- A static counter can be declared under any name. -/
theorem addField (name : String) :
    ∃ extended,
      declaration.addField ⟨name, .int, Field.static.union Field.synthetic⟩ =
          .ok (.ofClass table.className name .int, extended) ∧
        extended.HoldsCounters table sink ∧ extended.methods = declaration.methods ∧
        (extended.field? name).isSome ∧
        ∀ other, (declaration.field? other).isSome → (extended.field? other).isSome := by
  have static : Field.isStatic ⟨name, .int, Field.static.union Field.synthetic⟩ := by
    have : (Field.static.union Field.synthetic).includes Field.static := by decide
    exact this
  cases found : declaration.field? name with
  | some declared =>
    obtain ⟨typed, isStatic⟩ := holds.fields declared (List.mem_of_find?_eq_some found)
    have named : declared.name = name := by simpa using List.find?_some found
    have same : declared.reference declaration.name = .ofClass table.className name .int := by
      simp [Field.reference, FieldRef.ofClass, named, typed, isStatic, holds.name_eq]
    refine ⟨declaration, ?_, holds, rfl, by simp [found], fun _ declares => declares⟩
    simp [Class.addField, found, typed, same]
  | none =>
    have absent : name ∉ declaration.fields.map Field.name := by
      intro member
      obtain ⟨field, listed, named⟩ := List.mem_map.1 member
      have := List.find?_eq_none.1 found field listed
      simp [named] at this
    refine ⟨{ declaration with
        fields := declaration.fields ++ [⟨name, .int, Field.static.union Field.synthetic⟩] },
      ?_, ⟨holds.shape, ?_, ?_, holds.methods, holds.distinctMethods⟩, rfl, ?_, ?_⟩
    · rw [Class.addField_of_absent found, Field.reference, static, holds.name_eq]
      rfl
    · intro field member
      rcases List.mem_append.1 member with old | new
      · exact holds.fields field old
      · rw [List.mem_singleton.1 new]
        exact ⟨rfl, static⟩
    · rw [List.map_append, List.nodup_append]
      refine ⟨holds.distinctFields, List.nodup_singleton _, ?_⟩
      intro other member last single same
      rw [List.map_singleton, List.mem_singleton] at single
      rw [same, single] at member
      exact absent member
    · simp [Class.field?]
    · intro other declares
      rw [Class.field?, List.find?_isSome] at declares ⊢
      obtain ⟨field, listed, named⟩ := declares
      exact ⟨field, List.mem_append_left _ listed, named⟩

/-- A method that counts on a static counter can be declared under a name that is free. -/
theorem addMethod
    {key : String}
    (label : String)
    {owner : CounterOwner}
    {field : FieldRef}
    (tallied : owner.IsTallied)
    (known : table.fields.get? owner = some field)
    (free : declaration.method? ("increment" ++ key) [] = none) :
    Class.HoldsCounters table sink
      { declaration with methods := declaration.methods ++ [tallyMethod sink key label field] } where
  shape := holds.shape
  fields := holds.fields
  distinctFields := holds.distinctFields
  methods method member := by
    rcases List.mem_append.1 member with old | new
    · exact holds.methods method old
    · exact ⟨key, label, owner, field, tallied, known, List.mem_singleton.1 new⟩
  distinctMethods := by
    rw [List.map_append, List.nodup_append]
    refine ⟨holds.distinctMethods, List.nodup_singleton _, ?_⟩
    intro name member other single same
    rw [List.map_singleton, List.mem_singleton] at single
    subst single
    obtain ⟨method, listed, named⟩ := List.mem_map.1 member
    have unfit := List.find?_eq_none.1 free method listed
    have sameName : method.name = "increment" ++ key := named.trans same
    simp [Method.fits, sameName, holds.parameters_eq listed] at unfit

end Class.HoldsCounters

theorem CounterTable.declaration_holdsCounters (table : CounterTable) (sink : Sink) :
    table.declaration.HoldsCounters table sink :=
  ⟨rfl, fun _ member => absurd member List.not_mem_nil, List.nodup_nil,
    fun _ member => absurd member List.not_mem_nil, List.nodup_nil⟩

namespace Transform

variable
    {Value : Type}
    {counter : String}
    {sink : Sink}
    {before : Session}

theorem changeProgram_succeeds
    {change : Program → Except Error (Value × Program)}
    {value : Value}
    {program : Program}
    {Holds : Value → Session → Prop}
    (changes : change before.program = .ok (value, program))
    (holds : Holds value { before with program }) :
    Succeeds (changeProgram change) before Holds :=
  ⟨value, _, ends_changeProgram.2 ⟨program, changes, rfl⟩, holds⟩

/-- What follows on an event being recorded does not depend on the events. -/
theorem record_bind
    {event : Event}
    {next : Unit → Transform Value}
    {Holds : Value → Session → Prop}
    (succeeds : ∀ journal, Succeeds (next ()) { before with journal } Holds) :
    Succeeds (record event >>= next) before Holds := by
  obtain ⟨value, after, ends, holds⟩ := succeeds (before.journal ++ [event])
  exact ⟨value, after, Ends.bind_iff.2 ⟨(), _, ends_record.2 rfl, ends⟩, holds⟩

/-- The class of the counters is registered on the first request. -/
theorem ensureCounterClass_succeeds
    (ledger : before.Ledger counter sink) :
    Succeeds ensureCounterClass before fun _ after =>
      after.Ledger counter sink ∧ before.Extends counter after ∧
        after.generated = before.generated ∧ after.counters = before.counters ∧
        ∃ declaration, after.program.class? counter = some declaration := by
  have named := ledger.className
  subst named
  let counters := before.counters
  let ensured := before.program.ensureClass counters.className counters.declaration
  have registered :
      ensured.2.class? counters.className =
        some ((before.program.class? counters.className).getD counters.declaration) := by
    rw [Program.class?_ensureClass, if_pos rfl]
  have grows : before.program.GrowsAt counters.className ensured.2 :=
    before.program.growsAt_ensureClass counters.className counters.declaration
  have tallies {call : Instruction} (tallied : before.program.Tally counters.className call) :
      ensured.2.Tally counters.className call :=
    tallied.mono (grows.offers _)
  have ends : Ends ensureCounterClass before ensured.1 { before with program := ensured.2 } :=
    Ends.get_bind_iff.2 (ends_ensureClass.2 ⟨rfl, rfl⟩)
  have ledgerEnsured :
      ({ before with program := ensured.2 } : Session).Ledger counters.className sink :=
    { reports := ledger.reports
      className := rfl
      holds := fun declaration found => by
        rw [registered] at found
        cases present : before.program.class? counters.className with
        | none =>
          rw [present] at found
          cases found
          exact counters.declaration_holdsCounters sink
        | some old =>
          rw [present] at found
          cases found
          exact ledger.holds old present
      names := ledger.names
      fields := fun owner field known => by
        obtain ⟨declaration, found, declared⟩ := ledger.fields owner field known
        refine ⟨declaration, ?_, declared⟩
        rw [registered, found]
        rfl
      profiles := ledger.profiles
      typeCounters := fun name found access known =>
        tallies (ledger.typeCounters name found access known)
      callCounters := fun name found known => tallies (ledger.callCounters name found known)
      wrappers := ledger.wrappers }
  exact ⟨ensured.1, _, ends, ledgerEnsured, ⟨⟨grows, rfl, rfl⟩, fun _ _ known => known, rfl⟩, rfl,
    rfl, _, registered⟩

/-- To give a name to an owner that has no counter keeps the ledger. -/
theorem claim_ledger
    (ledger : before.Ledger counter sink)
    {owner : CounterOwner}
    (key : String)
    (absent : before.counters.fields.get? owner = none) :
    ({ before with counters := (before.counters.claim owner key).2 } : Session).Ledger counter
      sink where
  reports := ledger.reports
  className := ledger.className
  holds declaration found := (ledger.holds declaration found).mono rfl fun _ _ known => known
  names other field known := by
    obtain ⟨named, same⟩ := ledger.names other field known
    refine ⟨?_, same⟩
    simp only [CounterTable.claim, Table.get?_put]
    split
    · rename_i taken
      rw [taken] at named
      rw [CounterTable.owner_of_nameFor named] at known
      cases absent.symm.trans known
    · exact named
  fields := ledger.fields
  profiles := ledger.profiles
  typeCounters := ledger.typeCounters
  callCounters := ledger.callCounters
  wrappers := ledger.wrappers

/-- A field of the class of the counters becomes the counter of an owner that has the name. -/
theorem put_ledger
    (ledger : before.Ledger counter sink)
    {owner : CounterOwner}
    {name : String}
    {declaration extended : Class}
    (absent : before.counters.fields.get? owner = none)
    (named : before.counters.names.get? name = some owner)
    (found : before.program.class? counter = some declaration)
    (holds : extended.HoldsCounters before.counters sink)
    (methods : extended.methods = declaration.methods)
    (declares : (extended.field? name).isSome)
    (keeps : ∀ other, (declaration.field? other).isSome → (extended.field? other).isSome) :
    ({ before with
      program := before.program.modifyClass counter fun _ => extended
      counters :=
        { before.counters with
          fields := before.counters.fields.put owner (.ofClass counter name .int) } } :
      Session).Ledger counter sink := by
  have registered :
      (before.program.modifyClass counter fun _ => extended).class? counter = some extended := by
    rw [Program.class?_modifyClass, if_pos rfl, found]
    rfl
  have tallies {call : Instruction} (tallied : before.program.Tally counter call) :
      (before.program.modifyClass counter fun _ => extended).Tally counter call := by
    refine tallied.mono fun name offered => ?_
    rw [Program.offers_iff] at offered ⊢
    obtain ⟨old, foundOld, declared⟩ := offered
    rw [found] at foundOld
    cases foundOld
    refine ⟨extended, registered, ?_⟩
    rw [Class.method?, methods]
    exact declared
  have more :
      ∀ other field, before.counters.fields.get? other = some field →
        (before.counters.fields.put owner (.ofClass counter name .int)).get? other = some field := by
    intro other field known
    rw [Table.get?_put, if_neg, known]
    rintro rfl
    rw [absent] at known
    cases known
  exact
    { reports := ledger.reports
      className := ledger.className
      holds := fun current located => by
        rw [registered] at located
        cases located
        exact holds.mono rfl more
      names := fun other field known => by
        rw [Table.get?_put] at known
        split at known
        · rename_i same
          cases known
          exact ⟨same ▸ named, rfl⟩
        · exact ledger.names other field known
      fields := fun other field known => by
        refine ⟨extended, registered, ?_⟩
        rw [Table.get?_put] at known
        split at known
        · cases known
          exact declares
        · obtain ⟨old, foundOld, declared⟩ := ledger.fields other field known
          rw [found] at foundOld
          cases foundOld
          exact keeps _ declared
      profiles := fun className profile known => by
        obtain ⟨field, counted, same⟩ := ledger.profiles className profile known
        exact ⟨field, more _ field counted, same⟩
      typeCounters := fun className counted access known =>
        tallies (ledger.typeCounters className counted access known)
      callCounters := fun className counted known =>
        tallies (ledger.callCounters className counted known)
      wrappers := ledger.wrappers }

/-- Every owner has a static counter on request, a field of its own on the class of the counters. -/
theorem counterFor_succeeds
    (ledger : before.Ledger counter sink)
    (owner : CounterOwner)
    (key : String) :
    Succeeds (counterFor owner key) before fun field after =>
      after.Ledger counter sink ∧ before.Extends counter after ∧
        after.generated = before.generated ∧ after.counters.fields.get? owner = some field := by
  unfold counterFor
  apply Succeeds.get_bind
  cases known : before.counters.fields.get? owner with
  | some field => exact .pure ⟨ledger, .refl _, rfl, known⟩
  | none =>
    apply Succeeds.set_bind
    refine (ensureCounterClass_succeeds (claim_ledger ledger key known)).bind ?_
    rintro _ ensured ⟨ledgerEnsured, extension, generated, counters, declaration, found⟩
    let name := before.counters.nameFor owner key
    have named : ensured.counters.names.get? name = some owner := by
      rw [counters, CounterTable.claim, Table.get?_put, if_pos rfl]
    have absent : ensured.counters.fields.get? owner = none := by
      rw [counters]
      exact known
    obtain ⟨extended, added, holds, methods, declares, keeps⟩ :=
      (ledgerEnsured.holds declaration found).addField name
    rw [ledgerEnsured.className] at added
    dsimp only [CounterTable.claim]
    rw [ledger.className]
    refine Succeeds.bind
      (changeProgram_succeeds (Program.addField_of_class? found added) ⟨rfl, rfl⟩ :
        Succeeds _ _ fun field session =>
          field = .ofClass counter name .int ∧
            session =
              { ensured with program := ensured.program.modifyClass counter fun _ => extended }) ?_
    rintro _ _ ⟨rfl, rfl⟩
    apply Succeeds.modify_bind
    have grows :
        ensured.program.GrowsAt counter
          (ensured.program.modifyClass counter fun _ => extended) := by
      refine Program.growsAt_modifyClass fun current method located declared => ?_
      rw [found] at located
      cases located
      rw [Class.method?, methods]
      exact declared
    refine .pure ⟨put_ledger ledgerEnsured absent named found holds methods declares keeps,
      ⟨⟨extension.grows.program.trans grows, extension.grows.profiles, extension.grows.settings⟩,
        ?_, extension.wrappers⟩, generated, ?_⟩
    · intro other field counted
      rw [Table.get?_put, if_neg, counters]
      · exact counted
      · rintro rfl
        rw [known] at counted
        cases counted
    · rw [Table.get?_put, if_pos rfl]

/-- A generated method is declared where its name and parameters are free. -/
theorem addGenerated_succeeds
    {owner : String}
    {declaration : Class}
    {method : Method}
    {Holds : Unit → Session → Prop}
    (found : before.program.class? owner = some declaration)
    (free : declaration.method? method.name method.parameters = none)
    (holds :
      ∀ generated,
        generated = before.generated ∨
            generated = before.generated ++ [(method.reference owner).qualifiedName] →
          Holds ()
            { before with
              program :=
                before.program.modifyClass owner fun _ =>
                  { declaration with methods := declaration.methods ++ [method] }
              generated }) :
    Succeeds (addGenerated owner method) before Holds := by
  unfold addGenerated
  refine Succeeds.bind
    (changeProgram_succeeds (Program.addMethod_of_class? found free) rfl :
      Succeeds _ _ fun _ session =>
        session =
          { before with
            program :=
              before.program.modifyClass owner fun _ =>
                { declaration with methods := declaration.methods ++ [method] } }) ?_
  rintro _ _ rfl
  refine ⟨(), _, Ends.modify_iff.2 rfl, ?_⟩
  split
  · exact holds before.generated (.inl rfl)
  · exact holds _ (.inr rfl)

/-- A method of the class of the counters is generated for a static counter. -/
theorem addTally_succeeds
    (ledger : before.Ledger counter sink)
    {owner : CounterOwner}
    {field : FieldRef}
    {key : String}
    (label : String)
    (tallied : owner.IsTallied)
    (known : before.counters.fields.get? owner = some field)
    (free :
      ((before.program.class? counter).bind fun declared =>
        declared.method? ("increment" ++ key) []) = none) :
    Succeeds (addGenerated counter (tallyMethod sink key label field)) before fun _ after =>
      after.Ledger counter sink ∧ before.Extends counter after ∧
        after.program.offers counter ("increment" ++ key) := by
  obtain ⟨declaration, found, -⟩ := ledger.fields owner field known
  rw [found, Option.bind_some] at free
  let extended : Class :=
    { declaration with methods := declaration.methods ++ [tallyMethod sink key label field] }
  have registered :
      (before.program.modifyClass counter fun _ => extended).class? counter = some extended := by
    rw [Program.class?_modifyClass, if_pos rfl, found]
    rfl
  have holds := (ledger.holds declaration found).addMethod label tallied known free
  have keeps :
      ∀ current name, before.program.class? counter = some current →
        (current.method? name []).isSome → (extended.method? name []).isSome := by
    intro current name located declared
    rw [found] at located
    cases located
    exact Program.method?_append_isSome declared
  have grows := Program.growsAt_modifyClass keeps
  have tallies {call : Instruction} (tallied : before.program.Tally counter call) :
      (before.program.modifyClass counter fun _ => extended).Tally counter call :=
    tallied.mono (grows.offers counter)
  refine addGenerated_succeeds found free fun generated _ => ⟨?_, ⟨⟨grows, rfl, rfl⟩,
    fun _ _ counted => counted, rfl⟩, Program.offers_iff.2 ⟨extended, registered, ?_⟩⟩
  · exact
      { reports := ledger.reports
        className := ledger.className
        holds := fun current located => by
          rw [registered] at located
          cases located
          exact holds
        names := ledger.names
        fields := fun other counted knownToo => by
          obtain ⟨old, foundOld, declared⟩ := ledger.fields other counted knownToo
          rw [found] at foundOld
          cases foundOld
          exact ⟨extended, registered, declared⟩
        profiles := ledger.profiles
        typeCounters := fun name counted access knownToo =>
          tallies (ledger.typeCounters name counted access knownToo)
        callCounters := fun name counted knownToo =>
          tallies (ledger.callCounters name counted knownToo)
        wrappers := ledger.wrappers }
  · rw [Class.method?, List.find?_isSome]
    exact ⟨_, List.mem_append_right _ (List.mem_singleton.2 rfl), by simp [tallyMethod, Method.fits]⟩

/-- The method that counts on a static counter is on the class of the counters after a request. -/
theorem staticIncrementor_succeeds
    (ledger : before.Ledger counter sink)
    (owner : CounterOwner)
    {field : FieldRef}
    (tallied : owner.IsTallied)
    (known : before.counters.fields.get? owner = some field)
    (key label : String) :
    Succeeds (staticIncrementor key label field) before fun method after =>
      after.Ledger counter sink ∧ before.Extends counter after ∧
        ∃ name, after.program.offers counter name ∧ method = ⟨counter, name, [], .void⟩ := by
  unfold staticIncrementor
  apply Succeeds.get_bind
  rw [ledger.className, ledger.reports]
  dsimp only
  split
  · rename_i existing
    obtain ⟨method, located⟩ := Option.isSome_iff_exists.1 existing
    obtain ⟨declaration, found, declared⟩ := Option.bind_eq_some_iff.1 located
    exact .pure ⟨ledger, .refl _, _,
      Program.offers_iff.2 ⟨declaration, found, by rw [declared]; rfl⟩, rfl⟩
  · rename_i absent
    have free := Option.not_isSome_iff_eq_none.1 absent
    refine (addTally_succeeds ledger label tallied known free).bind ?_
    rintro _ added ⟨ledgerAdded, extension, offered⟩
    apply record_bind
    intro journal
    exact .pure ⟨ledgerAdded.annotate added.generated added.transformed journal,
      extension.trans (.annotate added added.generated added.transformed journal), _, offered, rfl⟩

/-- A type has its two counters, and calls that count on them, on request. -/
theorem typeCounter_succeeds (ledger : before.Ledger counter sink) (name : String) :
    Succeeds (typeCounter name) before fun found after =>
      after.Ledger counter sink ∧ before.Extends counter after ∧
        ∀ access, after.program.Tally counter (found.call access) := by
  unfold typeCounter
  apply Succeeds.get_bind
  cases known : before.typeCounters.get? name with
  | some found =>
    exact .pure ⟨ledger, .refl _, fun access => ledger.typeCounters name found access known⟩
  | none =>
    refine (counterFor_succeeds ledger (.reads name) _).bind ?_
    rintro readField first ⟨ledgerFirst, toFirst, -, knownRead⟩
    refine (counterFor_succeeds ledgerFirst (.writes name) _).bind ?_
    rintro writeField second ⟨ledgerSecond, toSecond, -, knownWrite⟩
    refine (staticIncrementor_succeeds ledgerSecond (.reads name) trivial
      (toSecond.counters _ _ knownRead) _ _).bind ?_
    rintro _ third ⟨ledgerThird, toThird, readName, offeredRead, rfl⟩
    refine (staticIncrementor_succeeds ledgerThird (.writes name) trivial
      (toThird.counters _ _ knownWrite) _ _).bind ?_
    rintro _ fourth ⟨ledgerFourth, toFourth, writeName, offeredWrite, rfl⟩
    have calls (access : Access) :
        fourth.program.Tally counter
          (TypeCounter.call ⟨name, readField, writeField, ⟨counter, readName, [], .void⟩,
            ⟨counter, writeName, [], .void⟩⟩ access) := by
      cases access with
      | read => exact ⟨readName, toFourth.grows.program.offers _ _ offeredRead, rfl⟩
      | write => exact ⟨writeName, offeredWrite, rfl⟩
    have extension := ((toFirst.trans toSecond).trans toThird).trans toFourth
    apply Succeeds.modify_bind
    refine .pure ⟨?_, ⟨⟨extension.grows.program, extension.grows.profiles,
      extension.grows.settings⟩, extension.counters, extension.wrappers⟩, calls⟩
    refine { ledgerFourth with typeCounters := fun other found access located => ?_ }
    rw [Table.get?_put] at located
    split at located
    · cases located
      exact calls access
    · exact ledgerFourth.typeCounters other found access located

/-- A name has its counter of calls, and a call that counts on it, on request. -/
theorem callCounter_succeeds (ledger : before.Ledger counter sink) (name : String) :
    Succeeds (callCounter name) before fun found after =>
      after.Ledger counter sink ∧ before.Extends counter after ∧
        after.program.Tally counter found.call := by
  unfold callCounter
  apply Succeeds.get_bind
  cases known : before.callCounters.get? name with
  | some found => exact .pure ⟨ledger, .refl _, ledger.callCounters name found known⟩
  | none =>
    refine (counterFor_succeeds ledger (.calls name) _).bind ?_
    rintro field first ⟨ledgerFirst, toFirst, -, counted⟩
    refine (staticIncrementor_succeeds ledgerFirst (.calls name) trivial counted _ _).bind ?_
    rintro _ second ⟨ledgerSecond, toSecond, methodName, offered, rfl⟩
    have call :
        second.program.Tally counter
          (CallCounter.call ⟨name, field, ⟨counter, methodName, [], .void⟩⟩) :=
      ⟨methodName, offered, rfl⟩
    have extension := toFirst.trans toSecond
    apply Succeeds.modify_bind
    refine .pure ⟨?_, ⟨⟨extension.grows.program, extension.grows.profiles,
      extension.grows.settings⟩, extension.counters, extension.wrappers⟩, call⟩
    refine { ledgerSecond with callCounters := fun other found located => ?_ }
    rw [Table.get?_put] at located
    split at located
    · cases located
      exact call
    · exact ledgerSecond.callCounters other found located

end Transform
end AccessProfiler
