import AccessProfiler.Proofs.CountedPrograms
import AccessProfiler.Proofs.FurnishedLookups
import AccessProfiler.Proofs.Observation

/-!
# Members of programs with counting

Which fields and methods a program with counting declares, and where calls of the added methods lead.
Every method is one that counts on a static counter, one of the original program with its planned body,
or one of the two that an instrumented class is given (`Session.Completes.method?_cases`).  A call of one
of these two, on an object whose class has an instrumented class on its superclass chain, leads to the
first such class (`Session.Completes.target?_incrementor`).
-/

namespace AccessProfiler

/-- What the machine takes a field to be has the name of the field. -/
theorem Run.declaredField_name (program : Program) (field : FieldRef) :
    (declaredField program field).name = field.name := by
  rw [declaredField]
  cases resolved : program.resolveField? field.owner field.name with
  | none => rfl
  | some declared =>
    obtain ⟨ancestor, -, located⟩ := List.exists_of_findSome?_eq_some resolved
    obtain ⟨declaration, -, there⟩ := Option.bind_eq_some_iff.1 located
    obtain ⟨found, isField, rfl⟩ := Option.map_eq_some_iff.1 there
    have named : found.name = field.name := by simpa using List.find?_some isField
    exact named

/-- A field that is declared on the class that it names is what the machine takes it to be. -/
theorem Run.declaredField_of_declaredField?
    {program : Program}
    {field : FieldRef}
    (declares : program.declaredField? field.owner field.name = some field) :
    declaredField program field = field := by
  have first : program.chain field.owner = field.owner :: (program.chain field.owner).tail := rfl
  rw [declaredField, Program.resolveField?, first, List.findSome?_cons, declares]
  rfl

/-- The name of a method of the class of the counters tells that it is one. -/
theorem tallyMethod_tallies
    {counter : String}
    {sink : Sink}
    {key label : String}
    {field : FieldRef}
    (tallies : field.Tallies counter) :
    (tallyMethod sink key label field).Tallies counter sink :=
  ⟨⟨key, rfl⟩, rfl, label, field, tallies, rfl⟩

namespace Access

/-- The method that counts the access. -/
def incrementor : Access → String
  | .read => readIncrementor
  | .write => writeIncrementor

/-- The field that holds the count. -/
def countField : Access → String
  | .read => readsField
  | .write => writesField

theorem isIncrementor (access : Access) : IsIncrementor access.incrementor := by
  cases access with
  | read => exact .inl rfl
  | write => exact .inr rfl

/-- Each of the two methods counts one kind of access. -/
theorem exists_of_isIncrementor {name : String} (incrementing : IsIncrementor name) :
    ∃ access : Access, name = access.incrementor := by
  rcases incrementing with rfl | rfl
  · exact ⟨.read, rfl⟩
  · exact ⟨.write, rfl⟩

theorem countField_ne_serialField (access : Access) : access.countField ≠ serialField := by
  cases access <;> decide

theorem isInstrumentationName_countField (access : Access) :
    isInstrumentationName access.countField := by
  cases access <;> decide

end Access

/-- The body of the method of a class that counts an access. -/
def Profile.countingBody (sink : Sink) (className : String) (access : Access) : Body :=
  incrementorBody sink className (.ofInstance className access.countField .int)
    (.ofInstance className serialField .int)

namespace Session

variable {settings : Settings} {program : Program} {session : Session}

/-- What is planned for the bodies of the program. -/
def planned (settings : Settings) (program : Program) (session : Session) : Plan :=
  (withProfiles settings program session.profiles).counting (counts settings program)

/-- The first instrumented class on the superclass chain of a class. -/
def countingClass? (session : Session) (className : String) : Option String :=
  (session.program.chain className).find? fun name => (session.profiles.get? name).isSome

end Session

namespace Session.Completes

variable {settings : Settings} {program : Program} {session : Session}

section Members

variable (completes : session.Completes settings program)
include completes

/-- An instrumented class has the three fields. -/
theorem declaredField?_profile
    (apart : program.NamesApart settings.counterClassName)
    (wellNamed : program.WellNamed)
    {name : String}
    {profile : Profile}
    (known : session.profiles.get? name = some profile)
    {field : String}
    (instruments : isInstrumentationName field) :
    session.program.declaredField? name field = some (.ofInstance name field .int) := by
  have start := completes.furnishes.profiled name profile known
  have differs : name ≠ settings.counterClassName :=
    completes.furnishes.counterName ▸ ne_counterClassName_of_isTransformableClass start
  obtain ⟨declaration, found, -⟩ := class?_of_isTransformableClass start
  obtain ⟨changed, located, tallied⟩ := completes.furnishes.furnished.class?_eq_some differs found
  have same : declaration.name = name := wellNamed.name_eq found
  have named : changed.name = name := tallied.name_eq.trans same
  have absent : declaration.fields.find? (fun declared => declared.name == field) = none := by
    rw [List.find?_eq_none]
    intro declared member same
    have plain := apart.field_plain found member
    rw [beq_iff_eq.1 same, instruments] at plain
    cases plain
  have added :
      Profile.fields.find? (fun declared => declared.name == field) =
        some (Profile.countField field) := by
    simp only [isInstrumentationName, Bool.or_eq_true, beq_iff_eq] at instruments
    rcases instruments with (rfl | rfl) | rfl <;> decide
  have ofInstance : (Profile.countField field).isStatic = false := by
    have : Field.synthetic.includes Field.static = false := by decide
    exact this
  rw [Program.declaredField?, located, Option.bind_some, Class.field?, tallied.fields_eq,
    Class.furnish, known, List.find?_append, absent, Option.none_or, Option.elim_some, added,
    Option.map_some, Field.reference, ofInstance, named]
  rfl

/-- An instrumented class has the two methods. -/
theorem declaredMethod?_profile
    (apart : program.NamesApart settings.counterClassName)
    {name : String}
    {profile : Profile}
    (known : session.profiles.get? name = some profile)
    {added : Method}
    (member : added ∈ profile.methods settings.sink) :
    ∃ method, session.program.declaredMethod? name added.name [] = some (name, method) ∧
      added.Tallied (session.program.Tally settings.counterClassName) method := by
  have start := completes.furnishes.profiled name profile known
  have differs : name ≠ settings.counterClassName :=
    completes.furnishes.counterName ▸ ne_counterClassName_of_isTransformableClass start
  obtain ⟨declaration, found, -⟩ := class?_of_isTransformableClass start
  obtain ⟨changed, located, tallied⟩ := completes.furnishes.furnished.class?_eq_some differs found
  rw [known] at tallied
  let plan (index : Nat) : Body → Body :=
    ((withProfiles settings program session.profiles).counting (counts settings program))
      ⟨name, index⟩
  let matched (method : Method) : Bool := method.fits added.name []
  have absent : (declaration.plannedMethods plan).find? matched = none := by
    rw [List.find?_eq_none]
    intro planned among fits
    obtain ⟨index, located⟩ := List.getElem?_of_mem among
    rw [Class.plannedMethods, List.getElem?_mapIdx] at located
    obtain ⟨method, there, rfl⟩ := Option.map_eq_some_iff.1 located
    have incrementing : IsIncrementor added.name := by
      simp only [Profile.methods, List.mem_cons, List.not_mem_nil, or_false] at member
      rcases member with rfl | rfl
      · exact .inl rfl
      · exact .inr rfl
    have same : method.name = added.name := by
      simp only [matched, Method.fits, Bool.and_eq_true, beq_iff_eq] at fits
      exact fits.1
    exact apart.method_plain found (List.mem_of_getElem? there) (same ▸ incrementing)
  have first : (profile.methods settings.sink).find? matched = some added := by
    have other : (readIncrementor == writeIncrementor) = false := by decide
    simp only [Profile.methods, List.mem_cons, List.not_mem_nil, or_false] at member
    rcases member with rfl | rfl
    · simp [matched, Profile.methods, Profile.incrementorMethod, Method.fits]
    · simp [matched, Profile.methods, Profile.incrementorMethod, Method.fits, other]
  have searched := find?_rel matched matched
    (fun _ _ (related : Method.Tallied _ _ _) => by
      have parts := Method.mk.inj related.signature
      simp only [matched, Method.fits, parts.1, parts.2.1])
    tallied.methods
  rw [Class.furnish, List.find?_append, absent, Option.none_or] at searched
  simp only [Option.elim_some] at searched
  rw [first] at searched
  have declares : ∃ method, changed.methods.find? matched = some method ∧
      added.Tallied (session.program.Tally settings.counterClassName) method := by
    revert searched
    generalize changed.methods.find? matched = result
    intro searched
    cases searched with
    | some related => exact ⟨_, rfl, related⟩
  obtain ⟨method, there, related⟩ := declares
  refine ⟨method, ?_, related⟩
  have there : changed.method? added.name [] = some method := there
  rw [Program.declaredMethod?, located, Option.bind_some, there, Option.map_some]

/-- A static counter is declared. -/
theorem declaredField?_counter
    {owner : CounterOwner}
    {field : FieldRef}
    (known : session.counters.fields.get? owner = some field) :
    session.program.declaredField? field.owner field.name = some field ∧ field.type = .int ∧
      field.isStatic := by
  have ledger := completes.furnishes.ledger
  obtain ⟨-, same⟩ := ledger.names owner field known
  obtain ⟨declaration, found, declares⟩ := ledger.fields owner field known
  obtain ⟨declared, there⟩ := Option.isSome_iff_exists.1 declares
  have holds := ledger.holds declaration found
  obtain ⟨typed, static⟩ := holds.fields declared (List.mem_of_find?_eq_some there)
  have named : declared.name = field.name := by simpa using List.find?_some there
  have reference : declared.reference declaration.name = field := by
    rw [Field.reference, holds.name_eq, ledger.className, named, typed, static, same]
    rfl
  have owned : field.owner = settings.counterClassName := by rw [same]; rfl
  refine ⟨?_, by rw [same]; rfl, by rw [same]; rfl⟩
  rw [Program.declaredField?, owned, found, Option.bind_some, there, Option.map_some, reference]

/-- A static counter is a field of the class of the counters. -/
theorem tallies_of_known
    {owner : CounterOwner}
    {field : FieldRef}
    (known : session.counters.fields.get? owner = some field) :
    field.Tallies settings.counterClassName := by
  rw [(completes.furnishes.ledger.names owner field known).2]
  exact ⟨rfl, rfl⟩

/-- A method that counts on a static counter is declared. -/
theorem declaredMethod?_tally
    {name : String}
    (offered : session.program.offers settings.counterClassName name) :
    ∃ method,
      session.program.declaredMethod? settings.counterClassName name [] =
          some (settings.counterClassName, method) ∧
        method.result = .void ∧ method.isStatic := by
  obtain ⟨declaration, found, declares⟩ := Program.offers_iff.1 offered
  obtain ⟨method, there⟩ := Option.isSome_iff_exists.1 declares
  have holds := completes.furnishes.ledger.holds declaration found
  obtain ⟨key, label, owner, field, -, -, rfl⟩ :=
    holds.methods method (List.mem_of_find?_eq_some there)
  have static : (Method.static.union Method.synthetic).includes Method.static := by decide
  refine ⟨tallyMethod settings.sink key label field, ?_, rfl, static⟩
  rw [Program.declaredMethod?, found, Option.bind_some, there, Option.map_some]

/-- A method of a program with counting counts on a static counter, was there before, or was added to an
instrumented class. -/
theorem method?_cases
    {id : MethodId}
    {current : Method}
    (found : session.program.method? id = some current) :
    (id.owner = settings.counterClassName ∧
      ∃ key label owner field, owner.IsTallied ∧
        session.counters.fields.get? owner = some field ∧
        current = tallyMethod settings.sink key label field) ∨
    id.owner ≠ settings.counterClassName ∧
      ((∃ method, program.method? id = some method ∧
        Method.Tallied (session.program.Tally settings.counterClassName)
          { method with body := method.body.map (planned settings program session id) } current) ∨
      ∃ profile, session.profiles.get? id.owner = some profile ∧
        ∃ added ∈ profile.methods settings.sink,
          added.Tallied (session.program.Tally settings.counterClassName) current) := by
  obtain ⟨changed, declares, located⟩ := Option.bind_eq_some_iff.1 found
  by_cases here : id.owner = settings.counterClassName
  · rw [here] at declares
    exact .inl ⟨here, (completes.furnishes.ledger.holds changed declares).methods current
      (List.mem_of_getElem? located)⟩
  · refine .inr ⟨here, ?_⟩
    obtain ⟨declaration, declared, tallied⟩ :=
      completes.furnishes.furnished.class?_of_current here declares
    rcases tallied.cases_getElem?_methods located with ⟨method, there, related⟩ | added
    · exact .inl ⟨method, Option.bind_eq_some_iff.2 ⟨declaration, declared, there⟩, related⟩
    · exact .inr added

/-- A method with the name of one that counts accesses was added to an instrumented class. -/
theorem added_of_isIncrementor
    (apart : program.NamesApart settings.counterClassName)
    {id : MethodId}
    {current : Method}
    (found : session.program.method? id = some current)
    (incrementing : IsIncrementor current.name) :
    ∃ field, session.profiles.get? id.owner = some (.ofClass id.owner field) ∧
      ∃ added ∈ (Profile.ofClass id.owner field).methods settings.sink,
        added.Tallied (session.program.Tally settings.counterClassName) current := by
  rcases completes.method?_cases found with
    ⟨-, key, label, counted, field, -, known, rfl⟩ |
      ⟨-, ⟨method, has, related⟩ | ⟨profile, known, added⟩⟩
  · exact absurd incrementing
      (tallyMethod_tallies (completes.tallies_of_known known)).not_isIncrementor
  · obtain ⟨declaration, declares, located⟩ := Option.bind_eq_some_iff.1 has
    have same : current.name = method.name := related.name_eq
    exact absurd (same ▸ incrementing) (apart.method_plain declares (List.mem_of_getElem? located))
  · obtain ⟨field, -, rfl⟩ := completes.furnishes.ledger.profiles _ _ known
    exact ⟨field, known, added⟩

/-- The methods that count accesses are those that were added to instrumented classes. -/
theorem findMethod?_incrementor_isSome
    (apart : program.NamesApart settings.counterClassName)
    {name : String}
    (incrementing : IsIncrementor name)
    (owner : String) :
    (session.program.findMethod? owner name []).isSome = (session.profiles.get? owner).isSome := by
  rw [Bool.eq_iff_iff]
  constructor
  · intro declares
    obtain ⟨id, found⟩ := Option.isSome_iff_exists.1 declares
    obtain ⟨same, current, there, named, -⟩ := Program.findMethod?_eq_some found
    obtain ⟨field, known, -⟩ := completes.added_of_isIncrementor apart there (named ▸ incrementing)
    rw [← same, known]
    rfl
  · intro profiled
    obtain ⟨profile, known⟩ := Option.isSome_iff_exists.1 profiled
    have listed : ∃ added ∈ profile.methods settings.sink, added.name = name := by
      rcases incrementing with rfl | rfl
      · exact ⟨_, List.mem_cons_self, rfl⟩
      · exact ⟨_, List.mem_cons_of_mem _ List.mem_cons_self, rfl⟩
    obtain ⟨added, member, rfl⟩ := listed
    obtain ⟨method, declares, -⟩ := completes.declaredMethod?_profile apart known member
    obtain ⟨id, found⟩ := Program.findMethod?_isSome_of_offers
      (show session.program.offers owner added.name by
        rw [Program.offers, declares]
        rfl)
    rw [found]
    rfl

/-- A method with the name of one that counts an access has its body. -/
theorem countingBody_of_named
    (apart : program.NamesApart settings.counterClassName)
    {id : MethodId}
    {current : Method}
    {access : Access}
    (there : session.program.method? id = some current)
    (named : current.name = access.incrementor) :
    (∃ field, session.profiles.get? id.owner = some (.ofClass id.owner field)) ∧
      ∃ body, session.program.body? id = some body ∧
        (Profile.countingBody settings.sink id.owner access).Tallied
          (session.program.Tally settings.counterClassName) body := by
  obtain ⟨field, known, added, member, related⟩ :=
    completes.added_of_isIncrementor apart there (named ▸ access.isIncrementor)
  refine ⟨⟨field, known⟩, ?_⟩
  have sameName : added.name = access.incrementor := related.name_eq.symm.trans named
  have body : added.body = some (Profile.countingBody settings.sink id.owner access) := by
    have distinct : readIncrementor ≠ writeIncrementor := by decide
    simp only [Profile.methods, List.mem_cons, List.not_mem_nil, or_false] at member
    cases access with
    | read =>
      rcases member with rfl | rfl
      · rfl
      · exact absurd sameName.symm distinct
    | write =>
      rcases member with rfl | rfl
      · exact absurd sameName distinct
      · rfl
  have bodies := related.body
  rw [body] at bodies
  cases given : current.body with
  | none =>
    rw [given] at bodies
    cases bodies
  | some changed =>
    rw [given] at bodies
    cases bodies with
    | some relatedBody =>
      exact ⟨changed, Option.bind_eq_some_iff.2 ⟨current, there, given⟩, relatedBody⟩

/-- A body of a program with counting counts on a static counter, is the planned one, or counts accesses to
the instances of its class. -/
theorem body?_cases
    (apart : program.NamesApart settings.counterClassName)
    {id : MethodId}
    {entered : Body}
    (found : session.program.body? id = some entered) :
    (∃ label owner field, owner.IsTallied ∧ session.counters.fields.get? owner = some field ∧
        entered = Profile.staticIncrementorBody settings.sink label field) ∨
      (∃ body, program.body? id = some body ∧
        (planned settings program session id body).Tallied
          (session.program.Tally settings.counterClassName) entered) ∨
      ∃ current access, session.program.method? id = some current ∧
        current.name = Access.incrementor access ∧
        (Profile.countingBody settings.sink id.owner access).Tallied
          (session.program.Tally settings.counterClassName) entered := by
  obtain ⟨current, there, given⟩ := Option.bind_eq_some_iff.1 found
  rcases completes.method?_cases there with
    ⟨-, key, label, owner, field, tallied, counted, rfl⟩ |
      ⟨differs, ⟨method, has, -⟩ | ⟨profile, known, added, member, related⟩⟩
  · exact .inl ⟨label, owner, field, tallied, counted, (Option.some.inj given).symm⟩
  · obtain ⟨body, bodied, planned⟩ := completes.furnishes.furnished.body?_of_current differs has found
    exact .inr (.inl ⟨body, Option.bind_eq_some_iff.2 ⟨method, has, bodied⟩, planned⟩)
  · have named : IsIncrementor added.name := by
      simp only [Profile.methods, List.mem_cons, List.not_mem_nil, or_false] at member
      rcases member with rfl | rfl
      · exact .inl rfl
      · exact .inr rfl
    obtain ⟨access, same⟩ := Access.exists_of_isIncrementor named
    have named : current.name = access.incrementor := related.name_eq.trans same
    obtain ⟨-, body, foundToo, tallied⟩ := completes.countingBody_of_named apart there named
    obtain rfl := Option.some.inj (found.symm.trans foundToo)
    exact .inr (.inr ⟨current, access, there, named, tallied⟩)

/-- A call that counts an access leads to the first instrumented class on the superclass chain of the
class where its search starts, if there is one. -/
theorem target?_incrementor
    (apart : program.NamesApart settings.counterClassName)
    {start owner : String}
    {access : Access}
    {id : MethodId}
    (found :
      Run.target? session.program start ⟨owner, access.incrementor, [], .void⟩ = some id) :
    (∃ field, session.profiles.get? id.owner = some (.ofClass id.owner field)) ∧
      (∃ body, session.program.body? id = some body ∧
        (Profile.countingBody settings.sink id.owner access).Tallied
          (session.program.Tally settings.counterClassName) body) ∧
      ∀ first, session.countingClass? start = some first → id.owner = first := by
  obtain ⟨current, there, named, -⟩ := Program.target?_eq_some found
  have named : current.name = access.incrementor := named
  obtain ⟨known, body⟩ := completes.countingBody_of_named apart there named
  refine ⟨known, body, ?_⟩
  intro first counting
  have holder (name : String) :
      ((session.program.findMethod? name access.incrementor []).map MethodId.owner) =
        Option.guard (fun name => (session.profiles.get? name).isSome) name := by
    have profiled := completes.findMethod?_incrementor_isSome apart access.isIncrementor name
    cases declares : session.program.findMethod? name access.incrementor [] with
    | none =>
      rw [declares] at profiled
      rw [Option.map_none, Option.guard, ← profiled]
      rfl
    | some other =>
      rw [declares] at profiled
      obtain ⟨same, -⟩ := Program.findMethod?_eq_some declares
      rw [Option.map_some, Option.guard, ← profiled, same]
      rfl
  have resolved :
      (session.program.resolveMethod? start access.incrementor []).map Prod.fst = some first := by
    rw [Program.map_fst_resolveMethod?]
    simp only [holder]
    rw [← List.find?_eq_findSome?_guard]
    have counting : (session.program.chain start).find? _ = some first := counting
    rw [counting]
    rfl
  rw [Program.target?_eq_bind] at found
  dsimp only at found
  rw [resolved] at found
  exact (Program.findMethod?_eq_some found).1

end Members
end Session.Completes
end AccessProfiler
