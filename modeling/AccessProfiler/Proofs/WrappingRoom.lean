import AccessProfiler.Proofs.Conservation
import AccessProfiler.Proofs.CountedBodies

/-!
# Room for wrappers

The class of a wrapper can always be completed if nothing else is in its way.  Generated classes have
fields that are numbers, apart from the field in which a wrapper keeps its array (`Class.Roomy`), so that
counts can be declared on them at any time, even if the class of the counters has the name of a wrapper.
The steps that generate members succeed on such classes, and register no class but that of the counters
(`Session.Advances`).
-/

namespace AccessProfiler

/-- The class has instances, and its fields are numbers, apart from the one that keeps an array. -/
structure Class.Roomy (declaration : Class) : Prop where
  concrete : declaration.isInterface = false
  fields : ∀ field ∈ declaration.fields, field.name = arrayField ∨ field.type = .int

/-- No array is kept in the instances of a class. -/
def Program.Bare (program : Program) (name : String) : Prop :=
  (program.class? name).bind (fun declaration => declaration.field? arrayField) = none

/-- There is room for members of wrappers on every class that can be generated. -/
structure Session.Ready (settings : Settings) (session : Session) : Prop where
  className : session.counters.className = settings.counterClassName
  classes :
    ∀ {name : String} {declaration : Class}, settings.Generates name →
      session.program.class? name = some declaration → declaration.Roomy
  settings : session.settings = settings

/-- No wrapper is remembered and no class is registered, apart from that of the counters; of some classes
it is known that none of them begins to keep arrays. -/
structure Session.Advances
    (settings : Settings)
    (Spared : String → Prop)
    (before after : Session) : Prop where
  wrappers : after.wrappers = before.wrappers
  kept :
    ∀ {name : String}, (before.program.class? name).isSome → (after.program.class? name).isSome
  added :
    ∀ {name : String}, (after.program.class? name).isSome →
      (before.program.class? name).isSome ∨ name = settings.counterClassName
  bare : ∀ {name : String}, Spared name → before.program.Bare name → after.program.Bare name

/-- A class is registered, unless it was, and nothing else happens. -/
structure Session.Registers (before : Session) (name : String) (after : Session) : Prop where
  wrappers : after.wrappers = before.wrappers
  classes :
    ∀ other, (after.program.class? other).isSome ↔
      (before.program.class? other).isSome ∨ other = name
  bare : ∀ {other : String}, before.program.Bare other → after.program.Bare other

namespace Session

variable
    {settings : Settings}
    {Spared : String → Prop}
    {before between after : Session}

theorem Advances.refl (session : Session) : session.Advances settings Spared session :=
  ⟨rfl, id, .inl, fun _ bare => bare⟩

theorem Advances.trans
    (advances : before.Advances settings Spared between)
    (further : between.Advances settings Spared after) :
    before.Advances settings Spared after where
  wrappers := further.wrappers.trans advances.wrappers
  kept registered := further.kept (advances.kept registered)
  added registered := by
    rcases further.added registered with there | counts
    · exact advances.added there
    · exact .inr counts
  bare spared bare := further.bare spared (advances.bare spared bare)

/-- Nothing of this depends on what else the session remembers. -/
theorem Ready.annotate
    (ready : before.Ready settings)
    (same : after.program = before.program)
    (counters : after.counters.className = before.counters.className)
    (settingsSame : after.settings = before.settings) :
    after.Ready settings where
  className := counters.trans ready.className
  classes generates found := ready.classes generates (same ▸ found)
  settings := settingsSame.trans ready.settings

theorem Advances.annotate
    (same : after.program = before.program)
    (wrappers : after.wrappers = before.wrappers) :
    before.Advances settings Spared after :=
  ⟨wrappers, fun registered => same ▸ registered, fun registered => .inl (same ▸ registered),
    fun _ bare => same ▸ bare⟩

end Session

/-- A class gets a declaration that leaves room; it begins to keep arrays only if it is not spared. -/
theorem Session.Ready.modifyClass
    {settings : Settings}
    {session : Session}
    {name : String}
    {declaration extended : Class}
    (ready : session.Ready settings)
    (Spared : String → Prop)
    (found : session.program.class? name = some declaration)
    (roomy : extended.Roomy)
    (bare :
      Spared name → declaration.field? arrayField = none → extended.field? arrayField = none) :
    let after : Session :=
      { session with program := session.program.modifyClass name fun _ => extended }
    after.Ready settings ∧ session.Advances settings Spared after ∧
      after.program.class? name = some extended := by
  have registered :
      (session.program.modifyClass name fun _ => extended).class? name = some extended := by
    rw [Program.class?_modifyClass, if_pos rfl, found, Option.map_some]
  have elsewhere {other : String} (differs : other ≠ name) :
      (session.program.modifyClass name fun _ => extended).class? other =
        session.program.class? other := by
    rw [Program.class?_modifyClass, if_neg differs]
  have same (other : String) :
      ((session.program.modifyClass name fun _ => extended).class? other).isSome =
        (session.program.class? other).isSome := by
    by_cases equal : other = name
    · rw [equal, registered, found]
      rfl
    · rw [elsewhere equal]
  refine ⟨⟨ready.className, ?_, ready.settings⟩, ⟨rfl, ?_, ?_, ?_⟩, registered⟩
  · intro other current generates located
    by_cases equal : other = name
    · subst equal
      obtain rfl := Option.some.inj (registered.symm.trans located)
      exact roomy
    · exact ready.classes generates ((elsewhere equal).symm.trans located)
  · intro other present
    rw [same]
    exact present
  · intro other present
    rw [same] at present
    exact .inl present
  · intro other spared bareBefore
    unfold Program.Bare at bareBefore ⊢
    by_cases equal : other = name
    · subst equal
      rw [found, Option.bind_some] at bareBefore
      rw [registered, Option.bind_some]
      exact bare spared bareBefore
    · rw [elsewhere equal]
      exact bareBefore

/-- A further field that is a number leaves room. -/
theorem Class.Roomy.addField
    {declaration : Class}
    {field : Field}
    (roomy : declaration.Roomy)
    (allowed : field.name = arrayField ∨ field.type = .int) :
    Class.Roomy { declaration with fields := declaration.fields ++ [field] } where
  concrete := roomy.concrete
  fields other member := by
    rcases List.mem_append.1 member with old | new
    · exact roomy.fields other old
    · rw [List.mem_singleton.1 new]
      exact allowed

namespace Transform

variable
    {settings : Settings}
    (Spared : String → Prop)
    {before : Session}

/-- A class without fields leaves room, also under the name of one that keeps none. -/
theorem ensureClass_ready
    {name : String}
    {declaration : Class}
    (ready : before.Ready settings)
    (concrete : declaration.isInterface = false)
    (plain : declaration.fields = []) :
    Succeeds (ensureClass name declaration) before fun _ after =>
      after.Ready settings ∧ before.Registers name after := by
  let ensured := before.program.ensureClass name declaration
  have located (other : String) :
      ensured.2.class? other =
        if other = name then some ((before.program.class? name).getD declaration)
        else before.program.class? other :=
    Program.class?_ensureClass
  have fresh : declaration.field? arrayField = none := by
    rw [Class.field?, plain]
    rfl
  refine ⟨ensured.1, { before with program := ensured.2 }, ends_ensureClass.2 ⟨rfl, rfl⟩,
    ⟨ready.className, ?_, ready.settings⟩, ⟨rfl, ?_, ?_⟩⟩
  · intro other current generates found
    rw [located] at found
    split at found
    · rename_i same
      cases present : before.program.class? name with
      | some old =>
        rw [present] at found
        cases found
        exact ready.classes generates (same ▸ present)
      | none =>
        rw [present] at found
        cases found
        exact ⟨concrete, fun field member => absurd (plain ▸ member) List.not_mem_nil⟩
    · exact ready.classes generates found
  · intro other
    rw [located]
    split
    · rename_i same
      exact iff_of_true rfl (.inr same)
    · rename_i differs
      rw [or_iff_left differs]
  · intro other bare
    unfold Program.Bare at bare ⊢
    rw [located]
    split
    · rename_i same
      subst same
      cases present : before.program.class? other with
      | some old =>
        rw [present] at bare
        exact bare
      | none => exact fresh
    · exact bare

/-- The class of the counters is registered on the first request. -/
theorem ensureCounterClass_ready (ready : before.Ready settings) :
    Succeeds ensureCounterClass before fun _ after =>
      after.Ready settings ∧ before.Advances settings Spared after ∧
        (after.program.class? settings.counterClassName).isSome := by
  have concrete : before.counters.declaration.isInterface = false := by
    show (Class.syntheticFlag.union Class.counterFlag).includes Class.interfaceFlag = false
    decide
  unfold ensureCounterClass
  apply Succeeds.get_bind
  dsimp only
  rw [ready.className]
  refine (ensureClass_ready ready concrete rfl).mono fun _ after reached => ?_
  obtain ⟨readyAfter, registers⟩ := reached
  exact ⟨readyAfter,
    { wrappers := registers.wrappers
      kept := fun registered => (registers.classes _).2 (.inl registered)
      added := (registers.classes _).1
      bare := fun _ bare => registers.bare bare },
    (registers.classes _).2 (.inr rfl)⟩

/-- A number can be declared on a generated class under any name but that of the field for arrays. -/
theorem addCount_ready
    {owner : String}
    {field : Field}
    (ready : before.Ready settings)
    (generates : settings.Generates owner)
    (registered : (before.program.class? owner).isSome)
    (named : field.name ≠ arrayField)
    (counts : field.type = .int) :
    Succeeds (changeProgram fun program => program.addField owner field) before fun _ after =>
      after.Ready settings ∧ before.Advances settings Spared after := by
  obtain ⟨declaration, found⟩ := Option.isSome_iff_exists.1 registered
  have roomy := ready.classes generates found
  cases declares : declaration.field? field.name with
  | some declared =>
    have same : declared.name = field.name := by simpa using List.find?_some declares
    have typed : declared.type = field.type := by
      rcases roomy.fields declared (List.mem_of_find?_eq_some declares) with keeps | number
      · exact absurd (same.symm.trans keeps) named
      · rw [number, counts]
    have added :
        declaration.addField field = .ok (declared.reference declaration.name, declaration) := by
      simp [Class.addField, declares, typed]
    obtain ⟨readyNow, advances, -⟩ := ready.modifyClass Spared found roomy fun _ bare => bare
    exact changeProgram_succeeds (Program.addField_of_class? found added) ⟨readyNow, advances⟩
  | none =>
    have added := Class.addField_of_absent declares
    have bare (unkept : declaration.field? arrayField = none) :
        Class.field? { declaration with fields := declaration.fields ++ [field] } arrayField =
          none := by
      rw [Class.field?, List.find?_append, ← Class.field?, unkept]
      simpa using named
    obtain ⟨readyNow, advances, -⟩ :=
      ready.modifyClass Spared found (roomy.addField (.inr counts)) fun _ => bare
    exact changeProgram_succeeds (Program.addField_of_class? found added) ⟨readyNow, advances⟩

/-- A class that keeps no arrays yet gets the field for them. -/
theorem addArrays_ready
    {name : String}
    (ready : before.Ready settings)
    (generates : settings.Generates name)
    (registered : (before.program.class? name).isSome)
    (bare : before.program.Bare name)
    (element : Ty) :
    Succeeds
      (changeProgram fun program =>
        program.addField name ⟨arrayField, .array element, Field.synthetic⟩)
      before fun _ after => after.Ready settings ∧ before.Advances settings (· ≠ name) after := by
  obtain ⟨declaration, found⟩ := Option.isSome_iff_exists.1 registered
  unfold Program.Bare at bare
  rw [found, Option.bind_some] at bare
  let field : Field := ⟨arrayField, .array element, Field.synthetic⟩
  have added : declaration.addField field = _ := Class.addField_of_absent bare
  have keeps : field.name = arrayField ∨ field.type = .int := .inl rfl
  have roomy := (ready.classes generates found).addField keeps
  obtain ⟨readyNow, advances, -⟩ :=
    ready.modifyClass (· ≠ name) found roomy fun differs => absurd rfl differs
  exact changeProgram_succeeds (Program.addField_of_class? found added) ⟨readyNow, advances⟩

/-- Names of counters do not take the place of the field for arrays. -/
theorem nameFor_ne_arrayField (table : CounterTable) (owner : CounterOwner) (key : String) :
    table.nameFor owner key ≠ arrayField := by
  have ends (attempt : Nat) : ∃ start, CounterTable.candidate key attempt = start ++ counterEnding := by
    cases attempt with
    | zero => exact ⟨key, rfl⟩
    | succ attempt => exact ⟨_, rfl⟩
  obtain ⟨start, same⟩ : ∃ start, table.nameFor owner key = start ++ counterEnding := by
    unfold CounterTable.nameFor Text.firstFree
    split
    · rename_i name found
      obtain ⟨attempt, -, rfl⟩ := List.mem_map.1 (List.mem_of_find?_eq_some found)
      exact ends attempt
    · exact ends _
  intro equal
  have last := congrArg (fun name => name.toList.getLast?) (same.symm.trans equal)
  have ending : counterEnding.toList ≠ [] := by decide
  simp only [String.toList_append, List.getLast?_append_of_ne_nil _ ending] at last
  exact absurd last (by decide)

theorem counterFor_ready
    (ready : before.Ready settings)
    (owner : CounterOwner)
    (key : String) :
    Succeeds (counterFor owner key) before fun _ after =>
      after.Ready settings ∧ before.Advances settings Spared after := by
  unfold counterFor
  apply Succeeds.get_bind
  cases before.counters.fields.get? owner with
  | some field => exact .pure ⟨ready, .refl _⟩
  | none =>
    apply Succeeds.set_bind
    have claimed :
        ({ before with counters := (before.counters.claim owner key).2 } : Session).Ready settings :=
      ready.annotate rfl rfl rfl
    refine (ensureCounterClass_ready Spared claimed).bind ?_
    rintro _ ensured ⟨readyEnsured, advances, registered⟩
    dsimp only [CounterTable.claim]
    rw [ready.className]
    refine (addCount_ready Spared readyEnsured (.inl rfl) registered
      (nameFor_ne_arrayField before.counters owner key) rfl).bind ?_
    rintro field declared ⟨readyDeclared, further⟩
    apply Succeeds.modify_bind
    refine .pure ⟨readyDeclared.annotate rfl rfl rfl, ?_⟩
    have start :
        before.Advances settings Spared
          { before with counters := (before.counters.claim owner key).2 } :=
      .annotate rfl rfl
    exact start.trans (advances.trans (further.trans (.annotate rfl rfl)))

/-- A method can be declared on a generated class where its name and parameters are free. -/
theorem addGenerated_ready
    {owner : String}
    {declaration : Class}
    {method : Method}
    (ready : before.Ready settings)
    (generates : settings.Generates owner)
    (found : before.program.class? owner = some declaration)
    (free : declaration.method? method.name method.parameters = none) :
    Succeeds (addGenerated owner method) before fun _ after =>
      after.Ready settings ∧ before.Advances settings Spared after := by
  have roomy := ready.classes generates found
  have extended :
      Class.Roomy { declaration with methods := declaration.methods ++ [method] } :=
    ⟨roomy.concrete, roomy.fields⟩
  obtain ⟨readyNow, advances, -⟩ := ready.modifyClass Spared found extended fun _ bare => bare
  exact addGenerated_succeeds found free fun generated _ =>
    ⟨readyNow.annotate rfl rfl rfl, advances.trans (.annotate rfl rfl)⟩

theorem incrementor_ready
    {owner : String}
    (ready : before.Ready settings)
    (generates : settings.Generates owner)
    (registered : (before.program.class? owner).isSome)
    (name : String)
    (counter serial : FieldRef) :
    Succeeds (incrementor owner name counter serial) before fun _ after =>
      after.Ready settings ∧ before.Advances settings Spared after := by
  obtain ⟨declaration, found⟩ := Option.isSome_iff_exists.1 registered
  unfold incrementor
  apply Succeeds.get_bind
  rw [found, Option.bind_some]
  cases named : declaration.methodNamed? name with
  | some method => exact .pure ⟨ready, .refl _⟩
  | none =>
    have free : declaration.method? name [] = none := by
      refine List.find?_eq_none.2 fun method member fits => ?_
      have unnamed := List.find?_eq_none.1 named method member
      rw [Method.fits, Bool.and_eq_true] at fits
      exact unnamed fits.1
    refine (addGenerated_ready Spared ready generates found free).bind ?_
    rintro _ added ⟨readyAdded, advances⟩
    apply record_bind
    intro journal
    exact .pure ⟨readyAdded.annotate rfl rfl rfl, advances.trans (.annotate rfl rfl)⟩

theorem instrument_ready
    {className : String}
    (ready : before.Ready settings)
    (generates : settings.Generates className)
    (registered : (before.program.class? className).isSome) :
    Succeeds (instrument className) before fun _ after =>
      after.Ready settings ∧ before.Advances settings Spared after := by
  have built :
      Succeeds (buildProfile className) before fun _ after =>
        after.Ready settings ∧ before.Advances settings Spared after := by
    unfold buildProfile
    refine (counterFor_ready Spared ready _ _).bind ?_
    rintro staticCounter counted ⟨readyCounted, toCounted⟩
    apply record_bind
    intro journal
    have readyStart : ({ counted with journal } : Session).Ready settings :=
      readyCounted.annotate rfl rfl rfl
    have toStart : before.Advances settings Spared { counted with journal } :=
      toCounted.trans (.annotate rfl rfl)
    refine (addCount_ready Spared readyStart generates (toStart.kept registered) (by decide) rfl).bind ?_
    rintro serial first ⟨readyFirst, toFirst⟩
    have toFirst := toStart.trans toFirst
    refine (addCount_ready Spared readyFirst generates (toFirst.kept registered) (by decide) rfl).bind ?_
    rintro reads second ⟨readySecond, toSecond⟩
    have toSecond := toFirst.trans toSecond
    refine (addCount_ready Spared readySecond generates (toSecond.kept registered) (by decide) rfl).bind ?_
    rintro writes third ⟨readyThird, toThird⟩
    have toThird := toSecond.trans toThird
    refine (incrementor_ready Spared readyThird generates (toThird.kept registered) _ _ _).bind ?_
    rintro incReads fourth ⟨readyFourth, toFourth⟩
    have toFourth := toThird.trans toFourth
    refine (incrementor_ready Spared readyFourth generates (toFourth.kept registered) _ _ _).bind ?_
    rintro incWrites fifth ⟨readyFifth, toFifth⟩
    apply Succeeds.get_bind
    exact .pure ⟨readyFifth, toFourth.trans toFifth⟩
  unfold instrument
  apply Succeeds.get_bind
  cases before.profiles.get? className with
  | some profile => exact .pure ⟨ready, .refl _⟩
  | none =>
    obtain ⟨declaration, found⟩ := Option.isSome_iff_exists.1 registered
    rw [found]
    dsimp only
    rw [(ready.classes generates found).concrete]
    refine built.bind ?_
    rintro profile session ⟨readyBuilt, advances⟩
    apply Succeeds.modify_bind
    apply record_bind
    intro journal
    exact .pure ⟨readyBuilt.annotate rfl rfl rfl, advances.trans (.annotate rfl rfl)⟩

/-- A member of a wrapper can be declared; constructors bind their receiver. -/
theorem addMember_ready
    {owner : String}
    (ready : before.Ready settings)
    (generates : settings.Generates owner)
    (registered : (before.program.class? owner).isSome)
    (profile : Profile)
    (name : String)
    (parameters : List Ty)
    (result : Ty)
    {body : Body}
    {this : LocalId}
    (received : body.receiver? = some this) :
    Succeeds (addMember profile owner name parameters result body) before fun _ after =>
      after.Ready settings ∧ before.Advances settings Spared after := by
  obtain ⟨declaration, found⟩ := Option.isSome_iff_exists.1 registered
  unfold addMember
  apply Succeeds.get_bind
  rw [found, Option.bind_some]
  dsimp only
  cases existing : declaration.method? name parameters with
  | some method => exact .pure ⟨ready, .refl _⟩
  | none =>
    have declare (body : Body) :
        Succeeds
          (do
            addGenerated owner ⟨name, parameters, result, Method.synthetic, some body⟩
            return (⟨owner, name, parameters, result⟩ : MethodRef))
          before fun _ after =>
            after.Ready settings ∧ before.Advances settings Spared after := by
      refine (addGenerated_ready Spared ready generates found existing).bind ?_
      rintro _ added reached
      exact .pure reached
    obtain ⟨outcome, patches⟩ :=
      Draft.patchConstructor_of_receiver? before.settings.sink profile received
    rw [Option.isSome_none, if_neg Bool.false_ne_true]
    split
    · rw [patches]
      exact declare _
    · exact declare body

end Transform
end AccessProfiler
