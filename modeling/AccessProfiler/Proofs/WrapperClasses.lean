import AccessProfiler.Proofs.Generation
import AccessProfiler.Proofs.WrapperNames
import AccessProfiler.Wrapping.Generate
import Mathlib.Data.List.Forall2

/-!
# Generating wrappers

A request for a wrapper changes generated classes only: every other class stays as it is.  What a
session remembers of wrappers carries their names (`Session.Orderly`), so that the type that takes the
place of an array type is known before any wrapper is made (`mapType_changesOnly`).

`Transform.ChangesOnly` says this of a step, and there is a rule for each way in which steps are put
together.
-/

namespace AccessProfiler

/-- The members of a wrapper are searched from its class, which is a generated one. -/
structure Wrapper.Proper (names : List String) (wrapper : Wrapper) : Prop where
  name : wrapper.name ∈ names
  fromArray : wrapper.fromArray.owner = wrapper.name
  withLength : wrapper.withLength.owner = wrapper.name
  get : wrapper.get.owner = wrapper.name
  set : wrapper.set.owner = wrapper.name

/-- Whatever the session remembers as generated belongs to classes of the given names. -/
structure Session.Orderly
    (settings : Settings)
    (names : List String)
    (session : Session) : Prop where
  settings : session.settings = settings
  counters : session.counters.className ∈ names
  wrappers :
    ∀ name wrapper, session.wrappers.get? name = some wrapper →
      wrapper.Proper names ∧ wrapper.name = name
  generated :
    ∀ method ∈ session.generated, ∃ owner ∈ names, ∃ name ∈ Wrapper.memberNames,
      method = owner ++ "." ++ name

/-- The programs differ at most in classes of the given names, and these are synthetic if they were. -/
structure Program.SameApart (names : List String) (before after : Program) : Prop where
  others : ∀ name, name ∉ names → after.class? name = before.class? name
  synthetic :
    ∀ name ∈ names,
      (∀ declaration, before.class? name = some declaration → declaration.isSynthetic) →
        ∀ declaration, after.class? name = some declaration → declaration.isSynthetic

namespace Program.SameApart

variable {names : List String} {before between after : Program}

theorem refl (program : Program) : program.SameApart names program where
  others _ _ := rfl
  synthetic _ _ synthetic := synthetic

theorem trans
    (same : before.SameApart names between)
    (further : between.SameApart names after) :
    before.SameApart names after where
  others name apart := (further.others name apart).trans (same.others name apart)
  synthetic name generated synthetic :=
    further.synthetic name generated (same.synthetic name generated synthetic)

theorem modifyClass
    {name : String}
    {change : Class → Class}
    (generated : name ∈ names)
    (flags :
      ∀ declaration, before.class? name = some declaration →
        (change declaration).flags = declaration.flags) :
    before.SameApart names (before.modifyClass name change) where
  others other apart := by
    have differs : other ≠ name := fun same => apart (same ▸ generated)
    rw [class?_modifyClass, if_neg differs]
  synthetic other _ synthetic declaration found := by
    rw [class?_modifyClass] at found
    by_cases same : other = name
    · rw [if_pos same] at found
      obtain ⟨old, foundOld, rfl⟩ := Option.map_eq_some_iff.1 found
      unfold Class.isSynthetic
      rw [flags old foundOld]
      exact synthetic old (same ▸ foundOld)
    · rw [if_neg same] at found
      exact synthetic declaration found

theorem ensureClass
    {name : String}
    {declaration : Class}
    (generated : name ∈ names)
    (isSynthetic : declaration.isSynthetic) :
    before.SameApart names (before.ensureClass name declaration).2 where
  others other apart := by
    have differs : other ≠ name := fun same => apart (same ▸ generated)
    rw [class?_ensureClass, if_neg differs]
  synthetic other _ synthetic found located := by
    rw [class?_ensureClass] at located
    by_cases same : other = name
    · rw [if_pos same] at located
      cases present : before.class? name with
      | none =>
        rw [present] at located
        cases located
        exact isSynthetic
      | some old =>
        rw [present] at located
        cases located
        exact synthetic old (same ▸ present)
    · rw [if_neg same] at located
      exact synthetic found located

end Program.SameApart

/-- The class of the counters is a generated one. -/
theorem CounterTable.declaration_isSynthetic (table : CounterTable) :
    table.declaration.isSynthetic := by
  show (Class.syntheticFlag.union Class.counterFlag).meets
    ((Class.syntheticFlag.union Class.wrapperFlag).union Class.counterFlag) = true
  decide

/-- The class of a wrapper is a generated one. -/
theorem Wrapper.declaration_isSynthetic (name : String) :
    (Wrapper.declaration name).isSynthetic := by
  show (Class.syntheticFlag.union Class.wrapperFlag).meets
    ((Class.syntheticFlag.union Class.wrapperFlag).union Class.counterFlag) = true
  decide

/-- A session in order is in order with another program. -/
theorem Session.Orderly.withProgram
    {settings : Settings}
    {names : List String}
    {session : Session}
    (orderly : session.Orderly settings names)
    (program : Program) :
    ({ session with program } : Session).Orderly settings names :=
  ⟨orderly.settings, orderly.counters, orderly.wrappers, orderly.generated⟩

theorem Session.Orderly.withJournal
    {settings : Settings}
    {names : List String}
    {session : Session}
    (orderly : session.Orderly settings names)
    (journal : Journal) :
    ({ session with journal } : Session).Orderly settings names :=
  ⟨orderly.settings, orderly.counters, orderly.wrappers, orderly.generated⟩

theorem Session.Orderly.start
    {settings : Settings}
    {names : List String}
    (counters : settings.counterClassName ∈ names)
    (program : Program) :
    (Session.start settings program).Orderly settings names where
  settings := rfl
  counters := counters
  wrappers name wrapper found := by cases found
  generated method member := by cases member

/-- The wrapper of a type is one that the session remembers. -/
theorem Session.Orderly.wrapperOfType?
    {settings : Settings}
    {names : List String}
    {session : Session}
    (orderly : session.Orderly settings names)
    {type : Ty}
    {wrapper : Wrapper}
    (found : session.wrapperOfType? type = some wrapper) :
    wrapper.Proper names := by
  obtain ⟨name, -, located⟩ := Option.bind_eq_some_iff.1 found
  exact (orderly.wrappers name wrapper located).1

/-- No class of another name is taken for a wrapper. -/
theorem Session.Orderly.isWrapper_eq_false
    {settings : Settings}
    {names : List String}
    {session : Session}
    (orderly : session.Orderly settings names)
    {name : String}
    (apart : name ∉ names) :
    session.isWrapper name = false := by
  unfold Session.isWrapper
  cases found : session.wrappers.get? name with
  | none => rfl
  | some wrapper =>
    obtain ⟨proper, named⟩ := orderly.wrappers name wrapper found
    exact absurd (named ▸ proper.name) apart

/-- From this session the step keeps the session in order, changes classes of the given names only, and
gives a good value. -/
def Transform.ChangesOnly
    {Value : Type}
    (settings : Settings)
    (names : List String)
    (before : Session)
    (step : Transform Value)
    (Good : Value → Prop) : Prop :=
  ∀ value after, Ends step before value after →
    after.Orderly settings names ∧ before.program.SameApart names after.program ∧ Good value

namespace Transform

variable
    {Value Result : Type}
    {settings : Settings}
    {names : List String}
    {before : Session}

namespace ChangesOnly

theorem pure
    {value : Value}
    {Good : Value → Prop}
    (orderly : before.Orderly settings names)
    (good : Good value) :
    ChangesOnly settings names before (pure value) Good := by
  intro result after ends
  obtain ⟨rfl, rfl⟩ := Ends.pure_iff.1 ends
  exact ⟨orderly, .refl _, good⟩

theorem throw {error : Error} {Good : Value → Prop} :
    ChangesOnly settings names before (throw error) Good := by
  intro result after ends
  exact absurd ends Ends.not_throw

theorem ofDefect
    {outcome : Except Defect Value}
    (orderly : before.Orderly settings names) :
    ChangesOnly settings names before (ofDefect outcome) fun value => outcome = .ok value := by
  intro value after ends
  obtain ⟨given, rfl⟩ := ends_ofDefect.1 ends
  exact ⟨orderly, .refl _, given⟩

theorem throw_bind
    {error : Error}
    {next : Value → Transform Result}
    {Good : Result → Prop} :
    ChangesOnly settings names before (MonadExcept.throw error >>= next) Good := by
  intro result after ends
  obtain ⟨_, _, thrown, _⟩ := Ends.bind_iff.1 ends
  exact absurd thrown Ends.not_throw

theorem bind
    {step : Transform Value}
    {next : Value → Transform Result}
    {Good : Value → Prop}
    {GoodResult : Result → Prop}
    (first : ChangesOnly settings names before step Good)
    (second :
      ∀ value between, between.Orderly settings names → Good value →
        ChangesOnly settings names between (next value) GoodResult) :
    ChangesOnly settings names before (step >>= next) GoodResult := by
  intro result after ends
  obtain ⟨value, between, endsFirst, endsNext⟩ := Ends.bind_iff.1 ends
  obtain ⟨orderly, same, good⟩ := first value between endsFirst
  obtain ⟨orderlyAfter, further, goodResult⟩ :=
    second value between orderly good result after endsNext
  exact ⟨orderlyAfter, same.trans further, goodResult⟩

theorem get_bind
    {next : Session → Transform Result}
    {Good : Result → Prop}
    (rest : ChangesOnly settings names before (next before) Good) :
    ChangesOnly settings names before (get >>= next) Good := by
  intro result after ends
  exact rest result after (Ends.get_bind_iff.1 ends)

/-- A change of the session that keeps its program. -/
theorem set
    {session : Session}
    (orderly : session.Orderly settings names)
    (same : session.program = before.program) :
    ChangesOnly settings names before (set session) fun _ => True := by
  intro done after ends
  obtain rfl := Ends.set_iff.1 ends
  exact ⟨orderly, same ▸ .refl _, trivial⟩

theorem modify
    {change : Session → Session}
    (orderly : (change before).Orderly settings names)
    (same : (change before).program = before.program) :
    ChangesOnly settings names before (modify change) fun _ => True := by
  intro done after ends
  obtain rfl := Ends.modify_iff.1 ends
  exact ⟨orderly, same ▸ .refl _, trivial⟩

theorem record
    (orderly : before.Orderly settings names)
    (event : Event) :
    ChangesOnly settings names before (record event) fun _ => True :=
  modify ⟨orderly.settings, orderly.counters, orderly.wrappers, orderly.generated⟩ rfl

theorem changeProgram
    {change : Program → Except Error (Value × Program)}
    {Good : Value → Prop}
    (orderly : before.Orderly settings names)
    (same :
      ∀ value program, change before.program = .ok (value, program) →
        before.program.SameApart names program ∧ Good value) :
    ChangesOnly settings names before (changeProgram change) Good := by
  intro value after ends
  obtain ⟨program, changed, rfl⟩ := ends_changeProgram.1 ends
  exact ⟨orderly.withProgram program, same value program changed⟩

theorem mono
    {step : Transform Value}
    {Good GoodToo : Value → Prop}
    (changesOnly : ChangesOnly settings names before step Good)
    (le : ∀ value, Good value → GoodToo value) :
    ChangesOnly settings names before step GoodToo := by
  intro value after ends
  obtain ⟨orderly, same, good⟩ := changesOnly value after ends
  exact ⟨orderly, same, le value good⟩

/-- Steps for the items of a list give good values for each. -/
theorem mapM
    {Item : Type}
    {step : Item → Transform Value}
    {Good : Item → Value → Prop}
    {items : List Item}
    (orderly : before.Orderly settings names)
    (each :
      ∀ item ∈ items, ∀ session : Session, session.Orderly settings names →
        ChangesOnly settings names session (step item) (Good item)) :
    ChangesOnly settings names before (items.mapM step) (List.Forall₂ Good items) := by
  induction items generalizing before with
  | nil => exact pure orderly .nil
  | cons item rest hypothesis =>
    rw [List.mapM_cons]
    apply bind (each item List.mem_cons_self before orderly)
    intro value between orderlyBetween good
    apply bind (hypothesis orderlyBetween fun other member =>
      each other (List.mem_cons_of_mem _ member))
    intro values last orderlyLast goods
    exact pure orderlyLast (.cons good goods)

end ChangesOnly

variable (orderly : before.Orderly settings names)
include orderly

theorem ensureClass_changesOnly
    {name : String}
    {declaration : Class}
    (generated : name ∈ names)
    (isSynthetic : declaration.isSynthetic) :
    ChangesOnly settings names before (ensureClass name declaration) fun _ => True := by
  intro created after ends
  obtain ⟨-, rfl⟩ := ends_ensureClass.1 ends
  exact ⟨orderly.withProgram _, .ensureClass generated isSynthetic, trivial⟩

theorem markGenerated_changesOnly
    {method : MethodRef}
    (generated : method.owner ∈ names)
    (among : method.name ∈ Wrapper.memberNames) :
    ChangesOnly settings names before (markGenerated method) fun _ => True := by
  unfold markGenerated
  apply ChangesOnly.modify
  · split
    · exact orderly
    · refine ⟨orderly.settings, orderly.counters, orderly.wrappers, ?_⟩
      intro other member
      rcases List.mem_append.1 member with old | new
      · exact orderly.generated other old
      · rw [List.mem_singleton.1 new]
        exact ⟨method.owner, generated, method.name, among, rfl⟩
  · split <;> rfl

theorem addField_changesOnly
    {owner : String}
    (generated : owner ∈ names)
    (field : Field) :
    ChangesOnly settings names before (changeProgram fun program => program.addField owner field)
      fun _ => True := by
  apply ChangesOnly.changeProgram orderly
  intro reference program added
  obtain ⟨declaration, extended, found, extending, rfl⟩ := Program.addField_eq_ok added
  refine ⟨.modifyClass generated ?_, trivial⟩
  intro old foundOld
  obtain rfl := Option.some.inj (found.symm.trans foundOld)
  rcases Class.addField_cases extending with ⟨_, _, _, _, rfl⟩ | ⟨_, _, rfl⟩
  · rfl
  · rfl

theorem addMethod_changesOnly
    {owner : String}
    (generated : owner ∈ names)
    (method : Method) :
    ChangesOnly settings names before (changeProgram fun program => program.addMethod owner method)
      fun _ => True := by
  apply ChangesOnly.changeProgram orderly
  intro id program added
  obtain ⟨declaration, found, -, rfl⟩ := Program.addMethod_eq_ok added
  refine ⟨.modifyClass generated ?_, trivial⟩
  intro old foundOld
  obtain rfl := Option.some.inj (found.symm.trans foundOld)
  rfl

theorem addGenerated_changesOnly
    {owner : String}
    (generated : owner ∈ names)
    {method : Method}
    (among : method.name ∈ Wrapper.memberNames) :
    ChangesOnly settings names before (addGenerated owner method) fun _ => True := by
  unfold addGenerated
  apply ChangesOnly.bind (addMethod_changesOnly orderly generated method)
  intro id between orderlyBetween _
  exact markGenerated_changesOnly orderlyBetween generated among

theorem ensureCounterClass_changesOnly :
    ChangesOnly settings names before ensureCounterClass fun _ => True := by
  unfold ensureCounterClass
  apply ChangesOnly.get_bind
  exact ensureClass_changesOnly orderly orderly.counters before.counters.declaration_isSynthetic

theorem counterFor_changesOnly (owner : CounterOwner) (key : String) :
    ChangesOnly settings names before (counterFor owner key) fun _ => True := by
  unfold counterFor
  apply ChangesOnly.get_bind
  cases before.counters.fields.get? owner with
  | some field => exact .pure orderly trivial
  | none =>
    have claimed :
        ({ before with counters := (before.counters.claim owner key).2 } : Session).Orderly
          settings names :=
      ⟨orderly.settings, orderly.counters, orderly.wrappers, orderly.generated⟩
    apply ChangesOnly.bind (ChangesOnly.set claimed rfl)
    intro _ registered orderlyRegistered _
    apply ChangesOnly.bind (ensureCounterClass_changesOnly orderlyRegistered)
    intro _ ensured orderlyEnsured _
    apply ChangesOnly.bind (addField_changesOnly orderlyEnsured orderly.counters _)
    intro field declared orderlyDeclared _
    apply ChangesOnly.bind (ChangesOnly.modify ?_ rfl)
    · intro _ remembered orderlyRemembered _
      exact .pure orderlyRemembered trivial
    · exact ⟨orderlyDeclared.settings, orderlyDeclared.counters, orderlyDeclared.wrappers,
        orderlyDeclared.generated⟩

theorem incrementor_changesOnly
    {owner : String}
    (generated : owner ∈ names)
    {name : String}
    (among : name ∈ Wrapper.memberNames)
    (counter serial : FieldRef) :
    ChangesOnly settings names before (incrementor owner name counter serial) fun _ => True := by
  unfold incrementor
  apply ChangesOnly.get_bind
  cases (before.program.class? owner).bind fun declared => declared.methodNamed? name with
  | some method => exact .pure orderly trivial
  | none =>
    apply ChangesOnly.bind (addGenerated_changesOnly orderly generated among)
    intro _ added orderlyAdded _
    apply ChangesOnly.bind (ChangesOnly.record orderlyAdded _)
    intro _ recorded orderlyRecorded _
    exact .pure orderlyRecorded trivial

theorem buildProfile_changesOnly
    {className : String}
    (generated : className ∈ names) :
    ChangesOnly settings names before (buildProfile className) fun _ => True := by
  unfold buildProfile
  apply ChangesOnly.bind (counterFor_changesOnly orderly _ _)
  intro staticCounter _ orderly _
  apply ChangesOnly.bind (ChangesOnly.record orderly _)
  intro _ _ orderly _
  apply ChangesOnly.bind (addField_changesOnly orderly generated _)
  intro serial _ orderly _
  apply ChangesOnly.bind (addField_changesOnly orderly generated _)
  intro reads _ orderly _
  apply ChangesOnly.bind (addField_changesOnly orderly generated _)
  intro writes _ orderly _
  apply ChangesOnly.bind (incrementor_changesOnly orderly generated (by decide) _ _)
  intro incReads _ orderly _
  apply ChangesOnly.bind (incrementor_changesOnly orderly generated (by decide) _ _)
  intro incWrites _ orderly _
  apply ChangesOnly.get_bind
  exact .pure orderly trivial

theorem instrument_changesOnly
    {className : String}
    (generated : className ∈ names) :
    ChangesOnly settings names before (instrument className) fun _ => True := by
  unfold instrument
  apply ChangesOnly.get_bind
  cases before.profiles.get? className with
  | some profile => exact .pure orderly trivial
  | none =>
    cases before.program.class? className with
    | none => exact .throw
    | some declared =>
      dsimp only
      split
      · exact .throw_bind
      · apply ChangesOnly.bind (buildProfile_changesOnly orderly generated)
        intro profile built orderlyBuilt _
        apply ChangesOnly.bind (ChangesOnly.modify ?_ rfl)
        · intro _ remembered orderlyRemembered _
          apply ChangesOnly.bind (ChangesOnly.record orderlyRemembered _)
          intro _ recorded orderlyRecorded _
          exact .pure orderlyRecorded trivial
        · exact ⟨orderlyBuilt.settings, orderlyBuilt.counters, orderlyBuilt.wrappers,
            orderlyBuilt.generated⟩

/-- A member of a wrapper belongs to its class. -/
theorem addMember_changesOnly
    {owner : String}
    (generated : owner ∈ names)
    (profile : Profile)
    {name : String}
    (among : name ∈ Wrapper.memberNames)
    (parameters : List Ty)
    (result : Ty)
    (body : Body) :
    ChangesOnly settings names before (addMember profile owner name parameters result body)
      fun reference => reference.owner = owner := by
  unfold addMember
  apply ChangesOnly.get_bind
  dsimp only
  split
  · exact .pure orderly rfl
  · have declare
        {session : Session}
        (orderly : session.Orderly settings names)
        (body : Body) :
        ChangesOnly settings names session
          (do
            addGenerated owner ⟨name, parameters, result, Method.synthetic, some body⟩
            return ⟨owner, name, parameters, result⟩)
          fun reference : MethodRef => reference.owner = owner := by
      apply ChangesOnly.bind (addGenerated_changesOnly orderly generated among)
      intro _ added orderlyAdded _
      exact .pure orderlyAdded rfl
    split
    · apply ChangesOnly.bind (ChangesOnly.ofDefect orderly)
      intro patched between orderlyBetween _
      exact declare orderlyBetween _
    · exact declare orderly body

theorem buildWrapper_changesOnly
    {name : String}
    (generated : name ∈ names)
    (element : Ty) :
    ChangesOnly settings names before (buildWrapper name element)
      fun wrapper => wrapper.Proper names ∧ wrapper.name = name := by
  unfold buildWrapper
  apply ChangesOnly.bind (addField_changesOnly orderly generated _)
  intro field _ orderly _
  apply ChangesOnly.bind (instrument_changesOnly orderly generated)
  intro profile _ orderly _
  apply ChangesOnly.bind (addMember_changesOnly orderly generated _ (by decide) _ _ _)
  intro fromArray _ orderly fromArrayOwner
  apply ChangesOnly.bind (addMember_changesOnly orderly generated _ (by decide) _ _ _)
  intro withLength _ orderly withLengthOwner
  apply ChangesOnly.bind (addMember_changesOnly orderly generated _ (by decide) _ _ _)
  intro get _ orderly getOwner
  apply ChangesOnly.bind (addMember_changesOnly orderly generated _ (by decide) _ _ _)
  intro set _ orderly setOwner
  exact .pure orderly
    ⟨⟨generated, fromArrayOwner, withLengthOwner, getOwner, setOwner⟩, rfl⟩

/-- The wrapper of an element type has the name that the type is given, if it is given one. -/
theorem wrapperFor_changesOnly
    {element : Ty}
    (generated : ∀ name, Wrapper.nameFor? settings element = some name → name ∈ names) :
    ChangesOnly settings names before (wrapperFor element) fun found =>
      found.map Wrapper.name = Wrapper.nameFor? settings element ∧
        ∀ wrapper, found = some wrapper → wrapper.Proper names := by
  unfold wrapperFor
  apply ChangesOnly.get_bind
  rw [orderly.settings]
  cases named : Wrapper.nameFor? settings element with
  | none => exact .pure orderly ⟨rfl, fun _ impossible => by cases impossible⟩
  | some name =>
    dsimp only
    cases known : before.wrappers.get? name with
    | some wrapper =>
      obtain ⟨proper, same⟩ := orderly.wrappers name wrapper known
      refine .pure orderly ⟨congrArg some same, ?_⟩
      rintro _ ⟨⟩
      exact proper
    | none =>
      apply ChangesOnly.bind (ensureClass_changesOnly orderly (generated name named)
        (Wrapper.declaration_isSynthetic name))
      intro created _ orderly _
      apply ChangesOnly.bind (buildWrapper_changesOnly orderly (generated name named) element)
      intro wrapper built orderlyBuilt good
      obtain ⟨proper, same⟩ := good
      apply ChangesOnly.bind (ChangesOnly.modify ?_ rfl)
      · intro _ _ orderly _
        have finish
            {session : Session}
            (orderly : session.Orderly settings names) :
            ChangesOnly settings names session (return some wrapper) fun found =>
              found.map Wrapper.name = some name ∧
                ∀ wrapper, found = some wrapper → wrapper.Proper names := by
          refine .pure orderly ⟨congrArg some same, ?_⟩
          rintro _ ⟨⟩
          exact proper
        split
        · apply ChangesOnly.bind (ChangesOnly.record orderly _)
          intro _ _ orderly _
          exact finish orderly
        · exact finish orderly
      · refine ⟨orderlyBuilt.settings, orderlyBuilt.counters, ?_, orderlyBuilt.generated⟩
        intro other found located
        rw [Table.get?_put] at located
        split at located
        · rename_i equal
          cases located
          exact ⟨proper, same.trans equal.symm⟩
        · exact orderlyBuilt.wrappers other found located

/-- The type that takes the place of a type is known beforehand. -/
theorem mapType_changesOnly
    {type : Ty}
    (generated : ∀ name, settings.wrapperName? type = some name → name ∈ names) :
    ChangesOnly settings names before (mapType type) fun mapped => mapped = settings.mapped type := by
  unfold mapType
  cases type with
  | array element =>
    apply ChangesOnly.bind (wrapperFor_changesOnly orderly generated)
    rintro found between orderlyBetween ⟨named, -⟩
    cases found with
    | none =>
      have unnamed : settings.wrapperName? (.array element) = none := named.symm
      exact .pure orderlyBetween (settings.mapped_of_none unnamed).symm
    | some wrapper =>
      have named : settings.wrapperName? (.array element) = some wrapper.name := named.symm
      exact .pure orderlyBetween (settings.mapped_of_some named).symm
  | _ => exact .pure orderly rfl

theorem mapM_mapType_changesOnly
    {types : List Ty}
    (generated :
      ∀ type ∈ types, ∀ name, settings.wrapperName? type = some name → name ∈ names) :
    ChangesOnly settings names before (types.mapM mapType)
      fun mapped => mapped = types.map settings.mapped := by
  have each :
      ChangesOnly settings names before (types.mapM mapType)
        (List.Forall₂ (fun type mapped => mapped = settings.mapped type) types) :=
    ChangesOnly.mapM orderly fun type member session orderlySession =>
      mapType_changesOnly orderlySession (generated type member)
  apply each.mono
  intro mapped pairs
  have same : List.Forall₂ (· = ·) (types.map settings.mapped) mapped :=
    List.forall₂_map_left_iff.2 (pairs.imp fun _ _ same => same.symm)
  rw [List.forall₂_eq_eq_eq] at same
  exact same.symm

end Transform
end AccessProfiler
