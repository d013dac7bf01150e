import AccessProfiler.Proofs.CountedTypes
import AccessProfiler.Proofs.UnsharedCounters

/-!
# Counters under their labels

The class of the counters has a method for each owner that is tallied: it counts on the counter of this
owner, is named for the key of that counter, and reports under the label of the owner.  It has no other
methods (`Session.Labels`), so that a method which is there when one is asked for is the right one:
different owners have counters of different names, and the key of a counter gives its name back.

Nothing is asked of the classes of the program for this, nor of what is known of them.  The steps that
give counters to owners always succeed (`Transform.counterFor_labels`, `typeCounter_labels`,
`callCounter_labels`).
-/

namespace AccessProfiler

namespace Text

/-- What an ending was put behind is left when it is taken off. -/
theorem withoutEnding_append (ending text : String) :
    withoutEnding ending (text ++ ending) = text := by
  have ends : ending.toList.reverse.isPrefixOf (text ++ ending).toList.reverse := by
    rw [List.isPrefixOf_iff_prefix, String.toList_append, List.reverse_append]
    exact List.prefix_append _ _
  unfold withoutEnding
  rw [if_pos ends, String.toList_append, List.reverse_append,
    List.drop_left' (List.length_reverse), List.reverse_reverse, String.ofList_toList]

end Text

/-- The label under which the method that counts for an owner reports.  No method counts instances. -/
def CounterOwner.label : CounterOwner → String
  | .instances name => name
  | .reads name => name ++ " read"
  | .writes name => name ++ " write"
  | .calls name => name ++ " function call"

/-- The method that counts for an owner on its counter. -/
def CounterOwner.tally (sink : Sink) (owner : CounterOwner) (field : FieldRef) : Method :=
  tallyMethod sink (counterKey field) owner.label field

/-- The counter of the calls under a name, with the method that counts on it. -/
def CallCounter.ofField (counter name : String) (field : FieldRef) : CallCounter :=
  ⟨name, field, ⟨counter, "increment" ++ counterKey field, [], .void⟩⟩

/-- The owner has this counter, and the method that counts for it is there. -/
structure Session.Tallies
    (counter : String)
    (sink : Sink)
    (session : Session)
    (owner : CounterOwner)
    (field : FieldRef) : Prop where
  counted : session.counters.fields.get? owner = some field
  declared :
    ∃ declaration, session.program.class? counter = some declaration ∧
      owner.tally sink field ∈ declaration.methods

namespace CounterTable

variable {table : CounterTable}

/-- The name of each counter ends like one, and its owner has it. -/
def NamesOwners (table : CounterTable) : Prop :=
  ∀ owner field, table.fields.get? owner = some field →
    table.names.get? field.name = some owner ∧ ∃ key, field.name = key ++ counterEnding

/-- Every name that is given to a counter ends like one. -/
theorem exists_nameFor_eq
    (table : CounterTable)
    (owner : CounterOwner)
    (key : String) :
    ∃ numbered, table.nameFor owner key = numbered ++ counterEnding := by
  obtain ⟨attempt, named, -⟩ := Text.firstFree_eq (table.takenFrom owner) (candidate_injective key)
  cases attempt with
  | zero => exact ⟨key, named⟩
  | succ attempt => exact ⟨key ++ toString (attempt + 2), named⟩

/-- An owner gets a counter under the name that is claimed for it. -/
theorem NamesOwners.claim
    (names : table.NamesOwners)
    (owner : CounterOwner)
    (key : String)
    {field : FieldRef}
    (named : field.name = table.nameFor owner key) :
    NamesOwners
      { (table.claim owner key).2 with fields := table.fields.put owner field } := by
  intro other counted known
  simp only [CounterTable.claim, Table.get?_put] at known ⊢
  split at known
  · rename_i same
    cases known
    rw [named, if_pos rfl, same]
    exact ⟨rfl, table.exists_nameFor_eq owner key⟩
  · rename_i differs
    obtain ⟨held, ending⟩ := names other counted known
    refine ⟨?_, ending⟩
    rw [if_neg, held]
    intro taken
    rw [taken] at held
    exact differs (owner_of_nameFor held)

end CounterTable

/-- Every method of the class of the counters counts for one owner, on its counter and under its
label. -/
structure Session.Labels (counter : String) (sink : Sink) (session : Session) : Prop where
  reports : session.settings.sink = sink
  className : session.counters.className = counter
  holds :
    ∀ declaration, session.program.class? counter = some declaration →
      declaration.HoldsCounters session.counters sink
  methods :
    ∀ declaration, session.program.class? counter = some declaration →
      ∀ method ∈ declaration.methods, ∃ owner field,
        session.counters.fields.get? owner = some field ∧ method = owner.tally sink field
  names : session.counters.NamesOwners
  fields :
    ∀ owner field, session.counters.fields.get? owner = some field →
      session.program.HasNumber counter field.name field
  callCounters :
    ∀ name found, session.callCounters.get? name = some found →
      ∃ field, found = .ofField counter name field ∧ session.Tallies counter sink (.calls name) field

/-- Owners may have got counters.  Nothing is taken from anyone, and only the class of the counters
changed. -/
structure Session.KeepsCounters (counter : String) (before after : Session) : Prop where
  settings : after.settings = before.settings
  others : ∀ name, name ≠ counter → after.program.class? name = before.program.class? name
  program : before.program.ExtendsTo after.program
  fields :
    ∀ owner field, before.counters.fields.get? owner = some field →
      after.counters.fields.get? owner = some field
  callCounters :
    ∀ name found, before.callCounters.get? name = some found →
      after.callCounters.get? name = some found

namespace Session

variable {counter : String} {sink : Sink} {session before between after : Session}

namespace KeepsCounters

theorem refl (session : Session) : session.KeepsCounters counter session :=
  ⟨rfl, fun _ _ => rfl, .refl _, fun _ _ known => known, fun _ _ known => known⟩

theorem trans
    (first : before.KeepsCounters counter between)
    (second : between.KeepsCounters counter after) :
    before.KeepsCounters counter after where
  settings := second.settings.trans first.settings
  others name differs := (second.others name differs).trans (first.others name differs)
  program := first.program.trans second.program
  fields owner field known := second.fields owner field (first.fields owner field known)
  callCounters name found known := second.callCounters name found (first.callCounters name found known)

/-- Counters that came in with nothing taken from their owners. -/
theorem of_addsCounters
    (named : before.counters.className = counter)
    (adds : before.AddsCounters after)
    (fields :
      ∀ owner field, before.counters.fields.get? owner = some field →
        after.counters.fields.get? owner = some field) :
    before.KeepsCounters counter after where
  settings := adds.settings
  others name differs := adds.others name (named ▸ differs)
  program := adds.program
  fields := fields
  callCounters name found known := by
    rw [adds.callCounters]
    exact known

end KeepsCounters

theorem Tallies.mono
    {owner : CounterOwner}
    {field : FieldRef}
    (tallies : before.Tallies counter sink owner field)
    (keeps : before.KeepsCounters counter after) :
    after.Tallies counter sink owner field where
  counted := keeps.fields owner field tallies.counted
  declared := by
    obtain ⟨declaration, found, member⟩ := tallies.declared
    obtain ⟨extended, foundAfter, extends'⟩ := keeps.program counter declaration found
    exact ⟨extended, foundAfter, extends'.methods.subset member⟩

namespace Labels

/-- Different owners have counters with different keys. -/
theorem owner_unique
    (labels : session.Labels counter sink)
    {first second : CounterOwner}
    {field other : FieldRef}
    (known : session.counters.fields.get? first = some field)
    (knownOther : session.counters.fields.get? second = some other)
    (same : counterKey field = counterKey other) :
    first = second := by
  obtain ⟨named, key, spelled⟩ := labels.names first field known
  obtain ⟨namedOther, keyOther, spelledOther⟩ := labels.names second other knownOther
  have keys : key = keyOther := by
    simpa only [counterKey, spelled, spelledOther, Text.withoutEnding_append] using same
  rw [spelled, keys, ← spelledOther, namedOther] at named
  exact (Option.some.inj named).symm

/-- The method that is declared under the name of the one that counts for an owner is that method. -/
theorem eq_tally
    (labels : session.Labels counter sink)
    {owner : CounterOwner}
    {field : FieldRef}
    (known : session.counters.fields.get? owner = some field)
    {declaration : Class}
    (found : session.program.class? counter = some declaration)
    {method : Method}
    (member : method ∈ declaration.methods)
    (named : method.name = "increment" ++ counterKey field) :
    method = owner.tally sink field := by
  obtain ⟨other, counted, knownOther, rfl⟩ := labels.methods declaration found method member
  have keys : counterKey counted = counterKey field := by
    have letters := congrArg String.toList named
    simp only [CounterOwner.tally, tallyMethod, String.toList_append] at letters
    exact String.toList_inj.1 (List.append_cancel_left letters)
  obtain rfl := labels.owner_unique knownOther known keys
  rw [Option.some.inj (knownOther.symm.trans known)]

/-- The method that counts for an owner is found under its name. -/
theorem method?_tally
    (labels : session.Labels counter sink)
    {owner : CounterOwner}
    {field : FieldRef}
    (tallies : session.Tallies counter sink owner field) :
    ((session.program.class? counter).bind fun declaration =>
        declaration.method? ("increment" ++ counterKey field) []) =
      some (owner.tally sink field) := by
  obtain ⟨declaration, found, member⟩ := tallies.declared
  rw [found, Option.bind_some]
  cases located : declaration.method? ("increment" ++ counterKey field) [] with
  | none =>
    have unfit := List.find?_eq_none.1 located _ member
    simp [Method.fits, CounterOwner.tally, tallyMethod] at unfit
  | some method =>
    have fits := List.find?_some located
    simp only [Method.fits, Bool.and_eq_true, beq_iff_eq] at fits
    rw [labels.eq_tally tallies.counted found (List.mem_of_find?_eq_some located) fits.1]

/-- The counters and their labels are a matter of the class of the counters only. -/
theorem elsewhere
    (labels : before.Labels counter sink)
    (settings : after.settings = before.settings)
    (counters : after.counters = before.counters)
    (callCounters : after.callCounters = before.callCounters)
    (program : after.program.class? counter = before.program.class? counter) :
    after.Labels counter sink where
  reports := settings ▸ labels.reports
  className := counters ▸ labels.className
  holds declaration found := counters ▸ labels.holds declaration (program ▸ found)
  methods declaration found := counters ▸ labels.methods declaration (program ▸ found)
  names := counters ▸ labels.names
  fields owner field known := by
    obtain ⟨declaration, declared, found, number⟩ := labels.fields owner field (counters ▸ known)
    exact ⟨declaration, declared, program.trans found, number⟩
  callCounters name found known := by
    obtain ⟨field, same, tallies⟩ := labels.callCounters name found (callCounters ▸ known)
    refine ⟨field, same, counters ▸ tallies.counted, ?_⟩
    rw [program]
    exact tallies.declared

theorem annotate
    (labels : session.Labels counter sink)
    (generated : List String)
    (transformed : List MethodId)
    (journal : Journal) :
    ({ session with generated, transformed, journal } : Session).Labels counter sink :=
  labels.elsewhere rfl rfl rfl rfl

/-- The class of the counters is registered without methods unless it is there. -/
theorem ensureClass (labels : before.Labels counter sink) :
    ({ before with
      program := (before.program.ensureClass counter before.counters.declaration).2 } :
      Session).Labels counter sink := by
  have keeps :
      before.KeepsCounters counter
        { before with
          program := (before.program.ensureClass counter before.counters.declaration).2 } :=
    { settings := rfl
      others := fun name differs => Program.class?_ensureClass.trans (if_neg differs)
      program := .ensureClass _ _ _
      fields := fun _ _ known => known
      callCounters := fun _ _ known => known }
  have registered :
      (before.program.ensureClass counter before.counters.declaration).2.class? counter =
        some ((before.program.class? counter).getD before.counters.declaration) :=
    Program.class?_ensureClass.trans (if_pos rfl)
  exact
    { reports := labels.reports
      className := labels.className
      holds := fun declaration found => by
        cases registered.symm.trans found
        cases present : before.program.class? counter with
        | none => exact before.counters.declaration_holdsCounters sink
        | some old => exact labels.holds old present
      methods := fun declaration found method member => by
        cases registered.symm.trans found
        cases present : before.program.class? counter with
        | none =>
          rw [present] at member
          cases member
        | some old =>
          rw [present] at member
          exact labels.methods old present method member
      names := labels.names
      fields := fun owner field known => (labels.fields owner field known).mono keeps.program
      callCounters := fun name found known => by
        obtain ⟨field, same, tallies⟩ := labels.callCounters name found known
        exact ⟨field, same, tallies.mono keeps⟩ }

/-- At the start there are no counters. -/
theorem start
    {settings : Settings}
    {program : Program}
    (unregistered : program.class? settings.counterClassName = none) :
    (Session.start settings program).Labels settings.counterClassName settings.sink where
  reports := rfl
  className := rfl
  holds _ found := by cases unregistered.symm.trans found
  methods _ found := by cases unregistered.symm.trans found
  names := nofun
  fields := nofun
  callCounters := nofun

end Labels
end Session

namespace Transform

variable {counter : String} {sink : Sink} {before : Session}

/-- An owner that is counted for the first time gets a counter of its own. -/
theorem counterFor_labels
    (labels : before.Labels counter sink)
    (owner : CounterOwner)
    (key : String) :
    Succeeds (counterFor owner key) before fun field after =>
      after.Labels counter sink ∧ before.KeepsCounters counter after ∧
        after.counters.fields.get? owner = some field := by
  cases known : before.counters.fields.get? owner with
  | some field =>
    exact ⟨field, before, ends_counterFor.2 (.inl ⟨known, rfl⟩), labels, .refl _, known⟩
  | none =>
    have named := labels.className
    subst named
    let table := before.counters
    let ensured := (before.program.ensureClass table.className table.declaration).2
    let name := table.nameFor owner key
    have labelsEnsured := labels.ensureClass
    have found :
        ensured.class? table.className =
          some ((before.program.class? table.className).getD table.declaration) :=
      Program.class?_ensureClass.trans (if_pos rfl)
    have holds := labelsEnsured.holds _ found
    obtain ⟨extended, added, holdsExtended, sameMethods, -, -⟩ := holds.addField name
    have declares := Program.addField_of_class? found added
    have ends := ends_counterFor.2 (.inr ⟨known, _, declares, rfl⟩)
    have adds := counterFor_addsCounters ends
    obtain ⟨has, -⟩ := Program.HasNumber.of_addField declares
    have counted {other : CounterOwner} {field : FieldRef}
        (knownOther : table.fields.get? other = some field) : other ≠ owner := by
      rintro rfl
      cases known.symm.trans knownOther
    have keeps := Session.KeepsCounters.of_addsCounters rfl adds fun other field knownOther => by
      rw [Table.get?_put, if_neg (counted knownOther)]
      exact knownOther
    have registered :
        (ensured.modifyClass table.className fun _ => extended).class? table.className =
          some extended := by
      rw [Program.class?_modifyClass, if_pos rfl, found]
      rfl
    refine ⟨_, _, ends, ?_, keeps, (Table.get?_put ..).trans (if_pos rfl)⟩
    exact
      { reports := labels.reports
        className := rfl
        holds := fun current located => by
          cases registered.symm.trans located
          exact holdsExtended.mono rfl keeps.fields
        methods := fun current located method member => by
          cases registered.symm.trans located
          rw [sameMethods] at member
          obtain ⟨other, field, knownOther, same⟩ := labelsEnsured.methods _ found method member
          exact ⟨other, field, keeps.fields other field knownOther, same⟩
        names := labels.names.claim owner key rfl
        fields := fun other field knownOther => by
          rw [Table.get?_put] at knownOther
          split at knownOther
          · cases knownOther
            rw [has.name_eq]
            exact has
          · exact (labels.fields other field knownOther).mono keeps.program
        callCounters := fun other counted knownOther => by
          obtain ⟨field, same, tallies⟩ := labels.callCounters other counted knownOther
          exact ⟨field, same, tallies.mono keeps⟩ }

/-- The method that counts for an owner is declared if no method has its name. -/
theorem addTally_labels
    (labels : before.Labels counter sink)
    {owner : CounterOwner}
    {field : FieldRef}
    {declaration : Class}
    (tallied : owner.IsTallied)
    (known : before.counters.fields.get? owner = some field)
    (found : before.program.class? counter = some declaration)
    (free : declaration.method? ("increment" ++ counterKey field) [] = none) :
    Succeeds (addGenerated counter (owner.tally sink field)) before fun _ after =>
      after.Labels counter sink ∧ before.KeepsCounters counter after ∧
        after.Tallies counter sink owner field := by
  refine addGenerated_succeeds found free fun generated _ => ?_
  let extended : Class :=
    { declaration with methods := declaration.methods ++ [owner.tally sink field] }
  let program := before.program.modifyClass counter fun _ => extended
  have registered : program.class? counter = some extended := by
    rw [Program.class?_modifyClass, if_pos rfl, found]
    rfl
  have keeps : before.KeepsCounters counter { before with program, generated } :=
    { settings := rfl
      others := fun name differs => (Program.class?_modifyClass _).trans (if_neg differs)
      program := .modifyClass found ⟨rfl, rfl, List.prefix_rfl, List.prefix_append _ _⟩
      fields := fun _ _ known => known
      callCounters := fun _ _ known => known }
  have tallies : Session.Tallies counter sink { before with program, generated } owner field :=
    ⟨known, extended, registered, List.mem_append_right _ List.mem_cons_self⟩
  refine ⟨?_, keeps, tallies⟩
  exact
    { reports := labels.reports
      className := labels.className
      holds := fun current located => by
        cases registered.symm.trans located
        exact (labels.holds declaration found).addMethod owner.label tallied known free
      methods := fun current located method member => by
        cases registered.symm.trans located
        rcases List.mem_append.1 member with old | new
        · exact labels.methods declaration found method old
        · exact ⟨owner, field, known, List.mem_singleton.1 new⟩
      names := labels.names
      fields := fun other counted knownOther =>
        (labels.fields other counted knownOther).mono keeps.program
      callCounters := fun name counted knownOther => by
        obtain ⟨other, same, talliesOther⟩ := labels.callCounters name counted knownOther
        exact ⟨other, same, talliesOther.mono keeps⟩ }

/-- The method that counts for an owner is there after a request. -/
theorem staticIncrementor_labels
    (labels : before.Labels counter sink)
    (owner : CounterOwner)
    {field : FieldRef}
    (tallied : owner.IsTallied)
    (known : before.counters.fields.get? owner = some field) :
    Succeeds (staticIncrementor (counterKey field) owner.label field) before fun method after =>
      after.Labels counter sink ∧ before.KeepsCounters counter after ∧
        method = ⟨counter, "increment" ++ counterKey field, [], .void⟩ ∧
        after.Tallies counter sink owner field := by
  unfold staticIncrementor
  apply Succeeds.get_bind
  rw [labels.className, labels.reports]
  dsimp only
  obtain ⟨declaration, -, found, -⟩ := labels.fields owner field known
  rw [found, Option.bind_some]
  split
  · rename_i existing
    obtain ⟨method, located⟩ := Option.isSome_iff_exists.1 existing
    have member := List.mem_of_find?_eq_some located
    have fits := List.find?_some located
    simp only [Method.fits, Bool.and_eq_true, beq_iff_eq] at fits
    rw [labels.eq_tally known found member fits.1] at member
    exact .pure ⟨labels, .refl _, rfl, known, declaration, found, member⟩
  · rename_i absent
    have free := Option.not_isSome_iff_eq_none.1 absent
    refine (addTally_labels labels tallied known found free).bind ?_
    rintro _ added ⟨labelsAdded, keeps, tallies⟩
    apply record_bind
    intro journal
    exact .pure ⟨labelsAdded.annotate added.generated added.transformed journal,
      ⟨keeps.settings, keeps.others, keeps.program, keeps.fields, keeps.callCounters⟩, rfl,
      tallies.counted, tallies.declared⟩

/-- A name has the counter of its calls after a request. -/
theorem callCounter_labels (labels : before.Labels counter sink) (name : String) :
    Succeeds (callCounter name) before fun found after =>
      after.Labels counter sink ∧ before.KeepsCounters counter after ∧
        after.callCounters.get? name = some found := by
  unfold callCounter
  apply Succeeds.get_bind
  cases known : before.callCounters.get? name with
  | some found => exact .pure ⟨labels, .refl _, known⟩
  | none =>
    refine (counterFor_labels labels (.calls name) _).bind ?_
    rintro field first ⟨labelsFirst, toFirst, counted⟩
    refine (staticIncrementor_labels labelsFirst (.calls name) trivial counted).bind ?_
    rintro _ second ⟨labelsSecond, toSecond, rfl, tallies⟩
    have keeps := toFirst.trans toSecond
    apply Succeeds.modify_bind
    refine .pure ⟨{ labelsSecond with callCounters := fun other found located => ?_ },
      ⟨keeps.settings, keeps.others, keeps.program, keeps.fields, fun other found located => ?_⟩,
      (Table.get?_put ..).trans (if_pos rfl)⟩
    · rw [Table.get?_put] at located
      split at located
      · rename_i same
        cases located
        subst same
        exact ⟨field, rfl, tallies.counted, tallies.declared⟩
      · obtain ⟨counted, same, talliesOther⟩ := labelsSecond.callCounters other found located
        exact ⟨counted, same, talliesOther.counted, talliesOther.declared⟩
    · rw [Table.get?_put, if_neg]
      · exact keeps.callCounters other found located
      · rintro rfl
        cases known.symm.trans located

/-- The counters of a type leave every counter under its label. -/
theorem typeCounter_labels (labels : before.Labels counter sink) (name : String) :
    Succeeds (typeCounter name) before fun _ after => after.Labels counter sink := by
  unfold typeCounter
  apply Succeeds.get_bind
  cases before.typeCounters.get? name with
  | some found => exact .pure labels
  | none =>
    refine (counterFor_labels labels (.reads name) _).bind ?_
    rintro readField first ⟨labelsFirst, -, knownRead⟩
    refine (counterFor_labels labelsFirst (.writes name) _).bind ?_
    rintro writeField second ⟨labelsSecond, toSecond, knownWrite⟩
    refine (staticIncrementor_labels labelsSecond (.reads name) trivial
      (toSecond.fields _ _ knownRead)).bind ?_
    rintro _ third ⟨labelsThird, toThird, -, -⟩
    refine (staticIncrementor_labels labelsThird (.writes name) trivial
      (toThird.fields _ _ knownWrite)).bind ?_
    rintro _ fourth ⟨labelsFourth, -, -, -⟩
    apply Succeeds.modify_bind
    exact .pure (labelsFourth.elsewhere rfl rfl rfl rfl)

end Transform
end AccessProfiler
