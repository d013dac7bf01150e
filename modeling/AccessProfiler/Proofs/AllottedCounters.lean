import AccessProfiler.Proofs.LabelledCounters
import AccessProfiler.Proofs.RepeatedInstrumentation
import AccessProfiler.Proofs.WrapperNames

/-!
# Counters that are allotted beforehand

Names of counters are given in the order of the requests.  Where the names that could be given to one
owner are none of those that could be given to another, the order makes no difference: each owner gets
the counter that the table would have given it at the start (`CounterTable.allotted`).

`Session.Books` says what a session knows of its counters in any order, and `Session.Allots` that the
counters are the allotted ones.  What came in with a step is listed exactly (`Session.Acquires`), so that
two sessions can be compared by what they have.
-/

namespace AccessProfiler

/-- The key under which an owner asks for its counter. -/
def CounterOwner.key : CounterOwner → String
  | .instances name => Profile.flattenedName name
  | .reads name => Text.without ['.'] name ++ "Read"
  | .writes name => Text.without ['.'] name ++ "Write"
  | .calls name => Text.without ['.'] name ++ "Call"

/-- The name of a method that counts gives the key of its counter back. -/
theorem CounterOwner.counterKey_eq_of_tally_eq
    {sink : Sink}
    {owner other : CounterOwner}
    {field counted : FieldRef}
    (same : owner.tally sink field = other.tally sink counted) :
    counterKey field = counterKey counted := by
  have letters := congrArg (fun method => method.name.toList) same
  simp only [tally, tallyMethod, String.toList_append] at letters
  exact String.toList_inj.1 (List.append_cancel_left letters)

namespace CounterTable

/-- The counter that an owner has, or the one that it would be given now. -/
def allotted (table : CounterTable) (owner : CounterOwner) : FieldRef :=
  (table.fields.get? owner).getD
    (.ofClass table.className (table.nameFor owner owner.key) .int)

/-- The names that could be given to one of the owners are none of those for another. -/
def Apart (asked : CounterOwner → Prop) : Prop :=
  ∀ first, asked first → ∀ second, asked second → ∀ attempt other,
    candidate first.key attempt = candidate second.key other → first = second

variable {table other : CounterTable} {owner : CounterOwner}

/-- The owner is given the same name where the same names that it could be given are taken. -/
theorem nameFor_congr
    {key : String}
    (distinct : table.names.keys.Nodup)
    (distinctOther : other.names.keys.Nodup)
    (same :
      ∀ attempt,
        (∃ taker, table.names.get? (candidate key attempt) = some taker ∧ taker ≠ owner) ↔
          ∃ taker, other.names.get? (candidate key attempt) = some taker ∧ taker ≠ owner) :
    table.nameFor owner key = other.nameFor owner key := by
  obtain ⟨first, named, taken⟩ := nameFor_eq distinct owner key
  obtain ⟨second, namedOther, takenOther⟩ := nameFor_eq distinctOther owner key
  rcases Nat.lt_trichotomy first second with earlier | rfl | later
  · obtain ⟨taker, held, differs⟩ := (same first).2 (takenOther first earlier)
    rw [← named] at held
    exact absurd (owner_of_nameFor held) differs
  · rw [named, namedOther]
  · obtain ⟨taker, held, differs⟩ := (same second).1 (taken second later)
    rw [← namedOther] at held
    exact absurd (owner_of_nameFor held) differs

theorem allotted_of_some
    {field : FieldRef}
    (known : table.fields.get? owner = some field) :
    table.allotted owner = field := by
  rw [allotted, known, Option.getD_some]

theorem allotted_of_none (unknown : table.fields.get? owner = none) :
    table.allotted owner = .ofClass table.className (table.nameFor owner owner.key) .int := by
  rw [allotted, unknown, Option.getD_none]

end CounterTable

/-- The counters of a type on these fields, with the methods that count on them. -/
def TypeCounter.ofFields (counter name : String) (readField writeField : FieldRef) : TypeCounter :=
  ⟨name, readField, writeField, ⟨counter, "increment" ++ counterKey readField, [], .void⟩,
    ⟨counter, "increment" ++ counterKey writeField, [], .void⟩⟩

/-- The table of a session, the class of its counters and the calls that it remembers agree. -/
structure Session.Books (counter : String) (sink : Sink) (session : Session) : Prop where
  labels : session.Labels counter sink
  distinct : session.counters.names.keys.Nodup
  names :
    ∀ name owner, session.counters.names.get? name = some owner →
      ∃ field, session.counters.fields.get? owner = some field ∧ field.name = name
  numbers :
    ∀ declaration, session.program.class? counter = some declaration →
      ∀ number ∈ declaration.fields, ∃ owner field,
        session.counters.fields.get? owner = some field ∧ number = counterField field.name
  typeCounters :
    ∀ name found, session.typeCounters.get? name = some found →
      ∃ readField writeField, found = .ofFields counter name readField writeField ∧
        session.Tallies counter sink (.reads name) readField ∧
        session.Tallies counter sink (.writes name) writeField

/-- What a session can have because it was asked for it: the class of the counters, a counter, a method
that counts on one, a wrapper. -/
inductive Asset
  | counters
  | number (owner : CounterOwner)
  | tally (owner : CounterOwner)
  | wrapper (name : String)

namespace Session

/-- The session has it. -/
def Has (session : Session) : Asset → Prop
  | .counters => (session.program.class? session.counters.className).isSome
  | .number owner => (session.counters.fields.get? owner).isSome
  | .tally owner =>
    ∃ field, session.Tallies session.counters.className session.settings.sink owner field
  | .wrapper name => (session.wrappers.get? name).isSome

/-- What comes in with a counter. -/
def numberAssets (owner : CounterOwner) : List Asset :=
  [.counters, .number owner]

theorem mem_numberAssets {owner : CounterOwner} {asset : Asset} :
    asset ∈ numberAssets owner ↔ asset = .counters ∨ asset = .number owner := by
  simp [numberAssets]

/-- Exactly these came in. -/
def Acquires (before after : Session) (assets : List Asset) : Prop :=
  ∀ asset, after.Has asset ↔ before.Has asset ∨ asset ∈ assets

/-- The methods that are generated for it, each as it is remembered. -/
def marks (base : Session) : Asset → List String
  | .counters | .number _ => []
  | .tally owner =>
    [base.counters.className ++ "." ++
      ("increment" ++ counterKey (base.counters.allotted owner))]
  | .wrapper name => Wrapper.memberNames.map fun member => name ++ "." ++ member

/-- The counters of the session are those that the base allots, what came in was asked for, and nothing
else was generated. -/
structure Allots (base : Session) (asked : CounterOwner → Prop) (session : Session) : Prop where
  books : session.Books base.counters.className base.settings.sink
  kept :
    ∀ owner field, base.counters.fields.get? owner = some field →
      session.counters.fields.get? owner = some field
  fields :
    ∀ owner field, session.counters.fields.get? owner = some field →
      field = base.counters.allotted owner ∧ (base.counters.fields.get? owner = none → asked owner)
  generated :
    ∀ method, method ∈ session.generated ↔
      method ∈ base.generated ∨ ∃ asset, session.Has asset ∧ method ∈ base.marks asset

/-- Counters and methods that count came in, and nothing else happened. -/
structure Serves (before after : Session) (assets : List Asset) : Prop where
  acquires : before.Acquires after assets
  settings : after.settings = before.settings
  profiles : after.profiles = before.profiles
  wrappers : after.wrappers = before.wrappers
  className : after.counters.className = before.counters.className
  others :
    ∀ name, name ≠ before.counters.className →
      after.program.class? name = before.program.class? name

variable {counter : String} {sink : Sink} {session before between after : Session}

theorem Acquires.refl (session : Session) : session.Acquires session [] := by
  simp [Acquires]

theorem Acquires.trans
    {first second : List Asset}
    (acquires : before.Acquires between first)
    (further : between.Acquires after second) :
    before.Acquires after (first ++ second) := by
  intro asset
  rw [further asset, acquires asset, List.mem_append, or_assoc]

/-- Which methods count is a matter of the counters and their class. -/
theorem has_tally_iff_of_same
    (before after : Session)
    (settings : after.settings = before.settings)
    (counters : after.counters = before.counters)
    (program :
      after.program.class? before.counters.className =
        before.program.class? before.counters.className)
    (owner : CounterOwner) :
    after.Has (.tally owner) ↔ before.Has (.tally owner) := by
  simp only [Has, counters, settings]
  refine exists_congr fun field => ?_
  constructor
  · rintro ⟨counted, declared⟩
    exact ⟨counters ▸ counted, program ▸ declared⟩
  · rintro ⟨counted, declared⟩
    exact ⟨counters ▸ counted, program ▸ declared⟩

/-- What a session has is a matter of its counters, their class and its wrappers. -/
theorem has_iff_of_same
    (before after : Session)
    (settings : after.settings = before.settings)
    (counters : after.counters = before.counters)
    (wrappers : after.wrappers = before.wrappers)
    (program :
      after.program.class? before.counters.className =
        before.program.class? before.counters.className)
    (asset : Asset) :
    after.Has asset ↔ before.Has asset := by
  cases asset with
  | counters => simp only [Has, counters, program]
  | number owner => simp [Has, counters]
  | tally owner => exact has_tally_iff_of_same before after settings counters program owner
  | wrapper name => simp [Has, wrappers]

theorem has_withTypeCounters (typeCounters : Table String TypeCounter) (asset : Asset) :
    ({ session with typeCounters } : Session).Has asset ↔ session.Has asset :=
  has_iff_of_same session { session with typeCounters } rfl rfl rfl rfl asset

theorem has_withCallCounters (callCounters : Table String CallCounter) (asset : Asset) :
    ({ session with callCounters } : Session).Has asset ↔ session.Has asset :=
  has_iff_of_same session { session with callCounters } rfl rfl rfl rfl asset

/-- What was noted down makes no difference. -/
theorem has_annotate
    (generated : List String)
    (transformed : List MethodId)
    (journal : Journal)
    (asset : Asset) :
    ({ session with generated, transformed, journal } : Session).Has asset ↔ session.Has asset :=
  has_iff_of_same session { session with generated, transformed, journal } rfl rfl rfl rfl asset

/-- What is there already has come in as well. -/
theorem Acquires.of_has
    {assets : List Asset}
    (acquires : before.Acquires after [])
    (has : ∀ asset ∈ assets, before.Has asset) :
    before.Acquires after assets := by
  intro asset
  rw [acquires asset]
  constructor
  · rintro (there | none)
    · exact .inl there
    · cases none
  · rintro (there | listed)
    · exact .inl there
    · exact .inl (has asset listed)

namespace Books

/-- The books are a matter of the class of the counters only. -/
theorem elsewhere
    (books : before.Books counter sink)
    (settings : after.settings = before.settings)
    (counters : after.counters = before.counters)
    (typeCounters : after.typeCounters = before.typeCounters)
    (callCounters : after.callCounters = before.callCounters)
    (program : after.program.class? counter = before.program.class? counter) :
    after.Books counter sink where
  labels := books.labels.elsewhere settings counters callCounters program
  distinct := counters ▸ books.distinct
  names := counters ▸ books.names
  numbers declaration found := counters ▸ books.numbers declaration (program ▸ found)
  typeCounters name found known := by
    obtain ⟨readField, writeField, same, read, write⟩ :=
      books.typeCounters name found (typeCounters ▸ known)
    refine ⟨readField, writeField, same, ⟨counters ▸ read.counted, ?_⟩,
      counters ▸ write.counted, ?_⟩
    · rw [program]
      exact read.declared
    · rw [program]
      exact write.declared

theorem start
    {settings : Settings}
    {program : Program}
    (unregistered : program.class? settings.counterClassName = none) :
    (Session.start settings program).Books settings.counterClassName settings.sink where
  labels := .start unregistered
  distinct := List.nodup_nil
  names := nofun
  numbers _ found := by cases unregistered.symm.trans found
  typeCounters := nofun

/-- An owner has a counter on their class only. -/
theorem has_counters
    (books : session.Books counter sink)
    {owner : CounterOwner}
    {field : FieldRef}
    (known : session.counters.fields.get? owner = some field) :
    session.Has .counters := by
  obtain ⟨declaration, declared, found, -⟩ := books.labels.fields owner field known
  simp [Has, books.labels.className, found]

/-- Two owners do not have a counter of one name. -/
theorem has_tally_iff
    (books : session.Books counter sink)
    {owner : CounterOwner} :
    session.Has (.tally owner) ↔
      ∃ field, session.counters.fields.get? owner = some field ∧
        ∃ declaration, session.program.class? counter = some declaration ∧
          owner.tally sink field ∈ declaration.methods := by
  have named := books.labels.className
  have reports := books.labels.reports
  subst named reports
  constructor
  · rintro ⟨field, counted, declared⟩
    exact ⟨field, counted, declared⟩
  · rintro ⟨field, counted, declared⟩
    exact ⟨field, counted, declared⟩

end Books

/-- An owner without a counter is given the allotted name. -/
theorem Allots.nameFor_eq
    {base : Session}
    {asked : CounterOwner → Prop}
    {owner : CounterOwner}
    (apart : CounterTable.Apart asked)
    (booksBase : base.Books counter sink)
    (allots : base.Allots asked session)
    (asks : asked owner)
    (unknown : session.counters.fields.get? owner = none) :
    session.counters.nameFor owner owner.key = (base.counters.allotted owner).name := by
  have books := allots.books
  have unknownBase : base.counters.fields.get? owner = none := by
    cases known : base.counters.fields.get? owner with
    | none => rfl
    | some field => cases unknown.symm.trans (allots.kept owner field known)
  rw [CounterTable.allotted_of_none unknownBase]
  refine CounterTable.nameFor_congr books.distinct booksBase.distinct fun attempt => ?_
  constructor
  · rintro ⟨taker, held, differs⟩
    obtain ⟨field, counted, named⟩ := books.names _ _ held
    obtain ⟨rfl, asksTaker⟩ := allots.fields taker field counted
    cases known : base.counters.fields.get? taker with
    | some field =>
      rw [CounterTable.allotted_of_some known] at named
      rw [← named]
      exact ⟨taker, (booksBase.labels.names taker field known).1, differs⟩
    | none =>
      -- The taker was given a name for its own key, which is none of those for this one.
      rw [CounterTable.allotted_of_none known] at named
      obtain ⟨tried, given, -⟩ := CounterTable.nameFor_eq booksBase.distinct taker taker.key
      exact absurd (apart taker (asksTaker known) owner asks tried attempt
        (given.symm.trans named)) differs
  · rintro ⟨taker, held, differs⟩
    obtain ⟨field, counted, named⟩ := booksBase.names _ _ held
    rw [← named]
    exact ⟨taker, (books.labels.names taker field (allots.kept taker field counted)).1, differs⟩

namespace Serves

theorem refl (session : Session) : session.Serves session [] :=
  ⟨.refl session, rfl, rfl, rfl, rfl, fun _ _ => rfl⟩

theorem trans
    {first second : List Asset}
    (serves : before.Serves between first)
    (further : between.Serves after second) :
    before.Serves after (first ++ second) where
  acquires := serves.acquires.trans further.acquires
  settings := further.settings.trans serves.settings
  profiles := further.profiles.trans serves.profiles
  wrappers := further.wrappers.trans serves.wrappers
  className := further.className.trans serves.className
  others name differs :=
    (further.others name (serves.className ▸ differs)).trans (serves.others name differs)

/-- What is there already has come in as well. -/
theorem of_has
    {assets : List Asset}
    (serves : before.Serves after [])
    (has : ∀ asset ∈ assets, before.Has asset) :
    before.Serves after assets :=
  { serves with acquires := serves.acquires.of_has has }

end Serves

/-- The owner got a counter of this name on the class of the counters, and nothing else happened. -/
structure Enters
    (counter : String)
    (owner : CounterOwner)
    (name : String)
    (before after : Session) : Prop where
  keeps : before.KeepsCounters counter after
  fields :
    after.counters.fields = before.counters.fields.put owner (.ofClass counter name .int)
  names : after.counters.names = before.counters.names.put name owner
  methods :
    ∀ declaration, after.program.class? counter = some declaration →
      ∀ method ∈ declaration.methods, ∃ old, before.program.class? counter = some old ∧
        method ∈ old.methods
  numbers :
    ∀ declaration, after.program.class? counter = some declaration →
      ∀ number ∈ declaration.fields, number = counterField name ∨
        ∃ old, before.program.class? counter = some old ∧ number ∈ old.fields
  profiles : after.profiles = before.profiles
  wrappers : after.wrappers = before.wrappers
  typeCounters : after.typeCounters = before.typeCounters
  generated : after.generated = before.generated

namespace Enters

variable {owner : CounterOwner} {name : String}

theorem books
    (enters : Enters counter owner name before after)
    (books : before.Books counter sink)
    (labels : after.Labels counter sink) :
    after.Books counter sink where
  labels := labels
  distinct := by
    rw [enters.names]
    exact Table.nodup_keys_put books.distinct _ _
  names other taker held := by
    rw [enters.names, Table.get?_put] at held
    split at held
    · rename_i isName
      cases held
      refine ⟨.ofClass counter name .int, ?_, isName.symm⟩
      rw [enters.fields, Table.get?_put, if_pos rfl]
    · obtain ⟨field, known, isNamed⟩ := books.names other taker held
      exact ⟨field, enters.keeps.fields taker field known, isNamed⟩
  numbers declaration found number member := by
    rcases enters.numbers declaration found number member with new | ⟨old, present, memberOld⟩
    · refine ⟨owner, .ofClass counter name .int, ?_, new⟩
      rw [enters.fields, Table.get?_put, if_pos rfl]
    · obtain ⟨taker, field, known, isNumber⟩ := books.numbers old present number memberOld
      exact ⟨taker, field, enters.keeps.fields taker field known, isNumber⟩
  typeCounters name found known := by
    obtain ⟨readField, writeField, isCounter, read, write⟩ :=
      books.typeCounters name found (enters.typeCounters ▸ known)
    exact ⟨readField, writeField, isCounter, read.mono enters.keeps, write.mono enters.keeps⟩

/-- No method that counts came in, since each of them counts for an owner that had a counter. -/
theorem has_tally_iff
    (enters : Enters counter owner name before after)
    (books : before.Books counter sink)
    (labels : after.Labels counter sink)
    {taker : CounterOwner} :
    after.Has (.tally taker) ↔ before.Has (.tally taker) := by
  rw [(enters.books books labels).has_tally_iff, books.has_tally_iff]
  constructor
  · rintro ⟨field, known, declaration, found, member⟩
    obtain ⟨old, present, memberOld⟩ := enters.methods declaration found _ member
    obtain ⟨tallied, counted, knownOld, isTally⟩ := books.labels.methods old present _ memberOld
    have knownToo := enters.keeps.fields tallied counted knownOld
    obtain rfl :=
      labels.owner_unique known knownToo (CounterOwner.counterKey_eq_of_tally_eq isTally)
    cases known.symm.trans knownToo
    exact ⟨_, knownOld, old, present, memberOld⟩
  · rintro ⟨field, known, old, present, member⟩
    have tallies : before.Tallies counter sink taker field := ⟨known, old, present, member⟩
    exact ⟨field, (tallies.mono enters.keeps).counted, (tallies.mono enters.keeps).declared⟩

theorem serves
    (enters : Enters counter owner name before after)
    (books : before.Books counter sink)
    (labels : after.Labels counter sink) :
    before.Serves after (numberAssets owner) where
  acquires := by
    rintro (_ | taker | taker | other)
    · have known : after.counters.fields.get? owner = some (.ofClass counter name .int) := by
        rw [enters.fields, Table.get?_put, if_pos rfl]
      obtain ⟨declaration, declared, found, -⟩ := labels.fields owner _ known
      simp [Session.Has, labels.className, found, numberAssets]
    · simp only [Session.Has, enters.fields, Table.get?_put, numberAssets, List.mem_cons,
        reduceCtorEq, List.not_mem_nil, Asset.number.injEq, false_or, or_false]
      split
      · rename_i isOwner
        simp [isOwner]
      · rename_i differs
        simp [differs]
    · rw [enters.has_tally_iff books labels]
      simp [numberAssets]
    · simp [Session.Has, enters.wrappers, numberAssets]
  settings := enters.keeps.settings
  profiles := enters.profiles
  wrappers := enters.wrappers
  className := labels.className.trans books.labels.className.symm
  others other differs := enters.keeps.others other (books.labels.className ▸ differs)

end Enters

end Session

namespace Transform

variable
    {counter : String}
    {sink : Sink}
    {base before after : Session}
    {asked : CounterOwner → Prop}
    {owner : CounterOwner}

/-- A generated method is new on its class, and it is remembered. -/
theorem ends_addGenerated
    {className : String}
    {method : Method}
    {done : Unit}
    (ends : Ends (addGenerated className method) before done after) :
    ∃ declaration generated,
      before.program.class? className = some declaration ∧
        declaration.method? method.name method.parameters = none ∧
        (∀ other, other ∈ generated ↔
          other ∈ before.generated ∨ other = className ++ "." ++ method.name) ∧
        after =
          { before with
            program :=
              before.program.modifyClass className fun _ =>
                { declaration with methods := declaration.methods ++ [method] }
            generated } := by
  unfold addGenerated at ends
  obtain ⟨id, between, adds, marks⟩ := Ends.bind_iff.1 ends
  obtain ⟨program, added, rfl⟩ := ends_changeProgram.1 adds
  obtain ⟨declaration, found, free, rfl⟩ := Program.addMethod_eq_ok added
  have marked := Ends.modify_iff.1 marks
  have named : (method.reference className).qualifiedName = className ++ "." ++ method.name := rfl
  rw [named] at marked
  split at marked
  · rename_i present
    refine ⟨declaration, before.generated, found, free, fun other => ?_, marked⟩
    have there : className ++ "." ++ method.name ∈ before.generated := by
      simpa [Session.isGenerated] using present
    exact ⟨.inl, fun either => either.elim (fun old => old) fun same => same ▸ there⟩
  · exact ⟨declaration, _, found, free, fun other => by simp, marked⟩

/-- An owner without a counter is given one under the first name that is free. -/
theorem counterFor_enters
    (books : before.Books counter sink)
    {key : String}
    {field : FieldRef}
    (unknown : before.counters.fields.get? owner = none)
    (ends : Ends (counterFor owner key) before field after) :
    field = .ofClass counter (before.counters.nameFor owner key) .int ∧ after.Labels counter sink ∧
      Session.Enters counter owner (before.counters.nameFor owner key) before after := by
  obtain ⟨given, reached, endsToo, labels, keeps, -⟩ := counterFor_labels books.labels owner key
  obtain ⟨rfl, rfl⟩ := ends.unique endsToo
  have named := books.labels.className
  subst named
  obtain ⟨known, -⟩ | ⟨-, program, added, same⟩ := ends_counterFor.1 ends
  · cases known.symm.trans unknown
  obtain ⟨declaration, extended, found, addedThere, rfl⟩ := Program.addField_eq_ok added
  obtain ⟨other, addedToo, -, sameMethods, -, -⟩ :=
    (books.labels.ensureClass.holds declaration found).addField (before.counters.nameFor owner key)
  obtain ⟨rfl, rfl⟩ := Prod.mk.inj (Except.ok.inj (addedThere.symm.trans addedToo))
  have registered : after.program.class? before.counters.className = some extended := by
    rw [same, Program.class?_modifyClass, if_pos rfl, found]
    rfl
  have earlier
      {Item : Type}
      {members : Class → List Item}
      (bare : members before.counters.declaration = [])
      {item : Item}
      (member : item ∈ members declaration) :
      ∃ old, before.program.class? before.counters.className = some old ∧ item ∈ members old := by
    rw [Program.class?_ensureClass, if_pos rfl, Option.some.injEq] at found
    rw [← found] at member
    cases present : before.program.class? before.counters.className with
    | none =>
      rw [present, Option.getD_none, bare] at member
      cases member
    | some old =>
      rw [present] at member
      exact ⟨old, rfl, member⟩
  refine ⟨rfl, labels, ⟨keeps, by rw [same], by rw [same]; rfl, fun current located => ?_,
    fun current located => ?_, by rw [same], by rw [same], by rw [same], by rw [same]⟩⟩
  · intro method member
    cases located.symm.trans registered
    rw [sameMethods] at member
    exact earlier rfl member
  · intro number member
    cases located.symm.trans registered
    rcases Class.addField_cases addedThere with ⟨_, -, -, -, rfl⟩ | ⟨-, -, rfl⟩
    · exact .inr (earlier rfl member)
    · rcases List.mem_append.1 member with present | new
      · exact .inr (earlier rfl present)
      · exact .inl (List.mem_singleton.1 new)

/-- To ask for a counter adds that counter, unless the owner has one. -/
theorem counterFor_books
    (books : before.Books counter sink)
    {key : String}
    {field : FieldRef}
    (ends : Ends (counterFor owner key) before field after) :
    after.Books counter sink ∧ before.Serves after (Session.numberAssets owner) ∧
      after.generated = before.generated ∧ after.counters.fields.get? owner = some field ∧
      (∀ other, other ≠ owner →
        after.counters.fields.get? other = before.counters.fields.get? other) ∧
      (before.counters.fields.get? owner = none →
        field = .ofClass counter (before.counters.nameFor owner key) .int) := by
  cases known : before.counters.fields.get? owner with
  | some given =>
    obtain ⟨rfl, rfl⟩ := ends.unique (ends_counterFor.2 (.inl ⟨known, rfl⟩))
    refine ⟨books, (Session.Serves.refl _).of_has ?_, rfl, known, fun _ _ => rfl, nofun⟩
    have counts : Session.Has _ (.number owner) := Option.isSome_iff_exists.2 ⟨_, known⟩
    simpa [Session.numberAssets] using ⟨books.has_counters known, counts⟩
  | none =>
    obtain ⟨rfl, labels, enters⟩ := counterFor_enters books known ends
    refine ⟨enters.books books labels, enters.serves books labels, enters.generated, ?_, ?_,
      fun _ => rfl⟩
    · rw [enters.fields, Table.get?_put, if_pos rfl]
    · intro other differs
      rw [enters.fields, Table.get?_put, if_neg differs]

/-- The method that counts for an owner is declared unless it is there. -/
theorem ends_staticIncrementor
    (books : before.Books counter sink)
    (tallied : owner.IsTallied)
    {field : FieldRef}
    (known : before.counters.fields.get? owner = some field)
    {method : MethodRef}
    (ends : Ends (staticIncrementor (counterKey field) owner.label field) before method after) :
    before.Has (.tally owner) ∧ after = before ∨
      ¬ before.Has (.tally owner) ∧ ∃ declaration generated journal,
        before.program.class? counter = some declaration ∧
          (∀ other, other ∈ generated ↔
            other ∈ before.generated ∨
              other = counter ++ "." ++ ("increment" ++ counterKey field)) ∧
          after =
            { before with
              program :=
                before.program.modifyClass counter fun _ =>
                  { declaration with
                    methods := declaration.methods ++ [owner.tally sink field] }
              generated
              journal } := by
  obtain ⟨given, reached, endsToo, -, -, -, tallies⟩ :=
    staticIncrementor_labels books.labels owner tallied known
  obtain ⟨-, rfl⟩ := ends.unique endsToo
  have named := books.labels.className
  have reports := books.labels.reports
  subst named reports
  unfold staticIncrementor at ends
  rw [Ends.get_bind_iff] at ends
  dsimp only at ends
  split at ends
  · obtain ⟨-, rfl⟩ := Ends.pure_iff.1 ends
    exact .inl ⟨⟨field, tallies⟩, rfl⟩
  · rename_i absent
    refine .inr ⟨?_, ?_⟩
    · rintro ⟨other, has⟩
      cases known.symm.trans has.counted
      rw [books.labels.method?_tally has] at absent
      exact absent rfl
    · obtain ⟨_, between, adds, ends⟩ := Ends.bind_iff.1 ends
      obtain ⟨_, last, records, ends⟩ := Ends.bind_iff.1 ends
      obtain ⟨-, rfl⟩ := Ends.pure_iff.1 ends
      obtain ⟨declaration, generated, found, -, marked, rfl⟩ := ends_addGenerated adds
      exact ⟨declaration, generated, _, found, marked, ends_record.1 records⟩

/-- The method that counts for an owner is there after it was asked for. -/
theorem staticIncrementor_books
    (books : before.Books counter sink)
    (tallied : owner.IsTallied)
    {field : FieldRef}
    (known : before.counters.fields.get? owner = some field)
    {method : MethodRef}
    (ends : Ends (staticIncrementor (counterKey field) owner.label field) before method after) :
    method = ⟨counter, "increment" ++ counterKey field, [], .void⟩ ∧ after.Books counter sink ∧
      before.Serves after [.tally owner] ∧ after.counters = before.counters ∧
      after.Tallies counter sink owner field ∧
      ∀ other, other ∈ after.generated ↔
        other ∈ before.generated ∨
          ¬ before.Has (.tally owner) ∧
            other = counter ++ "." ++ ("increment" ++ counterKey field) := by
  obtain ⟨given, reached, endsToo, labels, keeps, rfl, tallies⟩ :=
    staticIncrementor_labels books.labels owner tallied known
  obtain ⟨rfl, rfl⟩ := ends.unique endsToo
  refine ⟨rfl, ?_⟩
  obtain ⟨has, rfl⟩ | ⟨lacks, declaration, generated, journal, found, marked, same⟩ :=
    ends_staticIncrementor books tallied known ends
  · refine ⟨books, (Session.Serves.refl _).of_has ?_, rfl, tallies, fun other => ?_⟩
    · intro asset listed
      rw [List.mem_singleton.1 listed]
      exact has
    · simp [has]
  have registered :
      after.program.class? counter =
        some { declaration with methods := declaration.methods ++ [owner.tally sink field] } := by
    rw [same, Program.class?_modifyClass, if_pos rfl, found]
    rfl
  have counters : after.counters = before.counters := by rw [same]
  have books' : after.Books counter sink :=
    { labels := labels
      distinct := counters ▸ books.distinct
      names := counters ▸ books.names
      numbers := fun current located number member => by
        cases located.symm.trans registered
        exact counters ▸ books.numbers declaration found number member
      typeCounters := fun name given remembered => by
        obtain ⟨readField, writeField, isCounter, read, write⟩ :=
          books.typeCounters name given (by rw [same] at remembered; exact remembered)
        exact ⟨readField, writeField, isCounter, read.mono keeps, write.mono keeps⟩ }
  refine ⟨books', ⟨?_, keeps.settings, by rw [same], by rw [same], by rw [counters], ?_⟩, counters,
    tallies, fun other => ?_⟩
  · rintro (_ | taker | taker | name)
    · simp [Session.Has, counters, books.labels.className, found, registered]
    · simp [Session.Has, counters]
    · rw [books'.has_tally_iff, books.has_tally_iff, counters]
      simp only [List.mem_singleton, Asset.tally.injEq]
      constructor
      · rintro ⟨counted, knownTaker, current, located, member⟩
        cases located.symm.trans registered
        rcases List.mem_append.1 member with old | new
        · exact .inl ⟨counted, knownTaker, declaration, found, old⟩
        · have keys := CounterOwner.counterKey_eq_of_tally_eq (List.mem_singleton.1 new)
          exact .inr (books.labels.owner_unique knownTaker known keys)
      · rintro (⟨counted, knownTaker, current, located, member⟩ | rfl)
        · cases located.symm.trans found
          exact ⟨counted, knownTaker, _, registered, List.mem_append_left _ member⟩
        · exact ⟨field, known, tallies.declared⟩
    · simp [Session.Has, same]
  · intro name differs
    exact keeps.others name (books.labels.className ▸ differs)
  · rw [same]
    simp [marked, lacks]

end Transform
end AccessProfiler
