import AccessProfiler.Proofs.AllottedCounters

/-!
# Requests with one answer

Where counters are allotted beforehand, a request has one answer, whatever was asked for before it: the
counters of a type are on the two fields that the base allots (`Session.typeCounterOf`), those of calls
on one (`Session.callCounterOf`).  Each request leaves the session with allotted counters, and what came
in is known as well.
-/

namespace AccessProfiler

namespace Session

/-- The counters of a type, whenever they are asked for. -/
def typeCounterOf (base : Session) (name : String) : TypeCounter :=
  .ofFields base.counters.className name (base.counters.allotted (.reads name))
    (base.counters.allotted (.writes name))

/-- The counter of the calls under a name, whenever it is asked for. -/
def callCounterOf (base : Session) (name : String) : CallCounter :=
  .ofField base.counters.className name (base.counters.allotted (.calls name))

/-- What comes in with the counters of a type. -/
def typeAssets (name : String) : List Asset :=
  numberAssets (.reads name) ++ numberAssets (.writes name) ++
    [.tally (.reads name), .tally (.writes name)]

/-- What comes in with the counter of the calls under a name. -/
def callAssets (name : String) : List Asset :=
  numberAssets (.calls name) ++ [.tally (.calls name)]

variable {base before after : Session} {asked : CounterOwner → Prop}

namespace Allots

/-- At the start the counters are those of the base. -/
theorem refl
    (books : base.Books base.counters.className base.settings.sink)
    (marked : ∀ asset, base.Has asset → ∀ method ∈ base.marks asset, method ∈ base.generated) :
    base.Allots asked base where
  books := books
  kept _ _ known := known
  fields owner field known := by
    refine ⟨(CounterTable.allotted_of_some known).symm, fun unknown => ?_⟩
    cases known.symm.trans unknown
  generated method := by
    constructor
    · exact .inl
    · rintro (old | ⟨asset, has, mark⟩)
      · exact old
      · exact marked asset has method mark

/-- Nothing of this is about other classes, nor about the bodies that were changed. -/
theorem elsewhere
    (allots : base.Allots asked before)
    (settings : after.settings = before.settings)
    (counters : after.counters = before.counters)
    (typeCounters : after.typeCounters = before.typeCounters)
    (callCounters : after.callCounters = before.callCounters)
    (wrappers : after.wrappers = before.wrappers)
    (generated : after.generated = before.generated)
    (program :
      after.program.class? base.counters.className =
        before.program.class? base.counters.className) :
    base.Allots asked after where
  books := allots.books.elsewhere settings counters typeCounters callCounters program
  kept := counters ▸ allots.kept
  fields := counters ▸ allots.fields
  generated method := by
    have named := allots.books.labels.className
    have same := has_iff_of_same before after settings counters wrappers (named ▸ program)
    rw [generated, allots.generated]
    exact or_congr_right (exists_congr fun asset => and_congr_left fun _ => (same asset).symm)

/-- A counter that the session has is the allotted one. -/
theorem get?_eq
    (allots : base.Allots asked before)
    {owner : CounterOwner}
    (has : before.Has (.number owner)) :
    before.counters.fields.get? owner = some (base.counters.allotted owner) := by
  obtain ⟨field, known⟩ := Option.isSome_iff_exists.1 has
  rw [known, (allots.fields owner field known).1]

/-- A method that counts counts on the allotted counter. -/
theorem tallies_of_has
    (allots : base.Allots asked before)
    {owner : CounterOwner}
    (has : before.Has (.tally owner)) :
    before.Tallies base.counters.className base.settings.sink owner
      (base.counters.allotted owner) := by
  obtain ⟨field, known, declared⟩ := allots.books.has_tally_iff.1 has
  obtain ⟨rfl, -⟩ := allots.fields owner field known
  exact ⟨known, declared⟩

/-- The counters of a type may be remembered once they are there. -/
theorem putTypeCounter
    (allots : base.Allots asked before)
    {name : String}
    (read : before.Has (.tally (.reads name)))
    (write : before.Has (.tally (.writes name))) :
    base.Allots asked
      { before with
        typeCounters := before.typeCounters.put name (base.typeCounterOf name) } where
  books :=
    { labels := allots.books.labels.elsewhere rfl rfl rfl rfl
      distinct := allots.books.distinct
      names := allots.books.names
      numbers := allots.books.numbers
      typeCounters := fun other found known => by
        rw [Table.get?_put] at known
        split at known
        · rename_i same
          cases known
          subst same
          have reads := allots.tallies_of_has read
          have writes := allots.tallies_of_has write
          exact ⟨_, _, rfl, ⟨reads.counted, reads.declared⟩, writes.counted, writes.declared⟩
        · obtain ⟨readField, writeField, same, reads, writes⟩ :=
            allots.books.typeCounters other found known
          exact ⟨readField, writeField, same, ⟨reads.counted, reads.declared⟩, writes.counted,
            writes.declared⟩ }
  kept := allots.kept
  fields := allots.fields
  generated method := by
    rw [allots.generated]
    exact or_congr_right (exists_congr fun asset => and_congr_left fun _ =>
      (has_withTypeCounters _ asset).symm)

/-- The counter of calls may be remembered once it is there. -/
theorem putCallCounter
    (allots : base.Allots asked before)
    {name : String}
    (has : before.Has (.tally (.calls name))) :
    base.Allots asked
      { before with
        callCounters := before.callCounters.put name (base.callCounterOf name) } where
  books :=
    { labels :=
        { allots.books.labels with
          callCounters := fun other found known => by
            rw [Table.get?_put] at known
            split at known
            · rename_i same
              cases known
              subst same
              have calls := allots.tallies_of_has has
              exact ⟨_, rfl, calls.counted, calls.declared⟩
            · obtain ⟨field, same, calls⟩ := allots.books.labels.callCounters other found known
              exact ⟨field, same, calls.counted, calls.declared⟩ }
      distinct := allots.books.distinct
      names := allots.books.names
      numbers := allots.books.numbers
      typeCounters := fun other found known => by
        obtain ⟨readField, writeField, same, reads, writes⟩ :=
          allots.books.typeCounters other found known
        exact ⟨readField, writeField, same, ⟨reads.counted, reads.declared⟩, writes.counted,
          writes.declared⟩ }
  kept := allots.kept
  fields := allots.fields
  generated method := by
    rw [allots.generated]
    exact or_congr_right (exists_congr fun asset => and_congr_left fun _ =>
      (has_withCallCounters _ asset).symm)

end Allots

/-- An owner for which a method counts has a counter. -/
theorem Books.has_of_tallies
    {counter : String}
    {sink : Sink}
    (books : before.Books counter sink)
    {owner : CounterOwner}
    {field : FieldRef}
    (tallies : before.Tallies counter sink owner field) :
    (∀ asset ∈ numberAssets owner, before.Has asset) ∧ before.Has (.tally owner) :=
  ⟨by simpa [numberAssets] using
      ⟨books.has_counters tallies.counted, Option.isSome_iff_exists.2 ⟨field, tallies.counted⟩⟩,
    books.has_tally_iff.2 ⟨field, tallies.counted, tallies.declared⟩⟩

/-- What came in is there, and so is what was there. -/
theorem Serves.has
    {assets : List Asset}
    (serves : before.Serves after assets)
    {asset : Asset}
    (has : before.Has asset ∨ asset ∈ assets) :
    after.Has asset :=
  (serves.acquires asset).2 has

end Session

namespace Transform

variable {base before after : Session} {asked : CounterOwner → Prop}

/-- To record an event changes nothing of this. -/
theorem record_allotted
    (allots : base.Allots asked before)
    {event : Event}
    {done : Unit}
    (ends : Ends (record event) before done after) :
    base.Allots asked after ∧ before.Serves after [] := by
  rw [ends_record] at ends
  subst ends
  exact ⟨allots.elsewhere rfl rfl rfl rfl rfl rfl rfl,
    fun asset => by simp [before.has_annotate before.generated before.transformed _ asset],
    rfl, rfl, rfl, rfl, fun _ _ => rfl⟩

section Requests

variable
    (apart : CounterTable.Apart asked)
    (booksBase : base.Books base.counters.className base.settings.sink)
include apart booksBase

/-- An owner that may ask is given the allotted counter. -/
theorem counterFor_allotted
    (allots : base.Allots asked before)
    {owner : CounterOwner}
    (asks : asked owner)
    {field : FieldRef}
    (ends : Ends (counterFor owner owner.key) before field after) :
    field = base.counters.allotted owner ∧ base.Allots asked after ∧
      before.Serves after (Session.numberAssets owner) ∧
      after.counters.fields.get? owner = some field := by
  obtain ⟨books, serves, generated, counted, others, fresh⟩ := counterFor_books allots.books ends
  have keeps (other : CounterOwner) (known : FieldRef)
      (there : before.counters.fields.get? other = some known) :
      after.counters.fields.get? other = some known := by
    by_cases same : other = owner
    · subst same
      have given := (ends_counterFor.2 (.inl ⟨there, rfl⟩) :
        Ends (counterFor other other.key) before known before)
      obtain ⟨rfl, rfl⟩ := ends.unique given
      exact there
    · rw [others other same, there]
  have allotted : field = base.counters.allotted owner := by
    cases known : before.counters.fields.get? owner with
    | some given =>
      have := (keeps owner given known).symm.trans counted
      cases this
      exact (allots.fields owner field known).1
    | none =>
      have unknown : base.counters.fields.get? owner = none := by
        cases there : base.counters.fields.get? owner with
        | none => rfl
        | some field => cases known.symm.trans (allots.kept owner field there)
      have named := allots.nameFor_eq apart booksBase asks known
      rw [fresh known, named, CounterTable.allotted_of_none unknown]
      rfl
  refine ⟨allotted, ⟨books, fun other known there => keeps other known (allots.kept other known there),
    fun other known there => ?_, fun method => ?_⟩, serves, counted⟩
  · by_cases same : other = owner
    · subst same
      cases counted.symm.trans there
      exact ⟨allotted, fun _ => asks⟩
    · exact allots.fields other known (others other same ▸ there)
  · rw [generated, allots.generated]
    refine or_congr_right (exists_congr fun asset => ?_)
    rw [serves.acquires asset]
    constructor
    · rintro ⟨has, mark⟩
      exact ⟨.inl has, mark⟩
    · rintro ⟨has | new, mark⟩
      · exact ⟨has, mark⟩
      · rcases Session.mem_numberAssets.1 new with rfl | rfl <;> cases mark

omit apart booksBase in
/-- The method that counts for an owner counts on the allotted counter. -/
theorem staticIncrementor_allotted
    (allots : base.Allots asked before)
    {owner : CounterOwner}
    (tallied : owner.IsTallied)
    (known : before.counters.fields.get? owner = some (base.counters.allotted owner))
    {method : MethodRef}
    (ends :
      Ends
        (staticIncrementor (counterKey (base.counters.allotted owner)) owner.label
          (base.counters.allotted owner))
        before method after) :
    method =
        ⟨base.counters.className, "increment" ++ counterKey (base.counters.allotted owner), [],
          .void⟩ ∧
      base.Allots asked after ∧ before.Serves after [.tally owner] ∧
      after.counters = before.counters ∧
      after.Tallies base.counters.className base.settings.sink owner
        (base.counters.allotted owner) := by
  obtain ⟨given, books, serves, counters, tallies, marked⟩ :=
    staticIncrementor_books allots.books tallied known ends
  refine ⟨given, ⟨books, counters ▸ allots.kept, counters ▸ allots.fields, fun name => ?_⟩, serves,
    counters, tallies⟩
  rw [marked, allots.generated]
  constructor
  · rintro ((old | ⟨asset, has, mark⟩) | ⟨-, rfl⟩)
    · exact .inl old
    · exact .inr ⟨asset, (serves.acquires asset).2 (.inl has), mark⟩
    · exact .inr ⟨.tally owner, (serves.acquires _).2 (.inr List.mem_cons_self),
        List.mem_cons_self⟩
  · rintro (old | ⟨asset, has, mark⟩)
    · exact .inl (.inl old)
    · rcases (serves.acquires asset).1 has with there | new
      · exact .inl (.inr ⟨asset, there, mark⟩)
      · obtain rfl := List.mem_singleton.1 new
        by_cases had : before.Has (.tally owner)
        · exact .inl (.inr ⟨_, had, mark⟩)
        · exact .inr ⟨had, List.mem_singleton.1 mark⟩

/-- The counters of a type are the allotted ones. -/
theorem typeCounter_allotted
    (allots : base.Allots asked before)
    {name : String}
    (asksReads : asked (.reads name))
    (asksWrites : asked (.writes name))
    {found : TypeCounter}
    (ends : Ends (typeCounter name) before found after) :
    found = base.typeCounterOf name ∧ base.Allots asked after ∧
      before.Serves after (Session.typeAssets name) := by
  unfold typeCounter at ends
  rw [Ends.get_bind_iff] at ends
  cases known : before.typeCounters.get? name with
  | some remembered =>
    rw [known] at ends
    obtain ⟨rfl, rfl⟩ := Ends.pure_iff.1 ends
    obtain ⟨readField, writeField, rfl, read, write⟩ := allots.books.typeCounters name found known
    obtain ⟨rfl, -⟩ := allots.fields _ _ read.counted
    obtain ⟨rfl, -⟩ := allots.fields _ _ write.counted
    refine ⟨rfl, allots, (Session.Serves.refl _).of_has ?_⟩
    have reads := allots.books.has_of_tallies read
    have writes := allots.books.has_of_tallies write
    simp only [Session.typeAssets, List.mem_append, List.mem_cons, List.not_mem_nil, or_false]
    rintro asset ((new | new) | rfl | rfl)
    · exact reads.1 asset new
    · exact writes.1 asset new
    · exact reads.2
    · exact writes.2
  | none =>
    rw [known] at ends
    simp only [Ends.bind_iff, Ends.modify_iff, Ends.pure_iff] at ends
    obtain ⟨readField, first, readFieldEnds, writeField, second, writeFieldEnds, read, third,
      readEnds, write, fourth, writeEnds, _, _, rfl, rfl, rfl⟩ := ends
    obtain ⟨rfl, allotsFirst, servesFirst, -⟩ :=
      counterFor_allotted apart booksBase allots asksReads readFieldEnds
    obtain ⟨rfl, allotsSecond, servesSecond, countedWrites⟩ :=
      counterFor_allotted apart booksBase allotsFirst asksWrites writeFieldEnds
    have hasReads : second.Has (.number (.reads name)) :=
      servesSecond.has (.inl (servesFirst.has (.inr (Session.mem_numberAssets.2 (.inr rfl)))))
    obtain ⟨rfl, allotsThird, servesThird, countersThird, -⟩ :=
      staticIncrementor_allotted allotsSecond (show (CounterOwner.reads name).IsTallied from trivial)
        (allotsSecond.get?_eq hasReads) readEnds
    obtain ⟨rfl, allotsFourth, servesFourth, -, -⟩ :=
      staticIncrementor_allotted allotsThird (show (CounterOwner.writes name).IsTallied from trivial)
        (countersThird ▸ countedWrites) writeEnds
    have serves := ((servesFirst.trans servesSecond).trans servesThird).trans servesFourth
    refine ⟨rfl, allotsFourth.putTypeCounter ?_ ?_, { serves with acquires := fun asset => ?_ }⟩
    · exact serves.has (.inr (by simp))
    · exact serves.has (.inr (by simp))
    · exact (Session.has_withTypeCounters _ asset).trans (serves.acquires asset)

/-- The counter of the calls under a name is the allotted one. -/
theorem callCounter_allotted
    (allots : base.Allots asked before)
    {name : String}
    (asks : asked (.calls name))
    {found : CallCounter}
    (ends : Ends (callCounter name) before found after) :
    found = base.callCounterOf name ∧ base.Allots asked after ∧
      before.Serves after (Session.callAssets name) := by
  unfold callCounter at ends
  rw [Ends.get_bind_iff] at ends
  cases known : before.callCounters.get? name with
  | some remembered =>
    rw [known] at ends
    obtain ⟨rfl, rfl⟩ := Ends.pure_iff.1 ends
    obtain ⟨field, rfl, calls⟩ := allots.books.labels.callCounters name found known
    obtain ⟨rfl, -⟩ := allots.fields _ _ calls.counted
    refine ⟨rfl, allots, (Session.Serves.refl _).of_has ?_⟩
    have has := allots.books.has_of_tallies calls
    simp only [Session.callAssets, List.mem_append, List.mem_singleton]
    rintro asset (new | rfl)
    · exact has.1 asset new
    · exact has.2
  | none =>
    rw [known] at ends
    simp only [Ends.bind_iff, Ends.modify_iff, Ends.pure_iff] at ends
    obtain ⟨field, first, fieldEnds, method, second, methodEnds, _, _, rfl, rfl, rfl⟩ := ends
    obtain ⟨rfl, allotsFirst, servesFirst, counted⟩ :=
      counterFor_allotted apart booksBase allots asks fieldEnds
    obtain ⟨rfl, allotsSecond, servesSecond, -, -⟩ :=
      staticIncrementor_allotted allotsFirst (show (CounterOwner.calls name).IsTallied from trivial)
        counted methodEnds
    have serves := servesFirst.trans servesSecond
    refine ⟨rfl, allotsSecond.putCallCounter ?_, { serves with acquires := fun asset => ?_ }⟩
    · exact serves.has (.inr (by simp))
    · exact (Session.has_withCallCounters _ asset).trans (serves.acquires asset)

end Requests

end Transform
end AccessProfiler
