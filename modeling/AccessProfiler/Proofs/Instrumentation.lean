import AccessProfiler.Pipeline
import AccessProfiler.Proofs.Generation
import Mathlib.Data.List.Forall2

/-!
# Instrumented programs

`Program.Woven` relates a program to the same program with counting: apart from the class of the
counters every class is the same, with more integer fields and more methods that count accesses, and
with counting inserted into its bodies.  Instrumenting the classes keeps the programs so related, and
every profile that the session then has can be used (`Transform.instrument_woven`).
-/

namespace AccessProfiler

/-- The method with counting inserted into its body. -/
structure Method.Woven
    (counter : String)
    (sink : Sink)
    (offers : Offers)
    (original current : Method) : Prop where
  signature : current.signature = original.signature
  body :
    Option.Rel (Body.Woven counter sink offers original.isConstructor) original.body current.body

/-- The class with counting inserted into its bodies, and more members that count. -/
structure Class.Woven
    (counter : String)
    (sink : Sink)
    (offers : Offers)
    (original current : Class) : Prop where
  name : current.name = original.name
  superclass : current.superclass = original.superclass
  interfaces : current.interfaces = original.interfaces
  kind : current.kind = original.kind
  flags : current.flags = original.flags
  fields :
    ∃ extra, current.fields = original.fields ++ extra ∧
      ∀ field ∈ extra, isInstrumentationName field.name ∧ field.type = .int
  methods :
    ∃ kept extra, current.methods = kept ++ extra ∧
      List.Forall₂ (Method.Woven counter sink offers) original.methods kept ∧
      ∀ method ∈ extra, method.CountsAccess sink

/-- The program with counting. -/
structure Program.Woven
    (counter : String)
    (sink : Sink)
    (original current : Program) : Prop where
  counts : current.Counts counter sink
  others :
    ∀ name, name ≠ counter →
      Option.Rel (Class.Woven counter sink current.offers) (original.class? name)
        (current.class? name)

/-- The body of each method of a program binds what was passed first. -/
def Program.BindsFirst (program : Program) : Prop :=
  ∀ name declaration method body, program.class? name = some declaration →
    method ∈ declaration.methods → method.body = some body → body.BindsFirst

/-- No method has the name of one that counts accesses. -/
def Program.DeclaresNoIncrementor (program : Program) : Prop :=
  ∀ name declaration method, program.class? name = some declaration →
    method ∈ declaration.methods → ¬ IsIncrementor method.name

/-- Two values that are there or not are related in a wider sense as well. -/
theorem relOption_mono
    {First Second : Type}
    {Related Wider : First → Second → Prop}
    {first : Option First}
    {second : Option Second}
    (le : ∀ left right, Related left right → Wider left right)
    (related : Option.Rel Related first second) :
    Option.Rel Wider first second := by
  cases related with
  | none => exact .none
  | some one => exact .some (le _ _ one)

section Relations

variable
    {counter : String}
    {sink : Sink}
    {offers more : Offers}

theorem Method.Woven.name_eq
    {original current : Method}
    (woven : original.Woven counter sink offers current) :
    current.name = original.name :=
  (Method.mk.inj woven.signature).1

theorem Method.Woven.mono
    {original current : Method}
    (le : ∀ owner name, offers owner name → more owner name)
    (woven : original.Woven counter sink offers current) :
    original.Woven counter sink more current :=
  ⟨woven.signature, relOption_mono (fun _ _ relation => relation.mono le) woven.body⟩

theorem Class.Woven.mono
    {original current : Class}
    (le : ∀ owner name, offers owner name → more owner name)
    (woven : original.Woven counter sink offers current) :
    original.Woven counter sink more current := by
  obtain ⟨kept, extra, parts, related, counting⟩ := woven.methods
  exact { woven with
    methods := ⟨kept, extra, parts, related.imp fun _ _ relation => relation.mono le, counting⟩ }

theorem Class.Woven.refl
    {declaration : Class}
    (first : ∀ method ∈ declaration.methods, ∀ body, method.body = some body → body.BindsFirst) :
    declaration.Woven counter sink offers declaration where
  name := rfl
  superclass := rfl
  interfaces := rfl
  kind := rfl
  flags := rfl
  fields := ⟨[], by simp⟩
  methods := by
    refine ⟨declaration.methods, [], by simp, ?_, fun _ member => absurd member List.not_mem_nil⟩
    rw [List.forall₂_same]
    intro method member
    refine ⟨rfl, ?_⟩
    cases found : method.body with
    | none => exact .none
    | some body => exact .some (.refl (first method member body found))

/-- A method stays at its position. -/
theorem Class.Woven.getElem?_methods
    {original current : Class}
    {index : Nat}
    {method : Method}
    (woven : original.Woven counter sink offers current)
    (located : original.methods[index]? = some method) :
    ∃ changed, current.methods[index]? = some changed ∧ method.Woven counter sink offers changed := by
  obtain ⟨kept, extra, parts, related, -⟩ := woven.methods
  obtain ⟨lengths, each⟩ := List.forall₂_iff_get.1 related
  obtain ⟨bounded, rfl⟩ := List.getElem?_eq_some_iff.1 located
  have bound : index < kept.length := lengths ▸ bounded
  refine ⟨kept[index], ?_, each index bounded bound⟩
  rw [parts, List.getElem?_append_left bound, List.getElem?_eq_getElem bound]

/-- A method was there before or counts accesses. -/
theorem Class.Woven.cases_getElem?_methods
    {original current : Class}
    {index : Nat}
    {changed : Method}
    (woven : original.Woven counter sink offers current)
    (located : current.methods[index]? = some changed) :
    (∃ method, original.methods[index]? = some method ∧
      method.Woven counter sink offers changed) ∨ changed.CountsAccess sink := by
  obtain ⟨kept, extra, parts, related, counting⟩ := woven.methods
  obtain ⟨lengths, each⟩ := List.forall₂_iff_get.1 related
  rw [parts] at located
  by_cases bounded : index < kept.length
  · rw [List.getElem?_append_left bounded, List.getElem?_eq_getElem bounded] at located
    cases located
    have bound : index < original.methods.length := lengths ▸ bounded
    exact .inl ⟨original.methods[index], List.getElem?_eq_getElem bound, each index bound bounded⟩
  · rw [List.getElem?_append_right (Nat.le_of_not_lt bounded)] at located
    exact .inr (counting changed (List.mem_of_getElem? located))

theorem Program.Woven.refl
    {program : Program}
    (free : program.class? counter = none)
    (first : program.BindsFirst) :
    program.Woven counter sink program where
  counts declaration found := by
    rw [free] at found
    cases found
  others name _ := by
    cases found : program.class? name with
    | none => exact .none
    | some declaration =>
      exact .some (.refl fun method member body given =>
        first name declaration method body found member given)

/-- What a class has become. -/
theorem Program.Woven.class?_eq_some
    {original current : Program}
    {owner : String}
    {declaration : Class}
    (woven : original.Woven counter sink current)
    (differs : owner ≠ counter)
    (found : original.class? owner = some declaration) :
    ∃ changed, current.class? owner = some changed ∧
      declaration.Woven counter sink current.offers changed := by
  have relation := woven.others owner differs
  rw [found] at relation
  cases located : current.class? owner with
  | none =>
    rw [located] at relation
    cases relation
  | some changed =>
    rw [located] at relation
    cases relation with
    | some related => exact ⟨changed, rfl, related⟩

theorem Program.Woven.class?_eq_none
    {original current : Program}
    {owner : String}
    (woven : original.Woven counter sink current)
    (differs : owner ≠ counter)
    (free : original.class? owner = none) :
    current.class? owner = none := by
  have relation := woven.others owner differs
  rw [free] at relation
  cases located : current.class? owner with
  | none => rfl
  | some changed =>
    rw [located] at relation
    cases relation

/-- What a class was before. -/
theorem Program.Woven.class?_of_current
    {original current : Program}
    {owner : String}
    {changed : Class}
    (woven : original.Woven counter sink current)
    (differs : owner ≠ counter)
    (found : current.class? owner = some changed) :
    ∃ declaration, original.class? owner = some declaration ∧
      declaration.Woven counter sink current.offers changed := by
  cases located : original.class? owner with
  | none =>
    rw [woven.class?_eq_none differs located] at found
    cases found
  | some declaration =>
    obtain ⟨other, foundOther, related⟩ := woven.class?_eq_some differs located
    rw [found] at foundOther
    cases foundOther
    exact ⟨declaration, rfl, related⟩

/-- What a method has become. -/
theorem Program.Woven.method?_eq_some
    {original current : Program}
    {id : MethodId}
    {method : Method}
    (woven : original.Woven counter sink current)
    (differs : id.owner ≠ counter)
    (found : original.method? id = some method) :
    ∃ changed, current.method? id = some changed ∧
      method.Woven counter sink current.offers changed := by
  obtain ⟨declaration, declares, located⟩ := Option.bind_eq_some_iff.1 found
  obtain ⟨changedClass, declaresChanged, related⟩ := woven.class?_eq_some differs declares
  obtain ⟨changed, locatedChanged, relatedMethod⟩ := related.getElem?_methods located
  exact ⟨changed, Option.bind_eq_some_iff.2 ⟨changedClass, declaresChanged, locatedChanged⟩,
    relatedMethod⟩

/-- A method that does not count accesses was there before. -/
theorem Program.Woven.method?_of_current
    {original current : Program}
    {id : MethodId}
    {changed : Method}
    (woven : original.Woven counter sink current)
    (differs : id.owner ≠ counter)
    (found : current.method? id = some changed) :
    (∃ method, original.method? id = some method ∧
      method.Woven counter sink current.offers changed) ∨ changed.CountsAccess sink := by
  obtain ⟨declaration, declares, located⟩ := Option.bind_eq_some_iff.1 found
  obtain ⟨old, declaresOld, related⟩ := woven.class?_of_current differs declares
  rcases related.cases_getElem?_methods located with ⟨method, locatedOld, relatedMethod⟩ | counts
  · exact .inl ⟨method, Option.bind_eq_some_iff.2 ⟨old, declaresOld, locatedOld⟩, relatedMethod⟩
  · exact .inr counts

/-- The class of the counters may grow. -/
theorem Program.Woven.grow
    {original before after : Program}
    (woven : original.Woven counter sink before)
    (grows : before.GrowsAt counter after)
    (counts : after.Counts counter sink) :
    original.Woven counter sink after where
  counts := counts
  others name differs := by
    rw [grows.others name differs]
    exact relOption_mono (fun _ _ relation => relation.mono grows.offers) (woven.others name differs)

/-- Any other class may change as long as it stays woven and offers what it did. -/
theorem Program.Woven.modifyClass
    {original program : Program}
    {owner : String}
    {change : Class → Class}
    (woven : original.Woven counter sink program)
    (differs : owner ≠ counter)
    (keeps :
      ∀ declaration name, program.class? owner = some declaration →
        (declaration.method? name []).isSome → ((change declaration).method? name []).isSome)
    (stays :
      ∀ old declaration, original.class? owner = some old →
        program.class? owner = some declaration →
        old.Woven counter sink program.offers declaration →
        old.Woven counter sink program.offers (change declaration)) :
    original.Woven counter sink (program.modifyClass owner change) where
  counts declaration found := by
    rw [class?_modifyClass, if_neg (Ne.symm differs)] at found
    exact woven.counts declaration found
  others name other := by
    have le := offers_modifyClass keeps
    rw [class?_modifyClass]
    split
    · rename_i same
      subst same
      cases foundOld : original.class? name with
      | none =>
        rw [woven.class?_eq_none other foundOld]
        exact .none
      | some old =>
        obtain ⟨declaration, found, related⟩ := woven.class?_eq_some other foundOld
        rw [found]
        exact .some ((stays old declaration foundOld found related).mono le)
    · exact relOption_mono (fun _ _ related => related.mono le) (woven.others name other)

end Relations

/-- What a session was made of an original program: what it remembers is there, and its program is the
original one with counting. -/
structure Session.Weaves
    (counter : String)
    (sink : Sink)
    (original : Program)
    (session : Session) : Prop where
  stocked : session.Stocked counter sink
  woven : original.Woven counter sink session.program

/-- The session has the same settings and profiles and offers no fewer methods. -/
structure Session.Keeps (before after : Session) : Prop where
  offers : ∀ owner name, before.program.offers owner name → after.program.offers owner name
  profiles : after.profiles = before.profiles
  settings : after.settings = before.settings

section Sessions

variable
    {counter : String}
    {sink : Sink}
    {original : Program}
    {before between after : Session}

theorem Session.Keeps.refl (session : Session) : session.Keeps session :=
  ⟨fun _ _ offered => offered, rfl, rfl⟩

theorem Session.Keeps.trans
    (keeps : before.Keeps between)
    (further : between.Keeps after) :
    before.Keeps after :=
  ⟨fun owner name offered => further.offers owner name (keeps.offers owner name offered),
    further.profiles.trans keeps.profiles, further.settings.trans keeps.settings⟩

theorem Session.Grows.keeps (grows : before.Grows counter after) : before.Keeps after :=
  ⟨grows.program.offers, grows.profiles, grows.settings⟩

theorem Session.Weaves.grow
    (weaves : before.Weaves counter sink original)
    (stocked : after.Stocked counter sink)
    (grows : before.Grows counter after) :
    after.Weaves counter sink original :=
  ⟨stocked, weaves.woven.grow grows.program stocked.counts⟩

/-- A class other than that of the counters may change. -/
theorem Session.Weaves.modifyClass
    {owner : String}
    {change : Class → Class}
    (weaves : before.Weaves counter sink original)
    (differs : owner ≠ counter)
    (keeps :
      ∀ declaration name, before.program.class? owner = some declaration →
        (declaration.method? name []).isSome → ((change declaration).method? name []).isSome)
    (stays :
      ∀ old declaration, original.class? owner = some old →
        before.program.class? owner = some declaration →
        old.Woven counter sink before.program.offers declaration →
        old.Woven counter sink before.program.offers (change declaration)) :
    ({ before with program := before.program.modifyClass owner change } :
      Session).Weaves counter sink original where
  stocked := weaves.stocked.withProgram
    (weaves.woven.modifyClass differs keeps stays).counts (Program.offers_modifyClass keeps)
  woven := weaves.woven.modifyClass differs keeps stays

end Sessions

namespace Transform

variable
    {counter : String}
    {sink : Sink}
    {original : Program}
    {before after : Session}
    {owner : String}

/-- An integer field with the name of a count may be declared on a class. -/
theorem addCount_woven
    (weaves : before.Weaves counter sink original)
    (differs : owner ≠ counter)
    {name : String}
    (instruments : isInstrumentationName name)
    {flags : Flags}
    {reference : FieldRef}
    (ends :
      Ends (changeProgram fun program => program.addField owner ⟨name, .int, flags⟩)
        before reference after) :
    after.Weaves counter sink original ∧ before.Keeps after ∧ reference.CountsAccess := by
  obtain ⟨program, added, rfl⟩ := ends_changeProgram.1 ends
  obtain ⟨declaration, extended, found, addedThere, rfl⟩ := Program.addField_eq_ok added
  have changed :
      reference.CountsAccess ∧ extended.methods = declaration.methods ∧
        ∀ old : Class, old.Woven counter sink before.program.offers declaration →
          old.Woven counter sink before.program.offers extended := by
    rcases Class.addField_cases addedThere with
      ⟨declared, declares, typed, rfl, rfl⟩ | ⟨-, rfl, rfl⟩
    · have named : declared.name = name := by
        simpa using List.find?_some declares
      subst named
      exact ⟨⟨instruments, typed⟩, rfl, fun _ related => related⟩
    · refine ⟨⟨instruments, rfl⟩, rfl, fun old related => ?_⟩
      obtain ⟨extra, parts, counting⟩ := related.fields
      refine { related with fields := ⟨extra ++ [⟨name, .int, flags⟩], by simp [parts], ?_⟩ }
      intro field member
      rcases List.mem_append.1 member with earlier | last
      · exact counting field earlier
      · rw [List.mem_singleton.1 last]
        exact ⟨instruments, rfl⟩
  have keeps :
      ∀ current method, before.program.class? owner = some current →
        (current.method? method []).isSome → (extended.method? method []).isSome := by
    intro current method located declared
    rw [found] at located
    cases located
    unfold Class.method? at *
    rw [changed.2.1]
    exact declared
  have stays :
      ∀ (old current : Class), original.class? owner = some old →
        before.program.class? owner = some current →
        old.Woven counter sink before.program.offers current →
        old.Woven counter sink before.program.offers extended := by
    intro old current _ located related
    rw [found] at located
    cases located
    exact changed.2.2 old related
  exact ⟨weaves.modifyClass differs keeps stays, ⟨Program.offers_modifyClass keeps, rfl, rfl⟩,
    changed.1⟩

/-- A method that counts accesses may be declared on a class, and is offered then. -/
theorem addIncrementor_woven
    (weaves : before.Weaves counter sink original)
    (differs : owner ≠ counter)
    {method : Method}
    (counts : method.CountsAccess sink)
    {done : Unit}
    (ends : Ends (addGenerated owner method) before done after) :
    after.Weaves counter sink original ∧ before.Keeps after ∧
      after.program.offers owner method.name := by
  unfold addGenerated at ends
  simp only [Ends.bind_iff] at ends
  obtain ⟨id, between, adds, marks⟩ := ends
  obtain ⟨program, added, rfl⟩ := ends_changeProgram.1 adds
  obtain ⟨declaration, found, absent, rfl⟩ := Program.addMethod_eq_ok added
  let extended : Class := { declaration with methods := declaration.methods ++ [method] }
  have keeps :
      ∀ current name, before.program.class? owner = some current →
        (current.method? name []).isSome → (extended.method? name []).isSome := by
    intro current name located declared
    rw [found] at located
    cases located
    exact Program.method?_append_isSome declared
  have stays :
      ∀ (old current : Class), original.class? owner = some old →
        before.program.class? owner = some current →
        old.Woven counter sink before.program.offers current →
        old.Woven counter sink before.program.offers extended := by
    intro old current _ located related
    rw [found] at located
    cases located
    obtain ⟨kept, extra, parts, woven, counting⟩ := related.methods
    refine { related with methods := ⟨kept, extra ++ [method], by simp [extended, parts], woven, ?_⟩ }
    intro other member
    rcases List.mem_append.1 member with earlier | last
    · exact counting other earlier
    · rw [List.mem_singleton.1 last]
      exact counts
  have weavesAdded := weaves.modifyClass differs keeps stays
  obtain ⟨stockedMarked, growsMarked⟩ := markGenerated_stocked weavesAdded.stocked marks
  have keepsAdded : before.Keeps
      { before with program := before.program.modifyClass owner fun _ => extended } :=
    ⟨Program.offers_modifyClass keeps, rfl, rfl⟩
  refine ⟨weavesAdded.grow stockedMarked growsMarked, keepsAdded.trans growsMarked.keeps,
    growsMarked.program.offers _ _ (Program.offers_iff.2 ⟨extended, ?_, ?_⟩)⟩
  · rw [Program.class?_modifyClass, if_pos rfl, found]
    rfl
  · rw [counts.parameters] at absent
    unfold Class.method? at *
    rw [List.find?_append, absent]
    simp [Method.fits, counts.parameters]

/-- A method with the name of one that counts accesses was generated. -/
theorem countsAccess_of_mem
    (woven : original.Woven counter sink before.program)
    (free : original.DeclaresNoIncrementor)
    (differs : owner ≠ counter)
    {declaration : Class}
    {method : Method}
    (found : before.program.class? owner = some declaration)
    (member : method ∈ declaration.methods)
    (named : IsIncrementor method.name) :
    method.CountsAccess sink := by
  obtain ⟨old, foundOld, related⟩ := woven.class?_of_current differs found
  obtain ⟨index, located⟩ := List.getElem?_of_mem member
  rcases related.cases_getElem?_methods located with ⟨before, locatedOld, relatedMethod⟩ | counts
  · refine absurd ?_ (free owner old before foundOld (List.mem_of_getElem? locatedOld))
    exact relatedMethod.name_eq ▸ named
  · exact counts

theorem incrementor_woven
    (weaves : before.Weaves counter sink original)
    (free : original.DeclaresNoIncrementor)
    (differs : owner ≠ counter)
    {name : String}
    (incrementing : IsIncrementor name)
    {field serial : FieldRef}
    (counts : field.CountsAccess)
    (countsSerial : serial.CountsAccess)
    {method : MethodRef}
    (ends : Ends (incrementor owner name field serial) before method after) :
    after.Weaves counter sink original ∧ before.Keeps after ∧
      after.program.offers owner name ∧ method = ⟨owner, name, [], .void⟩ := by
  unfold incrementor at ends
  rw [Ends.get_bind_iff] at ends
  cases known : (before.program.class? owner).bind fun declared => declared.methodNamed? name with
  | some existing =>
    rw [known] at ends
    obtain ⟨rfl, rfl⟩ := Ends.pure_iff.1 ends
    obtain ⟨declaration, found, declared⟩ := Option.bind_eq_some_iff.1 known
    have named : existing.name = name := by simpa using List.find?_some declared
    have member := List.mem_of_find?_eq_some declared
    have generated :=
      countsAccess_of_mem weaves.woven free differs found member (named ▸ incrementing)
    refine ⟨weaves, .refl _, Program.offers_iff.2 ⟨declaration, found, ?_⟩, ?_⟩
    · unfold Class.method?
      rw [List.find?_isSome]
      exact ⟨existing, member, by simp [Method.fits, named, generated.parameters]⟩
    · unfold Method.reference
      rw [named, generated.parameters, generated.result]
  | none =>
    rw [known] at ends
    simp only [Ends.bind_iff, Ends.pure_iff] at ends
    obtain ⟨_, added, adds, _, recorded, records, rfl, rfl⟩ := ends
    rw [weaves.stocked.reports] at adds
    have synthetic : Method.synthetic.includes Method.synthetic := by decide
    have generated :
        Method.CountsAccess sink
          { name := name
            parameters := []
            result := .void
            flags := Method.synthetic
            body := some (Profile.incrementorBody sink owner field serial) } :=
      ⟨incrementing, rfl, rfl, synthetic, owner, field, serial, counts, countsSerial, rfl⟩
    obtain ⟨weavesAdded, keepsAdded, offered⟩ :=
      addIncrementor_woven weaves differs generated adds
    obtain ⟨stockedRecorded, growsRecorded⟩ := record_stocked weavesAdded.stocked records
    exact ⟨weavesAdded.grow stockedRecorded growsRecorded, keepsAdded.trans growsRecorded.keeps,
      growsRecorded.program.offers _ _ offered, rfl⟩

theorem buildProfile_woven
    (weaves : before.Weaves counter sink original)
    (free : original.DeclaresNoIncrementor)
    (differs : owner ≠ counter)
    {profile : Profile}
    (ends : Ends (buildProfile owner) before profile after) :
    after.Weaves counter sink original ∧ before.Keeps after ∧
      profile.Usable counter after.program.offers := by
  unfold buildProfile at ends
  simp only [Ends.bind_iff, Ends.get_iff, Ends.pure_iff] at ends
  obtain ⟨staticCounter, first, counterEnds, _, second, records, serial, third, serialEnds, reads,
    fourth, readsEnds, writes, fifth, writesEnds, incReads, sixth, incReadsEnds, incWrites, seventh,
    incWritesEnds, _, _, ⟨rfl, rfl⟩, rfl, rfl⟩ := ends
  obtain ⟨stockedFirst, growsFirst, tallies⟩ := counterFor_stocked weaves.stocked counterEnds
  obtain ⟨stockedSecond, growsSecond⟩ := record_stocked stockedFirst records
  have growsCounter := growsFirst.trans growsSecond
  have weavesSecond := weaves.grow stockedSecond growsCounter
  obtain ⟨weavesThird, keepsThird, countsSerial⟩ :=
    addCount_woven weavesSecond differs (by decide) serialEnds
  obtain ⟨weavesFourth, keepsFourth, countsReads⟩ :=
    addCount_woven weavesThird differs (by decide) readsEnds
  obtain ⟨weavesFifth, keepsFifth, countsWrites⟩ :=
    addCount_woven weavesFourth differs (by decide) writesEnds
  obtain ⟨weavesSixth, keepsSixth, offersReads, rfl⟩ :=
    incrementor_woven weavesFifth free differs (.inl rfl) countsReads countsSerial incReadsEnds
  obtain ⟨weavesSeventh, keepsSeventh, offersWrites, rfl⟩ :=
    incrementor_woven weavesSixth free differs (.inr rfl) countsWrites countsSerial incWritesEnds
  refine ⟨weavesSeventh, growsCounter.keeps.trans (keepsThird.trans (keepsFourth.trans
    (keepsFifth.trans (keepsSixth.trans keepsSeventh)))), ⟨tallies, countsSerial, ?_, ?_⟩⟩
  · unfold Program.callKind
    split
    · exact .inr rfl
    · exact .inl rfl
  · intro access
    cases access with
    | read => exact ⟨owner, _, .inl rfl, keepsSeventh.offers _ _ offersReads, rfl⟩
    | write => exact ⟨owner, _, .inr rfl, offersWrites, rfl⟩

theorem instrument_woven
    (weaves : before.Weaves counter sink original)
    (free : original.DeclaresNoIncrementor)
    (differs : owner ≠ counter)
    {profile : Profile}
    (ends : Ends (instrument owner) before profile after) :
    after.Weaves counter sink original ∧ after.settings = before.settings := by
  unfold instrument at ends
  rw [Ends.get_bind_iff] at ends
  cases known : before.profiles.get? owner with
  | some found =>
    rw [known] at ends
    obtain ⟨rfl, rfl⟩ := Ends.pure_iff.1 ends
    exact ⟨weaves, rfl⟩
  | none =>
    rw [known] at ends
    cases found : before.program.class? owner with
    | none =>
      rw [found] at ends
      exact absurd ends Ends.not_throw
    | some declaration =>
      rw [found] at ends
      dsimp only at ends
      split at ends
      · obtain ⟨_, _, thrown, _⟩ := Ends.bind_iff.1 ends
        exact absurd thrown Ends.not_throw
      · simp only [Ends.bind_iff, Ends.modify_iff, Ends.pure_iff] at ends
        obtain ⟨built, first, builds, _, _, rfl, _, recorded, records, rfl, rfl⟩ := ends
        obtain ⟨weavesBuilt, keepsBuilt, usable⟩ :=
          buildProfile_woven weaves free differs builds
        have stocked := weavesBuilt.stocked
        have stockedPut :
            ({ first with profiles := first.profiles.put owner profile } : Session).Stocked
              counter sink := by
          refine ⟨stocked.reports, stocked.className, stocked.counts, stocked.fields, ?_,
            stocked.typeCounters, stocked.callCounters⟩
          intro name other located
          rw [Table.get?_put] at located
          split at located
          · cases located
            exact usable
          · exact stocked.profiles name other located
        obtain ⟨stockedRecorded, growsRecorded⟩ := record_stocked stockedPut records
        exact ⟨Session.Weaves.grow ⟨stockedPut, weavesBuilt.woven⟩ stockedRecorded growsRecorded,
          growsRecorded.settings.trans keepsBuilt.settings⟩

end Transform
end AccessProfiler
