import AccessProfiler.Proofs.ArrangedPasses
import AccessProfiler.Proofs.CanonicalImages
import AccessProfiler.Proofs.ForeseenSessions
import AccessProfiler.Proofs.InstrumentedImages

/-!
# Images in any order

Two sessions that are alike have the same classes, but for the order in which counters and methods that
count were declared on their class (`Session.Alike.rearranged`).  An image leaves that order out.  So the
image of a program whose names stay different does not depend on the order in which passes work on its
methods (`transformProgramIn_image`).
-/

namespace AccessProfiler

namespace Program

variable {program other : Program}

/-- The image of a program has, in canonical form, the class that it has under a name. -/
theorem WellNamed.class?_canonical_iff
    (wellNamed : program.WellNamed)
    {name : String}
    {declaration : Class} :
    (program.class? name).map Class.canonical = some declaration ↔
      declaration ∈ program.image ∧ declaration.name = name := by
  rw [image_eq, imageOf, List.mem_map]
  constructor
  · intro found
    obtain ⟨original, there, rfl⟩ := Option.map_eq_some_iff.1 found
    exact ⟨⟨original, List.mem_mergeSort.2 (mem_classes_of_class? there), rfl⟩,
      Class.name_canonical.trans (wellNamed.name_eq there)⟩
  · rintro ⟨⟨original, member, rfl⟩, named⟩
    obtain ⟨entry, present, rfl⟩ := List.mem_map.1 (List.mem_mergeSort.1 member)
    obtain rfl : entry.1 = name :=
      (wellNamed entry present).symm.trans (Class.name_canonical.symm.trans named)
    rw [class?_of_mem_entries present]
    rfl

/-- The image of a program, in the order of the names of classes. -/
theorem WellNamed.image_sorted (wellNamed : program.WellNamed) :
    program.image.Pairwise fun left right => left.name < right.name := by
  have own : program.classes.map Class.name = program.names := by
    rw [classes, names, List.map_map]
    exact List.map_congr_left wellNamed
  exact imageOf_sorted (own ▸ program.distinct)

/-- Two programs have one image exactly if they have the same classes, in canonical form, under the same
names. -/
theorem image_eq_iff (wellNamed : program.WellNamed) (wellNamedToo : other.WellNamed) :
    other.image = program.image ↔
      ∀ name,
        (other.class? name).map Class.canonical = (program.class? name).map Class.canonical := by
  constructor
  · intro same name
    refine Option.ext fun declaration => ?_
    rw [wellNamedToo.class?_canonical_iff, wellNamed.class?_canonical_iff, same]
  · intro same
    have nodup {program : Program} (wellNamed : program.WellNamed) : program.image.Nodup := by
      refine List.nodup_iff_pairwise_ne.2 (wellNamed.image_sorted.imp ?_)
      rintro left _ before rfl
      exact String.lt_irrefl _ before
    have perm : other.image.Perm program.image := by
      refine (List.perm_ext_iff_of_nodup (nodup wellNamedToo) (nodup wellNamed)).2
        fun declaration => ?_
      have inImage {program : Program} (wellNamed : program.WellNamed) :
          declaration ∈ program.image ↔
            (program.class? declaration.name).map Class.canonical = some declaration := by
        rw [wellNamed.class?_canonical_iff]
        exact (and_iff_left rfl).symm
      rw [inImage wellNamedToo, inImage wellNamed, same]
    exact perm.eq_of_pairwise
      (fun _ _ _ _ before after => absurd (String.lt_trans before after) (String.lt_irrefl _))
      wellNamedToo.image_sorted wellNamed.image_sorted

end Program

namespace Session

variable
    {base first second : Session}
    {asked : CounterOwner → Prop}
    {elements : Ty → Prop}

section Counters

variable
    (foreseen : base.Foreseen asked elements first)
    {declaration : Class}
    (found : first.program.class? base.counters.className = some declaration)
include foreseen found

/-- The class of the counters has the counters of the owners that asked. -/
theorem Foreseen.mem_fields_iff (field : Field) :
    field ∈ declaration.fields ↔
      ∃ owner, first.Has (.number owner) ∧ field = counterField (base.counters.allotted owner).name := by
  have books := foreseen.allots.books
  constructor
  · intro member
    obtain ⟨owner, number, known, same⟩ := books.numbers declaration found field member
    exact ⟨owner, Option.isSome_iff_exists.2 ⟨number, known⟩,
      (foreseen.allots.fields owner number known).1 ▸ same⟩
  · rintro ⟨owner, has, rfl⟩
    have known := foreseen.allots.get?_eq has
    obtain ⟨_, declared, there, located, -⟩ := books.labels.fields owner _ known
    cases found.symm.trans there
    have member := List.mem_of_find?_eq_some located
    have named : declared.name = (base.counters.allotted owner).name := by
      simpa using List.find?_some located
    obtain ⟨other, field, -, same⟩ := books.numbers declaration found declared member
    rw [same] at named
    have sameName : field.name = (base.counters.allotted owner).name := named
    rw [← sameName, ← same]
    exact member

/-- The class of the counters has the methods that count for the owners that asked. -/
theorem Foreseen.mem_methods_iff (method : Method) :
    method ∈ declaration.methods ↔
      ∃ owner, first.Has (.tally owner) ∧
        method = owner.tally base.settings.sink (base.counters.allotted owner) := by
  have books := foreseen.allots.books
  constructor
  · intro member
    obtain ⟨owner, field, known, same⟩ := books.labels.methods declaration found method member
    obtain rfl := (foreseen.allots.fields owner field known).1
    refine ⟨owner, books.has_tally_iff.2 ⟨_, known, declaration, found, same ▸ member⟩, same⟩
  · rintro ⟨owner, has, rfl⟩
    obtain ⟨_, there, member⟩ := (foreseen.allots.tallies_of_has has).declared
    cases found.symm.trans there
    exact member

end Counters

namespace Alike

variable
    (foresees : base.Foresees asked elements)
    (alike : base.Alike asked elements first second)
include alike

/-- The class of the counters has the same members on both sides. -/
theorem counters_canonical :
    (second.program.class? base.counters.className).map Class.canonical =
      (first.program.class? base.counters.className).map Class.canonical := by
  have className := alike.paired.foreseen.allots.books.labels.className
  have classNameToo := alike.paired.foreseenToo.allots.books.labels.className
  have present := alike.has .counters
  simp only [Has, className, classNameToo] at present
  cases found : first.program.class? base.counters.className with
  | none =>
    rw [found] at present
    cases foundToo : second.program.class? base.counters.className with
    | none => rfl
    | some declaration =>
      rw [foundToo] at present
      cases present.1 rfl
  | some declaration =>
    rw [found] at present
    obtain ⟨other, foundToo⟩ := Option.isSome_iff_exists.1 (present.2 rfl)
    have holds := alike.paired.foreseen.allots.books.labels.holds declaration found
    have holdsToo := alike.paired.foreseenToo.allots.books.labels.holds other foundToo
    have shapes : { other with fields := [], methods := [] } =
        { declaration with fields := [], methods := [] } := by
      rw [holdsToo.shape, holds.shape, CounterTable.declaration, CounterTable.declaration, className,
        classNameToo]
    have fields : other.fields.Perm declaration.fields := by
      refine (List.perm_ext_iff_of_nodup (List.Nodup.of_map _ holdsToo.distinctFields)
        (List.Nodup.of_map _ holds.distinctFields)).2 fun field => ?_
      rw [alike.paired.foreseenToo.mem_fields_iff foundToo, alike.paired.foreseen.mem_fields_iff found]
      simp only [alike.has]
    have methods : other.methods.Perm declaration.methods := by
      refine (List.perm_ext_iff_of_nodup (List.Nodup.of_map _ holdsToo.distinctMethods)
        (List.Nodup.of_map _ holds.distinctMethods)).2 fun method => ?_
      rw [alike.paired.foreseenToo.mem_methods_iff foundToo,
        alike.paired.foreseen.mem_methods_iff found]
      simp only [alike.has]
    have counts : declaration.flags.includes Class.counterFlag := by
      have flags := congrArg Class.flags holds.shape
      have counted : (Class.syntheticFlag.union Class.counterFlag).includes Class.counterFlag := by
        decide
      rw [show declaration.flags = first.counters.declaration.flags from flags]
      exact counted
    rw [foundToo, Option.map_some, Option.map_some]
    refine congrArg some (Class.Rearranged.canonical_eq ⟨?_, fields, methods, fun uncounted => ?_⟩
      holds.distinctFields holds.distinctMethods)
    · exact shapes
    · rw [counts] at uncounted
      cases uncounted

include foresees in
/-- In canonical form all classes are the same on both sides. -/
theorem class?_canonical (name : String) :
    (second.program.class? name).map Class.canonical =
      (first.program.class? name).map Class.canonical := by
  by_cases reserved : base.Reserves elements name
  · rcases reserved with rfl | ⟨element, among, named⟩
    · exact alike.counters_canonical
    · by_cases has : first.Has (.wrapper name)
      · have knows : base.BothKnow elements first second name :=
          fun _ => ⟨has, (alike.has _).2 has⟩
        rcases alike.paired.wrapper_cases foresees knows with
          ⟨-, -, free⟩ | ⟨_, -, -, -, -, there, thereToo⟩
        · exact absurd (.inr ⟨element, among, named⟩) free
        · rw [there, thereToo]
      · have unknown {session : Session} (absent : ¬ session.Has (.wrapper name)) :
            session.wrappers.get? name = none :=
          Option.not_isSome_iff_eq_none.1 absent
        rw [(alike.paired.foreseen.wraps.vacant element name among named (unknown has)).1,
          (alike.paired.foreseenToo.wraps.vacant element name among named
            (unknown fun hasToo => has ((alike.has _).1 hasToo))).1]
  · rw [alike.classes name reserved]

/-- Every class stands under its own name. -/
theorem wellNamed : first.program.WellNamed := by
  intro entry member
  have found := Program.class?_of_mem_entries member
  by_cases reserved : base.Reserves elements entry.1
  · rcases reserved with isCounters | ⟨element, among, named⟩
    · rw [isCounters] at found
      have labels := alike.paired.foreseen.allots.books.labels
      exact (labels.holds _ found).name_eq.trans (labels.className.trans isCounters.symm)
    · cases known : first.wrappers.get? entry.1 with
      | none =>
        rw [(alike.paired.foreseen.wraps.vacant element entry.1 among named known).1] at found
        cases found
      | some wrapper =>
        obtain ⟨_, -, -, -, there⟩ :=
          alike.paired.foreseen.wraps.of_has (Option.isSome_iff_exists.2 ⟨wrapper, known⟩)
        rw [Option.some.inj (found.symm.trans there)]
        rfl
  · exact alike.paired.named entry.1 reserved entry.2 found

include foresees in
/-- So the images of both are the same. -/
theorem image_eq : second.program.image = first.program.image :=
  (Program.image_eq_iff alike.wellNamed alike.right.wellNamed).2 (alike.class?_canonical foresees)

end Alike

end Session

variable {settings : Settings} {program : Program}

namespace Pass

/-- The passes after the one that instruments classes. -/
def afterInstrument : List Pass :=
  [.patchConstructors, .profileTypes, .countFields, .trackCalls, .wrapSignatures, .propagateArrays]

theorem wanted_eq_afterInstrument (settings : Settings) :
    wanted settings =
      (if settings.objects then [.instrument] else []) ++
        afterInstrument.filter (isWanted settings) := by
  show ([Pass.instrument] ++ afterInstrument).filter (isWanted settings) = _
  rw [List.filter_append]
  cases objects : settings.objects <;> simp [isWanted, objects]

variable
    {base after afterToo : Session}
    (unambiguous : program.Unambiguous settings)
    (arrangement other : Arrangement)
include unambiguous

/-- From a prepared session the passes on bodies and signatures reach programs of one image. -/
theorem mapM_afterInstrument_image
    (prepared : base.Prepared settings program)
    {results resultsToo : List Bool}
    (ends :
      Ends ((afterInstrument.filter (isWanted settings)).mapM (runIn arrangement)) base results after)
    (endsToo :
      Ends ((afterInstrument.filter (isWanted settings)).mapM (runIn other)) base resultsToo
        afterToo) :
    afterToo.program.image = after.program.image := by
  have foresees := prepared.foresees unambiguous
  have countsInt : base.AsksType (program.Asks settings) "int" :=
    prepared.asksType (List.mem_append_left _ (List.mem_append_left _ List.mem_cons_self))
  have ordered : afterInstrument.Pairwise fun pass _ => pass ≠ .propagateArrays := by decide
  have others : Pass.instrument ∉ afterInstrument := by decide
  refine (mapM_runIn_alike foresees countsInt (fun pass member => ?_)
    (fun member => others (List.mem_filter.1 member).1) (ordered.sublist List.filter_sublist)
    (prepared.alike unambiguous) (prepared.allOpen unambiguous) arrangement other ends
    endsToo).image_eq foresees
  rw [prepared.sameSettings]
  exact (List.mem_filter.1 member).2

/-- Whatever the order, all passes together reach programs of one image. -/
theorem mapM_wanted_image
    {results resultsToo : List Bool}
    (ends :
      Ends ((wanted settings).mapM (runIn arrangement)) (.start settings program) results after)
    (endsToo :
      Ends ((wanted settings).mapM (runIn other)) (.start settings program) resultsToo afterToo) :
    afterToo.program.image = after.program.image := by
  rw [wanted_eq_afterInstrument] at ends endsToo
  cases objects : settings.objects with
  | false =>
    rw [objects] at ends endsToo
    exact mapM_afterInstrument_image unambiguous arrangement other
      (Session.prepared_start unambiguous.apart.unregistered) ends endsToo
  | true =>
    rw [objects] at ends endsToo
    obtain ⟨_, base, _, first, later, -⟩ := Ends.mapM_cons_iff.1 ends
    obtain ⟨_, baseToo, _, firstToo, laterToo, -⟩ := Ends.mapM_cons_iff.1 endsToo
    obtain ⟨-, rfl⟩ := first.unique firstToo
    exact mapM_afterInstrument_image unambiguous arrangement other
      (Session.prepared_of_instrument unambiguous.apart unambiguous.wellNamed first) later laterToo

end Pass

/-- A transformation that succeeds is a run of its passes, up to the journal. -/
theorem ends_of_transformProgramIn
    {arrangement : Arrangement}
    (succeeds : (transformProgramIn arrangement program settings).1 = .ok ()) :
    ∃ results passed journal,
      Ends ((Pass.wanted settings).mapM (Pass.runIn arrangement)) (.start settings program) results
          passed ∧
        (transformProgramIn arrangement program settings).2 = { passed with journal } := by
  obtain ⟨session, transformed⟩ :
      ∃ session, transformProgramIn arrangement program settings = (.ok (), session) :=
    ⟨_, Prod.ext succeeds rfl⟩
  have ends : Ends (Transform.pipelineIn arrangement) (.start settings program) () session :=
    transformed
  unfold Transform.pipelineIn at ends
  rw [Ends.get_bind_iff] at ends
  obtain ⟨_, passed, passes, checks⟩ := Ends.bind_iff.1 ends
  obtain ⟨results, runs⟩ := Pass.ends_runAllIn arrangement passes
  rw [transformed]
  split at checks
  · obtain ⟨journal, rfl⟩ := Transform.ends_checkProgram checks
    exact ⟨results, passed, journal, runs, rfl⟩
  · obtain ⟨-, rfl⟩ := Ends.pure_iff.1 checks
    exact ⟨results, session, session.journal, runs, rfl⟩

/-- The image of a transformed program does not depend on the order in which its methods are worked on if
the names of the program stay different: in whatever orders the passes work on them, if they succeed in
both they reach one image, with the same classes, counters, wrappers and bodies. -/
theorem transformProgramIn_image
    (unambiguous : program.Unambiguous settings)
    (arrangement other : Arrangement)
    (succeeds : (transformProgramIn arrangement program settings).1 = .ok ())
    (succeedsToo : (transformProgramIn other program settings).1 = .ok ()) :
    (transformProgramIn other program settings).2.program.image =
      (transformProgramIn arrangement program settings).2.program.image := by
  obtain ⟨_, passed, journal, ends, reached⟩ := ends_of_transformProgramIn succeeds
  obtain ⟨_, passedToo, journalToo, endsToo, reachedToo⟩ := ends_of_transformProgramIn succeedsToo
  have same := Pass.mapM_wanted_image unambiguous arrangement other ends endsToo
  rw [reached, reachedToo]
  exact same

/-- Methods are worked on in the opposite order. -/
def Arrangement.opposite : Arrangement where
  order _ methods := methods.reverse
  perm _ _ := List.reverse_perm _

/-- A method that reads the field of an instance that it is given. -/
def readingMethod (name owner : String) (held : Ty) : Method where
  name := name
  parameters := [.object owner]
  result := .void
  flags := Method.static
  body := some
    { locals := [⟨"x", .object owner⟩, ⟨"n", held⟩]
      instructions :=
        [.bind ⟨0⟩ (.parameter 0 (.object owner)),
          .assign (.variable ⟨1⟩) (.instanceField ⟨0⟩ (.ofInstance owner "f" held)),
          .return none] }

/-- Two methods that read the fields of instances of two classes. -/
def readersProgram
    (other : String)
    (held : Ty)
    (distinct : ["a.Main", "a.b.C", other].Nodup) : Program where
  entries :=
    [("a.Main",
      { Class.plain "a.Main" ⟨0⟩ with
        methods := [readingMethod "first" "a.b.C" held, readingMethod "second" other held] }),
      ("a.b.C", { Class.plain "a.b.C" ⟨0⟩ with fields := [⟨"f", held, ⟨0⟩⟩] }),
      (other, { Class.plain other ⟨0⟩ with fields := [⟨"f", held, ⟨0⟩⟩] })]
  distinct := distinct

/-- Two classes whose names differ without points are counted alike in both orders, with their arrays in
wrappers and their calls tracked. -/
theorem readersProgram_image :
    let program := readersProgram "ab.D" (.array .int) (by decide)
    (transformProgramIn .opposite program .full).2.program.image =
      (transformProgramIn .given program .full).2.program.image :=
  transformProgramIn_image (by decide +kernel) .given .opposite (by decide +kernel) (by decide +kernel)

/-- Without points the names of the two classes are one.  The class whose method comes first is counted
under that name, and the other one under a number. -/
theorem clashingReaders_image :
    let settings : Settings :=
      { Settings.standard with objects := false, arrays := false, typeProfiling := true }
    let program := readersProgram "ab.C" .int (by decide)
    (transformProgramIn .given program settings).1 = .ok () ∧
      (transformProgramIn .opposite program settings).1 = .ok () ∧
      (transformProgramIn .opposite program settings).2.program.image ≠
        (transformProgramIn .given program settings).2.program.image := by
  intro settings program
  refine ⟨by decide +kernel, by decide +kernel, fun same => ?_⟩
  have readers := (Program.image_eq_iff (by decide +kernel) (by decide +kernel)).1 same "a.Main"
  exact absurd readers (by decide +kernel)

end AccessProfiler
