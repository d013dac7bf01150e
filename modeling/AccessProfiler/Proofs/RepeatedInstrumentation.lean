import AccessProfiler.Proofs.ReusedMembers
import AccessProfiler.Proofs.UnsharedCounters

/-!
# Instrumenting again

A session that starts on a program whose classes were instrumented before knows nothing of the counters
and profiles that are there, and finds them again by their names.  Each class is given the members that
it has, and the program stays as it is (`Transform.instrument_again`).  Only the name of a static
counter need not be the one that it was: names are given in the order of the requests, and two classes
whose names differ in their points only ask for the same one.
-/

namespace AccessProfiler

/-- A name is numbered only if another owner has the one without a number. -/
theorem CounterTable.nameFor_cases
    {table : CounterTable}
    (distinct : table.names.keys.Nodup)
    (owner : CounterOwner)
    (key : String) :
    table.nameFor owner key = key ++ counterEnding ∨
      ∃ other, table.names.get? (key ++ counterEnding) = some other ∧ other ≠ owner := by
  obtain ⟨attempt, named, taken⟩ := nameFor_eq distinct owner key
  cases attempt with
  | zero => exact .inl named
  | succ attempt => exact .inr (taken 0 (Nat.succ_pos attempt))

/-- The name that the static counter of a class has if no other class has taken it. -/
def Profile.plainCounterName (className : String) : String :=
  flattenedName className ++ counterEnding

/-- The table and the profiles of a session agree with each other and with the program: an owner has
one name, under which a number is declared, and profiles are settled. -/
structure Session.Consistent (counter : String) (session : Session) : Prop where
  className : session.counters.className = counter
  fields :
    ∀ owner field, session.counters.fields.get? owner = some field →
      session.counters.names.get? field.name = some owner ∧
        session.program.HasNumber counter field.name field
  names :
    ∀ name owner, session.counters.names.get? name = some owner →
      ∃ field, session.counters.fields.get? owner = some field ∧ field.name = name
  distinct : session.counters.names.keys.Nodup
  plain :
    ∀ name field, session.counters.fields.get? (.instances name) = some field →
      ∃ owner, session.counters.names.get? (Profile.plainCounterName name) = some owner
  profiles :
    ∀ name profile, session.profiles.get? name = some profile →
      profile.className = name ∧ profile.Settled session.program ∧
        session.counters.fields.get? (.instances name) = some profile.staticCounter

/-- No two of the classes ask for one name. -/
def Profile.Apart (classes : List String) : Prop :=
  ∀ first ∈ classes, ∀ second ∈ classes, flattenedName first = flattenedName second → first = second

instance (classes : List String) : Decidable (Profile.Apart classes) :=
  inferInstanceAs (Decidable (∀ first ∈ classes, ∀ second ∈ classes, _ → _))

/-- The names that were claimed are those that these classes asked for. -/
def Session.NamesPlainly (classes : List String) (session : Session) : Prop :=
  ∀ name owner, session.counters.names.get? name = some owner →
    ∃ className ∈ classes, owner = .instances className ∧ name = Profile.plainCounterName className

theorem Session.namesPlainly_start
    (classes : List String)
    (settings : Settings)
    (program : Program) :
    (Session.start settings program).NamesPlainly classes := by
  intro name owner named
  cases named

/-- Any of the classes, in any order and however often, are instrumented again: they are given these
profiles, and the program stays as it is. -/
def Transform.Repeatable
    (settings : Settings)
    (classes : List String)
    (profileOf : String → Profile)
    (program : Program) : Prop :=
  ∀ again : List String, (∀ name ∈ again, name ∈ classes) →
    Succeeds (again.mapM instrument) (.start settings program) fun profiles session =>
      profiles = again.map profileOf ∧ session.program = program

namespace Session.Consistent

variable {counter : String} {session after : Session}

theorem start (settings : Settings) (program : Program) :
    (Session.start settings program).Consistent settings.counterClassName :=
  ⟨rfl, nofun, nofun, List.nodup_nil, nofun, nofun⟩

theorem gains
    (consistent : session.Consistent counter)
    (gains : session.Gains after) :
    after.Consistent counter where
  className := by
    rw [gains.counters]
    exact consistent.className
  fields owner field known := by
    rw [gains.counters] at known ⊢
    obtain ⟨named, has⟩ := consistent.fields owner field known
    exact ⟨named, has.mono gains.program⟩
  names := by
    rw [gains.counters]
    exact consistent.names
  distinct := by
    rw [gains.counters]
    exact consistent.distinct
  plain := by
    rw [gains.counters]
    exact consistent.plain
  profiles name profile known := by
    rw [gains.profiles] at known
    rw [gains.counters]
    obtain ⟨named, settled, counted⟩ := consistent.profiles name profile known
    exact ⟨named, settled.mono gains.program, counted⟩

/-- An owner that has no counter is given a name that nobody has. -/
theorem ne_nameFor
    (consistent : session.Consistent counter)
    {owner taker : CounterOwner}
    {key other : String}
    (uncounted : session.counters.fields.get? owner = none)
    (named : session.counters.names.get? other = some taker) :
    other ≠ session.counters.nameFor owner key := by
  rintro rfl
  obtain ⟨field, known, -⟩ := consistent.names _ _ named
  rw [CounterTable.owner_of_nameFor named, uncounted] at known
  cases known

/-- The static counters of two classes have different names. -/
theorem counter_injective
    (consistent : session.Consistent counter)
    {first second : String}
    {profile other : Profile}
    (known : session.profiles.get? first = some profile)
    (knownOther : session.profiles.get? second = some other)
    (same : profile.staticCounter.name = other.staticCounter.name) :
    first = second := by
  obtain ⟨-, -, counted⟩ := consistent.profiles first profile known
  obtain ⟨-, -, countedOther⟩ := consistent.profiles second other knownOther
  have named := (consistent.fields _ _ counted).1
  rw [same, (consistent.fields _ _ countedOther).1] at named
  exact (CounterOwner.instances.inj (Option.some.inj named)).symm

end Session.Consistent

namespace Transform

variable {counter : String} {before after : Session} {name : String}

/-- A profile that is known is given; another one is built for a class that is no interface. -/
theorem ends_instrument {profile : Profile} :
    Ends (instrument name) before profile after ↔
      before.profiles.get? name = some profile ∧ after = before ∨
        before.profiles.get? name = none ∧
          ∃ declaration between,
            before.program.class? name = some declaration ∧ declaration.isInterface = false ∧
              Ends (buildProfile name) before profile between ∧
              after =
                { between with
                  profiles := between.profiles.put name profile
                  journal :=
                    between.journal ++
                      [.general .classInstrumented
                        (name ++ " counter " ++ profile.staticCounter.name)] } := by
  unfold instrument
  rw [Ends.get_bind_iff]
  cases known : before.profiles.get? name with
  | some found =>
    constructor
    · intro ends
      obtain ⟨rfl, rfl⟩ := Ends.pure_iff.1 ends
      exact .inl ⟨rfl, rfl⟩
    · rintro (⟨same, rfl⟩ | ⟨unknown, -⟩)
      · cases same
        exact Ends.pure_iff.2 ⟨rfl, rfl⟩
      · cases unknown
  | none =>
    cases found : before.program.class? name with
    | none =>
      constructor
      · intro ends
        exact absurd ends Ends.not_throw
      · rintro (⟨known, -⟩ | ⟨-, _, _, registered, -⟩)
        · cases known
        · cases registered
    | some declaration =>
      dsimp only
      cases proper : declaration.isInterface with
      | true =>
        constructor
        · intro ends
          obtain ⟨_, _, thrown, -⟩ := Ends.bind_iff.1 ends
          exact absurd thrown Ends.not_throw
        · rintro (⟨known, -⟩ | ⟨-, _, _, registered, unflagged, -⟩)
          · cases known
          · cases registered
            cases proper.symm.trans unflagged
      | false =>
        simp only [Bool.false_eq_true, if_false, Ends.bind_iff, Ends.pure_iff, Ends.modify_iff,
          ends_record]
        constructor
        · rintro ⟨built, between, builds, _, _, rfl, _, _, rfl, rfl, rfl⟩
          exact .inr ⟨trivial, declaration, between, rfl, proper, builds, rfl⟩
        · rintro (⟨known, -⟩ | ⟨-, _, between, -, -, builds, rfl⟩)
          · cases known
          · exact ⟨profile, between, builds, ⟨⟩, _, rfl, ⟨⟩, _, rfl, rfl, rfl⟩

/-- To ask for the static counter of a class keeps the session consistent. -/
theorem counterFor_consistent
    (consistent : before.Consistent counter)
    {field : FieldRef}
    (ends : Ends (counterFor (.instances name) (Profile.flattenedName name)) before field after) :
    after.Consistent counter ∧ after.counters.fields.get? (.instances name) = some field ∧
      after.profiles = before.profiles := by
  have extends' := counterFor_extends ends
  rcases ends_counterFor.1 ends with ⟨known, rfl⟩ | ⟨unknown, program, added, rfl⟩
  · exact ⟨consistent, known, rfl⟩
  · obtain ⟨has, -⟩ := Program.HasNumber.of_addField added
    rw [consistent.className] at has
    have counted
        {owner : CounterOwner}
        {other : FieldRef}
        (known : before.counters.fields.get? owner = some other) :
        owner ≠ .instances name := by
      rintro rfl
      cases unknown.symm.trans known
    refine ⟨⟨consistent.className, ?_, ?_, Table.nodup_keys_put consistent.distinct _ _, ?_, ?_⟩,
      (Table.get?_put ..).trans (if_pos rfl), rfl⟩
    · intro owner other known
      rw [Table.get?_put] at known
      simp only [CounterTable.claim, Table.get?_put]
      split at known
      · rename_i same
        cases known
        rw [has.name_eq, if_pos rfl]
        exact ⟨congrArg some same.symm, has⟩
      · obtain ⟨named, hasOther⟩ := consistent.fields owner other known
        rw [if_neg (consistent.ne_nameFor unknown named)]
        exact ⟨named, hasOther.mono extends'⟩
    · intro other owner named
      simp only [CounterTable.claim, Table.get?_put] at named ⊢
      split at named
      · rename_i same
        cases named
        exact ⟨field, if_pos rfl, has.name_eq.trans same.symm⟩
      · obtain ⟨known, entered, sameName⟩ := consistent.names other owner named
        exact ⟨known, by rw [if_neg (counted entered), entered], sameName⟩
    · intro other known entered
      simp only [CounterTable.claim, Table.get?_put] at entered ⊢
      split
      · exact ⟨_, rfl⟩
      · rename_i differs
        split at entered
        · rename_i same
          cases same
          -- The class has the name that it asked for, or another owner had it before.
          obtain named | ⟨owner, plain, -⟩ :=
            CounterTable.nameFor_cases consistent.distinct (.instances name)
              (Profile.flattenedName name)
          · exact absurd named.symm differs
          · exact ⟨owner, plain⟩
        · exact consistent.plain other known entered
    · intro other profile known
      obtain ⟨named, settled, entered⟩ := consistent.profiles other profile known
      refine ⟨named, settled.mono extends', ?_⟩
      simp only [Table.get?_put, if_neg (counted entered)]
      exact entered

/-- To instrument a class keeps the session consistent and gives the class a profile that it keeps. -/
theorem instrument_consistent
    (consistent : before.Consistent counter)
    {profile : Profile}
    (ends : Ends (instrument name) before profile after) :
    after.Consistent counter ∧ after.profiles.get? name = some profile ∧
      ∀ other known, before.profiles.get? other = some known →
        after.profiles.get? other = some known := by
  rcases ends_instrument.1 ends with ⟨known, rfl⟩ |
    ⟨unknown, declaration, built, found, proper, builds, rfl⟩
  · exact ⟨consistent, known, fun _ _ known => known⟩
  · obtain ⟨named, settled, counted, counts, gains⟩ := buildProfile_gains found proper builds
    obtain ⟨consistentCounted, entered, profiles⟩ := counterFor_consistent consistent counts
    have consistentBuilt := consistentCounted.gains gains
    have same : built.profiles = before.profiles := gains.profiles.trans profiles
    refine ⟨{ consistentBuilt with profiles := fun other known located => ?_ },
      (Table.get?_put ..).trans (if_pos rfl), fun other known located => ?_⟩
    · rw [Table.get?_put] at located
      split at located
      · rename_i same
        cases located
        refine ⟨named.trans same.symm, settled, ?_⟩
        rw [same, gains.counters]
        exact entered
      · exact consistentBuilt.profiles other known located
    · rw [Table.get?_put, if_neg, same, located]
      rintro rfl
      cases unknown.symm.trans located

theorem mapM_instrument_consistent
    {classes : List String}
    {profiles : List Profile}
    (consistent : before.Consistent counter)
    (ends : Ends (classes.mapM instrument) before profiles after) :
    after.Consistent counter ∧
      (∀ other known, before.profiles.get? other = some known →
        after.profiles.get? other = some known) ∧
      classes.map after.profiles.get? = profiles.map some := by
  induction classes generalizing before profiles with
  | nil =>
    obtain ⟨rfl, rfl⟩ := Ends.pure_iff.1 ends
    exact ⟨consistent, fun _ _ known => known, rfl⟩
  | cons name rest hypothesis =>
    obtain ⟨profile, between, others, first, later, rfl⟩ := Ends.mapM_cons_iff.1 ends
    obtain ⟨consistentBetween, given, kept⟩ := instrument_consistent consistent first
    obtain ⟨consistentAfter, keptLater, others⟩ := hypothesis consistentBetween later
    refine ⟨consistentAfter, fun other known located => keptLater _ _ (kept _ _ located), ?_⟩
    rw [List.map_cons, List.map_cons, others, keptLater _ _ given]

section Plain

variable {classes : List String} (apart : Profile.Apart classes)
include apart

/-- A class is given the name that it asks for if no other class has asked for it. -/
theorem nameFor_plain
    {session : Session}
    (distinct : session.counters.names.keys.Nodup)
    (plainly : session.NamesPlainly classes)
    (member : name ∈ classes) :
    session.counters.nameFor (.instances name) (Profile.flattenedName name) =
      Profile.plainCounterName name := by
  obtain named | ⟨owner, claimed, differs⟩ :=
    CounterTable.nameFor_cases distinct (.instances name) (Profile.flattenedName name)
  · exact named
  · obtain ⟨other, memberOther, rfl, same⟩ := plainly _ _ claimed
    have flattened : Profile.flattenedName name = Profile.flattenedName other := by
      rw [← String.toList_inj]
      have letters := congrArg String.toList same
      simpa [Profile.plainCounterName] using letters
    exact absurd (apart name member other memberOther flattened) fun equal => differs (equal ▸ rfl)

theorem counterFor_namesPlainly
    (distinct : before.counters.names.keys.Nodup)
    (plainly : before.NamesPlainly classes)
    (member : name ∈ classes)
    {field : FieldRef}
    (ends : Ends (counterFor (.instances name) (Profile.flattenedName name)) before field after) :
    after.NamesPlainly classes := by
  rcases ends_counterFor.1 ends with ⟨-, rfl⟩ | ⟨-, program, -, rfl⟩
  · exact plainly
  · intro other owner named
    simp only [CounterTable.claim, Table.get?_put] at named
    split at named
    · rename_i same
      cases named
      exact ⟨name, member, rfl, same.trans (nameFor_plain apart distinct plainly member)⟩
    · exact plainly other owner named

theorem instrument_namesPlainly
    (consistent : before.Consistent counter)
    (plainly : before.NamesPlainly classes)
    (member : name ∈ classes)
    {profile : Profile}
    (ends : Ends (instrument name) before profile after) :
    after.NamesPlainly classes := by
  rcases ends_instrument.1 ends with ⟨-, rfl⟩ | ⟨-, declaration, built, found, proper, builds, rfl⟩
  · exact plainly
  · obtain ⟨-, -, counted, counts, gains⟩ := buildProfile_gains found proper builds
    have counted := counterFor_namesPlainly apart consistent.distinct plainly member counts
    unfold Session.NamesPlainly
    dsimp only
    rw [gains.counters]
    exact counted

theorem mapM_instrument_namesPlainly
    {profiles : List Profile}
    (ends : Ends (classes.mapM instrument) before profiles after)
    (consistent : before.Consistent counter)
    (plainly : before.NamesPlainly classes) :
    after.NamesPlainly classes := by
  refine (Ends.mapM_preserves (fun session => session.Consistent counter ∧ session.NamesPlainly classes)
    (fun _ => True) ?_ ⟨consistent, plainly⟩ (fun _ _ => trivial) ends).2
  rintro name member first profile second ⟨consistent, plainly⟩ - instruments
  exact ⟨(instrument_consistent consistent instruments).1,
    instrument_namesPlainly apart consistent plainly member instruments⟩

end Plain

/-- A class whose profile is settled is given that profile again, with the number that is declared
under the name that the session gives. -/
theorem instrument_of_settled
    {profile : Profile}
    {field : FieldRef}
    (named : profile.className = name)
    (settled : profile.Settled before.program)
    (unknown : before.profiles.get? name = none)
    (uncounted : before.counters.fields.get? (.instances name) = none)
    (has :
      before.program.HasNumber before.counters.className
        (before.counters.nameFor (.instances name) (Profile.flattenedName name)) field) :
    ∃ journal,
      Ends (instrument name) before { profile with staticCounter := field }
        { before with
          counters :=
            { (before.counters.claim (.instances name) (Profile.flattenedName name)).2 with
              fields := before.counters.fields.put (.instances name) field }
          profiles := before.profiles.put name { profile with staticCounter := field }
          journal } := by
  subst named
  obtain ⟨holder, -, registered, -⟩ := id has
  obtain ⟨declaration, found, proper⟩ := settled.proper
  have counts :=
    ends_counterFor.2
      (.inr ⟨uncounted, before.program, by
        rw [Program.ensureClass_of_class? registered]
        exact has.addField _, rfl⟩)
  obtain ⟨journal, builds⟩ := buildProfile_of_settled counts settled
  exact ⟨_, ends_instrument.2 (.inr ⟨unknown, declaration, _, found, proper, builds, rfl⟩)⟩

/-- A session on a program in which these classes have these profiles: what it has found is what was
there. -/
structure Finds
    (counter : String)
    (classes : List String)
    (profileOf : String → Profile)
    (program : Program)
    (session : Session) : Prop where
  program : session.program = program
  className : session.counters.className = counter
  distinct : session.counters.names.keys.Nodup
  plainly : session.NamesPlainly classes
  profiles :
    ∀ name profile, session.profiles.get? name = some profile → profile = profileOf name
  counted :
    ∀ name field, session.counters.fields.get? (.instances name) = some field →
      ∃ profile, session.profiles.get? name = some profile

theorem finds_start
    (settings : Settings)
    (classes : List String)
    (profileOf : String → Profile)
    (program : Program) :
    Finds settings.counterClassName classes profileOf program (.start settings program) where
  program := rfl
  className := rfl
  distinct := List.nodup_nil
  plainly := Session.namesPlainly_start classes settings program
  profiles _ _ known := by cases known
  counted _ _ known := by cases known

/-- A class that asks for a name of its own is given the profile that it had. -/
theorem instrument_finds
    {counter : String}
    {classes : List String}
    {profileOf : String → Profile}
    {program : Program}
    (apart : Profile.Apart classes)
    (finds : Finds counter classes profileOf program before)
    (member : name ∈ classes)
    (named : (profileOf name).className = name)
    (settled : (profileOf name).Settled program)
    (has :
      program.HasNumber counter (Profile.plainCounterName name) (profileOf name).staticCounter) :
    Succeeds (instrument name) before fun profile after =>
      profile = profileOf name ∧ Finds counter classes profileOf program after := by
  cases known : before.profiles.get? name with
  | some profile =>
    exact ⟨profile, before, ends_instrument.2 (.inl ⟨known, rfl⟩), finds.profiles name profile known,
      finds⟩
  | none =>
    have uncounted : before.counters.fields.get? (.instances name) = none := by
      cases counted : before.counters.fields.get? (.instances name) with
      | none => rfl
      | some field =>
        obtain ⟨profile, located⟩ := finds.counted name field counted
        cases known.symm.trans located
    have plain := nameFor_plain apart finds.distinct finds.plainly member
    have settledHere : (profileOf name).Settled before.program := finds.program ▸ settled
    have hasHere :
        before.program.HasNumber before.counters.className
          (before.counters.nameFor (.instances name) (Profile.flattenedName name))
          (profileOf name).staticCounter := by
      rw [plain, finds.program, finds.className]
      exact has
    obtain ⟨journal, ends⟩ := instrument_of_settled named settledHere known uncounted hasHere
    refine ⟨_, _, ends, rfl, finds.program, finds.className, Table.nodup_keys_put finds.distinct _ _,
      ?_, ?_, ?_⟩
    · intro other owner located
      simp only [CounterTable.claim, Table.get?_put] at located
      split at located
      · rename_i same
        cases located
        exact ⟨name, member, rfl, same.trans plain⟩
      · exact finds.plainly other owner located
    · intro other profile located
      rw [Table.get?_put] at located
      split at located
      · rename_i same
        cases located
        exact same ▸ rfl
      · exact finds.profiles other profile located
    · intro other field located
      rw [Table.get?_put] at located ⊢
      split at located
      · rename_i same
        cases same
        exact ⟨_, if_pos rfl⟩
      · rename_i differs
        obtain ⟨profile, there⟩ := finds.counted other field located
        exact ⟨profile, by rw [if_neg fun same => differs (congrArg _ same), there]⟩

/-- The first name that is tried on a session that has just begun is free. -/
theorem nameFor_start (settings : Settings) (program : Program) (name : String) :
    (Session.start settings program).counters.nameFor (.instances name)
        (Profile.flattenedName name) =
      Profile.plainCounterName name :=
  have apart : Profile.Apart [name] := by simp [Profile.Apart]
  nameFor_plain apart List.nodup_nil (Session.namesPlainly_start [name] settings program)
    (List.mem_singleton.2 rfl)

/-- A class that has a profile is given it again in a session that has just begun, with the number that
is declared under the name that it asks for. -/
theorem instrument_start
    {settings : Settings}
    {session : Session}
    (consistent : session.Consistent settings.counterClassName)
    {profile : Profile}
    (known : session.profiles.get? name = some profile) :
    Succeeds (instrument name) (.start settings session.program) fun again after =>
      after.program = session.program ∧
        again.staticCounter.name = Profile.plainCounterName name ∧
        again = { profile with staticCounter := again.staticCounter } := by
  obtain ⟨named, settled, counted⟩ := consistent.profiles name profile known
  obtain ⟨owner, claimed⟩ := consistent.plain name profile.staticCounter counted
  obtain ⟨field, entered, plain⟩ := consistent.names _ owner claimed
  have has :
      session.program.HasNumber settings.counterClassName
        ((Session.start settings session.program).counters.nameFor (.instances name)
          (Profile.flattenedName name))
        field := by
    rw [nameFor_start, ← plain]
    exact (consistent.fields owner field entered).2
  have settledStart : profile.Settled (Session.start settings session.program).program := settled
  obtain ⟨journal, ends⟩ := instrument_of_settled named settledStart rfl rfl has
  exact ⟨_, _, ends, rfl, plain, rfl⟩

section Repeating

variable
    {settings : Settings}
    {classes : List String}
    {profileOf : String → Profile}
    {session : Session}
    (consistent : session.Consistent settings.counterClassName)
    (known : ∀ name ∈ classes, session.profiles.get? name = some (profileOf name))
include consistent known

/-- Classes that ask for different names are given the profiles that they had. -/
theorem repeatable_of_apart
    (apart : Profile.Apart classes)
    (plainly : session.NamesPlainly classes) :
    Repeatable settings classes profileOf session.program := by
  intro again subset
  refine (Succeeds.mapM (fun done profiles session' =>
    profiles = done.map profileOf ∧
      Finds settings.counterClassName classes profileOf session.program session') ?_ ?_).mono ?_
  · exact ⟨rfl, finds_start settings classes profileOf session.program⟩
  · rintro done name rest profiles between split ⟨rfl, finds⟩
    have member : name ∈ classes := subset name (by simp [split])
    obtain ⟨named, settled, counted⟩ := consistent.profiles name _ (known name member)
    obtain ⟨claimed, has⟩ := consistent.fields _ _ counted
    obtain ⟨other, -, same, plain⟩ := plainly _ _ claimed
    cases same
    refine (instrument_finds apart finds member named settled (plain ▸ has)).mono ?_
    rintro profile after ⟨rfl, findsAfter⟩
    exact ⟨by simp, findsAfter⟩
  · rintro profiles after ⟨rfl, finds⟩
    exact ⟨rfl, finds.program⟩

/-- A class that is instrumented alone is given the name that it asks for, so that two classes that
ask for one name cannot both be given the profiles that they had. -/
theorem apart_of_repeatable (repeatable : Repeatable settings classes profileOf session.program) :
    Profile.Apart classes := by
  have plain {name : String} (member : name ∈ classes) :
      (profileOf name).staticCounter.name = Profile.plainCounterName name := by
    obtain ⟨profiles, after, repeats, rfl, -⟩ :=
      repeatable [name] fun other listed => List.mem_singleton.1 listed ▸ member
    obtain ⟨profile, between, others, instruments, -, same⟩ := Ends.mapM_cons_iff.1 repeats
    obtain ⟨-, named, -⟩ := (instrument_start consistent (known name member)).of_ends instruments
    rw [List.map_cons, List.cons.injEq] at same
    rw [same.1, named]
  intro first memberFirst second memberSecond same
  refine consistent.counter_injective (known first memberFirst) (known second memberSecond) ?_
  rw [plain memberFirst, plain memberSecond, Profile.plainCounterName, Profile.plainCounterName,
    same]

end Repeating

/-- To instrument classes again, in a session that begins on the program that came out, gives each
class the members that it has and leaves the program as it is.  Each is given the static counter of
the name that it asks for.  This is the counter that it had, for every class and in any order of
requests, exactly if no two of the classes ask for one name. -/
theorem instrument_again
    {settings : Settings}
    {program : Program}
    {classes : List String}
    {profiles : List Profile}
    {after : Session}
    (ends : Ends (classes.mapM instrument) (.start settings program) profiles after) :
    ∃ profileOf : String → Profile,
      profiles = classes.map profileOf ∧
        (∀ first ∈ classes, ∀ second ∈ classes, first ≠ second →
          (profileOf first).staticCounter ≠ (profileOf second).staticCounter) ∧
        (∀ name ∈ classes,
          Succeeds (instrument name) (.start settings after.program) fun profile session =>
            session.program = after.program ∧
              profile.staticCounter.name = Profile.plainCounterName name ∧
              profile = { profileOf name with staticCounter := profile.staticCounter }) ∧
        (Repeatable settings classes profileOf after.program ↔ Profile.Apart classes) := by
  obtain ⟨consistent, -, given⟩ :=
    mapM_instrument_consistent (Session.Consistent.start settings program) ends
  let profileOf (name : String) : Profile :=
    (after.profiles.get? name).getD (.ofClass name (.ofClass "" "" .int))
  have known (name : String) (member : name ∈ classes) :
      after.profiles.get? name = some (profileOf name) := by
    have listed : after.profiles.get? name ∈ classes.map after.profiles.get? :=
      List.mem_map_of_mem member
    rw [given] at listed
    obtain ⟨profile, -, same⟩ := List.mem_map.1 listed
    simp [profileOf, ← same]
  refine ⟨profileOf, ?_, ?_, fun name member => instrument_start consistent (known name member),
    apart_of_repeatable consistent known, fun apart => ?_⟩
  · apply List.map_injective_iff.2 (Option.some_injective Profile)
    rw [← given, List.map_map]
    exact List.map_congr_left known
  · intro first memberFirst second memberSecond differs same
    exact differs
      (consistent.counter_injective (known first memberFirst) (known second memberSecond)
        (congrArg FieldRef.name same))
  · exact repeatable_of_apart consistent known apart
      (mapM_instrument_namesPlainly apart ends (.start settings program)
        (Session.namesPlainly_start classes settings program))

/-- Two classes ask for one name, and one asks for another. -/
def clashingClasses : Program where
  entries :=
    [("a.b.C", .plain "a.b.C" ⟨0⟩), ("ab.C", .plain "ab.C" ⟨0⟩), ("x.D", .plain "x.D" ⟨0⟩)]
  distinct := by decide

theorem ownNames_instrumented_again :
    ∃ profiles after,
      Ends (["ab.C", "x.D"].mapM instrument) (.start .standard clashingClasses) profiles after ∧
        ∃ profileOf, profiles = ["ab.C", "x.D"].map profileOf ∧
          Repeatable .standard ["ab.C", "x.D"] profileOf after.program := by
  have computed :
      ((["ab.C", "x.D"].mapM instrument).on (.start .standard clashingClasses)).1.toOption.isSome := by
    decide +kernel
  have apart : Profile.Apart ["ab.C", "x.D"] := by decide +kernel
  obtain ⟨profiles, given⟩ := Option.isSome_iff_exists.1 computed
  obtain ⟨after, ends⟩ :
      ∃ after,
        Ends (["ab.C", "x.D"].mapM instrument) (.start .standard clashingClasses) profiles after :=
    ⟨_, .of_result given⟩
  obtain ⟨profileOf, same, -, -, repeatable⟩ := instrument_again ends
  exact ⟨profiles, after, ends, profileOf, same, repeatable.2 apart⟩

/-- The second class of two that ask for one name is given the counter of the first when it is
instrumented again. -/
theorem clashingClasses_exchange_counters :
    ∃ first second again after session,
      Ends (["a.b.C", "ab.C"].mapM instrument) (.start .standard clashingClasses) [first, second]
          after ∧
        Ends (instrument "ab.C") (.start .standard after.program) again session ∧
        again ≠ second ∧ again.staticCounter = first.staticCounter := by
  let counter (name : String) : FieldRef :=
    .ofClass Settings.standard.counterClassName name .int
  have given :
      ((["a.b.C", "ab.C"].mapM instrument).on (.start .standard clashingClasses)).1.toOption =
        some [.ofClass "a.b.C" (counter "abCCounter"), .ofClass "ab.C" (counter "abC2Counter")] := by
    decide +kernel
  have repeated :
      ((instrument "ab.C").on
          (.start .standard
            ((["a.b.C", "ab.C"].mapM instrument).on
              (.start .standard clashingClasses)).2.program)).1.toOption =
        some (.ofClass "ab.C" (counter "abCCounter")) := by
    decide +kernel
  have differs :
      Profile.ofClass "ab.C" (counter "abCCounter") ≠ .ofClass "ab.C" (counter "abC2Counter") := by
    decide +kernel
  -- What the first session leaves is named, so that it is not computed again.
  generalize ran : (["a.b.C", "ab.C"].mapM instrument).on (.start .standard clashingClasses) = run
    at given repeated
  obtain ⟨outcome, after⟩ := run
  cases outcome with
  | error problem => cases given
  | ok profiles =>
    obtain rfl := Option.some.inj given
    exact ⟨_, _, _, after, _, ran, .of_result repeated, differs, rfl⟩

end Transform
end AccessProfiler
