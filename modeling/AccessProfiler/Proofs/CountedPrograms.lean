import AccessProfiler.Proofs.CountingRuns

/-!
# Programs with counting

What the passes make of a program is known if arrays are left alone and nothing that counting adds has a
name that the program gives to something else: every class with a profile has its members, every body
is the planned one, up to calls that count on static counters, and the plan is `Session.counting`
(`Session.Completes`).  The passes succeed if constructors bind their receiver
(`Pass.runAll_completes`).
-/

namespace AccessProfiler

/-- The constructors of the classes that are transformed bind their receiver to a local of the type of
the class. -/
def Program.ConstructorsReceive (settings : Settings) (program : Program) : Prop :=
  ∀ entry ∈ program.entries, (Session.start settings program).isTransformableClass entry.1 →
    ∀ method ∈ entry.2.methods, method.isConstructor → ∀ body ∈ method.body,
      body.receiver?.bind body.localType? = some (.object entry.1)

instance (settings : Settings) (program : Program) :
    Decidable (program.ConstructorsReceive settings) :=
  inferInstanceAs (Decidable (∀ entry ∈ program.entries, _ → ∀ method ∈ entry.2.methods, _ →
    ∀ body ∈ method.body, _))

theorem Program.ConstructorsReceive.receiver?_eq_some
    {settings : Settings}
    {program : Program}
    (receive : program.ConstructorsReceive settings)
    {id : MethodId}
    {method : Method}
    {body : Body}
    (transformable : (Session.start settings program).isTransformableClass id.owner)
    (has : program.method? id = some method)
    (constructs : method.isConstructor)
    (given : method.body = some body) :
    ∃ this, body.receiver? = some this ∧ body.localType? this = some (.object id.owner) := by
  obtain ⟨declaration, declares, located⟩ := Option.bind_eq_some_iff.1 has
  exact Option.bind_eq_some_iff.1 (receive _ (Program.mem_entries_of_class? declares) transformable
    method (List.mem_of_getElem? located) constructs body given)

/-- Nothing is counted in the block that assigns the serial number. -/
theorem Profile.serialAssignment_silent
    {className : String}
    {staticCounter : FieldRef}
    {sink : Sink}
    {this count : LocalId}
    {instruction : Instruction}
    (member :
      instruction ∈ (Profile.ofClass className staticCounter).serialAssignment sink this count) :
    instruction.Silent := by
  simp only [Profile.serialAssignment, List.mem_cons, List.not_mem_nil, or_false] at member
  rcases member with rfl | rfl | rfl | rfl | rfl
  · exact ⟨trivial, trivial⟩
  · exact ⟨trivial, trivial⟩
  · have counts : isInstrumentationName serialField := by decide
    exact ⟨counts, trivial⟩
  · exact ⟨trivial, trivial⟩
  · trivial

namespace Session

variable
    {settings : Settings}
    {counter : String}
    {sink : Sink}
    {Tally : Instruction → Prop}
    {plan : Plan}
    {original : Program}
    {session : Session}

/-- An instruction of a planned body was in the original program, or nothing is counted for it. -/
theorem plain_or_silent_of_mem_patching
    (session : Session)
    (apart : original.NamesApart counter)
    (profiled :
      ∀ name profile, session.profiles.get? name = some profile →
        ∃ field, profile = .ofClass name field)
    {id : MethodId}
    {method : Method}
    {body : Body}
    {instruction : Instruction}
    (has : original.method? id = some method)
    (given : method.body = some body)
    (member : instruction ∈ (session.patching id body).instructions) :
    instruction.Plain counter ∨ instruction.Silent := by
  have there : original.body? id = some body := Option.bind_eq_some_iff.2 ⟨method, has, given⟩
  rcases mem_patching member with old | ⟨profile, this, declaration, -, known, -, -, -, block⟩
  · exact .inl (apart.instruction_plain (Program.mem_bodies_of_body? there) old)
  · obtain ⟨field, rfl⟩ := profiled _ _ known
    exact .inr (Profile.serialAssignment_silent block)

/-- Without profiles nothing is patched. -/
theorem patching_of_no_profiles
    (session : Session)
    (none : ∀ name, session.profiles.get? name = none) :
    session.patching = .none := by
  funext id
  rw [patching, Plan.choose, patches, none]
  rfl

/-- The name of a constructor is not that of a method that counts. -/
theorem isGenerated_constructor
    (generates : session.GeneratesIncrementors)
    (owner : String) :
    session.isGenerated (owner ++ "." ++ constructorName) = false := by
  rw [Bool.eq_false_iff]
  intro generated
  obtain ⟨other, given, incrementing, same⟩ := generates _ (List.contains_iff_mem.1 generated)
  have last := congrArg (fun text => text.toList.getLast?) same
  rcases incrementing with rfl | rfl
  · simp [constructorName, readIncrementor, List.getLast?_append] at last
  · simp [constructorName, writeIncrementor, List.getLast?_append] at last

/-- A constructor is patched if its class has a profile and it was written by hand. -/
theorem isEligible_patchConstructors
    (furnishes : session.Furnishes counter sink Tally plan original)
    (generates : session.GeneratesIncrementors)
    {id : MethodId}
    {method : Method}
    (has : original.method? id = some method) :
    Pass.isEligible .patchConstructors session id =
      (withProfiles session.settings original session.profiles).patches id := by
  show (session.isTransformable id && (session.profiles.get? id.owner).isSome &&
      (session.program.method? id).any Method.isConstructor) =
    ((session.profiles.get? id.owner).isSome &&
      (original.method? id).any fun method => method.isConstructor && !method.isSynthetic)
  cases known : session.profiles.get? id.owner with
  | none => simp
  | some profile =>
    have start := furnishes.profiled _ _ known
    have differs : id.owner ≠ counter :=
      furnishes.counterName ▸ ne_counterClassName_of_isTransformableClass start
    obtain ⟨current, there, related⟩ := furnishes.furnished.method?_eq_some differs has
    have transformable : session.isTransformableClass id.owner = true :=
      (Pass.isTransformableClass_start furnishes).trans start
    have named : current.name = method.name := related.name_eq
    have flagged : current.flags = method.flags := related.flags_eq
    simp only [isTransformable, transformable, there, has, Option.any_some, Option.isSome_some,
      Bool.true_and, Bool.and_true, Method.isSynthetic, Method.isConstructor, named, flagged]
    by_cases constructs : method.name = constructorName
    · rw [constructs, isGenerated_constructor generates]
      simp
    · have other : (method.name == constructorName) = false := beq_eq_false_iff_ne.2 constructs
      rw [other, Bool.and_false, Bool.false_and]

end Session

namespace Pass

variable
    {counter : String}
    {sink : Sink}
    {original : Program}
    {base reference : Session}
    {id : MethodId}
    {exact : Body}
    {condition : Prop}

/-- What a constructor becomes is its patched body, which is the same body if it does not bind its
receiver. -/
theorem patchConstructors_makes
    {profile : Profile}
    (known : base.profiles.get? id.owner = some profile)
    (receives : condition → ∃ this, exact.receiver? = some this) :
    Makes condition counter sink (fun _ _ => False) original base .patchConstructors id exact
      (profile.patched sink exact) := by
  intro body session working tallied
  obtain rfl := tallied.eq_of_not fun _ => not_false
  have knownNow : session.profiles.get? id.owner = some profile := working.profiles ▸ known
  cases received : body.receiver? with
  | some this =>
    have succeeds :
        Draft.Succeeds (onBody .patchConstructors id) body session fun _ bodyAfter after =>
          bodyAfter = profile.patched sink body ∧ ∃ journal, after = { session with journal } :=
      Draft.Succeeds.session_bind
        (Draft.assignSerial_succeeds working.ledger.reports knownNow received)
    obtain ⟨changed, _, _, ends, rfl, journal, rfl⟩ := succeeds
    exact ⟨.ok changed, _, _, ends, fun _ => ⟨changed, rfl⟩, working.ledger.annotate _ _ _,
      .annotate _ _ _ _, .refl _⟩
  | none =>
    have unpatched : profile.patched sink body = body := by
      rw [Profile.patched, Profile.patchConstructor, received]
    rw [unpatched]
    have fails :
        (onBody .patchConstructors id).on body session =
          ((.error (.malformed (.receiverUnbound profile.className)), body), session) := by
      unfold onBody
      rw [Draft.on_session_bind]
      exact Draft.assignSerial_unbound knownNow received
    refine ⟨_, _, _, fails, fun given => ?_, working.ledger, .refl _, .refl _⟩
    obtain ⟨this, some⟩ := receives given
    rw [received] at some
    cases some

/-- Accesses counted for types leave a body what it is, up to calls that count on static counters. -/
theorem profileTypes_makes :
    Makes condition counter sink (Program.Tally counter) original base .profileTypes id exact exact := by
  refine .of_succeeds fun body session working tallied => ?_
  unfold onBody
  apply Draft.Succeeds.session_bind
  refine (Draft.countTypeAccesses_succeeds working.ledger).mono ?_
  intro changed bodyAfter after adds
  exact ⟨adds.ledger, adds.extension, (tallied.mono fun _ =>
    Program.Tally.mono (adds.extension.grows.program.offers counter)).trans adds.tallied⟩

/-- The same for calls that are counted. -/
theorem trackCalls_makes :
    Makes condition counter sink (Program.Tally counter) original base .trackCalls id exact exact := by
  refine .of_succeeds fun body session working tallied => ?_
  unfold onBody
  apply Draft.Succeeds.session_bind
  refine (Draft.countCalls_succeeds working.ledger id).mono ?_
  intro changed bodyAfter after adds
  exact ⟨adds.ledger, adds.extension, (tallied.mono fun _ =>
    Program.Tally.mono (adds.extension.grows.program.offers counter)).trans adds.tallied⟩

/-- Calls that count accesses to instance fields are put where a session with the original program
puts them. -/
theorem countFields_makes
    (profiles : base.profiles = reference.profiles)
    (program : reference.program = original)
    (quiet :
      ∀ instruction ∈ exact.instructions, instruction.Plain counter ∨ instruction.Silent) :
    Makes condition counter sink (Program.Tally counter) original base .countFields id exact
      (exact.counted reference) := by
  refine .of_succeeds fun body session working tallied => ?_
  unfold onBody
  apply Draft.Succeeds.session_bind
  refine Draft.countFieldAccesses_succeeds.mono ?_
  rintro changed _ _ ⟨rfl, journal, rfl⟩
  refine ⟨working.ledger.annotate _ _ _, .annotate _ _ _ _, tallied.locals, ?_⟩
  have declaring (field : FieldRef) (plain : field.Plain counter) :
      session.declaringClass field = reference.declaringClass field := by
    rw [Session.declaringClass, Session.declaringClass, program,
      working.fields field.owner field.name plain.1 plain.2]
  have same :
      (exact.instructions.flatMap fun instruction =>
          FieldCount.calls reference instruction ++ [instruction]) =
        exact.instructions.flatMap fun instruction =>
          FieldCount.calls session instruction ++ [instruction] := by
    apply List.flatMap_congr
    intro instruction member
    rcases quiet instruction member with plain | silent
    · rw [FieldCount.calls_eq (working.profiles.trans profiles) declaring plain]
    · rw [FieldCount.calls_of_silent silent, FieldCount.calls_of_silent silent]
  show Tallied _ (exact.instructions.flatMap _) (body.instructions.flatMap _)
  rw [same]
  refine tallied.instructions.flatMap ?_
  intro call tallies
  rw [FieldCount.calls_of_tallies tallies]
  rfl

variable {settings : Settings} {before : Session}

/-- The classes that are transformed get their profiles. -/
theorem run_instrument_succeeds
    {Tally : Instruction → Prop}
    {plan : Plan}
    (apart : original.NamesApart counter)
    (wellNamed : original.WellNamed)
    (furnishes : before.Furnishes counter sink Tally plan original)
    (generates : before.GeneratesIncrementors) :
    Succeeds (run .instrument) before fun _ after =>
      after.Furnishes counter sink Tally plan original ∧ after.GeneratesIncrementors ∧
        after.settings = before.settings :=
  run_succeeds
    (fun journal => (instrumentAll_succeeds apart wellNamed (furnishes.withJournal journal) generates))
    fun _ journal reached => ⟨reached.1.withJournal journal, reached.2⟩

/-- Constructors of classes with profiles are patched. -/
theorem run_patchConstructors_concludes
    (apart : original.NamesApart counter)
    (furnishes : before.Furnishes counter sink (fun _ => False) .none original)
    (generates : before.GeneratesIncrementors) :
    Concludes (original.ConstructorsReceive before.settings) (run .patchConstructors) before
      fun _ after =>
      after.Furnishes counter sink (fun _ => False)
          (Session.withProfiles before.settings original before.profiles).patching original ∧
        after.settings = before.settings ∧ after.profiles = before.profiles := by
  obtain rfl := furnishes.ledger.reports
  let reference := Session.withProfiles before.settings original before.profiles
  let patch : Plan := fun id body =>
    (before.profiles.get? id.owner).elim body fun profile =>
      profile.patched before.settings.sink body
  have asked (journal : Journal) {id : MethodId} {method : Method}
      (has : original.method? id = some method) :
      isEligible .patchConstructors { before with journal } id = reference.patches id :=
    Session.isEligible_patchConstructors (furnishes.withJournal journal) generates has
  refine run_concludes (fun journal => ?_) fun _ journal reached =>
    ⟨reached.1.withJournal journal, reached.2⟩
  refine (onMethods_furnishes (fun _ _ => False) patch (fun _ _ _ _ none => none)
    apart (furnishes.withJournal journal) ?_).mono ?_
  · intro id method body eligible has given
    have patches : reference.patches id = true := (asked journal has).symm.trans eligible
    obtain ⟨profiled, kinds⟩ := Bool.and_eq_true_iff.1 patches
    obtain ⟨profile, known⟩ := Option.isSome_iff_exists.1 profiled
    have known : before.profiles.get? id.owner = some profile := known
    have hand : method.isConstructor = true := by
      have kinds : ((original.method? id).any fun method =>
          method.isConstructor && !method.isSynthetic) = true := kinds
      rw [has, Option.any_some, Bool.and_eq_true] at kinds
      exact kinds.1
    show Makes _ counter _ _ original _ .patchConstructors id body
      ((before.profiles.get? id.owner).elim body fun profile =>
        profile.patched before.settings.sink body)
    rw [known]
    refine patchConstructors_makes known fun receive => ?_
    obtain ⟨this, received, -⟩ :=
      receive.receiver?_eq_some (furnishes.profiled _ _ known) has hand given
    exact ⟨this, received⟩
  · rintro _ after ⟨furnishesAfter, settings, profiles⟩
    refine ⟨{ furnishesAfter with furnished := furnishesAfter.furnished.replan ?_ }, settings,
      profiles⟩
    intro id method body has given
    rw [Plan.choose, asked journal has]
    rfl

/-- A pass that only adds calls which count on static counters changes nothing that is planned. -/
theorem run_tallies_concludes
    {pass : Pass}
    (kind : pass = .profileTypes ∨ pass = .trackCalls)
    {plan : Plan}
    (apart : original.NamesApart counter)
    (furnishes : before.Furnishes counter sink (before.program.Tally counter) plan original) :
    Concludes condition (run pass) before fun _ after =>
      after.Furnishes counter sink (after.program.Tally counter) plan original ∧
        after.settings = before.settings ∧ after.profiles = before.profiles := by
  have makes (base : Session) (id : MethodId) (exact : Body) :
      Makes condition counter sink (Program.Tally counter) original base pass id exact exact := by
    rcases kind with rfl | rfl
    · exact profileTypes_makes
    · exact trackCalls_makes
  have works : pass.isGlobal = false := by rcases kind with rfl | rfl <;> rfl
  refine run_concludes (fun journal => ?_) fun _ journal reached =>
    ⟨reached.1.withJournal journal, reached.2⟩
  rw [works, if_neg Bool.false_ne_true]
  refine (onMethods_furnishes (Program.Tally counter) plan
    (fun _ _ offers _ tallies => tallies.mono offers) apart (furnishes.withJournal journal)
    fun id _ body _ _ _ => makes _ id (plan id body)).mono ?_
  rintro _ after ⟨furnishesAfter, settings, profiles⟩
  have same (chosen : MethodId → Bool) : Plan.choose chosen plan plan = plan := by
    funext id
    rw [Plan.choose, ite_self]
  rw [same] at furnishesAfter
  exact ⟨furnishesAfter, settings, profiles⟩

/-- Accesses to instance fields are counted in the eligible methods. -/
theorem run_countFields_concludes
    (apart : original.NamesApart counter)
    (same : before.settings = settings)
    (furnishes :
      before.Furnishes counter sink (before.program.Tally counter)
        (Session.withProfiles settings original before.profiles).patching original) :
    Concludes condition (run .countFields) before fun _ after =>
      after.Furnishes counter sink (after.program.Tally counter)
          ((Session.withProfiles settings original before.profiles).counting
            (isEligible .countFields before)) original ∧
        after.settings = settings ∧ after.profiles = before.profiles := by
  subst same
  let reference := Session.withProfiles before.settings original before.profiles
  refine run_concludes (fun journal => ?_) fun _ journal reached =>
    ⟨reached.1.withJournal journal, reached.2⟩
  exact onMethods_furnishes (Program.Tally counter)
    (fun id body => (reference.patching id body).counted reference)
    (fun _ _ offers _ tallies => tallies.mono offers) apart (furnishes.withJournal journal)
    fun id method body _ has given =>
      countFields_makes rfl rfl fun instruction member =>
        Session.plain_or_silent_of_mem_patching reference apart
          (fun name profile known => by
            obtain ⟨field, -, same⟩ := furnishes.ledger.profiles name profile known
            exact ⟨field, same⟩)
          has given member

/-- The passes up to those that count accesses to instance fields. -/
def early : List Pass := [.instrument, .patchConstructors, .profileTypes]

/-- The passes from those on that count accesses to instance fields. -/
def late : List Pass := [.countFields, .trackCalls, .wrapSignatures, .propagateArrays]

theorem wanted_eq (settings : Settings) :
    wanted settings = early.filter (isWanted settings) ++ late.filter (isWanted settings) := by
  rw [← List.filter_append]
  rfl

end Pass

namespace Session

/-- The session when accesses to instance fields are about to be counted. -/
def beforeCounting (settings : Settings) (program : Program) : Session :=
  (Transform.on ((Pass.early.filter (Pass.isWanted settings)).mapM Pass.run)
    (.start settings program)).2

/-- The method is one of those in which accesses to instance fields are counted. -/
def counts (settings : Settings) (program : Program) (id : MethodId) : Bool :=
  settings.objects && Pass.isEligible .countFields (beforeCounting settings program) id

/-- The session holds the program with counting as the settings ask for it. -/
structure Completes (settings : Settings) (program : Program) (session : Session) : Prop where
  furnishes :
    session.Furnishes settings.counterClassName settings.sink
      (session.program.Tally settings.counterClassName)
      ((withProfiles settings program session.profiles).counting (counts settings program)) program
  settings : session.settings = settings

variable {settings : Settings} {program : Program}

theorem start_furnishes (unregistered : program.class? settings.counterClassName = none) :
    (start settings program).Furnishes settings.counterClassName settings.sink (fun _ => False)
      .none program where
  ledger :=
    { reports := rfl
      className := rfl
      holds := fun _ found => by
        rw [start, unregistered] at found
        cases found
      names := nofun
      fields := nofun
      profiles := nofun
      typeCounters := nofun
      callCounters := nofun
      wrappers := fun _ => rfl }
  counterName := rfl
  furnished := .refl (fun _ => rfl) program
  profiled := nofun

theorem start_generatesIncrementors : (start settings program).GeneratesIncrementors :=
  fun _ member => absurd member List.not_mem_nil

end Session

namespace Pass

variable {settings : Settings} {program : Program}

/-- What the passes have made of the program when accesses to instance fields are about to be
counted. -/
theorem early_concludes
    (apart : program.NamesApart settings.counterClassName)
    (wellNamed : program.WellNamed) :
    Concludes (program.ConstructorsReceive settings) ((early.filter (isWanted settings)).mapM run)
      (.start settings program) fun _ after =>
        after.Furnishes settings.counterClassName settings.sink
            (after.program.Tally settings.counterClassName)
            (Session.withProfiles settings program after.profiles).patching program ∧
          after.settings = settings := by
  let Instrumented (session : Session) : Prop :=
    session.Furnishes settings.counterClassName settings.sink (fun _ => False) .none program ∧
      session.GeneratesIncrementors ∧ session.settings = settings ∧
      (settings.objects = false → ∀ name, session.profiles.get? name = none)
  let Patched (session : Session) : Prop :=
    session.Furnishes settings.counterClassName settings.sink (fun _ => False)
        (Session.withProfiles settings program session.profiles).patching program ∧
      session.settings = settings
  let Reached (session : Session) : Prop :=
    session.Furnishes settings.counterClassName settings.sink
        (session.program.Tally settings.counterClassName)
        (Session.withProfiles settings program session.profiles).patching program ∧
      session.settings = settings
  have start := Session.start_furnishes apart.unregistered
  have widen {session : Session} (patched : Patched session) : Reached session :=
    ⟨{ patched.1 with furnished := patched.1.furnished.mono fun _ => False.elim }, patched.2⟩
  refine .mapM_filter_cons Instrumented (fun wanted => ?_) (fun _ => ?_)
    fun instrumented reached => ?_
  · refine .of_succeeds ((run_instrument_succeeds apart wellNamed start
      Session.start_generatesIncrementors).mono ?_)
    rintro _ after ⟨furnishes, generates, same⟩
    refine ⟨furnishes, generates, same, fun off => ?_⟩
    rw [isWanted, off] at wanted
    cases wanted
  · exact ⟨start, Session.start_generatesIncrementors, rfl, fun _ _ => rfl⟩
  obtain ⟨furnishes, generates, same, bare⟩ := reached
  refine .mapM_filter_cons Patched (fun _ => ?_) (fun unwanted => ?_)
    fun patched reached => ?_
  · have concludes := run_patchConstructors_concludes apart furnishes generates
    rw [same] at concludes
    refine concludes.mono ?_
    rintro _ after ⟨furnishesAfter, sameAfter, profiles⟩
    rw [← profiles] at furnishesAfter
    exact ⟨furnishesAfter, sameAfter⟩
  · have nothing := Session.patching_of_no_profiles
      (Session.withProfiles settings program instrumented.profiles) (bare unwanted)
    exact ⟨nothing ▸ furnishes, same⟩
  refine .mapM_filter_cons Reached (fun _ => ?_) (fun _ => widen reached)
    fun counted reached => .of_succeeds ⟨[], counted, Ends.pure_iff.2 ⟨rfl, rfl⟩, reached⟩
  refine (run_tallies_concludes (.inl rfl) apart (widen reached).1).mono ?_
  rintro _ after ⟨furnishesAfter, sameAfter, profiles⟩
  rw [← profiles] at furnishesAfter
  exact ⟨furnishesAfter, sameAfter.trans reached.2⟩

/-- Of passes that leave arrays alone it is known what they make of the program, and they succeed if
constructors bind their receiver. -/
theorem runAll_completes
    (arraysOff : settings.arrays = false)
    (apart : program.NamesApart settings.counterClassName)
    (wellNamed : program.WellNamed) :
    Concludes (program.ConstructorsReceive settings) (runAll (wanted settings))
      (.start settings program) fun _ after => after.Completes settings program := by
  have passes :
      Concludes (program.ConstructorsReceive settings) ((wanted settings).mapM run)
        (.start settings program) fun _ after => after.Completes settings program := by
    rw [wanted_eq]
    refine .mapM_append (early_concludes apart wellNamed).computed ?_
    rintro before ⟨⟨furnishes, same⟩, known⟩
    have known : before = Session.beforeCounting settings program := known
    have counts :
        Session.counts settings program = fun id =>
          settings.objects && isEligible .countFields before id := by
      rw [known]
      rfl
    refine .mapM_filter_cons (fun session => session.Completes settings program)
      (fun asked => ?_) (fun unasked => ?_) fun counted reached => ?_
    · refine (run_countFields_concludes apart same furnishes).mono ?_
      rintro _ after ⟨furnishesAfter, sameAfter, profiles⟩
      have asked : settings.objects = true := asked
      have chosen : Session.counts settings program = isEligible .countFields before := by
        simp only [counts, asked, Bool.true_and]
      rw [← profiles, ← chosen] at furnishesAfter
      exact ⟨furnishesAfter, sameAfter⟩
    · have unasked : settings.objects = false := unasked
      have nothing : Session.counts settings program = fun _ => false := by
        simp only [counts, unasked, Bool.false_and]
      refine ⟨?_, same⟩
      rw [nothing]
      exact furnishes
    refine .mapM_filter_cons (fun session => session.Completes settings program)
      (fun _ => ?_) (fun _ => reached) fun tracked reached => ?_
    · refine (run_tallies_concludes (.inr rfl) apart reached.furnishes).mono ?_
      rintro _ after ⟨furnishesAfter, sameAfter, profiles⟩
      rw [← profiles] at furnishesAfter
      exact ⟨furnishesAfter, sameAfter.trans reached.settings⟩
    have rest : [wrapSignatures, propagateArrays].filter (isWanted settings) = [] := by
      simp [isWanted, arraysOff]
    rw [rest]
    exact .of_succeeds ⟨[], tracked, Ends.pure_iff.2 ⟨rfl, rfl⟩, reached⟩
  unfold runAll
  exact passes.bind fun _ _ reached => .of_succeeds (.pure reached)

end Pass
end AccessProfiler
