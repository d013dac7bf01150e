import AccessProfiler.Proofs.SparingCode
import AccessProfiler.Proofs.StraightRuns

/-!
# Runs that spare objects

The calls that count on static counters change no object, and leave the counters alone that say how many
instances a class has: only constructors count on those (`Callees.Spares`).
-/

namespace AccessProfiler

/-- The world runs the program with counting, with the sink of its settings. -/
structure World.RunsCounted
    (settings : Settings)
    (program : Program)
    (session : Session)
    (world : World) : Prop where
  completes : session.Completes settings program
  same : world.program = session.program
  sinks : world.sink = settings.sink
  accountable : program.Accountable settings

/-- Profiles are those of classes. -/
theorem World.RunsCounted.profiled
    {settings : Settings}
    {program : Program}
    {session : Session}
    {world : World}
    (runs : world.RunsCounted settings program session)
    (name : String)
    (profile : Profile)
    (known : session.profiles.get? name = some profile) :
    ∃ field, profile = .ofClass name field := by
  obtain ⟨field, -, same⟩ := runs.completes.furnishes.ledger.profiles name profile known
  exact ⟨field, same⟩

/-- No object changes, and no count of instances. -/
structure Machine.Spared (session : Session) (before after : Machine) : Prop where
  heap : after.heap = before.heap
  statics :
    ∀ {name : String} {field : FieldRef},
      session.counters.fields.get? (.instances name) = some field →
        after.statics.read field = before.statics.read field

namespace Machine.Spared

variable {session : Session} {before between after : Machine}

theorem refl (session : Session) (machine : Machine) : Spared session machine machine :=
  ⟨rfl, fun _ => rfl⟩

theorem trans (spared : Spared session before between) (further : Spared session between after) :
    Spared session before after :=
  ⟨further.heap.trans spared.heap, fun known => (further.statics known).trans (spared.statics known)⟩

end Machine.Spared

/-- Idle classes, calls of the sink and calls that count on static counters spare objects. -/
structure Callees.Spares (settings : Settings) (session : Session) (callees : Callees) : Prop where
  prepare :
    ∀ {className : String} {before after : Machine},
      session.program.Idle settings.counterClassName className →
        Ends (callees.prepare className) before () after → before.Spared session after
  report :
    ∀ {arguments : List Datum} {before after : Machine} {value : Datum},
      Ends (callees.invoke .static settings.sink.methodRef none arguments) before value after →
        before.Spared session after
  tally :
    ∀ {name : String} {arguments : List Datum} {before after : Machine} {value : Datum},
      session.program.offers settings.counterClassName name →
      Ends (callees.invoke .static ⟨settings.counterClassName, name, [], .void⟩ none arguments) before
        value after →
        before.Spared session after

/-- A counter that calls count on is not the count of instances of a class. -/
theorem Session.Completes.ne_of_isTallied
    {settings : Settings}
    {program : Program}
    {session : Session}
    (completes : session.Completes settings program)
    {owner : CounterOwner}
    {field instances : FieldRef}
    {name : String}
    (tallied : owner.IsTallied)
    (known : session.counters.fields.get? owner = some field)
    (counts : session.counters.fields.get? (.instances name) = some instances) :
    (instances.owner, instances.name) ≠ (field.owner, field.name) := by
  intro same
  obtain ⟨first, -⟩ := completes.furnishes.ledger.names owner field known
  obtain ⟨second, -⟩ := completes.furnishes.ledger.names _ instances counts
  rw [(Prod.mk.inj same).2, first] at second
  cases second
  exact tallied

namespace Run

variable
    {settings : Settings}
    {program : Program}
    {session : Session}
    {world : World}
    {callees : Callees}
    {logs : Logs}
    {actor : Activation}
    {arguments locals : List Datum}
    {before after : Machine}
    {value : Datum}

/-- A call that reports a number spares objects. -/
theorem Evaluates.report_spares
    (spares : callees.Spares settings session)
    {operands : List Operand}
    (evaluates :
      Evaluates world callees locals before value after
        (.call (.ofStatic settings.sink.methodRef operands))) :
    before.Spared session after := by
  obtain ⟨receiver, given, received, -, called⟩ := evaluates
  cases received
  exact spares.report called

/-- The body of a method that counts on a static counter spares objects. -/
theorem tallyBody_spares
    (runs : world.RunsCounted settings program session)
    (spares : callees.Spares settings session)
    {owner : CounterOwner}
    {field : FieldRef}
    (tallied : owner.IsTallied)
    (known : session.counters.fields.get? owner = some field)
    (label : String)
    (ends :
      Ends
        (instructions world callees actor.receiver arguments locals
          (Profile.staticIncrementorBody settings.sink label field).instructions)
        before value after) :
    before.Spared session after := by
  have declared : declaredField world.program field = field := by
    rw [runs.same]
    exact declaredField_of_declaredField? (runs.completes.declaredField?_counter known).1
  have idle :
      session.program.Idle settings.counterClassName (declaredField world.program field).owner := by
    rw [declared]
    exact .inl (runs.completes.tallies_of_known known).1
  obtain ⟨changed, last, passes, heap, statics⟩ := passes_of_ends (.within world 0) ends
  obtain ⟨_, reading, _, _, ⟨_, _, ⟨prepared, -⟩, ⟨-, -, rfl⟩, -⟩, passes, -⟩ := passes
  obtain ⟨_, adding, _, _, ⟨_, _, ⟨-, -, -, -, -, rfl⟩, ⟨-, -, rfl⟩, -⟩, passes, -⟩ := passes
  obtain ⟨_, writing, _, _, ⟨_, _, ⟨-, rfl⟩, ⟨ready, preparedAgain, -, rfl⟩, -⟩, passes, -⟩ := passes
  obtain ⟨_, reporting, _, _, ⟨_, evaluates, -⟩, ⟨-, rfl, -⟩, -⟩ := passes
  have first := spares.prepare idle prepared
  have second := spares.prepare idle preparedAgain
  have third := evaluates.report_spares spares
  constructor
  · rw [heap, third.heap]
    exact second.heap.trans first.heap
  · intro name instances counts
    rw [statics, third.statics counts]
    show (ready.statics.write (declaredField world.program field) _).read instances = _
    rw [declared, FieldTable.read_write_of_ne (runs.completes.ne_of_isTallied tallied known counts)]
    exact (second.statics counts).trans (first.statics counts)

/-- At every number of levels. -/
theorem within_sparesRuns (runs : world.RunsCounted settings program session) (levels : Nat) :
    (Callees.within world levels).Spares settings session := by
  induction levels with
  | zero =>
    exact ⟨fun _ ends => absurd ends Ends.not_throw, fun ends => absurd ends Ends.not_throw,
      fun _ ends => absurd ends Ends.not_throw⟩
  | succ levels hypothesis =>
    refine ⟨?_, ?_, ?_⟩
    · intro className before after idle ends
      rcases ends_prepareStep.1 ends with ⟨-, rfl⟩ | ⟨-, above, ready, initializes⟩
      · exact .refl session after
      · have absent : world.program.findMethod? className staticInitializerName [] = none := by
          rw [runs.same]
          exact runs.completes.findMethod?_initializer_of_idle idle
        rw [(initializes_of_none absent).1 initializes]
        cases found : world.program.superclass? className with
        | none =>
          rw [(initializesAbove_of_none found).1 ready]
          exact ⟨rfl, fun _ => rfl⟩
        | some superclass =>
          have idleAbove :=
            runs.completes.idle_superclass runs.accountable.root idle (runs.same ▸ found)
          have spared := hypothesis.prepare idleAbove ((initializesAbove_of_some found).1 ready)
          exact ⟨spared.heap, spared.statics⟩
    · intro arguments before after value ends
      rcases ends_invokeStep.1 ends with ⟨-, line, -, -, rfl⟩ | ⟨elsewhere, -⟩
      · exact ⟨rfl, fun _ => rfl⟩
      · refine absurd ?_ elsewhere
        rw [CallsSink, runs.sinks]
        exact ⟨rfl, rfl⟩
    · intro name arguments before after value offered ends
      rcases ends_invokeStep.1 ends with ⟨sinks, -⟩ | ⟨-, -, start, started, starts, reaches⟩
      · have same : settings.counterClassName = settings.sink.owner := runs.sinks ▸ sinks.1
        exact absurd same.symm runs.accountable.sinkApart
      · obtain ⟨prepared, rfl⟩ := starts
        obtain ⟨id, key, label, owner, field, tallied, known, target, there⟩ :=
          runs.completes.target?_tally offered
        have found : target? world.program settings.counterClassName
            ⟨settings.counterClassName, name, [], .void⟩ = some id := by
          rw [runs.same]
          exact target
        rw [found] at reaches
        obtain ⟨entered, inner, bodied, -, ran, rfl⟩ := ends_enter.1 reaches
        have body : world.program.body? id =
            some (Profile.staticIncrementorBody settings.sink label field) := by
          rw [runs.same]
          exact Option.bind_eq_some_iff.2 ⟨_, there, rfl⟩
        obtain rfl := Option.some.inj (bodied.symm.trans body)
        have ran :
            Ends
              (instructions world (.within world levels) (Activation.mk id none).receiver arguments
                ((Profile.staticIncrementorBody settings.sink label field).locals.map
                  fun declaration => .zero declaration.type)
                (Profile.staticIncrementorBody settings.sink label field).instructions)
              { started with depth := started.depth + 1 } value inner :=
          ran
        have spared := tallyBody_spares runs hypothesis tallied known label ran
        exact (hypothesis.prepare (.inl rfl) prepared).trans ⟨spared.heap, spared.statics⟩

end Run
end AccessProfiler
