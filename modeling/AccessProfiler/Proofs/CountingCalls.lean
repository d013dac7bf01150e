import AccessProfiler.Proofs.AccessCounts
import AccessProfiler.Proofs.SparingRuns

/-!
# Calls that count accesses

What a call does that counts an access: the first instrumented class on the superclass chain of the
class of the object has one count more, and nothing that is counted is done besides
(`Run.within_counts`).  The calls that count on static counters may stand anywhere between its
instructions; they leave every account in order (`Run.tallies_pass`).
-/

namespace AccessProfiler

/-- Calls from which something could follow for counts: those of methods that count an access are not
ordinary, but for calls of the sink. -/
def World.Ordinary
    (world : World)
    (_ : CallKind)
    (method : MethodRef)
    (_ : Option Datum) : Prop :=
  IsIncrementor method.name → Run.CallsSink world method

/-- Calls keep the account of accesses, those that count on static counters spare objects, and no call
changes the class of an object. -/
structure Callees.Accounts
    (settings : Settings)
    (program : Program)
    (session : Session)
    (world : World)
    (callees : Callees)
    (logs : Logs) : Prop where
  keeps : callees.Keeps (session.accessAccount settings program) world.Ordinary logs
  spares : logs.Spares settings.counterClassName settings.sink session.program
  grows :
    ∀ {kind method receiver arguments before value after},
      Ends (callees.invoke kind method receiver arguments) before value after →
        before.heap.Grows after.heap

/-- The act is one access of the kind to the object in the slot, and it is counted. -/
def Session.CountsAs
    (settings : Settings)
    (program : Program)
    (session : Session)
    (access : Access)
    (slot : Nat)
    (act : Act) : Prop :=
  ∀ kind place, session.countsFor settings program kind place act =
    (decide (access = kind) && decide (slot = place))

/-- A call that counts an access is made on an object, and afterwards the account is that of one access
more. -/
def Callees.Counts
    (settings : Settings)
    (program : Program)
    (session : Session)
    (callees : Callees)
    (logs : Logs) : Prop :=
  ∀ {access : Access} {owner : String} {receiver : Option Datum} {arguments : List Datum}
    {before after : Machine} {value : Datum} {past : List Act},
    (session.profiles.get? owner).isSome →
    (session.accessAccount settings program).On past before →
    Ends (callees.invoke .virtual ⟨owner, access.incrementor, [], .void⟩ receiver arguments) before
      value after →
    ∃ slot, receiver = some (.reference slot) ∧
      ∀ {act}, session.CountsAs settings program access slot act →
        (session.accessAccount settings program).On
          (past ++ logs.invoke .virtual ⟨owner, access.incrementor, [], .void⟩ receiver arguments
            before ++ [act])
          after

/-- An instruction of a list with calls in between: the calls in front of it, and what follows. -/
theorem Tallied.first
    {Tally : Instruction → Prop}
    {instruction : Instruction}
    {rest longer : List Instruction}
    (tallied : Tallied Tally (instruction :: rest) longer) :
    ∃ calls others, longer = calls ++ instruction :: others ∧ (∀ call ∈ calls, Tally call) ∧
      Tallied Tally rest others := by
  generalize whole : instruction :: rest = list at tallied
  induction tallied with
  | done => cases whole
  | @tally call list longer tallies later hypothesis =>
    obtain ⟨calls, others, rfl, all, related⟩ := hypothesis whole
    exact ⟨call :: calls, others, rfl, List.forall_mem_cons.2 ⟨tallies, all⟩, related⟩
  | keep later _ =>
    cases whole
    exact ⟨[], _, rfl, fun _ member => absurd member List.not_mem_nil, later⟩

/-- Where nothing is left, there are calls only. -/
theorem Tallied.nothing
    {Tally : Instruction → Prop}
    {longer : List Instruction}
    (tallied : Tallied Tally [] longer) :
    ∀ call ∈ longer, Tally call := by
  intro call member
  rcases tallied.mem_or_tally member with old | tallies
  · cases old
  · exact tallies

namespace Session

variable
    {settings : Settings}
    {program : Program}
    {session : Session}
    {access : Access}
    {slot : Nat}
    {act : Act}

/-- A call is no access. -/
theorem uncounted_of_isCall (calls : act.IsCall) : session.Uncounted settings program act := by
  cases act with
  | calls actor target receiver => exact uncounted_calls actor target receiver
  | accesses actor kind place field => exact calls.elim

end Session

namespace Run

variable
    {settings : Settings}
    {program : Program}
    {session : Session}
    {world : World}
    {callees : Callees}
    {logs : Logs}
    {actor : Activation}
    {arguments locals : List Datum}
    {before after : Machine}
    {value : Datum}
    {past : List Act}

/-- A method that counts on a static counter is none that counts an access. -/
theorem not_isIncrementor_of_offered
    (runs : world.RunsCounted settings program session)
    {name : String}
    (offered : session.program.offers settings.counterClassName name) :
    ¬ IsIncrementor name := by
  obtain ⟨id, key, label, owner, field, -, known, found, there⟩ := runs.completes.target?_tally offered
  obtain ⟨declared, declares, named, -⟩ := Program.target?_eq_some found
  obtain rfl := Option.some.inj (there.symm.trans declares)
  have named : (tallyMethod settings.sink key label field).name = name := named
  rw [← named]
  exact (tallyMethod_tallies (runs.completes.tallies_of_known known)).not_isIncrementor

/-- A call that reports a number is one of the sink. -/
theorem report_ordinary
    (runs : world.RunsCounted settings program session)
    (operands : List Operand) :
    (Call.ofStatic settings.sink.methodRef operands).Ordinary world.Ordinary := by
  intro receiver absent incrementing
  rw [CallsSink, runs.sinks]
  exact ⟨rfl, rfl⟩

/-- A call that counts on a static counter is ordinary. -/
theorem tally_harmless
    (runs : world.RunsCounted settings program session)
    {account : Account}
    {Free FreeStatic : FieldRef → Prop}
    {call : Instruction}
    (tallies : session.program.Tally settings.counterClassName call) :
    call.Harmless account world.Ordinary Free FreeStatic world.program actor := by
  obtain ⟨name, offered, rfl⟩ := tallies
  exact fun receiver absent incrementing =>
    absurd incrementing (not_isIncrementor_of_offered runs offered)

/-- Calls that count on static counters leave the account in order; all that they do is to call. -/
theorem tallies_pass
    (runs : world.RunsCounted settings program session)
    (accounts : callees.Accounts settings program session world logs)
    {calls others : List Instruction}
    (tallies : ∀ call ∈ calls, session.program.Tally settings.counterClassName call)
    (holds : (session.accessAccount settings program).On past before)
    (ends :
      Ends (instructions world callees actor.receiver arguments locals (calls ++ others)) before value
        after) :
    ∃ quiet between,
      Ends (instructions world callees actor.receiver arguments locals others) between value after ∧
        instructionsLog world callees logs actor arguments locals before (calls ++ others) =
          quiet ++ instructionsLog world callees logs actor arguments locals between others ∧
        (session.accessAccount settings program).On (past ++ quiet) between ∧
        (∀ act ∈ quiet, act.IsCall) ∧ before.heap.Grows between.heap := by
  induction calls generalizing before past with
  | nil => exact ⟨[], before, ends, rfl, holds.idle, fun _ member => absurd member List.not_mem_nil, .refl _⟩
  | cons call calls hypothesis =>
    obtain ⟨name, offered, rfl⟩ := tallies call List.mem_cons_self
    let method : MethodRef := ⟨settings.counterClassName, name, [], .void⟩
    obtain ⟨-, result, machine, evaluates, ends⟩ := ends_instructions_cons.1 ends
    obtain ⟨receiver, given, received, evaluated, called⟩ := evaluates
    cases received
    cases evaluated
    have start : (session.accessAccount settings program).On past (counted before) := holds
    have ordinary : world.Ordinary .static method none :=
      fun incrementing => absurd incrementing (not_isIncrementor_of_offered runs offered)
    have kept := accounts.keeps.invoke ordinary
      (Session.accessAccount_tolerates.calls actor (.ofStatic method []) none start) called
    obtain ⟨quiet, between, endsRest, logged, reached, calling, grows⟩ :=
      hypothesis (fun other member => tallies other (List.mem_cons_of_mem _ member)) kept ends
    refine ⟨.calls actor (.ofStatic method []) none ::
        logs.invoke .static method none [] (counted before) ++ quiet,
      between, endsRest, ?_, ?_, ?_, (accounts.grows called).trans grows⟩
    · have evaluates :
          Evaluates world callees locals (counted before) result machine
            (.call (.ofStatic method [])) :=
        ⟨none, [], rfl, rfl, called⟩
      rw [List.cons_append, instructionsLog_invoke evaluates, callLog_of_evaluated rfl rfl, logged,
        List.append_assoc]
      rfl
    · rw [List.cons_append, List.append_cons, ← List.append_assoc]
      exact reached
    · intro act member
      rcases List.mem_append.1 member with first | later
      · rcases List.mem_cons.1 first with rfl | inside
        · trivial
        · exact accounts.spares.tally [] (counted before) offered act inside
      · exact calling act later

/-- The calls in front of an instruction are made, and nothing is counted by that. -/
theorem first_continues
    (runs : world.RunsCounted settings program session)
    (accounts : callees.Accounts settings program session world logs)
    {instruction : Instruction}
    {rest longer : List Instruction}
    (tallied :
      Tallied (session.program.Tally settings.counterClassName) (instruction :: rest) longer)
    (holds : (session.accessAccount settings program).On past before)
    (ends :
      Ends (instructions world callees actor.receiver arguments locals longer) before value after) :
    ∃ others between,
      Tallied (session.program.Tally settings.counterClassName) rest others ∧
        Continues world callees actor.receiver arguments locals others (counted between) value after
          instruction ∧
        (session.accessAccount settings program).On past (counted between) ∧
        before.heap.Grows between.heap := by
  obtain ⟨calls, others, rfl, tallies, later⟩ := tallied.first
  obtain ⟨quiet, between, ends, -, reached, calling, grows⟩ :=
    tallies_pass runs accounts tallies holds ends
  have same : (session.accessAccount settings program).On past between :=
    (Session.HoldsCounts.append_iff fun act member =>
      Session.uncounted_of_isCall (calling act member)).1 reached
  exact ⟨others, between, later, (ends_instructions_cons.1 ends).2, same, grows⟩

/-- An access that is recorded is one to the declared field. -/
theorem exists_of_mem_accessLog
    {access : Access}
    {base : LocalId}
    {field : FieldRef}
    {act : Act}
    (member : act ∈ accessLog world actor access locals base field) :
    ∃ slot, locals[base.index]? = some (.reference slot) ∧
      act = .accesses actor access slot (declaredField world.program field) := by
  rw [accessLog] at member
  split at member
  · rename_i slot refers
    exact ⟨slot, refers, List.mem_singleton.1 member⟩
  · cases member

/-- Accesses to fields that counting added are not counted. -/
theorem accessLog_uncounted
    {access : Access}
    {base : LocalId}
    {field : FieldRef}
    (instruments : isInstrumentationName field.name = true) :
    ∀ act ∈ accessLog world actor access locals base field,
      session.Uncounted settings program act := by
  intro act member
  obtain ⟨slot, -, rfl⟩ := exists_of_mem_accessLog member
  refine Session.uncounted_of_isInstrumentationName ?_
  rw [declaredField_name]
  exact instruments

/-- Nothing that the body that counts an access does is counted itself. -/
theorem countingBody_uncounted
    (spares : logs.Spares settings.counterClassName settings.sink session.program)
    {owner : String}
    {access : Access}
    {list : List Instruction}
    (parts :
      ∀ instruction ∈ list,
        instruction ∈ (Profile.countingBody settings.sink owner access).instructions ∨
          session.program.Tally settings.counterClassName instruction)
    (locals : List Datum)
    (machine : Machine) :
    ∀ act ∈ instructionsLog world callees logs actor arguments locals machine list,
      session.Uncounted settings program act := by
  have counter : isInstrumentationName access.countField = true :=
    access.isInstrumentationName_countField
  have serial : isInstrumentationName serialField = true := by decide
  refine forall_mem_instructionsLog ?_ ?_ ?_ locals machine
  · intro place expression among locals machine
    rcases parts _ among with own | ⟨name, -, equal⟩
    · simp only [Profile.countingBody, Profile.incrementorBody, Profile.increment, Sink.report,
        List.mem_cons, List.not_mem_nil, or_false, Instruction.assign.injEq, reduceCtorEq,
        false_or] at own
      rcases own with ⟨-, rfl⟩ | ⟨-, rfl⟩ | ⟨-, rfl⟩ | ⟨-, rfl⟩
      · exact accessLog_uncounted counter
      · exact fun act member => absurd member List.not_mem_nil
      · exact fun act member => absurd member List.not_mem_nil
      · exact accessLog_uncounted serial
    · cases equal
  · intro place expression among locals machine
    rcases parts _ among with own | ⟨name, -, equal⟩
    · simp only [Profile.countingBody, Profile.incrementorBody, Profile.increment, Sink.report,
        List.mem_cons, List.not_mem_nil, or_false, Instruction.assign.injEq, reduceCtorEq,
        false_or] at own
      rcases own with ⟨rfl, -⟩ | ⟨rfl, -⟩ | ⟨rfl, -⟩ | ⟨rfl, -⟩
      · exact fun act member => absurd member List.not_mem_nil
      · exact fun act member => absurd member List.not_mem_nil
      · exact accessLog_uncounted counter
      · exact fun act member => absurd member List.not_mem_nil
    · cases equal
  · intro target among locals machine
    have reports (receiver : Option Datum) (given : List Datum) (machine : Machine)
        (absent : receiver.isSome = false) :
        ∀ act ∈ logs.invoke .static settings.sink.methodRef receiver given machine,
          session.Uncounted settings program act := by
      obtain rfl : receiver = none := by simpa using absent
      rw [spares.report]
      exact fun act member => absurd member List.not_mem_nil
    refine forall_mem_callLog (Session.uncounted_calls actor target) fun receiver given absent => ?_
    rcases parts _ among with own | ⟨name, offered, equal⟩
    · simp only [Profile.countingBody, Profile.incrementorBody, Profile.increment, Sink.report,
        List.mem_cons, List.not_mem_nil, or_false, Instruction.invoke.injEq, reduceCtorEq,
        false_or] at own
      rcases own with rfl | rfl
      · exact reports receiver given machine absent
      · exact reports receiver given machine absent
    · cases equal
      obtain rfl : receiver = none := by simpa [Call.ofStatic] using absent
      intro act member
      exact Session.uncounted_of_isCall (spares.tally given machine offered act member)

/-- One is added to a number, and to nothing else. -/
theorem arithmetic?_add_one
    {number sum : Datum}
    (adds : arithmetic? .add number (.int 1) = some sum) :
    ∃ count, number = .int count ∧ sum = .int (count + 1) := by
  cases number with
  | int count => exact ⟨count, rfl, (Option.some.inj adds).symm⟩
  | _ => cases adds

/-- The body that counts an access adds one to the count of its receiver, if its class is the first that
counts. -/
theorem countingBody_counts
    (runs : world.RunsCounted settings program session)
    (accounts : callees.Accounts settings program session world logs)
    {owner : String}
    {profile : Profile}
    (known : session.profiles.get? owner = some profile)
    {access : Access}
    {current : Body}
    (tallied :
      (Profile.countingBody settings.sink owner access).Tallied
        (session.program.Tally settings.counterClassName) current)
    (holds : (session.accessAccount settings program).On past before)
    (ends :
      Ends (instructions world callees actor.receiver arguments
        (current.locals.map fun declaration => .zero declaration.type) current.instructions)
        before value after) :
    ∃ slot, actor.receiver = some (.reference slot) ∧
      ∀ {act object}, before.heap.objects[slot]? = some object →
        (∀ className counting, object.className? = some className →
          session.countingClass? className = some counting → owner = counting) →
        session.CountsAs settings program access slot act →
        (session.accessAccount settings program).On (past ++ [act]) after := by
  have zeros :
      (current.locals.map fun declaration => Datum.zero declaration.type) =
        [.zero (.object owner), .zero .int, .zero .int] := by
    rw [tallied.locals]
    rfl
  rw [zeros] at ends
  have counter :
      declaredField world.program (.ofInstance owner access.countField .int) =
        .ofInstance owner access.countField .int := by
    rw [runs.same]
    exact declaredField_of_declaredField? (runs.completes.declaredField?_profile
      runs.accountable.apart runs.accountable.wellNamed known access.isInstrumentationName_countField)
  obtain ⟨rest, started, tallied, ⟨given, bound, -, ends⟩, holds, grows⟩ :=
    first_continues runs accounts tallied.instructions holds ends
  -- the count is read
  obtain ⟨rest, reading, tallied, ⟨number, _, _, _, ⟨slot, refers, read, rfl⟩, ⟨-, rfl, rfl⟩, ends⟩,
    holdsReading, further⟩ := first_continues runs accounts tallied holds ends
  obtain rfl : given = .reference slot := Option.some.inj refers
  have growsReading := grows.trans further
  -- one is added
  obtain ⟨rest, adding, tallied, ⟨sum, _, _, _, ⟨first, second, left, right, adds, rfl⟩,
    ⟨-, rfl, rfl⟩, ends⟩, holds, further⟩ := first_continues runs accounts tallied holdsReading ends
  obtain rfl : number = first := Option.some.inj left
  obtain rfl : .int 1 = second := Option.some.inj right
  obtain ⟨count, rfl, rfl⟩ := arithmetic?_add_one adds
  have grows := growsReading.trans further
  -- the count is written
  obtain ⟨rest, writing, tallied, ⟨written, _, _, stored, ⟨assigned, rfl⟩,
    ⟨place, heap, refersAgain, writes, rfl, rfl⟩, ends⟩, holds, further⟩ :=
      first_continues runs accounts tallied holds ends
  obtain rfl : .int (count + 1) = written := Option.some.inj assigned
  obtain rfl : slot = place := Datum.reference.inj (Option.some.inj refersAgain)
  have grows := grows.trans further
  rw [counter] at read writes
  obtain ⟨className, fields, located, rfl⟩ := Heap.writeField_eq_ok.1 writes
  refine ⟨slot, bound, fun {act object} present first counts => ?_⟩
  have ofClass : object.className? = some className := by
    obtain ⟨grown, locatedGrown, same⟩ := grows slot object present
    rw [← same, Option.some.inj (locatedGrown.symm.trans located)]
    rfl
  have number (counting : String) (counted : session.countingClass? className = some counting) :
      owner = counting ∧
        count = .ofNat (session.accessCount settings program past access slot) := by
    obtain rfl := first className counting ofClass counted
    refine ⟨rfl, ?_⟩
    obtain ⟨name, values, locatedReading, now⟩ := Heap.readField_eq_ok.1 read
    obtain ⟨grown, locatedGrown, same⟩ := growsReading slot object present
    obtain rfl := Option.some.inj (locatedGrown.symm.trans locatedReading)
    obtain rfl : name = className := Option.some.inj (same.trans ofClass)
    have held := holdsReading.held locatedReading counted access owner
    rw [if_pos rfl, ← now] at held
    exact Datum.int.inj held
  have holds :
      (session.accessAccount settings program).On (past ++ [act])
        { counted writing with
          heap :=
            (counted writing).heap.replace slot
              (.instanceOf className
                (fields.write (.ofInstance owner access.countField .int) (.int (count + 1)))) } :=
    Session.HoldsCounts.count holds located number counts
  have parts :
      ∀ instruction ∈ rest,
        instruction ∈ (Profile.countingBody settings.sink owner access).instructions ∨
          session.program.Tally settings.counterClassName instruction :=
    fun instruction member => (tallied.mem_or_tally member).imp_left fun own =>
      List.mem_of_mem_drop (i := 4) own
  have kept := instructions_keeps Session.accessAccount_tolerates accounts.keeps ?_ holds ends
  · exact (Session.HoldsCounts.append_iff (countingBody_uncounted accounts.spares parts _ _)).1 kept
  · intro instruction member
    rcases tallied.mem_or_tally member with own | tallies
    · simp only [List.mem_cons, List.not_mem_nil, or_false] at own
      rcases own with rfl | rfl | rfl | rfl
      · refine ⟨trivial, fun place => Session.Uncounted.ignored ?_⟩
        refine Session.uncounted_of_isInstrumentationName ?_
        rw [declaredField_name]
        show isInstrumentationName serialField = true
        decide
      · exact report_ordinary runs _
      · exact report_ordinary runs _
      · trivial
    · exact tally_harmless runs tallies

/-- A call that counts an access reaches the body of the first class that counts; what is done during
it is not counted, and the account is that of one access more. -/
theorem invokeStep_counts
    (runs : world.RunsCounted settings program session)
    (accounts : callees.Accounts settings program session world logs)
    {access : Access}
    {owner : String}
    {receiver : Option Datum}
    (profiled : (session.profiles.get? owner).isSome)
    (holds : (session.accessAccount settings program).On past before)
    (ends :
      Ends
        (invokeStep world callees .virtual ⟨owner, access.incrementor, [], .void⟩ receiver arguments)
        before value after) :
    ∃ slot, receiver = some (.reference slot) ∧
      ∀ {act}, session.CountsAs settings program access slot act →
        (session.accessAccount settings program).On
          (past ++ invokeLog world callees logs .virtual ⟨owner, access.incrementor, [], .void⟩
            receiver arguments before ++ [act])
          after := by
  obtain ⟨profile, known⟩ := Option.isSome_iff_exists.1 profiled
  have elsewhere : ¬ CallsSink world ⟨owner, access.incrementor, [], .void⟩ := by
    rintro ⟨same, -⟩
    have same : owner = settings.sink.owner := runs.sinks ▸ same
    obtain ⟨declaration, found, -⟩ :=
      Session.class?_of_isTransformableClass (runs.completes.furnishes.profiled owner profile known)
    rw [same, runs.accountable.sinkFree] at found
    cases found
  rcases ends_invokeStep.1 ends with ⟨calls, -⟩ | ⟨-, somewhere, start, started, starts, reaches⟩
  · exact absurd calls elsewhere
  obtain ⟨rfl, ⟨static, -⟩ | ⟨-, rfl⟩⟩ := starts.cases
  · cases static
  have begins := starts
  cases found : target? world.program
      (startClass started.heap ⟨owner, access.incrementor, [], .void⟩ .virtual receiver)
      ⟨owner, access.incrementor, [], .void⟩ with
  | none =>
    rw [found] at reaches
    have named : access.incrementor = constructorName := reaches.1
    cases access <;> exact absurd named (by decide)
  | some id =>
    rw [found] at reaches
    obtain ⟨current, inner, bodied, -, ran, rfl⟩ := ends_enter.1 reaches
    rw [runs.same] at found bodied
    obtain ⟨⟨field, knownHere⟩, ⟨other, bodiedOther, tallied⟩, first⟩ :=
      runs.completes.target?_incrementor runs.accountable.apart found
    obtain rfl := Option.some.inj (bodied.symm.trans bodiedOther)
    have ran :
        Ends
          (instructions world callees (Activation.mk id receiver).receiver arguments
            (current.locals.map fun declaration => .zero declaration.type) current.instructions)
          { started with depth := started.depth + 1 } value inner :=
      ran
    obtain ⟨slot, bound, counts⟩ :=
      countingBody_counts runs accounts knownHere tallied
        (show (session.accessAccount settings program).On past
          { started with depth := started.depth + 1 } from holds) ran
    obtain rfl : receiver = some (.reference slot) := bound
    refine ⟨slot, rfl, fun {act} counted => ?_⟩
    obtain ⟨runtime, asked, -⟩ := starts
    obtain ⟨object, located, -⟩ := Heap.className?_eq_ok.1 asked
    have reached := counts located
      (fun className counting ofClass counted => first counting (by
        rw [startClass, located, Option.bind_some, ofClass]
        exact counted)) counted
    have logged :
        invokeLog world callees logs .virtual ⟨owner, access.incrementor, [], .void⟩
            (some (.reference slot)) arguments started =
          instructionsLog world callees logs ⟨id, some (.reference slot)⟩ arguments
            (current.locals.map fun declaration => .zero declaration.type)
            { started with depth := started.depth + 1 } current.instructions := by
      have reaches :
          target? world.program
              (startClass started.heap ⟨owner, access.incrementor, [], .void⟩ .virtual
                (some (.reference slot)))
              ⟨owner, access.incrementor, [], .void⟩ = some id := by
        rw [runs.same]
        exact found
      have bodied : world.program.body? id = some current := by
        rw [runs.same]
        exact bodied
      rw [invokeLog_of_starts elsewhere begins, reaches, Option.elim_some, enterLog_of_body? bodied]
      rfl
    rw [logged]
    refine (Session.HoldsCounts.insert_iff ?_).2 reached
    exact countingBody_uncounted accounts.spares (fun _ member => tallied.instructions.mem_or_tally member) _ _

end Run
end AccessProfiler
