import AccessProfiler.Proofs.CountedMembers

/-!
# Code that spares objects

The calls that count on static counters access no object, nor do the calls of the sink, nor does the
initialization of the class of the counters: all that is recorded of them are calls (`Logs.Spares`).
This is so on every machine and at every number of levels, whether the calls end or not.
-/

namespace AccessProfiler

/-- A call is made, no object is accessed. -/
def Act.IsCall : Act → Prop
  | .calls _ _ _ => True
  | .accesses _ _ _ _ => False

namespace Run

theorem exists_of_mem_afterwards
    {Value : Type}
    {run : Run Value}
    {before : Machine}
    {next : Value → Machine → List Act}
    {act : Act}
    (member : act ∈ afterwards run before next) :
    ∃ value after, Ends run before value after ∧ act ∈ next value after := by
  rw [afterwards] at member
  split at member
  · rename_i value after computed
    exact ⟨value, after, computed, member⟩
  · cases member

theorem afterwards_eq_nil
    {Value : Type}
    {run : Run Value}
    {before : Machine}
    {next : Value → Machine → List Act}
    (nothing : ∀ value after, Ends run before value after → next value after = []) :
    afterwards run before next = [] := by
  refine List.eq_nil_iff_forall_not_mem.2 fun act member => ?_
  obtain ⟨value, after, ends, among⟩ := exists_of_mem_afterwards member
  rw [nothing value after ends] at among
  cases among

section Instructions

variable
    {world : World}
    {callees : Callees}
    {logs : Logs}
    {actor : Activation}
    {arguments : List Datum}

/-- What is done in a body is done by one of its instructions. -/
theorem forall_mem_instructionsLog
    {Allowed : Act → Prop}
    {list : List Instruction}
    (values :
      ∀ place expression, .assign place expression ∈ list → ∀ locals machine,
        ∀ act ∈ valueLog world logs actor locals machine expression, Allowed act)
    (places :
      ∀ place expression, .assign place expression ∈ list → ∀ locals machine,
        ∀ act ∈ placeLog world logs actor locals machine place, Allowed act)
    (calls :
      ∀ target, .invoke target ∈ list → ∀ locals machine,
        ∀ act ∈ callLog logs actor locals target machine, Allowed act)
    (locals : List Datum)
    (machine : Machine) :
    ∀ act ∈ instructionsLog world callees logs actor arguments locals machine list,
      Allowed act := by
  induction list generalizing locals machine with
  | nil => exact fun _ member => absurd member List.not_mem_nil
  | cons instruction rest hypothesis =>
    have later := hypothesis
      (fun place expression member => values place expression (List.mem_cons_of_mem _ member))
      (fun place expression member => places place expression (List.mem_cons_of_mem _ member))
      (fun target member => calls target (List.mem_cons_of_mem _ member))
    intro act member
    cases instruction with
    | bind target source =>
      rw [instructionsLog] at member
      split at member
      · exact later _ _ act member
      · cases member
    | assign place expression =>
      rw [instructionsLog] at member
      rcases List.mem_append.1 member with first | afterValue
      · exact values place expression List.mem_cons_self _ _ act first
      · obtain ⟨value, between, -, second⟩ := exists_of_mem_afterwards afterValue
        rcases List.mem_append.1 second with storing | afterStore
        · exact places place expression List.mem_cons_self _ _ act storing
        · obtain ⟨changed, stored, -, rest⟩ := exists_of_mem_afterwards afterStore
          exact later _ _ act rest
    | invoke target =>
      rw [instructionsLog] at member
      rcases List.mem_append.1 member with first | afterCall
      · exact calls target List.mem_cons_self _ _ act first
      · obtain ⟨value, after, -, rest⟩ := exists_of_mem_afterwards afterCall
        exact later _ _ act rest
    | «return» operand => cases member

/-- A call does what is done during it. -/
theorem forall_mem_callLog
    {Allowed : Act → Prop}
    {target : Call}
    {locals : List Datum}
    {machine : Machine}
    (called : ∀ receiver, Allowed (.calls actor target receiver))
    (during :
      ∀ receiver arguments, receiver.isSome = target.receiver.isSome →
        ∀ act ∈ logs.invoke target.kind target.method receiver arguments machine, Allowed act) :
    ∀ act ∈ callLog logs actor locals target machine, Allowed act := by
  intro act member
  rw [callLog] at member
  split at member
  · rename_i receiver arguments received _
    rcases List.mem_cons.1 member with rfl | inside
    · exact called receiver
    · refine during receiver arguments ?_ act inside
      cases given : target.receiver with
      | none =>
        rw [given] at received
        cases received
        rfl
      | some id =>
        rw [given] at received
        obtain ⟨datum, -, rfl⟩ := Option.map_eq_some_iff.1 received
        rfl
  · cases member

end Instructions
end Run

/-- What counting adds has names of its own, each class is registered under its name, and the classes
that machines treat apart are not registered. -/
structure Program.Accountable (settings : Settings) (program : Program) : Prop where
  root : program.class? objectClass = none
  sinkFree : program.class? settings.sink.owner = none
  sinkApart : settings.sink.owner ≠ settings.counterClassName
  apart : program.NamesApart settings.counterClassName
  wellNamed : program.WellNamed

instance (settings : Settings) (program : Program) : Decidable (program.Accountable settings) :=
  decidable_of_iff
    (program.class? objectClass = none ∧ program.class? settings.sink.owner = none ∧
      settings.sink.owner ≠ settings.counterClassName ∧
      program.NamesApart settings.counterClassName ∧ program.WellNamed)
    ⟨fun ⟨root, sinkFree, sinkApart, apart, wellNamed⟩ =>
        ⟨root, sinkFree, sinkApart, apart, wellNamed⟩,
      fun accountable =>
        ⟨accountable.root, accountable.sinkFree, accountable.sinkApart, accountable.apart,
          accountable.wellNamed⟩⟩

/-- The class of the counters, or a class that is not registered: none has an initializer. -/
def Program.Idle (counter : String) (program : Program) (className : String) : Prop :=
  className = counter ∨ program.class? className = none

/-- Nothing is done to initialize an idle class or by a call of the sink, and calls that count on static
counters make calls only. -/
structure Logs.Spares
    (counter : String)
    (sink : Sink)
    (program : Program)
    (logs : Logs) : Prop where
  prepare :
    ∀ {className : String} (machine : Machine), program.Idle counter className →
      logs.prepare className machine = []
  report :
    ∀ (arguments : List Datum) (machine : Machine),
      logs.invoke .static sink.methodRef none arguments machine = []
  tally :
    ∀ {name : String} (arguments : List Datum) (machine : Machine), program.offers counter name →
      ∀ act ∈ logs.invoke .static ⟨counter, name, [], .void⟩ none arguments machine, act.IsCall

/-- Nothing is found from a class that is not registered. -/
theorem Program.target?_of_unregistered
    {program : Program}
    {method : MethodRef}
    (free : program.class? method.owner = none) :
    Run.target? program method.owner method = none := by
  have chain : program.chain method.owner = [method.owner] := by
    rw [Program.chain, chainLimit, chainUpTo, superclass?_eq_none free]
  have resolved :
      (program.resolveMethod? method.owner method.name method.parameters).map Prod.fst = none := by
    have noInterfaces : program.interfaces method.owner = [] := by rw [interfaces, free]
    have above : program.interfacesAbove ([method.owner].flatMap program.interfaces) = [] := by
      rw [List.flatMap_singleton, noInterfaces]
      rfl
    rw [map_fst_resolveMethod?, chain, above, List.findSome?_cons, findMethod?_eq_none free]
    rfl
  rw [target?_eq_bind, resolved]
  rfl

/-- A method that counts on a static counter makes calls only. -/
theorem Run.tallies_of_spares
    {world : World}
    {callees : Callees}
    {logs : Logs}
    {actor : Activation}
    {arguments : List Datum}
    {sink : Sink}
    {field : FieldRef}
    (prepare :
      ∀ machine, logs.prepare (declaredField world.program field).owner machine = [])
    (report :
      ∀ arguments machine, logs.invoke .static sink.methodRef none arguments machine = [])
    (label : String)
    (locals : List Datum)
    (machine : Machine) :
    ∀ act ∈ instructionsLog world callees logs actor arguments locals machine
      (Profile.staticIncrementorBody sink label field).instructions,
      act.IsCall := by
  refine forall_mem_instructionsLog ?_ ?_ ?_ locals machine
  · intro place expression among locals machine act member
    simp only [Profile.staticIncrementorBody, Profile.increment, Sink.report, List.mem_cons,
      List.not_mem_nil, or_false, Instruction.assign.injEq, reduceCtorEq] at among
    rcases among with ⟨-, rfl⟩ | ⟨-, rfl⟩ | ⟨-, rfl⟩
    · rw [valueLog, prepare] at member
      cases member
    · cases member
    · cases member
  · intro place expression among locals machine act member
    simp only [Profile.staticIncrementorBody, Profile.increment, Sink.report, List.mem_cons,
      List.not_mem_nil, or_false, Instruction.assign.injEq, reduceCtorEq] at among
    rcases among with ⟨rfl, -⟩ | ⟨rfl, -⟩ | ⟨rfl, -⟩
    · cases member
    · cases member
    · rw [placeLog, prepare] at member
      cases member
  · intro target among locals machine
    simp only [Profile.staticIncrementorBody, Profile.increment, Sink.report, List.mem_cons,
      List.not_mem_nil, or_false, Instruction.invoke.injEq, reduceCtorEq, false_or] at among
    subst among
    refine forall_mem_callLog (fun _ => trivial) fun receiver arguments absent act member => ?_
    obtain rfl : receiver = none := Option.isSome_eq_false_iff.1 absent |> Option.isNone_iff_eq_none.1
    have nothing := report arguments machine
    have member : act ∈ logs.invoke .static sink.methodRef none arguments machine := member
    rw [nothing] at member
    cases member

namespace Session.Completes

variable
    {settings : Settings}
    {program : Program}
    {session : Session}
    (completes : session.Completes settings program)
include completes

/-- The class of the counters has no initializer. -/
theorem findMethod?_initializer_of_idle
    {className : String}
    (idle : session.program.Idle settings.counterClassName className) :
    session.program.findMethod? className staticInitializerName [] = none := by
  rcases idle with rfl | free
  · cases found : session.program.findMethod? settings.counterClassName staticInitializerName [] with
    | none => rfl
    | some id =>
      obtain ⟨same, current, there, named, -⟩ := Program.findMethod?_eq_some found
      rcases completes.method?_cases there with ⟨-, key, label, owner, field, -, known, rfl⟩ | ⟨differs, -⟩
      · exact absurd named (tallyMethod_tallies (completes.tallies_of_known known)).name_ne
      · exact absurd same differs
  · exact Program.findMethod?_eq_none free

/-- A class above an idle class is idle. -/
theorem idle_superclass
    (root : program.class? objectClass = none)
    {className superclass : String}
    (idle : session.program.Idle settings.counterClassName className)
    (above : session.program.superclass? className = some superclass) :
    session.program.Idle settings.counterClassName superclass := by
  rcases idle with rfl | free
  · obtain ⟨declaration, found, same⟩ := Option.bind_eq_some_iff.1 above
    rw [(completes.furnishes.ledger.holds declaration found).superclass_eq] at same
    cases same
    by_cases here : objectClass = settings.counterClassName
    · exact .inl here
    · exact .inr (completes.furnishes.furnished.class?_eq_none here root)
  · rw [Program.superclass?_eq_none free] at above
    cases above

/-- A call of a method that counts on a static counter leads there. -/
theorem target?_tally
    {name : String}
    (offered : session.program.offers settings.counterClassName name) :
    ∃ id key label owner field, owner.IsTallied ∧
      session.counters.fields.get? owner = some field ∧
      Run.target? session.program settings.counterClassName
          ⟨settings.counterClassName, name, [], .void⟩ = some id ∧
      session.program.method? id = some (tallyMethod settings.sink key label field) := by
  obtain ⟨id, found⟩ := Program.findMethod?_isSome_of_offers offered
  obtain ⟨same, current, there, -⟩ := Program.findMethod?_eq_some found
  rcases completes.method?_cases there with ⟨-, key, label, owner, field, tallied, known, rfl⟩ | ⟨differs, -⟩
  · refine ⟨id, key, label, owner, field, tallied, known, ?_, there⟩
    rw [Program.target?_eq_bind, Program.resolveMethod?_of_findMethod? found]
    exact found
  · exact absurd same differs

variable
    {world : World}
    (same : world.program = session.program)
    (accountable : program.Accountable settings)
include same accountable

/-- At every number of levels, what counts on static counters spares objects. -/
theorem within_spares (levels : Nat) :
    (Logs.within world levels).Spares settings.counterClassName settings.sink session.program := by
  induction levels with
  | zero => exact ⟨fun _ _ => rfl, fun _ _ => rfl, fun _ _ _ _ member => absurd member List.not_mem_nil⟩
  | succ levels hypothesis =>
    have unregistered : session.program.class? settings.sink.owner = none :=
      completes.furnishes.furnished.class?_eq_none accountable.sinkApart accountable.sinkFree
    refine ⟨?_, ?_, ?_⟩
    · intro className machine idle
      have bare (other : Machine) :
          Run.initializerLog world (.within world levels) (.within world levels) className other =
            [] := by
        rw [Run.initializerLog, same, completes.findMethod?_initializer_of_idle idle]
      show Run.prepareLog world _ _ className machine = []
      rw [Run.prepareLog]
      split
      · rfl
      · cases above : world.program.superclass? className with
        | none => exact bare _
        | some superclass =>
          dsimp only
          rw [hypothesis.prepare _ (completes.idle_superclass accountable.root idle (same ▸ above)),
            List.nil_append]
          exact Run.afterwards_eq_nil fun _ above _ => bare above
    · intro arguments machine
      show Run.invokeLog world _ _ .static settings.sink.methodRef none arguments machine = []
      rw [Run.invokeLog]
      split
      · rfl
      · have quiet : Run.startLog (.within world levels) .static settings.sink.methodRef machine = [] :=
          hypothesis.prepare machine (.inr unregistered)
        rw [quiet, List.nil_append]
        refine Run.afterwards_eq_nil fun start started ends => ?_
        obtain ⟨-, rfl⟩ := Run.ends_searchStart.1 ends
        rw [same, Program.target?_of_unregistered unregistered]
    · intro name arguments machine offered act member
      have inside :
          act ∈ Run.invokeLog world (.within world levels) (.within world levels) .static
            ⟨settings.counterClassName, name, [], .void⟩ none arguments machine :=
        member
      rw [Run.invokeLog] at inside
      split at inside
      · cases inside
      · have quiet :
            Run.startLog (.within world levels) .static
              ⟨settings.counterClassName, name, [], .void⟩ machine = [] :=
          hypothesis.prepare machine (.inl rfl)
        rw [quiet, List.nil_append] at inside
        obtain ⟨start, started, ends, entered⟩ := Run.exists_of_mem_afterwards inside
        obtain ⟨-, rfl⟩ := Run.ends_searchStart.1 ends
        obtain ⟨id, key, label, owner, field, -, known, reaches, there⟩ := completes.target?_tally offered
        rw [same, reaches] at entered
        have body : world.program.body? id =
            some (Profile.staticIncrementorBody settings.sink label field) := by
          rw [same]
          exact Option.bind_eq_some_iff.2 ⟨_, there, rfl⟩
        dsimp only at entered
        rw [Run.enterLog_of_body? body] at entered
        have owned : (Run.declaredField world.program field).owner = settings.counterClassName := by
          rw [same, Run.declaredField_of_declaredField? (completes.declaredField?_counter known).1]
          exact (completes.tallies_of_known known).1
        exact Run.tallies_of_spares (fun other => hypothesis.prepare other (.inl owned)) hypothesis.report
          label _ _ act entered

end Session.Completes
end AccessProfiler
