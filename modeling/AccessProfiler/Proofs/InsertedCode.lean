import AccessProfiler.Proofs.Completion
import AccessProfiler.Proofs.Likeness
import AccessProfiler.Proofs.Lookups

/-!
# Running inserted code

Inserted code ends normally wherever it stands, and afterwards the machine that runs it differs from
the one without counting in counts only, as it did before.

A run with counting is described from its end: `Carries` says that from where the machine stands the
instructions end as the run without counting does.  There is one lemma for each form of inserted
instruction, and each says that the run carries on if it does after that instruction.  What these
lemmas need of calls and initializations is collected in `Callees.Serves`, for the code of an inserted
body, and in `Callees.Announces`, for a call of such a body; two and three levels are enough.
-/

namespace AccessProfiler

/-- A program with a sink, without limits. -/
def World.unlimited (program : Program) (sink : Sink) : World :=
  ⟨program, sink, .unlimited⟩

/-- The class of the counters can be initialized, and the sink prints. -/
structure Callees.Serves (counter : String) (sink : Sink) (callees : Callees) : Prop where
  prepare :
    ∀ {machine other : Machine}, machine.Matches counter other →
      ∃ prepared, Ends (callees.prepare counter) other () prepared ∧
        machine.Matches counter prepared
  report :
    ∀ {machine other : Machine} (label : String) (number : Int32), machine.Matches counter other →
      ∃ reported,
        Ends (callees.invoke .static sink.methodRef none [.str label, .int number]) other .void
          reported ∧
        machine.Matches counter reported

/-- The calls that are inserted in front of instructions end. -/
structure Callees.Announces (counter : String) (offers : Offers) (callees : Callees) : Prop where
  tally :
    ∀ {machine other : Machine} {name : String}, offers counter name →
      machine.Matches counter other →
      ∃ tallied,
        Ends (callees.invoke .static ⟨counter, name, [], .void⟩ none []) other .void tallied ∧
        machine.Matches counter tallied
  count :
    ∀ {machine other : Machine} {kind : CallKind} {owner name className : String} {slot : Nat}
      {fields : FieldTable},
      kind = .virtual ∨ kind = .interface → IsIncrementor name → offers owner name →
      machine.heap.objects[slot]? = some (.instanceOf className fields) →
      machine.Matches counter other →
      ∃ counted,
        Ends (callees.invoke kind ⟨owner, name, [], .void⟩ (some (.reference slot)) []) other .void
          counted ∧
        machine.Matches counter counted

namespace Run

/-- From where the machine with counting stands, the instructions end with the value, and the machine
then differs in counts only from one that has come to its end. -/
def Carries
    (world : World)
    (callees : Callees)
    (counter : String)
    (receiver : Option Datum)
    (arguments : List Datum)
    (value : Datum)
    (after : Machine)
    (locals : List Datum)
    (other : Machine)
    (list : List Instruction) : Prop :=
  ∃ otherAfter, Ends (instructions world callees receiver arguments locals list) other value otherAfter ∧
    after.Matches counter otherAfter

section Steps

variable
    {counter : String}
    {sink : Sink}
    {program : Program}
    {callees : Callees}
    {receiver : Option Datum}
    {arguments locals : List Datum}
    {value : Datum}
    {machine after other : Machine}
    {rest : List Instruction}

theorem Carries.return_none (relates : machine.Matches counter other) :
    Carries (.unlimited program sink) callees counter receiver arguments .void machine locals other
      (.return none :: rest) :=
  ⟨counted other, ends_instructions_cons.2 ⟨.inl rfl, rfl, rfl⟩, relates.counted⟩

theorem Carries.bind
    {target : LocalId}
    {source : Binding}
    (given : Datum)
    (passed : passed? receiver arguments source = some given)
    (declared : target.index < locals.length)
    (relates : machine.Matches counter other)
    (carries :
      ∀ later, machine.Matches counter later →
        Carries (.unlimited program sink) callees counter receiver arguments value after
          (locals.set target.index given) later rest) :
    Carries (.unlimited program sink) callees counter receiver arguments value after locals other
      (.bind target source :: rest) := by
  obtain ⟨otherAfter, ends, related⟩ := carries (counted other) relates.counted
  exact ⟨otherAfter, ends_instructions_cons.2 ⟨.inl rfl, given, passed, declared, ends⟩, related⟩

theorem Carries.assign
    {place expression : Expression}
    {computed : Datum}
    {between changedTo : Machine}
    {changed : List Datum}
    (evaluates :
      Evaluates (.unlimited program sink) callees locals (counted other) computed between expression)
    (stores :
      Stores (.unlimited program sink) callees locals computed between changed changedTo place)
    (carries :
      Carries (.unlimited program sink) callees counter receiver arguments value after changed
        changedTo rest) :
    Carries (.unlimited program sink) callees counter receiver arguments value after locals other
      (.assign place expression :: rest) := by
  obtain ⟨otherAfter, ends, related⟩ := carries
  exact ⟨otherAfter,
    ends_instructions_cons.2
      ⟨.inl rfl, computed, between, changed, changedTo, evaluates, stores, ends⟩,
    related⟩

theorem Carries.invoke
    {target : Call}
    {result : Datum}
    {between : Machine}
    (evaluates :
      Evaluates (.unlimited program sink) callees locals (counted other) result between (.call target))
    (carries :
      Carries (.unlimited program sink) callees counter receiver arguments value after locals between
        rest) :
    Carries (.unlimited program sink) callees counter receiver arguments value after locals other
      (.invoke target :: rest) := by
  obtain ⟨otherAfter, ends, related⟩ := carries
  exact ⟨otherAfter, ends_instructions_cons.2 ⟨.inl rfl, result, between, evaluates, ends⟩, related⟩

/-! ## The instructions of inserted bodies -/

/-- Adding one to a local that holds an integer. -/
theorem Carries.increment
    {count : LocalId}
    (number : Int32)
    (held : locals[count.index]? = some (.int number))
    (relates : machine.Matches counter other)
    (carries :
      ∀ later, machine.Matches counter later →
        Carries (.unlimited program sink) callees counter receiver arguments value after
          (locals.set count.index (.int (number + 1))) later rest) :
    Carries (.unlimited program sink) callees counter receiver arguments value after locals other
      (Profile.increment count :: rest) := by
  have declared := (List.getElem?_eq_some_iff.1 held).1
  have counts := carries (counted other) relates.counted
  exact .assign ⟨.int number, .int 1, held, rfl, rfl, rfl⟩ ⟨declared, rfl, rfl⟩ counts

section Sinks

variable (serves : callees.Serves counter sink)
include serves

theorem Carries.report
    {label : String}
    {held : LocalId}
    (number : Int32)
    (holds : locals[held.index]? = some (.int number))
    (relates : machine.Matches counter other)
    (carries :
      ∀ later, machine.Matches counter later →
        Carries (.unlimited program sink) callees counter receiver arguments value after locals later
          rest) :
    Carries (.unlimited program sink) callees counter receiver arguments value after locals other
      (sink.report label (.variable held) :: rest) := by
  obtain ⟨reported, ends, related⟩ :=
    serves.report label number relates.counted
  have passed :
      [Operand.literal (.str label), .variable held].mapM (Operand.value? locals) =
        some [.str label, .int number] := by
    simp [Operand.value?, Datum.ofConstant, holds]
  exact .invoke ⟨none, [.str label, .int number], rfl, passed, ends⟩ (carries reported related)

section Counts

variable
    {original : Program}
    (countable : original.Countable counter sink)
    (woven : original.Woven counter sink program)
include countable woven

theorem Carries.readTally
    {count : LocalId}
    {field : FieldRef}
    (tallies : field.Tallies counter)
    (declared : count.index < locals.length)
    (relates : machine.Matches counter other)
    (carries :
      ∀ number later, machine.Matches counter later →
        Carries (.unlimited program sink) callees counter receiver arguments value after
          (locals.set count.index (.int number)) later rest) :
    Carries (.unlimited program sink) callees counter receiver arguments value after locals other
      (.assign (.variable count) (.staticField field) :: rest) := by
  have meant := woven.declaredField_tallies countable.root tallies
  obtain ⟨prepared, ends, related⟩ :=
    serves.prepare relates.counted
  obtain ⟨number, read⟩ := related.readTally meant
  rw [← meant.1] at ends
  exact .assign ⟨ends, read.symm⟩ ⟨declared, rfl, rfl⟩ (carries number prepared related)

theorem Carries.writeTally
    {count : LocalId}
    {field : FieldRef}
    (number : Int32)
    (tallies : field.Tallies counter)
    (held : locals[count.index]? = some (.int number))
    (relates : machine.Matches counter other)
    (carries :
      ∀ later, machine.Matches counter later →
        Carries (.unlimited program sink) callees counter receiver arguments value after locals later
          rest) :
    Carries (.unlimited program sink) callees counter receiver arguments value after locals other
      (.assign (.staticField field) (.variable count) :: rest) := by
  have meant := woven.declaredField_tallies countable.root tallies
  obtain ⟨prepared, ends, related⟩ :=
    serves.prepare relates.counted
  have written := related.writeTally meant number
  rw [← meant.1] at ends
  exact .assign ⟨held, rfl⟩ ⟨prepared, ends, rfl, rfl⟩ (carries _ written)

end Counts
end Sinks

section Instances

variable
    {original : Program}
    {className : String}
    {fields : FieldTable}
    {slot : Nat}
    {this : LocalId}
    (countable : original.Countable counter sink)
    (woven : original.Woven counter sink program)
    (located : machine.heap.objects[slot]? = some (.instanceOf className fields))
    (refers : locals[this.index]? = some (.reference slot))
include countable woven located refers

theorem Carries.readCount
    {count : LocalId}
    {field : FieldRef}
    (counts : field.CountsAccess)
    (declared : count.index < locals.length)
    (relates : machine.Matches counter other)
    (carries :
      ∀ number later, machine.Matches counter later →
        Carries (.unlimited program sink) callees counter receiver arguments value after
          (locals.set count.index (.int number)) later rest) :
    Carries (.unlimited program sink) callees counter receiver arguments value after locals other
      (.assign (.variable count) (.instanceField this field) :: rest) := by
  have meant := woven.declaredField_countsAccess countable counts
  have related := relates.counted
  obtain ⟨number, read⟩ := related.readCount located meant
  exact .assign ⟨slot, refers, read, rfl⟩ ⟨declared, rfl, rfl⟩ (carries number _ related)

theorem Carries.writeCount
    {count : LocalId}
    {field : FieldRef}
    (number : Int32)
    (counts : field.CountsAccess)
    (held : locals[count.index]? = some (.int number))
    (relates : machine.Matches counter other)
    (carries :
      ∀ later, machine.Matches counter later →
        Carries (.unlimited program sink) callees counter receiver arguments value after locals later
          rest) :
    Carries (.unlimited program sink) callees counter receiver arguments value after locals other
      (.assign (.instanceField this field) (.variable count) :: rest) := by
  have meant := woven.declaredField_countsAccess countable counts
  have related := relates.counted
  obtain ⟨heap, written, relatedAfter⟩ := related.writeCount located meant number
  exact .assign ⟨held, rfl⟩ ⟨slot, heap, refers, written, rfl, rfl⟩ (carries _ relatedAfter)

/-- A constructor gives the next serial number to its receiver, an instance. -/
theorem Carries.serialAssignment
    (serves : callees.Serves counter sink)
    {profile : Profile}
    {count : LocalId}
    (tallies : profile.staticCounter.Tallies counter)
    (counts : profile.serial.CountsAccess)
    (declared : count.index < locals.length)
    (apart : count.index ≠ this.index)
    (relates : machine.Matches counter other)
    (carries :
      ∀ number later, machine.Matches counter later →
        Carries (.unlimited program sink) callees counter receiver arguments value after
          (locals.set count.index (.int number)) later rest) :
    Carries (.unlimited program sink) callees counter receiver arguments value after locals other
      (profile.serialAssignment sink this count ++ rest) := by
  have held (number : Int32) :
      (locals.set count.index (.int number))[count.index]? = some (.int number) :=
    List.getElem?_set_self declared
  have still (number : Int32) :
      (locals.set count.index (.int number))[this.index]? = some (.reference slot) :=
    (List.getElem?_set_ne apart).trans refers
  refine .readTally serves countable woven tallies declared relates fun number _ relates => ?_
  refine .increment number (held number) relates fun _ relates => ?_
  rw [List.set_set]
  refine .writeCount countable woven located (still _) (number + 1) counts (held _) relates
    fun _ relates => ?_
  refine .writeTally serves countable woven (number + 1) tallies (held _) relates
    fun _ relates => ?_
  exact .report serves (number + 1) (held _) relates fun later relates => carries _ later relates

end Instances

end Steps

/-! ## Calls of inserted bodies -/

section Bodies

variable
    {counter : String}
    {sink : Sink}
    {original program : Program}
    {callees : Callees}
    {machine other : Machine}
    (countable : original.Countable counter sink)
    (woven : original.Woven counter sink program)
    (serves : callees.Serves counter sink)
include countable woven serves

/-- The body of a method that counts on a static counter ends. -/
theorem carries_staticIncrementorBody
    (receiver : Option Datum)
    (arguments : List Datum)
    {label : String}
    {field : FieldRef}
    (tallies : field.Tallies counter)
    (relates : machine.Matches counter other) :
    Carries (.unlimited program sink) callees counter receiver arguments .void machine [.int 0] other
      (Profile.staticIncrementorBody sink label field).instructions := by
  refine .readTally serves countable woven tallies (by decide) relates fun number _ relates => ?_
  refine .increment number rfl relates fun _ relates => ?_
  refine .writeTally serves countable woven (number + 1) tallies rfl relates
    fun _ relates => ?_
  exact .report serves (number + 1) rfl relates fun _ relates => .return_none relates

/-- The body of a method that counts accesses ends if its receiver is an instance. -/
theorem carries_incrementorBody
    (arguments : List Datum)
    {name className : String}
    {slot : Nat}
    {fields : FieldTable}
    {field serial : FieldRef}
    (counts : field.CountsAccess)
    (countsSerial : serial.CountsAccess)
    (located : machine.heap.objects[slot]? = some (.instanceOf name fields))
    (relates : machine.Matches counter other) :
    Carries (.unlimited program sink) callees counter (some (.reference slot)) arguments .void machine
      [.null, .int 0, .int 0] other
      (Profile.incrementorBody sink className field serial).instructions := by
  refine .bind (.reference slot) rfl (by decide) relates fun _ relates => ?_
  refine .readCount countable woven located rfl counts (by simp) relates
    fun number _ relates => ?_
  refine .increment number rfl relates fun _ relates => ?_
  refine .writeCount countable woven located rfl (number + 1) counts rfl relates
    fun _ relates => ?_
  refine .readCount countable woven located rfl countsSerial (by simp) relates
    fun serial _ relates => ?_
  refine .report serves serial rfl relates fun _ relates => ?_
  exact .report serves (number + 1) rfl relates fun _ relates => .return_none relates

end Bodies

theorem Carries.enter
    (world : World)
    (method : MethodRef)
    {callees : Callees}
    {counter : String}
    {receiver : Option Datum}
    {arguments : List Datum}
    {value : Datum}
    {after other : Machine}
    {id : MethodId}
    {entered : Body}
    (found : world.program.body? id = some entered)
    (allowed : world.limits.depth = 0)
    (carries :
      Carries world callees counter receiver arguments value after
        (entered.locals.map fun declaration => .zero declaration.type)
        { other with depth := other.depth + 1 } entered.instructions) :
    ∃ otherAfter, Ends (Run.enter world callees id method receiver arguments) other value otherAfter ∧
      after.Matches counter otherAfter := by
  obtain ⟨inner, ends, related⟩ := carries
  exact ⟨_, ends_enter.2 ⟨entered, inner, found, .inl allowed, ends, rfl⟩,
    related.of_eq rfl rfl rfl rfl rfl rfl rfl rfl⟩

section Levels

variable
    {counter : String}
    {sink : Sink}
    {original program : Program}
    (countable : original.Countable counter sink)
    (woven : original.Woven counter sink program)
include countable woven

/-- The root class has no body to run. -/
theorem prepare_objectClass
    (callees : Callees)
    {machine other : Machine}
    (known : objectClass = counter → objectClass ∈ other.initialized)
    (relates : machine.Matches counter other) :
    ∃ prepared, Ends (prepareStep (.unlimited program sink) callees objectClass) other () prepared ∧
      machine.Matches counter prepared := by
  by_cases initialized : objectClass ∈ other.initialized
  · exact ⟨other, ends_prepareStep.2 (.inl ⟨initialized, rfl⟩), relates⟩
  · have differs : objectClass ≠ counter := fun same => initialized (known same)
    have absent : program.class? objectClass = none := woven.class?_eq_none differs countable.root
    exact ⟨_,
      ends_prepareStep.2 (.inr ⟨initialized, _,
        (initializesAbove_of_none (Program.superclass?_eq_none absent)).2 rfl,
        (initializes_of_none (Program.findMethod?_eq_none absent)).2 rfl⟩),
      relates.mark (.inr rfl)⟩

theorem prepare_counter
    {levels : Nat}
    {machine other : Machine}
    (relates : machine.Matches counter other) :
    ∃ prepared,
      Ends (prepareStep (.unlimited program sink) (.within (.unlimited program sink) (levels + 1)) counter)
        other () prepared ∧
      machine.Matches counter prepared := by
  by_cases initialized : counter ∈ other.initialized
  · exact ⟨other, ends_prepareStep.2 (.inl ⟨initialized, rfl⟩), relates⟩
  · have marked := relates.mark (.inl rfl)
    have bodiless : program.findMethod? counter staticInitializerName [] = none := by
      cases found : program.findMethod? counter staticInitializerName [] with
      | none => rfl
      | some id =>
        obtain ⟨same, declared, there, named, -⟩ := Program.findMethod?_eq_some found
        obtain ⟨declaration, declares, located⟩ := Option.bind_eq_some_iff.1 there
        rw [same] at declares
        have tallies :=
          (woven.counts declaration declares).methods declared (List.mem_of_getElem? located)
        exact absurd named tallies.name_ne
    cases found : program.superclass? counter with
    | none =>
      exact ⟨_,
        ends_prepareStep.2 (.inr ⟨initialized, _, (initializesAbove_of_none found).2 rfl,
          (initializes_of_none bodiless).2 rfl⟩),
        marked⟩
    | some superclass =>
      obtain ⟨declaration, declares, below⟩ := Option.bind_eq_some_iff.1 found
      rw [(woven.counts declaration declares).superclass] at below
      cases below
      obtain ⟨prepared, ends, related⟩ :=
        prepare_objectClass countable woven (.within (.unlimited program sink) levels)
          (fun same => List.mem_append_right _ (List.mem_singleton.2 same)) marked
      exact ⟨prepared,
        ends_prepareStep.2 (.inr ⟨initialized, prepared, (initializesAbove_of_some found).2 ends,
          (initializes_of_none bodiless).2 rfl⟩),
        related⟩

theorem within_serves (levels : Nat) :
    (Callees.within (.unlimited program sink) (levels + 2)).Serves counter sink where
  prepare relates := prepare_counter countable woven relates
  report _ _ relates :=
    ⟨_, ends_invokeStep.2 (.inl ⟨⟨rfl, rfl⟩, _, rfl, rfl, rfl⟩), relates.print _⟩

theorem within_announces (levels : Nat) :
    (Callees.within (.unlimited program sink) (levels + 3)).Announces counter program.offers where
  tally {machine other name} offered relates := by
    have serves := within_serves countable woven levels
    obtain ⟨id, label, field, reaches, body, tallies⟩ := woven.target?_of_tallies offered
    obtain ⟨prepared, ready, related⟩ := serves.prepare relates
    obtain ⟨tallied, ends, relatedAfter⟩ :=
      Carries.enter (.unlimited program sink) ⟨counter, name, [], .void⟩ body rfl
        (carries_staticIncrementorBody countable woven serves none [] tallies related.deeper)
    refine ⟨tallied, ends_invokeStep.2 (.inr ⟨?_, .inl rfl, counter, prepared, ⟨ready, rfl⟩, ?_⟩),
      relatedAfter⟩
    · exact fun sinks => countable.sinkApart sinks.1.symm
    · change Reaches _ _ _ _ _ _ _ _ (target? program counter _)
      rw [reaches]
      exact ends
  count := by
    intro machine other kind owner name className slot fields dispatched incrementing offered located
      relates
    have serves := within_serves countable woven levels
    obtain ⟨others, there, -, -⟩ := relates.instanceOf located
    obtain ⟨id, bodyClass, field, serial, reaches, body, counts, countsSerial⟩ :=
      woven.target?_of_counts countable.declaresNoIncrementor className incrementing offered
    obtain ⟨counted, ends, relatedAfter⟩ :=
      Carries.enter (.unlimited program sink) ⟨owner, name, [], .void⟩ body rfl
        (carries_incrementorBody countable woven serves [] counts countsSerial located
          relates.deeper)
    have starts :
        Starts (.within (.unlimited program sink) (levels + 2)) ⟨owner, name, [], .void⟩ other
          className other kind (some (.reference slot)) := by
      have asked : other.heap.className? slot = .ok (some className) :=
        Heap.className?_eq_ok.2 ⟨_, there, rfl⟩
      rcases dispatched with rfl | rfl <;> exact ⟨some className, asked, rfl, rfl⟩
    refine ⟨counted,
      ends_invokeStep.2 (.inr ⟨?_, .inr rfl, className, other, starts, ?_⟩), relatedAfter⟩
    · rintro ⟨same, -⟩
      have absent : program.class? sink.owner = none :=
        woven.class?_eq_none countable.sinkApart countable.sinkFree
      obtain ⟨id, found⟩ := Program.findMethod?_isSome_of_offers offered
      obtain ⟨declaration, declares, -⟩ := Option.bind_eq_some_iff.1 found
      change owner = sink.owner at same
      rw [same, absent] at declares
      cases declares
    · change Reaches _ _ _ _ _ _ _ _ (target? program className _)
      rw [reaches]
      exact ends

end Levels
end Run
end AccessProfiler
