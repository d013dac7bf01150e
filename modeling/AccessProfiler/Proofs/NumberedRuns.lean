import AccessProfiler.Proofs.SerialNumbers

/-!
# Runs that give serial numbers

The block with which a constructor starts gives the next number of its class: it leaves the account of
its class in order, whatever calls that count on static counters stand between its instructions
(`Run.serialAssignment_keeps`).  Nothing else that bodies do enters the account, so that every run keeps
it (`Run.entryStep_keepsNumbers`).
-/

namespace AccessProfiler

/-- Instructions in a row, taken apart with the calls in between. -/
theorem Tallied.split
    {Tally : Instruction → Prop}
    {front rest longer : List Instruction}
    (tallied : Tallied Tally (front ++ rest) longer) :
    ∃ first others, longer = first ++ others ∧ Tallied Tally front first ∧
      Tallied Tally rest others := by
  generalize whole : front ++ rest = list at tallied
  induction tallied generalizing front with
  | done =>
    obtain ⟨rfl, rfl⟩ := List.append_eq_nil_iff.1 whole
    exact ⟨[], [], rfl, .done, .done⟩
  | tally tallies _ hypothesis =>
    obtain ⟨first, others, rfl, before, after⟩ := hypothesis whole
    exact ⟨_ :: first, others, rfl, .tally tallies before, after⟩
  | @keep instruction list longer later hypothesis =>
    cases front with
    | nil =>
      cases whole
      exact ⟨[], _, rfl, .done, .keep later⟩
    | cons head front =>
      obtain ⟨rfl, rest⟩ := List.cons.inj whole
      obtain ⟨first, others, rfl, before, after⟩ := hypothesis rest
      exact ⟨_ :: first, others, rfl, .keep before, after⟩

/-- Calls give no numbers. -/
theorem numbered_append_of_isCall
    {className : String}
    {past log : List Act}
    (calling : ∀ act ∈ log, act.IsCall) :
    numbered className (past ++ log) = numbered className past := by
  refine numbered_append_of_none fun act member => ?_
  cases act with
  | calls actor target receiver => rfl
  | accesses actor access slot field => exact (calling _ member).elim

namespace Numbers

variable
    {className : String}
    {counter : FieldRef}
    {behind : Nat}
    {past log : List Act}
    {session : Session}
    {before after : Machine}

/-- What spares objects leaves the account in order. -/
theorem spared
    (counts : session.counters.fields.get? (.instances className) = some counter)
    (numbers : Account.On (Numbers className counter behind) past before)
    (spared : before.Spared session after)
    (calling : ∀ act ∈ log, act.IsCall) :
    Account.On (Numbers className counter behind) (past ++ log) after := by
  have there : Account.On (Numbers className counter behind) (past ++ log) before :=
    Numbers.congr (numbered_append_of_isCall calling) rfl numbers
  rw [Account.On, spared.heap]
  exact Numbers.congr rfl (spared.statics counts) there

end Numbers

namespace Run

variable
    {settings : Settings}
    {program : Program}
    {session : Session}
    {world : World}
    {callees : Callees}
    {logs : Logs}
    {actor : Activation}
    {arguments locals changed : List Datum}
    {before after : Machine}
    {acts past : List Act}
    {className : String}
    {counter : FieldRef}

/-- Calls that count on static counters leave the locals alone and spare objects; calls are all that they
do. -/
theorem Passes.tallies_spare
    (spares : callees.Spares settings session)
    (quiet : logs.Spares settings.counterClassName settings.sink session.program)
    {calls : List Instruction}
    (tallies : ∀ call ∈ calls, session.program.Tally settings.counterClassName call)
    (passes : Passes world callees logs actor arguments locals before changed after acts calls) :
    changed = locals ∧ before.Spared session after ∧ ∀ act ∈ acts, act.IsCall := by
  induction calls generalizing locals before acts with
  | nil =>
    obtain ⟨rfl, rfl, rfl⟩ := passes
    exact ⟨rfl, .refl session after, fun _ member => absurd member List.not_mem_nil⟩
  | cons call calls hypothesis =>
    obtain ⟨name, offered, rfl⟩ := tallies call List.mem_cons_self
    obtain ⟨next, between, first, others, ⟨value, evaluates, rfl, rfl⟩, passes, rfl⟩ := passes
    obtain ⟨rfl, later, calling⟩ :=
      hypothesis (fun other member => tallies other (List.mem_cons_of_mem _ member)) passes
    obtain ⟨receiver, given, received, evaluated, called⟩ := evaluates
    have logged :
        callLog logs actor _ (.ofStatic ⟨settings.counterClassName, name, [], .void⟩ [])
            (counted before) = _ :=
      callLog_of_evaluated received evaluated
    cases received
    cases evaluated
    have here : (counted before).Spared session between := spares.tally offered called
    refine ⟨rfl, Machine.Spared.trans ⟨here.heap, here.statics⟩ later, fun act member => ?_⟩
    rw [logged] at member
    rcases List.mem_append.1 member with inside | behind
    · rcases List.mem_cons.1 inside with rfl | during
      · trivial
      · exact quiet.tally [] _ offered act during
    · exact calling act behind

/-- The calls in front of an instruction are made, then the instruction is run. -/
theorem Passes.first
    (spares : callees.Spares settings session)
    (quiet : logs.Spares settings.counterClassName settings.sink session.program)
    (counts : session.counters.fields.get? (.instances className) = some counter)
    {behind : Nat}
    {instruction : Instruction}
    {rest longer : List Instruction}
    (tallied :
      Tallied (session.program.Tally settings.counterClassName) (instruction :: rest) longer)
    (numbers : Account.On (Numbers className counter behind) past before)
    (passes : Passes world callees logs actor arguments locals before changed after acts longer) :
    ∃ others started next between quiet first later,
      Tallied (session.program.Tally settings.counterClassName) rest others ∧
        (∀ act ∈ quiet, act.IsCall) ∧
        Account.On (Numbers className counter behind) (past ++ quiet) started ∧
        Steps world callees logs actor arguments locals started next between first instruction ∧
        Passes world callees logs actor arguments next between changed after later others ∧
        acts = quiet ++ first ++ later := by
  obtain ⟨calls, others, rfl, tallies, tallied⟩ := tallied.first
  obtain ⟨_, started, silent, _, calling, ⟨next, between, first, later, steps, further, rfl⟩, rfl⟩ :=
    passes_append.1 passes
  obtain ⟨rfl, spared, onlyCalls⟩ := calling.tallies_spare spares quiet tallies
  exact ⟨others, started, next, between, silent, first, later, tallied, onlyCalls,
    Numbers.spared counts numbers spared onlyCalls, steps, further, (List.append_assoc ..).symm⟩

/-- All that is done to report a number is to call. -/
theorem callLog_report_isCall
    (quiet : logs.Spares settings.counterClassName settings.sink session.program)
    (actor : Activation)
    (operands : List Operand)
    (locals : List Datum)
    (machine : Machine) :
    ∀ act ∈ callLog logs actor locals (.ofStatic settings.sink.methodRef operands) machine,
      act.IsCall := by
  refine forall_mem_callLog (fun _ => trivial) fun receiver given absent act member => ?_
  obtain rfl : receiver = none := by simpa [Call.ofStatic] using absent
  have nothing : logs.invoke .static settings.sink.methodRef none given machine = [] :=
    quiet.report given machine
  have member : act ∈ logs.invoke .static settings.sink.methodRef none given machine := member
  rw [nothing] at member
  cases member

section Block

variable
    (runs : world.RunsCounted settings program session)
    (spares : callees.Spares settings session)
    (quiet : logs.Spares settings.counterClassName settings.sink session.program)
    (counts : session.counters.fields.get? (.instances className) = some counter)
    {this count : LocalId}
    {list : List Instruction}

include runs in
/-- A static counter is declared where it is named. -/
theorem declaredField_counter
    {owner : CounterOwner}
    {counter : FieldRef}
    (counts : session.counters.fields.get? owner = some counter) :
    declaredField world.program counter = counter := by
  rw [runs.same]
  exact declaredField_of_declaredField? (runs.completes.declaredField?_counter counts).1

include runs in
theorem idle_counter
    (counts : session.counters.fields.get? (.instances className) = some counter) :
    session.program.Idle settings.counterClassName (declaredField world.program counter).owner := by
  rw [declaredField_counter runs counts]
  exact .inl (runs.completes.tallies_of_known counts).1

include runs spares quiet counts

/-- The next number is given to the receiver, then the counter catches up. -/
theorem giving_keeps
    (known : session.profiles.get? className = some (.ofClass className counter))
    (tallied :
      Tallied (session.program.Tally settings.counterClassName)
        [.assign (.instanceField this (.ofInstance className serialField .int)) (.variable count),
          .assign (.staticField counter) (.variable count),
          settings.sink.report (Sink.serialLabel className) (.variable count)]
        list)
    (next : locals[count.index]? = some (.int (.ofNat ((numbered className past).length + 1))))
    (numbers : Account.On (Numbers className counter 0) past before)
    (passes : Passes world callees logs actor arguments locals before changed after acts list) :
    Account.On (Numbers className counter 0) (past ++ acts) after := by
  have idle := idle_counter runs counts
  have serial :
      declaredField world.program (.ofInstance className serialField .int) =
        .ofInstance className serialField .int := by
    rw [runs.same]
    exact declaredField_of_declaredField? (runs.completes.declaredField?_profile
      runs.accountable.apart runs.accountable.wellNamed known
      (show isInstrumentationName serialField = true by decide))
  -- the object is given the number
  obtain ⟨_, giving, locals, gave, quietGive, _, _, tallied, callingGive, numbers,
    ⟨_, _, ⟨assigned, rfl⟩, ⟨slot, heap, refers, written, rfl, stored⟩, rfl⟩, behindGive, rfl⟩ :=
      passes.first spares quiet counts tallied numbers
  obtain rfl := Option.some.inj (next.symm.trans assigned)
  rw [serial] at written
  obtain ⟨name, fields, located, rfl⟩ := Heap.writeField_eq_ok.1 written
  let given : Act := .accesses actor .write slot (.ofInstance className serialField .int)
  have acts :
      placeLog world logs actor locals (counted giving)
        (.instanceField this (.ofInstance className serialField .int)) = [given] := by
    rw [placeLog, accessLog_of_reference refers, serial]
  have total : numbered className (past ++ quietGive) = numbered className past :=
    numbered_append_of_isCall callingGive
  have gives : given.numbered? className = some slot := if_pos ⟨rfl, rfl⟩
  have further :
      numbered className (past ++ quietGive ++ [given]) = numbered className past ++ [slot] := by
    rw [numbered_append_singleton gives, total]
  have numbers : Account.On (Numbers className counter 1) (past ++ quietGive ++ [given]) gave := by
    rw [stored, ← total]
    exact Numbers.give given numbers located gives
  -- the counter catches up
  obtain ⟨_, catching, locals, caught, quietCatch, _, _, tallied, callingCatch, numbers,
    ⟨_, _, ⟨assigned, rfl⟩, ⟨ready, prepared, rfl, stored⟩, rfl⟩, behindCatch, rfl⟩ :=
      behindGive.first spares quiet counts tallied numbers
  obtain rfl := Option.some.inj (next.symm.trans assigned)
  have prepares := spares.prepare idle prepared
  have numbers :
      Account.On (Numbers className counter 0) (past ++ quietGive ++ [given] ++ quietCatch) caught := by
    have ready :
        Account.On (Numbers className counter 1) (past ++ quietGive ++ [given] ++ quietCatch ++ []) ready :=
      Numbers.spared counts numbers ⟨prepares.heap, prepares.statics⟩ fun _ member => absurd member List.not_mem_nil
    rw [List.append_nil] at ready
    have last : (numbered className past).length + 1 =
        (numbered className (past ++ quietGive ++ [given] ++ quietCatch)).length := by
      rw [numbered_append_of_isCall callingCatch, further, List.length_append]
      rfl
    rw [stored, declaredField_counter runs counts, last]
    exact Numbers.catchUp ready
  -- the number is reported
  obtain ⟨_, reporting, locals, reported, quietReport, _, _, tallied, callingReport, numbers,
    ⟨_, evaluates, rfl, rfl⟩, behindReport, rfl⟩ :=
      behindCatch.first spares quiet counts tallied numbers
  have reports := evaluates.report_spares spares
  have numbers := Numbers.spared counts numbers ⟨reports.heap, reports.statics⟩
    (callLog_report_isCall quiet actor
      [.literal (.str (Sink.serialLabel className)), .variable count] locals (counted reporting))
  obtain ⟨-, spared, calling⟩ := behindReport.tallies_spare spares quiet tallied.nothing
  have numbers := Numbers.spared counts numbers spared calling
  have silent :
      placeLog world logs actor locals (counted catching) (.staticField counter) = [] :=
    quiet.prepare _ idle
  have nothing (machine : Machine) :
      valueLog world logs actor locals machine (.variable count) = [] :=
    rfl
  rw [nothing, nothing, acts, silent]
  simpa only [List.append_nil, List.nil_append, List.append_assoc] using numbers

/-- The block that assigns the serial number leaves the account of its class in order. -/
theorem serialAssignment_keeps
    (known : session.profiles.get? className = some (.ofClass className counter))
    (tallied :
      Tallied (session.program.Tally settings.counterClassName)
        ((Profile.ofClass className counter).serialAssignment settings.sink this count) list)
    (numbers : Account.On (Numbers className counter 0) past before)
    (passes : Passes world callees logs actor arguments locals before changed after acts list) :
    Account.On (Numbers className counter 0) (past ++ acts) after := by
  have idle := idle_counter runs counts
  have tallied :
      Tallied (session.program.Tally settings.counterClassName)
        [.assign (.variable count) (.staticField counter),
          .assign (.variable count) (.binary .add (.variable count) (.literal (.int 1))),
          .assign (.instanceField this (.ofInstance className serialField .int)) (.variable count),
          .assign (.staticField counter) (.variable count),
          settings.sink.report (Sink.serialLabel className) (.variable count)]
        list :=
    tallied
  -- the counter is read
  obtain ⟨_, starting, _, read, quietRead, _, _, tallied, callingRead, numbers,
    ⟨total, _, ⟨prepared, totals⟩, ⟨inside, rfl, rfl⟩, rfl⟩, behindRead, rfl⟩ :=
      passes.first spares quiet counts tallied numbers
  have prepares := spares.prepare idle prepared
  have numbers : Account.On (Numbers className counter 0) (past ++ quietRead ++ []) read :=
    Numbers.spared counts numbers ⟨prepares.heap, prepares.statics⟩ fun _ member => absurd member List.not_mem_nil
  rw [declaredField_counter runs counts, Numbers.read_counter numbers, List.append_nil,
    numbered_append_of_isCall callingRead] at totals
  -- one is added
  obtain ⟨_, adding, _, added, quietSum, _, _, tallied, callingSum, numbers,
    ⟨sum, _, ⟨first, second, left, right, adds, rfl⟩, ⟨-, rfl, rfl⟩, rfl⟩, behindSum, rfl⟩ :=
      behindRead.first spares quiet counts tallied numbers
  obtain rfl : total = first :=
    Option.some.inj ((List.getElem?_set_self inside).symm.trans left)
  obtain rfl : .int 1 = second := Option.some.inj right
  have last : numbered className (past ++ quietRead ++ [] ++ quietSum) = numbered className past := by
    rw [numbered_append_of_isCall callingSum, List.append_nil, numbered_append_of_isCall callingRead]
  have next :
      ((locals.set count.index total).set count.index sum)[count.index]? =
        some (.int (.ofNat
          ((numbered className (past ++ quietRead ++ [] ++ quietSum)).length + 1))) := by
    rw [List.set_set, List.getElem?_set_self inside, last, Int32.ofNat_add]
    rw [totals] at adds
    exact adds.symm
  have numbers : Account.On (Numbers className counter 0)
      (past ++ quietRead ++ [] ++ quietSum) (counted adding) := numbers
  have reached := giving_keeps runs spares quiet counts known tallied next numbers behindSum
  have silent :
      valueLog world logs actor locals (counted starting) (.staticField counter) = [] :=
    quiet.prepare _ idle
  have nothing (locals : List Datum) (machine : Machine) :
      placeLog world logs actor locals machine (.variable count) = [] :=
    rfl
  have sums (locals : List Datum) (machine : Machine) :
      valueLog world logs actor locals machine
        (.binary .add (.variable count) (.literal (.int 1))) = [] :=
    rfl
  rw [silent, nothing, nothing, sums]
  simpa only [List.append_nil, List.nil_append, List.append_assoc] using reached

end Block
end Run

/-- The instruction gives no serial number of the class, and calls whatever it likes. -/
abbrev Instruction.GivesNone
    (className : String)
    (counter : FieldRef)
    (program : Program)
    (actor : Activation)
    (instruction : Instruction) : Prop :=
  instruction.Harmless (Numbers className counter 0) (fun _ _ _ => True)
    (fun field => field.Differs (.ofInstance className serialField .int))
    (fun field => field.Differs counter) program actor

/-- Accesses to other fields give no number. -/
theorem Act.numbered?_of_differs
    {className : String}
    {actor : Activation}
    {access : Access}
    {slot : Nat}
    {field : FieldRef}
    (differs : field.Differs (.ofInstance className serialField .int)) :
    (Act.accesses actor access slot field).numbered? className = none := by
  cases access with
  | read => rfl
  | write => exact if_neg fun same => differs (Prod.ext same.1.symm same.2.symm)

namespace Run

variable
    {settings : Settings}
    {program : Program}
    {session : Session}
    {world : World}
    {callees : Callees}
    {logs : Logs}
    {actor : Activation}
    {arguments locals : List Datum}
    {before after : Machine}
    {value : Datum}
    {past : List Act}
    {className : String}
    {counter : FieldRef}

/-- What is computed gives no number. -/
theorem givesNone_value (expression : Expression) :
    expression.Harmless (Numbers className counter 0) (fun _ _ _ => True) world.program actor := by
  cases expression with
  | instanceField base field => exact fun slot => Numbers.ignores rfl
  | call target => exact fun _ _ => trivial
  | _ => trivial

theorem givesNone_assign_local (target : LocalId) (expression : Expression) :
    (Instruction.assign (.variable target) expression).GivesNone className counter world.program actor :=
  ⟨trivial, givesNone_value expression⟩

theorem givesNone_assign_field
    {base : LocalId}
    {field : FieldRef}
    (expression : Expression)
    (differs : (declaredField world.program field).Differs (.ofInstance className serialField .int)) :
    (Instruction.assign (.instanceField base field) expression).GivesNone className counter world.program
      actor :=
  ⟨⟨differs, fun _ => Numbers.ignores (Act.numbered?_of_differs differs)⟩, givesNone_value expression⟩

theorem givesNone_assign_static
    {field : FieldRef}
    (expression : Expression)
    (differs : (declaredField world.program field).Differs counter) :
    (Instruction.assign (.staticField field) expression).GivesNone className counter world.program actor :=
  ⟨differs, givesNone_value expression⟩

theorem givesNone_invoke (target : Call) :
    (Instruction.invoke target).GivesNone className counter world.program actor :=
  fun _ _ => trivial

/-- A field of another name is another field. -/
theorem differs_serial_of_name_ne
    {field : FieldRef}
    (differs : field.name ≠ serialField) :
    (declaredField world.program field).Differs (.ofInstance className serialField .int) := by
  intro same
  have named : serialField = (declaredField world.program field).name := (Prod.mk.inj same).2
  rw [declaredField_name] at named
  exact differs named.symm

/-- Instructions of the original program give no numbers. -/
theorem givesNone_of_plain
    (runs : world.RunsCounted settings program session)
    (counts : session.counters.fields.get? (.instances className) = some counter)
    {instruction : Instruction}
    (plain : instruction.Plain settings.counterClassName) :
    instruction.GivesNone className counter world.program actor := by
  cases instruction with
  | assign place expression =>
    cases place with
    | instanceField base field =>
      have plain : field.Plain settings.counterClassName := plain.1
      refine givesNone_assign_field expression (differs_serial_of_name_ne fun same => ?_)
      rw [FieldRef.Plain, same] at plain
      exact absurd plain.2 (by decide)
    | staticField field =>
      have plain : field.Plain settings.counterClassName := plain.1
      refine givesNone_assign_static expression fun same => ?_
      have meant : declaredField world.program field = declaredField program field := by
        rw [runs.same, declaredField, declaredField,
          runs.completes.furnishes.furnished.resolveField?_eq runs.accountable.apart plain.1 plain.2]
      rw [meant] at same
      refine (runs.accountable.apart.declaredField_plain plain).1 ?_
      rw [← (Prod.mk.inj same).1]
      exact (runs.completes.tallies_of_known counts).1
    | _ => exact ⟨trivial, givesNone_value expression⟩
  | invoke target => exact givesNone_invoke target
  | _ => trivial

/-- Calls that are put between instructions give no numbers. -/
theorem givesNone_of_tallied
    (runs : world.RunsCounted settings program session)
    {id : MethodId}
    {list longer : List Instruction}
    (none : ∀ instruction ∈ list, instruction.GivesNone className counter world.program actor)
    (tallied :
      Tallied (session.program.Tally settings.counterClassName)
        (list.flatMap fun instruction =>
          session.announcements settings program id instruction ++ [instruction])
        longer) :
    ∀ instruction ∈ longer, instruction.GivesNone className counter world.program actor := by
  intro instruction member
  rcases tallied.mem_or_tally member with among | ⟨name, -, rfl⟩
  · obtain ⟨original, there, here⟩ := List.mem_flatMap.1 among
    rcases List.mem_append.1 here with announced | same
    · obtain ⟨owner, access, base, rfl⟩ :=
        Session.exists_of_mem_announcements settings program session runs.profiled announced
      exact givesNone_invoke _
    · rw [List.mem_singleton.1 same]
      exact none original there
  · exact givesNone_invoke _

/-- What is put between instructions are no returns. -/
theorem return_not_mem_of_tallied
    (runs : world.RunsCounted settings program session)
    {id : MethodId}
    {list longer : List Instruction}
    (straight : ∀ operand, .return operand ∉ list)
    (tallied :
      Tallied (session.program.Tally settings.counterClassName)
        (list.flatMap fun instruction =>
          session.announcements settings program id instruction ++ [instruction])
        longer) :
    ∀ operand, .return operand ∉ longer := by
  intro operand member
  rcases tallied.mem_or_tally member with among | ⟨name, -, other⟩
  · obtain ⟨original, there, here⟩ := List.mem_flatMap.1 among
    rcases List.mem_append.1 here with announced | same
    · obtain ⟨owner, access, base, other⟩ :=
        Session.exists_of_mem_announcements settings program session runs.profiled announced
      cases other
    · rw [← List.mem_singleton.1 same] at there
      exact straight operand there
  · cases other

/-- The block of another class gives no number of this one. -/
theorem givesNone_of_mem_serialAssignment
    (runs : world.RunsCounted settings program session)
    (counts : session.counters.fields.get? (.instances className) = some counter)
    {owner : String}
    {static : FieldRef}
    (known : session.profiles.get? owner = some (.ofClass owner static))
    (counted : session.counters.fields.get? (.instances owner) = some static)
    (differs : owner ≠ className)
    {this count : LocalId}
    {instruction : Instruction}
    (member :
      instruction ∈ (Profile.ofClass owner static).serialAssignment settings.sink this count) :
    instruction.GivesNone className counter world.program actor := by
  simp only [Profile.serialAssignment, List.mem_cons, List.not_mem_nil, or_false] at member
  rcases member with rfl | rfl | rfl | rfl | rfl
  · exact givesNone_assign_local _ _
  · exact givesNone_assign_local _ _
  · refine givesNone_assign_field _ ?_
    have serial :
        declaredField world.program (.ofInstance owner serialField .int) =
          .ofInstance owner serialField .int := by
      rw [runs.same]
      exact declaredField_of_declaredField? (runs.completes.declaredField?_profile
        runs.accountable.apart runs.accountable.wellNamed known
        (show isInstrumentationName serialField = true by decide))
    show (declaredField world.program (.ofInstance owner serialField .int)).Differs _
    rw [serial]
    exact fun same => differs (Prod.mk.inj same).1.symm
  · refine givesNone_assign_static _ ?_
    show (declaredField world.program static).Differs counter
    rw [declaredField_counter runs counted]
    intro same
    obtain ⟨first, -⟩ := runs.completes.furnishes.ledger.names _ counter counts
    obtain ⟨second, -⟩ := runs.completes.furnishes.ledger.names _ static counted
    rw [(Prod.mk.inj same).2, second] at first
    exact differs (CounterOwner.instances.inj (Option.some.inj first))
  · exact givesNone_invoke _

/-- What a body becomes keeps the account: only the constructors of the class start with its block. -/
theorem planned_keepsNumbers
    (runs : world.RunsCounted settings program session)
    (spares : callees.Spares settings session)
    (quiet : logs.Spares settings.counterClassName settings.sink session.program)
    (keeps : callees.Keeps (Numbers className counter 0) (fun _ _ _ => True) logs)
    (known : session.profiles.get? className = some (.ofClass className counter))
    (counts : session.counters.fields.get? (.instances className) = some counter)
    {body : Body}
    (there : program.body? actor.method = some body)
    {longer : List Instruction}
    (tallied :
      Tallied (session.program.Tally settings.counterClassName)
        (Session.planned settings program session actor.method body).instructions longer)
    (numbers : Account.On (Numbers className counter 0) past before)
    (ends :
      Ends (instructions world callees actor.receiver arguments locals longer) before value after) :
    Account.On (Numbers className counter 0)
      (past ++ instructionsLog world callees logs actor arguments locals before longer) after := by
  have original (instruction : Instruction) (member : instruction ∈ body.instructions) :
      instruction.GivesNone className counter world.program actor :=
    givesNone_of_plain runs counts
      (runs.accountable.apart.instruction_plain (Program.mem_bodies_of_body? there) member)
  rw [Session.planned_instructions] at tallied
  by_cases numbering :
      ∀ instruction ∈
        ((Session.withProfiles settings program session.profiles).patching actor.method body).instructions,
        instruction.GivesNone className counter world.program actor
  · exact instructions_keeps Numbers.tolerates keeps (givesNone_of_tallied runs numbering tallied)
      numbers ends
  · rcases Session.patching_cases (Session.withProfiles settings program session.profiles)
      actor.method body with
      same | ⟨profile, this, declaration, -, owned, -, -, -, patched⟩
    · rw [same] at numbering
      exact absurd original numbering
    · obtain ⟨static, counted, rfl⟩ :=
        runs.completes.furnishes.ledger.profiles actor.method.owner profile owned
      by_cases same : actor.method.owner = className
      swap
      · refine absurd (fun instruction member => ?_) numbering
        rcases Session.mem_patching member with old | ⟨other, this, declaration, -, again, -, -, -, block⟩
        · exact original instruction old
        · obtain rfl := Option.some.inj (owned.symm.trans again)
          exact givesNone_of_mem_serialAssignment runs counts owned counted same block
      subst same
      obtain rfl := Option.some.inj (counts.symm.trans counted)
      rw [patched, List.flatMap_append, List.flatMap_append, List.append_assoc] at tallied
      obtain ⟨front, others, rfl, opens, behind⟩ := tallied.split
      obtain ⟨block, rest, rfl, numbered, closes⟩ := behind.split
      have opening := givesNone_of_tallied runs
        (fun instruction member => original instruction ((List.takeWhile_sublist _).mem member)) opens
      have closing := givesNone_of_tallied runs
        (fun instruction member => original instruction ((List.dropWhile_sublist _).mem member)) closes
      have bound := return_not_mem_of_tallied runs (fun operand member =>
        absurd (Body.bindings_isBinding member) (by exact Bool.false_ne_true)) opens
      have straight := return_not_mem_of_tallied runs (fun operand member => by
        simp [Profile.serialAssignment, Profile.increment, Sink.report] at member) numbered
      rw [Session.flatMap_announcements_of_silent settings program session _
        fun instruction member => Profile.serialAssignment_silent member] at numbered
      obtain ⟨changed, last, passes, heap, statics⟩ := passes_of_ends logs ends
      rw [reached_append bound, reached_append straight, passes_append] at passes
      obtain ⟨_, _, _, _, first, passes, logged⟩ := passes
      obtain ⟨_, _, _, _, second, third, rfl⟩ := passes_append.1 passes
      have numbers := first.keeps Numbers.tolerates keeps opening numbers
      have numbers :=
        serialAssignment_keeps runs spares quiet counts known numbered numbers second
      have numbers := third.keeps Numbers.tolerates keeps
        (fun instruction member => closing instruction (mem_of_mem_reached member)) numbers
      rw [List.append_assoc past, List.append_assoc past, List.append_assoc, ← logged] at numbers
      rw [Account.On, heap, statics]
      exact numbers

variable (actor) in
/-- The bodies of a program with counting keep the account of a class. -/
theorem body_keepsNumbers
    (runs : world.RunsCounted settings program session)
    (spares : callees.Spares settings session)
    (quiet : logs.Spares settings.counterClassName settings.sink session.program)
    (keeps : callees.Keeps (Numbers className counter 0) (fun _ _ _ => True) logs)
    (known : session.profiles.get? className = some (.ofClass className counter))
    (counts : session.counters.fields.get? (.instances className) = some counter)
    {entered : Body}
    (found : session.program.body? actor.method = some entered)
    (numbers : Account.On (Numbers className counter 0) past before)
    (ends :
      Ends (instructions world callees actor.receiver arguments locals entered.instructions) before
        value after) :
    Account.On (Numbers className counter 0)
      (past ++ instructionsLog world callees logs actor arguments locals before entered.instructions)
      after := by
  rcases runs.completes.body?_cases runs.accountable.apart found with
    ⟨label, owner, field, tallied, counted, rfl⟩ | ⟨body, present, planned⟩ |
      ⟨current, access, -, -, tallied⟩
  · refine instructions_keeps Numbers.tolerates keeps (fun instruction among => ?_) numbers ends
    simp only [Profile.staticIncrementorBody, Profile.increment, List.mem_cons, List.not_mem_nil,
      or_false] at among
    rcases among with rfl | rfl | rfl | rfl | rfl
    · exact givesNone_assign_local _ _
    · exact givesNone_assign_local _ _
    · refine givesNone_assign_static _ ?_
      rw [declaredField_counter runs counted]
      exact runs.completes.ne_of_isTallied tallied counted counts
    · exact givesNone_invoke _
    · trivial
  · exact planned_keepsNumbers runs spares quiet keeps known counts present planned.instructions numbers
      ends
  · refine instructions_keeps Numbers.tolerates keeps (fun instruction among => ?_) numbers ends
    rcases tallied.instructions.mem_or_tally among with own | ⟨name, -, rfl⟩
    · simp only [Profile.countingBody, Profile.incrementorBody, Profile.increment, List.mem_cons,
        List.not_mem_nil, or_false] at own
      rcases own with rfl | rfl | rfl | rfl | rfl | rfl | rfl | rfl
      · trivial
      · exact givesNone_assign_local _ _
      · exact givesNone_assign_local _ _
      · exact givesNone_assign_field _ (differs_serial_of_name_ne access.countField_ne_serialField)
      · exact givesNone_assign_local _ _
      · exact givesNone_invoke _
      · exact givesNone_invoke _
      · trivial
    · exact givesNone_invoke _

/-- At every number of levels calls and initializations keep the account of a class. -/
theorem within_keepsNumbers
    (runs : world.RunsCounted settings program session)
    (known : session.profiles.get? className = some (.ofClass className counter))
    (counts : session.counters.fields.get? (.instances className) = some counter)
    (levels : Nat) :
    (Callees.within world levels).Keeps (Numbers className counter 0) (fun _ _ _ => True)
      (.within world levels) := by
  let Known (callees : Callees) (logs : Logs) : Prop :=
    callees.Spares settings session ∧
      logs.Spares settings.counterClassName settings.sink session.program
  have sparing (levels : Nat) : Known (.within world levels) (.within world levels) :=
    ⟨within_sparesRuns runs levels, runs.completes.within_spares runs.same runs.accountable levels⟩
  refine (within_keeps Known (fun _ _ => True) ?_ (fun _ _ _ => trivial) (fun _ => trivial)
    (sparing 0) (fun levels _ _ => sparing (levels + 1)) levels).1
  intro callees logs id entered receiver arguments before after value past keeps spares _ found
    numbers ends
  exact body_keepsNumbers ⟨id, receiver⟩ runs spares.1 spares.2 keeps known counts
    (runs.same ▸ found) numbers ends

/-- A run from outside keeps the account of a class. -/
theorem entryStep_keepsNumbers
    (runs : world.RunsCounted settings program session)
    (known : session.profiles.get? className = some (.ofClass className counter))
    (counts : session.counters.fields.get? (.instances className) = some counter)
    (levels : Nat)
    {name : String}
    (numbers : Account.On (Numbers className counter 0) past before)
    (ends : Ends (entryStep world (.within world levels) name) before value after) :
    Account.On (Numbers className counter 0)
      (past ++ entryLog world (.within world levels) name before) after :=
  entryStep_keeps Numbers.tolerates
    (fun numbers called => (within_keepsNumbers runs known counts levels).invoke trivial numbers called)
    numbers ends

end Run
end AccessProfiler
