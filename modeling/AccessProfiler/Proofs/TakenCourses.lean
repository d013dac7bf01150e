import AccessProfiler.Proofs.Courses
import AccessProfiler.Proofs.Failing

/-!
# The courses of runs

Every run takes a course with its history, from any machine and at any number of levels
(`Run.within_courses`), and so does every request (`Request.takes`).  The proof goes through the parts of
a run once, and follows for each a sequence to where its first part ended or broke off; no other
statement about courses looks into a run.
-/

namespace AccessProfiler

/-- All methods that bodies call have names of this kind. -/
def Program.CallsOnly (Named : String → Prop) (program : Program) : Prop :=
  ∀ body ∈ program.bodies, ∀ instruction ∈ body.instructions, ∀ target ∈ instruction.call?,
    Named target.method.name

instance (Named : String → Prop) [DecidablePred Named] (program : Program) :
    Decidable (program.CallsOnly Named) :=
  inferInstanceAs
    (Decidable (∀ body ∈ program.bodies, ∀ instruction ∈ body.instructions,
      ∀ target ∈ instruction.call?, Named target.method.name))

namespace Run

variable {Value Result : Type}

/-- The second part of a sequence runs only if the first ends. -/
theorem on_bind {first : Run Value} {next : Value → Run Result} {before : Machine} :
    (first >>= next).on before =
      match first.on before with
      | (.ok value, between) => (next value).on between
      | (.error failure, between) => (.error failure, between) := by
  unfold Run.on
  rw [run_bind]
  rcases StateT.run (ExceptT.run first) before with ⟨outcome, between⟩
  cases outcome <;> rfl

theorem on_bind_of_ends
    {first : Run Value}
    {next : Value → Run Result}
    {before between : Machine}
    {value : Value}
    (ends : Ends first before value between) :
    (first >>= next).on before = (next value).on between := by
  have computed : first.on before = (.ok value, between) := ends
  rw [on_bind, computed]

theorem onward_of_ends
    {run : Run Value}
    {before after : Machine}
    {value : Value}
    (ends : Ends run before value after)
    (next : Value → Machine → List Moment) :
    onward run before next = next value after := by
  have computed : run.on before = (.ok value, after) := ends
  rw [onward, computed]

theorem onward_bind
    {first : Run Value}
    {next : Value → Run Result}
    {before : Machine}
    {further : Result → Machine → List Moment} :
    onward (first >>= next) before further =
      onward first before fun value between => onward (next value) between further := by
  unfold onward
  rw [on_bind]
  rcases first.on before with ⟨failure | value, between⟩ <;> rfl

theorem onward_append
    {run : Run Value}
    {before : Machine}
    {past next : Value → Machine → List Moment} :
    onward run before (fun value machine => past value machine ++ next value machine) =
      onward run before past ++ onward run before next := by
  unfold onward
  split <;> rfl

theorem onward_nil {run : Run Value} {before : Machine} :
    onward run before (fun _ _ => []) = [] := by
  unfold onward
  split <;> rfl

/-- The run leaves every machine as it is, and does not fail for its sake. -/
structure Quiet (run : Run Value) : Prop where
  keeps : ∀ machine, (run.on machine).2 = machine
  avoids : Avoids Failure.IsInternal run

namespace Quiet

theorem pure (value : Value) : Quiet (pure value : Run Value) :=
  ⟨fun _ => rfl, .of_pure value⟩

theorem throw {failure : Failure} (other : ¬ failure.IsInternal) :
    Quiet (throw failure : Run Value) :=
  ⟨fun _ => rfl, .of_throw other⟩

theorem ofExcept {outcome : Except Failure Value} (shuns : Shuns Failure.IsForeign outcome) :
    Quiet (ofExcept outcome) :=
  ⟨fun _ => rfl, avoids_ofExcept (shuns.mono .of_internal)⟩

theorem bind
    {first : Run Value}
    {next : Value → Run Result}
    (quiet : Quiet first)
    (quietNext : ∀ value, Quiet (next value)) :
    Quiet (first >>= next) := by
  refine ⟨fun machine => ?_, .of_seq quiet.avoids fun value => (quietNext value).avoids⟩
  have kept := quiet.keeps machine
  rw [on_bind]
  generalize first.on machine = run at kept ⊢
  obtain ⟨outcome, between⟩ := run
  cases outcome with
  | ok value => exact ((quietNext value).keeps between).trans kept
  | error failure => exact kept

theorem mapM
    {Item : Type}
    {step : Item → Run Value}
    {items : List Item}
    (quiet : ∀ item, Quiet (step item)) :
    Quiet (items.mapM step) := by
  induction items with
  | nil => exact pure []
  | cons item rest hypothesis =>
    rw [List.mapM_cons]
    exact bind (quiet item) fun _ => bind hypothesis fun _ => pure _

theorem localValue (locals : List Datum) (source : LocalId) :
    Quiet (localValue locals source) := by
  unfold Run.localValue
  split
  · exact pure _
  · exact throw id

theorem operandValue (locals : List Datum) (operand : Operand) :
    Quiet (operandValue locals operand) := by
  cases operand with
  | «variable» source => exact localValue locals source
  | literal constant => exact pure _

theorem receiverValue (locals : List Datum) (receiver : Option LocalId) :
    Quiet (receiver.mapM (Run.localValue locals)) := by
  cases receiver with
  | none => exact pure none
  | some id => exact bind (localValue locals id) fun _ => pure _

theorem operandValues (locals : List Datum) (operands : List Operand) :
    Quiet (operands.mapM (Run.operandValue locals)) :=
  mapM fun operand => operandValue locals operand

theorem objectIn (locals : List Datum) (id : LocalId) : Quiet (objectIn locals id) :=
  bind (localValue locals id) fun _ => ofExcept Datum.asReference_shuns

theorem intOf (locals : List Datum) (operand : Operand) : Quiet (intOf locals operand) :=
  bind (operandValue locals operand) fun _ => ofExcept Datum.asInt_shuns

theorem boundValue (receiver : Option Datum) (arguments : List Datum) (source : Binding) :
    Quiet (boundValue receiver arguments source) := by
  unfold Run.boundValue
  split
  all_goals
    split
    · exact pure _
    · exact throw id

theorem setLocal (locals : List Datum) (target : LocalId) (value : Datum) :
    Quiet (setLocal locals target value) := by
  unfold Run.setLocal
  split
  · exact pure _
  · exact throw id

theorem arithmetic (operator : Operator) (left right : Datum) :
    Quiet (arithmetic operator left right) := by
  unfold Run.arithmetic
  split
  case h_13 => exact throw id
  all_goals exact pure _

end Quiet

/-- From this machine and during these open calls, the run takes a course with this history. -/
def Takes
    (world : World)
    (Named : String → Prop)
    (task : Task)
    (levels : Nat)
    (frames : List Frame)
    (before : Machine)
    (run : Run Value)
    (history : List Moment) : Prop :=
  Course world Named task levels (frames.map Frame.method) before history (run.on before).2
    (Ending.of (run.on before).1)

namespace Takes

variable
    {world : World}
    {Named : String → Prop}
    {task : Task}
    {work : Work}
    {levels : Nat}
    {frames : List Frame}
    {before : Machine}
    {history : List Moment}

/-- A run that ends takes a course that ends. -/
theorem of_ends
    {run : Run Value}
    {after : Machine}
    {value : Value}
    (ends : Ends run before value after)
    (course :
      Course world Named task levels (frames.map Frame.method) before history after .normal) :
    Takes world Named task levels frames before run history := by
  have computed : run.on before = (.ok value, after) := ends
  unfold Takes
  rw [computed]
  exact course

/-- A run may fail at any time, and leave the machine as it is. -/
theorem of_error
    {run : Run Value}
    {failure : Failure}
    (failed : run.on before = (.error failure, before))
    (other : failure ≠ .exhausted) :
    Takes world Named task levels frames before run [] := by
  unfold Takes
  rw [failed, Ending.of_failure other]
  exact .fails

theorem ended
    {run : Run Value}
    {after : Machine}
    {value : Value}
    (takes : Takes world Named task levels frames before run history)
    (ends : Ends run before value after) :
    Course world Named task levels (frames.map Frame.method) before history after .normal := by
  have computed : run.on before = (.ok value, after) := ends
  unfold Takes at takes
  rw [computed] at takes
  exact takes

theorem of_quiet {run : Run Value} (quiet : Quiet run) :
    Takes world Named (.code work) levels frames before run [] := by
  have kept := quiet.keeps before
  rcases ran : run.on before with ⟨failure | value, after⟩
  · rw [ran] at kept
    subst kept
    exact of_error ran fun same => quiet.avoids _ _ _ ran (same ▸ trivial)
  · rw [ran] at kept
    subst kept
    exact of_ends ran .ends

/-- A sequence goes on from where its first part ended, or breaks off with it. -/
theorem bind
    {first : Run Value}
    {next : Value → Run Result}
    {further : Value → Machine → List Moment}
    (takes : Takes world Named (.code work) levels frames before first history)
    (takesNext :
      ∀ value between, Ends first before value between →
        Takes world Named (.code work) levels frames between (next value)
          (further value between)) :
    Takes world Named (.code work) levels frames before (first >>= next)
      (history ++ onward first before further) := by
  unfold Takes onward at *
  rw [on_bind]
  rcases ran : first.on before with ⟨failure | value, between⟩
  · rw [ran] at takes
    rw [List.append_nil]
    dsimp only
    rw [Ending.of_error Value]
    exact takes
  · rw [ran] at takes
    exact .follows takes (takesNext value between ran)

theorem bind_quiet
    {first : Run Value}
    {next : Value → Run Result}
    {further : Value → Machine → List Moment}
    (quiet : Quiet first)
    (takesNext :
      ∀ value, Takes world Named (.code work) levels frames before (next value)
        (further value before)) :
    Takes world Named (.code work) levels frames before (first >>= next)
      (onward first before further) := by
  refine bind (of_quiet quiet) fun value between ends => ?_
  have same : between = before := (congrArg Prod.snd ends).symm.trans (quiet.keeps before)
  subst same
  exact takesNext value

/-- What has no history may follow on anything that leaves the machine as it is. -/
theorem bind_silent
    {first : Run Value}
    {next : Value → Run Result}
    (quiet : Quiet first)
    (takesNext :
      ∀ value, Takes world Named (.code work) levels frames before (next value) []) :
    Takes world Named (.code work) levels frames before (first >>= next) [] := by
  have takes :
      Takes world Named (.code work) levels frames before (first >>= next)
        (onward first before fun _ _ => []) :=
    bind_quiet quiet takesNext
  rw [onward_nil] at takes
  exact takes

/-- The value of a run plays no part in its course. -/
theorem bind_return
    {run : Run Value}
    {result : Value → Result}
    (takes : Takes world Named task levels frames before run history) :
    Takes world Named task levels frames before (run >>= fun value => Pure.pure (result value))
      history := by
  unfold Takes at *
  rw [on_bind]
  generalize run.on before = ran at takes ⊢
  obtain ⟨failure | value, after⟩ := ran
  · dsimp only at *
    rw [Ending.of_error Value]
    exact takes
  · exact takes

/-- What happens is seen before it happens. -/
theorem shown
    {run : Run Value}
    {stage : Stage}
    {className : String}
    (needs : stage.needed? = some className)
    (ready : className ∈ before.initialized)
    (takes : Takes world Named (.code work) levels frames before run history) :
    Takes world Named (.code work) levels frames before run (⟨stage, frames, before⟩ :: history) :=
  .follows (.shows rfl needs ready) takes

theorem askHeap
    {question : Heap → Except Failure Value}
    (shuns : Shuns (· = .exhausted) (question before.heap)) :
    Takes world Named (.code work) levels frames before (askHeap question) [] := by
  cases asked : question before.heap with
  | error failure => exact of_error (fails_askHeap.2 ⟨asked, rfl⟩) (shuns failure asked)
  | ok value => exact of_ends (ends_askHeap.2 ⟨asked, rfl⟩) .ends

theorem changeHeap
    {change : Heap → Except Failure Heap}
    (shuns : Shuns (· = .exhausted) (change before.heap))
    (replaces :
      ∀ heap, change before.heap = .ok heap →
        ∃ slot old object, before.heap.objects[slot]? = some old ∧ object.shape = old.shape ∧
          heap = before.heap.replace slot object) :
    Takes world Named (.code .instruction) levels frames before (changeHeap change) [] := by
  cases changed : change before.heap with
  | error failure =>
    exact of_error (fails_changeHeap.2 ⟨changed, rfl⟩) (shuns failure changed)
  | ok heap =>
    obtain ⟨slot, old, object, found, same, rfl⟩ := replaces heap changed
    have ended :
        Ends (Run.changeHeap change) before ()
          { before with heap := before.heap.replace slot object } :=
      ends_changeHeap.2 ⟨_, changed, rfl⟩
    exact of_ends ended (.replaces found same)

theorem allocate
    {allocation : Heap → Except Failure (Nat × Heap)}
    {object : HeapObject}
    (allocates : allocation before.heap = before.heap.allocate object) :
    Takes world Named (.code .instruction) levels frames before (allocate allocation) [] := by
  cases allocated : allocation before.heap with
  | error failure =>
    have shuns : Shuns (· = .exhausted) (before.heap.allocate object) :=
      Heap.allocate_shuns.mono .of_exhausted
    exact of_error (fails_allocate.2 ⟨allocated, rfl⟩)
      (shuns failure (allocates.symm.trans allocated))
  | ok parts =>
    obtain ⟨slot, heap⟩ := parts
    obtain ⟨room, -, rfl⟩ := Heap.allocate_eq_ok.1 (allocates.symm.trans allocated)
    exact of_ends (ends_allocate.2 ⟨slot, _, allocated, rfl, rfl⟩) (.pushes room)

end Takes

/-- An instruction that may not run is counted all the same, and leaves all else as it is. -/
theorem on_tick_of_not_allowed
    {limits : Limits}
    {before : Machine}
    (refused : ¬ Allowed limits before) :
    (tick limits).on before =
      (.error (.excess (.instructions limits.instructions)), counted before) := by
  have full : 0 < limits.instructions ∧ limits.instructions < before.executed + 1 := by
    unfold Allowed at refused
    omega
  have computed :
      (tick limits).on before =
        (if 0 < limits.instructions ∧ limits.instructions < before.executed + 1 then
          (throw (.excess (.instructions limits.instructions)) : Run Unit)
        else pure ()).on (counted before) :=
    rfl
  rw [computed, if_pos full]
  rfl

/-- Calls and initializations take courses with the histories that are said to be theirs. -/
structure HaveCourses
    (world : World)
    (Named : String → Prop)
    (levels : Nat)
    (callees : Callees)
    (histories : Histories) : Prop where
  invoke :
    ∀ {frames kind method receiver arguments before}, Named method.name →
      Takes world Named (.code .instruction) levels frames before
        (callees.invoke kind method receiver arguments)
        (histories.invoke frames kind method receiver arguments before)
  prepare :
    ∀ {frames className before},
      Takes world Named (.preparation className) levels frames before (callees.prepare className)
        (histories.prepare frames className before)

variable
    {world : World}
    {Named : String → Prop}
    {levels : Nat}
    {callees : Callees}
    {histories : Histories}
    {frame : Frame}
    {outer : List Frame}
    {before : Machine}

/-- An instruction is counted, runs, and the rest of the body follows. -/
theorem instruction_takes
    {step : Run Value}
    {next : Value → Run Result}
    {further : Value → Machine → List Moment}
    (instruction : Instruction)
    (history : Machine → List Moment)
    (takes :
      Takes world Named (.code .instruction) levels outer (counted before) step
        (history (counted before)))
    (takesNext :
      ∀ value between, Ends step (counted before) value between →
        Takes world Named (.code .body) levels outer between (next value)
          (further value between)) :
    Takes world Named (.code .body) levels outer before
      (tick world.limits >>= fun _ => step >>= next)
      (onward (tick world.limits) before fun _ ticked =>
        ⟨.executes instruction, outer, ticked⟩ ::
          (history ticked ++ onward step ticked further)) := by
  by_cases allowed : Allowed world.limits before
  · have ticks : Ends (tick world.limits) before () (counted before) := ends_tick.2 ⟨allowed, rfl⟩
    rw [onward_of_ends ticks]
    unfold Takes onward at *
    rw [on_bind_of_ends ticks, on_bind]
    rcases ran : step.on (counted before) with ⟨failure | value, between⟩
    · rw [ran] at takes
      rw [List.append_nil]
      dsimp only
      rw [Ending.of_error Value]
      exact .counts rfl allowed takes
    · rw [ran] at takes
      exact .follows (.counts rfl allowed takes) (takesNext value between ran)
  · unfold Takes onward
    rw [on_bind, on_tick_of_not_allowed allowed]
    exact .refuses allowed

section Bodies

variable (courses : HaveCourses world Named levels callees histories)
include courses

theorem callValue_takes {target : Call} (named : Named target.method.name) :
    Takes world Named (.code .instruction) levels (frame :: outer) before
      (callValue callees frame.locals target) (callHistory histories outer frame before target) :=
  .bind_quiet (.receiverValue _ _) fun _ =>
    .bind_quiet (.operandValues _ _) fun _ => courses.invoke named

/-- What needs an initialized class comes after its initialization. -/
theorem prepare_takes
    {work : Work}
    {className : String}
    {stage : Stage}
    {next : Unit → Run Value}
    (single : work ≠ .body)
    (needs : stage.needed? = some className)
    (takesNext :
      ∀ prepared, Takes world Named (.code work) levels outer prepared (next ()) []) :
    Takes world Named (.code work) levels outer before (callees.prepare className >>= next)
      (histories.prepare outer className before ++
        onward (callees.prepare className) before fun _ prepared =>
          [⟨stage, outer, prepared⟩]) := by
  have takes : Takes world Named (.preparation className) levels outer before _ _ :=
    courses.prepare
  exact .bind (.prepares single takes) fun _ prepared ends =>
    .shown needs (takes.ended ends).mem_initialized (takesNext prepared)

theorem expressionValue_takes
    {expression : Expression}
    (named : ∀ target, expression = .call target → Named target.method.name) :
    Takes world Named (.code .instruction) levels (frame :: outer) before
      (expressionValue world callees frame.locals expression)
      (expressionHistory world callees histories outer frame before expression) := by
  cases expression with
  | «variable» source => exact .of_quiet (.localValue _ _)
  | literal constant => exact .of_quiet (.pure _)
  | instanceField base field =>
    exact .bind_silent (.objectIn _ _) fun _ =>
      .askHeap (Heap.readField_shuns .of_exhausted (Heap.object_shuns nofun))
  | staticField field =>
    exact prepare_takes courses nofun rfl fun prepared =>
      .of_ends (Ends.get_bind_iff.2 (Ends.pure_iff.2 ⟨rfl, rfl⟩)) .ends
  | element base index =>
    exact .bind_silent (.objectIn _ _) fun _ => .bind_silent (.intOf _ _) fun _ =>
      .askHeap (Heap.readElement_shuns .of_exhausted (Heap.object_shuns nofun))
  | newObject className => exact prepare_takes courses nofun rfl fun _ => .allocate rfl
  | newArray content size =>
    refine .bind_silent (.intOf _ _) fun length => ?_
    dsimp only
    split
    · exact .of_error rfl nofun
    · exact .allocate rfl
  | length base =>
    refine .bind_silent (.objectIn _ _) fun slot => ?_
    have asks :
        Takes world Named (.code .instruction) levels (frame :: outer) before
          (askHeap fun heap => heap.arrayLength slot) [] :=
      .askHeap (Heap.arrayLength_shuns .of_exhausted (Heap.object_shuns nofun))
    exact asks.bind_return
  | binary operator left right =>
    exact .of_quiet
      (.bind (.operandValue _ _) fun _ => .bind (.operandValue _ _) fun _ => .arithmetic _ _ _)
  | call target => exact callValue_takes courses (named target rfl)

theorem store_takes {place : Expression} {value : Datum} :
    Takes world Named (.code .instruction) levels (frame :: outer) before
      (store world callees frame.locals place value)
      (storeHistory world callees histories outer frame before place) := by
  cases place with
  | «variable» target => exact .of_quiet (.setLocal _ _ _)
  | instanceField base field =>
    refine .bind_silent (.objectIn _ _) fun slot => ?_
    have changes :
        Takes world Named (.code .instruction) levels (frame :: outer) before
          (changeHeap fun heap =>
            heap.writeField slot (declaredField world.program field) value) [] := by
      refine .changeHeap (Heap.writeField_shuns .of_exhausted (Heap.object_shuns nofun)) ?_
      intro heap written
      obtain ⟨className, fields, located, rfl⟩ := Heap.writeField_eq_ok.1 written
      exact ⟨slot, _,
        .instanceOf className (fields.write (declaredField world.program field) value),
        located, rfl, rfl⟩
    exact changes.bind_return
  | staticField field =>
    refine prepare_takes courses nofun rfl fun prepared => ?_
    exact .of_ends
      (Ends.bind_iff.2 ⟨⟨⟩, _, Ends.modify_iff.2 rfl, Ends.pure_iff.2 ⟨rfl, rfl⟩⟩) .writes
  | element base index =>
    refine .bind_silent (.objectIn _ _) fun slot => .bind_silent (.intOf _ _) fun position => ?_
    have changes :
        Takes world Named (.code .instruction) levels (frame :: outer) before
          (changeHeap fun heap => heap.writeElement slot position value) [] := by
      refine .changeHeap (Heap.writeElement_shuns .of_exhausted (Heap.object_shuns nofun)) ?_
      intro heap written
      obtain ⟨element, values, place, located, -, rfl⟩ := Heap.writeElement_eq_ok.1 written
      exact ⟨slot, _, _, located, by simp [HeapObject.shape], rfl⟩
    exact changes.bind_return
  | _ => exact .of_quiet (.throw id)

theorem instructions_takes
    {list : List Instruction}
    (named :
      ∀ instruction ∈ list, ∀ target, instruction.call? = some target →
        Named target.method.name) :
    Takes world Named (.code .body) levels (frame :: outer) before
      (instructions world callees frame.receiver frame.arguments frame.locals list)
      (instructionsHistory world callees histories outer frame before list) := by
  induction list generalizing frame before with
  | nil => exact .of_quiet (.pure _)
  | cons instruction rest hypothesis =>
    have namedHere := named instruction List.mem_cons_self
    have takesRest (locals : List Datum) (machine : Machine) :
        Takes world Named (.code .body) levels (frame :: outer) machine
          (instructions world callees frame.receiver frame.arguments locals rest)
          (instructionsHistory world callees histories outer { frame with locals } machine rest) :=
      @hypothesis { frame with locals } machine fun other member =>
        named other (List.mem_cons_of_mem _ member)
    cases instruction with
    | bind target source =>
      have steps :
          Takes world Named (.code .instruction) levels (frame :: outer) (counted before)
            (boundValue frame.receiver frame.arguments source >>= fun value =>
              setLocal frame.locals target value) [] :=
        .of_quiet (.bind (.boundValue _ _ _) fun _ => .setLocal _ _ _)
      have takes :=
        instruction_takes (.bind target source) (fun _ => []) steps
          fun locals between _ => takesRest locals between
      simp only [bind_assoc, onward_bind, List.nil_append] at takes
      exact takes
    | assign place expression =>
      have calls : ∀ target, expression = .call target → Named target.method.name := by
        rintro target rfl
        exact namedHere target rfl
      have steps :
          Takes world Named (.code .instruction) levels (frame :: outer) (counted before)
            (expressionValue world callees frame.locals expression >>= fun value =>
              store world callees frame.locals place value)
            (expressionHistory world callees histories outer frame (counted before) expression ++
              onward (expressionValue world callees frame.locals expression) (counted before)
                fun _ machine =>
                  storeHistory world callees histories outer frame machine place) :=
        .bind (expressionValue_takes courses calls) fun _ _ _ => store_takes courses
      have takes :=
        instruction_takes (.assign place expression)
          (fun ticked =>
            expressionHistory world callees histories outer frame ticked expression ++
              onward (expressionValue world callees frame.locals expression) ticked
                fun _ machine => storeHistory world callees histories outer frame machine place)
          steps fun locals between _ => takesRest locals between
      simp only [bind_assoc, onward_bind, List.append_assoc, ← onward_append] at takes
      exact takes
    | invoke target =>
      exact instruction_takes (.invoke target)
        (fun ticked => callHistory histories outer frame ticked target)
        (callValue_takes courses (namedHere target rfl)) fun _ between _ =>
          takesRest frame.locals between
    | «return» operand =>
      have finishes {evaluate : Run Datum} (quiet : Quiet evaluate) :
          Takes world Named (.code .body) levels (frame :: outer) before
            (tick world.limits >>= fun _ => evaluate)
            (onward (tick world.limits) before fun _ ticked =>
              [⟨.executes (.return operand), frame :: outer, ticked⟩]) := by
        have steps :
            Takes world Named (.code .instruction) levels (frame :: outer) (counted before)
              evaluate [] :=
          .of_quiet quiet
        have done (value : Datum) (machine : Machine) :
            Takes world Named (.code .body) levels (frame :: outer) machine (Pure.pure value) [] :=
          .of_quiet (.pure value)
        have takes :=
          instruction_takes (.return operand) (fun _ => []) steps fun value machine _ =>
            done value machine
        simp only [bind_pure, onward_nil, List.nil_append] at takes
        exact takes
      cases operand with
      | none => exact finishes (.pure _)
      | some operand => exact finishes (.operandValue _ _)

theorem searchStart_takes
    {kind : CallKind}
    {method : MethodRef}
    {receiver : Option Datum} :
    Takes world Named (.code .call) levels outer before
      (searchStart callees kind method receiver)
      (startHistory callees histories outer kind method before) := by
  have asks {slot : Nat} :
      Takes world Named (.code .call) levels outer before
        (askHeap fun heap => heap.className? slot) [] :=
    .askHeap (Heap.className?_shuns (Heap.object_shuns nofun))
  unfold searchStart
  split
  · exact asks.bind_return
  · exact asks.bind_return
  · exact prepare_takes courses nofun rfl fun _ => .of_quiet (.pure _)
  · rename_i dynamic _ _
    have silent : startHistory callees histories outer kind method before = [] := by
      cases kind with
      | static => exact (dynamic rfl).elim
      | _ => rfl
    rw [silent]
    exact .of_quiet (.pure _)

end Bodies

/-- The outcome of a body that was entered is that of its call; the call is closed in any case. -/
theorem on_enter_of_body?
    {id : MethodId}
    {method : MethodRef}
    {receiver : Option Datum}
    {arguments : List Datum}
    {entered : Body}
    (found : world.program.body? id = some entered)
    (room : world.HasRoom before) :
    (enter world callees id method receiver arguments).on before =
      (nested (body world callees entered receiver arguments)).on before := by
  have open? : ¬ (0 < world.limits.depth ∧ world.limits.depth ≤ before.depth) := by
    unfold World.HasRoom at room
    omega
  unfold enter
  simp only [found]
  rw [on_bind_of_ends (Ends.get_iff.2 ⟨rfl, rfl⟩), if_neg open?]

theorem on_enter_of_body?_none
    {id : MethodId}
    {method : MethodRef}
    {receiver : Option Datum}
    {arguments : List Datum}
    (absent : world.program.body? id = none) :
    (enter world callees id method receiver arguments).on before =
      (.error (.fault (.noBody method)), before) := by
  unfold enter
  simp only [absent]
  rfl

theorem on_enter_of_full
    {id : MethodId}
    {method : MethodRef}
    {receiver : Option Datum}
    {arguments : List Datum}
    {entered : Body}
    (found : world.program.body? id = some entered)
    (full : 0 < world.limits.depth ∧ world.limits.depth ≤ before.depth) :
    (enter world callees id method receiver arguments).on before =
      (.error (.excess (.depth world.limits.depth method)), before) := by
  unfold enter
  simp only [found]
  rw [on_bind_of_ends (Ends.get_iff.2 ⟨rfl, rfl⟩), if_pos full]
  rfl

/-- What remains of the initialization of a class once the class above it is initialized. -/
def runInitializer (world : World) (callees : Callees) (className : String) : Run Unit := do
  match world.program.findMethod? className staticInitializerName [] with
  | none => pure ()
  | some id =>
    if (world.program.body? id).isSome then
      let _ ← enter world callees id ⟨className, staticInitializerName, [], .void⟩ none []

section Steps

variable
    (calls : world.program.CallsOnly Named)
    (courses : HaveCourses world Named levels callees histories)
include calls courses

/-- A method is entered in the course of a task if the task leaves that to its body. -/
theorem enter_takes
    {task : Task}
    {id : MethodId}
    {method : MethodRef}
    {receiver : Option Datum}
    {arguments : List Datum}
    (enters :
      ∀ frame entered history inner ending, frame.method = id →
        world.program.body? id = some entered → world.HasRoom before →
        Course world Named (.code .body) levels (frame.method :: outer.map Frame.method)
          { before with depth := before.depth + 1 } history inner ending →
        Course world Named task levels (outer.map Frame.method) before
          (⟨.enters, frame :: outer, { before with depth := before.depth + 1 }⟩ :: history)
          { inner with depth := inner.depth - 1 } ending) :
    Takes world Named task levels outer before
      (enter world callees id method receiver arguments)
      (enterHistory world callees histories outer id receiver arguments before) := by
  unfold enterHistory
  cases found : world.program.body? id with
  | none =>
    exact .of_error (on_enter_of_body?_none found) nofun
  | some entered =>
    dsimp only
    split
    case isTrue full => exact .of_error (on_enter_of_full found full) nofun
    case isFalse room =>
      have room : world.HasRoom before := by
        unfold World.HasRoom
        omega
      let frame : Frame :=
        ⟨id, receiver, arguments, entered.locals.map fun declaration => .zero declaration.type⟩
      have takes :
          Takes world Named (.code .body) levels (frame :: outer)
            { before with depth := before.depth + 1 } _ _ :=
        instructions_takes courses fun instruction member target same =>
          calls entered (Program.mem_bodies_of_body? found) instruction member target same
      unfold Takes
      rw [on_enter_of_body? found room]
      exact enters frame entered _ _ _ rfl found room takes

theorem call_takes
    {id : MethodId}
    {declared : Method}
    {method : MethodRef}
    {receiver : Option Datum}
    {arguments : List Datum}
    (located : world.program.method? id = some declared)
    (named : Named declared.name) :
    Takes world Named (.code .call) levels outer before
      (enter world callees id method receiver arguments)
      (enterHistory world callees histories outer id receiver arguments before) := by
  refine enter_takes calls courses ?_
  rintro frame entered history inner ending rfl - room inside
  exact .enters rfl located named room inside

theorem initializer_takes {className : String} :
    Takes world Named (.initializer className) levels outer before
      (runInitializer world callees className)
      (initializerHistory world callees histories outer className before) := by
  unfold runInitializer initializerHistory
  cases found : world.program.findMethod? className staticInitializerName [] with
  | none =>
    have absent : world.program.initializer? className = none := by
      rw [Program.initializer?, found]
      rfl
    exact .of_ends (Ends.pure_iff.2 ⟨rfl, rfl⟩) (.hasNoInitializer absent)
  | some id =>
    dsimp only
    split
    case isTrue bodied =>
      have initializes : world.program.initializer? className = some id :=
        Program.initializer?_eq_some.2 ⟨found, bodied⟩
      refine .bind_return (enter_takes calls courses ?_)
      rintro frame entered history inner ending rfl - room inside
      exact .initializes rfl initializes room inside
    case isFalse bodiless =>
      have absent : world.program.initializer? className = none := by
        rw [Program.initializer?, found]
        exact Option.filter_some_neg (Bool.not_eq_true _ ▸ bodiless)
      have nothing : enterHistory world callees histories outer id none [] before = [] := by
        rw [Option.not_isSome_iff_eq_none] at bodiless
        unfold enterHistory
        rw [bodiless]
      rw [nothing]
      exact .of_ends (Ends.pure_iff.2 ⟨rfl, rfl⟩) (.hasNoInitializer absent)

end Steps

theorem print_ends (line : TraceLine) :
    Ends (print line) before () { before with trace := before.trace ++ [line] } :=
  ends_print.2 rfl

theorem report_takes {sink : Sink} {arguments : List Datum} :
    Takes world Named (.code .call) levels outer before (report sink arguments) [] := by
  unfold report
  split
  · exact .bind_return (.of_ends (print_ends _) .prints)
  · exact .bind_return (.of_ends (print_ends _) .prints)
  · exact .of_error rfl nofun

theorem invokeStep_takes
    (calls : world.program.CallsOnly Named)
    (courses : HaveCourses world Named levels callees histories)
    {kind : CallKind}
    {method : MethodRef}
    {receiver : Option Datum}
    {arguments : List Datum}
    (named : Named method.name) :
    Takes world Named (.code .call) levels outer before
      (invokeStep world callees kind method receiver arguments)
      (invokeHistory world callees histories outer kind method receiver arguments before) := by
  unfold invokeStep invokeHistory
  split
  · exact report_takes
  · split
    · exact .of_error rfl nofun
    · refine .bind (searchStart_takes courses) fun start between _ => ?_
      cases found : target? world.program start method with
      | some id =>
        obtain ⟨declared, located, same, -⟩ := Program.target?_eq_some found
        exact call_takes calls courses located (same ▸ named)
      | none =>
        dsimp only
        split
        · exact .of_quiet (.pure _)
        · exact .of_quiet (.throw id)

theorem prepareStep_takes
    (calls : world.program.CallsOnly Named)
    (courses : HaveCourses world Named levels callees histories)
    {className : String} :
    Takes world Named (.preparation className) (levels + 1) outer before
      (prepareStep world callees className)
      (prepareHistory world callees histories outer className before) := by
  unfold prepareHistory
  by_cases known : className ∈ before.initialized
  · rw [if_pos (List.contains_iff_mem.2 known)]
    have done : Ends (prepareStep world callees className) before () before :=
      ends_prepareStep.2 (.inl ⟨known, rfl⟩)
    exact .of_ends done (.isMarked known)
  · rw [if_neg (fun contained => known (List.contains_iff_mem.1 contained))]
    let marked := { before with initialized := before.initialized ++ [className] }
    have marking : Ends (mark className) before true marked :=
      ends_mark.2 (.inr ⟨known, rfl, rfl⟩)
    unfold Takes prepareStep
    rw [on_bind_of_ends marking, if_pos rfl]
    refine .marks known ?_
    dsimp only
    cases found : world.program.superclass? className with
    | none => exact .isTop found (initializer_takes calls courses)
    | some superclass =>
      have above : Takes world Named (.preparation superclass) levels outer marked _ _ :=
        courses.prepare
      dsimp only
      rw [on_bind]
      unfold onward
      unfold Takes at above
      rcases ran : (callees.prepare superclass).on marked with ⟨failure | done, between⟩
      · rw [ran] at above
        rw [List.append_nil]
        exact .stopsAbove found (Ending.of_error_ne failure) above
      · rw [ran] at above
        exact .ascends found above (initializer_takes calls courses)

/-- The callees of a number of levels take courses of as many levels. -/
theorem within_courses
    (calls : world.program.CallsOnly Named)
    (levels : Nat) :
    HaveCourses world Named levels ⟨invoke world levels, prepare world levels⟩
      (.within world levels) := by
  induction levels with
  | zero => exact ⟨fun _ => .lacksCall, .lacksPreparation⟩
  | succ levels courses =>
    exact ⟨fun named => .invokes (invokeStep_takes calls courses named),
      prepareStep_takes calls courses⟩

end Run

/-- What is asked from outside calls a method with a name of this kind. -/
def Request.Calls (Named : String → Prop) (program : Program) : Request → Prop
  | .entry name => ∀ method ∈ Run.entryMethod? program name, Named method.name
  | .invoke _ method _ _ => Named method.name

instance (Named : String → Prop) [DecidablePred Named] (program : Program) (request : Request) :
    Decidable (request.Calls Named program) :=
  match request with
  | .entry name =>
    inferInstanceAs
      (Decidable (∀ method ∈ Run.entryMethod? program name, Named method.name))
  | .invoke _ method _ _ => inferInstanceAs (Decidable (Named method.name))

namespace Request

variable
    {world : World}
    {Named : String → Prop}
    {levels : Nat}
    {before : Machine}

theorem entryArguments_takes {method : MethodRef} :
    Run.Takes world Named (.code .instruction) levels [] before (Run.entryArguments method) [] := by
  unfold Run.entryArguments
  split
  · exact .of_quiet (.pure _)
  · rename_i element _
    have allocates :
        Run.Takes world Named (.code .instruction) levels [] before
          (Run.allocate fun heap => heap.allocateArray element 0) [] :=
      .allocate rfl
    exact .bind_return allocates
  · exact .of_quiet (.throw id)

/-- Every request takes a course. -/
theorem takes
    {request : Request}
    (calls : world.program.CallsOnly Named)
    (named : request.Calls Named world.program) :
    Run.Takes world Named (.code .instruction) levels [] before (request.run world levels)
      (request.history world levels before) := by
  have courses := Run.within_courses calls levels
  cases request with
  | invoke kind method receiver arguments => exact courses.invoke named
  | entry name =>
    unfold run history Run.entry Run.entryStep
    dsimp only
    cases found : Run.entryMethod? world.program name with
    | none => exact .of_quiet (.throw id)
    | some method =>
      exact .bind entryArguments_takes fun _ _ _ => courses.invoke (named method found)

/-- Whatever the methods are called that are called. -/
theorem takes_anyway (request : Request) :
    Run.Takes world (fun _ => True) (.code .instruction) levels [] before
      (request.run world levels) (request.history world levels before) := by
  refine takes (fun _ _ _ _ _ _ => trivial) ?_
  cases request with
  | entry name => exact fun _ _ => trivial
  | invoke kind method receiver arguments => exact trivial

end Request

namespace World

variable {world : World}

theorem history_append
    (levels : Nat)
    (machine : Machine)
    (past next : List Request) :
    world.history levels machine (past ++ next) =
      world.history levels machine past ++
        world.history levels (world.serve levels machine past) next := by
  induction past generalizing machine with
  | nil => rfl
  | cons request rest hypothesis =>
    simp only [List.cons_append, history, serve, hypothesis, List.append_assoc]

/-- All machines that requests show, the first and the last included, are related in their order if the
steps of their runs are. -/
theorem linked_history
    {Related : Machine → Machine → Prop}
    (steps : world.StepsRelate Related)
    (levels : Nat)
    (machine : Machine)
    (requests : List Request) :
    Linked Related machine ((world.history levels machine requests).map Moment.machine)
      (world.serve levels machine requests) := by
  induction requests generalizing machine with
  | nil => exact .single (steps.refl machine)
  | cons request rest hypothesis =>
    have first : Run.Takes world (fun _ => True) (.code .instruction) levels [] machine _ _ :=
      request.takes_anyway
    exact List.map_append ▸ (first.linked steps).append steps.trans (hypothesis _)

end World
end AccessProfiler
