import AccessProfiler.Proofs.TakenCourses

/-!
# Sufficient levels

Where the nesting of calls or the number of instructions is limited, no run needs more than
`World.levels` levels.  What a task may need is bounded by the calls that may still be nested and the
registered classes that are not marked (`Task.levels`): a call uses up one of the former, or else an
instruction that was counted, and an initialization one of the latter.  A course that runs out of levels
had fewer than that (`Course.lt_of_exhausted`), so from `World.levels` on no request does.

More levels change nothing about a run that did not run out of them (`Run.within_agrees`): so from there
on the outcome and the machine of a request are always the same (`Request.levels_suffice`).
-/

namespace AccessProfiler

namespace World

variable (world : World)

/-- The nesting of calls or the number of instructions is limited. -/
def Bounded : Prop :=
  0 < world.limits.depth ∨ 0 < world.limits.instructions

/-- How many more calls may be nested: those that may still be open, or else one for each instruction
that may still run. -/
def remaining (machine : Machine) : Nat :=
  if 0 < world.limits.depth then world.limits.depth - machine.depth
  else world.limits.instructions - machine.executed

/-- How many more calls may be nested in a body; without a limit on open calls, an instruction has to
be counted before the first of them. -/
def remainingInBody (machine : Machine) : Nat :=
  if 0 < world.limits.depth then world.remaining machine + 1 else world.remaining machine

/-- The registered classes that are not marked. -/
def unmarked (machine : Machine) : List String :=
  world.program.names.filter fun name => name ∉ machine.initialized

/-- The levels between two calls: initializations go up through different classes. -/
def span : Nat :=
  world.program.entries.length + 3

end World

/-- More levels than this a task does not need. -/
def Task.levels (world : World) (machine : Machine) : Task → Nat
  | .code .body => world.remainingInBody machine * world.span
  | .code .instruction => (world.remaining machine + 1) * world.span
  | .code .call => world.remaining machine * world.span + world.program.entries.length + 1
  | .preparation _ => world.remaining machine * world.span + (world.unmarked machine).length + 1
  | .ascent className =>
    if world.program.contains className then
      world.remaining machine * world.span + (world.unmarked machine).length + 1
    else 0
  | .initializer _ => world.remaining machine * world.span

namespace World

variable {world : World} {machine before after : Machine} {className : String}

theorem unmarked_length_le : (world.unmarked machine).length ≤ world.program.entries.length := by
  have bounded : (world.unmarked machine).length ≤ world.program.names.length :=
    List.length_filter_le _ _
  rwa [Program.names, List.length_map] at bounded

theorem unmarked_length_mono (subset : before.initialized ⊆ after.initialized) :
    (world.unmarked after).length ≤ (world.unmarked before).length := by
  refine (List.monotone_filter_right _ fun name fresh => ?_).length_le
  rw [decide_eq_true_eq] at *
  exact fun marked => fresh (subset marked)

/-- Marking a registered class leaves one less. -/
theorem unmarked_length_mark
    (registered : world.program.contains className)
    (fresh : className ∉ machine.initialized) :
    (world.unmarked
        { machine with initialized := machine.initialized ++ [className] }).length <
      (world.unmarked machine).length := by
  have present : className ∈ world.unmarked machine := by
    refine List.mem_filter.2 ⟨?_, decide_eq_true fresh⟩
    obtain ⟨declaration, found⟩ := Option.isSome_iff_exists.1 registered
    exact List.mem_map.2 ⟨_, Program.mem_entries_of_class? found, rfl⟩
  have rest :
      world.unmarked { machine with initialized := machine.initialized ++ [className] } =
        (world.unmarked machine).filter (· != className) := by
    rw [unmarked, unmarked, List.filter_filter]
    refine List.filter_congr fun name _ => ?_
    by_cases same : name = className <;> simp [same]
  rw [rest]
  exact List.length_filter_lt_length_iff_exists.2 ⟨className, present, by simp⟩

theorem remaining_le
    (depth : after.depth = before.depth)
    (executed : before.executed ≤ after.executed) :
    world.remaining after ≤ world.remaining before := by
  unfold remaining
  split <;> omega

/-- A counted instruction makes up for the first call of a body. -/
theorem remaining_counted (bounded : world.Bounded) (allowed : Run.Allowed world.limits before) :
    world.remaining (Run.counted before) + 1 ≤ world.remainingInBody before := by
  unfold Bounded at bounded
  unfold Run.Allowed at allowed
  unfold remainingInBody remaining Run.counted
  split <;> dsimp only <;> omega

/-- A body that is entered leaves room for one call less. -/
theorem remainingInBody_opened (room : world.HasRoom before) :
    world.remainingInBody { before with depth := before.depth + 1 } ≤ world.remaining before := by
  unfold HasRoom at room
  unfold remainingInBody remaining
  split <;> dsimp only <;> omega

end World

namespace Task

variable {world : World} {before after : Machine}

/-- What follows on a part of a run needs no more levels than the whole. -/
theorem levels_le
    (task : Task)
    (depth : after.depth = before.depth)
    (executed : before.executed ≤ after.executed)
    (subset : before.initialized ⊆ after.initialized) :
    task.levels world after ≤ task.levels world before := by
  have calls : world.remaining after ≤ world.remaining before :=
    World.remaining_le depth executed
  have inBody : world.remainingInBody after ≤ world.remainingInBody before := by
    unfold World.remainingInBody
    split <;> omega
  have classes : (world.unmarked after).length ≤ (world.unmarked before).length :=
    World.unmarked_length_mono subset
  have scaled := Nat.mul_le_mul_right world.span calls
  cases task with
  | code work =>
    cases work with
    | body => exact Nat.mul_le_mul_right _ inBody
    | instruction => exact Nat.mul_le_mul_right _ (Nat.succ_le_succ calls)
    | call =>
      dsimp only [levels]
      omega
  | preparation className =>
    dsimp only [levels]
    omega
  | ascent className =>
    dsimp only [levels]
    split
    · omega
    · exact Nat.le_refl 0
  | initializer className => exact scaled

/-- An instruction may need more levels than what it makes happen. -/
theorem levels_lt_instruction :
    (Task.code .call).levels world before < (Task.code .instruction).levels world before := by
  have one : (world.remaining before + 1) * world.span =
      world.remaining before * world.span + world.span :=
    Nat.succ_mul _ _
  dsimp only [levels]
  rw [one]
  unfold World.span
  omega

theorem levels_preparation_le_call (className : String) :
    (Task.preparation className).levels world before ≤ (Task.code .call).levels world before := by
  have classes : (world.unmarked before).length ≤ _ := World.unmarked_length_le
  dsimp only [levels]
  omega

theorem levels_ascent {className : String} (registered : world.program.contains className) :
    (Task.ascent className).levels world before =
      (Task.preparation className).levels world before :=
  if_pos registered

theorem levels_initializer_le {className : String} :
    (Task.initializer className).levels world before ≤
      (Task.preparation className).levels world before :=
  Nat.le_trans (Nat.le_add_right _ _) (Nat.le_succ _)

end Task

namespace Program

variable {program : Program} {className : String}

theorem contains_of_superclass?
    {superclass : String}
    (found : program.superclass? className = some superclass) :
    program.contains className := by
  obtain ⟨declaration, declares, -⟩ := Option.bind_eq_some_iff.1 found
  exact Option.isSome_of_mem declares

theorem contains_of_initializer?
    {id : MethodId}
    (found : program.initializer? className = some id) :
    program.contains className := by
  obtain ⟨declaration, declares, -⟩ := Option.bind_eq_some_iff.1 (initializer?_eq_some.1 found).1
  exact Option.isSome_of_mem declares

end Program

namespace Course

variable
    {world : World}
    {Named : String → Prop}
    {task : Task}
    {levels : Nat}
    {active : List MethodId}
    {before after : Machine}
    {history : List Moment}
    {ending : Ending}

/-- What a part of a run leaves for the parts after it. -/
theorem levels_le
    (course : Course world Named task levels active before history after ending)
    (next : Task) :
    next.levels world after ≤ next.levels world before :=
  next.levels_le course.depth_eq course.executed_le course.initialized_subset

/-- A course runs out of levels only if it had fewer than its task may need. -/
theorem lt_of_exhausted
    (bounded : world.Bounded)
    (course : Course world Named task levels active before history after ending)
    (exhausted : ending = .exhausted) :
    levels < task.levels world before := by
  induction course with
  | follows first _ _ second =>
    exact Nat.lt_of_lt_of_le (second exhausted) (first.levels_le _)
  | counts _ allowed _ inside =>
    refine Nat.lt_of_lt_of_le (inside exhausted) (Nat.mul_le_mul_right _ ?_)
    exact World.remaining_counted bounded allowed
  | invokes _ inside =>
    exact Nat.lt_of_le_of_lt (inside exhausted) Task.levels_lt_instruction
  | lacksCall => exact Nat.lt_of_le_of_lt (Nat.zero_le _) Task.levels_lt_instruction
  | @enters levels _ machine _ _ _ _ _ _ _ _ _ room _ inside =>
    have fewer : levels < world.remaining machine * world.span :=
      Nat.lt_of_lt_of_le (inside exhausted)
        (Nat.mul_le_mul_right _ (World.remainingInBody_opened room))
    dsimp only [Task.levels]
    omega
  | initializes _ _ room _ inside =>
    exact Nat.lt_of_lt_of_le (inside exhausted)
      (Nat.mul_le_mul_right _ (World.remainingInBody_opened room))
  | @prepares work _ _ _ _ className _ _ single _ inside =>
    have fewer := Nat.lt_of_lt_of_le (inside exhausted) (Task.levels_preparation_le_call className)
    cases work with
    | body => exact absurd rfl single
    | instruction => exact Nat.lt_trans fewer Task.levels_lt_instruction
    | call => exact fewer
  | lacksPreparation => exact Nat.succ_pos _
  | @marks levels _ before _ className _ _ fresh _ inside =>
    have fewer := inside exhausted
    dsimp only [Task.levels] at fewer
    split at fewer
    case isTrue registered =>
      have less := World.unmarked_length_mark registered fresh
      have sum : levels <
          world.remaining before * world.span +
            (world.unmarked
              { before with initialized := before.initialized ++ [className] }).length + 1 :=
        fewer
      dsimp only [Task.levels]
      omega
    case isFalse unregistered => exact absurd fewer (Nat.not_lt_zero _)
  | isTop _ course inside =>
    have fewer := inside exhausted
    cases course with
    | initializes _ found _ _ =>
      rw [Task.levels_ascent (Program.contains_of_initializer? found)]
      exact Nat.lt_of_lt_of_le fewer Task.levels_initializer_le
    | hasNoInitializer _ => cases exhausted
    | fails => cases exhausted
  | ascends found first _ _ second =>
    have fewer := Nat.lt_of_lt_of_le (second exhausted) (first.levels_le _)
    rw [Task.levels_ascent (Program.contains_of_superclass? found)]
    exact Nat.lt_of_lt_of_le fewer Task.levels_initializer_le
  | stopsAbove found _ _ inside =>
    rw [Task.levels_ascent (Program.contains_of_superclass? found)]
    exact inside exhausted
  | _ => cases exhausted

end Course

/-- The second run is like the first, unless the first runs out of levels. -/
def Run.Agrees {Value : Type} (run other : Run Value) : Prop :=
  ∀ machine, (run.on machine).1 = .error .exhausted ∨ other.on machine = run.on machine

namespace Run
namespace Agrees

variable {Value Result : Type}

theorem refl (run : Run Value) : Agrees run run :=
  fun _ => .inr rfl

theorem exhausted (other : Run Value) : Agrees (throw .exhausted) other :=
  fun _ => .inl rfl

theorem bind
    {first firstOther : Run Value}
    {next nextOther : Value → Run Result}
    (agrees : Agrees first firstOther)
    (agreesNext : ∀ value, Agrees (next value) (nextOther value)) :
    Agrees (first >>= next) (firstOther >>= nextOther) := by
  intro machine
  rw [on_bind, on_bind]
  rcases agrees machine with exhausted | same
  · rcases ran : first.on machine with ⟨failure | value, between⟩
    · rw [ran] at exhausted
      cases exhausted
      exact .inl rfl
    · rw [ran] at exhausted
      cases exhausted
  · rw [same]
    rcases first.on machine with ⟨failure | value, between⟩
    · exact .inr rfl
    · exact agreesNext value between

theorem nested {run other : Run Value} (agrees : Agrees run other) :
    Agrees (nested run) (Run.nested other) := by
  intro machine
  rcases agrees { machine with depth := machine.depth + 1 } with exhausted | same
  · exact .inl exhausted
  · refine .inr ?_
    have opened := congrArg
      (fun ran : Except Failure Value × Machine =>
        (ran.1, { ran.2 with depth := ran.2.depth - 1 })) same
    exact opened

end Agrees

/-- The calls and initializations of the others are like those of the callees, unless these run out of
levels. -/
structure CalleesAgree (callees others : Callees) : Prop where
  invoke :
    ∀ kind method receiver arguments,
      Agrees (callees.invoke kind method receiver arguments)
        (others.invoke kind method receiver arguments)
  prepare : ∀ className, Agrees (callees.prepare className) (others.prepare className)

section Bodies

variable {world : World} {callees others : Callees} (agree : CalleesAgree callees others)
include agree

theorem callValue_agrees (locals : List Datum) (target : Call) :
    Agrees (callValue callees locals target) (callValue others locals target) :=
  .bind (.refl _) fun _ => .bind (.refl _) fun _ => agree.invoke _ _ _ _

theorem expressionValue_agrees (locals : List Datum) (expression : Expression) :
    Agrees (expressionValue world callees locals expression)
      (expressionValue world others locals expression) := by
  cases expression with
  | staticField field => exact .bind (agree.prepare _) fun _ => .refl _
  | newObject className => exact .bind (agree.prepare _) fun _ => .refl _
  | call target => exact callValue_agrees agree locals target
  | _ => exact .refl _

theorem store_agrees (locals : List Datum) (place : Expression) (value : Datum) :
    Agrees (store world callees locals place value) (store world others locals place value) := by
  cases place with
  | staticField field => exact .bind (agree.prepare _) fun _ => .refl _
  | _ => exact .refl _

theorem instructions_agree
    (receiver : Option Datum)
    (arguments locals : List Datum)
    (list : List Instruction) :
    Agrees (instructions world callees receiver arguments locals list)
      (instructions world others receiver arguments locals list) := by
  induction list generalizing locals with
  | nil => exact .refl _
  | cons instruction rest hypothesis =>
    refine .bind (.refl _) fun _ => ?_
    cases instruction with
    | bind target source => exact .bind (.refl _) fun _ => .bind (.refl _) fun _ => hypothesis _
    | assign place expression =>
      exact .bind (expressionValue_agrees agree _ _) fun _ =>
        .bind (store_agrees agree _ _ _) fun _ => hypothesis _
    | invoke target => exact .bind (callValue_agrees agree _ _) fun _ => hypothesis _
    | «return» operand =>
      cases operand with
      | none => exact .refl _
      | some operand => exact .refl _

theorem enter_agrees
    (id : MethodId)
    (method : MethodRef)
    (receiver : Option Datum)
    (arguments : List Datum) :
    Agrees (enter world callees id method receiver arguments)
      (enter world others id method receiver arguments) := by
  unfold enter
  cases world.program.body? id with
  | none => exact .refl _
  | some entered =>
    have inside :
        Agrees (body world callees entered receiver arguments)
          (body world others entered receiver arguments) :=
      instructions_agree agree _ _ _ _
    refine .bind (.refl _) fun machine => ?_
    split
    · exact .bind (.refl _) fun _ => inside.nested
    · exact inside.nested

theorem searchStart_agrees (kind : CallKind) (method : MethodRef) (receiver : Option Datum) :
    Agrees (searchStart callees kind method receiver)
      (searchStart others kind method receiver) := by
  unfold searchStart
  split
  case h_3 => exact .bind (agree.prepare _) fun _ => .refl _
  all_goals exact .refl _

theorem invokeStep_agrees
    (kind : CallKind)
    (method : MethodRef)
    (receiver : Option Datum)
    (arguments : List Datum) :
    Agrees (invokeStep world callees kind method receiver arguments)
      (invokeStep world others kind method receiver arguments) := by
  unfold invokeStep
  split
  · exact .refl _
  · split
    · exact .refl _
    · refine .bind (searchStart_agrees agree _ _ _) fun start => ?_
      split
      · exact enter_agrees agree _ _ _ _
      · exact .refl _

theorem prepareStep_agrees (className : String) :
    Agrees (prepareStep world callees className) (prepareStep world others className) := by
  have initializer :
      Agrees (runInitializer world callees className) (runInitializer world others className) := by
    unfold runInitializer
    split
    · exact .refl _
    · split
      · exact .bind (enter_agrees agree _ _ _ _) fun _ => .refl _
      · exact .refl _
  refine .bind (.refl _) fun first => ?_
  split
  · cases world.program.superclass? className with
    | none => exact initializer
    | some superclass => exact .bind (agree.prepare _) fun _ => initializer
  · exact .refl _

end Bodies

/-- With more levels a run is the same, unless it ran out of levels. -/
theorem within_agrees (world : World) {levels more : Nat} (le : levels ≤ more) :
    CalleesAgree ⟨invoke world levels, prepare world levels⟩
      ⟨invoke world more, prepare world more⟩ := by
  induction levels generalizing more with
  | zero => exact ⟨fun _ _ _ _ => .exhausted _, fun _ => .exhausted _⟩
  | succ levels hypothesis =>
    obtain ⟨more, rfl⟩ := Nat.exists_eq_add_of_lt le
    have agree :
        CalleesAgree ⟨invoke world levels, prepare world levels⟩
          ⟨invoke world (levels + more), prepare world (levels + more)⟩ :=
      hypothesis (Nat.le_add_right _ _)
    exact ⟨invokeStep_agrees agree, prepareStep_agrees agree⟩

end Run

theorem World.levels_instruction_le (world : World) (machine : Machine) :
    (Task.code .instruction).levels world machine ≤ world.levels := by
  have fewer :
      world.remaining machine + 1 ≤
        (if 0 < world.limits.depth then world.limits.depth
          else if 0 < world.limits.instructions then world.limits.instructions
          else Nat.pow 2 40) + 2 := by
    unfold remaining
    split
    · omega
    · split <;> omega
  exact Nat.mul_le_mul_right _ fewer

namespace Request

variable {world : World} {machine : Machine}

theorem agrees (request : Request) {levels more : Nat} (le : levels ≤ more) :
    Run.Agrees (request.run world levels) (request.run world more) := by
  have agree := Run.within_agrees world le
  cases request with
  | invoke kind method receiver arguments => exact agree.invoke kind method receiver arguments
  | entry name =>
    unfold run Run.entry Run.entryStep
    dsimp only
    cases Run.entryMethod? world.program name with
    | none => exact .refl _
    | some method => exact .bind (.refl _) fun _ => agree.invoke _ _ _ _

/-- With enough levels a request does not run out of them. -/
theorem not_exhausted
    (bounded : world.Bounded)
    (request : Request)
    {levels : Nat}
    (enough : world.levels ≤ levels) :
    ((request.run world levels).on machine).1 ≠ .error .exhausted := by
  intro exhausted
  have course :
      Course world (fun _ => True) (.code .instruction) levels [] machine
        (request.history world levels machine) _
        (Ending.of ((request.run world levels).on machine).1) :=
    request.takes_anyway
  rw [exhausted] at course
  have fewer := Nat.lt_of_lt_of_le (course.lt_of_exhausted bounded rfl)
    (world.levels_instruction_le machine)
  exact absurd fewer (Nat.not_lt.2 enough)

/-- With more levels than enough a request does the same. -/
theorem levels_suffice
    (bounded : world.Bounded)
    (request : Request)
    {levels : Nat}
    (enough : world.levels ≤ levels) :
    (request.run world levels).on machine = (request.run world world.levels).on machine := by
  rcases request.agrees enough machine with exhausted | same
  · exact absurd exhausted (request.not_exhausted bounded (Nat.le_refl _))
  · exact same

end Request
end AccessProfiler
