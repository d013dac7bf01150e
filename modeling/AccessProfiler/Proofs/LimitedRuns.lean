import AccessProfiler.Proofs.SufficientLevels

/-!
# Limited runs

What a machine does under its limits: it never has more calls open or more objects than they allow, and
the instructions that run are numbered from one up to no more than their limit
(`World.requests_respect_limits`).  This holds for any number of requests, whether they fail or not, and
at each moment of them; with the levels that suffice, every request comes to an end.
-/

namespace AccessProfiler

/-- The machine has no more open calls and no more objects than the limits allow. -/
structure World.Contains (world : World) (machine : Machine) : Prop where
  calls : 0 < world.limits.depth → machine.depth ≤ world.limits.depth
  limit : machine.heap.limit = world.limits.objects
  objects : 0 < world.limits.objects → machine.heap.size ≤ world.limits.objects

/-- The count of an instruction that runs. -/
def Moment.number? (moment : Moment) : Option Nat :=
  match moment.stage with
  | .executes _ => some moment.machine.executed
  | _ => none

/-- The numbers of the instructions that run between two counts follow each other without a gap, and
none is beyond the limit; only where that is reached is an instruction counted that does not run. -/
structure Numbered (limit before : Nat) (numbers : List Nat) (after : Nat) : Prop where
  consecutive : numbers = List.range' (before + 1) numbers.length
  within : 0 < limit → 0 < numbers.length → before + numbers.length ≤ limit
  least : before + numbers.length ≤ after
  most : before + numbers.length < after → 0 < limit ∧ limit < after

namespace Numbered

variable {limit before between after : Nat} {past next : List Nat}

theorem nothing (limit count : Nat) : Numbered limit count [] count :=
  ⟨rfl, nofun, Nat.le_refl _, fun beyond => absurd beyond (Nat.lt_irrefl _)⟩

/-- An instruction that runs has the next number. -/
theorem counted {limits : Limits} {machine : Machine} (allowed : Run.Allowed limits machine) :
    Numbered limits.instructions machine.executed [machine.executed + 1] (machine.executed + 1) := by
  unfold Run.Allowed at allowed
  refine ⟨rfl, fun limited _ => ?_, Nat.le_refl _, fun beyond => absurd beyond (Nat.lt_irrefl _)⟩
  exact allowed.resolve_left (Nat.pos_iff_ne_zero.1 limited)

theorem refused {limits : Limits} {machine : Machine} (refused : ¬ Run.Allowed limits machine) :
    Numbered limits.instructions machine.executed [] (machine.executed + 1) := by
  unfold Run.Allowed at refused
  exact ⟨rfl, nofun, Nat.le_succ _, fun _ => by omega⟩

/-- Once the limit is reached nothing more runs, so that there is no gap between two parts. -/
theorem append
    (numbered : Numbered limit before past between)
    (further : Numbered limit between next after) :
    Numbered limit before (past ++ next) after := by
  have within := numbered.within
  have withinNext := further.within
  have least := numbered.least
  have leastNext := further.least
  have most := numbered.most
  have mostNext := further.most
  rcases next with _ | ⟨number, others⟩
  · rw [List.append_nil]
    dsimp only [List.length_nil] at *
    exact ⟨numbered.consecutive, within, by omega, by omega⟩
  · have some : 0 < (number :: others).length := Nat.succ_pos _
    have joined : between = before + past.length := by omega
    refine ⟨?_, ?_, ?_, ?_⟩
    · rw [List.length_append, further.consecutive, numbered.consecutive, joined,
        Nat.add_right_comm]
      simp only [List.length_range']
      exact List.range'_append_1
    all_goals
      rw [List.length_append]
      omega

end Numbered

namespace World

variable {world : World} {before between after : Machine} {past next history : List Moment}

theorem Contains.fresh (world : World) : world.Contains (.fresh world.limits) :=
  ⟨fun _ => Nat.zero_le _, rfl, fun _ => Nat.zero_le _⟩

/-- Each step of a run keeps to the limits. -/
theorem steps_contained (world : World) :
    world.StepsRelate fun earlier later => world.Contains earlier → world.Contains later where
  refl := fun _ => id
  trans := fun _ _ _ first second => second ∘ first
  counts := fun _ contains => ⟨contains.calls, contains.limit, contains.objects⟩
  replaces := fun _ _ contains =>
    ⟨contains.calls, contains.limit, fun limited =>
      Heap.replace_size.le.trans (contains.objects limited)⟩
  pushes := by
    intro machine object room contains
    refine ⟨contains.calls, contains.limit, fun limited => ?_⟩
    have fits := contains.limit ▸ room
    have size : (machine.heap.objects.push object).size = machine.heap.size + 1 :=
      Array.size_push object
    show (machine.heap.objects.push object).size ≤ world.limits.objects
    omega
  writes := fun _ _ contains => ⟨contains.calls, contains.limit, contains.objects⟩
  prints := fun _ _ contains => ⟨contains.calls, contains.limit, contains.objects⟩
  opens := by
    intro machine room contains
    refine ⟨fun limited => ?_, contains.limit, contains.objects⟩
    unfold HasRoom at room
    show machine.depth + 1 ≤ world.limits.depth
    omega
  closes := fun machine contains =>
    ⟨fun limited => Nat.le_trans (Nat.sub_le _ _) (contains.calls limited), contains.limit,
      contains.objects⟩
  marks := fun _ contains => ⟨contains.calls, contains.limit, contains.objects⟩

end World

namespace Course

variable
    {world : World}
    {Named : String → Prop}
    {task : Task}
    {levels : Nat}
    {active : List MethodId}
    {before after : Machine}
    {history : List Moment}
    {ending : Ending}

/-- The count of open calls is right at every moment. -/
theorem depth_of_mem
    (course : Course world Named task levels active before history after ending)
    (right : before.depth = active.length) :
    ∀ moment ∈ history, moment.machine.depth = moment.frames.length := by
  have of_frames {machine : Machine} {frames : List Frame} {methods : List MethodId}
      (same : frames.map Frame.method = methods) (rightHere : machine.depth = methods.length) :
      machine.depth = frames.length := by
    rw [rightHere, ← same, List.length_map]
  induction course with
  | follows first _ past next =>
    exact List.forall_mem_append.2 ⟨past right, next (first.depth_eq.trans right)⟩
  | ascends _ first _ past next =>
    exact List.forall_mem_append.2 ⟨past right, next (first.depth_eq.trans right)⟩
  | counts same _ _ inside =>
    exact List.forall_mem_cons.2 ⟨of_frames same right, inside right⟩
  | shows same _ _ => exact List.forall_mem_singleton.2 (of_frames same right)
  | enters same _ _ _ _ inside =>
    exact List.forall_mem_cons.2
      ⟨congrArg (· + 1) (of_frames same right), inside (congrArg (· + 1) right)⟩
  | initializes same _ _ _ inside =>
    exact List.forall_mem_cons.2
      ⟨congrArg (· + 1) (of_frames same right), inside (congrArg (· + 1) right)⟩
  | invokes _ inside => exact inside right
  | prepares _ _ inside => exact inside right
  | marks _ _ inside => exact inside right
  | isTop _ _ inside => exact inside right
  | stopsAbove _ _ _ inside => exact inside right
  | _ => exact List.forall_mem_nil _

/-- The instructions that run are numbered one after the other. -/
theorem numbered
    (course : Course world Named task levels active before history after ending) :
    Numbered world.limits.instructions before.executed (history.filterMap Moment.number?)
      after.executed := by
  induction course with
  | follows _ _ first second => exact List.filterMap_append ▸ first.append second
  | ascends _ _ _ first second => exact List.filterMap_append ▸ first.append second
  | counts _ allowed _ inside => exact (Numbered.counted allowed).append inside
  | refuses refused => exact .refused refused
  | enters _ _ _ _ _ inside => exact inside
  | initializes _ _ _ _ inside => exact inside
  | invokes _ inside => exact inside
  | prepares _ _ inside => exact inside
  | marks _ _ inside => exact inside
  | isTop _ _ inside => exact inside
  | stopsAbove _ _ _ inside => exact inside
  | @shows _ _ _ _ _ stage _ _ needs _ =>
    cases stage with
    | executes instruction => cases needs
    | _ => exact .nothing _ _
  | _ => exact .nothing _ _

end Course

/-- All calls that a request opens are closed at its end, whether it fails or not. -/
theorem Request.depth_eq
    (world : World)
    (levels : Nat)
    (machine : Machine)
    (request : Request) :
    ((request.run world levels).on machine).2.depth = machine.depth :=
  Course.depth_eq request.takes_anyway

namespace World

variable (world : World) (levels : Nat)

theorem depth_of_mem_history
    {machine : Machine}
    (closed : machine.depth = 0)
    (requests : List Request) :
    ∀ moment ∈ world.history levels machine requests,
      moment.machine.depth = moment.frames.length := by
  induction requests generalizing machine with
  | nil => exact List.forall_mem_nil _
  | cons request rest hypothesis =>
    refine List.forall_mem_append.2 ⟨Course.depth_of_mem request.takes_anyway closed, ?_⟩
    exact hypothesis ((request.depth_eq world levels machine).trans closed)

theorem numbered_history (machine : Machine) (requests : List Request) :
    Numbered world.limits.instructions machine.executed
      ((world.history levels machine requests).filterMap Moment.number?)
      (world.serve levels machine requests).executed := by
  induction requests generalizing machine with
  | nil => exact .nothing _ _
  | cons request rest hypothesis =>
    have first : Run.Takes world (fun _ => True) (.code .instruction) levels [] machine _ _ :=
      request.takes_anyway
    exact List.filterMap_append ▸ first.numbered.append (hypothesis _)

/-- Where the nesting of calls or the number of instructions is limited, every request comes to an end,
and more levels change nothing about that.  A request leaves as many calls open as there were, also when
it fails.  Requests to a fresh machine never have more calls open, and never more objects on the heap,
than the limits allow; the instructions that they run are numbered from one to at most the limit, and
one that would run after that fails, and only its count shows. -/
theorem requests_respect_limits :
    (world.Bounded →
        ∀ (request : Request) (machine : Machine) (levels : Nat), world.levels ≤ levels →
          ((request.run world levels).on machine).1 ≠ .error .exhausted ∧
            (request.run world levels).on machine =
              (request.run world world.levels).on machine) ∧
      (∀ (request : Request) (machine : Machine) (levels : Nat),
        ((request.run world levels).on machine).2.depth = machine.depth) ∧
      (∀ (levels : Nat) (requests : List Request),
        (∀ moment ∈ world.history levels (.fresh world.limits) requests,
          moment.machine.depth = moment.frames.length ∧ world.Contains moment.machine) ∧
        world.Contains (world.serve levels (.fresh world.limits) requests) ∧
        ∃ count,
          (world.history levels (.fresh world.limits) requests).filterMap Moment.number? =
              List.range' 1 count ∧
            (0 < world.limits.instructions → count ≤ world.limits.instructions)) ∧
      ∀ (callees : Callees) (receiver : Option Datum) (arguments locals : List Datum)
        (instruction : Instruction) (rest : List Instruction) (machine : Machine),
        0 < world.limits.instructions → world.limits.instructions ≤ machine.executed →
          (Run.instructions world callees receiver arguments locals (instruction :: rest)).on
              machine =
            (.error (.excess (.instructions world.limits.instructions)), Run.counted machine) := by
  refine ⟨fun bounded request machine levels enough => ?_, fun request machine levels => ?_,
    fun levels requests => ⟨fun moment member => ?_, ?_, ?_⟩, ?_⟩
  · exact ⟨request.not_exhausted bounded enough, request.levels_suffice bounded enough⟩
  · exact request.depth_eq world levels machine
  · have linked := linked_history world.steps_contained levels (.fresh world.limits) requests
    exact ⟨world.depth_of_mem_history levels rfl requests moment member,
      linked.fromFirst moment.machine (List.mem_map_of_mem member) (.fresh world)⟩
  · exact (linked_history world.steps_contained levels _ requests).ends (.fresh world)
  · have numbered := world.numbered_history levels (.fresh world.limits) requests
    refine ⟨_, numbered.consecutive, fun limited => ?_⟩
    have within := numbered.within limited
    have start : (Machine.fresh world.limits).executed = 0 := rfl
    omega
  · intro callees receiver arguments locals instruction rest machine limited full
    have refused : ¬ Run.Allowed world.limits machine := by
      unfold Run.Allowed
      omega
    unfold Run.instructions
    rw [Run.on_bind, Run.on_tick_of_not_allowed refused]

end World

/-- A class that is its own superclass, and whose method calls itself. -/
def endlessProgram : Program where
  entries :=
    [("a.Loop",
      { name := "a.Loop"
        superclass := some "a.Loop"
        interfaces := []
        kind := .application
        flags := ⟨0⟩
        fields := []
        methods :=
          [⟨staticInitializerName, [], .void, Method.static,
              some ⟨[], [.invoke (.ofStatic ⟨"a.Loop", "run", [], .void⟩ [])]⟩⟩,
            ⟨"run", [], .void, Method.static,
              some ⟨[], [.invoke (.ofStatic ⟨"a.Loop", "run", [], .void⟩ [])]⟩⟩] })]
  distinct := by decide

/-- With room for three calls, its initializer and its method among them, a run stops at the fourth,
whatever the number of levels. -/
theorem endlessProgram_stops :
    World.Bounded ⟨endlessProgram, .standard, ⟨0, 3, 0⟩⟩ ∧
      ∀ levels, World.levels ⟨endlessProgram, .standard, ⟨0, 3, 0⟩⟩ ≤ levels →
        (((Request.entry "a.Loop.run").run ⟨endlessProgram, .standard, ⟨0, 3, 0⟩⟩ levels).on
            (.fresh ⟨0, 3, 0⟩)).1 =
          .error (.excess (.depth 3 ⟨"a.Loop", "run", [], .void⟩)) := by
  have bounded : World.Bounded ⟨endlessProgram, .standard, ⟨0, 3, 0⟩⟩ := .inl (by decide)
  refine ⟨bounded, fun levels enough => ?_⟩
  have same :=
    ((World.requests_respect_limits ⟨endlessProgram, .standard, ⟨0, 3, 0⟩⟩).1 bounded
      (.entry "a.Loop.run") (.fresh ⟨0, 3, 0⟩) levels enough).2
  rw [same]
  decide +kernel

end AccessProfiler
