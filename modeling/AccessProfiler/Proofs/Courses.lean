import AccessProfiler.Proofs.Lookups
import AccessProfiler.Proofs.Moments
import AccessProfiler.Proofs.RunRules

/-!
# Courses

The course of a run says what becomes of the machine step by step, and which moments there are on the
way; values are left out.  It has a rule for each kind of step: an instruction is counted or refused, an
object is changed or added, a static field is written, a line is printed, a class is marked, a body is
entered and left.  A run that fails has a course as well, which breaks off; and a course tells apart the
failures of the program from those of a run that was given too few levels.

What each of these steps keeps, whole runs keep, by induction on their courses.  Here that is done for
what the later inductions need themselves: the classes that are marked, the number of open calls, and
the count of instructions.
-/

namespace AccessProfiler

/-- What of an object never changes: that it is an instance of a class, or else an array of a type and
a length. -/
def HeapObject.shape : HeapObject → String ⊕ (Ty × Nat)
  | .instanceOf className _ => .inl className
  | .array element values => .inr (element, values.size)

/-- The initializer of a class: its method of that name without parameters, if that has a body. -/
def Program.initializer? (program : Program) (className : String) : Option MethodId :=
  (program.findMethod? className staticInitializerName []).filter fun id =>
    (program.body? id).isSome

/-- One more call may be open. -/
def World.HasRoom (world : World) (machine : Machine) : Prop :=
  world.limits.depth = 0 ∨ machine.depth < world.limits.depth

/-- What code is run. -/
inductive Work
  /-- The instructions of a body. -/
  | body
  /-- What a single instruction does. -/
  | instruction
  /-- What a single call does. -/
  | call
deriving DecidableEq

/-- What a part of a run is for. -/
inductive Task
  /-- Code runs. -/
  | code (work : Work)
  /-- A class is initialized unless that has been done. -/
  | preparation (className : String)
  /-- A class has been marked, and what is above it is initialized before it. -/
  | ascent (className : String)
  /-- What is above a class is initialized, and it remains to run its own initializer. -/
  | initializer (className : String)

/-- How a part of a run ends. -/
inductive Ending
  /-- It is done. -/
  | normal
  /-- The program failed, or reached a limit. -/
  | failed
  /-- There were too few levels to tell. -/
  | exhausted
deriving DecidableEq

/-- How a run with this outcome ended. -/
def Ending.of {Value : Type} : Except Failure Value → Ending
  | .ok _ => .normal
  | .error .exhausted => .exhausted
  | .error _ => .failed

theorem Ending.of_failure
    {Value : Type}
    {failure : Failure}
    (other : failure ≠ .exhausted) :
    of (.error failure : Except Failure Value) = .failed := by
  cases failure with
  | exhausted => exact absurd rfl other
  | _ => rfl

/-- What has failed has failed whatever its value would have been. -/
theorem Ending.of_error
    {Value : Type}
    (Result : Type)
    (failure : Failure) :
    of (.error failure : Except Failure Value) = of (.error failure : Except Failure Result) := by
  cases failure <;> rfl

theorem Ending.of_error_ne {Value : Type} (failure : Failure) :
    of (.error failure : Except Failure Value) ≠ .normal := by
  cases failure <;> nofun

/-- A part of a run for a task, which may nest a number of levels deep and runs during open calls of
these methods, takes the one machine to the other through these moments, and ends in this way.  All
methods that are called have names of a certain kind. -/
inductive Course (world : World) (Named : String → Prop) :
    Task → Nat → List MethodId → Machine → List Moment → Machine → Ending → Prop
  /-- The part fails. -/
  | fails {task : Task} {levels : Nat} {active : List MethodId} {machine : Machine} :
    Course world Named task levels active machine [] machine .failed
  /-- Nothing more is to be done. -/
  | ends {work : Work} {levels : Nat} {active : List MethodId} {machine : Machine} :
    Course world Named (.code work) levels active machine [] machine .normal
  /-- A part that ends is followed by another. -/
  | follows
      {work : Work} {levels : Nat} {active : List MethodId} {before between after : Machine}
      {past next : List Moment} {ending : Ending} :
    Course world Named (.code work) levels active before past between .normal →
    Course world Named (.code work) levels active between next after ending →
    Course world Named (.code work) levels active before (past ++ next) after ending
  /-- An instruction is counted and runs. -/
  | counts
      {levels : Nat} {active : List MethodId} {before after : Machine} {frames : List Frame}
      {instruction : Instruction} {history : List Moment} {ending : Ending} :
    frames.map Frame.method = active →
    Run.Allowed world.limits before →
    Course world Named (.code .instruction) levels active (Run.counted before) history after
      ending →
    Course world Named (.code .body) levels active before
      (⟨.executes instruction, frames, Run.counted before⟩ :: history) after ending
  /-- An instruction is counted, and may not run. -/
  | refuses {levels : Nat} {active : List MethodId} {machine : Machine} :
    ¬ Run.Allowed world.limits machine →
    Course world Named (.code .body) levels active machine [] (Run.counted machine) .failed
  /-- An object is changed. -/
  | replaces
      {levels : Nat} {active : List MethodId} {machine : Machine} {slot : Nat}
      {old object : HeapObject} :
    machine.heap.objects[slot]? = some old →
    object.shape = old.shape →
    Course world Named (.code .instruction) levels active machine []
      { machine with heap := machine.heap.replace slot object } .normal
  /-- An object is added. -/
  | pushes
      {levels : Nat} {active : List MethodId} {machine : Machine} {object : HeapObject} :
    machine.heap.limit = 0 ∨ machine.heap.size < machine.heap.limit →
    Course world Named (.code .instruction) levels active machine []
      { machine with
        heap := { machine.heap with objects := machine.heap.objects.push object } } .normal
  /-- A static field is written. -/
  | writes
      {levels : Nat} {active : List MethodId} {machine : Machine} {statics : FieldTable} :
    Course world Named (.code .instruction) levels active machine []
      { machine with statics } .normal
  /-- A line is printed. -/
  | prints
      {levels : Nat} {active : List MethodId} {machine : Machine} {line : TraceLine} :
    Course world Named (.code .call) levels active machine []
      { machine with trace := machine.trace ++ [line] } .normal
  /-- Something happens that needs an initialized class. -/
  | shows
      {work : Work} {levels : Nat} {active : List MethodId} {machine : Machine}
      {frames : List Frame} {stage : Stage} {className : String} :
    frames.map Frame.method = active →
    stage.needed? = some className →
    className ∈ machine.initialized →
    Course world Named (.code work) levels active machine [⟨stage, frames, machine⟩] machine
      .normal
  /-- An instruction makes a call. -/
  | invokes
      {levels : Nat} {active : List MethodId} {before after : Machine} {history : List Moment}
      {ending : Ending} :
    Course world Named (.code .call) levels active before history after ending →
    Course world Named (.code .instruction) (levels + 1) active before history after ending
  /-- There are no levels left for a call. -/
  | lacksCall {active : List MethodId} {machine : Machine} :
    Course world Named (.code .instruction) 0 active machine [] machine .exhausted
  /-- A call enters a method. -/
  | enters
      {levels : Nat} {active : List MethodId} {machine inner : Machine} {outer : List Frame}
      {frame : Frame} {method : Method} {history : List Moment} {ending : Ending} :
    outer.map Frame.method = active →
    world.program.method? frame.method = some method →
    Named method.name →
    world.HasRoom machine →
    Course world Named (.code .body) levels (frame.method :: active)
      { machine with depth := machine.depth + 1 } history inner ending →
    Course world Named (.code .call) levels active machine
      (⟨.enters, frame :: outer, { machine with depth := machine.depth + 1 }⟩ :: history)
      { inner with depth := inner.depth - 1 } ending
  /-- An instruction or a call has a class initialized. -/
  | prepares
      {work : Work} {levels : Nat} {active : List MethodId} {before after : Machine}
      {className : String} {history : List Moment} {ending : Ending} :
    work ≠ .body →
    Course world Named (.preparation className) levels active before history after ending →
    Course world Named (.code work) levels active before history after ending
  /-- There are no levels left for an initialization. -/
  | lacksPreparation {active : List MethodId} {machine : Machine} {className : String} :
    Course world Named (.preparation className) 0 active machine [] machine .exhausted
  /-- The initialization of the class has begun before. -/
  | isMarked
      {levels : Nat} {active : List MethodId} {machine : Machine} {className : String} :
    className ∈ machine.initialized →
    Course world Named (.preparation className) levels active machine [] machine .normal
  /-- The class is marked. -/
  | marks
      {levels : Nat} {active : List MethodId} {before after : Machine} {className : String}
      {history : List Moment} {ending : Ending} :
    className ∉ before.initialized →
    Course world Named (.ascent className) levels active
      { before with initialized := before.initialized ++ [className] } history after ending →
    Course world Named (.preparation className) (levels + 1) active before history after ending
  /-- The class has no superclass. -/
  | isTop
      {levels : Nat} {active : List MethodId} {before after : Machine} {className : String}
      {history : List Moment} {ending : Ending} :
    world.program.superclass? className = none →
    Course world Named (.initializer className) levels active before history after ending →
    Course world Named (.ascent className) levels active before history after ending
  /-- The superclass is initialized first. -/
  | ascends
      {levels : Nat} {active : List MethodId} {before between after : Machine}
      {className superclass : String} {past next : List Moment} {ending : Ending} :
    world.program.superclass? className = some superclass →
    Course world Named (.preparation superclass) levels active before past between .normal →
    Course world Named (.initializer className) levels active between next after ending →
    Course world Named (.ascent className) levels active before (past ++ next) after ending
  /-- The initialization of the superclass breaks off. -/
  | stopsAbove
      {levels : Nat} {active : List MethodId} {before after : Machine}
      {className superclass : String} {history : List Moment} {ending : Ending} :
    world.program.superclass? className = some superclass →
    ending ≠ .normal →
    Course world Named (.preparation superclass) levels active before history after ending →
    Course world Named (.ascent className) levels active before history after ending
  /-- There is no initializer to run. -/
  | hasNoInitializer
      {levels : Nat} {active : List MethodId} {machine : Machine} {className : String} :
    world.program.initializer? className = none →
    Course world Named (.initializer className) levels active machine [] machine .normal
  /-- The initializer is entered. -/
  | initializes
      {levels : Nat} {active : List MethodId} {machine inner : Machine} {outer : List Frame}
      {frame : Frame} {className : String} {history : List Moment} {ending : Ending} :
    outer.map Frame.method = active →
    world.program.initializer? className = some frame.method →
    world.HasRoom machine →
    Course world Named (.code .body) levels (frame.method :: active)
      { machine with depth := machine.depth + 1 } history inner ending →
    Course world Named (.initializer className) levels active machine
      (⟨.enters, frame :: outer, { machine with depth := machine.depth + 1 }⟩ :: history)
      { inner with depth := inner.depth - 1 } ending

namespace Program

variable {program : Program} {className : String} {id : MethodId}

theorem initializer?_eq_some :
    program.initializer? className = some id ↔
      program.findMethod? className staticInitializerName [] = some id ∧
        (program.body? id).isSome :=
  Option.filter_eq_some_iff

/-- The initializer is a method of that name, declared by the class itself. -/
theorem owner_of_initializer? (found : program.initializer? className = some id) :
    id.owner = className ∧
      ∃ method, program.method? id = some method ∧ method.name = staticInitializerName := by
  obtain ⟨owned, method, located, named, -⟩ :=
    findMethod?_eq_some (initializer?_eq_some.1 found).1
  exact ⟨owned, method, located, named⟩

/-- An initializer belongs to one class. -/
theorem initializer?_injective
    {other : String}
    (found : program.initializer? className = some id)
    (foundOther : program.initializer? other = some id) :
    className = other :=
  (owner_of_initializer? found).1.symm.trans (owner_of_initializer? foundOther).1

end Program

/-- A relation that is kept to along a run, and to which each of its steps keeps. -/
structure World.StepsRelate (world : World) (Related : Machine → Machine → Prop) : Prop where
  refl : ∀ machine, Related machine machine
  trans :
    ∀ first second third, Related first second → Related second third → Related first third
  counts : ∀ machine, Related machine (Run.counted machine)
  replaces :
    ∀ {machine : Machine} {slot : Nat} {old object : HeapObject},
      machine.heap.objects[slot]? = some old → object.shape = old.shape →
        Related machine { machine with heap := machine.heap.replace slot object }
  pushes :
    ∀ {machine : Machine} {object : HeapObject},
      machine.heap.limit = 0 ∨ machine.heap.size < machine.heap.limit →
        Related machine
          { machine with
            heap := { machine.heap with objects := machine.heap.objects.push object } }
  writes : ∀ machine statics, Related machine { machine with statics }
  prints : ∀ machine trace, Related machine { machine with trace }
  opens :
    ∀ {machine}, world.HasRoom machine → Related machine { machine with depth := machine.depth + 1 }
  closes : ∀ machine, Related machine { machine with depth := machine.depth - 1 }
  marks :
    ∀ {machine : Machine} {className : String}, className ∉ machine.initialized →
      Related machine { machine with initialized := machine.initialized ++ [className] }

/-- The machines are related in their order, and to a first and a last one. -/
structure Linked
    (Related : Machine → Machine → Prop)
    (first : Machine)
    (machines : List Machine)
    (last : Machine) : Prop where
  ends : Related first last
  fromFirst : ∀ machine ∈ machines, Related first machine
  toLast : ∀ machine ∈ machines, Related machine last
  inOrder : machines.Pairwise Related

namespace Linked

variable
    {Related : Machine → Machine → Prop}
    {first between last : Machine}
    {past next machines : List Machine}

theorem single (related : Related first last) : Linked Related first [] last :=
  ⟨related, nofun, nofun, .nil⟩

/-- The first and the last machine may be listed with the others. -/
theorem pairwise (linked : Linked Related first machines last) :
    (first :: (machines ++ [last])).Pairwise Related := by
  refine List.pairwise_cons.2 ⟨List.forall_mem_append.2 ⟨linked.fromFirst, ?_⟩,
    List.pairwise_append.2 ⟨linked.inOrder, List.pairwise_singleton _ _, ?_⟩⟩
  · exact List.forall_mem_singleton.2 linked.ends
  · exact fun machine member => List.forall_mem_singleton.2 (linked.toLast machine member)

variable
    (trans : ∀ one two three, Related one two → Related two three → Related one three)
include trans

/-- What leads up to the first machine may be added in front of it. -/
theorem after_step
    (related : Related first between)
    (linked : Linked Related between machines last) :
    Linked Related first machines last :=
  ⟨trans _ _ _ related linked.ends,
    fun machine member => trans _ _ _ related (linked.fromFirst machine member), linked.toLast,
    linked.inOrder⟩

/-- What leads on from the last machine may be added behind it. -/
theorem before_step
    (linked : Linked Related first machines between)
    (related : Related between last) :
    Linked Related first machines last :=
  ⟨trans _ _ _ linked.ends related, linked.fromFirst,
    fun machine member => trans _ _ _ (linked.toLast machine member) related, linked.inOrder⟩

/-- The machine that a step leads to may be listed. -/
theorem cons
    (related : Related first between)
    (linked : Linked Related between machines last) :
    Linked Related first (between :: machines) last := by
  have whole := linked.after_step trans related
  refine ⟨whole.ends, ?_, ?_, List.pairwise_cons.2 ⟨linked.fromFirst, linked.inOrder⟩⟩
  · exact List.forall_mem_cons.2 ⟨related, whole.fromFirst⟩
  · exact List.forall_mem_cons.2 ⟨linked.ends, linked.toLast⟩

theorem append
    (linked : Linked Related first past between)
    (further : Linked Related between next last) :
    Linked Related first (past ++ next) last := by
  refine ⟨trans _ _ _ linked.ends further.ends, ?_, ?_, List.pairwise_append.2 ⟨linked.inOrder,
    further.inOrder, fun machine member other memberOther =>
      trans _ _ _ (linked.toLast machine member) (further.fromFirst other memberOther)⟩⟩
  · exact List.forall_mem_append.2
      ⟨linked.fromFirst, (further.after_step trans linked.ends).fromFirst⟩
  · exact List.forall_mem_append.2
      ⟨(linked.before_step trans further.ends).toLast, further.toLast⟩

end Linked

namespace Course

variable
    {world : World}
    {Named : String → Prop}
    {task : Task}
    {levels : Nat}
    {active : List MethodId}
    {before after : Machine}
    {history : List Moment}
    {ending : Ending}
    {className : String}

/-- All machines that a part of a run shows, the first and the last included, are related in their
order if its steps are. -/
theorem linked
    {Related : Machine → Machine → Prop}
    (steps : world.StepsRelate Related)
    (course : Course world Named task levels active before history after ending) :
    Linked Related before (history.map Moment.machine) after := by
  induction course with
  | fails => exact .single (steps.refl _)
  | ends => exact .single (steps.refl _)
  | follows _ _ first second => exact List.map_append ▸ first.append steps.trans second
  | counts _ _ _ inside => exact inside.cons steps.trans (steps.counts _)
  | refuses _ => exact .single (steps.counts _)
  | replaces found same => exact .single (steps.replaces found same)
  | pushes room => exact .single (steps.pushes room)
  | writes => exact .single (steps.writes _ _)
  | prints => exact .single (steps.prints _ _)
  | shows _ _ _ => exact (Linked.single (steps.refl _)).cons steps.trans (steps.refl _)
  | invokes _ inside => exact inside
  | lacksCall => exact .single (steps.refl _)
  | enters _ _ _ room _ inside =>
    exact (inside.cons steps.trans (steps.opens room)).before_step steps.trans (steps.closes _)
  | prepares _ _ inside => exact inside
  | lacksPreparation => exact .single (steps.refl _)
  | isMarked _ => exact .single (steps.refl _)
  | marks fresh _ inside => exact inside.after_step steps.trans (steps.marks fresh)
  | isTop _ _ inside => exact inside
  | ascends _ _ _ first second => exact List.map_append ▸ first.append steps.trans second
  | stopsAbove _ _ _ inside => exact inside
  | hasNoInitializer _ => exact .single (steps.refl _)
  | initializes _ _ room _ inside =>
    exact (inside.cons steps.trans (steps.opens room)).before_step steps.trans (steps.closes _)

/-- A class that is marked stays so. -/
theorem initialized_subset
    (course : Course world Named task levels active before history after ending) :
    before.initialized ⊆ after.initialized := by
  have steps : world.StepsRelate fun earlier later => earlier.initialized ⊆ later.initialized :=
    { refl := fun _ => List.Subset.refl _
      trans := fun _ _ _ first second _ member => second (first member)
      counts := fun _ => List.Subset.refl _
      replaces := fun _ _ => List.Subset.refl _
      pushes := fun _ => List.Subset.refl _
      writes := fun _ _ => List.Subset.refl _
      prints := fun _ _ => List.Subset.refl _
      opens := fun _ => List.Subset.refl _
      closes := fun _ => List.Subset.refl _
      marks := fun _ => List.subset_append_left _ _ }
  exact (course.linked steps).ends

/-- Instructions are only ever counted on. -/
theorem executed_le
    (course : Course world Named task levels active before history after ending) :
    before.executed ≤ after.executed := by
  have steps : world.StepsRelate fun earlier later => earlier.executed ≤ later.executed :=
    { refl := fun _ => Nat.le_refl _
      trans := fun _ _ _ => Nat.le_trans
      counts := fun _ => Nat.le_succ _
      replaces := fun _ _ => Nat.le_refl _
      pushes := fun _ => Nat.le_refl _
      writes := fun _ _ => Nat.le_refl _
      prints := fun _ _ => Nat.le_refl _
      opens := fun _ => Nat.le_refl _
      closes := fun _ => Nat.le_refl _
      marks := fun _ => Nat.le_refl _ }
  exact (course.linked steps).ends

theorem mem_initialized
    (course :
      Course world Named (.preparation className) levels active before history after .normal) :
    className ∈ after.initialized := by
  cases course with
  | isMarked known => exact known
  | marks _ inside =>
    exact inside.initialized_subset (List.mem_append_right _ List.mem_cons_self)

/-- All calls that a part of a run opens are closed at its end, however it ends. -/
theorem depth_eq
    (course : Course world Named task levels active before history after ending) :
    after.depth = before.depth := by
  induction course with
  | follows _ _ first second => exact second.trans first
  | ascends _ _ _ first second => exact second.trans first
  | counts _ _ _ inside => exact inside
  | invokes _ inside => exact inside
  | enters _ _ _ _ _ inside => exact congrArg (· - 1) inside
  | initializes _ _ _ _ inside => exact congrArg (· - 1) inside
  | prepares _ _ inside => exact inside
  | isTop _ _ inside => exact inside
  | stopsAbove _ _ _ inside => exact inside
  | marks _ _ inside => exact inside
  | _ => rfl

end Course
end AccessProfiler
