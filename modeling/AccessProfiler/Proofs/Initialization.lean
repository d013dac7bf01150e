import AccessProfiler.Proofs.TakenCourses
import Mathlib.Logic.Relation

/-!
# The order of initializations

A class is marked before the class above it is initialized, and its own initializer runs after that.  So
an initializer is entered at most once, and whatever needs an initialized class finds it marked; both
hold for any requests, whether they fail or not (`Course.count_entered_le_one`, `Course.mem_of_needed`).

Up to the first failure a marked class either had its initializer entered or waits for a class above it,
whose initializer is open (`Upkeep`).  Hence an initializer comes after those above its class, except
after the ones that wait in this way: the initializer of a class may make an instance of a class two
levels below it while the class in between waits.  This is what requests show
(`World.requests_initialize_in_order`), and the order without that exception fails
(`lateProgram_enters_below_first`).
-/

namespace AccessProfiler

/-- One class is somewhere above another along the superclasses. -/
def Program.IsAbove (program : Program) : String → String → Prop :=
  Relation.TransGen fun lower upper => program.superclass? lower = some upper

/-- The method that is entered. -/
def Moment.entered? (moment : Moment) : Option MethodId :=
  match moment.stage with
  | .enters => moment.frames.head?.map Frame.method
  | _ => none

/-- The methods that are entered, in order. -/
def entered (history : List Moment) : List MethodId :=
  history.filterMap Moment.entered?

/-- The name is none of an initializer. -/
def IsOrdinary (name : String) : Prop :=
  name ≠ staticInitializerName

instance : DecidablePred IsOrdinary := fun name =>
  inferInstanceAs (Decidable (name ≠ staticInitializerName))

/-- The task is to initialize this class, which has been marked for that. -/
def Task.Owns (className : String) : Task → Prop
  | .ascent owned => owned = className
  | .initializer owned => owned = className
  | _ => False

theorem entered_append (past next : List Moment) :
    entered (past ++ next) = entered past ++ entered next :=
  List.filterMap_append

/-- Nothing is entered where a class is needed. -/
theorem Moment.entered?_of_needed
    {moment : Moment}
    {className : String}
    (needs : moment.stage.needed? = some className) :
    moment.entered? = none := by
  unfold Moment.entered?
  split
  · rename_i enters
    rw [enters] at needs
    cases needs
  · rfl

theorem count_append_le_one
    {Item : Type}
    [DecidableEq Item]
    {item : Item}
    {past next : List Item}
    (few : past.count item ≤ 1)
    (fewNext : next.count item ≤ 1)
    (apart : item ∈ past → item ∉ next) :
    (past ++ next).count item ≤ 1 := by
  rw [List.count_append]
  by_cases member : item ∈ past
  · rw [List.count_eq_zero.2 (apart member)]
    exact few
  · rw [List.count_eq_zero.2 member, Nat.zero_add]
    exact fewNext

namespace Course

variable
    {world : World}
    {task : Task}
    {levels : Nat}
    {active : List MethodId}
    {before after : Machine}
    {history : List Moment}
    {ending : Ending}
    {className : String}
    {initializer : MethodId}

/-- What is called is no initializer. -/
theorem ne_initializer
    {method : Method}
    {called : MethodId}
    (found : world.program.initializer? className = some initializer)
    (located : world.program.method? called = some method)
    (named : IsOrdinary method.name) :
    called ≠ initializer := by
  rintro rfl
  obtain ⟨-, declared, same, name⟩ := Program.owner_of_initializer? found
  rw [located] at same
  cases same
  exact named name

/-- Once a class is marked, its initializer is only entered by what marked it. -/
theorem not_mem_entered
    (course : Course world IsOrdinary task levels active before history after ending)
    (found : world.program.initializer? className = some initializer)
    (marked : className ∈ before.initialized)
    (other : ¬ task.Owns className) :
    initializer ∉ entered history := by
  induction course with
  | follows first _ past next =>
    rw [entered_append, List.mem_append, not_or]
    exact ⟨past marked other, next (first.initialized_subset marked) other⟩
  | ascends _ first _ past next =>
    rw [entered_append, List.mem_append, not_or]
    exact ⟨past marked id, next (first.initialized_subset marked) other⟩
  | counts _ _ _ inside => exact inside marked id
  | shows _ needs _ =>
    rw [entered, List.filterMap_cons_none (Moment.entered?_of_needed needs)]
    exact List.not_mem_nil
  | invokes _ inside => exact inside marked id
  | enters _ located named _ _ inside =>
    exact List.not_mem_cons_of_ne_of_not_mem (ne_initializer found located named).symm
      (inside marked id)
  | prepares _ _ inside => exact inside marked id
  | marks fresh _ inside =>
    refine inside (List.mem_append_left _ marked) ?_
    rintro rfl
    exact fresh marked
  | isTop _ _ inside => exact inside marked other
  | stopsAbove _ _ _ inside => exact inside marked id
  | initializes _ foundOther _ _ inside =>
    refine List.not_mem_cons_of_ne_of_not_mem ?_ (inside marked id)
    rintro rfl
    exact other (Program.initializer?_injective foundOther found)
  | _ => exact List.not_mem_nil

/-- An initializer is entered at most once, and then its class is marked. -/
theorem count_entered_le_one
    (course : Course world IsOrdinary task levels active before history after ending)
    (found : world.program.initializer? className = some initializer)
    (owned : task.Owns className → className ∈ before.initialized) :
    (entered history).count initializer ≤ 1 ∧
      (initializer ∈ entered history → className ∈ after.initialized) := by
  induction course with
  | follows _ second past next =>
    obtain ⟨few, marks⟩ := past False.elim
    obtain ⟨fewNext, marksNext⟩ := next False.elim
    rw [entered_append]
    refine ⟨count_append_le_one few fewNext fun member =>
      second.not_mem_entered found (marks member) id, fun member => ?_⟩
    rcases List.mem_append.1 member with inPast | inNext
    · exact second.initialized_subset (marks inPast)
    · exact marksNext inNext
  | ascends _ first second past next =>
    obtain ⟨few, marks⟩ := past False.elim
    obtain ⟨fewNext, marksNext⟩ := next fun own => first.initialized_subset (owned own)
    rw [entered_append]
    refine ⟨count_append_le_one few fewNext fun member => ?_, fun member => ?_⟩
    · refine second.not_mem_entered found (marks member) fun own => ?_
      exact first.not_mem_entered found (owned own) id member
    · rcases List.mem_append.1 member with inPast | inNext
      · exact second.initialized_subset (marks inPast)
      · exact marksNext inNext
  | counts _ _ _ inside => exact inside False.elim
  | shows _ needs _ =>
    rw [entered, List.filterMap_cons_none (Moment.entered?_of_needed needs)]
    exact ⟨Nat.zero_le 1, nofun⟩
  | invokes _ inside => exact inside False.elim
  | enters _ located named _ _ inside =>
    have apart := ne_initializer found located named
    obtain ⟨few, marks⟩ := inside False.elim
    exact ⟨(List.count_cons_of_ne apart).trans_le few, fun member =>
      marks (List.mem_of_ne_of_mem apart.symm member)⟩
  | prepares _ _ inside => exact inside False.elim
  | marks _ _ inside =>
    refine inside fun own => ?_
    cases own
    exact List.mem_append_right _ List.mem_cons_self
  | isTop _ _ inside => exact inside owned
  | stopsAbove _ _ _ inside => exact inside False.elim
  | @initializes _ _ _ _ _ frame _ past _ _ foundOther _ course inside =>
    obtain ⟨few, marks⟩ := inside False.elim
    by_cases same : frame.method = initializer
    · have own := Program.initializer?_injective (same ▸ foundOther) found
      have marked := owned own
      have once := List.count_eq_zero.2 (course.not_mem_entered found marked id)
      refine ⟨?_, fun _ => course.initialized_subset marked⟩
      show (frame.method :: entered past).count initializer ≤ 1
      rw [same, List.count_cons_self, once]
    · exact ⟨(List.count_cons_of_ne same).trans_le few, fun member =>
        marks (List.mem_of_ne_of_mem (Ne.symm same) member)⟩
  | _ => exact ⟨Nat.zero_le 1, nofun⟩

/-- What needs an initialized class finds it marked. -/
theorem mem_of_needed
    (course : Course world IsOrdinary task levels active before history after ending) :
    ∀ moment ∈ history, ∀ needed, moment.stage.needed? = some needed →
      needed ∈ moment.machine.initialized := by
  induction course with
  | follows _ _ past next => exact List.forall_mem_append.2 ⟨past, next⟩
  | ascends _ _ _ past next => exact List.forall_mem_append.2 ⟨past, next⟩
  | counts _ _ _ inside => exact List.forall_mem_cons.2 ⟨nofun, inside⟩
  | shows _ needs marked =>
    refine List.forall_mem_singleton.2 fun needed same => ?_
    cases needs.symm.trans same
    exact marked
  | enters _ _ _ _ _ inside => exact List.forall_mem_cons.2 ⟨nofun, inside⟩
  | initializes _ _ _ _ inside => exact List.forall_mem_cons.2 ⟨nofun, inside⟩
  | invokes _ inside => exact inside
  | prepares _ _ inside => exact inside
  | marks _ _ inside => exact inside
  | isTop _ _ inside => exact inside
  | stopsAbove _ _ _ inside => exact inside
  | _ => exact List.forall_mem_nil _

end Course

/-- The class waits for one above it, whose initializer is open. -/
def Program.Waits (program : Program) (active : List MethodId) (className : String) : Prop :=
  ∃ upper, program.IsAbove className upper ∧
    ∃ id ∈ active, program.initializer? upper = some id

/-- The initializer of the class, if it has one, is among these methods. -/
def Program.Settled (program : Program) (past : List MethodId) (className : String) : Prop :=
  ∀ id, program.initializer? className = some id → id ∈ past

/-- If an initializer is entered then the ones above its class have been entered before, or wait for one
that is open. -/
def Program.InOrder (program : Program) (past : List MethodId) (moment : Moment) : Prop :=
  ∀ className id, program.initializer? className = some id → moment.entered? = some id →
    ¬ program.IsAbove className className →
      ∀ upper, program.IsAbove className upper →
        program.Settled past upper ∨ program.Waits (moment.frames.tail.map Frame.method) upper

/-- Each moment is in order after those before it. -/
def Program.AllInOrder (program : Program) : List MethodId → List Moment → Prop
  | _, [] => True
  | past, moment :: rest =>
    program.InOrder past moment ∧ program.AllInOrder (past ++ moment.entered?.toList) rest

/-- What is marked is settled or among the classes whose initialization waits, and so is what stands
above it. -/
structure Program.Upkeep
    (program : Program)
    (past : List MethodId)
    (waiting marked : List String) : Prop where
  settled : ∀ className ∈ marked, className ∈ waiting ∨ program.Settled past className
  closed :
    ∀ className ∈ marked, ∀ upper, program.superclass? className = some upper → upper ∈ marked

namespace Program

variable
    {program : Program}
    {past : List MethodId}
    {waiting marked : List String}
    {active : List MethodId}
    {className upper : String}
    {id : MethodId}

/-- What is above a class is found in each list that goes up from it. -/
theorem mem_of_isAbove
    {list : List String}
    (start : ∀ name ∈ program.superclass? className, name ∈ list)
    (closed : ∀ name ∈ list, ∀ next ∈ program.superclass? name, next ∈ list)
    (above : program.IsAbove className upper) :
    upper ∈ list := by
  induction above with
  | single found => exact start _ found
  | tail _ found hypothesis => exact closed _ hypothesis _ found

theorem Settled.append (settled : program.Settled past className) (next : List MethodId) :
    program.Settled (past ++ next) className :=
  fun id found => List.mem_append_left next (settled id found)

theorem Waits.cons (waits : program.Waits active className) (id : MethodId) :
    program.Waits (id :: active) className := by
  obtain ⟨upper, above, open?, member, found⟩ := waits
  exact ⟨upper, above, open?, List.mem_cons_of_mem id member, found⟩

theorem Waits.of_above
    (above : program.IsAbove className upper)
    (found : program.initializer? upper = some id) :
    program.Waits (id :: active) className :=
  ⟨upper, above, id, List.mem_cons_self, found⟩

/-- With a class, all classes above it are marked. -/
theorem Upkeep.mem_of_above
    (upkeep : program.Upkeep past waiting marked)
    (member : className ∈ marked)
    (above : program.IsAbove className upper) :
    upper ∈ marked := by
  induction above with
  | single found => exact upkeep.closed _ member _ found
  | tail _ found hypothesis => exact upkeep.closed _ hypothesis _ found

theorem Upkeep.append
    (upkeep : program.Upkeep past waiting marked)
    (next : List MethodId) :
    program.Upkeep (past ++ next) waiting marked :=
  ⟨fun className member =>
    (upkeep.settled className member).imp_right fun settled => settled.append next, upkeep.closed⟩

theorem allInOrder_append {first second : List Moment} :
    program.AllInOrder past (first ++ second) ↔
      program.AllInOrder past first ∧ program.AllInOrder (past ++ entered first) second := by
  induction first generalizing past with
  | nil => simp [AllInOrder, entered]
  | cons moment rest hypothesis =>
    have split : past ++ entered (moment :: rest) =
        past ++ moment.entered?.toList ++ entered rest := by
      rw [List.append_assoc]
      unfold entered
      rw [List.filterMap_cons]
      cases moment.entered? <;> rfl
    rw [split]
    simp only [List.cons_append, AllInOrder, hypothesis, and_assoc]

theorem inOrder_of_none {moment : Moment} (nothing : moment.entered? = none) :
    program.InOrder past moment := by
  intro className id _ enters
  rw [nothing] at enters
  cases enters

end Program

/-- What a task may count on; above a class that waits either something is open, or it is the turn of
the class of the task. -/
def Task.Ready
    (program : Program)
    (past : List MethodId)
    (waiting marked : List String)
    (active : List MethodId) : Task → Prop
  | .code _ =>
    program.Upkeep past waiting marked ∧ ∀ lower ∈ waiting, program.Waits active lower
  | .preparation className =>
    (∀ name ∈ marked, name ∈ waiting ∨ program.Settled past name) ∧
      (∀ name ∈ marked, ∀ upper, program.superclass? name = some upper →
        upper ∈ marked ∨ upper = className) ∧
      ∀ lower ∈ waiting, program.Waits active lower ∨ program.IsAbove lower className
  | .ascent className =>
    className ∈ marked ∧
      (∀ name ∈ marked, name ∈ className :: waiting ∨ program.Settled past name) ∧
      (∀ name ∈ marked, ∀ upper, program.superclass? name = some upper →
        upper ∈ marked ∨ program.superclass? className = some upper) ∧
      ∀ lower ∈ waiting, program.Waits active lower ∨ program.IsAbove lower className
  | .initializer className =>
    className ∈ marked ∧ program.Upkeep past (className :: waiting) marked ∧
      ∀ lower ∈ waiting, program.Waits active lower ∨ program.IsAbove lower className

namespace Task.Ready

variable
    {program : Program}
    {past : List MethodId}
    {waiting marked : List String}
    {active : List MethodId}
    {className superclass : String}
    {work : Work}

/-- Code may have any class initialized. -/
theorem prepares
    (ready : (Task.code work).Ready program past waiting marked active) :
    (Task.preparation className).Ready program past waiting marked active :=
  ⟨ready.1.settled, fun name member upper found => .inl (ready.1.closed name member upper found),
    fun lower member => .inl (ready.2 lower member)⟩

/-- A class that was marked before is done with. -/
theorem isMarked
    (ready : (Task.preparation className).Ready program past waiting marked active)
    (known : className ∈ marked) :
    program.Upkeep past waiting marked := by
  obtain ⟨settled, closed, -⟩ := ready
  refine ⟨settled, fun name member upper found => ?_⟩
  exact (closed name member upper found).elim id fun same => same ▸ known

/-- From when it is marked the class waits itself. -/
theorem marks (ready : (Task.preparation className).Ready program past waiting marked active) :
    (Task.ascent className).Ready program past waiting (marked ++ [className]) active := by
  obtain ⟨settled, closed, waits⟩ := ready
  refine ⟨List.mem_append_right _ List.mem_cons_self, fun name member => ?_,
    fun name member upper found => ?_, waits⟩
  · rcases List.mem_append.1 member with before | now
    · exact (settled name before).imp_left (List.mem_cons_of_mem _)
    · exact .inl (List.mem_cons.2 (.inl (List.mem_singleton.1 now)))
  · rcases List.mem_append.1 member with before | now
    · refine .inl ?_
      rcases closed name before upper found with known | rfl
      · exact List.mem_append_left _ known
      · exact List.mem_append_right _ List.mem_cons_self
    · exact .inr (List.mem_singleton.1 now ▸ found)

theorem isTop
    (ready : (Task.ascent className).Ready program past waiting marked active)
    (top : program.superclass? className = none) :
    (Task.initializer className).Ready program past waiting marked active := by
  obtain ⟨known, settled, closed, waits⟩ := ready
  refine ⟨known, ⟨settled, fun name member upper found => ?_⟩, waits⟩
  exact (closed name member upper found).elim id fun above => nomatch top.symm.trans above

/-- The superclass may be initialized: the class and those below it wait for that. -/
theorem ascends
    (ready : (Task.ascent className).Ready program past waiting marked active)
    (found : program.superclass? className = some superclass) :
    (Task.preparation superclass).Ready program past (className :: waiting) marked active := by
  obtain ⟨-, settled, closed, waits⟩ := ready
  refine ⟨settled, fun name member upper above => ?_, ?_⟩
  · exact (closed name member upper above).imp_right fun same =>
      Option.some.inj (same.symm.trans found)
  · refine List.forall_mem_cons.2 ⟨.inr (.single found), fun lower member => ?_⟩
    exact (waits lower member).imp_right fun above => above.tail found

theorem hasNoInitializer
    (ready : (Task.initializer className).Ready program past waiting marked active)
    (absent : program.initializer? className = none) :
    program.Upkeep past waiting marked := by
  obtain ⟨-, upkeep, -⟩ := ready
  refine ⟨fun name member => ?_, upkeep.closed⟩
  rcases upkeep.settled name member with waits | settled
  · rcases List.mem_cons.1 waits with rfl | below
    · exact .inr fun id found => nomatch absent.symm.trans found
    · exact .inl below
  · exact .inr settled

/-- In the initializer of a class the classes below it wait for one that is open. -/
theorem initializes
    {id : MethodId}
    (ready : (Task.initializer className).Ready program past waiting marked active)
    (found : program.initializer? className = some id) :
    (Task.code work).Ready program (past ++ [id]) waiting marked (id :: active) := by
  obtain ⟨-, upkeep, waits⟩ := ready
  refine ⟨⟨fun name member => ?_, upkeep.closed⟩, fun lower member => ?_⟩
  · rcases upkeep.settled name member with waits | settled
    · rcases List.mem_cons.1 waits with rfl | below
      · refine .inr fun other foundOther => ?_
        cases found.symm.trans foundOther
        exact List.mem_append_right _ List.mem_cons_self
      · exact .inl below
    · exact .inr (settled.append _)
  · exact (waits lower member).elim (fun waits => waits.cons id) fun above => .of_above above found

/-- The initializer of a class is in order. -/
theorem inOrder
    {frame : Frame}
    {outer : List Frame}
    {machine : Machine}
    (ready :
      (Task.initializer className).Ready program past waiting marked (outer.map Frame.method))
    (found : program.initializer? className = some frame.method) :
    program.InOrder past ⟨.enters, frame :: outer, machine⟩ := by
  obtain ⟨known, upkeep, waits⟩ := ready
  intro other id foundOther enters acyclic upper above
  have same : frame.method = id := Option.some.inj enters
  obtain rfl := Program.initializer?_injective (same ▸ found) foundOther
  rcases upkeep.settled upper (upkeep.mem_of_above known above) with waiting | settled
  · rcases List.mem_cons.1 waiting with rfl | member
    · exact absurd above acyclic
    · refine .inr ((waits upper member).resolve_right fun below => ?_)
      exact acyclic (above.trans below)
  · exact .inl settled

/-- What is called is no initializer, and changes nothing about those. -/
theorem enters
    {other : Work}
    (ready : (Task.code work).Ready program past waiting marked active)
    (id : MethodId) :
    (Task.code other).Ready program (past ++ [id]) waiting marked (id :: active) :=
  ⟨ready.1.append _, fun lower member => (ready.2 lower member).cons id⟩

end Task.Ready

namespace Course

variable
    {world : World}
    {task : Task}
    {levels : Nat}
    {active : List MethodId}
    {before after : Machine}
    {history : List Moment}
    {ending : Ending}

/-- Initializers are entered in order, and a part of a run that ends has settled what it marked. -/
theorem inOrder
    (course : Course world IsOrdinary task levels active before history after ending)
    {past : List MethodId}
    {waiting : List String}
    (ready : task.Ready world.program past waiting before.initialized active) :
    world.program.AllInOrder past history ∧
      (ending = .normal →
        world.program.Upkeep (past ++ entered history) waiting after.initialized) := by
  induction course generalizing past waiting with
  | follows _ _ inFirst inSecond =>
    obtain ⟨ordered, upkept⟩ := inFirst ready
    obtain ⟨orderedNext, upkeptNext⟩ := inSecond ⟨upkept rfl, ready.2⟩
    refine ⟨Program.allInOrder_append.2 ⟨ordered, orderedNext⟩, fun normal => ?_⟩
    rw [entered_append, ← List.append_assoc]
    exact upkeptNext normal
  | ascends found first _ inFirst inSecond =>
    obtain ⟨ordered, upkept⟩ := inFirst (ready.ascends found)
    obtain ⟨orderedNext, upkeptNext⟩ :=
      inSecond ⟨first.initialized_subset ready.1, upkept rfl, ready.2.2.2⟩
    refine ⟨Program.allInOrder_append.2 ⟨ordered, orderedNext⟩, fun normal => ?_⟩
    rw [entered_append, ← List.append_assoc]
    exact upkeptNext normal
  | stopsAbove found stops _ inside =>
    exact ⟨(inside (ready.ascends found)).1, fun normal => absurd normal stops⟩
  | counts _ _ _ inside =>
    obtain ⟨ordered, upkept⟩ := inside ready
    refine ⟨⟨Program.inOrder_of_none rfl, ?_⟩, upkept⟩
    exact (List.append_nil past).symm ▸ ordered
  | shows _ needs _ =>
    exact ⟨⟨Program.inOrder_of_none (Moment.entered?_of_needed needs), trivial⟩, fun _ =>
      ready.1.append _⟩
  | enters _ located named _ _ inside =>
    obtain ⟨ordered, upkept⟩ := inside (ready.enters _)
    refine ⟨⟨fun className id found enters => ?_, ordered⟩, fun normal => ?_⟩
    · exact absurd (Option.some.inj enters) (ne_initializer found located named)
    · have upkeep := upkept normal
      rw [List.append_assoc] at upkeep
      exact upkeep
  | initializes same found _ _ inside =>
    obtain ⟨ordered, upkept⟩ := inside (ready.initializes found)
    subst same
    refine ⟨⟨ready.inOrder found, ordered⟩, fun normal => ?_⟩
    have upkeep := upkept normal
    rw [List.append_assoc] at upkeep
    exact upkeep
  | hasNoInitializer absent => exact ⟨trivial, fun _ => (ready.hasNoInitializer absent).append _⟩
  | isMarked known => exact ⟨trivial, fun _ => (ready.isMarked known).append _⟩
  | invokes _ inside => exact inside ready
  | prepares _ _ inside => exact inside ready.prepares
  | marks _ _ inside => exact inside ready.marks
  | isTop top _ inside => exact inside (ready.isTop top)
  | fails => exact ⟨trivial, nofun⟩
  | refuses _ => exact ⟨trivial, nofun⟩
  | lacksCall => exact ⟨trivial, nofun⟩
  | lacksPreparation => exact ⟨trivial, nofun⟩
  | _ => exact ⟨trivial, fun _ => ready.1.append _⟩

end Course

/-- All of these requests end normally, one after the other. -/
def World.AllEnd (world : World) (levels : Nat) (machine : Machine) : List Request → Prop
  | [] => True
  | request :: rest =>
    (∃ value, ((request.run world levels).on machine).1 = .ok value) ∧
      world.AllEnd levels ((request.run world levels).on machine).2 rest

theorem Program.AllInOrder.inOrder
    {program : Program}
    {past : List MethodId}
    {earlier later : List Moment}
    {moment : Moment}
    (ordered : program.AllInOrder past (earlier ++ moment :: later)) :
    program.InOrder (past ++ entered earlier) moment :=
  (Program.allInOrder_append.1 ordered).2.1

namespace World

variable
    {world : World}
    {levels : Nat}
    {machine : Machine}
    {requests : List Request}
    {className : String}
    {initializer : MethodId}

section Requests

variable
    (calls : world.program.CallsOnly IsOrdinary)
    (named : ∀ request ∈ requests, request.Calls IsOrdinary world.program)
include calls named

theorem not_mem_entered_history
    (found : world.program.initializer? className = some initializer)
    (marked : className ∈ machine.initialized) :
    initializer ∉ entered (world.history levels machine requests) := by
  induction requests generalizing machine with
  | nil => exact List.not_mem_nil
  | cons request rest hypothesis =>
    obtain ⟨namedHere, namedRest⟩ := List.forall_mem_cons.1 named
    have course : Run.Takes world IsOrdinary (.code .instruction) levels [] machine _ _ :=
      request.takes calls namedHere
    rw [history, entered_append, List.mem_append, not_or]
    exact ⟨course.not_mem_entered found marked id,
      hypothesis namedRest (course.initialized_subset marked)⟩

theorem count_entered_history
    (found : world.program.initializer? className = some initializer) :
    (entered (world.history levels machine requests)).count initializer ≤ 1 := by
  induction requests generalizing machine with
  | nil => exact Nat.zero_le 1
  | cons request rest hypothesis =>
    obtain ⟨namedHere, namedRest⟩ := List.forall_mem_cons.1 named
    have course : Run.Takes world IsOrdinary (.code .instruction) levels [] machine _ _ :=
      request.takes calls namedHere
    obtain ⟨once, marks⟩ := course.count_entered_le_one found False.elim
    rw [history, entered_append]
    exact count_append_le_one once (hypothesis namedRest) fun member =>
      not_mem_entered_history calls namedRest found (marks member)

theorem mem_of_needed_history :
    ∀ moment ∈ world.history levels machine requests, ∀ needed,
      moment.stage.needed? = some needed → needed ∈ moment.machine.initialized := by
  induction requests generalizing machine with
  | nil => exact List.forall_mem_nil _
  | cons request rest hypothesis =>
    obtain ⟨namedHere, namedRest⟩ := List.forall_mem_cons.1 named
    have course : Run.Takes world IsOrdinary (.code .instruction) levels [] machine _ _ :=
      request.takes calls namedHere
    exact List.forall_mem_append.2 ⟨course.mem_of_needed, hypothesis namedRest⟩

/-- Requests that end normally settle what they mark. -/
theorem upkeep_history
    {past : List MethodId}
    (upkeep : world.program.Upkeep past [] machine.initialized)
    (end? : world.AllEnd levels machine requests) :
    world.program.AllInOrder past (world.history levels machine requests) ∧
      world.program.Upkeep (past ++ entered (world.history levels machine requests)) []
        (world.serve levels machine requests).initialized := by
  induction requests generalizing machine past with
  | nil => exact ⟨trivial, upkeep.append _⟩
  | cons request rest hypothesis =>
    obtain ⟨namedHere, namedRest⟩ := List.forall_mem_cons.1 named
    obtain ⟨⟨value, ended⟩, endRest⟩ := end?
    have course : Run.Takes world IsOrdinary (.code .instruction) levels [] machine _ _ :=
      request.takes calls namedHere
    obtain ⟨ordered, upkept⟩ := course.inOrder ⟨upkeep, List.forall_mem_nil _⟩
    have normal : Ending.of ((request.run world levels).on machine).1 = .normal := by
      rw [ended]
      rfl
    obtain ⟨orderedRest, upkeptRest⟩ := hypothesis namedRest (upkept normal) endRest
    rw [history, entered_append, ← List.append_assoc]
    exact ⟨Program.allInOrder_append.2 ⟨ordered, orderedRest⟩, upkeptRest⟩

end Requests

/-- If nothing names an initializer, then for any requests to a fresh machine, whether they fail or
not, each initializer is entered at most once, and what needs an initialized class finds it marked.  Up
to and including the first request that fails, an initializer whose class is not above itself comes after
those of the classes above it, except for the ones that wait because the initializer of a class above
them is open. -/
theorem requests_initialize_in_order
    (world : World)
    (levels : Nat)
    (requests : List Request)
    (calls : world.program.CallsOnly IsOrdinary)
    (named : ∀ request ∈ requests, request.Calls IsOrdinary world.program) :
    (∀ className initializer, world.program.initializer? className = some initializer →
        (entered (world.history levels (.fresh world.limits) requests)).count initializer ≤ 1) ∧
      (∀ moment ∈ world.history levels (.fresh world.limits) requests, ∀ className,
        moment.stage.needed? = some className → className ∈ moment.machine.initialized) ∧
      ∀ past last rest, requests = past ++ last :: rest →
        world.AllEnd levels (.fresh world.limits) past →
          ∀ earlier moment later,
            world.history levels (.fresh world.limits) (past ++ [last]) =
                earlier ++ moment :: later →
              ∀ className initializer,
                world.program.initializer? className = some initializer →
                  moment.entered? = some initializer →
                    ¬ world.program.IsAbove className className →
                      ∀ upper, world.program.IsAbove className upper →
                        ∀ above, world.program.initializer? upper = some above →
                          above ∈ entered earlier ∨
                            ∃ higher open?, world.program.IsAbove upper higher ∧
                              world.program.initializer? higher = some open? ∧
                                open? ∈ moment.frames.tail.map Frame.method := by
  refine ⟨fun className initializer found => count_entered_history calls named found,
    mem_of_needed_history calls named, ?_⟩
  rintro past last rest rfl ended earlier moment later split className initializer found enters
    acyclic upper isAbove above foundAbove
  obtain ⟨namedPast, namedLater⟩ := List.forall_mem_append.1 named
  have nothing : world.program.Upkeep [] [] (Machine.fresh world.limits).initialized :=
    ⟨List.forall_mem_nil _, List.forall_mem_nil _⟩
  obtain ⟨ordered, upkeep⟩ := upkeep_history calls namedPast nothing ended
  have course :
      Run.Takes world IsOrdinary (.code .instruction) levels []
        (world.serve levels (.fresh world.limits) past) _ _ :=
    last.takes calls (namedLater last List.mem_cons_self)
  have orderedLast := (course.inOrder ⟨upkeep, List.forall_mem_nil _⟩).1
  have whole : world.program.AllInOrder [] (earlier ++ moment :: later) := by
    rw [← split, history_append]
    refine Program.allInOrder_append.2 ⟨ordered, ?_⟩
    rw [history, history, List.append_nil]
    exact orderedLast
  rcases whole.inOrder className initializer found enters acyclic upper isAbove with
    settled | ⟨higher, isHigher, open?, member, foundOpen⟩
  · exact .inl (settled above foundAbove)
  · exact .inr ⟨higher, open?, isHigher, foundOpen, member⟩

end World

/-- A class with an initializer and no other members. -/
def Class.initializedBy (name superclass : String) (initializer : Body) : Class where
  name := name
  superclass := some superclass
  interfaces := []
  kind := .application
  flags := ⟨0⟩
  fields := []
  methods := [⟨staticInitializerName, [], .void, Method.static, some initializer⟩]

/-- A novel is a book, a book is an item, and the initializer of items makes a novel. -/
def catalogProgram : Program where
  entries :=
    [("shop.Item", .initializedBy "shop.Item" objectClass
        ⟨[⟨"first", .object "shop.Novel"⟩], [.assign (.variable ⟨0⟩) (.newObject "shop.Novel")]⟩),
      ("shop.Book", .initializedBy "shop.Book" "shop.Item" .empty),
      ("shop.Novel", .initializedBy "shop.Novel" "shop.Book" .empty),
      ("shop.Main",
      { name := "shop.Main"
        superclass := some objectClass
        interfaces := []
        kind := .application
        flags := ⟨0⟩
        fields := []
        methods :=
          [{ name := "run"
             parameters := []
             result := .void
             flags := Method.static
             body := some
              { locals := [⟨"book", .object "shop.Book"⟩]
                instructions := [.assign (.variable ⟨0⟩) (.newObject "shop.Book")] } }] })]
  distinct := by decide

/-- The class of novels is not above itself. -/
theorem catalogProgram_acyclic : ¬ catalogProgram.IsAbove "shop.Novel" "shop.Novel" := by
  intro above
  have member : "shop.Novel" ∈ ["shop.Book", "shop.Item", objectClass] :=
    Program.mem_of_isAbove (by decide) (by decide) above
  revert member
  decide

/-- Where a book is made first, the initializer of novels is entered before that of books: the latter
waits for the one of items, which makes a novel. -/
theorem catalogProgram_enters_below_first :
    catalogProgram.CallsOnly IsOrdinary ∧
      (Request.entry "shop.Main.run").Calls IsOrdinary catalogProgram ∧
      ¬ ∀ earlier moment later,
        World.history ⟨catalogProgram, .standard, .standard⟩ 10 (.fresh .standard)
            [.entry "shop.Main.run"] = earlier ++ moment :: later →
          ∀ className initializer, catalogProgram.initializer? className = some initializer →
            moment.entered? = some initializer →
              ¬ catalogProgram.IsAbove className className →
                ∀ upper, catalogProgram.IsAbove className upper →
                  ∀ above, catalogProgram.initializer? upper = some above →
                    above ∈ entered earlier := by
  refine ⟨by decide +kernel, by decide +kernel, fun ordered => ?_⟩
  have shown :
      entered
          (World.history ⟨catalogProgram, .standard, .standard⟩ 10 (.fresh .standard)
            [.entry "shop.Main.run"]) =
        [⟨"shop.Main", 0⟩, ⟨"shop.Item", 0⟩] ++ ⟨"shop.Novel", 0⟩ :: [⟨"shop.Book", 0⟩] := by
    decide +kernel
  obtain ⟨early, rest, split, before, others⟩ := List.filterMap_eq_append_iff.1 shown
  obtain ⟨skipped, moment, later, rfl, silent, enters, -⟩ := List.filterMap_eq_cons_iff.1 others
  have nothing : entered skipped = [] := List.filterMap_eq_nil_iff.2 silent
  have above : catalogProgram.IsAbove "shop.Novel" "shop.Book" := .single (by decide)
  have member :=
    ordered (early ++ skipped) moment later (split.trans (List.append_assoc _ _ _).symm)
      "shop.Novel" ⟨"shop.Novel", 0⟩ (by decide) enters catalogProgram_acyclic "shop.Book" above
      ⟨"shop.Book", 0⟩ (by decide)
  rw [entered_append, nothing, List.append_nil, entered, before] at member
  revert member
  decide

/-- That novels come first is as it should be: the initializer of items is open. -/
theorem catalogProgram_initializes_in_order :
    catalogProgram.CallsOnly IsOrdinary ∧
      (∀ request ∈ [Request.entry "shop.Main.run"],
        request.Calls IsOrdinary catalogProgram) ∧
      (entered
          (World.history ⟨catalogProgram, .standard, .standard⟩ 10 (.fresh .standard)
            [.entry "shop.Main.run"])).count ⟨"shop.Novel", 0⟩ ≤ 1 ∧
      ∀ earlier moment later,
        World.history ⟨catalogProgram, .standard, .standard⟩ 10 (.fresh .standard)
            [.entry "shop.Main.run"] = earlier ++ moment :: later →
          moment.entered? = some ⟨"shop.Novel", 0⟩ →
            ⟨"shop.Book", 0⟩ ∈ entered earlier ∨
              ∃ higher open?, catalogProgram.IsAbove "shop.Book" higher ∧
                catalogProgram.initializer? higher = some open? ∧
                  open? ∈ moment.frames.tail.map Frame.method := by
  have calls : catalogProgram.CallsOnly IsOrdinary := by decide +kernel
  have named :
      ∀ request ∈ [Request.entry "shop.Main.run"], request.Calls IsOrdinary catalogProgram := by
    decide +kernel
  obtain ⟨once, -, inOrder⟩ :=
    World.requests_initialize_in_order ⟨catalogProgram, .standard, .standard⟩ 10
      [.entry "shop.Main.run"] calls named
  refine ⟨calls, named, once "shop.Novel" _ (by decide), fun earlier moment later split enters => ?_⟩
  exact inOrder [] _ [] rfl trivial earlier moment later split "shop.Novel" _ (by decide) enters
    catalogProgram_acyclic "shop.Book" (.single (by decide)) _ (by decide)

end AccessProfiler
