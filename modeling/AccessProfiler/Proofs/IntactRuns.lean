import AccessProfiler.Proofs.Soundness
import AccessProfiler.Proofs.TakenCourses

/-!
# Intact runs

At every moment of the runs of entries, no reference dangles that a static field, a field of an object,
an element of an array or an open call holds (`Moment.Intact`).  So no such run ever fails for a dangling
reference, however else it fails, and the machine that it leaves is intact again
(`Run.Secure`, `World.entries_keep_heap`).

Objects stay where they are and what they are: along every run the heap is only ever extended
(`Heap.Extends`), and an operation on the heap that fails leaves it as it was.
-/

namespace AccessProfiler

/-- No reference of a machine dangles. -/
abbrev Machine.Intact (machine : Machine) : Prop :=
  machine.Sound fun _ => True

/-- All that an open call holds lives on a heap of this size. -/
structure Frame.Lives (size : Nat) (frame : Frame) : Prop where
  receiver : ∀ given ∈ frame.receiver, given.Lives size
  arguments : ∀ given ∈ frame.arguments, given.Lives size
  locals : ∀ value ∈ frame.locals, value.Lives size

/-- No reference dangles at this moment. -/
structure Moment.Intact (moment : Moment) : Prop where
  machine : moment.machine.Intact
  frames : ∀ frame ∈ moment.frames, frame.Lives moment.machine.heap.size

/-- A reference leads to nothing. -/
def Failure.Dangles : Failure → Prop
  | .fault (.danglingReference _) => True
  | _ => False

theorem Failure.Dangles.isInternal {failure : Failure} (dangles : failure.Dangles) :
    failure.IsInternal := by
  unfold Dangles at dangles
  split at dangles
  · trivial
  · exact dangles.elim

theorem Failure.IsForeign.of_dangles {failure : Failure} (dangles : failure.Dangles) :
    failure.IsForeign :=
  .inr dangles.isInternal

/-- Each object is still there, and of the same shape. -/
def Heap.Extends (earlier later : Heap) : Prop :=
  ∀ (slot : Nat) (object : HeapObject), earlier.objects[slot]? = some object →
    ∃ other, later.objects[slot]? = some other ∧ other.shape = object.shape

namespace Heap.Extends

variable {heap later last : Heap}

theorem refl (heap : Heap) : heap.Extends heap :=
  fun _ object found => ⟨object, found, rfl⟩

theorem trans (grows : heap.Extends later) (further : later.Extends last) :
    heap.Extends last := by
  intro slot object found
  obtain ⟨other, foundOther, same⟩ := grows slot object found
  obtain ⟨final, foundFinal, sameFinal⟩ := further slot other foundOther
  exact ⟨final, foundFinal, sameFinal.trans same⟩

theorem replace
    {slot : Nat}
    {old object : HeapObject}
    (found : heap.objects[slot]? = some old)
    (same : object.shape = old.shape) :
    heap.Extends (heap.replace slot object) := by
  intro other present located
  rw [replace_get?]
  split
  · rename_i here
    obtain ⟨rfl, -⟩ := here
    cases found.symm.trans located
    exact ⟨object, rfl, same⟩
  · exact ⟨present, located, rfl⟩

theorem push (heap : Heap) (object : HeapObject) :
    heap.Extends { heap with objects := heap.objects.push object } :=
  fun _ present located => ⟨present, push_get?_of_some located object, rfl⟩

end Heap.Extends

/-- Each step of a run at most extends the heap. -/
theorem World.steps_extend (world : World) :
    world.StepsRelate fun earlier later => earlier.heap.Extends later.heap where
  refl := fun machine => .refl machine.heap
  trans := fun _ _ _ => .trans
  counts := fun machine => .refl machine.heap
  replaces := .replace
  pushes := fun _ => .push _ _
  writes := fun machine _ => .refl machine.heap
  prints := fun machine _ => .refl machine.heap
  opens := fun _ => .refl _
  closes := fun machine => .refl machine.heap
  marks := fun _ => .refl _

theorem Frame.Lives.mono
    {frame : Frame}
    {size larger : Nat}
    (lives : frame.Lives size)
    (le : size ≤ larger) :
    frame.Lives larger :=
  ⟨fun given member => (lives.receiver given member).mono le,
    fun given member => (lives.arguments given member).mono le,
    fun value member => (lives.locals value member).mono le⟩

namespace Run

variable {Value Result : Type} {before : Machine} {history : List Moment}

/-- From this machine, the run shows intact moments only, and where it fails it leaves an intact machine
and not for a dangling reference. -/
structure Secure (before : Machine) (run : Run Value) (history : List Moment) : Prop where
  moments : ∀ moment ∈ history, moment.Intact
  fails : ∀ failure after, Fails run before failure after → after.Intact ∧ ¬ failure.Dangles

namespace Secure

theorem of_stays
    {run : Run Value}
    (intact : before.Intact)
    (stays :
      ∀ failure after, Fails run before failure after → after = before ∧ ¬ failure.Dangles) :
    Secure before run [] := by
  refine ⟨List.forall_mem_nil _, fun failure after fails => ?_⟩
  obtain ⟨rfl, other⟩ := stays failure after fails
  exact ⟨intact, other⟩

/-- What fails where it is, and not for a dangling reference, is secure. -/
theorem of_error
    {run : Run Value}
    {failure : Failure}
    (intact : before.Intact)
    (failed : run.on before = (.error failure, before))
    (other : ¬ failure.Dangles) :
    Secure before run [] := by
  refine of_stays intact fun problem after fails => ?_
  obtain ⟨same, rfl⟩ := Prod.mk.inj (failed.symm.trans fails)
  cases same
  exact ⟨rfl, other⟩

/-- What ends normally is secure. -/
theorem of_ends
    {run : Run Value}
    {value : Value}
    {after : Machine}
    (ends : Ends run before value after) :
    Secure before run [] :=
  ⟨List.forall_mem_nil _, fun _ _ fails => nomatch ends.symm.trans fails⟩

theorem of_quiet {run : Run Value} (intact : before.Intact) (quiet : Quiet run) :
    Secure before run [] := by
  refine of_stays intact fun failure after fails => ⟨?_, fun dangles => ?_⟩
  · exact (congrArg Prod.snd fails).symm.trans (quiet.keeps before)
  · exact quiet.avoids before failure after fails dangles.isInternal

theorem bind
    {first : Run Value}
    {next : Value → Run Result}
    {further : Value → Machine → List Moment}
    (secure : Secure before first history)
    (secureNext :
      ∀ value between, Ends first before value between →
        Secure between (next value) (further value between)) :
    Secure before (first >>= next) (history ++ onward first before further) := by
  constructor
  · refine List.forall_mem_append.2 ⟨secure.moments, ?_⟩
    rcases ran : first.on before with ⟨failure | value, between⟩
    · rw [onward, ran]
      exact List.forall_mem_nil _
    · rw [onward_of_ends ran]
      exact (secureNext value between ran).moments
  · intro failure after fails
    rcases Fails.bind_iff.1 fails with failsFirst | ⟨value, between, ends, failsNext⟩
    · exact secure.fails failure after failsFirst
    · exact (secureNext value between ends).fails failure after failsNext

theorem after_ends
    {first : Run Value}
    {next : Value → Run Result}
    {between : Machine}
    {value : Value}
    (ends : Ends first before value between)
    (secure : Secure between (next value) history) :
    Secure before (first >>= next) history := by
  refine ⟨secure.moments, fun failure after fails => ?_⟩
  exact secure.fails failure after ((on_bind_of_ends ends).symm.trans fails)

theorem bind_quiet
    {first : Run Value}
    {next : Value → Run Result}
    {further : Value → Machine → List Moment}
    (intact : before.Intact)
    (quiet : Quiet first)
    (secureNext :
      ∀ value, Ends first before value before →
        Secure before (next value) (further value before)) :
    Secure before (first >>= next) (onward first before further) := by
  refine bind (of_quiet intact quiet) fun value between ends => ?_
  have same : between = before := (congrArg Prod.snd ends).symm.trans (quiet.keeps before)
  subst same
  exact secureNext value ends

theorem bind_silent
    {first : Run Value}
    {next : Value → Run Result}
    (intact : before.Intact)
    (quiet : Quiet first)
    (secureNext : ∀ value, Ends first before value before → Secure before (next value) []) :
    Secure before (first >>= next) [] := by
  have secure : Secure before (first >>= next) (onward first before fun _ _ => []) :=
    bind_quiet intact quiet secureNext
  rw [onward_nil] at secure
  exact secure

theorem bind_return
    {run : Run Value}
    {result : Value → Result}
    (secure : Secure before run history) :
    Secure before (run >>= fun value => Pure.pure (result value)) history := by
  refine ⟨secure.moments, fun failure after fails => ?_⟩
  rcases Fails.bind_iff.1 fails with failsFirst | ⟨_, _, _, failsLast⟩
  · exact secure.fails failure after failsFirst
  · exact absurd failsLast Fails.not_pure

theorem shown
    {run : Run Value}
    {moment : Moment}
    (intact : moment.Intact)
    (secure : Secure before run history) :
    Secure before run (moment :: history) :=
  ⟨List.forall_mem_cons.2 ⟨intact, secure.moments⟩, secure.fails⟩

theorem askHeap
    {question : Heap → Except Failure Value}
    (intact : before.Intact)
    (shuns : Shuns Failure.Dangles (question before.heap)) :
    Secure before (askHeap question) [] := by
  refine of_stays intact fun failure after fails => ?_
  obtain ⟨failed, rfl⟩ := fails_askHeap.1 fails
  exact ⟨rfl, shuns failure failed⟩

theorem changeHeap
    {change : Heap → Except Failure Heap}
    (intact : before.Intact)
    (shuns : Shuns Failure.Dangles (change before.heap)) :
    Secure before (changeHeap change) [] := by
  refine of_stays intact fun failure after fails => ?_
  obtain ⟨failed, rfl⟩ := fails_changeHeap.1 fails
  exact ⟨rfl, shuns failure failed⟩

theorem allocate
    {allocation : Heap → Except Failure (Nat × Heap)}
    {object : HeapObject}
    (intact : before.Intact)
    (allocates : allocation before.heap = before.heap.allocate object) :
    Secure before (allocate allocation) [] := by
  refine of_stays intact fun failure after fails => ?_
  obtain ⟨failed, rfl⟩ := fails_allocate.1 fails
  exact ⟨rfl, Heap.allocate_shuns.mono .of_dangles failure (allocates.symm.trans failed)⟩

/-- An instruction is counted and seen, and goes on if it may. -/
theorem after_tick
    {limits : Limits}
    {next : Unit → Run Value}
    {further : Machine → List Moment}
    (intact : before.Intact)
    (secureNext : Secure (counted before) (next ()) (further (counted before))) :
    Secure before (tick limits >>= next)
      (onward (tick limits) before fun _ ticked => further ticked) := by
  have ticks : Secure before (tick limits) [] := by
    refine ⟨List.forall_mem_nil _, fun failure after fails => ?_⟩
    by_cases allowed : Allowed limits before
    · have ended : Ends (tick limits) before () (counted before) := ends_tick.2 ⟨allowed, rfl⟩
      cases ended.symm.trans fails
    · obtain ⟨same, rfl⟩ := Prod.mk.inj ((on_tick_of_not_allowed allowed).symm.trans fails)
      cases same
      exact ⟨⟨intact.objects, intact.statics⟩, id⟩
  refine bind ticks fun done between ends => ?_
  obtain ⟨-, rfl⟩ := ends_tick.1 ends
  exact secureNext

end Secure

/-- Calls and initializations on intact machines, with what lives on their heaps, are secure. -/
structure SecureCallees (callees : Callees) (histories : Histories) : Prop where
  invoke :
    ∀ {frames kind method receiver arguments} {before : Machine}, before.Intact →
      (∀ frame ∈ frames, Frame.Lives before.heap.size frame) →
      (∀ given ∈ receiver, given.Lives before.heap.size) →
      (∀ given ∈ arguments, given.Lives before.heap.size) →
      Secure before (callees.invoke kind method receiver arguments)
        (histories.invoke frames kind method receiver arguments before)
  prepare :
    ∀ {frames className} {before : Machine}, before.Intact →
      (∀ frame ∈ frames, Frame.Lives before.heap.size frame) →
      Secure before (callees.prepare className) (histories.prepare frames className before)

variable
    {world : World}
    {callees : Callees}
    {histories : Histories}
    {frame : Frame}
    {outer : List Frame}

/-- What comes after an initialization is seen on an intact machine. -/
theorem prepare_secure
    {frames : List Frame}
    {className : String}
    {stage : Stage}
    {next : Unit → Run Value}
    (sound : callees.Sound fun _ => True)
    (secure : SecureCallees callees histories)
    (intact : before.Intact)
    (lives : ∀ given ∈ frames, given.Lives before.heap.size)
    (secureNext : ∀ prepared : Machine, prepared.Intact → Secure prepared (next ()) []) :
    Secure before (callees.prepare className >>= next)
      (histories.prepare frames className before ++
        onward (callees.prepare className) before fun _ prepared =>
          [⟨stage, frames, prepared⟩]) := by
  refine .bind (secure.prepare intact lives) fun _ prepared ends => ?_
  have kept := sound.prepare intact ends
  refine .shown ⟨kept.sound, fun other member => ?_⟩ (secureNext prepared kept.sound)
  exact (lives other member).mono kept.grows.size_le

section Bodies

variable
    (sound : callees.Sound fun _ => True)
    (secure : SecureCallees callees histories)
    (intact : before.Intact)
    (lives : ∀ given ∈ frame :: outer, given.Lives before.heap.size)
include secure intact lives

theorem callValue_secure {target : Call} :
    Secure before (callValue callees frame.locals target)
      (callHistory histories outer frame before target) := by
  have live := (lives frame List.mem_cons_self).locals
  refine .bind_quiet intact (.receiverValue _ _) fun receiver received => ?_
  refine .bind_quiet intact (.operandValues _ _) fun arguments evaluated => ?_
  exact secure.invoke intact lives (holds_of_receiver live (ends_receiverValue.1 received).1)
    (Operand.allLive live (ends_operandValues.1 evaluated).1)

include sound

theorem expressionValue_secure {expression : Expression} :
    Secure before (expressionValue world callees frame.locals expression)
      (expressionHistory world callees histories outer frame before expression) := by
  have live := (lives frame List.mem_cons_self).locals
  have slotLives {base : LocalId} {slot : Nat} {after : Machine}
      (ends : Ends (objectIn frame.locals base) before slot after) : slot < before.heap.size :=
    live (.reference slot) (List.mem_of_getElem? (ends_objectIn.1 ends).1)
  cases expression with
  | «variable» source => exact .of_quiet intact (.localValue _ _)
  | literal constant => exact .of_quiet intact (.pure _)
  | instanceField base field =>
    exact .bind_silent intact (.objectIn _ _) fun slot ends =>
      .askHeap intact (Heap.readField_shuns .of_dangles (Heap.object_shuns_of_lt (slotLives ends)))
  | staticField field =>
    exact prepare_secure sound secure intact lives fun prepared _ =>
      .of_ends (Ends.get_bind_iff.2 (Ends.pure_iff.2 ⟨rfl, rfl⟩))
  | element base index =>
    exact .bind_silent intact (.objectIn _ _) fun slot ends =>
      .bind_silent intact (.intOf _ _) fun _ _ => .askHeap intact
        (Heap.readElement_shuns .of_dangles (Heap.object_shuns_of_lt (slotLives ends)))
  | newObject className =>
    exact prepare_secure sound secure intact lives fun _ whole => .allocate whole rfl
  | newArray content size =>
    refine .bind_silent intact (.intOf _ _) fun length _ => ?_
    dsimp only
    split
    · exact .of_error intact rfl nofun
    · exact .allocate intact rfl
  | length base =>
    exact .bind_silent intact (.objectIn _ _) fun slot ends => .bind_return
      (.askHeap intact
        (Heap.arrayLength_shuns .of_dangles (Heap.object_shuns_of_lt (slotLives ends))))
  | binary operator left right =>
    exact .of_quiet intact
      (.bind (.operandValue _ _) fun _ => .bind (.operandValue _ _) fun _ => .arithmetic _ _ _)
  | call target => exact callValue_secure secure intact lives

theorem store_secure {place : Expression} {value : Datum} :
    Secure before (store world callees frame.locals place value)
      (storeHistory world callees histories outer frame before place) := by
  have live := (lives frame List.mem_cons_self).locals
  have slotLives {base : LocalId} {slot : Nat} {after : Machine}
      (ends : Ends (objectIn frame.locals base) before slot after) : slot < before.heap.size :=
    live (.reference slot) (List.mem_of_getElem? (ends_objectIn.1 ends).1)
  cases place with
  | «variable» target => exact .of_quiet intact (.setLocal _ _ _)
  | instanceField base field =>
    exact .bind_silent intact (.objectIn _ _) fun slot ends => .bind_return
      (.changeHeap intact
        (Heap.writeField_shuns .of_dangles (Heap.object_shuns_of_lt (slotLives ends))))
  | staticField field =>
    exact prepare_secure sound secure intact lives fun prepared _ =>
      .of_ends (Ends.bind_iff.2 ⟨⟨⟩, _, Ends.modify_iff.2 rfl, Ends.pure_iff.2 ⟨rfl, rfl⟩⟩)
  | element base index =>
    exact .bind_silent intact (.objectIn _ _) fun slot ends =>
      .bind_silent intact (.intOf _ _) fun _ _ => .bind_return
        (.changeHeap intact
          (Heap.writeElement_shuns .of_dangles (Heap.object_shuns_of_lt (slotLives ends))))
  | _ => exact .of_quiet intact (.throw id)

end Bodies

theorem report_secure
    (intact : before.Intact)
    {sink : Sink}
    {arguments : List Datum} :
    Secure before (report sink arguments) [] := by
  unfold report
  split
  · exact .bind_return (.of_ends (print_ends _))
  · exact .bind_return (.of_ends (print_ends _))
  · exact .of_error intact rfl nofun

section Steps

variable
    (sound : callees.Sound fun _ => True)
    (secure : SecureCallees callees histories)
include sound secure

theorem instructions_secure
    (intact : before.Intact)
    (lives : ∀ given ∈ frame :: outer, given.Lives before.heap.size)
    {list : List Instruction} :
    Secure before
      (instructions world callees frame.receiver frame.arguments frame.locals list)
      (instructionsHistory world callees histories outer frame before list) := by
  induction list generalizing frame before with
  | nil => exact .of_quiet intact (.pure _)
  | cons instruction rest hypothesis =>
    have whole : (counted before).Intact := ⟨intact.objects, intact.statics⟩
    -- The locals may change and the heap may grow before the rest runs.
    have secureRest {between : Machine} {locals : List Datum}
        (kept : (counted before).Kept (fun _ => True) between)
        (live : ∀ value ∈ locals, value.Lives between.heap.size) :
        Secure between (instructions world callees frame.receiver frame.arguments locals rest)
          (instructionsHistory world callees histories outer { frame with locals } between
            rest) := by
      have later (given : Frame) (member : given ∈ frame :: outer) :
          given.Lives between.heap.size :=
        (lives given member).mono kept.grows.size_le
      have here := later frame List.mem_cons_self
      exact @hypothesis between { frame with locals } kept.sound
        (List.forall_mem_cons.2 ⟨⟨here.receiver, here.arguments, live⟩,
          fun given member => later given (List.mem_cons_of_mem _ member)⟩)
    have lively := (lives frame List.mem_cons_self)
    refine .after_tick intact (.shown ⟨whole, lives⟩ ?_)
    cases instruction with
    | bind target source =>
      refine .bind_quiet whole (.boundValue _ _ _) fun value bound => ?_
      refine .bind_quiet whole (.setLocal _ _ _) fun locals stored => ?_
      obtain ⟨passed, -⟩ := ends_boundValue.1 bound
      obtain ⟨-, rfl, -⟩ := ends_setLocal.1 stored
      refine secureRest (.refl whole) fun other member => ?_
      rcases List.mem_or_eq_of_mem_set member with old | rfl
      · exact lively.locals other old
      · cases source with
        | receiver type => exact lively.receiver _ passed
        | parameter index type => exact lively.arguments _ (List.mem_of_getElem? passed)
    | assign place expression =>
      refine .bind (expressionValue_secure sound secure whole lives) fun value between ends => ?_
      obtain ⟨kept, livesValue⟩ :=
        (ends_expressionValue.1 ends).sound sound whole lively.locals fun _ _ => trivial
      have later (given : Frame) (member : given ∈ frame :: outer) :
          given.Lives between.heap.size :=
        (lives given member).mono kept.grows.size_le
      refine .bind (store_secure sound secure kept.sound later) fun locals stored ends => ?_
      obtain ⟨keptStored, live⟩ :=
        (ends_store.1 ends).sound sound kept.sound (kept.allLive lively.locals) livesValue
      exact secureRest (kept.trans keptStored) live
    | invoke target =>
      refine .bind (callValue_secure secure whole lives) fun value between ends => ?_
      have evaluates : Evaluates world callees frame.locals (counted before) value between
          (.call target) :=
        ends_expressionValue.1 ends
      obtain ⟨kept, -⟩ :=
        evaluates.sound sound whole lively.locals fun _ _ => trivial
      exact secureRest kept (kept.allLive lively.locals)
    | «return» operand =>
      cases operand with
      | none => exact .of_quiet whole (.pure _)
      | some operand => exact .of_quiet whole (.operandValue _ _)

theorem enter_secure
    {id : MethodId}
    {method : MethodRef}
    {receiver : Option Datum}
    {arguments : List Datum}
    (intact : before.Intact)
    (lives : ∀ given ∈ outer, given.Lives before.heap.size)
    (liveReceiver : ∀ given ∈ receiver, given.Lives before.heap.size)
    (liveArguments : ∀ given ∈ arguments, given.Lives before.heap.size) :
    Secure before (enter world callees id method receiver arguments)
      (enterHistory world callees histories outer id receiver arguments before) := by
  unfold enterHistory
  cases found : world.program.body? id with
  | none =>
    exact .of_error intact (on_enter_of_body?_none found) nofun
  | some entered =>
    dsimp only
    split
    case isTrue full => exact .of_error intact (on_enter_of_full found full) nofun
    case isFalse room =>
      have room : world.HasRoom before := by
        unfold World.HasRoom
        omega
      let opened : Machine := { before with depth := before.depth + 1 }
      let frame : Frame :=
        ⟨id, receiver, arguments, entered.locals.map fun declaration => .zero declaration.type⟩
      have whole : opened.Intact := ⟨intact.objects, intact.statics⟩
      have zeros : ∀ value ∈ frame.locals, value.Lives opened.heap.size := by
        intro value member
        obtain ⟨declaration, -, rfl⟩ := List.mem_map.1 member
        exact Datum.lives_zero _
      have livesAll : ∀ given ∈ frame :: outer, given.Lives opened.heap.size :=
        List.forall_mem_cons.2 ⟨⟨liveReceiver, liveArguments, zeros⟩, lives⟩
      have inside :
          Secure opened (body world callees entered receiver arguments)
            (instructionsHistory world callees histories outer frame opened
              entered.instructions) :=
        instructions_secure sound secure whole livesAll
      refine .shown ⟨whole, livesAll⟩ ⟨inside.moments, fun failure after fails => ?_⟩
      obtain ⟨same, rfl⟩ :=
        Prod.mk.inj ((on_enter_of_body? found room).symm.trans fails)
      obtain ⟨wholeInner, other⟩ := inside.fails failure _ (Prod.ext same rfl)
      exact ⟨⟨wholeInner.objects, wholeInner.statics⟩, other⟩

theorem searchStart_secure
    {kind : CallKind}
    {method : MethodRef}
    {receiver : Option Datum}
    (intact : before.Intact)
    (lives : ∀ given ∈ outer, given.Lives before.heap.size)
    (liveReceiver : ∀ given ∈ receiver, given.Lives before.heap.size) :
    Secure before (searchStart callees kind method receiver)
      (startHistory callees histories outer kind method before) := by
  have asks {slot : Nat} (lt : slot < before.heap.size) :
      Secure before (askHeap fun heap => heap.className? slot) [] :=
    .askHeap intact (Heap.className?_shuns (Heap.object_shuns_of_lt lt))
  unfold searchStart
  split
  · exact (asks (liveReceiver _ rfl)).bind_return
  · exact (asks (liveReceiver _ rfl)).bind_return
  · exact prepare_secure sound secure intact lives fun _ whole => .of_quiet whole (.pure _)
  · rename_i dynamic _ _
    have silent : startHistory callees histories outer kind method before = [] := by
      cases kind with
      | static => exact (dynamic rfl).elim
      | _ => rfl
    rw [silent]
    exact .of_quiet intact (.pure _)

theorem invokeStep_secure
    {kind : CallKind}
    {method : MethodRef}
    {receiver : Option Datum}
    {arguments : List Datum}
    (intact : before.Intact)
    (lives : ∀ given ∈ outer, given.Lives before.heap.size)
    (liveReceiver : ∀ given ∈ receiver, given.Lives before.heap.size)
    (liveArguments : ∀ given ∈ arguments, given.Lives before.heap.size) :
    Secure before (invokeStep world callees kind method receiver arguments)
      (invokeHistory world callees histories outer kind method receiver arguments before) := by
  unfold invokeStep invokeHistory
  split
  · exact report_secure intact
  · split
    · exact .of_quiet intact (.throw id)
    · refine .bind (searchStart_secure sound secure intact lives liveReceiver)
        fun start between ends => ?_
      have kept := (ends_searchStart.1 ends).sound sound intact
      cases found : target? world.program start method with
      | some id =>
        exact enter_secure sound secure kept.sound
          (fun given member => (lives given member).mono kept.grows.size_le)
          (fun given member => kept.lives (liveReceiver given member))
          (kept.allLive liveArguments)
      | none =>
        dsimp only
        split
        · exact .of_quiet kept.sound (.pure _)
        · exact .of_quiet kept.sound (.throw id)

theorem runInitializer_secure
    {className : String}
    (intact : before.Intact)
    (lives : ∀ given ∈ outer, given.Lives before.heap.size) :
    Secure before (runInitializer world callees className)
      (initializerHistory world callees histories outer className before) := by
  unfold runInitializer initializerHistory
  cases world.program.findMethod? className staticInitializerName [] with
  | none => exact .of_quiet intact (.pure _)
  | some id =>
    dsimp only
    split
    case isTrue bodied =>
      exact .bind_return (enter_secure sound secure intact lives nofun (List.forall_mem_nil _))
    case isFalse bodiless =>
      have nothing : enterHistory world callees histories outer id none [] before = [] := by
        rw [Option.not_isSome_iff_eq_none] at bodiless
        unfold enterHistory
        rw [bodiless]
      rw [nothing]
      exact .of_quiet intact (.pure _)

theorem prepareStep_secure
    {className : String}
    (intact : before.Intact)
    (lives : ∀ given ∈ outer, given.Lives before.heap.size) :
    Secure before (prepareStep world callees className)
      (prepareHistory world callees histories outer className before) := by
  unfold prepareHistory
  by_cases known : className ∈ before.initialized
  · rw [if_pos (List.contains_iff_mem.2 known)]
    have done : Ends (prepareStep world callees className) before () before :=
      ends_prepareStep.2 (.inl ⟨known, rfl⟩)
    exact .of_ends done
  · rw [if_neg (fun contained => known (List.contains_iff_mem.1 contained))]
    let marked : Machine := { before with initialized := before.initialized ++ [className] }
    have whole : marked.Intact := ⟨intact.objects, intact.statics⟩
    have marking : Ends (mark className) before true marked :=
      ends_mark.2 (.inr ⟨known, rfl, rfl⟩)
    unfold prepareStep
    refine .after_ends marking ?_
    rw [if_pos rfl]
    dsimp only
    cases world.program.superclass? className with
    | none => exact runInitializer_secure sound secure whole lives
    | some superclass =>
      refine .bind (secure.prepare whole lives) fun _ above ends => ?_
      have kept := sound.prepare whole ends
      exact runInitializer_secure sound secure kept.sound
        fun given member => (lives given member).mono kept.grows.size_le

end Steps

/-- Calls and initializations of any number of levels are secure. -/
theorem within_secure (world : World) (levels : Nat) :
    SecureCallees ⟨invoke world levels, prepare world levels⟩ (.within world levels) := by
  induction levels with
  | zero =>
    exact ⟨fun intact _ _ _ => .of_error intact rfl id, fun intact _ => .of_error intact rfl id⟩
  | succ levels secure =>
    have sound : (Callees.within world levels).Sound fun _ => True :=
      within_sound (fun _ _ _ _ _ _ => trivial) levels
    exact ⟨fun intact lives liveReceiver liveArguments =>
        invokeStep_secure sound secure intact lives liveReceiver liveArguments,
      fun intact lives => prepareStep_secure sound secure intact lives⟩

/-- What a method is given from outside lives. -/
theorem GivenFromOutside.lives
    {arguments : List Datum}
    {after : Machine}
    {parameters : List Ty}
    (intact : before.Intact)
    (given : GivenFromOutside before arguments after parameters) :
    after.Intact ∧ ∀ argument ∈ arguments, argument.Lives after.heap.size := by
  unfold GivenFromOutside at given
  split at given
  · obtain ⟨rfl, rfl⟩ := given
    exact ⟨intact, List.forall_mem_nil _⟩
  · rename_i element
    obtain ⟨slot, heap, allocated, rfl, rfl⟩ := given
    obtain ⟨-, rfl, rfl⟩ := Heap.allocate_eq_ok.1 allocated
    have object :
        (HeapObject.array element (Array.replicate 0 (.zero element))).Sound (fun _ => True)
          before.heap.size := by
      intro value member
      simp at member
    refine ⟨(intact.push object).sound, List.forall_mem_singleton.2 ?_⟩
    simp [Datum.Lives, Heap.size]
  · exact given.elim

theorem entryArguments_secure {method : MethodRef} (intact : before.Intact) :
    Secure before (entryArguments method) [] := by
  unfold entryArguments
  split
  · exact .of_quiet intact (.pure _)
  · exact (Secure.allocate intact rfl).bind_return
  · exact .of_quiet intact (.throw id)

/-- Runs from outside are secure. -/
theorem entry_secure (world : World) (levels : Nat) (name : String) (intact : before.Intact) :
    Secure before (entry world levels name)
      ((Request.entry name).history world levels before) := by
  unfold entry entryStep Request.history
  dsimp only
  cases entryMethod? world.program name with
  | none => exact .of_quiet intact (.throw id)
  | some method =>
    refine .bind (entryArguments_secure intact) fun arguments started ends => ?_
    obtain ⟨whole, live⟩ := (ends_entryArguments.1 ends).lives intact
    exact (within_secure world levels).invoke whole (List.forall_mem_nil _) nofun live

/-- A run from outside leaves an intact machine, whether it fails or not. -/
theorem entry_leaves_intact
    (world : World)
    (levels : Nat)
    (name : String)
    (intact : before.Intact) :
    ((entry world levels name).on before).2.Intact := by
  rcases ran : (entry world levels name).on before with ⟨failure | value, after⟩
  · exact ((entry_secure world levels name intact).fails failure after ran).1
  · obtain ⟨method, arguments, started, -, given, called⟩ := ends_entryStep.1 ran
    obtain ⟨whole, live⟩ := given.lives intact
    have sound : (Callees.within world levels).Sound fun _ => True :=
      within_sound (fun _ _ _ _ _ _ => trivial) levels
    have noReceiver : ∀ given ∈ (none : Option Datum), given.Lives started.heap.size := nofun
    exact (sound.invoke whole noReceiver live called).1.sound

end Run

namespace World

variable (world : World) (levels : Nat)

theorem serve_intact {machine : Machine} (intact : machine.Intact) (names : List String) :
    (world.serve levels machine (names.map Request.entry)).Intact := by
  induction names generalizing machine with
  | nil => exact intact
  | cons name rest hypothesis =>
    exact hypothesis (Run.entry_leaves_intact world levels name intact)

theorem history_intact {machine : Machine} (intact : machine.Intact) (names : List String) :
    ∀ moment ∈ world.history levels machine (names.map Request.entry), moment.Intact := by
  induction names generalizing machine with
  | nil => exact List.forall_mem_nil _
  | cons name rest hypothesis =>
    exact List.forall_mem_append.2 ⟨(Run.entry_secure world levels name intact).moments,
      hypothesis (Run.entry_leaves_intact world levels name intact)⟩

/-- Runs of entries one after the other, on a machine that is fresh at first, keep it intact at each of
their moments and at their end, whether they fail or not, and none fails for a dangling reference.  From
the fresh machine on, each of these machines has the objects of the earlier ones, of the same shape.  An
operation on the heap that fails leaves the machine as it was. -/
theorem entries_keep_heap :
    (∀ names : List String,
      (∀ moment ∈ world.history levels (.fresh world.limits) (names.map Request.entry),
        moment.Intact) ∧
      (world.serve levels (.fresh world.limits) (names.map Request.entry)).Intact ∧
      (∀ name slot,
        (((Request.entry name).run world levels).on
            (world.serve levels (.fresh world.limits) (names.map Request.entry))).1 ≠
          .error (.fault (.danglingReference slot))) ∧
      (Machine.fresh world.limits ::
          ((world.history levels (.fresh world.limits) (names.map Request.entry)).map
              Moment.machine ++
            [world.serve levels (.fresh world.limits) (names.map Request.entry)])).Pairwise
        fun earlier later => earlier.heap.Extends later.heap) ∧
      ∀ (before after : Machine) (failure : Failure),
        (∀ (Value : Type) (question : Heap → Except Failure Value),
          Fails (Run.askHeap question) before failure after → after = before) ∧
        (∀ change : Heap → Except Failure Heap,
          Fails (Run.changeHeap change) before failure after → after = before) ∧
        ∀ allocation : Heap → Except Failure (Nat × Heap),
          Fails (Run.allocate allocation) before failure after → after = before := by
  have intact : (Machine.fresh world.limits).Intact := .fresh world.limits
  refine ⟨fun names => ⟨?_, ?_, fun name slot failed => ?_, ?_⟩, fun before after failure => ?_⟩
  · exact world.history_intact levels intact names
  · exact world.serve_intact levels intact names
  · have whole := world.serve_intact levels intact names
    exact ((Run.entry_secure world levels name whole).fails _ _ (Prod.ext failed rfl)).2 trivial
  · have linked :=
      linked_history world.steps_extend levels (.fresh world.limits) (names.map Request.entry)
    exact linked.pairwise
  · exact ⟨fun _ _ fails => (Run.fails_askHeap.1 fails).2,
      fun _ fails => (Run.fails_changeHeap.1 fails).2,
      fun _ fails => (Run.fails_allocate.1 fails).2⟩

end World
end AccessProfiler
