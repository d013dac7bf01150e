import AccessProfiler.Proofs.Completion
import AccessProfiler.Proofs.Failing
import AccessProfiler.Proofs.Lookups
import AccessProfiler.Proofs.WrappingPasses

/-!
# Runs of checked programs

An accepted body fits its frame: it names declared locals only, binds parameters that its method has,
assigns to places, and calls every method with as many arguments as that has parameters
(`Instruction.Fits`).  A call keeps this up, since the method that it reaches has the parameters of the
one that it names, whatever class declares it.  So no run of an accepted program fails with a fault of
structure, however deep it goes (`Run.entry_avoids_structural`).
-/

namespace AccessProfiler

/-- The instruction fits a frame of so many locals, in a method of so many parameters. -/
structure Instruction.Fits
    (localCount parameterCount : Nat)
    (instruction : Instruction) : Prop where
  locals : ∀ id ∈ instruction.locals, id.index < localCount
  parameters :
    ∀ target index type, instruction = .bind target (.parameter index type) → index < parameterCount
  places : ∀ place value, instruction = .assign place value → place.isPlace
  arguments :
    ∀ target, instruction.call? = some target →
      target.arguments.length = target.method.parameters.length

/-- Every body fits its frame. -/
def Program.Fits (program : Program) : Prop :=
  ∀ id method body, program.method? id = some method → method.body = some body →
    ∀ instruction ∈ body.instructions,
      instruction.Fits body.locals.length method.parameters.length

/-- Methods of library classes are declared without bodies. -/
def Program.LibraryBodiless (program : Program) : Prop :=
  ∀ entry ∈ program.entries, entry.2.isApplication = false →
    ∀ method ∈ entry.2.methods, method.body = none

instance (program : Program) : Decidable program.LibraryBodiless :=
  inferInstanceAs (Decidable (∀ entry ∈ program.entries, _ → _))

/-- An instruction that keeps the rules fits its frame. -/
theorem CheckedBody.Keeps.fits
    {checked : CheckedBody}
    {instruction : Instruction}
    (keeps : checked.Keeps instruction) :
    instruction.Fits checked.body.locals.length checked.method.parameters.length := by
  obtain ⟨declared, rules⟩ := keeps_iff.1 keeps
  refine ⟨declared, ?_, ?_, fun target => arity_of_instructionFaults keeps⟩
  · rintro target index type rfl
    by_contra beyond
    have missing : checked.method.parameters[index]? = none :=
      List.getElem?_eq_none (Nat.le_of_not_lt beyond)
    have faultless := (List.append_eq_nil_iff.1 rules).1
    rw [bindingFaults, missing] at faultless
    cases faultless
  · rintro place value rfl
    rw [ruleFaults, assignmentFaults] at rules
    simp only [List.append_eq_nil_iff, reportIf_eq_nil_iff, Bool.not_eq_false'] at rules
    exact rules.1.1.1

/-- The bodies of an accepted program fit their frames. -/
theorem Program.fits_of_violations_eq_nil
    {program : Program}
    (bodiless : program.LibraryBodiless)
    (accepted : program.violations none = []) :
    program.Fits := by
  intro id method body found given instruction member
  obtain ⟨declaration, declares, located⟩ := Option.bind_eq_some_iff.1 found
  have among := List.mem_of_getElem? located
  cases application : declaration.isApplication with
  | false =>
    have empty := bodiless _ (mem_entries_of_class? declares) application method among
    rw [empty] at given
    cases given
  | true =>
    have accepts := violations_eq_nil_iff.1 accepted id.owner declaration declares application rfl
    exact (accepts.bodies method among body given instruction member).fits

/-- Calls with the right number of arguments, and initializations, avoid faults of structure. -/
structure Callees.AvoidStructural (callees : Callees) : Prop where
  invoke :
    ∀ kind (method : MethodRef) receiver (arguments : List Datum),
      arguments.length = method.parameters.length →
        Avoids Failure.IsStructural (callees.invoke kind method receiver arguments)
  prepare : ∀ className, Avoids Failure.IsStructural (callees.prepare className)

namespace Run

variable
    {world : World}
    {callees : Callees}
    {locals changed : List Datum}
    {receiver : Option Datum}
    {arguments : List Datum}
    {before after : Machine}
    {value : Datum}

theorem localValue_avoids {id : LocalId} (declared : id.index < locals.length) :
    Avoids Failure.IsStructural (localValue locals id) := by
  unfold localValue
  rw [List.getElem?_eq_getElem declared]
  exact .of_pure _

theorem operandValue_avoids
    {operand : Operand}
    (declared : ∀ id ∈ operand.variable?, id.index < locals.length) :
    Avoids Failure.IsStructural (operandValue locals operand) := by
  cases operand with
  | «variable» source => exact localValue_avoids (declared source rfl)
  | literal constant => exact .of_pure _

theorem objectIn_avoids {id : LocalId} (declared : id.index < locals.length) :
    Avoids Failure.IsStructural (objectIn locals id) :=
  .of_seq (localValue_avoids declared) fun _ =>
    avoids_ofExcept (Datum.asReference_shuns.mono .of_structural)

theorem intOf_avoids
    {operand : Operand}
    (declared : ∀ id ∈ operand.variable?, id.index < locals.length) :
    Avoids Failure.IsStructural (intOf locals operand) :=
  .of_seq (operandValue_avoids declared) fun _ =>
    avoids_ofExcept (Datum.asInt_shuns.mono .of_structural)

theorem setLocal_avoids {id : LocalId} (declared : id.index < locals.length) :
    Avoids Failure.IsStructural (setLocal locals id value) := by
  unfold setLocal
  rw [if_pos declared]
  exact .of_pure _

/-- A store leaves as many locals as there were. -/
theorem Stores.length_eq
    {place : Expression}
    (stores : Stores world callees locals value before changed after place) :
    changed.length = locals.length := by
  cases place with
  | «variable» target =>
    obtain ⟨-, rfl, -⟩ := stores
    exact List.length_set
  | instanceField base field =>
    obtain ⟨_, _, _, _, rfl, _⟩ := stores
    rfl
  | staticField field =>
    obtain ⟨_, _, rfl, _⟩ := stores
    rfl
  | element base index =>
    obtain ⟨_, _, _, _, _, _, rfl, _⟩ := stores
    rfl
  | _ => exact stores.elim

section Calls

variable (avoid : callees.AvoidStructural)
include avoid

theorem callValue_avoids
    {target : Call}
    (declared : ∀ id ∈ (Expression.call target).uses, id.index < locals.length)
    (arity : target.arguments.length = target.method.parameters.length) :
    Avoids Failure.IsStructural (callValue callees locals target) := by
  have received : Avoids Failure.IsStructural (target.receiver.mapM (localValue locals)) := by
    cases found : target.receiver with
    | none => exact .of_pure _
    | some id =>
      refine .of_map (localValue_avoids (declared id (List.mem_append_left _ ?_)))
      rw [found]
      exact List.mem_cons_self
  have passed : Avoids Failure.IsStructural (target.arguments.mapM (operandValue locals)) :=
    .of_mapM fun operand member => operandValue_avoids fun id used =>
      declared id (List.mem_append_right _ (List.mem_filterMap.2 ⟨operand, member, used⟩))
  refine .of_seq received fun receiver => .of_bind passed fun _ arguments _ ends => ?_
  exact avoid.invoke _ _ _ _ (ends.length_of_mapM.trans arity)

theorem expressionValue_avoids
    {expression : Expression}
    (declared : ∀ id ∈ expression.uses, id.index < locals.length)
    (arity :
      ∀ target, expression = .call target →
        target.arguments.length = target.method.parameters.length) :
    Avoids Failure.IsStructural (expressionValue world callees locals expression) := by
  cases expression with
  | «variable» source => exact localValue_avoids (declared source List.mem_cons_self)
  | literal constant => exact .of_pure _
  | instanceField base field =>
    exact .of_seq (objectIn_avoids (declared base List.mem_cons_self)) fun _ =>
      avoids_askHeap fun _ => Heap.readField_shuns .of_structural (Heap.object_shuns id)
  | staticField field =>
    exact .of_seq (avoid.prepare _) fun _ => .of_seq .of_get fun _ => .of_pure _
  | element base index =>
    refine .of_seq (objectIn_avoids (declared base List.mem_cons_self)) fun _ => .of_seq ?_ fun _ =>
      avoids_askHeap fun _ => Heap.readElement_shuns .of_structural (Heap.object_shuns id)
    exact intOf_avoids fun id used =>
      declared id (List.mem_cons_of_mem _ (Option.mem_toList.2 used))
  | newObject className =>
    exact .of_seq (avoid.prepare _) fun _ =>
      avoids_allocate fun _ => Heap.allocate_shuns.mono .of_structural
  | newArray content size =>
    refine .of_seq (intOf_avoids fun id used => declared id (Option.mem_toList.2 used))
      fun length => ?_
    have allocates :
        Avoids Failure.IsStructural
          (allocate fun heap => heap.allocateArray content length.toInt.toNat) :=
      avoids_allocate fun _ => Heap.allocate_shuns.mono .of_structural
    dsimp only
    split
    · exact .of_seq (.of_throw id) fun _ => allocates
    · exact allocates
  | length base =>
    exact .of_seq (objectIn_avoids (declared base List.mem_cons_self)) fun _ =>
      .of_seq
        (avoids_askHeap fun _ => Heap.arrayLength_shuns .of_structural (Heap.object_shuns id))
        fun _ => .of_pure _
  | binary operator left right =>
    refine .of_seq (operandValue_avoids fun id used => ?_) fun _ =>
      .of_seq (operandValue_avoids fun id used => ?_) fun _ => arithmetic_avoids.mono .of_structural
    · exact declared id (List.mem_append_left _ (Option.mem_toList.2 used))
    · exact declared id (List.mem_append_right _ (Option.mem_toList.2 used))
  | call target => exact callValue_avoids avoid declared (arity target rfl)

theorem store_avoids
    {place : Expression}
    (isPlace : place.isPlace)
    (declared : ∀ id ∈ place.uses, id.index < locals.length) :
    Avoids Failure.IsStructural (store world callees locals place value) := by
  cases place with
  | «variable» target => exact setLocal_avoids (declared target List.mem_cons_self)
  | instanceField base field =>
    exact .of_seq (objectIn_avoids (declared base List.mem_cons_self)) fun _ =>
      .of_seq
        (avoids_changeHeap fun _ => Heap.writeField_shuns .of_structural (Heap.object_shuns id))
        fun _ => .of_pure _
  | staticField field =>
    exact .of_seq (avoid.prepare _) fun _ => .of_seq (.of_modify _) fun _ => .of_pure _
  | element base index =>
    refine .of_seq (objectIn_avoids (declared base List.mem_cons_self)) fun _ => .of_seq ?_ fun _ =>
      .of_seq
        (avoids_changeHeap fun _ => Heap.writeElement_shuns .of_structural (Heap.object_shuns id))
        fun _ => .of_pure _
    exact intOf_avoids fun id used =>
      declared id (List.mem_cons_of_mem _ (Option.mem_toList.2 used))
  | _ => cases isPlace

omit avoid in
theorem boundValue_avoids
    {source : Binding}
    (bound : ∀ index type, source = .parameter index type → index < arguments.length) :
    Avoids Failure.IsStructural (boundValue receiver arguments source) := by
  cases source with
  | receiver type =>
    cases receiver with
    | none => exact .of_throw id
    | some given => exact .of_pure _
  | parameter index type =>
    unfold boundValue
    dsimp only
    rw [List.getElem?_eq_getElem (bound index type rfl)]
    exact .of_pure _

/-- The locals of a frame keep their number, so that what fits it goes on to fit it. -/
theorem instructions_avoids
    {list : List Instruction}
    (fits : ∀ instruction ∈ list, instruction.Fits locals.length arguments.length) :
    Avoids Failure.IsStructural (instructions world callees receiver arguments locals list) := by
  induction list generalizing locals with
  | nil => exact .of_pure _
  | cons instruction rest hypothesis =>
    have first := fits instruction List.mem_cons_self
    have onward {changed : List Datum} (same : changed.length = locals.length) :
        Avoids Failure.IsStructural
          (instructions world callees receiver arguments changed rest) :=
      hypothesis fun other member => same ▸ fits other (List.mem_cons_of_mem _ member)
    unfold instructions
    refine .of_seq (avoids_tick fun _ => id) fun _ => ?_
    cases instruction with
    | bind target source =>
      refine .of_seq (boundValue_avoids fun index type same =>
        first.parameters target index type (same ▸ rfl)) fun given => ?_
      refine .of_bind (setLocal_avoids (first.locals target List.mem_cons_self))
        fun _ changed _ ends => ?_
      obtain ⟨-, rfl, -⟩ := ends_setLocal.1 ends
      exact onward List.length_set
    | assign place expression =>
      refine .of_seq (expressionValue_avoids avoid
        (fun id used => first.locals id (List.mem_append_right _ used))
        fun target same => first.arguments target (same ▸ rfl)) fun computed => ?_
      refine .of_bind (store_avoids avoid (first.places place expression rfl)
        fun id used => first.locals id (List.mem_append_left _ used)) fun _ changed _ ends => ?_
      exact onward (ends_store.1 ends).length_eq
    | invoke target =>
      exact .of_seq (callValue_avoids avoid first.locals (first.arguments target rfl)) fun _ =>
        onward rfl
    | «return» operand =>
      cases operand with
      | none => exact .of_pure _
      | some operand =>
        exact operandValue_avoids fun id used => first.locals id (Option.mem_toList.2 used)

theorem searchStart_avoids {kind : CallKind} {method : MethodRef} :
    Avoids Failure.IsStructural (searchStart callees kind method receiver) := by
  unfold searchStart
  split
  · exact .of_seq (avoids_askHeap fun _ => Heap.className?_shuns (Heap.object_shuns id))
      fun _ => .of_pure _
  · exact .of_seq (avoids_askHeap fun _ => Heap.className?_shuns (Heap.object_shuns id))
      fun _ => .of_pure _
  · exact .of_seq (avoid.prepare _) fun _ => .of_pure _
  · exact .of_pure _

variable (fits : world.program.Fits)
include fits

theorem enter_avoids
    {id : MethodId}
    {declared : Method}
    {method : MethodRef}
    (found : world.program.method? id = some declared)
    (arity : arguments.length = declared.parameters.length) :
    Avoids Failure.IsStructural (enter world callees id method receiver arguments) := by
  unfold enter Program.body?
  rw [found, Option.bind_some]
  cases given : declared.body with
  | none => exact .of_throw not_false
  | some body =>
    have runs :
        Avoids Failure.IsStructural (nested (Run.body world callees body receiver arguments)) := by
      refine avoids_nested (instructions_avoids avoid fun instruction member => ?_)
      rw [List.length_map, arity]
      exact fits _ declared body found given instruction member
    refine .of_seq .of_get fun machine => ?_
    dsimp only
    split
    · exact .of_seq (.of_throw not_false) fun _ => runs
    · exact runs

theorem invokeStep_avoids
    {kind : CallKind}
    {method : MethodRef}
    (arity : arguments.length = method.parameters.length) :
    Avoids Failure.IsStructural (invokeStep world callees kind method receiver arguments) := by
  unfold invokeStep
  split
  · exact report_avoids.mono .of_structural
  · split
    · exact .of_throw id
    · refine .of_seq (searchStart_avoids avoid) fun start => ?_
      cases found : target? world.program start method with
      | none =>
        dsimp only
        split
        · exact .of_pure _
        · exact .of_throw id
      | some id =>
        -- Overriding or not, the target has the parameters of the method that is named.
        obtain ⟨declared, located, -, same⟩ := Program.target?_eq_some found
        exact enter_avoids avoid fits located (same ▸ arity)

theorem prepareStep_avoids {className : String} :
    Avoids Failure.IsStructural (prepareStep world callees className) := by
  unfold prepareStep
  refine .of_seq avoids_mark fun first => ?_
  split
  · -- The class above, if there is one, is initialized first; the rest is the same.
    cases world.program.superclass? className
    case' some superclass => refine .of_seq (avoid.prepare superclass) fun _ => ?_
    all_goals
      cases found : world.program.findMethod? className staticInitializerName [] with
      | none => exact .of_pure _
      | some id =>
        dsimp only
        split
        · obtain ⟨-, declared, located, -, none⟩ := Program.findMethod?_eq_some found
          exact .of_seq (enter_avoids avoid fits located (none ▸ rfl)) fun _ => .of_pure _
        · exact .of_pure _
  · exact .of_pure _

end Calls

/-- However deep calls and initializations nest, they avoid faults of structure. -/
theorem within_avoids (fits : world.program.Fits) (levels : Nat) :
    (Callees.within world levels).AvoidStructural := by
  induction levels with
  | zero => exact ⟨fun _ _ _ _ _ => .of_throw id, fun _ => .of_throw id⟩
  | succ levels hypothesis =>
    exact ⟨fun _ _ _ _ arity => invokeStep_avoids hypothesis fits arity,
      fun _ => prepareStep_avoids hypothesis fits⟩

theorem GivenFromOutside.length_eq
    {parameters : List Ty}
    (given : GivenFromOutside before arguments after parameters) :
    arguments.length = parameters.length := by
  unfold GivenFromOutside at given
  split at given
  · obtain ⟨rfl, -⟩ := given
    rfl
  · obtain ⟨_, _, _, rfl, _⟩ := given
    rfl
  · exact given.elim

theorem entryArguments_avoids {method : MethodRef} :
    Avoids Failure.IsStructural (entryArguments method) := by
  unfold entryArguments
  split
  · exact .of_pure _
  · exact .of_seq (avoids_allocate fun _ => Heap.allocate_shuns.mono .of_structural)
      fun _ => .of_pure _
  · exact .of_throw id

/-- No run of an accepted program fails with a fault of structure. -/
theorem entry_avoids_structural
    {world : World}
    (bodiless : world.program.LibraryBodiless)
    (accepted : world.program.violations none = [])
    (levels : Nat)
    (name : String)
    {before after : Machine}
    {failure : Failure}
    (fails : (entry world levels name).on before = (.error failure, after)) :
    ¬ failure.IsStructural := by
  have avoid := within_avoids (Program.fits_of_violations_eq_nil bodiless accepted) levels
  have avoids : Avoids Failure.IsStructural (entry world levels name) := by
    unfold entry entryStep
    cases entryMethod? world.program name with
    | none => exact .of_throw id
    | some method =>
      refine .of_bind entryArguments_avoids fun _ arguments _ ends => ?_
      exact avoid.invoke .static method none arguments (ends_entryArguments.1 ends).length_eq
  exact avoids before failure after fails

end Run

/-- A method that is called for a class and overridden below it.  The upper one is never entered; the
lower one asks for the length of an array that was never made. -/
def cartProgram : Program where
  entries :=
    [("shop.Base",
      { name := "shop.Base"
        superclass := some objectClass
        interfaces := []
        kind := .application
        flags := ⟨0⟩
        fields := []
        methods :=
          [{ name := "total"
             parameters := [.int]
             result := .int
             flags := ⟨0⟩
             body := some
              { locals := [⟨"rate", .int⟩]
                instructions :=
                  [.bind ⟨0⟩ (.parameter 0 .int), .return (some (.variable ⟨0⟩))] } }] }),
      ("shop.Cart",
      { name := "shop.Cart"
        superclass := some "shop.Base"
        interfaces := []
        kind := .application
        flags := ⟨0⟩
        fields := []
        methods :=
          [⟨staticInitializerName, [], .void, Method.static, some ⟨[], [.return none]⟩⟩,
            { name := "total"
              parameters := [.int]
              result := .int
              flags := ⟨0⟩
              body := some
                { locals := [⟨"rate", .int⟩, ⟨"items", .array .int⟩, ⟨"count", .int⟩]
                  instructions :=
                    [.bind ⟨0⟩ (.parameter 0 .int),
                      .assign (.variable ⟨2⟩) (.length ⟨1⟩),
                      .return (some (.variable ⟨2⟩))] } }] }),
      ("shop.Main",
      { name := "shop.Main"
        superclass := some objectClass
        interfaces := []
        kind := .application
        flags := ⟨0⟩
        fields := []
        methods :=
          [{ name := "run"
             parameters := []
             result := .void
             flags := Method.static
             body := some
              { locals := [⟨"cart", .object "shop.Cart"⟩]
                instructions :=
                  [.assign (.variable ⟨0⟩) (.newObject "shop.Cart"),
                    .invoke
                      (.ofVirtual ⟨0⟩ ⟨"shop.Base", "total", [.int], .int⟩ [.literal (.int 3)]),
                    .return none] } }] })]
  distinct := by decide

/-- The run fails two calls deep, but not with a fault of structure. -/
theorem cartProgram_fails :
    cartProgram.LibraryBodiless ∧ cartProgram.violations none = [] ∧
      ∃ after,
        (Run.entry ⟨cartProgram, .standard, .standard⟩ 4 "shop.Main.run").on (.fresh .standard) =
            (.error (.fault .nullDereference), after) ∧
          ¬ Failure.IsStructural (.fault .nullDereference) := by
  have bodiless : cartProgram.LibraryBodiless := by decide +kernel
  have accepted : cartProgram.violations none = [] := by decide +kernel
  have fails :
      Fails (Run.entry ⟨cartProgram, .standard, .standard⟩ 4 "shop.Main.run") (.fresh .standard)
        (.fault .nullDereference) _ :=
    .of_result (by decide +kernel)
  exact ⟨bodiless, accepted, _, fails,
    Run.entry_avoids_structural bodiless accepted 4 _ fails⟩

end AccessProfiler
