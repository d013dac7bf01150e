import AccessProfiler.Proofs.InsertedCode
import AccessProfiler.Proofs.TakenCourses

/-!
# Runs without limits

Without limits an instruction is never refused, so that the result of a run is that of what is left of
it after its first instruction.  Each rule below takes one instruction off a run that stands before it,
or says with which failure the run breaks off there; `on_invokeStep` does the same for a call of an
object.  An argument about a body goes through its instructions with them, and gives the outcome and the
machine at the end whether the run fails or not.
-/

namespace AccessProfiler.Run

variable
    {program : Program}
    {sink : Sink}
    {callees : Callees}
    {receiver : Option Datum}
    {arguments locals changed : List Datum}
    {rest : List Instruction}
    {before between after : Machine}
    {value : Datum}
    {failure : Failure}
    {result : Except Failure Datum × Machine}

theorem on_bind_of_fails
    {Value Result : Type}
    {first : Run Value}
    {next : Value → Run Result}
    (fails : Fails first before failure after) :
    (first >>= next).on before = (.error failure, after) := by
  have computed : first.on before = (.error failure, after) := fails
  rw [on_bind, computed]

/-! ## Instructions -/

/-- Without limits an instruction counts, and is carried out. -/
theorem on_tick_bind {Result : Type} {next : Unit → Run Result} :
    (tick .unlimited >>= next).on before = (next ()).on (counted before) :=
  on_bind_of_ends (ends_tick.2 ⟨.inl rfl, rfl⟩)

theorem on_instructions_bind
    {target : LocalId}
    {source : Binding}
    (passed : passed? receiver arguments source = some value)
    (declared : target.index < locals.length)
    (further :
      (instructions (.unlimited program sink) callees receiver arguments
        (locals.set target.index value) rest).on (counted before) = result) :
    (instructions (.unlimited program sink) callees receiver arguments locals
        (.bind target source :: rest)).on before = result := by
  rw [instructions]
  refine on_tick_bind.trans ?_
  refine (on_bind_of_ends (ends_boundValue.2 ⟨passed, rfl⟩)).trans ?_
  exact (on_bind_of_ends (ends_setLocal.2 ⟨declared, rfl, rfl⟩)).trans further

section Assignments

variable {place expression : Expression}

theorem on_instructions_assign
    (evaluates :
      Evaluates (.unlimited program sink) callees locals (counted before) value between expression)
    (stores : Stores (.unlimited program sink) callees locals value between changed after place)
    (further :
      (instructions (.unlimited program sink) callees receiver arguments changed rest).on after =
        result) :
    (instructions (.unlimited program sink) callees receiver arguments locals
        (.assign place expression :: rest)).on before = result := by
  rw [instructions]
  refine on_tick_bind.trans ?_
  refine (on_bind_of_ends (ends_expressionValue.2 evaluates)).trans ?_
  exact (on_bind_of_ends (ends_store.2 stores)).trans further

/-- An expression without a value breaks the run off. -/
theorem on_instructions_assign_of_fails
    (fails :
      Fails (expressionValue (.unlimited program sink) callees locals expression) (counted before)
        failure after) :
    (instructions (.unlimited program sink) callees receiver arguments locals
        (.assign place expression :: rest)).on before = (.error failure, after) := by
  rw [instructions]
  refine on_tick_bind.trans ?_
  exact on_bind_of_fails fails

/-- A value that cannot be stored breaks the run off. -/
theorem on_instructions_assign_of_not_stored
    (evaluates :
      Evaluates (.unlimited program sink) callees locals (counted before) value between expression)
    (fails :
      Fails (store (.unlimited program sink) callees locals place value) between failure after) :
    (instructions (.unlimited program sink) callees receiver arguments locals
        (.assign place expression :: rest)).on before = (.error failure, after) := by
  rw [instructions]
  refine on_tick_bind.trans ?_
  refine (on_bind_of_ends (ends_expressionValue.2 evaluates)).trans ?_
  exact on_bind_of_fails fails

end Assignments

theorem on_instructions_invoke
    {target : Call}
    (evaluates :
      Evaluates (.unlimited program sink) callees locals (counted before) value after (.call target))
    (further :
      (instructions (.unlimited program sink) callees receiver arguments locals rest).on after =
        result) :
    (instructions (.unlimited program sink) callees receiver arguments locals
        (.invoke target :: rest)).on before = result := by
  rw [instructions]
  refine on_tick_bind.trans ?_
  exact (on_bind_of_ends (ends_callValue.2 evaluates)).trans further

theorem on_instructions_return_none :
    (instructions (.unlimited program sink) callees receiver arguments locals
        (.return none :: rest)).on before = (.ok .void, counted before) := by
  rw [instructions]
  exact on_tick_bind

theorem on_instructions_return_some
    {operand : Operand}
    (found : operand.value? locals = some value) :
    (instructions (.unlimited program sink) callees receiver arguments locals
        (.return (some operand) :: rest)).on before = (.ok value, counted before) := by
  rw [instructions]
  refine on_tick_bind.trans ?_
  exact ends_operandValue.2 ⟨found, rfl⟩

/-! ## Fields, counts and reports -/

section Instances

variable
    {className : String}
    {fields : FieldTable}
    {field : FieldRef}
    {slot : Nat}
    {base target source : LocalId}
    (located : before.heap.objects[slot]? = some (.instanceOf className fields))
    (refers : locals[base.index]? = some (.reference slot))
    (meant : declaredField program field = field)
include located refers meant

theorem on_instructions_readField
    (read : fields.read field = value)
    (declared : target.index < locals.length)
    (further :
      (instructions (.unlimited program sink) callees receiver arguments
        (locals.set target.index value) rest).on (counted before) = result) :
    (instructions (.unlimited program sink) callees receiver arguments locals
        (.assign (.variable target) (.instanceField base field) :: rest)).on before = result := by
  have found : before.heap.readField slot (declaredField program field) = .ok value := by
    rw [meant]
    exact Heap.readField_eq_ok.2 ⟨className, fields, located, read.symm⟩
  exact on_instructions_assign ⟨slot, refers, found, rfl⟩ ⟨declared, rfl, rfl⟩ further

theorem on_instructions_writeField
    (held : locals[source.index]? = some value)
    (further :
      (instructions (.unlimited program sink) callees receiver arguments locals rest).on
        { counted before with
          heap := before.heap.replace slot (.instanceOf className (fields.write field value)) } =
        result) :
    (instructions (.unlimited program sink) callees receiver arguments locals
        (.assign (.instanceField base field) (.variable source) :: rest)).on before = result := by
  have written :
      before.heap.writeField slot (declaredField program field) value =
        .ok (before.heap.replace slot (.instanceOf className (fields.write field value))) := by
    rw [meant]
    exact Heap.writeField_eq_ok.2 ⟨className, fields, located, rfl⟩
  exact on_instructions_assign ⟨held, rfl⟩ ⟨slot, _, refers, written, rfl, rfl⟩ further

end Instances

section Statics

variable
    {field : FieldRef}
    {target source : LocalId}
    (meant : declaredField program field = field)
    (prepares : Ends (callees.prepare field.owner) (counted before) () between)
include meant prepares

theorem on_instructions_readStatic
    (read : between.statics.read field = value)
    (declared : target.index < locals.length)
    (further :
      (instructions (.unlimited program sink) callees receiver arguments
        (locals.set target.index value) rest).on between = result) :
    (instructions (.unlimited program sink) callees receiver arguments locals
        (.assign (.variable target) (.staticField field) :: rest)).on before = result := by
  have evaluates :
      Evaluates (.unlimited program sink) callees locals (counted before) value between
        (.staticField field) := by
    rw [← meant] at prepares read
    exact ⟨prepares, read.symm⟩
  exact on_instructions_assign evaluates ⟨declared, rfl, rfl⟩ further

theorem on_instructions_writeStatic
    (held : locals[source.index]? = some value)
    (further :
      (instructions (.unlimited program sink) callees receiver arguments locals rest).on
        { between with statics := between.statics.write field value } = result) :
    (instructions (.unlimited program sink) callees receiver arguments locals
        (.assign (.staticField field) (.variable source) :: rest)).on before = result := by
  have stores :
      Stores (.unlimited program sink) callees locals value (counted before) locals
        { between with statics := between.statics.write field value } (.staticField field) := by
    rw [← meant] at prepares
    exact ⟨between, prepares, rfl, by rw [show World.program _ = program from rfl, meant]⟩
  exact on_instructions_assign ⟨held, rfl⟩ stores further

end Statics

section Elements

variable
    {base : LocalId}
    {index : Operand}
    {slot : Nat}
    {position : Int32}
    (refers : locals[base.index]? = some (.reference slot))
    (indexed : index.value? locals = some (.int position))
include refers indexed

theorem fails_element
    (failed : before.heap.readElement slot position = .error failure) :
    Fails (expressionValue (.unlimited program sink) callees locals (.element base index)) before
      failure before :=
  Fails.bind_iff.2 (.inr ⟨_, _, ends_objectIn.2 ⟨refers, rfl⟩,
    Fails.bind_iff.2 (.inr ⟨_, _, ends_intOf.2 ⟨indexed, rfl⟩, fails_askHeap.2 ⟨failed, rfl⟩⟩)⟩)

theorem fails_store_element
    (failed : before.heap.writeElement slot position value = .error failure) :
    Fails (store (.unlimited program sink) callees locals (.element base index) value) before failure
      before :=
  Fails.bind_iff.2 (.inr ⟨_, _, ends_objectIn.2 ⟨refers, rfl⟩,
    Fails.bind_iff.2 (.inr ⟨_, _, ends_intOf.2 ⟨indexed, rfl⟩,
      Fails.bind_iff.2 (.inl (fails_changeHeap.2 ⟨failed, rfl⟩))⟩)⟩)

end Elements

theorem fails_newArray
    {content : Ty}
    {size : Operand}
    {length : Int32}
    (sized : size.value? locals = some (.int length))
    (negative : length.toInt < 0) :
    Fails (expressionValue (.unlimited program sink) callees locals (.newArray content size)) before
      (.fault (.negativeSize length)) before := by
  refine Fails.bind_iff.2 (.inr ⟨length, before, ends_intOf.2 ⟨sized, rfl⟩, ?_⟩)
  rw [if_pos negative]
  rfl

theorem on_instructions_increment
    {count : LocalId}
    {number : Int32}
    (held : locals[count.index]? = some (.int number))
    (further :
      (instructions (.unlimited program sink) callees receiver arguments
        (locals.set count.index (.int (number + 1))) rest).on (counted before) = result) :
    (instructions (.unlimited program sink) callees receiver arguments locals
        (Profile.increment count :: rest)).on before = result :=
  on_instructions_assign ⟨.int number, .int 1, held, rfl, rfl, rfl⟩
    ⟨(List.getElem?_eq_some_iff.1 held).1, rfl, rfl⟩ further

/-- With a level left, a report prints its line. -/
theorem on_instructions_report
    {levels : Nat}
    {label : String}
    {source : LocalId}
    {number : Int32}
    (held : locals[source.index]? = some (.int number))
    (further :
      (instructions (.unlimited program sink) (.within (.unlimited program sink) (levels + 1)) receiver
        arguments locals rest).on
        { counted before with trace := before.trace ++ [⟨sink.tag, label, number.toInt⟩] } = result) :
    (instructions (.unlimited program sink) (.within (.unlimited program sink) (levels + 1)) receiver
        arguments locals (sink.report label (.variable source) :: rest)).on before = result := by
  have passed :
      [Operand.literal (.str label), .variable source].mapM (Operand.value? locals) =
        some [.str label, .int number] := by
    simp [Operand.value?, Datum.ofConstant, held]
  exact on_instructions_invoke ⟨none, [.str label, .int number], rfl, passed,
    ends_invokeStep.2 (.inl ⟨⟨rfl, rfl⟩, _, rfl, rfl, rfl⟩)⟩ further

/-! ## Calls of an object -/

/-- A call of an object in which the body that it leads to comes out so comes out so itself. -/
theorem on_invokeStep
    {kind : CallKind}
    {method : MethodRef}
    {slot : Nat}
    {id : MethodId}
    {entered : Body}
    {outcome : Except Failure Datum}
    (apart : ¬ CallsSink (.unlimited program sink) method)
    (dispatched : kind ≠ .static)
    (located : slot < before.heap.size)
    (leads :
      target? program (startClass before.heap method kind (some (.reference slot))) method = some id)
    (found : program.body? id = some entered)
    (runs :
      (instructions (.unlimited program sink) callees (some (.reference slot)) arguments
        (entered.locals.map fun declaration => .zero declaration.type) entered.instructions).on
          { before with depth := before.depth + 1 } = (outcome, after)) :
    (invokeStep (.unlimited program sink) callees kind method (some (.reference slot)) arguments).on
      before = (outcome, { after with depth := after.depth - 1 }) := by
  have starts :
      Ends (searchStart callees kind method (some (.reference slot))) before
        (startClass before.heap method kind (some (.reference slot))) before := by
    rw [ends_searchStart]
    have there := Array.getElem?_eq_getElem located
    have asked := Heap.className?_eq_ok.2 ⟨_, there, rfl⟩
    cases kind with
    | static => exact absurd rfl dispatched
    | special => exact ⟨rfl, rfl⟩
    | virtual | interface =>
      refine ⟨_, asked, ?_, rfl⟩
      rw [startClass, there, Option.bind_some]
  have enters :
      (enter (.unlimited program sink) callees id method (some (.reference slot)) arguments).on before =
        (outcome, { after with depth := after.depth - 1 }) := by
    have inner :
        (nested (body (.unlimited program sink) callees entered (some (.reference slot))
          arguments)).on before = (outcome, { after with depth := after.depth - 1 }) := by
      have opened := congrArg
        (fun result : Except Failure Datum × Machine =>
          (result.1, { result.2 with depth := result.2.depth - 1 })) runs
      exact opened
    unfold enter
    rw [show World.program (.unlimited program sink) = program from rfl, found]
    exact inner
  have other :
      ¬ (method.owner = (World.unlimited program sink).sink.owner ∧
        method.name = (World.unlimited program sink).sink.method) := apart
  have somewhere :
      ¬ (kind ≠ .static ∧ ((some (Datum.reference slot)).getD .null).isNull = true) :=
    fun nowhere => Bool.noConfusion nowhere.2
  unfold invokeStep
  rw [if_neg other, if_neg somewhere]
  refine (on_bind_of_ends starts).trans ?_
  rw [show World.program (.unlimited program sink) = program from rfl, leads]
  exact enters

end AccessProfiler.Run
