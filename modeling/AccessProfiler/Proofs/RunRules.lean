import AccessProfiler.Proofs.HeapRules
import AccessProfiler.Proofs.RunSteps

/-!
# Rules of execution

What it means that an expression has a value, that a value is stored and that a call finds its
target, as relations between the states before and after.  Each is shown to be exactly what the
machine does (`ends_expressionValue`, `ends_store`, `ends_instructions_cons`, `ends_enter`,
`ends_invokeStep`, `ends_prepareStep`), so that an argument about runs is a case analysis of rules.
-/

namespace AccessProfiler.Run

variable {world : World} {callees : Callees} {locals : List Datum} {before after : Machine}

/-- The result of an operator, if its operands are of one numeric type. -/
def arithmetic? (operator : Operator) (left right : Datum) : Option Datum :=
  match operator, left, right with
  | .add, .int left, .int right => some (.int (left + right))
  | .sub, .int left, .int right => some (.int (left - right))
  | .mul, .int left, .int right => some (.int (left * right))
  | .add, .long left, .long right => some (.long (left + right))
  | .sub, .long left, .long right => some (.long (left - right))
  | .mul, .long left, .long right => some (.long (left * right))
  | .add, .float left, .float right => some (.float (left.add right))
  | .sub, .float left, .float right => some (.float (left.sub right))
  | .mul, .float left, .float right => some (.float (left.mul right))
  | .add, .double left, .double right => some (.double (left.add right))
  | .sub, .double left, .double right => some (.double (left.sub right))
  | .mul, .double left, .double right => some (.double (left.mul right))
  | _, _, _ => none

@[simp]
theorem ends_arithmetic {operator : Operator} {left right value : Datum} :
    Ends (arithmetic operator left right) before value after ↔
      arithmetic? operator left right = some value ∧ after = before := by
  unfold arithmetic arithmetic?
  split <;> simp [eq_comm]

/-- The value of an expression. -/
def Evaluates
    (world : World)
    (callees : Callees)
    (locals : List Datum)
    (before : Machine)
    (value : Datum)
    (after : Machine) : Expression → Prop
  | .variable source => locals[source.index]? = some value ∧ after = before
  | .literal constant => value = .ofConstant constant ∧ after = before
  | .instanceField base field =>
    ∃ slot, locals[base.index]? = some (.reference slot) ∧
      before.heap.readField slot (declaredField world.program field) = .ok value ∧ after = before
  | .staticField field =>
    Ends (callees.prepare (declaredField world.program field).owner) before () after ∧
      value = after.statics.read (declaredField world.program field)
  | .element base index =>
    ∃ slot position, locals[base.index]? = some (.reference slot) ∧
      index.value? locals = some (.int position) ∧
      before.heap.readElement slot position = .ok value ∧ after = before
  | .newObject className =>
    ∃ prepared slot heap, Ends (callees.prepare className) before () prepared ∧
      prepared.heap.allocateInstance className = .ok (slot, heap) ∧
      value = .reference slot ∧ after = { prepared with heap }
  | .newArray content size =>
    ∃ length slot heap, size.value? locals = some (.int length) ∧ 0 ≤ length.toInt ∧
      before.heap.allocateArray content length.toInt.toNat = .ok (slot, heap) ∧
      value = .reference slot ∧ after = { before with heap }
  | .length base =>
    ∃ slot length, locals[base.index]? = some (.reference slot) ∧
      before.heap.arrayLength slot = .ok length ∧
      value = .int (Int32.ofNat (min length (Nat.pow 2 31 - 1))) ∧ after = before
  | .binary operator left right =>
    ∃ first second, left.value? locals = some first ∧ right.value? locals = some second ∧
      arithmetic? operator first second = some value ∧ after = before
  | .call target =>
    ∃ receiver arguments,
      target.receiver.mapM (fun id => locals[id.index]?) = some receiver ∧
        target.arguments.mapM (Operand.value? locals) = some arguments ∧
        Ends (callees.invoke target.kind target.method receiver arguments) before value after

theorem ends_expressionValue {expression : Expression} {value : Datum} :
    Ends (expressionValue world callees locals expression) before value after ↔
      Evaluates world callees locals before value after expression := by
  cases expression with
  | «variable» source => exact ends_localValue
  | literal constant => simp [expressionValue, Evaluates]
  | instanceField base field =>
    simp only [expressionValue, Ends.bind_iff, ends_objectIn, ends_askHeap, Evaluates]
    constructor
    · rintro ⟨slot, _, ⟨found, rfl⟩, read, rfl⟩
      exact ⟨slot, found, read, rfl⟩
    · rintro ⟨slot, found, read, rfl⟩
      exact ⟨slot, _, ⟨found, rfl⟩, read, rfl⟩
  | staticField field =>
    simp only [expressionValue, Ends.bind_iff, Ends.get_iff, Ends.pure_iff, Evaluates]
    constructor
    · rintro ⟨_, _, prepared, _, _, ⟨rfl, rfl⟩, rfl, rfl⟩
      exact ⟨prepared, rfl⟩
    · rintro ⟨prepared, rfl⟩
      exact ⟨⟨⟩, _, prepared, _, _, ⟨rfl, rfl⟩, rfl, rfl⟩
  | element base index =>
    simp only [expressionValue, Ends.bind_iff, ends_objectIn, ends_intOf, ends_askHeap, Evaluates]
    constructor
    · rintro ⟨slot, _, ⟨found, rfl⟩, position, _, ⟨indexed, rfl⟩, read, rfl⟩
      exact ⟨slot, position, found, indexed, read, rfl⟩
    · rintro ⟨slot, position, found, indexed, read, rfl⟩
      exact ⟨slot, _, ⟨found, rfl⟩, position, _, ⟨indexed, rfl⟩, read, rfl⟩
  | newObject className =>
    simp only [expressionValue, Ends.bind_iff, ends_allocate, Evaluates]
    constructor
    · rintro ⟨_, prepared, ready, slot, heap, allocated, rfl, rfl⟩
      exact ⟨prepared, slot, heap, ready, allocated, rfl, rfl⟩
    · rintro ⟨prepared, slot, heap, ready, allocated, rfl, rfl⟩
      exact ⟨⟨⟩, prepared, ready, slot, heap, allocated, rfl, rfl⟩
  | newArray content size =>
    simp only [expressionValue, Ends.bind_iff, ends_intOf, Evaluates]
    constructor
    · rintro ⟨length, _, ⟨sized, rfl⟩, rest⟩
      split at rest
      · obtain ⟨_, _, thrown, _⟩ := Ends.bind_iff.1 rest
        exact absurd thrown Ends.not_throw
      · rename_i positive
        obtain ⟨slot, heap, allocated, rfl, rfl⟩ := ends_allocate.1 rest
        exact ⟨length, slot, heap, sized, Int.not_lt.1 positive, allocated, rfl, rfl⟩
    · rintro ⟨length, slot, heap, sized, positive, allocated, rfl, rfl⟩
      refine ⟨length, _, ⟨sized, rfl⟩, ?_⟩
      rw [if_neg (Int.not_lt.2 positive)]
      exact ends_allocate.2 ⟨slot, heap, allocated, rfl, rfl⟩
  | length base =>
    simp only [expressionValue, Ends.bind_iff, ends_objectIn, ends_askHeap, Ends.pure_iff,
      Evaluates]
    constructor
    · rintro ⟨slot, _, ⟨found, rfl⟩, length, _, ⟨measured, rfl⟩, rfl, rfl⟩
      exact ⟨slot, length, found, measured, rfl, rfl⟩
    · rintro ⟨slot, length, found, measured, rfl, rfl⟩
      exact ⟨slot, _, ⟨found, rfl⟩, length, _, ⟨measured, rfl⟩, rfl, rfl⟩
  | binary operator left right =>
    simp only [expressionValue, Ends.bind_iff, ends_operandValue, ends_arithmetic, Evaluates]
    constructor
    · rintro ⟨first, _, ⟨foundFirst, rfl⟩, second, _, ⟨foundSecond, rfl⟩, computed, rfl⟩
      exact ⟨first, second, foundFirst, foundSecond, computed, rfl⟩
    · rintro ⟨first, second, foundFirst, foundSecond, computed, rfl⟩
      exact ⟨first, _, ⟨foundFirst, rfl⟩, second, _, ⟨foundSecond, rfl⟩, computed, rfl⟩
  | call target => exact ends_callValue

/-- Where a value is stored, and the locals afterwards. -/
def Stores
    (world : World)
    (callees : Callees)
    (locals : List Datum)
    (value : Datum)
    (before : Machine)
    (changed : List Datum)
    (after : Machine) : Expression → Prop
  | .variable target =>
    target.index < locals.length ∧ changed = locals.set target.index value ∧ after = before
  | .instanceField base field =>
    ∃ slot heap, locals[base.index]? = some (.reference slot) ∧
      before.heap.writeField slot (declaredField world.program field) value = .ok heap ∧
      changed = locals ∧ after = { before with heap }
  | .staticField field =>
    ∃ prepared, Ends (callees.prepare (declaredField world.program field).owner) before () prepared ∧
      changed = locals ∧
      after =
        { prepared with
          statics := prepared.statics.write (declaredField world.program field) value }
  | .element base index =>
    ∃ slot position heap, locals[base.index]? = some (.reference slot) ∧
      index.value? locals = some (.int position) ∧
      before.heap.writeElement slot position value = .ok heap ∧
      changed = locals ∧ after = { before with heap }
  | _ => False

theorem ends_store {place : Expression} {value : Datum} {changed : List Datum} :
    Ends (store world callees locals place value) before changed after ↔
      Stores world callees locals value before changed after place := by
  cases place with
  | «variable» target => exact ends_setLocal
  | instanceField base field =>
    simp only [store, Ends.bind_iff, ends_objectIn, ends_changeHeap, Ends.pure_iff, Stores]
    constructor
    · rintro ⟨slot, _, ⟨found, rfl⟩, _, _, ⟨heap, written, rfl⟩, rfl, rfl⟩
      exact ⟨slot, heap, found, written, rfl, rfl⟩
    · rintro ⟨slot, heap, found, written, rfl, rfl⟩
      exact ⟨slot, _, ⟨found, rfl⟩, ⟨⟩, _, ⟨heap, written, rfl⟩, rfl, rfl⟩
  | staticField field =>
    simp only [store, Ends.bind_iff, Ends.modify_iff, Ends.pure_iff, Stores]
    constructor
    · rintro ⟨_, prepared, ready, _, _, rfl, rfl, rfl⟩
      exact ⟨prepared, ready, rfl, rfl⟩
    · rintro ⟨prepared, ready, rfl, rfl⟩
      exact ⟨⟨⟩, prepared, ready, ⟨⟩, _, rfl, rfl, rfl⟩
  | element base index =>
    simp only [store, Ends.bind_iff, ends_objectIn, ends_intOf, ends_changeHeap, Ends.pure_iff,
      Stores]
    constructor
    · rintro ⟨slot, _, ⟨found, rfl⟩, position, _, ⟨indexed, rfl⟩, _, _, ⟨heap, written, rfl⟩,
        rfl, rfl⟩
      exact ⟨slot, position, heap, found, indexed, written, rfl, rfl⟩
    · rintro ⟨slot, position, heap, found, indexed, written, rfl, rfl⟩
      exact ⟨slot, _, ⟨found, rfl⟩, position, _, ⟨indexed, rfl⟩, ⟨⟩, _, ⟨heap, written, rfl⟩,
        rfl, rfl⟩
  | literal _ => exact iff_of_false Ends.not_throw id
  | newObject _ => exact iff_of_false Ends.not_throw id
  | newArray _ _ => exact iff_of_false Ends.not_throw id
  | length _ => exact iff_of_false Ends.not_throw id
  | binary _ _ _ => exact iff_of_false Ends.not_throw id
  | call _ => exact iff_of_false Ends.not_throw id

/-- What a binding finds among the things that were passed. -/
def passed? (receiver : Option Datum) (arguments : List Datum) : Binding → Option Datum
  | .receiver _ => receiver
  | .parameter index _ => arguments[index]?

@[simp]
theorem ends_boundValue
    {receiver : Option Datum}
    {arguments : List Datum}
    {source : Binding}
    {value : Datum} :
    Ends (boundValue receiver arguments source) before value after ↔
      passed? receiver arguments source = some value ∧ after = before := by
  cases source with
  | receiver type =>
    cases receiver with
    | none => simp [boundValue, passed?]
    | some given => simp [boundValue, passed?, eq_comm]
  | parameter index type =>
    simp only [boundValue, passed?]
    cases arguments[index]? with
    | none => simp
    | some given => simp [eq_comm]

/-- The machine after an instruction was counted. -/
def counted (machine : Machine) : Machine :=
  { machine with executed := machine.executed + 1 }

/-- One more instruction may run. -/
def Allowed (limits : Limits) (machine : Machine) : Prop :=
  limits.instructions = 0 ∨ machine.executed < limits.instructions

variable {receiver : Option Datum} {arguments : List Datum} {rest : List Instruction}

theorem ends_instructions_nil {value : Datum} :
    Ends (instructions world callees receiver arguments locals []) before value after ↔
      value = .void ∧ after = before :=
  Ends.pure_iff

/-- How the instructions of a body go on, by the form of the first. -/
def Continues
    (world : World)
    (callees : Callees)
    (receiver : Option Datum)
    (arguments : List Datum)
    (locals : List Datum)
    (rest : List Instruction)
    (before : Machine)
    (value : Datum)
    (after : Machine) : Instruction → Prop
  | .bind target source =>
    ∃ given, passed? receiver arguments source = some given ∧ target.index < locals.length ∧
      Ends (instructions world callees receiver arguments (locals.set target.index given) rest)
        before value after
  | .assign place expression =>
    ∃ computed between changed stored,
      Evaluates world callees locals before computed between expression ∧
        Stores world callees locals computed between changed stored place ∧
        Ends (instructions world callees receiver arguments changed rest) stored value after
  | .invoke target =>
    ∃ result between,
      Evaluates world callees locals before result between (.call target) ∧
        Ends (instructions world callees receiver arguments locals rest) between value after
  | .return none => value = .void ∧ after = before
  | .return (some operand) => operand.value? locals = some value ∧ after = before

theorem ends_instructions_cons {instruction : Instruction} {value : Datum} :
    Ends (instructions world callees receiver arguments locals (instruction :: rest))
        before value after ↔
      Allowed world.limits before ∧
        Continues world callees receiver arguments locals rest (counted before) value after
          instruction := by
  have ticking {next : Unit → Run Datum} :
      Ends (tick world.limits >>= next) before value after ↔
        Allowed world.limits before ∧ Ends (next ()) (counted before) value after := by
    simp only [Ends.bind_iff, ends_tick]
    constructor
    · rintro ⟨_, _, ⟨allowed, rfl⟩, ends⟩
      exact ⟨allowed, ends⟩
    · rintro ⟨allowed, ends⟩
      exact ⟨⟨⟩, _, ⟨allowed, rfl⟩, ends⟩
  unfold instructions
  rw [ticking]
  refine and_congr_right fun _ => ?_
  cases instruction with
  | bind target source =>
    simp only [Ends.bind_iff, ends_boundValue, ends_setLocal, Continues]
    constructor
    · rintro ⟨given, _, ⟨bound, rfl⟩, _, _, ⟨declared, rfl, rfl⟩, ends⟩
      exact ⟨given, bound, declared, ends⟩
    · rintro ⟨given, bound, declared, ends⟩
      exact ⟨given, _, ⟨bound, rfl⟩, _, _, ⟨declared, rfl, rfl⟩, ends⟩
  | assign place expression =>
    simp only [Ends.bind_iff, ends_expressionValue, ends_store, Continues]
    constructor
    · rintro ⟨computed, between, evaluated, changed, stored, kept, ends⟩
      exact ⟨computed, between, changed, stored, evaluated, kept, ends⟩
    · rintro ⟨computed, between, changed, stored, evaluated, kept, ends⟩
      exact ⟨computed, between, evaluated, changed, stored, kept, ends⟩
  | invoke target =>
    simp only [Ends.bind_iff, ends_callValue, Continues, Evaluates]
  | «return» operand =>
    cases operand with
    | none => exact Ends.pure_iff
    | some operand => exact ends_operandValue

/-- A method is entered if it has a body and one more call may be open. -/
theorem ends_enter {id : MethodId} {method : MethodRef} {value : Datum} :
    Ends (enter world callees id method receiver arguments) before value after ↔
      ∃ entered inner, world.program.body? id = some entered ∧
        (world.limits.depth = 0 ∨ before.depth < world.limits.depth) ∧
        Ends
          (instructions world callees receiver arguments
            (entered.locals.map fun declaration => .zero declaration.type) entered.instructions)
          { before with depth := before.depth + 1 } value inner ∧
        after = { inner with depth := inner.depth - 1 } := by
  have within :
      ¬ (0 < world.limits.depth ∧ world.limits.depth ≤ before.depth) ↔
        world.limits.depth = 0 ∨ before.depth < world.limits.depth := by
    omega
  rw [← within]
  unfold enter
  cases world.program.body? id with
  | none => simp
  | some entered =>
    simp only [Ends.bind_iff, Ends.get_iff, Option.some.injEq]
    constructor
    · rintro ⟨_, _, ⟨rfl, rfl⟩, rest⟩
      split at rest
      · obtain ⟨_, _, thrown, _⟩ := Ends.bind_iff.1 rest
        exact absurd thrown Ends.not_throw
      · rename_i allowed
        obtain ⟨inner, ends, rfl⟩ := ends_nested.1 rest
        exact ⟨entered, inner, rfl, allowed, ends, rfl⟩
    · rintro ⟨_, inner, rfl, allowed, ends, rfl⟩
      refine ⟨_, _, ⟨rfl, rfl⟩, ?_⟩
      rw [if_neg allowed]
      exact ends_nested.2 ⟨inner, ends, rfl⟩

/-- Where the search for the target of a call starts: for a call that is dispatched, at the class of
the object; a static call initializes the class that it names. -/
def Starts
    (callees : Callees)
    (method : MethodRef)
    (before : Machine)
    (start : String)
    (after : Machine) : CallKind → Option Datum → Prop
  | .virtual, some (.reference slot) | .interface, some (.reference slot) =>
    ∃ runtime, before.heap.className? slot = .ok runtime ∧
      start = runtime.getD method.owner ∧ after = before
  | .static, _ => Ends (callees.prepare method.owner) before () after ∧ start = method.owner
  | _, _ => start = method.owner ∧ after = before

/-- The class at which the search for the target of a call starts. -/
def startClass
    (heap : Heap)
    (method : MethodRef)
    (kind : CallKind)
    (receiver : Option Datum) : String :=
  match kind, receiver with
  | .virtual, some (.reference slot) | .interface, some (.reference slot) =>
    (heap.objects[slot]?.bind HeapObject.className?).getD method.owner
  | _, _ => method.owner

/-- A search starts at the same class whatever it initializes, and only a static call initializes. -/
theorem Starts.cases
    {kind : CallKind}
    {method : MethodRef}
    {start : String}
    (starts : Starts callees method before start after kind receiver) :
    start = startClass before.heap method kind receiver ∧
      ((kind = .static ∧ Ends (callees.prepare method.owner) before () after) ∨
        (kind ≠ .static ∧ after = before)) := by
  have dispatched {slot : Nat} {runtime : Option String}
      (asked : before.heap.className? slot = .ok runtime) :
      runtime = before.heap.objects[slot]?.bind HeapObject.className? := by
    obtain ⟨object, located, rfl⟩ := Heap.className?_eq_ok.1 asked
    rw [located]
    rfl
  cases kind with
  | static => exact ⟨starts.2, .inl ⟨rfl, starts.1⟩⟩
  | special => exact ⟨starts.1, .inr ⟨nofun, starts.2⟩⟩
  | virtual =>
    rcases receiver with _ | datum
    · exact ⟨starts.1, .inr ⟨nofun, starts.2⟩⟩
    · cases datum with
      | reference slot =>
        obtain ⟨runtime, asked, rfl, rfl⟩ := starts
        exact ⟨by rw [dispatched asked]; rfl, .inr ⟨nofun, rfl⟩⟩
      | _ => exact ⟨starts.1, .inr ⟨nofun, starts.2⟩⟩
  | interface =>
    rcases receiver with _ | datum
    · exact ⟨starts.1, .inr ⟨nofun, starts.2⟩⟩
    · cases datum with
      | reference slot =>
        obtain ⟨runtime, asked, rfl, rfl⟩ := starts
        exact ⟨by rw [dispatched asked]; rfl, .inr ⟨nofun, rfl⟩⟩
      | _ => exact ⟨starts.1, .inr ⟨nofun, starts.2⟩⟩

theorem ends_searchStart {kind : CallKind} {method : MethodRef} {start : String} :
    Ends (searchStart callees kind method receiver) before start after ↔
      Starts callees method before start after kind receiver := by
  have asking {slot : Nat} :
      Ends
          (do
            let runtime ← askHeap fun heap => heap.className? slot
            return runtime.getD method.owner)
          before start after ↔
        ∃ runtime, before.heap.className? slot = .ok runtime ∧
          start = runtime.getD method.owner ∧ after = before := by
    simp only [Ends.bind_iff, ends_askHeap, Ends.pure_iff]
    constructor
    · rintro ⟨runtime, _, ⟨asked, rfl⟩, rfl, rfl⟩
      exact ⟨runtime, asked, rfl, rfl⟩
    · rintro ⟨runtime, asked, rfl, rfl⟩
      exact ⟨runtime, _, ⟨asked, rfl⟩, rfl, rfl⟩
  cases kind with
  | static =>
    simp only [searchStart, Starts, Ends.bind_iff, Ends.pure_iff]
    constructor
    · rintro ⟨_, _, prepared, rfl, rfl⟩
      exact ⟨prepared, rfl⟩
    · rintro ⟨prepared, rfl⟩
      exact ⟨⟨⟩, _, prepared, rfl, rfl⟩
  | special => exact Ends.pure_iff
  | virtual =>
    rcases receiver with _ | datum
    · exact Ends.pure_iff
    · cases datum with
      | reference slot => exact asking
      | _ => exact Ends.pure_iff
  | interface =>
    rcases receiver with _ | datum
    · exact Ends.pure_iff
    · cases datum with
      | reference slot => exact asking
      | _ => exact Ends.pure_iff

/-- What becomes of a call whose search started at a class. -/
def Reaches
    (world : World)
    (callees : Callees)
    (method : MethodRef)
    (receiver : Option Datum)
    (arguments : List Datum)
    (before : Machine)
    (value : Datum)
    (after : Machine) : Option MethodId → Prop
  | some id => Ends (enter world callees id method receiver arguments) before value after
  | none =>
    method.name = constructorName ∧ method.owner = objectClass ∧ value = .void ∧ after = before

/-- The call is one of the sink. -/
def CallsSink (world : World) (method : MethodRef) : Prop :=
  method.owner = world.sink.owner ∧ method.name = world.sink.method

theorem ends_invokeStep {kind : CallKind} {method : MethodRef} {value : Datum} :
    Ends (invokeStep world callees kind method receiver arguments) before value after ↔
      (CallsSink world method ∧
        ∃ line, reportedLine? world.sink arguments = some line ∧ value = .void ∧
          after = { before with trace := before.trace ++ [line] }) ∨
      (¬ CallsSink world method ∧ (kind = .static ∨ (receiver.getD .null).isNull = false) ∧
        ∃ start started, Starts callees method before start started kind receiver ∧
          Reaches world callees method receiver arguments started value after
            (target? world.program start method)) := by
  unfold invokeStep
  by_cases sinks : CallsSink world method
  · have same : method.owner = world.sink.owner ∧ method.name = world.sink.method := sinks
    rw [if_pos same, ends_report]
    simp [sinks]
  · have other : ¬ (method.owner = world.sink.owner ∧ method.name = world.sink.method) := sinks
    rw [if_neg other]
    by_cases nowhere : kind ≠ .static ∧ (receiver.getD .null).isNull = true
    · rw [if_pos nowhere]
      simp only [Ends.not_throw, sinks, false_and, not_false_eq_true, true_and, false_or,
        false_iff]
      rintro ⟨static | found, -⟩
      · exact nowhere.1 static
      · rw [found] at nowhere
        exact Bool.noConfusion nowhere.2
    · rw [if_neg nowhere]
      have somewhere : kind = .static ∨ (receiver.getD .null).isNull = false := by
        by_cases static : kind = .static
        · exact .inl static
        · exact .inr (by simpa using fun null => nowhere ⟨static, null⟩)
      simp only [sinks, somewhere, false_and, not_false_eq_true, true_and, false_or,
        Ends.bind_iff, ends_searchStart]
      refine exists_congr fun start => exists_congr fun started => and_congr_right fun _ => ?_
      cases target? world.program start method with
      | some id => rfl
      | none =>
        simp only [Reaches]
        split
        · rename_i root
          simp [root]
        · rename_i other
          simp only [Ends.not_throw, false_iff]
          rintro ⟨named, owned, -⟩
          exact other ⟨named, owned⟩

/-- The initialization of a class that was not initialized before, after the one above it. -/
def Initializes
    (world : World)
    (callees : Callees)
    (className : String)
    (before after : Machine) : Prop :=
  match world.program.findMethod? className staticInitializerName [] with
  | none => after = before
  | some id =>
    if (world.program.body? id).isSome then
      ∃ value,
        Ends (enter world callees id ⟨className, staticInitializerName, [], .void⟩ none [])
          before value after
    else after = before

/-- The class directly above a class is initialized first. -/
def InitializesAbove
    (world : World)
    (callees : Callees)
    (className : String)
    (before after : Machine) : Prop :=
  match world.program.superclass? className with
  | some superclass => Ends (callees.prepare superclass) before () after
  | none => after = before

theorem initializes_of_none
    {className : String}
    (absent : world.program.findMethod? className staticInitializerName [] = none) :
    Initializes world callees className before after ↔ after = before := by
  simp only [Initializes, absent]

theorem initializes_of_body?_none
    {className : String}
    {id : MethodId}
    (found : world.program.findMethod? className staticInitializerName [] = some id)
    (bodiless : world.program.body? id = none) :
    Initializes world callees className before after ↔ after = before := by
  simp [Initializes, found, bodiless]

theorem initializes_of_body?_some
    {className : String}
    {id : MethodId}
    {entered : Body}
    (found : world.program.findMethod? className staticInitializerName [] = some id)
    (bodied : world.program.body? id = some entered) :
    Initializes world callees className before after ↔
      ∃ value,
        Ends (enter world callees id ⟨className, staticInitializerName, [], .void⟩ none [])
          before value after := by
  simp [Initializes, found, bodied]

theorem initializesAbove_of_none
    {className : String}
    (top : world.program.superclass? className = none) :
    InitializesAbove world callees className before after ↔ after = before := by
  simp only [InitializesAbove, top]

theorem initializesAbove_of_some
    {className superclass : String}
    (below : world.program.superclass? className = some superclass) :
    InitializesAbove world callees className before after ↔
      Ends (callees.prepare superclass) before () after := by
  simp only [InitializesAbove, below]

theorem ends_prepareStep {className : String} {done : Unit} :
    Ends (prepareStep world callees className) before done after ↔
      (className ∈ before.initialized ∧ after = before) ∨
      (className ∉ before.initialized ∧
        ∃ above,
          InitializesAbove world callees className
            { before with initialized := before.initialized ++ [className] } above ∧
          Initializes world callees className above after) := by
  have initializing {machine : Machine} :
      Ends
          (match world.program.findMethod? className staticInitializerName [] with
            | none => pure ()
            | some id =>
              if (world.program.body? id).isSome then do
                let _ ← enter world callees id
                  ⟨className, staticInitializerName, [], .void⟩ none []
                pure ()
              else pure ())
          machine done after ↔
        Initializes world callees className machine after := by
    unfold Initializes
    cases world.program.findMethod? className staticInitializerName [] with
    | none => simp
    | some id =>
      dsimp only
      split
      · simp only [Ends.bind_iff, Ends.pure_iff]
        constructor
        · rintro ⟨value, _, entered, -, rfl⟩
          exact ⟨value, entered⟩
        · rintro ⟨value, entered⟩
          exact ⟨value, after, entered, trivial, rfl⟩
      · simp
  unfold prepareStep InitializesAbove
  rw [Ends.bind_iff]
  constructor
  · rintro ⟨first, marked, marking, rest⟩
    rcases ends_mark.1 marking with ⟨known, rfl, rfl⟩ | ⟨unknown, rfl, rfl⟩
    · exact .inl ⟨known, (Ends.pure_iff.1 rest).2⟩
    · refine .inr ⟨unknown, ?_⟩
      rw [if_pos rfl] at rest
      cases found : world.program.superclass? className with
      | none =>
        rw [found] at rest
        exact ⟨_, rfl, initializing.1 rest⟩
      | some superclass =>
        rw [found] at rest
        obtain ⟨_, above, prepared, ends⟩ := Ends.bind_iff.1 rest
        exact ⟨above, prepared, initializing.1 ends⟩
  · rintro (⟨known, rfl⟩ | ⟨unknown, above, prepared, ends⟩)
    · exact ⟨false, after, ends_mark.2 (.inl ⟨known, rfl, rfl⟩), Ends.pure_iff.2 ⟨rfl, rfl⟩⟩
    · refine ⟨true, _, ends_mark.2 (.inr ⟨unknown, rfl, rfl⟩), ?_⟩
      rw [if_pos rfl]
      cases found : world.program.superclass? className with
      | none =>
        rw [found] at prepared
        subst prepared
        exact initializing.2 ends
      | some superclass =>
        rw [found] at prepared
        exact Ends.bind_iff.2 ⟨⟨⟩, above, prepared, initializing.2 ends⟩

/-- What a method is given from outside, by its parameters: nothing, or an array without
elements. -/
def GivenFromOutside
    (before : Machine)
    (arguments : List Datum)
    (after : Machine) : List Ty → Prop
  | [] => arguments = [] ∧ after = before
  | [.array element] =>
    ∃ slot heap, before.heap.allocateArray element 0 = .ok (slot, heap) ∧
      arguments = [.reference slot] ∧ after = { before with heap }
  | _ => False

theorem ends_entryArguments {method : MethodRef} :
    Ends (entryArguments method) before arguments after ↔
      GivenFromOutside before arguments after method.parameters := by
  unfold entryArguments
  generalize method.parameters = parameters
  rcases parameters with _ | ⟨first, _ | ⟨second, others⟩⟩
  · exact Ends.pure_iff
  · cases first with
    | array element =>
      simp only [GivenFromOutside, Ends.bind_iff, ends_allocate, Ends.pure_iff]
      constructor
      · rintro ⟨_, _, ⟨slot, heap, allocated, rfl, rfl⟩, rfl, rfl⟩
        exact ⟨slot, heap, allocated, rfl, rfl⟩
      · rintro ⟨slot, heap, allocated, rfl, rfl⟩
        exact ⟨_, _, ⟨slot, heap, allocated, rfl, rfl⟩, rfl, rfl⟩
    | _ => exact iff_of_false Ends.not_throw id
  · simp [GivenFromOutside]

theorem ends_entryStep {name : String} {value : Datum} :
    Ends (entryStep world callees name) before value after ↔
      ∃ method arguments started,
        entryMethod? world.program name = some method ∧
          GivenFromOutside before arguments started method.parameters ∧
          Ends (callees.invoke .static method none arguments) started value after := by
  unfold entryStep
  cases entryMethod? world.program name with
  | none => simp
  | some method => simp [Ends.bind_iff, ends_entryArguments]

end AccessProfiler.Run
