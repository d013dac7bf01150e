import AccessProfiler.Proofs.Outcome

/-!
# When the parts of a run end

For each part of a run an equivalence says when it ends normally, with which value and in which state.
Only the parts that call or initialize ask their callees; all others are settled by the locals, the
heap and the static fields.  Runs of whole bodies are taken apart with these equivalences alone.
-/

namespace AccessProfiler

namespace Datum

@[simp]
theorem asInt_eq_ok {datum : Datum} {value : Int32} :
    datum.asInt = .ok value ↔ datum = .int value := by
  cases datum <;> simp [asInt]

@[simp]
theorem asReference_eq_ok {datum : Datum} {slot : Nat} :
    datum.asReference = .ok slot ↔ datum = .reference slot := by
  cases datum <;> simp [asReference]

end Datum

/-- The value of an operand, if its local is declared. -/
def Operand.value? (locals : List Datum) : Operand → Option Datum
  | .variable source => locals[source.index]?
  | .literal value => some (.ofConstant value)

section Found

variable {Holds : Datum → Prop} {locals : List Datum}

/-- What holds of the locals and of literals holds of the value of an operand. -/
theorem Operand.holds_of_value?
    (ofLocals : ∀ value ∈ locals, Holds value)
    (ofLiterals : ∀ constant, Holds (.ofConstant constant))
    {operand : Operand}
    {value : Datum}
    (found : operand.value? locals = some value) :
    Holds value := by
  cases operand with
  | «variable» source => exact ofLocals value (List.mem_of_getElem? found)
  | literal constant =>
    cases found
    exact ofLiterals constant

theorem Operand.holds_of_values?
    (ofLocals : ∀ value ∈ locals, Holds value)
    (ofLiterals : ∀ constant, Holds (.ofConstant constant))
    {operands : List Operand}
    {values : List Datum}
    (found : operands.mapM (Operand.value? locals) = some values) :
    ∀ value ∈ values, Holds value := by
  induction operands generalizing values with
  | nil =>
    cases found
    exact fun _ member => absurd member List.not_mem_nil
  | cons operand rest hypothesis =>
    simp only [List.mapM_cons, Option.bind_eq_bind, Option.bind_eq_some_iff, Option.pure_def,
      Option.some.injEq] at found
    obtain ⟨first, foundFirst, others, foundOthers, rfl⟩ := found
    intro value member
    rcases List.mem_cons.1 member with rfl | later
    · exact Operand.holds_of_value? ofLocals ofLiterals foundFirst
    · exact hypothesis foundOthers value later

/-- What holds of the locals holds of the receiver of a call. -/
theorem holds_of_receiver
    (ofLocals : ∀ value ∈ locals, Holds value)
    {id : Option LocalId}
    {receiver : Option Datum}
    (received : (id.mapM fun id => locals[id.index]?) = some receiver) :
    ∀ given ∈ receiver, Holds given := by
  cases id with
  | none =>
    cases received
    intro given none
    cases none
  | some id =>
    obtain ⟨datum, located, rfl⟩ := Option.map_eq_some_iff.1 received
    intro given same
    obtain rfl := Option.some.inj same
    exact ofLocals _ (List.mem_of_getElem? located)

end Found

namespace Run

variable {before after : Machine} {locals : List Datum}

@[simp]
theorem ends_localValue {id : LocalId} {value : Datum} :
    Ends (localValue locals id) before value after ↔
      locals[id.index]? = some value ∧ after = before := by
  unfold localValue
  cases locals[id.index]? with
  | none => simp
  | some found => simp [eq_comm]

@[simp]
theorem ends_operandValue {operand : Operand} {value : Datum} :
    Ends (operandValue locals operand) before value after ↔
      operand.value? locals = some value ∧ after = before := by
  cases operand with
  | «variable» source => simp [operandValue, Operand.value?]
  | literal constant => simp [operandValue, Operand.value?, eq_comm]

@[simp]
theorem ends_objectIn {id : LocalId} {slot : Nat} :
    Ends (objectIn locals id) before slot after ↔
      locals[id.index]? = some (.reference slot) ∧ after = before := by
  unfold objectIn
  simp only [Ends.bind_iff, ends_localValue, ends_ofExcept, Datum.asReference_eq_ok]
  constructor
  · rintro ⟨_, _, ⟨found, rfl⟩, rfl, rfl⟩
    exact ⟨found, rfl⟩
  · rintro ⟨found, rfl⟩
    exact ⟨_, _, ⟨found, rfl⟩, rfl, rfl⟩

@[simp]
theorem ends_intOf {operand : Operand} {value : Int32} :
    Ends (intOf locals operand) before value after ↔
      operand.value? locals = some (.int value) ∧ after = before := by
  unfold intOf
  simp only [Ends.bind_iff, ends_operandValue, ends_ofExcept, Datum.asInt_eq_ok]
  constructor
  · rintro ⟨_, _, ⟨found, rfl⟩, rfl, rfl⟩
    exact ⟨found, rfl⟩
  · rintro ⟨found, rfl⟩
    exact ⟨_, _, ⟨found, rfl⟩, rfl, rfl⟩

@[simp]
theorem ends_setLocal {id : LocalId} {value : Datum} {changed : List Datum} :
    Ends (setLocal locals id value) before changed after ↔
      id.index < locals.length ∧ changed = locals.set id.index value ∧ after = before := by
  unfold setLocal
  split
  · rename_i declared
    simp [declared]
  · rename_i undeclared
    simp [undeclared]

@[simp]
theorem ends_askHeap
    {Answer : Type}
    {question : Heap → Except Failure Answer}
    {answer : Answer} :
    Ends (askHeap question) before answer after ↔
      question before.heap = .ok answer ∧ after = before := by
  unfold askHeap
  simp only [Ends.bind_iff, Ends.get_iff, ends_ofExcept]
  constructor
  · rintro ⟨_, _, ⟨rfl, rfl⟩, answered, rfl⟩
    exact ⟨answered, rfl⟩
  · rintro ⟨answered, rfl⟩
    exact ⟨_, _, ⟨rfl, rfl⟩, answered, rfl⟩

@[simp]
theorem ends_changeHeap {change : Heap → Except Failure Heap} {done : Unit} :
    Ends (changeHeap change) before done after ↔
      ∃ heap, change before.heap = .ok heap ∧ after = { before with heap } := by
  unfold changeHeap
  simp only [Ends.bind_iff, Ends.get_iff, ends_ofExcept, Ends.set_iff]
  constructor
  · rintro ⟨_, _, ⟨rfl, rfl⟩, heap, _, ⟨changed, rfl⟩, rfl⟩
    exact ⟨heap, changed, rfl⟩
  · rintro ⟨heap, changed, rfl⟩
    exact ⟨_, _, ⟨rfl, rfl⟩, heap, _, ⟨changed, rfl⟩, rfl⟩

@[simp]
theorem ends_allocate {allocation : Heap → Except Failure (Nat × Heap)} {value : Datum} :
    Ends (allocate allocation) before value after ↔
      ∃ slot heap, allocation before.heap = .ok (slot, heap) ∧
        value = .reference slot ∧ after = { before with heap } := by
  unfold allocate
  simp only [Ends.bind_iff, Ends.get_iff, ends_ofExcept, Ends.set_iff, Ends.pure_iff]
  constructor
  · rintro ⟨_, _, ⟨rfl, rfl⟩, ⟨slot, heap⟩, _, ⟨allocated, rfl⟩, _, _, rfl, rfl, rfl⟩
    exact ⟨slot, heap, allocated, rfl, rfl⟩
  · rintro ⟨slot, heap, allocated, rfl, rfl⟩
    exact ⟨_, _, ⟨rfl, rfl⟩, (slot, heap), _, ⟨allocated, rfl⟩, ⟨⟩, _, rfl, rfl, rfl⟩

@[simp]
theorem ends_nested {Value : Type} {run : Run Value} {value : Value} :
    Ends (nested run) before value after ↔
      ∃ inner, Ends run { before with depth := before.depth + 1 } value inner ∧
        after = { inner with depth := inner.depth - 1 } := by
  have opened :
      StateT.run (ExceptT.run (nested run)) before =
        ((StateT.run (ExceptT.run run) { before with depth := before.depth + 1 }).1,
          { (StateT.run (ExceptT.run run) { before with depth := before.depth + 1 }).2 with
            depth :=
              (StateT.run (ExceptT.run run) { before with depth := before.depth + 1 }).2.depth - 1 }) :=
    rfl
  unfold Ends
  rw [opened]
  rcases StateT.run (ExceptT.run run) { before with depth := before.depth + 1 } with
    ⟨outcome, inner⟩
  constructor
  · intro ends
    obtain ⟨rfl, rfl⟩ := Prod.mk.inj ends
    exact ⟨inner, rfl, rfl⟩
  · rintro ⟨_, ⟨⟩, rfl⟩
    rfl

/-- An instruction is counted unless no more may run. -/
@[simp]
theorem ends_tick {limits : Limits} {done : Unit} :
    Ends (tick limits) before done after ↔
      (limits.instructions = 0 ∨ before.executed < limits.instructions) ∧
        after = { before with executed := before.executed + 1 } := by
  have within :
      ¬ (0 < limits.instructions ∧ limits.instructions < before.executed + 1) ↔
        limits.instructions = 0 ∨ before.executed < limits.instructions := by
    omega
  rw [← within]
  unfold tick
  simp only [Ends.bind_iff, Ends.modify_iff, Ends.get_iff]
  constructor
  · rintro ⟨_, _, rfl, _, _, ⟨rfl, rfl⟩, rest⟩
    split at rest
    · exact absurd rest Ends.not_throw
    · rename_i allowed
      exact ⟨allowed, (Ends.pure_iff.1 rest).2⟩
  · rintro ⟨allowed, rfl⟩
    refine ⟨⟨⟩, _, rfl, _, _, ⟨rfl, rfl⟩, ?_⟩
    rw [if_neg allowed]
    exact Ends.pure_iff.2 ⟨rfl, rfl⟩

@[simp]
theorem ends_mark {className : String} {first : Bool} :
    Ends (mark className) before first after ↔
      (className ∈ before.initialized ∧ first = false ∧ after = before) ∨
      (className ∉ before.initialized ∧ first = true ∧
        after = { before with initialized := before.initialized ++ [className] }) := by
  unfold mark
  simp only [Ends.bind_iff, Ends.get_iff]
  constructor
  · rintro ⟨_, _, ⟨rfl, rfl⟩, rest⟩
    split at rest
    · rename_i marked
      obtain ⟨rfl, rfl⟩ := Ends.pure_iff.1 rest
      exact .inl ⟨by simpa using marked, rfl, rfl⟩
    · rename_i unmarked
      obtain ⟨_, _, changed, returned⟩ := Ends.bind_iff.1 rest
      obtain rfl := Ends.set_iff.1 changed
      obtain ⟨rfl, rfl⟩ := Ends.pure_iff.1 returned
      exact .inr ⟨by simpa using unmarked, rfl, rfl⟩
  · rintro (⟨marked, rfl, rfl⟩ | ⟨unmarked, rfl, rfl⟩)
    · refine ⟨_, _, ⟨rfl, rfl⟩, ?_⟩
      rw [if_pos (by simpa using marked)]
      exact Ends.pure_iff.2 ⟨rfl, rfl⟩
    · refine ⟨_, _, ⟨rfl, rfl⟩, ?_⟩
      rw [if_neg (by simpa using unmarked)]
      exact Ends.bind_iff.2 ⟨⟨⟩, _, Ends.set_iff.2 rfl, Ends.pure_iff.2 ⟨rfl, rfl⟩⟩

@[simp]
theorem ends_print {line : TraceLine} {done : Unit} :
    Ends (print line) before done after ↔
      after = { before with trace := before.trace ++ [line] } :=
  Ends.modify_iff

/-- The values of several operands are found one by one and change nothing. -/
theorem ends_operandValues {operands : List Operand} {values : List Datum} :
    Ends (operands.mapM (operandValue locals)) before values after ↔
      operands.mapM (Operand.value? locals) = some values ∧ after = before := by
  induction operands generalizing values with
  | nil =>
    simp [eq_comm]
  | cons operand rest hypothesis =>
    simp only [List.mapM_cons, Ends.bind_iff, ends_operandValue, Ends.pure_iff,
      Option.bind_eq_bind, Option.bind_eq_some_iff, Option.pure_def]
    constructor
    · rintro ⟨value, _, ⟨found, rfl⟩, values, _, others, rfl, rfl⟩
      obtain ⟨foundOthers, rfl⟩ := hypothesis.1 others
      exact ⟨⟨value, found, values, foundOthers, rfl⟩, rfl⟩
    · rintro ⟨⟨value, found, values, foundOthers, ⟨⟩⟩, rfl⟩
      exact ⟨value, _, ⟨found, rfl⟩, values, _, hypothesis.2 ⟨foundOthers, rfl⟩, rfl, rfl⟩

/-- The value of the receiver of a call, if it has one. -/
theorem ends_receiverValue {receiver : Option LocalId} {value : Option Datum} :
    Ends (receiver.mapM (localValue locals)) before value after ↔
      receiver.mapM (fun id => locals[id.index]?) = some value ∧ after = before := by
  cases receiver with
  | none => simp [eq_comm]
  | some id =>
    simp only [Option.mapM_some, Ends.map_iff, ends_localValue, Option.map_eq_map,
      Option.map_eq_some_iff]
    constructor
    · rintro ⟨found, ⟨located, rfl⟩, rfl⟩
      exact ⟨⟨found, located, rfl⟩, rfl⟩
    · rintro ⟨⟨found, located, rfl⟩, rfl⟩
      exact ⟨found, ⟨located, rfl⟩, rfl⟩

/-- A call evaluates its receiver and its arguments and leaves the rest to what it calls. -/
theorem ends_callValue {callees : Callees} {target : Call} {value : Datum} :
    Ends (callValue callees locals target) before value after ↔
      ∃ receiver arguments,
        target.receiver.mapM (fun id => locals[id.index]?) = some receiver ∧
          target.arguments.mapM (Operand.value? locals) = some arguments ∧
          Ends (callees.invoke target.kind target.method receiver arguments) before value after := by
  unfold callValue
  simp only [Ends.bind_iff, ends_receiverValue, ends_operandValues]
  constructor
  · rintro ⟨receiver, _, ⟨received, rfl⟩, arguments, _, ⟨passed, rfl⟩, called⟩
    exact ⟨receiver, arguments, received, passed, called⟩
  · rintro ⟨receiver, arguments, received, passed, called⟩
    exact ⟨receiver, _, ⟨received, rfl⟩, arguments, _, ⟨passed, rfl⟩, called⟩

/-- What the sink prints: a label and a number of one of the two integer types. -/
def reportedLine? (sink : Sink) : List Datum → Option TraceLine
  | [.str label, .int value] => some ⟨sink.tag, label, value.toInt⟩
  | [.str label, .long value] => some ⟨sink.tag, label, value.toInt⟩
  | _ => none

theorem reportedLine?_eq_none
    {sink : Sink}
    {arguments : List Datum}
    (notInt : ∀ label value, arguments = [.str label, .int value] → False)
    (notLong : ∀ label value, arguments = [.str label, .long value] → False) :
    reportedLine? sink arguments = none := by
  unfold reportedLine?
  split
  · exact (notInt _ _ rfl).elim
  · exact (notLong _ _ rfl).elim
  · rfl

theorem ends_report {sink : Sink} {arguments : List Datum} {value : Datum} :
    Ends (report sink arguments) before value after ↔
      ∃ line, reportedLine? sink arguments = some line ∧ value = .void ∧
        after = { before with trace := before.trace ++ [line] } := by
  have printing (line : TraceLine) :
      Ends (print line >>= fun _ => pure .void) before value after ↔
        value = .void ∧ after = { before with trace := before.trace ++ [line] } := by
    simp only [Ends.bind_iff, ends_print, Ends.pure_iff]
    constructor
    · rintro ⟨_, _, rfl, rfl, rfl⟩
      exact ⟨rfl, rfl⟩
    · rintro ⟨rfl, rfl⟩
      exact ⟨⟨⟩, _, rfl, rfl, rfl⟩
  unfold report
  split
  · exact (printing _).trans (by simp [reportedLine?])
  · exact (printing _).trans (by simp [reportedLine?])
  · rename_i notInt notLong
    constructor
    · intro ends
      obtain ⟨_, _, thrown, _⟩ := Ends.bind_iff.1 ends
      exact absurd thrown Ends.not_throw
    · rintro ⟨line, reported, -⟩
      rw [reportedLine?_eq_none notInt notLong] at reported
      cases reported

end Run
end AccessProfiler
