import AccessProfiler.Proofs.CheckedRules
import AccessProfiler.Proofs.CountedPrograms

/-!
# Inserted code keeps the rules

The rules for the instructions that counting inserts.  Each of them is kept in a body whose locals have
the right types, in a program that declares the fields and methods meant and trusts the sink.
-/

namespace AccessProfiler

namespace Program

theorem isAssignable_refl (program : Program) (type : Ty) : program.isAssignable type type := by
  cases type <;> simp [isAssignable]

/-- The walk upwards starts with the class itself. -/
theorem ancestors_eq_cons (program : Program) (name : String) :
    ∃ rest, program.ancestors name = name :: rest := by
  have enough : ∃ more, program.walkLimit [name] = more + 1 := ⟨_, rfl⟩
  obtain ⟨more, enough⟩ := enough
  rw [ancestors, above, enough, walk, if_neg (by simp)]
  exact ⟨_, rfl⟩

/-- Nothing is known to stand above a class that is not registered. -/
theorem ancestors_of_unregistered
    {program : Program}
    {name : String}
    (unregistered : program.class? name = none) :
    program.ancestors name = [name] := by
  have limit : program.walkLimit [name] = (program.classes.flatMap Class.parents).length + 1 + 1 := by
    rw [walkLimit, List.length_singleton]
    omega
  rw [ancestors, above, limit, walk, if_neg (by simp), parents, unregistered]
  rfl

/-- What a class declares itself is found. -/
theorem lookup_eq_found
    {Declaration : Type}
    {program : Program}
    {name : String}
    {declared : Class → Option Declaration}
    {declaration : Declaration}
    (declares : (program.class? name).bind declared = some declaration) :
    program.lookup name declared = .found declaration := by
  obtain ⟨rest, ancestors⟩ := program.ancestors_eq_cons name
  rw [lookup, ancestors, List.findSome?_cons, declares]

/-- The class of the sink is not part of the program; if it is the root class, the sink method is one of
those that it is known to have. -/
structure TrustsSink (sink : Sink) (program : Program) : Prop where
  free : program.class? sink.owner = none
  known : sink.owner = objectClass → rootMethods.contains sink.method

end Program

namespace CheckedBody

variable {checked : CheckedBody}

theorem declares_of_localType?
    {id : LocalId}
    {type : Ty}
    (found : checked.body.localType? id = some type) :
    checked.Declares id := by
  obtain ⟨declaration, located, -⟩ := Option.map_eq_some_iff.1 found
  exact (List.getElem?_eq_some_iff.1 located).1

/-- Where an access to a field of an object keeps the rules, the object is one of the class that is
named. -/
theorem assignable_of_keeps
    {instruction : Instruction}
    {base : LocalId}
    {field : FieldRef}
    (kept : checked.Keeps instruction)
    (member : Expression.instanceField base field ∈ instruction.expressions) :
    ∃ type, checked.body.localType? base = some type ∧ checked.agrees type (.object field.owner) := by
  obtain ⟨declares, faultless⟩ := keeps_iff.1 kept
  cases instruction with
  | assign place value =>
    have parts :
        checked.Declares base ∧ checked.expressionFaults (.instanceField base field) = [] := by
      rw [ruleFaults, assignmentFaults] at faultless
      simp only [List.append_eq_nil_iff] at faultless
      obtain ⟨⟨⟨-, ofPlace⟩, ofValue⟩, -⟩ := faultless
      simp only [Instruction.expressions, List.mem_cons, List.not_mem_nil, or_false] at member
      rcases member with rfl | rfl
      · exact ⟨declares base (List.mem_append_left _ List.mem_cons_self), ofPlace⟩
      · exact ⟨declares base (List.mem_append_right _ List.mem_cons_self), ofValue⟩
    obtain ⟨declared, faultless⟩ := parts
    obtain ⟨type, typed⟩ := declared.localType?
    rw [expressionFaults, List.append_eq_nil_iff, List.append_eq_nil_iff, typed] at faultless
    have access := faultless.1.2
    rw [reportIf_eq_nil_iff, Bool.not_eq_false'] at access
    exact ⟨type, typed, access⟩
  | invoke target =>
    simp [Instruction.expressions] at member
  | _ => cases member

theorem fieldFaults_of_declared
    {field : FieldRef}
    (declares : checked.program.declaredField? field.owner field.name = some field) :
    checked.fieldFaults field = [] := by
  rw [fieldFaults]
  rw [Program.lookup_eq_found declares]
  simp [reportIf]

theorem methodFaults_of_declared
    {target : Call}
    {holder : String}
    {declared : Method}
    (declares :
      checked.program.declaredMethod? target.method.owner target.method.name
        target.method.parameters = some (holder, declared))
    (result : declared.result = target.method.result)
    (static : declared.isStatic = (target.kind == .static)) :
    checked.methodFaults target = [] := by
  obtain ⟨declaration, found, located⟩ := Option.bind_eq_some_iff.1 declares
  obtain ⟨method, there, same⟩ := Option.map_eq_some_iff.1 located
  cases same
  have declares :
      ((checked.program.class? target.method.owner).bind fun declaration =>
          declaration.method? target.method.name target.method.parameters) = some declared :=
    Option.bind_eq_some_iff.2 ⟨declaration, found, there⟩
  rw [methodFaults]
  dsimp only
  rw [Program.lookup_eq_found declares]
  simp [reportIf, result, static]

/-- An assignment of a value of the same type keeps the rules if both sides do. -/
theorem keeps_assign
    {place value : Expression}
    {type : Ty}
    (isPlace : place.isPlace)
    (declares : ∀ id ∈ place.uses ++ value.uses, checked.Declares id)
    (placed : checked.body.type? place = some type)
    (valued : checked.body.type? value = some type)
    (ofPlace : checked.expressionFaults place = [])
    (ofValue : checked.expressionFaults value = []) :
    checked.Keeps (.assign place value) := by
  refine keeps_iff.2 ⟨declares, ?_⟩
  rw [ruleFaults, assignmentFaults]
  rw [placed, valued, ofPlace, ofValue]
  simp [reportIf, isPlace, agrees, Program.isAssignable_refl]

theorem staticFieldFaults
    {field : FieldRef}
    (static : field.isStatic)
    (declares : checked.program.declaredField? field.owner field.name = some field) :
    checked.expressionFaults (.staticField field) = [] := by
  rw [expressionFaults, fieldFaults_of_declared declares]
  simp [reportIf, static]

theorem instanceFieldFaults
    {base : LocalId}
    {field : FieldRef}
    (ofInstance : field.isStatic = false)
    (typed : checked.body.localType? base = some (.object field.owner))
    (declares : checked.program.declaredField? field.owner field.name = some field) :
    checked.expressionFaults (.instanceField base field) = [] := by
  rw [expressionFaults, fieldFaults_of_declared declares]
  rw [typed]
  simp [reportIf, ofInstance, agrees, Program.isAssignable_refl]

theorem keeps_increment
    {count : LocalId}
    (number : checked.body.localType? count = some .int) :
    checked.Keeps (Profile.increment count) := by
  refine keeps_assign rfl ?_ number number rfl ?_
  · intro id member
    have same : id = count := by simpa [Expression.uses, Operand.variable?] using member
    exact same ▸ declares_of_localType? number
  · have typed : checked.body.operandType? (.variable count) = some .int := number
    have literal : checked.body.operandType? (.literal (.int 1)) = some .int := rfl
    rw [expressionFaults, typed, literal]
    simp [reportIf, Ty.isPrimitive, agrees, Program.isAssignable_refl]

theorem keeps_readTally
    {count : LocalId}
    {field : FieldRef}
    (number : checked.body.localType? count = some .int)
    (typed : field.type = .int)
    (static : field.isStatic)
    (declares : checked.program.declaredField? field.owner field.name = some field) :
    checked.Keeps (.assign (.variable count) (.staticField field)) := by
  refine keeps_assign rfl ?_ number (congrArg some typed) rfl (staticFieldFaults static declares)
  intro id member
  have same : id = count := by simpa [Expression.uses] using member
  exact same ▸ declares_of_localType? number

theorem keeps_writeTally
    {count : LocalId}
    {field : FieldRef}
    (number : checked.body.localType? count = some .int)
    (typed : field.type = .int)
    (static : field.isStatic)
    (declares : checked.program.declaredField? field.owner field.name = some field) :
    checked.Keeps (.assign (.staticField field) (.variable count)) := by
  refine keeps_assign rfl ?_ (congrArg some typed) number (staticFieldFaults static declares) rfl
  intro id member
  have same : id = count := by simpa [Expression.uses] using member
  exact same ▸ declares_of_localType? number

theorem keeps_readCount
    {this count : LocalId}
    {field : FieldRef}
    (receives : checked.body.localType? this = some (.object field.owner))
    (number : checked.body.localType? count = some .int)
    (typed : field.type = .int)
    (ofInstance : field.isStatic = false)
    (declares : checked.program.declaredField? field.owner field.name = some field) :
    checked.Keeps (.assign (.variable count) (.instanceField this field)) := by
  refine keeps_assign rfl ?_ number (congrArg some typed) rfl
    (instanceFieldFaults ofInstance receives declares)
  intro id member
  have same : id = count ∨ id = this := by simpa [Expression.uses] using member
  rcases same with rfl | rfl
  · exact declares_of_localType? number
  · exact declares_of_localType? receives

theorem keeps_writeCount
    {this count : LocalId}
    {field : FieldRef}
    (receives : checked.body.localType? this = some (.object field.owner))
    (number : checked.body.localType? count = some .int)
    (typed : field.type = .int)
    (ofInstance : field.isStatic = false)
    (declares : checked.program.declaredField? field.owner field.name = some field) :
    checked.Keeps (.assign (.instanceField this field) (.variable count)) := by
  refine keeps_assign rfl ?_ (congrArg some typed) number
    (instanceFieldFaults ofInstance receives declares) rfl
  intro id member
  have same : id = this ∨ id = count := by simpa [Expression.uses] using member
  rcases same with rfl | rfl
  · exact declares_of_localType? receives
  · exact declares_of_localType? number

/-- A report to the sink keeps the rules. -/
theorem keeps_report
    {sink : Sink}
    {label : String}
    {value : LocalId}
    (trusts : checked.program.TrustsSink sink)
    (number : checked.body.localType? value = some .int) :
    checked.Keeps (sink.report label (.variable value)) := by
  refine keeps_iff.2 ⟨?_, ?_⟩
  · intro id member
    have same : value = id := by
      simpa [Sink.report, Instruction.locals, Expression.uses, Call.ofStatic, Operand.variable?]
        using member
    exact same.symm ▸ declares_of_localType? number
  have arguments : checked.argumentFaults
      (.ofStatic sink.methodRef [.literal (.str label), .variable value]) = [] := by
    have text : checked.body.operandType? (.literal (.str label)) = some .string := rfl
    have typed : checked.body.operandType? (.variable value) = some .int := number
    simp [argumentFaults, Call.ofStatic, Sink.methodRef, List.zipIdx_cons, text, typed, reportIf,
      agrees, Program.isAssignable_refl]
  have method : checked.methodFaults
      (.ofStatic sink.methodRef [.literal (.str label), .variable value]) = [] := by
    have alone := Program.ancestors_of_unregistered trusts.free
    have searched :
        checked.program.lookup sink.owner
            (fun declaration => declaration.method? sink.method [.string, .int]) =
          if sink.owner == objectClass then .missing else .unknown := by
      rw [Program.lookup, alone]
      simp [trusts.free, Program.isClosed]
    rw [methodFaults]
    simp only [Call.ofStatic, Sink.methodRef]
    rw [searched]
    by_cases root : sink.owner = objectClass
    · have unregistered : checked.program.contains objectClass = false := by
        rw [Program.contains, ← root, trusts.free]
        rfl
      have known := trusts.known root
      simp only [List.contains_iff_mem] at known
      simp [root, known, unregistered, reportIf]
    · simp [root]
  show checked.callFaults _ = []
  rw [callFaults, arguments, method]
  rfl

theorem keeps_bindReceiver
    {this : LocalId}
    (ofInstance : checked.method.isStatic = false)
    (receives : checked.body.localType? this = some (.object checked.owner)) :
    checked.Keeps (.bind this (.receiver (.object checked.owner))) := by
  refine keeps_iff.2 ⟨?_, ?_⟩
  · intro id member
    exact List.mem_singleton.1 member ▸ declares_of_localType? receives
  · rw [ruleFaults, bindFaults, receives]
    simp [bindingFaults, reportIf, ofInstance, agrees, Binding.type, Program.isAssignable_refl]

theorem keeps_return (void : checked.method.result = .void) : checked.Keeps (.return none) := by
  refine keeps_iff.2 ⟨fun _ member => absurd member List.not_mem_nil, ?_⟩
  rw [ruleFaults, returnFaults]
  simp [reportIf, void]

/-- A call without arguments keeps the rules if its receiver and its method do. -/
theorem keeps_call
    {kind : CallKind}
    {method : MethodRef}
    {receiver : Option LocalId}
    (nullary : method.parameters = [])
    (declares : ∀ id ∈ receiver, checked.Declares id)
    (received : checked.receiverFaults ⟨kind, method, receiver, []⟩ = [])
    (called : checked.methodFaults ⟨kind, method, receiver, []⟩ = []) :
    checked.Keeps (.invoke ⟨kind, method, receiver, []⟩) := by
  refine keeps_iff.2 ⟨?_, ?_⟩
  · intro id member
    refine declares id ?_
    simpa [Instruction.locals, Expression.uses] using member
  · rw [ruleFaults, callFaults, received, called]
    simp [argumentFaults, nullary]

end CheckedBody
end AccessProfiler
