import AccessProfiler.Pipeline
import AccessProfiler.Proofs.Leaving

/-!
# What steps on bodies leave

Whatever a pass does to a body comes down to this: it replaces instructions, declares locals under
generated names, gives the types of wrappers to locals, notes what it has done, and asks the session for
counters and for wrappers.  What goes on to hold through each of these (`Draft.IgnoresGenerated`) goes on
to hold through the pass, whether it succeeds or fails (`Pass.onBody_leaves`).
-/

namespace AccessProfiler

namespace Transform.Leaves

variable {Invariant : Session → Prop} {before : Session}

/-- Types are mapped by asking for wrappers. -/
theorem mapType
    (wrappers :
      ∀ element session, Invariant session → Leaves Invariant session (wrapperFor element))
    (holds : Invariant before)
    (type : Ty) :
    Leaves Invariant before (mapType type) := by
  unfold Transform.mapType
  cases type with
  | array element =>
    refine bind (wrappers element before holds) fun found _ holds => ?_
    cases found with
    | none => exact pure holds
    | some wrapper => exact pure holds
  | _ => exact pure holds

theorem mapM_mapType
    (wrappers :
      ∀ element session, Invariant session → Leaves Invariant session (wrapperFor element))
    (holds : Invariant before)
    (types : List Ty) :
    Leaves Invariant before (types.mapM Transform.mapType) :=
  mapM holds fun type _ _ holds => mapType wrappers holds type

end Transform.Leaves

/-- Counters and wrappers may be asked for, too. -/
structure Draft.IgnoresGenerated (Invariant : Body → Session → Prop) : Prop where
  edits : Draft.IgnoresEdits Invariant
  typeCounter :
    ∀ name body session, Invariant body session →
      Transform.Leaves (Invariant body) session (Transform.typeCounter name)
  callCounter :
    ∀ name body session, Invariant body session →
      Transform.Leaves (Invariant body) session (Transform.callCounter name)
  wrapperFor :
    ∀ element body session, Invariant body session →
      Transform.Leaves (Invariant body) session (Transform.wrapperFor element)

namespace Draft

variable {Invariant : Body → Session → Prop}

theorem wrapperOfLocal?_leaves (id : LocalId) :
    Leaves Invariant (wrapperOfLocal? id) := by
  unfold wrapperOfLocal?
  refine Leaves.bind Leaves.body fun body => ?_
  split
  · exact Leaves.bind Leaves.session fun _ => Leaves.pure
  · exact Leaves.pure

/-! ## Steps that ask for nothing -/

section Quiet

variable (ignores : IgnoresEdits Invariant)
include ignores

theorem unwrapOperand_leaves (wrapper : Wrapper) (operand : Operand) :
    Leaves Invariant (unwrapOperand wrapper operand) := by
  cases operand with
  | «variable» source => exact Leaves.bind (newLocal_leaves ignores _ _) fun _ => Leaves.pure
  | literal value => exact Leaves.pure

theorem wrapOperand_leaves (wrapper : Wrapper) (operand : Operand) :
    Leaves Invariant (wrapOperand wrapper operand) :=
  Leaves.bind (newLocal_leaves ignores _ _) fun _ => Leaves.pure

theorem adapt_leaves (adaptation : Adaptation) (operand : Operand) :
    Leaves Invariant (adapt adaptation operand) := by
  cases adaptation with
  | unwrap source => exact Leaves.bind (unwrapOperand_leaves ignores _ _) fun _ => Leaves.pure
  | wrap target => exact Leaves.bind (wrapOperand_leaves ignores _ _) fun _ => Leaves.pure
  | rewrap source target =>
    exact Leaves.bind (unwrapOperand_leaves ignores _ _) fun _ =>
      Leaves.bind (wrapOperand_leaves ignores _ _) fun _ => Leaves.pure
  | unsupported => exact Leaves.pure

theorem repairAssignment_leaves (method : String) (index : Nat) (place value : Expression) :
    Leaves Invariant (repairAssignment method index place value) := by
  unfold repairAssignment
  refine Leaves.bind Leaves.body fun declared => ?_
  split
  · refine Leaves.bind Leaves.session fun session => ?_
    split
    · exact Leaves.pure
    · cases value.operand? with
      | some operand =>
        refine Leaves.bind Leaves.pure fun _ =>
          Leaves.bind (adapt_leaves ignores _ _) fun adapted => ?_
        cases adapted with
        | some parts => exact Leaves.bind (record_leaves ignores _) fun _ => Leaves.pure
        | none => exact Leaves.bind (record_leaves ignores _) fun _ => Leaves.pure
      | none =>
        refine Leaves.bind (newLocal_leaves ignores _ _) fun _ =>
          Leaves.bind Leaves.pure fun _ => Leaves.bind (adapt_leaves ignores _ _) fun adapted => ?_
        cases adapted with
        | some parts => exact Leaves.bind (record_leaves ignores _) fun _ => Leaves.pure
        | none => exact Leaves.bind (record_leaves ignores _) fun _ => Leaves.pure
  · exact Leaves.pure

theorem repairReturn_leaves (result : Ty) (method : String) (index : Nat) (operand : Operand) :
    Leaves Invariant (repairReturn result method index operand) := by
  unfold repairReturn
  refine Leaves.bind Leaves.body fun declared => ?_
  cases declared.operandType? operand with
  | none => exact Leaves.pure
  | some source =>
    refine Leaves.bind Leaves.session fun session => ?_
    split
    · exact Leaves.pure
    · refine Leaves.bind (adapt_leaves ignores _ _) fun adapted => ?_
      cases adapted with
      | some parts => exact Leaves.bind (record_leaves ignores _) fun _ => Leaves.pure
      | none => exact Leaves.bind (record_leaves ignores _) fun _ => Leaves.pure

theorem repair_leaves (result : Ty) (method : String) :
    Leaves Invariant (repair result method) := by
  have each (index : Nat) (instruction : Instruction) :
      Leaves Invariant
        (repairInstruction result method index instruction) := by
    unfold repairInstruction
    split
    · exact repairAssignment_leaves ignores _ _ _ _
    · exact repairReturn_leaves ignores _ _ _ _
    · exact Leaves.pure
  unfold repair
  refine Leaves.bind Leaves.body fun body => ?_
  refine Leaves.bind (Leaves.mapM fun entry => Leaves.bind (each _ _) fun _ => Leaves.pure)
    fun repaired => ?_
  exact Leaves.bind (setInstructions_leaves ignores _) fun _ => Leaves.pure

theorem adaptReceiver_leaves
    (origin : Origin)
    (index : Nat)
    (method : MethodRef)
    (receiver : LocalId) :
    Leaves Invariant (adaptReceiver origin index method receiver) := by
  unfold adaptReceiver
  refine Leaves.bind (wrapperOfLocal?_leaves _) fun found => ?_
  cases found with
  | none => exact Leaves.pure
  | some wrapper =>
    dsimp only
    split
    · exact Leaves.pure
    · exact Leaves.bind (newLocal_leaves ignores _ _) fun _ =>
        Leaves.bind (record_leaves ignores _) fun _ => Leaves.pure

theorem adaptArgument_leaves
    (origin : Origin)
    (index position : Nat)
    (method : MethodRef)
    (foreign : Bool)
    (target : Ty)
    (argument : Operand) :
    Leaves Invariant
      (adaptArgument origin index position method foreign target argument) := by
  unfold adaptArgument
  refine Leaves.bind Leaves.body fun body => ?_
  split
  · exact Leaves.pure
  · refine Leaves.bind Leaves.session fun session => ?_
    split
    · exact Leaves.pure
    · refine Leaves.bind (adapt_leaves ignores _ _) fun adapted => ?_
      cases adapted with
      | some parts => exact Leaves.bind (record_leaves ignores _) fun _ => Leaves.pure
      | none => exact Leaves.bind (record_leaves ignores _) fun _ => Leaves.pure

theorem wrapAllocation_leaves
    (origin : Origin)
    (index : Nat)
    (place : Expression)
    (element : Ty)
    (size : Operand) :
    Leaves Invariant (wrapAllocation origin index place element size) := by
  unfold wrapAllocation
  split
  · exact Leaves.bind (record_leaves ignores _) fun _ => Leaves.pure
  · split
    · refine Leaves.bind (wrapperOfLocal?_leaves _) fun found => ?_
      cases found with
      | none => exact Leaves.pure
      | some wrapper =>
        dsimp only
        split
        · exact Leaves.pure
        · exact Leaves.bind (record_leaves ignores _) fun _ => Leaves.pure
    · exact Leaves.pure

theorem wrapStore_leaves
    (origin : Origin)
    (index : Nat)
    (wrapper : Wrapper)
    (base : LocalId)
    (slot : Operand)
    (value : Expression) :
    Leaves Invariant
      (wrapStore origin index wrapper base slot value) := by
  unfold wrapStore
  cases value.operand? with
  | some operand =>
    exact Leaves.bind Leaves.pure fun _ =>
      Leaves.bind (record_leaves ignores _) fun _ => Leaves.pure
  | none =>
    exact Leaves.bind (newLocal_leaves ignores _ _) fun _ =>
      Leaves.bind Leaves.pure fun _ => Leaves.bind (record_leaves ignores _) fun _ => Leaves.pure

theorem wrapBinding_leaves
    (origin : Origin)
    (signature : Method)
    (position index : Nat)
    (batch : EditBatch)
    (wrapper : Wrapper)
    (target : LocalId)
    (parameter : Nat)
    (type : Ty) :
    Leaves Invariant
      (wrapBinding origin signature position index batch wrapper target parameter type) := by
  unfold wrapBinding
  dsimp only
  split
  · exact Leaves.bind Leaves.ofDefect fun _ =>
      Leaves.bind (record_leaves ignores _) fun _ => Leaves.pure
  · exact Leaves.bind (newLocal_leaves ignores _ _) fun _ => Leaves.bind Leaves.ofDefect fun _ =>
      Leaves.bind (record_leaves ignores _) fun _ => Leaves.pure

end Quiet

/-! ## Steps that ask for counters and wrappers -/

section Asking

variable (ignores : IgnoresGenerated Invariant)
include ignores

theorem countCalls_leaves (pass : String) (id : MethodId) :
    Leaves Invariant (countCalls pass id) := by
  unfold countCalls
  refine Leaves.bind Leaves.session fun session => ?_
  dsimp only
  split
  · exact Leaves.pure
  · refine Leaves.bind
      (Leaves.lift fun body session holds => ignores.callCounter _ body session holds)
      fun counter => ?_
    refine Leaves.bind Leaves.body fun body => Leaves.bind Leaves.body fun body => ?_
    refine Leaves.bind (setInstructions_leaves ignores.edits _) fun _ =>
      Leaves.bind Leaves.session fun session => ?_
    exact Leaves.bind (record_leaves ignores.edits _) fun _ => Leaves.pure

theorem retypeLocals_leaves :
    Leaves Invariant retypeLocals := by
  have each (id : LocalId) : Leaves Invariant (retypeLocal id) := by
    unfold retypeLocal
    refine Leaves.bind Leaves.body fun body => ?_
    split
    · refine Leaves.bind
        (Leaves.lift fun body session holds => ignores.wrapperFor _ body session holds)
        fun found => ?_
      cases found with
      | some wrapper =>
        refine Leaves.bind (Leaves.modify fun body session holds => ?_) fun _ => Leaves.pure
        exact ignores.edits.retype body session id wrapper.type holds
      | none => exact Leaves.pure
    · exact Leaves.pure
  unfold retypeLocals
  refine Leaves.bind Leaves.body fun body => ?_
  exact Leaves.bind (Leaves.mapM fun index => each _) fun _ => Leaves.pure

theorem calleeOf_leaves (method : MethodRef) :
    Leaves Invariant (calleeOf method) := by
  have callee : Leaves Invariant (callee? method) := by
    unfold callee?
    refine Leaves.bind Leaves.session fun session => ?_
    dsimp only
    split
    · exact Leaves.pure
    · refine Leaves.bind
        (Leaves.lift fun body _ holds =>
          .mapM_mapType (fun element => ignores.wrapperFor element body) holds _)
        fun mapped => ?_
      split
      · exact Leaves.pure
      · exact Leaves.bind Leaves.session fun _ => Leaves.pure
  unfold calleeOf
  refine Leaves.bind callee fun found => ?_
  cases found with
  | some parts => exact Leaves.bind Leaves.session fun _ => Leaves.pure
  | none => exact Leaves.pure

theorem wrapCall_leaves (origin : Origin) (index : Nat) (target : Call) :
    Leaves Invariant (wrapCall origin index target) := by
  unfold wrapCall
  refine Leaves.bind Leaves.session fun session => ?_
  split
  · exact Leaves.pure
  · refine Leaves.bind (calleeOf_leaves ignores _) fun callee => ?_
    dsimp only
    split
    · exact Leaves.pure
    · cases target.receiver with
      | none =>
        refine Leaves.bind Leaves.pure fun _ => ?_
        exact Leaves.bind
          (Leaves.mapM fun entry => adaptArgument_leaves ignores.edits _ _ _ _ _ _ _)
          fun _ => Leaves.pure
      | some receiver =>
        refine Leaves.bind (adaptReceiver_leaves ignores.edits _ _ _ _) fun _ => ?_
        refine Leaves.bind Leaves.pure fun _ => ?_
        exact Leaves.bind
          (Leaves.mapM fun entry => adaptArgument_leaves ignores.edits _ _ _ _ _ _ _)
          fun _ => Leaves.pure

theorem wrapValue_leaves (origin : Origin) (index : Nat) (value : Expression) :
    Leaves Invariant (wrapValue origin index value) := by
  unfold wrapValue
  cases value with
  | element base slot =>
    refine Leaves.bind (wrapperOfLocal?_leaves _) fun found => ?_
    cases found with
    | none => exact Leaves.pure
    | some wrapper => exact Leaves.bind (record_leaves ignores.edits _) fun _ => Leaves.pure
  | length base =>
    refine Leaves.bind (wrapperOfLocal?_leaves _) fun found => ?_
    cases found with
    | none => exact Leaves.pure
    | some wrapper =>
      exact Leaves.bind (newLocal_leaves ignores.edits _ _) fun _ =>
        Leaves.bind (record_leaves ignores.edits _) fun _ => Leaves.pure
  | call target => exact Leaves.bind (wrapCall_leaves ignores _ _ _) fun _ => Leaves.pure
  | _ => exact Leaves.pure

theorem wrapAssignment_leaves
    (origin : Origin)
    (index : Nat)
    (place value : Expression) :
    Leaves Invariant (wrapAssignment origin index place value) := by
  unfold wrapAssignment
  split
  · exact wrapAllocation_leaves ignores.edits _ _ _ _ _
  · refine Leaves.bind (wrapValue_leaves ignores _ _ _) fun wrapped => ?_
    cases place with
    | element base slot =>
      refine Leaves.bind (wrapperOfLocal?_leaves _) fun _ => Leaves.bind Leaves.pure fun found => ?_
      cases found with
      | some parts =>
        exact Leaves.bind (wrapStore_leaves ignores.edits _ _ _ _ _ _) fun _ => Leaves.pure
      | none => exact Leaves.ite Leaves.pure Leaves.pure
    | _ =>
      refine Leaves.bind Leaves.pure fun found => ?_
      cases found with
      | some parts =>
        exact Leaves.bind (wrapStore_leaves ignores.edits _ _ _ _ _ _) fun _ => Leaves.pure
      | none => exact Leaves.ite Leaves.pure Leaves.pure

theorem queue_leaves
    (origin : Origin)
    (signature : Method)
    (position : Nat)
    (batch : EditBatch)
    (index : Nat)
    (instruction : Instruction) :
    Leaves Invariant
      (queue origin signature position batch index instruction) := by
  have wrapping (instruction : Instruction) :
      Leaves Invariant (wrapInstruction origin index instruction) := by
    cases instruction with
    | assign place value => exact wrapAssignment_leaves ignores _ _ _ _
    | invoke target =>
      refine Leaves.bind (wrapCall_leaves ignores _ _ _) fun wrapped => ?_
      dsimp only
      split
      · exact Leaves.pure
      · exact Leaves.pure
    | bind target source => exact Leaves.pure
    | «return» operand => exact Leaves.pure
  unfold queue
  split
  · split
    · exact Leaves.pure
    · refine Leaves.bind (wrapperOfLocal?_leaves _) fun found => ?_
      cases found with
      | none => exact Leaves.pure
      | some wrapper => exact wrapBinding_leaves ignores.edits _ _ _ _ _ _ _ _ _
  · refine Leaves.bind (wrapping _) fun replacement => ?_
    cases replacement with
    | none => exact Leaves.pure
    | some instructions => exact Leaves.ofDefect

theorem propagate_leaves (pass : String) (id : MethodId) :
    Leaves Invariant (propagate pass id) := by
  unfold propagate
  refine Leaves.bind Leaves.session fun session => ?_
  dsimp only
  split
  · exact Leaves.pure
  · refine Leaves.bind (retypeLocals_leaves ignores) fun retyped => ?_
    refine Leaves.bind Leaves.body fun body => Leaves.bind Leaves.body fun body => ?_
    refine Leaves.bind (Leaves.foldlM fun batch entry => queue_leaves ignores _ _ _ _ _ _)
      fun batch => ?_
    refine Leaves.bind (apply_leaves ignores.edits _) fun _ =>
      Leaves.bind (repair_leaves ignores.edits _ _) fun adapted => ?_
    exact Leaves.pure

end Asking
end Draft

/-- Whether it succeeds or fails, a pass on a body keeps what does not depend on edits and on generated
code. -/
theorem Pass.onBody_leaves
    {Invariant : Body → Session → Prop}
    (ignores : Draft.IgnoresGenerated Invariant)
    (pass : Pass)
    (id : MethodId) :
    Draft.Leaves Invariant (pass.onBody id) := by
  unfold onBody
  refine Draft.Leaves.bind Draft.Leaves.session fun session => ?_
  cases pass with
  | instrument => exact Draft.Leaves.pure
  | patchConstructors => exact Draft.assignSerial_leaves ignores.edits _ _ _
  | profileTypes =>
    exact Draft.countTypeAccesses_leaves ignores.edits ignores.typeCounter _ _
  | countFields => exact Draft.countFieldAccesses_leaves ignores.edits _ _
  | trackCalls => exact Draft.countCalls_leaves ignores _ _
  | wrapSignatures => exact Draft.Leaves.pure
  | propagateArrays => exact Draft.propagate_leaves ignores _ _

end AccessProfiler
