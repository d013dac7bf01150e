import AccessProfiler.Proofs.WrappedCalls

/-!
# Bodies after wrapping

Every instruction is replaced by some that make the calls which stand for its own, besides calls of
wrappers; the bindings of parameters and the repair scan make calls of wrappers only.  So the calls of a
body stand for those of the original body one after the other (`propagate_retargets`).
-/

namespace AccessProfiler

/-- Apart from calls of generated classes, the instructions make the calls that stand for those. -/
def StandFor
    (settings : Settings)
    (program signed : Program)
    (methods : List MethodRef)
    (instructions : List Instruction) : Prop :=
  List.Forall₂ (MethodRef.Retargeted settings program signed) methods
    (Instruction.calledApart (program.generatedNames settings) instructions)

/-- The calls of the instruction are those of the program. -/
def Instruction.Checked (program : Program) (instruction : Instruction) : Prop :=
  ∀ target, instruction.call? = some target → target.Checked program

namespace Draft

variable
    {settings : Settings}
    {program initial signed : Program}
    {instructions : List Instruction}

/-- Silent steps in front of instructions change no calls. -/
theorem Silent.standFor
    {methods : List MethodRef}
    {steps rest : List Instruction}
    (silent : Silent settings program steps)
    (stand : StandFor settings program signed methods rest) :
    StandFor settings program signed methods (steps ++ rest) := by
  unfold StandFor
  rw [Instruction.calledApart_append, silent]
  exact stand

theorem Silent.standFor_nil
    {steps : List Instruction}
    (silent : Silent settings program steps) :
    StandFor settings program signed [] steps := by
  unfold StandFor
  rw [silent]
  exact .nil

theorem standFor_call
    {original method : MethodRef}
    (apart : original.owner ∉ program.generatedNames settings)
    (retargeted : original.Retargeted settings program signed method) :
    List.Forall₂ (MethodRef.Retargeted settings program signed) [original]
      (MethodRef.apart (program.generatedNames settings) [method]) := by
  have apartThere : method.owner ∉ program.generatedNames settings := retargeted.owner ▸ apart
  rw [MethodRef.apart_eq_self apartThere]
  exact .cons retargeted .nil

theorem wrapAllocation_keeps
    (origin : Origin)
    (index : Nat)
    (place : Expression)
    (element : Ty)
    (size : Operand) :
    Keeps (Session.Drafts settings program initial instructions)
      (wrapAllocation origin index place element size)
      fun found => ∀ steps, found = some steps → Silent settings program steps := by
  have nothing : ∀ steps, (none : Option (List Instruction)) = some steps →
      Silent settings program steps := by
    intro steps impossible
    cases impossible
  unfold wrapAllocation
  split
  · apply Keeps.bind (recordAt_keeps _ _ _ _)
    intro _ _
    exact Keeps.pure nothing
  · cases place with
    | «variable» target =>
      apply Keeps.bind (wrapperOfLocal?_keeps target)
      intro found proper
      cases found with
      | none => exact Keeps.pure nothing
      | some wrapper =>
        dsimp only
        split
        · exact Keeps.pure nothing
        · apply Keeps.bind (recordAt_keeps _ _ _ _)
          intro _ _
          apply Keeps.pure
          rintro _ ⟨⟩
          exact (proper wrapper rfl).allocateInto target size
    | _ => exact Keeps.pure nothing

/-- An element of a wrapper is stored by a call, behind the value that is stored. -/
theorem wrapStore_keeps
    (origin : Origin)
    (index : Nat)
    {wrapper : Wrapper}
    (proper : wrapper.Proper (program.generatedNames settings))
    (base : LocalId)
    (slot : Operand)
    {methods : List MethodRef}
    {value : Expression}
    (stand : ∀ place, StandFor settings program signed methods [.assign place value]) :
    Keeps (Session.Drafts settings program initial instructions)
      (wrapStore origin index wrapper base slot value)
      (StandFor settings program signed methods) := by
  have silentCall (stored : Operand) : Silent settings program [wrapper.setCall base slot stored] :=
    proper.apart_eq_nil proper.set
  have store
      {stored : Operand}
      {evaluation : List Instruction}
      (stand : StandFor settings program signed methods evaluation) :
      Keeps (Session.Drafts settings program initial instructions)
        (do
          recordAt origin .elementAccessWrapped index ("store through " ++ wrapper.set.render)
          return evaluation ++ [wrapper.setCall base slot stored])
        (StandFor settings program signed methods) := by
    apply Keeps.bind (recordAt_keeps _ _ _ _)
    intro _ _
    apply Keeps.pure
    unfold StandFor
    rw [Instruction.calledApart_append, silentCall, List.append_nil]
    exact stand
  unfold wrapStore
  cases operand : value.operand? with
  | some stored =>
    have quiet : value.calledMethods = [] := by
      cases value with
      | call target => cases operand
      | _ => rfl
    have noCalls : StandFor settings program signed methods [] := by
      have stands := stand (.variable base)
      unfold StandFor at stands
      rw [Instruction.calledApart_cons, Instruction.calledMethods, quiet] at stands
      exact stands
    exact store noCalls
  | none =>
    apply Keeps.bind (newLocal_keeps _ _)
    intro result _
    exact store (stand (.variable result))

section Instructions

variable
    (wrappable : program.Wrappable settings)
    (resigned : (Session.start settings program).Resigned (program.generatedNames settings) signed)
include wrappable resigned

theorem wrapValue_keeps
    (origin : Origin)
    (index : Nat)
    {value : Expression}
    (checked : ∀ target, value = .call target → target.Checked program) :
    Keeps (Session.Drafts settings program initial instructions) (wrapValue origin index value)
      fun wrapped =>
        Silent settings program wrapped.2 ∧
          ∀ place, StandFor settings program signed value.calledMethods [.assign place wrapped.1] := by
  cases value with
  | element base slot =>
    apply Keeps.bind (wrapperOfLocal?_keeps base)
    intro found proper
    cases found with
    | none => exact Keeps.pure ⟨silent_nil, fun _ => .nil⟩
    | some wrapper =>
      apply Keeps.bind (recordAt_keeps _ _ _ _)
      intro _ _
      refine Keeps.pure ⟨silent_nil, fun place => ?_⟩
      have silent : Silent settings program [.assign place (wrapper.getValue base slot)] :=
        (proper wrapper rfl).apart_eq_nil (proper wrapper rfl).get
      exact silent.standFor_nil
  | length base =>
    apply Keeps.bind (wrapperOfLocal?_keeps base)
    intro found _
    cases found with
    | none => exact Keeps.pure ⟨silent_nil, fun _ => .nil⟩
    | some wrapper =>
      apply Keeps.bind (newLocal_keeps _ _)
      intro raw _
      apply Keeps.bind (recordAt_keeps _ _ _ _)
      intro _ _
      exact Keeps.pure ⟨rfl, fun _ => .nil⟩
  | call target =>
    have checkedCall := checked target rfl
    apply Keeps.bind (wrapCall_keeps wrappable resigned origin index checkedCall)
    rintro wrapped ⟨retargeted, silent⟩
    refine Keeps.pure ⟨silent, fun place => ?_⟩
    exact standFor_call (wrappable.not_generated_of_called checkedCall.mentioned) retargeted
  | _ => exact Keeps.pure ⟨silent_nil, fun _ => .nil⟩

/-- What is done with an assignment unless an array is made. -/
theorem wrapOperands_keeps
    (origin : Origin)
    (index : Nat)
    {place value : Expression}
    (checked : ∀ target, value = .call target → target.Checked program) :
    Keeps (Session.Drafts settings program initial instructions)
      (do
        let (wrapped, steps) ← wrapValue origin index value
        let wrapper? ←
          match place with
          | .element base slot => do
            pure ((← wrapperOfLocal? base).map (·, base, slot))
          | _ => pure none
        match wrapper? with
        | some (wrapper, base, slot) =>
          return some (steps ++ (← wrapStore origin index wrapper base slot wrapped))
        | none =>
          if steps.isEmpty && wrapped == value then return none
          return some (steps ++ [.assign place wrapped]))
      fun found =>
        StandFor settings program signed value.calledMethods (found.getD [.assign place value]) := by
  apply Keeps.bind (wrapValue_keeps wrappable resigned origin index checked)
  rintro ⟨wrapped, steps⟩ ⟨silent, stand⟩
  have plain :
      Keeps (Session.Drafts settings program initial instructions)
        (if steps.isEmpty && wrapped == value then return none
          else return some (steps ++ [.assign place wrapped]))
        fun found =>
          StandFor settings program signed value.calledMethods
            (found.getD [.assign place value]) := by
    split
    · rename_i same
      rw [Bool.and_eq_true, beq_iff_eq] at same
      obtain ⟨-, rfl⟩ := same
      exact Keeps.pure (stand place)
    · exact Keeps.pure (silent.standFor (stand place))
  cases place with
  | element base slot =>
    apply Keeps.bind (wrapperOfLocal?_keeps base)
    intro found proper
    cases found with
    | none => exact plain
    | some wrapper =>
      apply Keeps.bind (wrapStore_keeps origin index (proper wrapper rfl) base slot stand)
      intro stored standStored
      exact Keeps.pure (silent.standFor standStored)
  | _ => exact plain

theorem wrapAssignment_keeps
    (origin : Origin)
    (index : Nat)
    {place value : Expression}
    (checked : ∀ target, value = .call target → target.Checked program) :
    Keeps (Session.Drafts settings program initial instructions) (wrapAssignment origin index place value)
      fun found =>
        StandFor settings program signed value.calledMethods (found.getD [.assign place value]) := by
  cases value with
  | newArray content size =>
    apply (wrapAllocation_keeps origin index place content size).mono
    intro found silent
    cases found with
    | none => exact .nil
    | some steps => exact (silent steps rfl).standFor_nil
  | _ => exact wrapOperands_keeps wrappable resigned origin index checked

/-- What takes the place of an instruction makes the calls that stand for its own. -/
theorem wrapInstruction_keeps
    (origin : Origin)
    (index : Nat)
    {instruction : Instruction}
    (checked : instruction.Checked program) :
    Keeps (Session.Drafts settings program initial instructions) (wrapInstruction origin index instruction)
      fun found =>
        StandFor settings program signed instruction.calledMethods (found.getD [instruction]) := by
  cases instruction with
  | assign place value =>
    apply wrapAssignment_keeps wrappable resigned
    rintro target rfl
    exact checked target rfl
  | invoke target =>
    have checkedCall := checked target rfl
    apply Keeps.bind (wrapCall_keeps wrappable resigned origin index checkedCall)
    rintro ⟨wrapped, steps⟩ ⟨retargeted, silent⟩
    have stand : StandFor settings program signed [target.method] [.invoke wrapped] :=
      standFor_call (wrappable.not_generated_of_called checkedCall.mentioned) retargeted
    dsimp only
    split
    · rename_i same
      rw [Bool.and_eq_true, beq_iff_eq] at same
      obtain ⟨-, rfl⟩ := same
      exact Keeps.pure stand
    · exact Keeps.pure (silent.standFor stand)
  | bind target source => exact Keeps.pure .nil
  | «return» value => exact Keeps.pure .nil

end Instructions

/-- To queue a replacement that makes the calls of an instruction. -/
theorem replace_keeps
    {done : List (Instruction × Nat)}
    {batch : EditBatch}
    {index : Nat}
    {instruction : Instruction}
    {replacement : List Instruction}
    (queued :
      batch.Queued (program.generatedNames settings) (MethodRef.Retargeted settings program signed)
        done)
    (absent : index ∉ done.map Prod.snd)
    (stand : StandFor settings program signed instruction.calledMethods replacement) :
    Keeps (Session.Drafts settings program initial instructions)
      (lift (Transform.ofDefect (batch.replace index replacement)))
      (EditBatch.Queued (program.generatedNames settings)
        (MethodRef.Retargeted settings program signed) (done ++ [(instruction, index)])) := by
  apply lift_keeps
  intro session orderly
  apply (Transform.ChangesOnly.ofDefect orderly).mono
  intro changed replaced
  exact queued.replace absent stand replaced

/-- The wrapper of a parameter is made behind the bindings, and no binding makes a call. -/
theorem wrapBinding_keeps
    (origin : Origin)
    (signature : Method)
    (position index : Nat)
    {wrapper : Wrapper}
    (proper : wrapper.Proper (program.generatedNames settings))
    (target : LocalId)
    (parameter : Nat)
    (type : Ty)
    {done : List (Instruction × Nat)}
    {batch : EditBatch}
    {source : Binding}
    (queued :
      batch.Queued (program.generatedNames settings) (MethodRef.Retargeted settings program signed)
        done)
    (absent : index ∉ done.map Prod.snd) :
    Keeps (Session.Drafts settings program initial instructions)
      (wrapBinding origin signature position index batch wrapper target parameter type)
      (EditBatch.Queued (program.generatedNames settings)
        (MethodRef.Retargeted settings program signed) (done ++ [(.bind target source, index)])) := by
  have binding (bound : LocalId) (given : Binding) :
      StandFor settings program signed (Instruction.bind target source).calledMethods
        [.bind bound given] :=
    .nil
  unfold wrapBinding
  dsimp only
  split
  · apply Keeps.bind (replace_keeps queued absent (binding _ _))
    intro changed queuedChanged
    apply Keeps.bind (recordAt_keeps _ _ _ _)
    intro _ _
    exact Keeps.pure queuedChanged
  · apply Keeps.bind (newLocal_keeps _ _)
    intro raw _
    apply Keeps.bind (replace_keeps queued absent (binding _ _))
    intro changed queuedChanged
    apply Keeps.bind (recordAt_keeps _ _ _ _)
    intro _ _
    exact Keeps.pure (queuedChanged.insertBefore (proper.wrapInto target _))

section Queue

variable
    (wrappable : program.Wrappable settings)
    (resigned : (Session.start settings program).Resigned (program.generatedNames settings) signed)
include wrappable resigned

/-- To queue what takes the place of an instruction. -/
theorem queueRewrite_keeps
    (origin : Origin)
    (index : Nat)
    {instruction : Instruction}
    (checked : instruction.Checked program)
    {done : List (Instruction × Nat)}
    {batch : EditBatch}
    (queued :
      batch.Queued (program.generatedNames settings) (MethodRef.Retargeted settings program signed)
        done)
    (absent : index ∉ done.map Prod.snd) :
    Keeps (Session.Drafts settings program initial instructions)
      (do
        match ← wrapInstruction origin index instruction with
        | none => return batch
        | some replacement => lift (Transform.ofDefect (batch.replace index replacement)))
      (EditBatch.Queued (program.generatedNames settings)
        (MethodRef.Retargeted settings program signed) (done ++ [(instruction, index)])) := by
  apply Keeps.bind (wrapInstruction_keeps wrappable resigned origin index checked)
  intro found stand
  cases found with
  | none => exact Keeps.pure (queued.skip absent stand)
  | some replacement => exact replace_keeps queued absent stand

theorem queue_keeps
    (origin : Origin)
    (signature : Method)
    (position index : Nat)
    {instruction : Instruction}
    (checked : instruction.Checked program)
    {done : List (Instruction × Nat)}
    {batch : EditBatch}
    (queued :
      batch.Queued (program.generatedNames settings) (MethodRef.Retargeted settings program signed)
        done)
    (absent : index ∉ done.map Prod.snd) :
    Keeps (Session.Drafts settings program initial instructions)
      (queue origin signature position batch index instruction)
      (EditBatch.Queued (program.generatedNames settings)
        (MethodRef.Retargeted settings program signed) (done ++ [(instruction, index)])) := by
  cases instruction with
  | bind target source =>
    cases source with
    | receiver type =>
      exact queueRewrite_keeps wrappable resigned origin index checked queued absent
    | parameter parameter type =>
      have kept :
          batch.Queued (program.generatedNames settings)
            (MethodRef.Retargeted settings program signed)
            (done ++ [(.bind target (.parameter parameter type), index)]) :=
        queued.skip absent .nil
      unfold queue
      dsimp only
      split
      · exact Keeps.pure kept
      · apply Keeps.bind (wrapperOfLocal?_keeps target)
        intro found proper
        cases found with
        | none => exact Keeps.pure kept
        | some wrapper =>
          exact wrapBinding_keeps origin signature position index (proper wrapper rfl) target
            parameter type queued absent
  | _ => exact queueRewrite_keeps wrappable resigned origin index checked queued absent

/-- All instructions are queued one after the other. -/
theorem queueAll_keeps
    (origin : Origin)
    (signature : Method)
    (position : Nat)
    {queued : List Instruction}
    (checked : ∀ instruction ∈ queued, instruction.Checked program) :
    Keeps (Session.Drafts settings program initial instructions)
      (queued.zipIdx.foldlM
        (fun batch (instruction, index) => queue origin signature position batch index instruction)
        .empty)
      (EditBatch.Queued (program.generatedNames settings)
        (MethodRef.Retargeted settings program signed) queued.zipIdx) := by
  refine Keeps.foldlM
    (EditBatch.Queued (program.generatedNames settings)
      (MethodRef.Retargeted settings program signed)) ?_ .empty
  rintro done ⟨instruction, index⟩ rest batch split queuedBefore
  have distinct : (queued.zipIdx.map Prod.snd).Nodup := by
    rw [List.zipIdx_map_snd]
    exact List.nodup_range'
  have absent : index ∉ done.map Prod.snd := by
    intro among
    rw [split, List.map_append, List.map_cons, List.nodup_append] at distinct
    exact distinct.2.2 index among index List.mem_cons_self rfl
  have member : (instruction, index) ∈ queued.zipIdx :=
    split ▸ List.mem_append_right _ List.mem_cons_self
  exact queue_keeps wrappable resigned origin signature position index
    (checked instruction (List.fst_mem_of_mem_zipIdx member)) queuedBefore absent

end Queue

section Retyping

/-- The wrappers of the locals have names that the program accounts for. -/
def Accounted (settings : Settings) (program : Program) (body : Body) : Prop :=
  ∀ declared ∈ body.locals, ∀ name, settings.wrapperName? declared.type = some name →
    name ∈ program.generatedNames settings

theorem Accounted.setLocalType
    {body : Body}
    (accounted : Accounted settings program body)
    (id : LocalId)
    (className : String) :
    Accounted settings program (body.setLocalType id (.object className)) := by
  intro declared member name named
  obtain ⟨index, located⟩ := List.getElem?_of_mem member
  unfold Body.setLocalType at located
  rw [List.getElem?_modify, Option.map_eq_map, Option.map_eq_some_iff] at located
  obtain ⟨before, locatedBefore, rfl⟩ := located
  split at named
  · cases named
  · exact accounted before (List.mem_of_getElem? locatedBefore) name named

theorem retype_keeps (id : LocalId) (className : String) :
    Keeps
      (fun body session =>
        Session.Drafts settings program initial instructions body session ∧
          Accounted settings program body)
      (modify fun body => body.setLocalType id (.object className)) fun _ => True := by
  rintro body session _ bodyAfter sessionAfter ⟨drafts, accounted⟩ ends
  obtain ⟨rfl, rfl⟩ := Draft.Ends.modify_iff.1 ends
  exact ⟨⟨⟨drafts.instructions, drafts.orderly, drafts.resigned, drafts.same⟩,
    accounted.setLocalType id className⟩, trivial⟩

theorem retypeLocal_keeps (id : LocalId) :
    Keeps
      (fun body session =>
        Session.Drafts settings program initial instructions body session ∧
          Accounted settings program body)
      (retypeLocal id) fun _ => True := by
  unfold retypeLocal
  apply Keeps.bind Keeps.body
  rintro body ⟨_, -, accounted⟩
  cases typed : body.localType? id with
  | none => exact Keeps.pure trivial
  | some type =>
    cases type with
    | array element =>
      have generated : ∀ name, Wrapper.nameFor? settings element = some name →
          name ∈ program.generatedNames settings := by
        obtain ⟨declared, located, same⟩ := Option.map_eq_some_iff.1 typed
        have here := accounted declared (List.mem_of_getElem? located)
        rw [same] at here
        exact here
      have request :
          Keeps
            (fun body session =>
              Session.Drafts settings program initial instructions body session ∧
                Accounted settings program body)
            (lift (Transform.wrapperFor element)) fun _ => True := by
        apply Keeps.lift
        rintro body session found after ⟨drafts, accounted⟩ ends
        obtain ⟨orderly, same, -⟩ :=
          Transform.wrapperFor_changesOnly drafts.orderly generated found after ends
        exact ⟨⟨⟨drafts.instructions, orderly, drafts.resigned.sameApart same, drafts.same.trans same⟩, accounted⟩, trivial⟩
      apply Keeps.bind request
      intro found _
      cases found with
      | none => exact Keeps.pure trivial
      | some wrapper =>
        apply Keeps.bind (retype_keeps id wrapper.name)
        intro _ _
        exact Keeps.pure trivial
    | _ => exact Keeps.pure trivial

/-- All locals are retyped one after the other. -/
theorem retypeLocals_keeps :
    Keeps
      (fun body session =>
        Session.Drafts settings program initial instructions body session ∧
          Accounted settings program body)
      retypeLocals fun _ => True := by
  unfold retypeLocals
  apply Keeps.bind Keeps.body
  intro body _
  apply Keeps.bind (Keeps.mapM_all fun index _ => retypeLocal_keeps ⟨index⟩)
  intro changes _
  exact Keeps.pure trivial

end Retyping

section Repair

variable (settings program initial instructions)

/-- To evaluate a value and put the adapted result in its place. -/
theorem repairEvaluated_keeps
    (method : String)
    (index : Nat)
    (place value : Expression)
    (source target : Ty)
    {adaptation : Adaptation}
    (proper : adaptation.Proper (program.generatedNames settings))
    (operand : Operand)
    {evaluation : List Instruction}
    (calls :
      Instruction.calledApart (program.generatedNames settings) evaluation =
        Instruction.calledApart (program.generatedNames settings) [.assign place value]) :
    Keeps (Session.Drafts settings program initial instructions)
      (do
        match ← adapt adaptation operand with
        | some (adapted, steps) =>
          record (.located .adaptationInserted method index
            (source.render ++ " -> " ++ target.render))
          return some (evaluation ++ steps ++ [.assign place (.ofOperand adapted)])
        | none =>
          recordUnsupported method index source target
          return none)
      fun found =>
        Instruction.calledApart (program.generatedNames settings)
            (found.getD [.assign place value]) =
          Instruction.calledApart (program.generatedNames settings) [.assign place value] := by
  apply Keeps.bind (adapt_keeps proper operand)
  intro found silent
  cases found with
  | none =>
    apply Keeps.bind (record_keeps _)
    intro _ _
    exact Keeps.pure rfl
  | some adapted =>
    apply Keeps.bind (record_keeps _)
    intro _ _
    apply Keeps.pure
    have quiet :
        Instruction.calledApart (program.generatedNames settings)
          [.assign place (.ofOperand adapted.1)] = [] := by
      cases adapted.1 <;> rfl
    rw [Option.getD_some, Instruction.calledApart_append, Instruction.calledApart_append,
      silent adapted rfl, quiet, List.append_nil, List.append_nil]
    exact calls

/-- A repaired assignment evaluates its value once. -/
theorem repairAssignment_keeps
    (method : String)
    (index : Nat)
    (place value : Expression) :
    Keeps (Session.Drafts settings program initial instructions) (repairAssignment method index place value)
      fun found =>
        Instruction.calledApart (program.generatedNames settings)
            (found.getD [.assign place value]) =
          Instruction.calledApart (program.generatedNames settings) [.assign place value] := by
  unfold repairAssignment
  apply Keeps.bind Keeps.body
  intro body _
  cases body.type? place with
  | none => exact Keeps.pure rfl
  | some target =>
    cases body.type? value with
    | none => exact Keeps.pure rfl
    | some source =>
      apply Keeps.bind Keeps.session
      rintro session ⟨_, drafts⟩
      cases planned : session.plan? source target with
      | none => exact Keeps.pure rfl
      | some adaptation =>
        have proper := drafts.orderly.plan?_proper planned
        dsimp only
        cases evaluated : value.operand? with
        | some operand =>
          have quiet :
              Instruction.calledApart (program.generatedNames settings) [.assign place value] = [] := by
            cases value with
            | call target => cases evaluated
            | _ => rfl
          exact repairEvaluated_keeps settings program initial instructions method index place value
            source target proper operand quiet.symm
        | none =>
          apply Keeps.bind (newLocal_keeps _ _)
          intro result _
          exact repairEvaluated_keeps settings program initial instructions method index place value
            source target proper (.variable result) rfl

theorem repairReturn_keeps
    (result : Ty)
    (method : String)
    (index : Nat)
    (operand : Operand) :
    Keeps (Session.Drafts settings program initial instructions) (repairReturn result method index operand)
      fun found =>
        Instruction.calledApart (program.generatedNames settings)
            (found.getD [.return (some operand)]) = [] := by
  unfold repairReturn
  apply Keeps.bind Keeps.body
  intro body _
  cases body.operandType? operand with
  | none => exact Keeps.pure rfl
  | some source =>
    apply Keeps.bind Keeps.session
    rintro session ⟨_, drafts⟩
    cases planned : session.plan? source result with
    | none => exact Keeps.pure rfl
    | some adaptation =>
      apply Keeps.bind (adapt_keeps (drafts.orderly.plan?_proper planned) operand)
      intro found silent
      cases found with
      | none =>
        apply Keeps.bind (record_keeps _)
        intro _ _
        exact Keeps.pure rfl
      | some adapted =>
        apply Keeps.bind (record_keeps _)
        intro _ _
        apply Keeps.pure
        rw [Option.getD_some, Instruction.calledApart_append, silent adapted rfl]
        rfl

theorem repairInstruction_keeps
    (result : Ty)
    (method : String)
    (index : Nat)
    (instruction : Instruction) :
    Keeps (Session.Drafts settings program initial instructions)
      (repairInstruction result method index instruction)
      fun found =>
        Instruction.calledApart (program.generatedNames settings) (found.getD [instruction]) =
          Instruction.calledApart (program.generatedNames settings) [instruction] := by
  cases instruction with
  | assign place value => exact repairAssignment_keeps settings program initial instructions _ _ _ _
  | «return» value =>
    cases value with
    | none => exact Keeps.pure rfl
    | some operand => exact repairReturn_keeps settings program initial instructions _ _ _ _
  | bind target source => exact Keeps.pure rfl
  | invoke target => exact Keeps.pure rfl

/-- The repair scan changes no calls but those of wrappers. -/
theorem repair_calls
    {result : Ty}
    {method : String}
    {body bodyAfter : Body}
    {session sessionAfter : Session}
    {repaired : Nat}
    (drafts : Session.Drafts settings program initial body.instructions body session)
    (ends : Draft.Ends (repair result method) body session repaired bodyAfter sessionAfter) :
    Session.Drafts settings program initial bodyAfter.instructions bodyAfter sessionAfter ∧
      Instruction.calledApart (program.generatedNames settings) bodyAfter.instructions =
        Instruction.calledApart (program.generatedNames settings) body.instructions := by
  have scan :
      Keeps (Session.Drafts settings program initial body.instructions)
        (body.instructions.zipIdx.mapM fun (instruction, index) => do
          return (instruction, ← repairInstruction result method index instruction))
        (List.Forall₂
          (fun entry found =>
            Instruction.calledApart (program.generatedNames settings) (found.2.getD [found.1]) =
              Instruction.calledApart (program.generatedNames settings) [entry.1])
          body.instructions.zipIdx) := by
    apply Keeps.mapM
    rintro ⟨instruction, index⟩ _
    apply Keeps.bind (repairInstruction_keeps settings program initial body.instructions result method index
      instruction)
    intro found same
    exact Keeps.pure same
  unfold repair at ends
  rw [Draft.Ends.body_bind_iff] at ends
  obtain ⟨found, bodyBetween, between, scans, rest⟩ := Draft.Ends.bind_iff.1 ends
  obtain ⟨kept, same⟩ := scan _ _ found bodyBetween between drafts scans
  obtain ⟨_, _, _, puts, rest⟩ := Draft.Ends.bind_iff.1 rest
  obtain ⟨-, rfl, rfl⟩ := Draft.Ends.pure_iff.1 rest
  obtain ⟨rfl, rfl⟩ := Draft.Ends.setInstructions_iff.1 puts
  refine ⟨⟨rfl, kept.orderly, kept.resigned, kept.same⟩, ?_⟩
  have positions :
      body.instructions = body.instructions.zipIdx.flatMap fun entry => [entry.1] := by
    rw [← List.map_eq_flatMap, List.zipIdx_map_fst]
  conv_rhs => rw [positions]
  exact Instruction.calledApart_flatMap_congr same

end Repair

theorem apply_eq
    {batch : EditBatch}
    {body bodyAfter : Body}
    {session sessionAfter : Session}
    {done : Unit}
    (ends : Draft.Ends (apply batch) body session done bodyAfter sessionAfter) :
    bodyAfter = { body with instructions := batch.applyTo body.instructions } ∧
      sessionAfter = session := by
  unfold apply at ends
  simp only [Draft.Ends.bind_iff, Draft.Ends.body_iff, Draft.Ends.lift_iff, Draft.Ends.set_iff,
    Transform.ends_ofDefect] at ends
  obtain ⟨_, _, _, ⟨rfl, rfl, rfl⟩, changed, _, _, ⟨⟨applied, rfl⟩, rfl⟩, rfl, rfl⟩ := ends
  exact ⟨EditBatch.apply_eq_ok applied, rfl⟩

section Propagate

variable
    (wrappable : program.Wrappable settings)
    (resigned : (Session.start settings program).Resigned (program.generatedNames settings) signed)
include wrappable resigned

/-- The calls of a body with wrappers stand for those of the body, besides calls of wrappers. -/
theorem propagate_retargets
    {pass : String}
    {id : MethodId}
    {body bodyAfter : Body}
    {session sessionAfter : Session}
    {changed : Bool}
    (drafts : Session.Drafts settings program initial body.instructions body session)
    (accounted : Accounted settings program body)
    (checked : ∀ instruction ∈ body.instructions, instruction.Checked program)
    (present : (session.program.method? id).isSome)
    (ends : Draft.Ends (propagate pass id) body session changed bodyAfter sessionAfter) :
    Session.Drafts settings program initial bodyAfter.instructions bodyAfter sessionAfter ∧
      StandFor settings program signed body.calledMethods bodyAfter.instructions := by
  unfold propagate at ends
  rw [Draft.Ends.session_bind_iff] at ends
  obtain ⟨signature, found⟩ := Option.isSome_iff_exists.1 present
  dsimp only at ends
  rw [found] at ends
  obtain ⟨retyped, bodyRetyped, sessionRetyped, retypes, rest⟩ := Draft.Ends.bind_iff.1 ends
  obtain ⟨⟨draftsRetyped, -⟩, -⟩ :=
    retypeLocals_keeps body session retyped bodyRetyped sessionRetyped ⟨drafts, accounted⟩ retypes
  rw [Draft.Ends.body_bind_iff, Draft.Ends.body_bind_iff, draftsRetyped.instructions] at rest
  obtain ⟨batch, bodyQueued, sessionQueued, queues, rest⟩ := Draft.Ends.bind_iff.1 rest
  obtain ⟨draftsQueued, queued⟩ :=
    queueAll_keeps wrappable resigned _ signature _ checked bodyRetyped sessionRetyped batch
      bodyQueued sessionQueued draftsRetyped queues
  obtain ⟨_, bodyApplied, sessionApplied, applies, rest⟩ := Draft.Ends.bind_iff.1 rest
  obtain ⟨repaired, bodyRepaired, sessionRepaired, repairs, rest⟩ := Draft.Ends.bind_iff.1 rest
  obtain ⟨-, rfl, rfl⟩ := Draft.Ends.pure_iff.1 rest
  obtain ⟨rfl, rfl⟩ := apply_eq applies
  have stand :
      StandFor settings program signed body.calledMethods
        (batch.applyTo bodyQueued.instructions) := by
    rw [draftsQueued.instructions]
    exact queued.applyTo
  have draftsApplied :
      Session.Drafts settings program initial (batch.applyTo bodyQueued.instructions)
        { bodyQueued with instructions := batch.applyTo bodyQueued.instructions } sessionApplied :=
    ⟨rfl, draftsQueued.orderly, draftsQueued.resigned, draftsQueued.same⟩
  obtain ⟨draftsRepaired, same⟩ := repair_calls settings program initial draftsApplied repairs
  refine ⟨draftsRepaired, ?_⟩
  unfold StandFor at *
  rw [same]
  exact stand

end Propagate

end Draft
end AccessProfiler
