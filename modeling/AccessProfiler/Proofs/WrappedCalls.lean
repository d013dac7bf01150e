import AccessProfiler.Proofs.CalledMethods
import AccessProfiler.Proofs.DraftRules
import AccessProfiler.Proofs.WrappedSignatures

/-!
# Calls in bodies with wrappers

After signatures were changed, the body of a method is put into agreement with them.  A call that can
be found as it stands keeps its parameter types, and else it takes those of the changed signature
(`MethodRef.Retargeted`).  Every other call that is put into the body is one of a wrapper.

The steps on a body keep the instructions that it came with, while the wrappers that they ask for are
generated (`Session.Drafts`).
-/

namespace AccessProfiler

/-- The reference with wrappers in the place of arrays in its parameters. -/
def Settings.mappedReference (settings : Settings) (method : MethodRef) : MethodRef :=
  { method with parameters := method.parameters.map settings.mapped }

/-- A reference and what it becomes: it keeps its parameter types if it refers to a method as it stands,
and takes the mapped ones if only they refer to a method of a transformed class. -/
structure MethodRef.Retargeted
    (settings : Settings)
    (program signed : Program)
    (original method : MethodRef) : Prop where
  owner : method.owner = original.owner
  name : method.name = original.name
  direct : (signed.referent? original).isSome → method.parameters = original.parameters
  mapped :
    signed.referent? original = none →
      ∀ id, signed.referent? (settings.mappedReference original) = some id →
        (Session.start settings program).isTransformableClass id.owner →
          method.parameters = (settings.mappedReference original).parameters

/-- What a call means: a declaration with the parameter types of the call or, if the call refers to nothing
as it stands, with the mapped ones. -/
def MethodRef.Means
    (settings : Settings)
    (signed : Program)
    (method : MethodRef) : Option (String × Method) → Prop
  | some (holder, declared) =>
    (declared.parameters = method.parameters ∧ (signed.referent? method).isSome) ∨
      (signed.referent? method = none ∧
        declared.parameters = (settings.mappedReference method).parameters ∧
        ∃ id, signed.referent? (settings.mappedReference method) = some id ∧ id.owner = holder)
  | none =>
    signed.referent? method = none ∧
      ((settings.mappedReference method).parameters = method.parameters ∨
        signed.referent? (settings.mappedReference method) = none)

/-- The body has these instructions, and the session holds the program with changed signatures, which was
changed in generated classes only since the step began. -/
structure Session.Drafts
    (settings : Settings)
    (program initial : Program)
    (instructions : List Instruction)
    (body : Body)
    (session : Session) : Prop where
  instructions : body.instructions = instructions
  orderly : session.Orderly settings (program.generatedNames settings)
  resigned :
    (Session.start settings program).Resigned (program.generatedNames settings) session.program
  same : initial.SameApart (program.generatedNames settings) session.program

/-- The call is one of the program, with as many arguments as its method has parameters. -/
structure Call.Checked (program : Program) (target : Call) : Prop where
  mentioned : .call target ∈ program.expressions
  arity : target.arguments.length = target.method.parameters.length

/-- The adaptation uses wrappers of the given names. -/
def Adaptation.Proper (names : List String) : Adaptation → Prop
  | .unwrap source => source.Proper names
  | .wrap target => target.Proper names
  | .rewrap source target => source.Proper names ∧ target.Proper names
  | .unsupported => True

section Wrappers

variable {names : List String} {wrapper : Wrapper}

theorem Wrapper.Proper.apart_eq_nil
    (proper : wrapper.Proper names)
    {method : MethodRef}
    (owned : method.owner = wrapper.name) :
    MethodRef.apart names [method] = [] := by
  have generated : method.owner ∈ names := owned ▸ proper.name
  simp [MethodRef.apart, generated]

theorem Wrapper.Proper.wrapInto
    (proper : wrapper.Proper names)
    (target : LocalId)
    (raw : Operand) :
    Instruction.calledApart names (wrapper.wrapInto target raw) = [] :=
  proper.apart_eq_nil proper.fromArray

theorem Wrapper.Proper.allocateInto
    (proper : wrapper.Proper names)
    (target : LocalId)
    (size : Operand) :
    Instruction.calledApart names (wrapper.allocateInto target size) = [] :=
  proper.apart_eq_nil proper.withLength

theorem MethodRef.apart_eq_self
    {method : MethodRef}
    (apart : method.owner ∉ names) :
    MethodRef.apart names [method] = [method] := by
  simp [MethodRef.apart, apart]

end Wrappers

section Plans

variable
    {settings : Settings}
    {names : List String}
    {session : Session}
    {source target : Ty}
    {adaptation : Adaptation}

theorem Session.Orderly.plan?_proper
    (orderly : session.Orderly settings names)
    (planned : session.plan? source target = some adaptation) :
    adaptation.Proper names := by
  unfold Session.plan? at planned
  dsimp only at planned
  split at planned
  · cases planned
  · cases inner : session.wrapperOfType? source with
    | none =>
      cases outer : session.wrapperOfType? target with
      | none =>
        rw [inner, outer] at planned
        cases planned
      | some wrapper =>
        rw [inner, outer] at planned
        cases planned
        split
        · exact orderly.wrapperOfType? outer
        · trivial
    | some wrapper =>
      cases outer : session.wrapperOfType? target with
      | none =>
        rw [inner, outer] at planned
        cases planned
        split
        · exact orderly.wrapperOfType? inner
        · trivial
      | some wrapperThere =>
        rw [inner, outer] at planned
        cases planned
        split
        · exact ⟨orderly.wrapperOfType? inner, orderly.wrapperOfType? outer⟩
        · trivial

theorem Session.Orderly.argumentPlan?_proper
    (orderly : session.Orderly settings names)
    {foreign : Bool}
    (planned : Draft.argumentPlan? session foreign source target = some adaptation) :
    adaptation.Proper names := by
  unfold Draft.argumentPlan? at planned
  cases found : session.wrapperOfType? source with
  | none =>
    rw [found] at planned
    exact orderly.plan?_proper planned
  | some wrapper =>
    rw [found] at planned
    dsimp only at planned
    split at planned
    · cases planned
      exact orderly.wrapperOfType? found
    · exact orderly.plan?_proper planned

end Plans

namespace Draft

variable
    {Value : Type}
    {settings : Settings}
    {program initial : Program}
    {instructions : List Instruction}

theorem newLocal_keeps (stem : String) (type : Ty) :
    Keeps (Session.Drafts settings program initial instructions) (newLocal stem type) fun _ => True := by
  intro body session id bodyAfter sessionAfter drafts ends
  unfold newLocal at ends
  simp only [Draft.Ends.bind_iff, Draft.Ends.body_iff, Draft.Ends.set_iff, Draft.Ends.pure_iff] at ends
  obtain ⟨_, _, _, ⟨rfl, rfl, rfl⟩, _, _, _, ⟨rfl, rfl⟩, -, rfl, rfl⟩ := ends
  exact ⟨⟨drafts.instructions, drafts.orderly, drafts.resigned, drafts.same⟩, trivial⟩

/-- A step of the session that changes generated classes only. -/
theorem lift_keeps
    {step : Transform Value}
    {Good : Value → Prop}
    (changesOnly :
      ∀ session : Session, session.Orderly settings (program.generatedNames settings) →
        Transform.ChangesOnly settings (program.generatedNames settings) session step Good) :
    Keeps (Session.Drafts settings program initial instructions) (lift step) Good := by
  apply Keeps.lift
  intro body session value after drafts ends
  obtain ⟨orderly, same, good⟩ := changesOnly session drafts.orderly value after ends
  exact ⟨⟨drafts.instructions, orderly, drafts.resigned.sameApart same, drafts.same.trans same⟩, good⟩

theorem record_keeps (event : Event) :
    Keeps (Session.Drafts settings program initial instructions) (record event) fun _ => True :=
  lift_keeps fun _ orderly => Transform.ChangesOnly.record orderly event

theorem recordAt_keeps (origin : Origin) (kind : EventKind) (index : Nat) (message : String) :
    Keeps (Session.Drafts settings program initial instructions) (recordAt origin kind index message)
      fun _ => True :=
  record_keeps _

theorem wrapperOfLocal?_keeps (id : LocalId) :
    Keeps (Session.Drafts settings program initial instructions) (wrapperOfLocal? id)
      fun found => ∀ wrapper, found = some wrapper →
        wrapper.Proper (program.generatedNames settings) := by
  unfold wrapperOfLocal?
  apply Keeps.bind Keeps.body
  intro body _
  cases body.localType? id with
  | none =>
    apply Keeps.pure
    intro wrapper impossible
    cases impossible
  | some type =>
    apply Keeps.bind Keeps.session
    rintro session ⟨_, drafts⟩
    apply Keeps.pure
    intro wrapper found
    exact drafts.orderly.wrapperOfType? found

/-- What is put in front of an instruction to make its operands agree calls wrappers only. -/
def Silent
    (settings : Settings)
    (program : Program)
    (steps : List Instruction) : Prop :=
  Instruction.calledApart (program.generatedNames settings) steps = []

theorem silent_nil : Silent settings program [] :=
  rfl

theorem Silent.append
    {steps others : List Instruction}
    (silent : Silent settings program steps)
    (silentOthers : Silent settings program others) :
    Silent settings program (steps ++ others) := by
  unfold Silent at *
  rw [Instruction.calledApart_append, silent, silentOthers]
  rfl

theorem silent_flatMap
    {Item : Type}
    {items : List Item}
    {steps : Item → List Instruction}
    (silent : ∀ item ∈ items, Silent settings program (steps item)) :
    Silent settings program (items.flatMap steps) := by
  unfold Silent
  rw [Instruction.calledApart_flatMap, List.flatMap_eq_nil_iff]
  exact silent

theorem unwrapOperand_keeps (wrapper : Wrapper) (operand : Operand) :
    Keeps (Session.Drafts settings program initial instructions) (unwrapOperand wrapper operand)
      fun adapted => Silent settings program adapted.2 := by
  cases operand with
  | «variable» source =>
    apply Keeps.bind (newLocal_keeps _ _)
    intro raw _
    exact Keeps.pure rfl
  | literal value => exact Keeps.pure silent_nil

theorem wrapOperand_keeps
    {wrapper : Wrapper}
    (proper : wrapper.Proper (program.generatedNames settings))
    (operand : Operand) :
    Keeps (Session.Drafts settings program initial instructions) (wrapOperand wrapper operand)
      fun adapted => Silent settings program adapted.2 := by
  apply Keeps.bind (newLocal_keeps _ _)
  intro target _
  exact Keeps.pure (proper.wrapInto target operand)

theorem adapt_keeps
    {adaptation : Adaptation}
    (proper : adaptation.Proper (program.generatedNames settings))
    (operand : Operand) :
    Keeps (Session.Drafts settings program initial instructions) (adapt adaptation operand)
      fun found => ∀ adapted, found = some adapted → Silent settings program adapted.2 := by
  have done
      {adapted : Operand × List Instruction}
      (silent : Silent settings program adapted.2) :
      ∀ other, some adapted = some other → Silent settings program other.2 := by
    rintro _ ⟨⟩
    exact silent
  cases adaptation with
  | unwrap wrapper =>
    apply Keeps.bind (unwrapOperand_keeps wrapper operand)
    intro adapted silent
    exact Keeps.pure (done silent)
  | wrap wrapper =>
    apply Keeps.bind (wrapOperand_keeps proper operand)
    intro adapted silent
    exact Keeps.pure (done silent)
  | rewrap source target =>
    apply Keeps.bind (unwrapOperand_keeps source operand)
    intro raw silentRaw
    apply Keeps.bind (wrapOperand_keeps proper.2 raw.1)
    intro wrapped silentWrapped
    exact Keeps.pure (done (silentRaw.append silentWrapped))
  | unsupported =>
    apply Keeps.pure
    intro adapted impossible
    cases impossible

theorem adaptReceiver_keeps
    (origin : Origin)
    (index : Nat)
    (method : MethodRef)
    (receiver : LocalId) :
    Keeps (Session.Drafts settings program initial instructions) (adaptReceiver origin index method receiver)
      fun adapted => Silent settings program adapted.2 := by
  unfold adaptReceiver
  apply Keeps.bind (wrapperOfLocal?_keeps receiver)
  intro found _
  cases found with
  | none => exact Keeps.pure silent_nil
  | some wrapper =>
    dsimp only
    split
    · exact Keeps.pure silent_nil
    · apply Keeps.bind (newLocal_keeps _ _)
      intro raw _
      apply Keeps.bind (recordAt_keeps _ _ _ _)
      intro _ _
      exact Keeps.pure rfl

theorem adaptArgument_keeps
    (origin : Origin)
    (index position : Nat)
    (method : MethodRef)
    (foreign : Bool)
    (target : Ty)
    (argument : Operand) :
    Keeps (Session.Drafts settings program initial instructions)
      (adaptArgument origin index position method foreign target argument)
      fun adapted => Silent settings program adapted.2 := by
  unfold adaptArgument
  apply Keeps.bind Keeps.body
  intro body _
  cases body.operandType? argument with
  | none => exact Keeps.pure silent_nil
  | some source =>
    apply Keeps.bind Keeps.session
    rintro session ⟨_, drafts⟩
    cases planned : argumentPlan? session foreign source target with
    | none => exact Keeps.pure silent_nil
    | some adaptation =>
      apply Keeps.bind (adapt_keeps (drafts.orderly.argumentPlan?_proper planned) argument)
      intro found silent
      cases found with
      | some adapted =>
        apply Keeps.bind (recordAt_keeps _ _ _ _)
        intro _ _
        exact Keeps.pure (silent adapted rfl)
      | none =>
        apply Keeps.bind (recordAt_keeps _ _ _ _)
        intro _ _
        exact Keeps.pure silent_nil

section Calls

variable
    (wrappable : program.Wrappable settings)
    {signed : Program}
    (resigned : (Session.start settings program).Resigned (program.generatedNames settings) signed)

/-- A reference that does not change stands for itself if there is nothing to be mapped. -/
theorem retargeted_of_mapped_eq
    {method : MethodRef}
    (same : (settings.mappedReference method).parameters = method.parameters) :
    method.Retargeted settings program signed method :=
  ⟨rfl, rfl, fun _ => rfl, fun _ _ _ _ => same.symm⟩

/-- The last step of wrapping a call: its arguments are adapted, and it is put together. -/
theorem wrapArguments_keeps
    (origin : Origin)
    (index : Nat)
    (target : Call)
    (parameters : List Ty)
    (foreign : Bool)
    (receiver : Option LocalId)
    {method : MethodRef}
    {unwrapping : List Instruction}
    (retargeted : target.method.Retargeted settings program signed method)
    (silent : Silent settings program unwrapping) :
    Keeps (Session.Drafts settings program initial instructions)
      (do
        let arguments ←
          (parameters.zip target.arguments).zipIdx.mapM fun ((parameter, argument), position) =>
            adaptArgument origin index position method foreign parameter argument
        let wrapped : Call := ⟨target.kind, method, receiver, arguments.map Prod.fst⟩
        return (wrapped, unwrapping ++ arguments.flatMap Prod.snd))
      fun wrapped =>
        target.method.Retargeted settings program signed wrapped.1.method ∧
          Silent settings program wrapped.2 := by
  apply Keeps.bind (Keeps.mapM_all fun entry _ =>
    adaptArgument_keeps origin index entry.2 method foreign entry.1.1 entry.1.2)
  intro arguments silentArguments
  exact Keeps.pure ⟨retargeted, silent.append (silent_flatMap silentArguments)⟩

include wrappable resigned

theorem callee?_keeps
    {method : MethodRef}
    (apart : method.owner ∉ program.generatedNames settings)
    (parameters : ∀ type ∈ method.parameters, type ∈ program.parameterTypes) :
    Keeps (Session.Drafts settings program initial instructions) (callee? method)
      (method.Means settings signed) := by
  have closed := wrappable.closedAbove
  have refersAsSigned
      {session : Session}
      {body : Body}
      (drafts : Session.Drafts settings program initial instructions body session)
      {other : MethodRef}
      (apartOther : other.owner ∉ program.generatedNames settings) :
      signed.referent? other = session.program.referent? other :=
    drafts.resigned.referent?_eq resigned closed apartOther
  unfold callee?
  apply Keeps.bind Keeps.session
  rintro session ⟨body, drafts⟩
  dsimp only
  cases resolved : session.program.resolveMethod? method.owner method.name method.parameters with
  | some found =>
    obtain ⟨holder, declared⟩ := found
    obtain ⟨sameParameters, id, refers, -⟩ := session.program.resolveMethod?_eq_some resolved
    apply Keeps.pure
    left
    refine ⟨sameParameters, ?_⟩
    rw [refersAsSigned drafts apart, refers]
    rfl
  | none =>
    have missing : signed.referent? method = none := by
      rw [refersAsSigned drafts apart]
      exact session.program.referent?_eq_none resolved
    dsimp only
    apply Keeps.bind (lift_keeps fun _ orderly =>
      Transform.mapM_mapType_changesOnly orderly fun type member _ named =>
        Program.mem_generatedNames
          (Program.mem_mentionedTypes_of_parameter (parameters type member)) named)
    rintro mapped rfl
    split
    · rename_i same
      exact Keeps.pure ⟨missing, .inl same⟩
    · apply Keeps.bind Keeps.session
      rintro after ⟨bodyAfter, draftsAfter⟩
      apply Keeps.pure
      have apartMapped :
          (settings.mappedReference method).owner ∉ program.generatedNames settings := apart
      cases resolvedMapped :
          after.program.resolveMethod? method.owner method.name
            (method.parameters.map settings.mapped) with
      | some found =>
        obtain ⟨holder, declared⟩ := found
        have search :
            after.program.resolveMethod? (settings.mappedReference method).owner
              (settings.mappedReference method).name
              (settings.mappedReference method).parameters = some (holder, declared) :=
          resolvedMapped
        obtain ⟨sameParameters, id, refers, owned⟩ := after.program.resolveMethod?_eq_some search
        right
        refine ⟨missing, sameParameters, id, ?_, owned⟩
        rw [refersAsSigned draftsAfter apartMapped, refers]
      | none =>
        refine ⟨missing, .inr ?_⟩
        rw [refersAsSigned draftsAfter apartMapped]
        exact after.program.referent?_eq_none resolvedMapped

theorem calleeOf_keeps
    {method : MethodRef}
    (apart : method.owner ∉ program.generatedNames settings)
    (parameters : ∀ type ∈ method.parameters, type ∈ program.parameterTypes) :
    Keeps (Session.Drafts settings program initial instructions) (calleeOf method) fun callee =>
      callee.parameters.length = method.parameters.length ∧
        method.Retargeted settings program signed
          (if callee.foreign then method
          else { method with parameters := callee.parameters, result := callee.result }) := by
  have generated := program.counterClassName_mem_generatedNames settings
  have apartMapped : (settings.mappedReference method).owner ∉ program.generatedNames settings := apart
  unfold calleeOf
  apply Keeps.bind (callee?_keeps wrappable resigned apart parameters)
  intro found means
  cases found with
  | none =>
    apply Keeps.pure
    refine ⟨rfl, rfl, rfl, fun _ => rfl, ?_⟩
    intro _ id refers _
    rcases means.2 with same | missing
    · exact same.symm
    · rw [missing] at refers
      cases refers
  | some entry =>
    obtain ⟨holder, declared⟩ := entry
    apply Keeps.bind Keeps.session
    rintro session ⟨body, drafts⟩
    apply Keeps.pure
    dsimp only
    rcases means with ⟨same, refers⟩ | ⟨missing, same, id, refers, owned⟩
    · refine ⟨congrArg List.length same, ?_⟩
      have direct : ∀ reference : MethodRef, reference.owner = method.owner →
          reference.name = method.name → reference.parameters = method.parameters →
          method.Retargeted settings program signed reference := by
        intro reference owner name parameters
        refine ⟨owner, name, fun _ => parameters, ?_⟩
        intro missing
        rw [missing] at refers
        cases refers
      split
      · exact direct _ rfl rfl rfl
      · exact direct _ rfl rfl same
    · refine ⟨(congrArg List.length same).trans (List.length_map _), ?_⟩
      have transformable :
          session.isTransformableClass holder =
            (Session.start settings program).isTransformableClass holder :=
        Session.isTransformableClass_eq generated drafts.orderly drafts.resigned.hierarchy
          (owned ▸ resigned.owner_apart wrappable.closedAbove apartMapped refers)
      rw [transformable]
      cases touched : (Session.start settings program).isTransformableClass holder with
      | true =>
        refine ⟨rfl, rfl, ?_, fun _ _ _ _ => same⟩
        intro found
        rw [missing] at found
        cases found
      | false =>
        refine ⟨rfl, rfl, fun _ => rfl, ?_⟩
        intro _ other refersOther touchedOther
        obtain rfl := Option.some.inj (refers.symm.trans refersOther)
        rw [owned, touched] at touchedOther
        cases touchedOther

/-- A call stands for the one that it was, behind calls of wrappers. -/
theorem wrapCall_keeps
    (origin : Origin)
    (index : Nat)
    {target : Call}
    (checked : target.Checked program) :
    Keeps (Session.Drafts settings program initial instructions) (wrapCall origin index target)
      fun wrapped =>
        target.method.Retargeted settings program signed wrapped.1.method ∧
          Silent settings program wrapped.2 := by
  have apart := wrappable.not_generated_of_called checked.mentioned
  have parameters : ∀ type ∈ target.method.parameters, type ∈ program.parameterTypes :=
    fun _ member => Program.mem_parameterTypes_of_called checked.mentioned member
  unfold wrapCall
  apply Keeps.bind Keeps.session
  rintro session ⟨_, drafts⟩
  split
  · rename_i reports
    apply Keeps.pure
    refine ⟨retargeted_of_mapped_eq ?_, silent_nil⟩
    rw [reports]
    rfl
  · apply Keeps.bind (calleeOf_keeps wrappable resigned apart parameters)
    rintro callee ⟨arity, retargeted⟩
    split
    · rename_i disagrees
      exact absurd (arity.trans checked.arity.symm) disagrees
    · dsimp only
      generalize (if callee.foreign then target.method
        else { target.method with parameters := callee.parameters, result := callee.result }) =
          method at retargeted ⊢
      cases target.receiver with
      | none => exact wrapArguments_keeps origin index target _ _ none retargeted silent_nil
      | some receiver =>
        apply Keeps.bind (adaptReceiver_keeps origin index method receiver)
        intro adapted silent
        exact wrapArguments_keeps origin index target _ _ (some adapted.1) retargeted silent

end Calls
end Draft
end AccessProfiler
