import AccessProfiler.Proofs.FittingCode
import AccessProfiler.Proofs.Tandem
import AccessProfiler.Wrapping.BodyWrapping

/-!
# Wrapping in tandem

The body of a method is put into agreement with wrappers in the same way in two sessions that both can
read it: its locals and the members that it names are of types which both admit (`Session.BothRead`).
Whatever wrapping looks up on the way is known to both by then, since the wrappers of the locals, and those
of the parameters of a method that is called, are asked for first.
-/

namespace AccessProfiler

/-- What a call is made to if this declaration is found for it. -/
def Session.calleeAt (session : Session) (found : String × Method) : Draft.Callee :=
  ⟨found.2.parameters, found.2.result, !session.isTransformableClass found.1⟩

/-- If accesses are counted for types, the counters under this name may be asked for. -/
def Session.AsksType (base : Session) (asked : CounterOwner → Prop) (name : String) : Prop :=
  base.settings.typeProfiling → asked (.reads name) ∧ asked (.writes name)

/-- If arrays are wrapped, the wrapper that stands for the type may be asked for. -/
def Session.AsksWrapper (base : Session) (elements : Ty → Prop) (type : Ty) : Prop :=
  base.settings.arrays → ∀ element, type = .array element → elements element

section Definitions

variable
    (base : Session)
    (asked : CounterOwner → Prop)
    (elements : Ty → Prop)
    (first second : Session)

/-- Both sessions can answer for a method that is called: it is searched from a known class, with types
whose wrappers may be asked for, or it is one that counts. -/
inductive Session.BothAnswer (method : MethodRef) : Prop
  | known
    (owner : base.BothKnow elements first second method.owner)
    (parameters :
      ∀ type ∈ method.parameters, base.BothAdmit elements first second type ∧
        base.AsksWrapper elements type)
  | tally
    (counted : CounterOwner)
    (has : first.Has (.tally counted))
    (hasToo : second.Has (.tally counted))
    (same :
      method =
        ⟨base.counters.className, "increment" ++ counterKey (base.counters.allotted counted), [],
          .void⟩)

/-- Both sessions can look up everything that an instruction is about. -/
structure Session.BothRead (instruction : Instruction) : Prop where
  states : base.BothState elements first second instruction
  calls :
    ∀ target, instruction.call? = some target →
      target.method = base.settings.sink.methodRef ∨
        base.BothAnswer elements first second target.method
  binds :
    ∀ target index type, instruction = .bind target (.parameter index type) →
      base.BothAdmit elements first second type
  fields :
    ∀ holder field, .instanceField holder field ∈ instruction.expressions →
      ¬ base.Reserves elements field.owner
  counts :
    ∀ holder field, .instanceField holder field ∈ instruction.expressions →
      isInstrumentationName field.name = false →
        base.AsksType asked field.owner ∧ base.AsksType asked field.type.render

end Definitions

variable
    {Value Result : Type}
    {base first second : Session}
    {asked : CounterOwner → Prop}
    {elements : Ty → Prop}

namespace Session

section Types

variable
    (foresees : base.Foresees asked elements)
    {body : Body}
    (sees : base.BothSee elements first second body)
include foresees sees

theorem BothSee.operandType?
    {operand : Operand}
    {type : Ty}
    (found : body.operandType? operand = some type) :
    base.BothAdmit elements first second type := by
  cases operand with
  | «variable» source => exact sees.localType? found
  | literal value =>
    cases found
    cases value with
    | str text =>
      rintro _ ⟨⟩
      exact .of_free foresees.text
    | _ => exact .of_simple rfl

/-- The type of an expression is decided by the locals or stated. -/
theorem BothSee.type?
    {expression : Expression}
    (states :
      ∀ type, expression.statedType? = some type → base.BothAdmit elements first second type)
    {type : Ty}
    (found : body.type? expression = some type) :
    base.BothAdmit elements first second type := by
  cases expression with
  | «variable» source => exact sees.localType? found
  | literal value =>
    have stated : body.operandType? (.literal value) = some type := found
    exact sees.operandType? foresees stated
  | element array index =>
    obtain ⟨whole, located, part⟩ := Option.bind_eq_some_iff.1 found
    cases whole with
    | array content =>
      cases part
      exact (sees.localType? located).element
    | _ => cases part
  | binary operator left right => exact sees.operandType? foresees found
  | length array =>
    cases found
    exact .of_simple rfl
  | _ => exact states type found

end Types

section Carrying

variable
    {after afterToo : Session}
    (carries : Carries first second after afterToo)
include carries

theorem Carries.answers
    {method : MethodRef}
    (answers : base.BothAnswer elements first second method) :
    base.BothAnswer elements after afterToo method := by
  cases answers with
  | known owner parameters =>
    exact .known (carries.knows owner) fun type member =>
      ⟨carries.admits (parameters type member).1, (parameters type member).2⟩
  | tally counted has hasToo same =>
    exact .tally counted (carries.has _ has hasToo).1 (carries.has _ has hasToo).2 same

theorem Carries.adapts
    {adaptation : Adaptation}
    (adapts : base.BothAdapt elements first second adaptation) :
    base.BothAdapt elements after afterToo adaptation := by
  cases adaptation with
  | unwrap wrapper => exact carries.holds adapts
  | wrap wrapper => exact carries.holds adapts
  | rewrap source target => exact ⟨carries.holds adapts.1, carries.holds adapts.2⟩
  | unsupported => trivial

theorem Carries.reads
    {instruction : Instruction}
    (reads : base.BothRead asked elements first second instruction) :
    base.BothRead asked elements after afterToo instruction where
  states := carries.states reads.states
  calls target calls := (reads.calls target calls).imp_right carries.answers
  binds target index type same := carries.admits (reads.binds target index type same)
  fields := reads.fields
  counts := reads.counts

end Carrying

end Session

/-- What holds of the new type of a local and of the types of all locals holds of them afterwards. -/
theorem Body.forall_mem_setLocalType
    (Kept : Ty → Prop)
    {body : Body}
    {id : LocalId}
    {type : Ty}
    (kept : Kept type)
    (keeps : ∀ declaration ∈ body.locals, Kept declaration.type) :
    ∀ declaration ∈ (body.setLocalType id type).locals, Kept declaration.type := by
  intro declaration member
  obtain ⟨index, located⟩ := List.getElem?_of_mem member
  rw [setLocalType, List.getElem?_modify] at located
  obtain ⟨old, there, same⟩ := Option.map_eq_some_iff.1 located
  split at same
  · rw [← same]
    exact kept
  · rw [← same]
    exact keeps old (List.mem_of_getElem? there)

namespace Draft

open Session

variable {body : Body}

/-! ## Wrappers of locals -/

theorem wrapperOfLocal?_tandem (foresees : base.Foresees asked elements) (id : LocalId) :
    Tandem base asked elements first second body (wrapperOfLocal? id) (wrapperOfLocal? id)
      fun found bodyAfter after afterToo => bodyAfter = body ∧
        ∀ wrapper, found = some wrapper → base.BothHold elements after afterToo wrapper := by
  unfold wrapperOfLocal?
  refine .given fun paired sees => .body_bind ?_
  cases located : body.localType? id with
  | none => exact .pure ⟨rfl, nofun⟩
  | some type =>
    have admitted := sees.localType? located
    refine .session_bind ?_
    rw [paired.wrapperOfType?_eq foresees admitted]
    exact .pure ⟨rfl, fun wrapper found => paired.holds_of_wrapperOfType? foresees admitted found⟩

/-- The wrapper of an element type that may be asked for is the same in both sessions, and both have it
then. -/
theorem wrapperFor_tandem
    (foresees : base.Foresees asked elements)
    {element : Ty}
    (among : elements element) :
    Transform.Tandem base asked elements first second (Transform.wrapperFor element)
      (Transform.wrapperFor element) fun found after afterToo =>
        ∀ wrapper, found = some wrapper → base.BothHold elements after afterToo wrapper := by
  intro paired found after foundToo afterToo ends endsToo
  obtain ⟨rfl, foreseen, supplies⟩ :=
    Transform.wrapperFor_foreseen foresees paired.foreseen among ends
  obtain ⟨rfl, foreseenToo, suppliesToo⟩ :=
    Transform.wrapperFor_foreseen foresees paired.foreseenToo among endsToo
  refine ⟨rfl, .of_supplies foreseen foreseenToo supplies suppliesToo, fun wrapper same => ?_⟩
  obtain ⟨name, named, rfl⟩ := Option.map_eq_some_iff.1 same
  rw [named] at supplies suppliesToo
  have listed : Asset.wrapper name ∈ wrapperAssets name := by simp [wrapperAssets]
  exact ⟨name, element, rfl, among, fun _ =>
    ⟨(supplies.acquires _).2 (.inr listed), (suppliesToo.acquires _).2 (.inr listed)⟩⟩

/-- What stands for a type whose wrapper may be asked for is the same in both sessions, and it is no array
that was not there before. -/
theorem mapType_tandem
    (foresees : base.Foresees asked elements)
    (wraps : base.settings.arrays)
    {type : Ty}
    (among : base.AsksWrapper elements type)
    (admits : base.BothAdmit elements first second type) :
    Transform.Tandem base asked elements first second (Transform.mapType type)
      (Transform.mapType type) fun mapped after afterToo =>
        base.BothAdmit elements after afterToo mapped ∧ base.AsksWrapper elements mapped := by
  unfold Transform.mapType
  split
  · rename_i element
    refine (wrapperFor_tandem foresees (among wraps element rfl)).bind
      fun found after afterToo advance holds => ?_
    cases found with
    | none => exact .pure ⟨advance.admits admits, among⟩
    | some wrapper => exact .pure ⟨(holds wrapper rfl).type, fun _ => nofun⟩
  · exact .pure ⟨admits, among⟩

/-- Wrappers may be asked for of all locals that are arrays. -/
def Lists (base : Session) (elements : Ty → Prop) (body : Body) : Prop :=
  ∀ declaration ∈ body.locals, base.AsksWrapper elements declaration.type

theorem retypeLocal_tandem
    (foresees : base.Foresees asked elements)
    (wraps : base.settings.arrays)
    (lists : Lists base elements body)
    (id : LocalId) :
    Tandem base asked elements first second body (retypeLocal id) (retypeLocal id)
      fun _ bodyAfter _ _ =>
        Lists base elements bodyAfter ∧ bodyAfter.instructions = body.instructions := by
  unfold retypeLocal
  refine .body_bind ?_
  split
  · rename_i element located
    obtain ⟨declaration, there, isArray⟩ := Option.map_eq_some_iff.1 located
    have among := lists declaration (List.mem_of_getElem? there) wraps element isArray
    refine (Tandem.lift (wrapperFor_tandem foresees among)).bind ?_
    rintro found bodyAfter after afterToo - ⟨same, holds⟩
    subst same
    cases found with
    | none => exact .pure ⟨lists, rfl⟩
    | some wrapper =>
      refine .bind (.modify fun sees =>
        ⟨Body.forall_mem_setLocalType (base.BothAdmit elements after afterToo)
          (holds wrapper rfl).type sees.locals, sees.states⟩) ?_
      rintro - changed last lastToo - same
      subst same
      exact .pure ⟨Body.forall_mem_setLocalType
        (base.AsksWrapper elements) (fun _ => nofun) lists, rfl⟩
  · exact .pure ⟨lists, rfl⟩

theorem retypeLocals_tandem
    (foresees : base.Foresees asked elements)
    (wraps : base.settings.arrays)
    (lists : Lists base elements body) :
    Tandem base asked elements first second body retypeLocals retypeLocals
      fun _ bodyAfter _ _ => bodyAfter.instructions = body.instructions := by
  unfold retypeLocals
  refine .body_bind (Tandem.bind
    (Tandem.mapM
      (fun changed => Lists base elements changed ∧ changed.instructions = body.instructions)
      (fun _ _ _ => True) (fun _ _ => trivial) ?_ ⟨lists, rfl⟩) ?_)
  · rintro index - bodyAfter after afterToo - ⟨listsAfter, same⟩
    refine (retypeLocal_tandem foresees wraps listsAfter ⟨index⟩).mono ?_
    rintro changed bodyLast last lastToo - ⟨listsLast, sameLast⟩
    exact ⟨⟨listsLast, sameLast.trans same⟩, trivial⟩
  · rintro changes bodyAfter after afterToo - ⟨⟨-, same⟩, -⟩
    exact .pure same

/-! ## Adaptations -/

section Inserted

variable
    (foresees : base.Foresees asked elements)
    {wrapper : Wrapper}
    (holds : base.BothHold elements first second wrapper)
include holds

include foresees in
theorem states_unwrapInto (target source : LocalId) :
    base.BothState elements first second (wrapper.unwrapInto target source) := by
  have admits := holds.arrayType foresees
  obtain ⟨name, element, rfl, -, -⟩ := holds
  intro type member
  obtain rfl := List.mem_singleton.1 member
  exact admits

theorem states_construct (constructor : MethodRef) (target : LocalId) (argument : Operand) :
    ∀ step ∈ wrapper.construct constructor target argument,
      base.BothState elements first second step := by
  have admits := holds.type
  refine List.forall_mem_cons.2 ⟨fun type member => ?_, List.forall_mem_singleton.2 nofun⟩
  obtain rfl := List.mem_singleton.1 member
  exact admits

include foresees

theorem unwrapOperand_tandem (operand : Operand) :
    Tandem base asked elements first second body (unwrapOperand wrapper operand)
      (unwrapOperand wrapper operand) fun prepared _ after afterToo =>
        ∀ step ∈ prepared.2, base.BothState elements after afterToo step := by
  cases operand with
  | «variable» source =>
    refine .bind (.newLocal (holds.arrayType foresees) "$raw") ?_
    intro raw bodyAfter after afterToo advance _
    exact .pure (List.forall_mem_singleton.2
      (states_unwrapInto foresees (advance.holds holds) raw source))
  | literal value => exact .pure (List.forall_mem_nil _)

omit foresees in
theorem wrapOperand_tandem (operand : Operand) :
    Tandem base asked elements first second body (wrapOperand wrapper operand)
      (wrapOperand wrapper operand) fun prepared _ after afterToo =>
        ∀ step ∈ prepared.2, base.BothState elements after afterToo step := by
  refine .bind (.newLocal holds.type "$wrap") ?_
  intro target bodyAfter after afterToo advance _
  exact .pure (states_construct (advance.holds holds) wrapper.fromArray target operand)

end Inserted

/-- What takes the place of a value is prepared by steps whose types both sessions admit. -/
theorem adapt_tandem
    (foresees : base.Foresees asked elements)
    {adaptation : Adaptation}
    (adapts : base.BothAdapt elements first second adaptation)
    (operand : Operand) :
    Tandem base asked elements first second body (adapt adaptation operand)
      (adapt adaptation operand) fun adapted _ after afterToo =>
        ∀ prepared, adapted = some prepared →
          ∀ step ∈ prepared.2, base.BothState elements after afterToo step := by
  cases adaptation with
  | unwrap wrapper =>
    refine .bind (unwrapOperand_tandem foresees adapts operand) ?_
    intro prepared bodyAfter after afterToo advance states
    exact .pure (by rintro _ ⟨⟩; exact states)
  | wrap wrapper =>
    refine .bind (wrapOperand_tandem adapts operand) ?_
    intro prepared bodyAfter after afterToo advance states
    exact .pure (by rintro _ ⟨⟩; exact states)
  | rewrap source target =>
    refine .bind (unwrapOperand_tandem foresees adapts.1 operand) ?_
    rintro ⟨raw, unwrapping⟩ bodyAfter after afterToo advance states
    refine .bind (wrapOperand_tandem (advance.holds adapts.2) raw) ?_
    rintro ⟨wrapped, wrapping⟩ bodyLast last lastToo further statesToo
    refine .pure ?_
    rintro _ ⟨⟩
    exact List.forall_mem_append.2 ⟨fun step member => further.states (states step member), statesToo⟩
  | unsupported => exact .pure nofun

/-! ## Repairing -/

/-- What replaces an instruction, if something does, states types that both sessions admit. -/
def Replaced (base : Session) (elements : Ty → Prop) :
    Option (List Instruction) → Session → Session → Prop :=
  fun replaced first second =>
    ∀ steps, replaced = some steps → ∀ step ∈ steps, base.BothState elements first second step

/-- What was prepared is made use of, or else nothing happens; either is recorded. -/
theorem Tandem.bind_adapt
    (foresees : base.Foresees asked elements)
    {adaptation : Adaptation}
    (adapts : base.BothAdapt elements first second adaptation)
    {operand : Operand}
    {next : Option (Operand × List Instruction) → Draft Result}
    {Good : Result → Body → Session → Session → Prop}
    (unsupported :
      ∀ bodyAfter after afterToo, base.Advance asked elements first second after afterToo →
        Tandem base asked elements after afterToo bodyAfter (next none) (next none) Good)
    (adapted :
      ∀ prepared bodyAfter after afterToo,
        base.Advance asked elements first second after afterToo →
          (∀ step ∈ prepared.2, base.BothState elements after afterToo step) →
            Tandem base asked elements after afterToo bodyAfter (next (some prepared))
              (next (some prepared)) Good) :
    Tandem base asked elements first second body (adapt adaptation operand >>= next)
      (adapt adaptation operand >>= next) Good := by
  refine .bind (adapt_tandem foresees adapts operand) ?_
  intro found bodyAfter after afterToo advance states
  cases found with
  | none => exact unsupported bodyAfter after afterToo advance
  | some prepared => exact adapted prepared bodyAfter after afterToo advance (states prepared rfl)

/-- An event is recorded before the result is given. -/
theorem Tandem.record_pure
    {event : Event}
    {value : Value}
    {Good : Value → Session → Session → Prop}
    (good :
      ∀ after afterToo, base.Advance asked elements first second after afterToo →
        Good value after afterToo) :
    Tandem base asked elements first second body (Draft.record event >>= fun _ => Pure.pure value)
      (Draft.record event >>= fun _ => Pure.pure value) fun value _ => Good value :=
  (record event event).bind fun _ _ after afterToo advance _ => .pure (good after afterToo advance)

/-- An assignment of something prepared states what the place and the preparation state. -/
theorem states_prepared
    {place : Expression}
    {evaluation steps : List Instruction}
    (adapted : Operand)
    (placed :
      ∀ type, place.statedType? = some type → base.BothAdmit elements first second type)
    (evaluates : ∀ step ∈ evaluation, base.BothState elements first second step)
    (prepares : ∀ step ∈ steps, base.BothState elements first second step) :
    ∀ step ∈ evaluation ++ steps ++ [.assign place (.ofOperand adapted)],
      base.BothState elements first second step := by
  refine List.forall_mem_append.2
    ⟨List.forall_mem_append.2 ⟨evaluates, prepares⟩, List.forall_mem_singleton.2 ?_⟩
  intro type member
  rcases List.mem_append.1 member with left | right
  · exact placed type (Option.mem_toList.1 left)
  · cases adapted <;> cases right

theorem repairAssignment_tandem
    (foresees : base.Foresees asked elements)
    (method : String)
    (index : Nat)
    {place value : Expression}
    (states : base.BothState elements first second (.assign place value)) :
    Tandem base asked elements first second body (repairAssignment method index place value)
      (repairAssignment method index place value) fun replaced _ =>
        Replaced base elements replaced := by
  have placed type (stated : place.statedType? = some type) :
      base.BothAdmit elements first second type :=
    states type (List.mem_append_left _ (Option.mem_toList.2 stated))
  have valued type (stated : value.statedType? = some type) :
      base.BothAdmit elements first second type :=
    states type (List.mem_append_right _ (Option.mem_toList.2 stated))
  unfold repairAssignment
  refine .given fun paired sees => .body_bind ?_
  split
  · rename_i target source declaredTarget declaredSource
    have admitsTarget := sees.type? foresees placed declaredTarget
    have admitsSource := sees.type? foresees valued declaredSource
    refine .session_bind ?_
    rw [paired.plan?_eq foresees admitsSource admitsTarget]
    cases planned : first.plan? source target with
    | none => exact .pure nofun
    | some adaptation =>
      have adapts := paired.adapts_of_plan? foresees admitsSource admitsTarget planned
      dsimp only
      split
      · refine .bind_adapt foresees adapts (fun _ _ _ _ => .record_pure fun _ _ _ => nofun) ?_
        intro prepared bodyAfter after afterToo advance prepares
        refine .record_pure fun last lastToo further => ?_
        rintro _ ⟨⟩
        exact states_prepared prepared.1
          (fun type stated => further.admits (advance.admits (placed type stated)))
          (List.forall_mem_nil _) fun step member => further.states (prepares step member)
      · refine .bind (.newLocal admitsSource "$tmp") fun result bodyNow now nowToo onward _ => ?_
        refine .bind_adapt foresees (onward.adapts adapts)
          (fun _ _ _ _ => .record_pure fun _ _ _ => nofun) ?_
        intro prepared bodyAfter after afterToo advance prepares
        refine .record_pure fun last lastToo further => ?_
        rintro _ ⟨⟩
        have reached := (onward.trans advance).trans further
        refine states_prepared prepared.1 (fun type stated => reached.admits (placed type stated))
          (List.forall_mem_singleton.2 fun type member => ?_)
          fun step member => further.states (prepares step member)
        exact reached.admits (valued type (Option.mem_toList.1 member))
  · exact .pure nofun

theorem repairReturn_tandem
    (foresees : base.Foresees asked elements)
    {result : Ty}
    (admitsResult : base.BothAdmit elements first second result)
    (method : String)
    (index : Nat)
    (operand : Operand) :
    Tandem base asked elements first second body (repairReturn result method index operand)
      (repairReturn result method index operand) fun replaced _ =>
        Replaced base elements replaced := by
  unfold repairReturn
  refine .given fun paired sees => .body_bind ?_
  cases declared : body.operandType? operand with
  | none => exact .pure nofun
  | some source =>
    have admitsSource := sees.operandType? foresees declared
    refine .session_bind ?_
    rw [paired.plan?_eq foresees admitsSource admitsResult]
    cases planned : first.plan? source result with
    | none => exact .pure nofun
    | some adaptation =>
      have adapts := paired.adapts_of_plan? foresees admitsSource admitsResult planned
      refine .bind_adapt foresees adapts (fun _ _ _ _ => .record_pure fun _ _ _ => nofun) ?_
      intro prepared bodyAfter after afterToo advance prepares
      refine .record_pure fun last lastToo further => ?_
      rintro _ ⟨⟩
      exact List.forall_mem_append.2 ⟨fun step member => further.states (prepares step member),
        List.forall_mem_singleton.2 (List.forall_mem_nil _)⟩

/-- A body is brought into agreement in the same way. -/
theorem repair_tandem
    (foresees : base.Foresees asked elements)
    {result : Ty}
    (admitsResult : base.BothAdmit elements first second result)
    (method : String) :
    Tandem base asked elements first second body (repair result method) (repair result method)
      fun _ _ _ _ => True := by
  unfold repair
  refine .given fun _ sees => .body_bind (.bind (.mapM (fun _ => True)
    (fun entry after afterToo => ∀ step ∈ entry.2.getD [entry.1],
      base.BothState elements after afterToo step)
    (fun advance states step member => advance.states (states step member)) ?_ trivial)
    fun repaired bodyAfter after afterToo _ states => ?_)
  · rintro ⟨instruction, index⟩ member bodyAfter after afterToo advance -
    have stated :=
      advance.states (sees.states instruction (List.fst_mem_of_mem_zipIdx member))
    have repaired :
        Tandem base asked elements after afterToo bodyAfter
          (repairInstruction result method index instruction)
          (repairInstruction result method index instruction) fun replaced _ =>
            Replaced base elements replaced := by
      unfold repairInstruction
      split
      · exact repairAssignment_tandem foresees method index stated
      · exact repairReturn_tandem foresees (advance.admits admitsResult) method index _
      · exact .pure nofun
    refine repaired.bind fun replaced changed last lastToo further replaces => .pure ⟨trivial, ?_⟩
    cases replaced with
    | none => exact List.forall_mem_singleton.2 (further.states stated)
    | some steps => exact replaces steps rfl
  · exact .bind (.setInstructions fun _ => List.forall_mem_flatMap.2 states.2)
      fun _ _ _ _ _ _ => .pure trivial

end Draft
end AccessProfiler
