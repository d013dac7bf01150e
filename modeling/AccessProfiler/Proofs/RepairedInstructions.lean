import AccessProfiler.Proofs.BuiltWrappers
import AccessProfiler.Proofs.InsertedRules
import AccessProfiler.Wrapping.Adaptation

/-!
# Repairing an instruction

An instruction moves a value from one declared type to another (`Body.transfer?`).  Where a wrapper meets
an array on the way, the repair scan puts other instructions in its place.  Each of these uses locals that
are declared and agrees in its types (`Session.Agree`), and the last one is the instruction itself, moving
the value that was adapted (`Session.Replaces`).  Locals are only ever added, so that the types of those
that were there stay as they are (`Body.Widens`).
-/

namespace AccessProfiler

namespace Body

/-- More locals are declared. -/
def Widens (before after : Body) : Prop :=
  before.locals <+: after.locals

/-- Every local that an instruction uses is declared. -/
def Declares (body : Body) (instruction : Instruction) : Prop :=
  ∀ id ∈ instruction.locals, id.index < body.locals.length

/-- The type of the value that an instruction moves, and the type that is declared where it goes. -/
def transfer? (body : Body) (result : Ty) : Instruction → Option (Ty × Ty)
  | .assign place value =>
    match body.type? place, body.type? value with
    | some target, some source => some (source, target)
    | _, _ => none
  | .return (some operand) => (body.operandType? operand).map fun source => (source, result)
  | _ => none

end Body

/-- What is recorded of an adaptation. -/
def Adaptation.eventKind : Adaptation → EventKind
  | .unsupported => .skippedUnsupported
  | _ => .adaptationInserted

/-- How the record of an adaptation begins. -/
def Instruction.adaptationWord : Instruction → String
  | .return _ => "return "
  | _ => ""

/-- The instruction, moving the value of an operand instead. -/
def Instruction.withValue (instruction : Instruction) (operand : Operand) : Instruction :=
  match instruction with
  | .assign place _ => .assign place (.ofOperand operand)
  | .return _ => .return (some operand)
  | other => other

namespace Session

/-- The adaptation that an instruction of a body needs, if any. -/
def planOf? (session : Session) (body : Body) (result : Ty) (instruction : Instruction) :
    Option Adaptation :=
  (body.transfer? result instruction).bind fun (source, target) => session.plan? source target

/-- The instruction needs an adaptation, and there is one. -/
def adapts (session : Session) (body : Body) (result : Ty) (instruction : Instruction) : Bool :=
  match session.planOf? body result instruction with
  | none | some .unsupported => false
  | some _ => true

/-- The instruction needs an adaptation, but there is none. -/
def lacksAdaptation (session : Session) (body : Body) (result : Ty) (instruction : Instruction) : Bool :=
  session.planOf? body result instruction = some .unsupported

/-- What is recorded of an instruction of a method. -/
def repairEvent?
    (session : Session)
    (body : Body)
    (result : Ty)
    (method : String) : Instruction × Nat → Option Event
  | (instruction, index) =>
    (body.transfer? result instruction).bind fun (source, target) =>
      (session.plan? source target).map fun adaptation =>
        if adaptation = .unsupported then
          .located .skippedUnsupported method index
            ("no adaptation from " ++ source.render ++ " to " ++ target.render)
        else
          .located .adaptationInserted method index
            (instruction.adaptationWord ++ source.render ++ " -> " ++ target.render)

/-- The instructions use declared locals only, and agree in their types. -/
def Agree (session : Session) (result : Ty) (body : Body) (steps : List Instruction) : Prop :=
  ∀ step ∈ steps, body.Declares step ∧ session.planOf? body result step = none

/-- What may take the place of an instruction; nothing does if it agrees in its types or there is no
adaptation.  What takes its place ends in the instruction itself, moving another value. -/
inductive Replaces
    (session : Session)
    (result : Ty)
    (before after : Body)
    (instruction : Instruction) : Option (List Instruction) → Prop
  | kept (unsuited : session.adapts before result instruction = false) :
      Replaces session result before after instruction none
  | replaced
      {steps : List Instruction}
      (adapts : session.adapts before result instruction)
      (moves : ∃ front adapted, steps = front ++ [instruction.withValue adapted])
      (agree : session.Agree result after steps) :
      Replaces session result before after instruction (some steps)

end Session

/-! ## Types in a body that grows -/

namespace Body.Widens

variable {body before between after : Body} {result : Ty}

theorem refl (body : Body) : body.Widens body :=
  List.prefix_rfl

theorem trans (first : before.Widens between) (second : between.Widens after) :
    before.Widens after :=
  List.IsPrefix.trans first second

theorem newLocal (body : Body) (stem : String) (type : Ty) :
    body.Widens (body.newLocal stem type).2 :=
  List.prefix_append _ _

variable (widens : before.Widens after)
include widens

theorem length_le : before.locals.length ≤ after.locals.length :=
  List.IsPrefix.length_le widens

theorem declares {instruction : Instruction} (declared : before.Declares instruction) :
    after.Declares instruction :=
  fun id member => Nat.lt_of_lt_of_le (declared id member) widens.length_le

theorem localType?_eq {id : LocalId} (declared : id.index < before.locals.length) :
    after.localType? id = before.localType? id := by
  obtain ⟨others, same⟩ := widens
  rw [localType?, local?, ← same, List.getElem?_append_left declared]
  rfl

theorem operandType?_eq
    {operand : Operand}
    (declared : ∀ id ∈ operand.variable?, id.index < before.locals.length) :
    after.operandType? operand = before.operandType? operand := by
  cases operand with
  | «variable» id => exact widens.localType?_eq (declared id rfl)
  | literal value => rfl

/-- The type of an expression stays what it is. -/
theorem type?_eq
    {expression : Expression}
    (declared : ∀ id ∈ expression.uses, id.index < before.locals.length) :
    after.type? expression = before.type? expression := by
  cases expression with
  | «variable» id => exact widens.localType?_eq (declared id List.mem_cons_self)
  | element base index =>
    rw [type?, widens.localType?_eq (declared base List.mem_cons_self), type?]
  | binary operator left right =>
    exact widens.operandType?_eq fun id member =>
      declared id (List.mem_append_left _ (Option.mem_toList.2 member))
  | _ => rfl

theorem transfer?_eq
    {instruction : Instruction}
    (declared : before.Declares instruction) :
    after.transfer? result instruction = before.transfer? result instruction := by
  cases instruction with
  | assign place value =>
    rw [transfer?, widens.type?_eq fun id member => declared id (List.mem_append_left _ member),
      widens.type?_eq fun id member => declared id (List.mem_append_right _ member), transfer?]
  | «return» operand =>
    cases operand with
    | none => rfl
    | some operand =>
      rw [transfer?, widens.operandType?_eq fun id member =>
        declared id (Option.mem_toList.2 member), transfer?]
  | _ => rfl

theorem planOf?_eq
    {session : Session}
    {instruction : Instruction}
    (declared : before.Declares instruction) :
    session.planOf? after result instruction = session.planOf? before result instruction := by
  rw [Session.planOf?, widens.transfer?_eq declared, Session.planOf?]

end Body.Widens

/-! ## Adaptations -/

/-- What an adaptation starts from and comes to. -/
inductive Adaptation.Bridges (program : Program) : Ty → Ty → Adaptation → Prop
  | unwrap {wrapper : Wrapper} {target : Ty}
      (field : wrapper.arrayField.type = wrapper.arrayType)
      (apart : wrapper.name ≠ stringClass)
      (agrees : program.isAssignable wrapper.arrayType target) :
      Bridges program wrapper.type target (.unwrap wrapper)
  | wrap {wrapper : Wrapper} {source : Ty} : Bridges program source wrapper.type (.wrap wrapper)
  | rewrap {inner outer : Wrapper}
      (field : inner.arrayField.type = inner.arrayType)
      (apart : inner.name ≠ stringClass) :
      Bridges program inner.type outer.type (.rewrap inner outer)

theorem Session.wrapperOfType?_eq_some
    {session : Session}
    {type : Ty}
    {wrapper : Wrapper}
    (built : session.BuiltWrappers)
    (found : session.wrapperOfType? type = some wrapper) :
    type = wrapper.type ∧ wrapper.arrayField.type = wrapper.arrayType ∧ wrapper.name ≠ stringClass := by
  obtain ⟨name, named, known⟩ := Option.bind_eq_some_iff.1 found
  obtain ⟨rfl, field, apart⟩ := built.faithful known
  cases type with
  | object other =>
    cases named
    exact ⟨rfl, field, apart⟩
  | _ => cases named

theorem Session.bridges_of_plan?
    {session : Session}
    {source target : Ty}
    {adaptation : Adaptation}
    (built : session.BuiltWrappers)
    (planned : session.plan? source target = some adaptation)
    (supported : adaptation ≠ .unsupported) :
    adaptation.Bridges session.program source target := by
  unfold plan? at planned
  dsimp only at planned
  split at planned
  · cases planned
  · split at planned
    · rename_i wrapper inner _
      obtain ⟨rfl, field, apart⟩ := wrapperOfType?_eq_some built inner
      split at planned <;> cases planned
      · rename_i agrees
        exact .unwrap field apart (Bool.and_eq_true_iff.1 agrees).2
      · exact absurd rfl supported
    · rename_i wrapper _ outer
      obtain ⟨rfl, -, -⟩ := wrapperOfType?_eq_some built outer
      split at planned <;> cases planned
      · exact .wrap
      · exact absurd rfl supported
    · rename_i inner outer foundInner foundOuter
      obtain ⟨rfl, field, apart⟩ := wrapperOfType?_eq_some built foundInner
      obtain ⟨rfl, -, -⟩ := wrapperOfType?_eq_some built foundOuter
      split at planned <;> cases planned
      · exact .rewrap field apart
      · exact absurd rfl supported
    · cases planned

theorem Session.plan?_eq_none
    {session : Session}
    {source target : Ty}
    (agrees : session.program.isAssignable source target) :
    session.plan? source target = none :=
  if_pos agrees

/-- An assignment of a value to a place of its type needs no adaptation. -/
theorem Session.planOf?_assign_eq_none
    {session : Session}
    {body : Body}
    {source target : Ty}
    (place value : Expression)
    (placed : body.type? place = some target)
    (valued : body.type? value = some source)
    (agrees : session.program.isAssignable source target)
    (result : Ty) :
    session.planOf? body result (.assign place value) = none := by
  rw [planOf?, Body.transfer?, placed, valued]
  exact plan?_eq_none agrees

theorem Body.declared_of_localType?
    {body : Body}
    {id : LocalId}
    {type : Ty}
    (typed : body.localType? id = some type) :
    id.index < body.locals.length := by
  obtain ⟨declaration, found, -⟩ := Option.map_eq_some_iff.1 typed
  exact (List.getElem?_eq_some_iff.1 found).1

theorem Body.declared_of_operandType?
    {body : Body}
    {operand : Operand}
    {type : Ty}
    (typed : body.operandType? operand = some type) :
    ∀ id ∈ operand.variable?, id.index < body.locals.length := by
  cases operand with
  | «variable» source =>
    rintro id ⟨rfl⟩
    exact declared_of_localType? typed
  | literal value =>
    rintro id ⟨⟩

theorem Body.type?_ofOperand (body : Body) (operand : Operand) :
    body.type? (.ofOperand operand) = body.operandType? operand := by
  cases operand <;> rfl

theorem Expression.eq_ofOperand
    {expression : Expression}
    {operand : Operand}
    (direct : expression.operand? = some operand) :
    expression = .ofOperand operand := by
  cases expression with
  | «variable» source =>
    cases direct
    rfl
  | literal value =>
    cases direct
    rfl
  | _ => cases direct

/-- No literal has the type of a wrapper. -/
theorem Constant.type_ne_wrapper
    {wrapper : Wrapper}
    (apart : wrapper.name ≠ stringClass)
    (value : Constant) :
    value.type ≠ wrapper.type := by
  cases value with
  | str text =>
    intro same
    exact apart (Ty.object.inj same).symm
  | _ => exact nofun

namespace Session.Agree

variable {session : Session} {body after : Body} {result : Ty} {steps others : List Instruction}

theorem mono (agree : session.Agree result body steps) (widens : body.Widens after) :
    session.Agree result after steps := by
  intro step member
  obtain ⟨declared, planned⟩ := agree step member
  exact ⟨widens.declares declared, (widens.planOf?_eq declared).trans planned⟩

theorem append
    (agree : session.Agree result body steps)
    (agreeToo : session.Agree result body others) :
    session.Agree result body (steps ++ others) := by
  intro step member
  rcases List.mem_append.1 member with first | second
  · exact agree step first
  · exact agreeToo step second

end Session.Agree

namespace Session.Replaces

variable
    {session : Session}
    {result : Ty}
    {before body after : Body}
    {instruction : Instruction}
    {replacement : Option (List Instruction)}

theorem mono
    (replaces : session.Replaces result before body instruction replacement)
    (widens : body.Widens after) :
    session.Replaces result before after instruction replacement := by
  cases replaces with
  | kept unsuited => exact .kept unsuited
  | replaced adapts moves agree => exact .replaced adapts moves (agree.mono widens)

/-- What takes the place of an instruction can be told from an earlier body. -/
theorem original
    (replaces : session.Replaces result body after instruction replacement)
    (widens : before.Widens body)
    (declared : before.Declares instruction) :
    session.Replaces result before after instruction replacement := by
  have same : session.adapts body result instruction = session.adapts before result instruction := by
    rw [adapts, widens.planOf?_eq declared, adapts]
  cases replaces with
  | kept unsuited => exact .kept (same.symm.trans unsuited)
  | replaced adapts moves agree => exact .replaced (same.symm.trans adapts) moves agree

/-- Nothing of this depends on the events that were recorded. -/
theorem withJournal
    {journal : Journal}
    (replaces :
      ({ session with journal } : Session).Replaces result before after instruction replacement) :
    session.Replaces result before after instruction replacement := by
  cases replaces with
  | kept unsuited => exact .kept unsuited
  | replaced adapts moves agree => exact .replaced adapts moves agree

end Session.Replaces

namespace Draft

variable {Value : Type} {body : Body} {session : Session} {result : Ty} {wrapper : Wrapper}

/-- A local of a type is declared, and what follows may use it. -/
theorem newLocal_bind
    {stem : String}
    {type : Ty}
    {next : LocalId → Draft Value}
    {Holds : Value → Body → Session → Prop}
    (succeeds :
      ∀ id wider, body.Widens wider → wider.localType? id = some type →
        Draft.Succeeds (next id) wider session Holds) :
    Draft.Succeeds (newLocal stem type >>= next) body session Holds := by
  have declares : Draft.Ends (newLocal stem type) body session ⟨body.locals.length⟩
      (body.newLocal stem type).2 session := by
    unfold newLocal
    exact Draft.Ends.body_bind_iff.2 (Draft.Ends.bind_iff.2
      ⟨⟨⟩, _, _, Draft.Ends.set_iff.2 ⟨rfl, rfl⟩, Draft.Ends.pure_iff.2 ⟨rfl, rfl, rfl⟩⟩)
  have typed : (body.newLocal stem type).2.localType? ⟨body.locals.length⟩ = some type := by
    simp [Body.localType?, Body.local?, Body.newLocal]
  obtain ⟨value, bodyAfter, after, ends, holds⟩ := succeeds _ _ (.newLocal body stem type) typed
  exact ⟨value, bodyAfter, after, Draft.Ends.bind_iff.2 ⟨_, _, _, declares, ends⟩, holds⟩

/-- The operand has a type, and the instructions that make it agree. -/
structure Prepares
    (session : Session)
    (result : Ty)
    (body : Body)
    (type : Ty)
    (prepared : Operand × List Instruction)
    (bodyAfter : Body)
    (after : Session) : Prop where
  unchanged : after = session
  widens : body.Widens bodyAfter
  typed : bodyAfter.operandType? prepared.1 = some type
  agree : session.Agree result bodyAfter prepared.2

/-- What is an operand is there without any instruction. -/
theorem Prepares.of_operand
    {operand : Operand}
    {type : Ty}
    (typed : body.operandType? operand = some type) :
    Prepares session result body type (operand, []) body session :=
  ⟨rfl, .refl body, typed, fun _ member => absurd member List.not_mem_nil⟩

/-- A value that is stored in a new local is there as an operand. -/
theorem Prepares.of_stored
    {wider : Body}
    {stored : LocalId}
    {value : Expression}
    {type : Ty}
    (widens : body.Widens wider)
    (typed : wider.localType? stored = some type)
    (declared : ∀ id ∈ value.uses, id.index < body.locals.length)
    (valued : body.type? value = some type) :
    Prepares session result body type (.variable stored, [.assign (.variable stored) value]) wider
      session := by
  refine ⟨rfl, widens, typed, fun step member => ?_⟩
  obtain rfl := List.mem_singleton.1 member
  refine ⟨?_, Session.planOf?_assign_eq_none (.variable stored) value typed
    ((widens.type?_eq declared).trans valued) (Program.isAssignable_refl _ _) result⟩
  intro id used
  rcases List.mem_cons.1 used with rfl | inValue
  · exact Body.declared_of_localType? typed
  · exact Nat.lt_of_lt_of_le (declared id inValue) widens.length_le

theorem unwrapOperand_succeeds
    {operand : Operand}
    (field : wrapper.arrayField.type = wrapper.arrayType)
    (apart : wrapper.name ≠ stringClass)
    (typed : body.operandType? operand = some wrapper.type)
    (result : Ty) :
    Draft.Succeeds (unwrapOperand wrapper operand) body session
      (Prepares session result body wrapper.arrayType) := by
  cases operand with
  | literal value => exact absurd (Option.some.inj typed) (value.type_ne_wrapper apart)
  | «variable» source =>
    have declared :
        ∀ id ∈ (Expression.instanceField source wrapper.arrayField).uses,
          id.index < body.locals.length := by
      intro id used
      obtain rfl := List.mem_singleton.1 used
      exact Body.declared_of_localType? typed
    exact newLocal_bind fun raw wider widens rawTyped =>
      .pure (.of_stored widens rawTyped declared (congrArg some field))

theorem wrapOperand_succeeds
    {operand : Operand}
    {type : Ty}
    (typed : body.operandType? operand = some type)
    (result : Ty) :
    Draft.Succeeds (wrapOperand wrapper operand) body session
      (Prepares session result body wrapper.type) := by
  refine newLocal_bind fun target wider widens targetTyped => .pure ⟨rfl, widens, targetTyped, ?_⟩
  have declared := Body.declared_of_localType? targetTyped
  intro step member
  rcases List.mem_pair.1 member with rfl | rfl
  · refine ⟨?_, Session.planOf?_assign_eq_none (.variable target) (.newObject wrapper.name)
      targetTyped rfl
      (Program.isAssignable_refl _ _) result⟩
    intro id used
    obtain rfl := List.mem_singleton.1 used
    exact declared
  · refine ⟨?_, rfl⟩
    intro id used
    rcases List.mem_cons.1 used with rfl | argument
    · exact declared
    · obtain ⟨other, listed, within⟩ := List.mem_filterMap.1 argument
      obtain rfl := List.mem_singleton.1 listed
      exact Nat.lt_of_lt_of_le (Body.declared_of_operandType? typed id within) widens.length_le

/-- An adaptation from the type of an operand makes another operand, which may stand where the adaptation
leads. -/
theorem adapt_succeeds
    {adaptation : Adaptation}
    {operand : Operand}
    {source target : Ty}
    (bridges : adaptation.Bridges session.program source target)
    (typed : body.operandType? operand = some source)
    (result : Ty) :
    Draft.Succeeds (adapt adaptation operand) body session fun adapted bodyAfter after =>
      ∃ prepared type, adapted = some prepared ∧ session.program.isAssignable type target ∧
        Prepares session result body type prepared bodyAfter after := by
  cases bridges with
  | unwrap field apart agrees =>
    refine (unwrapOperand_succeeds field apart typed result).bind ?_
    intro prepared bodyAfter after prepares
    exact .pure ⟨prepared, _, rfl, agrees, prepares⟩
  | wrap =>
    refine (wrapOperand_succeeds typed result).bind ?_
    intro prepared bodyAfter after prepares
    exact .pure ⟨prepared, _, rfl, Program.isAssignable_refl _ _, prepares⟩
  | rewrap field apart =>
    refine (unwrapOperand_succeeds field apart typed result).bind ?_
    rintro ⟨raw, unwrapping⟩ bodyBetween _ ⟨rfl, widens, rawTyped, agree⟩
    refine (wrapOperand_succeeds rawTyped result).bind ?_
    rintro ⟨wrapped, wrapping⟩ bodyAfter _ ⟨rfl, widensFurther, wrappedTyped, agreeToo⟩
    exact .pure ⟨_, _, rfl, Program.isAssignable_refl _ _,
      ⟨rfl, widens.trans widensFurther, wrappedTyped, (agree.mono widensFurther).append agreeToo⟩⟩

theorem record_succeeds (event : Event) :
    Draft.Succeeds (record event) body session fun _ bodyAfter after =>
      bodyAfter = body ∧ after = { session with journal := session.journal ++ [event] } :=
  ⟨(), body, _, Draft.Ends.record_iff.2 ⟨rfl, rfl⟩, rfl, rfl⟩

/-- After one instruction of a body was looked at. -/
structure Repaired
    (session : Session)
    (result : Ty)
    (method : String)
    (index : Nat)
    (instruction : Instruction)
    (body : Body)
    (replacement : Option (List Instruction))
    (bodyAfter : Body)
    (after : Session) : Prop where
  widens : body.Widens bodyAfter
  recorded :
    after =
      { session with
        journal :=
          session.journal ++ (session.repairEvent? body result method (instruction, index)).toList }
  replaces : session.Replaces result body bodyAfter instruction replacement

variable {method : String} {index : Nat}

/-- The value that was adapted may be stored where it goes. -/
theorem assign_agrees
    {wider : Body}
    {place : Expression}
    {adapted : Operand}
    {type target : Ty}
    (declared : ∀ id ∈ place.uses, id.index < body.locals.length)
    (placed : body.type? place = some target)
    (widens : body.Widens wider)
    (typed : wider.operandType? adapted = some type)
    (agrees : session.program.isAssignable type target) :
    wider.Declares (.assign place (.ofOperand adapted)) ∧
      session.planOf? wider result (.assign place (.ofOperand adapted)) = none := by
  constructor
  · intro id used
    rcases List.mem_append.1 used with inPlace | inValue
    · exact Nat.lt_of_lt_of_le (declared id inPlace) widens.length_le
    · refine Body.declared_of_operandType? typed id ?_
      cases adapted with
      | «variable» source =>
        obtain rfl := List.mem_singleton.1 inValue
        rfl
      | literal value => cases inValue
  · exact Session.planOf?_assign_eq_none _ _ ((widens.type?_eq declared).trans placed)
      ((wider.type?_ofOperand adapted).trans typed) agrees result

/-- The value that was adapted may be returned. -/
theorem return_agrees
    {adapted : Operand}
    {type : Ty}
    (typed : body.operandType? adapted = some type)
    (agrees : session.program.isAssignable type result) :
    body.Declares (.return (some adapted)) ∧
      session.planOf? body result (.return (some adapted)) = none := by
  constructor
  · intro id used
    exact Body.declared_of_operandType? typed id (Option.mem_toList.1 used)
  · rw [Session.planOf?, Body.transfer?, typed]
    exact Session.plan?_eq_none agrees

/-- Where types agree, or have nothing to do with wrappers, nothing happens. -/
theorem Repaired.unplanned
    {instruction : Instruction}
    (unplanned : session.planOf? body result instruction = none) :
    Repaired session result method index instruction body none body session where
  widens := .refl body
  recorded := by
    have silent : session.repairEvent? body result method (instruction, index) = none := by
      cases moved : body.transfer? result instruction with
      | none => simp [Session.repairEvent?, moved]
      | some types =>
        have agrees : session.plan? types.1 types.2 = none := by
          simpa [Session.planOf?, moved] using unplanned
        simp [Session.repairEvent?, moved, agrees]
    rw [silent]
    simp
  replaces := .kept (by simp [Session.adapts, unplanned])

/-- Assignments and returns are adapted in the same way, apart from what is evaluated first. -/
theorem adaptation_succeeds
    {instruction : Instruction}
    {evaluated : Body}
    {operand : Operand}
    {evaluation : List Instruction}
    {source target : Ty}
    {adaptation : Adaptation}
    (method : String)
    (index : Nat)
    (built : session.BuiltWrappers)
    (moves : body.transfer? result instruction = some (source, target))
    (planned : session.plan? source target = some adaptation)
    (prepares : Prepares session result body source (operand, evaluation) evaluated session)
    (message : String)
    (finishes :
      ∀ wider adapted type, body.Widens wider → wider.operandType? adapted = some type →
        session.program.isAssignable type target →
        wider.Declares (instruction.withValue adapted) ∧
          session.planOf? wider result (instruction.withValue adapted) = none)
    (worded : message = instruction.adaptationWord ++ source.render ++ " -> " ++ target.render) :
    Draft.Succeeds
      (do
        match ← adapt adaptation operand with
        | some (adapted, steps) =>
          record (.located .adaptationInserted method index message)
          return some (evaluation ++ steps ++ [instruction.withValue adapted])
        | none =>
          recordUnsupported method index source target
          return none)
      evaluated session (Repaired session result method index instruction body) := by
  have plannedHere : session.planOf? body result instruction = some adaptation := by
    rw [Session.planOf?, moves]
    exact planned
  by_cases supported : adaptation = .unsupported
  · subst supported
    have event :
        session.repairEvent? body result method (instruction, index) =
          some (.located .skippedUnsupported method index
            ("no adaptation from " ++ source.render ++ " to " ++ target.render)) := by
      simp [Session.repairEvent?, moves, planned]
    have nothing :
        Draft.Succeeds (adapt .unsupported operand) evaluated session
          fun adapted bodyAfter after => adapted = none ∧ bodyAfter = evaluated ∧ after = session :=
      .pure ⟨rfl, rfl, rfl⟩
    refine nothing.bind ?_
    rintro _ _ _ ⟨rfl, rfl, rfl⟩
    refine (record_succeeds _).bind ?_
    rintro _ _ _ ⟨rfl, rfl⟩
    refine .pure ⟨prepares.widens, ?_, .kept (by simp [Session.adapts, plannedHere])⟩
    rw [event]
    rfl
  · have event :
        session.repairEvent? body result method (instruction, index) =
          some (.located .adaptationInserted method index message) := by
      simp only [Session.repairEvent?, moves, planned, Option.bind_some, Option.map_some,
        if_neg supported, worded]
    have adapts : session.adapts body result instruction := by
      unfold Session.adapts
      rw [plannedHere]
      cases adaptation with
      | unsupported => exact absurd rfl supported
      | _ => rfl
    refine (adapt_succeeds (session.bridges_of_plan? built planned supported) prepares.typed
      result).bind ?_
    rintro _ _ _ ⟨⟨adapted, steps⟩, type, rfl, agrees, ⟨rfl, widens, typed, agree⟩⟩
    refine (record_succeeds _).bind ?_
    rintro _ wider _ ⟨rfl, rfl⟩
    have widensAll := prepares.widens.trans widens
    have whole := ((prepares.agree.mono widens).append agree).append
      (show Session.Agree _ result wider [instruction.withValue adapted] from fun step member => by
        obtain rfl := List.mem_singleton.1 member
        exact finishes wider adapted type widensAll typed agrees)
    refine .pure ⟨widensAll, ?_, .replaced adapts ⟨_, adapted, rfl⟩ whole⟩
    rw [event]
    rfl

/-- One instruction of a body is repaired. -/
theorem repairInstruction_succeeds
    {instruction : Instruction}
    (result : Ty)
    (method : String)
    (index : Nat)
    (built : session.BuiltWrappers)
    (declared : body.Declares instruction) :
    Draft.Succeeds (repairInstruction result method index instruction) body session
      (Repaired session result method index instruction body) := by
  cases instruction with
  | assign place value =>
    unfold repairInstruction repairAssignment
    apply Draft.Succeeds.body_bind
    have placeDeclared : ∀ id ∈ place.uses, id.index < body.locals.length :=
      fun id member => declared id (List.mem_append_left _ member)
    cases placed : body.type? place with
    | none => exact .pure (.unplanned (by simp [Session.planOf?, Body.transfer?, placed]))
    | some target =>
      cases valued : body.type? value with
      | none => exact .pure (.unplanned (by simp [Session.planOf?, Body.transfer?, placed, valued]))
      | some source =>
        have moves : body.transfer? result (.assign place value) = some (source, target) := by
          simp [Body.transfer?, placed, valued]
        apply Draft.Succeeds.session_bind
        cases planned : session.plan? source target with
        | none => exact .pure (.unplanned (by simpa [Session.planOf?, moves] using planned))
        | some adaptation =>
          have onward
              (prepared : Operand × List Instruction)
              {evaluated : Body}
              (prepares : Prepares session result body source prepared evaluated session) :=
            adaptation_succeeds method index built moves planned prepares
              (source.render ++ " -> " ++ target.render)
              (fun wider adapted type widens typed agrees =>
                assign_agrees placeDeclared placed widens typed agrees)
              (by simp [Instruction.adaptationWord])
          cases direct : value.operand? with
          | some operand =>
            have typed : body.operandType? operand = some source := by
              rw [← body.type?_ofOperand, ← Expression.eq_ofOperand direct]
              exact valued
            exact onward (operand, []) (.of_operand typed)
          | none =>
            have valueDeclared : ∀ id ∈ value.uses, id.index < body.locals.length :=
              fun id member => declared id (List.mem_append_right _ member)
            exact newLocal_bind fun stored wider widens typed =>
              onward (.variable stored, [.assign (.variable stored) value])
                (.of_stored widens typed valueDeclared valued)
  | «return» operand =>
    cases operand with
    | none => exact .pure (.unplanned rfl)
    | some operand =>
      unfold repairInstruction repairReturn
      apply Draft.Succeeds.body_bind
      cases typed : body.operandType? operand with
      | none => exact .pure (.unplanned (by simp [Session.planOf?, Body.transfer?, typed]))
      | some source =>
        have moves : body.transfer? result (.return (some operand)) = some (source, result) := by
          simp [Body.transfer?, typed]
        apply Draft.Succeeds.session_bind
        cases planned : session.plan? source result with
        | none => exact .pure (.unplanned (by simpa [Session.planOf?, moves] using planned))
        | some adaptation =>
          exact adaptation_succeeds method index built moves planned (.of_operand typed) _
            (fun wider adapted type _ adaptedTyped agrees => return_agrees adaptedTyped agrees) rfl
  | _ => exact .pure (.unplanned rfl)

end Draft
end AccessProfiler
