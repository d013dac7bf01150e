import AccessProfiler.Proofs.StraightRuns

/-!
# Keeping accounts

An account relates what was done to what is on the heap and in the static fields.  Most of what bodies
do leaves an account in order; what an account tolerates is said once (`Account.Tolerates`), and from it
follows what harmless instructions keep (`Run.instructions_keeps`).  Calls and initializations keep an
account in order if the bodies that they enter do, at every number of levels (`Run.within_keeps`).

Nothing here depends on what the account is about.
-/

namespace AccessProfiler

/-- A relation between what was done and the heap and the static fields. -/
abbrev Account := List Act → Heap → FieldTable → Prop

namespace Account

/-- The account is in order on a machine. -/
def On (account : Account) (past : List Act) (machine : Machine) : Prop :=
  account past machine.heap machine.statics

/-- Where nothing is done, nothing is entered. -/
theorem On.idle
    {account : Account}
    {past : List Act}
    {machine : Machine}
    (holds : account.On past machine) :
    account.On (past ++ []) machine := by
  rw [List.append_nil]
  exact holds

/-- An account stays in order if nothing is stored in fields but in free ones, and calls do not
enter it. -/
structure Tolerates (account : Account) (Free FreeStatic : FieldRef → Prop) : Prop where
  write :
    ∀ {past heap statics slot className fields field} (value : Datum), Free field →
      heap.objects[slot]? = some (.instanceOf className fields) → account past heap statics →
      account past (heap.replace slot (.instanceOf className (fields.write field value))) statics
  writeStatic :
    ∀ {past heap statics field} (value : Datum), FreeStatic field → account past heap statics →
      account past heap (statics.write field value)
  writeElement :
    ∀ {past heap statics slot element values} (others : Array Datum),
      heap.objects[slot]? = some (.array element values) → account past heap statics →
      account past (heap.replace slot (.array element others)) statics
  allocateInstance :
    ∀ {past heap statics} (className : String), account past heap statics →
      account past { heap with objects := heap.objects.push (.instanceOf className .empty) } statics
  allocateArray :
    ∀ {past heap statics} (element : Ty) (values : Array Datum), account past heap statics →
      account past { heap with objects := heap.objects.push (.array element values) } statics
  calls :
    ∀ {past heap statics} (actor : Activation) (target : Call) (receiver : Option Datum),
      account past heap statics → account (past ++ [.calls actor target receiver]) heap statics

/-- What is done does not enter the account. -/
def Ignores (account : Account) (act : Act) : Prop :=
  ∀ {past heap statics}, account past heap statics → account (past ++ [act]) heap statics

end Account

/-- Ordinary calls and all initializations keep an account in order. -/
structure Callees.Keeps
    (account : Account)
    (Ordinary : CallKind → MethodRef → Option Datum → Prop)
    (callees : Callees)
    (logs : Logs) : Prop where
  invoke :
    ∀ {kind method receiver arguments before value after past},
      Ordinary kind method receiver → account.On past before →
      Ends (callees.invoke kind method receiver arguments) before value after →
      account.On (past ++ logs.invoke kind method receiver arguments before) after
  prepare :
    ∀ {className before after past}, account.On past before →
      Ends (callees.prepare className) before () after →
      account.On (past ++ logs.prepare className before) after

/-- The call is ordinary whatever its receiver. -/
def Call.Ordinary
    (Ordinary : CallKind → MethodRef → Option Datum → Prop)
    (target : Call) : Prop :=
  ∀ receiver : Option Datum, receiver.isSome = target.receiver.isSome →
    Ordinary target.kind target.method receiver

section Harmless

variable
    (account : Account)
    (Ordinary : CallKind → MethodRef → Option Datum → Prop)
    (Free FreeStatic : FieldRef → Prop)
    (program : Program)
    (actor : Activation)

/-- Whatever the value of the expression is, its evaluation does not enter the account. -/
def Expression.Harmless : Expression → Prop
  | .instanceField _ field =>
    ∀ slot, account.Ignores (.accesses actor .read slot (Run.declaredField program field))
  | .call target => target.Ordinary Ordinary
  | _ => True

/-- Storing in the place does not enter the account. -/
def Expression.HarmlessPlace : Expression → Prop
  | .instanceField _ field =>
    Free (Run.declaredField program field) ∧
      ∀ slot, account.Ignores (.accesses actor .write slot (Run.declaredField program field))
  | .staticField field => FreeStatic (Run.declaredField program field)
  | _ => True

/-- The instruction does not enter the account. -/
def Instruction.Harmless : Instruction → Prop
  | .assign place expression =>
    place.HarmlessPlace account Free FreeStatic program actor ∧
      expression.Harmless account Ordinary program actor
  | .invoke target => target.Ordinary Ordinary
  | _ => True

end Harmless

namespace Run

variable
    {account : Account}
    {Ordinary : CallKind → MethodRef → Option Datum → Prop}
    {Free FreeStatic : FieldRef → Prop}
    {world : World}
    {callees : Callees}
    {logs : Logs}
    {actor : Activation}
    {locals changed : List Datum}
    {receiver : Option Datum}
    {arguments : List Datum}
    {before between after : Machine}
    {value : Datum}
    {past : List Act}

theorem callLog_keeps
    (tolerates : account.Tolerates Free FreeStatic)
    (keeps : callees.Keeps account Ordinary logs)
    {target : Call}
    (ordinary : target.Ordinary Ordinary)
    (holds : account.On past before)
    (evaluates : Evaluates world callees locals before value after (.call target)) :
    account.On (past ++ callLog logs actor locals target before) after := by
  obtain ⟨receiver, arguments, received, evaluated, called⟩ := evaluates
  have same : receiver.isSome = target.receiver.isSome := by
    cases given : target.receiver with
    | none =>
      rw [given] at received
      cases received
      rfl
    | some id =>
      rw [given] at received
      obtain ⟨datum, -, rfl⟩ := Option.map_eq_some_iff.1 received
      rfl
  rw [callLog_of_evaluated received evaluated, List.append_cons]
  exact keeps.invoke (ordinary receiver same) (tolerates.calls _ _ _ holds) called

theorem Evaluates.keeps
    (tolerates : account.Tolerates Free FreeStatic)
    (keeps : callees.Keeps account Ordinary logs)
    {expression : Expression}
    (harmless : expression.Harmless account Ordinary world.program actor)
    (holds : account.On past before)
    (evaluates : Evaluates world callees locals before value after expression) :
    account.On (past ++ valueLog world logs actor locals before expression) after := by
  cases expression with
  | instanceField base field =>
    obtain ⟨slot, refers, -, rfl⟩ := evaluates
    rw [valueLog, accessLog_of_reference refers]
    exact harmless slot holds
  | staticField field => exact keeps.prepare holds evaluates.1
  | newObject className =>
    obtain ⟨prepared, slot, heap, ready, allocated, -, rfl⟩ := evaluates
    obtain ⟨-, -, rfl⟩ := Heap.allocate_eq_ok.1 allocated
    exact tolerates.allocateInstance className (keeps.prepare holds ready)
  | newArray content size =>
    obtain ⟨length, slot, heap, -, -, allocated, -, rfl⟩ := evaluates
    obtain ⟨-, -, rfl⟩ := Heap.allocate_eq_ok.1 allocated
    refine Account.On.idle ?_
    exact tolerates.allocateArray content _ holds
  | call target => exact callLog_keeps tolerates keeps harmless holds evaluates
  | «variable» source =>
    obtain ⟨-, rfl⟩ := evaluates
    exact holds.idle
  | literal constant =>
    obtain ⟨-, rfl⟩ := evaluates
    exact holds.idle
  | element base index =>
    obtain ⟨-, -, -, -, -, rfl⟩ := evaluates
    exact holds.idle
  | length base =>
    obtain ⟨-, -, -, -, -, rfl⟩ := evaluates
    exact holds.idle
  | binary operator left right =>
    obtain ⟨-, -, -, -, -, rfl⟩ := evaluates
    exact holds.idle

theorem Stores.keeps
    (tolerates : account.Tolerates Free FreeStatic)
    (keeps : callees.Keeps account Ordinary logs)
    {place : Expression}
    (harmless : place.HarmlessPlace account Free FreeStatic world.program actor)
    (holds : account.On past before)
    (stores : Stores world callees locals value before changed after place) :
    account.On (past ++ placeLog world logs actor locals before place) after := by
  cases place with
  | «variable» target =>
    obtain ⟨-, -, rfl⟩ := stores
    exact holds.idle
  | instanceField base field =>
    obtain ⟨slot, heap, refers, written, -, rfl⟩ := stores
    obtain ⟨className, fields, located, rfl⟩ := Heap.writeField_eq_ok.1 written
    rw [placeLog, accessLog_of_reference refers]
    exact tolerates.write value harmless.1 located (harmless.2 slot holds)
  | staticField field =>
    obtain ⟨prepared, ready, -, rfl⟩ := stores
    exact tolerates.writeStatic value harmless (keeps.prepare holds ready)
  | element base index =>
    obtain ⟨slot, position, heap, -, -, written, -, rfl⟩ := stores
    obtain ⟨element, values, spot, located, -, rfl⟩ := Heap.writeElement_eq_ok.1 written
    refine Account.On.idle ?_
    exact tolerates.writeElement _ located holds
  | _ => exact stores.elim

/-- Harmless instructions in a row keep an account in order. -/
theorem Passes.keeps
    (tolerates : account.Tolerates Free FreeStatic)
    (keeps : callees.Keeps account Ordinary logs)
    {list : List Instruction}
    (harmless :
      ∀ instruction ∈ list,
        instruction.Harmless account Ordinary Free FreeStatic world.program actor)
    {acts : List Act}
    (holds : account.On past before)
    (passes : Passes world callees logs actor arguments locals before changed after acts list) :
    account.On (past ++ acts) after := by
  induction list generalizing locals before past acts with
  | nil =>
    obtain ⟨-, rfl, rfl⟩ := passes
    exact holds.idle
  | cons instruction rest hypothesis =>
    obtain ⟨next, between, first, others, steps, passes, rfl⟩ := passes
    rw [← List.append_assoc]
    refine hypothesis (fun other member => harmless other (List.mem_cons_of_mem _ member)) ?_ passes
    have start : account.On past (counted before) := holds
    have here := harmless instruction List.mem_cons_self
    cases instruction with
    | bind target source =>
      obtain ⟨given, -, -, -, rfl, rfl⟩ := steps
      exact start.idle
    | assign place expression =>
      obtain ⟨value, middle, evaluates, stores, rfl⟩ := steps
      rw [← List.append_assoc]
      exact stores.keeps tolerates keeps here.1 (evaluates.keeps tolerates keeps here.2 start)
    | invoke target =>
      obtain ⟨value, evaluates, -, rfl⟩ := steps
      exact callLog_keeps tolerates keeps here start evaluates
    | «return» operand => exact steps.elim

/-- Harmless instructions keep an account in order. -/
theorem instructions_keeps
    (tolerates : account.Tolerates Free FreeStatic)
    (keeps : callees.Keeps account Ordinary logs)
    {list : List Instruction}
    (harmless :
      ∀ instruction ∈ list,
        instruction.Harmless account Ordinary Free FreeStatic world.program actor)
    (holds : account.On past before)
    (ends :
      Ends (instructions world callees actor.receiver arguments locals list) before value after) :
    account.On
      (past ++ instructionsLog world callees logs actor arguments locals before list) after := by
  obtain ⟨changed, between, passes, heap, statics⟩ := passes_of_ends logs ends
  rw [Account.On, heap, statics]
  exact passes.keeps tolerates keeps
    (fun instruction member => harmless instruction (mem_of_mem_reached member)) holds

/-- A method that is entered keeps an account in order if its body does. -/
theorem enter_keeps
    {id : MethodId}
    {method : MethodRef}
    (body :
      ∀ {entered : Body} {opened inner : Machine}, world.program.body? id = some entered →
        account.On past opened →
        Ends
          (instructions world callees receiver arguments
            (entered.locals.map fun declaration => .zero declaration.type) entered.instructions)
          opened value inner →
        account.On
          (past ++
            instructionsLog world callees logs ⟨id, receiver⟩ arguments
              (entered.locals.map fun declaration => .zero declaration.type) opened
              entered.instructions)
          inner)
    (holds : account.On past before)
    (ends : Ends (enter world callees id method receiver arguments) before value after) :
    account.On (past ++ enterLog world callees logs ⟨id, receiver⟩ arguments before) after := by
  obtain ⟨entered, inner, found, -, ran, rfl⟩ := ends_enter.1 ends
  have opened : account.On past { before with depth := before.depth + 1 } := holds
  rw [enterLog_of_body? found]
  have closed := body found opened ran
  exact closed

/-- A call keeps an account in order if the method that it enters does. -/
theorem invokeStep_keeps
    (keeps : callees.Keeps account Ordinary logs)
    {kind : CallKind}
    {method : MethodRef}
    (enters :
      ∀ {id : MethodId} {started : Machine} {past : List Act}, ¬ CallsSink world method →
        target? world.program (startClass before.heap method kind receiver) method = some id →
        account.On past started →
        Ends (enter world callees id method receiver arguments) started value after →
        account.On (past ++ enterLog world callees logs ⟨id, receiver⟩ arguments started) after)
    (holds : account.On past before)
    (ends : Ends (invokeStep world callees kind method receiver arguments) before value after) :
    account.On (past ++ invokeLog world callees logs kind method receiver arguments before)
      after := by
  rcases ends_invokeStep.1 ends with
    ⟨sinks, line, -, -, rfl⟩ | ⟨elsewhere, -, start, started, starts, reaches⟩
  · rw [invokeLog_of_callsSink sinks, List.append_nil]
    exact holds
  · rw [invokeLog_of_starts elsewhere starts, ← List.append_assoc]
    have begun : account.On (past ++ startLog logs kind method before) started := by
      rcases starts.cases.2 with ⟨rfl, prepared⟩ | ⟨dynamic, rfl⟩
      · exact keeps.prepare holds prepared
      · have nothing : startLog logs kind method started = [] := by
          cases kind <;> first | rfl | exact absurd rfl dynamic
        rw [nothing, List.append_nil]
        exact holds
    cases found : target? world.program start method with
    | none =>
      rw [found] at reaches
      obtain ⟨-, -, -, rfl⟩ := reaches
      rw [Option.elim_none]
      exact begun.idle
    | some id =>
      rw [found] at reaches
      rw [Option.elim_some]
      rw [starts.cases.1] at found
      exact enters elsewhere found begun reaches

/-- An initialization keeps an account in order if initializers do. -/
theorem prepareStep_keeps
    (keeps : callees.Keeps account Ordinary logs)
    {className : String}
    (enters :
      ∀ {id : MethodId} {above : Machine} {value : Datum} {past : List Act},
        world.program.findMethod? className staticInitializerName [] = some id →
        account.On past above →
        Ends (enter world callees id ⟨className, staticInitializerName, [], .void⟩ none []) above
          value after →
        account.On (past ++ enterLog world callees logs ⟨id, none⟩ [] above) after)
    (holds : account.On past before)
    (ends : Ends (prepareStep world callees className) before () after) :
    account.On (past ++ prepareLog world callees logs className before) after := by
  rcases ends_prepareStep.1 ends with ⟨initialized, rfl⟩ | ⟨unknown, above, ready, initializes⟩
  · rw [prepareLog_of_initialized initialized, List.append_nil]
    exact holds
  · rw [prepareLog_of_initializesAbove unknown ready, ← List.append_assoc]
    have marked :
        account.On past { before with initialized := before.initialized ++ [className] } :=
      holds
    have begun :
        account.On
          (past ++ aboveLog world logs className
            { before with initialized := before.initialized ++ [className] })
          above := by
      rw [aboveLog]
      cases found : world.program.superclass? className with
      | none =>
        rw [(initializesAbove_of_none found).1 ready, Option.elim_none, List.append_nil]
        exact marked
      | some superclass =>
        exact keeps.prepare marked ((initializesAbove_of_some found).1 ready)
    rw [initializerLog]
    cases found : world.program.findMethod? className staticInitializerName [] with
    | none =>
      rw [(initializes_of_none found).1 initializes, List.append_nil]
      exact begun
    | some id =>
      cases bodied : world.program.body? id with
      | none =>
        have nothing : enterLog world callees logs ⟨id, none⟩ [] above = [] := by
          rw [enterLog, bodied]
        rw [(initializes_of_body?_none found bodied).1 initializes]
        dsimp only
        rw [nothing]
        exact begun.idle
      | some entered =>
        obtain ⟨value, enters'⟩ := (initializes_of_body?_some found bodied).1 initializes
        exact enters found begun enters'

/-- A run from outside keeps an account in order if the call that it makes does. -/
theorem entryStep_keeps
    (tolerates : account.Tolerates Free FreeStatic)
    (called :
      ∀ {method : MethodRef} {arguments : List Datum} {before after : Machine} {value : Datum}
        {past : List Act},
        account.On past before → Ends (callees.invoke .static method none arguments) before value after →
          account.On (past ++ logs.invoke .static method none arguments before) after)
    {name : String}
    (holds : account.On past before)
    (ends : Ends (entryStep world callees name) before value after) :
    account.On (past ++ entryLog world logs name before) after := by
  obtain ⟨method, given, started, found, passed, calls⟩ := ends_entryStep.1 ends
  rw [entryLog_of_started found passed]
  refine called ?_ calls
  unfold GivenFromOutside at passed
  split at passed
  · exact passed.2 ▸ holds
  · obtain ⟨slot, heap, allocated, -, rfl⟩ := passed
    obtain ⟨-, -, rfl⟩ := Heap.allocate_eq_ok.1 allocated
    exact tolerates.allocateArray _ _ holds
  · exact passed.elim

/-- What a method may be entered for. -/
abbrev Admission := MethodId → Option Datum → Prop

/-- At every number of levels calls and initializations keep an account in order if the bodies do.
What bodies may count on besides is known of each level from the level below. -/
theorem within_keeps
    (Known : Callees → Logs → Prop)
    (Admits : Admission)
    (bodies :
      ∀ {callees : Callees} {logs : Logs} {id : MethodId} {entered : Body} {receiver : Option Datum}
        {arguments : List Datum} {before after : Machine} {value : Datum} {past : List Act},
        callees.Keeps account Ordinary logs → Known callees logs → Admits id receiver →
        world.program.body? id = some entered → account.On past before →
        Ends
          (instructions world callees receiver arguments
            (entered.locals.map fun declaration => .zero declaration.type) entered.instructions)
          before value after →
        account.On
          (past ++
            instructionsLog world callees logs ⟨id, receiver⟩ arguments
              (entered.locals.map fun declaration => .zero declaration.type) before
              entered.instructions)
          after)
    (targets :
      ∀ {kind : CallKind} {method : MethodRef} {receiver : Option Datum} {start : String}
        {id : MethodId},
        Ordinary kind method receiver → ¬ CallsSink world method →
        target? world.program start method = some id → Admits id receiver)
    (initializers :
      ∀ {className : String} {id : MethodId},
        world.program.findMethod? className staticInitializerName [] = some id → Admits id none)
    (first : Known (.within world 0) (.within world 0))
    (next :
      ∀ levels, (Callees.within world levels).Keeps account Ordinary (.within world levels) →
        Known (.within world levels) (.within world levels) →
        Known (.within world (levels + 1)) (.within world (levels + 1)))
    (levels : Nat) :
    (Callees.within world levels).Keeps account Ordinary (.within world levels) ∧
      Known (.within world levels) (.within world levels) := by
  induction levels with
  | zero =>
    exact ⟨⟨fun _ _ ends => absurd ends Ends.not_throw, fun _ ends => absurd ends Ends.not_throw⟩,
      first⟩
  | succ levels hypothesis =>
    obtain ⟨keeps, known⟩ := hypothesis
    refine ⟨⟨?_, ?_⟩, next levels keeps known⟩
    · intro kind method receiver arguments before value after past ordinary holds ends
      refine invokeStep_keeps keeps (fun elsewhere found holds ends => ?_) holds ends
      exact enter_keeps
        (fun present opened ran =>
          bodies keeps known (targets ordinary elsewhere found) present opened ran)
        holds ends
    · intro className before after past holds ends
      refine prepareStep_keeps keeps (fun found holds ends => ?_) holds ends
      exact enter_keeps
        (fun present opened ran => bodies keeps known (initializers found) present opened ran)
        holds ends

/-- Calls only let the heap grow: that it has grown from what it was is an account that tolerates
everything. -/
theorem within_grows
    {kind : CallKind}
    {method : MethodRef}
    (levels : Nat)
    (ends :
      Ends ((Callees.within world levels).invoke kind method receiver arguments) before value after) :
    before.heap.Grows after.heap := by
  let growing : Account := fun _ heap _ => before.heap.Grows heap
  have tolerates : growing.Tolerates (fun _ => True) fun _ => True :=
    { write := fun _ _ located grows => grows.trans (.replace located rfl)
      writeStatic := fun _ _ grows => grows
      writeElement := fun _ located grows => grows.trans (.replace located rfl)
      allocateInstance := fun _ grows => grows.trans (.push _ _)
      allocateArray := fun _ _ grows => grows.trans (.push _ _)
      calls := fun _ _ _ grows => grows }
  have harmless (actor : Activation) (instruction : Instruction) :
      instruction.Harmless growing (fun _ _ _ => True) (fun _ => True) (fun _ => True)
        world.program actor := by
    cases instruction with
    | assign place expression =>
      constructor
      · cases place with
        | instanceField base field => exact ⟨trivial, fun _ {_ _ _} grows => grows⟩
        | _ => trivial
      · cases expression with
        | instanceField base field => exact fun _ {_ _ _} grows => grows
        | call target => exact fun _ _ => trivial
        | _ => trivial
    | invoke target => exact fun _ _ => trivial
    | _ => trivial
  have keeps : (Callees.within world levels).Keeps growing (fun _ _ _ => True) (.within world levels) :=
    (within_keeps (fun _ _ => True) (fun _ _ => True)
      (fun keeps _ _ _ holds ends =>
        instructions_keeps tolerates keeps (fun _ _ => harmless _ _) holds ends)
      (fun _ _ _ => trivial) (fun _ => trivial) trivial (fun _ _ _ => trivial) levels).1
  have start : growing.On [] before := Heap.Grows.refl before.heap
  exact keeps.invoke trivial start ends

end Run
end AccessProfiler
