import AccessProfiler.Instrument.Profile
import AccessProfiler.Proofs.Completion

/-!
# What a run does

The machine keeps no record of what the bodies that it runs do.  Here a record is read off a run: each
access of an assignment to a field of an object and each call, in order, with the method whose body it
is and the receiver for which the method runs (`Act`).  Each function below goes through one part of a
run.  The states that it goes through are those of the machine itself, so there is no second machine
that would have to agree with the first; where the run fails, the record stops.
-/

namespace AccessProfiler

/-- A method that runs, and its receiver if it has one. -/
structure Activation where
  method : MethodId
  receiver : Option Datum
deriving DecidableEq

/-- Something that a body does. -/
inductive Act
  /-- An assignment reads or writes a field of an object. -/
  | accesses (actor : Activation) (access : Access) (slot : Nat) (field : FieldRef)
  /-- A call is made, on a receiver if it has one. -/
  | calls (actor : Activation) (target : Call) (receiver : Option Datum)
deriving DecidableEq

/-- What is done during calls and initializations, by the machine on which they start. -/
structure Logs where
  invoke : CallKind → MethodRef → Option Datum → List Datum → Machine → List Act
  prepare : String → Machine → List Act

namespace Run

/-- What is done after a part of a run; nothing if the part fails. -/
def afterwards
    {Value : Type}
    (run : Run Value)
    (machine : Machine)
    (next : Value → Machine → List Act) : List Act :=
  match run.on machine with
  | (.ok value, after) => next value after
  | (.error _, _) => []

theorem afterwards_of_ends
    {Value : Type}
    {run : Run Value}
    {before after : Machine}
    {value : Value}
    (ends : Ends run before value after)
    (next : Value → Machine → List Act) :
    afterwards run before next = next value after := by
  have computed : run.on before = (.ok value, after) := ends
  rw [afterwards, computed]

section Logs

variable (world : World) (callees : Callees) (logs : Logs) (actor : Activation)

/-- An access to a field of the object in a local. -/
def accessLog
    (access : Access)
    (locals : List Datum)
    (base : LocalId)
    (field : FieldRef) : List Act :=
  match locals[base.index]? with
  | some (.reference slot) => [.accesses actor access slot (declaredField world.program field)]
  | _ => []

/-- A call, and what is done during it. -/
def callLog (locals : List Datum) (target : Call) (machine : Machine) : List Act :=
  match target.receiver.mapM (fun id => locals[id.index]?),
    target.arguments.mapM (Operand.value? locals) with
  | some receiver, some arguments =>
    .calls actor target receiver ::
      logs.invoke target.kind target.method receiver arguments machine
  | _, _ => []

/-- What is done for the value of an expression. -/
def valueLog (locals : List Datum) (machine : Machine) : Expression → List Act
  | .instanceField base field => accessLog world actor .read locals base field
  | .staticField field => logs.prepare (declaredField world.program field).owner machine
  | .newObject className => logs.prepare className machine
  | .call target => callLog logs actor locals target machine
  | _ => []

/-- What is done to store a value. -/
def placeLog (locals : List Datum) (machine : Machine) : Expression → List Act
  | .instanceField base field => accessLog world actor .write locals base field
  | .staticField field => logs.prepare (declaredField world.program field).owner machine
  | _ => []

/-- What the instructions of a body do. -/
def instructionsLog
    (arguments : List Datum)
    (locals : List Datum)
    (machine : Machine) : List Instruction → List Act
  | [] => []
  | .bind target source :: rest =>
    match passed? actor.receiver arguments source with
    | some given => instructionsLog arguments (locals.set target.index given) (counted machine) rest
    | none => []
  | .assign place expression :: rest =>
    valueLog world logs actor locals (counted machine) expression ++
      afterwards (expressionValue world callees locals expression) (counted machine)
        fun value between =>
          placeLog world logs actor locals between place ++
            afterwards (store world callees locals place value) between
              fun changed stored => instructionsLog arguments changed stored rest
  | .invoke target :: rest =>
    callLog logs actor locals target (counted machine) ++
      afterwards (callValue callees locals target) (counted machine)
        fun _ after => instructionsLog arguments locals after rest
  | .return _ :: _ => []

end Logs

section Calls

variable (world : World) (callees : Callees) (logs : Logs)

/-- What is done in a method that is entered. -/
def enterLog (actor : Activation) (arguments : List Datum) (machine : Machine) : List Act :=
  match world.program.body? actor.method with
  | some entered =>
    instructionsLog world callees logs actor arguments
      (entered.locals.map fun declaration => .zero declaration.type)
      { machine with depth := machine.depth + 1 } entered.instructions
  | none => []

/-- What is done before the target of a call is searched. -/
def startLog (kind : CallKind) (method : MethodRef) (machine : Machine) : List Act :=
  match kind with
  | .static => logs.prepare method.owner machine
  | _ => []

/-- What is done during one call, its own calls left to the callees. -/
def invokeLog
    (kind : CallKind)
    (method : MethodRef)
    (receiver : Option Datum)
    (arguments : List Datum)
    (machine : Machine) : List Act :=
  if method.owner = world.sink.owner ∧ method.name = world.sink.method then []
  else
    startLog logs kind method machine ++
      afterwards (searchStart callees kind method receiver) machine fun start started =>
        match target? world.program start method with
        | some id => enterLog world callees logs ⟨id, receiver⟩ arguments started
        | none => []

/-- What is done by the initializer of a class. -/
def initializerLog (className : String) (machine : Machine) : List Act :=
  match world.program.findMethod? className staticInitializerName [] with
  | some id => enterLog world callees logs ⟨id, none⟩ [] machine
  | none => []

/-- What is done during the initialization of one class. -/
def prepareLog (className : String) (machine : Machine) : List Act :=
  if machine.initialized.contains className then []
  else
    let marked := { machine with initialized := machine.initialized ++ [className] }
    match world.program.superclass? className with
    | some superclass =>
      logs.prepare superclass marked ++
        afterwards (callees.prepare superclass) marked fun _ above =>
          initializerLog world callees logs className above
    | none => initializerLog world callees logs className marked

/-- What is done during a run of a method from outside. -/
def entryLog (name : String) (machine : Machine) : List Act :=
  match entryMethod? world.program name with
  | some method =>
    afterwards (entryArguments method) machine fun arguments started =>
      logs.invoke .static method none arguments started
  | none => []

end Calls
end Run

/-- What is done during the calls and initializations that a number of levels allows. -/
def Logs.within (world : World) : Nat → Logs
  | 0 => ⟨fun _ _ _ _ _ => [], fun _ _ => []⟩
  | levels + 1 =>
    ⟨Run.invokeLog world (.within world levels) (within world levels),
      Run.prepareLog world (.within world levels) (within world levels)⟩

/-- A run of an entry ends normally, and this is what its bodies do. -/
def World.CompletesDoing
    (world : World)
    (name : String)
    (before : Machine)
    (acts : List Act)
    (value : Datum)
    (after : Machine) : Prop :=
  ∃ levels, Ends (Run.entry world levels name) before value after ∧
    acts = Run.entryLog world (.within world levels) name before

namespace Run

variable
    {world : World}
    {callees : Callees}
    {logs : Logs}
    {actor : Activation}
    {locals : List Datum}
    {receiver : Option Datum}
    {arguments : List Datum}
    {before between after : Machine}
    {rest : List Instruction}

theorem callLog_of_evaluated
    {target : Call}
    (received : target.receiver.mapM (fun id => locals[id.index]?) = some receiver)
    (evaluated : target.arguments.mapM (Operand.value? locals) = some arguments) :
    callLog logs actor locals target before =
      .calls actor target receiver ::
        logs.invoke target.kind target.method receiver arguments before := by
  rw [callLog, received, evaluated]

theorem accessLog_of_reference
    {access : Access}
    {base : LocalId}
    {slot : Nat}
    (refers : locals[base.index]? = some (.reference slot))
    (field : FieldRef) :
    accessLog world actor access locals base field =
      [.accesses actor access slot (declaredField world.program field)] := by
  rw [accessLog, refers]

theorem instructionsLog_bind
    {target : LocalId}
    {source : Binding}
    {given : Datum}
    (bound : passed? actor.receiver arguments source = some given) :
    instructionsLog world callees logs actor arguments locals before (.bind target source :: rest) =
      instructionsLog world callees logs actor arguments (locals.set target.index given)
        (counted before) rest := by
  rw [instructionsLog, bound]

theorem instructionsLog_assign
    {place expression : Expression}
    {value : Datum}
    {changed : List Datum}
    {stored : Machine}
    (evaluates : Evaluates world callees locals (counted before) value between expression)
    (stores : Stores world callees locals value between changed stored place) :
    instructionsLog world callees logs actor arguments locals before
        (.assign place expression :: rest) =
      valueLog world logs actor locals (counted before) expression ++
        (placeLog world logs actor locals between place ++
          instructionsLog world callees logs actor arguments changed stored rest) := by
  rw [instructionsLog, afterwards_of_ends (ends_expressionValue.2 evaluates),
    afterwards_of_ends (ends_store.2 stores)]

theorem instructionsLog_invoke
    {target : Call}
    {value : Datum}
    (evaluates : Evaluates world callees locals (counted before) value between (.call target)) :
    instructionsLog world callees logs actor arguments locals before (.invoke target :: rest) =
      callLog logs actor locals target (counted before) ++
        instructionsLog world callees logs actor arguments locals between rest := by
  have ends : Ends (callValue callees locals target) (counted before) value between :=
    ends_callValue.2 evaluates
  rw [instructionsLog, afterwards_of_ends ends]

theorem enterLog_of_body?
    {entered : Body}
    (found : world.program.body? actor.method = some entered) :
    enterLog world callees logs actor arguments before =
      instructionsLog world callees logs actor arguments
        (entered.locals.map fun declaration => .zero declaration.type)
        { before with depth := before.depth + 1 } entered.instructions := by
  rw [enterLog, found]

theorem invokeLog_of_callsSink
    {kind : CallKind}
    {method : MethodRef}
    (sinks : CallsSink world method) :
    invokeLog world callees logs kind method receiver arguments before = [] :=
  if_pos sinks

theorem invokeLog_of_starts
    {kind : CallKind}
    {method : MethodRef}
    {start : String}
    {started : Machine}
    (elsewhere : ¬ CallsSink world method)
    (starts : Starts callees method before start started kind receiver) :
    invokeLog world callees logs kind method receiver arguments before =
      startLog logs kind method before ++
        (target? world.program start method).elim []
          fun id => enterLog world callees logs ⟨id, receiver⟩ arguments started := by
  have other : ¬ (method.owner = world.sink.owner ∧ method.name = world.sink.method) := elsewhere
  rw [invokeLog, if_neg other, afterwards_of_ends (ends_searchStart.2 starts)]
  cases target? world.program start method <;> rfl

theorem prepareLog_of_initialized
    {className : String}
    (initialized : className ∈ before.initialized) :
    prepareLog world callees logs className before = [] :=
  if_pos (List.contains_iff_mem.2 initialized)

/-- What is done to initialize the class above. -/
def aboveLog (world : World) (logs : Logs) (className : String) (machine : Machine) : List Act :=
  (world.program.superclass? className).elim [] fun superclass => logs.prepare superclass machine

theorem prepareLog_of_initializesAbove
    {className : String}
    {above : Machine}
    (unknown : className ∉ before.initialized)
    (ready :
      InitializesAbove world callees className
        { before with initialized := before.initialized ++ [className] } above) :
    prepareLog world callees logs className before =
      aboveLog world logs className
          { before with initialized := before.initialized ++ [className] } ++
        initializerLog world callees logs className above := by
  have first : ¬ before.initialized.contains className = true := by
    rw [List.contains_iff_mem]
    exact unknown
  rw [prepareLog, if_neg first, aboveLog]
  cases found : world.program.superclass? className with
  | none =>
    rw [(initializesAbove_of_none found).1 ready]
    rfl
  | some superclass =>
    exact congrArg _ (afterwards_of_ends ((initializesAbove_of_some found).1 ready) _)

theorem entryLog_of_started
    {name : String}
    {method : MethodRef}
    {started : Machine}
    (found : entryMethod? world.program name = some method)
    (given : GivenFromOutside before arguments started method.parameters) :
    entryLog world logs name before = logs.invoke .static method none arguments started := by
  rw [entryLog, found]
  exact afterwards_of_ends (ends_entryArguments.2 given) _

end Run
end AccessProfiler
