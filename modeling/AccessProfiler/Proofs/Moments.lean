import AccessProfiler.Instrument.Profile
import AccessProfiler.Machine.Execution

/-!
# Moments of a run

At certain moments of a run something can be seen of it: a body is entered, an instruction is run, an
object is allocated, a static field is read or written, the target of a static call is searched.  A
moment shows the machine as it is then, and the calls that are open with what each holds.  The history
of a run lists its moments in order; where the run fails, the history stops.

Each function below goes through one part of a run, and the machines that it shows are those of the run
itself.  At the end, a machine serves one request from outside after the other, whether they fail or not.
-/

namespace AccessProfiler

/-- An open call: the method that runs, what it was given, and what its locals hold. -/
structure Frame where
  method : MethodId
  receiver : Option Datum
  arguments : List Datum
  locals : List Datum
deriving DecidableEq

/-- What happens at a moment. -/
inductive Stage
  /-- The innermost of the open calls starts. -/
  | enters
  /-- An instruction runs; it has just been counted. -/
  | executes (instruction : Instruction)
  /-- An instance of a class is about to be allocated. -/
  | allocates (className : String)
  /-- A static field is about to be read or written. -/
  | touches (access : Access) (field : FieldRef)
  /-- The target of a static call is about to be searched. -/
  | resolves (method : MethodRef)
deriving DecidableEq

/-- The class that has to be initialized for this. -/
def Stage.needed? : Stage → Option String
  | .enters | .executes _ => none
  | .allocates className => some className
  | .touches _ field => some field.owner
  | .resolves method => some method.owner

/-- What happens, during which open calls, the innermost first, and the machine at this point. -/
structure Moment where
  stage : Stage
  frames : List Frame
  machine : Machine
deriving DecidableEq

/-- The histories of calls and initializations, by the open calls and the machine on which they
start. -/
structure Histories where
  invoke : List Frame → CallKind → MethodRef → Option Datum → List Datum → Machine → List Moment
  prepare : List Frame → String → Machine → List Moment

namespace Run

/-- What follows on a part of a run; nothing if the part fails. -/
def onward
    {Value : Type}
    (run : Run Value)
    (machine : Machine)
    (next : Value → Machine → List Moment) : List Moment :=
  match run.on machine with
  | (.ok value, after) => next value after
  | (.error _, _) => []

section Bodies

variable (world : World) (callees : Callees) (histories : Histories) (outer : List Frame)

/-- The history of a call that a body makes. -/
def callHistory (frame : Frame) (machine : Machine) (target : Call) : List Moment :=
  onward (target.receiver.mapM (localValue frame.locals)) machine fun receiver machine =>
    onward (target.arguments.mapM (operandValue frame.locals)) machine fun arguments machine =>
      histories.invoke (frame :: outer) target.kind target.method receiver arguments machine

/-- The history of an access to a static field. -/
def touchHistory
    (frame : Frame)
    (machine : Machine)
    (access : Access)
    (field : FieldRef) : List Moment :=
  let declared := declaredField world.program field
  histories.prepare (frame :: outer) declared.owner machine ++
    onward (callees.prepare declared.owner) machine fun _ prepared =>
      [⟨.touches access declared, frame :: outer, prepared⟩]

/-- The history of the evaluation of an expression. -/
def expressionHistory (frame : Frame) (machine : Machine) : Expression → List Moment
  | .staticField field => touchHistory world callees histories outer frame machine .read field
  | .newObject className =>
    histories.prepare (frame :: outer) className machine ++
      onward (callees.prepare className) machine fun _ prepared =>
        [⟨.allocates className, frame :: outer, prepared⟩]
  | .call target => callHistory histories outer frame machine target
  | _ => []

/-- The history of the storing of a value. -/
def storeHistory (frame : Frame) (machine : Machine) : Expression → List Moment
  | .staticField field => touchHistory world callees histories outer frame machine .write field
  | _ => []

/-- The history of the instructions of a body. -/
def instructionsHistory (frame : Frame) (machine : Machine) : List Instruction → List Moment
  | [] => []
  | instruction :: rest =>
    onward (tick world.limits) machine fun _ machine =>
      ⟨.executes instruction, frame :: outer, machine⟩ ::
        match instruction with
        | .bind target source =>
          onward (boundValue frame.receiver frame.arguments source) machine fun value machine =>
            onward (setLocal frame.locals target value) machine fun locals machine =>
              instructionsHistory { frame with locals } machine rest
        | .assign place expression =>
          expressionHistory world callees histories outer frame machine expression ++
            onward (expressionValue world callees frame.locals expression) machine
              fun value machine =>
                storeHistory world callees histories outer frame machine place ++
                  onward (store world callees frame.locals place value) machine
                    fun locals machine => instructionsHistory { frame with locals } machine rest
        | .invoke target =>
          callHistory histories outer frame machine target ++
            onward (callValue callees frame.locals target) machine fun _ machine =>
              instructionsHistory frame machine rest
        | .return _ => []

/-- The history of a method that is entered. -/
def enterHistory
    (id : MethodId)
    (receiver : Option Datum)
    (arguments : List Datum)
    (machine : Machine) : List Moment :=
  match world.program.body? id with
  | none => []
  | some entered =>
    if 0 < world.limits.depth ∧ world.limits.depth ≤ machine.depth then []
    else
      let zeros := entered.locals.map fun declaration => Datum.zero declaration.type
      let frame : Frame := ⟨id, receiver, arguments, zeros⟩
      let opened := { machine with depth := machine.depth + 1 }
      ⟨.enters, frame :: outer, opened⟩ ::
        instructionsHistory world callees histories outer frame opened entered.instructions

/-- The history of the search for the target of a call: only a static call initializes a class. -/
def startHistory (kind : CallKind) (method : MethodRef) (machine : Machine) : List Moment :=
  match kind with
  | .static =>
    histories.prepare outer method.owner machine ++
      onward (callees.prepare method.owner) machine fun _ prepared =>
        [⟨.resolves method, outer, prepared⟩]
  | _ => []

/-- The history of one call, its own calls left to the callees. -/
def invokeHistory
    (kind : CallKind)
    (method : MethodRef)
    (receiver : Option Datum)
    (arguments : List Datum)
    (machine : Machine) : List Moment :=
  if method.owner = world.sink.owner ∧ method.name = world.sink.method then []
  else if kind ≠ .static ∧ (receiver.getD .null).isNull then []
  else
    startHistory callees histories outer kind method machine ++
      onward (searchStart callees kind method receiver) machine fun start machine =>
        match target? world.program start method with
        | some id => enterHistory world callees histories outer id receiver arguments machine
        | none => []

/-- The history of the initializer of a class, once the class above is initialized. -/
def initializerHistory (className : String) (machine : Machine) : List Moment :=
  match world.program.findMethod? className staticInitializerName [] with
  | some id => enterHistory world callees histories outer id none [] machine
  | none => []

/-- The history of the initialization of one class. -/
def prepareHistory (className : String) (machine : Machine) : List Moment :=
  if machine.initialized.contains className then []
  else
    let marked := { machine with initialized := machine.initialized ++ [className] }
    match world.program.superclass? className with
    | some superclass =>
      histories.prepare outer superclass marked ++
        onward (callees.prepare superclass) marked fun _ above =>
          initializerHistory world callees histories outer className above
    | none => initializerHistory world callees histories outer className marked

end Bodies
end Run

/-- The histories of the calls and initializations that a number of levels allows. -/
def Histories.within (world : World) : Nat → Histories
  | 0 => ⟨fun _ _ _ _ _ _ => [], fun _ _ _ => []⟩
  | levels + 1 =>
    let callees : Callees := ⟨Run.invoke world levels, Run.prepare world levels⟩
    ⟨Run.invokeHistory world callees (within world levels),
      Run.prepareHistory world callees (within world levels)⟩

/-- What a machine is asked from outside. -/
inductive Request
  /-- Run a method, by the name of its class and its own. -/
  | entry (name : String)
  /-- Make a call. -/
  | invoke (kind : CallKind) (method : MethodRef) (receiver : Option Datum) (arguments : List Datum)

namespace Request

/-- Do what is asked. -/
def run (world : World) (levels : Nat) : Request → Run Datum
  | .entry name => Run.entry world levels name
  | .invoke kind method receiver arguments =>
    Run.invoke world levels kind method receiver arguments

/-- The history of what is asked. -/
def history (world : World) (levels : Nat) (machine : Machine) : Request → List Moment
  | .entry name =>
    match Run.entryMethod? world.program name with
    | some method =>
      Run.onward (Run.entryArguments method) machine fun arguments machine =>
        (Histories.within world levels).invoke [] .static method none arguments machine
    | none => []
  | .invoke kind method receiver arguments =>
    (Histories.within world levels).invoke [] kind method receiver arguments machine

end Request

namespace World

variable (world : World) (levels : Nat)

/-- The machine after requests one after the other, each from where the one before stopped. -/
def serve (machine : Machine) : List Request → Machine
  | [] => machine
  | request :: rest => serve ((request.run world levels).on machine).2 rest

/-- The history of requests one after the other. -/
def history (machine : Machine) : List Request → List Moment
  | [] => []
  | request :: rest =>
    request.history world levels machine ++
      history ((request.run world levels).on machine).2 rest

end World
end AccessProfiler
