import AccessProfiler.Proofs.NumberedRuns
import Mathlib.Logic.Relation

/-!
# Construction of objects

Programs that construct objects as compilers make them do: a constructor binds its receiver to a local
that it keeps, and calls one other constructor on it, of its own class or of the superclass
(`Program.ConstructsOnce`).  What a run may do besides is said of what is recorded of it: constructors
call constructors on their receivers in no other way, and each instance is constructed once from outside
(`Program.BuildsOnce`).

Such a run gives an object one number in each instrumented class that it inherits from.  For this the
numbers are balanced against the constructor calls from outside (`Numbering.Balanced`).
-/

namespace AccessProfiler

/-- The instruction calls a constructor on the object in the local. -/
def Instruction.constructsThrough (this : LocalId) (instruction : Instruction) : Bool :=
  instruction.call?.any fun target =>
    target.receiver == some this && target.method.name == constructorName

/-- The instructions before the first that is no binding. -/
def Body.prologue (body : Body) : Body :=
  { body with instructions := body.bindings }

namespace Program

/-- The constructor is one that the class itself or its superclass declares or, where no superclass is
registered, that of the root class. -/
def ContinuesConstruction (program : Program) (owner : String) (method : MethodRef) : Prop :=
  ((method.owner = owner ∨ program.superclass? owner = some method.owner) ∧
    (program.findMethod? method.owner method.name method.parameters).isSome) ∨
  method.owner = objectClass ∧ ((program.superclass? owner).bind program.class?).isNone

instance (program : Program) (owner : String) (method : MethodRef) :
    Decidable (program.ContinuesConstruction owner method) :=
  inferInstanceAs (Decidable (_ ∨ _))

/-- The body binds its receiver to a local of its own that it never assigns again, and makes one call of a
constructor through it. -/
structure Constructs
    (program : Program)
    (owner : String)
    (this : LocalId)
    (target : Call)
    (body : Body) : Prop where
  receives : body.prologue.receiver? = some this
  declared : (body.local? this).isSome
  keeps : body.instructions.countP (fun instruction => instruction.assigned? = some this) = 1
  once : body.instructions.filter (·.constructsThrough this) = [.invoke target]
  reached : .invoke target ∈ Run.reached body.instructions
  continues : program.ContinuesConstruction owner target.method

instance
    (program : Program)
    (owner : String)
    (this : LocalId)
    (target : Call)
    (body : Body) :
    Decidable (program.Constructs owner this target body) :=
  decidable_of_iff
    (body.prologue.receiver? = some this ∧
      (body.local? this).isSome ∧
      body.instructions.countP (fun instruction => instruction.assigned? = some this) = 1 ∧
      body.instructions.filter (·.constructsThrough this) = [.invoke target] ∧
      .invoke target ∈ Run.reached body.instructions ∧
      program.ContinuesConstruction owner target.method)
    ⟨fun ⟨receives, declared, keeps, once, reached, continues⟩ =>
        ⟨receives, declared, keeps, once, reached, continues⟩,
      fun constructs => ⟨constructs.receives, constructs.declared, constructs.keeps, constructs.once,
        constructs.reached, constructs.continues⟩⟩

/-- Constructors are written by hand, construct their receivers as they should, and are called as such. -/
structure ConstructsOnce (program : Program) : Prop where
  constructors :
    ∀ entry ∈ program.entries, ∀ method ∈ entry.2.methods, method.isConstructor →
      method.isSynthetic = false ∧ ∀ body ∈ method.body, ∃ this ∈ body.receiver?,
        ∃ target ∈ body.instructions.filterMap Instruction.call?,
          program.Constructs entry.1 this target body
  special :
    ∀ body ∈ program.bodies, ∀ instruction ∈ body.instructions, ∀ target ∈ instruction.call?,
      target.method.name = constructorName → target.kind = .special

instance (program : Program) : Decidable program.ConstructsOnce :=
  decidable_of_iff
    ((∀ entry ∈ program.entries, ∀ method ∈ entry.2.methods, method.isConstructor →
        method.isSynthetic = false ∧ ∀ body ∈ method.body, ∃ this ∈ body.receiver?,
          ∃ target ∈ body.instructions.filterMap Instruction.call?,
            program.Constructs entry.1 this target body) ∧
      ∀ body ∈ program.bodies, ∀ instruction ∈ body.instructions, ∀ target ∈ instruction.call?,
        target.method.name = constructorName → target.kind = .special)
    ⟨fun ⟨constructors, special⟩ => ⟨constructors, special⟩,
      fun once => ⟨once.constructors, once.special⟩⟩

/-- The method is a constructor. -/
def isConstructor (program : Program) (id : MethodId) : Bool :=
  (program.method? id).any Method.isConstructor

/-- The class is the other class or below it. -/
def Inherits (program : Program) : String → String → Prop :=
  Relation.ReflTransGen fun lower upper => program.superclass? lower = some upper

/-- The superclasses of the class come to an end. -/
def Founded (program : Program) : String → Prop :=
  Acc fun upper lower => program.superclass? lower = some upper

theorem founded_iff {program : Program} {className : String} :
    program.Founded className ↔
      ∀ superclass, program.superclass? className = some superclass → program.Founded superclass :=
  ⟨fun founded _ above => founded.inv above, fun above => .intro className above⟩

/-- A class inherits from itself and from what its superclass inherits from. -/
theorem inherits_iff {program : Program} {className upper : String} :
    program.Inherits className upper ↔
      className = upper ∨
        ∃ superclass, program.superclass? className = some superclass ∧
          program.Inherits superclass upper :=
  ⟨fun inherits => inherits.cases_head,
    fun cases => cases.elim (fun same => same ▸ .refl) fun ⟨_, above, inherits⟩ => .head above inherits⟩

/-- A superclass does not inherit from the class. -/
theorem Founded.not_inherits
    {program : Program}
    {className superclass : String}
    (founded : program.Founded className)
    (above : program.superclass? className = some superclass) :
    ¬ program.Inherits superclass className := by
  induction founded generalizing superclass with
  | intro className _ hypothesis =>
    intro inherits
    rcases inherits_iff.1 inherits with rfl | ⟨upper, higher, inherits⟩
    · exact hypothesis _ above above inherits
    · exact hypothesis _ above higher (inherits.tail above)

end Program

/-- What runs is a constructor, on the object in the slot. -/
def Activation.builds (program : Program) (slot : Nat) (actor : Activation) : Bool :=
  program.isConstructor actor.method && actor.receiver == some (.reference slot)

namespace Act

/-- A constructor is called on the object in the slot. -/
def constructs (slot : Nat) : Act → Bool
  | .calls _ target receiver =>
    receiver == some (.reference slot) && target.method.name == constructorName
  | .accesses _ _ _ _ => false

/-- A constructor is called on the object in the slot by something else than one of its constructors. -/
def begins (program : Program) (slot : Nat) : Act → Bool
  | .calls actor target receiver =>
    (Act.calls actor target receiver).constructs slot && !actor.builds program slot
  | .accesses _ _ _ _ => false

/-- If a constructor calls another on its receiver, then through the local that it binds it to. -/
def Direct (program : Program) : Act → Prop
  | .calls actor target receiver =>
    target.method.name = constructorName → program.isConstructor actor.method →
      receiver = actor.receiver →
        target.receiver = (program.body? actor.method).bind Body.receiver?
  | .accesses _ _ _ _ => True

instance (program : Program) : DecidablePred (Act.Direct program)
  | .calls _ _ _ => inferInstanceAs (Decidable (_ → _ → _ → _))
  | .accesses _ _ _ _ => inferInstanceAs (Decidable True)

end Act

/-- Constructors call constructors on their receivers directly, and a constructor that its class declares
is called on each instance, once, from outside. -/
structure Program.BuildsOnce (program : Program) (acts : List Act) (heap : Heap) : Prop where
  direct : ∀ act ∈ acts, act.Direct program
  once :
    ∀ {slot : Nat} {className : String} {fields : FieldTable},
      heap.objects[slot]? = some (.instanceOf className fields) →
      ∃ actor target, acts.filter (Act.begins program slot) =
          [.calls actor target (some (.reference slot))] ∧
        target.method.owner = className ∧
        (program.findMethod? className constructorName target.method.parameters).isSome

end AccessProfiler
