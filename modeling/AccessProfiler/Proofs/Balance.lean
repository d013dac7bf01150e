import AccessProfiler.Proofs.Construction

/-!
# Numbers and constructor calls in balance

An object and a class that numbers its instances are watched (`Numbering`).  A call of a constructor on
the object from outside owes it a number, if the class of the constructor inherits from the watched one;
constructors give it.  Whatever is done between a call and its end, as many numbers are given as are
owed, and one more if the call itself is one that the constructor of the object makes
(`Callees.Balances`).
-/

namespace AccessProfiler

/-- An object, and a class that numbers its instances, in a program and the same with counting. -/
structure Numbering where
  original : Program
  current : Program
  className : String
  slot : Nat

namespace Numbering

variable (watched : Numbering)

/-- The call leads to a constructor of a class that inherits from the watched one. -/
def Leads (method : MethodRef) : Prop :=
  method.name = constructorName ∧
    ∃ id, Run.target? watched.current method.owner method = some id ∧
      watched.original.Inherits id.owner watched.className

/-- A constructor that leads to the class is called on the object from outside. -/
def Owes (act : Act) : Prop :=
  act.begins watched.original watched.slot ∧
    ∃ actor target receiver, act = .calls actor target receiver ∧ watched.Leads target.method

/-- How often the object was given a number. -/
def given (acts : List Act) : Nat :=
  (numbered watched.className acts).count watched.slot

open Classical in
/-- How often it was owed one. -/
noncomputable def owed (acts : List Act) : Nat :=
  acts.countP fun act => decide (watched.Owes act)

open Classical in
/-- Whether a number is due to the receiver of a call. -/
noncomputable def due (receiver : Option Datum) (method : MethodRef) : Nat :=
  if receiver = some (.reference watched.slot) ∧ watched.Leads method then 1 else 0

/-- Every act is direct. -/
def AllDirect (acts : List Act) : Prop :=
  ∀ act ∈ acts, act.Direct watched.original

/-- As many numbers are given as are owed. -/
def Balanced (acts : List Act) : Prop :=
  watched.given acts = watched.owed acts

variable {watched} {acts others : List Act}

theorem given_append :
    watched.given (acts ++ others) = watched.given acts + watched.given others := by
  rw [given, numbered_append, List.count_append]
  rfl

theorem owed_append : watched.owed (acts ++ others) = watched.owed acts + watched.owed others :=
  List.countP_append

theorem Balanced.append (balanced : watched.Balanced acts) (further : watched.Balanced others) :
    watched.Balanced (acts ++ others) := by
  rw [Balanced, given_append, owed_append, balanced, further]

theorem Balanced.nil : watched.Balanced [] := rfl

theorem AllDirect.left (direct : watched.AllDirect (acts ++ others)) : watched.AllDirect acts :=
  fun act member => direct act (List.mem_append_left _ member)

theorem AllDirect.right (direct : watched.AllDirect (acts ++ others)) : watched.AllDirect others :=
  fun act member => direct act (List.mem_append_right _ member)

/-- An access owes nothing. -/
theorem owed_accesses {actor : Activation} {access : Access} {place : Nat} {field : FieldRef} :
    watched.owed [.accesses actor access place field] = 0 := by
  refine List.countP_eq_zero.2 fun act member => ?_
  rw [List.mem_singleton.1 member]
  simp [Owes, Act.begins]

/-- An access that gives no number is balanced. -/
theorem Balanced.accesses
    {actor : Activation}
    {access : Access}
    {place : Nat}
    {field : FieldRef}
    (none : (Act.accesses actor access place field).numbered? watched.className = none) :
    watched.Balanced [.accesses actor access place field] := by
  rw [Balanced, owed_accesses, given, numbered, List.filterMap_cons_none none]
  rfl

/-- A call gives nothing itself. -/
theorem given_calls {actor : Activation} {target : Call} {receiver : Option Datum} :
    watched.given (.calls actor target receiver :: acts) = watched.given acts := rfl

open Classical in
/-- What a call owes besides what is owed during it. -/
theorem owed_calls {actor : Activation} {target : Call} {receiver : Option Datum} :
    watched.owed (.calls actor target receiver :: acts) =
      watched.owed acts +
        if actor.builds watched.original watched.slot then 0 else watched.due receiver target.method := by
  rw [owed, List.countP_cons, ← owed]
  congr 1
  by_cases builds : actor.builds watched.original watched.slot = true
  · simp [Owes, Act.begins, builds]
  · have same :
        watched.Owes (.calls actor target receiver) ↔
          receiver = some (.reference watched.slot) ∧ watched.Leads target.method := by
      constructor
      · rintro ⟨begins, _, _, _, equal, leads⟩
        cases equal
        simp only [Act.begins, Act.constructs, Bool.and_eq_true, beq_iff_eq] at begins
        exact ⟨begins.1.1, leads⟩
      · rintro ⟨rfl, leads⟩
        refine ⟨?_, _, _, _, rfl, leads⟩
        simp [Act.begins, Act.constructs, leads.1, builds]
    rw [if_neg builds, due]
    by_cases leads : receiver = some (.reference watched.slot) ∧ watched.Leads target.method
    · rw [if_pos leads, if_pos (decide_eq_true (same.2 leads))]
    · rw [if_neg leads, if_neg fun owes => leads (same.1 (of_decide_eq_true owes))]

open Classical in
/-- Whether a constructor of the class gives a number to its receiver. -/
noncomputable def share (receiver : Option Datum) (className : String) : Nat :=
  if receiver = some (.reference watched.slot) ∧
      watched.original.Inherits className watched.className then 1
  else 0

theorem due_none {method : MethodRef} : watched.due none method = 0 :=
  if_neg fun both => nomatch both.1

theorem due_of_not_leads
    {receiver : Option Datum}
    {method : MethodRef}
    (elsewhere : ¬ watched.Leads method) :
    watched.due receiver method = 0 :=
  if_neg fun both => elsewhere both.2

/-- What is due for a call of a constructor is the share of the class that declares it. -/
theorem due_eq_share
    {receiver : Option Datum}
    {method : MethodRef}
    {id : MethodId}
    (named : method.name = constructorName)
    (found : Run.target? watched.current method.owner method = some id) :
    watched.due receiver method = watched.share receiver id.owner := by
  have leads : watched.Leads method ↔ watched.original.Inherits id.owner watched.className := by
    rw [Leads, found]
    exact ⟨fun ⟨_, _, same, inherits⟩ => Option.some.inj same ▸ inherits,
      fun inherits => ⟨named, id, rfl, inherits⟩⟩
  rw [due, share, leads]

/-- Nothing is due for a call that leads nowhere. -/
theorem due_of_target?_none
    {receiver : Option Datum}
    {method : MethodRef}
    (nowhere : Run.target? watched.current method.owner method = none) :
    watched.due receiver method = 0 :=
  due_of_not_leads fun ⟨_, _, found, _⟩ => nomatch nowhere.symm.trans found

end Numbering

/-- During calls as many numbers are given as are owed and due to the receiver, during initializations
as many as are owed.  The superclasses of a class with a constructor that ended come to an end. -/
structure Callees.Balances (watched : Numbering) (callees : Callees) (logs : Logs) : Prop where
  invoke :
    ∀ {kind method receiver arguments before value after},
      Ends (callees.invoke kind method receiver arguments) before value after →
      watched.AllDirect (logs.invoke kind method receiver arguments before) →
      (method.name = constructorName → kind = .special ∨ receiver = none) →
        watched.given (logs.invoke kind method receiver arguments before) =
          watched.owed (logs.invoke kind method receiver arguments before) +
            watched.due receiver method
  prepare :
    ∀ {className before after},
      Ends (callees.prepare className) before () after →
      watched.AllDirect (logs.prepare className before) →
        watched.Balanced (logs.prepare className before)
  founded :
    ∀ {method receiver arguments before value after id},
      Ends (callees.invoke .special method receiver arguments) before value after →
      method.name = constructorName → Run.target? watched.current method.owner method = some id →
        watched.original.Founded id.owner

/-- The instruction gives no number, calls constructors as such or on nothing and, in a constructor of the
object, not through the local of the receiver. -/
structure Instruction.Calm (watched : Numbering) (actor : Activation) (instruction : Instruction) :
    Prop where
  fields :
    ∀ base field value, instruction = .assign (.instanceField base field) value →
      field.name ≠ serialField
  special :
    ∀ target ∈ instruction.call?, target.method.name = constructorName →
      target.kind = .special ∨ target.receiver = none
  outward :
    actor.builds watched.original watched.slot → ∀ target ∈ instruction.call?,
      target.method.name = constructorName →
        target.receiver ≠ (watched.original.body? actor.method).bind Body.receiver?

namespace Run

variable
    {watched : Numbering}
    {world : World}
    {callees : Callees}
    {logs : Logs}
    {actor : Activation}
    {arguments locals changed : List Datum}
    {before after : Machine}
    {value : Datum}
    {acts : List Act}

/-- A call gives what is owed; what is due to the receiver is owed unless a constructor of the object
makes the call. -/
theorem callLog_balances
    (balances : callees.Balances watched logs)
    {target : Call}
    (special :
      target.method.name = constructorName → target.kind = .special ∨ target.receiver = none)
    (evaluates : Evaluates world callees locals before value after (.call target))
    (direct : watched.AllDirect (callLog logs actor locals target before)) :
    ∃ receiver, target.receiver.mapM (fun id => locals[id.index]?) = some receiver ∧
      watched.given (callLog logs actor locals target before) =
        watched.owed (callLog logs actor locals target before) +
          if actor.builds watched.original watched.slot then watched.due receiver target.method
          else 0 := by
  obtain ⟨receiver, given, received, evaluated, called⟩ := evaluates
  refine ⟨receiver, received, ?_⟩
  rw [callLog_of_evaluated received evaluated] at direct ⊢
  have inside := balances.invoke called (fun act member => direct act (List.mem_cons_of_mem _ member))
    fun named => (special named).imp_right fun nothing => by
      rw [nothing] at received
      exact (Option.some.inj received).symm
  rw [Numbering.given_calls, Numbering.owed_calls, inside]
  split <;> omega

/-- A calm call is balanced. -/
theorem callLog_balanced
    (balances : callees.Balances watched logs)
    {target : Call}
    (special :
      target.method.name = constructorName → target.kind = .special ∨ target.receiver = none)
    (outward :
      actor.builds watched.original watched.slot → target.method.name = constructorName →
        target.receiver ≠ (watched.original.body? actor.method).bind Body.receiver?)
    (evaluates : Evaluates world callees locals before value after (.call target))
    (direct : watched.AllDirect (callLog logs actor locals target before)) :
    watched.Balanced (callLog logs actor locals target before) := by
  obtain ⟨receiver, given, received, evaluated, -⟩ := id evaluates
  obtain ⟨other, receivedToo, balance⟩ := callLog_balances balances special evaluates direct
  obtain rfl := Option.some.inj (received.symm.trans receivedToo)
  rw [Numbering.Balanced, balance]
  split
  · rename_i builds
    have nothing : watched.due receiver target.method = 0 := by
      refine if_neg fun both => ?_
      have first := direct (.calls actor target receiver) (by
        rw [callLog_of_evaluated received evaluated]
        exact List.mem_cons_self)
      have building := builds
      rw [Activation.builds, Bool.and_eq_true, beq_iff_eq] at building
      exact outward builds both.2.1 (first both.2.1 building.1 (both.1.trans building.2.symm))
    rw [nothing, Nat.add_zero]
  · rw [Nat.add_zero]

/-- What a calm instruction does is balanced. -/
theorem Steps.balanced
    (balances : callees.Balances watched logs)
    {instruction : Instruction}
    (calm : instruction.Calm watched actor)
    (steps : Steps world callees logs actor arguments locals before changed after acts instruction)
    (direct : watched.AllDirect acts) :
    watched.Balanced acts := by
  cases instruction with
  | bind target source =>
    obtain ⟨given, -, -, -, -, rfl⟩ := steps
    exact .nil
  | assign place expression =>
    obtain ⟨computed, middle, evaluates, stores, rfl⟩ := steps
    refine Numbering.Balanced.append ?_ ?_
    · have direct := direct.left
      cases expression with
      | instanceField base field =>
        obtain ⟨slot, refers, -⟩ := evaluates
        rw [valueLog, accessLog_of_reference refers]
        exact .accesses rfl
      | staticField field => exact balances.prepare evaluates.1 direct
      | newObject className =>
        obtain ⟨prepared, slot, heap, ready, -⟩ := evaluates
        exact balances.prepare ready direct
      | call target =>
        exact callLog_balanced balances (calm.special target rfl)
          (fun builds => calm.outward builds target rfl) evaluates direct
      | _ => exact .nil
    · have direct := direct.right
      cases place with
      | instanceField base field =>
        obtain ⟨slot, heap, refers, -⟩ := stores
        rw [placeLog, accessLog_of_reference refers]
        exact .accesses (Act.numbered?_of_differs
          (differs_serial_of_name_ne (calm.fields base field expression rfl)))
      | staticField field =>
        obtain ⟨prepared, ready, -⟩ := stores
        exact balances.prepare ready direct
      | _ => exact .nil
  | invoke target =>
    obtain ⟨result, evaluates, -, rfl⟩ := steps
    exact callLog_balanced balances (calm.special target rfl)
      (fun builds => calm.outward builds target rfl) evaluates direct
  | «return» operand => exact steps.elim

/-- The same for instructions in a row. -/
theorem Passes.balanced
    (balances : callees.Balances watched logs)
    {list : List Instruction}
    (calm : ∀ instruction ∈ list, instruction.Calm watched actor)
    (passes : Passes world callees logs actor arguments locals before changed after acts list)
    (direct : watched.AllDirect acts) :
    watched.Balanced acts := by
  induction list generalizing locals before acts with
  | nil =>
    obtain ⟨-, -, rfl⟩ := passes
    exact .nil
  | cons instruction rest hypothesis =>
    obtain ⟨next, between, first, others, steps, passes, rfl⟩ := passes
    exact .append (steps.balanced balances (calm instruction List.mem_cons_self) direct.left)
      (hypothesis (fun other member => calm other (List.mem_cons_of_mem _ member)) passes direct.right)

end Run
end AccessProfiler
