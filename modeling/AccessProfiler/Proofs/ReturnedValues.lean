import AccessProfiler.Proofs.CheckedRuns

/-!
# Values that methods return

The checker demands that what a method returns agrees with its declared result, one return at a time;
it does not demand that there is a return.  So an accepted method that declares a result may still run
off its end and return nothing (`missingReturn_returns_void`).

That is the only way, as long as nothing but a result is declared `void` and no call whose result is
stored comes to a method that returns nothing (`World.KeepsVoidOut`).  Then no local, field or array
ever holds nothing, and a method that declares a result returns a value, exactly if every method with a
declared result that comes to its end has a return in its body (`World.activations_return_values_iff`).
-/

namespace AccessProfiler

/-- Neither a variable of the type nor an element of an array of the type is void. -/
def Ty.holdsData : Ty → Bool
  | .void => false
  | .array element => element.holdsData
  | _ => true

/-- A field that the expression names is not void. -/
def Expression.namesData : Expression → Bool
  | .instanceField _ field | .staticField field => field.type != .void
  | _ => true

/-- The fields that the instruction names are not void. -/
def Instruction.namesData : Instruction → Bool
  | .assign place value => place.namesData && value.namesData
  | _ => true

/-- The call whose result the instruction stores. -/
def Instruction.storedCall? : Instruction → Option Call
  | .assign _ (.call target) => some target
  | _ => none

/-- The instruction returns an operand. -/
def Instruction.returnsOperand : Instruction → Bool
  | .return (some _) => true
  | _ => false

/-- There is a return of an operand in the body of the method. -/
def Method.hasReturn (method : Method) : Bool :=
  method.body.any fun body => body.instructions.any Instruction.returnsOperand

/-- Whatever the call comes to, it returns something: it is not one of the sink, nor of the constructor
that the root class has without declaring it, and no method of the name and parameter types is declared
`void`. -/
structure World.Delivers (world : World) (method : MethodRef) : Prop where
  notSink : ¬ Run.CallsSink world method
  notRoot : ¬ (method.name = constructorName ∧ method.owner = objectClass)
  results :
    ∀ entry ∈ world.program.entries, ∀ declared ∈ entry.2.methods,
      declared.fits method.name method.parameters → declared.result ≠ .void

instance (world : World) (method : MethodRef) : Decidable (world.Delivers method) :=
  decidable_of_iff
    (¬ (method.owner = world.sink.owner ∧ method.name = world.sink.method) ∧
      ¬ (method.name = constructorName ∧ method.owner = objectClass) ∧
      ∀ entry ∈ world.program.entries, ∀ declared ∈ entry.2.methods,
        declared.fits method.name method.parameters → declared.result ≠ .void)
    ⟨fun ⟨notSink, notRoot, results⟩ => ⟨notSink, notRoot, results⟩,
      fun delivers => ⟨delivers.notSink, delivers.notRoot, delivers.results⟩⟩

/-- Nothing but the results of methods is declared `void`, and a call whose result is stored comes to a
method that returns something if the call says so. -/
structure World.KeepsVoidOut (world : World) : Prop where
  fields : ∀ entry ∈ world.program.entries, ∀ field ∈ entry.2.fields, field.type ≠ .void
  locals :
    ∀ entry ∈ world.program.entries, ∀ method ∈ entry.2.methods, ∀ body ∈ method.body,
      ∀ declaration ∈ body.locals, declaration.type.holdsData
  references :
    ∀ entry ∈ world.program.entries, ∀ method ∈ entry.2.methods, ∀ body ∈ method.body,
      ∀ instruction ∈ body.instructions, instruction.namesData
  calls :
    ∀ entry ∈ world.program.entries, ∀ method ∈ entry.2.methods, ∀ body ∈ method.body,
      ∀ instruction ∈ body.instructions, ∀ target ∈ instruction.storedCall?,
        target.method.result ≠ .void → world.Delivers target.method

/-- The expression has a value whenever it is evaluated. -/
def Expression.YieldsValue (world : World) : Expression → Prop
  | .instanceField _ field | .staticField field =>
    (Run.declaredField world.program field).type ≠ .void
  | .newArray content _ => content ≠ .void
  | .call target => world.Delivers target.method
  | _ => True

/-- The body of a method stores nothing but values, and never returns nothing in the place of a
result. -/
structure Body.StoresValues (world : World) (declared : Method) (body : Body) : Prop where
  locals : ∀ declaration ∈ body.locals, declaration.type ≠ .void
  assigned : ∀ place value, .assign place value ∈ body.instructions → value.YieldsValue world
  returned : declared.result ≠ .void → .return none ∉ body.instructions

section Checking

variable {program : Program} {world : World} {checked : CheckedBody}

theorem Program.eq_void_of_isAssignable {target : Ty} (assignable : program.isAssignable .void target) :
    target = .void := by
  cases target <;> simp_all [isAssignable, Ty.isIntLike]

theorem Ty.ne_void_of_holdsData {type : Ty} (holds : type.holdsData) : type ≠ .void := by
  rintro rfl
  cases holds

/-- The places of a body are not void if its locals and the fields that it names are not. -/
theorem Body.ne_void_of_place
    {body : Body}
    {place : Expression}
    {type : Ty}
    (isPlace : place.isPlace)
    (locals : ∀ declaration ∈ body.locals, declaration.type.holdsData)
    (names : place.namesData)
    (typed : body.type? place = some type) :
    type ≠ .void := by
  have ofLocal {id : LocalId} {declared : Ty} (found : body.localType? id = some declared) :
      declared.holdsData := by
    obtain ⟨declaration, located, rfl⟩ := Option.map_eq_some_iff.1 found
    exact locals declaration (List.mem_of_getElem? located)
  cases place with
  | «variable» target => exact Ty.ne_void_of_holdsData (ofLocal typed)
  | instanceField base field =>
    obtain rfl := Option.some.inj typed
    exact bne_iff_ne.1 names
  | staticField field =>
    obtain rfl := Option.some.inj typed
    exact bne_iff_ne.1 names
  | element base index =>
    obtain ⟨declared, found, element⟩ := Option.bind_eq_some_iff.1 typed
    have holds := ofLocal found
    cases declared with
    | array content =>
      obtain rfl := Option.some.inj element
      exact Ty.ne_void_of_holdsData holds
    | _ => cases element
  | _ => cases isPlace

/-- Assigning keeps the rules only if both sides have a type and the types agree. -/
theorem CheckedBody.Keeps.agrees
    {place value : Expression}
    (keeps : checked.Keeps (.assign place value)) :
    place.isPlace ∧ checked.expressionFaults value = [] ∧
      ∃ target source, checked.body.type? place = some target ∧
        checked.body.type? value = some source ∧ checked.program.isAssignable source target := by
  have rules := (keeps_iff.1 keeps).2
  simp only [ruleFaults, assignmentFaults, List.append_eq_nil_iff, reportIf_eq_nil_iff,
    Bool.not_eq_false'] at rules
  obtain ⟨⟨⟨isPlace, -⟩, faultless⟩, agreement⟩ := rules
  refine ⟨isPlace, faultless, ?_⟩
  cases typed : checked.body.type? place with
  | none =>
    rw [typed] at agreement
    cases agreement
  | some target =>
    cases typedValue : checked.body.type? value with
    | none =>
      rw [typed, typedValue] at agreement
      cases agreement
    | some source =>
      rw [typed, typedValue] at agreement
      simp only [reportIf_eq_nil_iff, Bool.not_eq_false'] at agreement
      exact ⟨target, source, rfl, rfl, agreement⟩

/-- The declaration of a field is one of the program, or what the reference says. -/
theorem World.KeepsVoidOut.declaredField
    (keeps : world.KeepsVoidOut)
    {field : FieldRef}
    (named : field.type ≠ .void) :
    (Run.declaredField world.program field).type ≠ .void := by
  unfold Run.declaredField
  cases resolved : world.program.resolveField? field.owner field.name with
  | none => exact named
  | some declared =>
    obtain ⟨ancestor, -, found⟩ := List.exists_of_findSome?_eq_some resolved
    obtain ⟨declaration, located, declares⟩ := Option.bind_eq_some_iff.1 found
    obtain ⟨member, chosen, rfl⟩ := Option.map_eq_some_iff.1 declares
    exact keeps.fields _ (Program.mem_entries_of_class? located) member
      (List.mem_of_find?_eq_some chosen)

/-- An accepted body stores values only. -/
theorem World.KeepsVoidOut.storesValues
    (keeps : world.KeepsVoidOut)
    (bodiless : world.program.LibraryBodiless)
    (accepted : world.program.violations none = [])
    {id : MethodId}
    {declared : Method}
    {body : Body}
    (found : world.program.method? id = some declared)
    (given : declared.body = some body) :
    body.StoresValues world declared := by
  obtain ⟨declaration, declares, located⟩ := Option.bind_eq_some_iff.1 found
  have entry := Program.mem_entries_of_class? declares
  have among := List.mem_of_getElem? located
  have application : declaration.isApplication := by
    by_contra library
    have empty := bodiless _ entry (Bool.eq_false_iff.2 library) declared among
    rw [empty] at given
    cases given
  have accepts :=
    (Program.violations_eq_nil_iff.1 accepted id.owner declaration declares application rfl).bodies
      declared among body given
  have typed := keeps.locals _ entry declared among body given
  have names := keeps.references _ entry declared among body given
  refine ⟨fun local' member => Ty.ne_void_of_holdsData (typed local' member), ?_, ?_⟩
  · intro place value member
    obtain ⟨isPlace, faultless, target, source, typedPlace, typedValue, agree⟩ :=
      (accepts _ member).agrees
    obtain ⟨namesPlace, namesValue⟩ := Bool.and_eq_true_iff.1 (names _ member)
    cases value with
    | instanceField base field => exact keeps.declaredField (bne_iff_ne.1 namesValue)
    | staticField field => exact keeps.declaredField (bne_iff_ne.1 namesValue)
    | newArray content size =>
      rw [CheckedBody.expressionFaults, List.append_eq_nil_iff,
        CheckedBody.reportIf_eq_nil_iff] at faultless
      exact beq_eq_false_iff_ne.1 faultless.1
    | call target =>
      refine keeps.calls _ entry declared among body given _ member target rfl ?_
      rintro void
      obtain rfl : target.method.result = source := Option.some.inj typedValue
      rw [void] at agree
      exact Body.ne_void_of_place isPlace typed namesPlace typedPlace
        (Program.eq_void_of_isAssignable agree)
    | _ => exact trivial
  · intro result member
    have rules := (CheckedBody.keeps_iff.1 (accepts _ member)).2
    rw [CheckedBody.ruleFaults, CheckedBody.returnFaults, CheckedBody.reportIf_eq_nil_iff] at rules
    exact result (bne_eq_false_iff_eq.1 rules)

end Checking

/-- An object holds values only. -/
def HeapObject.HoldsValues : HeapObject → Prop
  | .instanceOf _ fields => ∀ key value, fields.get? key = some value → value ≠ .void
  | .array _ values => ∀ value ∈ values, value ≠ .void

/-- Fields and arrays hold values only. -/
structure Machine.HoldsValues (machine : Machine) : Prop where
  objects :
    ∀ (slot : Nat) (object : HeapObject), machine.heap.objects[slot]? = some object →
      object.HoldsValues
  statics :
    ∀ (key : String × String) (value : Datum), machine.statics.get? key = some value →
      value ≠ .void

theorem Datum.zero_ne_void {type : Ty} (holds : type ≠ .void) : zero type ≠ .void := by
  cases type <;> simp_all [zero]

theorem Datum.ofConstant_ne_void (constant : Constant) : ofConstant constant ≠ .void := by
  cases constant <;> simp [ofConstant]

namespace Machine.HoldsValues

variable {machine : Machine}

theorem fresh (limits : Limits) : (Machine.fresh limits).HoldsValues := by
  constructor
  · intro slot object found
    simp [Machine.fresh, Heap.empty] at found
  · intro key value found
    simp [Machine.fresh] at found

theorem push
    (holds : machine.HoldsValues)
    {object : HeapObject}
    (holdsObject : object.HoldsValues) :
    Machine.HoldsValues
      { machine with
        heap := { machine.heap with objects := machine.heap.objects.push object } } := by
  refine ⟨fun slot found located => ?_, holds.statics⟩
  rw [Array.getElem?_push] at located
  split at located
  · cases located
    exact holdsObject
  · exact holds.objects slot found located

theorem replace
    (holds : machine.HoldsValues)
    (slot : Nat)
    {object : HeapObject}
    (holdsObject : object.HoldsValues) :
    Machine.HoldsValues { machine with heap := machine.heap.replace slot object } := by
  refine ⟨fun other present located => ?_, holds.statics⟩
  rw [Heap.replace_get?] at located
  split at located
  · cases located
    exact holdsObject
  · exact holds.objects other present located

end Machine.HoldsValues

/-- A method is called with values, on a machine that holds values only. -/
structure World.Activates
    (world : World)
    (id : MethodId)
    (declared : Method)
    (receiver : Option Datum)
    (arguments : List Datum)
    (before : Machine) : Prop where
  found : world.program.method? id = some declared
  holds : before.HoldsValues
  receiver : ∀ given ∈ receiver, given ≠ .void
  arguments : ∀ given ∈ arguments, given ≠ .void

/-- A method that was called with values, on a machine that holds values only, came to its end. -/
def World.Returns
    (world : World)
    (declared : Method)
    (before : Machine)
    (value : Datum)
    (after : Machine) : Prop :=
  ∃ levels id method receiver arguments,
    world.Activates id declared receiver arguments before ∧
      Ends (Run.enter world (.within world levels) id method receiver arguments) before value after

/-- Calls and initializations store values only, and a call that delivers returns one. -/
structure Callees.ReturnValues (world : World) (callees : Callees) : Prop where
  invoke :
    ∀ {kind method receiver arguments before value after},
      before.HoldsValues →
        (∀ given ∈ receiver, given ≠ .void) →
        (∀ given ∈ arguments, given ≠ .void) →
        Ends (callees.invoke kind method receiver arguments) before value after →
        after.HoldsValues ∧ (world.Delivers method → value ≠ .void)
  prepare :
    ∀ {className before after},
      before.HoldsValues → Ends (callees.prepare className) before () after → after.HoldsValues

namespace Run

variable
    {world : World}
    {callees : Callees}
    {locals changed : List Datum}
    {receiver : Option Datum}
    {arguments : List Datum}
    {before after : Machine}
    {value : Datum}

theorem arithmetic?_ne_void
    {operator : Operator}
    {left right : Datum}
    (computed : arithmetic? operator left right = some value) :
    value ≠ .void := by
  unfold arithmetic? at computed
  split at computed <;> cases computed <;> simp

section Bodies

variable (returnValues : callees.ReturnValues world) (holds : before.HoldsValues)
include returnValues holds

theorem Evaluates.holdsValues_of_call
    (values : ∀ value ∈ locals, value ≠ .void)
    {target : Call}
    (evaluates : Evaluates world callees locals before value after (.call target)) :
    after.HoldsValues ∧ (world.Delivers target.method → value ≠ .void) := by
  obtain ⟨given, passed, received, evaluated, called⟩ := evaluates
  exact returnValues.invoke holds (holds_of_receiver values received)
    (Operand.holds_of_values? values Datum.ofConstant_ne_void evaluated) called

/-- An expression that yields a value does so, and nothing but values is stored meanwhile. -/
theorem Evaluates.holdsValues
    (values : ∀ value ∈ locals, value ≠ .void)
    {expression : Expression}
    (yields : expression.YieldsValue world)
    (evaluates : Evaluates world callees locals before value after expression) :
    after.HoldsValues ∧ value ≠ .void := by
  cases expression with
  | «variable» source =>
    obtain ⟨found, rfl⟩ := evaluates
    exact ⟨holds, values value (List.mem_of_getElem? found)⟩
  | literal constant =>
    obtain ⟨rfl, rfl⟩ := evaluates
    exact ⟨holds, Datum.ofConstant_ne_void constant⟩
  | instanceField base field =>
    obtain ⟨slot, -, read, rfl⟩ := evaluates
    obtain ⟨className, fields, located, rfl⟩ := Heap.readField_eq_ok.1 read
    exact ⟨holds, FieldTable.holds_read (holds.objects slot _ located) (Datum.zero_ne_void yields)⟩
  | staticField field =>
    obtain ⟨prepared, rfl⟩ := evaluates
    have kept := returnValues.prepare holds prepared
    exact ⟨kept, FieldTable.holds_read kept.statics (Datum.zero_ne_void yields)⟩
  | element base index =>
    obtain ⟨slot, position, -, -, read, rfl⟩ := evaluates
    obtain ⟨element, stored, place, located, inside, rfl⟩ := Heap.readElement_eq_ok.1 read
    refine ⟨holds, ?_⟩
    rw [Array.getElem?_eq_getElem (Heap.lt_of_position_eq_ok inside)]
    exact holds.objects slot _ located _ (Array.getElem_mem _)
  | newObject className =>
    obtain ⟨prepared, slot, heap, ready, allocated, rfl, rfl⟩ := evaluates
    obtain ⟨-, rfl, rfl⟩ := Heap.allocate_eq_ok.1 allocated
    have kept := returnValues.prepare holds ready
    have object : (HeapObject.instanceOf className .empty).HoldsValues := by
      intro key value found
      rw [Table.get?_empty] at found
      cases found
    exact ⟨kept.push object, Datum.noConfusion⟩
  | newArray content size =>
    obtain ⟨length, slot, heap, -, -, allocated, rfl, rfl⟩ := evaluates
    obtain ⟨-, rfl, rfl⟩ := Heap.allocate_eq_ok.1 allocated
    have object :
        (HeapObject.array content
          (Array.replicate length.toInt.toNat (.zero content))).HoldsValues := by
      intro value member
      rw [Array.mem_replicate] at member
      exact member.2 ▸ Datum.zero_ne_void yields
    exact ⟨holds.push object, Datum.noConfusion⟩
  | length base =>
    obtain ⟨slot, length, -, -, rfl, rfl⟩ := evaluates
    exact ⟨holds, Datum.noConfusion⟩
  | binary operator left right =>
    obtain ⟨first, second, -, -, computed, rfl⟩ := evaluates
    exact ⟨holds, arithmetic?_ne_void computed⟩
  | call target =>
    obtain ⟨kept, delivered⟩ := evaluates.holdsValues_of_call returnValues holds values
    exact ⟨kept, delivered yields⟩

theorem Stores.holdsValues
    (values : ∀ value ∈ locals, value ≠ .void)
    (isValue : value ≠ .void)
    {place : Expression}
    (stores : Stores world callees locals value before changed after place) :
    after.HoldsValues ∧ ∀ value ∈ changed, value ≠ .void := by
  cases place with
  | «variable» target =>
    obtain ⟨-, rfl, rfl⟩ := stores
    refine ⟨holds, fun other member => ?_⟩
    rcases List.mem_or_eq_of_mem_set member with old | rfl
    · exact values other old
    · exact isValue
  | instanceField base field =>
    obtain ⟨slot, heap, -, written, rfl, rfl⟩ := stores
    obtain ⟨className, fields, located, rfl⟩ := Heap.writeField_eq_ok.1 written
    have object :
        (HeapObject.instanceOf className
          (fields.write (declaredField world.program field) value)).HoldsValues :=
      FieldTable.holds_write (holds.objects slot _ located) isValue
    exact ⟨holds.replace slot object, values⟩
  | staticField field =>
    obtain ⟨prepared, ready, rfl, rfl⟩ := stores
    have kept := returnValues.prepare holds ready
    exact ⟨⟨kept.objects, FieldTable.holds_write kept.statics isValue⟩, values⟩
  | element base index =>
    obtain ⟨slot, position, heap, -, -, written, rfl, rfl⟩ := stores
    obtain ⟨element, stored, spot, located, -, rfl⟩ := Heap.writeElement_eq_ok.1 written
    have object : (HeapObject.array element (stored.setIfInBounds spot value)).HoldsValues := by
      intro other member
      rcases Array.mem_or_eq_of_mem_setIfInBounds member with old | rfl
      · exact holds.objects slot _ located other old
      · exact isValue
    exact ⟨holds.replace slot object, values⟩
  | _ => exact stores.elim

/-- Instructions store values only, and the first return among them, if it is one of an operand, returns
a value. -/
theorem instructions_holdsValues
    (valueReceiver : ∀ given ∈ receiver, given ≠ .void)
    (valueArguments : ∀ given ∈ arguments, given ≠ .void)
    (values : ∀ value ∈ locals, value ≠ .void)
    {list : List Instruction}
    (assigned : ∀ place value, .assign place value ∈ list → value.YieldsValue world)
    (ends : Ends (instructions world callees receiver arguments locals list) before value after) :
    after.HoldsValues ∧
      (.return none ∉ list → list.any Instruction.returnsOperand → value ≠ .void) := by
  induction list generalizing locals before with
  | nil =>
    obtain ⟨rfl, rfl⟩ := ends_instructions_nil.1 ends
    exact ⟨holds, fun _ returns => Bool.noConfusion returns⟩
  | cons instruction rest hypothesis =>
    have assignedRest : ∀ place value, .assign place value ∈ rest → value.YieldsValue world :=
      fun place value member => assigned place value (List.mem_cons_of_mem _ member)
    have start : (counted before).HoldsValues := ⟨holds.objects, holds.statics⟩
    -- What is not a return leaves it to the rest what is returned.
    have onward
        (goesOn : instruction.returnsOperand = false)
        (later :
          after.HoldsValues ∧
            (.return none ∉ rest → rest.any Instruction.returnsOperand → value ≠ .void)) :
        after.HoldsValues ∧
          (.return none ∉ instruction :: rest →
            (instruction :: rest).any Instruction.returnsOperand → value ≠ .void) := by
      refine ⟨later.1, fun never returns => later.2 (fun member => never ?_) ?_⟩
      · exact List.mem_cons_of_mem _ member
      · rwa [List.any_cons, goesOn, Bool.false_or] at returns
    obtain ⟨-, continues⟩ := ends_instructions_cons.1 ends
    cases instruction with
    | bind target source =>
      obtain ⟨given, bound, -, ends⟩ := continues
      have isValue : given ≠ .void := by
        cases source with
        | receiver type => exact valueReceiver given bound
        | parameter index type => exact valueArguments given (List.mem_of_getElem? bound)
      refine onward rfl (hypothesis start (fun other member => ?_) assignedRest ends)
      rcases List.mem_or_eq_of_mem_set member with old | rfl
      · exact values other old
      · exact isValue
    | assign place expression =>
      obtain ⟨computed, between, changed, stored, evaluates, stores, ends⟩ := continues
      obtain ⟨kept, isValue⟩ :=
        evaluates.holdsValues returnValues start values (assigned place expression List.mem_cons_self)
      obtain ⟨keptStored, valuesChanged⟩ :=
        stores.holdsValues returnValues kept values isValue
      exact onward rfl (hypothesis keptStored valuesChanged assignedRest ends)
    | invoke target =>
      obtain ⟨result, between, evaluates, ends⟩ := continues
      obtain ⟨kept, -⟩ := evaluates.holdsValues_of_call returnValues start values
      exact onward rfl (hypothesis kept values assignedRest ends)
    | «return» operand =>
      cases operand with
      | none =>
        obtain ⟨rfl, rfl⟩ := continues
        exact ⟨start, fun never => absurd List.mem_cons_self never⟩
      | some operand =>
        obtain ⟨found, rfl⟩ := continues
        exact ⟨start, fun _ _ => Operand.holds_of_value? values Datum.ofConstant_ne_void found⟩

end Bodies

/-- Without a return of an operand, nothing is returned. -/
theorem instructions_returns_void
    {list : List Instruction}
    (never : list.any Instruction.returnsOperand = false)
    (ends : Ends (instructions world callees receiver arguments locals list) before value after) :
    value = .void := by
  induction list generalizing locals before with
  | nil => exact (ends_instructions_nil.1 ends).1
  | cons instruction rest hypothesis =>
    obtain ⟨goesOn, neverLater⟩ := Bool.or_eq_false_iff.1 (List.any_cons ▸ never)
    obtain ⟨-, continues⟩ := ends_instructions_cons.1 ends
    cases instruction with
    | bind target source =>
      obtain ⟨given, -, -, ends⟩ := continues
      exact hypothesis neverLater ends
    | assign place expression =>
      obtain ⟨computed, between, changed, stored, -, -, ends⟩ := continues
      exact hypothesis neverLater ends
    | invoke target =>
      obtain ⟨result, between, -, ends⟩ := continues
      exact hypothesis neverLater ends
    | «return» operand =>
      cases operand with
      | none => exact continues.1
      | some operand => cases goesOn

section Calls

variable
    (checked :
      ∀ id declared body, world.program.method? id = some declared → declared.body = some body →
        body.StoresValues world declared)
    (returnValues : callees.ReturnValues world)
    (returns :
      ∀ {id declared method receiver arguments before value after},
        world.Activates id declared receiver arguments before →
          Ends (enter world callees id method receiver arguments) before value after →
            declared.result ≠ .void → declared.hasReturn)
include checked returnValues

/-- A method stores values only, and returns one if it declares a result and its body has a return. -/
theorem enter_holdsValues
    {id : MethodId}
    {declared : Method}
    {method : MethodRef}
    (activates : world.Activates id declared receiver arguments before)
    (ends : Ends (enter world callees id method receiver arguments) before value after) :
    after.HoldsValues ∧ (declared.result ≠ .void → declared.hasReturn → value ≠ .void) := by
  obtain ⟨body, inner, found, -, ran, rfl⟩ := ends_enter.1 ends
  have given : declared.body = some body := by
    rw [Program.body?, activates.found, Option.bind_some] at found
    exact found
  have storesValues := checked id declared body activates.found given
  have zeros :
      ∀ value ∈ body.locals.map fun declaration => Datum.zero declaration.type, value ≠ .void := by
    intro value member
    obtain ⟨declaration, among, rfl⟩ := List.mem_map.1 member
    exact Datum.zero_ne_void (storesValues.locals declaration among)
  have opened : ({ before with depth := before.depth + 1 } : Machine).HoldsValues :=
    ⟨activates.holds.objects, activates.holds.statics⟩
  obtain ⟨kept, returned⟩ :=
    instructions_holdsValues returnValues opened activates.receiver activates.arguments zeros
      storesValues.assigned ran
  refine ⟨⟨kept.objects, kept.statics⟩, fun result hasReturn => ?_⟩
  rw [Method.hasReturn, given] at hasReturn
  exact returned (storesValues.returned result) hasReturn

include returns

theorem invokeStep_holdsValues
    (holds : before.HoldsValues)
    (valueReceiver : ∀ given ∈ receiver, given ≠ .void)
    (valueArguments : ∀ given ∈ arguments, given ≠ .void)
    {kind : CallKind}
    {method : MethodRef}
    (ends : Ends (invokeStep world callees kind method receiver arguments) before value after) :
    after.HoldsValues ∧ (world.Delivers method → value ≠ .void) := by
  rcases ends_invokeStep.1 ends with
    ⟨sinks, line, -, rfl, rfl⟩ | ⟨-, -, start, started, starts, reaches⟩
  · exact ⟨⟨holds.objects, holds.statics⟩, fun delivers => absurd sinks delivers.notSink⟩
  · have kept : started.HoldsValues := by
      rcases starts.cases.2 with ⟨-, prepared⟩ | ⟨-, rfl⟩
      · exact returnValues.prepare holds prepared
      · exact holds
    cases found : target? world.program start method with
    | none =>
      rw [found] at reaches
      obtain ⟨named, owned, rfl, rfl⟩ := reaches
      exact ⟨kept, fun delivers => absurd ⟨named, owned⟩ delivers.notRoot⟩
    | some id =>
      rw [found] at reaches
      obtain ⟨declared, located, named, parameters⟩ := Program.target?_eq_some found
      have activates : world.Activates id declared receiver arguments started :=
        ⟨located, kept, valueReceiver, valueArguments⟩
      obtain ⟨keptBody, returned⟩ := enter_holdsValues checked returnValues activates reaches
      refine ⟨keptBody, fun delivers => ?_⟩
      -- Whatever the call is dispatched to has the name and the parameters of the call.
      have result : declared.result ≠ .void := by
        obtain ⟨declaration, declares, position⟩ := Option.bind_eq_some_iff.1 located
        refine delivers.results _ (Program.mem_entries_of_class? declares) declared
          (List.mem_of_getElem? position) ?_
        rw [Method.fits_iff]
        exact ⟨named, parameters⟩
      exact returned result (returns activates reaches result)

omit returns in
theorem prepareStep_holdsValues
    (holds : before.HoldsValues)
    {className : String}
    (ends : Ends (prepareStep world callees className) before () after) :
    after.HoldsValues := by
  rcases ends_prepareStep.1 ends with ⟨-, rfl⟩ | ⟨-, above, ready, initializes⟩
  · exact holds
  · have marked :
        Machine.HoldsValues { before with initialized := before.initialized ++ [className] } :=
      ⟨holds.objects, holds.statics⟩
    have keptAbove : above.HoldsValues := by
      cases found : world.program.superclass? className with
      | none => exact (initializesAbove_of_none found).1 ready ▸ marked
      | some superclass =>
        exact returnValues.prepare marked ((initializesAbove_of_some found).1 ready)
    cases found : world.program.findMethod? className staticInitializerName [] with
    | none => exact (initializes_of_none found).1 initializes ▸ keptAbove
    | some id =>
      cases bodied : world.program.body? id with
      | none => exact (initializes_of_body?_none found bodied).1 initializes ▸ keptAbove
      | some body =>
        obtain ⟨value, entered⟩ := (initializes_of_body?_some found bodied).1 initializes
        obtain ⟨-, declared, located, -, -⟩ := Program.findMethod?_eq_some found
        have activates : world.Activates id declared none [] above := by
          refine ⟨located, keptAbove, ?_, fun _ member => absurd member List.not_mem_nil⟩
          intro given none
          cases none
        exact (enter_holdsValues checked returnValues activates entered).1

end Calls

/-- However deep calls and initializations nest, they store values only and return them, if methods
that declare a result have a return. -/
theorem within_returnValues
    (checked :
      ∀ id declared body, world.program.method? id = some declared → declared.body = some body →
        body.StoresValues world declared)
    (returns :
      ∀ {declared before value after},
        world.Returns declared before value after → declared.result ≠ .void → declared.hasReturn)
    (levels : Nat) :
    (Callees.within world levels).ReturnValues world := by
  induction levels with
  | zero =>
    exact ⟨fun _ _ _ ends => absurd ends Ends.not_throw, fun _ ends => absurd ends Ends.not_throw⟩
  | succ levels hypothesis =>
    refine ⟨fun holds valueReceiver valueArguments ends => ?_, fun holds ends => ?_⟩
    · exact invokeStep_holdsValues checked hypothesis
        (fun activates ends => returns ⟨levels, _, _, _, _, activates, ends⟩) holds valueReceiver
        valueArguments ends
    · exact prepareStep_holdsValues checked hypothesis holds ends

/-- What a method is given from outside are values, and nothing else is stored for it. -/
theorem GivenFromOutside.holdsValues
    {parameters : List Ty}
    (holds : before.HoldsValues)
    (given : GivenFromOutside before arguments after parameters) :
    after.HoldsValues ∧ ∀ argument ∈ arguments, argument ≠ .void := by
  unfold GivenFromOutside at given
  split at given
  · obtain ⟨rfl, rfl⟩ := given
    exact ⟨holds, fun _ member => absurd member List.not_mem_nil⟩
  · obtain ⟨slot, heap, allocated, rfl, rfl⟩ := given
    obtain ⟨-, rfl, rfl⟩ := Heap.allocate_eq_ok.1 allocated
    refine ⟨holds.push ?_, fun argument member => ?_⟩
    · intro value member
      simp at member
    · rw [List.mem_singleton.1 member]
      exact Datum.noConfusion
  · exact given.elim

/-- A run from outside goes from a fresh machine to one that holds values only. -/
theorem entry_holdsValues
    {levels : Nat}
    {limits : Limits}
    {name : String}
    (returnValues : (Callees.within world levels).ReturnValues world)
    (ends : Ends (entry world levels name) (.fresh limits) value after) :
    after.HoldsValues := by
  obtain ⟨method, arguments, started, -, given, called⟩ := ends_entryStep.1 ends
  obtain ⟨holds, valueArguments⟩ := given.holdsValues (.fresh limits)
  refine (returnValues.invoke holds ?_ valueArguments called).1
  intro given none
  cases none

end Run

/-- Nothing but values is stored, and a method that declares a result returns a value, exactly if each
method that declares a result and comes to its end has a return.  Runs from outside then go from a fresh
machine to one that holds values only. -/
theorem World.activations_return_values_iff
    {world : World}
    (bodiless : world.program.LibraryBodiless)
    (accepted : world.program.violations none = [])
    (keeps : world.KeepsVoidOut) :
    ((∀ declared before value after, world.Returns declared before value after →
        after.HoldsValues ∧ (declared.result ≠ .void → value ≠ .void)) ↔
      ∀ declared before value after, world.Returns declared before value after →
        declared.result ≠ .void → declared.hasReturn) ∧
      ((∀ declared before value after, world.Returns declared before value after →
          declared.result ≠ .void → declared.hasReturn) →
        ∀ name value after,
          world.Completes name (.fresh world.limits) value after → after.HoldsValues) := by
  have checked (id : MethodId) (declared : Method) (body : Body)
      (found : world.program.method? id = some declared) (given : declared.body = some body) :
      body.StoresValues world declared :=
    keeps.storesValues bodiless accepted found given
  refine ⟨⟨?_, ?_⟩, ?_⟩
  · rintro values declared before value after returned result
    have ended := returned
    obtain ⟨levels, id, method, receiver, arguments, activates, ends⟩ := ended
    by_contra never
    refine (values declared before value after returned).2 result ?_
    obtain ⟨body, inner, found, -, ran, -⟩ := Run.ends_enter.1 ends
    rw [Program.body?, activates.found, Option.bind_some] at found
    rw [Method.hasReturn, found, Option.any_some, Bool.not_eq_true] at never
    exact Run.instructions_returns_void never ran
  · rintro returns declared before value after returned
    have ended := returned
    obtain ⟨levels, id, method, receiver, arguments, activates, ends⟩ := ended
    have returnValues := Run.within_returnValues checked (fun ended => returns _ _ _ _ ended) levels
    obtain ⟨holds, isValue⟩ := Run.enter_holdsValues checked returnValues activates ends
    exact ⟨holds, fun result => isValue result (returns _ _ _ _ returned result)⟩
  · rintro returns name value after ⟨levels, ends⟩
    exact Run.entry_holdsValues
      (Run.within_returnValues checked (fun ended => returns _ _ _ _ ended) levels) ends

/-- A method asks another one for a number and returns it; the other one ends with the given
instructions. -/
def priceProgram (ending : List Instruction) : Program where
  entries :=
    [("shop.Main",
      { name := "shop.Main"
        superclass := some objectClass
        interfaces := []
        kind := .application
        flags := ⟨0⟩
        fields := []
        methods :=
          [{ name := "price"
             parameters := []
             result := .int
             flags := Method.static
             body := some
              { locals := [⟨"net", .int⟩]
                instructions := .assign (.variable ⟨0⟩) (.literal (.int 3)) :: ending } },
            { name := "run"
              parameters := []
              result := .int
              flags := Method.static
              body := some
                { locals := [⟨"price", .int⟩]
                  instructions :=
                    [.assign (.variable ⟨0⟩) (.call (.ofStatic ⟨"shop.Main", "price", [], .int⟩ [])),
                      .return (some (.variable ⟨0⟩))] } }] })]
  distinct := by
    show ["shop.Main"].Nodup
    decide

/-- The program under the standard limits. -/
def priceWorld (ending : List Instruction) : World :=
  ⟨priceProgram ending, .standard, .standard⟩

/-- If the method that is asked returns its number, both return a value whenever they come to an end, and
they do. -/
theorem priceProgram_returns_value :
    (priceProgram [.return (some (.variable ⟨0⟩))]).LibraryBodiless ∧
      (priceProgram [.return (some (.variable ⟨0⟩))]).violations none = [] ∧
      (priceWorld [.return (some (.variable ⟨0⟩))]).KeepsVoidOut ∧
      (∀ declared before value after,
        (priceWorld [.return (some (.variable ⟨0⟩))]).Returns declared before value after →
          after.HoldsValues ∧ (declared.result ≠ .void → value ≠ .void)) ∧
      ∃ after,
        Ends (Run.entry (priceWorld [.return (some (.variable ⟨0⟩))]) 3 "shop.Main.run")
          (.fresh .standard) (.int 3) after := by
  have bodiless : (priceProgram [.return (some (.variable ⟨0⟩))]).LibraryBodiless := by
    decide +kernel
  have accepted : (priceProgram [.return (some (.variable ⟨0⟩))]).violations none = [] := by
    decide +kernel
  have keeps : (priceWorld [.return (some (.variable ⟨0⟩))]).KeepsVoidOut :=
    ⟨by decide +kernel, by decide +kernel, by decide +kernel, by decide +kernel⟩
  have haveReturns :
      ∀ entry ∈ (priceWorld [.return (some (.variable ⟨0⟩))]).program.entries,
        ∀ declared ∈ entry.2.methods, declared.hasReturn := by
    decide +kernel
  refine ⟨bodiless, accepted, keeps, ?_, _, Ends.of_result (by decide +kernel)⟩
  refine (World.activations_return_values_iff bodiless accepted keeps).1.2 ?_
  rintro declared before value after ⟨levels, id, method, receiver, arguments, activates, -⟩ -
  obtain ⟨declaration, declares, located⟩ := Option.bind_eq_some_iff.1 activates.found
  exact haveReturns _ (Program.mem_entries_of_class? declares) declared
    (List.mem_of_getElem? located)

/-- Without the return, the method that is asked is accepted all the same and returns nothing, and so
does the one that asks it. -/
theorem missingReturn_returns_void :
    (priceProgram []).LibraryBodiless ∧ (priceProgram []).violations none = [] ∧
      (priceWorld []).KeepsVoidOut ∧
      ((priceProgram []).method? ⟨"shop.Main", 0⟩).map Method.result = some .int ∧
      ((priceProgram []).method? ⟨"shop.Main", 1⟩).map Method.result = some .int ∧
      (∃ after,
        Ends
          (Run.enter (priceWorld []) (.within (priceWorld []) 2) ⟨"shop.Main", 0⟩
            ⟨"shop.Main", "price", [], .int⟩ none [])
          (.fresh .standard) .void after) ∧
      ∃ after,
        Ends (Run.entry (priceWorld []) 3 "shop.Main.run") (.fresh .standard) .void after :=
  ⟨by decide +kernel, by decide +kernel,
    ⟨by decide +kernel, by decide +kernel, by decide +kernel, by decide +kernel⟩, by decide +kernel,
    by decide +kernel, ⟨_, Ends.of_result (by decide +kernel)⟩,
    ⟨_, Ends.of_result (by decide +kernel)⟩⟩

end AccessProfiler
