import AccessProfiler.Proofs.WrapperRuns

/-!
# Constructors of wrappers

A constructor of a wrapper gives the instance the next serial number, and then keeps the array that it
was given or one that it makes.  The number comes from the static counter, whose class is initialized
first; no class is registered above it, so that nothing runs for that.

With the methods, this is how a wrapper behaves (`Wrapper.ActsAsArray`): as the array that it keeps, but
for its counts, the lines that are printed and the number of instructions.  Each wrapper that a request
makes where nothing is in the way does so (`Transform.wrapperFor_acts_as_array`).
-/

namespace AccessProfiler

/-- The classes that are initialized once one below the root class is. -/
def initializedWith (className : String) (classes : List String) : List String :=
  if className ∈ classes then classes
  else if objectClass ∈ classes then classes ++ [className]
  else classes ++ [className, objectClass]

theorem mem_initializedWith (className : String) (classes : List String) :
    className ∈ initializedWith className classes := by
  unfold initializedWith
  split
  · assumption
  · split <;> simp

theorem initializedWith_of_mem
    {className : String}
    {classes : List String}
    (member : className ∈ classes) :
    initializedWith className classes = classes :=
  if_pos member

/-- The fields of an instance once a constructor of the wrapper has run. -/
def Wrapper.constructed
    (wrapper : Wrapper)
    (fields : FieldTable)
    (count : Int32)
    (given : Datum) : FieldTable :=
  (fields.write wrapper.profile.serial (.int (count + 1))).write wrapper.arrayField given

/-- The body of a constructor with one parameter that goes on so after the one of the root class. -/
def Wrapper.constructorBody
    (name : String)
    (this argument : LocalDecl)
    (others : List LocalDecl)
    (parameter : Ty)
    (rest : List Instruction) : Body where
  locals := this :: argument :: others
  instructions :=
    .bind ⟨0⟩ (.receiver (.object name)) :: .bind ⟨1⟩ (.parameter 0 parameter) ::
      .invoke (.ofSpecial ⟨0⟩ rootConstructor []) :: rest

/-- The machine after an instance of the wrapper got the next serial number: the static counter and the
instance have it, and it is printed. -/
def Wrapper.numbering
    (wrapper : Wrapper)
    (counter : String)
    (sink : Sink)
    (slot : Nat)
    (fields : FieldTable)
    (count : Int32)
    (machine : Machine) : Machine :=
  { machine with
    heap :=
      machine.heap.replace slot
        (.instanceOf wrapper.name (fields.write wrapper.profile.serial (.int (count + 1))))
    statics := machine.statics.write wrapper.profile.staticCounter (.int (count + 1))
    trace := machine.trace ++ [⟨sink.tag, Sink.serialLabel wrapper.name, (count + 1).toInt⟩]
    initialized := initializedWith counter machine.initialized }

/-- The constructor that takes an array numbers an instance and lets it keep the array. -/
def Wrapper.Wraps
    (wrapper : Wrapper)
    (counter : String)
    (program : Program)
    (sink : Sink) : Prop :=
  ∀ {levels slot : Nat} {machine : Machine} {fields : FieldTable} {count : Int32},
    ¬ Run.CallsSink (.unlimited program sink) rootConstructor →
    machine.heap.objects[slot]? = some (.instanceOf wrapper.name fields) →
    machine.statics.read wrapper.profile.staticCounter = .int count →
      ∀ given : Datum,
        (Run.invoke (.unlimited program sink) (levels + 3) .special wrapper.fromArray
            (some (.reference slot)) [given]).on machine =
          (.ok .void,
            { wrapper.numbering counter sink slot fields count machine with
              heap :=
                machine.heap.replace slot
                  (.instanceOf wrapper.name (wrapper.constructed fields count given))
              executed := machine.executed + 10 })

/-- The constructor that takes a length numbers an instance and lets it keep a new array, unless the
length is negative. -/
def Wrapper.Allocates
    (wrapper : Wrapper)
    (counter : String)
    (program : Program)
    (sink : Sink) : Prop :=
  ∀ {levels slot : Nat} {machine : Machine} {fields : FieldTable} {count : Int32},
    ¬ Run.CallsSink (.unlimited program sink) rootConstructor →
    machine.heap.objects[slot]? = some (.instanceOf wrapper.name fields) →
    machine.statics.read wrapper.profile.staticCounter = .int count →
    machine.heap.limit = 0 →
      ∀ length : Int32,
        (Run.invoke (.unlimited program sink) (levels + 3) .special wrapper.withLength
            (some (.reference slot)) [.int length]).on machine =
          if length.toInt < 0 then
            (.error (.fault (.negativeSize length)),
              { wrapper.numbering counter sink slot fields count machine with
                executed := machine.executed + 9 })
          else
            (.ok .void,
              { wrapper.numbering counter sink slot fields count machine with
                heap :=
                  Heap.replace
                    { machine.heap with
                      objects :=
                        machine.heap.objects.push
                          (.array wrapper.element
                            (Array.replicate length.toInt.toNat (.zero wrapper.element))) }
                    slot
                    (.instanceOf wrapper.name
                      (wrapper.constructed fields count (.reference machine.heap.size)))
                executed := machine.executed + 11 })

namespace Run

variable
    {program : Program}
    {counter name : String}
    {sink : Sink}
    {element : Ty}
    {field staticCounter : FieldRef}
    {levels slot : Nat}
    {machine : Machine}
    {fields : FieldTable}
    {count : Int32}

/-- To initialize the class of the counters runs nothing. -/
theorem ends_prepare_counter
    (has : program.HasTally counter sink field)
    (apart : counter ≠ objectClass)
    (machine : Machine) :
    Ends ((Callees.within (.unlimited program sink) (levels + 2)).prepare counter) machine ()
      { machine with initialized := initializedWith counter machine.initialized } := by
  have above (classes : List String) :
      Ends ((Callees.within (.unlimited program sink) (levels + 1)).prepare objectClass)
        { machine with initialized := classes } ()
        { machine with
          initialized := if objectClass ∈ classes then classes else classes ++ [objectClass] } := by
    refine ends_prepareStep.2 ?_
    split
    · rename_i known
      exact .inl ⟨known, rfl⟩
    · rename_i unknown
      exact .inr ⟨unknown, _, (initializesAbove_of_none (Program.superclass?_eq_none has.root)).2 rfl,
        (initializes_of_none (Program.findMethod?_eq_none has.root)).2 rfl⟩
  refine ends_prepareStep.2 ?_
  by_cases known : counter ∈ machine.initialized
  · rw [initializedWith_of_mem known]
    exact .inl ⟨known, rfl⟩
  · refine .inr ⟨known, _, (initializesAbove_of_some has.superclass?_eq).2 (above _),
      (initializes_of_none has.findMethod?_staticInitializer).2 ?_⟩
    simp [initializedWith, known, apart.symm]

section Code

variable
    {receiver : Option Datum}
    {arguments locals : List Datum}
    {rest : List Instruction}
    {this : LocalId}
    {result : Except Failure Datum × Machine}

/-- Where the root class is not registered, a call of its constructor does nothing. -/
theorem on_instructions_rootConstructor
    (root : program.class? objectClass = none)
    (elsewhere : ¬ CallsSink (.unlimited program sink) Wrapper.rootConstructor)
    (refers : locals[this.index]? = some (.reference slot))
    (further :
      (instructions (.unlimited program sink) (.within (.unlimited program sink) (levels + 1)) receiver
        arguments locals rest).on (counted machine) = result) :
    (instructions (.unlimited program sink) (.within (.unlimited program sink) (levels + 1)) receiver
        arguments locals (.invoke (.ofSpecial this Wrapper.rootConstructor []) :: rest)).on machine =
      result := by
  have absent : target? program Wrapper.rootConstructor.owner Wrapper.rootConstructor = none :=
    Program.target?_of_absent program root
  have nothing :
      Reaches (.unlimited program sink) (.within (.unlimited program sink) levels)
        Wrapper.rootConstructor (some (.reference slot)) [] (counted machine) .void (counted machine)
        (target? program objectClass Wrapper.rootConstructor) :=
    absent ▸ ⟨rfl, rfl, rfl, rfl⟩
  have called :
      Evaluates (.unlimited program sink) (.within (.unlimited program sink) (levels + 1)) locals
        (counted machine) .void (counted machine)
        (.call (.ofSpecial this Wrapper.rootConstructor [])) :=
    ⟨some (.reference slot), [], by simp [Call.ofSpecial, refers], rfl,
      ends_invokeStep.2 (.inr ⟨elsewhere, .inr rfl, objectClass, _, ⟨rfl, rfl⟩, nothing⟩)⟩
  exact on_instructions_invoke called further

/-- The block of a constructor that gives an instance the next serial number. -/
theorem on_instructions_serialAssignment
    {number : LocalId}
    (has : program.HasWrapper counter sink (.ofElement name element staticCounter))
    (apart : counter ≠ objectClass)
    (located : machine.heap.objects[slot]? = some (.instanceOf name fields))
    (refers : locals[this.index]? = some (.reference slot))
    (declared : number.index < locals.length)
    (differs : number.index ≠ this.index)
    (counts : machine.statics.read staticCounter = .int count)
    (further :
      (instructions (.unlimited program sink) (.within (.unlimited program sink) (levels + 2)) receiver
        arguments (locals.set number.index (.int (count + 1))) rest).on
          { (Wrapper.ofElement name element staticCounter).numbering counter sink slot fields count
              machine with
            executed := machine.executed + 5 } = result) :
    (instructions (.unlimited program sink) (.within (.unlimited program sink) (levels + 2)) receiver
        arguments locals
        ((Profile.ofClass name staticCounter).serialAssignment sink this number ++ rest)).on machine =
      result := by
  have meantSerial :
      declaredField program (.ofInstance name serialField .int) = .ofInstance name serialField .int :=
    has.declaredField_eq (by simp [Wrapper.fields, Wrapper.ofElement, Profile.ofClass])
  have meantCounter : declaredField program staticCounter = staticCounter :=
    has.tally.declaredField_eq
  have owner : staticCounter.owner = counter := congrArg FieldRef.owner has.tally.tallies
  have ready (machine : Machine) :
      Ends ((Callees.within (.unlimited program sink) (levels + 2)).prepare staticCounter.owner) machine
        () { machine with initialized := initializedWith counter machine.initialized } := by
    rw [owner]
    exact ends_prepare_counter has.tally apart machine
  have held : (locals.set number.index (.int count))[number.index]? = some (.int count) :=
    List.getElem?_set_self declared
  have heldNext :
      (locals.set number.index (.int (count + 1)))[number.index]? = some (.int (count + 1)) :=
    List.getElem?_set_self declared
  have refersStill :
      (locals.set number.index (.int (count + 1)))[this.index]? = some (.reference slot) := by
    rw [List.getElem?_set_ne differs, refers]
  simp only [Profile.serialAssignment, List.cons_append, List.nil_append]
  refine on_instructions_readStatic meantCounter (ready _) counts declared ?_
  refine on_instructions_increment held ?_
  rw [List.set_set]
  refine on_instructions_writeField located refersStill meantSerial heldNext ?_
  refine on_instructions_writeStatic meantCounter (ready _) heldNext ?_
  refine on_instructions_report heldNext ?_
  -- The class is initialized for the read, and the write finds it so.
  have once := initializedWith_of_mem (mem_initializedWith counter machine.initialized)
  simp only [counted, once]
  exact further

end Code

section Constructors

variable
    (has : program.HasWrapper counter sink (.ofElement name element staticCounter))
    (apart : name ≠ sink.owner)
    (countersRoot : counter ≠ objectClass)
include has apart countersRoot

/-- A constructor of a wrapper first numbers the instance. -/
theorem on_constructor
    {this argument : LocalDecl}
    {others : List LocalDecl}
    {parameter : Ty}
    {rest : List Instruction}
    {index : Nat}
    {reference : MethodRef}
    {given : Datum}
    {result : Except Failure Datum × Machine}
    (elsewhere : ¬ CallsSink (.unlimited program sink) Wrapper.rootConstructor)
    (located : machine.heap.objects[slot]? = some (.instanceOf name fields))
    (counts : machine.statics.read staticCounter = .int count)
    (listed :
      ((Wrapper.ofElement name element staticCounter).complete sink).methods[index]? =
        some (Wrapper.member reference
          ((Profile.ofClass name staticCounter).patched sink
            (Wrapper.constructorBody name this argument others parameter rest))))
    (owned : reference.owner = name)
    (unskipped :
      (Profile.ofClass name staticCounter).skip? ⟨0⟩
          (Wrapper.constructorBody name this argument others parameter rest).instructions =
        none)
    (runs :
      (instructions (.unlimited program sink) (.within (.unlimited program sink) (levels + 2))
        (some (.reference slot)) [given]
        (.reference slot :: given ::
          (others.map (fun declaration => .zero declaration.type) ++ [.int (count + 1)])) rest).on
          { (Wrapper.ofElement name element staticCounter).numbering counter sink slot fields count
              machine with
            executed := machine.executed + 8
            depth := machine.depth + 1 } =
        (result.1, { result.2 with depth := machine.depth + 1 }))
    (closed : result.2.depth = machine.depth) :
    (invoke (.unlimited program sink) (levels + 3) .special reference (some (.reference slot))
      [given]).on machine = result := by
  obtain ⟨declaration, patched⟩ :=
    Profile.patched_of_unskipped sink (.ofClass name staticCounter) rfl unskipped
  have numbered :
      ((.reference slot :: given ::
          ((others ++ [declaration]).map fun declaration => Datum.zero declaration.type)).set
        (others.length + 2) (.int (count + 1))) =
        .reference slot :: given ::
          (others.map (fun declaration => .zero declaration.type) ++ [.int (count + 1)]) := by
    simp
  refine on_invoke_member has apart CallKind.noConfusion located listed owned ?_ closed
  rw [patched]
  refine on_instructions_bind rfl (by simp) ?_
  refine on_instructions_bind rfl (by simp [Wrapper.constructorBody]) ?_
  refine on_instructions_serialAssignment has countersRoot located rfl
    (by simp [Wrapper.constructorBody]) Nat.noConfusion counts ?_
  refine on_instructions_rootConstructor has.tally.root elsewhere rfl ?_
  refine Eq.trans ?_ runs
  rw [← numbered]
  rfl

theorem wrapper_wraps (wrapperRoot : name ≠ objectClass) :
    (Wrapper.ofElement name element staticCounter).Wraps counter program sink := by
  intro levels slot machine fields count elsewhere located counts given
  let wrapper : Wrapper := .ofElement name element staticCounter
  have listed :
      (wrapper.complete sink).methods[2]? =
        some (Wrapper.member wrapper.fromArray
          (wrapper.profile.patched sink
            (Wrapper.fromArrayBody name element wrapper.arrayField))) :=
    rfl
  have meant : declaredField program wrapper.arrayField = wrapper.arrayField :=
    has.declaredField_eq (by simp [Wrapper.fields, wrapper])
  refine on_constructor has apart countersRoot elsewhere located counts listed rfl
    (Wrapper.skip?_eq_none wrapperRoot _).1 ?_ rfl
  refine on_instructions_writeField (Heap.replace_get?_self located) rfl meant rfl ?_
  refine on_instructions_return_none.trans ?_
  simp only [counted, Wrapper.numbering, Heap.replace_replace]
  rfl

theorem wrapper_allocates (wrapperRoot : name ≠ objectClass) :
    (Wrapper.ofElement name element staticCounter).Allocates counter program sink := by
  intro levels slot machine fields count elsewhere located counts unbounded length
  let wrapper : Wrapper := .ofElement name element staticCounter
  have listed :
      (wrapper.complete sink).methods[3]? =
        some (Wrapper.member wrapper.withLength
          (wrapper.profile.patched sink
            (Wrapper.withLengthBody name element wrapper.arrayField))) :=
    rfl
  have meant : declaredField program wrapper.arrayField = wrapper.arrayField :=
    has.declaredField_eq (by simp [Wrapper.fields, wrapper])
  refine on_constructor has apart countersRoot elsewhere located counts listed rfl
    (Wrapper.skip?_eq_none wrapperRoot _).2 ?_ (by split <;> rfl)
  by_cases negative : length.toInt < 0
  · rw [if_pos negative]
    exact on_instructions_assign_of_fails (fails_newArray rfl negative)
  · rw [if_neg negative]
    let numbered : Heap :=
      machine.heap.replace slot
        (.instanceOf name (fields.write (.ofInstance name serialField .int) (.int (count + 1))))
    let array : HeapObject := .array element (Array.replicate length.toInt.toNat (.zero element))
    have allocated :
        numbered.allocateArray element length.toInt.toNat =
          .ok (machine.heap.size, { numbered with objects := numbered.objects.push array }) :=
      Heap.allocate_eq_ok.2 ⟨.inl unbounded, Heap.replace_size.symm, rfl⟩
    refine on_instructions_assign
      ⟨length, _, _, rfl, Int.not_lt.1 negative, allocated, rfl, rfl⟩ ⟨by simp, rfl, rfl⟩ ?_
    refine on_instructions_writeField (Heap.push_get?_of_some (Heap.replace_get?_self located) array) rfl
      meant rfl ?_
    refine on_instructions_return_none.trans ?_
    -- The array came in after the number and before the reference to it.
    have taken := Heap.lt_size_of_get? located
    have pushed :
        { numbered with objects := numbered.objects.push array } =
          Heap.replace { machine.heap with objects := machine.heap.objects.push array } slot
            (.instanceOf name (fields.write (.ofInstance name serialField .int) (.int (count + 1)))) :=
      (Heap.replace_push taken).symm
    simp only [counted, pushed, Heap.replace_replace]
    rfl

end Constructors
end Run

/-- The wrapper behaves as the array that it keeps, and counts.  Its methods come out as the access to
the array does, and its constructors give an instance the next serial number and the array. -/
structure Wrapper.ActsAsArray
    (wrapper : Wrapper)
    (counter : String)
    (program : Program)
    (sink : Sink) : Prop where
  gets : wrapper.Gets program sink
  sets : wrapper.Sets program sink
  wraps : wrapper.Wraps counter program sink
  allocates : wrapper.Allocates counter program sink
  keeps :
    ∀ {slot array : Nat} {machine : Machine} {fields : FieldTable} {count reads writes : Int32},
      machine.heap.objects[slot]? =
        some (.instanceOf wrapper.name (wrapper.constructed fields count (.reference array))) →
      fields.read wrapper.profile.reads = .int reads →
      fields.read wrapper.profile.writes = .int writes →
        wrapper.Keeps machine slot (wrapper.constructed fields count (.reference array)) array (count + 1)
          reads writes

/-- What the constructors of a wrapper store is found in the fields, and the counts are as they were. -/
theorem Wrapper.keeps_of_constructed
    {name : String}
    {element : Ty}
    {staticCounter : FieldRef}
    {slot array : Nat}
    {machine : Machine}
    {fields : FieldTable}
    {count reads writes : Int32}
    (located :
      machine.heap.objects[slot]? =
        some (.instanceOf name
          ((ofElement name element staticCounter).constructed fields count (.reference array))))
    (read : fields.read (.ofInstance name readsField .int) = .int reads)
    (written : fields.read (.ofInstance name writesField .int) = .int writes) :
    (ofElement name element staticCounter).Keeps machine slot
      ((ofElement name element staticCounter).constructed fields count (.reference array)) array
      (count + 1) reads writes := by
  have distinct :
      serialField ≠ AccessProfiler.arrayField ∧ readsField ≠ AccessProfiler.arrayField ∧
        readsField ≠ serialField ∧ writesField ≠ AccessProfiler.arrayField ∧
        writesField ≠ serialField := by
    decide
  obtain ⟨serialArray, readsArray, readsSerial, writesArray, writesSerial⟩ := distinct
  have apart {first second : String} {type other : Ty} (differs : first ≠ second) :
      ((FieldRef.ofInstance name first type).owner, (FieldRef.ofInstance name first type).name) ≠
        ((FieldRef.ofInstance name second other).owner,
          (FieldRef.ofInstance name second other).name) :=
    fun same => differs (Prod.mk.inj same).2
  refine ⟨located, FieldTable.read_write_self _ _ _, ?_, ?_, ?_⟩
  · exact (FieldTable.read_write_of_ne (apart serialArray) _).trans
      (FieldTable.read_write_self _ _ _)
  · exact (FieldTable.read_write_of_ne (apart readsArray) _).trans
      ((FieldTable.read_write_of_ne (apart readsSerial) _).trans read)
  · exact (FieldTable.read_write_of_ne (apart writesArray) _).trans
      ((FieldTable.read_write_of_ne (apart writesSerial) _).trans written)

/-- A request for a wrapper, where nothing has the names that generation gives, gives one that behaves as
its array and counts. -/
theorem Transform.wrapperFor_acts_as_array
    {settings : Settings}
    {program : Program}
    {element : Ty}
    {name : String}
    (named : Wrapper.nameFor? settings element = some name)
    (room : settings.HasRoomFor program name) :
    ∃ staticCounter after,
      Ends (wrapperFor element) (.start settings program)
          (some (.ofElement name element staticCounter)) after ∧
        (Wrapper.ofElement name element staticCounter).ActsAsArray settings.counterClassName
          after.program settings.sink := by
  obtain ⟨_, after, ends, staticCounter, rfl, has⟩ := wrapperFor_builds named room
  exact ⟨staticCounter, after, ends,
    { gets := Run.wrapper_gets has room.wrapperSink
      sets := Run.wrapper_sets has room.wrapperSink
      wraps := Run.wrapper_wraps has room.wrapperSink room.countersRoot room.wrapperRoot
      allocates := Run.wrapper_allocates has room.wrapperSink room.countersRoot room.wrapperRoot
      keeps := Wrapper.keeps_of_constructed }⟩

/-- Two numbers, and a wrapper that keeps them. -/
def Machine.wrappedNumbers (wrapper : Wrapper) : Machine :=
  { Machine.fresh .unlimited with
    heap :=
      { objects :=
          #[.array .int #[.int 5, .int 7],
            .instanceOf wrapper.name (FieldTable.write .empty wrapper.arrayField (.reference 0))]
        limit := 0 }
    statics := FieldTable.write .empty wrapper.profile.staticCounter (.int 1) }

/-- The second of the two numbers is read and the first one overwritten, there is no third one, and a
wrapper of three more can be made. -/
theorem Transform.numbersWrapper_acts_as_array :
    ∃ staticCounter after,
      let wrapper : Wrapper := .ofElement "heapscope.generated.intArray" .int staticCounter
      let outcome (kind : CallKind) (method : MethodRef) (given : List Datum) : Except Failure Datum :=
        ((Run.invoke (.unlimited after.program .standard) 3 kind method (some (.reference 1)) given).on
          (.wrappedNumbers wrapper)).1
      Ends (wrapperFor .int) (.start .standard .empty) (some wrapper) after ∧
        outcome .virtual wrapper.get [.int 1] = .ok (.int 7) ∧
        outcome .virtual wrapper.get [.int 2] = .error (.fault (.indexOutOfBounds 2 2)) ∧
        outcome .virtual wrapper.set [.int 0, .int 9] = .ok .void ∧
        outcome .special wrapper.withLength [.int 3] = .ok .void := by
  have named : Wrapper.nameFor? .standard .int = some "heapscope.generated.intArray" := by
    decide +kernel
  have room : Settings.standard.HasRoomFor .empty "heapscope.generated.intArray" :=
    ⟨rfl, rfl, rfl, by decide, by decide, by decide, by decide, by decide⟩
  obtain ⟨staticCounter, after, ends, acts⟩ := wrapperFor_acts_as_array named room
  let wrapper : Wrapper := .ofElement "heapscope.generated.intArray" .int staticCounter
  have keeps :
      wrapper.Keeps (.wrappedNumbers wrapper) 1
        (FieldTable.write .empty wrapper.arrayField (.reference 0)) 0 0 0 0 :=
    ⟨rfl, FieldTable.read_write_self _ _ _, rfl, rfl, rfl⟩
  have counts :
      (Machine.wrappedNumbers wrapper).statics.read wrapper.profile.staticCounter = .int 1 :=
    FieldTable.read_write_self _ _ _
  have apart : objectClass ≠ Sink.standard.owner := by decide
  refine ⟨staticCounter, after, ends, ?_, ?_, ?_, ?_⟩
  · exact congrArg Prod.fst (acts.gets CallKind.noConfusion keeps 1)
  · exact congrArg Prod.fst (acts.gets CallKind.noConfusion keeps 2)
  · exact congrArg Prod.fst (acts.sets CallKind.noConfusion keeps 0 (.int 9))
  · exact congrArg Prod.fst (acts.allocates (fun sinks => apart sinks.1) keeps.located counts rfl 3)

end AccessProfiler
