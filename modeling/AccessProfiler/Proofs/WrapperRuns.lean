import AccessProfiler.Proofs.UnlimitedRuns
import AccessProfiler.Proofs.WrapperMembers

/-!
# Runs of the methods of wrappers

Where a program has the complete class of a wrapper, its methods come out on every instance as the access
to the array does that the instance keeps (`Run.wrapper_gets`, `Run.wrapper_sets`).  An access that
succeeds is counted by the incrementor, which is called after it; one that fails breaks the method off
before that, and leaves the instance as it was.
-/

namespace AccessProfiler

/-- The machine after an access through the wrapper in a slot was counted: the count is one more, and
the serial number and the new count are printed. -/
def Wrapper.counting
    (wrapper : Wrapper)
    (sink : Sink)
    (access : Access)
    (slot : Nat)
    (fields : FieldTable)
    (serial count : Int32)
    (machine : Machine) : Machine :=
  { machine with
    heap :=
      machine.heap.replace slot
        (.instanceOf wrapper.name
          (fields.write (.ofInstance wrapper.name access.countField .int) (.int (count + 1))))
    trace :=
      machine.trace ++
        [⟨sink.tag, Sink.serialLabel wrapper.name, serial.toInt⟩,
          ⟨sink.tag, Sink.counterLabel wrapper.name access.countField, (count + 1).toInt⟩] }

/-- The object in a slot is an instance of the wrapper that keeps a reference, and its counts are
numbers. -/
structure Wrapper.Keeps
    (wrapper : Wrapper)
    (machine : Machine)
    (slot : Nat)
    (fields : FieldTable)
    (array : Nat)
    (serial reads writes : Int32) : Prop where
  located : machine.heap.objects[slot]? = some (.instanceOf wrapper.name fields)
  array : fields.read wrapper.arrayField = .reference array
  serial : fields.read wrapper.profile.serial = .int serial
  reads : fields.read wrapper.profile.reads = .int reads
  writes : fields.read wrapper.profile.writes = .int writes

/-- To read an element through an instance comes out as to read it from the array that the instance
keeps.  A read that succeeds is counted, and one that fails changes nothing but the number of
instructions. -/
def Wrapper.Gets (wrapper : Wrapper) (program : Program) (sink : Sink) : Prop :=
  ∀ {levels slot array : Nat} {kind : CallKind} {machine : Machine} {fields : FieldTable}
    {serial reads writes : Int32},
    kind ≠ .static → wrapper.Keeps machine slot fields array serial reads writes →
      ∀ index : Int32,
        (Run.invoke (.unlimited program sink) (levels + 3) kind wrapper.get (some (.reference slot))
            [.int index]).on machine =
          match machine.heap.readElement array index with
          | .ok value =>
            (.ok value,
              { wrapper.counting sink .read slot fields serial reads machine with
                executed := machine.executed + 14 })
          | .error failure => (.error failure, { machine with executed := machine.executed + 4 })

/-- To store an element through an instance comes out as to store it in the array that the instance
keeps.  A write that succeeds is counted, and one that fails changes nothing but the number of
instructions. -/
def Wrapper.Sets (wrapper : Wrapper) (program : Program) (sink : Sink) : Prop :=
  ∀ {levels slot array : Nat} {kind : CallKind} {machine : Machine} {fields : FieldTable}
    {serial reads writes : Int32},
    kind ≠ .static → wrapper.Keeps machine slot fields array serial reads writes →
      ∀ (index : Int32) (value : Datum),
        (Run.invoke (.unlimited program sink) (levels + 3) kind wrapper.set (some (.reference slot))
            [.int index, value]).on machine =
          match machine.heap.writeElement array index value with
          | .ok heap =>
            (.ok .void,
              { wrapper.counting sink .write slot fields serial writes { machine with heap } with
                executed := machine.executed + 15 })
          | .error failure => (.error failure, { machine with executed := machine.executed + 5 })

namespace Run

variable
    {program : Program}
    {counter name : String}
    {sink : Sink}
    {element : Ty}
    {staticCounter : FieldRef}
    {levels slot : Nat}
    {machine : Machine}
    {fields : FieldTable}
    {serial count : Int32}

/-- However an instance is called by a method of its class, the search starts at that class. -/
theorem startClass_of_instance
    {heap : Heap}
    {method : MethodRef}
    (kind : CallKind)
    (located : heap.objects[slot]? = some (.instanceOf name fields))
    (owned : method.owner = name) :
    startClass heap method kind (some (.reference slot)) = name := by
  cases kind with
  | virtual | interface =>
    rw [startClass, located]
    rfl
  | special | static => exact owned

section Members

variable
    (has : program.HasWrapper counter sink (.ofElement name element staticCounter))
    (apart : name ≠ sink.owner)
include has apart

/-- A call of a method of a wrapper comes out as its body does. -/
theorem on_invoke_member
    {kind : CallKind}
    {arguments : List Datum}
    {index : Nat}
    {reference : MethodRef}
    {entered : Body}
    {result : Except Failure Datum × Machine}
    (dispatched : kind ≠ .static)
    (located : machine.heap.objects[slot]? = some (.instanceOf name fields))
    (listed :
      ((Wrapper.ofElement name element staticCounter).complete sink).methods[index]? =
        some (Wrapper.member reference entered))
    (owned : reference.owner = name)
    (runs :
      (instructions (.unlimited program sink) (.within (.unlimited program sink) levels)
        (some (.reference slot)) arguments
        (entered.locals.map fun declaration => .zero declaration.type) entered.instructions).on
          { machine with depth := machine.depth + 1 } =
        (result.1, { result.2 with depth := machine.depth + 1 }))
    (closed : result.2.depth = machine.depth) :
    (invoke (.unlimited program sink) (levels + 1) kind reference (some (.reference slot))
      arguments).on machine = result := by
  obtain ⟨leads, found⟩ := has.target?_eq listed owned
  have starts := startClass_of_instance kind located owned
  obtain ⟨outcome, heap, statics, trace, initialized, executed, depth⟩ := result
  cases closed
  exact on_invokeStep (fun sinks => apart (owned ▸ sinks.1)) dispatched (Heap.lt_size_of_get? located)
    ((congrArg (target? program · _) starts).trans leads) found runs

/-- The method of a wrapper that counts an access adds one to the count and reports it. -/
theorem ends_incrementor
    (access : Access)
    (located : machine.heap.objects[slot]? = some (.instanceOf name fields))
    (numbered : fields.read (.ofInstance name serialField .int) = .int serial)
    (counts : fields.read (.ofInstance name access.countField .int) = .int count) :
    Ends
      ((Callees.within (.unlimited program sink) (levels + 2)).invoke .virtual
        ⟨name, access.incrementor, [], .void⟩ (some (.reference slot)) [])
      machine .void
      { (Wrapper.ofElement name element staticCounter).counting sink access slot fields serial count
          machine with
        executed := machine.executed + 8 } := by
  obtain ⟨index, listed⟩ :
      ∃ index : Nat,
        ((Wrapper.ofElement name element staticCounter).complete sink).methods[index]? =
          some (Wrapper.member ⟨name, access.incrementor, [], .void⟩
            (Profile.countingBody sink name access)) := by
    cases access with
    | read => exact ⟨0, rfl⟩
    | write => exact ⟨1, rfl⟩
  have meantCount :
      declaredField program (.ofInstance name access.countField .int) =
        .ofInstance name access.countField .int := by
    refine has.declaredField_eq ?_
    cases access <;> simp [Wrapper.fields, Wrapper.ofElement, Profile.ofClass, Access.countField]
  have meantSerial :
      declaredField program (.ofInstance name serialField .int) = .ofInstance name serialField .int :=
    has.declaredField_eq (by simp [Wrapper.fields, Wrapper.ofElement, Profile.ofClass])
  have written :
      (machine.heap.replace slot
          (.instanceOf name
            (fields.write (.ofInstance name access.countField .int) (.int (count + 1))))).objects[slot]? =
        some (.instanceOf name
          (fields.write (.ofInstance name access.countField .int) (.int (count + 1)))) :=
    Heap.replace_get?_self located
  have stillNumbered :
      (fields.write (.ofInstance name access.countField .int) (.int (count + 1))).read
          (.ofInstance name serialField .int) =
        .int serial := by
    rw [FieldTable.read_write_of_ne, numbered]
    exact fun same => access.countField_ne_serialField (Prod.mk.inj same).2.symm
  have operation :
      (if (FieldRef.ofInstance name access.countField .int).name = readsField then "reads"
        else "writes") = access.countField := by
    cases access <;> rfl
  refine on_invoke_member has apart CallKind.noConfusion located listed rfl ?_ rfl
  refine on_instructions_bind rfl (by simp [Profile.countingBody, Profile.incrementorBody]) ?_
  refine on_instructions_readField located rfl meantCount counts
    (by simp [Profile.countingBody, Profile.incrementorBody]) ?_
  refine on_instructions_increment rfl ?_
  refine on_instructions_writeField located rfl meantCount rfl ?_
  refine on_instructions_readField written rfl meantSerial stillNumbered
    (by simp [Profile.countingBody, Profile.incrementorBody]) ?_
  refine on_instructions_report rfl ?_
  refine on_instructions_report rfl ?_
  refine on_instructions_return_none.trans ?_
  simp only [counted, Wrapper.counting, List.append_assoc, List.cons_append, List.nil_append, operation]
  rfl

theorem wrapper_gets : (Wrapper.ofElement name element staticCounter).Gets program sink := by
  intro levels slot array kind machine fields serial reads writes dispatched keeps index
  let wrapper : Wrapper := .ofElement name element staticCounter
  have listed :
      (wrapper.complete sink).methods[4]? =
        some (Wrapper.member wrapper.get
          (Wrapper.getBody name element wrapper.arrayField wrapper.profile)) :=
    rfl
  have located : machine.heap.objects[slot]? = some (.instanceOf name fields) := keeps.located
  have meant : declaredField program wrapper.arrayField = wrapper.arrayField :=
    has.declaredField_eq (by simp [Wrapper.fields, wrapper])
  refine on_invoke_member has apart dispatched located listed rfl ?_ (by split <;> rfl)
  refine on_instructions_bind rfl (by simp [Wrapper.getBody]) ?_
  refine on_instructions_bind rfl (by simp [Wrapper.getBody]) ?_
  refine on_instructions_readField located rfl meant keeps.array (by simp [Wrapper.getBody]) ?_
  -- The count comes after the access, so that nothing is counted if it fails.
  cases read : machine.heap.readElement array index with
  | error failure => exact on_instructions_assign_of_fails (fails_element rfl rfl read)
  | ok value =>
    refine on_instructions_assign ⟨array, index, rfl, rfl, read, rfl⟩
      ⟨by simp [Wrapper.getBody], rfl, rfl⟩ ?_
    refine on_instructions_invoke ⟨some (.reference slot), [], rfl, rfl,
      ends_incrementor has apart .read located keeps.serial keeps.reads⟩ ?_
    exact on_instructions_return_some rfl

theorem wrapper_sets : (Wrapper.ofElement name element staticCounter).Sets program sink := by
  intro levels slot array kind machine fields serial reads writes dispatched keeps index value
  let wrapper : Wrapper := .ofElement name element staticCounter
  have listed :
      (wrapper.complete sink).methods[5]? =
        some (Wrapper.member wrapper.set
          (Wrapper.setBody name element wrapper.arrayField wrapper.profile)) :=
    rfl
  have located : machine.heap.objects[slot]? = some (.instanceOf name fields) := keeps.located
  have meant : declaredField program wrapper.arrayField = wrapper.arrayField :=
    has.declaredField_eq (by simp [Wrapper.fields, wrapper])
  refine on_invoke_member has apart dispatched located listed rfl ?_ (by split <;> rfl)
  refine on_instructions_bind rfl (by simp [Wrapper.setBody]) ?_
  refine on_instructions_bind rfl (by simp [Wrapper.setBody]) ?_
  refine on_instructions_bind rfl (by simp [Wrapper.setBody]) ?_
  refine on_instructions_readField located rfl meant keeps.array (by simp [Wrapper.setBody]) ?_
  cases write : machine.heap.writeElement array index value with
  | error failure =>
    exact on_instructions_assign_of_not_stored ⟨rfl, rfl⟩ (fails_store_element rfl rfl write)
  | ok heap =>
    -- The instance is no array, so that it is what it was for the count.
    have still := Heap.get?_of_writeElement write located
    refine on_instructions_assign ⟨rfl, rfl⟩ ⟨array, index, heap, rfl, rfl, write, rfl, rfl⟩ ?_
    refine on_instructions_invoke ⟨some (.reference slot), [], rfl, rfl,
      ends_incrementor has apart .write still keeps.serial keeps.writes⟩ ?_
    exact on_instructions_return_none

end Members
end Run
end AccessProfiler
