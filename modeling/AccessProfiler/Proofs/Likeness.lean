import AccessProfiler.Instrument.Profile
import AccessProfiler.Proofs.Naming
import AccessProfiler.Proofs.RunRules

/-!
# Machines that differ in counts only

A machine that runs a program with counting has the same objects in the same slots as one that runs
the original program; only the fields that hold counts differ, the static fields of the class of the
counters, and the lines that report counts (`Machine.Alike`).  The counts are integers all along
(`Machine.Matches`), so that counting never fails.

The first group of lemmas is about what both machines do, the second about what only the machine with
counting does.
-/

namespace AccessProfiler

namespace FieldTable

/-- All fields but the counts have the same values. -/
def Alike (fields others : FieldTable) : Prop :=
  ∀ key, isInstrumentationName key.2 = false → others.get? key = fields.get? key

/-- The counts are integers. -/
def Counting (fields : FieldTable) : Prop :=
  ∀ key value, isInstrumentationName key.2 → fields.get? key = some value →
    ∃ number, value = .int number

variable {fields others : FieldTable} {field : FieldRef} {value : Datum}

theorem Alike.read
    (alike : fields.Alike others)
    (plain : isInstrumentationName field.name = false) :
    others.read field = fields.read field := by
  unfold FieldTable.read
  rw [alike (field.owner, field.name) plain]

theorem Alike.write (alike : fields.Alike others) :
    (fields.write field value).Alike (others.write field value) := by
  intro key plain
  unfold FieldTable.write
  rw [Table.get?_put, Table.get?_put, alike key plain]

theorem Alike.write_right
    (alike : fields.Alike others)
    (counts : isInstrumentationName field.name) :
    fields.Alike (others.write field value) := by
  intro key plain
  unfold FieldTable.write
  rw [Table.get?_put]
  split
  · rename_i same
    subst same
    rw [counts] at plain
    cases plain
  · exact alike key plain

theorem Counting.read (counting : fields.Counting) (counts : field.CountsAccess) :
    ∃ number, fields.read field = .int number := by
  unfold FieldTable.read
  cases found : fields.get? (field.owner, field.name) with
  | none =>
    rw [counts.2]
    exact ⟨0, rfl⟩
  | some value => exact counting _ value counts.1 found

theorem Counting.write_plain
    (counting : fields.Counting)
    (plain : isInstrumentationName field.name = false) :
    (fields.write field value).Counting := by
  intro key other counts found
  unfold FieldTable.write at found
  rw [Table.get?_put] at found
  split at found
  · rename_i same
    subst same
    rw [plain] at counts
    cases counts
  · exact counting key other counts found

theorem Counting.write_int (counting : fields.Counting) {number : Int32} :
    (fields.write field (.int number)).Counting := by
  intro key other counts found
  unfold FieldTable.write at found
  rw [Table.get?_put] at found
  split at found
  · cases found
    exact ⟨number, rfl⟩
  · exact counting key other counts found

end FieldTable

namespace HeapObject

/-- The objects are instances that differ in counts only, or the same array. -/
inductive Alike : HeapObject → HeapObject → Prop
  | instances
      {className : String}
      {fields others : FieldTable}
      (alike : fields.Alike others) :
      Alike (.instanceOf className fields) (.instanceOf className others)
  | arrays (element : Ty) (values : Array Datum) :
      Alike (.array element values) (.array element values)

/-- The counts of an instance are integers. -/
def Counting : HeapObject → Prop
  | .instanceOf _ fields => fields.Counting
  | .array _ _ => True

end HeapObject

/-- The machines differ in counts only: the other one runs the program with counting. -/
structure Machine.Alike (counter : String) (machine other : Machine) : Prop where
  size : other.heap.size = machine.heap.size
  objects :
    ∀ (slot : Nat) (object found : HeapObject), machine.heap.objects[slot]? = some object →
      other.heap.objects[slot]? = some found → object.Alike found
  statics :
    ∀ key : String × String, key.1 ≠ counter →
      other.statics.get? key = machine.statics.get? key
  trace : machine.trace.Sublist other.trace
  initialized :
    ∀ name, name ≠ counter → name ≠ objectClass →
      (name ∈ other.initialized ↔ name ∈ machine.initialized)

/-- The machines differ in counts only, and the counts are integers. -/
structure Machine.Matches (counter : String) (machine other : Machine) : Prop where
  alike : machine.Alike counter other
  counting :
    ∀ (slot : Nat) (object : HeapObject), other.heap.objects[slot]? = some object →
      object.Counting
  tallies :
    ∀ (key : String × String) (value : Datum), key.1 = counter →
      other.statics.get? key = some value → ∃ number, value = .int number
  unlimited : other.heap.limit = 0

namespace Machine.Matches

variable
    {counter : String}
    {machine other : Machine}
    {slot : Nat}
    {field : FieldRef}
    {value : Datum}

theorem fresh (counter : String) :
    (Machine.fresh .unlimited).Matches counter (Machine.fresh .unlimited) where
  alike :=
    { size := rfl
      objects := fun slot object found located => by
        simp [Machine.fresh, Heap.empty] at located
      statics := fun _ _ => rfl
      trace := .refl _
      initialized := fun _ _ _ => Iff.rfl }
  counting slot object located := by
    simp [Machine.fresh, Heap.empty] at located
  tallies key value _ found := by
    simp [Machine.fresh] at found
  unlimited := rfl

/-- What stands in a slot of both machines. -/
theorem object
    (relates : machine.Matches counter other)
    {object : HeapObject}
    (located : machine.heap.objects[slot]? = some object) :
    ∃ found, other.heap.objects[slot]? = some found ∧ object.Alike found := by
  have bounded : slot < other.heap.size := by
    rw [relates.alike.size]
    exact Heap.lt_size_of_get? located
  have found : other.heap.objects[slot]? = some other.heap.objects[slot] :=
    Array.getElem?_eq_getElem bounded
  exact ⟨_, found, relates.alike.objects slot object _ located found⟩

theorem array
    (relates : machine.Matches counter other)
    {element : Ty}
    {values : Array Datum}
    (located : machine.heap.objects[slot]? = some (.array element values)) :
    other.heap.objects[slot]? = some (.array element values) := by
  obtain ⟨found, there, alike⟩ := relates.object located
  cases alike
  exact there

theorem instanceOf
    (relates : machine.Matches counter other)
    {className : String}
    {fields : FieldTable}
    (located : machine.heap.objects[slot]? = some (.instanceOf className fields)) :
    ∃ others, other.heap.objects[slot]? = some (.instanceOf className others) ∧
      fields.Alike others ∧ others.Counting := by
  obtain ⟨found, there, alike⟩ := relates.object located
  cases alike with
  | instances same => exact ⟨_, there, same, relates.counting slot _ there⟩

/-- Only the heap, the static fields, the lines and the initialized classes matter. -/
theorem of_eq
    (relates : machine.Matches counter other)
    {changed otherChanged : Machine}
    (heap : changed.heap = machine.heap)
    (statics : changed.statics = machine.statics)
    (trace : changed.trace = machine.trace)
    (initialized : changed.initialized = machine.initialized)
    (otherHeap : otherChanged.heap = other.heap)
    (otherStatics : otherChanged.statics = other.statics)
    (otherTrace : otherChanged.trace = other.trace)
    (otherInitialized : otherChanged.initialized = other.initialized) :
    changed.Matches counter otherChanged := by
  obtain ⟨⟨size, objects, sameStatics, sublist, same⟩, counting, tallies, unlimited⟩ := relates
  constructor
  · constructor
    · rw [heap, otherHeap]
      exact size
    · rw [heap, otherHeap]
      exact objects
    · rw [statics, otherStatics]
      exact sameStatics
    · rw [trace, otherTrace]
      exact sublist
    · rw [initialized, otherInitialized]
      exact same
  · rw [otherHeap]
    exact counting
  · rw [otherStatics]
    exact tallies
  · rw [otherHeap]
    exact unlimited

/-- That an instruction was counted does not matter. -/
theorem counted (relates : machine.Matches counter other) :
    machine.Matches counter (Run.counted other) :=
  relates.of_eq rfl rfl rfl rfl rfl rfl rfl rfl

/-- How many calls are open does not matter. -/
theorem deeper (relates : machine.Matches counter other) :
    machine.Matches counter { other with depth := other.depth + 1 } :=
  relates.of_eq rfl rfl rfl rfl rfl rfl rfl rfl

/-! ## What both machines do -/

/-- An object is replaced by others that are alike. -/
theorem replace
    (relates : machine.Matches counter other)
    {object found : HeapObject}
    (alike : object.Alike found)
    (counting : found.Counting) :
    ({ machine with heap := machine.heap.replace slot object } : Machine).Matches counter
      { other with heap := other.heap.replace slot found } := by
  refine ⟨⟨?_, ?_, relates.alike.statics, relates.alike.trace, relates.alike.initialized⟩, ?_,
    relates.tallies, relates.unlimited⟩
  · rw [Heap.replace_size, Heap.replace_size]
    exact relates.alike.size
  · intro position first second locatedFirst locatedSecond
    rw [Heap.replace_get?] at locatedFirst locatedSecond
    rw [relates.alike.size] at locatedSecond
    split at locatedFirst
    · rename_i here
      rw [if_pos here] at locatedSecond
      cases locatedFirst
      cases locatedSecond
      exact alike
    · rename_i elsewhere
      rw [if_neg elsewhere] at locatedSecond
      exact relates.alike.objects position first second locatedFirst locatedSecond
  · intro position present located
    rw [Heap.replace_get?] at located
    split at located
    · cases located
      exact counting
    · exact relates.counting position present located

theorem readField
    (relates : machine.Matches counter other)
    (plain : field.Plain counter)
    (read : machine.heap.readField slot field = .ok value) :
    other.heap.readField slot field = .ok value := by
  obtain ⟨className, fields, located, rfl⟩ := Heap.readField_eq_ok.1 read
  obtain ⟨others, there, alike, -⟩ := relates.instanceOf located
  exact Heap.readField_eq_ok.2 ⟨className, others, there, (alike.read plain.2).symm⟩

theorem writeField
    (relates : machine.Matches counter other)
    (plain : field.Plain counter)
    {heap : Heap}
    (written : machine.heap.writeField slot field value = .ok heap) :
    ∃ otherHeap, other.heap.writeField slot field value = .ok otherHeap ∧
      ({ machine with heap } : Machine).Matches counter { other with heap := otherHeap } := by
  obtain ⟨className, fields, located, rfl⟩ := Heap.writeField_eq_ok.1 written
  obtain ⟨others, there, alike, counting⟩ := relates.instanceOf located
  exact ⟨_, Heap.writeField_eq_ok.2 ⟨className, others, there, rfl⟩,
    relates.replace (.instances alike.write) (counting.write_plain plain.2)⟩

theorem readStatic
    (relates : machine.Matches counter other)
    (plain : field.Plain counter) :
    other.statics.read field = machine.statics.read field := by
  unfold FieldTable.read
  rw [relates.alike.statics (field.owner, field.name) plain.1]

theorem writeStatic
    (relates : machine.Matches counter other)
    (value : Datum)
    (plain : field.Plain counter) :
    ({ machine with statics := machine.statics.write field value } : Machine).Matches counter
      { other with statics := other.statics.write field value } := by
  refine ⟨⟨relates.alike.size, relates.alike.objects, ?_, relates.alike.trace,
    relates.alike.initialized⟩, relates.counting, ?_, relates.unlimited⟩
  · intro key differs
    simp only [FieldTable.write, Table.get?_put, relates.alike.statics key differs]
  · intro key stored here found
    simp only [FieldTable.write, Table.get?_put] at found
    split at found
    · rename_i same
      subst same
      exact absurd here plain.1
    · exact relates.tallies key stored here found

theorem readElement
    (relates : machine.Matches counter other)
    {index : Int32}
    (read : machine.heap.readElement slot index = .ok value) :
    other.heap.readElement slot index = .ok value := by
  obtain ⟨element, values, place, located, positioned, rfl⟩ := Heap.readElement_eq_ok.1 read
  exact Heap.readElement_eq_ok.2 ⟨element, values, place, relates.array located, positioned, rfl⟩

theorem writeElement
    (relates : machine.Matches counter other)
    {index : Int32}
    {heap : Heap}
    (written : machine.heap.writeElement slot index value = .ok heap) :
    ∃ otherHeap, other.heap.writeElement slot index value = .ok otherHeap ∧
      ({ machine with heap } : Machine).Matches counter { other with heap := otherHeap } := by
  obtain ⟨element, values, place, located, positioned, rfl⟩ := Heap.writeElement_eq_ok.1 written
  exact ⟨_, Heap.writeElement_eq_ok.2 ⟨element, values, place, relates.array located, positioned, rfl⟩,
    relates.replace (.arrays _ _) trivial⟩

theorem arrayLength
    (relates : machine.Matches counter other)
    {length : Nat}
    (measured : machine.heap.arrayLength slot = .ok length) :
    other.heap.arrayLength slot = .ok length := by
  obtain ⟨element, values, located, rfl⟩ := Heap.arrayLength_eq_ok.1 measured
  exact Heap.arrayLength_eq_ok.2 ⟨element, values, relates.array located, rfl⟩

theorem className?
    (relates : machine.Matches counter other)
    {name : Option String}
    (asked : machine.heap.className? slot = .ok name) :
    other.heap.className? slot = .ok name := by
  obtain ⟨object, located, rfl⟩ := Heap.className?_eq_ok.1 asked
  obtain ⟨found, there, alike⟩ := relates.object located
  refine Heap.className?_eq_ok.2 ⟨found, there, ?_⟩
  cases alike <;> rfl

/-- A new object has no counts yet. -/
theorem allocate
    (relates : machine.Matches counter other)
    {object : HeapObject}
    (alike : object.Alike object)
    (counting : object.Counting)
    {heap : Heap}
    (allocated : machine.heap.allocate object = .ok (slot, heap)) :
    ∃ otherHeap, other.heap.allocate object = .ok (slot, otherHeap) ∧
      ({ machine with heap } : Machine).Matches counter { other with heap := otherHeap } := by
  obtain ⟨-, rfl, rfl⟩ := Heap.allocate_eq_ok.1 allocated
  refine ⟨_, Heap.allocate_eq_ok.2 ⟨.inl relates.unlimited, relates.alike.size.symm, rfl⟩, ?_⟩
  have sizes : other.heap.objects.size = machine.heap.objects.size := relates.alike.size
  refine ⟨⟨?_, ?_, relates.alike.statics, relates.alike.trace, relates.alike.initialized⟩, ?_,
    relates.tallies, relates.unlimited⟩
  · simp [Heap.size, sizes]
  · intro position first second locatedFirst locatedSecond
    rw [Array.getElem?_push] at locatedFirst locatedSecond
    rw [sizes] at locatedSecond
    split at locatedFirst
    · rename_i here
      rw [if_pos here] at locatedSecond
      cases locatedFirst
      cases locatedSecond
      exact alike
    · rename_i elsewhere
      rw [if_neg elsewhere] at locatedSecond
      exact relates.alike.objects position first second locatedFirst locatedSecond
  · intro position present located
    rw [Array.getElem?_push] at located
    split at located
    · cases located
      exact counting
    · exact relates.counting position present located

theorem printBoth (relates : machine.Matches counter other) (line : TraceLine) :
    ({ machine with trace := machine.trace ++ [line] } : Machine).Matches counter
      { other with trace := other.trace ++ [line] } :=
  ⟨{ relates.alike with trace := relates.alike.trace.append (.refl _) }, relates.counting,
    relates.tallies, relates.unlimited⟩

theorem markBoth (relates : machine.Matches counter other) (name : String) :
    ({ machine with initialized := machine.initialized ++ [name] } : Machine).Matches counter
      { other with initialized := other.initialized ++ [name] } := by
  refine ⟨{ relates.alike with initialized := fun known differs notRoot => ?_ }, relates.counting,
    relates.tallies, relates.unlimited⟩
  rw [List.mem_append, List.mem_append, relates.alike.initialized known differs notRoot]

/-- It does not matter whether the root class is initialized. -/
theorem markRoot (relates : machine.Matches counter other) :
    ({ machine with initialized := machine.initialized ++ [objectClass] } : Machine).Matches counter
      other := by
  refine ⟨{ relates.alike with initialized := fun known differs notRoot => ?_ }, relates.counting,
    relates.tallies, relates.unlimited⟩
  rw [relates.alike.initialized known differs notRoot, List.mem_append]
  simp [notRoot]

/-! ## What only the machine with counting does -/

/-- A count of an instance is an integer. -/
theorem readCount
    (relates : machine.Matches counter other)
    {className : String}
    {fields : FieldTable}
    (located : machine.heap.objects[slot]? = some (.instanceOf className fields))
    (counts : field.CountsAccess) :
    ∃ number, other.heap.readField slot field = .ok (.int number) := by
  obtain ⟨others, there, -, counting⟩ := relates.instanceOf located
  obtain ⟨number, read⟩ := counting.read counts
  exact ⟨number, Heap.readField_eq_ok.2 ⟨className, others, there, read.symm⟩⟩

/-- A count of an instance may become another integer. -/
theorem writeCount
    (relates : machine.Matches counter other)
    {className : String}
    {fields : FieldTable}
    (located : machine.heap.objects[slot]? = some (.instanceOf className fields))
    (counts : field.CountsAccess)
    (number : Int32) :
    ∃ heap, other.heap.writeField slot field (.int number) = .ok heap ∧
      machine.Matches counter { other with heap } := by
  obtain ⟨others, there, alike, counting⟩ := relates.instanceOf located
  refine ⟨_, Heap.writeField_eq_ok.2 ⟨className, others, there, rfl⟩, ?_⟩
  refine ⟨⟨?_, ?_, relates.alike.statics, relates.alike.trace, relates.alike.initialized⟩, ?_,
    relates.tallies, relates.unlimited⟩
  · rw [Heap.replace_size]
    exact relates.alike.size
  · intro position first second locatedFirst locatedSecond
    rw [Heap.replace_get?] at locatedSecond
    split at locatedSecond
    · rename_i here
      obtain ⟨rfl, -⟩ := here
      rw [located] at locatedFirst
      cases locatedFirst
      cases locatedSecond
      exact .instances (alike.write_right counts.1)
    · exact relates.alike.objects position first second locatedFirst locatedSecond
  · intro position present locatedPresent
    rw [Heap.replace_get?] at locatedPresent
    split at locatedPresent
    · cases locatedPresent
      exact counting.write_int
    · exact relates.counting position present locatedPresent

/-- A static counter is an integer. -/
theorem readTally
    (relates : machine.Matches counter other)
    (tallies : field.Tallies counter) :
    ∃ number, other.statics.read field = .int number := by
  unfold FieldTable.read
  cases found : other.statics.get? (field.owner, field.name) with
  | none =>
    rw [tallies.2]
    exact ⟨0, rfl⟩
  | some value => exact relates.tallies _ value tallies.1 found

/-- A static counter may become another integer. -/
theorem writeTally
    (relates : machine.Matches counter other)
    (tallies : field.Tallies counter)
    (number : Int32) :
    machine.Matches counter
      { other with statics := other.statics.write field (.int number) } := by
  refine ⟨⟨relates.alike.size, relates.alike.objects, ?_, relates.alike.trace,
    relates.alike.initialized⟩, relates.counting, ?_, relates.unlimited⟩
  · intro key differs
    simp only [FieldTable.write, Table.get?_put]
    split
    · rename_i same
      subst same
      exact absurd tallies.1 differs
    · exact relates.alike.statics key differs
  · intro key stored here found
    simp only [FieldTable.write, Table.get?_put] at found
    split at found
    · cases found
      exact ⟨number, rfl⟩
    · exact relates.tallies key stored here found

theorem print (relates : machine.Matches counter other) (line : TraceLine) :
    machine.Matches counter { other with trace := other.trace ++ [line] } :=
  ⟨{ relates.alike with trace := relates.alike.trace.trans (List.sublist_append_left _ _) },
    relates.counting, relates.tallies, relates.unlimited⟩

/-- The class of the counters and the root class may be initialized at any time. -/
theorem mark
    (relates : machine.Matches counter other)
    {name : String}
    (apart : name = counter ∨ name = objectClass) :
    machine.Matches counter { other with initialized := other.initialized ++ [name] } := by
  refine ⟨{ relates.alike with initialized := fun known differs notRoot => ?_ }, relates.counting,
    relates.tallies, relates.unlimited⟩
  have unlike : known ≠ name := by
    rintro rfl
    rcases apart with here | above
    · exact differs here
    · exact notRoot above
  rw [List.mem_append, relates.alike.initialized known differs notRoot]
  simp [unlike]

end Machine.Matches
end AccessProfiler
