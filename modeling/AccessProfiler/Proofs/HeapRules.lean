import AccessProfiler.Proofs.Outcome

/-!
# Rules of the heap

When an operation on the heap succeeds, and what it gives then.  Each rule says what kind of object
the slot has to hold; a slot keeps its kind for good, since an object is only ever replaced by one of
the same kind (`Heap.Grows`).
-/

namespace AccessProfiler

/-- The class of an instance; an array has none. -/
def HeapObject.className? : HeapObject → Option String
  | .instanceOf className _ => some className
  | .array _ _ => none

namespace FieldTable

/-- Another field reads as before. -/
theorem read_write_of_ne
    {fields : FieldTable}
    {written field : FieldRef}
    (differs : (field.owner, field.name) ≠ (written.owner, written.name))
    (value : Datum) :
    (fields.write written value).read field = fields.read field := by
  rw [read, read, write, Table.get?_put, if_neg differs]

theorem read_write_self (fields : FieldTable) (field : FieldRef) (value : Datum) :
    (fields.write field value).read field = value := by
  rw [read, write, Table.get?_put, if_pos rfl, Option.getD_some]

section Stored

variable
    {Holds : Datum → Prop}
    {fields : FieldTable}
    {field : FieldRef}
    (stored : ∀ key value, fields.get? key = some value → Holds value)
include stored

/-- What holds of all that is stored, and of what a field reads as before, holds of what is read. -/
theorem holds_read (atFirst : Holds (.zero field.type)) : Holds (fields.read field) := by
  unfold read
  cases found : fields.get? (field.owner, field.name) with
  | none => exact atFirst
  | some value => exact stored _ value found

theorem holds_write
    {written : Datum}
    (holds : Holds written) :
    ∀ key value, (fields.write field written).get? key = some value → Holds value := by
  intro key value found
  unfold write at found
  rw [Table.get?_put] at found
  split at found
  · cases found
    exact holds
  · exact stored key value found

end Stored
end FieldTable

namespace Heap

variable {heap changed : Heap} {slot : Nat} {field : FieldRef} {value : Datum} {index : Int32}

@[simp]
theorem object_eq_ok {object : HeapObject} :
    heap.object slot = .ok object ↔ heap.objects[slot]? = some object := by
  unfold Heap.object
  cases heap.objects[slot]? with
  | none => simp
  | some found => simp

theorem object_eq_error {failure : Failure} (failed : heap.object slot = .error failure) :
    heap.objects[slot]? = none := by
  unfold Heap.object at failed
  cases found : heap.objects[slot]? with
  | none => rfl
  | some object =>
    rw [found] at failed
    cases failed

theorem className?_eq_ok {name : Option String} :
    heap.className? slot = .ok name ↔
      ∃ object, heap.objects[slot]? = some object ∧ name = object.className? := by
  unfold Heap.className?
  cases found : heap.object slot with
  | error failure => simp [bind, Except.bind, object_eq_error found]
  | ok object =>
    rw [object_eq_ok] at found
    cases object <;>
      simp [found, bind, Except.bind, pure, Except.pure, HeapObject.className?, eq_comm]

theorem readField_eq_ok :
    heap.readField slot field = .ok value ↔
      ∃ className fields, heap.objects[slot]? = some (.instanceOf className fields) ∧
        value = fields.read field := by
  unfold readField
  cases found : heap.object slot with
  | error failure => simp [bind, Except.bind, object_eq_error found]
  | ok object =>
    rw [object_eq_ok] at found
    cases object with
    | instanceOf className fields =>
      simp only [found, bind, Except.bind, pure, Except.pure, Except.ok.injEq, Option.some.injEq,
        HeapObject.instanceOf.injEq]
      constructor
      · rintro rfl
        exact ⟨className, fields, ⟨rfl, rfl⟩, rfl⟩
      · rintro ⟨_, _, ⟨rfl, rfl⟩, rfl⟩
        rfl
    | array element values =>
      simp [found, bind, Except.bind, throw, throwThe, MonadExceptOf.throw]

theorem writeField_eq_ok :
    heap.writeField slot field value = .ok changed ↔
      ∃ className fields, heap.objects[slot]? = some (.instanceOf className fields) ∧
        changed = heap.replace slot (.instanceOf className (fields.write field value)) := by
  unfold writeField
  cases found : heap.object slot with
  | error failure => simp [bind, Except.bind, object_eq_error found]
  | ok object =>
    rw [object_eq_ok] at found
    cases object with
    | instanceOf className fields =>
      simp only [found, bind, Except.bind, pure, Except.pure, Except.ok.injEq, Option.some.injEq,
        HeapObject.instanceOf.injEq]
      constructor
      · rintro rfl
        exact ⟨className, fields, ⟨rfl, rfl⟩, rfl⟩
      · rintro ⟨_, _, ⟨rfl, rfl⟩, rfl⟩
        rfl
    | array element values =>
      simp [found, bind, Except.bind, throw, throwThe, MonadExceptOf.throw]

theorem elements_eq_ok {element : Ty} {values : Array Datum} :
    heap.elements slot = .ok (element, values) ↔
      heap.objects[slot]? = some (.array element values) := by
  unfold elements
  cases found : heap.object slot with
  | error failure => simp [bind, Except.bind, object_eq_error found]
  | ok object =>
    rw [object_eq_ok] at found
    cases object with
    | instanceOf className fields =>
      simp [found, bind, Except.bind, throw, throwThe, MonadExceptOf.throw]
    | array element values =>
      simp [found, bind, Except.bind, pure, Except.pure]

/-- An index that means a position lies within the array. -/
theorem lt_of_position_eq_ok
    {length place : Nat}
    (inside : position length index = .ok place) :
    place < length := by
  unfold position at inside
  split at inside
  · cases inside
    omega
  · cases inside

theorem readElement_eq_ok :
    heap.readElement slot index = .ok value ↔
      ∃ element values place, heap.objects[slot]? = some (.array element values) ∧
        position values.size index = .ok place ∧
        value = values[place]?.getD (.zero element) := by
  unfold readElement
  cases found : heap.elements slot with
  | error failure =>
    simp only [bind, Except.bind, reduceCtorEq, false_iff]
    rintro ⟨element, values, _, located, -⟩
    rw [elements_eq_ok.2 located] at found
    cases found
  | ok parts =>
    obtain ⟨element, values⟩ := parts
    rw [elements_eq_ok] at found
    simp only [bind, Except.bind, found, Option.some.injEq, HeapObject.array.injEq]
    cases placed : position values.size index with
    | error failure =>
      simp only [reduceCtorEq, false_iff]
      rintro ⟨_, _, _, ⟨rfl, rfl⟩, located, -⟩
      rw [located] at placed
      cases placed
    | ok place =>
      simp only [pure, Except.pure, Except.ok.injEq]
      constructor
      · rintro rfl
        exact ⟨element, values, place, ⟨rfl, rfl⟩, placed, rfl⟩
      · rintro ⟨_, _, _, ⟨rfl, rfl⟩, located, rfl⟩
        rw [located] at placed
        cases placed
        rfl

theorem writeElement_eq_ok :
    heap.writeElement slot index value = .ok changed ↔
      ∃ element values place, heap.objects[slot]? = some (.array element values) ∧
        position values.size index = .ok place ∧
        changed = heap.replace slot (.array element (values.setIfInBounds place value)) := by
  unfold writeElement
  cases found : heap.elements slot with
  | error failure =>
    simp only [bind, Except.bind, reduceCtorEq, false_iff]
    rintro ⟨element, values, _, located, -⟩
    rw [elements_eq_ok.2 located] at found
    cases found
  | ok parts =>
    obtain ⟨element, values⟩ := parts
    rw [elements_eq_ok] at found
    simp only [bind, Except.bind, found, Option.some.injEq, HeapObject.array.injEq]
    cases placed : position values.size index with
    | error failure =>
      simp only [reduceCtorEq, false_iff]
      rintro ⟨_, _, _, ⟨rfl, rfl⟩, located, -⟩
      rw [located] at placed
      cases placed
    | ok place =>
      simp only [pure, Except.pure, Except.ok.injEq]
      constructor
      · rintro rfl
        exact ⟨element, values, place, ⟨rfl, rfl⟩, placed, rfl⟩
      · rintro ⟨_, _, _, ⟨rfl, rfl⟩, located, rfl⟩
        rw [located] at placed
        cases placed
        rfl

theorem arrayLength_eq_ok {length : Nat} :
    heap.arrayLength slot = .ok length ↔
      ∃ element values, heap.objects[slot]? = some (.array element values) ∧
        length = values.size := by
  unfold arrayLength
  cases found : heap.elements slot with
  | error failure =>
    simp only [bind, Except.bind, reduceCtorEq, false_iff]
    rintro ⟨element, values, located, -⟩
    rw [elements_eq_ok.2 located] at found
    cases found
  | ok parts =>
    obtain ⟨element, values⟩ := parts
    rw [elements_eq_ok] at found
    simp only [bind, Except.bind, pure, Except.pure, found, Except.ok.injEq, Option.some.injEq,
      HeapObject.array.injEq]
    constructor
    · rintro rfl
      exact ⟨element, values, ⟨rfl, rfl⟩, rfl⟩
    · rintro ⟨_, _, ⟨rfl, rfl⟩, rfl⟩
      rfl

theorem allocate_eq_ok {object : HeapObject} :
    heap.allocate object = .ok (slot, changed) ↔
      (heap.limit = 0 ∨ heap.size < heap.limit) ∧ slot = heap.size ∧
        changed = { heap with objects := heap.objects.push object } := by
  have within : ¬ (0 < heap.limit ∧ heap.limit ≤ heap.size) ↔
      heap.limit = 0 ∨ heap.size < heap.limit := by
    omega
  rw [← within]
  unfold Heap.allocate
  split
  · rename_i full
    simp [full]
  · rename_i free
    simp [free, eq_comm]

/-! ## Objects keep their kind -/

@[simp]
theorem replace_limit {object : HeapObject} : (heap.replace slot object).limit = heap.limit :=
  rfl

@[simp]
theorem replace_size {object : HeapObject} : (heap.replace slot object).size = heap.size := by
  simp [replace, size]

theorem replace_get? {object : HeapObject} {other : Nat} :
    (heap.replace slot object).objects[other]? =
      if slot = other ∧ other < heap.size then some object else heap.objects[other]? := by
  unfold replace size
  rw [Array.getElem?_setIfInBounds]
  split
  · rename_i same
    subst same
    split
    · rename_i bounded
      simp [bounded]
    · rename_i outside
      simp [outside]
  · rename_i differs
    simp [differs]

theorem lt_size_of_get? {object : HeapObject} (found : heap.objects[slot]? = some object) :
    slot < heap.size := by
  obtain ⟨bounded, -⟩ := Array.getElem?_eq_some_iff.1 found
  exact bounded

theorem push_get?_of_some
    {object : HeapObject}
    (found : heap.objects[slot]? = some object)
    (newest : HeapObject) :
    (heap.objects.push newest)[slot]? = some object := by
  have bounded : slot < heap.objects.size := lt_size_of_get? found
  rw [Array.getElem?_push, if_neg (Nat.ne_of_lt bounded)]
  exact found

theorem replace_get?_self
    {old object : HeapObject}
    (located : heap.objects[slot]? = some old) :
    (heap.replace slot object).objects[slot]? = some object := by
  rw [replace_get?, if_pos ⟨rfl, lt_size_of_get? located⟩]

/-- Of two objects that are put into a slot the second stays. -/
theorem replace_replace {first second : HeapObject} :
    (heap.replace slot first).replace slot second = heap.replace slot second := by
  simp [replace]

/-- A slot that is taken can be given another object before or after one is added. -/
theorem replace_push
    {object newest : HeapObject}
    (taken : slot < heap.size) :
    replace { heap with objects := heap.objects.push newest } slot object =
      { heap with objects := (heap.replace slot object).objects.push newest } := by
  have taken : slot < heap.objects.size := taken
  have objects :
      (heap.objects.push newest).setIfInBounds slot object =
        (heap.objects.setIfInBounds slot object).push newest := by
    apply Array.ext_getElem?
    grind
  simp [replace, objects]

/-- To store an element changes no instance. -/
theorem get?_of_writeElement
    {other : Nat}
    {className : String}
    {fields : FieldTable}
    (written : heap.writeElement slot index value = .ok changed)
    (located : heap.objects[other]? = some (.instanceOf className fields)) :
    changed.objects[other]? = some (.instanceOf className fields) := by
  obtain ⟨element, values, place, there, -, rfl⟩ := writeElement_eq_ok.1 written
  rw [replace_get?, if_neg, located]
  rintro ⟨rfl, -⟩
  cases there.symm.trans located

/-- Every object is still there, an instance of the same class or still an array. -/
def Grows (heap later : Heap) : Prop :=
  ∀ (slot : Nat) (object : HeapObject), heap.objects[slot]? = some object →
    ∃ grown : HeapObject, later.objects[slot]? = some grown ∧ grown.className? = object.className?

namespace Grows

variable {later last : Heap}

theorem refl (heap : Heap) : heap.Grows heap :=
  fun _ object found => ⟨object, found, rfl⟩

theorem trans (grows : heap.Grows later) (further : later.Grows last) : heap.Grows last := by
  intro slot object found
  obtain ⟨grown, foundGrown, same⟩ := grows slot object found
  obtain ⟨final, foundFinal, sameFinal⟩ := further slot grown foundGrown
  exact ⟨final, foundFinal, sameFinal.trans same⟩

theorem size_le (grows : heap.Grows later) : heap.size ≤ later.size := by
  refine Nat.le_of_not_lt fun smaller => ?_
  obtain ⟨grown, found, -⟩ := grows later.size _ (Array.getElem?_eq_getElem smaller)
  exact absurd (lt_size_of_get? found) (Nat.lt_irrefl _)

/-- What replaces an object of the same kind. -/
theorem replace
    {object : HeapObject}
    {old : HeapObject}
    (found : heap.objects[slot]? = some old)
    (same : object.className? = old.className?) :
    heap.Grows (heap.replace slot object) := by
  intro other present located
  rw [replace_get?]
  split
  · rename_i here
    obtain ⟨rfl, -⟩ := here
    rw [found] at located
    cases located
    exact ⟨object, rfl, same⟩
  · exact ⟨present, located, rfl⟩

theorem push (heap : Heap) (object : HeapObject) :
    heap.Grows { heap with objects := heap.objects.push object } := by
  intro other present located
  exact ⟨present, push_get?_of_some located object, rfl⟩

end Grows
end Heap
end AccessProfiler
