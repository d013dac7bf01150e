import AccessProfiler.Proofs.CountingCalls
import AccessProfiler.Proofs.ExactCounts
import AccessProfiler.Proofs.SparingRuns

/-!
# Serial numbers

What is recorded of a run says in which order objects were given serial numbers by a class
(`numbered`).  The account of a class is in order if its static counter holds how many that were, and
each object the number that it was given last (`Numbers`).  Constructors write the number to the object
before they write the counter; in between the counter is one behind, and only calls that count on other
static counters are made there (`Run.serialAssignment_keeps`).  So every body keeps the account, and
by induction over the levels every run does (`Run.entryStep_keepsNumbers`).
-/

namespace AccessProfiler

/-- The object to which the act stores a serial number that the class gives. -/
def Act.numbered? (className : String) : Act → Option Nat
  | .accesses _ .write slot field =>
    if field.owner = className ∧ field.name = serialField then some slot else none
  | _ => none

/-- The objects to which the class gave serial numbers, in order. -/
def numbered (className : String) (past : List Act) : List Nat :=
  past.filterMap (Act.numbered? className)

/-- The number that an object was given last, counted from one; zero if it was given none. -/
def lastNumber (slots : List Nat) (slot : Nat) : Nat :=
  slots.length - slots.reverse.idxOf slot

/-- The fields are kept apart. -/
def FieldRef.Differs (field other : FieldRef) : Prop :=
  (other.owner, other.name) ≠ (field.owner, field.name)

section Lists

variable {className : String} {past log : List Act} {slots : List Nat} {slot other : Nat}

theorem numbered_append :
    numbered className (past ++ log) = numbered className past ++ numbered className log :=
  List.filterMap_append

/-- Where no number is stored, the numbers stay as they are. -/
theorem numbered_append_of_none (none : ∀ act ∈ log, act.numbered? className = none) :
    numbered className (past ++ log) = numbered className past := by
  rw [numbered_append]
  have nothing : numbered className log = [] := List.filterMap_eq_nil_iff.2 none
  rw [nothing, List.append_nil]

theorem numbered_append_singleton {act : Act} (gives : act.numbered? className = some slot) :
    numbered className (past ++ [act]) = numbered className past ++ [slot] := by
  have single : numbered className [act] = [slot] := by simp [numbered, gives]
  rw [numbered_append, single]

theorem lastNumber_of_not_mem (absent : slot ∉ slots) : lastNumber slots slot = 0 := by
  have last : slots.reverse.idxOf slot = slots.reverse.length :=
    List.idxOf_eq_length (List.mem_reverse.not.2 absent)
  rw [lastNumber, last, List.length_reverse, Nat.sub_self]

theorem lastNumber_append_self : lastNumber (slots ++ [slot]) slot = slots.length + 1 := by
  simp [lastNumber, List.reverse_append]

theorem lastNumber_append_of_ne (differs : other ≠ slot) :
    lastNumber (slots ++ [slot]) other = lastNumber slots other := by
  simp only [lastNumber, List.reverse_append, List.reverse_singleton, List.singleton_append,
    List.length_append, List.length_singleton]
  rw [List.idxOf_cons_ne _ differs.symm]
  omega

/-- Objects that were given a number once have that number. -/
theorem lastNumber_of_getElem? {index : Nat} (once : slots.Nodup) (found : slots[index]? = some slot) :
    lastNumber slots slot = index + 1 := by
  obtain ⟨bounded, here⟩ := List.getElem?_eq_some_iff.1 found
  have reversed : slots.reverse.idxOf slot = slots.length - 1 - index := by
    have position : slots.length - 1 - index < slots.reverse.length := by
      rw [List.length_reverse]
      omega
    have there : slots.reverse[slots.length - 1 - index] = slot := by
      rw [List.getElem_reverse]
      have same : slots.length - 1 - (slots.length - 1 - index) = index := by omega
      simp only [same, here]
    rw [← there]
    exact (List.nodup_reverse.2 once).idxOf_getElem _ _
  rw [lastNumber, reversed]
  omega

end Lists

/-- The static counter of the class holds how many numbers it gave, but for those that it is behind;
each object holds the number that it was given last; and only instances were given one. -/
structure Numbers
    (className : String)
    (counter : FieldRef)
    (behind : Nat)
    (past : List Act)
    (heap : Heap)
    (statics : FieldTable) : Prop where
  counted :
    ∃ count, count + behind = (numbered className past).length ∧
      statics.read counter = .int (.ofNat count)
  held :
    ∀ {slot : Nat} {name : String} {fields : FieldTable},
      heap.objects[slot]? = some (.instanceOf name fields) →
        fields.read (.ofInstance className serialField .int) =
          .int (.ofNat (lastNumber (numbered className past) slot))
  there :
    ∀ slot ∈ numbered className past, ∃ name fields,
      heap.objects[slot]? = some (.instanceOf name fields)

namespace Numbers

variable
    {className : String}
    {counter : FieldRef}
    {behind : Nat}
    {past log : List Act}
    {heap : Heap}
    {statics changed : FieldTable}
    {slot : Nat}

/-- An account depends on the numbers that were given and on the counter only. -/
theorem congr
    (same : numbered className log = numbered className past)
    (counts : changed.read counter = statics.read counter)
    (numbers : Numbers className counter behind past heap statics) :
    Numbers className counter behind log heap changed where
  counted := by
    rw [same, counts]
    exact numbers.counted
  held located := by
    rw [same]
    exact numbers.held located
  there := by
    rw [same]
    exact numbers.there

theorem ignores {act : Act} (none : act.numbered? className = none) :
    Account.Ignores (Numbers className counter behind) act := by
  intro past heap statics numbers
  refine numbers.congr (numbered_append_of_none fun other member => ?_) rfl
  rw [List.mem_singleton.1 member]
  exact none

/-- What fields of a replaced instance hold, if nothing was stored in the number. -/
theorem replace
    {name : String}
    {fields changed : FieldTable}
    (numbers : Numbers className counter behind past heap statics)
    (located : heap.objects[slot]? = some (.instanceOf name fields))
    (same :
      changed.read (.ofInstance className serialField .int) =
        fields.read (.ofInstance className serialField .int)) :
    Numbers className counter behind past (heap.replace slot (.instanceOf name changed)) statics where
  counted := numbers.counted
  held := by
    intro other holder held found
    rw [Heap.replace_get?] at found
    split at found
    · rename_i here
      obtain ⟨rfl, -⟩ := here
      cases found
      rw [same]
      exact numbers.held located
    · exact numbers.held found
  there other given := by
    rw [Heap.replace_get?]
    split
    · exact ⟨_, _, rfl⟩
    · exact numbers.there other given

/-- Only instances are there, so that what comes to be later was given no number. -/
theorem lastNumber_size (numbers : Numbers className counter behind past heap statics) :
    lastNumber (numbered className past) heap.objects.size = 0 := by
  refine lastNumber_of_not_mem fun given => ?_
  obtain ⟨name, fields, located⟩ := numbers.there _ given
  exact absurd (Heap.lt_size_of_get? located) (Nat.lt_irrefl _)

/-- What is stored elsewhere leaves the account in order. -/
theorem tolerates :
    Account.Tolerates (Numbers className counter behind)
      (fun field => field.Differs (.ofInstance className serialField .int))
      (fun field => field.Differs counter) where
  write value free located numbers :=
    numbers.replace located (FieldTable.read_write_of_ne free value)
  writeStatic value free numbers :=
    numbers.congr rfl (FieldTable.read_write_of_ne free value)
  writeElement := by
    intro past heap statics slot element values others located numbers
    refine ⟨numbers.counted, ?_, ?_⟩
    · intro other name fields found
      rw [Heap.replace_get?] at found
      split at found
      · cases found
      · exact numbers.held found
    · intro other given
      rw [Heap.replace_get?]
      split
      · rename_i here
        obtain ⟨name, fields, found⟩ := numbers.there other given
        obtain ⟨rfl, -⟩ := here
        rw [located] at found
        cases found
      · exact numbers.there other given
  allocateInstance := by
    intro past heap statics name numbers
    refine ⟨numbers.counted, ?_, ?_⟩
    · intro other holder fields found
      rw [Array.getElem?_push] at found
      split at found
      · rename_i newest
        cases found
        rw [newest, numbers.lastNumber_size]
        rfl
      · exact numbers.held found
    · intro other given
      obtain ⟨name, fields, located⟩ := numbers.there other given
      exact ⟨name, fields, Heap.push_get?_of_some located _⟩
  allocateArray := by
    intro past heap statics element values numbers
    refine ⟨numbers.counted, ?_, ?_⟩
    · intro other holder fields found
      rw [Array.getElem?_push] at found
      split at found
      · cases found
      · exact numbers.held found
    · intro other given
      obtain ⟨name, fields, located⟩ := numbers.there other given
      exact ⟨name, fields, Heap.push_get?_of_some located _⟩
  calls actor target receiver numbers := ignores rfl numbers

/-- What the counter holds is known from the record. -/
theorem read_counter
    (numbers : Numbers className counter 0 past heap statics) :
    statics.read counter = .int (.ofNat (numbered className past).length) := by
  obtain ⟨count, same, holds⟩ := numbers.counted
  rw [holds, ← same, Nat.add_zero]

/-- The next number is stored, and the counter falls behind by one. -/
theorem give
    {name : String}
    {fields : FieldTable}
    (act : Act)
    (numbers : Numbers className counter 0 past heap statics)
    (located : heap.objects[slot]? = some (.instanceOf name fields))
    (gives : act.numbered? className = some slot) :
    Numbers className counter 1 (past ++ [act])
      (heap.replace slot
        (.instanceOf name
          (fields.write (.ofInstance className serialField .int)
            (.int (.ofNat ((numbered className past).length + 1))))))
      statics := by
  have more : numbered className (past ++ [act]) = numbered className past ++ [slot] :=
    numbered_append_singleton gives
  refine ⟨⟨_, ?_, numbers.read_counter⟩, ?_, ?_⟩
  · rw [more, List.length_append]
    rfl
  · intro other holder others found
    rw [more]
    rw [Heap.replace_get?] at found
    split at found
    · rename_i here
      obtain ⟨rfl, -⟩ := here
      cases found
      rw [FieldTable.read_write_self, lastNumber_append_self]
    · rename_i differs
      have elsewhere : other ≠ slot := by
        rintro rfl
        exact differs ⟨rfl, Heap.lt_size_of_get? found⟩
      rw [lastNumber_append_of_ne elsewhere]
      exact numbers.held found
  · intro other given
    rw [more] at given
    rw [Heap.replace_get?]
    split
    · exact ⟨_, _, rfl⟩
    · rename_i differs
      rcases List.mem_append.1 given with old | new
      · exact numbers.there other old
      · rw [List.mem_singleton.1 new] at differs
        exact absurd ⟨rfl, Heap.lt_size_of_get? located⟩ differs

/-- The counter catches up. -/
theorem catchUp (numbers : Numbers className counter 1 past heap statics) :
    Numbers className counter 0 past heap
      (statics.write counter (.int (.ofNat (numbered className past).length))) :=
  ⟨⟨_, Nat.add_zero _, FieldTable.read_write_self _ _ _⟩, numbers.held, numbers.there⟩

end Numbers
end AccessProfiler
