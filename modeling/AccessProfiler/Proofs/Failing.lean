import AccessProfiler.Proofs.RunRules

/-!
# Computations that avoid failures

A computation avoids a kind of failure if no state lets it end with one (`Avoids`).  A sequence avoids
what its parts avoid, and a later part may count on how the earlier ones ended; nothing else is needed
to go through the parts of a run.  The faults of structure (`Failure.IsStructural`) are those of a body
that does not fit together: a local that is not declared, an argument that was not passed, an assignment
to what is no place; those of the machine itself (`Failure.IsInternal`) are a reference to nothing and a
lack of steps.  No data, no object that is there and no printing of a line has any of them.
-/

namespace AccessProfiler

variable {Problem State Value Result : Type}

/-- From one state the computation fails with a problem, and leaves another state. -/
def Fails
    (computation : ExceptT Problem (StateM State) Value)
    (before : State)
    (problem : Problem)
    (after : State) : Prop :=
  StateT.run (ExceptT.run computation) before = (.error problem, after)

/-- A computation fails if that can be computed. -/
theorem Fails.of_result
    {computation : ExceptT Problem (StateM State) Value}
    {before : State}
    {problem : Problem}
    (computed : (StateT.run (ExceptT.run computation) before).1 = .error problem) :
    Fails computation before problem (StateT.run (ExceptT.run computation) before).2 :=
  Prod.ext computed rfl

namespace Fails

variable {before after : State} {problem : Problem}

theorem not_pure {value : Value} :
    ¬ Fails (pure value : ExceptT Problem (StateM State) Value) before problem after := by
  rintro ⟨⟩

theorem not_set {state : State} :
    ¬ Fails (set state : ExceptT Problem (StateM State) PUnit) before problem after := by
  rintro ⟨⟩

/-- A sequence of two computations fails with the first, or with the second from where the first
ended. -/
theorem bind_iff
    {first : ExceptT Problem (StateM State) Value}
    {next : Value → ExceptT Problem (StateM State) Result} :
    Fails (first >>= next) before problem after ↔
      Fails first before problem after ∨
        ∃ value between, Ends first before value between ∧
          Fails (next value) between problem after := by
  unfold Fails Ends
  rw [run_bind]
  rcases StateT.run (ExceptT.run first) before with ⟨failure | value, between⟩
  · constructor
    · rintro ⟨⟩
      exact .inl rfl
    · rintro (⟨⟨⟩⟩ | ⟨_, _, ⟨⟩, _⟩)
      rfl
  · constructor
    · intro fails
      exact .inr ⟨value, between, rfl, fails⟩
    · rintro (⟨⟨⟩⟩ | ⟨_, _, ⟨⟩, fails⟩)
      exact fails

/-- What follows on a look at the state fails with that state. -/
theorem get_bind_iff {next : State → ExceptT Problem (StateM State) Result} :
    Fails (get >>= next) before problem after ↔ Fails (next before) before problem after := by
  unfold Fails
  rw [run_bind]
  rfl

end Fails

/-- No state lets the computation fail with a problem of this kind. -/
def Avoids
    (Bad : Problem → Prop)
    (computation : ExceptT Problem (StateM State) Value) : Prop :=
  ∀ before problem after, Fails computation before problem after → ¬ Bad problem

/-- The outcome is no problem of this kind. -/
def Shuns (Bad : Problem → Prop) (outcome : Except Problem Value) : Prop :=
  ∀ problem, outcome = .error problem → ¬ Bad problem

namespace Shuns

variable {Bad : Problem → Prop}

theorem of_ok (value : Value) : Shuns Bad (.ok value : Except Problem Value) := by
  rintro _ ⟨⟩

theorem of_error {problem : Problem} (good : ¬ Bad problem) :
    Shuns Bad (.error problem : Except Problem Value) := by
  rintro _ ⟨⟩
  exact good

theorem of_bind
    {first : Except Problem Value}
    {next : Value → Except Problem Result}
    (shuns : Shuns Bad first)
    (shunsNext : ∀ value, Shuns Bad (next value)) :
    Shuns Bad (first >>= next) := by
  cases first with
  | ok value => exact shunsNext value
  | error problem => exact of_error (shuns problem rfl)

theorem mono
    {Worse : Problem → Prop}
    {outcome : Except Problem Value}
    (shuns : Shuns Worse outcome)
    (worse : ∀ {problem}, Bad problem → Worse problem) :
    Shuns Bad outcome :=
  fun problem failed bad => shuns problem failed (worse bad)

end Shuns

namespace Avoids

variable {Bad : Problem → Prop}

theorem mono
    {Worse : Problem → Prop}
    {computation : ExceptT Problem (StateM State) Value}
    (avoids : Avoids Worse computation)
    (worse : ∀ {problem}, Bad problem → Worse problem) :
    Avoids Bad computation :=
  fun before problem after fails bad => avoids before problem after fails (worse bad)

theorem of_pure (value : Value) :
    Avoids Bad (pure value : ExceptT Problem (StateM State) Value) := by
  rintro _ _ _ ⟨⟩

theorem of_throw {problem : Problem} (good : ¬ Bad problem) :
    Avoids Bad (throw problem : ExceptT Problem (StateM State) Value) := by
  rintro _ _ _ ⟨⟩
  exact good

theorem of_get : Avoids Bad (get : ExceptT Problem (StateM State) State) := by
  rintro _ _ _ ⟨⟩

theorem of_set (state : State) :
    Avoids Bad (set state : ExceptT Problem (StateM State) PUnit) := by
  rintro _ _ _ ⟨⟩

theorem of_modify (change : State → State) :
    Avoids Bad (modify change : ExceptT Problem (StateM State) PUnit) := by
  rintro _ _ _ ⟨⟩

/-- The second part may count on how the first ended. -/
theorem of_bind
    {first : ExceptT Problem (StateM State) Value}
    {next : Value → ExceptT Problem (StateM State) Result}
    (avoids : Avoids Bad first)
    (avoidsNext :
      ∀ before value between, Ends first before value between → Avoids Bad (next value)) :
    Avoids Bad (first >>= next) := by
  intro before problem after fails
  rcases Fails.bind_iff.1 fails with failsFirst | ⟨value, between, ends, failsNext⟩
  · exact avoids before problem after failsFirst
  · exact avoidsNext before value between ends between problem after failsNext

/-- The second part avoids the failure whatever it is given. -/
theorem of_seq
    {first : ExceptT Problem (StateM State) Value}
    {next : Value → ExceptT Problem (StateM State) Result}
    (avoids : Avoids Bad first)
    (avoidsNext : ∀ value, Avoids Bad (next value)) :
    Avoids Bad (first >>= next) :=
  of_bind avoids fun _ value _ _ => avoidsNext value

theorem of_map
    {computation : ExceptT Problem (StateM State) Value}
    {change : Value → Result}
    (avoids : Avoids Bad computation) :
    Avoids Bad (change <$> computation) := by
  rw [← bind_pure_comp]
  exact of_seq avoids fun _ => of_pure _

theorem of_mapM
    {Item : Type}
    {step : Item → ExceptT Problem (StateM State) Result}
    {list : List Item}
    (avoids : ∀ item ∈ list, Avoids Bad (step item)) :
    Avoids Bad (list.mapM step) := by
  induction list with
  | nil => exact of_pure []
  | cons item rest hypothesis =>
    rw [List.mapM_cons]
    refine of_seq (avoids item List.mem_cons_self) fun _ => of_seq ?_ fun _ => of_pure _
    exact hypothesis fun other member => avoids other (List.mem_cons_of_mem _ member)

end Avoids

namespace Run

variable {Bad : Failure → Prop}

theorem fails_ofExcept
    {outcome : Except Failure Value}
    {before after : Machine}
    {failure : Failure} :
    Fails (ofExcept outcome) before failure after ↔ outcome = .error failure ∧ after = before := by
  constructor
  · intro fails
    obtain ⟨failed, same⟩ := Prod.mk.inj fails
    exact ⟨failed, same.symm⟩
  · rintro ⟨failed, rfl⟩
    exact Prod.ext failed rfl

/-- A question about the heap that fails leaves the machine as it is. -/
theorem fails_askHeap
    {question : Heap → Except Failure Value}
    {before after : Machine}
    {failure : Failure} :
    Fails (askHeap question) before failure after ↔
      question before.heap = .error failure ∧ after = before := by
  unfold askHeap
  rw [Fails.get_bind_iff, fails_ofExcept]

/-- A change of the heap that fails leaves the machine as it is. -/
theorem fails_changeHeap
    {change : Heap → Except Failure Heap}
    {before after : Machine}
    {failure : Failure} :
    Fails (changeHeap change) before failure after ↔
      change before.heap = .error failure ∧ after = before := by
  unfold changeHeap
  rw [Fails.get_bind_iff, Fails.bind_iff, fails_ofExcept]
  exact or_iff_left fun ⟨_, _, _, fails⟩ => Fails.not_set fails

/-- An allocation that fails leaves the machine as it is. -/
theorem fails_allocate
    {allocation : Heap → Except Failure (Nat × Heap)}
    {before after : Machine}
    {failure : Failure} :
    Fails (allocate allocation) before failure after ↔
      allocation before.heap = .error failure ∧ after = before := by
  unfold allocate
  rw [Fails.get_bind_iff, Fails.bind_iff, fails_ofExcept]
  refine or_iff_left fun ⟨_, _, _, fails⟩ => ?_
  rcases Fails.bind_iff.1 fails with fails | ⟨_, _, _, fails⟩
  · exact Fails.not_set fails
  · exact Fails.not_pure fails

theorem avoids_ofExcept
    {outcome : Except Failure Value}
    (shuns : Shuns Bad outcome) :
    Avoids Bad (ofExcept outcome) := by
  intro before failure after fails
  exact shuns failure (Prod.mk.inj fails).1

theorem avoids_askHeap
    {question : Heap → Except Failure Value}
    (shuns : ∀ heap, Shuns Bad (question heap)) :
    Avoids Bad (askHeap question) :=
  .of_seq .of_get fun machine => avoids_ofExcept (shuns machine.heap)

theorem avoids_changeHeap
    {change : Heap → Except Failure Heap}
    (shuns : ∀ heap, Shuns Bad (change heap)) :
    Avoids Bad (changeHeap change) :=
  .of_seq .of_get fun machine =>
    .of_seq (avoids_ofExcept (shuns machine.heap)) fun _ => .of_set _

theorem avoids_allocate
    {allocation : Heap → Except Failure (Nat × Heap)}
    (shuns : ∀ heap, Shuns Bad (allocation heap)) :
    Avoids Bad (allocate allocation) :=
  .of_seq .of_get fun machine =>
    .of_seq (avoids_ofExcept (shuns machine.heap)) fun _ => .of_seq (.of_set _) fun _ => .of_pure _

theorem avoids_nested {run : Run Value} (avoids : Avoids Bad run) : Avoids Bad (nested run) := by
  intro before failure after fails
  exact avoids _ failure _ (Prod.ext (Prod.mk.inj fails).1 rfl)

theorem avoids_tick {limits : Limits} (within : ∀ excess, ¬ Bad (.excess excess)) :
    Avoids Bad (tick limits) := by
  refine .of_seq (.of_modify _) fun _ => .of_seq .of_get fun machine => ?_
  split
  · exact .of_throw (within _)
  · exact .of_pure _

theorem avoids_mark {className : String} : Avoids Bad (mark className) := by
  refine .of_seq .of_get fun machine => ?_
  split
  · exact .of_pure _
  · exact .of_seq (.of_set _) fun _ => .of_pure _

end Run

/-- The body that runs does not fit together: a local is not declared, an argument was not passed, or
something is assigned to what is no place. -/
def Failure.IsStructural : Failure → Prop
  | .fault (.unknownLocal _) | .fault (.missingArgument _) | .fault (.notAPlace _) => True
  | _ => False

/-- A failure of the machine, not of its program: a reference to nothing, or too few steps. -/
def Failure.IsInternal : Failure → Prop
  | .fault (.danglingReference _) | .exhausted => True
  | _ => False

/-- Neither data nor objects fail in this way. -/
def Failure.IsForeign (failure : Failure) : Prop :=
  failure.IsStructural ∨ failure.IsInternal

theorem Failure.IsForeign.of_structural {failure : Failure} (structural : failure.IsStructural) :
    failure.IsForeign :=
  .inl structural

theorem Failure.IsForeign.of_internal {failure : Failure} (internal : failure.IsInternal) :
    failure.IsForeign :=
  .inr internal

theorem Failure.IsForeign.of_exhausted {failure : Failure} (exhausted : failure = .exhausted) :
    failure.IsForeign :=
  exhausted ▸ .inr trivial

namespace Datum

variable {datum : Datum}

theorem asInt_shuns : Shuns Failure.IsForeign datum.asInt := by
  cases datum with
  | int value => exact .of_ok value
  | _ => exact .of_error (·.elim id id)

theorem asReference_shuns : Shuns Failure.IsForeign datum.asReference := by
  cases datum with
  | reference slot => exact .of_ok slot
  | _ => exact .of_error (·.elim id id)

end Datum

namespace Heap

variable {heap : Heap} {slot : Nat} {field : FieldRef} {value : Datum} {index : Int32}

theorem allocate_shuns {object : HeapObject} : Shuns Failure.IsForeign (heap.allocate object) := by
  unfold allocate
  split
  · exact .of_error (·.elim id id)
  · exact .of_ok _

theorem position_shuns {length : Nat} : Shuns Failure.IsForeign (position length index) := by
  unfold position
  split
  · exact .of_ok _
  · exact .of_error (·.elim id id)

section Access

variable {Bad : Failure → Prop}

/-- The only failure is that there is no such object. -/
theorem object_shuns (sparing : ¬ Bad (.fault (.danglingReference slot))) :
    Shuns Bad (heap.object slot) := by
  unfold object
  split
  · exact .of_ok _
  · exact .of_error sparing

theorem object_shuns_of_lt (lt : slot < heap.size) : Shuns Bad (heap.object slot) := by
  unfold object
  rw [Array.getElem?_eq_getElem lt]
  exact .of_ok _

theorem className?_shuns (found : Shuns Bad (heap.object slot)) :
    Shuns Bad (heap.className? slot) := by
  refine .of_bind found fun object => ?_
  cases object <;> exact .of_ok _

variable
    (foreign : ∀ {failure}, Bad failure → failure.IsForeign)
    (found : Shuns Bad (heap.object slot))
include foreign found

theorem readField_shuns : Shuns Bad (heap.readField slot field) := by
  refine .of_bind found fun object => ?_
  cases object with
  | instanceOf className fields => exact .of_ok _
  | array element values => exact .of_error fun bad => (foreign bad).elim id id

theorem writeField_shuns : Shuns Bad (heap.writeField slot field value) := by
  refine .of_bind found fun object => ?_
  cases object with
  | instanceOf className fields => exact .of_ok _
  | array element values => exact .of_error fun bad => (foreign bad).elim id id

theorem elements_shuns : Shuns Bad (heap.elements slot) := by
  refine .of_bind found fun object => ?_
  cases object with
  | instanceOf className fields => exact .of_error fun bad => (foreign bad).elim id id
  | array element values => exact .of_ok _

theorem readElement_shuns : Shuns Bad (heap.readElement slot index) :=
  .of_bind (elements_shuns foreign found) fun _ =>
    .of_bind (position_shuns.mono foreign) fun _ => .of_ok _

theorem writeElement_shuns : Shuns Bad (heap.writeElement slot index value) :=
  .of_bind (elements_shuns foreign found) fun _ =>
    .of_bind (position_shuns.mono foreign) fun _ => .of_ok _

theorem arrayLength_shuns : Shuns Bad (heap.arrayLength slot) :=
  .of_bind (elements_shuns foreign found) fun _ => .of_ok _

end Access
end Heap

namespace Run

theorem arithmetic_avoids {operator : Operator} {left right : Datum} :
    Avoids Failure.IsForeign (arithmetic operator left right) := by
  unfold arithmetic
  split
  case h_13 => exact .of_throw (·.elim id id)
  all_goals exact .of_pure _

theorem report_avoids {sink : Sink} {arguments : List Datum} :
    Avoids Failure.IsForeign (report sink arguments) := by
  unfold report
  split
  · exact .of_seq (.of_modify _) fun _ => .of_pure _
  · exact .of_seq (.of_modify _) fun _ => .of_pure _
  · exact .of_seq (.of_throw (·.elim id id)) fun _ => .of_pure _

end Run
end AccessProfiler
