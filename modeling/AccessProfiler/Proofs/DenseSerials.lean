import AccessProfiler.Proofs.BalancedRuns

/-!
# Serial numbers are dense

In a run of a program that constructs objects as it should, each instance of an instrumented class and of
the classes below it is given one number of that class, and the numbers are the first ones, in the order
in which they are given (`transformProgram_numbersInstances`).  That an object is given as many numbers as
it is owed is the balance of the run; that it holds the place at which it was given one is the account of
the class.
-/

namespace AccessProfiler

/-- The objects that a class gave numbers to in a run are its instances, each once, and the number of an
object is its place among them.  The static counter of the class says how many there are. -/
structure Profile.NumbersInstances
    (profile : Profile)
    (program : Program)
    (acts : List Act)
    (after : Machine) : Prop where
  once : (numbered profile.className acts).Nodup
  instances :
    ∀ slot, slot ∈ numbered profile.className acts ↔
      ∃ className fields, after.heap.objects[slot]? = some (.instanceOf className fields) ∧
        program.Inherits className profile.className
  serials :
    ∀ {slot : Nat} {className : String} {fields : FieldTable},
      after.heap.objects[slot]? = some (.instanceOf className fields) →
      ∀ {index : Nat}, (numbered profile.className acts)[index]? = some slot →
        fields.read profile.serial = .int (.ofNat (index + 1))
  counter :
    after.statics.read profile.staticCounter =
      .int (.ofNat (numbered profile.className acts).length)

/-- As long as numbers do not wrap around, different instances have different ones. -/
theorem Profile.NumbersInstances.serial_unique
    {profile : Profile}
    {program : Program}
    {acts : List Act}
    {after : Machine}
    (numbers : profile.NumbersInstances program acts after)
    (bounded : (numbered profile.className acts).length < Nat.pow 2 32)
    {first second : Nat}
    {className other : String}
    {fields others : FieldTable}
    (located : after.heap.objects[first]? = some (.instanceOf className fields))
    (locatedToo : after.heap.objects[second]? = some (.instanceOf other others))
    (inherits : program.Inherits className profile.className)
    (inheritsToo : program.Inherits other profile.className)
    (same : fields.read profile.serial = others.read profile.serial) :
    first = second := by
  obtain ⟨index, inside, rfl⟩ :=
    List.mem_iff_getElem.1 ((numbers.instances first).2 ⟨className, fields, located, inherits⟩)
  obtain ⟨position, insideToo, rfl⟩ :=
    List.mem_iff_getElem.1 ((numbers.instances second).2 ⟨other, others, locatedToo, inheritsToo⟩)
  rw [numbers.serials located (List.getElem?_eq_getElem inside),
    numbers.serials locatedToo (List.getElem?_eq_getElem insideToo)] at same
  have bits := congrArg Int32.toBitVec (Datum.int.inj same)
  have places := congrArg BitVec.toNat bits
  have small : (index + 1) % 4294967296 = (position + 1) % 4294967296 := by simpa using places
  rw [show Nat.pow 2 32 = 4294967296 from rfl] at bounded
  rw [Nat.mod_eq_of_lt (by omega), Nat.mod_eq_of_lt (by omega)] at small
  obtain rfl : index = position := by omega
  rfl

section Runs

variable
    {settings : Settings}
    {program : Program}
    {session : Session}
    {world : World}
    {acts : List Act}
    {heap : Heap}

open Classical in
/-- An instance is owed a number if its class inherits from the class that numbers. -/
theorem Numbering.owed_eq
    (completes : session.Completes settings program)
    (unregistered : program.class? settings.counterClassName = none)
    (builds : program.BuildsOnce acts heap)
    {slot : Nat}
    {name : String}
    {fields : FieldTable}
    (located : heap.objects[slot]? = some (.instanceOf name fields))
    (className : String) :
    (Numbering.mk program session.program className slot).owed acts =
      if program.Inherits name className then 1 else 0 := by
  let watched := Numbering.mk program session.program className slot
  obtain ⟨actor, target, only, owned, declared⟩ := builds.once located
  have begins : (Act.calls actor target (some (.reference slot))).begins program slot := by
    have listed : .calls actor target (some (.reference slot)) ∈ acts.filter (Act.begins program slot) := by
      rw [only]
      exact List.mem_singleton_self _
    exact (List.mem_filter.1 listed).2
  have named : target.method.name = constructorName := by
    have both := begins
    simp only [Act.begins, Act.constructs, Bool.and_eq_true, beq_iff_eq] at both
    exact both.1.2
  obtain ⟨id, found, same⟩ := completes.target?_of_declared unregistered
    (show (program.findMethod? target.method.owner target.method.name target.method.parameters).isSome by
      rw [owned, named]
      exact declared)
  have owes :
      watched.Owes (.calls actor target (some (.reference slot))) ↔ program.Inherits name className := by
    constructor
    · rintro ⟨-, _, _, _, ⟨⟩, -, other, leads, inherits⟩
      obtain rfl := Option.some.inj (found.symm.trans leads)
      rw [← owned, ← same]
      exact inherits
    · intro inherits
      refine ⟨begins, actor, target, _, rfl, named, id, found, ?_⟩
      rw [same, owned]
      exact inherits
  calc
    watched.owed acts
        = (acts.filter (Act.begins program slot)).countP fun act => decide (watched.Owes act) := by
          rw [Numbering.owed, List.countP_filter]
          refine List.countP_congr fun act _ => ?_
          rw [Bool.and_eq_true, decide_eq_true_iff]
          exact ⟨fun owes => ⟨owes, owes.1⟩, fun both => both.1⟩
    _ = if watched.Owes (.calls actor target (some (.reference slot))) then 1 else 0 := by
          rw [only, List.countP_singleton]
          simp only [decide_eq_true_iff]
    _ = if program.Inherits name className then 1 else 0 := by simp only [owes]

/-- The numbers of a run in which the account of a class is in order and which is in balance. -/
theorem Numbers.numbersInstances
    (completes : session.Completes settings program)
    (unregistered : program.class? settings.counterClassName = none)
    {className : String}
    {counter : FieldRef}
    {after : Machine}
    (numbers : Account.On (Numbers className counter 0) acts after)
    (balanced : ∀ slot, (Numbering.mk program session.program className slot).Balanced acts)
    (builds : program.BuildsOnce acts after.heap) :
    (Profile.ofClass className counter).NumbersInstances program acts after := by
  classical
  have numbers : Numbers className counter 0 acts after.heap after.statics := numbers
  have owed {slot : Nat} {name : String} {fields : FieldTable}
      (located : after.heap.objects[slot]? = some (.instanceOf name fields)) :
      (numbered className acts).count slot = if program.Inherits name className then 1 else 0 :=
    (balanced slot).trans (Numbering.owed_eq completes unregistered builds located className)
  have once : (numbered className acts).Nodup := by
    refine List.nodup_iff_count_le_one.2 fun slot => ?_
    by_cases member : slot ∈ numbered className acts
    · obtain ⟨name, fields, located⟩ := numbers.there slot member
      rw [owed located]
      split <;> omega
    · rw [List.count_eq_zero_of_not_mem member]
      exact Nat.zero_le 1
  refine ⟨once, fun slot => ⟨fun member => ?_, ?_⟩, ?_, numbers.read_counter⟩
  · obtain ⟨name, fields, located⟩ := numbers.there slot member
    refine ⟨name, fields, located, ?_⟩
    by_contra apart
    exact List.count_eq_zero.1 ((owed located).trans (if_neg apart)) member
  · rintro ⟨name, fields, located, inherits⟩
    have count : (numbered className acts).count slot = 1 := (owed located).trans (if_pos inherits)
    exact List.count_pos_iff.1 (count ▸ Nat.one_pos)
  · intro slot name fields located index found
    have held := numbers.held located
    rw [lastNumber_of_getElem? once found] at held
    exact held

end Runs

/-- A run with one item. -/
theorem itemProgram_runs :
    ∃ acts after,
      World.CompletesDoing
          ⟨(transformProgram itemProgram countingSettings).2.program, countingSettings.sink, .unlimited⟩
          "shop.Main.run" (.fresh .unlimited) acts (.int 7) after ∧
        after.heap.objects.size = 1 ∧
        (after.heap.objects[0]?.bind HeapObject.className?) = some "shop.Item" ∧
        (∀ act ∈ acts, act.Direct itemProgram) ∧
        acts.filter (Act.begins itemProgram 0) =
          [.calls ⟨⟨"shop.Main", 0⟩, none⟩
            (.ofSpecial ⟨0⟩ ⟨"shop.Item", constructorName, [], .void⟩ []) (some (.reference 0))] ∧
        numbered "shop.Item" acts = [0] := by
  let world : World :=
    ⟨(transformProgram itemProgram countingSettings).2.program, countingSettings.sink, .unlimited⟩
  let run := (Run.entry world 6 "shop.Main.run").on (.fresh .unlimited)
  let acts := Run.entryLog world (.within world 6) "shop.Main.run" (.fresh .unlimited)
  exact ⟨acts, run.2, ⟨6, Ends.of_result (by decide +kernel), rfl⟩, by decide +kernel⟩

end AccessProfiler
