import AccessProfiler.Proofs.InsertedCode
import AccessProfiler.Proofs.Soundness

/-!
# Following a run

The machine with counting follows the one without: whatever the original program does next, the
program with counting does as well, after inserted code that ends.  The machines match before and
after, so that the same can be said of the next step.

`Callees.Follows` says this of calls and initializations, and the lemmas below say of each part of a
run that it is followed if the calls and initializations in it are.  The instructions of a body are
followed in three parts: the bindings, which both machines run alike; the opening, which is run by one
machine only; and the rest, where inserted calls stand in between.  That an inserted call of a method
that counts accesses finds an instance is known from the original run, which accesses a field of the
same object right after it.
-/

namespace AccessProfiler

/-- Whatever the callees do on a machine, the others do on every machine that matches it. -/
structure Callees.Follows (counter : String) (callees others : Callees) : Prop where
  invoke :
    ∀ {kind : CallKind} {method : MethodRef} {receiver : Option Datum} {arguments : List Datum}
      {machine after other : Machine} {value : Datum},
      method.Plain counter →
      machine.Sound (· ≠ counter) →
      (∀ given ∈ receiver, given.Lives machine.heap.size) →
      (∀ given ∈ arguments, given.Lives machine.heap.size) →
      machine.Matches counter other →
      Ends (callees.invoke kind method receiver arguments) machine value after →
      ∃ otherAfter, Ends (others.invoke kind method receiver arguments) other value otherAfter ∧
        after.Matches counter otherAfter
  prepare :
    ∀ {className : String} {machine after other : Machine},
      className ≠ counter →
      machine.Sound (· ≠ counter) →
      machine.Matches counter other →
      Ends (callees.prepare className) machine () after →
      ∃ otherAfter, Ends (others.prepare className) other () otherAfter ∧
        after.Matches counter otherAfter

namespace Run

variable
    {counter : String}
    {sink : Sink}
    {original current : Program}
    {callees others : Callees}
    {receiver : Option Datum}
    {arguments locals changed : List Datum}
    {value : Datum}
    {machine after other : Machine}

/-! ## Locals -/

/-- A local keeps its value when others are added behind. -/
theorem getElem?_append_of_some
    (extra : List Datum)
    {index : Nat}
    (found : locals[index]? = some value) :
    (locals ++ extra)[index]? = some value := by
  rw [List.getElem?_append_left (List.getElem?_eq_some_iff.1 found).1]
  exact found

theorem value?_append
    (extra : List Datum)
    {operand : Operand}
    (found : operand.value? locals = some value) :
    operand.value? (locals ++ extra) = some value := by
  cases operand with
  | «variable» source => exact getElem?_append_of_some extra found
  | literal constant => exact found

theorem mapM_value?_append
    (extra : List Datum)
    {operands : List Operand}
    {values : List Datum}
    (found : operands.mapM (Operand.value? locals) = some values) :
    operands.mapM (Operand.value? (locals ++ extra)) = some values := by
  induction operands generalizing values with
  | nil => exact found
  | cons operand rest hypothesis =>
    simp only [List.mapM_cons, Option.bind_eq_bind, Option.bind_eq_some_iff, Option.pure_def,
      Option.some.injEq] at found ⊢
    obtain ⟨first, foundFirst, values, foundRest, rfl⟩ := found
    exact ⟨first, value?_append extra foundFirst, values, hypothesis foundRest, rfl⟩

theorem mapM_receiver_append
    (extra : List Datum)
    {id : Option LocalId}
    (found : (id.mapM fun id => locals[id.index]?) = some receiver) :
    (id.mapM fun id => (locals ++ extra)[id.index]?) = some receiver := by
  cases id with
  | none => exact found
  | some id =>
    obtain ⟨datum, located, rfl⟩ := Option.map_eq_some_iff.1 found
    exact Option.map_eq_some_iff.2 ⟨datum, getElem?_append_of_some extra located, rfl⟩

/-! ## Expressions and places -/

section Steps

variable
    (countable : original.Countable counter sink)
    (woven : original.Woven counter sink current)
    (following : callees.Follows counter others)
    (sound : machine.Sound (· ≠ counter))
    (live : ∀ value ∈ locals, value.Lives machine.heap.size)
    (relates : machine.Matches counter other)
include countable woven following sound live relates

theorem Evaluates.follows
    (extra : List Datum)
    {expression : Expression}
    (plain : expression.Plain counter)
    (evaluates :
      Evaluates (.unlimited original sink) callees locals machine value after expression) :
    ∃ otherAfter,
      Evaluates (.unlimited current sink) others (locals ++ extra) other value otherAfter
        expression ∧
      after.Matches counter otherAfter := by
  cases expression with
  | «variable» source =>
    obtain ⟨found, rfl⟩ := evaluates
    exact ⟨other, ⟨getElem?_append_of_some extra found, rfl⟩, relates⟩
  | literal constant =>
    obtain ⟨rfl, rfl⟩ := evaluates
    exact ⟨other, ⟨rfl, rfl⟩, relates⟩
  | instanceField base field =>
    obtain ⟨slot, found, read, rfl⟩ := evaluates
    refine ⟨other, ⟨slot, getElem?_append_of_some extra found, ?_, rfl⟩, relates⟩
    have same := woven.declaredField_eq countable plain
    exact same ▸ relates.readField (countable.apart.declaredField_plain plain) read
  | staticField field =>
    obtain ⟨prepared, rfl⟩ := evaluates
    have meant := countable.apart.declaredField_plain plain
    obtain ⟨otherAfter, preparedOther, related⟩ :=
      following.prepare meant.1 sound relates prepared
    have same := woven.declaredField_eq countable plain
    have read :
        otherAfter.statics.read (declaredField current field) =
          after.statics.read (declaredField original field) := by
      rw [same]
      exact related.readStatic meant
    rw [← same] at preparedOther
    exact ⟨otherAfter, ⟨preparedOther, read.symm⟩, related⟩
  | element base index =>
    obtain ⟨slot, position, found, indexed, read, rfl⟩ := evaluates
    exact ⟨other,
      ⟨slot, position, getElem?_append_of_some extra found, value?_append extra indexed,
        relates.readElement read, rfl⟩,
      relates⟩
  | newObject className =>
    obtain ⟨prepared, slot, heap, ready, allocated, rfl, rfl⟩ := evaluates
    obtain ⟨otherPrepared, readyOther, related⟩ := following.prepare plain sound relates ready
    obtain ⟨otherHeap, allocatedOther, relatedAfter⟩ :=
      related.allocate (.instances fun _ _ => rfl) (by simp [HeapObject.Counting, FieldTable.Counting])
        allocated
    exact ⟨_, ⟨otherPrepared, slot, otherHeap, readyOther, allocatedOther, rfl, rfl⟩, relatedAfter⟩
  | newArray content size =>
    obtain ⟨length, slot, heap, sized, positive, allocated, rfl, rfl⟩ := evaluates
    obtain ⟨otherHeap, allocatedOther, relatedAfter⟩ :=
      relates.allocate (.arrays _ _) trivial allocated
    exact ⟨_,
      ⟨length, slot, otherHeap, value?_append extra sized, positive, allocatedOther, rfl, rfl⟩,
      relatedAfter⟩
  | length base =>
    obtain ⟨slot, length, found, measured, rfl, rfl⟩ := evaluates
    exact ⟨other,
      ⟨slot, length, getElem?_append_of_some extra found, relates.arrayLength measured, rfl, rfl⟩,
      relates⟩
  | binary operator left right =>
    obtain ⟨first, second, foundFirst, foundSecond, computed, rfl⟩ := evaluates
    exact ⟨other,
      ⟨first, second, value?_append extra foundFirst, value?_append extra foundSecond, computed,
        rfl⟩,
      relates⟩
  | call target =>
    obtain ⟨given, passed, received, evaluated, called⟩ := evaluates
    obtain ⟨otherAfter, calledOther, related⟩ :=
      following.invoke plain sound (holds_of_receiver live received) (Operand.allLive live evaluated)
        relates called
    exact ⟨otherAfter,
      ⟨given, passed, mapM_receiver_append extra received, mapM_value?_append extra evaluated,
        calledOther⟩,
      related⟩

theorem Stores.follows
    (extra : List Datum)
    {place : Expression}
    (plain : place.Plain counter)
    (stores :
      Stores (.unlimited original sink) callees locals value machine changed after place) :
    ∃ otherAfter,
      Stores (.unlimited current sink) others (locals ++ extra) value other (changed ++ extra)
        otherAfter place ∧
      after.Matches counter otherAfter := by
  cases place with
  | «variable» target =>
    obtain ⟨declared, rfl, rfl⟩ := stores
    refine ⟨other, ⟨?_, (List.set_append_left _ _ declared).symm, rfl⟩, relates⟩
    rw [List.length_append]
    exact Nat.lt_add_right _ declared
  | instanceField base field =>
    obtain ⟨slot, heap, found, written, rfl, rfl⟩ := stores
    obtain ⟨otherHeap, writtenOther, related⟩ :=
      relates.writeField (countable.apart.declaredField_plain plain) written
    have same := woven.declaredField_eq countable plain
    exact ⟨_,
      ⟨slot, otherHeap, getElem?_append_of_some extra found, same ▸ writtenOther, rfl, rfl⟩,
      related⟩
  | staticField field =>
    obtain ⟨prepared, ready, rfl, rfl⟩ := stores
    have meant := countable.apart.declaredField_plain plain
    obtain ⟨otherPrepared, readyOther, related⟩ := following.prepare meant.1 sound relates ready
    have written := related.writeStatic value meant
    rw [← woven.declaredField_eq countable plain] at readyOther
    refine ⟨_, ⟨otherPrepared, readyOther, rfl, rfl⟩, ?_⟩
    exact woven.declaredField_eq countable plain ▸ written
  | element base index =>
    obtain ⟨slot, position, heap, found, indexed, written, rfl, rfl⟩ := stores
    obtain ⟨otherHeap, writtenOther, related⟩ := relates.writeElement written
    exact ⟨_,
      ⟨slot, position, otherHeap, getElem?_append_of_some extra found, value?_append extra indexed,
        writtenOther, rfl, rfl⟩,
      related⟩
  | _ => exact stores.elim

end Steps

/-! ## Bindings -/

/-- What the locals are after bindings. -/
inductive Binds (receiver : Option Datum) (arguments : List Datum) :
    List Datum → List Instruction → List Datum → Prop
  | done {locals : List Datum} : Binds receiver arguments locals [] locals
  | step
      {locals bound : List Datum}
      {target : LocalId}
      {source : Binding}
      {given : Datum}
      {rest : List Instruction}
      (passed : passed? receiver arguments source = some given)
      (declared : target.index < locals.length)
      (later : Binds receiver arguments (locals.set target.index given) rest bound) :
      Binds receiver arguments locals (.bind target source :: rest) bound

section Bindings

variable {bound : List Datum} {bindings list : List Instruction}

/-- Bindings change nothing but the locals; that they ran is only counted. -/
theorem exists_binds
    {world : World}
    (binding : ∀ instruction ∈ bindings, instruction.isBinding)
    (ends :
      Ends (instructions world callees receiver arguments locals (bindings ++ list)) machine value
        after) :
    ∃ bound executed, Binds receiver arguments locals bindings bound ∧
      Ends (instructions world callees receiver arguments bound list) { machine with executed } value
        after := by
  induction bindings generalizing locals machine with
  | nil => exact ⟨locals, machine.executed, .done, ends⟩
  | cons instruction rest hypothesis =>
    cases instruction with
    | bind target source =>
      obtain ⟨-, given, passed, declared, ends⟩ := ends_instructions_cons.1 ends
      obtain ⟨bound, executed, binds, endsRest⟩ :=
        hypothesis (fun other member => binding other (List.mem_cons_of_mem _ member)) ends
      exact ⟨bound, executed, .step passed declared binds, endsRest⟩
    | _ => exact absurd (binding _ List.mem_cons_self) Bool.false_ne_true

theorem Binds.length_eq (binds : Binds receiver arguments locals bindings bound) :
    bound.length = locals.length := by
  induction binds with
  | done => rfl
  | step _ _ _ hypothesis => rw [hypothesis, List.length_set]

theorem Binds.live
    {size : Nat}
    (binds : Binds receiver arguments locals bindings bound)
    (liveReceiver : ∀ given ∈ receiver, given.Lives size)
    (liveArguments : ∀ given ∈ arguments, given.Lives size)
    (live : ∀ value ∈ locals, value.Lives size) :
    ∀ value ∈ bound, value.Lives size := by
  induction binds with
  | done => exact live
  | @step locals bound target source given rest passed _ _ hypothesis =>
    refine hypothesis fun value member => ?_
    rcases List.mem_or_eq_of_mem_set member with old | rfl
    · exact live value old
    · cases source with
      | receiver type => exact liveReceiver value passed
      | parameter index type => exact liveArguments value (List.mem_of_getElem? passed)

/-- A local that no binding gives a value to keeps its value. -/
theorem Binds.getElem?_eq
    {id : LocalId}
    (binds : Binds receiver arguments locals bindings bound)
    (unbound : id ∉ bindings.filterMap Instruction.boundLocal?) :
    bound[id.index]? = locals[id.index]? := by
  induction binds with
  | done => rfl
  | @step locals bound target source given rest _ _ _ hypothesis =>
    simp only [Instruction.boundLocal?, List.filterMap_cons, List.mem_cons, not_or] at unbound
    have differs : target.index ≠ id.index := fun same =>
      unbound.1 (congrArg LocalId.mk same.symm)
    rw [hypothesis unbound.2, List.getElem?_set_ne differs]

/-- If no local is bound twice, the local of the receiver holds the receiver afterwards. -/
theorem Binds.receiver_eq
    {this : LocalId}
    {type : Ty}
    (binds : Binds receiver arguments locals bindings bound)
    (once : (bindings.filterMap Instruction.boundLocal?).Nodup)
    (member : .bind this (.receiver type) ∈ bindings) :
    bound[this.index]? = receiver := by
  induction binds with
  | done => cases member
  | @step locals bound target source given rest passed declared later hypothesis =>
    simp only [Instruction.boundLocal?, List.filterMap_cons, List.nodup_cons] at once
    rcases List.mem_cons.1 member with here | there
    · cases here
      rw [later.getElem?_eq once.1, List.getElem?_set_self declared]
      exact passed.symm
    · exact hypothesis once.2 there

/-- The machine with counting runs the bindings alike. -/
theorem Binds.carries
    {program : Program}
    {extra : List Datum}
    (binds : Binds receiver arguments locals bindings bound)
    (relates : machine.Matches counter other)
    (carries :
      ∀ later, machine.Matches counter later →
        Carries (.unlimited program sink) others counter receiver arguments value after
          (bound ++ extra) later list) :
    Carries (.unlimited program sink) others counter receiver arguments value after
      (locals ++ extra) other (bindings ++ list) := by
  induction binds generalizing other with
  | done => exact carries other relates
  | @step locals bound target source given rest passed declared later hypothesis =>
    refine .bind given passed ?_ relates fun between related => ?_
    · rw [List.length_append]
      exact Nat.lt_add_right _ declared
    · rw [List.set_append_left _ _ declared]
      exact hypothesis related carries

end Bindings

/-! ## Inserted blocks -/

section Insertions

variable
    {list : List Instruction}
    (countable : original.Countable counter sink)
    (woven : original.Woven counter sink current)
    (serves : others.Serves counter sink)
    (announces : others.Announces counter current.offers)
include announces

theorem Carries.tally
    {call : Instruction}
    (tallies : call.Tallies counter current.offers)
    (relates : machine.Matches counter other)
    (carries :
      ∀ later, machine.Matches counter later →
        Carries (.unlimited current sink) others counter receiver arguments value after locals later
          list) :
    Carries (.unlimited current sink) others counter receiver arguments value after locals other
      (call :: list) := by
  obtain ⟨name, offered, rfl⟩ := tallies
  obtain ⟨tallied, ends, related⟩ :=
    announces.tally offered relates.counted
  exact .invoke ⟨none, [], rfl, rfl, ends⟩ (carries tallied related)

theorem Carries.count
    {call : Instruction}
    {base : LocalId}
    {slot : Nat}
    {className : String}
    {fields : FieldTable}
    (counts : call.Counts current.offers base)
    (refers : locals[base.index]? = some (.reference slot))
    (located : machine.heap.objects[slot]? = some (.instanceOf className fields))
    (relates : machine.Matches counter other)
    (carries :
      ∀ later, machine.Matches counter later →
        Carries (.unlimited current sink) others counter receiver arguments value after locals later
          list) :
    Carries (.unlimited current sink) others counter receiver arguments value after locals other
      (call :: list) := by
  obtain ⟨kind, owner, name, dispatched, incrementing, offered, rfl⟩ := counts
  obtain ⟨counted, ends, related⟩ :=
    announces.count dispatched incrementing offered located relates.counted
  have received :
      ((some base).mapM fun id => locals[id.index]?) = some (some (.reference slot)) :=
    Option.map_eq_some_iff.2 ⟨_, refers, rfl⟩
  exact .invoke ⟨some (.reference slot), [], received, rfl, ends⟩ (carries counted related)

include countable woven serves

/-- The opening is run by one machine only, and changes none of the locals of the original body. -/
theorem Opening.carries
    {Serial : LocalId → LocalId → Prop}
    {opening : List Instruction}
    {extra : List Datum}
    (opens : Opening counter sink current.offers Serial opening)
    (assigns :
      ∀ this count, Serial this count →
        locals.length ≤ count.index ∧ count.index < locals.length + extra.length ∧
          ∃ slot className fields, locals[this.index]? = some (.reference slot) ∧
            machine.heap.objects[slot]? = some (.instanceOf className fields))
    (relates : machine.Matches counter other)
    (carries :
      ∀ extra later, machine.Matches counter later →
        Carries (.unlimited current sink) others counter receiver arguments value after
          (locals ++ extra) later list) :
    Carries (.unlimited current sink) others counter receiver arguments value after
      (locals ++ extra) other (opening ++ list) := by
  induction opens generalizing extra other with
  | done => exact carries extra other relates
  | tally tallies _ hypothesis =>
    exact .tally announces tallies relates fun _ related => hypothesis assigns related
  | @serial profile this count rest permitted tallies counts _ hypothesis =>
    obtain ⟨behind, declared, slot, className, fields, refers, located⟩ := assigns this count permitted
    have before : this.index < locals.length := (List.getElem?_eq_some_iff.1 refers).1
    rw [List.append_assoc]
    refine .serialAssignment countable woven located (getElem?_append_of_some extra refers) serves
      tallies counts ?_ ?_ relates fun number later related => ?_
    · rw [List.length_append]
      exact declared
    · omega
    · rw [List.set_append_right _ _ behind]
      refine hypothesis (fun this count permitted => ?_) related
      rw [List.length_set]
      exact assigns this count permitted

end Insertions

/-! ## Instructions -/

/-- An instruction that runs to its end and accesses a field of an object finds an instance, and found
it before it started: what it evaluates first does not turn an array into one. -/
theorem exists_instance_of_accesses
    {world : World}
    {instruction : Instruction}
    {rest : List Instruction}
    {base : LocalId}
    (calleesSound : callees.Sound (· ≠ counter))
    (sound : machine.Sound (· ≠ counter))
    (live : ∀ value ∈ locals, value.Lives machine.heap.size)
    (accesses : instruction.Accesses base)
    (plain : instruction.Plain counter)
    (ends :
      Ends (instructions world callees receiver arguments locals (instruction :: rest)) machine value
        after) :
    ∃ slot className fields, locals[base.index]? = some (.reference slot) ∧
      machine.heap.objects[slot]? = some (.instanceOf className fields) := by
  obtain ⟨-, continues⟩ := ends_instructions_cons.1 ends
  cases instruction with
  | assign place expression =>
    obtain ⟨computed, between, changed, stored, evaluates, stores, -⟩ := continues
    rcases accesses with ⟨field, rfl⟩ | ⟨field, rfl⟩
    · obtain ⟨slot, heap, found, written, -, -⟩ := stores
      obtain ⟨className, fields, located, -⟩ := Heap.writeField_eq_ok.1 written
      have started : (counted machine).Sound (· ≠ counter) := ⟨sound.objects, sound.statics⟩
      have kept : (counted machine).Kept (· ≠ counter) between :=
        (evaluates.sound calleesSound started live fun className same => by
          subst same
          exact plain.2).1
      have lives : slot < machine.heap.size := live _ (List.mem_of_getElem? found)
      have present := Array.getElem?_eq_getElem lives
      obtain ⟨grown, there, same⟩ := kept.grows slot _ present
      rw [located] at there
      cases there
      cases object : machine.heap.objects[slot] with
      | instanceOf className fields => exact ⟨slot, className, fields, found, object ▸ present⟩
      | array element values =>
        rw [object] at same
        cases same
    · obtain ⟨slot, found, read, -⟩ := evaluates
      obtain ⟨className, fields, located, -⟩ := Heap.readField_eq_ok.1 read
      exact ⟨slot, className, fields, found, located⟩
  | _ => exact accesses.elim

section Bodies

variable
    (countable : original.Countable counter sink)
    (woven : original.Woven counter sink current)
    (following : callees.Follows counter others)
    (calleesSound : callees.Sound (· ≠ counter))
    (announces : others.Announces counter current.offers)
include countable woven following calleesSound announces

/-- Instructions are followed when calls are inserted between them. -/
theorem Woven.carries
    {rest list : List Instruction}
    (extra : List Datum)
    (relation : AccessProfiler.Woven counter current.offers rest list)
    (plain : ∀ instruction ∈ rest, instruction.Plain counter)
    (sound : machine.Sound (· ≠ counter))
    (live : ∀ value ∈ locals, value.Lives machine.heap.size)
    (relates : machine.Matches counter other)
    (ends :
      Ends (instructions (.unlimited original sink) callees receiver arguments locals rest) machine
        value after) :
    Carries (.unlimited current sink) others counter receiver arguments value after (locals ++ extra)
      other list := by
  induction relation generalizing locals machine other with
  | done =>
    obtain ⟨rfl, rfl⟩ := ends_instructions_nil.1 ends
    exact ⟨other, ends_instructions_nil.2 ⟨rfl, rfl⟩, relates⟩
  | tally tallies _ hypothesis =>
    exact .tally announces tallies relates fun _ related =>
      hypothesis plain sound live related ends
  | count accesses counts _ hypothesis =>
    obtain ⟨slot, className, fields, refers, located⟩ :=
      exists_instance_of_accesses calleesSound sound live accesses
        (plain _ List.mem_cons_self) ends
    exact .count announces counts (getElem?_append_of_some extra refers) located relates
      fun _ related => hypothesis plain sound live related ends
  | @keep instruction rest list unbound _ hypothesis =>
    have plainRest : ∀ instruction ∈ rest, instruction.Plain counter :=
      fun other member => plain other (List.mem_cons_of_mem _ member)
    have plainFirst := plain instruction List.mem_cons_self
    have started : (counted machine).Sound (· ≠ counter) := ⟨sound.objects, sound.statics⟩
    have related : (counted machine).Matches counter (counted other) :=
      relates.of_eq rfl rfl rfl rfl rfl rfl rfl rfl
    obtain ⟨-, continues⟩ := ends_instructions_cons.1 ends
    cases instruction with
    | bind target source => cases unbound
    | assign place expression =>
      obtain ⟨computed, between, changed, stored, evaluates, stores, ends⟩ := continues
      obtain ⟨kept, lives⟩ := evaluates.sound calleesSound started live fun className same => by
        subst same
        exact plainFirst.2
      obtain ⟨keptStored, liveChanged⟩ :=
        stores.sound calleesSound kept.sound (kept.allLive live) lives
      obtain ⟨otherBetween, evaluatesOther, relatedBetween⟩ :=
        evaluates.follows countable woven following started live related extra plainFirst.2
      obtain ⟨otherStored, storesOther, relatedStored⟩ :=
        stores.follows countable woven following kept.sound (kept.allLive live) relatedBetween extra
          plainFirst.1
      exact .assign evaluatesOther storesOther
        (hypothesis plainRest keptStored.sound liveChanged relatedStored ends)
    | invoke target =>
      obtain ⟨result, between, evaluates, ends⟩ := continues
      obtain ⟨kept, -⟩ := evaluates.sound calleesSound started live fun _ same => by cases same
      have plainCall : (Expression.call target).Plain counter := plainFirst
      obtain ⟨otherBetween, evaluatesOther, relatedBetween⟩ :=
        Evaluates.follows countable woven following started live related extra plainCall evaluates
      exact .invoke evaluatesOther
        (hypothesis plainRest kept.sound (kept.allLive live) relatedBetween ends)
    | «return» operand =>
      cases operand with
      | none =>
        obtain ⟨rfl, rfl⟩ := continues
        exact ⟨counted other, ends_instructions_cons.2 ⟨.inl rfl, rfl, rfl⟩, related⟩
      | some operand =>
        obtain ⟨found, rfl⟩ := continues
        exact ⟨counted other,
          ends_instructions_cons.2 ⟨.inl rfl, value?_append extra found, rfl⟩, related⟩

/-! ## Calls and initializations -/

section Calls

variable (serves : others.Serves counter sink)
include serves

/-- A body is followed; that of a constructor needs an instance to give a serial number to. -/
theorem enter_follows
    {id : MethodId}
    {method : MethodRef}
    (sound : machine.Sound (· ≠ counter))
    (liveReceiver : ∀ given ∈ receiver, given.Lives machine.heap.size)
    (liveArguments : ∀ given ∈ arguments, given.Lives machine.heap.size)
    (relates : machine.Matches counter other)
    (constructs :
      ∀ declared, original.method? id = some declared → declared.isConstructor →
        ∃ slot className fields, receiver = some (.reference slot) ∧
          machine.heap.objects[slot]? = some (.instanceOf className fields))
    (ends :
      Ends (enter (.unlimited original sink) callees id method receiver arguments) machine value
        after) :
    ∃ otherAfter,
      Ends (enter (.unlimited current sink) others id method receiver arguments) other value
        otherAfter ∧
      after.Matches counter otherAfter := by
  obtain ⟨entered, inner, found, -, ran, rfl⟩ := ends_enter.1 ends
  obtain ⟨declared, changed, there, foundChanged, ⟨extra, locals⟩, opening, rest, parts, opens,
    relation⟩ := woven.body?_eq_some countable found
  have member := Program.mem_bodies_of_body? found
  have bindsOnce := countable.bodies entered member
  have whole : entered.instructions = entered.bindings ++ entered.unbound := by
    simp [Body.bindings, Body.unbound]
  rw [whole] at ran
  obtain ⟨bound, executed, binds, endsRest⟩ :=
    exists_binds (fun _ member => Body.bindings_isBinding member) ran
  have liveBound : ∀ value ∈ bound, value.Lives machine.heap.size := by
    refine binds.live liveReceiver liveArguments fun value member => ?_
    obtain ⟨declaration, -, rfl⟩ := List.mem_map.1 member
    exact Datum.lives_zero _
  have carries :
      Carries (.unlimited current sink) others counter receiver arguments value inner
        (changed.locals.map fun declaration => .zero declaration.type)
        { other with depth := other.depth + 1 } changed.instructions := by
    rw [locals, List.map_append, parts]
    have opened :
        ({ machine with executed, depth := machine.depth + 1 } : Machine).Matches counter
          { other with depth := other.depth + 1 } :=
      relates.of_eq rfl rfl rfl rfl rfl rfl rfl rfl
    refine binds.carries opened fun later related => ?_
    refine Opening.carries countable woven serves announces opens ?_ related
      fun extra later related => ?_
    · intro this count permitted
      obtain ⟨constructor, received, behind, within⟩ := permitted
      obtain ⟨slot, className, fields, rfl, located⟩ := constructs declared there constructor
      obtain ⟨type, binding⟩ := bindsOnce.receiver_bound received
      rw [binds.length_eq, List.length_map, List.length_map]
      rw [locals, List.length_append] at within
      exact ⟨behind, within, slot, className, fields,
        binds.receiver_eq bindsOnce.once binding, located⟩
    · have started :
          ({ machine with executed, depth := machine.depth + 1 } : Machine).Sound (· ≠ counter) :=
        ⟨sound.objects, sound.statics⟩
      exact Woven.carries countable woven following calleesSound announces extra relation
        (fun instruction among =>
          countable.apart.instruction_plain member (whole ▸ List.mem_append_right _ among))
        started liveBound related endsRest
  obtain ⟨otherAfter, endsOther, related⟩ :=
    Carries.enter (.unlimited current sink) method foundChanged rfl carries
  exact ⟨otherAfter, endsOther, related.of_eq rfl rfl rfl rfl rfl rfl rfl rfl⟩

omit countable woven calleesSound announces serves in
/-- The search for the target of a call starts at the same class, which is not the class of the
counters. -/
theorem Starts.follows
    {kind : CallKind}
    {method : MethodRef}
    {start : String}
    (plain : method.Plain counter)
    (sound : machine.Sound (· ≠ counter))
    (relates : machine.Matches counter other)
    (starts : Starts callees method machine start after kind receiver) :
    start ≠ counter ∧
      ∃ otherAfter, Starts others method other start otherAfter kind receiver ∧
        after.Matches counter otherAfter := by
  have dispatched {slot : Nat}
      (asked :
        ∃ runtime, machine.heap.className? slot = .ok runtime ∧
          start = runtime.getD method.owner ∧ after = machine) :
      start ≠ counter ∧
        ∃ otherAfter,
          (∃ runtime, other.heap.className? slot = .ok runtime ∧
            start = runtime.getD method.owner ∧ otherAfter = other) ∧
          after.Matches counter otherAfter := by
    obtain ⟨runtime, asked, rfl, rfl⟩ := asked
    refine ⟨?_, other, ⟨runtime, relates.className? asked, rfl, rfl⟩, relates⟩
    obtain ⟨object, located, rfl⟩ := Heap.className?_eq_ok.1 asked
    cases object with
    | instanceOf className fields => exact (sound.objects slot _ located).1
    | array element values => exact plain.1
  have named (same : start = method.owner ∧ after = machine) :
      start ≠ counter ∧
        ∃ otherAfter, (start = method.owner ∧ otherAfter = other) ∧
          after.Matches counter otherAfter := by
    obtain ⟨rfl, rfl⟩ := same
    exact ⟨plain.1, other, ⟨rfl, rfl⟩, relates⟩
  cases kind with
  | static =>
    obtain ⟨prepared, rfl⟩ := starts
    obtain ⟨otherAfter, preparedOther, related⟩ :=
      following.prepare plain.1 sound relates prepared
    exact ⟨plain.1, otherAfter, ⟨preparedOther, rfl⟩, related⟩
  | special => exact named starts
  | virtual =>
    rcases receiver with _ | datum
    · exact named starts
    · cases datum with
      | reference slot => exact dispatched starts
      | _ => exact named starts
  | interface =>
    rcases receiver with _ | datum
    · exact named starts
    · cases datum with
      | reference slot => exact dispatched starts
      | _ => exact named starts

/-- A call is followed if a constructor with a body is called for an instance. -/
theorem invokeStep_follows
    {kind : CallKind}
    {method : MethodRef}
    (plain : method.Plain counter)
    (sound : machine.Sound (· ≠ counter))
    (liveReceiver : ∀ given ∈ receiver, given.Lives machine.heap.size)
    (liveArguments : ∀ given ∈ arguments, given.Lives machine.heap.size)
    (relates : machine.Matches counter other)
    (constructs :
      ¬ CallsSink (.unlimited original sink) method → method.name = constructorName →
        ((target? original (startClass machine.heap method kind receiver) method).bind
          original.body?).isSome →
        ∃ slot className fields, receiver = some (.reference slot) ∧
          machine.heap.objects[slot]? = some (.instanceOf className fields))
    (ends :
      Ends (invokeStep (.unlimited original sink) callees kind method receiver arguments) machine
        value after) :
    ∃ otherAfter,
      Ends (invokeStep (.unlimited current sink) others kind method receiver arguments) other value
        otherAfter ∧
      after.Matches counter otherAfter := by
  rcases ends_invokeStep.1 ends with
    ⟨sinks, line, reported, rfl, rfl⟩ | ⟨elsewhere, somewhere, start, started, starts, reaches⟩
  · exact ⟨_, ends_invokeStep.2 (.inl ⟨sinks, line, reported, rfl, rfl⟩), relates.printBoth line⟩
  · have kept := starts.sound calleesSound sound
    obtain ⟨differs, otherStarted, startsOther, related⟩ :=
      Starts.follows following plain sound relates starts
    have same : target? current start method = target? original start method :=
      woven.target?_eq countable differs plain
    change Reaches _ _ _ _ _ _ _ _ (target? original start method) at reaches
    suffices followed :
        ∃ otherAfter,
          Reaches (.unlimited current sink) others method receiver arguments otherStarted value
            otherAfter (target? original start method) ∧
          after.Matches counter otherAfter by
      obtain ⟨otherAfter, reachesOther, relatedAfter⟩ := followed
      rw [← same] at reachesOther
      exact ⟨otherAfter,
        ends_invokeStep.2
          (.inr ⟨elsewhere, somewhere, start, otherStarted, startsOther, reachesOther⟩),
        relatedAfter⟩
    cases found : target? original start method with
    | none =>
      rw [found] at reaches
      obtain ⟨named, owned, rfl, rfl⟩ := reaches
      exact ⟨otherStarted, ⟨named, owned, rfl, rfl⟩, related⟩
    | some id =>
      rw [found] at reaches
      refine enter_follows countable woven following calleesSound announces serves kept.sound
        (fun given member => kept.lives (liveReceiver given member)) (kept.allLive liveArguments)
        related ?_ reaches
      intro declared there constructor
      obtain ⟨target, has, named, -⟩ := Program.target?_eq_some found
      rw [there] at has
      cases has
      have called : method.name = constructorName := by
        rw [← named]
        simpa [Method.isConstructor] using constructor
      have entered :
          ((target? original (startClass machine.heap method kind receiver) method).bind
            original.body?).isSome := by
        obtain ⟨body, -, bodied, -⟩ := ends_enter.1 reaches
        rw [← starts.cases.1, found]
        exact Option.isSome_iff_exists.2 ⟨body, bodied⟩
      obtain ⟨slot, className, fields, received, located⟩ := constructs elsewhere called entered
      obtain ⟨grown, present, kind⟩ := kept.grows slot _ located
      cases grown with
      | instanceOf name others => exact ⟨slot, name, others, received, present⟩
      | array element values => cases kind

omit announces serves in
theorem InitializesAbove.follows
    {className : String}
    (differs : className ≠ counter)
    (sound : machine.Sound (· ≠ counter))
    (relates : machine.Matches counter other)
    (ready : InitializesAbove (.unlimited original sink) callees className machine after) :
    machine.Kept (· ≠ counter) after ∧
      ∃ otherAfter,
        InitializesAbove (.unlimited current sink) others className other otherAfter ∧
        after.Matches counter otherAfter := by
  have same := woven.superclass?_eq differs
  cases found : original.superclass? className with
  | none =>
    rw [found] at same
    obtain rfl := (initializesAbove_of_none found).1 ready
    exact ⟨.refl sound, other, (initializesAbove_of_none same).2 rfl, relates⟩
  | some superclass =>
    rw [found] at same
    have prepared := (initializesAbove_of_some found).1 ready
    obtain ⟨otherAfter, preparedOther, related⟩ :=
      following.prepare (Program.Woven.superclass?_ne countable found) sound relates prepared
    exact ⟨calleesSound.prepare sound prepared, otherAfter,
      (initializesAbove_of_some same).2 preparedOther, related⟩

theorem Initializes.follows
    {className : String}
    (differs : className ≠ counter)
    (sound : machine.Sound (· ≠ counter))
    (relates : machine.Matches counter other)
    (initializes : Initializes (.unlimited original sink) callees className machine after) :
    ∃ otherAfter, Initializes (.unlimited current sink) others className other otherAfter ∧
      after.Matches counter otherAfter := by
  have plain : ¬ IsIncrementor staticInitializerName := by
    rintro (same | same) <;> exact absurd same (by decide)
  have same := woven.findMethod?_eq differs plain []
  cases found : original.findMethod? className staticInitializerName [] with
  | none =>
    rw [found] at same
    obtain rfl := (initializes_of_none found).1 initializes
    exact ⟨other, (initializes_of_none same).2 rfl, relates⟩
  | some id =>
    rw [found] at same
    obtain ⟨-, declared, there, named, -⟩ := Program.findMethod?_eq_some found
    cases bodied : original.body? id with
    | none =>
      obtain rfl := (initializes_of_body?_none found bodied).1 initializes
      have bodiless := woven.body?_eq_none countable there bodied
      exact ⟨other, (initializes_of_body?_none same bodiless).2 rfl, relates⟩
    | some body =>
      obtain ⟨value, entered⟩ := (initializes_of_body?_some found bodied).1 initializes
      obtain ⟨-, changed, -, bodiedOther, -⟩ := woven.body?_eq_some countable bodied
      have noReceiver : ∀ given ∈ (none : Option Datum), given.Lives machine.heap.size := nofun
      obtain ⟨otherAfter, enteredOther, related⟩ :=
        enter_follows countable woven following calleesSound announces serves sound noReceiver
          (fun _ member => absurd member List.not_mem_nil) relates (by
            intro method has constructor
            rw [there] at has
            cases has
            rw [Method.isConstructor, named] at constructor
            exact absurd constructor (by decide)) entered
      exact ⟨otherAfter, (initializes_of_body?_some same bodiedOther).2 ⟨value, enteredOther⟩,
        related⟩

/-- The initialization of a class is followed. -/
theorem prepareStep_follows
    {className : String}
    (differs : className ≠ counter)
    (sound : machine.Sound (· ≠ counter))
    (relates : machine.Matches counter other)
    (ends : Ends (prepareStep (.unlimited original sink) callees className) machine () after) :
    ∃ otherAfter, Ends (prepareStep (.unlimited current sink) others className) other () otherAfter ∧
      after.Matches counter otherAfter := by
  by_cases root : className = objectClass
  · -- The root class has no body, and only one of the machines may have initialized it before.
    subst root
    obtain ⟨prepared, endsOther, related⟩ :=
      prepare_objectClass countable woven others (fun same => absurd same differs) relates
    rcases ends_prepareStep.1 ends with ⟨-, rfl⟩ | ⟨-, above, ready, initializes⟩
    · exact ⟨prepared, endsOther, related⟩
    · obtain rfl :=
        (initializesAbove_of_none (Program.superclass?_eq_none countable.root)).1 ready
      obtain rfl := (initializes_of_none (Program.findMethod?_eq_none countable.root)).1 initializes
      exact ⟨prepared, endsOther, related.markRoot⟩
  · rcases ends_prepareStep.1 ends with ⟨known, rfl⟩ | ⟨unknown, above, ready, initializes⟩
    · have knownOther := (relates.alike.initialized className differs root).2 known
      exact ⟨other, ends_prepareStep.2 (.inl ⟨knownOther, rfl⟩), relates⟩
    · have unknownOther : className ∉ other.initialized := fun member =>
        unknown ((relates.alike.initialized className differs root).1 member)
      have marked :
          ({ machine with initialized := machine.initialized ++ [className] } : Machine).Sound
            (· ≠ counter) :=
        ⟨sound.objects, sound.statics⟩
      obtain ⟨kept, otherAbove, readyOther, related⟩ :=
        InitializesAbove.follows countable woven following calleesSound differs marked
          (relates.markBoth className) ready
      obtain ⟨otherAfter, initializesOther, relatedAfter⟩ :=
        Initializes.follows countable woven following calleesSound announces serves differs kept.sound
          related initializes
      exact ⟨otherAfter,
        ends_prepareStep.2 (.inr ⟨unknownOther, otherAbove, readyOther, initializesOther⟩),
        relatedAfter⟩

end Calls
end Bodies
end Run
end AccessProfiler
