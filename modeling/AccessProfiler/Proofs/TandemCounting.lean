import AccessProfiler.Proofs.TandemWrapping

/-!
# Counting in tandem

The passes that insert calls into a body insert the same ones in two sessions that both can read it
(`Draft.countTypeAccesses_tandem`, `Draft.countFieldAccesses_tandem`, `Draft.countCalls_tandem`,
`Draft.assignSerial_tandem`): the class that declares a field is the same in both, and so are the counters
that are asked for.  What they insert can be read by both sessions again.
-/

namespace AccessProfiler

open Session

variable
    {Value Result : Type}
    {base first second : Session}
    {asked : CounterOwner → Prop}
    {elements : Ty → Prop}

/-! ## Fields -/

namespace Session

/-- Where classes agree apart from bodies, so do the searches for fields. -/
theorem declaringClass_eq_of_outlines
    {Free : String → Prop}
    {before after : Session}
    (outlines :
      ∀ name, Free name →
        (after.program.class? name).map Class.outline =
          (before.program.class? name).map Class.outline)
    (closed : before.program.ClosedAbove Free)
    {field : FieldRef}
    (free : Free field.owner) :
    after.declaringClass field = before.declaringClass field := by
  have same : Program.SameHierarchy Free before.program after.program := fun name within => by
    have shapes := congrArg (Option.map Class.shape) (outlines name within)
    simpa only [Option.map_map, Function.comp_def, Class.shape_outline] using shapes
  have declared (session : Session) (name : String) :
      session.program.declaredField? name field.name =
        ((session.program.class? name).map Class.outline).bind fun declaration =>
          (declaration.field? field.name).map fun found => found.reference declaration.name := by
    unfold Program.declaredField?
    cases session.program.class? name <;> rfl
  have resolved :
      after.program.resolveField? field.owner field.name =
        before.program.resolveField? field.owner field.name := by
    unfold Program.resolveField? Program.chain
    rw [same.chainUpTo_eq closed free]
    refine Program.findSome?_eq_of_eq fun ancestor member => ?_
    rw [declared after, declared before,
      outlines ancestor (closed.chainUpTo free Program.chainLimit ancestor member)]
  rw [declaringClass, resolved]
  rfl

/-- The same types are counted for an access. -/
theorem typeKeys_eq_of_outlines
    {Free : String → Prop}
    {before after : Session}
    (outlines :
      ∀ name, Free name →
        (after.program.class? name).map Class.outline =
          (before.program.class? name).map Class.outline)
    (closed : before.program.ClosedAbove Free)
    (body : Body)
    {expression : Expression}
    (free : ∀ holder field, expression = .instanceField holder field → Free field.owner) :
    Draft.typeKeys after body expression = Draft.typeKeys before body expression := by
  cases expression with
  | instanceField holder field =>
    simp only [Draft.typeKeys, declaringClass_eq_of_outlines outlines closed (free holder field rfl)]
  | _ => rfl

theorem Paired.closedFree (paired : base.Paired asked elements first second) :
    first.program.ClosedAbove fun name => ¬ base.Reserves elements name :=
  paired.closed

/-- A field of a class that did not come in is declared by such a class, the same in both sessions. -/
theorem Paired.declaringClass_eq
    (paired : base.Paired asked elements first second)
    {field : FieldRef}
    (free : ¬ base.Reserves elements field.owner) :
    second.declaringClass field = first.declaringClass field ∧
      ¬ base.Reserves elements (first.declaringClass field) := by
  refine ⟨declaringClass_eq_of_outlines paired.outlines paired.closedFree free, ?_⟩
  unfold declaringClass
  split
  · rename_i declared resolved
    obtain ⟨ancestor, among, found⟩ := List.exists_of_findSome?_eq_some resolved
    have freeAncestor := paired.closedFree.chainUpTo free Program.chainLimit ancestor among
    obtain ⟨declaration, there, given⟩ := Option.bind_eq_some_iff.1 found
    obtain ⟨_, -, rfl⟩ := Option.map_eq_some_iff.1 given
    rw [show (Field.reference _ declaration.name).owner = ancestor from
      paired.named ancestor freeAncestor declaration there]
    exact freeAncestor
  · exact free

/-- Counters may be asked for all that the classes of the session declare, and wrappers of all types that
their methods name. -/
structure Asks
    (base : Session)
    (asked : CounterOwner → Prop)
    (elements : Ty → Prop)
    (session : Session) : Prop where
  types :
    ∀ name, ¬ base.Reserves elements name → (session.program.class? name).isSome →
      base.AsksType asked name
  calls :
    base.settings.callTracking → ∀ name, ¬ base.Reserves elements name →
      ∀ declaration, session.program.class? name = some declaration →
        ∀ method ∈ declaration.methods, method.isSynthetic = false →
          asked (.calls (Transform.callCounterName declaration.name method.name))
  wrappers :
    ∀ name, ¬ base.Reserves elements name →
      ∀ declaration, session.program.class? name = some declaration →
        ∀ method ∈ declaration.methods, ∀ type ∈ method.result :: method.parameters,
          base.AsksWrapper elements type

theorem Asks.onward
    {before after : Session}
    (asks : base.Asks asked elements before)
    (onward : base.Onward asked elements before after) :
    base.Asks asked elements after where
  types name free present := by
    have same := congrArg Option.isSome (onward.outlines name free)
    rw [Option.isSome_map, Option.isSome_map] at same
    exact asks.types name free (same ▸ present)
  calls tracks name free declaration found method member written := by
    obtain ⟨old, there, agrees, other, among, sameMethod⟩ :=
      onward.exists_signature free found member
    have names : declaration.outline.name = old.outline.name := by rw [agrees]
    have named : method.signature.name = other.signature.name := by rw [sameMethod]
    have flags : method.signature.isSynthetic = other.signature.isSynthetic := by rw [sameMethod]
    have otherWritten : other.isSynthetic = false := flags.symm.trans written
    have asked := asks.calls tracks name free old there other among otherWritten
    rw [show declaration.name = old.name from names, show method.name = other.name from named]
    exact asked
  wrappers name free declaration found method member := by
    obtain ⟨old, there, -, other, among, sameMethod⟩ :=
      onward.exists_signature free found member
    have types : method.signature.result :: method.signature.parameters =
        other.signature.result :: other.signature.parameters := by rw [sameMethod]
    rw [show method.result :: method.parameters = other.result :: other.parameters from types]
    exact asks.wrappers name free old there other among

end Session

/-- Both sessions can follow the body: they can read its instructions, wrappers may be asked for of its
locals, and counters of its accesses. -/
structure Session.BothFollow
    (base : Session)
    (asked : CounterOwner → Prop)
    (elements : Ty → Prop)
    (first second : Session)
    (body : Body) : Prop where
  lists : Draft.Lists base elements body
  counts :
    ∀ declaration ∈ body.locals,
      base.AsksType asked (Text.spellBrackets "Array" declaration.type.render) ∧
        base.AsksType asked (Text.spellBrackets "" declaration.type.render)
  reads : ∀ instruction ∈ body.instructions, base.BothRead asked elements first second instruction

theorem Session.Carries.follows
    {after afterToo : Session}
    (carries : Carries first second after afterToo)
    {body : Body}
    (follows : base.BothFollow asked elements first second body) :
    base.BothFollow asked elements after afterToo body :=
  ⟨follows.lists, follows.counts, fun step member => carries.reads (follows.reads step member)⟩

/-- A call can be read if its method can be answered for. -/
theorem Session.BothRead.invoke
    {target : Call}
    (answers :
      target.method = base.settings.sink.methodRef ∨
        base.BothAnswer elements first second target.method) :
    base.BothRead asked elements first second (.invoke target) where
  states := List.forall_mem_nil _
  calls := by rintro _ ⟨⟩; exact answers
  binds _ _ _ := nofun
  fields _ _ member := by cases List.mem_singleton.1 member
  counts _ _ member := by cases List.mem_singleton.1 member

/-- An assignment without a call can be read if what it states is admitted and its fields are some that
count for classes that did not come in. -/
theorem Session.BothRead.assign
    {place value : Expression}
    (states : base.BothState elements first second (.assign place value))
    (quiet : (Instruction.assign place value).call? = none)
    (fields :
      ∀ holder field, .instanceField holder field ∈ [place, value] →
        ¬ base.Reserves elements field.owner ∧ isInstrumentationName field.name) :
    base.BothRead asked elements first second (.assign place value) where
  states := states
  calls target called := by cases quiet.symm.trans called
  binds _ _ _ := nofun
  fields holder field member := (fields holder field member).1
  counts holder field member plain := by simp [(fields holder field member).2] at plain

/-- A class that did not come in is asked for a method without parameters. -/
theorem Session.BothAnswer.plain
    {owner name : String}
    (free : ¬ base.Reserves elements owner) :
    base.BothAnswer elements first second ⟨owner, name, [], .void⟩ :=
  .known (.of_free free) (List.forall_mem_nil _)

namespace Draft

variable {body : Body}

theorem records_tandem (pass : String) (events : List Event) :
    Tandem base asked elements first second body
      (events.forM fun event => record (event.recordedBy pass))
      (events.forM fun event => record (event.recordedBy pass))
      fun _ bodyAfter _ _ => bodyAfter = body := by
  induction events generalizing first second with
  | nil => exact .pure rfl
  | cons event rest hypothesis =>
    refine (Tandem.record _ _).bind ?_
    rintro - bodyAfter after afterToo - same
    subst same
    exact hypothesis

/-! ## Accesses of objects -/

section Fields

variable (paired : base.Paired asked elements first second)
include paired

/-- What the count of an access comes to is the same in both sessions. -/
theorem fieldCount_eq
    (access : Access)
    {expression : Expression}
    (free :
      ∀ holder field, expression = .instanceField holder field → ¬ base.Reserves elements field.owner) :
    FieldCount.of second access expression = FieldCount.of first access expression := by
  cases expression with
  | instanceField holder field =>
    obtain ⟨same, freeDeclaring⟩ := paired.declaringClass_eq (free holder field rfl)
    simp only [FieldCount.of, same, paired.profiles _ freeDeclaring]
  | _ => rfl

theorem fieldCounts_eq
    {instruction : Instruction}
    (reads : base.BothRead asked elements first second instruction) :
    FieldCount.ofInstruction second instruction = FieldCount.ofInstruction first instruction := by
  cases instruction with
  | assign place value =>
    have free (expression : Expression) (member : expression ∈ [place, value]) holder field
        (same : expression = .instanceField holder field) : ¬ base.Reserves elements field.owner :=
      reads.fields holder field (same ▸ member)
    simp only [FieldCount.ofInstruction,
      fieldCount_eq paired .write (free place List.mem_cons_self),
      fieldCount_eq paired .read (free value (by simp))]
  | _ => rfl

/-- A call that counts an access of an object can be read by both sessions. -/
theorem reads_fieldCalls
    {instruction : Instruction}
    (reads : base.BothRead asked elements first second instruction) :
    ∀ call ∈ FieldCount.calls first instruction, base.BothRead asked elements first second call := by
  have counts
      {access : Access}
      {expression : Expression}
      (free :
        ∀ holder field, expression = .instanceField holder field →
          ¬ base.Reserves elements field.owner)
      {call : Instruction}
      (counted : (FieldCount.of first access expression).call? = some call) :
      base.BothRead asked elements first second call := by
    cases expression with
    | instanceField holder field =>
      obtain ⟨-, freeDeclaring⟩ := paired.declaringClass_eq (free holder field rfl)
      simp only [FieldCount.of] at counted
      split at counted
      · cases counted
      · cases known : first.profiles.get? (first.declaringClass field) with
        | none => simp [known, FieldCount.call?] at counted
        | some profile =>
          simp only [known, FieldCount.call?, Option.some.injEq] at counted
          subst counted
          obtain ⟨number, rfl⟩ := paired.profiled _ freeDeclaring profile known
          cases access <;> exact .invoke (.inr (.plain freeDeclaring))
    | _ => cases counted
  intro call member
  obtain ⟨⟨access, count⟩, among, counted⟩ := List.mem_filterMap.1 member
  cases instruction with
  | assign place value =>
    have free (expression : Expression) (listed : expression ∈ [place, value]) holder field
        (same : expression = .instanceField holder field) : ¬ base.Reserves elements field.owner :=
      reads.fields holder field (same ▸ listed)
    rcases List.mem_cons.1 among with same | rest
    · cases same
      exact counts (free place List.mem_cons_self) counted
    · cases List.mem_singleton.1 rest
      exact counts (free value (by simp)) counted
  | _ => cases among

end Fields

/-- Accesses of objects are counted by the same calls in both sessions. -/
theorem countFieldAccesses_tandem
    (follows : base.BothFollow asked elements first second body)
    (pass method : String) :
    Tandem base asked elements first second body (countFieldAccesses pass method)
      (countFieldAccesses pass method) fun _ bodyAfter after afterToo =>
        base.BothFollow asked elements after afterToo bodyAfter := by
  unfold countFieldAccesses
  refine .given fun paired sees => .session_bind (.body_bind ?_)
  have counts instruction (member : instruction ∈ body.instructions) :
      FieldCount.ofInstruction second instruction = FieldCount.ofInstruction first instruction :=
    fieldCounts_eq paired (follows.reads instruction member)
  have calls instruction (member : instruction ∈ body.instructions) :
      FieldCount.calls second instruction = FieldCount.calls first instruction := by
    rw [FieldCount.calls, counts instruction member]
    rfl
  have events :
      FieldCount.events second method body.instructions =
        FieldCount.events first method body.instructions := by
    unfold FieldCount.events
    refine List.flatMap_congr fun entry member => ?_
    obtain ⟨instruction, index⟩ := entry
    dsimp only
    rw [counts instruction (List.fst_mem_of_mem_zipIdx member)]
  have inserted :
      (body.instructions.flatMap fun instruction =>
          FieldCount.calls second instruction ++ [instruction]) =
        body.instructions.flatMap fun instruction =>
          FieldCount.calls first instruction ++ [instruction] :=
    List.flatMap_congr fun instruction member => by rw [calls instruction member]
  have changed :
      (body.instructions.any fun instruction => !(FieldCount.calls second instruction).isEmpty) =
        body.instructions.any fun instruction => !(FieldCount.calls first instruction).isEmpty := by
    rw [Bool.eq_iff_iff, List.any_eq_true, List.any_eq_true]
    exact exists_congr fun instruction => and_congr_right fun member => by rw [calls instruction member]
  dsimp only
  rw [events, inserted, changed]
  have reads :
      ∀ instruction ∈ body.instructions.flatMap fun instruction =>
          FieldCount.calls first instruction ++ [instruction],
        base.BothRead asked elements first second instruction :=
    List.forall_mem_flatMap.2 fun instruction member => List.forall_mem_append.2
      ⟨reads_fieldCalls paired (follows.reads instruction member),
        List.forall_mem_singleton.2 (follows.reads instruction member)⟩
  refine (records_tandem pass _).bind ?_
  rintro - bodyAfter after afterToo advance same
  subst same
  refine .bind (.setInstructions fun _ step member =>
    advance.states (reads step member).states) ?_
  rintro - bodyLast last lastToo further same
  subst same
  exact .pure ⟨follows.lists, follows.counts, fun step member =>
    further.reads (advance.reads (reads step member))⟩

/-! ## Counters of types and of calls -/

/-- The counters of a type are the same in both sessions, and both can answer for their methods. -/
theorem typeCounter_tandem
    (foresees : base.Foresees asked elements)
    {name : String}
    (asks : asked (.reads name) ∧ asked (.writes name)) :
    Transform.Tandem base asked elements first second (Transform.typeCounter name)
      (Transform.typeCounter name) fun counter after afterToo =>
        ∀ access, base.BothRead asked elements after afterToo (counter.call access) := by
  intro paired found after foundToo afterToo ends endsToo
  obtain ⟨rfl, foreseen, supplies⟩ :=
    Transform.typeCounter_foreseen foresees paired.foreseen asks.1 asks.2 ends
  obtain ⟨rfl, foreseenToo, suppliesToo⟩ :=
    Transform.typeCounter_foreseen foresees paired.foreseenToo asks.1 asks.2 endsToo
  refine ⟨rfl, .of_supplies foreseen foreseenToo supplies suppliesToo, fun access => ?_⟩
  have has (owner : CounterOwner) (listed : .tally owner ∈ typeAssets name) :
      after.Has (.tally owner) ∧ afterToo.Has (.tally owner) :=
    ⟨(supplies.acquires _).2 (.inr listed), (suppliesToo.acquires _).2 (.inr listed)⟩
  cases access with
  | read =>
    obtain ⟨read, readToo⟩ := has (.reads name) (by simp [typeAssets])
    exact .invoke (.inr (.tally _ read readToo rfl))
  | write =>
    obtain ⟨write, writeToo⟩ := has (.writes name) (by simp [typeAssets])
    exact .invoke (.inr (.tally _ write writeToo rfl))

theorem typeCalls_tandem
    (foresees : base.Foresees asked elements)
    (pass method : String)
    (index : Nat)
    (access : Access)
    {keys : List String}
    (asks : ∀ key ∈ keys, asked (.reads key) ∧ asked (.writes key)) :
    Tandem base asked elements first second body (typeCalls pass method index access keys)
      (typeCalls pass method index access keys) fun calls bodyAfter after afterToo =>
        bodyAfter = body ∧ ∀ call ∈ calls, base.BothRead asked elements after afterToo call := by
  unfold typeCalls
  refine Tandem.mapM (· = body)
    (fun call after afterToo => base.BothRead asked elements after afterToo call)
    (fun advance reads => advance.reads reads) ?_ rfl
  intro key member bodyNow now nowToo _ same
  subst same
  refine (Tandem.lift (typeCounter_tandem foresees (asks key member))).bind ?_
  rintro counter bodyCounted counted countedToo - ⟨same, reads⟩
  subst same
  refine (Tandem.record _ _).bind ?_
  rintro - bodyRecorded recorded recordedToo advance same
  exact .pure ⟨same, advance.reads (reads access)⟩

/-- Counters may be asked for all types that an access counts for. -/
theorem asks_typeKeys
    (paired : base.Paired asked elements first second)
    (profiling : base.settings.typeProfiling)
    (asks : base.Asks asked elements first)
    (follows : base.BothFollow asked elements first second body)
    {instruction : Instruction}
    (member : instruction ∈ body.instructions) :
    ∀ expression ∈ instruction.expressions, ∀ key ∈ typeKeys first body expression,
      asked (.reads key) ∧ asked (.writes key) := by
  intro expression among key listed
  cases expression with
  | instanceField holder field =>
    have reads := follows.reads instruction member
    have free := reads.fields holder field among
    simp only [typeKeys] at listed
    split at listed
    · cases listed
    · rename_i plain
      have counted := reads.counts holder field among (Bool.eq_false_of_not_eq_true plain)
      rcases List.mem_cons.1 listed with rfl | primitive
      · unfold declaringClass
        split
        · rename_i declared resolved
          obtain ⟨ancestor, searched, found⟩ := List.exists_of_findSome?_eq_some resolved
          have freeAncestor := paired.closedFree.chainUpTo free Program.chainLimit ancestor searched
          obtain ⟨declaration, there, given⟩ := Option.bind_eq_some_iff.1 found
          obtain ⟨_, -, rfl⟩ := Option.map_eq_some_iff.1 given
          rw [show (Field.reference _ declaration.name).owner = ancestor from
            paired.named ancestor freeAncestor declaration there]
          exact asks.types ancestor freeAncestor (by simp [there]) profiling
        · exact counted.1 profiling
      · split at primitive
        · rw [List.mem_singleton.1 primitive]
          exact counted.2 profiling
        · cases primitive
  | element array slot =>
    simp only [typeKeys] at listed
    split at listed
    · cases listed
    · rename_i type found
      obtain ⟨declaration, located, rfl⟩ := Option.map_eq_some_iff.1 found
      have counted := follows.counts declaration (List.mem_of_getElem? located)
      rcases List.mem_cons.1 listed with rfl | primitive
      · exact counted.1 profiling
      · split at primitive
        · rw [List.mem_singleton.1 primitive]
          exact counted.2 profiling
        · cases primitive
  | _ => cases listed

/-- The accesses of an instruction are counted by the same calls in both sessions. -/
theorem instructionTypeCalls_tandem
    (foresees : base.Foresees asked elements)
    (pass method : String)
    (index : Nat)
    (paired : base.Paired asked elements first second)
    {instruction : Instruction}
    (reads : base.BothRead asked elements first second instruction)
    (asks :
      ∀ expression ∈ instruction.expressions, ∀ key ∈ typeKeys first body expression,
        asked (.reads key) ∧ asked (.writes key)) :
    Tandem base asked elements first second body
      (instructionTypeCalls pass method index body instruction)
      (instructionTypeCalls pass method index body instruction)
      fun calls bodyAfter after afterToo =>
        bodyAfter = body ∧ ∀ call ∈ calls, base.BothRead asked elements after afterToo call := by
  have keys
      {after afterToo : Session}
      (paired : base.Paired asked elements after afterToo)
      {expression : Expression}
      (member : expression ∈ instruction.expressions) :
      typeKeys afterToo body expression = typeKeys after body expression :=
    typeKeys_eq_of_outlines paired.outlines paired.closedFree body
      fun holder field same => reads.fields holder field (same ▸ member)
  have kept
      {after : Session}
      (onward : base.Onward asked elements first after)
      {expression : Expression}
      (member : expression ∈ instruction.expressions) :
      typeKeys after body expression = typeKeys first body expression :=
    typeKeys_eq_of_outlines onward.outlines paired.closedFree body
      fun holder field same => reads.fields holder field (same ▸ member)
  cases instruction with
  | assign place value =>
    refine .given fun paired _ => .session_bind ?_
    rw [keys paired List.mem_cons_self]
    refine (typeCalls_tandem foresees pass method index .write
      (asks place List.mem_cons_self)).bind ?_
    rintro written bodyWritten writing writingToo advance ⟨same, readsWritten⟩
    subst same
    have ofValue : value ∈ (Instruction.assign place value).expressions := by
      simp [Instruction.expressions]
    refine .given fun pairedAfter _ => .session_bind ?_
    rw [keys pairedAfter ofValue]
    refine (typeCalls_tandem foresees pass method index .read
      (fun key member => asks value ofValue key (kept advance.onward ofValue ▸ member))).bind ?_
    rintro read bodyRead reading readingToo further ⟨same, readsRead⟩
    exact .pure ⟨same, List.forall_mem_append.2
      ⟨fun call member => further.reads (readsWritten call member), readsRead⟩⟩
  | _ => exact .pure ⟨rfl, List.forall_mem_nil _⟩

/-- Accesses are counted for types by the same calls in both sessions. -/
theorem countTypeAccesses_tandem
    (foresees : base.Foresees asked elements)
    (profiling : base.settings.typeProfiling)
    (asks : base.Asks asked elements first)
    (follows : base.BothFollow asked elements first second body)
    (pass method : String) :
    Tandem base asked elements first second body (countTypeAccesses pass method)
      (countTypeAccesses pass method) fun _ bodyAfter after afterToo =>
        base.BothFollow asked elements after afterToo bodyAfter := by
  unfold countTypeAccesses
  refine .given fun paired _ => .body_bind ?_
  refine Tandem.bind (.mapM (· = body)
    (fun counted after afterToo =>
      ∀ step ∈ counted, base.BothRead asked elements after afterToo step)
    (fun advance reads step member => advance.reads (reads step member)) ?_ rfl) ?_
  · rintro ⟨instruction, index⟩ listed bodyNow now nowToo advance same
    subst same
    have member := List.fst_mem_of_mem_zipIdx listed
    have followsNow := advance.follows follows
    have reads := followsNow.reads instruction member
    have pairedNow := advance.paired paired
    refine (instructionTypeCalls_tandem foresees pass method index pairedNow reads
      (asks_typeKeys pairedNow profiling (asks.onward advance.onward) followsNow member)).bind ?_
    rintro calls bodyCounted counted countedToo further ⟨same, readsCalls⟩
    exact .pure ⟨same, List.forall_mem_append.2
      ⟨readsCalls, List.forall_mem_singleton.2 (further.reads reads)⟩⟩
  · rintro counted bodyCounted after afterToo advance ⟨same, reads⟩
    subst same
    have flattened : ∀ step ∈ counted.flatten, base.BothRead asked elements after afterToo step := by
      intro step member
      obtain ⟨steps, among, listed⟩ := List.mem_flatten.1 member
      exact reads steps among step listed
    refine .bind (.setInstructions fun _ step member => (flattened step member).states) ?_
    rintro - bodyLast last lastToo further same
    subst same
    exact .pure ⟨follows.lists, follows.counts, fun step member => further.reads (flattened step member)⟩

/-- Calls of a method are counted by the same call in both sessions. -/
theorem countCalls_tandem
    (foresees : base.Foresees asked elements)
    (follows : base.BothFollow asked elements first second body)
    (pass : String)
    {id : MethodId}
    (same : second.program.methodRef? id = first.program.methodRef? id)
    (asks :
      ∀ target, first.program.methodRef? id = some target →
        asked (.calls (Transform.callCounterName target.owner target.name))) :
    Tandem base asked elements first second body (countCalls pass id) (countCalls pass id)
      fun _ bodyAfter after afterToo => base.BothFollow asked elements after afterToo bodyAfter := by
  unfold countCalls
  refine .given fun paired _ => .session_bind ?_
  dsimp only
  rw [same]
  cases found : first.program.methodRef? id with
  | none => exact .pure follows
  | some target =>
    have counting :
        Transform.Tandem base asked elements first second
          (Transform.callCounter (Transform.callCounterName target.owner target.name))
          (Transform.callCounter (Transform.callCounterName target.owner target.name))
          fun counter after afterToo => base.BothRead asked elements after afterToo counter.call := by
      intro paired found after foundToo afterToo ends endsToo
      obtain ⟨rfl, foreseen, supplies⟩ :=
        Transform.callCounter_foreseen foresees paired.foreseen (asks target ‹_›) ends
      obtain ⟨rfl, foreseenToo, suppliesToo⟩ :=
        Transform.callCounter_foreseen foresees paired.foreseenToo (asks target ‹_›) endsToo
      have listed (name : String) : Asset.tally (.calls name) ∈ callAssets name := by
        simp [callAssets]
      exact ⟨rfl, .of_supplies foreseen foreseenToo supplies suppliesToo, .invoke (.inr (.tally _
        ((supplies.acquires _).2 (.inr (listed _))) ((suppliesToo.acquires _).2 (.inr (listed _)))
        rfl))⟩
    refine (Tandem.lift counting).bind ?_
    rintro counter bodyCounted counted countedToo advance ⟨sameBody, readsCall⟩
    subst sameBody
    refine .body_bind (.body_bind ?_)
    have reads :
        ∀ step ∈ (bodyCounted.instructions.splitAt bodyCounted.bindingCount).1 ++
            counter.call :: (bodyCounted.instructions.splitAt bodyCounted.bindingCount).2,
          base.BothRead asked elements counted countedToo step := by
      intro step member
      have parts : bodyCounted.instructions =
          (bodyCounted.instructions.splitAt bodyCounted.bindingCount).1 ++
            (bodyCounted.instructions.splitAt bodyCounted.bindingCount).2 := by
        simp [List.splitAt_eq]
      have kept instruction (among : instruction ∈ bodyCounted.instructions) :=
        advance.reads (follows.reads instruction among)
      rw [parts] at kept
      rcases List.mem_append.1 member with front | rest
      · exact kept step (List.mem_append_left _ front)
      · rcases List.mem_cons.1 rest with rfl | behind
        · exact readsCall
        · exact kept step (List.mem_append_right _ behind)
    refine .bind (.setInstructions fun _ step member => (reads step member).states) ?_
    rintro - bodyLast last lastToo further sameBody
    subst sameBody
    refine .session_bind ((Tandem.record _ _).bind ?_)
    rintro - bodyRecorded recorded recordedToo onward sameBody
    subst sameBody
    exact .pure ⟨follows.lists, follows.counts, fun step member =>
      onward.reads (further.reads (reads step member))⟩

/-! ## Serial numbers -/

/-- What assigns a serial number can be read by both sessions. -/
theorem reads_serialAssignment
    {name number : String}
    (free : ¬ base.Reserves elements name)
    (this count : LocalId) :
    ∀ step ∈
        (Profile.ofClass name (.ofClass base.counters.className number .int)).serialAssignment
          base.settings.sink this count,
      base.BothRead asked elements first second step := by
  have simple : base.BothAdmit elements first second .int := .of_simple rfl
  have states {place value : Expression} (stated : (Instruction.assign place value).statedTypes ⊆ [.int]) :
      base.BothState elements first second (.assign place value) := fun type member =>
    List.mem_singleton.1 (stated member) ▸ simple
  have reads
      {place value : Expression}
      (stated : (Instruction.assign place value).statedTypes ⊆ [.int])
      (quiet : (Instruction.assign place value).call? = none)
      (fields :
        ∀ holder field, .instanceField holder field ∈ [place, value] →
          field = .ofInstance name serialField .int) :
      base.BothRead asked elements first second (.assign place value) :=
    .assign (states stated) quiet fun holder field member => by
      rw [fields holder field member]
      exact ⟨free, by simp [isInstrumentationName, FieldRef.ofInstance]⟩
  refine List.forall_mem_cons.2 ⟨reads (by simp [Instruction.statedTypes, Expression.statedType?,
    Profile.ofClass, FieldRef.ofClass]) rfl (by simp), ?_⟩
  refine List.forall_mem_cons.2 ⟨reads (by simp [Instruction.statedTypes, Expression.statedType?])
    rfl (by simp), ?_⟩
  refine List.forall_mem_cons.2 ⟨reads (by simp [Instruction.statedTypes, Expression.statedType?,
    Profile.ofClass, FieldRef.ofInstance]) rfl (by simp [Profile.ofClass]), ?_⟩
  refine List.forall_mem_cons.2 ⟨reads (by simp [Instruction.statedTypes, Expression.statedType?,
    Profile.ofClass, FieldRef.ofClass]) rfl (by simp), ?_⟩
  exact List.forall_mem_singleton.2 (.invoke (.inl rfl))

/-- A constructor gets its serial number in the same way in both sessions. -/
theorem assignSerial_tandem
    (follows : base.BothFollow asked elements first second body)
    (countsInt : base.AsksType asked "int")
    (pass method : String)
    {id : MethodId}
    (free : ¬ base.Reserves elements id.owner) :
    Tandem base asked elements first second body (assignSerial pass method id)
      (assignSerial pass method id) fun _ bodyAfter after afterToo =>
        base.BothFollow asked elements after afterToo bodyAfter := by
  unfold assignSerial
  refine .given fun paired _ => .session_bind ?_
  rw [paired.profiles _ free, paired.foreseen.settings, paired.foreseenToo.settings]
  cases known : first.profiles.get? id.owner with
  | none => exact .pure follows
  | some profile =>
    obtain ⟨number, rfl⟩ := paired.profiled _ free profile known
    refine .body_bind (Tandem.ofDefect.bind ?_)
    rintro outcome bodyPatched after afterToo advance ⟨same, ok⟩
    subst same
    cases outcome with
    | error skip =>
      exact .pure ⟨follows.lists, follows.counts, fun step member =>
        advance.reads (follows.reads step member)⟩
    | ok patched =>
      obtain ⟨this, declaration, -, isInt, -, rfl⟩ := patchConstructor_eq_ok ok
      have kept step (member : step ∈ bodyPatched.instructions) :=
        advance.reads (follows.reads step member)
      have reads :
          ∀ step ∈ bodyPatched.bindings ++
              (Profile.ofClass id.owner
                (.ofClass base.counters.className number .int)).serialAssignment
                  base.settings.sink this ⟨bodyPatched.locals.length⟩ ++
              bodyPatched.unbound,
            base.BothRead asked elements after afterToo step := by
        refine List.forall_mem_append.2 ⟨List.forall_mem_append.2
          ⟨fun step member => ?_, reads_serialAssignment free this _⟩, fun step member => ?_⟩
        · exact kept step ((List.takeWhile_sublist _).subset member)
        · exact kept step ((List.dropWhile_sublist _).subset member)
      refine .bind (.set fun sees => ⟨?_, fun step member => (reads step member).states⟩) ?_
      · refine List.forall_mem_append.2 ⟨sees.locals, List.forall_mem_singleton.2 ?_⟩
        rw [isInt]
        exact .of_simple rfl
      · rintro - changed last lastToo further same
        subst same
        refine (Tandem.record _ _).bind ?_
        rintro - bodyRecorded recorded recordedToo onward same
        subst same
        refine .pure ⟨?_, ?_, fun step member => onward.reads (further.reads (reads step member))⟩
        · refine List.forall_mem_append.2 ⟨follows.lists, List.forall_mem_singleton.2 ?_⟩
          rw [isInt]
          exact nofun
        · refine List.forall_mem_append.2 ⟨follows.counts, List.forall_mem_singleton.2 ?_⟩
          rw [isInt]
          exact ⟨countsInt, countsInt⟩

end Draft
end AccessProfiler
