import AccessProfiler.Proofs.TandemWrapping

/-!
# Bodies in tandem

Calls, assignments and bindings get the same shape in two sessions that both can read the body
(`Draft.propagate_tandem`).  A method that is called is searched in either session; the two may find it
with different bodies, but they agree on all that the call is adapted to.
-/

namespace AccessProfiler

open Session

variable
    {Value Result : Type}
    {base first second : Session}
    {asked : CounterOwner → Prop}
    {elements : Ty → Prop}

namespace Session

variable (foresees : base.Foresees asked elements)
include foresees

/-- For both sessions a call is made to the same, if the two find declarations that differ in bodies
only. -/
theorem Paired.calleeAt_eq
    (paired : base.Paired asked elements first second)
    {found foundToo : String × Method}
    (same : Prod.map id Method.signature foundToo = Prod.map id Method.signature found)
    (holder : base.BothKnow elements first second found.1) :
    second.calleeAt foundToo = first.calleeAt found := by
  obtain ⟨name, method⟩ := found
  obtain ⟨nameToo, methodToo⟩ := foundToo
  obtain ⟨isName, sameMethod⟩ := Prod.mk.inj same
  obtain rfl : nameToo = name := isName
  have parameters : methodToo.signature.parameters = method.signature.parameters := by
    rw [sameMethod]
  have result : methodToo.signature.result = method.signature.result := by rw [sameMethod]
  have transformable := paired.isTransformableClass_eq foresees holder
  simp only [Method.signature] at parameters result
  simp only [calleeAt, parameters, result, transformable]

/-- A search for a method of a known class comes to nothing in both sessions, or it comes to the same
callee, whose types both admit. -/
theorem Paired.resolved_cases
    (paired : base.Paired asked elements first second)
    {name : String}
    (knows : base.BothKnow elements first second name)
    (method : String)
    (parameters : List Ty) :
    (first.program.resolveMethod? name method parameters = none ∧
        second.program.resolveMethod? name method parameters = none) ∨
      ∃ found foundToo,
        first.program.resolveMethod? name method parameters = some found ∧
          second.program.resolveMethod? name method parameters = some foundToo ∧
          second.calleeAt foundToo = first.calleeAt found ∧
          ∀ type ∈ found.2.result :: found.2.parameters,
            base.BothAdmit elements first second type := by
  have same := paired.resolveMethod?_eq foresees knows method parameters
  cases resolved : first.program.resolveMethod? name method parameters with
  | none =>
    rw [resolved] at same
    exact .inl ⟨rfl, Option.map_eq_none_iff.1 same⟩
  | some found =>
    rw [resolved] at same
    obtain ⟨foundToo, resolvedToo, sameFound⟩ := Option.map_eq_some_iff.1 same
    obtain ⟨holder, admits⟩ := paired.admits_resolved foresees knows resolved
    exact .inr ⟨found, foundToo, rfl, resolvedToo,
      paired.calleeAt_eq foresees sameFound holder, admits⟩

end Session

/-- What stands for types whose wrappers may be asked for is the same in both sessions. -/
theorem Transform.mapM_mapType_tandem
    (foresees : base.Foresees asked elements)
    (wraps : base.settings.arrays)
    {types : List Ty}
    (admits :
      ∀ type ∈ types, base.BothAdmit elements first second type ∧
        base.AsksWrapper elements type) :
    Transform.Tandem base asked elements first second (types.mapM Transform.mapType)
      (types.mapM Transform.mapType) fun mapped after afterToo =>
        ∀ type ∈ mapped, base.BothAdmit elements after afterToo type ∧
          base.AsksWrapper elements type := by
  intro paired mapped after mappedToo afterToo ends endsToo
  obtain ⟨same, advance, admitted⟩ :=
    Transform.Tandem.mapM (fun advance admitted => ⟨advance.admits admitted.1, admitted.2⟩)
      (fun type member _ _ advance =>
        Draft.mapType_tandem foresees wraps (admits type member).2 (advance.admits (admits type member).1))
      paired mapped after mappedToo afterToo ends endsToo
  have each :=
    (List.forall₂_and_left mapped types).1 (admitted.flip.imp fun _ _ good => ⟨good, trivial⟩)
  exact ⟨same, advance, each.1⟩

namespace Draft

variable {body : Body}

/-! ## Calls -/

/-- The callee is what a call is made to if its method is found, before or after signatures were
changed. -/
theorem calleeOf_eq (method : MethodRef) :
    calleeOf method = (do
      let before ← session
      match before.program.resolveMethod? method.owner method.name method.parameters with
      | some found => return (← session).calleeAt found
      | none =>
        let mapped ← lift (method.parameters.mapM Transform.mapType)
        if mapped = method.parameters then return ⟨method.parameters, method.result, true⟩
        else
          let after ← session
          match after.program.resolveMethod? method.owner method.name mapped with
          | some found => return (← session).calleeAt found
          | none => return ⟨method.parameters, method.result, true⟩) := by
  unfold calleeOf callee?
  rw [bind_assoc]
  refine bind_congr fun before => ?_
  dsimp only
  cases before.program.resolveMethod? method.owner method.name method.parameters with
  | some found => rw [pure_bind]; rfl
  | none =>
    rw [bind_assoc]
    refine bind_congr fun mapped => ?_
    split
    · rw [pure_bind]
    · rw [bind_assoc]
      refine bind_congr fun after => ?_
      rw [pure_bind]
      cases after.program.resolveMethod? method.owner method.name mapped <;> rfl

/-- What a call is made to is the same in both sessions, and both admit its types. -/
theorem calleeOf_tandem
    (foresees : base.Foresees asked elements)
    (wraps : base.settings.arrays)
    {method : MethodRef}
    (answers : base.BothAnswer elements first second method) :
    Tandem base asked elements first second body (calleeOf method) (calleeOf method)
      fun callee _ after afterToo =>
        (∀ type ∈ callee.parameters, base.BothAdmit elements after afterToo type) ∧
          (callee.foreign = false → base.BothAdmit elements after afterToo callee.result) := by
  rw [calleeOf_eq]
  refine .given fun paired _ => .session_bind ?_
  cases answers with
  | tally counted has hasToo same =>
    have resolved := paired.foreseen.resolveMethod?_tally has
    have resolvedToo := paired.foreseenToo.resolveMethod?_tally hasToo
    rw [same]
    simp only [resolved, resolvedToo]
    refine .session_bind ?_
    have foreign := paired.foreseen.isTransformableClass_counters
    have foreignToo := paired.foreseenToo.isTransformableClass_counters
    simp only [calleeAt, foreign, foreignToo]
    exact .pure ⟨List.forall_mem_nil _, fun isOwn => Bool.noConfusion isOwn⟩
  | known owner parameters =>
    rcases paired.resolved_cases foresees owner method.name method.parameters with
      ⟨missing, missingToo⟩ | ⟨found, foundToo, resolved, resolvedToo, sameCallee, admits⟩
    · simp only [missing, missingToo]
      refine (Tandem.lift (Transform.mapM_mapType_tandem foresees wraps parameters)).bind ?_
      rintro mapped bodyAfter after afterToo advance ⟨-, -⟩
      have unknown :
          Tandem base asked elements after afterToo bodyAfter
            (Pure.pure ⟨method.parameters, method.result, true⟩)
            (Pure.pure ⟨method.parameters, method.result, true⟩)
            fun (callee : Callee) _ after afterToo =>
              (∀ type ∈ callee.parameters, base.BothAdmit elements after afterToo type) ∧
                (callee.foreign = false → base.BothAdmit elements after afterToo callee.result) :=
        .pure ⟨fun type member => advance.admits (parameters type member).1,
          fun isOwn => Bool.noConfusion isOwn⟩
      split
      · exact unknown
      · refine .given fun pairedAfter _ => .session_bind ?_
        rcases pairedAfter.resolved_cases foresees (advance.knows owner) method.name mapped with
          ⟨missingAfter, missingAfterToo⟩ |
            ⟨found, foundToo, resolved, resolvedToo, sameCallee, admits⟩
        · simp only [missingAfter, missingAfterToo]
          exact unknown
        · simp only [resolved, resolvedToo]
          refine .session_bind ?_
          rw [sameCallee]
          exact .pure ⟨fun type member => admits type (List.mem_cons_of_mem _ member),
            fun _ => admits _ List.mem_cons_self⟩
    · simp only [resolved, resolvedToo]
      refine .session_bind ?_
      rw [sameCallee]
      exact .pure ⟨fun type member => admits type (List.mem_cons_of_mem _ member),
        fun _ => admits _ List.mem_cons_self⟩

theorem adaptReceiver_tandem
    (foresees : base.Foresees asked elements)
    (origin : Origin)
    (index : Nat)
    (method : MethodRef)
    (receiver : LocalId) :
    Tandem base asked elements first second body (adaptReceiver origin index method receiver)
      (adaptReceiver origin index method receiver) fun adapted _ after afterToo =>
        ∀ step ∈ adapted.2, base.BothState elements after afterToo step := by
  unfold adaptReceiver
  refine (wrapperOfLocal?_tandem foresees receiver).bind ?_
  rintro found bodyAfter after afterToo - ⟨-, holds⟩
  cases found with
  | none => exact .pure (List.forall_mem_nil _)
  | some wrapper =>
    have holds := holds wrapper rfl
    dsimp only
    split
    · exact .pure (List.forall_mem_nil _)
    · refine (Tandem.newLocal (holds.arrayType foresees) "$raw").bind ?_
      rintro raw changed between betweenToo advance -
      exact .record_pure fun last lastToo further => List.forall_mem_singleton.2
        (states_unwrapInto foresees (further.holds (advance.holds holds)) raw receiver)

theorem adaptArgument_tandem
    (foresees : base.Foresees asked elements)
    (origin : Origin)
    (index position : Nat)
    (method : MethodRef)
    (foreign : Bool)
    {target : Ty}
    (admitsTarget : base.BothAdmit elements first second target)
    (argument : Operand) :
    Tandem base asked elements first second body
      (adaptArgument origin index position method foreign target argument)
      (adaptArgument origin index position method foreign target argument)
      fun adapted _ after afterToo =>
        ∀ step ∈ adapted.2, base.BothState elements after afterToo step := by
  unfold adaptArgument
  refine .given fun paired sees => .body_bind ?_
  cases declared : body.operandType? argument with
  | none => exact .pure (List.forall_mem_nil _)
  | some source =>
    have admitsSource := sees.operandType? foresees declared
    refine .session_bind ?_
    rw [paired.argumentPlan?_eq foresees admitsSource admitsTarget foreign]
    cases planned : argumentPlan? first foreign source target with
    | none => exact .pure (List.forall_mem_nil _)
    | some adaptation =>
      have adapts := paired.adapts_of_argumentPlan? foresees admitsSource admitsTarget planned
      exact .bind_adapt foresees adapts
        (fun _ _ _ _ => .record_pure fun _ _ _ => List.forall_mem_nil _)
        fun _ _ _ _ _ states => .record_pure fun _ _ further step member =>
          further.states (states step member)

theorem adaptArguments_tandem
    (foresees : base.Foresees asked elements)
    (origin : Origin)
    (index : Nat)
    (method : MethodRef)
    (foreign : Bool)
    {parameters : List Ty}
    (admits : ∀ type ∈ parameters, base.BothAdmit elements first second type)
    (arguments : List Operand) :
    Tandem base asked elements first second body
      ((parameters.zip arguments).zipIdx.mapM fun entry =>
        adaptArgument origin index entry.2 method foreign entry.1.1 entry.1.2)
      ((parameters.zip arguments).zipIdx.mapM fun entry =>
        adaptArgument origin index entry.2 method foreign entry.1.1 entry.1.2)
      fun adapted _ after afterToo =>
        ∀ step ∈ adapted.flatMap Prod.snd, base.BothState elements after afterToo step := by
  refine (Tandem.mapM (fun _ => True)
    (fun (adapted : Operand × List Instruction) after afterToo =>
      ∀ step ∈ adapted.2, base.BothState elements after afterToo step)
    (fun advance states step member => advance.states (states step member)) ?_ trivial).mono
      fun _ _ _ _ _ states => List.forall_mem_flatMap.2 states.2
  rintro ⟨⟨parameter, argument⟩, position⟩ member bodyNow now nowToo onward -
  have among : parameter ∈ parameters :=
    (List.of_mem_zip (List.fst_mem_of_mem_zipIdx member)).1
  exact (adaptArgument_tandem foresees origin index position method foreign
    (onward.admits (admits parameter among)) argument).mono fun _ _ _ _ _ states => ⟨trivial, states⟩

/-- Once the receiver was adapted, so are the arguments of a call. -/
theorem wrapArguments_tandem
    (foresees : base.Foresees asked elements)
    (origin : Origin)
    (index : Nat)
    {target : Call}
    {callee : Callee}
    (method : MethodRef)
    (admits : ∀ type ∈ callee.parameters, base.BothAdmit elements first second type)
    {receiver : Option LocalId}
    {unwrapping : List Instruction}
    (unwraps : ∀ step ∈ unwrapping, base.BothState elements first second step) :
    Tandem base asked elements first second body
      (do
        let arguments ←
          (callee.parameters.zip target.arguments).zipIdx.mapM fun entry =>
            adaptArgument origin index entry.2 method callee.foreign entry.1.1 entry.1.2
        Pure.pure
          ({ target with method, receiver, arguments := arguments.map Prod.fst },
            unwrapping ++ arguments.flatMap Prod.snd))
      (do
        let arguments ←
          (callee.parameters.zip target.arguments).zipIdx.mapM fun entry =>
            adaptArgument origin index entry.2 method callee.foreign entry.1.1 entry.1.2
        Pure.pure
          ({ target with method, receiver, arguments := arguments.map Prod.fst },
            unwrapping ++ arguments.flatMap Prod.snd))
      fun (wrapped : Call × List Instruction) _ after afterToo =>
        (∀ step ∈ wrapped.2, base.BothState elements after afterToo step) ∧
          (base.BothAdmit elements first second method.result →
            base.BothAdmit elements after afterToo wrapped.1.method.result) := by
  refine (adaptArguments_tandem foresees origin index method callee.foreign admits
    target.arguments).bind ?_
  intro arguments bodyAfter after afterToo advance states
  exact .pure ⟨List.forall_mem_append.2
    ⟨fun step member => advance.states (unwraps step member), states⟩, advance.admits⟩

/-- A call is wrapped in the same way, and what it is made to has an admitted result if it had one. -/
theorem wrapCall_tandem
    (foresees : base.Foresees asked elements)
    (wraps : base.settings.arrays)
    (origin : Origin)
    (index : Nat)
    {target : Call}
    (answers :
      target.method = base.settings.sink.methodRef ∨
        base.BothAnswer elements first second target.method) :
    Tandem base asked elements first second body (wrapCall origin index target)
      (wrapCall origin index target) fun wrapped _ after afterToo =>
        (∀ step ∈ wrapped.2, base.BothState elements after afterToo step) ∧
          (base.BothAdmit elements first second target.method.result →
            base.BothAdmit elements after afterToo wrapped.1.method.result) := by
  unfold wrapCall
  refine .given fun paired _ => .session_bind ?_
  rw [paired.foreseen.settings, paired.foreseenToo.settings]
  split
  · exact .pure ⟨List.forall_mem_nil _, id⟩
  · rename_i noSink
    refine (calleeOf_tandem foresees wraps (answers.resolve_left noSink)).bind ?_
    rintro callee bodyAfter after afterToo advance ⟨admits, admitsOwn⟩
    dsimp only
    split
    · exact .pure ⟨List.forall_mem_nil _, advance.admits⟩
    · have admitsResult
          (admitted : base.BothAdmit elements first second target.method.result) :
          base.BothAdmit elements after afterToo
            (if callee.foreign then target.method
              else
                { target.method with
                  parameters := callee.parameters
                  result := callee.result }).result := by
        split
        · exact advance.admits admitted
        · rename_i isOwn
          exact admitsOwn (Bool.eq_false_of_not_eq_true isOwn)
      generalize
        (if callee.foreign then target.method
          else { target.method with parameters := callee.parameters, result := callee.result }) =
          method at admitsResult ⊢
      cases target.receiver with
      | none =>
        simp only [pure_bind]
        exact (wrapArguments_tandem foresees origin index method admits (List.forall_mem_nil _)).mono
          fun _ _ _ _ _ good => ⟨good.1, fun admitted => good.2 (admitsResult admitted)⟩
      | some receiver =>
        simp only [pure_bind]
        refine (adaptReceiver_tandem foresees origin index method receiver).bind ?_
        rintro ⟨held, unwrapping⟩ bodyReceived received receivedToo further unwraps
        exact (wrapArguments_tandem foresees origin index method
          (fun type member => further.admits (admits type member)) unwraps).mono
          fun _ _ _ _ _ good =>
            ⟨good.1, fun admitted => good.2 (further.admits (admitsResult admitted))⟩

/-! ## Assignments -/

theorem wrapAllocation_tandem
    (origin : Origin)
    (index : Nat)
    (foresees : base.Foresees asked elements)
    (place : Expression)
    (element : Ty)
    (size : Operand) :
    Tandem base asked elements first second body (wrapAllocation origin index place element size)
      (wrapAllocation origin index place element size) fun replaced _ =>
        Replaced base elements replaced := by
  unfold wrapAllocation
  split
  · exact .record_pure fun _ _ _ => nofun
  · split
    · rename_i target
      refine (wrapperOfLocal?_tandem foresees target).bind ?_
      rintro found bodyAfter after afterToo - ⟨-, holds⟩
      cases found with
      | none => exact .pure nofun
      | some wrapper =>
        dsimp only
        split
        · exact .pure nofun
        · refine .record_pure fun last lastToo advance => ?_
          rintro _ ⟨⟩
          exact states_construct (advance.holds (holds wrapper rfl)) wrapper.withLength target size
    · exact .pure nofun

/-- A value that is admitted is taken from one that is admitted. -/
theorem wrapValue_tandem
    (foresees : base.Foresees asked elements)
    (wraps : base.settings.arrays)
    (origin : Origin)
    (index : Nat)
    {value : Expression}
    (states :
      ∀ type, value.statedType? = some type → base.BothAdmit elements first second type)
    (answers :
      ∀ target, value = .call target →
        target.method = base.settings.sink.methodRef ∨
          base.BothAnswer elements first second target.method) :
    Tandem base asked elements first second body (wrapValue origin index value)
      (wrapValue origin index value) fun wrapped _ after afterToo =>
        (∀ step ∈ wrapped.2, base.BothState elements after afterToo step) ∧
          ∀ type, wrapped.1.statedType? = some type → base.BothAdmit elements after afterToo type := by
  unfold wrapValue
  split
  · rename_i array slot
    refine (wrapperOfLocal?_tandem foresees array).bind ?_
    rintro found bodyAfter after afterToo - ⟨-, holds⟩
    cases found with
    | none => exact .pure ⟨List.forall_mem_nil _, nofun⟩
    | some wrapper =>
      refine .record_pure fun last lastToo advance => ⟨List.forall_mem_nil _, ?_⟩
      rintro type ⟨⟩
      have admits := (advance.holds (holds wrapper rfl)).element foresees
      obtain ⟨name, element, rfl, -, -⟩ := holds wrapper rfl
      exact admits
  · rename_i array
    refine (wrapperOfLocal?_tandem foresees array).bind ?_
    rintro found bodyAfter after afterToo - ⟨-, holds⟩
    cases found with
    | none => exact .pure ⟨List.forall_mem_nil _, nofun⟩
    | some wrapper =>
      have holds := holds wrapper rfl
      refine (Tandem.newLocal (holds.arrayType foresees) "$raw").bind ?_
      rintro raw changed between betweenToo advance -
      exact .record_pure fun last lastToo further => ⟨List.forall_mem_singleton.2
        (states_unwrapInto foresees (further.holds (advance.holds holds)) raw array), nofun⟩
  · rename_i target
    refine (wrapCall_tandem foresees wraps origin index (answers target rfl)).bind ?_
    rintro ⟨wrapped, steps⟩ bodyAfter after afterToo advance ⟨statesSteps, admits⟩
    refine .pure ⟨statesSteps, ?_⟩
    rintro type ⟨⟩
    exact admits (states _ rfl)
  · exact .pure ⟨List.forall_mem_nil _, states⟩

theorem wrapStore_tandem
    (foresees : base.Foresees asked elements)
    (origin : Origin)
    (index : Nat)
    {wrapper : Wrapper}
    (holds : base.BothHold elements first second wrapper)
    (array : LocalId)
    (slot : Operand)
    {value : Expression}
    (states :
      ∀ type, value.statedType? = some type → base.BothAdmit elements first second type) :
    Tandem base asked elements first second body (wrapStore origin index wrapper array slot value)
      (wrapStore origin index wrapper array slot value) fun steps _ after afterToo =>
        ∀ step ∈ steps, base.BothState elements after afterToo step := by
  have storing
      {stored : Operand}
      {evaluation : List Instruction}
      {bodyNow : Body}
      {now nowToo : Session}
      (evaluates : ∀ step ∈ evaluation, base.BothState elements now nowToo step) :
      Tandem base asked elements now nowToo bodyNow
        (recordAt origin .elementAccessWrapped index ("store through " ++ wrapper.set.render) >>=
          fun _ => Pure.pure (evaluation ++ [wrapper.setCall array slot stored]))
        (recordAt origin .elementAccessWrapped index ("store through " ++ wrapper.set.render) >>=
          fun _ => Pure.pure (evaluation ++ [wrapper.setCall array slot stored]))
        fun steps _ after afterToo => ∀ step ∈ steps, base.BothState elements after afterToo step :=
    .record_pure fun _ _ advance => List.forall_mem_append.2
      ⟨fun step member => advance.states (evaluates step member),
        List.forall_mem_singleton.2 (List.forall_mem_nil _)⟩
  unfold wrapStore
  cases value.operand? with
  | some operand =>
    simp only [pure_bind]
    exact storing (List.forall_mem_nil _)
  | none =>
    simp only [pure_bind]
    refine (Tandem.newLocal (holds.element foresees) "$elem").bind ?_
    rintro result changed after afterToo advance -
    refine storing (List.forall_mem_singleton.2 fun type member => ?_)
    exact advance.admits (states type (Option.mem_toList.1 member))

theorem wrapAssignment_tandem
    (foresees : base.Foresees asked elements)
    (wraps : base.settings.arrays)
    (origin : Origin)
    (index : Nat)
    {place value : Expression}
    (reads : base.BothRead asked elements first second (.assign place value)) :
    Tandem base asked elements first second body (wrapAssignment origin index place value)
      (wrapAssignment origin index place value) fun replaced _ =>
        Replaced base elements replaced := by
  unfold wrapAssignment
  split
  · rename_i content size
    exact wrapAllocation_tandem origin index foresees place content size
  · refine (wrapValue_tandem foresees wraps origin index
      (fun type stated => reads.states type (List.mem_append_right _ (Option.mem_toList.2 stated)))
      fun target isCall => reads.calls target (by rw [isCall]; rfl)).bind ?_
    rintro ⟨wrapped, steps⟩ bodyAfter after afterToo advance ⟨statesSteps, statesValue⟩
    have assigning
        {bodyNow : Body}
        {now nowToo : Session}
        (further : base.Advance asked elements after afterToo now nowToo) :
        Tandem base asked elements now nowToo bodyNow
          (if steps.isEmpty && wrapped == value then Pure.pure none
            else Pure.pure (some (steps ++ [.assign place wrapped])))
          (if steps.isEmpty && wrapped == value then Pure.pure none
            else Pure.pure (some (steps ++ [.assign place wrapped])))
          fun replaced _ => Replaced base elements replaced := by
      split
      · exact .pure nofun
      · refine .pure ?_
        rintro _ ⟨⟩
        refine List.forall_mem_append.2 ⟨fun step member => further.states (statesSteps step member),
          List.forall_mem_singleton.2 fun type member => ?_⟩
        rcases List.mem_append.1 member with left | right
        · exact further.admits (advance.admits (reads.states type (List.mem_append_left _ left)))
        · exact further.admits (statesValue type (Option.mem_toList.1 right))
    dsimp only
    split
    · rename_i array slot
      simp only [pure_bind]
      refine (wrapperOfLocal?_tandem foresees array).bind ?_
      rintro found changed last lastToo further ⟨-, holds⟩
      cases found with
      | none => exact assigning further
      | some wrapper =>
        refine (wrapStore_tandem foresees origin index (holds wrapper rfl) array slot
          (fun type stated => further.admits (statesValue type stated))).bind ?_
        rintro stored bodyLast ending endingToo onward statesStored
        refine .pure ?_
        rintro _ ⟨⟩
        exact List.forall_mem_append.2 ⟨fun step member =>
          onward.states (further.states (statesSteps step member)), statesStored⟩
    · simp only [pure_bind]
      exact .given fun pairedAfter _ => assigning (.refl pairedAfter)

theorem wrapInstruction_tandem
    (foresees : base.Foresees asked elements)
    (wraps : base.settings.arrays)
    (origin : Origin)
    (index : Nat)
    {instruction : Instruction}
    (reads : base.BothRead asked elements first second instruction) :
    Tandem base asked elements first second body (wrapInstruction origin index instruction)
      (wrapInstruction origin index instruction) fun replaced _ =>
        Replaced base elements replaced := by
  cases instruction with
  | assign place value => exact wrapAssignment_tandem foresees wraps origin index reads
  | invoke target =>
    refine (wrapCall_tandem foresees wraps origin index (reads.calls target rfl)).bind ?_
    rintro ⟨wrapped, steps⟩ bodyAfter after afterToo - ⟨states, -⟩
    dsimp only
    split
    · exact .pure nofun
    · refine .pure ?_
      rintro _ ⟨⟩
      exact List.forall_mem_append.2
        ⟨states, List.forall_mem_singleton.2 (List.forall_mem_nil _)⟩
  | bind target source => exact .pure nofun
  | «return» operand => exact .pure nofun

/-! ## Edits -/

theorem replace_tandem
    {batch : EditBatch}
    {index : Nat}
    {instructions : List Instruction}
    (all : batch.All (base.BothState elements first second))
    (states : ∀ step ∈ instructions, base.BothState elements first second step) :
    Tandem base asked elements first second body
      (lift (Transform.ofDefect (batch.replace index instructions)))
      (lift (Transform.ofDefect (batch.replace index instructions)))
      fun changed _ after afterToo => changed.All (base.BothState elements after afterToo) := by
  refine Tandem.ofDefect.mono ?_
  rintro changed bodyAfter after afterToo advance ⟨-, replaced⟩
  exact (EditBatch.All.replace all states replaced).mono fun _ => advance.states

theorem wrapBinding_tandem
    (origin : Origin)
    (signature : Method)
    (position index : Nat)
    {batch : EditBatch}
    (all : batch.All (base.BothState elements first second))
    {wrapper : Wrapper}
    (holds : base.BothHold elements first second wrapper)
    (target : LocalId)
    (parameter : Nat)
    {type : Ty}
    (admits : base.BothAdmit elements first second type) :
    Tandem base asked elements first second body
      (wrapBinding origin signature position index batch wrapper target parameter type)
      (wrapBinding origin signature position index batch wrapper target parameter type)
      fun changed _ after afterToo => changed.All (base.BothState elements after afterToo) := by
  unfold wrapBinding
  dsimp only
  have silent (target : LocalId) (type : Ty) {after afterToo : Session} :
      ∀ step ∈ [Instruction.bind target (.parameter parameter type)],
        base.BothState elements after afterToo step :=
    List.forall_mem_singleton.2 (List.forall_mem_nil _)
  split
  · refine (replace_tandem all (silent target wrapper.type)).bind ?_
    rintro changed bodyAfter after afterToo - allChanged
    exact .record_pure fun last lastToo advance => allChanged.mono fun _ => advance.states
  · refine (Tandem.newLocal admits "$param").bind ?_
    rintro raw bodyAfter after afterToo advance -
    refine (replace_tandem (all.mono fun _ => advance.states) (silent raw type)).bind ?_
    rintro changed bodyChanged between betweenToo further allChanged
    exact .record_pure fun last lastToo onward => (allChanged.mono fun _ => onward.states).insertBefore
      (states_construct (onward.holds (further.holds (advance.holds holds))) wrapper.fromArray target
        (.variable raw))

theorem queue_tandem
    (foresees : base.Foresees asked elements)
    (wraps : base.settings.arrays)
    (origin : Origin)
    (signature : Method)
    (position : Nat)
    {batch : EditBatch}
    (all : batch.All (base.BothState elements first second))
    (index : Nat)
    {instruction : Instruction}
    (reads : base.BothRead asked elements first second instruction) :
    Tandem base asked elements first second body
      (queue origin signature position batch index instruction)
      (queue origin signature position batch index instruction)
      fun changed _ after afterToo => changed.All (base.BothState elements after afterToo) := by
  unfold queue
  split
  · rename_i target parameter type
    split
    · exact .pure all
    · refine (wrapperOfLocal?_tandem foresees target).bind ?_
      rintro found bodyAfter after afterToo advance ⟨-, holds⟩
      have allAfter := all.mono fun _ => advance.states
      cases found with
      | none => exact .pure allAfter
      | some wrapper =>
        exact wrapBinding_tandem origin signature position index allAfter
          (holds wrapper rfl) target parameter (advance.admits (reads.binds target parameter type rfl))
  · refine (wrapInstruction_tandem foresees wraps origin index reads).bind ?_
    rintro replaced bodyAfter after afterToo advance states
    have allAfter := all.mono fun _ => advance.states
    cases replaced with
    | none => exact .pure allAfter
    | some steps => exact replace_tandem allAfter (states steps rfl)

/-- Edits are applied to one body in the same way; they leave the locals alone. -/
theorem apply_tandem
    {batch : EditBatch}
    (all : batch.All (base.BothState elements first second)) :
    Tandem base asked elements first second body (apply batch) (apply batch)
      fun _ _ _ _ => True := by
  unfold apply
  refine .body_bind (Tandem.ofDefect.bind ?_)
  rintro changed bodyAfter after afterToo advance ⟨same, applied⟩
  subst same
  obtain rfl := EditBatch.apply_eq_ok applied
  refine .mono (.set fun sees => ⟨sees.locals, ?_⟩) fun _ _ _ _ _ _ => trivial
  exact (all.mono fun _ => advance.states).applyTo sees.states

/-- Wrappers are put into a body that both sessions can read in the same way. -/
theorem propagate_tandem
    (foresees : base.Foresees asked elements)
    (wraps : base.settings.arrays)
    (pass : String)
    (id : MethodId)
    (same : second.program.method? id = first.program.method? id)
    (sameName : second.program.qualifiedName id = first.program.qualifiedName id)
    (result :
      ∀ method, first.program.method? id = some method →
        base.BothAdmit elements first second method.result)
    (lists : Lists base elements body)
    (reads : ∀ instruction ∈ body.instructions, base.BothRead asked elements first second instruction) :
    Tandem base asked elements first second body (propagate pass id) (propagate pass id)
      fun _ _ _ _ => True := by
  unfold propagate
  refine .session_bind ?_
  dsimp only
  rw [same, sameName]
  cases found : first.program.method? id with
  | none => exact .pure trivial
  | some signature =>
    dsimp only
    refine (retypeLocals_tandem foresees wraps lists).bind ?_
    rintro retyped bodyRetyped retypedIn retypedToo advance sameInstructions
    refine .body_bind (.body_bind ?_)
    have readsRetyped instruction (member : instruction ∈ bodyRetyped.instructions) :
        base.BothRead asked elements retypedIn retypedToo instruction :=
      advance.reads (reads instruction (sameInstructions ▸ member))
    refine (Tandem.foldlM
      (fun batch after afterToo => EditBatch.All (base.BothState elements after afterToo) batch)
      ?_ EditBatch.All.empty).bind ?_
    · rintro ⟨instruction, index⟩ member batch bodyNow now nowToo onward all
      exact queue_tandem foresees wraps _ signature _ all index
        (onward.reads (readsRetyped instruction (List.fst_mem_of_mem_zipIdx member)))
    · rintro batch bodyQueued queued queuedToo further all
      refine (apply_tandem all).bind ?_
      rintro - bodyApplied applied appliedToo onward -
      have admitsResult := onward.admits (further.admits (advance.admits (result signature found)))
      exact (repair_tandem foresees admitsResult _).bind fun _ _ _ _ _ _ => .pure trivial

end Draft
end AccessProfiler
