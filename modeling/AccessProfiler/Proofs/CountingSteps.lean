import AccessProfiler.Proofs.Generation

/-!
# Counting in one body

Each step on a body keeps it the original body with counting, changes no class but that of the
counters, and keeps the session stocked (`Draft.Weaves`).  Steps that insert calls in front of
instructions are first shown to insert what may stand there; the other two put a block right after
the bindings.
-/

namespace AccessProfiler

/-- After a step on a body: the body is the original one with counting, and only the class of the
counters grew. -/
structure Draft.Weaves
    (counter : String)
    (sink : Sink)
    (constructs : Prop)
    (original : Body)
    (before : Session)
    (body : Body)
    (after : Session) : Prop where
  stocked : after.Stocked counter sink
  grows : before.Grows counter after
  woven : original.Woven counter sink after.program.offers constructs body

namespace FieldCount

variable {counter : String} {sink : Sink} {session : Session}

theorem counts_of_call?
    (stocked : session.Stocked counter sink)
    {access : Access}
    {expression : Expression}
    {call : Instruction}
    (found : (FieldCount.of session access expression).call? = some call) :
    ∃ base field, expression = .instanceField base field ∧
      call.Counts session.program.offers base := by
  cases expression with
  | instanceField base field =>
    by_cases instruments : isInstrumentationName field.name = true
    · simp [FieldCount.of, instruments, FieldCount.call?] at found
    · cases known : session.profiles.get? (session.declaringClass field) with
      | none => simp [FieldCount.of, instruments, known, FieldCount.call?] at found
      | some profile =>
        simp only [FieldCount.of, instruments, known, FieldCount.call?, Bool.false_eq_true,
          if_false, Option.some.injEq] at found
        subst found
        have usable := stocked.profiles _ profile known
        obtain ⟨owner, name, incrementor, offered, same⟩ := usable.incrementor access
        refine ⟨base, field, rfl, profile.callKind, owner, name, usable.callKind, incrementor,
          offered, ?_⟩
        rw [Profile.countingCall, same]
  | _ => cases found

theorem call?_of_silent
    {access : Access}
    {expression : Expression}
    (silent : expression.Silent) :
    (FieldCount.of session access expression).call? = none := by
  cases expression with
  | instanceField base field =>
    have instruments : isInstrumentationName field.name = true := silent
    simp [FieldCount.of, instruments, FieldCount.call?]
  | _ => rfl

theorem announces_of_mem_calls
    (stocked : session.Stocked counter sink)
    {instruction call : Instruction}
    (member : call ∈ calls session instruction) :
    instruction.Announces counter session.program.offers call := by
  obtain ⟨entry, listed, found⟩ := List.mem_filterMap.1 member
  cases instruction with
  | assign place value =>
    simp only [ofInstruction, List.mem_cons, List.not_mem_nil, or_false] at listed
    rcases listed with rfl | rfl
    · obtain ⟨base, field, same, counts⟩ := counts_of_call? stocked found
      exact .inr ⟨base, .inl ⟨field, same⟩, counts⟩
    · obtain ⟨base, field, same, counts⟩ := counts_of_call? stocked found
      exact .inr ⟨base, .inr ⟨field, same⟩, counts⟩
  | _ => cases listed

theorem calls_of_silent {instruction : Instruction} (silent : instruction.Silent) :
    calls session instruction = [] := by
  cases instruction with
  | assign place value =>
    simp [calls, ofInstruction, call?_of_silent silent.1, call?_of_silent silent.2]
  | _ => rfl

theorem inserted
    (stocked : session.Stocked counter sink)
    (instructions : List Instruction) :
    Inserted counter session.program.offers instructions
      (instructions.flatMap fun instruction => calls session instruction ++ [instruction]) := by
  induction instructions with
  | nil => exact .done
  | cons instruction rest hypothesis =>
    rw [List.flatMap_cons, List.append_assoc]
    exact .step (fun call member => announces_of_mem_calls stocked member) calls_of_silent hypothesis

end FieldCount

namespace Draft

variable
    {counter : String}
    {sink : Sink}
    {constructs : Prop}
    {original body bodyAfter : Body}
    {session sessionAfter : Session}
    {pass method : String}

theorem record_stocked
    (stocked : session.Stocked counter sink)
    {event : Event}
    {done : Unit}
    (ends : Draft.Ends (record event) body session done bodyAfter sessionAfter) :
    sessionAfter.Stocked counter sink ∧ session.Grows counter sessionAfter ∧ bodyAfter = body := by
  obtain ⟨recorded, rfl⟩ := Draft.Ends.lift_iff.1 ends
  obtain ⟨stockedAfter, grows⟩ := Transform.record_stocked stocked recorded
  exact ⟨stockedAfter, grows, rfl⟩

theorem records_stocked
    (stocked : session.Stocked counter sink)
    {events : List Event}
    {done : Unit}
    (ends :
      Draft.Ends (events.forM fun event => record (event.recordedBy pass)) body session done
        bodyAfter sessionAfter) :
    sessionAfter.Stocked counter sink ∧ session.Grows counter sessionAfter ∧ bodyAfter = body := by
  induction events generalizing session body with
  | nil =>
    obtain ⟨-, rfl, rfl⟩ := Draft.Ends.pure_iff.1 ends
    exact ⟨stocked, .refl _, rfl⟩
  | cons event rest hypothesis =>
    obtain ⟨_, bodyBetween, between, first, others⟩ := Draft.Ends.bind_iff.1 ends
    obtain ⟨stockedBetween, grows, rfl⟩ := record_stocked stocked first
    obtain ⟨stockedAfter, growsFurther, rfl⟩ := hypothesis stockedBetween others
    exact ⟨stockedAfter, grows.trans growsFurther, rfl⟩

theorem countFieldAccesses_woven
    (stocked : session.Stocked counter sink)
    (woven : original.Woven counter sink session.program.offers constructs body)
    {changed : Bool}
    (ends :
      Draft.Ends (countFieldAccesses pass method) body session changed bodyAfter sessionAfter) :
    Draft.Weaves counter sink constructs original session bodyAfter sessionAfter := by
  unfold countFieldAccesses at ends
  simp only [Draft.Ends.bind_iff, Draft.Ends.session_iff, Draft.Ends.body_iff,
    Draft.Ends.setInstructions_iff, Draft.Ends.pure_iff] at ends
  obtain ⟨_, _, _, ⟨rfl, rfl, rfl⟩, _, _, _, ⟨rfl, rfl, rfl⟩, _, bodyRecorded, recorded, records,
    _, _, _, ⟨rfl, rfl⟩, -, rfl, rfl⟩ := ends
  obtain ⟨stockedAfter, grows, rfl⟩ := records_stocked stocked records
  exact ⟨stockedAfter, grows, (woven.insert (FieldCount.inserted stocked _)).mono grows.program.offers⟩

theorem typeKeys_of_silent {expression : Expression} (silent : expression.Silent) :
    typeKeys session body expression = [] := by
  cases expression with
  | instanceField base field =>
    have instruments : isInstrumentationName field.name = true := silent
    simp [typeKeys, instruments]
  | element base index => exact silent.elim
  | _ => rfl

theorem typeCalls_stocked
    (stocked : session.Stocked counter sink)
    {index : Nat}
    {access : Access}
    {keys : List String}
    {calls : List Instruction}
    (ends :
      Draft.Ends (typeCalls pass method index access keys) body session calls bodyAfter
        sessionAfter) :
    sessionAfter.Stocked counter sink ∧ session.Grows counter sessionAfter ∧ bodyAfter = body ∧
      (∀ call ∈ calls, call.Tallies counter sessionAfter.program.offers) ∧
      (keys = [] → calls = []) := by
  unfold typeCalls at ends
  induction keys generalizing session body calls with
  | nil =>
    obtain ⟨rfl, rfl, rfl⟩ := Draft.Ends.pure_iff.1 ends
    exact ⟨stocked, .refl _, rfl, fun _ member => absurd member List.not_mem_nil, fun _ => rfl⟩
  | cons key rest hypothesis =>
    obtain ⟨call, bodyBetween, between, others, first, endsOthers, rfl⟩ :=
      Draft.Ends.mapM_cons_iff.1 ends
    simp only [Draft.Ends.bind_iff, Draft.Ends.lift_iff, Draft.Ends.pure_iff] at first
    obtain ⟨found, _, counted, ⟨counts, rfl⟩, _, _, recorded, records, rfl, rfl, rfl⟩ := first
    obtain ⟨stockedCounted, growsCounted, tallies⟩ := Transform.typeCounter_stocked stocked counts
    obtain ⟨stockedRecorded, growsRecorded, rfl⟩ := record_stocked stockedCounted records
    obtain ⟨stockedAfter, growsAfter, rfl, talliesOthers, -⟩ := hypothesis stockedRecorded endsOthers
    refine ⟨stockedAfter, growsCounted.trans (growsRecorded.trans growsAfter), rfl, ?_,
      fun empty => absurd empty (List.cons_ne_nil _ _)⟩
    intro other member
    rcases List.mem_cons.1 member with rfl | later
    · exact (tallies access).mono (growsRecorded.trans growsAfter).program.offers
    · exact talliesOthers other later

theorem instructionTypeCalls_stocked
    (stocked : session.Stocked counter sink)
    {index : Nat}
    {seen : Body}
    {instruction : Instruction}
    {calls : List Instruction}
    (ends :
      Draft.Ends (instructionTypeCalls pass method index seen instruction) body session calls
        bodyAfter sessionAfter) :
    sessionAfter.Stocked counter sink ∧ session.Grows counter sessionAfter ∧ bodyAfter = body ∧
      (∀ call ∈ calls, call.Tallies counter sessionAfter.program.offers) ∧
      (instruction.Silent → calls = []) := by
  have nothing (ended : Draft.Ends (pure []) body session calls bodyAfter sessionAfter) :
      sessionAfter.Stocked counter sink ∧ session.Grows counter sessionAfter ∧ bodyAfter = body ∧
        (∀ call ∈ calls, call.Tallies counter sessionAfter.program.offers) ∧
        (instruction.Silent → calls = []) := by
    obtain ⟨rfl, rfl, rfl⟩ := Draft.Ends.pure_iff.1 ended
    exact ⟨stocked, .refl _, rfl, fun _ member => absurd member List.not_mem_nil, fun _ => rfl⟩
  cases instruction with
  | assign place value =>
    unfold instructionTypeCalls at ends
    simp only [Draft.Ends.bind_iff, Draft.Ends.session_iff, Draft.Ends.pure_iff] at ends
    obtain ⟨_, _, _, ⟨rfl, rfl, rfl⟩, written, _, first, writes, _, _, _, ⟨rfl, rfl, rfl⟩, read, _,
      _, reads, rfl, rfl, rfl⟩ := ends
    obtain ⟨stockedFirst, growsFirst, rfl, talliesFirst, quietFirst⟩ :=
      typeCalls_stocked stocked writes
    obtain ⟨stockedAfter, growsAfter, rfl, talliesAfter, quietAfter⟩ :=
      typeCalls_stocked stockedFirst reads
    refine ⟨stockedAfter, growsFirst.trans growsAfter, rfl, ?_, ?_⟩
    · intro call member
      rcases List.mem_append.1 member with inWritten | inRead
      · exact (talliesFirst call inWritten).mono growsAfter.program.offers
      · exact talliesAfter call inRead
    · intro silent
      rw [quietFirst (typeKeys_of_silent silent.1), quietAfter (typeKeys_of_silent silent.2)]
      rfl
  | bind target source => exact nothing ends
  | invoke target => exact nothing ends
  | «return» value => exact nothing ends

theorem typeCalls_inserted
    (stocked : session.Stocked counter sink)
    {seen : Body}
    {instructions : List Instruction}
    {start : Nat}
    {counted : List (List Instruction)}
    (ends :
      Draft.Ends
        ((instructions.zipIdx start).mapM fun (instruction, index) => do
          let calls ← instructionTypeCalls pass method index seen instruction
          return calls ++ [instruction])
        body session counted bodyAfter sessionAfter) :
    sessionAfter.Stocked counter sink ∧ session.Grows counter sessionAfter ∧ bodyAfter = body ∧
      Inserted counter sessionAfter.program.offers instructions counted.flatten := by
  induction instructions generalizing session body start counted with
  | nil =>
    obtain ⟨rfl, rfl, rfl⟩ := Draft.Ends.pure_iff.1 ends
    exact ⟨stocked, .refl _, rfl, .done⟩
  | cons instruction rest hypothesis =>
    rw [List.zipIdx_cons] at ends
    obtain ⟨block, bodyBetween, between, others, first, endsOthers, rfl⟩ :=
      Draft.Ends.mapM_cons_iff.1 ends
    simp only [Draft.Ends.bind_iff, Draft.Ends.pure_iff] at first
    obtain ⟨calls, _, _, called, rfl, rfl, rfl⟩ := first
    obtain ⟨stockedBetween, growsBetween, rfl, tallies, quiet⟩ :=
      instructionTypeCalls_stocked stocked called
    obtain ⟨stockedAfter, growsAfter, rfl, insertedRest⟩ := hypothesis stockedBetween endsOthers
    refine ⟨stockedAfter, growsBetween.trans growsAfter, rfl, ?_⟩
    rw [List.flatten_cons, List.append_assoc]
    exact .step (fun call member => .inl ((tallies call member).mono growsAfter.program.offers)) quiet
      insertedRest

theorem countTypeAccesses_woven
    (stocked : session.Stocked counter sink)
    (woven : original.Woven counter sink session.program.offers constructs body)
    {changed : Bool}
    (ends :
      Draft.Ends (countTypeAccesses pass method) body session changed bodyAfter sessionAfter) :
    Draft.Weaves counter sink constructs original session bodyAfter sessionAfter := by
  unfold countTypeAccesses at ends
  simp only [Draft.Ends.bind_iff, Draft.Ends.body_iff, Draft.Ends.setInstructions_iff,
    Draft.Ends.pure_iff] at ends
  obtain ⟨_, _, _, ⟨rfl, rfl, rfl⟩, counted, _, _, counts, _, _, _, ⟨rfl, rfl⟩, -, rfl, rfl⟩ := ends
  obtain ⟨stockedAfter, grows, rfl, inserted⟩ := typeCalls_inserted stocked counts
  exact ⟨stockedAfter, grows, (woven.mono grows.program.offers).insert inserted⟩

theorem splitAt_bindingCount (body : Body) :
    body.instructions.splitAt body.bindingCount = (body.bindings, body.unbound) := by
  have whole : body.bindings ++ body.unbound = body.instructions := by
    simp [Body.bindings, Body.unbound]
  rw [List.splitAt_eq, ← whole]
  exact Prod.ext (List.take_left' rfl) (List.drop_left' rfl)

theorem countCalls_woven
    (stocked : session.Stocked counter sink)
    (woven : original.Woven counter sink session.program.offers constructs body)
    {id : MethodId}
    {changed : Bool}
    (ends : Draft.Ends (countCalls pass id) body session changed bodyAfter sessionAfter) :
    Draft.Weaves counter sink constructs original session bodyAfter sessionAfter := by
  unfold countCalls at ends
  simp only [Draft.Ends.bind_iff, Draft.Ends.session_iff] at ends
  obtain ⟨_, _, _, ⟨rfl, rfl, rfl⟩, ends⟩ := ends
  split at ends
  · obtain ⟨-, rfl, rfl⟩ := Draft.Ends.pure_iff.1 ends
    exact ⟨stocked, .refl _, woven⟩
  · simp only [Draft.Ends.bind_iff, Draft.Ends.lift_iff, Draft.Ends.body_iff,
      Draft.Ends.session_iff, Draft.Ends.setInstructions_iff, Draft.Ends.pure_iff] at ends
    obtain ⟨found, _, counted, ⟨counts, rfl⟩, _, _, _, ⟨rfl, rfl, rfl⟩, _, _, _, ⟨rfl, rfl, rfl⟩, _,
      _, _, ⟨rfl, rfl⟩, _, _, _, ⟨rfl, rfl, rfl⟩, _, _, _, records, -, rfl, rfl⟩ := ends
    obtain ⟨stockedCounted, growsCounted, tallies⟩ := Transform.callCounter_stocked stocked counts
    obtain ⟨stockedAfter, growsAfter, rfl⟩ := record_stocked stockedCounted records
    have opened := (woven.mono growsCounted.program.offers).open_tally tallies
    rw [splitAt_bindingCount]
    exact ⟨stockedAfter, growsCounted.trans growsAfter, opened.mono growsAfter.program.offers⟩

theorem patchConstructor_eq_ok
    {profile : Profile}
    {patched : Body}
    (ok : profile.patchConstructor sink body = .ok (.ok patched)) :
    ∃ this declaration, body.receiver? = some this ∧ declaration.type = .int ∧
      profile.skip? this body.instructions = none ∧
      patched =
        { locals := body.locals ++ [declaration]
          instructions :=
            body.bindings ++ profile.serialAssignment sink this ⟨body.locals.length⟩ ++
              body.unbound } := by
  unfold Profile.patchConstructor at ok
  cases found : body.receiver? with
  | none =>
    rw [found] at ok
    cases ok
  | some this =>
    rw [found] at ok
    dsimp only at ok
    split at ok
    · cases ok
    · rename_i unskipped
      have split : (body.newLocal "$serial" .int).2.instructions.splitAt
          (body.newLocal "$serial" .int).2.bindingCount = (body.bindings, body.unbound) :=
        splitAt_bindingCount body
      rw [split] at ok
      cases ok
      exact ⟨this, _, rfl, rfl, unskipped, rfl⟩

theorem assignSerial_woven
    (stocked : session.Stocked counter sink)
    (woven : original.Woven counter sink session.program.offers constructs body)
    (first : original.BindsFirst)
    (construction : constructs)
    {id : MethodId}
    {changed : Bool}
    (ends : Draft.Ends (assignSerial pass method id) body session changed bodyAfter sessionAfter) :
    Draft.Weaves counter sink constructs original session bodyAfter sessionAfter := by
  unfold assignSerial at ends
  simp only [Draft.Ends.bind_iff, Draft.Ends.session_iff] at ends
  obtain ⟨_, _, _, ⟨rfl, rfl, rfl⟩, ends⟩ := ends
  split at ends
  · obtain ⟨-, rfl, rfl⟩ := Draft.Ends.pure_iff.1 ends
    exact ⟨stocked, .refl _, woven⟩
  · rename_i profile known
    simp only [Draft.Ends.bind_iff, Draft.Ends.body_iff, Draft.Ends.lift_iff,
      Transform.ends_ofDefect] at ends
    obtain ⟨_, _, _, ⟨rfl, rfl, rfl⟩, outcome, _, _, ⟨⟨patches, rfl⟩, rfl⟩, ends⟩ := ends
    cases outcome with
    | error skip =>
      obtain ⟨-, rfl, rfl⟩ := Draft.Ends.pure_iff.1 ends
      exact ⟨stocked, .refl _, woven⟩
    | ok patched =>
      simp only [Draft.Ends.bind_iff, Draft.Ends.set_iff, Draft.Ends.pure_iff] at ends
      obtain ⟨_, _, _, ⟨rfl, rfl⟩, _, _, _, records, -, rfl, rfl⟩ := ends
      obtain ⟨stockedAfter, grows, rfl⟩ := record_stocked stocked records
      rw [stocked.reports] at patches
      obtain ⟨this, declaration, received, -, -, rfl⟩ := patchConstructor_eq_ok patches
      have usable := stocked.profiles _ profile known
      have opened :=
        woven.open_serial declaration first construction received usable.staticCounter usable.serial
      exact ⟨stockedAfter, grows, opened.mono grows.program.offers⟩

end Draft
end AccessProfiler
