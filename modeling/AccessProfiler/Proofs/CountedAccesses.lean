import AccessProfiler.Pipeline
import AccessProfiler.Proofs.CountingSteps
import AccessProfiler.Proofs.InsertedCalls
import AccessProfiler.Proofs.Success

/-!
# Accesses that are counted

Whether an access to a field counts for the object is decided by the field and by the class that declares
it (`Session.qualifies`).  In front of an assignment stands one call for its left side and then one for
its right side, as far as they qualify, and the journal has an event for each side of which this had to be
decided.  Nothing else happens to the body or to the session (`Pass.countFields_inserts`).
-/

namespace AccessProfiler

namespace Session

/-- The access counts: it is one to an instance field that counting did not add, and the class that
declares the field was instrumented. -/
def qualifies (session : Session) : Expression → Bool
  | .instanceField _ field =>
    !isInstrumentationName field.name &&
      (session.profiles.get? (session.declaringClass field)).isSome
  | _ => false

/-- The access does not count only because the class that declares the field was not instrumented. -/
def lacksProfile (session : Session) : Expression → Bool
  | .instanceField _ field =>
    !isInstrumentationName field.name &&
      (session.profiles.get? (session.declaringClass field)).isNone
  | _ => false

/-- The calls that one side of an assignment asks for. -/
inductive CountsSide (session : Session) (access : Access) : Expression → List Instruction → Prop
  | qualified {base : LocalId} {field : FieldRef} {profile : Profile}
      (ordinary : isInstrumentationName field.name = false)
      (profiled : session.profiles.get? (session.declaringClass field) = some profile) :
      CountsSide session access (.instanceField base field)
        [.invoke ⟨profile.callKind, profile.incrementor access, some base, []⟩]
  | unqualified {expression : Expression} (passed : session.qualifies expression = false) :
      CountsSide session access expression []

/-- The calls that an instruction asks for: those for what an assignment writes, then those for what it
reads. -/
inductive CountsBefore (session : Session) : Instruction → List Instruction → Prop
  | assignment {place value : Expression} {writes reads : List Instruction}
      (written : session.CountsSide .write place writes)
      (read : session.CountsSide .read value reads) :
      CountsBefore session (.assign place value) (writes ++ reads)
  | other {instruction : Instruction} (none : ∀ place value, instruction ≠ .assign place value) :
      CountsBefore session instruction []

/-- After the accesses of a body to instance fields were counted. -/
structure CountsAccesses
    (session : Session)
    (body : Body)
    (changed : Bool)
    (bodyAfter : Body)
    (after : Session) : Prop where
  locals : bodyAfter.locals = body.locals
  inserted :
    ∃ insertions, Insertion.bare insertions = body.instructions ∧
      Insertion.full insertions = bodyAfter.instructions ∧
      (Insertion.batch insertions).apply body = .ok bodyAfter ∧
      (∀ insertion ∈ insertions, session.CountsBefore insertion.instruction insertion.calls) ∧
      (changed = true ↔ ∃ insertion ∈ insertions, insertion.calls ≠ [])
  others : after = { session with journal := after.journal }
  counted :
    after.journal.count .fieldAccessInstrumented =
      session.journal.count .fieldAccessInstrumented +
        (body.instructions.flatMap Instruction.expressions).countP session.qualifies
  missing :
    after.journal.count .skippedMissingMetadata =
      session.journal.count .skippedMissingMetadata +
        (body.instructions.flatMap Instruction.expressions).countP session.lacksProfile

end Session

namespace FieldCount

variable {session : Session} {access : Access} {method : String} {index : Nat}

/-- What the count of one side comes to is what the side asks for. -/
theorem countsSide (session : Session) (access : Access) (expression : Expression) :
    session.CountsSide access expression (FieldCount.of session access expression).call?.toList := by
  cases expression with
  | instanceField base field =>
    rw [FieldCount.of]
    cases ordinary : isInstrumentationName field.name with
    | true => exact .unqualified (by simp [Session.qualifies, ordinary])
    | false =>
      dsimp only
      cases profiled : session.profiles.get? (session.declaringClass field) with
      | some profile => exact .qualified ordinary profiled
      | none => exact .unqualified (by simp [Session.qualifies, profiled])
  | _ => exact .unqualified rfl

theorem countsBefore (session : Session) (instruction : Instruction) :
    session.CountsBefore instruction (calls session instruction) := by
  cases instruction with
  | assign place value =>
    have sides : calls session (.assign place value) =
        (FieldCount.of session .write place).call?.toList ++
          (FieldCount.of session .read value).call?.toList := by
      cases written : (FieldCount.of session .write place).call? <;>
        cases read : (FieldCount.of session .read value).call? <;>
          simp [calls, ofInstruction, written, read]
    rw [sides]
    exact .assignment (countsSide session .write place) (countsSide session .read value)
  | _ => exact .other fun _ _ same => by cases same

/-- There is one event for a side that qualifies, and it says that a call was inserted. -/
theorem countP_event?_counted (expression : Expression) :
    ((FieldCount.of session access expression).event? access method index).toList.countP
        (fun event => event.kind = .fieldAccessInstrumented) =
      [expression].countP session.qualifies := by
  cases expression with
  | instanceField base field =>
    rw [FieldCount.of]
    cases ordinary : isInstrumentationName field.name <;>
      cases profiled : session.profiles.get? (session.declaringClass field) <;>
        simp [Session.qualifies, event?, Event.located, ordinary, profiled]
  | _ => rfl

theorem countP_event?_unprofiled (expression : Expression) :
    ((FieldCount.of session access expression).event? access method index).toList.countP
        (fun event => event.kind = .skippedMissingMetadata) =
      [expression].countP session.lacksProfile := by
  cases expression with
  | instanceField base field =>
    rw [FieldCount.of]
    cases ordinary : isInstrumentationName field.name <;>
      cases profiled : session.profiles.get? (session.declaringClass field) <;>
        simp [Session.lacksProfile, event?, Event.located, ordinary, profiled]
  | _ => rfl

/-- What can be said of the events of every side can be said of the events of a method. -/
theorem countP_events
    {kind : EventKind}
    {decides : Expression → Bool}
    (ofSide :
      ∀ (access : Access) (index : Nat) (expression : Expression),
        ((FieldCount.of session access expression).event? access method index).toList.countP
            (fun event => event.kind = kind) =
          [expression].countP decides)
    (passes : ∀ target, decides (.call target) = false)
    (instructions : List Instruction) :
    (events session method instructions).countP (fun event => event.kind = kind) =
      (instructions.flatMap Instruction.expressions).countP decides := by
  have ofInstruction (instruction : Instruction) (index : Nat) :
      ((ofInstruction session instruction).filterMap
            fun entry => entry.2.event? entry.1 method index).countP
          (fun event => event.kind = kind) =
        instruction.expressions.countP decides := by
    cases instruction with
    | assign place value =>
      have sides (first second : Option Event) :
          [first, second].filterMap id = first.toList ++ second.toList := by
        cases first <;> cases second <;> rfl
      have listed :=
        sides ((FieldCount.of session .write place).event? .write method index)
          ((FieldCount.of session .read value).event? .read method index)
      simp only [FieldCount.ofInstruction, List.filterMap_cons, List.filterMap_nil, id] at listed ⊢
      rw [listed, List.countP_append, ofSide, ofSide, ← List.countP_append]
      rfl
    | invoke target => simp [FieldCount.ofInstruction, Instruction.expressions, passes]
    | _ => rfl
  rw [events, List.countP_flatMap, List.countP_flatMap]
  conv_rhs => rw [← List.zipIdx_map_fst 0 instructions, List.map_map]
  exact congrArg List.sum (List.map_congr_left fun entry _ => ofInstruction entry.1 entry.2)

end FieldCount

namespace Draft

variable {body : Body} {session : Session} {pass method : String}

/-- Events are recorded one after the other, and nothing else happens. -/
theorem ends_records (events : List Event) :
    Draft.Ends (events.forM fun event => record (event.recordedBy pass)) body session () body
      { session with
        journal := session.journal ++ events.map fun event => event.recordedBy pass } := by
  induction events generalizing session with
  | nil =>
    rw [List.map_nil, List.append_nil]
    exact Draft.Ends.pure_iff.2 ⟨rfl, rfl, rfl⟩
  | cons event rest hypothesis =>
    rw [List.map_cons, List.append_cons]
    exact Draft.Ends.bind_iff.2 ⟨(), body, _, Draft.Ends.record_iff.2 ⟨rfl, rfl⟩, hypothesis⟩

/-- The calls and the events of a body are known beforehand. -/
theorem ends_countFieldAccesses :
    Draft.Ends (countFieldAccesses pass method) body session
      (body.instructions.any fun instruction => !(FieldCount.calls session instruction).isEmpty)
      { body with
        instructions :=
          body.instructions.flatMap fun instruction =>
            FieldCount.calls session instruction ++ [instruction] }
      { session with
        journal :=
          session.journal ++
            (FieldCount.events session method body.instructions).map
              fun event => event.recordedBy pass } := by
  unfold countFieldAccesses
  rw [Draft.Ends.session_bind_iff, Draft.Ends.body_bind_iff]
  refine Draft.Ends.bind_iff.2 ⟨(), _, _, ends_records _, ?_⟩
  refine Draft.Ends.bind_iff.2 ⟨(), _, _, Draft.Ends.setInstructions_iff.2 ⟨rfl, rfl⟩, ?_⟩
  exact Draft.Ends.pure_iff.2 ⟨rfl, rfl, rfl⟩

end Draft

/-- Which pass records an event does not change what it is about. -/
theorem Journal.count_append_recordedBy
    (journal : Journal)
    (events : List Event)
    (pass : String)
    (kind : EventKind) :
    Journal.count (journal ++ events.map fun event => event.recordedBy pass) kind =
      journal.count kind + events.countP fun event => event.kind = kind := by
  rw [Journal.count, List.countP_append, List.countP_map]
  rfl

/-- The calls that count accesses to instance fields are inserted, and nothing else happens. -/
theorem Pass.countFields_inserts (id : MethodId) (body : Body) (session : Session) :
    ∃ changed bodyAfter after,
      Draft.Ends (Pass.onBody .countFields id) body session changed bodyAfter after ∧
        session.CountsAccesses body changed bodyAfter after := by
  let insertions : List Insertion :=
    body.instructions.map fun instruction => ⟨FieldCount.calls session instruction, instruction⟩
  have bare : Insertion.bare insertions = body.instructions := by
    simp [insertions, Insertion.bare, Function.comp_def]
  have full : Insertion.full insertions =
      body.instructions.flatMap fun instruction =>
        FieldCount.calls session instruction ++ [instruction] := by
    rw [Insertion.full, List.flatMap_map]
  refine ⟨_, _, _, Draft.Ends.session_bind_iff.2 Draft.ends_countFieldAccesses, ?_⟩
  refine
    { locals := rfl
      inserted := ⟨insertions, bare, full, ?_, ?_, ?_⟩
      others := rfl
      counted := ?_
      missing := ?_ }
  · rw [Insertion.apply_batch bare.symm, full]
  · intro insertion member
    obtain ⟨instruction, -, rfl⟩ := List.mem_map.1 member
    exact FieldCount.countsBefore session instruction
  · simp [insertions]
  · rw [Journal.count_append_recordedBy]
    exact congrArg _ (FieldCount.countP_events
      (fun _ _ expression => FieldCount.countP_event?_counted expression) (fun _ => rfl) _)
  · rw [Journal.count_append_recordedBy]
    exact congrArg _ (FieldCount.countP_events
      (fun _ _ expression => FieldCount.countP_event?_unprofiled expression) (fun _ => rfl) _)

end AccessProfiler
