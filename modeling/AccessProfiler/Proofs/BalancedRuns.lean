import AccessProfiler.Proofs.ConstructorRuns

/-!
# Runs in balance

Bodies that are no constructors are calm, and constructors give their receivers what they owe them.  So
by induction over the levels every call is in balance, and a run from outside gives each object as many
numbers as it is owed (`Run.entryStep_balanced`).
-/

namespace AccessProfiler.Run

variable
    {watched : Numbering}
    {settings : Settings}
    {session : Session}
    {world : World}
    {callees : Callees}
    {logs : Logs}
    {actor : Activation}
    {receiver : Option Datum}
    {arguments locals : List Datum}
    {before after : Machine}
    {value : Datum}

/-- What does not construct the object only has to leave serial numbers alone and to call constructors as
such. -/
theorem calm_of_builds_false
    {instruction : Instruction}
    (apart : actor.builds watched.original watched.slot = false)
    (fields :
      ∀ base field value, instruction = .assign (.instanceField base field) value →
        field.name ≠ serialField)
    (special :
      ∀ target ∈ instruction.call?, target.method.name = constructorName →
        target.kind = .special ∨ target.receiver = none) :
    instruction.Calm watched actor :=
  ⟨fields, special, fun builds => absurd (apart.symm.trans builds) Bool.false_ne_true⟩

section Bodies

variable
    (runs : world.RunsCounted settings watched.original session)
    (once : watched.original.ConstructsOnce)
include runs once

/-- Bodies that are no constructors are calm. -/
theorem calm_of_not_isConstructor
    (other : watched.original.isConstructor actor.method = false)
    {entered : Body}
    (found : session.program.body? actor.method = some entered) :
    ∀ instruction ∈ entered.instructions, instruction.Calm watched actor := by
  have apart : actor.builds watched.original watched.slot = false := by
    rw [Activation.builds, other, Bool.false_and]
  have reports (label : String) (operand : Operand) :
      (settings.sink.report label operand).Calm watched actor :=
    calm_of_builds_false apart (by rintro _ _ _ ⟨⟩) (by
      rintro _ ⟨⟩ -
      exact .inr rfl)
  have silent {place expression : Expression} (fields : ∀ base field, place ≠ .instanceField base field)
      (calls : (Instruction.assign place expression).call? = none) :
      (Instruction.assign place expression).Calm watched actor := by
    refine Instruction.calm_of_silent (fun base field value same => ?_) calls
    cases same
    exact fields base field rfl
  obtain ⟨current, there, given⟩ := Option.bind_eq_some_iff.1 found
  rcases runs.completes.method?_cases there with
    ⟨-, key, label, owner, field, -, -, rfl⟩ |
      ⟨-, ⟨method, has, related⟩ | ⟨profile, owned, added, member, related⟩⟩
  · obtain rfl := Option.some.inj given
    simp only [Profile.staticIncrementorBody, Profile.increment, List.mem_cons, List.not_mem_nil,
      or_false]
    rintro _ (rfl | rfl | rfl | rfl | rfl)
    · exact silent (by rintro _ _ ⟨⟩) rfl
    · exact silent (by rintro _ _ ⟨⟩) rfl
    · exact silent (by rintro _ _ ⟨⟩) rfl
    · exact reports _ _
    · exact Instruction.calm_of_silent (by rintro _ _ _ ⟨⟩) rfl
  · obtain ⟨body, bodied, tallied⟩ := runs.completes.exists_rewritten related given
    have present : watched.original.body? actor.method = some body :=
      Option.bind_eq_some_iff.2 ⟨method, has, bodied⟩
    have listed := Program.mem_bodies_of_body? present
    rw [Session.patching_of_not_isConstructor
      (Session.withProfiles settings watched.original session.profiles) body other] at tallied
    intro instruction among
    rcases tallied.mem_or_tally among with original | calls
    · exact Instruction.calm_of_plain (runs.accountable.apart.instruction_plain listed original)
        (once.special body listed instruction original)
        fun builds => absurd (apart.symm.trans builds) Bool.false_ne_true
    · exact calls.calm
  · have bodies := related.body
    rw [given] at bodies
    obtain ⟨counterField, serial, differs, body⟩ :
        ∃ counterField serial, counterField.name ≠ serialField ∧
          added.body =
            some (Profile.incrementorBody settings.sink profile.className counterField serial) := by
      obtain ⟨static, rfl⟩ := runs.profiled _ _ owned
      simp only [Profile.methods, List.mem_cons, List.not_mem_nil, or_false] at member
      rcases member with rfl | rfl
      · exact ⟨_, _, show readsField ≠ serialField by decide, rfl⟩
      · exact ⟨_, _, show writesField ≠ serialField by decide, rfl⟩
    rw [body] at bodies
    cases bodies with
    | some tallied =>
      intro instruction among
      rcases tallied.instructions.mem_or_tally among with counts | tally
      · simp only [Profile.incrementorBody, Profile.increment, List.mem_cons, List.not_mem_nil,
          or_false] at counts
        rcases counts with rfl | rfl | rfl | rfl | rfl | rfl | rfl | rfl
        · exact Instruction.calm_of_silent (by rintro _ _ _ ⟨⟩) rfl
        · exact silent (by rintro _ _ ⟨⟩) rfl
        · exact silent (by rintro _ _ ⟨⟩) rfl
        · refine calm_of_builds_false apart ?_ ?_
          · rintro _ _ _ ⟨⟩
            exact differs
          · rintro _ ⟨⟩
        · exact silent (by rintro _ _ ⟨⟩) rfl
        · exact reports _ _
        · exact reports _ _
        · exact Instruction.calm_of_silent (by rintro _ _ _ ⟨⟩) rfl
      · exact (runs.completes.callsMethod_of_tally tally).calm

variable (current : watched.current = session.program)
include current

/-- The superclasses of the class come to an end if a constructor of it that is called does. -/
theorem invokeStep_founded
    (balances : callees.Balances watched logs)
    {method : MethodRef}
    (ends : Ends (invokeStep world callees .special method receiver arguments) before value after)
    (named : method.name = constructorName)
    {id : MethodId}
    (leads : target? watched.current method.owner method = some id) :
    watched.original.Founded id.owner := by
  rcases ends_invokeStep.1 ends with ⟨sinks, -⟩ | ⟨-, -, start, started, starts, reaches⟩
  · have free : watched.current.class? method.owner = none := by
      rw [current, sinks.1, runs.sinks]
      exact runs.completes.furnishes.furnished.class?_eq_none runs.accountable.sinkApart
        runs.accountable.sinkFree
    rw [Program.target?_of_unregistered free] at leads
    cases leads
  · have atOwner : start = method.owner := starts.cases.1
    rw [current] at leads
    rw [atOwner, runs.same, leads] at reaches
    obtain ⟨entered, inner, found, -, ran, -⟩ := ends_enter.1 reaches
    obtain ⟨declared, there, same, -⟩ := Program.target?_eq_some leads
    have constructs := runs.completes.isConstructor_eq runs.accountable.apart.unregistered there
    rw [same, beq_iff_eq.2 named] at constructs
    exact constructor_founded ⟨id, receiver⟩ runs once constructs (runs.same ▸ found) current
      balances ran

variable (known : (session.profiles.get? watched.className).isSome)
include known

variable (actor) in
/-- A body gives its receiver what a constructor of its class owes it, if it is one. -/
theorem body_balances
    (balances : callees.Balances watched logs)
    {entered : Body}
    (found : session.program.body? actor.method = some entered)
    (ends :
      Ends (instructions world callees actor.receiver arguments locals entered.instructions) before value
        after)
    (direct :
      watched.AllDirect
        (instructionsLog world callees logs actor arguments locals before entered.instructions)) :
    watched.given (instructionsLog world callees logs actor arguments locals before entered.instructions) =
      watched.owed
          (instructionsLog world callees logs actor arguments locals before entered.instructions) +
        if watched.original.isConstructor actor.method then
          watched.share actor.receiver actor.method.owner
        else 0 := by
  by_cases constructor : watched.original.isConstructor actor.method = true
  · rw [if_pos constructor]
    exact constructor_gives runs once constructor found current balances ends known direct
  · rw [if_neg constructor, Nat.add_zero]
    obtain ⟨changed, between, passes, -, -⟩ := passes_of_ends logs ends
    have calm := calm_of_not_isConstructor runs once (Bool.eq_false_iff.2 constructor) found
    exact passes.balanced balances
      (fun instruction member => calm instruction (mem_of_mem_reached member)) direct

/-- The same for a method that is entered. -/
theorem enter_balances
    (balances : callees.Balances watched logs)
    {id : MethodId}
    {method : MethodRef}
    (ends : Ends (enter world callees id method receiver arguments) before value after)
    (direct : watched.AllDirect (enterLog world callees logs ⟨id, receiver⟩ arguments before)) :
    watched.given (enterLog world callees logs ⟨id, receiver⟩ arguments before) =
      watched.owed (enterLog world callees logs ⟨id, receiver⟩ arguments before) +
        if watched.original.isConstructor id then watched.share receiver id.owner else 0 := by
  obtain ⟨entered, inner, found, -, ran, -⟩ := ends_enter.1 ends
  rw [enterLog_of_body? found] at direct ⊢
  exact body_balances ⟨id, receiver⟩ runs once current known balances (runs.same ▸ found) ran
    direct

/-- One call is in balance. -/
theorem invokeStep_balances
    (balances : callees.Balances watched logs)
    {kind : CallKind}
    {method : MethodRef}
    (ends : Ends (invokeStep world callees kind method receiver arguments) before value after)
    (direct : watched.AllDirect (invokeLog world callees logs kind method receiver arguments before))
    (special : method.name = constructorName → kind = .special ∨ receiver = none) :
    watched.given (invokeLog world callees logs kind method receiver arguments before) =
      watched.owed (invokeLog world callees logs kind method receiver arguments before) +
        watched.due receiver method := by
  rcases ends_invokeStep.1 ends with
    ⟨sinks, -⟩ | ⟨elsewhere, -, start, started, starts, reaches⟩
  · have free : watched.current.class? method.owner = none := by
      rw [current, sinks.1, runs.sinks]
      exact runs.completes.furnishes.furnished.class?_eq_none runs.accountable.sinkApart
        runs.accountable.sinkFree
    rw [invokeLog_of_callsSink sinks,
      Numbering.due_of_target?_none (Program.target?_of_unregistered free)]
    rfl
  · rw [invokeLog_of_starts elsewhere starts] at direct ⊢
    have prepared : watched.Balanced (startLog logs kind method before) := by
      rcases starts.cases.2 with ⟨rfl, prepared⟩ | ⟨dynamic, -⟩
      · exact balances.prepare prepared direct.left
      · have nothing : startLog logs kind method before = [] := by
          cases kind <;> first | rfl | exact absurd rfl dynamic
        rw [nothing]
        exact .nil
    have atOwner (named : method.name = constructorName) : start = method.owner := by
      rw [starts.cases.1]
      rcases special named with rfl | rfl
      · rfl
      · cases kind <;> rfl
    have within : watched.current = world.program := current.trans runs.same.symm
    rw [Numbering.given_append, Numbering.owed_append, prepared]
    cases found : target? world.program start method with
    | none =>
      rw [found] at reaches
      obtain ⟨named, -⟩ := reaches
      rw [atOwner named, ← within] at found
      rw [Option.elim_none, Numbering.due_of_target?_none found]
      rfl
    | some id =>
      rw [found] at reaches direct
      rw [Option.elim_some] at direct ⊢
      obtain ⟨declared, there, named, -⟩ := Program.target?_eq_some found
      have constructs := runs.completes.isConstructor_eq runs.accountable.apart.unregistered
        (runs.same ▸ there)
      have due :
          watched.due receiver method =
            if watched.original.isConstructor id then watched.share receiver id.owner else 0 := by
        rw [constructs, named]
        by_cases constructor : method.name = constructorName
        · rw [atOwner constructor, ← within] at found
          rw [Numbering.due_eq_share constructor found, if_pos (beq_iff_eq.2 constructor)]
        · rw [if_neg (by simpa using constructor)]
          exact Numbering.due_of_not_leads fun leads => constructor leads.1
      rw [due, enter_balances runs once current known balances reaches direct.right, Nat.add_assoc]

/-- One initialization is in balance. -/
theorem prepareStep_balanced
    (balances : callees.Balances watched logs)
    {className : String}
    (ends : Ends (prepareStep world callees className) before () after)
    (direct : watched.AllDirect (prepareLog world callees logs className before)) :
    watched.Balanced (prepareLog world callees logs className before) := by
  rcases ends_prepareStep.1 ends with ⟨initialized, rfl⟩ | ⟨unknown, above, ready, initializes⟩
  · rw [prepareLog_of_initialized initialized]
    exact .nil
  · rw [prepareLog_of_initializesAbove unknown ready] at direct ⊢
    refine Numbering.Balanced.append ?_ ?_
    · have direct := direct.left
      rw [aboveLog] at direct ⊢
      cases found : world.program.superclass? className with
      | none => exact .nil
      | some superclass =>
        rw [found] at direct
        exact balances.prepare ((initializesAbove_of_some found).1 ready) direct
    · have direct := direct.right
      rw [initializerLog] at direct ⊢
      cases found : world.program.findMethod? className staticInitializerName [] with
      | none => exact .nil
      | some id =>
        rw [found] at direct
        dsimp only at direct ⊢
        cases bodied : world.program.body? id with
        | none =>
          rw [enterLog, bodied]
          exact .nil
        | some entered =>
          obtain ⟨value, entering⟩ := (initializes_of_body?_some found bodied).1 initializes
          have balance := enter_balances runs once current known balances entering direct
          obtain ⟨-, declared, there, named, -⟩ := Program.findMethod?_eq_some found
          have constructs := runs.completes.isConstructor_eq runs.accountable.apart.unregistered
            (runs.same ▸ there)
          rw [named, show (staticInitializerName == constructorName) = false by decide] at constructs
          rw [constructs, if_neg Bool.false_ne_true, Nat.add_zero] at balance
          exact balance

/-- Calls and initializations are in balance at every number of levels. -/
theorem within_balances (levels : Nat) :
    (Callees.within world levels).Balances watched (.within world levels) := by
  induction levels with
  | zero =>
    exact ⟨fun ends _ _ => absurd ends Ends.not_throw, fun ends _ => absurd ends Ends.not_throw,
      fun ends _ _ => absurd ends Ends.not_throw⟩
  | succ levels balances =>
    refine ⟨fun ends direct special => ?_, fun ends direct => ?_, fun ends named leads => ?_⟩
    · exact invokeStep_balances runs once current known balances ends direct special
    · exact prepareStep_balanced runs once current known balances ends direct
    · exact invokeStep_founded runs once current balances ends named leads

/-- A run from outside gives the object as many numbers as it is owed. -/
theorem entryStep_balanced
    (levels : Nat)
    {name : String}
    (ends : Ends (entryStep world (.within world levels) name) before value after)
    (direct : watched.AllDirect (entryLog world (.within world levels) name before)) :
    watched.Balanced (entryLog world (.within world levels) name before) := by
  obtain ⟨method, given, started, found, passed, called⟩ := ends_entryStep.1 ends
  rw [entryLog_of_started found passed] at direct ⊢
  have balance := (within_balances runs once current known levels).invoke called direct fun _ => .inr rfl
  rw [Numbering.due_none, Nat.add_zero] at balance
  exact balance

end Bodies
end AccessProfiler.Run
