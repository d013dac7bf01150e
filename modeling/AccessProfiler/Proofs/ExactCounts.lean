import AccessProfiler.Proofs.CountingCalls
import AccessProfiler.Proofs.Preservation

/-!
# Counts are exact

The calls that count stand in front of the assignment that makes the accesses, so that the account runs
ahead of what is done: between the calls and the assignment the accesses are on the account, but not yet
in the record.  For one side of an assignment this is `Run.side_announced`; the assignment makes up for
it (`Run.assignment_settles`), and so every body that the passes leave keeps the account
(`Run.planned_keeps`).  By induction over the levels, whole runs do
(`transformProgram_countsAccesses`).
-/

namespace AccessProfiler

/-- What the expression names is a field of the original program or the serial number, or a method that
counts no access. -/
def Expression.Tame (counter : String) (world : World) : Expression → Prop
  | .instanceField _ field => field.Plain counter ∨ field.name = serialField
  | .call target => target.Ordinary world.Ordinary
  | _ => True

/-- The same for the expressions of an instruction. -/
def Instruction.Tame (counter : String) (world : World) : Instruction → Prop
  | .assign place value => place.Tame counter world ∧ value.Tame counter world
  | .invoke target => target.Ordinary world.Ordinary
  | _ => True

namespace Session

variable (settings : Settings) (program : Program) (session : Session)

/-- The call that counts one side of an assignment of a method, if one was put in front. -/
def announcement (id : MethodId) (access : Access) (expression : Expression) : List Instruction :=
  if counts settings program id then
    (FieldCount.of (withProfiles settings program session.profiles) access expression).call?.toList
  else []

/-- The calls in front of an instruction of a method. -/
def announcements (id : MethodId) : Instruction → List Instruction
  | .assign place value =>
    session.announcement settings program id .write place ++
      session.announcement settings program id .read value
  | _ => []

/-- The calls in front of an instruction are those that the pass puts there, in methods that are
counted. -/
theorem announcements_eq (id : MethodId) (instruction : Instruction) :
    session.announcements settings program id instruction =
      if counts settings program id then
        FieldCount.calls (withProfiles settings program session.profiles) instruction
      else [] := by
  cases instruction with
  | assign place value =>
    rw [announcements, announcement, announcement, FieldCount.calls, FieldCount.ofInstruction,
      List.filterMap_cons, List.filterMap_cons, List.filterMap_nil]
    cases counts settings program id with
    | false => rfl
    | true =>
      cases (FieldCount.of (withProfiles settings program session.profiles) .write place).call? <;>
        cases (FieldCount.of (withProfiles settings program session.profiles) .read value).call? <;> rfl
  | _ => exact (ite_self _).symm

/-- The plan puts the calls in front of the instructions of patched bodies. -/
theorem planned_instructions (id : MethodId) (body : Body) :
    (planned settings program session id body).instructions =
      ((withProfiles settings program session.profiles).patching id body).instructions.flatMap
        fun instruction => session.announcements settings program id instruction ++ [instruction] := by
  rw [planned, counting, Plan.choose]
  split
  · rename_i counted
    exact List.flatMap_congr fun instruction _ => by rw [announcements_eq, if_pos counted]
  · rename_i uncounted
    simp [announcements_eq, uncounted]

/-- Nothing is counted in front of a silent instruction. -/
theorem announcements_of_silent
    (id : MethodId)
    {instruction : Instruction}
    (silent : instruction.Silent) :
    session.announcements settings program id instruction = [] := by
  rw [announcements_eq, FieldCount.calls_of_silent silent, ite_self]

theorem flatMap_announcements_of_silent
    (id : MethodId)
    {list : List Instruction}
    (silent : ∀ instruction ∈ list, instruction.Silent) :
    (list.flatMap fun instruction =>
      session.announcements settings program id instruction ++ [instruction]) = list := by
  have alone :
      (list.flatMap fun instruction =>
        session.announcements settings program id instruction ++ [instruction]) =
        list.flatMap fun instruction => [instruction] :=
    List.flatMap_congr fun instruction member => by
      rw [announcements_of_silent settings program session id (silent instruction member),
        List.nil_append]
  rw [alone, List.flatMap_singleton']

/-- What is put in front is a call that counts an access. -/
theorem exists_of_mem_announcements
    (profiled :
      ∀ name profile, session.profiles.get? name = some profile → ∃ field, profile = .ofClass name field)
    {id : MethodId}
    {instruction call : Instruction}
    (member : call ∈ session.announcements settings program id instruction) :
    ∃ owner access base,
      call = .invoke ⟨.virtual, ⟨owner, Access.incrementor access, [], .void⟩, some base, []⟩ := by
  rw [announcements_eq] at member
  split at member
  · obtain ⟨base, field, profile, access, -, known, rfl⟩ := FieldCount.exists_of_mem_calls member
    obtain ⟨static, rfl⟩ := profiled _ _ known
    exact ⟨_, access, base, by cases access <;> rfl⟩
  · cases member

end Session

namespace Run

variable
    {settings : Settings}
    {program : Program}
    {session : Session}
    {world : World}
    {callees : Callees}
    {logs : Logs}
    {actor : Activation}
    {arguments locals changed : List Datum}
    {before between after stored : Machine}
    {value computed : Datum}
    {past : List Act}

/-- The access that an expression is, if it is one to a field of an object. -/
def accessOf
    (world : World)
    (actor : Activation)
    (access : Access)
    (locals : List Datum) : Expression → List Act
  | .instanceField base field => accessLog world actor access locals base field
  | _ => []

/-- The calls in front of an instruction are made; what they do is in the record and on the account. -/
theorem first_passes
    (runs : world.RunsCounted settings program session)
    (accounts : callees.Accounts settings program session world logs)
    {instruction : Instruction}
    {rest longer : List Instruction}
    (tallied :
      Tallied (session.program.Tally settings.counterClassName) (instruction :: rest) longer)
    (holds : (session.accessAccount settings program).On past before)
    (ends :
      Ends (instructions world callees actor.receiver arguments locals longer) before value after) :
    ∃ quiet between others,
      Tallied (session.program.Tally settings.counterClassName) rest others ∧
        Continues world callees actor.receiver arguments locals others (counted between) value after
          instruction ∧
        instructionsLog world callees logs actor arguments locals before longer =
          quiet ++
            instructionsLog world callees logs actor arguments locals between
              (instruction :: others) ∧
        (session.accessAccount settings program).On (past ++ quiet) (counted between) := by
  obtain ⟨calls, others, rfl, tallies, later⟩ := tallied.first
  obtain ⟨quiet, between, ends, logged, reached, -, -⟩ :=
    tallies_pass runs accounts tallies holds ends
  exact ⟨quiet, between, others, later, (ends_instructions_cons.1 ends).2, logged, reached⟩

/-- The class that declares a field of the original program is the one whose profile counted. -/
theorem owner_declaredField
    (runs : world.RunsCounted settings program session)
    {field : FieldRef}
    (plain : field.Plain settings.counterClassName) :
    (declaredField world.program field).owner =
      (Session.withProfiles settings program session.profiles).declaringClass field := by
  have same : world.program.resolveField? field.owner field.name =
      program.resolveField? field.owner field.name := by
    rw [runs.same]
    exact runs.completes.furnishes.furnished.resolveField?_eq runs.accountable.apart plain.1 plain.2
  have original : (Session.withProfiles settings program session.profiles).program = program := rfl
  rw [declaredField, same, Session.declaringClass, original]
  cases program.resolveField? field.owner field.name <;> rfl

/-- What becomes of one side of an assignment: it is an access that is counted by the call in front of
it, or nothing stands in front and nothing is counted. -/
theorem announcement_cases
    (runs : world.RunsCounted settings program session)
    (actor : Activation)
    (locals : List Datum)
    (access : Access)
    {expression : Expression}
    (tame : expression.Tame settings.counterClassName world) :
    (session.announcement settings program actor.method access expression = [] ∧
      ∀ act ∈ accessOf world actor access locals expression,
        session.Uncounted settings program act) ∨
    ∃ base field owner, expression = .instanceField base field ∧
      (session.profiles.get? owner).isSome ∧
      session.announcement settings program actor.method access expression =
        [.invoke ⟨.virtual, ⟨owner, access.incrementor, [], .void⟩, some base, []⟩] ∧
      ∀ slot, session.CountsAs settings program access slot
        (.accesses actor access slot (declaredField world.program field)) := by
  cases expression with
  | instanceField base field =>
    by_cases counted : Session.counts settings program actor.method = true
    swap
    · refine .inl ⟨if_neg counted, fun act member kind place => ?_⟩
      obtain ⟨slot, -, rfl⟩ := exists_of_mem_accessLog member
      simp [Session.countsFor, counted]
    rcases tame with plain | serial
    swap
    · have instruments : isInstrumentationName field.name = true := by rw [serial]; decide
      refine .inl ⟨?_, accessLog_uncounted instruments⟩
      rw [Session.announcement, if_pos counted, FieldCount.of, if_pos instruments]
      rfl
    have named : isInstrumentationName (declaredField world.program field).name = false := by
      rw [declaredField_name]
      exact plain.2
    have owner := owner_declaredField runs plain
    have apart : ¬ isInstrumentationName field.name = true := by
      rw [plain.2]
      exact Bool.false_ne_true
    rw [Session.announcement, if_pos counted, FieldCount.of, if_neg apart]
    dsimp only
    cases known : session.profiles.get? (declaredField world.program field).owner with
    | none =>
      have unknown :
          (Session.withProfiles settings program session.profiles).profiles.get?
            ((Session.withProfiles settings program session.profiles).declaringClass field) = none :=
        owner ▸ known
      rw [unknown]
      refine .inl ⟨rfl, fun act member kind place => ?_⟩
      obtain ⟨slot, -, rfl⟩ := exists_of_mem_accessLog member
      simp [Session.countsFor, known]
    | some profile =>
      have there :
          (Session.withProfiles settings program session.profiles).profiles.get?
            ((Session.withProfiles settings program session.profiles).declaringClass field) =
              some profile :=
        owner ▸ known
      obtain ⟨static, -, rfl⟩ := runs.completes.furnishes.ledger.profiles _ _ known
      rw [there]
      refine .inr ⟨base, field, (declaredField world.program field).owner, rfl, ?_, ?_, ?_⟩
      · rw [known]
        rfl
      · cases access <;> rfl
      · intro slot kind place
        simp [Session.countsFor, counted, known, named]
  | _ =>
    refine .inl ⟨?_, fun act member => absurd member List.not_mem_nil⟩
    rw [Session.announcement]
    split <;> rfl

/-- After the call in front of it, one side of an assignment is on the account. -/
theorem side_announced
    (runs : world.RunsCounted settings program session)
    (accounts : callees.Accounts settings program session world logs)
    (counts : callees.Counts settings program session logs)
    (access : Access)
    {expression : Expression}
    (tame : expression.Tame settings.counterClassName world)
    {rest longer : List Instruction}
    (tallied :
      Tallied (session.program.Tally settings.counterClassName)
        (session.announcement settings program actor.method access expression ++ rest) longer)
    (holds : (session.accessAccount settings program).On past before)
    (ends :
      Ends (instructions world callees actor.receiver arguments locals longer) before value after) :
    ∃ quiet between others,
      Tallied (session.program.Tally settings.counterClassName) rest others ∧
        Ends (instructions world callees actor.receiver arguments locals others) between value after ∧
        instructionsLog world callees logs actor arguments locals before longer =
          quiet ++ instructionsLog world callees logs actor arguments locals between others ∧
        (session.accessAccount settings program).On
          (past ++ quiet ++ accessOf world actor access locals expression) between := by
  rcases announcement_cases runs actor locals access tame with
    ⟨nothing, uncounted⟩ | ⟨base, field, owner, rfl, profiled, announces, countsAs⟩
  · rw [nothing] at tallied
    refine ⟨[], before, longer, tallied, ends, rfl, ?_⟩
    rw [List.append_nil]
    exact (Session.HoldsCounts.append_iff uncounted).2 holds
  · rw [announces] at tallied
    obtain ⟨quiet, between, others, later,
      ⟨result, machine, ⟨receiver, given, received, evaluated, called⟩, ends⟩, logged, reached⟩ :=
      first_passes runs accounts tallied holds ends
    let target : Call := ⟨.virtual, ⟨owner, access.incrementor, [], .void⟩, some base, []⟩
    have evaluates : Evaluates world callees locals (counted between) result machine (.call target) :=
      ⟨receiver, given, received, evaluated, called⟩
    obtain ⟨slot, rfl, accounted⟩ :=
      counts profiled (Session.accessAccount_tolerates.calls actor target receiver reached) called
    have refers : locals[base.index]? = some (.reference slot) := by
      obtain ⟨datum, located, equal⟩ := Option.map_eq_some_iff.1 received
      cases equal
      exact located
    refine ⟨quiet ++ callLog logs actor locals target (counted between), machine, others, later, ends,
      ?_, ?_⟩
    · rw [logged, instructionsLog_invoke evaluates, List.append_assoc]
    · have now := accounted (countsAs slot)
      rw [callLog_of_evaluated received evaluated, accessOf, accessLog_of_reference refers]
      simpa only [List.append_assoc, List.cons_append, List.nil_append] using now

/-- What was on the account before is in the record after the assignment. -/
theorem assignment_settles
    (accounts : callees.Accounts settings program session world logs)
    {place expression : Expression}
    (tame :
      place.Tame settings.counterClassName world ∧ expression.Tame settings.counterClassName world)
    (holds :
      (session.accessAccount settings program).On
        (past ++ accessOf world actor .write locals place ++
          accessOf world actor .read locals expression)
        before)
    (evaluates : Evaluates world callees locals before computed between expression)
    (stores : Stores world callees locals computed between changed stored place) :
    (session.accessAccount settings program).On
      (past ++ valueLog world logs actor locals before expression ++
        placeLog world logs actor locals between place)
      stored := by
  have valued :
      (session.accessAccount settings program).On
        (past ++ valueLog world logs actor locals before expression ++
          accessOf world actor .write locals place)
        between := by
    have other
        (none : accessOf world actor .read locals expression = [])
        (harmless :
          expression.Harmless (session.accessAccount settings program) world.Ordinary world.program
            actor) :
        (session.accessAccount settings program).On
          (past ++ valueLog world logs actor locals before expression ++
            accessOf world actor .write locals place)
          between := by
      rw [none, List.append_nil] at holds
      exact (evaluates.keeps Session.accessAccount_tolerates accounts.keeps harmless holds).swap
    cases expression with
    | instanceField base field =>
      obtain ⟨slot, refers, -, rfl⟩ := evaluates
      exact Session.HoldsCounts.swap holds
    | call target => exact other rfl tame.2
    | _ => exact other rfl trivial
  have other
      (none : accessOf world actor .write locals place = [])
      (harmless :
        place.HarmlessPlace (session.accessAccount settings program)
          (fun field => ∀ access : Access, field.name ≠ access.countField) (fun _ => True)
          world.program actor) :
      (session.accessAccount settings program).On
        (past ++ valueLog world logs actor locals before expression ++
          placeLog world logs actor locals between place)
        stored := by
    rw [none, List.append_nil] at valued
    exact stores.keeps Session.accessAccount_tolerates accounts.keeps harmless valued
  cases place with
  | instanceField base field =>
    obtain ⟨slot, heap, refers, written, -, rfl⟩ := stores
    obtain ⟨className, fields, located, rfl⟩ := Heap.writeField_eq_ok.1 written
    refine Session.accessAccount_tolerates.write computed (fun access => ?_) located valued
    rw [declaredField_name]
    rcases tame.1 with plain | serial
    · exact access.ne_countField_of_plain plain.2
    · rw [serial]
      cases access <;> decide
  | «variable» target => exact other rfl trivial
  | staticField field => exact other rfl trivial
  | element base index => exact other rfl trivial
  | _ => exact stores.elim

/-- A body with its calls that count keeps the account. -/
theorem planned_keeps
    (runs : world.RunsCounted settings program session)
    (accounts : callees.Accounts settings program session world logs)
    (counts : callees.Counts settings program session logs)
    {list longer : List Instruction}
    (tame : ∀ instruction ∈ list, instruction.Tame settings.counterClassName world)
    (tallied :
      Tallied (session.program.Tally settings.counterClassName)
        (list.flatMap fun instruction =>
          session.announcements settings program actor.method instruction ++ [instruction])
        longer)
    (holds : (session.accessAccount settings program).On past before)
    (ends :
      Ends (instructions world callees actor.receiver arguments locals longer) before value after) :
    (session.accessAccount settings program).On
      (past ++ instructionsLog world callees logs actor arguments locals before longer) after := by
  induction list generalizing longer locals before past with
  | nil =>
    exact instructions_keeps Session.accessAccount_tolerates accounts.keeps
      (fun call member => tally_harmless runs (tallied.nothing call member)) holds ends
  | cons instruction rest hypothesis =>
    have first := tame instruction List.mem_cons_self
    have others := fun other member => tame other (List.mem_cons_of_mem instruction member)
    rw [List.flatMap_cons] at tallied
    cases instruction with
    | bind target source =>
      obtain ⟨quiet, between, later, tallied, ⟨given, bound, -, ends⟩, logged, reached⟩ :=
        first_passes runs accounts tallied holds ends
      rw [logged, instructionsLog_bind bound, ← List.append_assoc]
      exact hypothesis others tallied reached ends
    | assign place expression =>
      rw [Session.announcements, List.append_assoc, List.append_assoc] at tallied
      obtain ⟨quietPlace, begun, later, tallied, ends, loggedPlace, holds⟩ :=
        side_announced runs accounts counts .write first.1 tallied holds ends
      obtain ⟨quietValue, announced, later, tallied, ends, loggedValue, holds⟩ :=
        side_announced runs accounts counts .read first.2 tallied holds ends
      obtain ⟨quiet, between, later, tallied,
        ⟨computed, evaluated, changed, stored, evaluates, stores, ends⟩, logged, holds⟩ :=
        first_passes runs accounts tallied holds ends
      have owed :
          (session.accessAccount settings program).On
            (past ++ quietPlace ++ quietValue ++ quiet ++
              accessOf world actor .write locals place ++
              accessOf world actor .read locals expression)
            (counted between) := by
        refine Session.HoldsCounts.congr (fun access slot => ?_) holds
        simp only [Session.accessCount_append]
        omega
      have reached :=
        hypothesis others tallied (assignment_settles accounts first owed evaluates stores) ends
      rw [loggedPlace, loggedValue, logged, instructionsLog_assign evaluates stores]
      simpa only [List.append_assoc] using reached
    | invoke target =>
      obtain ⟨quiet, between, later, tallied, ⟨result, called, evaluates, ends⟩, logged, reached⟩ :=
        first_passes runs accounts tallied holds ends
      rw [logged, instructionsLog_invoke evaluates, ← List.append_assoc, ← List.append_assoc]
      exact hypothesis others tallied
        (callLog_keeps Session.accessAccount_tolerates accounts.keeps first reached evaluates) ends
    | «return» operand =>
      obtain ⟨quiet, between, later, tallied, continues, logged, reached⟩ :=
        first_passes runs accounts tallied holds ends
      have same : after = counted between := by
        cases operand with
        | none => exact continues.2
        | some operand => exact continues.2
      rw [logged, same, ← List.append_assoc]
      exact reached.idle

/-- The instructions of patched bodies are those of the original program, and those that assign the serial
number. -/
theorem tame_of_mem_patching
    (runs : world.RunsCounted settings program session)
    {id : MethodId}
    {method : Method}
    {body : Body}
    (has : program.method? id = some method)
    (given : method.body = some body)
    {instruction : Instruction}
    (member :
      instruction ∈
        ((Session.withProfiles settings program session.profiles).patching id body).instructions) :
    instruction.Tame settings.counterClassName world := by
  have there : program.body? id = some body := Option.bind_eq_some_iff.2 ⟨method, has, given⟩
  rcases Session.mem_patching member with original | ⟨profile, this, declaration, -, known, -, -, -, block⟩
  · have plain := runs.accountable.apart.instruction_plain (Program.mem_bodies_of_body? there) original
    have expressions {expression : Expression} (plain : expression.Plain settings.counterClassName) :
        expression.Tame settings.counterClassName world := by
      cases expression with
      | instanceField base field => exact .inl plain
      | call target => exact fun _ _ incrementing => absurd incrementing plain.2
      | _ => trivial
    cases instruction with
    | assign place expression => exact ⟨expressions plain.1, expressions plain.2⟩
    | invoke target => exact fun _ _ incrementing => absurd incrementing plain.2
    | _ => trivial
  · obtain ⟨static, -, rfl⟩ := runs.completes.furnishes.ledger.profiles _ profile known
    simp only [Profile.serialAssignment, List.mem_cons, List.not_mem_nil, or_false] at block
    rcases block with rfl | rfl | rfl | rfl | rfl
    · exact ⟨trivial, trivial⟩
    · exact ⟨trivial, trivial⟩
    · exact ⟨.inr rfl, trivial⟩
    · exact ⟨trivial, trivial⟩
    · exact report_ordinary runs _

/-- The method counts no access. -/
def Uncounting (program : Program) : Admission :=
  fun id _ => ∀ method, program.method? id = some method → ¬ IsIncrementor method.name

/-- The bodies that calls enter keep the account, but for those that count accesses. -/
theorem body_keeps
    (runs : world.RunsCounted settings program session)
    (accounts : callees.Accounts settings program session world logs)
    (counts : callees.Counts settings program session logs)
    (actor : Activation)
    {entered : Body}
    (admitted : Uncounting session.program actor.method actor.receiver)
    (found : session.program.body? actor.method = some entered)
    (holds : (session.accessAccount settings program).On past before)
    (ends :
      Ends (instructions world callees actor.receiver arguments locals entered.instructions) before
        value after) :
    (session.accessAccount settings program).On
      (past ++ instructionsLog world callees logs actor arguments locals before entered.instructions)
      after := by
  rcases runs.completes.body?_cases runs.accountable.apart found with
    ⟨label, owner, field, -, -, rfl⟩ | ⟨body, present, planned⟩ | ⟨current, access, there, named, -⟩
  · refine instructions_keeps Session.accessAccount_tolerates accounts.keeps (fun instruction among => ?_)
      holds ends
    simp only [Profile.staticIncrementorBody, Profile.increment, List.mem_cons, List.not_mem_nil,
      or_false] at among
    rcases among with rfl | rfl | rfl | rfl | rfl
    · exact ⟨trivial, trivial⟩
    · exact ⟨trivial, trivial⟩
    · exact ⟨trivial, trivial⟩
    · exact report_ordinary runs _
    · trivial
  · obtain ⟨method, has, original⟩ := Option.bind_eq_some_iff.1 present
    have planned := planned.instructions
    rw [Session.planned_instructions] at planned
    exact planned_keeps runs accounts counts
      (fun instruction among => tame_of_mem_patching runs has original among) planned holds ends
  · exact absurd (named ▸ access.isIncrementor) (admitted current there)

/-- At every number of levels calls keep the account, and those that count accesses do so. -/
theorem within_accounts (runs : world.RunsCounted settings program session) (levels : Nat) :
    (Callees.within world levels).Accounts settings program session world (.within world levels) ∧
      (Callees.within world levels).Counts settings program session (.within world levels) := by
  let Known (callees : Callees) (logs : Logs) : Prop :=
    logs.Spares settings.counterClassName settings.sink session.program ∧
      (∀ {kind method receiver arguments before value after},
        Ends (callees.invoke kind method receiver arguments) before value after →
          before.heap.Grows after.heap) ∧
      callees.Counts settings program session logs
  have spares (levels : Nat) := runs.completes.within_spares runs.same runs.accountable levels
  have reached :
      (Callees.within world levels).Keeps (session.accessAccount settings program) world.Ordinary
          (.within world levels) ∧
        Known (.within world levels) (.within world levels) := by
    refine within_keeps Known (Uncounting session.program) ?_ ?_ ?_ ?_ ?_ levels
    · intro callees logs id entered receiver arguments before after value past keeps known admitted
        found holds ends
      exact body_keeps runs ⟨keeps, known.1, known.2.1⟩ known.2.2 ⟨id, receiver⟩ admitted
        (runs.same ▸ found) holds ends
    · intro kind method receiver start id ordinary elsewhere found current there incrementing
      rw [runs.same] at found
      obtain ⟨declared, declares, named, -⟩ := Program.target?_eq_some found
      obtain rfl := Option.some.inj (there.symm.trans declares)
      exact elsewhere (ordinary (named ▸ incrementing))
    · intro className id found current there incrementing
      rw [runs.same] at found
      obtain ⟨-, declared, declares, named, -⟩ := Program.findMethod?_eq_some found
      obtain rfl := Option.some.inj (there.symm.trans declares)
      rw [named] at incrementing
      exact absurd incrementing (by decide)
    · exact ⟨spares 0, within_grows 0, fun _ _ ends => absurd ends Ends.not_throw⟩
    · intro levels keeps known
      exact ⟨spares (levels + 1), within_grows (levels + 1), fun profiled holds ends =>
        invokeStep_counts runs ⟨keeps, known.1, known.2.1⟩ profiled holds ends⟩
  exact ⟨⟨reached.1, reached.2.1, reached.2.2.1⟩, reached.2.2.2⟩

/-- A method that counts an access does not run without a receiver. -/
theorem not_ends_of_isIncrementor
    (runs : world.RunsCounted settings program session)
    {method : MethodRef}
    (incrementing : IsIncrementor method.name)
    (elsewhere : ¬ CallsSink world method)
    (levels : Nat)
    (holds : (session.accessAccount settings program).On past before) :
    ¬ Ends ((Callees.within world levels).invoke .static method none arguments) before value after := by
  intro ends
  cases levels with
  | zero => exact Ends.not_throw ends
  | succ levels =>
    rcases ends_invokeStep.1 ends with ⟨sinks, -⟩ | ⟨-, -, start, started, starts, reaches⟩
    · exact elsewhere sinks
    cases found : target? world.program start method with
    | none =>
      rw [found] at reaches
      rw [reaches.1] at incrementing
      exact absurd incrementing (by decide)
    | some id =>
      rw [found] at reaches
      rw [runs.same] at found
      obtain ⟨current, there, named, -⟩ := Program.target?_eq_some found
      obtain ⟨access, same⟩ := Access.exists_of_isIncrementor incrementing
      obtain ⟨⟨field, known⟩, body, bodied, tallied⟩ :=
        runs.completes.countingBody_of_named runs.accountable.apart there (named.trans same)
      obtain ⟨entered, inner, enters, -, ran, -⟩ := ends_enter.1 reaches
      rw [runs.same, bodied] at enters
      obtain rfl := Option.some.inj enters
      have ran :
          Ends
            (instructions world (.within world levels) (Activation.mk id none).receiver arguments
              (body.locals.map fun declaration => .zero declaration.type) body.instructions)
            { started with depth := started.depth + 1 } value inner :=
        ran
      obtain ⟨accounts, -⟩ := within_accounts runs levels
      have prepared : Ends ((Callees.within world levels).prepare method.owner) before () started :=
        starts.1
      have begun := accounts.keeps.prepare holds prepared
      obtain ⟨slot, bound, -⟩ := countingBody_counts runs accounts known tallied
        (show (session.accessAccount settings program).On _
          { started with depth := started.depth + 1 } from begun) ran
      cases bound

/-- A run from outside keeps the account. -/
theorem entryStep_keepsCounts
    (runs : world.RunsCounted settings program session)
    (levels : Nat)
    {name : String}
    (holds : (session.accessAccount settings program).On past before)
    (ends : Ends (entryStep world (.within world levels) name) before value after) :
    (session.accessAccount settings program).On
      (past ++ entryLog world (.within world levels) name before) after := by
  obtain ⟨accounts, -⟩ := within_accounts runs levels
  refine entryStep_keeps Session.accessAccount_tolerates (fun {method _ _ _ _ _} begun called => ?_)
    holds ends
  by_cases ordinary : world.Ordinary .static method none
  · exact accounts.keeps.invoke ordinary begun called
  · obtain ⟨incrementing, elsewhere⟩ := Classical.not_imp.1 ordinary
    exact absurd called (not_ends_of_isIncrementor runs incrementing elsewhere levels begun)

end Run

/-- A transformation that leaves arrays alone and succeeds gives what is known of the passes. -/
theorem completes_of_transformed
    {program : Program}
    {settings : Settings}
    {session : Session}
    (arraysOff : settings.arrays = false)
    (apart : program.NamesApart settings.counterClassName)
    (wellNamed : program.WellNamed)
    (transformed : transformProgram program settings = (.ok (), session)) :
    session.Completes settings program := by
  have ends : Ends Transform.pipeline (.start settings program) () session := transformed
  unfold Transform.pipeline at ends
  rw [Ends.get_bind_iff] at ends
  obtain ⟨changed, passed, passes, checks⟩ := Ends.bind_iff.1 ends
  have completes := (Pass.runAll_completes arraysOff apart wellNamed).holds changed passed passes
  split at checks
  · obtain ⟨journal, rfl⟩ := Transform.ends_checkProgram checks
    exact ⟨completes.furnishes.withJournal journal, completes.settings⟩
  · obtain ⟨-, rfl⟩ := Ends.pure_iff.1 checks
    exact completes

end AccessProfiler
