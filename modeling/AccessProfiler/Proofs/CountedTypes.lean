import AccessProfiler.Pipeline
import AccessProfiler.Proofs.CountedPrograms
import AccessProfiler.Proofs.InsertedCalls
import AccessProfiler.Proofs.ReusedMembers
import AccessProfiler.Proofs.SpelledNames
import Mathlib.Algebra.Order.BigOperators.Group.List
import Mathlib.Algebra.Order.Ring.Nat

/-!
# Types that accesses count for

An access to a field counts for the class that declares the field, one to an element for the type of the
array, and what is accessed counts for its type if that is primitive (`Session.countedNames`).  The calls
stand in front of the assignment, those for its left side first, and nothing else happens to the body
(`Pass.profileTypes_inserts`).

The names are made from spellings, and the name of what an array holds is its spelling without any
brackets.  An access to a row of a matrix counts therefore for the type of the numbers in it, although no
number is accessed; this is the only difference to counting what is accessed.
-/

namespace AccessProfiler

namespace Ty

/-- The spelling with a word in the place of each pair of brackets. -/
def spelledWith (word : String) : Ty → String
  | .array element => element.spelledWith word ++ word
  | type => type.render

/-- What is left of a type when all its brackets are left out. -/
def innermost : Ty → Ty
  | .array element => element.innermost
  | type => type

/-- The name of a type that is counted for itself, as primitive types are. -/
def primitiveName? (type : Ty) : Option String :=
  if type.isPrimitive then some type.render else none

theorem spelledWith_empty (type : Ty) : type.spelledWith "" = type.innermost.render := by
  induction type with
  | array element hypothesis => rw [spelledWith, hypothesis, String.append_empty, innermost]
  | _ => rfl

theorem IsSpelled.innermost {type : Ty} (spelled : type.IsSpelled) : type.innermost.IsSpelled := by
  induction type with
  | array element hypothesis => exact hypothesis spelled.2.2
  | _ => exact spelled

/-- The brackets of a spelling are those of its arrays. -/
theorem spellBrackets_render {type : Ty} (spelled : type.IsSpelled) (word : String) :
    Text.spellBrackets word type.render = type.spelledWith word := by
  have characters : (Text.spellBracketsIn word.toList type.render.toList) =
      (type.spelledWith word).toList := by
    induction type with
    | array element hypothesis =>
      rw [render, String.toList_append, spelledWith, String.toList_append, ← hypothesis spelled.2.2]
      exact Text.spellBracketsIn_append _ _
    | object name =>
      refine Text.spellBracketsIn_eq_self fun bracket => ?_
      exact absurd (isNameCharacter_of_mem_render spelled rfl bracket) (by decide)
    | _ => exact Text.spellBracketsIn_eq_self (by decide)
  rw [Text.spellBrackets, characters, String.ofList_toList]

/-- Whether a type is primitive can be seen from its spelling. -/
theorem isPrimitiveKey_render {type : Ty} (spelled : type.IsSpelled) :
    Draft.isPrimitiveKey type.render = type.isPrimitive := by
  rw [Draft.isPrimitiveKey, parse_render spelled]

end Ty

namespace Expression

/-- An access is to a field whose type can be spelled, or to an element of an array whose type can be
spelled. -/
def HasSpelledType (body : Body) : Expression → Prop
  | .instanceField _ field => field.type.IsSpelled
  | .element base _ =>
    ∃ element, body.localType? base = some (.array element) ∧ (Ty.array element).IsSpelled
  | _ => True

/-- What is accessed is an array, and it goes down to a primitive type. -/
def IsRow (body : Body) : Expression → Prop
  | .element base _ =>
    ∃ element, body.localType? base = some (.array (.array element)) ∧
      element.innermost.isPrimitive
  | _ => False

end Expression

namespace Session

/-- The names under which an access counts.  Of the elements of an array, the type that counts besides
the type of the array itself is the one that `counted` makes of theirs. -/
def countedNames (counted : Ty → Ty) (session : Session) (body : Body) : Expression → List String
  | .instanceField _ field =>
    if isInstrumentationName field.name then []
    else session.declaringClass field :: field.type.primitiveName?.toList
  | .element base _ =>
    match body.localType? base with
    | some (.array element) =>
      (Ty.array element).spelledWith "Array" :: (counted element).primitiveName?.toList
    | _ => []
  | _ => []

/-- The calls count under the names, each once and in this order. -/
def CallsCounters (session : Session) (access : Access) : List String → List Instruction → Prop :=
  List.Forall₂ fun name call =>
    ∃ counter, session.typeCounters.get? name = some counter ∧ call = counter.call access

/-- Static counters came in, and what counts on them.  Only the class of the counters changed, and it
has what it had. -/
structure AddsCounters (before after : Session) : Prop where
  settings : after.settings = before.settings
  className : after.counters.className = before.counters.className
  others :
    ∀ name, name ≠ before.counters.className →
      after.program.class? name = before.program.class? name
  program : before.program.ExtendsTo after.program
  typeCounters :
    ∀ name counter, before.typeCounters.get? name = some counter →
      after.typeCounters.get? name = some counter
  profiles : after.profiles = before.profiles
  wrappers : after.wrappers = before.wrappers
  callCounters : after.callCounters = before.callCounters
  transformed : after.transformed = before.transformed

/-- The calls that an instruction asks for: those for what an assignment writes, then those for what it
reads.  The class that declares a field is that of the program at the time of counting, when the counters
of earlier accesses have come in. -/
inductive CountsTypesBefore
    (counted : Ty → Ty)
    (before after : Session)
    (body : Body) : Instruction → List Instruction → Prop
  | assignment
      {place value : Expression}
      {writing reading : Session}
      {writes reads : List Instruction}
      (untilWriting : before.AddsCounters writing)
      (untilReading : writing.AddsCounters reading)
      (untilEnd : reading.AddsCounters after)
      (written : after.CallsCounters .write (writing.countedNames counted body place) writes)
      (read : after.CallsCounters .read (reading.countedNames counted body value) reads) :
      CountsTypesBefore counted before after body (.assign place value) (writes ++ reads)
  | other {instruction : Instruction} (none : ∀ place value, instruction ≠ .assign place value) :
      CountsTypesBefore counted before after body instruction []

/-- After the accesses of a body were counted for types. -/
structure CountsTypes
    (counted : Ty → Ty)
    (session : Session)
    (body : Body)
    (changed : Bool)
    (bodyAfter : Body)
    (after : Session) : Prop where
  locals : bodyAfter.locals = body.locals
  inserted :
    ∃ insertions, Insertion.bare insertions = body.instructions ∧
      Insertion.full insertions = bodyAfter.instructions ∧
      (Insertion.batch insertions).apply body = .ok bodyAfter ∧
      (∀ insertion ∈ insertions,
        CountsTypesBefore counted session after body insertion.instruction insertion.calls) ∧
      (changed = true ↔ ∃ insertion ∈ insertions, insertion.calls ≠ [])
  counters : session.AddsCounters after

end Session

/-- The types of what a body accesses can be spelled, and only arrays have elements. -/
def Body.AccessesSpelled (body : Body) : Prop :=
  ∀ expression ∈ body.instructions.flatMap Instruction.expressions, expression.HasSpelledType body

/-- Some access is to a row of a matrix of primitive values. -/
def Body.AccessesRow (body : Body) : Prop :=
  ∃ expression ∈ body.instructions.flatMap Instruction.expressions, expression.IsRow body

/-! ## Names -/

namespace Session

variable {session : Session} {body : Body} {expression : Expression}

/-- The names made from spellings are those of the types. -/
theorem typeKeys_eq_countedNames (spelled : expression.HasSpelledType body) :
    Draft.typeKeys session body expression = session.countedNames Ty.innermost body expression := by
  have named {type : Ty} (spelled : type.IsSpelled) :
      (if Draft.isPrimitiveKey type.render then [type.render] else []) =
        type.primitiveName?.toList := by
    rw [Ty.isPrimitiveKey_render spelled, Ty.primitiveName?]
    split <;> rfl
  cases expression with
  | instanceField base field => simp only [Draft.typeKeys, countedNames, named spelled]
  | element base index =>
    obtain ⟨element, located, spelled⟩ := spelled
    simp only [Draft.typeKeys, countedNames, located, Ty.spellBrackets_render spelled,
      Ty.spelledWith_empty, named spelled.innermost]
    rfl
  | _ => rfl

/-- To count what is accessed makes a difference for rows only. -/
theorem countedNames_id (single : ¬ expression.IsRow body) :
    session.countedNames id body expression =
      session.countedNames Ty.innermost body expression := by
  cases expression with
  | element base index =>
    simp only [countedNames]
    split
    · rename_i element located
      cases element with
      | array row =>
        have unnumbered : row.innermost.primitiveName? = none :=
          if_neg fun primitive => single ⟨row, located, primitive⟩
        rw [Ty.innermost, unnumbered]
        rfl
      | _ => rfl
    · rfl
  | _ => rfl

/-- How many names there are does not depend on the session. -/
theorem length_countedNames (counted : Ty → Ty) (other : Session) :
    (session.countedNames counted body expression).length =
      (other.countedNames counted body expression).length := by
  cases expression with
  | instanceField base field =>
    simp only [countedNames]
    split <;> rfl
  | _ => rfl

/-- For a row there is one name more than for what is accessed. -/
theorem length_countedNames_of_isRow (isRow : expression.IsRow body) :
    (session.countedNames id body expression).length <
      (session.countedNames Ty.innermost body expression).length := by
  cases expression with
  | element base index =>
    obtain ⟨row, located, primitive⟩ := isRow
    have number : row.innermost.primitiveName? = some row.innermost.render := if_pos primitive
    simp only [countedNames, located, Ty.innermost, number]
    exact Nat.lt_succ_self _
  | _ => exact isRow.elim

end Session

/-! ## Counters that come in -/

namespace Session.AddsCounters

variable {before between after : Session}

theorem refl (session : Session) : session.AddsCounters session :=
  ⟨rfl, rfl, fun _ _ => rfl, .refl _, fun _ _ known => known, rfl, rfl, rfl, rfl⟩

theorem trans (first : before.AddsCounters between) (second : between.AddsCounters after) :
    before.AddsCounters after where
  settings := second.settings.trans first.settings
  className := second.className.trans first.className
  others name differs :=
    (second.others name (first.className ▸ differs)).trans (first.others name differs)
  program := first.program.trans second.program
  typeCounters name counter known :=
    second.typeCounters name counter (first.typeCounters name counter known)
  profiles := second.profiles.trans first.profiles
  wrappers := second.wrappers.trans first.wrappers
  callCounters := second.callCounters.trans first.callCounters
  transformed := second.transformed.trans first.transformed

end Session.AddsCounters

namespace Transform

variable {before after : Session}

theorem record_addsCounters
    {event : Event}
    (ends : Ends (record event) before () after) :
    before.AddsCounters after := by
  rw [ends_record] at ends
  subst ends
  exact ⟨rfl, rfl, fun _ _ => rfl, .refl _, fun _ _ known => known, rfl, rfl, rfl, rfl⟩

theorem counterFor_addsCounters
    {owner : CounterOwner}
    {key : String}
    {field : FieldRef}
    (ends : Ends (counterFor owner key) before field after) :
    before.AddsCounters after := by
  have extends' := counterFor_extends ends
  rcases ends_counterFor.1 ends with ⟨-, rfl⟩ | ⟨-, program, added, rfl⟩
  · exact .refl _
  · refine ⟨rfl, rfl, fun name differs => ?_, extends', fun _ _ known => known, rfl, rfl, rfl, rfl⟩
    obtain ⟨declaration, extended, -, -, rfl⟩ := Program.addField_eq_ok added
    rw [Program.class?_modifyClass, if_neg differs, Program.class?_ensureClass, if_neg differs]

/-- A method on the class of the counters is generated. -/
theorem addGenerated_addsCounters
    {method : Method}
    (ends : Ends (addGenerated before.counters.className method) before () after) :
    before.AddsCounters after := by
  unfold addGenerated at ends
  obtain ⟨id, between, adds, marks⟩ := Ends.bind_iff.1 ends
  obtain ⟨program, added, rfl⟩ := ends_changeProgram.1 adds
  have extends' := Program.ExtendsTo.addMethod added
  obtain ⟨declaration, -, -, rfl⟩ := Program.addMethod_eq_ok added
  have others (name : String) (differs : name ≠ before.counters.className) :
      (before.program.modifyClass before.counters.className fun _ =>
          { declaration with methods := declaration.methods ++ [method] }).class? name =
        before.program.class? name := by
    rw [Program.class?_modifyClass, if_neg differs]
  have marked := Ends.modify_iff.1 marks
  split at marked
  · subst marked
    exact ⟨rfl, rfl, others, extends', fun _ _ known => known, rfl, rfl, rfl, rfl⟩
  · subst marked
    exact ⟨rfl, rfl, others, extends', fun _ _ known => known, rfl, rfl, rfl, rfl⟩

theorem staticIncrementor_addsCounters
    {key label : String}
    {counter : FieldRef}
    {method : MethodRef}
    (ends : Ends (staticIncrementor key label counter) before method after) :
    before.AddsCounters after := by
  unfold staticIncrementor at ends
  rw [Ends.get_bind_iff] at ends
  dsimp only at ends
  split at ends
  · obtain ⟨-, rfl⟩ := Ends.pure_iff.1 ends
    exact .refl _
  · obtain ⟨_, between, adds, ends⟩ := Ends.bind_iff.1 ends
    obtain ⟨_, last, records, ends⟩ := Ends.bind_iff.1 ends
    obtain ⟨-, rfl⟩ := Ends.pure_iff.1 ends
    exact (addGenerated_addsCounters adds).trans (record_addsCounters records)

/-- The counters of a type are those that are kept under its name from then on. -/
theorem typeCounter_addsCounters
    {name : String}
    {counter : TypeCounter}
    (ends : Ends (typeCounter name) before counter after) :
    before.AddsCounters after ∧ after.typeCounters.get? name = some counter := by
  unfold typeCounter at ends
  rw [Ends.get_bind_iff] at ends
  cases known : before.typeCounters.get? name with
  | some found =>
    rw [known] at ends
    obtain ⟨rfl, rfl⟩ := Ends.pure_iff.1 ends
    exact ⟨.refl _, known⟩
  | none =>
    rw [known] at ends
    simp only [Ends.bind_iff, Ends.modify_iff, Ends.pure_iff] at ends
    obtain ⟨readField, first, readFieldEnds, writeField, second, writeFieldEnds, read, third,
      readEnds, write, fourth, writeEnds, _, _, rfl, rfl, rfl⟩ := ends
    have adds :=
      (((counterFor_addsCounters readFieldEnds).trans (counterFor_addsCounters writeFieldEnds)).trans
        (staticIncrementor_addsCounters readEnds)).trans (staticIncrementor_addsCounters writeEnds)
    refine ⟨{ adds with typeCounters := fun other found located => ?_ }, ?_⟩
    · have differs : other ≠ name := by
        rintro rfl
        rw [known] at located
        cases located
      rw [Table.get?_put, if_neg differs]
      exact adds.typeCounters other found located
    · rw [Table.get?_put, if_pos rfl]

end Transform

/-! ## Calls -/

namespace Session

variable
    {counted : Ty → Ty}
    {before begun session ended after : Session}
    {body : Body}
    {instruction : Instruction}
    {calls : List Instruction}

theorem CallsCounters.mono
    {access : Access}
    {names : List String}
    (callsCounters : session.CallsCounters access names calls)
    (adds : session.AddsCounters after) :
    after.CallsCounters access names calls := by
  refine List.Forall₂.imp ?_ callsCounters
  rintro name call ⟨counter, known, same⟩
  exact ⟨counter, adds.typeCounters name counter known, same⟩

theorem CallsCounters.length_eq
    {access : Access}
    {names : List String}
    (callsCounters : session.CallsCounters access names calls) :
    calls.length = names.length :=
  (List.Forall₂.length_eq callsCounters).symm

/-- More counters may come in, before and afterwards. -/
theorem CountsTypesBefore.mono
    (earlier : before.AddsCounters begun)
    (later : ended.AddsCounters after)
    (counts : CountsTypesBefore counted begun ended body instruction calls) :
    CountsTypesBefore counted before after body instruction calls := by
  cases counts with
  | assignment untilWriting untilReading untilEnd written read =>
    exact .assignment (earlier.trans untilWriting) untilReading (untilEnd.trans later)
      (written.mono later) (read.mono later)
  | other none => exact .other none

/-- How many calls there are is known beforehand. -/
theorem CountsTypesBefore.length_eq
    (counts : CountsTypesBefore counted before after body instruction calls)
    (session : Session) :
    calls.length =
      (instruction.expressions.map fun expression =>
        (session.countedNames counted body expression).length).sum := by
  cases counts with
  | @assignment place value _ _ _ _ _ _ _ written read =>
    have sizes (other : Session) (expression : Expression) :=
      @length_countedNames other body expression counted session
    simp only [List.length_append, written.length_eq, read.length_eq, Instruction.expressions,
      List.map_cons, List.map_nil, List.sum_cons, List.sum_nil, Nat.add_zero, sizes _ place,
      sizes _ value]
  | other none =>
    cases instruction with
    | assign place value => exact absurd rfl (none place value)
    | invoke target => rfl
    | _ => rfl

/-- An instruction without an access to a row asks for the same calls, whether what is accessed counts
or what is left of it without its brackets. -/
theorem CountsTypesBefore.id
    (single : ∀ expression ∈ instruction.expressions, ¬ expression.IsRow body)
    (counts : CountsTypesBefore Ty.innermost before after body instruction calls) :
    CountsTypesBefore id before after body instruction calls := by
  cases counts with
  | assignment untilWriting untilReading untilEnd written read =>
    refine .assignment untilWriting untilReading untilEnd ?_ ?_
    · rw [countedNames_id (single _ List.mem_cons_self)]
      exact written
    · rw [countedNames_id (single _ (List.mem_cons_of_mem _ List.mem_cons_self))]
      exact read
  | other none => exact .other none

/-- The length of a body says how many names were counted in it. -/
theorem CountsTypes.length_eq
    {changed : Bool}
    {bodyAfter : Body}
    (counts : session.CountsTypes counted body changed bodyAfter after) :
    bodyAfter.instructions.length =
      body.instructions.length +
        ((body.instructions.flatMap Instruction.expressions).map fun expression =>
          (session.countedNames counted body expression).length).sum := by
  obtain ⟨insertions, bare, full, -, each, -⟩ := counts.inserted
  rw [← full, ← bare]
  clear bare full
  induction insertions with
  | nil => rfl
  | cons insertion rest hypothesis =>
    have first := (each insertion List.mem_cons_self).length_eq session
    have others := hypothesis fun other member => each other (List.mem_cons_of_mem _ member)
    rw [Insertion.full, List.flatMap_cons, ← Insertion.full, Insertion.bare, List.map_cons,
      ← Insertion.bare, List.flatMap_cons, List.map_append, List.sum_append, ← first,
      List.length_append, List.length_append, others]
    simp only [List.length_cons, List.length_nil]
    omega

/-- What is accessed is what counts exactly if it is never a row. -/
theorem CountsTypes.id_iff
    {changed : Bool}
    {bodyAfter : Body}
    (counts : session.CountsTypes Ty.innermost body changed bodyAfter after) :
    session.CountsTypes id body changed bodyAfter after ↔ ¬ body.AccessesRow := by
  constructor
  · rintro countsAccessed ⟨expression, member, isRow⟩
    have fewer (other : Expression) :
        (session.countedNames id body other).length ≤
          (session.countedNames Ty.innermost body other).length := by
      by_cases otherIsRow : other.IsRow body
      · exact (length_countedNames_of_isRow otherIsRow).le
      · rw [countedNames_id otherIsRow]
    have less :=
      List.sum_lt_sum (fun other => (session.countedNames id body other).length)
        (fun other => (session.countedNames Ty.innermost body other).length)
        (fun other _ => fewer other)
        ⟨expression, member, length_countedNames_of_isRow isRow⟩
    have lengthAccessed := countsAccessed.length_eq
    have length := counts.length_eq
    omega
  · intro rowless
    obtain ⟨insertions, bare, full, applied, each, changes⟩ := counts.inserted
    refine { counts with
      inserted := ⟨insertions, bare, full, applied, fun insertion listed => ?_, changes⟩ }
    refine (each insertion listed).id fun expression member isRow => rowless ⟨expression, ?_, isRow⟩
    rw [← bare]
    exact List.mem_flatMap.2 ⟨_, List.mem_map_of_mem listed, member⟩

end Session

namespace Draft

variable {body bodyAfter seen : Body} {session after : Session} {pass method : String} {index : Nat}

theorem typeCalls_counts
    {access : Access}
    {names : List String}
    {calls : List Instruction}
    (ends : Draft.Ends (typeCalls pass method index access names) body session calls bodyAfter after) :
    bodyAfter = body ∧ session.AddsCounters after ∧ after.CallsCounters access names calls := by
  unfold typeCalls at ends
  induction names generalizing session body calls with
  | nil =>
    obtain ⟨rfl, rfl, rfl⟩ := Draft.Ends.pure_iff.1 ends
    exact ⟨rfl, .refl _, .nil⟩
  | cons name rest hypothesis =>
    obtain ⟨call, bodyBetween, between, others, first, endsOthers, rfl⟩ :=
      Draft.Ends.mapM_cons_iff.1 ends
    simp only [Draft.Ends.bind_iff, Draft.Ends.lift_iff, Draft.Ends.pure_iff] at first
    obtain ⟨counter, _, counted, ⟨counts, rfl⟩, _, _, recorded, records, rfl, rfl, rfl⟩ := first
    obtain ⟨addsCounted, known⟩ := Transform.typeCounter_addsCounters counts
    obtain ⟨recording, rfl⟩ := Draft.Ends.lift_iff.1 records
    have addsRecorded := Transform.record_addsCounters recording
    obtain ⟨rfl, addsAfter, called⟩ := hypothesis endsOthers
    have fromCounted := addsRecorded.trans addsAfter
    exact ⟨rfl, addsCounted.trans fromCounted,
      .cons ⟨counter, fromCounted.typeCounters name counter known, rfl⟩ called⟩

/-- An instruction gets the calls that it asks for. -/
theorem instructionTypeCalls_counts
    {instruction : Instruction}
    {calls : List Instruction}
    (spelled : ∀ expression ∈ instruction.expressions, expression.HasSpelledType seen)
    (ends :
      Draft.Ends (instructionTypeCalls pass method index seen instruction) body session calls
        bodyAfter after) :
    bodyAfter = body ∧ session.AddsCounters after ∧
      Session.CountsTypesBefore Ty.innermost session after seen instruction calls := by
  cases instruction with
  | assign place value =>
    unfold instructionTypeCalls at ends
    simp only [Draft.Ends.bind_iff, Draft.Ends.session_iff, Draft.Ends.pure_iff] at ends
    obtain ⟨_, _, _, ⟨rfl, rfl, rfl⟩, written, _, between, writes, _, _, _, ⟨rfl, rfl, rfl⟩, read, _,
      _, reads, rfl, rfl, rfl⟩ := ends
    rw [Session.typeKeys_eq_countedNames (spelled _ List.mem_cons_self)] at writes
    rw [Session.typeKeys_eq_countedNames (spelled _ (List.mem_cons_of_mem _ List.mem_cons_self))]
      at reads
    obtain ⟨rfl, addsWritten, callsWritten⟩ := typeCalls_counts writes
    obtain ⟨rfl, addsRead, callsRead⟩ := typeCalls_counts reads
    exact ⟨rfl, addsWritten.trans addsRead,
      .assignment (.refl _) addsWritten addsRead (callsWritten.mono addsRead) callsRead⟩
  | _ =>
    obtain ⟨rfl, rfl, rfl⟩ := Draft.Ends.pure_iff.1 ends
    exact ⟨rfl, .refl _, .other fun _ _ same => by cases same⟩

/-- Every instruction of a list gets the calls that it asks for, and stays behind them. -/
theorem insertions_of_typeCalls
    {instructions : List Instruction}
    {start : Nat}
    {counted : List (List Instruction)}
    (spelled :
      ∀ expression ∈ instructions.flatMap Instruction.expressions, expression.HasSpelledType seen)
    (ends :
      Draft.Ends
        ((instructions.zipIdx start).mapM fun (instruction, index) => do
          let calls ← instructionTypeCalls pass method index seen instruction
          return calls ++ [instruction])
        body session counted bodyAfter after) :
    bodyAfter = body ∧ session.AddsCounters after ∧
      ∃ insertions, Insertion.bare insertions = instructions ∧
        counted = insertions.map (fun insertion => insertion.calls ++ [insertion.instruction]) ∧
        ∀ insertion ∈ insertions,
          Session.CountsTypesBefore Ty.innermost session after seen insertion.instruction
            insertion.calls := by
  induction instructions generalizing session body start counted with
  | nil =>
    obtain ⟨rfl, rfl, rfl⟩ := Draft.Ends.pure_iff.1 ends
    exact ⟨rfl, .refl _, [], rfl, rfl, fun _ member => absurd member List.not_mem_nil⟩
  | cons instruction rest hypothesis =>
    rw [List.zipIdx_cons] at ends
    obtain ⟨block, bodyBetween, between, others, first, endsOthers, rfl⟩ :=
      Draft.Ends.mapM_cons_iff.1 ends
    simp only [Draft.Ends.bind_iff, Draft.Ends.pure_iff] at first
    obtain ⟨calls, _, _, called, rfl, rfl, rfl⟩ := first
    rw [List.flatMap_cons] at spelled
    obtain ⟨rfl, addsFirst, counts⟩ :=
      instructionTypeCalls_counts (fun other member => spelled other (List.mem_append_left _ member))
        called
    obtain ⟨rfl, addsOthers, insertions, bare, rfl, countsOthers⟩ :=
      hypothesis (fun other member => spelled other (List.mem_append_right _ member)) endsOthers
    refine ⟨rfl, addsFirst.trans addsOthers, ⟨calls, instruction⟩ :: insertions, ?_, rfl, ?_⟩
    · rw [← bare]
      rfl
    · intro insertion member
      rcases List.mem_cons.1 member with rfl | later
      · exact counts.mono (.refl _) addsOthers
      · exact (countsOthers insertion later).mono addsFirst (.refl _)

/-- The accesses of a body are counted under the names of the types, with the types of numbers for
rows. -/
theorem countTypeAccesses_counts
    {changed : Bool}
    (spelled : body.AccessesSpelled)
    (ends : Draft.Ends (countTypeAccesses pass method) body session changed bodyAfter after) :
    session.CountsTypes Ty.innermost body changed bodyAfter after := by
  unfold countTypeAccesses at ends
  simp only [Draft.Ends.bind_iff, Draft.Ends.body_iff, Draft.Ends.setInstructions_iff,
    Draft.Ends.pure_iff] at ends
  obtain ⟨_, _, _, ⟨rfl, rfl, rfl⟩, counted, _, _, counts, _, _, _, ⟨rfl, rfl⟩, rfl, rfl, rfl⟩ := ends
  obtain ⟨rfl, adds, insertions, bare, rfl, each⟩ := insertions_of_typeCalls spelled counts
  have full : Insertion.full insertions =
      (insertions.map fun insertion => insertion.calls ++ [insertion.instruction]).flatten := rfl
  refine ⟨rfl, ⟨insertions, bare, full, ?_, each, ?_⟩, adds⟩
  · rw [Insertion.apply_batch bare.symm, full]
  · simp [List.length_pos_iff]

end Draft

/-- The accesses of a body are counted under the names of types, and nothing else happens.  What is
accessed is what counts exactly if no row of a matrix is accessed. -/
theorem Pass.profileTypes_inserts
    {method : MethodId}
    {body bodyAfter : Body}
    {session after : Session}
    {changed : Bool}
    (spelled : body.AccessesSpelled)
    (ends : Draft.Ends (Pass.onBody .profileTypes method) body session changed bodyAfter after) :
    session.CountsTypes Ty.innermost body changed bodyAfter after ∧
      (session.CountsTypes id body changed bodyAfter after ↔ ¬ body.AccessesRow) := by
  have counts : session.CountsTypes Ty.innermost body changed bodyAfter after :=
    Draft.countTypeAccesses_counts spelled (Draft.Ends.session_bind_iff.1 ends)
  exact ⟨counts, counts.id_iff⟩

/-- In a session that was just started the accesses of every body can be counted. -/
theorem Pass.profileTypes_ends
    {settings : Settings}
    {program : Program}
    (unregistered : program.class? settings.counterClassName = none)
    (method : MethodId)
    (body : Body) :
    ∃ changed bodyAfter after,
      Draft.Ends (Pass.onBody .profileTypes method) body (.start settings program) changed bodyAfter
        after := by
  have ledger := (Session.start_furnishes unregistered).ledger
  obtain ⟨changed, bodyAfter, after, ends, -⟩ :=
    @Draft.countTypeAccesses_succeeds _ _ body _ (Pass.name .profileTypes)
      (program.qualifiedName method) ledger
  exact ⟨changed, bodyAfter, after, Draft.Ends.session_bind_iff.2 ends⟩

/-- The price of an item is put into an array of prices. -/
def priceBody : Body where
  locals := [⟨"prices", .array .int⟩, ⟨"item", .object "shop.Item"⟩]
  instructions :=
    [.assign (.element ⟨0⟩ (.literal (.int 0)))
      (.instanceField ⟨1⟩ (.ofInstance "shop.Item" "price" .int))]

theorem priceBody_accessesSpelled : priceBody.AccessesSpelled := by
  intro expression member
  rcases List.mem_pair.1 member with rfl | rfl
  · exact ⟨.int, rfl, by decide⟩
  · exact trivial

/-- What is accessed counts: the array and the number in it, the item and its price. -/
theorem priceBody_counts_accessed :
    ∃ changed bodyAfter after,
      Draft.Ends (Pass.onBody .profileTypes ⟨"shop.Main", 0⟩) priceBody (.start .standard .empty)
          changed bodyAfter after ∧
        (Session.start .standard .empty).CountsTypes id priceBody changed bodyAfter after := by
  have rowless : ¬ priceBody.AccessesRow := by
    rintro ⟨expression, member, isRow⟩
    rcases List.mem_pair.1 member with rfl | rfl
    · obtain ⟨row, located, -⟩ := isRow
      cases located
    · exact isRow
  obtain ⟨changed, bodyAfter, after, ends⟩ :=
    @Pass.profileTypes_ends .standard .empty rfl ⟨"shop.Main", 0⟩ priceBody
  exact ⟨changed, bodyAfter, after, ends,
    (Pass.profileTypes_inserts priceBody_accessesSpelled ends).2.2 rowless⟩

/-- A row of a matrix is read. -/
def matrixBody : Body where
  locals := [⟨"matrix", .array (.array .int)⟩, ⟨"row", .array .int⟩]
  instructions := [.assign (.variable ⟨1⟩) (.element ⟨0⟩ (.literal (.int 0)))]

/-- No number is accessed, but the access counts for the numbers as well. -/
theorem matrixBody_counts_numbers :
    matrixBody.AccessesSpelled ∧
      ∃ changed bodyAfter after,
        Draft.Ends (Pass.onBody .profileTypes ⟨"shop.Main", 0⟩) matrixBody (.start .standard .empty)
            changed bodyAfter after ∧
          ¬ (Session.start .standard .empty).CountsTypes id matrixBody changed bodyAfter after := by
  have spelled : matrixBody.AccessesSpelled := by
    intro expression member
    rcases List.mem_pair.1 member with rfl | rfl
    · exact trivial
    · exact ⟨.array .int, rfl, by decide⟩
  have row : matrixBody.AccessesRow :=
    ⟨.element ⟨0⟩ (.literal (.int 0)), List.mem_pair.2 (.inr rfl), .int, rfl, rfl⟩
  obtain ⟨changed, bodyAfter, after, ends⟩ :=
    @Pass.profileTypes_ends .standard .empty rfl ⟨"shop.Main", 0⟩ matrixBody
  have counts := Draft.countTypeAccesses_counts spelled (Draft.Ends.session_bind_iff.1 ends)
  exact ⟨spelled, changed, bodyAfter, after, ends, fun accessed => counts.id_iff.1 accessed row⟩

end AccessProfiler
