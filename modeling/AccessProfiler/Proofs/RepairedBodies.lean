import AccessProfiler.Proofs.RepairedInstructions

/-!
# Repairing a body

The repair scan keeps or replaces every instruction of a body (`Session.Scans`).  What it does to each
depends on the body as it was.  Afterwards nothing is left to adapt; what has no adaptation is what was
there, and an event was recorded for it (`Session.Repairs`).  A scan of the body that came out finds
nothing more to do (`Draft.repair_repairs`).
-/

namespace AccessProfiler

namespace Session

/-- What is recorded of the instructions of a method. -/
def repairEvents (session : Session) (body : Body) (result : Ty) (method : String) : List Event :=
  body.instructions.zipIdx.filterMap (session.repairEvent? body result method)

/-- After a body was scanned: each instruction is kept or replaced, and only locals and events were
added. -/
structure Scans
    (session : Session)
    (result : Ty)
    (method : String)
    (body : Body)
    (count : Nat)
    (bodyAfter : Body)
    (after : Session) : Prop where
  locals : body.locals <+: bodyAfter.locals
  replaced :
    ∃ repaired : List (Instruction × Option (List Instruction)),
      repaired.map Prod.fst = body.instructions ∧
        (repaired.flatMap fun entry => entry.2.getD [entry.1]) = bodyAfter.instructions ∧
        (repaired.countP fun entry => entry.2.isSome) = count ∧
        ∀ entry ∈ repaired, session.Replaces result body bodyAfter entry.1 entry.2
  recorded :
    after =
      { session with journal := session.journal ++ session.repairEvents body result method }

/-- After a body was repaired: nothing is left to adapt.  What has no adaptation is what was there, and an
event was recorded for it; all the others were adapted, and as many events recorded. -/
structure Repairs
    (session : Session)
    (result : Ty)
    (method : String)
    (body : Body)
    (count : Nat)
    (bodyAfter : Body)
    (after : Session) : Prop where
  scans : session.Scans result method body count bodyAfter after
  settled :
    ∀ instruction ∈ bodyAfter.instructions,
      after.planOf? bodyAfter result instruction = none ∨
        after.planOf? bodyAfter result instruction = some .unsupported
  types :
    ∀ instruction ∈ body.instructions,
      bodyAfter.transfer? result instruction = body.transfer? result instruction
  lacking :
    bodyAfter.instructions.filter (after.lacksAdaptation bodyAfter result) =
      body.instructions.filter (session.lacksAdaptation body result)
  skipped :
    ∀ index,
      (∃ event ∈ session.repairEvents body result method,
          event.kind = .skippedUnsupported ∧ event.location = some index) ↔
        ∃ instruction, body.instructions[index]? = some instruction ∧
          session.lacksAdaptation body result instruction
  adapted : count = body.instructions.countP (session.adapts body result)
  inserted :
    ((session.repairEvents body result method).countP fun event => event.kind = .adaptationInserted) =
      count

end Session

namespace Draft

variable {body : Body} {session : Session} {result : Ty} {method : String}

theorem toList_append_filterMap
    {Item Image : Type}
    (image? : Item → Option Image)
    (item : Item)
    (rest : List Item) :
    (image? item).toList ++ rest.filterMap image? = (item :: rest).filterMap image? := by
  rw [List.filterMap_cons]
  cases image? item <;> rfl

/-- The instructions of a body are repaired one after the other.  What is done to each depends on the body
as it was at the beginning. -/
theorem repairInstructions_succeeds
    {original : Body}
    {instructions : List Instruction}
    {start : Nat}
    (built : session.BuiltWrappers)
    (declared : ∀ instruction ∈ instructions, original.Declares instruction)
    (widened : original.Widens body) :
    Draft.Succeeds
      ((instructions.zipIdx start).mapM fun (instruction, index) => do
        return (instruction, ← repairInstruction result method index instruction))
      body session fun repaired bodyAfter after =>
        body.Widens bodyAfter ∧
          after =
            { session with
              journal :=
                session.journal ++
                  (instructions.zipIdx start).filterMap (session.repairEvent? original result method) } ∧
          repaired.map Prod.fst = instructions ∧
          ∀ entry ∈ repaired, session.Replaces result original bodyAfter entry.1 entry.2 := by
  induction instructions generalizing session body start with
  | nil =>
    refine .pure ⟨.refl body, ?_, rfl, fun _ member => absurd member List.not_mem_nil⟩
    simp
  | cons instruction rest hypothesis =>
    have declaredFirst := declared instruction List.mem_cons_self
    have event :
        session.repairEvent? body result method (instruction, start) =
          session.repairEvent? original result method (instruction, start) := by
      rw [Session.repairEvent?, widened.transfer?_eq declaredFirst, Session.repairEvent?]
    obtain ⟨replacement, bodyFirst, _, ends, ⟨widens, rfl, replaces⟩⟩ :=
      repairInstruction_succeeds result method start built (widened.declares declaredFirst)
    obtain ⟨repaired, bodyAfter, _, endsOthers, widensFurther, rfl, same, each⟩ :=
      @hypothesis _ _ (start + 1) (show Session.BuiltWrappers { session with
          journal := session.journal ++
            (session.repairEvent? body result method (instruction, start)).toList } from built)
        (fun other member => declared other (List.mem_cons_of_mem _ member))
        (widened.trans widens)
    rw [List.zipIdx_cons]
    refine ⟨(instruction, replacement) :: repaired, bodyAfter, _,
      Draft.Ends.mapM_cons_iff.2 ⟨_, _, _, _, Draft.Ends.bind_iff.2
        ⟨_, _, _, ends, Draft.Ends.pure_iff.2 ⟨rfl, rfl, rfl⟩⟩, endsOthers, rfl⟩,
      widens.trans widensFurther, ?_, congrArg (instruction :: ·) same, ?_⟩
    · rw [← toList_append_filterMap, ← event, ← List.append_assoc]
      rfl
    · intro entry member
      rcases List.mem_cons.1 member with rfl | later
      · exact (replaces.mono widensFurther).original widened declaredFirst
      · exact (each entry later).withJournal

theorem repair_scans
    (result : Ty)
    (method : String)
    (built : session.BuiltWrappers)
    (declared : ∀ instruction ∈ body.instructions, body.Declares instruction) :
    Draft.Succeeds (repair result method) body session (session.Scans result method body) := by
  unfold repair
  apply Draft.Succeeds.body_bind
  refine (repairInstructions_succeeds built declared (.refl body)).bind ?_
  rintro repaired wider _ ⟨widens, rfl, same, each⟩
  apply Draft.Succeeds.setInstructions_bind
  refine .pure ⟨widens, ⟨repaired, same, rfl, rfl, fun entry member => ?_⟩, rfl⟩
  exact (each entry member).mono (.refl wider)

end Draft

/-! ## What a scan comes to -/

namespace Session

variable
    {session after : Session}
    {result : Ty}
    {method : String}
    {body bodyAfter : Body}
    {count : Nat}

theorem planOf?_of_not_adapts
    {instruction : Instruction}
    (unsuited : session.adapts body result instruction = false) :
    session.planOf? body result instruction = none ∨
      session.planOf? body result instruction = some .unsupported := by
  unfold adapts at unsuited
  split at unsuited
  · rename_i unplanned
    exact .inl unplanned
  · rename_i unsupported
    exact .inr unsupported
  · cases unsuited

theorem not_lacksAdaptation_of_adapts
    {instruction : Instruction}
    (adapts : session.adapts body result instruction) :
    session.lacksAdaptation body result instruction = false := by
  rw [lacksAdaptation, decide_eq_false_iff_not]
  intro unsupported
  rw [Session.adapts, unsupported] at adapts
  cases adapts

/-- What is recorded of an instruction is about the adaptation that it needs. -/
theorem map_repairEvent?
    (session : Session)
    (body : Body)
    (result : Ty)
    (method : String)
    (instruction : Instruction)
    (index : Nat) :
    (session.repairEvent? body result method (instruction, index)).map
        (fun event => (event.kind, event.location)) =
      (session.planOf? body result instruction).map fun adaptation =>
        (adaptation.eventKind, some index) := by
  simp only [repairEvent?, planOf?]
  cases body.transfer? result instruction with
  | none => rfl
  | some types =>
    simp only [Option.bind_some]
    cases session.plan? types.1 types.2 with
    | none => rfl
    | some adaptation => cases adaptation <;> rfl

/-- There is an event for each instruction that is adapted. -/
theorem countP_repairEvents (session : Session) (body : Body) (result : Ty) (method : String) :
    ((session.repairEvents body result method).countP
        fun event => event.kind = .adaptationInserted) =
      body.instructions.countP (session.adapts body result) := by
  have ofInstruction (entry : Instruction × Nat) :
      ((session.repairEvent? body result method entry).map
          fun event => decide (event.kind = .adaptationInserted)).getD false =
        session.adapts body result entry.1 := by
    have kinds :=
      congrArg (Option.map fun pair => decide (pair.1 = EventKind.adaptationInserted))
        (map_repairEvent? session body result method entry.1 entry.2)
    simp only [Option.map_map, Function.comp_def] at kinds
    rw [kinds, adapts]
    cases session.planOf? body result entry.1 with
    | none => rfl
    | some adaptation => cases adaptation <;> rfl
  conv_rhs => rw [← List.zipIdx_map_fst 0 body.instructions, List.countP_map]
  rw [repairEvents, List.countP_filterMap]
  exact List.countP_congr fun entry _ => by rw [ofInstruction]; rfl

/-- There is an event for each instruction that has no adaptation, at its index. -/
theorem mem_repairEvents_skipped {index : Nat} :
    (∃ event ∈ session.repairEvents body result method,
        event.kind = .skippedUnsupported ∧ event.location = some index) ↔
      ∃ instruction, body.instructions[index]? = some instruction ∧
        session.lacksAdaptation body result instruction := by
  constructor
  · rintro ⟨event, member, skipped, located⟩
    obtain ⟨⟨instruction, place⟩, listed, recorded⟩ := List.mem_filterMap.1 member
    have needed := map_repairEvent? session body result method instruction place
    rw [recorded, Option.map_some, skipped, located, eq_comm, Option.map_eq_some_iff] at needed
    obtain ⟨adaptation, planned, same⟩ := needed
    obtain ⟨kind, here⟩ := Prod.mk.inj same
    obtain rfl := Option.some.inj here
    refine ⟨instruction, List.mem_zipIdx_iff_getElem?.1 listed, decide_eq_true ?_⟩
    cases adaptation with
    | unsupported => exact planned
    | _ => cases kind
  · rintro ⟨instruction, found, lacking⟩
    have needed := map_repairEvent? session body result method instruction index
    rw [of_decide_eq_true lacking, Option.map_some, Option.map_eq_some_iff] at needed
    obtain ⟨event, recorded, same⟩ := needed
    obtain ⟨kind, location⟩ := Prod.mk.inj same
    exact ⟨event, List.mem_filterMap.2 ⟨(instruction, index),
      List.mem_zipIdx_iff_getElem?.2 found, recorded⟩, kind, location⟩

/-- What was scanned is repaired. -/
theorem Scans.repairs
    (declared : ∀ instruction ∈ body.instructions, body.Declares instruction)
    (scans : session.Scans result method body count bodyAfter after) :
    session.Repairs result method body count bodyAfter after := by
  have widens : body.Widens bodyAfter := scans.locals
  obtain ⟨repaired, same, full, counted, each⟩ := scans.replaced
  have planAfter (instruction : Instruction) :
      after.planOf? bodyAfter result instruction = session.planOf? bodyAfter result instruction := by
    rw [scans.recorded]
    rfl
  have planKept {instruction : Instruction} (member : instruction ∈ body.instructions) :
      after.planOf? bodyAfter result instruction = session.planOf? body result instruction :=
    (planAfter instruction).trans (widens.planOf?_eq (declared instruction member))
  have entryDeclared {entry : Instruction × Option (List Instruction)} (member : entry ∈ repaired) :
      entry.1 ∈ body.instructions := by
    rw [← same]
    exact List.mem_map_of_mem member
  have isSome {entry : Instruction × Option (List Instruction)} (member : entry ∈ repaired) :
      entry.2.isSome = session.adapts body result entry.1 := by
    have replaces := each entry member
    obtain ⟨instruction, replacement⟩ := entry
    cases replaces with
    | kept unsuited => exact unsuited.symm
    | replaced adapts _ _ => exact adapts.symm
  have adapted : count = body.instructions.countP (session.adapts body result) := by
    rw [← counted, ← same, List.countP_map]
    exact List.countP_congr fun entry member => by rw [isSome member]; rfl
  have settled :
      ∀ instruction ∈ bodyAfter.instructions,
        after.planOf? bodyAfter result instruction = none ∨
          after.planOf? bodyAfter result instruction = some .unsupported := by
    intro instruction member
    rw [← full] at member
    obtain ⟨⟨original, replacement⟩, listed, member⟩ := List.mem_flatMap.1 member
    cases each _ listed with
    | kept unsuited =>
      obtain rfl := List.mem_singleton.1 member
      rw [planKept (entryDeclared listed)]
      exact planOf?_of_not_adapts unsuited
    | replaced adapts _ agree =>
      rw [planAfter]
      exact .inl (agree instruction member).2
  have lacking :
      bodyAfter.instructions.filter (after.lacksAdaptation bodyAfter result) =
        body.instructions.filter (session.lacksAdaptation body result) := by
    rw [← full, ← same, List.map_eq_flatMap, List.filter_flatMap, List.filter_flatMap]
    refine List.flatMap_congr fun entry listed => ?_
    have replaces := each entry listed
    have kept := planKept (entryDeclared listed)
    obtain ⟨original, replacement⟩ := entry
    cases replaces with
    | kept unsuited =>
      refine List.filter_congr fun instruction member => ?_
      obtain rfl := List.mem_singleton.1 member
      rw [lacksAdaptation, kept, lacksAdaptation]
    | replaced adapts _ agree =>
      have nothing := List.filter_eq_nil_iff.2 fun step member =>
        show ¬ after.lacksAdaptation bodyAfter result step = true by
          rw [lacksAdaptation, planAfter, (agree step member).2]
          exact nofun
      have notLacking := not_lacksAdaptation_of_adapts adapts
      rw [Option.getD_some, nothing, List.filter_cons_of_neg (by simp [notLacking]), List.filter_nil]
  exact
    { scans := scans
      settled := settled
      types := fun instruction member => widens.transfer?_eq (declared instruction member)
      lacking := lacking
      skipped := fun index => mem_repairEvents_skipped
      adapted := adapted
      inserted := (countP_repairEvents session body result method).trans adapted.symm }

/-- Every local that the new body uses is declared in it. -/
theorem Scans.declares
    (declared : ∀ instruction ∈ body.instructions, body.Declares instruction)
    (scans : session.Scans result method body count bodyAfter after) :
    ∀ instruction ∈ bodyAfter.instructions, bodyAfter.Declares instruction := by
  have widens : body.Widens bodyAfter := scans.locals
  obtain ⟨repaired, same, full, -, each⟩ := scans.replaced
  intro instruction member
  rw [← full] at member
  obtain ⟨⟨original, replacement⟩, listed, member⟩ := List.mem_flatMap.1 member
  cases each _ listed with
  | kept _ =>
    obtain rfl := List.mem_singleton.1 member
    refine widens.declares (declared _ ?_)
    rw [← same]
    exact List.mem_map_of_mem listed
  | replaced _ _ agree => exact (agree instruction member).1

/-- A scan that finds nothing to adapt leaves the instructions as they are. -/
theorem Scans.unchanged
    (unsuited : ∀ instruction ∈ body.instructions, session.adapts body result instruction = false)
    (scans : session.Scans result method body count bodyAfter after) :
    count = 0 ∧ bodyAfter.instructions = body.instructions := by
  obtain ⟨repaired, same, full, counted, each⟩ := scans.replaced
  have kept {entry : Instruction × Option (List Instruction)} (member : entry ∈ repaired) :
      entry.2 = none := by
    have unsuitedHere := unsuited entry.1 (same ▸ List.mem_map_of_mem member)
    have replaces := each entry member
    obtain ⟨instruction, replacement⟩ := entry
    cases replaces with
    | kept _ => rfl
    | replaced adapts _ _ => exact absurd (unsuitedHere.symm.trans adapts) Bool.false_ne_true
  constructor
  · rw [← counted, List.countP_eq_zero]
    intro entry member
    rw [kept member]
    exact Bool.false_ne_true
  · rw [← full, ← same, List.map_eq_flatMap]
    exact List.flatMap_congr fun entry member => by rw [kept member, Option.getD_none]

end Session

/-- Where the wrappers are those that were made on request, and every local that a body uses is declared,
the body can be repaired, and to repair it again changes no instruction. -/
theorem Draft.repair_repairs
    {session : Session}
    {body : Body}
    (built : session.BuiltWrappers)
    (declared : ∀ instruction ∈ body.instructions, body.Declares instruction)
    (result : Ty)
    (method : String) :
    ∃ count bodyAfter after,
      Draft.Ends (repair result method) body session count bodyAfter after ∧
        session.Repairs result method body count bodyAfter after ∧
        ∃ bodyAgain afterAgain,
          Draft.Ends (repair result method) bodyAfter after 0 bodyAgain afterAgain ∧
            bodyAgain.instructions = bodyAfter.instructions := by
  obtain ⟨count, bodyAfter, after, ends, scans⟩ :=
    Draft.repair_scans result method built declared
  have repairs := scans.repairs declared
  have builtAfter : after.BuiltWrappers := by
    rw [scans.recorded]
    exact built
  have unsuited :
      ∀ instruction ∈ bodyAfter.instructions, after.adapts bodyAfter result instruction = false := by
    intro instruction member
    rw [Session.adapts]
    rcases repairs.settled instruction member with agrees | unsupported
    · rw [agrees]
    · rw [unsupported]
  obtain ⟨countAgain, bodyAgain, afterAgain, endsAgain, scansAgain⟩ :=
    Draft.repair_scans result method builtAfter (scans.declares declared)
  obtain ⟨rfl, same⟩ := scansAgain.unchanged unsuited
  exact ⟨count, bodyAfter, after, ends, repairs, bodyAgain, afterAgain, endsAgain, same⟩

/-- An array of numbers is put where a wrapper of such arrays is declared. -/
def numbersBody : Body where
  locals := [⟨"numbers", .array .int⟩, ⟨"kept", .object "heapscope.generated.intArray"⟩]
  instructions := [.assign (.variable ⟨1⟩) (.variable ⟨0⟩), .return none]

/-- Once the wrapper has been made, it takes one adaptation. -/
theorem numbersBody_repaired :
    (∀ instruction ∈ numbersBody.instructions, numbersBody.Declares instruction) ∧
      ∃ session, session.BuiltWrappers ∧
        ∃ bodyAfter after,
          Draft.Ends (Draft.repair .void "shop.Main.main") numbersBody session 1 bodyAfter after ∧
            session.Repairs .void "shop.Main.main" numbersBody 1 bodyAfter after := by
  have declared : ∀ instruction ∈ numbersBody.instructions, numbersBody.Declares instruction := by
    intro instruction member id used
    rcases List.mem_pair.1 member with rfl | rfl
    · rcases List.mem_pair.1 used with rfl | rfl <;> decide
    · cases used
  obtain ⟨-, session, -, served, built⟩ :=
    @Transform.requests_build .standard .empty (fun _ _ => rfl) [.int]
  have named : Wrapper.nameFor? .standard .int = some "heapscope.generated.intArray" := by decide +kernel
  obtain ⟨wrapper, known, element⟩ :
      ∃ wrapper, session.wrappers.get? "heapscope.generated.intArray" = some wrapper ∧
        wrapper.element = .int := by
    have elements := served.elements "heapscope.generated.intArray"
    rw [List.find?_cons_of_pos (by simp [named])] at elements
    exact Option.map_eq_some_iff.1 elements
  obtain ⟨count, bodyAfter, after, ends, repairs, -⟩ :=
    Draft.repair_repairs built declared .void "shop.Main.main"
  have planned : session.plan? (.array .int) (.object "heapscope.generated.intArray") =
      some (.wrap wrapper) := by
    have apart :
        session.program.isAssignable (.array .int) (.object "heapscope.generated.intArray") = false := by
      rw [Program.isAssignable]
      decide
    have wraps :
        session.wrapperOfType? (.object "heapscope.generated.intArray") = some wrapper := known
    have agrees : session.program.isAssignable (.array .int) wrapper.arrayType := by
      rw [Wrapper.arrayType, element]
      exact Program.isAssignable_refl _ _
    have unwrapped : session.wrapperOfType? (.array .int) = none := rfl
    simp [Session.plan?, apart, wraps, agrees, unwrapped, Ty.isArray]
  have one : count = 1 := by
    have moved :
        numbersBody.transfer? .void (.assign (.variable ⟨1⟩) (.variable ⟨0⟩)) =
          some (.array .int, .object "heapscope.generated.intArray") := rfl
    have adapts : session.adapts numbersBody .void (.assign (.variable ⟨1⟩) (.variable ⟨0⟩)) := by
      simp only [Session.adapts, Session.planOf?, moved, Option.bind_some, planned]
    exact repairs.adapted.trans (List.countP_cons_of_pos adapts)
  subst one
  exact ⟨declared, session, built, bodyAfter, after, ends, repairs⟩

end AccessProfiler
