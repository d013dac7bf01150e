import AccessProfiler.Proofs.CountingSteps
import AccessProfiler.Proofs.FurnishedLookups

/-!
# Steps that count succeed

The steps on a body that count always succeed.  Two of them change the body in a way that is known
exactly: a constructor is patched, and the calls that count accesses to instance fields are put in
front of the instructions that make them (`Body.counted`).  The other two add calls that count on
static counters, and nothing else.
-/

namespace AccessProfiler

/-- The body with the calls of a session that count accesses to instance fields. -/
def Body.counted (session : Session) (body : Body) : Body :=
  { body with
    instructions :=
      body.instructions.flatMap fun instruction =>
        FieldCount.calls session instruction ++ [instruction] }

namespace FieldCount

variable {counter : String} {session reference : Session}

/-- Nothing is counted for a call that counts on a static counter. -/
theorem calls_of_tallies
    {program : Program}
    {call : Instruction}
    (tallies : program.Tally counter call) :
    calls session call = [] := by
  obtain ⟨name, -, rfl⟩ := tallies
  rfl

theorem of_eq
    (profiles : session.profiles = reference.profiles)
    (declaring :
      ∀ field : FieldRef, field.Plain counter →
        session.declaringClass field = reference.declaringClass field)
    (access : Access)
    {expression : Expression}
    (plain : expression.Plain counter) :
    FieldCount.of session access expression = FieldCount.of reference access expression := by
  cases expression with
  | instanceField base field => simp only [FieldCount.of, profiles, declaring field plain]
  | _ => rfl

/-- Sessions that agree on profiles, and on where fields are declared, insert the same calls in front
of an instruction that names nothing that counting added. -/
theorem calls_eq
    (profiles : session.profiles = reference.profiles)
    (declaring :
      ∀ field : FieldRef, field.Plain counter →
        session.declaringClass field = reference.declaringClass field)
    {instruction : Instruction}
    (plain : instruction.Plain counter) :
    calls session instruction = calls reference instruction := by
  cases instruction with
  | assign place value =>
    simp only [calls, ofInstruction, of_eq profiles declaring .write plain.1,
      of_eq profiles declaring .read plain.2]
  | _ => rfl

/-- A call that is inserted counts an access to a field of an instrumented class. -/
theorem exists_of_mem_calls
    {instruction call : Instruction}
    (member : call ∈ calls session instruction) :
    ∃ base field profile access, Expression.instanceField base field ∈ instruction.expressions ∧
      session.profiles.get? (session.declaringClass field) = some profile ∧
      call = profile.countingCall base access := by
  have ofSide {access : Access} {expression : Expression}
      (found : (FieldCount.of session access expression).call? = some call) :
      ∃ base field profile, expression = .instanceField base field ∧
        session.profiles.get? (session.declaringClass field) = some profile ∧
        call = profile.countingCall base access := by
    cases expression with
    | instanceField base field =>
      rw [FieldCount.of] at found
      dsimp only at found
      split at found
      · cases found
      · split at found
        · rename_i profile known
          cases found
          exact ⟨base, field, profile, rfl, known, rfl⟩
        · cases found
    | _ => cases found
  obtain ⟨entry, listed, found⟩ := List.mem_filterMap.1 member
  cases instruction with
  | assign place value =>
    simp only [ofInstruction, List.mem_cons, List.not_mem_nil, or_false] at listed
    rcases listed with rfl | rfl
    · obtain ⟨base, field, profile, rfl, known, rfl⟩ := ofSide found
      exact ⟨base, field, profile, .write, List.mem_cons_self, known, rfl⟩
    · obtain ⟨base, field, profile, rfl, known, rfl⟩ := ofSide found
      exact ⟨base, field, profile, .read, List.mem_cons_of_mem _ List.mem_cons_self, known, rfl⟩
  | _ => cases listed

end FieldCount

namespace Draft

variable
    {Value : Type}
    {counter : String}
    {sink : Sink}
    {body : Body}
    {session : Session}
    {pass method : String}

/-- What follows on an event being recorded does not depend on the events. -/
theorem record_bind
    {event : Event}
    {next : Unit → Draft Value}
    {Holds : Value → Body → Session → Prop}
    (succeeds : ∀ journal, Draft.Succeeds (next ()) body { session with journal } Holds) :
    Draft.Succeeds (record event >>= next) body session Holds := by
  obtain ⟨value, bodyAfter, after, ends, holds⟩ := succeeds (session.journal ++ [event])
  exact ⟨value, bodyAfter, after,
    Draft.Ends.bind_iff.2 ⟨(), _, _, Draft.Ends.record_iff.2 ⟨rfl, rfl⟩, ends⟩, holds⟩

theorem records_bind
    {events : List Event}
    {next : Unit → Draft Value}
    {Holds : Value → Body → Session → Prop}
    (succeeds : ∀ journal, Draft.Succeeds (next ()) body { session with journal } Holds) :
    Draft.Succeeds ((events.forM fun event => record (event.recordedBy pass)) >>= next) body session
      Holds := by
  have recorded :
      Draft.Succeeds (events.forM fun event => record (event.recordedBy pass)) body session
        fun _ bodyAfter after => bodyAfter = body ∧ ∃ journal, after = { session with journal } := by
    induction events generalizing session with
    | nil => exact .pure ⟨rfl, _, rfl⟩
    | cons event rest hypothesis =>
      apply record_bind
      intro journal
      refine Draft.Succeeds.mono (hypothesis fun later => succeeds later) ?_
      rintro _ _ _ ⟨rfl, later, rfl⟩
      exact ⟨rfl, later, rfl⟩
  refine recorded.bind ?_
  rintro _ _ _ ⟨rfl, journal, rfl⟩
  exact succeeds journal

/-- The calls that count accesses to instance fields can always be inserted. -/
theorem countFieldAccesses_succeeds :
    Draft.Succeeds (countFieldAccesses pass method) body session fun _ bodyAfter after =>
      bodyAfter = body.counted session ∧ ∃ journal, after = { session with journal } := by
  unfold countFieldAccesses
  apply Draft.Succeeds.session_bind
  apply Draft.Succeeds.body_bind
  apply records_bind
  intro journal
  apply Draft.Succeeds.setInstructions_bind
  exact .pure ⟨rfl, journal, rfl⟩

/-- A constructor that binds its receiver is patched or skipped. -/
theorem patchConstructor_of_receiver?
    (sink : Sink)
    (profile : Profile)
    {this : LocalId}
    (received : body.receiver? = some this) :
    ∃ outcome, profile.patchConstructor sink body = .ok outcome := by
  unfold Profile.patchConstructor
  rw [received]
  dsimp only
  split
  · exact ⟨_, rfl⟩
  · exact ⟨_, rfl⟩

/-- A constructor of an instrumented class that binds its receiver can be patched. -/
theorem assignSerial_succeeds
    {id : MethodId}
    {profile : Profile}
    {this : LocalId}
    (reports : session.settings.sink = sink)
    (known : session.profiles.get? id.owner = some profile)
    (received : body.receiver? = some this) :
    Draft.Succeeds (assignSerial pass method id) body session fun _ bodyAfter after =>
      bodyAfter = profile.patched sink body ∧ ∃ journal, after = { session with journal } := by
  obtain ⟨outcome, patches⟩ := patchConstructor_of_receiver? sink profile received
  unfold assignSerial
  apply Draft.Succeeds.session_bind
  rw [known]
  dsimp only
  apply Draft.Succeeds.body_bind
  rw [reports, patches]
  have patching :
      AccessProfiler.Succeeds (Transform.ofDefect (.ok outcome)) session fun result after =>
        result = outcome ∧ after = session :=
    ⟨outcome, session, Transform.ends_ofDefect.2 ⟨rfl, rfl⟩, rfl, rfl⟩
  refine Draft.Succeeds.lift_bind patching ?_
  rintro result now ⟨rfl, rfl⟩
  cases result with
  | error skip => exact .pure ⟨by rw [Profile.patched, patches], now.journal, rfl⟩
  | ok patched =>
    apply Draft.Succeeds.set_bind
    apply record_bind
    intro journal
    exact .pure ⟨by rw [Profile.patched, patches], journal, rfl⟩

/-- A constructor that does not bind its receiver is not patched. -/
theorem assignSerial_unbound
    {id : MethodId}
    {profile : Profile}
    (known : session.profiles.get? id.owner = some profile)
    (unbound : body.receiver? = none) :
    (assignSerial pass method id).on body session =
      ((.error (.malformed (.receiverUnbound profile.className)), body), session) := by
  have patches :
      profile.patchConstructor session.settings.sink body =
        .error (.receiverUnbound profile.className) := by
    rw [Profile.patchConstructor, unbound]
  unfold assignSerial
  rw [on_session_bind, known]
  dsimp only
  rw [on_body_bind, patches]
  rfl

/-- After a step that adds calls which count on static counters, and nothing else. -/
structure Adds
    (counter : String)
    (sink : Sink)
    (body : Body)
    (before : Session)
    (bodyAfter : Body)
    (after : Session) : Prop where
  ledger : after.Ledger counter sink
  extension : before.Extends counter after
  tallied : body.Tallied (after.program.Tally counter) bodyAfter

theorem typeCalls_succeeds
    (ledger : session.Ledger counter sink)
    (index : Nat)
    (access : Access)
    (keys : List String) :
    Draft.Succeeds (typeCalls pass method index access keys) body session fun calls bodyAfter after =>
      bodyAfter = body ∧ after.Ledger counter sink ∧ session.Extends counter after ∧
        ∀ call ∈ calls, after.program.Tally counter call := by
  unfold typeCalls
  refine Draft.Succeeds.mapM
    (fun _ calls after => after.Ledger counter sink ∧ session.Extends counter after ∧
      ∀ call ∈ calls, after.program.Tally counter call)
    ⟨ledger, .refl _, fun _ member => absurd member List.not_mem_nil⟩ ?_
  intro done key rest calls state _ reached
  obtain ⟨ledgerNow, extension, tallies⟩ := reached
  refine Draft.Succeeds.lift_bind (Transform.typeCounter_succeeds ledgerNow key) ?_
  rintro found counted ⟨ledgerCounted, further, called⟩
  apply record_bind
  intro journal
  refine .pure ⟨rfl, ledgerCounted.annotate _ _ journal,
    (extension.trans further).trans (.annotate _ _ _ journal), ?_⟩
  intro call member
  rcases List.mem_append.1 member with old | new
  · exact (tallies call old).mono (further.grows.program.offers counter)
  · rw [List.mem_singleton.1 new]
    exact called access

theorem instructionTypeCalls_succeeds
    (ledger : session.Ledger counter sink)
    (index : Nat)
    (seen : Body)
    (instruction : Instruction) :
    Draft.Succeeds (instructionTypeCalls pass method index seen instruction) body session
      fun calls bodyAfter after =>
        bodyAfter = body ∧ after.Ledger counter sink ∧ session.Extends counter after ∧
          ∀ call ∈ calls, after.program.Tally counter call := by
  cases instruction with
  | assign place value =>
    unfold instructionTypeCalls
    apply Draft.Succeeds.session_bind
    refine (typeCalls_succeeds ledger index .write _).bind ?_
    rintro written _ first ⟨rfl, ledgerFirst, toFirst, talliesWritten⟩
    apply Draft.Succeeds.session_bind
    refine (typeCalls_succeeds ledgerFirst index .read _).bind ?_
    rintro read _ second ⟨rfl, ledgerSecond, toSecond, talliesRead⟩
    refine .pure ⟨rfl, ledgerSecond, toFirst.trans toSecond, ?_⟩
    intro call member
    rcases List.mem_append.1 member with before | after
    · exact (talliesWritten call before).mono (toSecond.grows.program.offers counter)
    · exact talliesRead call after
  | _ => exact .pure ⟨rfl, ledger, .refl _, fun _ member => absurd member List.not_mem_nil⟩

/-- Calls that count accesses for types can always be added. -/
theorem countTypeAccesses_succeeds (ledger : session.Ledger counter sink) :
    Draft.Succeeds (countTypeAccesses pass method) body session fun _ bodyAfter after =>
      Adds counter sink body session bodyAfter after := by
  unfold countTypeAccesses
  apply Draft.Succeeds.body_bind
  refine Draft.Succeeds.bind (Draft.Succeeds.mapM
    (fun done blocks after => after.Ledger counter sink ∧ session.Extends counter after ∧
      Tallied (after.program.Tally counter) (done.map Prod.fst) blocks.flatten)
    ⟨ledger, .refl _, .done⟩ ?_) ?_
  · rintro done ⟨instruction, index⟩ rest blocks state _ ⟨ledgerNow, extension, tallied⟩
    refine (instructionTypeCalls_succeeds ledgerNow index body instruction).bind ?_
    rintro calls _ after ⟨rfl, ledgerAfter, further, tallies⟩
    refine .pure ⟨rfl, ledgerAfter, extension.trans further, ?_⟩
    rw [List.map_append, List.flatten_append, List.flatten_singleton]
    refine (tallied.mono fun call => Program.Tally.mono (further.grows.program.offers counter)).append
      (.tallies_append tallies ?_)
    exact .refl [instruction]
  · rintro blocks _ after ⟨rfl, ledgerAfter, extension, tallied⟩
    rw [List.zipIdx_map_fst] at tallied
    apply Draft.Succeeds.setInstructions_bind
    exact .pure ⟨ledgerAfter, extension, ⟨rfl, tallied⟩⟩

/-- A call that counts the calls of the method can always be added. -/
theorem countCalls_succeeds (ledger : session.Ledger counter sink) (id : MethodId) :
    Draft.Succeeds (countCalls pass id) body session fun _ bodyAfter after =>
      Adds counter sink body session bodyAfter after := by
  unfold countCalls
  apply Draft.Succeeds.session_bind
  dsimp only
  split
  · exact .pure ⟨ledger, .refl _, .refl _⟩
  · refine Draft.Succeeds.lift_bind (Transform.callCounter_succeeds ledger _) ?_
    rintro found counted ⟨ledgerCounted, extension, called⟩
    apply Draft.Succeeds.body_bind
    apply Draft.Succeeds.body_bind
    rw [splitAt_bindingCount]
    apply Draft.Succeeds.setInstructions_bind
    apply Draft.Succeeds.session_bind
    apply record_bind
    intro journal
    refine .pure ⟨ledgerCounted.annotate _ _ journal, extension.trans (.annotate _ _ _ journal), rfl, ?_⟩
    have whole : body.bindings ++ body.unbound = body.instructions := by
      simp [Body.bindings, Body.unbound]
    show Tallied _ body.instructions (body.bindings ++ found.call :: body.unbound)
    rw [← whole]
    exact (Tallied.refl _).append (.tally called (.refl _))

end Draft
end AccessProfiler
