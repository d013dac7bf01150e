import AccessProfiler.Proofs.Balance

/-!
# Bodies of constructors with counting

Between the instructions of a body counting puts calls, none of them of a constructor.  Besides it gives
constructors of instrumented classes the block that assigns the serial number, unless they call another
constructor of their class.  So the rewritten body of a constructor binds the receiver first, and then
calls one constructor on it and gives it a number at most once (`Construction`); all else that it does is
calm.
-/

namespace AccessProfiler

/-- A call of a method that is no constructor. -/
def Instruction.CallsMethod (instruction : Instruction) : Prop :=
  ∃ target, instruction = .invoke target ∧ target.method.name ≠ constructorName

namespace Tallied

variable {Tally : Instruction → Prop} {list longer : List Instruction}

/-- Calls between instructions are between those that are reached. -/
theorem reached
    (straight : ∀ operand, ¬ Tally (.return operand))
    (tallied : Tallied Tally list longer) :
    Tallied Tally (Run.reached list) (Run.reached longer) := by
  induction tallied with
  | done => exact .done
  | @tally call list longer tallies _ hypothesis =>
    cases call with
    | «return» operand => exact absurd tallies (straight operand)
    | _ => exact .tally tallies hypothesis
  | @keep instruction list longer _ hypothesis =>
    cases instruction with
    | «return» operand => exact .done
    | _ => exact .keep hypothesis

theorem countP_eq
    {counts : Instruction → Bool}
    (apart : ∀ call, Tally call → counts call = false)
    (tallied : Tallied Tally list longer) :
    longer.countP counts = list.countP counts := by
  induction tallied with
  | done => rfl
  | tally tallies _ hypothesis =>
    rw [List.countP_cons_of_neg (by simp [apart _ tallies]), hypothesis]
  | keep _ hypothesis => rw [List.countP_cons, List.countP_cons, hypothesis]

theorem mem
    {instruction : Instruction}
    (tallied : Tallied Tally list longer)
    (member : instruction ∈ list) :
    instruction ∈ longer := by
  induction tallied with
  | done => exact member
  | tally _ _ hypothesis => exact List.mem_cons_of_mem _ (hypothesis member)
  | keep _ hypothesis =>
    rcases List.mem_cons.1 member with rfl | later
    · exact List.mem_cons_self
    · exact List.mem_cons_of_mem _ (hypothesis later)

/-- Calls may stand in front of each instruction. -/
theorem of_flatMap
    {calls : Instruction → List Instruction}
    (tallies : ∀ instruction, ∀ call ∈ calls instruction, Tally call)
    (list : List Instruction) :
    Tallied Tally list (list.flatMap fun instruction => calls instruction ++ [instruction]) := by
  induction list with
  | nil => exact .done
  | cons instruction rest hypothesis =>
    rw [List.flatMap_cons, List.append_assoc]
    exact tallies_append (tallies instruction) (.keep hypothesis)

end Tallied

namespace Run

/-- What is reached comes first. -/
theorem reached_prefix (list : List Instruction) : reached list <+: list := by
  induction list with
  | nil => exact List.nil_prefix
  | cons instruction rest hypothesis =>
    cases instruction with
    | «return» operand => exact List.nil_prefix
    | _ => exact List.cons_prefix_cons.2 ⟨rfl, hypothesis⟩

end Run

namespace Session.Completes

variable {settings : Settings} {program : Program} {session : Session}

/-- Constructors of a program with counting were there before. -/
theorem method?_of_constructor
    (completes : session.Completes settings program)
    {id : MethodId}
    {current : Method}
    (found : session.program.method? id = some current)
    (named : current.name = constructorName) :
    id.owner ≠ settings.counterClassName ∧
      ∃ method, program.method? id = some method ∧ method.name = constructorName ∧
        Method.Tallied (session.program.Tally settings.counterClassName)
          { method with body := method.body.map (planned settings program session id) } current := by
  rcases completes.method?_cases found with
    ⟨-, key, label, owner, field, -, -, rfl⟩ |
      ⟨differs, ⟨method, has, related⟩ | ⟨profile, owned, added, member, related⟩⟩
  · have first := congrArg (fun name => name.toList.head?) named
    simp [tallyMethod, constructorName] at first
  · exact ⟨differs, method, has, related.name_eq.symm.trans named, related⟩
  · have same : added.name = constructorName := related.name_eq.symm.trans named
    obtain ⟨static, -, rfl⟩ := completes.furnishes.ledger.profiles _ _ owned
    simp only [Profile.methods, List.mem_cons, List.not_mem_nil, or_false] at member
    rcases member with rfl | rfl
    · exact absurd (show readIncrementor = constructorName from same) (by decide)
    · exact absurd (show writeIncrementor = constructorName from same) (by decide)

/-- A method of a program with counting is a constructor if it is named so. -/
theorem isConstructor_eq
    (completes : session.Completes settings program)
    (unregistered : program.class? settings.counterClassName = none)
    {id : MethodId}
    {current : Method}
    (found : session.program.method? id = some current) :
    program.isConstructor id = (current.name == constructorName) := by
  by_cases named : current.name = constructorName
  · obtain ⟨-, method, has, constructs, -⟩ := completes.method?_of_constructor found named
    rw [Program.isConstructor, has, Option.any_some, Method.isConstructor, constructs, named]
  · rw [beq_eq_false_iff_ne.2 named, Program.isConstructor]
    cases has : program.method? id with
    | none => rfl
    | some method =>
      have differs : id.owner ≠ settings.counterClassName := by
        obtain ⟨declaration, declares, -⟩ := Option.bind_eq_some_iff.1 has
        rintro same
        rw [same, unregistered] at declares
        cases declares
      obtain ⟨changed, there, related⟩ := completes.furnishes.furnished.method?_eq_some differs has
      obtain rfl := Option.some.inj (found.symm.trans there)
      have same : current.name = method.name := related.name_eq
      exact beq_eq_false_iff_ne.2 (same ▸ named)

/-- Methods that count on static counters are no constructors. -/
theorem callsMethod_of_tally
    (completes : session.Completes settings program)
    {call : Instruction}
    (tally : session.program.Tally settings.counterClassName call) :
    call.CallsMethod := by
  obtain ⟨name, offered, rfl⟩ := tally
  refine ⟨_, rfl, fun named => ?_⟩
  obtain ⟨id, found⟩ := Program.findMethod?_isSome_of_offers offered
  obtain ⟨owned, current, there, same, -⟩ := Program.findMethod?_eq_some found
  exact (completes.method?_of_constructor there (same.trans named)).1 owned

/-- What becomes of a body: besides what constructors get, calls that call no constructors. -/
theorem exists_rewritten
    (completes : session.Completes settings program)
    {id : MethodId}
    {method current : Method}
    {entered : Body}
    (related :
      Method.Tallied (session.program.Tally settings.counterClassName)
        { method with body := method.body.map (planned settings program session id) } current)
    (given : current.body = some entered) :
    ∃ body, method.body = some body ∧
      Tallied Instruction.CallsMethod
        ((withProfiles settings program session.profiles).patching id body).instructions
        entered.instructions := by
  have bodies := related.body
  rw [given] at bodies
  cases original : method.body with
  | none =>
    rw [original] at bodies
    cases bodies
  | some body =>
    rw [original] at bodies
    cases bodies with
    | some tallied =>
      refine ⟨body, rfl, ?_⟩
      have counted := tallied.instructions.mono fun call tally => completes.callsMethod_of_tally tally
      rw [planned_instructions] at counted
      refine (Tallied.of_flatMap (fun instruction call member => ?_) _).trans counted
      have profiled (name : String) (profile : Profile)
          (known : session.profiles.get? name = some profile) :
          ∃ field, profile = .ofClass name field := by
        obtain ⟨field, -, same⟩ := completes.furnishes.ledger.profiles name profile known
        exact ⟨field, same⟩
      obtain ⟨owner, access, base, rfl⟩ :=
        exists_of_mem_announcements settings program session profiled member
      refine ⟨_, rfl, ?_⟩
      cases access
      · exact show readIncrementor ≠ constructorName by decide
      · exact show writeIncrementor ≠ constructorName by decide

end Session.Completes

/-! ## Which constructors get the block -/

/-- A constructor is patched if none of its instructions says otherwise. -/
theorem Profile.skip?_eq_none_iff {profile : Profile} {this : LocalId} {list : List Instruction} :
    profile.skip? this list = none ↔ ∀ instruction ∈ list, profile.skipOf this instruction = none := by
  rw [Profile.skip?]
  constructor
  · intro unskipped instruction member
    cases found : profile.skipOf this instruction with
    | none => rfl
    | some skip =>
      have listed : skip ∈ list.filterMap (profile.skipOf this) :=
        List.mem_filterMap.2 ⟨instruction, member, found⟩
      have listed : (list.filterMap (profile.skipOf this)).contains skip := List.contains_iff_mem.2 listed
      split at unskipped
      · cases unskipped
      · cases skip with
        | alreadyPatched => contradiction
        | delegating =>
          rw [if_pos listed] at unskipped
          cases unskipped
  · intro none
    have nothing : list.filterMap (profile.skipOf this) = [] := List.filterMap_eq_nil_iff.2 none
    simp [nothing]

theorem Body.bindings_append_unbound (body : Body) : body.bindings ++ body.unbound = body.instructions := by
  simp [Body.bindings, Body.unbound]

/-- What becomes of the instructions of a constructor that binds its receiver. -/
theorem Profile.patched_instructions
    (sink : Sink)
    (profile : Profile)
    {body : Body}
    {this : LocalId}
    (received : body.receiver? = some this) :
    (profile.patched sink body).instructions =
      body.bindings ++
        (if profile.skip? this body.instructions = none then
          profile.serialAssignment sink this ⟨body.locals.length⟩
        else []) ++
        body.unbound := by
  have split :
      (body.newLocal "$serial" .int).2.instructions.splitAt
        (body.newLocal "$serial" .int).2.bindingCount = (body.bindings, body.unbound) :=
    Draft.splitAt_bindingCount body
  rw [Profile.patched, Profile.patchConstructor, received]
  dsimp only
  rw [split]
  cases profile.skip? this body.instructions with
  | none => rfl
  | some skip =>
    rw [if_neg (Option.some_ne_none skip), List.append_nil]
    exact body.bindings_append_unbound.symm

namespace Session

variable {settings : Settings} {program : Program} {session : Session} {id : MethodId}

/-- Only constructors are patched. -/
theorem patching_of_not_isConstructor
    (session : Session)
    (body : Body)
    (other : session.program.isConstructor id = false) :
    session.patching id body = body := by
  have apart : session.patches id = false := by
    rw [patches, Bool.and_eq_false_iff]
    refine .inr ?_
    rw [Program.isConstructor] at other
    cases found : session.program.method? id with
    | none => rfl
    | some method =>
      rw [found, Option.any_some] at other
      rw [Option.any_some, other, Bool.false_and]
  rw [patching, Plan.choose, apart]
  rfl

/-- The block that a constructor gets. -/
def numbering (session : Session) (owner : String) (this : LocalId) (body : Body) : List Instruction :=
  (session.profiles.get? owner).elim [] fun profile =>
    if profile.skip? this body.instructions = none then
      profile.serialAssignment session.settings.sink this ⟨body.locals.length⟩
    else []

/-- What becomes of a constructor that was written by hand. -/
theorem patching_instructions_of_constructor
    (session : Session)
    {method : Method}
    {body : Body}
    {this : LocalId}
    (has : session.program.method? id = some method)
    (constructor : method.isConstructor)
    (written : method.isSynthetic = false)
    (received : body.receiver? = some this) :
    (session.patching id body).instructions =
      body.bindings ++ session.numbering id.owner this body ++ body.unbound := by
  have patches : session.patches id = (session.profiles.get? id.owner).isSome := by
    rw [Session.patches, has, Option.any_some, constructor, written]
    simp
  rw [patching, Plan.choose, patches, numbering]
  cases session.profiles.get? id.owner with
  | none =>
    rw [Option.elim_none, List.append_nil]
    exact body.bindings_append_unbound.symm
  | some profile => exact profile.patched_instructions session.settings.sink received

end Session
/-! ## The shape of a rewritten constructor -/

section Calm

variable {watched : Numbering} {actor : Activation} {instruction : Instruction}

theorem Instruction.CallsMethod.calm (calls : instruction.CallsMethod) : instruction.Calm watched actor := by
  obtain ⟨target, rfl, other⟩ := calls
  constructor
  · intro base field value same
    cases same
  · rintro _ ⟨⟩ named
    exact absurd named other
  · rintro - _ ⟨⟩ named
    exact absurd named other

/-- An instruction that assigns no field and calls nothing is calm. -/
theorem Instruction.calm_of_silent
    (fields : ∀ base field value, instruction ≠ .assign (.instanceField base field) value)
    (silent : instruction.call? = none) :
    instruction.Calm watched actor where
  fields base field value same := absurd same (fields base field value)
  special := by simp [silent]
  outward := by simp [silent]

/-- An instruction of the original program is calm if it does not construct the receiver further. -/
theorem Instruction.calm_of_plain
    {counter : String}
    (plain : instruction.Plain counter)
    (special :
      ∀ target ∈ instruction.call?, target.method.name = constructorName → target.kind = .special)
    (outward :
      actor.builds watched.original watched.slot → ∀ target ∈ instruction.call?,
        target.method.name = constructorName →
          target.receiver ≠ (watched.original.body? actor.method).bind Body.receiver?) :
    instruction.Calm watched actor where
  fields := by
    rintro base field value rfl same
    have plain : field.Plain counter := plain.1
    rw [FieldRef.Plain, same] at plain
    exact absurd plain.2 (by decide)
  special target member named := .inl (special target member named)
  outward := outward

end Calm

/-- The instruction that gives the receiver of a constructor its number. -/
def Body.giving (owner : String) (this : LocalId) (body : Body) : Instruction :=
  .assign (.instanceField this (.ofInstance owner serialField .int)) (.variable ⟨body.locals.length⟩)

/-- The instructions of a constructor in two parts.  In the first the receiver is bound to a local, where
it stays.  In the second a constructor is called on it, and it is given a number so many times. -/
structure Construction
    (watched : Numbering)
    (actor : Activation)
    (this : LocalId)
    (own : Call)
    (giving : Instruction)
    (times : Nat)
    (front rest : List Instruction) : Prop where
  bound : ∃ type, .bind this (.receiver type) ∈ front
  once : front.countP (fun instruction => instruction.assigned? = some this) = 1
  straight : ∀ operand, .return operand ∉ front
  opens : ∀ instruction ∈ front, instruction.Calm watched actor
  keeps : ∀ instruction ∈ rest, instruction.assigned? ≠ some this
  each :
    ∀ instruction ∈ rest,
      instruction = giving ∨ instruction = .invoke own ∨ instruction.Calm watched actor
  gives : (Run.reached rest).count giving = times
  calls : (Run.reached rest).count (.invoke own) = 1

namespace Program.Constructs

variable
    {program : Program}
    {owner counter : String}
    {this : LocalId}
    {own : Call}
    {body : Body}
    (constructs : program.Constructs owner this own body)
include constructs

theorem through : own.receiver = some this ∧ own.method.name = constructorName := by
  have listed : .invoke own ∈ body.instructions.filter (·.constructsThrough this) := by
    rw [constructs.once]
    exact List.mem_singleton_self _
  have through := (List.mem_filter.1 listed).2
  simpa [Instruction.constructsThrough, Instruction.call?] using through

theorem eq_of_through
    {instruction : Instruction}
    (member : instruction ∈ body.instructions)
    (through : instruction.constructsThrough this) :
    instruction = .invoke own := by
  have listed := List.mem_filter.2 ⟨member, through⟩
  rw [constructs.once] at listed
  exact List.mem_singleton.1 listed

/-- The receiver is bound among the bindings. -/
theorem bound : ∃ type, .bind this (.receiver type) ∈ body.bindings := by
  obtain ⟨instruction, member, binds⟩ := List.exists_of_findSome?_eq_some constructs.receives
  cases instruction with
  | bind target source =>
    cases source with
    | receiver type =>
      obtain rfl := Option.some.inj binds
      exact ⟨type, member⟩
    | parameter index type => cases binds
  | _ => cases binds

theorem received : body.receiver? = some this := by
  have whole : body.receiver? = (Body.mk [] (body.bindings ++ body.unbound)).receiver? := by
    rw [body.bindings_append_unbound]
    rfl
  rw [whole, Body.receiver?_append]
  have first : (Body.mk [] body.bindings).receiver? = some this := constructs.receives
  rw [first]
  rfl

/-- The local is assigned in the bindings and not afterwards. -/
theorem assigned :
    body.bindings.countP (fun instruction => instruction.assigned? = some this) = 1 ∧
      ∀ instruction ∈ body.unbound, instruction.assigned? ≠ some this := by
  obtain ⟨type, member⟩ := constructs.bound
  have whole := constructs.keeps
  rw [← body.bindings_append_unbound, List.countP_append] at whole
  have there :
      0 < body.bindings.countP (fun instruction => instruction.assigned? = some this) :=
    List.countP_pos_iff.2 ⟨_, member, by simp [Instruction.assigned?]⟩
  refine ⟨by omega, fun instruction member => ?_⟩
  have never : body.unbound.countP (fun instruction => instruction.assigned? = some this) = 0 := by omega
  simpa using List.countP_eq_zero.1 never instruction member

/-- The call of a constructor on the receiver is made once, after the bindings. -/
theorem count_own : (Run.reached body.unbound).count (.invoke own) = 1 := by
  have straight (operand : Option Operand) : .return operand ∉ body.bindings := fun member =>
    absurd (Body.bindings_isBinding member) (by exact Bool.false_ne_true)
  have reached := constructs.reached
  rw [← body.bindings_append_unbound, Run.reached_append straight] at reached
  have later : .invoke own ∈ Run.reached body.unbound := by
    rcases List.mem_append.1 reached with binding | later
    · exact absurd (Body.bindings_isBinding binding) (by exact Bool.false_ne_true)
    · exact later
  have through : (Instruction.invoke own).constructsThrough this := by
    simp [Instruction.constructsThrough, Instruction.call?, constructs.through]
  have atMost : (Run.reached body.unbound).count (.invoke own) ≤ 1 := by
    calc
      (Run.reached body.unbound).count (.invoke own) ≤ body.unbound.count (.invoke own) :=
        (Run.reached_prefix body.unbound).sublist.count_le _
      _ ≤ body.instructions.count (.invoke own) := by
        rw [← body.bindings_append_unbound]
        exact (List.sublist_append_right _ _).count_le _
      _ ≤ (body.instructions.filter (·.constructsThrough this)).count (.invoke own) :=
        (List.count_filter through).ge
      _ = 1 := by rw [constructs.once, List.count_singleton_self]
  exact le_antisymm atMost (List.count_pos_iff.2 later)

/-- The constructor is skipped if it calls one of its own class. -/
theorem skip?_eq_none_iff
    (plain : ∀ instruction ∈ body.instructions, instruction.Plain counter)
    (static : FieldRef) :
    (Profile.ofClass owner static).skip? this body.instructions = none ↔ own.method.owner ≠ owner := by
  rw [Profile.skip?_eq_none_iff]
  constructor
  · intro none same
    have delegates : (Profile.ofClass owner static).skipOf this (.invoke own) = some .delegating :=
      if_pos ⟨constructs.through.1, constructs.through.2, same⟩
    rw [none _ (Run.mem_of_mem_reached constructs.reached)] at delegates
    cases delegates
  · intro other instruction member
    cases instruction with
    | assign place value =>
      cases place with
      | instanceField base field =>
        refine if_neg fun same => ?_
        have plain : field.Plain counter := (plain _ member).1
        rw [FieldRef.Plain, same] at plain
        exact absurd (show isInstrumentationName serialField = false from plain.2) (by decide)
      | _ => rfl
    | invoke target =>
      refine if_neg ?_
      rintro ⟨received, named, owned⟩
      refine other ?_
      have same := constructs.eq_of_through member (by
        simp [Instruction.constructsThrough, Instruction.call?, received, named])
      cases same
      exact owned
    | _ => rfl

end Program.Constructs

/-- The instructions between the bindings of a constructor and the rest, which give the receiver a number
so many times. -/
structure Block
    (watched : Numbering)
    (actor : Activation)
    (this : LocalId)
    (own : Call)
    (giving : Instruction)
    (times : Nat)
    (list : List Instruction) : Prop where
  straight : ∀ operand, .return operand ∉ list
  keeps : ∀ instruction ∈ list, instruction.assigned? ≠ some this
  each : ∀ instruction ∈ list, instruction = giving ∨ instruction.Calm watched actor
  gives : list.count giving = times
  calls : list.count (.invoke own) = 0

section Rewriting

variable
    {watched : Numbering}
    {actor : Activation}
    {settings : Settings}
    {session : Session}
    {this : LocalId}
    {own : Call}
    {body : Body}

/-- The block that assigns the serial number gives one. -/
theorem Block.of_serialAssignment
    (sink : Sink)
    (static : FieldRef)
    (present : watched.original.body? actor.method = some body)
    (constructs : watched.original.Constructs actor.method.owner this own body) :
    Block watched actor this own (body.giving actor.method.owner this) 1
      ((Profile.ofClass actor.method.owner static).serialAssignment sink this ⟨body.locals.length⟩) := by
  have list :
      (Profile.ofClass actor.method.owner static).serialAssignment sink this ⟨body.locals.length⟩ =
        [.assign (.variable ⟨body.locals.length⟩) (.staticField static),
          Profile.increment ⟨body.locals.length⟩, body.giving actor.method.owner this,
          .assign (.staticField static) (.variable ⟨body.locals.length⟩),
          sink.report (Sink.serialLabel actor.method.owner) (.variable ⟨body.locals.length⟩)] :=
    rfl
  have fresh : (⟨body.locals.length⟩ : LocalId) ≠ this := by
    rintro rfl
    have declared := constructs.declared
    rw [Body.local?, List.getElem?_eq_none (Nat.le_refl _)] at declared
    cases declared
  have receives : (watched.original.body? actor.method).bind Body.receiver? = some this := by
    rw [present]
    exact constructs.received
  have reports :
      (sink.report (Sink.serialLabel actor.method.owner)
        (.variable ⟨body.locals.length⟩)).Calm watched actor := by
    refine ⟨by rintro _ _ _ ⟨⟩, ?_, ?_⟩
    · rintro _ ⟨⟩ -
      exact .inr rfl
    · rintro - _ ⟨⟩ -
      rw [receives]
      rintro ⟨⟩
  have through := constructs.through.1
  rw [list]
  constructor
  · simp [Profile.increment, Body.giving, Sink.report]
  · simp [Profile.increment, Body.giving, Sink.report, Instruction.assigned?, fresh]
  · simp only [List.mem_cons, List.not_mem_nil, or_false]
    rintro _ (rfl | rfl | rfl | rfl | rfl)
    · exact .inr (Instruction.calm_of_silent (by rintro _ _ _ ⟨⟩) rfl)
    · exact .inr (Instruction.calm_of_silent (by rintro _ _ _ ⟨⟩) rfl)
    · exact .inl rfl
    · exact .inr (Instruction.calm_of_silent (by rintro _ _ _ ⟨⟩) rfl)
    · exact .inr reports
  · simp [Profile.increment, Body.giving, Sink.report]
  · refine List.count_eq_zero.2 fun member => ?_
    simp only [Profile.increment, Body.giving, Sink.report, List.mem_cons, List.not_mem_nil, or_false,
      reduceCtorEq, false_or, Instruction.invoke.injEq] at member
    rw [member] at through
    cases through

/-- A constructor of an instrumented class gets the block unless it calls another of its class. -/
theorem Block.of_numbering
    (completes : session.Completes settings watched.original)
    (plain : ∀ instruction ∈ body.instructions, instruction.Plain settings.counterClassName)
    (present : watched.original.body? actor.method = some body)
    (constructs : watched.original.Constructs actor.method.owner this own body) :
    Block watched actor this own (body.giving actor.method.owner this)
      (if (session.profiles.get? actor.method.owner).isSome ∧
          own.method.owner ≠ actor.method.owner then 1 else 0)
      ((Session.withProfiles settings watched.original session.profiles).numbering
        actor.method.owner this body) := by
  have nothing : Block watched actor this own (body.giving actor.method.owner this) 0 [] :=
    ⟨fun _ => List.not_mem_nil, fun _ member => absurd member List.not_mem_nil,
      fun _ member => absurd member List.not_mem_nil, List.count_nil, List.count_nil⟩
  have same : (Session.withProfiles settings watched.original session.profiles).profiles =
      session.profiles := rfl
  rw [Session.numbering, same]
  cases known : session.profiles.get? actor.method.owner with
  | none =>
    rw [Option.elim_none, if_neg (fun both => nomatch both.1)]
    exact nothing
  | some profile =>
    obtain ⟨static, -, rfl⟩ := completes.furnishes.ledger.profiles _ _ known
    rw [Option.elim_some]
    have skipped := constructs.skip?_eq_none_iff plain static
    by_cases delegates : own.method.owner = actor.method.owner
    · rw [if_neg (fun unskipped => skipped.1 unskipped delegates), if_neg (fun both => both.2 delegates)]
      exact nothing
    · rw [if_pos (skipped.2 delegates), if_pos ⟨rfl, delegates⟩]
      exact Block.of_serialAssignment _ static present constructs

/-- A rewritten constructor binds its receiver, calls one constructor on it, and gives it a number if its
class is instrumented and does not declare that constructor. -/
theorem Construction.of_rewritten
    (completes : session.Completes settings watched.original)
    (apart : watched.original.NamesApart settings.counterClassName)
    (once : watched.original.ConstructsOnce)
    (present : watched.original.body? actor.method = some body)
    (constructs : watched.original.Constructs actor.method.owner this own body)
    {list : List Instruction}
    (tallied :
      Tallied Instruction.CallsMethod
        (body.bindings ++
          (Session.withProfiles settings watched.original session.profiles).numbering
            actor.method.owner this body ++
          body.unbound)
        list) :
    ∃ front rest, list = front ++ rest ∧
      Construction watched actor this own (body.giving actor.method.owner this)
        (if (session.profiles.get? actor.method.owner).isSome ∧
            own.method.owner ≠ actor.method.owner then 1 else 0)
        front rest := by
  have listed := Program.mem_bodies_of_body? present
  have plain (instruction : Instruction) (member : instruction ∈ body.instructions) :
      instruction.Plain settings.counterClassName :=
    apart.instruction_plain listed member
  have receives : (watched.original.body? actor.method).bind Body.receiver? = some this := by
    rw [present]
    exact constructs.received
  have calm (instruction : Instruction) (member : instruction ∈ body.instructions)
      (other : instruction ≠ .invoke own) : instruction.Calm watched actor := by
    refine Instruction.calm_of_plain (plain instruction member)
      (once.special body listed instruction member) fun _ target called named through => other ?_
    refine constructs.eq_of_through member ?_
    rw [Instruction.constructsThrough, show instruction.call? = some target from called]
    simp [through, receives, named]
  have block := Block.of_numbering completes plain present constructs
  rw [List.append_assoc] at tallied
  obtain ⟨front, rest, rfl, opens, later⟩ := tallied.split
  have ofBody (instruction : Instruction)
      (member : instruction ∈ body.bindings ∨ instruction ∈ body.unbound) :
      instruction ∈ body.instructions := by
    rw [← body.bindings_append_unbound]
    exact List.mem_append.2 member
  have unassigned (call : Instruction) (calls : call.CallsMethod) : call.assigned? ≠ some this := by
    obtain ⟨target, rfl, -⟩ := calls
    nofun
  have straight (operand : Option Operand) : ¬ (Instruction.return operand).CallsMethod := by
    rintro ⟨target, same, -⟩
    cases same
  have ungiving (call : Instruction) (calls : call.CallsMethod) :
      (call == body.giving actor.method.owner this) = false := by
    obtain ⟨target, rfl, -⟩ := calls
    exact beq_eq_false_iff_ne.2 nofun
  have unowned (call : Instruction) (calls : call.CallsMethod) : (call == .invoke own) = false := by
    obtain ⟨target, rfl, other⟩ := calls
    refine beq_eq_false_iff_ne.2 fun same => other ?_
    cases same
    exact constructs.through.2
  have behind := later.reached straight
  rw [Run.reached_append block.straight] at behind
  refine ⟨front, rest, rfl, ?_⟩
  constructor
  · obtain ⟨type, member⟩ := constructs.bound
    exact ⟨type, opens.mem member⟩
  · rw [opens.countP_eq fun call calls => decide_eq_false (unassigned call calls)]
    exact constructs.assigned.1
  · intro operand member
    rcases opens.mem_or_tally member with binding | calls
    · exact absurd (Body.bindings_isBinding binding) (by exact Bool.false_ne_true)
    · exact straight operand calls
  · intro instruction member
    rcases opens.mem_or_tally member with binding | calls
    · refine calm instruction (ofBody _ (.inl binding)) ?_
      rintro rfl
      exact absurd (Body.bindings_isBinding binding) (by exact Bool.false_ne_true)
    · exact calls.calm
  · intro instruction member
    rcases later.mem_or_tally member with among | calls
    · exact (List.mem_append.1 among).elim (block.keeps instruction) (constructs.assigned.2 instruction)
    · exact unassigned instruction calls
  · intro instruction member
    rcases later.mem_or_tally member with among | calls
    · rcases List.mem_append.1 among with inside | unbound
      · exact (block.each instruction inside).imp_right .inr
      · by_cases same : instruction = .invoke own
        · exact .inr (.inl same)
        · exact .inr (.inr (calm instruction (ofBody _ (.inr unbound)) same))
    · exact .inr (.inr calls.calm)
  · have never : (Run.reached body.unbound).count (body.giving actor.method.owner this) = 0 := by
      refine List.count_eq_zero.2 fun member => ?_
      have plain : FieldRef.Plain settings.counterClassName
          (.ofInstance actor.method.owner serialField .int) :=
        (plain _ (ofBody _ (.inr (Run.mem_of_mem_reached member)))).1
      exact absurd (show isInstrumentationName serialField = false from plain.2) (by decide)
    rw [List.count_eq_countP, behind.countP_eq ungiving, ← List.count_eq_countP, List.count_append,
      block.gives, never, Nat.add_zero]
  · rw [List.count_eq_countP, behind.countP_eq unowned, ← List.count_eq_countP, List.count_append,
      block.calls, constructs.count_own]

end Rewriting
end AccessProfiler
