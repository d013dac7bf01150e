import AccessProfiler.Instrument.Counting
import AccessProfiler.Proofs.LocalTables
import AccessProfiler.Proofs.Outcome

/-!
# What steps leave behind

A step that fails keeps what it had changed by then.  `Transform.Leaves` says that the session after a
step is in a certain state whether the step succeeded or failed, and `Draft.Leaves` says that a step on a
body keeps the body and the session in such a state.  There is a rule for each way in which steps are put
together; no rule asks how a step ended.

Most states do not depend on what is noted beside the program (`Session.IgnoresNotes`), nor on how a body
is edited (`Draft.IgnoresEdits`).  Those are left by every step that only counts on members that are there.
-/

namespace AccessProfiler

variable {Value Result Item : Type}

/-- Whether the step succeeds or fails from this session, the session afterwards is as it should be. -/
def Transform.Leaves
    (Invariant : Session → Prop)
    (before : Session)
    (step : Transform Value) : Prop :=
  Invariant (step.on before).2

namespace Transform.Leaves

variable {Invariant : Session → Prop} {before : Session}

theorem pure {value : Value} (holds : Invariant before) :
    Leaves Invariant before (pure value : Transform Value) :=
  holds

theorem throw {error : Error} (holds : Invariant before) :
    Leaves Invariant before (throw error : Transform Value) :=
  holds

theorem throw_bind
    {error : Error}
    {next : Value → Transform Result}
    (holds : Invariant before) :
    Leaves Invariant before (MonadExcept.throw error >>= next) :=
  holds

theorem ofExcept {outcome : Except Error Value} (holds : Invariant before) :
    Leaves Invariant before (ofExcept outcome) :=
  holds

theorem ofDefect {outcome : Except Defect Value} (holds : Invariant before) :
    Leaves Invariant before (ofDefect outcome) :=
  holds

/-- What follows goes on with the outcome, if that is no defect. -/
theorem ofDefect_bind
    {outcome : Except Defect Value}
    {next : Value → Transform Result}
    (holds : Invariant before)
    (further : ∀ value, outcome = .ok value → Leaves Invariant before (next value)) :
    Leaves Invariant before (Transform.ofDefect outcome >>= next) := by
  cases outcome with
  | error defect => exact holds
  | ok value => exact further value rfl

/-- What a step leaves holds where it ends. -/
theorem of_ends
    {step : Transform Value}
    {value : Value}
    {after : Session}
    (leaves : Leaves Invariant before step)
    (ends : Ends step before value after) :
    Invariant after := by
  have left : step.on before = (.ok value, after) := ends
  unfold Leaves at leaves
  rw [left] at leaves
  exact leaves

theorem set {state : Session} (holds : Invariant state) :
    Leaves Invariant before (set state : Transform PUnit) :=
  holds

theorem modify {change : Session → Session} (holds : Invariant (change before)) :
    Leaves Invariant before (modify change : Transform PUnit) :=
  holds

/-- A sequence stops where its first part fails, or goes on from what that part left. -/
theorem bind
    {first : Transform Value}
    {next : Value → Transform Result}
    (leaves : Leaves Invariant before first)
    (further : ∀ value between, Invariant between → Leaves Invariant between (next value)) :
    Leaves Invariant before (first >>= next) := by
  have opened :
      (first >>= next).on before =
        match first.on before with
        | (.ok value, between) => (next value).on between
        | (.error error, between) => (.error error, between) := by
    unfold Transform.on
    rw [ExceptT.run_bind, StateT.run_bind]
    rcases StateT.run (ExceptT.run first) before with ⟨outcome, between⟩
    cases outcome <;> rfl
  unfold Leaves at leaves ⊢
  rw [opened]
  generalize first.on before = run at leaves ⊢
  obtain ⟨outcome, between⟩ := run
  cases outcome with
  | ok value => exact further value between leaves
  | error error => exact leaves

/-- What follows on a look at the session goes on with that session. -/
theorem get_bind
    {next : Session → Transform Result}
    (leaves : Leaves Invariant before (next before)) :
    Leaves Invariant before (get >>= next) :=
  leaves

/-- What follows on a change of the session goes on with the changed one. -/
theorem set_bind
    {state : Session}
    {next : PUnit → Transform Result}
    (leaves : Leaves Invariant state (next ⟨⟩)) :
    Leaves Invariant before (MonadStateOf.set state >>= next) :=
  leaves

theorem changeProgram
    {change : Program → Except Error (Value × Program)}
    (holds : Invariant before)
    (changes :
      ∀ value program, change before.program = .ok (value, program) →
        Invariant { before with program }) :
    Leaves Invariant before (changeProgram change) := by
  unfold Transform.changeProgram
  apply get_bind
  cases changed : change before.program with
  | error error => exact holds
  | ok parts => exact changes parts.1 parts.2 changed

/-- Steps one after the other, up to the first that fails. -/
theorem mapM
    {step : Item → Transform Value}
    {items : List Item}
    (holds : Invariant before)
    (each :
      ∀ item ∈ items, ∀ session, Invariant session → Leaves Invariant session (step item)) :
    Leaves Invariant before (items.mapM step) := by
  induction items generalizing before with
  | nil => exact holds
  | cons item rest hypothesis =>
    rw [List.mapM_cons]
    apply bind (each item List.mem_cons_self before holds)
    intro value between reached
    apply bind (hypothesis reached fun other member => each other (List.mem_cons_of_mem _ member))
    intro values last reachedLast
    exact pure reachedLast

theorem forM
    {step : Item → Transform PUnit}
    {items : List Item}
    (holds : Invariant before)
    (each : ∀ item session, Invariant session → Leaves Invariant session (step item)) :
    Leaves Invariant before (items.forM step) := by
  induction items generalizing before with
  | nil => exact holds
  | cons item rest hypothesis =>
    exact bind (each item before holds) fun _ _ reached => hypothesis reached

end Transform.Leaves

/-- Nothing is asked of what is noted beside the program: the methods that were generated and
transformed, and the journal. -/
def Session.IgnoresNotes (Invariant : Session → Prop) : Prop :=
  ∀ session generated transformed journal, Invariant session →
    Invariant { session with generated, transformed, journal }

namespace Session.IgnoresNotes

variable {Invariant : Session → Prop} {before : Session}

theorem record
    (ignores : IgnoresNotes Invariant)
    (holds : Invariant before)
    (event : Event) :
    Transform.Leaves Invariant before (Transform.record event) :=
  Transform.Leaves.modify (ignores before _ _ _ holds)

theorem markGenerated
    (ignores : IgnoresNotes Invariant)
    (holds : Invariant before)
    (method : MethodRef) :
    Transform.Leaves Invariant before (Transform.markGenerated method) := by
  refine Transform.Leaves.modify ?_
  split
  · exact holds
  · exact ignores before _ _ _ holds

theorem markTransformed
    (ignores : IgnoresNotes Invariant)
    (holds : Invariant before)
    (id : MethodId) :
    Transform.Leaves Invariant before (Transform.markTransformed id) := by
  refine Transform.Leaves.modify ?_
  split
  · exact holds
  · exact ignores before _ _ _ holds

end Session.IgnoresNotes

/-- Whether the step succeeds or fails, it keeps the body and the session as they should be. -/
def Draft.Leaves (Invariant : Body → Session → Prop) (step : Draft Value) : Prop :=
  ∀ body session, Invariant body session →
    Invariant (step.on body session).1.2 (step.on body session).2

namespace Draft.Leaves

variable {Invariant : Body → Session → Prop}

theorem pure {value : Value} : Leaves Invariant (pure value : Draft Value) :=
  fun _ _ holds => holds

theorem modify
    {change : Body → Body}
    (keeps : ∀ body session, Invariant body session → Invariant (change body) session) :
    Leaves Invariant (modify change : Draft PUnit) :=
  keeps

theorem body : Leaves Invariant Draft.body :=
  fun _ _ holds => holds

theorem session : Leaves Invariant Draft.session :=
  fun _ _ holds => holds

/-- A step of the session has no body to look at. -/
theorem lift
    {step : Transform Value}
    (leaves :
      ∀ body session, Invariant body session → Transform.Leaves (Invariant body) session step) :
    Leaves Invariant (lift step) :=
  leaves

theorem ofDefect {outcome : Except Defect Value} :
    Leaves Invariant (Draft.lift (Transform.ofDefect outcome)) :=
  lift fun _ _ holds => Transform.Leaves.ofDefect holds

/-- What two invariants say of a step can be said at once. -/
theorem and
    {Other : Body → Session → Prop}
    {step : Draft Value}
    (leaves : Leaves Invariant step)
    (leavesOther : Leaves Other step) :
    Leaves (fun body session => Invariant body session ∧ Other body session) step :=
  fun body session holds =>
    ⟨leaves body session holds.1, leavesOther body session holds.2⟩

theorem ite
    {condition : Prop}
    [Decidable condition]
    {first second : Draft Value}
    (positive : Leaves Invariant first)
    (negative : Leaves Invariant second) :
    Leaves Invariant (if condition then first else second) := by
  split
  · exact positive
  · exact negative

theorem bind
    {first : Draft Value}
    {next : Value → Draft Result}
    (leaves : Leaves Invariant first)
    (further : ∀ value, Leaves Invariant (next value)) :
    Leaves Invariant (first >>= next) := by
  intro body session holds
  have opened :
      (first >>= next).on body session =
        match first.on body session with
        | ((.ok value, bodyBetween), between) => (next value).on bodyBetween between
        | ((.error error, bodyBetween), between) => ((.error error, bodyBetween), between) := by
    unfold Draft.on
    rw [ExceptT.run_bind, StateT.run_bind, StateT.run_bind]
    rcases StateT.run (StateT.run (ExceptT.run first) body) session with
      ⟨⟨outcome, bodyBetween⟩, between⟩
    cases outcome <;> rfl
  have reached := leaves body session holds
  rw [opened]
  generalize first.on body session = run at reached ⊢
  obtain ⟨⟨outcome, bodyBetween⟩, between⟩ := run
  cases outcome with
  | ok value => exact further value bodyBetween between reached
  | error error => exact reached

theorem mapM
    {step : Item → Draft Value}
    {items : List Item}
    (each : ∀ item, Leaves Invariant (step item)) :
    Leaves Invariant (items.mapM step) := by
  induction items with
  | nil => exact pure
  | cons item rest hypothesis =>
    rw [List.mapM_cons]
    exact bind (each item) fun _ => bind hypothesis fun _ => pure

theorem foldlM
    {step : Value → Item → Draft Value}
    {items : List Item}
    {start : Value}
    (each : ∀ value item, Leaves Invariant (step value item)) :
    Leaves Invariant (items.foldlM step start) := by
  induction items generalizing start with
  | nil => exact pure
  | cons item rest hypothesis =>
    rw [List.foldlM_cons]
    exact bind (each start item) fun _ => hypothesis

theorem forM
    {step : Item → Draft PUnit}
    {items : List Item}
    (each : ∀ item, Leaves Invariant (step item)) :
    Leaves Invariant (items.forM step) := by
  induction items with
  | nil => exact pure
  | cons item rest hypothesis => exact bind (each item) fun _ => hypothesis

end Draft.Leaves

/-- Nothing is asked of the instructions of a body and of what is noted beside the program, and locals may
be declared and get other types. -/
structure Draft.IgnoresEdits (Invariant : Body → Session → Prop) : Prop where
  notes : ∀ body, Session.IgnoresNotes (Invariant body)
  instructions :
    ∀ body session instructions, Invariant body session → Invariant { body with instructions } session
  newLocal :
    ∀ body session stem type, Invariant body session → Invariant (body.newLocal stem type).2 session
  retype :
    ∀ body session id type, Invariant body session → Invariant (body.setLocalType id type) session

namespace Draft

/-- What is said of the session alone does not depend on edits of the body. -/
theorem IgnoresEdits.of_session
    {Invariant : Session → Prop}
    (notes : Session.IgnoresNotes Invariant) :
    IgnoresEdits fun _ => Invariant where
  notes _ := notes
  instructions _ _ _ holds := holds
  newLocal _ _ _ _ holds := holds
  retype _ _ _ _ holds := holds

variable {Invariant : Body → Session → Prop} (ignores : IgnoresEdits Invariant)
include ignores

theorem IgnoresEdits.patched
    {profile : Profile}
    {sink : Sink}
    {body patched : Body}
    {session : Session}
    (holds : Invariant body session)
    (patches : profile.patchConstructor sink body = .ok (.ok patched)) :
    Invariant patched session := by
  obtain ⟨instructions, rfl⟩ := Profile.exists_instructions_of_patched patches
  exact ignores.instructions _ session _ (ignores.newLocal body session "$serial" .int holds)

theorem record_leaves (event : Event) : Leaves Invariant (record event) :=
  Leaves.lift fun body _ holds => (ignores.notes body).record holds event

theorem setInstructions_leaves (instructions : List Instruction) :
    Leaves Invariant (setInstructions instructions) :=
  Leaves.modify fun body session holds => ignores.instructions body session instructions holds

theorem newLocal_leaves (stem : String) (type : Ty) : Leaves Invariant (newLocal stem type) :=
  fun body session holds => ignores.newLocal body session stem type holds

theorem apply_leaves (batch : EditBatch) : Leaves Invariant (apply batch) := by
  intro body session holds
  unfold apply
  rw [on_body_bind, EditBatch.apply]
  cases batch.outside? body.instructions.length with
  | some index => exact holds
  | none => exact ignores.instructions body session _ holds

theorem countFieldAccesses_leaves (pass method : String) :
    Leaves Invariant (countFieldAccesses pass method) := by
  unfold countFieldAccesses
  refine Leaves.bind Leaves.session fun session => Leaves.bind Leaves.body fun body => ?_
  refine Leaves.bind (Leaves.forM fun event => record_leaves ignores _) fun _ => ?_
  exact Leaves.bind (setInstructions_leaves ignores _) fun _ => Leaves.pure

/-- A constructor is patched by one local and instructions. -/
theorem assignSerial_leaves (pass method : String) (id : MethodId) :
    Leaves Invariant (assignSerial pass method id) := by
  intro body session holds
  unfold assignSerial
  rw [on_session_bind]
  cases session.profiles.get? id.owner with
  | none => exact holds
  | some profile =>
    dsimp only
    rw [on_body_bind]
    cases patches : profile.patchConstructor session.settings.sink body with
    | error defect => exact holds
    | ok outcome =>
      cases outcome with
      | error skip => exact holds
      | ok patched =>
        have recorded : Leaves Invariant
            (record ((Event.mk .constructorPatched (some method) none
              EventKind.constructorPatched.description none).recordedBy pass) >>= fun _ =>
                (Pure.pure true : Draft Bool)) :=
          Leaves.bind (record_leaves ignores _) fun _ => Leaves.pure
        exact recorded patched session (ignores.patched holds patches)

/-- Accesses are counted for types as soon as types can get their counters. -/
theorem countTypeAccesses_leaves
    (counters :
      ∀ name body session, Invariant body session →
        Transform.Leaves (Invariant body) session (Transform.typeCounter name))
    (pass method : String) :
    Leaves Invariant (countTypeAccesses pass method) := by
  have calls (index : Nat) (access : Access) (keys : List String) :
      Leaves Invariant (typeCalls pass method index access keys) := by
    unfold typeCalls
    refine Leaves.mapM fun key => Leaves.bind (Leaves.lift (counters key)) fun found => ?_
    exact Leaves.bind (record_leaves ignores _) fun _ => Leaves.pure
  have each (index : Nat) (body : Body) (instruction : Instruction) :
      Leaves Invariant (instructionTypeCalls pass method index body instruction) := by
    unfold instructionTypeCalls
    split
    · refine Leaves.bind Leaves.session fun session => Leaves.bind (calls _ _ _) fun written => ?_
      refine Leaves.bind Leaves.session fun session => Leaves.bind (calls _ _ _) fun read => ?_
      exact Leaves.pure
    · exact Leaves.pure
  unfold countTypeAccesses
  refine Leaves.bind Leaves.body fun body => ?_
  refine Leaves.bind
    (Leaves.mapM fun entry => Leaves.bind (each _ _ _) fun _ => Leaves.pure) fun counted => ?_
  exact Leaves.bind (setInstructions_leaves ignores _) fun _ => Leaves.pure

end Draft
end AccessProfiler
