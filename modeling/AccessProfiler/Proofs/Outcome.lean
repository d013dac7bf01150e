import AccessProfiler.Instrument.Draft
import AccessProfiler.Machine.Execution

/-!
# Computations that end normally

A machine and a transformation are both computations that change a state and may fail.  `Ends` says
that such a computation ends normally, with a value and in a state; a step on a body within a session
has two states, and `Draft.Ends` says the same of it.

The equivalences below take a computation apart: a sequence ends if its parts end one after the other.
All later statements about runs and transformations are derived from them, and none opens the monads.
-/

namespace AccessProfiler

variable {Problem State Value Result : Type}

/-- A sequence of two computations runs the second from where the first ended. -/
theorem run_bind
    {first : ExceptT Problem (StateM State) Value}
    {next : Value → ExceptT Problem (StateM State) Result}
    {before : State} :
    StateT.run (ExceptT.run (first >>= next)) before =
      match StateT.run (ExceptT.run first) before with
      | (.ok value, between) => StateT.run (ExceptT.run (next value)) between
      | (.error problem, between) => (.error problem, between) := by
  rw [ExceptT.run_bind, StateT.run_bind]
  rcases StateT.run (ExceptT.run first) before with ⟨outcome, between⟩
  cases outcome <;> rfl

/-- From one state the computation ends with a value in another state. -/
def Ends
    (computation : ExceptT Problem (StateM State) Value)
    (before : State)
    (value : Value)
    (after : State) : Prop :=
  StateT.run (ExceptT.run computation) before = (.ok value, after)

namespace Ends

variable {before after : State} {value : Value}

@[simp]
theorem pure_iff {given : Value} :
    Ends (pure given : ExceptT Problem (StateM State) Value) before value after ↔
      value = given ∧ after = before := by
  constructor
  · rintro ⟨⟩
    exact ⟨rfl, rfl⟩
  · rintro ⟨rfl, rfl⟩
    rfl

@[simp]
theorem not_throw {problem : Problem} :
    ¬ Ends (throw problem : ExceptT Problem (StateM State) Value) before value after := by
  rintro ⟨⟩

/-- A sequence of two computations ends if the first ends and the second ends from there. -/
theorem bind_iff
    {first : ExceptT Problem (StateM State) Value}
    {next : Value → ExceptT Problem (StateM State) Result}
    {result : Result} :
    Ends (first >>= next) before result after ↔
      ∃ value between,
        Ends first before value between ∧ Ends (next value) between result after := by
  unfold Ends
  rw [run_bind]
  rcases StateT.run (ExceptT.run first) before with ⟨outcome, between⟩
  cases outcome with
  | ok value =>
    constructor
    · intro ends
      exact ⟨value, between, rfl, ends⟩
    · rintro ⟨_, _, ⟨⟩, ends⟩
      exact ends
  | error problem =>
    constructor
    · rintro ⟨⟩
    · rintro ⟨_, _, ⟨⟩, _⟩

theorem map_iff
    {computation : ExceptT Problem (StateM State) Value}
    {change : Value → Result}
    {result : Result} :
    Ends (change <$> computation) before result after ↔
      ∃ value, Ends computation before value after ∧ result = change value := by
  rw [← bind_pure_comp, bind_iff]
  constructor
  · rintro ⟨value, between, ends, changed⟩
    obtain ⟨rfl, rfl⟩ := pure_iff.1 changed
    exact ⟨value, ends, rfl⟩
  · rintro ⟨value, ends, rfl⟩
    exact ⟨value, after, ends, pure_iff.2 ⟨rfl, rfl⟩⟩

@[simp]
theorem get_iff {state : State} :
    Ends (get : ExceptT Problem (StateM State) State) before state after ↔
      state = before ∧ after = before := by
  constructor
  · rintro ⟨⟩
    exact ⟨rfl, rfl⟩
  · rintro ⟨rfl, rfl⟩
    rfl

@[simp]
theorem set_iff {state : State} {done : PUnit} :
    Ends (set state : ExceptT Problem (StateM State) PUnit) before done after ↔
      after = state := by
  constructor
  · rintro ⟨⟩
    rfl
  · rintro rfl
    rfl

@[simp]
theorem modify_iff {change : State → State} {done : PUnit} :
    Ends (modify change : ExceptT Problem (StateM State) PUnit) before done after ↔
      after = change before := by
  constructor
  · rintro ⟨⟩
    rfl
  · rintro rfl
    rfl

/-- What follows on a look at the state goes on with that state. -/
theorem get_bind_iff
    {next : State → ExceptT Problem (StateM State) Result}
    {result : Result} :
    Ends (get >>= next) before result after ↔ Ends (next before) before result after := by
  simp only [bind_iff, get_iff]
  constructor
  · rintro ⟨_, _, ⟨rfl, rfl⟩, ends⟩
    exact ends
  · intro ends
    exact ⟨_, _, ⟨rfl, rfl⟩, ends⟩

theorem set_bind_iff
    {state : State}
    {next : PUnit → ExceptT Problem (StateM State) Result}
    {result : Result} :
    Ends (set state >>= next) before result after ↔ Ends (next ⟨⟩) state result after := by
  simp only [bind_iff, set_iff]
  constructor
  · rintro ⟨_, _, rfl, ends⟩
    exact ends
  · intro ends
    exact ⟨⟨⟩, _, rfl, ends⟩

theorem mapM_cons_iff
    {Item : Type}
    {item : Item}
    {rest : List Item}
    {step : Item → ExceptT Problem (StateM State) Result}
    {results : List Result} :
    Ends ((item :: rest).mapM step) before results after ↔
      ∃ result between others, Ends (step item) before result between ∧
        Ends (rest.mapM step) between others after ∧ results = result :: others := by
  simp only [List.mapM_cons, bind_iff, pure_iff]
  constructor
  · rintro ⟨result, between, ends, others, _, endsOthers, rfl, rfl⟩
    exact ⟨result, between, others, ends, endsOthers, rfl⟩
  · rintro ⟨result, between, others, ends, endsOthers, rfl⟩
    exact ⟨result, between, ends, others, _, endsOthers, rfl, rfl⟩

/-- There is one result for each item. -/
theorem length_of_mapM
    {Item : Type}
    {list : List Item}
    {step : Item → ExceptT Problem (StateM State) Result}
    {results : List Result}
    (ends : Ends (list.mapM step) before results after) :
    results.length = list.length := by
  induction list generalizing before results with
  | nil =>
    obtain ⟨rfl, -⟩ := pure_iff.1 ends
    rfl
  | cons item rest hypothesis =>
    obtain ⟨result, between, others, -, endsOthers, rfl⟩ := mapM_cons_iff.1 ends
    rw [List.length_cons, List.length_cons, hypothesis endsOthers]

/-- Steps one after the other, each of which may count on the items before it being done. -/
theorem mapM_advances
    {Item : Type}
    (Invariant : List Item → State → Prop)
    (Good : Result → Prop)
    {list : List Item}
    {step : Item → ExceptT Problem (StateM State) Result}
    {results : List Result}
    (advances :
      ∀ done item rest, list = done ++ item :: rest →
        ∀ before result after, Invariant done before → Good result →
          Ends (step item) before result after → Invariant (done ++ [item]) after)
    (invariant : Invariant [] before)
    (good : ∀ result ∈ results, Good result)
    (ends : Ends (list.mapM step) before results after) :
    Invariant list after := by
  have onward
      (done rest : List Item)
      (split : list = done ++ rest)
      {before : State}
      {results : List Result}
      (invariant : Invariant done before)
      (good : ∀ result ∈ results, Good result)
      (ends : Ends (rest.mapM step) before results after) :
      Invariant list after := by
    induction rest generalizing done before results with
    | nil =>
      obtain ⟨-, rfl⟩ := pure_iff.1 ends
      rw [split, List.append_nil]
      exact invariant
    | cons item rest hypothesis =>
      obtain ⟨result, between, others, first, endsOthers, rfl⟩ := mapM_cons_iff.1 ends
      have reached :=
        advances done item rest split before result between invariant
          (good result List.mem_cons_self) first
      refine hypothesis (done ++ [item]) ?_ reached
        (fun other member => good other (List.mem_cons_of_mem _ member)) endsOthers
      rw [split, List.append_assoc]
      rfl
  exact onward [] list rfl invariant good ends

/-- What every step with a good result preserves, steps one after the other preserve if all of their
results are good. -/
theorem mapM_preserves
    {Item : Type}
    (Invariant : State → Prop)
    (Good : Result → Prop)
    {list : List Item}
    {step : Item → ExceptT Problem (StateM State) Result}
    {results : List Result}
    (preserves :
      ∀ item ∈ list, ∀ before result after, Invariant before → Good result →
        Ends (step item) before result after → Invariant after)
    (invariant : Invariant before)
    (good : ∀ result ∈ results, Good result)
    (ends : Ends (list.mapM step) before results after) :
    Invariant after := by
  refine mapM_advances (fun _ => Invariant) Good ?_ invariant good ends
  intro done item rest split before result after reached goodResult endsItem
  have member : item ∈ list := split ▸ List.mem_append_right _ List.mem_cons_self
  exact preserves item member before result after reached goodResult endsItem

/-- A computation ends in at most one way. -/
theorem unique
    {computation : ExceptT Problem (StateM State) Value}
    {other : Value}
    {afterOther : State}
    (ends : Ends computation before value after)
    (endsOther : Ends computation before other afterOther) :
    value = other ∧ after = afterOther := by
  have parts := Prod.mk.inj (ends.symm.trans endsOther)
  exact ⟨Except.ok.inj parts.1, parts.2⟩

end Ends

/-- A computation ends if its result can be computed. -/
theorem Ends.of_result
    {computation : ExceptT Problem (StateM State) Value}
    {before : State}
    {value : Value}
    (computed : (StateT.run (ExceptT.run computation) before).1.toOption = some value) :
    Ends computation before value (StateT.run (ExceptT.run computation) before).2 := by
  unfold Ends
  generalize StateT.run (ExceptT.run computation) before = run at computed ⊢
  obtain ⟨outcome, after⟩ := run
  cases outcome with
  | ok result =>
    cases computed
    rfl
  | error problem => cases computed

/-- The result of a computation that needs no machine. -/
@[simp]
theorem Run.ends_ofExcept
    {outcome : Except Failure Value}
    {before after : Machine}
    {value : Value} :
    Ends (Run.ofExcept outcome) before value after ↔ outcome = .ok value ∧ after = before := by
  constructor
  · intro ends
    have parts := Prod.mk.inj ends
    exact ⟨parts.1, parts.2.symm⟩
  · rintro ⟨rfl, rfl⟩
    rfl

/-- The result of a computation that needs no session. -/
@[simp]
theorem Transform.ends_ofExcept
    {outcome : Except Error Value}
    {before after : Session}
    {value : Value} :
    Ends (Transform.ofExcept outcome) before value after ↔
      outcome = .ok value ∧ after = before := by
  constructor
  · intro ends
    have parts := Prod.mk.inj ends
    exact ⟨parts.1, parts.2.symm⟩
  · rintro ⟨rfl, rfl⟩
    rfl

@[simp]
theorem Transform.ends_ofDefect
    {outcome : Except Defect Value}
    {before after : Session}
    {value : Value} :
    Ends (Transform.ofDefect outcome) before value after ↔
      outcome = .ok value ∧ after = before := by
  cases outcome with
  | ok given =>
    have same : (Except.ok given : Except Defect Value).mapError Error.malformed = .ok given := rfl
    refine Transform.ends_ofExcept.trans ?_
    rw [same, Except.ok.injEq, Except.ok.injEq]
  | error defect =>
    have same :
        (Except.error defect : Except Defect Value).mapError Error.malformed =
          .error (.malformed defect) :=
      rfl
    refine Transform.ends_ofExcept.trans ?_
    rw [same]
    simp only [reduceCtorEq]

@[simp]
theorem Transform.ends_record
    {event : Event}
    {before after : Session}
    {done : Unit} :
    Ends (Transform.record event) before done after ↔
      after = { before with journal := before.journal ++ [event] } :=
  Ends.modify_iff

/-- Changing the program changes nothing else of the session. -/
theorem Transform.ends_changeProgram
    {change : Program → Except Error (Value × Program)}
    {before after : Session}
    {value : Value} :
    Ends (Transform.changeProgram change) before value after ↔
      ∃ program, change before.program = .ok (value, program) ∧
        after = { before with program } := by
  unfold Transform.changeProgram
  simp only [Ends.bind_iff, Ends.get_iff, Transform.ends_ofExcept, Ends.set_iff, Ends.pure_iff]
  constructor
  · rintro ⟨_, _, ⟨rfl, rfl⟩, ⟨result, program⟩, _, ⟨changed, rfl⟩, _, _, rfl, rfl, rfl⟩
    exact ⟨program, changed, rfl⟩
  · rintro ⟨program, changed, rfl⟩
    exact ⟨_, _, ⟨rfl, rfl⟩, (value, program), _, ⟨changed, rfl⟩, ⟨⟩, _, rfl, rfl, rfl⟩

/-- From a body and a session the step ends with a value, in another body and another session. -/
def Draft.Ends
    (step : Draft Value)
    (body : Body)
    (session : Session)
    (value : Value)
    (bodyAfter : Body)
    (sessionAfter : Session) : Prop :=
  step.on body session = ((.ok value, bodyAfter), sessionAfter)

namespace Draft

variable {body : Body} {session : Session}

/-- What follows on a look at the session goes on with that session. -/
theorem on_session_bind (next : Session → Draft Value) :
    (Draft.session >>= next).on body session = (next session).on body session := rfl

/-- What follows on a look at the body goes on with that body. -/
theorem on_body_bind (next : Body → Draft Value) :
    (Draft.body >>= next).on body session = (next body).on body session := rfl

end Draft

namespace Draft.Ends

variable {body bodyAfter : Body} {session sessionAfter : Session} {value : Value}

@[simp]
theorem pure_iff {given : Value} :
    Draft.Ends (pure given) body session value bodyAfter sessionAfter ↔
      value = given ∧ bodyAfter = body ∧ sessionAfter = session := by
  constructor
  · rintro ⟨⟩
    exact ⟨rfl, rfl, rfl⟩
  · rintro ⟨rfl, rfl, rfl⟩
    rfl

@[simp]
theorem not_throw {error : Error} :
    ¬ Draft.Ends (throw error : Draft Value) body session value bodyAfter sessionAfter := by
  rintro ⟨⟩

theorem bind_iff
    {first : Draft Value}
    {next : Value → Draft Result}
    {result : Result} :
    Draft.Ends (first >>= next) body session result bodyAfter sessionAfter ↔
      ∃ value bodyBetween sessionBetween,
        Draft.Ends first body session value bodyBetween sessionBetween ∧
          Draft.Ends (next value) bodyBetween sessionBetween result bodyAfter sessionAfter := by
  have opened :
      (first >>= next).on body session =
        match first.on body session with
        | ((.ok value, bodyBetween), sessionBetween) =>
          (next value).on bodyBetween sessionBetween
        | ((.error error, bodyBetween), sessionBetween) =>
          ((.error error, bodyBetween), sessionBetween) := by
    unfold Draft.on
    rw [ExceptT.run_bind, StateT.run_bind, StateT.run_bind]
    rcases StateT.run (StateT.run (ExceptT.run first) body) session with
      ⟨⟨outcome, bodyBetween⟩, sessionBetween⟩
    cases outcome <;> rfl
  unfold Draft.Ends
  rw [opened]
  rcases first.on body session with ⟨⟨outcome, bodyBetween⟩, sessionBetween⟩
  cases outcome with
  | ok value =>
    constructor
    · intro ends
      exact ⟨value, bodyBetween, sessionBetween, rfl, ends⟩
    · rintro ⟨_, _, _, ⟨⟩, ends⟩
      exact ends
  | error error =>
    constructor
    · rintro ⟨⟩
    · rintro ⟨_, _, _, ⟨⟩, _⟩

theorem mapM_cons_iff
    {Item : Type}
    {item : Item}
    {rest : List Item}
    {step : Item → Draft Result}
    {results : List Result} :
    Draft.Ends ((item :: rest).mapM step) body session results bodyAfter sessionAfter ↔
      ∃ result bodyBetween sessionBetween others,
        Draft.Ends (step item) body session result bodyBetween sessionBetween ∧
          Draft.Ends (rest.mapM step) bodyBetween sessionBetween others bodyAfter sessionAfter ∧
          results = result :: others := by
  simp only [List.mapM_cons, bind_iff, pure_iff]
  constructor
  · rintro ⟨result, bodyBetween, sessionBetween, ends, others, _, _, endsOthers, rfl, rfl, rfl⟩
    exact ⟨result, bodyBetween, sessionBetween, others, ends, endsOthers, rfl⟩
  · rintro ⟨result, bodyBetween, sessionBetween, others, ends, endsOthers, rfl⟩
    exact ⟨result, bodyBetween, sessionBetween, ends, others, _, _, endsOthers, rfl, rfl, rfl⟩

@[simp]
theorem lift_iff {step : Transform Value} :
    Draft.Ends (Draft.lift step) body session value bodyAfter sessionAfter ↔
      AccessProfiler.Ends step session value sessionAfter ∧ bodyAfter = body := by
  have opened :
      (Draft.lift step).on body session =
        (((step.on session).1, body), (step.on session).2) :=
    rfl
  unfold Draft.Ends AccessProfiler.Ends
  rw [opened]
  unfold Transform.on
  rcases StateT.run (ExceptT.run step) session with ⟨outcome, between⟩
  constructor
  · rintro ⟨⟩
    exact ⟨rfl, rfl⟩
  · rintro ⟨⟨⟩, rfl⟩
    rfl

@[simp]
theorem session_iff {state : Session} :
    Draft.Ends Draft.session body session state bodyAfter sessionAfter ↔
      state = session ∧ bodyAfter = body ∧ sessionAfter = session := by
  unfold Draft.session
  rw [lift_iff, AccessProfiler.Ends.get_iff]
  constructor
  · rintro ⟨⟨rfl, rfl⟩, rfl⟩
    exact ⟨rfl, rfl, rfl⟩
  · rintro ⟨rfl, rfl, rfl⟩
    exact ⟨⟨rfl, rfl⟩, rfl⟩

@[simp]
theorem body_iff {state : Body} :
    Draft.Ends Draft.body body session state bodyAfter sessionAfter ↔
      state = body ∧ bodyAfter = body ∧ sessionAfter = session := by
  constructor
  · rintro ⟨⟩
    exact ⟨rfl, rfl, rfl⟩
  · rintro ⟨rfl, rfl, rfl⟩
    rfl

/-- What follows on a look at the body goes on with that body. -/
theorem body_bind_iff
    {next : Body → Draft Result}
    {result : Result} :
    Draft.Ends (Draft.body >>= next) body session result bodyAfter sessionAfter ↔
      Draft.Ends (next body) body session result bodyAfter sessionAfter := by
  simp only [bind_iff, body_iff]
  constructor
  · rintro ⟨_, _, _, ⟨rfl, rfl, rfl⟩, ends⟩
    exact ends
  · intro ends
    exact ⟨_, _, _, ⟨rfl, rfl, rfl⟩, ends⟩

theorem session_bind_iff
    {next : Session → Draft Result}
    {result : Result} :
    Draft.Ends (Draft.session >>= next) body session result bodyAfter sessionAfter ↔
      Draft.Ends (next session) body session result bodyAfter sessionAfter := by
  simp only [bind_iff, session_iff]
  constructor
  · rintro ⟨_, _, _, ⟨rfl, rfl, rfl⟩, ends⟩
    exact ends
  · intro ends
    exact ⟨_, _, _, ⟨rfl, rfl, rfl⟩, ends⟩

@[simp]
theorem set_iff {state : Body} {done : PUnit} :
    Draft.Ends (set state : Draft PUnit) body session done bodyAfter sessionAfter ↔
      bodyAfter = state ∧ sessionAfter = session := by
  constructor
  · rintro ⟨⟩
    exact ⟨rfl, rfl⟩
  · rintro ⟨rfl, rfl⟩
    rfl

@[simp]
theorem modify_iff {change : Body → Body} {done : PUnit} :
    Draft.Ends (modify change : Draft PUnit) body session done bodyAfter sessionAfter ↔
      bodyAfter = change body ∧ sessionAfter = session := by
  constructor
  · rintro ⟨⟩
    exact ⟨rfl, rfl⟩
  · rintro ⟨rfl, rfl⟩
    rfl

@[simp]
theorem setInstructions_iff {instructions : List Instruction} {done : Unit} :
    Draft.Ends (Draft.setInstructions instructions) body session done bodyAfter sessionAfter ↔
      bodyAfter = { body with instructions } ∧ sessionAfter = session := by
  constructor
  · rintro ⟨⟩
    exact ⟨rfl, rfl⟩
  · rintro ⟨rfl, rfl⟩
    rfl

@[simp]
theorem record_iff {event : Event} {done : Unit} :
    Draft.Ends (Draft.record event) body session done bodyAfter sessionAfter ↔
      bodyAfter = body ∧ sessionAfter = { session with journal := session.journal ++ [event] } := by
  unfold Draft.record
  rw [lift_iff, Transform.ends_record, and_comm]

end Draft.Ends
end AccessProfiler
