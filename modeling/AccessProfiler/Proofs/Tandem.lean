import AccessProfiler.Proofs.DraftRules
import AccessProfiler.Proofs.PairedSessions

/-!
# Steps in tandem

The same step on the same body, taken in two sessions that went different ways, ends in the same way: with
the same value and the same body, and with the same things coming in on either side (`Draft.Tandem`).
There is a rule for each way in which steps are put together; where a step looks at its session, the two
looks have to find the same.
-/

namespace AccessProfiler

variable {Value Result Item : Type}

/-- The type that an expression states of itself. -/
def Expression.statedType? : Expression → Option Ty
  | .instanceField _ field | .staticField field => some field.type
  | .newObject className => some (.object className)
  | .newArray content _ => some (.array content)
  | .call target => some target.method.result
  | _ => none

/-- The types that the two sides of an assignment state. -/
def Instruction.statedTypes : Instruction → List Ty
  | .assign place value => place.statedType?.toList ++ value.statedType?.toList
  | _ => []

namespace Session

section Definitions

variable (base : Session) (elements : Ty → Prop) (first second : Session)

/-- Both sessions admit the types that the instruction states. -/
def BothState (instruction : Instruction) : Prop :=
  ∀ type ∈ instruction.statedTypes, base.BothAdmit elements first second type

/-- Both sessions admit the types of all locals, and those that the instructions state. -/
structure BothSee (body : Body) : Prop where
  locals : ∀ declaration ∈ body.locals, base.BothAdmit elements first second declaration.type
  states : ∀ instruction ∈ body.instructions, base.BothState elements first second instruction

end Definitions

section Carrying

variable
    {base first second after afterToo : Session}
    {elements : Ty → Prop}
    (carries : Carries first second after afterToo)
include carries

theorem Carries.states
    {instruction : Instruction}
    (states : base.BothState elements first second instruction) :
    base.BothState elements after afterToo instruction :=
  fun type member => carries.admits (states type member)

theorem Carries.sees
    {body : Body}
    (sees : base.BothSee elements first second body) :
    base.BothSee elements after afterToo body where
  locals declaration member := carries.admits (sees.locals declaration member)
  states instruction member := carries.states (sees.states instruction member)

end Carrying

theorem BothSee.localType?
    {base first second : Session}
    {elements : Ty → Prop}
    {body : Body}
    (sees : base.BothSee elements first second body)
    {id : LocalId}
    {type : Ty}
    (found : body.localType? id = some type) :
    base.BothAdmit elements first second type := by
  obtain ⟨declaration, located, rfl⟩ := Option.map_eq_some_iff.1 found
  exact sees.locals declaration (List.mem_of_getElem? located)

end Session

section Definitions

variable
    (base : Session)
    (asked : CounterOwner → Prop)
    (elements : Ty → Prop)
    (first second : Session)

/-- In two sessions the steps end with one value, after the same came in to both. -/
def Transform.Tandem
    (step other : Transform Value)
    (Good : Value → Session → Session → Prop) : Prop :=
  base.Paired asked elements first second →
    ∀ value after valueToo afterToo, Ends step first value after →
      Ends other second valueToo afterToo →
        valueToo = value ∧ base.Advance asked elements first second after afterToo ∧
          Good value after afterToo

/-- From one body in two sessions the steps end with one value and one body, after the same came in to
both sessions. -/
def Draft.Tandem
    (body : Body)
    (step other : Draft Value)
    (Good : Value → Body → Session → Session → Prop) : Prop :=
  base.Paired asked elements first second →
    base.BothSee elements first second body →
      ∀ value bodyAfter after valueToo bodyToo afterToo,
        Draft.Ends step body first value bodyAfter after →
          Draft.Ends other body second valueToo bodyToo afterToo →
            valueToo = value ∧ bodyToo = bodyAfter ∧
              base.Advance asked elements first second after afterToo ∧
              base.BothSee elements after afterToo bodyAfter ∧
              Good value bodyAfter after afterToo

end Definitions

variable
    {base first second : Session}
    {asked : CounterOwner → Prop}
    {elements : Ty → Prop}

namespace Transform.Tandem

theorem given
    {step other : Transform Value}
    {Good : Value → Session → Session → Prop}
    (rest :
      base.Paired asked elements first second →
        Tandem base asked elements first second step other Good) :
    Tandem base asked elements first second step other Good :=
  fun paired => rest paired paired

theorem pure
    {value : Value}
    {Good : Value → Session → Session → Prop}
    (good : Good value first second) :
    Tandem base asked elements first second (pure value) (pure value) Good := by
  intro paired result after resultToo afterToo ends endsToo
  obtain ⟨rfl, rfl⟩ := Ends.pure_iff.1 ends
  obtain ⟨rfl, rfl⟩ := Ends.pure_iff.1 endsToo
  exact ⟨rfl, .refl paired, good⟩

theorem bind
    {step stepToo : Transform Value}
    {next nextToo : Value → Transform Result}
    {Good : Value → Session → Session → Prop}
    {GoodResult : Result → Session → Session → Prop}
    (steps : Tandem base asked elements first second step stepToo Good)
    (rest :
      ∀ value after afterToo, base.Advance asked elements first second after afterToo →
        Good value after afterToo →
          Tandem base asked elements after afterToo (next value) (nextToo value) GoodResult) :
    Tandem base asked elements first second (step >>= next) (stepToo >>= nextToo) GoodResult := by
  intro paired result after resultToo afterToo ends endsToo
  obtain ⟨value, between, endsStep, endsNext⟩ := Ends.bind_iff.1 ends
  obtain ⟨valueToo, betweenToo, endsStepToo, endsNextToo⟩ := Ends.bind_iff.1 endsToo
  obtain ⟨rfl, advance, good⟩ :=
    steps paired value between valueToo betweenToo endsStep endsStepToo
  obtain ⟨rfl, further, goodResult⟩ :=
    rest valueToo between betweenToo advance good (advance.paired paired) result after resultToo
      afterToo endsNext endsNextToo
  exact ⟨rfl, advance.trans further, goodResult⟩

/-- Steps for the items of a list keep what is known of the sessions, and give good values. -/
theorem mapM
    {step : Item → Transform Value}
    {items : List Item}
    {Good : Item → Value → Session → Session → Prop}
    (persists :
      ∀ {first second after afterToo item value},
        base.Advance asked elements first second after afterToo → Good item value first second →
          Good item value after afterToo)
    (each :
      ∀ item ∈ items, ∀ after afterToo, base.Advance asked elements first second after afterToo →
        Tandem base asked elements after afterToo (step item) (step item) (Good item)) :
    Tandem base asked elements first second (items.mapM step) (items.mapM step)
      fun values after afterToo =>
        List.Forall₂ (fun item value => Good item value after afterToo) items values := by
  induction items generalizing first second with
  | nil => exact pure .nil
  | cons item rest hypothesis =>
    rw [List.mapM_cons]
    refine .given fun paired => bind (each item List.mem_cons_self _ _ (.refl paired)) ?_
    intro value after afterToo advance good
    refine bind (hypothesis fun other member between betweenToo further =>
      each other (List.mem_cons_of_mem _ member) between betweenToo (advance.trans further)) ?_
    intro values last lastToo further goods
    exact pure (.cons (persists further good) goods)

end Transform.Tandem

namespace Draft.Tandem

variable {body : Body}

/-- What is known of the sessions may be used. -/
theorem given
    {step other : Draft Value}
    {Good : Value → Body → Session → Session → Prop}
    (rest :
      base.Paired asked elements first second →
        base.BothSee elements first second body →
          Tandem base asked elements first second body step other Good) :
    Tandem base asked elements first second body step other Good :=
  fun paired sees => rest paired sees paired sees

theorem pure
    {value : Value}
    {Good : Value → Body → Session → Session → Prop}
    (good : Good value body first second) :
    Tandem base asked elements first second body (pure value) (pure value) Good := by
  intro paired sees result bodyAfter after resultToo bodyToo afterToo ends endsToo
  obtain ⟨rfl, rfl, rfl⟩ := Draft.Ends.pure_iff.1 ends
  obtain ⟨rfl, rfl, rfl⟩ := Draft.Ends.pure_iff.1 endsToo
  exact ⟨rfl, rfl, .refl paired, sees, good⟩

theorem mono
    {step other : Draft Value}
    {Good GoodToo : Value → Body → Session → Session → Prop}
    (tandem : Tandem base asked elements first second body step other Good)
    (le :
      ∀ value bodyAfter after afterToo, base.Advance asked elements first second after afterToo →
        Good value bodyAfter after afterToo → GoodToo value bodyAfter after afterToo) :
    Tandem base asked elements first second body step other GoodToo := by
  intro paired sees value bodyAfter after valueToo bodyToo afterToo ends endsToo
  obtain ⟨same, sameBody, advance, seesAfter, good⟩ :=
    tandem paired sees value bodyAfter after valueToo bodyToo afterToo ends endsToo
  exact ⟨same, sameBody, advance, seesAfter, le _ _ _ _ advance good⟩

theorem bind
    {step stepToo : Draft Value}
    {next nextToo : Value → Draft Result}
    {Good : Value → Body → Session → Session → Prop}
    {GoodResult : Result → Body → Session → Session → Prop}
    (steps : Tandem base asked elements first second body step stepToo Good)
    (rest :
      ∀ value bodyAfter after afterToo, base.Advance asked elements first second after afterToo →
        Good value bodyAfter after afterToo →
          Tandem base asked elements after afterToo bodyAfter (next value) (nextToo value)
            GoodResult) :
    Tandem base asked elements first second body (step >>= next) (stepToo >>= nextToo)
      GoodResult := by
  intro paired sees result bodyAfter after resultToo bodyToo afterToo ends endsToo
  obtain ⟨value, bodyBetween, between, endsStep, endsNext⟩ := Draft.Ends.bind_iff.1 ends
  obtain ⟨valueToo, _, betweenToo, endsStepToo, endsNextToo⟩ := Draft.Ends.bind_iff.1 endsToo
  obtain ⟨rfl, rfl, advance, seesBetween, good⟩ :=
    steps paired sees value bodyBetween between valueToo _ betweenToo endsStep endsStepToo
  obtain ⟨rfl, rfl, further, seesAfter, goodResult⟩ :=
    rest valueToo _ between betweenToo advance good (advance.paired paired) seesBetween result
      bodyAfter after resultToo bodyToo afterToo endsNext endsNextToo
  exact ⟨rfl, rfl, advance.trans further, seesAfter, goodResult⟩

/-- The two steps go on with what each of them finds in its session. -/
theorem session_bind
    {next nextToo : Session → Draft Result}
    {Good : Result → Body → Session → Session → Prop}
    (rest : Tandem base asked elements first second body (next first) (nextToo second) Good) :
    Tandem base asked elements first second body (Draft.session >>= next)
      (Draft.session >>= nextToo) Good := by
  intro paired sees result bodyAfter after resultToo bodyToo afterToo ends endsToo
  exact rest paired sees result bodyAfter after resultToo bodyToo afterToo
    (Draft.Ends.session_bind_iff.1 ends) (Draft.Ends.session_bind_iff.1 endsToo)

theorem body_bind
    {next nextToo : Body → Draft Result}
    {Good : Result → Body → Session → Session → Prop}
    (rest : Tandem base asked elements first second body (next body) (nextToo body) Good) :
    Tandem base asked elements first second body (Draft.body >>= next)
      (Draft.body >>= nextToo) Good := by
  intro paired sees result bodyAfter after resultToo bodyToo afterToo ends endsToo
  exact rest paired sees result bodyAfter after resultToo bodyToo afterToo
    (Draft.Ends.body_bind_iff.1 ends) (Draft.Ends.body_bind_iff.1 endsToo)

theorem lift
    {step other : Transform Value}
    {Good : Value → Session → Session → Prop}
    (steps : Transform.Tandem base asked elements first second step other Good) :
    Tandem base asked elements first second body (Draft.lift step) (Draft.lift other)
      fun value bodyAfter after afterToo => bodyAfter = body ∧ Good value after afterToo := by
  intro paired sees value bodyAfter after valueToo bodyToo afterToo ends endsToo
  obtain ⟨endsStep, rfl⟩ := Draft.Ends.lift_iff.1 ends
  obtain ⟨endsStepToo, rfl⟩ := Draft.Ends.lift_iff.1 endsToo
  obtain ⟨same, advance, good⟩ := steps paired value after valueToo afterToo endsStep endsStepToo
  exact ⟨same, rfl, advance, advance.sees sees, rfl, good⟩

/-- Events may tell of different things. -/
theorem record (event eventToo : Event) :
    Tandem base asked elements first second body (Draft.record event) (Draft.record eventToo)
      fun _ bodyAfter _ _ => bodyAfter = body := by
  intro paired sees value bodyAfter after valueToo bodyToo afterToo ends endsToo
  obtain ⟨endsStep, rfl⟩ := Draft.Ends.lift_iff.1 ends
  obtain ⟨endsStepToo, rfl⟩ := Draft.Ends.lift_iff.1 endsToo
  obtain ⟨foreseen, supplies⟩ := Transform.record_foreseen paired.foreseen endsStep
  obtain ⟨foreseenToo, suppliesToo⟩ := Transform.record_foreseen paired.foreseenToo endsStepToo
  have advance : base.Advance asked elements first second after afterToo :=
    .of_supplies foreseen foreseenToo supplies suppliesToo
  exact ⟨rfl, rfl, advance, advance.sees sees, rfl⟩

/-- A step on the body alone is the same in both sessions. -/
theorem modify
    {change : Body → Body}
    (keeps :
      base.BothSee elements first second body →
        base.BothSee elements first second (change body)) :
    Tandem base asked elements first second body (modify change) (modify change)
      fun _ bodyAfter _ _ => bodyAfter = change body := by
  intro paired sees value bodyAfter after valueToo bodyToo afterToo ends endsToo
  obtain ⟨rfl, rfl⟩ := Draft.Ends.modify_iff.1 ends
  obtain ⟨rfl, rfl⟩ := Draft.Ends.modify_iff.1 endsToo
  exact ⟨rfl, rfl, .refl paired, keeps sees, rfl⟩

theorem set
    {bodyAfter : Body}
    (keeps :
      base.BothSee elements first second body →
        base.BothSee elements first second bodyAfter) :
    Tandem base asked elements first second body (set bodyAfter) (set bodyAfter)
      fun _ changed _ _ => changed = bodyAfter := by
  intro paired sees value changed after valueToo changedToo afterToo ends endsToo
  obtain ⟨rfl, rfl⟩ := Draft.Ends.set_iff.1 ends
  obtain ⟨rfl, rfl⟩ := Draft.Ends.set_iff.1 endsToo
  exact ⟨rfl, rfl, .refl paired, keeps sees, rfl⟩

theorem setInstructions
    {instructions : List Instruction}
    (states :
      base.BothSee elements first second body →
        ∀ instruction ∈ instructions, base.BothState elements first second instruction) :
    Tandem base asked elements first second body (Draft.setInstructions instructions)
      (Draft.setInstructions instructions)
      fun _ bodyAfter _ _ => bodyAfter = { body with instructions } :=
  modify fun sees => ⟨sees.locals, states sees⟩

/-- A new local has the next number in both. -/
theorem newLocal
    {type : Ty}
    (admitted : base.BothAdmit elements first second type)
    (stem : String) :
    Tandem base asked elements first second body (Draft.newLocal stem type)
      (Draft.newLocal stem type) fun _ _ _ _ => True := by
  unfold Draft.newLocal
  refine body_bind (bind (set fun sees => ⟨?_, sees.states⟩) fun _ _ _ _ _ _ => pure trivial)
  exact List.forall_mem_append.2 ⟨sees.locals, List.forall_mem_singleton.2 admitted⟩

theorem ofDefect {outcome : Except Defect Value} :
    Tandem base asked elements first second body (Draft.lift (Transform.ofDefect outcome))
      (Draft.lift (Transform.ofDefect outcome))
      fun value bodyAfter _ _ => bodyAfter = body ∧ outcome = .ok value := by
  intro paired sees value bodyAfter after valueToo bodyToo afterToo ends endsToo
  obtain ⟨endsStep, rfl⟩ := Draft.Ends.lift_iff.1 ends
  obtain ⟨endsStepToo, rfl⟩ := Draft.Ends.lift_iff.1 endsToo
  obtain ⟨rfl, rfl⟩ := Transform.ends_ofDefect.1 endsStep
  obtain ⟨same, rfl⟩ := Transform.ends_ofDefect.1 endsStepToo
  cases same
  exact ⟨rfl, rfl, .refl paired, sees, rfl, rfl⟩

/-- Steps for the items of a list keep what is known of the sessions and of the body, and give good
values. -/
theorem mapM
    (Stays : Body → Prop)
    (Good : Value → Session → Session → Prop)
    {step : Item → Draft Value}
    {items : List Item}
    (persists :
      ∀ {first second after afterToo value},
        base.Advance asked elements first second after afterToo → Good value first second →
          Good value after afterToo)
    (each :
      ∀ item ∈ items, ∀ bodyAfter after afterToo,
        base.Advance asked elements first second after afterToo → Stays bodyAfter →
          Tandem base asked elements after afterToo bodyAfter (step item) (step item)
            fun value changed after afterToo => Stays changed ∧ Good value after afterToo)
    (stays : Stays body) :
    Tandem base asked elements first second body (items.mapM step) (items.mapM step)
      fun values bodyAfter after afterToo =>
        Stays bodyAfter ∧ ∀ value ∈ values, Good value after afterToo := by
  induction items generalizing first second body with
  | nil => exact pure ⟨stays, nofun⟩
  | cons item rest hypothesis =>
    rw [List.mapM_cons]
    refine given fun paired _ =>
      bind (each item List.mem_cons_self _ _ _ (.refl paired) stays) ?_
    rintro value bodyAfter after afterToo advance ⟨staysAfter, good⟩
    refine bind
      (hypothesis
        (fun other member changed between betweenToo further =>
          each other (List.mem_cons_of_mem _ member) changed between betweenToo
            (advance.trans further))
        staysAfter) ?_
    rintro values changed last lastToo further ⟨staysLast, goods⟩
    exact pure ⟨staysLast, List.forall_mem_cons.2 ⟨persists further good, goods⟩⟩

/-- A fold carries along what is known of its accumulator. -/
theorem foldlM
    {step : Value → Item → Draft Value}
    {items : List Item}
    {start : Value}
    (Along : Value → Session → Session → Prop)
    (each :
      ∀ item ∈ items, ∀ value bodyAfter after afterToo,
        base.Advance asked elements first second after afterToo → Along value after afterToo →
          Tandem base asked elements after afterToo bodyAfter (step value item) (step value item)
            fun value _ => Along value)
    (along : Along start first second) :
    Tandem base asked elements first second body (items.foldlM step start)
      (items.foldlM step start) fun value _ => Along value := by
  induction items generalizing first second body start with
  | nil => exact pure along
  | cons item rest hypothesis =>
    rw [List.foldlM_cons]
    refine given fun paired _ => bind (each item List.mem_cons_self start _ _ _ (.refl paired) along) ?_
    intro value bodyAfter after afterToo advance alongValue
    exact hypothesis
      (fun other member value changed between betweenToo further =>
        each other (List.mem_cons_of_mem _ member) value changed between betweenToo
          (advance.trans further))
      alongValue

end Draft.Tandem
end AccessProfiler
