import AccessProfiler.Pipeline
import AccessProfiler.Proofs.FittingSessions

/-!
# Bodies go on to fit

A step on a body declares locals and never takes one away, so the number of a local that it declares is
bounded by how many there are in the end.  `Draft.Fitting` says of a step that it takes no local away
whatever it is given and, if what it is given fits and all locals can be told apart in the end, the body
and the session go on to fit and the value of the step is good.  Every pass on bodies is such a step
(`Pass.onBody_fits`).

That no local is taken away holds without an assumption.  A sequence needs this: the bound at its end
becomes one for its first part before anything is known of the value that the second part works on.
-/

namespace AccessProfiler

variable
    {settings : Settings}
    {Admits : Ty → Prop}
    {original : Program}
    {room : Nat}
    {Given : Prop}
    {Value Result Item : Type}

/-- A step that ends takes no local away.  Under the assumption, and with room for all locals at the
end, the body and the session go on to fit, and the value is good. -/
def Draft.Fitting
    (settings : Settings)
    (Admits : Ty → Prop)
    (original : Program)
    (room : Nat)
    (Given : Prop)
    (step : Draft Value)
    (Good : Value → Prop) : Prop :=
  ∀ body session value bodyAfter sessionAfter,
    Draft.Ends step body session value bodyAfter sessionAfter →
      body.locals.length ≤ bodyAfter.locals.length ∧
        (Given → bodyAfter.locals.length ≤ room → body.Fitting Admits settings.arrays room →
          session.Fitting settings Admits original →
            bodyAfter.Fitting Admits settings.arrays room ∧
              sessionAfter.Fitting settings Admits original ∧ Good value)

namespace Draft.Fitting

theorem pure
    {value : Value}
    {Good : Value → Prop}
    (good : Given → Good value) :
    Fitting settings Admits original room Given (pure value) Good := by
  intro body session result bodyAfter sessionAfter ends
  obtain ⟨rfl, rfl, rfl⟩ := Draft.Ends.pure_iff.1 ends
  exact ⟨Nat.le_refl _, fun given _ bodyFits sessionFits => ⟨bodyFits, sessionFits, good given⟩⟩

theorem bind
    {step : Draft Value}
    {next : Value → Draft Result}
    {Good : Value → Prop}
    {GoodResult : Result → Prop}
    (first : Fitting settings Admits original room Given step Good)
    (second :
      ∀ value, Fitting settings Admits original room (Given ∧ Good value) (next value) GoodResult) :
    Fitting settings Admits original room Given (step >>= next) GoodResult := by
  intro body session result bodyAfter sessionAfter ends
  obtain ⟨value, bodyBetween, sessionBetween, endsFirst, endsNext⟩ := Draft.Ends.bind_iff.1 ends
  obtain ⟨longer, keeps⟩ := first body session value bodyBetween sessionBetween endsFirst
  obtain ⟨longerStill, keepsNext⟩ :=
    second value bodyBetween sessionBetween result bodyAfter sessionAfter endsNext
  refine ⟨longer.trans longerStill, fun given bounded bodyFits sessionFits => ?_⟩
  obtain ⟨bodyFits, sessionFits, good⟩ :=
    keeps given (longerStill.trans bounded) bodyFits sessionFits
  exact keepsNext ⟨given, good⟩ bounded bodyFits sessionFits

/-- What a step needs to be given may be derived from what is given. -/
theorem assume
    {step : Draft Value}
    {Good : Value → Prop}
    {Needed : Prop}
    (fits : Fitting settings Admits original room Needed step Good)
    (derive : Given → Needed) :
    Fitting settings Admits original room Given step Good := by
  intro body session value bodyAfter sessionAfter ends
  obtain ⟨longer, keeps⟩ := fits body session value bodyAfter sessionAfter ends
  exact ⟨longer, fun given => keeps (derive given)⟩

theorem mono
    {step : Draft Value}
    {Good GoodToo : Value → Prop}
    (fits : Fitting settings Admits original room Given step Good)
    (le : ∀ value, Given → Good value → GoodToo value) :
    Fitting settings Admits original room Given step GoodToo := by
  intro body session value bodyAfter sessionAfter ends
  obtain ⟨longer, keeps⟩ := fits body session value bodyAfter sessionAfter ends
  refine ⟨longer, fun given bounded bodyFits sessionFits => ?_⟩
  obtain ⟨bodyFits, sessionFits, good⟩ := keeps given bounded bodyFits sessionFits
  exact ⟨bodyFits, sessionFits, le value given good⟩

/-- A step of the session may rely on what is given. -/
theorem lift
    {step : Transform Value}
    {Good : Value → Prop}
    (keeps : Given → Transform.Keeps (Session.Fitting settings Admits original) step Good) :
    Fitting settings Admits original room Given (Draft.lift step) Good := by
  intro body session value bodyAfter sessionAfter ends
  obtain ⟨endsStep, rfl⟩ := Draft.Ends.lift_iff.1 ends
  refine ⟨Nat.le_refl _, fun given _ bodyFits sessionFits => ?_⟩
  exact ⟨bodyFits, keeps given session value sessionAfter sessionFits endsStep⟩

theorem session :
    Fitting settings Admits original room Given Draft.session
      fun session => session.Fitting settings Admits original := by
  intro body session state bodyAfter sessionAfter ends
  obtain ⟨rfl, rfl, rfl⟩ := Draft.Ends.session_iff.1 ends
  exact ⟨Nat.le_refl _, fun _ _ bodyFits sessionFits => ⟨bodyFits, sessionFits, sessionFits⟩⟩

theorem body :
    Fitting settings Admits original room Given Draft.body
      fun body => body.Fitting Admits settings.arrays room := by
  intro body session state bodyAfter sessionAfter ends
  obtain ⟨rfl, rfl, rfl⟩ := Draft.Ends.body_iff.1 ends
  exact ⟨Nat.le_refl _, fun _ _ bodyFits sessionFits => ⟨bodyFits, sessionFits, bodyFits⟩⟩

theorem modify
    {change : Body → Body}
    (longer : ∀ body, body.locals.length ≤ (change body).locals.length)
    (kept :
      Given → ∀ body, body.Fitting Admits settings.arrays room →
        (change body).Fitting Admits settings.arrays room) :
    Fitting settings Admits original room Given (modify change) fun _ => True := by
  intro body session done bodyAfter sessionAfter ends
  obtain ⟨rfl, rfl⟩ := Draft.Ends.modify_iff.1 ends
  exact ⟨longer body, fun given _ bodyFits sessionFits =>
    ⟨kept given body bodyFits, sessionFits, trivial⟩⟩

theorem setInstructions
    {instructions : List Instruction}
    (fit :
      Given → ∀ instruction ∈ instructions, instruction.Fitting Admits settings.arrays room) :
    Fitting settings Admits original room Given (Draft.setInstructions instructions) fun _ => True :=
  .modify (fun _ => Nat.le_refl _) fun given _ bodyFits => bodyFits.setInstructions (fit given)

theorem mapM
    {step : Item → Draft Value}
    {Good : Value → Prop}
    {items : List Item}
    (each : ∀ item ∈ items, Fitting settings Admits original room Given (step item) Good) :
    Fitting settings Admits original room Given (items.mapM step)
      fun values => ∀ value ∈ values, Good value := by
  induction items with
  | nil => exact pure fun _ => List.forall_mem_nil _
  | cons item rest hypothesis =>
    rw [List.mapM_cons]
    refine bind (each item List.mem_cons_self) fun value => ?_
    have others := hypothesis fun other member => each other (List.mem_cons_of_mem _ member)
    exact bind (others.assume And.left) fun values =>
      pure fun ⟨⟨_, good⟩, goods⟩ => List.forall_mem_cons.2 ⟨good, goods⟩

/-- What the values of the steps for a list come to be is said first. -/
theorem bind_mapM
    {step : Item → Draft Value}
    {next : List Value → Draft Result}
    {GoodResult : Result → Prop}
    {items : List Item}
    (Good : Value → Prop)
    (each : ∀ item ∈ items, Fitting settings Admits original room Given (step item) Good)
    (second :
      ∀ values, Fitting settings Admits original room (Given ∧ ∀ value ∈ values, Good value)
        (next values) GoodResult) :
    Fitting settings Admits original room Given (items.mapM step >>= next) GoodResult :=
  bind (mapM each) second

theorem foldlM
    {step : Value → Item → Draft Value}
    {items : List Item}
    {start : Value}
    {Along : Value → Prop}
    (each :
      ∀ item ∈ items, ∀ value,
        Fitting settings Admits original room (Given ∧ Along value) (step value item) Along) :
    Fitting settings Admits original room (Given ∧ Along start) (items.foldlM step start) Along := by
  induction items generalizing start with
  | nil => exact pure And.right
  | cons item rest hypothesis =>
    rw [List.foldlM_cons]
    refine bind (each item List.mem_cons_self start) fun value => ?_
    have others := @hypothesis value fun other member => each other (List.mem_cons_of_mem _ member)
    exact others.assume fun ⟨⟨given, _⟩, along⟩ => ⟨given, along⟩

theorem forM
    {step : Item → Draft PUnit}
    {items : List Item}
    (each : ∀ item, Fitting settings Admits original room Given (step item) fun _ => True) :
    Fitting settings Admits original room Given (items.forM step) fun _ => True := by
  induction items with
  | nil => exact pure fun _ => trivial
  | cons item rest hypothesis =>
    exact bind (each item) fun _ => hypothesis.assume And.left

end Draft.Fitting

/-- The leaves fit, and so do the instructions that go before what they belong to. -/
structure Draft.Prepared
    (Admits : Ty → Prop)
    (wrapping : Bool)
    (room : Nat)
    (leaves : List Leaf)
    (steps : List Instruction) : Prop where
  leaves : ∀ leaf ∈ leaves, leaf.Fitting Admits room
  steps : ∀ step ∈ steps, step.Fitting Admits wrapping room

/-- The instructions that take the place of one fit, if any do. -/
def Draft.Replaces
    (Admits : Ty → Prop)
    (wrapping : Bool)
    (room : Nat)
    (replacement : Option (List Instruction)) : Prop :=
  ∀ steps, replacement = some steps → ∀ step ∈ steps, step.Fitting Admits wrapping room

theorem Draft.Replaces.kept {wrapping : Bool} : Draft.Replaces Admits wrapping room none :=
  fun _ found => by cases found

theorem Draft.Replaces.steps
    {wrapping : Bool}
    {steps : List Instruction}
    (fit : ∀ step ∈ steps, step.Fitting Admits wrapping room) :
    Draft.Replaces Admits wrapping room (some steps) := by
  rintro _ ⟨⟩
  exact fit

namespace Draft

/-- What is prepared is taken apart at once. -/
theorem Fitting.bind_prepared
    {step : Draft (Item × List Instruction)}
    {next : Item × List Instruction → Draft Result}
    {GoodResult : Result → Prop}
    (leaves : Item → List Leaf)
    (first :
      Fitting settings Admits original room Given step fun prepared =>
        Prepared Admits settings.arrays room (leaves prepared.1) prepared.2)
    (second :
      ∀ item steps,
        Fitting settings Admits original room
          (Given ∧ Prepared Admits settings.arrays room (leaves item) steps) (next (item, steps))
          GoodResult) :
    Fitting settings Admits original room Given (step >>= next) GoodResult :=
  .bind first fun prepared => second prepared.1 prepared.2

/-! ## Steps on the body alone -/

theorem record_fits (event : Event) :
    Fitting settings Admits original room Given (record event) fun _ => True :=
  .lift fun _ => Transform.record_keeps event

theorem newLocal_fits (stem : String) (type : Ty) :
    Fitting settings Admits original room (Admits type) (newLocal stem type)
      fun id => id.index < room := by
  intro body session id bodyAfter sessionAfter ends
  unfold newLocal at ends
  rw [Ends.body_bind_iff] at ends
  obtain ⟨_, _, _, changes, returns⟩ := Ends.bind_iff.1 ends
  obtain ⟨rfl, rfl⟩ := Ends.set_iff.1 changes
  obtain ⟨rfl, rfl, rfl⟩ := Ends.pure_iff.1 returns
  refine ⟨by simp, fun admitted bounded bodyFits sessionFits => ?_⟩
  exact ⟨bodyFits.newLocal admitted stem, sessionFits, Nat.lt_of_lt_of_le (by simp) bounded⟩

theorem apply_fits (batch : EditBatch) :
    Fitting settings Admits original room (batch.Fitting Admits settings.arrays room) (apply batch)
      fun _ => True := by
  intro body session done bodyAfter sessionAfter ends
  unfold apply at ends
  rw [Ends.body_bind_iff] at ends
  obtain ⟨changed, _, _, applies, changes⟩ := Ends.bind_iff.1 ends
  obtain ⟨endsApply, rfl⟩ := Ends.lift_iff.1 applies
  obtain ⟨applied, rfl⟩ := Transform.ends_ofDefect.1 endsApply
  obtain ⟨rfl, rfl⟩ := Ends.set_iff.1 changes
  obtain rfl := EditBatch.apply_eq_ok applied
  refine ⟨Nat.le_refl _, fun batchFits _ bodyFits sessionFits => ?_⟩
  exact ⟨bodyFits.setInstructions (batchFits.applyTo bodyFits.instructions), sessionFits, trivial⟩

end Draft

/-! ## Counting -/

section Counting

variable {session : Session}

theorem FieldCount.of_fits
    {access : Access}
    {expression : Expression}
    {call : Instruction}
    {wrapping : Bool}
    (sessionFits : session.Fitting settings Admits original)
    (leaves : ∀ leaf ∈ expression.leaves, leaf.Fitting Admits room)
    (counts : (FieldCount.of session access expression).call? = some call) :
    call.Fitting Admits wrapping room := by
  unfold FieldCount.of at counts
  split at counts
  · rename_i base field
    split at counts
    · cases counts
    · dsimp only at counts
      split at counts
      · rename_i profile found
        cases counts
        exact Profile.countingCall_fits (sessionFits.profiles _ profile found)
          (leaves (.slot base) List.mem_cons_self) access
      · cases counts
  · cases counts

theorem FieldCount.calls_fit
    {instruction : Instruction}
    {wrapping : Bool}
    (sessionFits : session.Fitting settings Admits original)
    (fits : instruction.Fitting Admits wrapping room) :
    ∀ call ∈ FieldCount.calls session instruction, call.Fitting Admits wrapping room := by
  intro call member
  obtain ⟨⟨access, count⟩, among, counts⟩ := List.mem_filterMap.1 member
  cases instruction with
  | assign place value =>
    obtain ⟨ofPlace, ofValue⟩ := Instruction.fits_assign_iff.1 fits
    rcases List.mem_cons.1 among with same | later
    · obtain ⟨-, rfl⟩ := Prod.mk.inj same
      exact of_fits sessionFits ofPlace counts
    · obtain ⟨-, rfl⟩ := Prod.mk.inj (List.mem_singleton.1 later)
      exact of_fits sessionFits ofValue.leaves counts
  | _ => cases among

end Counting

namespace Draft

theorem countFieldAccesses_fits (pass method : String) :
    Fitting settings Admits original room Given (countFieldAccesses pass method) fun _ => True := by
  refine .bind .session fun session => .bind .body fun body => ?_
  refine .bind (.forM fun event => record_fits _) fun _ => ?_
  refine .bind (.setInstructions ?_) fun _ => .pure fun _ => trivial
  rintro ⟨⟨⟨_, sessionFits⟩, bodyFits⟩, _⟩
  refine List.forall_mem_flatMap.2 fun instruction member => ?_
  have fits := bodyFits.instructions instruction member
  exact List.forall_mem_append.2
    ⟨FieldCount.calls_fit sessionFits fits, List.forall_mem_singleton.2 fits⟩

theorem assignSerial_fits
    (basics : AdmitsBasics Admits)
    (pass method : String)
    (id : MethodId) :
    Fitting settings Admits original room Given (assignSerial pass method id) fun _ => True := by
  refine .bind .session fun session => ?_
  cases found : session.profiles.get? id.owner with
  | none => exact .pure fun _ => trivial
  | some profile =>
    intro body started value bodyAfter sessionAfter ends
    rw [Ends.body_bind_iff] at ends
    obtain ⟨outcome, _, _, patches, rest⟩ := Ends.bind_iff.1 ends
    obtain ⟨endsPatch, rfl⟩ := Ends.lift_iff.1 patches
    obtain ⟨ok, rfl⟩ := Transform.ends_ofDefect.1 endsPatch
    cases outcome with
    | error skip =>
      obtain ⟨-, rfl, rfl⟩ := Ends.pure_iff.1 rest
      exact ⟨Nat.le_refl _, fun _ _ bodyFits startedFits => ⟨bodyFits, startedFits, trivial⟩⟩
    | ok patched =>
      obtain ⟨_, _, _, changes, recording⟩ := Ends.bind_iff.1 rest
      obtain ⟨rfl, rfl⟩ := Ends.set_iff.1 changes
      obtain ⟨_, _, _, records, returns⟩ := Ends.bind_iff.1 recording
      obtain ⟨rfl, rfl⟩ := Ends.record_iff.1 records
      obtain ⟨-, rfl, rfl⟩ := Ends.pure_iff.1 returns
      refine ⟨Profile.length_le_of_patched ok, fun given bounded bodyFits startedFits => ?_⟩
      have profileFits := given.2.profiles id.owner profile found
      exact ⟨Profile.patchConstructor_fits basics profileFits bodyFits bounded ok,
        startedFits.withJournal _, trivial⟩

variable (admission : settings.Admission Admits)
include admission

theorem typeCalls_fits
    (pass method : String)
    (index : Nat)
    (access : Access)
    (keys : List String) :
    Fitting settings Admits original room Given (typeCalls pass method index access keys)
      fun calls => ∀ call ∈ calls, call.Fitting Admits settings.arrays room := by
  refine .mapM fun key _ => .bind (.lift fun _ => Transform.typeCounter_keeps admission key)
    fun counter => .bind (record_fits _) fun _ => .pure ?_
  rintro ⟨⟨_, read, write⟩, _⟩
  cases access with
  | read => exact Instruction.fits_ofStatic read
  | write => exact Instruction.fits_ofStatic write

theorem instructionTypeCalls_fits
    (pass method : String)
    (index : Nat)
    (body : Body)
    (instruction : Instruction) :
    Fitting settings Admits original room Given
      (instructionTypeCalls pass method index body instruction)
      fun calls => ∀ call ∈ calls, call.Fitting Admits settings.arrays room := by
  cases instruction with
  | assign place value =>
    refine .bind .session fun _ => .bind (typeCalls_fits admission _ _ _ _ _) fun written =>
      .bind .session fun _ => .bind (typeCalls_fits admission _ _ _ _ _) fun read => .pure ?_
    rintro ⟨⟨⟨_, writtenFit⟩, _⟩, readFit⟩
    exact List.forall_mem_append.2 ⟨writtenFit, readFit⟩
  | _ => exact .pure fun _ => List.forall_mem_nil _

theorem countTypeAccesses_fits (pass method : String) :
    Fitting settings Admits original room Given (countTypeAccesses pass method) fun _ => True := by
  refine .bind .body fun body => ?_
  refine .bind_mapM
    (fun counted => ∀ instruction ∈ counted, instruction.Fitting Admits settings.arrays room)
    (fun entry member => ?_) fun counted => .bind (.setInstructions ?_) fun _ => .pure fun _ => trivial
  · refine .bind (instructionTypeCalls_fits admission _ _ _ _ _) fun calls => .pure ?_
    rintro ⟨⟨_, bodyFits⟩, callsFit⟩
    have fits := bodyFits.instructions entry.1 (List.fst_mem_of_mem_zipIdx member)
    exact List.forall_mem_append.2 ⟨callsFit, List.forall_mem_singleton.2 fits⟩
  · rintro ⟨_, fit⟩ instruction member
    obtain ⟨instructions, among, inside⟩ := List.mem_flatten.1 member
    exact fit instructions among instruction inside

theorem countCalls_fits (pass : String) (id : MethodId) :
    Fitting settings Admits original room Given (countCalls pass id) fun _ => True := by
  refine .bind .session fun session => ?_
  dsimp only
  cases session.program.methodRef? id with
  | none => exact .pure fun _ => trivial
  | some target =>
    refine .bind (.lift fun _ => Transform.callCounter_keeps admission _) fun counter =>
      .bind .body fun first => .bind .body fun body => ?_
    refine .bind (.setInstructions ?_) fun _ => .bind .session fun _ => .bind (record_fits _) fun _ =>
      .pure fun _ => trivial
    rintro ⟨⟨⟨_, counterFits⟩, _⟩, bodyFits⟩
    refine List.forall_mem_append.2 ⟨?_, List.forall_mem_cons.2
      ⟨Instruction.fits_ofStatic counterFits, ?_⟩⟩
    · intro other among
      rw [List.splitAt_eq] at among
      exact bodyFits.instructions other (List.mem_of_mem_take among)
    · intro other among
      rw [List.splitAt_eq] at among
      exact bodyFits.instructions other (List.mem_of_mem_drop among)

end Draft

/-! ## Adaptations -/

/-- The wrappers that an adaptation needs fit. -/
def Adaptation.Fitting (Admits : Ty → Prop) : Adaptation → Prop
  | .unwrap wrapper | .wrap wrapper => wrapper.Fitting Admits
  | .rewrap source target => source.Fitting Admits ∧ target.Fitting Admits
  | .unsupported => True

theorem Session.Fitting.plan?
    {session : Session}
    {source target : Ty}
    {adaptation : Adaptation}
    (fits : session.Fitting settings Admits original)
    (planned : session.plan? source target = some adaptation) :
    adaptation.Fitting Admits := by
  unfold Session.plan? at planned
  dsimp only at planned
  split at planned
  · cases planned
  · split at planned
    · rename_i wrapper found _
      cases planned
      split
      · exact fits.wrapperOfType? found
      · trivial
    · rename_i wrapper _ found
      cases planned
      split
      · exact fits.wrapperOfType? found
      · trivial
    · rename_i inner outer foundInner foundOuter
      cases planned
      split
      · exact ⟨fits.wrapperOfType? foundInner, fits.wrapperOfType? foundOuter⟩
      · trivial
    · cases planned

theorem Session.Fitting.argumentPlan?
    {session : Session}
    {foreign : Bool}
    {source target : Ty}
    {adaptation : Adaptation}
    (fits : session.Fitting settings Admits original)
    (planned : Draft.argumentPlan? session foreign source target = some adaptation) :
    adaptation.Fitting Admits := by
  unfold Draft.argumentPlan? at planned
  split at planned
  · rename_i wrapper found
    split at planned
    · cases planned
      exact fits.wrapperOfType? found
    · exact fits.plan? planned
  · exact fits.plan? planned

namespace Draft

theorem unwrapOperand_fits (wrapper : Wrapper) (operand : Operand) :
    Fitting settings Admits original room
      (wrapper.Fitting Admits ∧ ∀ leaf ∈ operand.leaves, leaf.Fitting Admits room)
      (unwrapOperand wrapper operand)
      fun raw => Prepared Admits settings.arrays room raw.1.leaves raw.2 := by
  cases operand with
  | «variable» source =>
    refine .bind ((newLocal_fits _ _).assume fun given => given.1.arrayType) fun raw => .pure ?_
    rintro ⟨⟨wrapperFits, operandFits⟩, bounded⟩
    refine ⟨List.forall_mem_singleton.2 bounded, List.forall_mem_singleton.2 ?_⟩
    exact Wrapper.unwrapInto_fits wrapperFits bounded
      (operandFits (.slot source) List.mem_cons_self)
  | literal value => exact .pure fun given => ⟨given.2, List.forall_mem_nil _⟩

theorem wrapOperand_fits (wrapper : Wrapper) (operand : Operand) :
    Fitting settings Admits original room
      (wrapper.Fitting Admits ∧ ∀ leaf ∈ operand.leaves, leaf.Fitting Admits room)
      (wrapOperand wrapper operand)
      fun wrapped => Prepared Admits settings.arrays room wrapped.1.leaves wrapped.2 := by
  refine .bind ((newLocal_fits _ _).assume fun given => given.1.type) fun target => .pure ?_
  rintro ⟨⟨wrapperFits, operandFits⟩, bounded⟩
  exact ⟨List.forall_mem_singleton.2 bounded,
    Wrapper.construct_fits wrapperFits wrapperFits.fromArray bounded operandFits⟩

theorem adapt_fits (adaptation : Adaptation) (operand : Operand) :
    Fitting settings Admits original room
      (adaptation.Fitting Admits ∧ ∀ leaf ∈ operand.leaves, leaf.Fitting Admits room)
      (adapt adaptation operand)
      fun result => ∀ adapted, result = some adapted →
        Prepared Admits settings.arrays room adapted.1.leaves adapted.2 := by
  cases adaptation with
  | unwrap wrapper =>
    refine .bind (unwrapOperand_fits wrapper operand) fun raw => .pure ?_
    rintro ⟨_, prepared⟩ _ ⟨⟩
    exact prepared
  | wrap wrapper =>
    refine .bind (wrapOperand_fits wrapper operand) fun wrapped => .pure ?_
    rintro ⟨_, prepared⟩ _ ⟨⟩
    exact prepared
  | rewrap source target =>
    refine .bind_prepared Operand.leaves
      ((unwrapOperand_fits source operand).assume fun ⟨⟨ofSource, _⟩, operandFits⟩ =>
        ⟨ofSource, operandFits⟩) fun raw unwrapping => ?_
    refine .bind_prepared Operand.leaves
      ((wrapOperand_fits target raw).assume fun ⟨⟨⟨_, ofTarget⟩, _⟩, prepared⟩ =>
        ⟨ofTarget, prepared.leaves⟩) fun wrapped wrapping => .pure ?_
    rintro ⟨⟨_, unwraps⟩, wraps⟩ _ ⟨⟩
    exact ⟨wraps.leaves, List.forall_mem_append.2 ⟨unwraps.steps, wraps.steps⟩⟩
  | unsupported => exact .pure fun _ _ found => by cases found

/-- What follows on an adaptation knows whether there is one. -/
theorem Fitting.bind_adapt
    {adaptation : Adaptation}
    {operand : Operand}
    {next : Option (Operand × List Instruction) → Draft Result}
    {Good : Result → Prop}
    (planned :
      Given → adaptation.Fitting Admits ∧ ∀ leaf ∈ operand.leaves, leaf.Fitting Admits room)
    (unsupported : Fitting settings Admits original room Given (next none) Good)
    (adapted :
      ∀ operand steps,
        Fitting settings Admits original room
          (Given ∧ Prepared Admits settings.arrays room operand.leaves steps)
          (next (some (operand, steps))) Good) :
    Fitting settings Admits original room Given (adapt adaptation operand >>= next) Good := by
  refine .bind ((adapt_fits adaptation operand).assume planned) fun result => ?_
  cases result with
  | none => exact unsupported.assume And.left
  | some parts => exact (adapted parts.1 parts.2).assume fun given => ⟨given.1, given.2 parts rfl⟩

/-- An assignment of an operand that takes a few steps to prepare. -/
theorem Replaces.assign
    {place : Expression}
    {operand : Operand}
    {evaluation steps : List Instruction}
    {wrapping : Bool}
    (placeFits : ∀ leaf ∈ place.leaves, leaf.Fitting Admits room)
    (evaluates : ∀ step ∈ evaluation, step.Fitting Admits wrapping room)
    (prepared : Prepared Admits wrapping room operand.leaves steps) :
    Replaces Admits wrapping room
      (some (evaluation ++ steps ++ [.assign place (.ofOperand operand)])) := by
  refine .steps (List.forall_mem_append.2
    ⟨List.forall_mem_append.2 ⟨evaluates, prepared.steps⟩, List.forall_mem_singleton.2 ?_⟩)
  exact Instruction.fits_assign_iff.2 ⟨placeFits, .ofOperand prepared.leaves⟩

/-- The value of an expression is put into a new local. -/
theorem evaluation_fits
    {result : LocalId}
    {value : Expression}
    {wrapping : Bool}
    (bounded : result.index < room)
    (fits : value.Fitting Admits wrapping room) :
    Prepared Admits wrapping room (Operand.variable result).leaves
      [.assign (.variable result) value] := by
  refine ⟨List.forall_mem_singleton.2 bounded, List.forall_mem_singleton.2 ?_⟩
  exact Instruction.fits_assign_iff.2 ⟨List.forall_mem_singleton.2 bounded, fits⟩

section Repairing

variable
    (basics : AdmitsBasics Admits)
    (wraps : settings.arrays)
include basics wraps

theorem repairAssignment_fits (method : String) (index : Nat) (place value : Expression) :
    Fitting settings Admits original room
      ((Instruction.assign place value).Fitting Admits settings.arrays room)
      (repairAssignment method index place value)
      (Replaces Admits settings.arrays room) := by
  refine .bind .body fun declared => ?_
  split
  · rename_i target source _ ofValue
    refine .bind .session fun session => ?_
    split
    · exact .pure fun _ => .kept
    · rename_i adaptation planned
      cases same : value.operand? with
      | some operand =>
        simp only [pure_bind]
        refine .bind_adapt ?_ (.bind (record_fits _) fun _ => .pure fun _ => .kept)
          fun adapted steps => .bind (record_fits _) fun _ => .pure ?_
        · rintro ⟨⟨fits, _⟩, sessionFits⟩
          obtain ⟨-, valueFits⟩ := Instruction.fits_assign_iff.1 fits
          exact ⟨sessionFits.plan? planned, Expression.leaves_of_operand? same ▸ valueFits.leaves⟩
        · rintro ⟨⟨⟨⟨fits, _⟩, _⟩, prepared⟩, _⟩
          exact .assign (Instruction.fits_assign_iff.1 fits).1 (List.forall_mem_nil _) prepared
      | none =>
        refine .bind ((newLocal_fits _ _).assume ?_) fun result => ?_
        · rintro ⟨⟨fits, declaredFits⟩, _⟩
          obtain ⟨-, valueFits⟩ := Instruction.fits_assign_iff.1 fits
          exact declaredFits.type? basics valueFits wraps ofValue
        · simp only [pure_bind]
          refine .bind_adapt ?_ (.bind (record_fits _) fun _ => .pure fun _ => .kept)
            fun adapted steps => .bind (record_fits _) fun _ => .pure ?_
          · rintro ⟨⟨_, sessionFits⟩, bounded⟩
            exact ⟨sessionFits.plan? planned, List.forall_mem_singleton.2 bounded⟩
          · rintro ⟨⟨⟨⟨⟨fits, _⟩, _⟩, bounded⟩, prepared⟩, _⟩
            obtain ⟨placeFits, valueFits⟩ := Instruction.fits_assign_iff.1 fits
            exact .assign placeFits (evaluation_fits bounded valueFits).steps prepared
  · exact .pure fun _ => .kept

end Repairing

theorem repairReturn_fits (result : Ty) (method : String) (index : Nat) (operand : Operand) :
    Fitting settings Admits original room
      ((Instruction.return (some operand)).Fitting Admits settings.arrays room)
      (repairReturn result method index operand)
      (Replaces Admits settings.arrays room) := by
  refine .bind .body fun declared => ?_
  cases declared.operandType? operand with
  | none => exact .pure fun _ => .kept
  | some source =>
    refine .bind .session fun session => ?_
    split
    · exact .pure fun _ => .kept
    · rename_i adaptation planned
      refine .bind_adapt ?_ (.bind (record_fits _) fun _ => .pure fun _ => .kept)
        fun adapted steps => .bind (record_fits _) fun _ => .pure ?_
      · rintro ⟨⟨fits, _⟩, sessionFits⟩
        exact ⟨sessionFits.plan? planned, Instruction.fits_return_iff.1 fits⟩
      · rintro ⟨⟨_, prepared⟩, _⟩
        exact .steps (List.forall_mem_append.2 ⟨prepared.steps,
          List.forall_mem_singleton.2 (Instruction.fits_return_iff.2 prepared.leaves)⟩)

theorem repair_fits
    (basics : AdmitsBasics Admits)
    (wraps : settings.arrays)
    (result : Ty)
    (method : String) :
    Fitting settings Admits original room Given (repair result method) fun _ => True := by
  refine .bind .body fun body => ?_
  refine .bind_mapM
    (fun entry =>
      entry.1.Fitting Admits settings.arrays room ∧ Replaces Admits settings.arrays room entry.2)
    (fun entry member => ?_) fun repaired => .bind (.setInstructions ?_) fun _ =>
      .pure fun _ => trivial
  · obtain ⟨instruction, index⟩ := entry
    have repairs :
        Fitting settings Admits original room (instruction.Fitting Admits settings.arrays room)
          (repairInstruction result method index instruction)
          (Replaces Admits settings.arrays room) := by
      unfold repairInstruction
      split
      · exact repairAssignment_fits basics wraps _ _ _ _
      · exact repairReturn_fits _ _ _ _
      · exact .pure fun _ => .kept
    have within (given : Given ∧ body.Fitting Admits settings.arrays room) :
        instruction.Fitting Admits settings.arrays room :=
      given.2.instructions instruction (List.fst_mem_of_mem_zipIdx member)
    exact .bind (repairs.assume within) fun replacement =>
      .pure fun given => ⟨within given.1, given.2⟩
  · rintro ⟨_, fit⟩
    refine List.forall_mem_flatMap.2 fun entry member => ?_
    obtain ⟨instruction, replacement⟩ := entry
    obtain ⟨fits, replaces⟩ := fit _ member
    cases replacement with
    | none => exact List.forall_mem_singleton.2 fits
    | some steps => exact replaces steps rfl

/-! ## Wrapping -/

theorem recordAt_fits (origin : Origin) (kind : EventKind) (index : Nat) (message : String) :
    Fitting settings Admits original room Given (recordAt origin kind index message) fun _ => True :=
  record_fits _

theorem wrapperOfLocal?_fits (id : LocalId) :
    Fitting settings Admits original room Given (wrapperOfLocal? id)
      fun found => ∀ wrapper, found = some wrapper → wrapper.Fitting Admits := by
  refine .bind .body fun body => ?_
  split
  · refine .bind .session fun session => .pure ?_
    rintro ⟨_, sessionFits⟩ wrapper found
    exact sessionFits.wrapperOfType? found
  · exact .pure fun _ _ found => by cases found

/-- What follows on a look at a local knows the wrapper that it holds, if it holds one. -/
theorem Fitting.bind_wrapperOfLocal?
    {id : LocalId}
    {next : Option Wrapper → Draft Result}
    {Good : Result → Prop}
    (other : Fitting settings Admits original room Given (next none) Good)
    (held :
      ∀ wrapper,
        Fitting settings Admits original room (Given ∧ wrapper.Fitting Admits)
          (next (some wrapper)) Good) :
    Fitting settings Admits original room Given (wrapperOfLocal? id >>= next) Good := by
  refine .bind (wrapperOfLocal?_fits id) fun found => ?_
  cases found with
  | none => exact other.assume And.left
  | some wrapper => exact (held wrapper).assume fun given => ⟨given.1, given.2 wrapper rfl⟩

theorem adaptReceiver_fits
    (origin : Origin)
    (index : Nat)
    (method : MethodRef)
    (receiver : LocalId) :
    Fitting settings Admits original room (receiver.index < room)
      (adaptReceiver origin index method receiver)
      fun adapted => Prepared Admits settings.arrays room [.slot adapted.1] adapted.2 := by
  have asItIs {Given : Prop} (bounded : Given → receiver.index < room) :
      Fitting settings Admits original room Given (Pure.pure (receiver, []))
        fun adapted => Prepared Admits settings.arrays room [.slot adapted.1] adapted.2 :=
    .pure fun given => ⟨List.forall_mem_singleton.2 (bounded given), List.forall_mem_nil _⟩
  refine .bind_wrapperOfLocal? (asItIs id) fun wrapper => ?_
  dsimp only
  split
  · exact asItIs And.left
  · refine .bind ((newLocal_fits _ _).assume fun given => given.2.arrayType) fun raw =>
      .bind (recordAt_fits _ _ _ _) fun _ => .pure ?_
    rintro ⟨⟨⟨boundedReceiver, wrapperFits⟩, bounded⟩, _⟩
    exact ⟨List.forall_mem_singleton.2 bounded, List.forall_mem_singleton.2
      (Wrapper.unwrapInto_fits wrapperFits bounded boundedReceiver)⟩

theorem adaptArgument_fits
    (origin : Origin)
    (index position : Nat)
    (method : MethodRef)
    (foreign : Bool)
    (target : Ty)
    (argument : Operand) :
    Fitting settings Admits original room (∀ leaf ∈ argument.leaves, leaf.Fitting Admits room)
      (adaptArgument origin index position method foreign target argument)
      fun adapted => Prepared Admits settings.arrays room adapted.1.leaves adapted.2 := by
  have asItIs {Given : Prop} (fits : Given → ∀ leaf ∈ argument.leaves, leaf.Fitting Admits room) :
      Fitting settings Admits original room Given (Pure.pure (argument, []))
        fun adapted => Prepared Admits settings.arrays room adapted.1.leaves adapted.2 :=
    .pure fun given => ⟨fits given, List.forall_mem_nil _⟩
  refine .bind .body fun body => ?_
  cases body.operandType? argument with
  | none => exact asItIs And.left
  | some source =>
    refine .bind .session fun session => ?_
    dsimp only
    split
    · exact asItIs fun given => given.1.1
    · rename_i adaptation planned
      refine .bind_adapt ?_ ?_ fun adapted steps => ?_
      · rintro ⟨⟨fits, _⟩, sessionFits⟩
        exact ⟨sessionFits.argumentPlan? planned, fits⟩
      · exact .bind (recordAt_fits _ _ _ _) fun _ => asItIs fun given => given.1.1.1
      · exact .bind (recordAt_fits _ _ _ _) fun _ => .pure fun given => given.1.2

/-- A call whose arguments take a few steps to prepare. -/
theorem Prepared.call
    {kind : CallKind}
    {method : MethodRef}
    {receiver : Option LocalId}
    {unwrapping : List Instruction}
    {arguments : List (Operand × List Instruction)}
    {wrapping : Bool}
    (methodFits : method.Fitting Admits)
    (bounded : ∀ held, receiver = some held → held.index < room)
    (unwraps : ∀ step ∈ unwrapping, step.Fitting Admits wrapping room)
    (prepared :
      ∀ argument ∈ arguments, Prepared Admits wrapping room argument.1.leaves argument.2) :
    Prepared Admits wrapping room (Call.leaves ⟨kind, method, receiver, arguments.map Prod.fst⟩)
      (unwrapping ++ arguments.flatMap Prod.snd) where
  leaves := Call.leaves_fit_iff.2
    ⟨methodFits, bounded, List.forall_mem_map.2 fun argument member =>
      (prepared argument member).leaves⟩
  steps := List.forall_mem_append.2
    ⟨unwraps, List.forall_mem_flatMap.2 fun argument member => (prepared argument member).steps⟩

section Calls

variable
    (admission : settings.Admission Admits)
    (wraps : settings.arrays)
include admission wraps

theorem callee?_fits (method : MethodRef) :
    Fitting settings Admits original room (method.Fitting Admits) (callee? method)
      fun found => ∀ callee, found = some callee → callee.2.Fitting Admits settings.arrays := by
  refine .bind .session fun session => ?_
  dsimp only
  cases resolved : session.program.resolveMethod? method.owner method.name method.parameters with
  | some callee =>
    refine .pure ?_
    rintro ⟨_, sessionFits⟩ _ ⟨⟩
    exact sessionFits.program.resolveMethod? resolved
  | none =>
    refine .bind (.lift fun given =>
      Transform.mapM_mapType_keeps admission wraps given.1.parameters) fun mapped => ?_
    split
    · exact .pure fun _ _ found => by cases found
    · refine .bind .session fun session => .pure ?_
      rintro ⟨_, sessionFits⟩ callee found
      exact sessionFits.program.resolveMethod? found

theorem calleeOf_fits (method : MethodRef) :
    Fitting settings Admits original room (method.Fitting Admits) (calleeOf method)
      fun callee => Admits callee.result ∧ ∀ type ∈ callee.parameters, Admits type := by
  refine .bind (callee?_fits admission wraps method) fun found => ?_
  cases found with
  | none => exact .pure fun given => ⟨given.1.result, given.1.parameters⟩
  | some callee =>
    refine .bind .session fun session => .pure ?_
    rintro ⟨⟨_, fits⟩, _⟩
    have calleeFits := fits callee rfl
    exact ⟨calleeFits.result, calleeFits.parameters⟩

theorem wrapCall_fits (origin : Origin) (index : Nat) (target : Call) :
    Fitting settings Admits original room (∀ leaf ∈ target.leaves, leaf.Fitting Admits room)
      (wrapCall origin index target)
      fun wrapped => Prepared Admits settings.arrays room wrapped.1.leaves wrapped.2 := by
  have asItIs {Given : Prop} (fits : Given → ∀ leaf ∈ target.leaves, leaf.Fitting Admits room) :
      Fitting settings Admits original room Given (Pure.pure (target, []))
        fun wrapped => Prepared Admits settings.arrays room wrapped.1.leaves wrapped.2 :=
    .pure fun given => ⟨fits given, List.forall_mem_nil _⟩
  refine .bind .session fun session => ?_
  dsimp only
  split
  · exact asItIs And.left
  · refine .bind ((calleeOf_fits admission wraps target.method).assume fun given =>
      (Call.leaves_fit_iff.1 given.1).1) fun callee => ?_
    split
    · exact asItIs fun given => given.1.1
    · have argument (entry : (Ty × Operand) × Nat)
          (member : entry ∈ (callee.parameters.zip target.arguments).zipIdx)
          (fits : ∀ leaf ∈ target.leaves, leaf.Fitting Admits room) :
          ∀ leaf ∈ entry.1.2.leaves, leaf.Fitting Admits room :=
        (Call.leaves_fit_iff.1 fits).2.2 _ (List.of_mem_zip (List.fst_mem_of_mem_zipIdx member)).2
      have methodFits
          (fits : ∀ leaf ∈ target.leaves, leaf.Fitting Admits room)
          (calleeFits : Admits callee.result ∧ ∀ type ∈ callee.parameters, Admits type) :
          (if callee.foreign then target.method
            else { target.method with
              parameters := callee.parameters, result := callee.result }).Fitting Admits := by
        split
        · exact (Call.leaves_fit_iff.1 fits).1
        · exact ⟨calleeFits.1, calleeFits.2⟩
      cases received : target.receiver with
      | none =>
        simp only [pure_bind]
        refine .bind_mapM
          (fun adapted => Prepared Admits settings.arrays room adapted.1.leaves adapted.2)
          (fun entry member => (adaptArgument_fits _ _ _ _ _ _ _).assume fun given =>
            argument entry member given.1.1) fun arguments => .pure ?_
        rintro ⟨⟨⟨fits, _⟩, calleeFits⟩, prepared⟩
        exact .call (methodFits fits calleeFits) nofun (List.forall_mem_nil _) prepared
      | some receiver =>
        simp only [pure_bind]
        refine .bind_prepared (fun adapted => [.slot adapted])
          ((adaptReceiver_fits _ _ _ _).assume fun given =>
            (Call.leaves_fit_iff.1 given.1.1).2.1 receiver received) fun held unwrapping => ?_
        refine .bind_mapM
          (fun adapted => Prepared Admits settings.arrays room adapted.1.leaves adapted.2)
          (fun entry member => (adaptArgument_fits _ _ _ _ _ _ _).assume fun given =>
            argument entry member given.1.1.1) fun arguments => .pure ?_
        rintro ⟨⟨⟨⟨fits, _⟩, calleeFits⟩, unwraps⟩, prepared⟩
        refine .call (methodFits fits calleeFits) ?_ unwraps.steps prepared
        rintro _ ⟨⟩
        exact unwraps.leaves (.slot held) List.mem_cons_self

/-- The right side of an assignment makes nothing that it did not make before. -/
theorem wrapValue_fits (origin : Origin) (index : Nat) (value : Expression) :
    Fitting settings Admits original room (value.Fitting Admits settings.arrays room)
      (wrapValue origin index value)
      fun wrapped => wrapped.1.Fitting Admits settings.arrays room ∧
        ∀ step : Instruction, step ∈ wrapped.2 → step.Fitting Admits settings.arrays room := by
  have asItIs {Given : Prop} (fits : Given → value.Fitting Admits settings.arrays room) :
      Fitting settings Admits original room Given (Pure.pure (value, []))
        fun wrapped => wrapped.1.Fitting Admits settings.arrays room ∧
          ∀ step : Instruction, step ∈ wrapped.2 → step.Fitting Admits settings.arrays room :=
    .pure fun given => ⟨fits given, List.forall_mem_nil _⟩
  cases value with
  | element base slot =>
    refine .bind_wrapperOfLocal? (asItIs id) fun wrapper =>
      .bind (recordAt_fits _ _ _ _) fun _ => .pure ?_
    rintro ⟨⟨fits, wrapperFits⟩, _⟩
    obtain ⟨bounded, slotFits⟩ := List.forall_mem_cons.1 fits.leaves
    exact ⟨.call (Wrapper.ofVirtual_fits wrapperFits.get bounded
      (List.forall_mem_singleton.2 slotFits)), List.forall_mem_nil _⟩
  | length base =>
    refine .bind_wrapperOfLocal? (asItIs id) fun wrapper => ?_
    refine .bind ((newLocal_fits _ _).assume fun given => given.2.arrayType) fun raw =>
      .bind (recordAt_fits _ _ _ _) fun _ => .pure ?_
    rintro ⟨⟨⟨fits, wrapperFits⟩, bounded⟩, _⟩
    have boundedBase : base.index < room := fits.leaves (.slot base) List.mem_cons_self
    refine ⟨⟨List.forall_mem_singleton.2 bounded, fun _ _ found => by cases found⟩, ?_⟩
    exact List.forall_mem_singleton.2 (Wrapper.unwrapInto_fits wrapperFits bounded boundedBase)
  | call target =>
    refine .bind_prepared Call.leaves
      ((wrapCall_fits admission wraps origin index target).assume Expression.Fitting.leaves)
      fun wrapped steps => .pure fun given => ⟨.call given.2.leaves, given.2.steps⟩
  | _ => exact asItIs id

end Calls

theorem wrapAllocation_fits
    (origin : Origin)
    (index : Nat)
    (place : Expression)
    (element : Ty)
    (size : Operand) :
    Fitting settings Admits original room
      ((∀ leaf ∈ place.leaves, leaf.Fitting Admits room) ∧
        ∀ leaf ∈ size.leaves, leaf.Fitting Admits room)
      (wrapAllocation origin index place element size)
      (Replaces Admits settings.arrays room) := by
  unfold wrapAllocation
  split
  · exact .bind (recordAt_fits _ _ _ _) fun _ => .pure fun _ => .kept
  · split
    · rename_i target
      refine .bind_wrapperOfLocal? (.pure fun _ => .kept) fun wrapper => ?_
      dsimp only
      split
      · exact .pure fun _ => .kept
      · refine .bind (recordAt_fits _ _ _ _) fun _ => .pure ?_
        rintro ⟨⟨⟨placeFits, sizeFits⟩, wrapperFits⟩, _⟩
        exact .steps (Wrapper.construct_fits wrapperFits wrapperFits.withLength
          (placeFits (.slot target) List.mem_cons_self) sizeFits)
    · exact .pure fun _ => .kept

theorem wrapStore_fits
    (origin : Origin)
    (index : Nat)
    (wrapper : Wrapper)
    (base : LocalId)
    (slot : Operand)
    (value : Expression) :
    Fitting settings Admits original room
      (wrapper.Fitting Admits ∧ base.index < room ∧ (∀ leaf ∈ slot.leaves, leaf.Fitting Admits room) ∧
        value.Fitting Admits settings.arrays room ∧ Admits wrapper.element)
      (wrapStore origin index wrapper base slot value)
      fun steps => ∀ step ∈ steps, step.Fitting Admits settings.arrays room := by
  have stores
      {stored : Operand}
      {evaluation : List Instruction}
      (wrapperFits : wrapper.Fitting Admits)
      (bounded : base.index < room)
      (slotFits : ∀ leaf ∈ slot.leaves, leaf.Fitting Admits room)
      (prepared : Prepared Admits settings.arrays room stored.leaves evaluation) :
      ∀ step ∈ evaluation ++ [wrapper.setCall base slot stored],
        step.Fitting Admits settings.arrays room := by
    refine List.forall_mem_append.2 ⟨prepared.steps, List.forall_mem_singleton.2 ?_⟩
    exact Instruction.fits_invoke_iff.2 (Wrapper.ofVirtual_fits wrapperFits.set bounded
      (List.forall_mem_cons.2 ⟨slotFits, List.forall_mem_singleton.2 prepared.leaves⟩))
  unfold wrapStore
  cases same : value.operand? with
  | some operand =>
    simp only [pure_bind]
    refine .bind (recordAt_fits _ _ _ _) fun _ => .pure ?_
    rintro ⟨⟨wrapperFits, bounded, slotFits, valueFits, _⟩, _⟩
    exact stores wrapperFits bounded slotFits
      ⟨Expression.leaves_of_operand? same ▸ valueFits.leaves, List.forall_mem_nil _⟩
  | none =>
    simp only [pure_bind]
    refine .bind ((newLocal_fits _ _).assume fun given => given.2.2.2.2) fun result =>
      .bind (recordAt_fits _ _ _ _) fun _ => .pure ?_
    rintro ⟨⟨⟨wrapperFits, bounded, slotFits, valueFits, _⟩, boundedResult⟩, _⟩
    exact stores wrapperFits bounded slotFits (evaluation_fits boundedResult valueFits)

theorem wrapBinding_fits
    (origin : Origin)
    (signature : Method)
    (position index : Nat)
    (batch : EditBatch)
    (wrapper : Wrapper)
    (target : LocalId)
    (parameter : Nat)
    (type : Ty) :
    Fitting settings Admits original room
      ((batch.Fitting Admits settings.arrays room ∧
        (Instruction.bind target (.parameter parameter type)).Fitting Admits settings.arrays room) ∧
          wrapper.Fitting Admits)
      (wrapBinding origin signature position index batch wrapper target parameter type)
      (EditBatch.Fitting Admits settings.arrays room) := by
  have replaces {Given : Prop} {binding : Instruction}
      (fits :
        Given → batch.Fitting Admits settings.arrays room ∧
          binding.Fitting Admits settings.arrays room) :
      Fitting settings Admits original room Given
        (lift (Transform.ofDefect (batch.replace index [binding])))
        (EditBatch.Fitting Admits settings.arrays room) := by
    refine (Fitting.lift fun _ => Transform.Keeps.ofDefect).mono fun changed given replaced => ?_
    exact (fits given).1.replace (List.forall_mem_singleton.2 (fits given).2) replaced
  unfold wrapBinding
  dsimp only
  split
  · refine .bind (replaces ?_) fun changed => .bind (recordAt_fits _ _ _ _) fun _ =>
      .pure fun given => given.1.2
    rintro ⟨⟨batchFits, fits⟩, wrapperFits⟩
    obtain ⟨bounded, sourceFits⟩ := Instruction.fits_bind_iff.1 fits
    refine ⟨batchFits, Instruction.fits_bind_iff.2 ⟨bounded, List.forall_mem_cons.2
      ⟨(List.forall_mem_cons.1 sourceFits).1, List.forall_mem_singleton.2 wrapperFits.type⟩⟩⟩
  · refine .bind ((newLocal_fits _ _).assume ?_) fun raw => .bind (replaces ?_) fun changed =>
      .bind (recordAt_fits _ _ _ _) fun _ => .pure ?_
    · rintro ⟨⟨_, fits⟩, _⟩
      obtain ⟨-, sourceFits⟩ := Instruction.fits_bind_iff.1 fits
      exact sourceFits (.type type) (List.mem_cons_of_mem _ List.mem_cons_self)
    · rintro ⟨⟨⟨batchFits, fits⟩, _⟩, boundedRaw⟩
      exact ⟨batchFits, Instruction.fits_bind_iff.2
        ⟨boundedRaw, (Instruction.fits_bind_iff.1 fits).2⟩⟩
    · rintro ⟨⟨⟨⟨⟨_, fits⟩, wrapperFits⟩, boundedRaw⟩, changedFits⟩, _⟩
      exact changedFits.insertBefore (Wrapper.construct_fits wrapperFits wrapperFits.fromArray
        (Instruction.fits_bind_iff.1 fits).1 (List.forall_mem_singleton.2 boundedRaw))

section Assignments

variable
    (admission : settings.Admission Admits)
    (wraps : settings.arrays)
include admission wraps

theorem wrapAssignment_fits (origin : Origin) (index : Nat) (place value : Expression) :
    Fitting settings Admits original room
      ((Instruction.assign place value).Fitting Admits settings.arrays room)
      (wrapAssignment origin index place value)
      (Replaces Admits settings.arrays room) := by
  have assigns
      {Given : Prop}
      {place wrapped : Expression}
      {steps : List Instruction}
      (fits :
        Given →
          (Instruction.assign place value).Fitting Admits settings.arrays room ∧
            wrapped.Fitting Admits settings.arrays room ∧
              ∀ step ∈ steps, step.Fitting Admits settings.arrays room) :
      Fitting settings Admits original room Given
        (if steps.isEmpty && wrapped == value then Pure.pure none
          else Pure.pure (some (steps ++ [.assign place wrapped])))
        (Replaces Admits settings.arrays room) := by
    split
    · exact .pure fun _ => .kept
    · refine .pure fun given => ?_
      obtain ⟨assignFits, wrappedFits, stepsFit⟩ := fits given
      have placeFits := (Instruction.fits_assign_iff.1 assignFits).1
      exact .steps (List.forall_mem_append.2 ⟨stepsFit,
        List.forall_mem_singleton.2 (Instruction.fits_assign_iff.2 ⟨placeFits, wrappedFits⟩)⟩)
  unfold wrapAssignment
  split
  · rename_i content size
    refine (wrapAllocation_fits origin index place content size).assume fun fits => ?_
    obtain ⟨placeFits, valueFits⟩ := Instruction.fits_assign_iff.1 fits
    exact ⟨placeFits, (List.forall_mem_cons.1 valueFits.leaves).2⟩
  · refine .bind ((wrapValue_fits admission wraps origin index value).assume fun fits =>
      (Instruction.fits_assign_iff.1 fits).2) fun wrapped => ?_
    dsimp only
    split
    · rename_i base slot
      simp only [pure_bind]
      refine .bind_wrapperOfLocal? (assigns id) fun wrapper => ?_
      refine .bind ((wrapStore_fits origin index wrapper base slot wrapped.1).assume ?_) fun stores =>
        .pure ?_
      · rintro ⟨⟨fits, wrappedFits, _⟩, wrapperFits⟩
        obtain ⟨bounded, slotFits⟩ :=
          List.forall_mem_cons.1 (Instruction.fits_assign_iff.1 fits).1
        exact ⟨wrapperFits, bounded, slotFits, wrappedFits,
          admission.element _ wrapperFits.arrayType⟩
      · rintro ⟨⟨⟨_, _, stepsFit⟩, _⟩, storesFit⟩
        exact .steps (List.forall_mem_append.2 ⟨stepsFit, storesFit⟩)
    · simp only [pure_bind]
      exact assigns id

theorem wrapInstruction_fits (origin : Origin) (index : Nat) (instruction : Instruction) :
    Fitting settings Admits original room (instruction.Fitting Admits settings.arrays room)
      (wrapInstruction origin index instruction) (Replaces Admits settings.arrays room) := by
  cases instruction with
  | assign place value => exact wrapAssignment_fits admission wraps origin index place value
  | invoke target =>
    refine .bind_prepared Call.leaves
      ((wrapCall_fits admission wraps origin index target).assume Instruction.fits_invoke_iff.1)
      fun wrapped steps => ?_
    dsimp only
    split
    · exact .pure fun _ => .kept
    · refine .pure fun given => ?_
      exact .steps (List.forall_mem_append.2 ⟨given.2.steps,
        List.forall_mem_singleton.2 (Instruction.fits_invoke_iff.2 given.2.leaves)⟩)
  | _ => exact .pure fun _ => .kept

theorem queue_fits
    (origin : Origin)
    (signature : Method)
    (position : Nat)
    (batch : EditBatch)
    (index : Nat)
    (instruction : Instruction) :
    Fitting settings Admits original room
      (batch.Fitting Admits settings.arrays room ∧ instruction.Fitting Admits settings.arrays room)
      (queue origin signature position batch index instruction)
      (EditBatch.Fitting Admits settings.arrays room) := by
  unfold queue
  split
  · split
    · exact .pure And.left
    · exact .bind_wrapperOfLocal? (.pure And.left) fun wrapper =>
        wrapBinding_fits _ _ _ _ _ _ _ _ _
  · refine .bind ((wrapInstruction_fits admission wraps origin index instruction).assume And.right)
      fun replacement => ?_
    cases replacement with
    | none => exact .pure fun given => given.1.1
    | some steps =>
      refine (Fitting.lift fun _ => Transform.Keeps.ofDefect).mono fun changed given replaced => ?_
      exact given.1.1.replace (given.2 steps rfl) replaced

theorem retypeLocal_fits (id : LocalId) :
    Fitting settings Admits original room Given (retypeLocal id) fun _ => True := by
  refine .bind .body fun body => ?_
  split
  · rename_i element found
    refine .bind (.lift fun given =>
      Transform.wrapperFor_keeps admission wraps (given.2.localType? found)) fun made => ?_
    cases made with
    | none => exact .pure fun _ => trivial
    | some wrapper =>
      refine .bind (.modify (fun _ => ?_) fun given body bodyFits => ?_) fun _ =>
        .pure fun _ => trivial
      · exact Nat.le_of_eq (List.length_modify _ _ _).symm
      · exact bodyFits.setLocalType id (given.2 wrapper rfl).type
  · exact .pure fun _ => trivial

theorem propagate_fits (pass : String) (id : MethodId) :
    Fitting settings Admits original room Given (propagate pass id) fun _ => True := by
  refine .bind .session fun session => ?_
  dsimp only
  cases session.program.method? id with
  | none => exact .pure fun _ => trivial
  | some signature =>
    have retypes : Fitting settings Admits original room
        (Given ∧ session.Fitting settings Admits original) retypeLocals fun _ => True :=
      .bind .body fun _ => .bind_mapM (fun _ => True)
        (fun _ _ => retypeLocal_fits admission wraps _) fun _ => .pure fun _ => trivial
    refine .bind retypes fun _ => .bind .body fun first => .bind .body fun body => ?_
    refine .bind ((Fitting.foldlM fun entry member batch =>
        (queue_fits admission wraps _ _ _ batch entry.2 entry.1).assume fun given =>
          ⟨given.2, given.1.2.instructions entry.1 (List.fst_mem_of_mem_zipIdx member)⟩).assume
        fun given => ⟨given, .empty⟩) fun batch => ?_
    refine .bind ((apply_fits batch).assume And.right) fun _ =>
      .bind (repair_fits admission.toAdmitsBasics wraps _ _) fun _ => .pure fun _ => trivial

end Assignments

end Draft

/-- A pass on a body leaves it fitting if its room suffices for all locals at the end. -/
theorem Pass.onBody_fits
    (admission : settings.Admission Admits)
    {pass : Pass}
    (wraps : pass = .propagateArrays → settings.arrays)
    (id : MethodId) :
    Draft.Fitting settings Admits original room Given (pass.onBody id) fun _ => True := by
  refine .bind .session fun session => ?_
  dsimp only
  cases pass with
  | instrument => exact .pure fun _ => trivial
  | wrapSignatures => exact .pure fun _ => trivial
  | patchConstructors => exact Draft.assignSerial_fits admission.toAdmitsBasics _ _ _
  | profileTypes => exact Draft.countTypeAccesses_fits admission _ _
  | countFields => exact Draft.countFieldAccesses_fits _ _
  | trackCalls => exact Draft.countCalls_fits admission _ _
  | propagateArrays => exact Draft.propagate_fits admission (wraps rfl) _ _

end AccessProfiler
