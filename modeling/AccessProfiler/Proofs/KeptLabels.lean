import AccessProfiler.Proofs.LabelledCounters
import AccessProfiler.Proofs.Passes

/-!
# Passes that keep the labels

The passes in front of the one that counts calls ask for counters of instances and of types, and change
classes and bodies that are none of the class of the counters.  So what is a matter of the counters and
their class alone (`Session.RestsOnCounters`) is kept when classes are instrumented
(`Session.RestsOnCounters.instrumentAll`).  Whether those passes succeed or fail, every method of the
class of the counters goes on to count for one owner under its label (`Pass.run_keepsLabels`).
-/

namespace AccessProfiler

variable {counter : String} {sink : Sink} {before : Session}

/-- What holds after a step that succeeds is left by it. -/
theorem Transform.Leaves.of_succeeds
    {Value : Type}
    {Invariant : Session → Prop}
    {step : Transform Value}
    (succeeds : Succeeds step before fun _ after => Invariant after) :
    Leaves Invariant before step := by
  obtain ⟨value, after, ends, holds⟩ := succeeds
  have left : step.on before = (.ok value, after) := ends
  unfold Leaves
  rw [left]
  exact holds

/-- It is a matter of the counters and their class, and counters of instances may be asked for. -/
structure Session.RestsOnCounters (counter : String) (Invariant : Session → Prop) : Prop where
  className : ∀ session, Invariant session → session.counters.className = counter
  elsewhere :
    ∀ before after, Invariant before → after.settings = before.settings →
      after.counters = before.counters → after.typeCounters = before.typeCounters →
        after.callCounters = before.callCounters →
          after.program.class? counter = before.program.class? counter → Invariant after
  asks :
    ∀ before name key, Invariant before →
      Transform.Leaves Invariant before (Transform.counterFor (.instances name) key)
  ensures :
    ∀ before, Invariant before → Transform.Leaves Invariant before Transform.ensureCounterClass

namespace Session.RestsOnCounters

variable {Invariant : Session → Prop} (rests : RestsOnCounters counter Invariant)
include rests

theorem ignoresNotes : Session.IgnoresNotes Invariant :=
  fun before _ _ _ holds => rests.elsewhere before _ holds rfl rfl rfl rfl rfl

/-- Another class may be changed. -/
theorem modifyClass
    (holds : Invariant before)
    {name : String}
    (differs : name ≠ counter)
    (change : Class → Class) :
    Invariant { before with program := before.program.modifyClass name change } :=
  rests.elsewhere before _ holds rfl rfl rfl rfl
    ((Program.class?_modifyClass change).trans (if_neg (Ne.symm differs)))

/-- A method of another class may be changed. -/
theorem modifyMethod
    (holds : Invariant before)
    {id : MethodId}
    (differs : id.owner ≠ counter)
    (change : Method → Method) :
    Invariant { before with program := before.program.modifyMethod id change } :=
  rests.modifyClass holds differs _

/-- A class that is transformed is not that of the counters. -/
theorem ne_counter
    (holds : Invariant before)
    {name : String}
    (transformable : before.isTransformableClass name) :
    name ≠ counter := by
  rintro rfl
  simp [isTransformableClass, CounterTable.holds, rests.className before holds] at transformable

/-- A method of another class is generated. -/
theorem addGenerated
    (holds : Invariant before)
    {owner : String}
    (differs : owner ≠ counter)
    (method : Method) :
    Transform.Leaves Invariant before (Transform.addGenerated owner method) := by
  unfold Transform.addGenerated
  refine Transform.Leaves.bind (.changeProgram holds fun id program added => ?_)
    fun _ _ holds => ?_
  · obtain ⟨declaration, -, -, rfl⟩ := Program.addMethod_eq_ok added
    exact rests.modifyClass holds differs _
  · exact rests.ignoresNotes.markGenerated holds _

theorem incrementor
    (holds : Invariant before)
    {owner : String}
    (differs : owner ≠ counter)
    (name : String)
    (count serial : FieldRef) :
    Transform.Leaves Invariant before (Transform.incrementor owner name count serial) := by
  unfold Transform.incrementor
  apply Transform.Leaves.get_bind
  cases (before.program.class? owner).bind fun declared => declared.methodNamed? name with
  | some method => exact .pure holds
  | none =>
    refine Transform.Leaves.bind (rests.addGenerated holds differs _) fun _ _ holds => ?_
    exact Transform.Leaves.bind (rests.ignoresNotes.record holds _) fun _ _ holds => .pure holds

/-- Instrumenting another class asks for one counter and declares members there. -/
theorem instrument
    (holds : Invariant before)
    {className : String}
    (differs : className ≠ counter) :
    Transform.Leaves Invariant before (Transform.instrument className) := by
  have declare
      {session : Session}
      (holds : Invariant session)
      (name : String) :
      Transform.Leaves Invariant session
        (Transform.changeProgram fun program =>
          program.addField className ⟨name, .int, Field.synthetic⟩) := by
    refine .changeProgram holds fun reference program added => ?_
    obtain ⟨declaration, extended, -, -, rfl⟩ := Program.addField_eq_ok added
    exact rests.modifyClass holds differs _
  have build
      {session : Session}
      (holds : Invariant session) :
      Transform.Leaves Invariant session (Transform.buildProfile className) := by
    unfold Transform.buildProfile
    refine Transform.Leaves.bind (rests.asks _ _ _ holds) fun _ _ holds => ?_
    refine Transform.Leaves.bind (rests.ignoresNotes.record holds _) fun _ _ holds => ?_
    refine Transform.Leaves.bind (declare holds _) fun _ _ holds => ?_
    refine Transform.Leaves.bind (declare holds _) fun _ _ holds => ?_
    refine Transform.Leaves.bind (declare holds _) fun _ _ holds => ?_
    refine Transform.Leaves.bind (rests.incrementor holds differs _ _ _) fun _ _ holds => ?_
    refine Transform.Leaves.bind (rests.incrementor holds differs _ _ _) fun _ _ holds => ?_
    exact Transform.Leaves.get_bind (.pure holds)
  unfold Transform.instrument
  apply Transform.Leaves.get_bind
  cases before.profiles.get? className with
  | some profile => exact .pure holds
  | none =>
    cases before.program.class? className with
    | none => exact .throw holds
    | some declared =>
      dsimp only
      split
      · exact .throw_bind holds
      · refine Transform.Leaves.bind (build holds) fun profile between holds => ?_
        refine Transform.Leaves.bind
          (Transform.Leaves.modify (rests.elsewhere between _ holds rfl rfl rfl rfl rfl))
          fun _ _ holds => ?_
        exact Transform.Leaves.bind (rests.ignoresNotes.record holds _) fun _ _ holds => .pure holds

/-- So it is kept when every class that is transformed is instrumented. -/
theorem instrumentAll (holds : Invariant before) :
    Transform.Leaves Invariant before Pass.instrumentAll := by
  have each
      {session : Session}
      (holds : Invariant session)
      (className : String) :
      Transform.Leaves Invariant session (Pass.instrumentClass className) := by
    unfold Pass.instrumentClass
    apply Transform.Leaves.get_bind
    split
    · rename_i chosen
      rw [Bool.and_eq_true] at chosen
      exact Transform.Leaves.bind (rests.instrument holds (rests.ne_counter holds chosen.1))
        fun _ _ holds => .pure holds
    · exact .pure holds
  unfold Pass.instrumentAll
  refine Transform.Leaves.bind (rests.ensures before holds) fun _ _ holds => ?_
  apply Transform.Leaves.get_bind
  exact Transform.Leaves.bind
    (Transform.Leaves.mapM holds fun className _ _ holds => each holds className)
    fun _ _ holds => .pure holds

end Session.RestsOnCounters

/-- The labels are a matter of the counters and their class. -/
theorem Session.Labels.restsOnCounters :
    Session.RestsOnCounters counter (Session.Labels counter sink) where
  className _ labels := labels.className
  elsewhere _ _ labels settings counters _ callCounters program :=
    labels.elsewhere settings counters callCounters program
  asks _ _ _ labels :=
    .of_succeeds ((Transform.counterFor_labels labels _ _).mono fun _ _ holds => holds.1)
  ensures before labels := by
    have named := labels.className
    subst named
    exact labels.ensureClass

theorem Session.Labels.modifyMethod
    (labels : before.Labels counter sink)
    {id : MethodId}
    (differs : id.owner ≠ counter)
    (change : Method → Method) :
    ({ before with program := before.program.modifyMethod id change } : Session).Labels counter
      sink :=
  restsOnCounters.modifyMethod labels differs change

theorem Session.Labels.ne_counter
    (labels : before.Labels counter sink)
    {name : String}
    (transformable : before.isTransformableClass name) :
    name ≠ counter :=
  restsOnCounters.ne_counter labels transformable

namespace Pass

/-- The passes in front of the one that counts calls. -/
def beforeCalls : List Pass := [.instrument, .patchConstructors, .profileTypes, .countFields]

theorem onBody_keepsLabels
    {pass : Pass}
    (early : pass ∈ beforeCalls)
    (id : MethodId) :
    Draft.Leaves (fun _ => Session.Labels counter sink) (pass.onBody id) := by
  have ignores : Draft.IgnoresEdits fun _ => Session.Labels counter sink :=
    .of_session Session.Labels.restsOnCounters.ignoresNotes
  unfold onBody
  refine Draft.Leaves.bind Draft.Leaves.session fun session => ?_
  cases pass with
  | instrument => exact Draft.Leaves.pure
  | patchConstructors => exact Draft.assignSerial_leaves ignores _ _ id
  | profileTypes =>
    exact Draft.countTypeAccesses_leaves ignores
      (fun name _ _ labels => .of_succeeds (Transform.typeCounter_labels labels name)) _ _
  | countFields => exact Draft.countFieldAccesses_leaves ignores _ _
  | _ => simp [beforeCalls] at early

/-- Bodies of methods of other classes are taken out, worked on and put back. -/
theorem onMethods_keepsLabels
    (labels : before.Labels counter sink)
    {pass : Pass}
    (early : pass ∈ beforeCalls) :
    Transform.Leaves (Session.Labels counter sink) before pass.onMethods := by
  refine onMethods_leaves_of labels fun id transformable session labelsNow => ?_
  have differs := labels.ne_counter transformable
  exact onMethod_leaves_of Session.Labels.restsOnCounters.ignoresNotes labelsNow
    (fun _ _ => labelsNow.modifyMethod differs _) (onBody_keepsLabels early id)
    (fun _ _ _ labels _ => labels) (fun _ _ labels => labels.modifyMethod differs _)

/-- A pass in front of the one that counts calls keeps the labels. -/
theorem run_keepsLabels
    (labels : before.Labels counter sink)
    {pass : Pass}
    (early : pass ∈ beforeCalls) :
    Transform.Leaves (Session.Labels counter sink) before pass.run := by
  refine run_leaves_of Session.Labels.restsOnCounters.ignoresNotes labels (fun _ labels => ?_)
    fun _ labels => onMethods_keepsLabels labels early
  cases pass with
  | instrument => exact Session.Labels.restsOnCounters.instrumentAll labels
  | wrapSignatures => simp [beforeCalls] at early
  | _ => exact .pure labels

end Pass
end AccessProfiler
