import AccessProfiler.Proofs.Conservation
import AccessProfiler.Proofs.Passes

/-!
# Passes leave programs as they should be

Passes generate code, and in the classes that are transformed they declare members that count, replace
signatures and work on bodies.  If a statement on programs goes on to hold through each of these
(`Settings.AdmitsPasses`), it goes on to hold through every sequence of passes, whether they succeed or
fail.
-/

namespace AccessProfiler

variable {settings : Settings} {Holds : Program → Prop} {before : Session}

/-- Bodies are worked on outside of the program. -/
theorem Session.Confined.ignoresGenerated (unaffected : settings.Unaffected Holds) :
    Draft.IgnoresGenerated fun _ => Session.Confined settings Holds where
  edits := .of_session Session.Confined.ignoresNotes
  typeCounter name _ _ confined := Transform.typeCounter_leaves unaffected confined name
  callCounter name _ _ confined := Transform.callCounter_leaves unaffected confined name
  wrapperFor element _ _ confined := Transform.wrapperFor_leaves unaffected confined element

/-- The statement goes on to hold through everything that passes do, as long as they do it to classes that
may be changed. -/
structure Settings.AdmitsPasses
    (settings : Settings)
    (Holds : Program → Prop)
    (Transforms : String → Prop) : Prop where
  unaffected : settings.Unaffected Holds
  transforms :
    ∀ {session : Session} {name : String}, session.Confined settings Holds →
      session.isTransformableClass name → Transforms name
  counts : ∀ {name : String}, Transforms name → AdmitsCounts Holds name
  signature :
    ∀ {program : Program} {id : MethodId} (parameters : List Ty) (result : Ty),
      Transforms id.owner → Holds program →
        Holds (program.modifyMethod id fun method => { method with parameters, result })
  body :
    ∀ {session : Session} {id : MethodId} (pass : Pass), Transforms id.owner →
      session.Confined settings Holds →
        Transform.Leaves (Session.Confined settings Holds) session (pass.onMethod id)

/-- To check a program changes nothing but the journal. -/
theorem Transform.checkProgram_leaves (confined : before.Confined settings Holds) :
    Leaves (Session.Confined settings Holds) before checkProgram := by
  unfold checkProgram
  apply Leaves.get_bind
  refine Leaves.bind ?_ fun _ _ confined => .ofExcept confined
  exact Leaves.forM confined fun violation _ confined => record_leaves confined _

namespace Pass

variable {Transforms : String → Prop}

section

variable (admits : settings.AdmitsPasses Holds Transforms) (confined : before.Confined settings Holds)
include admits confined

theorem instrumentAll_leaves_of :
    Transform.Leaves (Session.Confined settings Holds) before instrumentAll := by
  have each
      {session : Session}
      (confined : session.Confined settings Holds)
      (className : String) :
      Transform.Leaves (Session.Confined settings Holds) session (instrumentClass className) := by
    unfold instrumentClass
    apply Transform.Leaves.get_bind
    split
    · rename_i chosen
      rw [Bool.and_eq_true] at chosen
      have counts := admits.counts (admits.transforms confined chosen.1)
      exact Transform.Leaves.bind (Transform.instrument_leaves admits.unaffected confined counts)
        fun _ _ confined => .pure confined
    · exact .pure confined
  unfold instrumentAll
  refine Transform.Leaves.bind (Transform.ensureCounterClass_leaves admits.unaffected confined)
    fun _ _ confined => ?_
  apply Transform.Leaves.get_bind
  refine Transform.Leaves.bind
    (Transform.Leaves.mapM confined fun className _ _ confined => each confined className)
    fun _ _ confined => ?_
  exact .pure confined

theorem wrapSignature_leaves_of (pass : String) (id : MethodId) :
    Transform.Leaves (Session.Confined settings Holds) before (Transform.wrapSignature pass id) := by
  unfold Transform.wrapSignature
  apply Transform.Leaves.get_bind
  dsimp only
  split
  · exact .pure confined
  · rename_i eligible
    have transformable : before.isTransformableClass id.owner := by
      have both : before.isTransformable id = true := by simpa using eligible
      rw [Session.isTransformable, Bool.and_eq_true] at both
      exact both.1
    have transforms := admits.transforms confined transformable
    split
    · exact .pure confined
    · rename_i method _
      split
      · exact .pure confined
      · refine Transform.Leaves.bind
          (Transform.mapM_mapType_leaves admits.unaffected confined _) fun parameters _ confined => ?_
        refine Transform.Leaves.bind (Transform.mapType_leaves admits.unaffected confined _)
          fun result _ confined => ?_
        split
        · exact .pure confined
        · refine Transform.Leaves.bind
            (Transform.changeProgram_leaves confined fun _ program changed => ?_)
            fun _ _ confined => ?_
          · rename_i session _ _
            cases given : session.program.setSignature id parameters result with
            | error error =>
              rw [given] at changed
              cases changed
            | ok resigned =>
              rw [given] at changed
              cases changed
              rw [Program.setSignature_eq_ok given]
              exact admits.signature parameters result transforms confined.program
          · exact Transform.Leaves.bind (Transform.record_leaves confined _)
              fun _ _ confined => .pure confined

theorem onProgram_leaves_of (pass : Pass) :
    Transform.Leaves (Session.Confined settings Holds) before pass.onProgram := by
  cases pass with
  | instrument => exact instrumentAll_leaves_of admits confined
  | wrapSignatures =>
    refine Transform.Leaves.get_bind (Transform.Leaves.bind ?_ fun _ _ confined => .pure confined)
    exact Transform.Leaves.mapM confined fun id _ _ confined =>
      wrapSignature_leaves_of admits confined _ id
  | _ => exact .pure confined

theorem runAll_leaves_of (passes : List Pass) :
    Transform.Leaves (Session.Confined settings Holds) before (runAll passes) := by
  have runs
      (pass : Pass)
      (session : Session)
      (confined : session.Confined settings Holds) :
      Transform.Leaves (Session.Confined settings Holds) session pass.run := by
    refine run_leaves_of Session.Confined.ignoresNotes confined
      (fun _ confined => onProgram_leaves_of admits confined pass) fun _ confined => ?_
    exact onMethods_leaves_of confined fun _ transformable _ confinedNow =>
      admits.body pass (admits.transforms confined transformable) confinedNow
  unfold runAll
  refine Transform.Leaves.bind ?_ fun _ _ confined => .pure confined
  exact Transform.Leaves.mapM confined fun pass _ => runs pass

end

/-- What holds of a program, and through everything that passes do, holds of the transformed program. -/
theorem transformProgram_leaves_of
    (admits : settings.AdmitsPasses Holds Transforms)
    {program : Program}
    (holds : Holds program) :
    Holds (transformProgram program settings).2.program := by
  have leaves :
      Transform.Leaves (Session.Confined settings Holds) (.start settings program)
        Transform.pipeline := by
    unfold Transform.pipeline
    apply Transform.Leaves.get_bind
    refine Transform.Leaves.bind (runAll_leaves_of admits (.start holds) _) fun _ _ confined => ?_
    split
    · exact Transform.checkProgram_leaves confined
    · exact .pure confined
  exact leaves.program

end Pass
end AccessProfiler
