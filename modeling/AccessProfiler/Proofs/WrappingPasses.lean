import AccessProfiler.Proofs.CallTargets
import AccessProfiler.Proofs.CheckedRules
import AccessProfiler.Proofs.Passes
import AccessProfiler.Proofs.WrappedBodies

/-!
# The passes that wrap

Signatures are changed first, and then every body is put into agreement with them.  The bodies are worked
on one after the other; those that are done make the calls that stand for their own, and the others wait
as they were (`Session.Propagated`).
-/

namespace AccessProfiler

theorem CheckedBody.arity_of_instructionFaults
    {checked : CheckedBody}
    {instruction : Instruction}
    (faultless : checked.instructionFaults instruction = [])
    {target : Call}
    (calls : instruction.call? = some target) :
    target.arguments.length = target.method.parameters.length := by
  have arity (faultless : checked.callFaults target = []) :
      target.arguments.length = target.method.parameters.length := by
    by_contra differs
    unfold callFaults argumentFaults at faultless
    dsimp only at faultless
    rw [if_pos differs] at faultless
    cases faultless
  obtain ⟨-, rules⟩ := keeps_iff.1 faultless
  cases instruction with
  | invoke called =>
    cases calls
    exact arity rules
  | assign place value =>
    cases value with
    | call called =>
      cases calls
      rw [ruleFaults, assignmentFaults, List.append_eq_nil_iff, List.append_eq_nil_iff] at rules
      exact arity rules.1.2
    | _ => cases calls
  | _ => cases calls

/-- The bodies that are transformed keep all rules if the program is accepted. -/
theorem Program.instructionFaults_eq_nil
    {settings : Settings}
    {program : Program}
    (accepted : program.violations (some settings) = [])
    {id : MethodId}
    (transformable : (Session.start settings program).isTransformableClass id.owner)
    {method : Method}
    {body : Body}
    (found : program.method? id = some method)
    (given : method.body = some body)
    {instruction : Instruction}
    (member : instruction ∈ body.instructions) :
    CheckedBody.instructionFaults ⟨program, id.owner, method, body⟩ instruction = [] := by
  obtain ⟨declaration, located, indexed⟩ := Option.bind_eq_some_iff.1 found
  have startLocated :
      (Session.start settings program).program.class? id.owner = some declaration := located
  unfold Session.isTransformableClass at transformable
  rw [startLocated] at transformable
  simp only [Bool.and_eq_true, Bool.not_eq_true', Option.any_some] at transformable
  obtain ⟨⟨⟨included, -⟩, -⟩, application, -⟩ := transformable
  have accepts := violations_eq_nil_iff.1 accepted id.owner declaration located application
    (Bool.or_eq_false_iff.1 included).2
  exact accepts.bodies method (List.mem_of_getElem? indexed) body given instruction member

/-- In a body that is transformed, every call has as many arguments as its method has parameters. -/
theorem Program.checked_of_violations_eq_nil
    {settings : Settings}
    {program : Program}
    (accepted : program.violations (some settings) = [])
    {id : MethodId}
    (transformable : (Session.start settings program).isTransformableClass id.owner)
    {body : Body}
    (found : program.body? id = some body)
    {instruction : Instruction}
    (member : instruction ∈ body.instructions) :
    instruction.Checked program := by
  intro target calls
  obtain ⟨method, located, given⟩ := Option.bind_eq_some_iff.1 found
  refine ⟨?_, ?_⟩
  · exact mem_expressions (mem_bodies_of_body? found) member
      (Instruction.mem_expressions_of_call? calls)
  · exact CheckedBody.arity_of_instructionFaults
      (instructionFaults_eq_nil accepted transformable located given member) calls

/-- Some bodies of the program have wrappers, and the others are those of the program. -/
structure Session.Propagated
    (settings : Settings)
    (program signed : Program)
    (done : List MethodId)
    (session : Session) : Prop where
  orderly : session.Orderly settings (program.generatedNames settings)
  resignedFirst :
    (Session.start settings program).Resigned (program.generatedNames settings) signed
  resigned :
    (Session.start settings program).Resigned (program.generatedNames settings) session.program
  waiting :
    ∀ id : MethodId, id.owner ∉ program.generatedNames settings → id ∉ done →
      session.program.body? id = program.body? id
  finished :
    ∀ id ∈ done, ∀ body, program.body? id = some body →
      ∃ bodyAfter, session.program.body? id = some bodyAfter ∧
        StandFor settings program signed body.calledMethods bodyAfter.instructions

theorem Session.Propagated.withJournal
    {settings : Settings}
    {program signed : Program}
    {done : List MethodId}
    {session : Session}
    (propagated : session.Propagated settings program signed done)
    (journal : Journal) :
    ({ session with journal } : Session).Propagated settings program signed done where
  orderly := propagated.orderly.withJournal journal
  resignedFirst := propagated.resignedFirst
  resigned := propagated.resigned
  waiting := propagated.waiting
  finished := propagated.finished

/-- What a body calls is an expression of the program. -/
theorem Program.exists_call_of_mem_calledMethods
    {program : Program}
    {id : MethodId}
    {body : Body}
    (found : program.body? id = some body)
    {method : MethodRef}
    (member : method ∈ body.calledMethods) :
    ∃ target, Expression.call target ∈ program.expressions ∧ target.method = method := by
  obtain ⟨instruction, among, calls⟩ := List.mem_flatMap.1 member
  obtain ⟨target, calling, rfl⟩ := Instruction.exists_call_of_mem_calledMethods calls
  exact ⟨target, mem_expressions (mem_bodies_of_body? found) among
    (Instruction.mem_expressions_of_call? calling), rfl⟩

section Passes

variable
    {settings : Settings}
    {program signed : Program}
    {before after : Session}
    (wrappable : program.Wrappable settings)
    (accepted : program.violations (some settings) = [])
    (resigned : (Session.start settings program).Resigned (program.generatedNames settings) signed)
include wrappable accepted resigned

/-- One more body was worked on. -/
theorem onMethod_propagated
    {done : List MethodId}
    (propagated : before.Propagated settings program signed done)
    {id : MethodId}
    (fresh : id ∉ done)
    (apart : id.owner ∉ program.generatedNames settings)
    (transformable : (Session.start settings program).isTransformableClass id.owner)
    {changed : Bool}
    (ends : Ends (Pass.onMethod .propagateArrays id) before (.ok changed) after) :
    after.Propagated settings program signed (done ++ [id]) := by
  have unchanged := propagated.waiting id apart fresh
  have stillWaiting :
      ∀ place : MethodId, place ∉ done ++ [id] → place ∉ done ∧ place ≠ id := by
    intro place unlisted
    rw [List.mem_append, List.mem_singleton, not_or] at unlisted
    exact unlisted
  cases found : program.body? id with
  | none =>
    unfold Pass.onMethod at ends
    rw [Ends.get_bind_iff, unchanged, found] at ends
    obtain ⟨-, rfl⟩ := Ends.pure_iff.1 ends
    refine ⟨propagated.orderly, propagated.resignedFirst, propagated.resigned, ?_, ?_⟩
    · intro place apartThere unlisted
      exact propagated.waiting place apartThere (stillWaiting place unlisted).1
    · intro place listed body given
      rcases List.mem_append.1 listed with old | new
      · exact propagated.finished place old body given
      · rw [List.mem_singleton.1 new, found] at given
        cases given
  | some body =>
    obtain ⟨bodyAfter, between, works, marks⟩ := Pass.ends_onMethod (unchanged.trans found) ends
    unfold Pass.onBody at works
    rw [Draft.Ends.session_bind_iff] at works
    have drafts :
        Session.Drafts settings program (before.program.dropBody id) body.instructions body
          { before with program := before.program.dropBody id } :=
      ⟨rfl, propagated.orderly.withProgram _, propagated.resigned.modifyMethod fun _ => rfl, .refl _⟩
    have present : ((before.program.dropBody id).method? id).isSome := by
      obtain ⟨method, located, -⟩ := Option.bind_eq_some_iff.1 (unchanged.trans found)
      unfold Program.dropBody
      rw [Program.method?_modifyMethod, if_pos rfl, located]
      rfl
    have accounted : Draft.Accounted settings program body := by
      intro declared member name named
      exact Program.mem_generatedNames
        (Program.mem_mentionedTypes_of_local (Program.mem_bodies_of_body? found) member) named
    obtain ⟨draftsAfter, stand⟩ :=
      Draft.propagate_retargets wrappable resigned drafts accounted
        (fun _ member => Program.checked_of_violations_eq_nil accepted transformable found member)
        present works
    obtain ⟨transformed, marked⟩ := Pass.ends_markTransformed marks
    have sameProgram := congrArg Session.program marked
    have orderlyAfter : after.Orderly settings (program.generatedNames settings) := by
      rw [marked]
      exact ⟨draftsAfter.orderly.settings, draftsAfter.orderly.counters,
        draftsAfter.orderly.wrappers, draftsAfter.orderly.generated⟩
    have others
        {place : MethodId}
        (apartThere : place.owner ∉ program.generatedNames settings)
        (differs : place ≠ id) :
        after.program.body? place = before.program.body? place := by
      rw [sameProgram]
      unfold Program.body?
      rw [Program.method?_modifyMethod, if_neg differs, draftsAfter.same.method?_eq apartThere]
      unfold Program.dropBody
      rw [Program.method?_modifyMethod, if_neg differs]
    have this : after.program.body? id = some bodyAfter := by
      rw [← draftsAfter.same.method?_eq apart] at present
      obtain ⟨method, located⟩ := Option.isSome_iff_exists.1 present
      rw [sameProgram]
      unfold Program.body?
      rw [Program.method?_modifyMethod, if_pos rfl, located]
      rfl
    refine ⟨orderlyAfter, propagated.resignedFirst, ?_, ?_, ?_⟩
    · rw [sameProgram]
      exact draftsAfter.resigned.modifyMethod fun _ => rfl
    · intro place apartThere unlisted
      obtain ⟨unlistedBefore, differs⟩ := stillWaiting place unlisted
      rw [others apartThere differs]
      exact propagated.waiting place apartThere unlistedBefore
    · intro place listed given has
      by_cases same : place = id
      · subst same
        obtain rfl := Option.some.inj (found.symm.trans has)
        exact ⟨bodyAfter, this, stand⟩
      · have old : place ∈ done := by
          rcases List.mem_append.1 listed with old | new
          · exact old
          · exact absurd (List.mem_singleton.1 new) same
        obtain ⟨method, located, -⟩ := Option.bind_eq_some_iff.1 has
        obtain ⟨declaration, registered, -⟩ := Option.bind_eq_some_iff.1 located
        rw [others (wrappable.not_generated_of_class? registered) same]
        exact propagated.finished place old given has

end Passes

section Runs

variable
    {settings : Settings}
    {program : Program}
    {before after : Session}
    (wrappable : program.Wrappable settings)
    (orderly : before.Orderly settings (program.generatedNames settings))
    (resigned :
      (Session.start settings program).ResignedFor (program.generatedNames settings)
        program.applicationMethods before.program)
include wrappable orderly resigned

omit wrappable orderly in
/-- The second pass works on methods of the program only: what was generated is synthetic. -/
theorem owner_apart_of_isTransformable
    {id : MethodId}
    (transformable : before.isTransformable id) :
    id.owner ∉ program.generatedNames settings := by
  intro generated
  have foreign :=
    before.not_isTransformableClass_of_isSynthetic (resigned.synthetic id.owner generated)
  unfold Session.isTransformable at transformable
  rw [foreign] at transformable
  cases transformable

/-- The methods that are transformed when signatures were changed are those that are at the start. -/
theorem isTransformable_eq_of_resigned
    {id : MethodId}
    (apart : id.owner ∉ program.generatedNames settings) :
    before.isTransformable id = (Session.start settings program).isTransformable id :=
  Session.isTransformable_eq wrappable orderly resigned.hierarchy apart (resigned.method?_eq apart)
    ((Session.start settings program).resigned_name id)
    ((Session.start settings program).resigned_flags id)

/-- When the second pass succeeds, every body of a transformed method was worked on. -/
theorem onMethods_propagated
    (accepted : program.violations (some settings) = [])
    {changed : Bool}
    (ends : Ends (Pass.onMethods .propagateArrays) before changed after) :
    after.Propagated settings program before.program
      (before.program.applicationMethods.filter before.isTransformable) := by
  obtain ⟨results, works, succeed⟩ := Pass.ends_onMethods ends
  have waiting : before.Propagated settings program before.program [] := by
    refine ⟨orderly, .of_resignedFor resigned, .of_resignedFor resigned, ?_, ?_⟩
    · intro id apart _
      exact resigned.body?_eq apart
    · intro id impossible
      cases impossible
  refine Ends.mapM_advances
    (fun done session => session.Propagated settings program before.program done)
    (fun result => ∃ done, result = Except.ok done) ?_ waiting succeed works
  rintro done id rest split reached _ last propagated ⟨flag, rfl⟩ worked
  have member :
      id ∈ before.program.applicationMethods.filter (Pass.isEligible .propagateArrays before) :=
    split ▸ List.mem_append_right _ List.mem_cons_self
  have transformable : before.isTransformable id := (List.mem_filter.1 member).2
  have apart := owner_apart_of_isTransformable resigned transformable
  have fresh : id ∉ done := by
    intro among
    have distinct := before.program.nodup_applicationMethods.filter
      (Pass.isEligible .propagateArrays before)
    rw [split, List.nodup_append] at distinct
    exact distinct.2.2 id among id List.mem_cons_self rfl
  rw [isTransformable_eq_of_resigned wrappable orderly resigned apart] at transformable
  exact onMethod_propagated wrappable accepted (.of_resignedFor resigned) propagated fresh apart
    (Bool.and_eq_true_iff.1 transformable).1 worked

end Runs

/-- The two passes one after the other: the program has its signatures changed, and every body of a
transformed method was worked on. -/
theorem Pass.runAll_propagated
    {settings : Settings}
    {program : Program}
    (wrappable : program.Wrappable settings)
    (accepted : program.violations (some settings) = [])
    {changed : Bool}
    {after : Session}
    (ends :
      Ends (Pass.runAll [.wrapSignatures, .propagateArrays]) (.start settings program) changed after) :
    ∃ signed done,
      after.Propagated settings program signed done ∧
        ∀ id body, (Session.start settings program).isTransformable id →
          program.body? id = some body → id ∈ done := by
  have generated := program.counterClassName_mem_generatedNames settings
  obtain ⟨results, runs⟩ := Pass.ends_runAll ends
  obtain ⟨_, between, others, runsFirst, runsOthers, -⟩ := Ends.mapM_cons_iff.1 runs
  obtain ⟨_, last, _, runsSecond, runsNone, -⟩ := Ends.mapM_cons_iff.1 runsOthers
  obtain ⟨-, rfl⟩ := Ends.pure_iff.1 runsNone
  obtain ⟨journal, worked, journalAfter, works, rfl⟩ := Pass.ends_run runsFirst
  obtain ⟨journalSecond, finished, journalLast, finishes, rfl⟩ := Pass.ends_run runsSecond
  have started := (Session.Orderly.start generated program).withJournal journal
  obtain ⟨orderly, resigned⟩ := wrapSignatures_resigned wrappable started rfl works
  have propagated :=
    onMethods_propagated wrappable (orderly.withJournal journalSecond) resigned accepted finishes
  refine ⟨worked.program, _, propagated.withJournal journalLast, ?_⟩
  intro id body transformable found
  obtain ⟨method, located, -⟩ := Option.bind_eq_some_iff.1 found
  obtain ⟨declaration, registered, -⟩ := Option.bind_eq_some_iff.1 located
  have apart := wrappable.not_generated_of_class? registered
  have transformableAfter :
      ({ worked with journal := journalSecond } : Session).isTransformable id := by
    rw [isTransformable_eq_of_resigned wrappable (orderly.withJournal journalSecond) resigned apart]
    exact transformable
  exact List.mem_filter.2
    ⟨Session.mem_applicationMethods_of_isTransformable transformableAfter, transformableAfter⟩

/-- After the passes, the calls of a transformed body refer to the methods that they referred to, each
exactly if no method that keeps its signature stands in for the one that was meant. -/
theorem Pass.runAll_referent_iff
    {settings : Settings}
    {program : Program}
    (wrappable : program.Wrappable settings)
    (accepted : program.violations (some settings) = [])
    {changed : Bool}
    {after : Session}
    (ends :
      Ends (Pass.runAll [.wrapSignatures, .propagateArrays]) (.start settings program) changed after)
    {id : MethodId}
    (transformable : (Session.start settings program).isTransformable id)
    {body : Body}
    (found : program.body? id = some body) :
    ∃ bodyAfter, after.program.body? id = some bodyAfter ∧
      List.Forall₂
        (fun original method : MethodRef =>
          method.owner = original.owner ∧ method.name = original.name ∧
            ∀ target, program.referent? original = some target →
              (after.program.referent? method = some target ↔
                (Session.start settings program).KeepsReferent original target))
        body.calledMethods
        (MethodRef.apart (program.generatedNames settings) bodyAfter.calledMethods) := by
  obtain ⟨signed, done, propagated, covers⟩ := Pass.runAll_propagated wrappable accepted ends
  obtain ⟨bodyAfter, foundAfter, stand⟩ :=
    propagated.finished id (covers id body transformable found) body found
  refine ⟨bodyAfter, foundAfter, ?_⟩
  have called :
      ∀ original ∈ body.calledMethods, ∃ target,
        Expression.call target ∈ program.expressions ∧ target.method = original :=
    fun _ member => Program.exists_call_of_mem_calledMethods found member
  refine ((List.forall₂_and_left _ _).2 ⟨called, stand⟩).imp ?_
  rintro original method ⟨⟨target, mentioned, rfl⟩, retargeted⟩
  refine ⟨retargeted.owner, retargeted.name, ?_⟩
  intro referent refers
  have types : ∀ type ∈ target.method.parameters, type ∈ program.parameterTypes :=
    fun _ member => Program.mem_parameterTypes_of_called mentioned member
  have apart := wrappable.not_generated_of_called mentioned
  have apartThere : method.owner ∉ program.generatedNames settings := retargeted.owner ▸ apart
  rw [propagated.resignedFirst.referent?_eq propagated.resigned wrappable.closedAbove apartThere]
  exact retargeted.referent?_eq_some_iff wrappable propagated.resignedFirst types apart refers

/-- A method that takes an array, declared again below a class of the given kind, and a call of it. -/
def makerProgram (kind : ClassKind) : Program where
  entries :=
    [("shop.Base",
      { name := "shop.Base"
        superclass := some objectClass
        interfaces := []
        kind := kind
        flags := ⟨0⟩
        fields := []
        methods := [⟨"make", [.array .int], .void, Method.static, none⟩] }),
      ("shop.Main",
      { name := "shop.Main"
        superclass := some objectClass
        interfaces := []
        kind := .application
        flags := ⟨0⟩
        fields := []
        methods :=
          [{ name := "run"
             parameters := []
             result := .void
             flags := Method.static
             body := some
              { locals := [⟨"sizes", .array .int⟩]
                instructions :=
                  [.invoke (.ofStatic ⟨"shop.Maker", "make", [.array .int], .void⟩ [.variable ⟨0⟩]),
                    .return none] } }] }),
      ("shop.Maker",
      { name := "shop.Maker"
        superclass := some "shop.Base"
        interfaces := []
        kind := .application
        flags := ⟨0⟩
        fields := []
        methods :=
          [⟨"make", [.array .int], .void, Method.static, some ⟨[], [.return none]⟩⟩] })]
  distinct := by
    show ["shop.Base", "shop.Main", "shop.Maker"].Nodup
    decide

/-- The session after the arrays of the program were wrapped. -/
def wrappedMaker (kind : ClassKind) : Session :=
  ((Pass.runAll [.wrapSignatures, .propagateArrays]).on
    (.start .standard (makerProgram kind))).2

/-- The call of the method as it is written. -/
def makeCall : MethodRef :=
  ⟨"shop.Maker", "make", [.array .int], .void⟩

/-- If both methods are transformed, the call goes with them. -/
theorem makerProgram_keeps_referent :
    ∃ bodyAfter,
      (wrappedMaker .application).program.body? ⟨"shop.Main", 0⟩ = some bodyAfter ∧
        List.Forall₂
          (fun original method : MethodRef =>
            method.owner = original.owner ∧ method.name = original.name ∧
              ∀ target, (makerProgram .application).referent? original = some target →
                ((wrappedMaker .application).program.referent? method = some target ↔
                  (Session.start .standard (makerProgram .application)).KeepsReferent original
                    target))
          [makeCall]
          (MethodRef.apart ((makerProgram .application).generatedNames .standard)
            bodyAfter.calledMethods) ∧
      (makerProgram .application).referent? makeCall = some ⟨"shop.Maker", 0⟩ := by
  have ends :
      Ends (Pass.runAll [.wrapSignatures, .propagateArrays])
        (.start .standard (makerProgram .application)) true (wrappedMaker .application) :=
    Ends.of_result (by decide +kernel)
  have transformable :
      (Session.start .standard (makerProgram .application)).isTransformable ⟨"shop.Main", 0⟩ := by
    decide +kernel
  obtain ⟨bodyAfter, found, calls⟩ :=
    Pass.runAll_referent_iff (by decide +kernel) (by decide +kernel) ends transformable rfl
  exact ⟨bodyAfter, found, calls, by decide +kernel⟩

/-- If only the lower method is transformed, the call is left to the upper one. -/
theorem libraryMaker_loses_referent :
    (makerProgram .library).Wrappable .standard ∧
      (makerProgram .library).violations (some .standard) = [] ∧
      (Session.start .standard (makerProgram .library)).isTransformable ⟨"shop.Main", 0⟩ ∧
      (makerProgram .library).referent? makeCall = some ⟨"shop.Maker", 0⟩ ∧
      Ends (Pass.runAll [.wrapSignatures, .propagateArrays])
        (.start .standard (makerProgram .library)) true (wrappedMaker .library) ∧
      ((wrappedMaker .library).program.body? ⟨"shop.Main", 0⟩).map Body.calledMethods =
        some [makeCall] ∧
      (wrappedMaker .library).program.referent? makeCall = some ⟨"shop.Base", 0⟩ :=
  ⟨by decide +kernel, by decide +kernel, by decide +kernel, by decide +kernel,
    Ends.of_result (by decide +kernel), by decide +kernel, by decide +kernel⟩

end AccessProfiler
