import AccessProfiler.Proofs.Arrangements
import AccessProfiler.Proofs.Leaving
import AccessProfiler.Proofs.Registry

/-!
# Runs of passes

What it means that a pass succeeds: its events are recorded around the work, a pass on bodies succeeds
on every eligible method, and on a method it puts back what it made of the body.  What a pass leaves
whether it succeeds or fails is what its work leaves, on the program as a whole or on one body after the
other (`Pass.run_leaves_of`).
-/

namespace AccessProfiler

variable {before after : Session}

namespace Pass

theorem isTransformable_of_isEligible
    {pass : Pass}
    {id : MethodId}
    (eligible : pass.isEligible before id) :
    before.isTransformable id ∧
      (pass = .patchConstructors → (before.program.method? id).any Method.isConstructor) := by
  cases pass with
  | patchConstructors =>
    simp only [isEligible, Bool.and_eq_true] at eligible
    exact ⟨eligible.1.1, fun _ => eligible.2⟩
  | _ => exact ⟨eligible, fun same => absurd same (by decide)⟩

theorem ok_of_summarize_eq_ok
    {results : List (Except Error Bool)}
    {changed : Bool}
    (ok : summarize results = .ok changed) :
    ∀ result ∈ results, ∃ done, result = .ok done := by
  unfold summarize at ok
  generalize false = start at ok
  induction results generalizing start with
  | nil => exact fun _ member => absurd member List.not_mem_nil
  | cons result rest hypothesis =>
    cases result with
    | error error =>
      cases ok
    | ok done =>
      intro other member
      rcases List.mem_cons.1 member with rfl | later
      · exact ⟨done, rfl⟩
      · exact hypothesis (start || done) ok other later

/-- A pass on bodies that succeeds does so on every eligible method. -/
theorem ends_onMethodsIn
    (arrangement : Arrangement)
    {pass : Pass}
    {changed : Bool}
    (ends : Ends (onMethodsIn arrangement pass) before changed after) :
    ∃ results,
      Ends
          ((arrangement.order pass
              (before.program.applicationMethods.filter (pass.isEligible before))).mapM
            pass.onMethod)
          before results after ∧
        ∀ result ∈ results, ∃ done, result = .ok done := by
  unfold onMethodsIn at ends
  rw [Ends.get_bind_iff] at ends
  simp only [Ends.bind_iff, Transform.ends_ofExcept] at ends
  obtain ⟨results, between, works, summarized, rfl⟩ := ends
  exact ⟨results, works, ok_of_summarize_eq_ok summarized⟩

theorem ends_onMethods
    {pass : Pass}
    {changed : Bool}
    (ends : Ends (onMethods pass) before changed after) :
    ∃ results,
      Ends
          ((before.program.applicationMethods.filter (pass.isEligible before)).mapM pass.onMethod)
          before results after ∧
        ∀ result ∈ results, ∃ done, result = .ok done :=
  ends_onMethodsIn .given ends

/-- A pass that succeeds on a method puts the changed body back into what the step on the body made
of the program without it. -/
theorem ends_onMethod
    {pass : Pass}
    {id : MethodId}
    {body : Body}
    {changed : Bool}
    (found : before.program.body? id = some body)
    (ends : Ends (onMethod pass id) before (.ok changed) after) :
    ∃ bodyAfter between,
      Draft.Ends (onBody pass id) body { before with program := before.program.dropBody id } changed
          bodyAfter between ∧
        Ends (if changed then Transform.markTransformed id else pure ())
          { between with
            program :=
              between.program.modifyMethod id fun method => { method with body := some bodyAfter } }
          () after := by
  unfold onMethod at ends
  rw [Ends.get_bind_iff, found] at ends
  rcases worked :
      (pass.onBody id).on body { before with program := before.program.dropBody id } with
    ⟨⟨result, bodyAfter⟩, between⟩
  simp only [worked] at ends
  rw [Ends.set_bind_iff] at ends
  cases put : between.program.setBody id bodyAfter with
  | error error =>
    rw [put] at ends
    cases (Ends.pure_iff.1 ends).1
  | ok program =>
    simp only [put] at ends
    rw [Ends.set_bind_iff] at ends
    obtain ⟨-, rfl⟩ := Program.setBody_eq_ok put
    split at ends
    · obtain ⟨_, marked, marks, returns⟩ := Ends.bind_iff.1 ends
      obtain ⟨same, rfl⟩ := Ends.pure_iff.1 returns
      cases same
      exact ⟨bodyAfter, between, worked, marks⟩
    · rename_i unmarked
      obtain ⟨rfl, rfl⟩ := Ends.pure_iff.1 ends
      cases changed with
      | true => exact absurd rfl unmarked
      | false => exact ⟨bodyAfter, between, worked, Ends.pure_iff.2 ⟨rfl, rfl⟩⟩

/-- To mark a method as transformed changes nothing else. -/
theorem ends_markTransformed
    {id : MethodId}
    {changed : Bool}
    {done : Unit}
    (ends : Ends (if changed then Transform.markTransformed id else pure ()) before done after) :
    ∃ transformed, after = { before with transformed } := by
  split at ends
  · obtain rfl := Ends.modify_iff.1 ends
    split
    · exact ⟨before.transformed, rfl⟩
    · exact ⟨before.transformed ++ [id], rfl⟩
  · obtain ⟨-, rfl⟩ := Ends.pure_iff.1 ends
    exact ⟨_, rfl⟩

/-- Around the work of a pass, events are recorded. -/
theorem ends_runIn
    (arrangement : Arrangement)
    {pass : Pass}
    {changed : Bool}
    (ends : Ends (runIn arrangement pass) before changed after) :
    ∃ journal worked journalAfter,
      Ends (if pass.isGlobal then pass.onProgram else pass.onMethodsIn arrangement)
          { before with journal } changed worked ∧
        after = { worked with journal := journalAfter } := by
  have finish
      {started : Session}
      {event : Bool → Event}
      {step : Transform Bool}
      (rest :
        Ends
          (do
            let changed ← step
            Transform.record (event changed)
            return changed)
          started changed after) :
      ∃ worked journalAfter,
        Ends step started changed worked ∧ after = { worked with journal := journalAfter } := by
    obtain ⟨done, worked, works, rest⟩ := Ends.bind_iff.1 rest
    obtain ⟨_, finished, finishes, rest⟩ := Ends.bind_iff.1 rest
    obtain ⟨rfl, rfl⟩ := Ends.pure_iff.1 rest
    obtain rfl := Ends.modify_iff.1 finishes
    exact ⟨worked, _, works, rfl⟩
  unfold runIn at ends
  obtain ⟨_, started, starts, rest⟩ := Ends.bind_iff.1 ends
  obtain rfl := Ends.modify_iff.1 starts
  dsimp only at rest
  cases kind : pass.isGlobal with
  | true =>
    rw [kind] at rest
    obtain ⟨worked, journalAfter, works, rfl⟩ := finish rest
    exact ⟨_, worked, journalAfter, works, rfl⟩
  | false =>
    rw [kind] at rest
    obtain ⟨worked, journalAfter, works, rfl⟩ := finish rest
    exact ⟨_, worked, journalAfter, works, rfl⟩

theorem ends_run
    {pass : Pass}
    {changed : Bool}
    (ends : Ends (run pass) before changed after) :
    ∃ journal worked journalAfter,
      Ends (if pass.isGlobal then pass.onProgram else pass.onMethods) { before with journal }
          changed worked ∧
        after = { worked with journal := journalAfter } :=
  ends_runIn .given ends

/-- Passes are run one after the other. -/
theorem ends_runAllIn
    (arrangement : Arrangement)
    {passes : List Pass}
    {changed : Bool}
    (ends : Ends (runAllIn arrangement passes) before changed after) :
    ∃ results, Ends (passes.mapM (runIn arrangement)) before results after := by
  unfold runAllIn at ends
  obtain ⟨results, _, runs, rest⟩ := Ends.bind_iff.1 ends
  obtain ⟨-, rfl⟩ := Ends.pure_iff.1 rest
  exact ⟨results, runs⟩

theorem ends_runAll
    {passes : List Pass}
    {changed : Bool}
    (ends : Ends (runAll passes) before changed after) :
    ∃ results, Ends (passes.mapM run) before results after :=
  ends_runAllIn .given ends

section Leaving

variable {Invariant : Session → Prop} {pass : Pass}

/-- While a body is out of the program something else may hold of it and the session, as long as the step
on the body keeps it and the body can be put back. -/
theorem onMethod_leaves_of
    {Waiting : Body → Session → Prop}
    {id : MethodId}
    (ignores : Session.IgnoresNotes Invariant)
    (holds : Invariant before)
    (taken :
      ∀ body, before.program.body? id = some body →
        Waiting body { before with program := before.program.dropBody id })
    (works : Draft.Leaves Waiting (pass.onBody id))
    (lost :
      ∀ session body error, Waiting body session → session.program.setBody id body = .error error →
        Invariant session)
    (put :
      ∀ session body, Waiting body session →
        Invariant
          { session with
            program := session.program.modifyMethod id fun method =>
              { method with body := some body } }) :
    Transform.Leaves Invariant before (pass.onMethod id) := by
  unfold onMethod
  apply Transform.Leaves.get_bind
  split
  · exact .pure holds
  · rename_i body found
    have worked := works body _ (taken body found)
    dsimp only
    generalize (pass.onBody id).on body { before with program := before.program.dropBody id } = run
      at worked ⊢
    obtain ⟨⟨result, changed⟩, after⟩ := run
    dsimp only at worked ⊢
    apply Transform.Leaves.set_bind
    cases given : after.program.setBody id changed with
    | error error => exact .pure (lost after changed error worked given)
    | ok program =>
      obtain ⟨-, rfl⟩ := Program.setBody_eq_ok given
      have back := put after changed worked
      apply Transform.Leaves.set_bind
      split
      · exact Transform.Leaves.bind (ignores.markTransformed back id) fun _ _ holds => .pure holds
      · exact .pure back

/-- Only classes that are transformed have methods that are worked on. -/
theorem onMethods_leaves_of
    (holds : Invariant before)
    (each :
      ∀ id, before.isTransformableClass id.owner → ∀ session, Invariant session →
        Transform.Leaves Invariant session (pass.onMethod id)) :
    Transform.Leaves Invariant before pass.onMethods := by
  unfold onMethods
  apply Transform.Leaves.get_bind
  refine Transform.Leaves.bind (Transform.Leaves.mapM holds fun id member session holdsNow => ?_)
    fun _ _ holds => .ofExcept holds
  have transformable := (isTransformable_of_isEligible (List.mem_filter.1 member).2).1
  rw [Session.isTransformable, Bool.and_eq_true] at transformable
  exact each id transformable.1 session holdsNow

/-- A pass works between two events. -/
theorem run_leaves_of
    (ignores : Session.IgnoresNotes Invariant)
    (holds : Invariant before)
    (onProgram : ∀ session, Invariant session → Transform.Leaves Invariant session pass.onProgram)
    (onMethods : ∀ session, Invariant session → Transform.Leaves Invariant session pass.onMethods) :
    Transform.Leaves Invariant before pass.run := by
  have finish
      {step : Transform Bool}
      {session : Session}
      (event : Bool → Event)
      (leaves : Transform.Leaves Invariant session step) :
      Transform.Leaves Invariant session
        (do
          let changed ← step
          Transform.record (event changed)
          return changed) :=
    Transform.Leaves.bind leaves fun _ _ holds =>
      Transform.Leaves.bind (ignores.record holds _) fun _ _ holds => .pure holds
  unfold run
  refine Transform.Leaves.bind (ignores.record holds _) fun _ session holds => ?_
  dsimp only
  split
  · exact finish _ (onProgram session holds)
  · exact finish _ (onMethods session holds)

end Leaving

end Pass

/-- To check a program changes nothing but the journal. -/
theorem Transform.ends_checkProgram
    (ends : Ends checkProgram before () after) :
    ∃ journal, after = { before with journal } := by
  unfold checkProgram at ends
  rw [Ends.get_bind_iff] at ends
  simp only [Ends.bind_iff, ends_ofExcept] at ends
  obtain ⟨_, recorded, records, -, rfl⟩ := ends
  generalize before.program.violations (some before.settings) = violations at records
  induction violations generalizing before with
  | nil =>
    obtain ⟨-, rfl⟩ := Ends.pure_iff.1 records
    exact ⟨_, rfl⟩
  | cons violation rest hypothesis =>
    obtain ⟨_, between, first, others⟩ := Ends.bind_iff.1 records
    rw [ends_record] at first
    obtain ⟨-, rfl⟩ := first
    obtain ⟨journal, rfl⟩ := hypothesis others
    exact ⟨journal, rfl⟩

end AccessProfiler
