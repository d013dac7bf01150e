import AccessProfiler.Proofs.FittingDrafts
import AccessProfiler.Proofs.Naming
import AccessProfiler.Proofs.Passes

/-!
# Transformed programs fit

A program that fits at the beginning still does after every pass, and so does what the passes share with
each other; nothing has to be known of the program but that it admits the type of each class that is
instrumented (`transformProgram_fits`).  A class fits if its leaves do, and only then if no body has more
locals than can be numbered.
-/

namespace AccessProfiler

variable
    {settings : Settings}
    {Admits : Ty → Prop}
    {original : Program}

/-! ## Passes -/

namespace Pass

/-- The types of the classes that may be instrumented are admitted. -/
def AdmitsInstances (settings : Settings) (Admits : Ty → Prop) (original : Program) : Prop :=
  ∀ name, (Session.start settings original).isTransformableClass name →
    original.isInterface name = false → Admits (.object name)

variable (admission : settings.Admission Admits)

include admission

theorem instrumentClass_keeps
    (instances : AdmitsInstances settings Admits original)
    (className : String) :
    Transform.Keeps (Session.Fitting settings Admits original) (instrumentClass className)
      fun _ => True := by
  refine .get_bind fun session fits => ?_
  split
  · rename_i eligible
    rw [Bool.and_eq_true, Bool.not_eq_true'] at eligible
    obtain ⟨transformable, noInterface⟩ := fits.isTransformableClass eligible.1 eligible.2
    have admitted := instances className transformable noInterface
    exact .bind (Transform.instrument_keeps admission admitted) fun _ _ => .pure trivial
  · exact .pure trivial

theorem onProgram_keeps
    (instances : settings.objects → AdmitsInstances settings Admits original)
    {pass : Pass}
    (wanted : pass.isWanted settings) :
    Transform.Keeps (Session.Fitting settings Admits original) pass.onProgram fun _ => True := by
  cases pass with
  | instrument =>
    refine .bind Transform.ensureCounterClass_keeps fun _ _ => .get_bind fun session _ => ?_
    have instrumented (className : String) :=
      instrumentClass_keeps admission (instances wanted) className
    exact .bind (.mapM fun className _ => instrumented className) fun _ _ => .pure trivial
  | wrapSignatures =>
    refine .get_bind fun session _ => ?_
    exact .bind (.mapM fun id _ => Transform.wrapSignature_keeps admission wanted _ id)
      fun _ _ => .pure trivial
  | _ => exact .pure trivial

/-- A method is worked on with room for all locals that its body has in the end. -/
theorem fits_onMethod
    {pass : Pass}
    (wraps : pass = .propagateArrays → settings.arrays)
    {id : MethodId}
    {before after : Session}
    {changed : Bool}
    (fits : before.Fitting settings Admits original)
    (ends : Ends (pass.onMethod id) before (.ok changed) after) :
    after.Fitting settings Admits original := by
  cases found : before.program.body? id with
  | none =>
    unfold onMethod at ends
    rw [Ends.get_bind_iff, found] at ends
    obtain ⟨-, rfl⟩ := Ends.pure_iff.1 ends
    exact fits
  | some body =>
    obtain ⟨bodyAfter, between, works, marks⟩ := ends_onMethod found ends
    obtain ⟨transformed, rfl⟩ := ends_markTransformed marks
    have taken : original.Fitting settings Admits (before.program.dropBody id) :=
      fits.program.modifyMethod fun _ methodFits =>
        ⟨methodFits.result, methodFits.parameters, fun _ found => by cases found⟩
    have fitting : Draft.Fitting settings Admits original bodyAfter.room True (pass.onBody id)
        fun _ => True := onBody_fits admission wraps id
    obtain ⟨longer, keeps⟩ := fitting body _ changed bodyAfter between works
    obtain ⟨bodyFits, betweenFits, -⟩ :=
      keeps trivial (Nat.le_max_right _ _) ((fits.program.body? found).mono (Body.room_mono longer))
        (fits.withProgram taken)
    have putBack : original.Fitting settings Admits
        (between.program.modifyMethod id fun method => { method with body := some bodyAfter }) := by
      refine betweenFits.program.modifyMethod fun method methodFits =>
        ⟨methodFits.result, methodFits.parameters, ?_⟩
      rintro _ ⟨⟩
      exact bodyFits
    exact { betweenFits.withProgram putBack with }

theorem onMethods_keeps
    {pass : Pass}
    (wraps : pass = .propagateArrays → settings.arrays) :
    Transform.Keeps (Session.Fitting settings Admits original) pass.onMethods fun _ => True := by
  intro before changed after fits ends
  obtain ⟨results, works, succeeds⟩ := ends_onMethods ends
  refine ⟨Ends.mapM_preserves (Session.Fitting settings Admits original)
    (fun result => ∃ changed, result = .ok changed) ?_ fits succeeds works, trivial⟩
  rintro id - before result after fits ⟨changed, rfl⟩ endsOne
  exact fits_onMethod admission wraps fits endsOne

theorem run_keeps
    (instances : settings.objects → AdmitsInstances settings Admits original)
    {pass : Pass}
    (wanted : pass.isWanted settings) :
    Transform.Keeps (Session.Fitting settings Admits original) pass.run fun _ => True := by
  intro before changed after fits ends
  obtain ⟨journal, worked, journalAfter, works, rfl⟩ := ends_run ends
  have workedFits : worked.Fitting settings Admits original := by
    cases kind : pass.isGlobal with
    | true =>
      rw [kind, if_pos rfl] at works
      exact (onProgram_keeps admission instances wanted _ _ _ (fits.withJournal journal) works).1
    | false =>
      rw [kind, if_neg Bool.false_ne_true] at works
      have wraps : pass = .propagateArrays → settings.arrays := by
        rintro rfl
        exact wanted
      exact (onMethods_keeps admission wraps _ _ _ (fits.withJournal journal) works).1
  exact ⟨workedFits.withJournal journalAfter, trivial⟩

theorem runAll_keeps (instances : settings.objects → AdmitsInstances settings Admits original) :
    Transform.Keeps (Session.Fitting settings Admits original) (runAll (wanted settings))
      fun _ => True :=
  .bind (.mapM fun _ member => run_keeps admission instances (List.mem_filter.1 member).2)
    fun _ _ => .pure trivial

end Pass

/-! ## Programs -/

/-- Nothing is remembered for inserted code at the start. -/
theorem Session.Fitting.start {program : Program} (fits : program.Fitting settings Admits program) :
    (Session.start settings program).Fitting settings Admits program where
  counters := rfl
  program := fits
  fields _ _ found := by cases found
  profiles _ _ found := by cases found
  wrappers _ _ found := by cases found
  typeCounters _ _ found := by cases found
  callCounters _ _ found := by cases found
  settings := rfl

/-- A program that fits does so when it has been transformed. -/
theorem transformProgram_fits
    {program : Program}
    {session : Session}
    (admission : settings.Admission Admits)
    (instances : settings.objects → Pass.AdmitsInstances settings Admits program)
    (fits : program.Fitting settings Admits program)
    (transformed : transformProgram program settings = (.ok (), session)) :
    program.Fitting settings Admits session.program := by
  have ends : Ends Transform.pipeline (.start settings program) () session := transformed
  unfold Transform.pipeline at ends
  rw [Ends.get_bind_iff] at ends
  obtain ⟨changed, passed, passes, checks⟩ := Ends.bind_iff.1 ends
  have passedFits := (Pass.runAll_keeps admission instances _ _ _ (.start fits) passes).1
  split at checks
  · obtain ⟨journal, rfl⟩ := Transform.ends_checkProgram checks
    exact passedFits.program
  · obtain ⟨-, rfl⟩ := Ends.pure_iff.1 checks
    exact passedFits.program

/-! ## Leaves of programs -/

section Leaves

variable
    {wrapping : Bool}
    {room : Nat}

theorem Body.leaves_fit_iff {body : Body} :
    (∀ leaf ∈ body.leaves, leaf.Fitting Admits room) ↔
      (∀ declaration ∈ body.locals, Admits declaration.type) ∧
        ∀ instruction ∈ body.instructions, ∀ leaf ∈ instruction.leaves, leaf.Fitting Admits room := by
  unfold leaves
  rw [List.forall_mem_append, List.forall_mem_map, List.forall_mem_flatMap]
  rfl

theorem Method.leaves_fit_iff {method : Method} :
    (∀ leaf ∈ method.leaves, leaf.Fitting Admits room) ↔
      Admits method.result ∧ (∀ type ∈ method.parameters, Admits type) ∧
        ∀ body, method.body = some body → ∀ leaf ∈ body.leaves, leaf.Fitting Admits room := by
  unfold leaves
  rw [List.forall_mem_append, List.forall_mem_cons, List.forall_mem_map, List.forall_mem_flatMap,
    and_assoc]
  simp only [Option.mem_toList]
  rfl

theorem Class.leaves_fit_iff {declaration : Class} :
    (∀ leaf ∈ declaration.leaves, leaf.Fitting Admits room) ↔
      (∀ field ∈ declaration.fields, Admits field.type) ∧
        ∀ method ∈ declaration.methods, ∀ leaf ∈ method.leaves, leaf.Fitting Admits room := by
  unfold leaves
  rw [List.forall_mem_append, List.forall_mem_map, List.forall_mem_flatMap]
  rfl

/-- A class fits if its leaves do and the types of what its bodies make are admitted. -/
theorem Class.Fitting.of_leaves
    {declaration : Class}
    (leavesFit : ∀ leaf ∈ declaration.leaves, leaf.Fitting Admits (Nat.pow 2 32))
    (made :
      wrapping → ∀ method ∈ declaration.methods, ∀ body, method.body = some body →
        ∀ instruction ∈ body.instructions, ∀ type ∈ instruction.made?, Admits type) :
    declaration.Fitting Admits wrapping := by
  obtain ⟨fields, methods⟩ := Class.leaves_fit_iff.1 leavesFit
  refine ⟨fields, fun method member => ?_⟩
  obtain ⟨result, parameters, bodies⟩ := Method.leaves_fit_iff.1 (methods method member)
  refine ⟨result, parameters, fun body found => ?_⟩
  obtain ⟨locals, instructions⟩ := Body.leaves_fit_iff.1 (bodies body found)
  refine ⟨locals, fun instruction among => ⟨fun leaf below => ?_, fun wraps => ?_⟩⟩
  · exact (instructions instruction among leaf below).mono body.two_pow_le_room
  · exact made wraps method member body found instruction among

/-- The leaves of a class that fits do so if the locals of its bodies can be numbered. -/
theorem Class.Fitting.leaves_fit
    {declaration : Class}
    (fits : declaration.Fitting Admits wrapping)
    (numbered :
      ∀ method ∈ declaration.methods, ∀ body, method.body = some body →
        body.locals.length ≤ Nat.pow 2 32) :
    ∀ leaf ∈ declaration.leaves, leaf.Fitting Admits (Nat.pow 2 32) := by
  refine Class.leaves_fit_iff.2 ⟨fits.fields, fun method member => ?_⟩
  have methodFits := fits.methods method member
  refine Method.leaves_fit_iff.2 ⟨methodFits.result, methodFits.parameters, fun body found => ?_⟩
  have bodyFits := methodFits.body body found
  have enough : body.room = Nat.pow 2 32 := Nat.max_eq_left (numbered method member body found)
  rw [enough] at bodyFits
  exact Body.leaves_fit_iff.2
    ⟨bodyFits.locals, fun instruction among => (bodyFits.instructions instruction among).leaves⟩

end Leaves

end AccessProfiler
