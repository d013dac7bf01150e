import AccessProfiler.Proofs.CountingSteps
import AccessProfiler.Proofs.Instrumentation
import AccessProfiler.Proofs.Passes

/-!
# The passes that count

Every pass that counts keeps the program of a session the original program with counting.  A body is
taken out of the program while it is worked on, so that the argument for one method puts three things
together: the program without the body, the step on the body, and the changed body put back.

The main statement is `transformProgram_woven`: a transformation that leaves arrays alone and succeeds
gives the program with counting.
-/

namespace AccessProfiler

variable
    {counter : String}
    {sink : Sink}
    {original : Program}
    {before after : Session}

theorem Class.method?_modify_isSome
    {declaration : Class}
    {index : Nat}
    (change : Method → Method)
    (same : ∀ method : Method, (change method).signature = method.signature)
    {name : String}
    {parameters : List Ty}
    (declared : (declaration.method? name parameters).isSome) :
    ((Class.method? { declaration with methods := declaration.methods.modify index change }) name
      parameters).isSome := by
  unfold Class.method? at *
  rw [List.find?_isSome] at *
  obtain ⟨method, member, fits⟩ := declared
  obtain ⟨position, bounded, rfl⟩ := List.getElem_of_mem member
  have bound : position < (declaration.methods.modify index change).length := by
    simpa using bounded
  refine ⟨(declaration.methods.modify index change)[position], List.getElem_mem bound, ?_⟩
  rw [List.getElem_modify]
  split
  · have named := Method.mk.inj (same declaration.methods[position])
    unfold Method.fits at *
    rw [named.1, named.2.1]
    exact fits
  · exact fits

theorem modify_append_of_lt
    {Item : Type}
    {front back : List Item}
    {change : Item → Item}
    {index : Nat}
    (bounded : index < front.length) :
    (front ++ back).modify index change = front.modify index change ++ back := by
  induction front generalizing index with
  | nil => cases bounded
  | cons item rest hypothesis =>
    cases index with
    | zero => rfl
    | succ index =>
      simp only [List.cons_append, List.modify_succ_cons]
      rw [hypothesis (Nat.lt_of_succ_lt_succ bounded)]

/-- A method of the original class may get another body with counting. -/
theorem Class.Woven.setBody
    {offers : Offers}
    {old declaration : Class}
    {index : Nat}
    {method : Method}
    {body changed : Body}
    (woven : old.Woven counter sink offers declaration)
    (located : old.methods[index]? = some method)
    (given : method.body = some body)
    (related : body.Woven counter sink offers method.isConstructor changed) :
    old.Woven counter sink offers
      { declaration with
        methods := declaration.methods.modify index fun current => { current with body := some changed } } := by
  obtain ⟨kept, extra, parts, methods, counting⟩ := woven.methods
  obtain ⟨lengths, each⟩ := List.forall₂_iff_get.1 methods
  obtain ⟨bounded, found⟩ := List.getElem?_eq_some_iff.1 located
  refine { woven with
    methods := ⟨kept.modify index fun current => { current with body := some changed }, extra,
      ?_, List.forall₂_iff_get.2 ⟨by simpa using lengths, ?_⟩, counting⟩ }
  · rw [parts]
    exact modify_append_of_lt (lengths ▸ bounded)
  · intro position bound boundChanged
    have boundKept : position < kept.length := by simpa using boundChanged
    have one := each position bound boundKept
    simp only [List.get_eq_getElem, List.getElem_modify] at one ⊢
    split
    · rename_i here
      subst here
      rw [found] at one ⊢
      refine ⟨one.signature, ?_⟩
      rw [given]
      exact .some related
    · exact one

/-- What the body of a method was before. -/
theorem Program.Woven.body?_of_current
    {current : Program}
    {id : MethodId}
    {method : Method}
    {body : Body}
    (woven : original.Woven counter sink current)
    (differs : id.owner ≠ counter)
    (has : original.method? id = some method)
    (found : current.body? id = some body) :
    ∃ originalBody, method.body = some originalBody ∧
      originalBody.Woven counter sink current.offers method.isConstructor body := by
  obtain ⟨changed, there, related⟩ := woven.method?_eq_some differs has
  have given : changed.body = some body := by
    unfold body? at found
    rw [there] at found
    exact found
  have bodies := related.body
  rw [given] at bodies
  cases foundBody : method.body with
  | none =>
    rw [foundBody] at bodies
    cases bodies
  | some originalBody =>
    rw [foundBody] at bodies
    cases bodies with
    | some relatedBody => exact ⟨originalBody, rfl, relatedBody⟩

/-- The body of a method may be taken out and replaced by another with counting, while the class of the
counters grows. -/
theorem Program.Woven.putBody
    {program grown : Program}
    {id : MethodId}
    {method : Method}
    {originalBody changed : Body}
    (woven : original.Woven counter sink program)
    (differs : id.owner ≠ counter)
    (has : original.method? id = some method)
    (given : method.body = some originalBody)
    (grows : (program.dropBody id).GrowsAt counter grown)
    (counts : grown.Counts counter sink)
    (related : originalBody.Woven counter sink grown.offers method.isConstructor changed) :
    original.Woven counter sink
        (grown.modifyMethod id fun current => { current with body := some changed }) ∧
      ∀ owner name, program.offers owner name →
        (grown.modifyMethod id fun current => { current with body := some changed }).offers owner
          name := by
  let final := grown.modifyMethod id fun current => { current with body := some changed }
  have offersDropped : ∀ owner name, program.offers owner name →
      (program.dropBody id).offers owner name :=
    offers_modifyClass fun _ _ _ declared =>
      Class.method?_modify_isSome (fun current => { current with body := none })
        (fun _ => rfl) declared
  have offersGrown : ∀ owner name, grown.offers owner name → final.offers owner name :=
    offers_modifyClass fun _ _ _ declared =>
      Class.method?_modify_isSome (fun current => { current with body := some changed })
        (fun _ => rfl) declared
  have offers : ∀ owner name, program.offers owner name → final.offers owner name :=
    fun owner name offered =>
      offersGrown owner name (grows.offers owner name (offersDropped owner name offered))
  have elsewhere : ∀ name, name ≠ id.owner → name ≠ counter →
      final.class? name = program.class? name := by
    intro name other notCounter
    calc
      final.class? name = grown.class? name := class?_modifyMethod.trans (if_neg other)
      _ = (program.dropBody id).class? name := grows.others name notCounter
      _ = program.class? name := class?_modifyMethod.trans (if_neg other)
  obtain ⟨old, foundOld, located⟩ := Option.bind_eq_some_iff.1 has
  refine ⟨⟨fun declaration found => ?_, fun name notCounter => ?_⟩, offers⟩
  · exact counts declaration ((class?_modifyMethod.trans (if_neg (Ne.symm differs))).symm.trans found)
  · by_cases here : name = id.owner
    · subst here
      obtain ⟨declaration, found, relatedClass⟩ := woven.class?_eq_some differs foundOld
      have changedClass :
          final.class? id.owner =
            some { declaration with
              methods := declaration.methods.modify id.index fun current =>
                { current with body := some changed } } := by
        rw [class?_modifyMethod, if_pos rfl, grows.others id.owner differs]
        unfold dropBody
        rw [class?_modifyMethod, if_pos rfl, found]
        simp only [Option.map_some, List.modify_modify_eq]
        rfl
      rw [foundOld, changedClass]
      exact .some ((relatedClass.mono offers).setBody located given (related.mono offersGrown))
    · rw [elsewhere name here notCounter]
      exact relOption_mono (fun _ _ relation => relation.mono offers) (woven.others name notCounter)

/-- Nothing of this depends on the events that were recorded. -/
theorem Session.Weaves.withJournal
    (weaves : before.Weaves counter sink original)
    (journal : Journal) :
    ({ before with journal } : Session).Weaves counter sink original := by
  have stocked := weaves.stocked
  exact ⟨⟨stocked.reports, stocked.className, stocked.counts, stocked.fields, stocked.profiles,
    stocked.typeCounters, stocked.callCounters⟩, weaves.woven⟩

namespace Pass

/-- The pass only counts. -/
def Counts (pass : Pass) : Prop :=
  pass ≠ .wrapSignatures ∧ pass ≠ .propagateArrays

theorem onBody_woven
    {pass : Pass}
    (counts : pass.Counts)
    {constructs : Prop}
    {originalBody body bodyAfter : Body}
    (stocked : before.Stocked counter sink)
    (woven : originalBody.Woven counter sink before.program.offers constructs body)
    (first : originalBody.BindsFirst)
    (construction : pass = .patchConstructors → constructs)
    {id : MethodId}
    {changed : Bool}
    (ends : Draft.Ends (onBody pass id) body before changed bodyAfter after) :
    Draft.Weaves counter sink constructs originalBody before bodyAfter after := by
  unfold onBody at ends
  obtain ⟨_, _, _, looked, worked⟩ := Draft.Ends.bind_iff.1 ends
  obtain ⟨rfl, rfl, rfl⟩ := Draft.Ends.session_iff.1 looked
  cases pass with
  | instrument =>
    obtain ⟨-, rfl, rfl⟩ := Draft.Ends.pure_iff.1 worked
    exact ⟨stocked, .refl _, woven⟩
  | patchConstructors => exact Draft.assignSerial_woven stocked woven first (construction rfl) worked
  | profileTypes => exact Draft.countTypeAccesses_woven stocked woven worked
  | countFields => exact Draft.countFieldAccesses_woven stocked woven worked
  | trackCalls => exact Draft.countCalls_woven stocked woven worked
  | wrapSignatures => exact absurd rfl counts.1
  | propagateArrays => exact absurd rfl counts.2

theorem markTransformed_stocked
    (stocked : before.Stocked counter sink)
    {id : MethodId}
    {changed : Bool}
    {done : Unit}
    (ends : Ends (if changed then Transform.markTransformed id else pure ()) before done after) :
    after.Stocked counter sink ∧ before.Grows counter after := by
  obtain ⟨transformed, rfl⟩ := ends_markTransformed ends
  exact ⟨⟨stocked.reports, stocked.className, stocked.counts, stocked.fields, stocked.profiles,
    stocked.typeCounters, stocked.callCounters⟩, ⟨.refl _, rfl, rfl⟩⟩

theorem onMethod_woven
    {pass : Pass}
    (counts : pass.Counts)
    (bindsFirst : original.BindsFirst)
    (weaves : before.Weaves counter sink original)
    {id : MethodId}
    {method : Method}
    (differs : id.owner ≠ counter)
    (has : original.method? id = some method)
    (construction : pass = .patchConstructors → method.isConstructor)
    {changed : Bool}
    (ends : Ends (onMethod pass id) before (.ok changed) after) :
    after.Weaves counter sink original ∧ after.settings = before.settings := by
  cases found : before.program.body? id with
  | none =>
    unfold onMethod at ends
    rw [Ends.get_bind_iff, found] at ends
    obtain ⟨-, rfl⟩ := Ends.pure_iff.1 ends
    exact ⟨weaves, rfl⟩
  | some body =>
    obtain ⟨originalBody, given, woven⟩ := weaves.woven.body?_of_current differs has found
    have first : originalBody.BindsFirst := by
      obtain ⟨old, foundOld, located⟩ := Option.bind_eq_some_iff.1 has
      exact bindsFirst id.owner old method originalBody foundOld (List.mem_of_getElem? located) given
    obtain ⟨bodyAfter, between, worked, marks⟩ := ends_onMethod found ends
    -- The program without the body offers what it did, and only misses the body.
    have offersTaken :
        ∀ owner name, before.program.offers owner name →
          (before.program.dropBody id).offers owner name :=
      Program.offers_modifyClass fun _ _ _ declared =>
        Class.method?_modify_isSome (fun current => { current with body := none })
          (fun _ => rfl) declared
    have stockedTaken :
        ({ before with program := before.program.dropBody id } : Session).Stocked counter sink := by
      refine weaves.stocked.withProgram (fun declaration located => ?_) offersTaken
      exact weaves.stocked.counts declaration
        ((Program.class?_modifyMethod.trans (if_neg (Ne.symm differs))).symm.trans located)
    have step :=
      onBody_woven counts stockedTaken (woven.mono offersTaken) first construction worked
    obtain ⟨wovenPut, offersPut⟩ :=
      weaves.woven.putBody differs has given step.grows.program step.stocked.counts step.woven
    have stockedPut :=
      step.stocked.withProgram wovenPut.counts (Program.offers_modifyClass fun _ _ _ declared =>
        Class.method?_modify_isSome
          (fun current => { current with body := some bodyAfter }) (fun _ => rfl) declared)
    obtain ⟨stockedAfter, growsAfter⟩ := markTransformed_stocked stockedPut marks
    exact ⟨Session.Weaves.grow ⟨stockedPut, wovenPut⟩ stockedAfter growsAfter,
      growsAfter.settings.trans step.grows.settings⟩

theorem ne_counter_of_isTransformableClass
    (stocked : before.Stocked counter sink)
    {className : String}
    (transformable : before.isTransformableClass className) :
    className ≠ counter := by
  rintro rfl
  have holds : before.counters.holds className := by
    simp [CounterTable.holds, stocked.className]
  simp [Session.isTransformableClass, holds] at transformable

/-- Passes work on methods of the original program only: what was generated is synthetic. -/
theorem method?_of_isEligible
    {pass : Pass}
    {id : MethodId}
    (weaves : before.Weaves counter sink original)
    (eligible : pass.isEligible before id) :
    id.owner ≠ counter ∧ ∃ method, original.method? id = some method ∧
      (pass = .patchConstructors → method.isConstructor) := by
  obtain ⟨transformable, constructors⟩ := isTransformable_of_isEligible eligible
  simp only [Session.isTransformable, Bool.and_eq_true] at transformable
  have differs := ne_counter_of_isTransformableClass weaves.stocked transformable.1
  refine ⟨differs, ?_⟩
  cases found : before.program.method? id with
  | none =>
    rw [found] at transformable
    simp at transformable
  | some current =>
    rw [found] at transformable constructors
    have written : current.isSynthetic = false := by
      have := transformable.2
      simp only [Option.any_some, Bool.and_eq_true, Bool.not_eq_true'] at this
      exact this.1
    rcases weaves.woven.method?_of_current differs found with ⟨method, has, related⟩ | generated
    · refine ⟨method, has, fun patches => ?_⟩
      have constructs := constructors patches
      simp only [Option.any_some, Method.isConstructor] at constructs ⊢
      rw [← related.name_eq]
      exact constructs
    · rw [generated.synthetic] at written
      cases written

theorem onMethods_woven
    {pass : Pass}
    (counts : pass.Counts)
    (bindsFirst : original.BindsFirst)
    (weaves : before.Weaves counter sink original)
    {changed : Bool}
    (ends : Ends (onMethods pass) before changed after) :
    after.Weaves counter sink original := by
  obtain ⟨results, works, succeed⟩ := ends_onMethods ends
  refine Ends.mapM_preserves
    (fun session => session.Weaves counter sink original)
    (fun result => ∃ done, result = Except.ok done) ?_ weaves succeed works
  rintro id member reached _ reachedAfter weavesReached ⟨done, rfl⟩ worked
  obtain ⟨differs, method, has, construction⟩ :=
    method?_of_isEligible weaves (List.mem_filter.1 member).2
  exact (onMethod_woven counts bindsFirst weavesReached differs has construction worked).1

theorem instrumentAll_woven
    (free : original.DeclaresNoIncrementor)
    (weaves : before.Weaves counter sink original)
    {changed : Bool}
    (ends : Ends instrumentAll before changed after) :
    after.Weaves counter sink original := by
  unfold instrumentAll at ends
  simp only [Ends.bind_iff, Ends.get_iff, Ends.pure_iff] at ends
  obtain ⟨_, ensured, ensures, _, _, ⟨rfl, rfl⟩, results, _, works, -, rfl⟩ := ends
  obtain ⟨stockedEnsured, growsEnsured⟩ :=
    Transform.ensureCounterClass_stocked weaves.stocked ensures
  refine Ends.mapM_preserves (fun session => session.Weaves counter sink original)
    (fun _ => True) ?_
    (weaves.grow stockedEnsured growsEnsured) (fun _ _ => trivial) works
  intro className _ reached _ reachedAfter weavesReached _ worked
  unfold instrumentClass at worked
  rw [Ends.get_bind_iff] at worked
  split at worked
  · rename_i eligible
    have differs := ne_counter_of_isTransformableClass weavesReached.stocked
      (Bool.and_eq_true_iff.1 eligible).1
    simp only [Ends.bind_iff, Ends.pure_iff] at worked
    obtain ⟨profile, _, instruments, -, rfl⟩ := worked
    exact (Transform.instrument_woven weavesReached free differs instruments).1
  · obtain ⟨-, rfl⟩ := Ends.pure_iff.1 worked
    exact weavesReached

/-- A pass that counts keeps the program the original one with counting. -/
theorem run_woven
    {pass : Pass}
    (counts : pass.Counts)
    (bindsFirst : original.BindsFirst)
    (free : original.DeclaresNoIncrementor)
    (weaves : before.Weaves counter sink original)
    {changed : Bool}
    (ends : Ends (run pass) before changed after) :
    after.Weaves counter sink original := by
  obtain ⟨journal, worked, journalAfter, works, rfl⟩ := ends_run ends
  apply Session.Weaves.withJournal
  have weavesStarted := weaves.withJournal journal
  cases pass with
  | instrument => exact instrumentAll_woven free weavesStarted works
  | patchConstructors => exact onMethods_woven counts bindsFirst weavesStarted works
  | profileTypes => exact onMethods_woven counts bindsFirst weavesStarted works
  | countFields => exact onMethods_woven counts bindsFirst weavesStarted works
  | trackCalls => exact onMethods_woven counts bindsFirst weavesStarted works
  | wrapSignatures => exact absurd rfl counts.1
  | propagateArrays => exact absurd rfl counts.2

theorem counts_of_mem_wanted
    {settings : Settings}
    (arraysOff : settings.arrays = false)
    {pass : Pass}
    (member : pass ∈ wanted settings) :
    pass.Counts := by
  have asked := (List.mem_filter.1 member).2
  constructor
  · rintro rfl
    rw [isWanted, arraysOff] at asked
    cases asked
  · rintro rfl
    rw [isWanted, arraysOff] at asked
    cases asked

end Pass

/-- To check a program changes nothing but the journal. -/
theorem Transform.checkProgram_woven
    (weaves : before.Weaves counter sink original)
    (ends : Ends checkProgram before () after) :
    after.Weaves counter sink original := by
  unfold checkProgram at ends
  rw [Ends.get_bind_iff] at ends
  simp only [Ends.bind_iff, ends_ofExcept] at ends
  obtain ⟨_, recorded, records, -, rfl⟩ := ends
  generalize before.program.violations (some before.settings) = violations at records
  induction violations generalizing before with
  | nil =>
    obtain ⟨-, rfl⟩ := Ends.pure_iff.1 records
    exact weaves
  | cons violation rest hypothesis =>
    obtain ⟨_, between, first, others⟩ := Ends.bind_iff.1 records
    obtain ⟨stocked, grows⟩ := record_stocked weaves.stocked first
    exact hypothesis (weaves.grow stocked grows) others

/-- A transformation that leaves arrays alone and succeeds gives the program with counting. -/
theorem transformProgram_woven
    {program : Program}
    {settings : Settings}
    {session : Session}
    (arraysOff : settings.arrays = false)
    (unregistered : program.class? settings.counterClassName = none)
    (bindsFirst : program.BindsFirst)
    (free : program.DeclaresNoIncrementor)
    (transformed : transformProgram program settings = (.ok (), session)) :
    program.Woven settings.counterClassName settings.sink session.program := by
  have ends : Ends Transform.pipeline (.start settings program) () session := transformed
  have start :
      (Session.start settings program).Weaves settings.counterClassName settings.sink program := by
    have woven : program.Woven settings.counterClassName settings.sink program :=
      .refl unregistered bindsFirst
    exact ⟨⟨rfl, rfl, woven.counts, nofun, nofun, nofun, nofun⟩, woven⟩
  unfold Transform.pipeline at ends
  rw [Ends.get_bind_iff] at ends
  obtain ⟨_, passed, passes, checks⟩ := Ends.bind_iff.1 ends
  obtain ⟨results, runs⟩ := Pass.ends_runAll passes
  have weaves : passed.Weaves settings.counterClassName settings.sink program :=
    Ends.mapM_preserves
      (fun session => session.Weaves settings.counterClassName settings.sink program)
      (fun _ => True)
      (fun pass member _ _ _ reached _ ran =>
        Pass.run_woven (Pass.counts_of_mem_wanted arraysOff member) bindsFirst free reached ran)
      start (fun _ _ => trivial) runs
  split at checks
  · exact (Transform.checkProgram_woven weaves checks).woven
  · obtain ⟨-, rfl⟩ := Ends.pure_iff.1 checks
    exact weaves.woven

end AccessProfiler
