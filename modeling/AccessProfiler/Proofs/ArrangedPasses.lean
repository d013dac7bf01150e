import AccessProfiler.Proofs.ArrangedMethods
import AccessProfiler.Proofs.WrappedSignatures

/-!
# Passes in any order

Two sessions that are alike stay alike when a pass works on the methods of both, in whatever order it
does so in either (`Pass.onMethodsIn_alike`), and when the signatures of both are wrapped
(`Transform.wrapSignatures_alike`).  So they are alike after all passes (`Pass.mapM_runIn_alike`).
-/

namespace AccessProfiler

open Session

variable
    {base first second : Session}
    {asked : CounterOwner → Prop}
    {elements : Ty → Prop}

namespace Session

/-- A session is paired with itself if it is with another. -/
theorem Paired.left (paired : base.Paired asked elements first second) :
    base.Paired asked elements first first where
  foreseen := paired.foreseen
  foreseenToo := paired.foreseen
  profiles _ _ := rfl
  outlines _ _ := rfl
  closed := paired.closed
  declared name free declaration found method member type among := by
    have carries : Carries first second first first := ⟨fun _ had _ => ⟨had, had⟩⟩
    exact carries.admits (paired.declared name free declaration found method member type among)
  named := paired.named
  profiled := paired.profiled

namespace Alike

variable (alike : base.Alike asked elements first second)
include alike

/-- One of two sessions that are alike could have gone on to the other. -/
theorem onward : base.Onward asked elements first second where
  foreseen := alike.paired.foreseenToo
  has asset had := (alike.has asset).2 had
  profiles := alike.paired.profiles
  outlines := alike.paired.outlines

/-- Either session is like itself. -/
theorem left : base.Alike asked elements first first :=
  ⟨alike.paired.left, fun _ => .rfl, fun _ _ => rfl, alike.asks⟩

theorem right : base.Alike asked elements second second :=
  ⟨(Progress.of_onward alike.onward alike.onward).paired alike.paired.left, fun _ => .rfl,
    fun _ _ => rfl, alike.asks.onward alike.onward⟩

theorem method?_eq {id : MethodId} (free : ¬ base.Reserves elements id.owner) :
    second.program.method? id = first.program.method? id := by
  unfold Program.method?
  rw [alike.classes _ free]

theorem body?_eq {id : MethodId} (free : ¬ base.Reserves elements id.owner) :
    second.program.body? id = first.program.body? id := by
  unfold Program.body?
  rw [alike.method?_eq free]

/-- What was generated for one was generated for the other. -/
theorem isGenerated_eq (method : String) :
    second.isGenerated method = first.isGenerated method := by
  rw [Bool.eq_iff_iff, isGenerated, isGenerated, List.contains_iff_mem, List.contains_iff_mem,
    alike.paired.foreseenToo.allots.generated, alike.paired.foreseen.allots.generated]
  simp only [alike.has]

theorem isTransformableClass_eq
    (foresees : base.Foresees asked elements)
    (name : String) :
    second.isTransformableClass name = first.isTransformableClass name := by
  by_cases free : base.Reserves elements name
  · rw [Bool.eq_false_iff.2 fun transformable =>
        alike.paired.foreseenToo.free_of_isTransformableClass transformable free,
      Bool.eq_false_iff.2 fun transformable =>
        alike.paired.foreseen.free_of_isTransformableClass transformable free]
  · exact alike.paired.isTransformableClass_eq foresees (.of_free free)

/-- The same methods are transformed. -/
theorem isTransformable_eq (foresees : base.Foresees asked elements) (id : MethodId) :
    second.isTransformable id = first.isTransformable id := by
  unfold isTransformable
  rw [alike.isTransformableClass_eq foresees]
  cases transformable : first.isTransformableClass id.owner with
  | false => rfl
  | true =>
    have free := alike.paired.foreseen.free_of_isTransformableClass transformable
    simp only [Bool.true_and, alike.method?_eq free, alike.isGenerated_eq]

/-- A pass works on the same methods. -/
theorem isEligible_eq
    (foresees : base.Foresees asked elements)
    (pass : Pass)
    (id : MethodId) :
    pass.isEligible second id = pass.isEligible first id := by
  have same := alike.isTransformable_eq foresees id
  cases pass with
  | patchConstructors =>
    simp only [Pass.isEligible, same]
    cases transformable : first.isTransformable id with
    | false => rfl
    | true =>
      have free := alike.paired.foreseen.free_of_isTransformableClass
        (Bool.and_eq_true_iff.1 transformable).1
      simp only [alike.method?_eq free, alike.paired.profiles _ free]
  | _ => exact same

end Alike

/-- What a pass works on are methods of classes that did not come in, written by hand. -/
theorem Foreseen.of_isEligible
    (foreseen : base.Foreseen asked elements first)
    {pass : Pass}
    {id : MethodId}
    (eligible : pass.isEligible first id) :
    ¬ base.Reserves elements id.owner ∧
      ∀ method, first.program.method? id = some method → method.isSynthetic = false := by
  have transformable := (Pass.isTransformable_of_isEligible eligible).1
  obtain ⟨ofClass, ofMethod⟩ := Bool.and_eq_true_iff.1 transformable
  refine ⟨foreseen.free_of_isTransformableClass ofClass, fun method found => ?_⟩
  rw [found] at ofMethod
  simp only [Option.any_some, Bool.and_eq_true, Bool.not_eq_true'] at ofMethod
  exact ofMethod.1

/-- A method that is transformed is listed. -/
theorem mem_eligible_iff (pass : Pass) (session : Session) (id : MethodId) :
    id ∈ session.program.applicationMethods.filter (pass.isEligible session) ↔
      pass.isEligible session id := by
  rw [List.mem_filter, and_iff_right_iff_imp]
  exact fun eligible => session.mem_applicationMethods_of_isTransformable
    (Pass.isTransformable_of_isEligible eligible).1

end Session

namespace Pass

/-- On the way from one session to another a pass visits each of some methods, and does nothing else. -/
structure Covers
    (base : Session)
    (asked : CounterOwner → Prop)
    (elements : Ty → Prop)
    (pass : Pass)
    (methods : List MethodId)
    (start final : Session) : Prop where
  onward : base.Onward asked elements start final
  visits :
    ∀ id ∈ methods, ∃ before after, Visits base asked elements pass start final id before after
  kept :
    ∀ id, ¬ base.Reserves elements id.owner → id ∉ methods →
      final.program.body? id = start.program.body? id
  came :
    ∀ asset, final.Has asset → start.Has asset ∨
      ∃ id ∈ methods, ∃ before after, Visits base asked elements pass start final id before after ∧
        ¬ before.Has asset ∧ after.Has asset

section Visits

variable
    {pass : Pass}
    {methods methodsToo : List MethodId}
    {start startToo final finalToo before after beforeToo afterToo : Session}

/-- What is worked on is written by hand, whatever happened to it meanwhile. -/
theorem not_isSynthetic_of_isEligible
    (foreseen : base.Foreseen asked elements first)
    {id : MethodId}
    (eligible : pass.isEligible first id)
    (onward : base.Onward asked elements first after)
    {method : Method}
    (found : after.program.method? id = some method) :
    method.isSynthetic = false := by
  obtain ⟨free, written⟩ := foreseen.of_isEligible eligible
  obtain ⟨old, there, agrees⟩ := onward.method?_eq_some free found
  have flags : method.signature.isSynthetic = old.signature.isSynthetic := by rw [agrees]
  exact flags.trans (written old there)

/-- The bodies that a pass works on can be followed. -/
theorem opens_of_isEligible
    (foreseen : base.Foreseen asked elements first)
    (opens : base.AllOpen asked elements first second)
    {id : MethodId}
    (eligible : pass.isEligible first id)
    {body : Body}
    (found : first.program.body? id = some body) :
    base.BothOpen asked elements first second body := by
  obtain ⟨method, there, isBody⟩ := Option.bind_eq_some_iff.1 found
  exact opens id method body (foreseen.of_isEligible eligible).1 there
    (not_isSynthetic_of_isEligible foreseen eligible (.refl foreseen) there) isBody

/-- What one of two runs has at its end the other one has as well, if it visits the same methods and
the same comes in there. -/
theorem Covers.has
    (covers : Covers base asked elements pass methods start final)
    (coversToo : Covers base asked elements pass methodsToo startToo finalToo)
    (starts : ∀ asset, startToo.Has asset → start.Has asset)
    (visited :
      ∀ id ∈ methodsToo, ∀ beforeToo afterToo,
        Visits base asked elements pass startToo finalToo id beforeToo afterToo →
          ∃ before after assets, Visits base asked elements pass start final id before after ∧
            before.Acquires after assets ∧ beforeToo.Acquires afterToo assets)
    {asset : Asset}
    (had : finalToo.Has asset) :
    final.Has asset := by
  rcases coversToo.came asset had with there | ⟨id, member, beforeToo, afterToo, visitToo, without, came⟩
  · exact covers.onward.has asset (starts asset there)
  · obtain ⟨before, after, assets, visit, acquires, acquiresToo⟩ :=
      visited id member beforeToo afterToo visitToo
    have listed := ((acquiresToo asset).1 came).resolve_left without
    exact visit.onward.has asset ((acquires asset).2 (.inr listed))

variable
    (foresees : base.Foresees asked elements)
    (countsInt : base.AsksType asked "int")
    (wanted : pass.isWanted base.settings)
    (alike : base.Alike asked elements first second)
    (opens : base.AllOpen asked elements first second)
include foresees countsInt wanted alike opens

/-- A run from one of two sessions covers its methods.  A method is visited by the session and by the
same session once more, so that what is known of two visits holds of one. -/
theorem covers_of_mapM
    (itself : base.Alike asked elements start start)
    (origin : base.Onward asked elements first start)
    (carries :
      ∀ {before}, base.Onward asked elements start before → Carries first second before before)
    (bodies : ∀ id ∈ methods, start.program.body? id = first.program.body? id)
    (eligible : ∀ id ∈ methods, pass.isEligible first id)
    (distinct : methods.Nodup)
    {results : List (Except Error Bool)}
    (ends : Ends (methods.mapM pass.onMethod) start results final)
    (ok : ∀ result ∈ results, ∃ done, result = .ok done) :
    Covers base asked elements pass methods start final := by
  have foreseen := alike.paired.foreseen
  have free id (member : id ∈ methods) := (foreseen.of_isEligible (eligible id member)).1
  obtain ⟨onward, visits, kept, came⟩ := visits_of_mapM
    (fun id member before after changed reached untouched ends =>
      have both := Progress.of_onward reached reached
      (onMethod_tandem foresees countsInt wanted (free id member) (both.paired itself.paired)
        (itself.asks.onward reached)
        (fun _ found => not_isSynthetic_of_isEligible foreseen (eligible id member)
          (origin.trans reached) found)
        rfl
        (fun _ found => (carries reached).opens (opens_of_isEligible foreseen opens
          (eligible id member) ((untouched.trans (bodies id member)) ▸ found)))
        ends ends).1)
    free distinct (.refl itself.paired.foreseen) (fun _ _ => rfl) ends ok
  exact ⟨onward, visits, kept, came⟩

/-- When both runs visit a method the same comes in, and the method gets the same body. -/
theorem Visits.agree
    {id : MethodId}
    (eligible : pass.isEligible first id)
    (visit : Visits base asked elements pass first final id before after)
    (visitToo : Visits base asked elements pass second finalToo id beforeToo afterToo) :
    (∃ assets, before.Acquires after assets ∧ beforeToo.Acquires afterToo assets) ∧
      finalToo.program.body? id = final.program.body? id ∧
      (pass ≠ .propagateArrays → ∀ body, final.program.body? id = some body →
        base.BothOpen asked elements final finalToo body) := by
  obtain ⟨reached, untouched, ⟨changed, ends⟩, onward, settled⟩ := visit
  obtain ⟨reachedToo, untouchedToo, ⟨changedToo, endsToo⟩, onwardToo, settledToo⟩ := visitToo
  have foreseen := alike.paired.foreseen
  have free := (foreseen.of_isEligible eligible).1
  have progress := Progress.of_onward reached reachedToo
  have sameBody : beforeToo.program.body? id = before.program.body? id := by
    rw [untouchedToo, untouched, alike.body?_eq free]
  obtain ⟨-, -, assets, sameAfter, opensAfter⟩ :=
    onMethod_tandem foresees countsInt wanted free (progress.paired alike.paired)
      (alike.asks.onward reached)
      (fun _ found => not_isSynthetic_of_isEligible foreseen eligible reached found) sameBody
      (fun _ found => progress.opens
        (opens_of_isEligible foreseen opens eligible (untouched ▸ found)))
      ends endsToo
  refine ⟨assets, by rw [settledToo, settled, sameAfter], fun differs body found => ?_⟩
  exact (Progress.of_onward onward onwardToo).opens (opensAfter differs body (settled ▸ found))

/-- Sessions that are alike stay so when a pass works on the same methods of both in some order. -/
theorem mapM_onMethod_alike
    (eligible : ∀ id ∈ methods, pass.isEligible first id)
    (distinct : methods.Nodup)
    (same : methodsToo.Perm methods)
    {results resultsToo : List (Except Error Bool)}
    (ends : Ends (methods.mapM pass.onMethod) first results final)
    (endsToo : Ends (methodsToo.mapM pass.onMethod) second resultsToo finalToo)
    (ok : ∀ result ∈ results, ∃ done, result = .ok done)
    (okToo : ∀ result ∈ resultsToo, ∃ done, result = .ok done) :
    base.Alike asked elements final finalToo ∧
      (pass ≠ .propagateArrays → base.AllOpen asked elements final finalToo) := by
  have foreseen := alike.paired.foreseen
  have memberToo {id : MethodId} (member : id ∈ methodsToo) : id ∈ methods := same.mem_iff.1 member
  have free id (member : id ∈ methods) := (foreseen.of_isEligible (eligible id member)).1
  have covers := covers_of_mapM foresees countsInt wanted alike opens alike.left (.refl foreseen)
    (fun reached => ⟨fun asset had _ => ⟨reached.has asset had, reached.has asset had⟩⟩)
    (fun _ _ => rfl) eligible distinct ends ok
  have coversToo := covers_of_mapM foresees countsInt wanted alike opens alike.right alike.onward
    (fun reached => ⟨fun asset _ had => ⟨reached.has asset had, reached.has asset had⟩⟩)
    (fun id member => alike.body?_eq (free id (memberToo member)))
    (fun id member => eligible id (memberToo member)) (same.nodup_iff.2 distinct) endsToo okToo
  have agree
      {id : MethodId}
      (member : id ∈ methods)
      {before after beforeToo afterToo : Session}
      (visit : Visits base asked elements pass first final id before after)
      (visitToo : Visits base asked elements pass second finalToo id beforeToo afterToo) :=
    visit.agree foresees countsInt wanted alike opens (eligible id member) visitToo
  have progress := Progress.of_onward covers.onward coversToo.onward
  have paired := progress.paired alike.paired
  refine ⟨⟨paired, fun asset => ⟨fun had => ?_, fun had => ?_⟩, fun name freeName => ?_,
    alike.asks.onward covers.onward⟩, fun differs id method body freeOwner found byHand isBody => ?_⟩
  · refine covers.has coversToo (fun asset => (alike.has asset).1)
      (fun id member beforeToo afterToo visitToo => ?_) had
    obtain ⟨before, after, visit⟩ := covers.visits id (memberToo member)
    obtain ⟨⟨assets, acquires, acquiresToo⟩, -⟩ := agree (memberToo member) visit visitToo
    exact ⟨before, after, assets, visit, acquires, acquiresToo⟩
  · refine coversToo.has covers (fun asset => (alike.has asset).2)
      (fun id member before after visit => ?_) had
    obtain ⟨beforeToo, afterToo, visitToo⟩ := coversToo.visits id (same.mem_iff.2 member)
    obtain ⟨⟨assets, acquires, acquiresToo⟩, -⟩ := agree member visit visitToo
    exact ⟨beforeToo, afterToo, assets, visitToo, acquiresToo, acquires⟩
  · refine class?_eq_of_bodies (paired.outlines name freeName) fun index => ?_
    by_cases member : ⟨name, index⟩ ∈ methods
    · obtain ⟨_, _, visit⟩ := covers.visits _ member
      obtain ⟨_, _, visitToo⟩ := coversToo.visits _ (same.mem_iff.2 member)
      exact (agree member visit visitToo).2.1
    · rw [coversToo.kept _ freeName fun there => member (memberToo there),
        covers.kept _ freeName member]
      exact alike.body?_eq freeName
  · have located : final.program.body? id = some body := by
      rw [Program.body?, found, Option.bind_some, isBody]
    by_cases member : id ∈ methods
    · obtain ⟨_, _, visit⟩ := covers.visits id member
      obtain ⟨_, _, visitToo⟩ := coversToo.visits id (same.mem_iff.2 member)
      exact (agree member visit visitToo).2.2 differs body located
    · rw [covers.kept id freeOwner member] at located
      obtain ⟨old, there, isOld⟩ := Option.bind_eq_some_iff.1 located
      obtain ⟨other, thereToo, agrees⟩ := covers.onward.method?_eq_some freeOwner found
      cases there.symm.trans thereToo
      have flags : method.signature.isSynthetic = old.signature.isSynthetic := by rw [agrees]
      exact progress.opens (opens id old body freeOwner there (flags.symm.trans byHand) isOld)

end Visits

/-- A pass works on the methods of both sessions in some order, and these stay alike. -/
theorem onMethodsIn_alike
    (foresees : base.Foresees asked elements)
    (countsInt : base.AsksType asked "int")
    {pass : Pass}
    (wanted : pass.isWanted base.settings)
    (alike : base.Alike asked elements first second)
    (opens : base.AllOpen asked elements first second)
    (arrangement other : Arrangement)
    {changed changedToo : Bool}
    {after afterToo : Session}
    (ends : Ends (pass.onMethodsIn arrangement) first changed after)
    (endsToo : Ends (pass.onMethodsIn other) second changedToo afterToo) :
    base.Alike asked elements after afterToo ∧
      (pass ≠ .propagateArrays → base.AllOpen asked elements after afterToo) := by
  obtain ⟨results, works, ok⟩ := ends_onMethodsIn arrangement ends
  obtain ⟨resultsToo, worksToo, okToo⟩ := ends_onMethodsIn other endsToo
  have given := arrangement.perm pass
    (first.program.applicationMethods.filter (pass.isEligible first))
  have givenToo := other.perm pass
    (second.program.applicationMethods.filter (pass.isEligible second))
  have eligible :
      (second.program.applicationMethods.filter (pass.isEligible second)).Perm
        (first.program.applicationMethods.filter (pass.isEligible first)) := by
    refine (List.perm_ext_iff_of_nodup (second.program.nodup_applicationMethods.filter _)
      (first.program.nodup_applicationMethods.filter _)).2 fun id => ?_
    rw [mem_eligible_iff, mem_eligible_iff, alike.isEligible_eq foresees]
  exact mapM_onMethod_alike foresees countsInt wanted alike opens
    (fun id member => (mem_eligible_iff pass first id).1 (given.mem_iff.1 member))
    (given.nodup_iff.2 (first.program.nodup_applicationMethods.filter _))
    ((givenToo.trans eligible).trans given.symm) works worksToo ok okToo

end Pass

/-! ## Signatures -/

namespace Program

variable {program : Program}

/-- After a method was changed, the methods of a class are those that it had, or the changed one. -/
theorem exists_of_modifyMethod
    {id : MethodId}
    {change : Method → Method}
    {name : String}
    {declaration : Class}
    (found : (program.modifyMethod id change).class? name = some declaration) :
    ∃ old, program.class? name = some old ∧ declaration.name = old.name ∧
      ∀ method ∈ declaration.methods, ∃ other ∈ old.methods,
        method = other ∨ program.method? id = some other ∧ method = change other := by
  rw [class?_modifyMethod] at found
  split at found
  · rename_i isOwner
    obtain ⟨old, there, rfl⟩ := Option.map_eq_some_iff.1 found
    refine ⟨old, isOwner ▸ there, rfl, fun method member => ?_⟩
    obtain ⟨index, listed⟩ := List.mem_iff_getElem?.1 member
    rw [List.getElem?_modify, Option.map_eq_map] at listed
    obtain ⟨other, located, changed⟩ := Option.map_eq_some_iff.1 listed
    refine ⟨other, List.mem_of_getElem? located, ?_⟩
    split at changed
    · rename_i same
      refine .inr ⟨?_, changed.symm⟩
      rw [method?, there, Option.bind_some, same, located]
    · exact .inl changed.symm
  · exact ⟨declaration, found, rfl, fun method member => ⟨method, member, .inl rfl⟩⟩

end Program

namespace Session

variable {after afterToo : Session}

/-- After the same came in on both sides the sessions are still alike. -/
theorem Advance.alike
    (advance : base.Advance asked elements first second after afterToo)
    (alike : base.Alike asked elements first second) :
    base.Alike asked elements after afterToo := by
  obtain ⟨assets, supplies, suppliesToo⟩ := advance.supplied
  refine ⟨advance.toProgress.paired alike.paired, fun asset => ?_, fun name free => ?_,
    alike.asks.onward advance.onward⟩
  · rw [suppliesToo.acquires, supplies.acquires, alike.has]
  · rw [suppliesToo.others name free, supplies.others name free, alike.classes name free]

/-- Bodies that both sessions can follow are followed by others that have as much. -/
theorem AllOpen.of_carries
    (opens : base.AllOpen asked elements first second)
    (carries : Carries first second after afterToo)
    (bodies :
      ∀ id, ¬ base.Reserves elements id.owner →
        ∀ method, after.program.method? id = some method →
          ∃ old, first.program.method? id = some old ∧ old.flags = method.flags ∧
            old.body = method.body) :
    base.AllOpen asked elements after afterToo := by
  intro id method body free found written isBody
  obtain ⟨old, there, flags, same⟩ := bodies id free method found
  have writtenToo : old.isSynthetic = false := by rw [Method.isSynthetic, flags]; exact written
  exact carries.opens (opens id old body free there writtenToo (same.trans isBody))

theorem Advance.allOpen
    (advance : base.Advance asked elements first second after afterToo)
    (opens : base.AllOpen asked elements first second) :
    base.AllOpen asked elements after afterToo := by
  obtain ⟨assets, supplies, -⟩ := advance.supplied
  refine opens.of_carries advance.toCarries fun id free method found => ⟨method, ?_, rfl, rfl⟩
  rw [← found, Program.method?, Program.method?, supplies.others _ free]

/-- Notes make no difference. -/
theorem Alike.annotate
    (alike : base.Alike asked elements first second)
    (journal journalToo : Journal) :
    base.Alike asked elements { first with journal } { second with journal := journalToo } := by
  have notes : base.Recasts elements first { first with journal } := .annotate first journal
  have notesToo : base.Recasts elements second { second with journal := journalToo } :=
    .annotate second journalToo
  have onward := notes.onward alike.paired.foreseen
  have progress := Progress.of_onward onward (notesToo.onward alike.paired.foreseenToo)
  refine ⟨progress.paired alike.paired, fun asset => ?_, alike.classes, alike.asks.onward onward⟩
  rw [notesToo.has_iff alike.paired.foreseenToo, notes.has_iff alike.paired.foreseen, alike.has]

theorem AllOpen.annotate
    (opens : base.AllOpen asked elements first second)
    (alike : base.Alike asked elements first second)
    (journal journalToo : Journal) :
    base.AllOpen asked elements { first with journal } { second with journal := journalToo } :=
  opens.of_carries
    (Progress.of_onward ((Recasts.annotate first journal).onward alike.paired.foreseen)
      ((Recasts.annotate second journalToo).onward alike.paired.foreseenToo)).toCarries
    fun _ _ method found => ⟨method, found, rfl, rfl⟩

/-- To change a method of a class that did not come in brings nothing in. -/
theorem Foreseen.modifyMethod
    (foreseen : base.Foreseen asked elements first)
    {id : MethodId}
    (free : ¬ base.Reserves elements id.owner)
    (change : Method → Method) :
    base.Foreseen asked elements
        { first with program := first.program.modifyMethod id change } ∧
      ∀ asset,
        ({ first with program := first.program.modifyMethod id change } : Session).Has asset ↔
          first.Has asset :=
  foreseen.elsewhere ⟨_, _, _, rfl⟩ fun _ reserves =>
    Program.class?_modifyMethod_of_ne fun same => free (same ▸ reserves)

section Signatures

variable
    (alike : base.Alike asked elements first second)
    {id : MethodId}
    (free : ¬ base.Reserves elements id.owner)
    (parameters : List Ty)
    (result : Ty)
include alike free

/-- The types of a method may be changed on both sides, to types that both sessions admit. -/
theorem Alike.setSignature
    (types :
      ∀ type ∈ result :: parameters, base.BothAdmit elements first second type ∧
        base.AsksWrapper elements type) :
    base.Alike asked elements
      { first with
        program := first.program.modifyMethod id fun method => { method with parameters, result } }
      { second with
        program := second.program.modifyMethod id fun method => { method with parameters, result } } := by
  let change (method : Method) : Method := { method with parameters, result }
  obtain ⟨foreseen, has⟩ := alike.paired.foreseen.modifyMethod free change
  obtain ⟨foreseenToo, hasToo⟩ := alike.paired.foreseenToo.modifyMethod free change
  have carries :
      Carries first second
        { first with program := first.program.modifyMethod id change }
        { second with program := second.program.modifyMethod id change } :=
    ⟨fun asset had hadToo => ⟨(has asset).2 had, (hasToo asset).2 hadToo⟩⟩
  have classes name (freeName : ¬ base.Reserves elements name) :
      (second.program.modifyMethod id change).class? name =
        (first.program.modifyMethod id change).class? name := by
    rw [Program.class?_modifyMethod, Program.class?_modifyMethod, alike.classes _ freeName,
      alike.classes _ free]
  have isType
      {name : String}
      (freeName : ¬ base.Reserves elements name)
      {declaration : Class}
      (found : (first.program.modifyMethod id change).class? name = some declaration)
      {method : Method}
      (member : method ∈ declaration.methods)
      {type : Ty}
      (among : type ∈ method.result :: method.parameters) :
      base.BothAdmit elements first second type ∧ base.AsksWrapper elements type := by
    obtain ⟨old, there, -, methods⟩ := Program.exists_of_modifyMethod found
    obtain ⟨other, listed, rfl | ⟨located, rfl⟩⟩ := methods method member
    · exact ⟨alike.paired.declared name freeName old there method listed type among,
        alike.asks.wrappers name freeName old there method listed type among⟩
    · exact types type among
  refine ⟨⟨foreseen, foreseenToo, alike.paired.profiles, fun name freeName => ?_,
    fun name freeName upper above => ?_, fun name freeName declaration found method member type among =>
      carries.admits (isType freeName found member among).1, fun name freeName declaration found => ?_,
    alike.paired.profiled⟩, fun asset => ?_, classes, ⟨fun name freeName present => ?_,
    fun tracks name freeName declaration found method member written => ?_,
    fun name freeName declaration found method member type among =>
      (isType freeName found member among).2⟩⟩
  · exact congrArg _ (classes name freeName)
  · have same : first.program.SameHierarchy (· ∉ []) (first.program.modifyMethod id change) :=
      Program.sameHierarchy_modifyMethod
    rw [same.parents_eq List.not_mem_nil] at above
    exact alike.paired.closed name freeName upper above
  · obtain ⟨old, there, named, -⟩ := Program.exists_of_modifyMethod found
    rw [named, alike.paired.named name freeName old there]
  · rw [hasToo, has, alike.has]
  · obtain ⟨declaration, found⟩ := Option.isSome_iff_exists.1 present
    obtain ⟨old, there, -⟩ := Program.exists_of_modifyMethod found
    exact alike.asks.types name freeName (by rw [there]; rfl)
  · obtain ⟨old, there, named, methods⟩ := Program.exists_of_modifyMethod found
    obtain ⟨other, listed, same⟩ := methods method member
    have agrees : method.name = other.name ∧ method.isSynthetic = other.isSynthetic := by
      rcases same with rfl | ⟨-, rfl⟩
      · exact ⟨rfl, rfl⟩
      · exact ⟨rfl, rfl⟩
    rw [named, agrees.1]
    exact alike.asks.calls tracks name freeName old there other listed (agrees.2 ▸ written)

/-- Bodies are followed as before. -/
theorem AllOpen.setSignature
    (opens : base.AllOpen asked elements first second) :
    base.AllOpen asked elements
      { first with
        program := first.program.modifyMethod id fun method => { method with parameters, result } }
      { second with
        program := second.program.modifyMethod id fun method => { method with parameters, result } } := by
  let change (method : Method) : Method := { method with parameters, result }
  have has := (alike.paired.foreseen.modifyMethod free change).2
  have hasToo := (alike.paired.foreseenToo.modifyMethod free change).2
  refine opens.of_carries ⟨fun asset had hadToo => ⟨(has asset).2 had, (hasToo asset).2 hadToo⟩⟩
    fun other _ method found => ?_
  dsimp only at found
  rw [Program.method?_modifyMethod] at found
  split at found
  · rename_i same
    obtain ⟨old, there, rfl⟩ := Option.map_eq_some_iff.1 found
    exact ⟨old, same ▸ there, rfl, rfl⟩
  · exact ⟨method, found, rfl, rfl⟩

end Signatures

/-- Methods above a known class that are called from outside are so in both sessions. -/
theorem Paired.keepsRaw_eq
    (foresees : base.Foresees asked elements)
    (paired : base.Paired asked elements first second)
    {owner : String}
    (knows : base.BothKnow elements first second owner)
    (method : Method) :
    second.keepsRaw owner method = first.keepsRaw owner method := by
  have closed := paired.closedAbove foresees
  have hierarchy := paired.sameHierarchy foresees
  have aboves :
      second.program.above (second.program.parents owner) =
        first.program.above (first.program.parents owner) := by
    rw [hierarchy.parents_eq knows]
    exact hierarchy.above_eq closed (closed owner knows)
  have overrides :
      second.overridesForeign owner method.name method.parameters =
        first.overridesForeign owner method.name method.parameters := by
    unfold overridesForeign
    rw [aboves, Bool.eq_iff_iff, List.any_eq_true, List.any_eq_true]
    refine exists_congr fun ancestor => and_congr_right fun member => ?_
    have knowsThere := closed.above (closed owner knows) ancestor member
    have declares := congrArg Option.isSome
      (paired.declaredMethod?_eq foresees knowsThere method.name method.parameters)
    rw [Option.isSome_map, Option.isSome_map] at declares
    rw [declares, paired.isTransformableClass_eq foresees knowsThere]
  unfold keepsRaw
  rw [overrides]

end Session

namespace Transform

variable {after afterToo : Session}

/-- When a signature was changed, that is recorded. -/
theorem ends_putSignature
    {id : MethodId}
    {parameters : List Ty}
    {result : Ty}
    {event : Event}
    {changed : Bool}
    (ends :
      Ends
        (do
          changeProgram fun program => (program.setSignature id parameters result).map ((), ·)
          record event
          return true)
        first changed after) :
    ∃ journal,
      after =
        { first with
          program := first.program.modifyMethod id fun method => { method with parameters, result }
          journal } := by
  obtain ⟨_, put, puts, rest⟩ := Ends.bind_iff.1 ends
  obtain ⟨_, recorded, records, rest⟩ := Ends.bind_iff.1 rest
  obtain ⟨-, rfl⟩ := Ends.pure_iff.1 rest
  obtain ⟨signed, given, rfl⟩ := ends_changeProgram.1 puts
  rw [ends_record] at records
  obtain ⟨-, rfl⟩ := records
  cases outcome : first.program.setSignature id parameters result with
  | error error =>
    rw [outcome] at given
    cases given
  | ok program =>
    rw [outcome] at given
    cases given
    obtain rfl := Program.setSignature_eq_ok outcome
    exact ⟨_, rfl⟩

/-- The same types stand for those of a method on both sides. -/
theorem mapSignature_alike
    (foresees : base.Foresees asked elements)
    (wraps : base.settings.arrays)
    (alike : base.Alike asked elements first second)
    {id : MethodId}
    (free : ¬ base.Reserves elements id.owner)
    {method : Method}
    (found : first.program.method? id = some method)
    {parameters parametersToo : List Ty}
    {result resultToo : Ty}
    {between betweenToo : Session}
    (mapsParameters : Ends (method.parameters.mapM mapType) first parameters between)
    (mapsResult : Ends (mapType method.result) between result after)
    (mapsParametersToo : Ends (method.parameters.mapM mapType) second parametersToo betweenToo)
    (mapsResultToo : Ends (mapType method.result) betweenToo resultToo afterToo) :
    parametersToo = parameters ∧ resultToo = result ∧
      base.Advance asked elements first second after afterToo ∧
      ∀ type ∈ resultToo :: parametersToo,
        base.BothAdmit elements after afterToo type ∧ base.AsksWrapper elements type := by
  obtain ⟨declaration, there, listed⟩ := Option.bind_eq_some_iff.1 found
  have member := List.mem_of_getElem? listed
  have admits type (among : type ∈ method.result :: method.parameters) :=
    alike.paired.declared id.owner free declaration there method member type among
  have lists type (among : type ∈ method.result :: method.parameters) :=
    alike.asks.wrappers id.owner free declaration there method member type among
  obtain ⟨rfl, advance, admitsParameters⟩ :=
    mapM_mapType_tandem foresees wraps
      (fun type among => ⟨admits type (.tail _ among), lists type (.tail _ among)⟩) alike.paired
      _ _ _ _ mapsParameters mapsParametersToo
  obtain ⟨rfl, further, admitsResult⟩ :=
    Draft.mapType_tandem foresees wraps (lists _ List.mem_cons_self)
      (advance.admits (admits _ List.mem_cons_self)) (advance.toProgress.paired alike.paired)
      _ _ _ _ mapsResult mapsResultToo
  refine ⟨rfl, rfl, advance.trans further, List.forall_mem_cons.2 ⟨admitsResult, fun type among => ?_⟩⟩
  have admitted := admitsParameters type among
  exact ⟨further.admits admitted.1, admitted.2⟩

/-- The signature of a method is changed on both sides, or on neither, and the sessions stay alike. -/
theorem wrapSignature_alike
    (foresees : base.Foresees asked elements)
    (wraps : base.settings.arrays)
    (alike : base.Alike asked elements first second)
    {pass : String}
    {id : MethodId}
    (free : ¬ base.Reserves elements id.owner)
    {changed changedToo : Bool}
    (ends : Ends (wrapSignature pass id) first changed after)
    (endsToo : Ends (wrapSignature pass id) second changedToo afterToo) :
    base.Alike asked elements after afterToo ∧
      (base.AllOpen asked elements first second → base.AllOpen asked elements after afterToo) := by
  unfold wrapSignature at ends endsToo
  rw [Ends.get_bind_iff] at ends endsToo
  rw [alike.isTransformable_eq foresees, alike.method?_eq free] at endsToo
  cases touched : first.isTransformable id with
  | false =>
    rw [touched] at ends endsToo
    obtain ⟨-, rfl⟩ := Ends.pure_iff.1 ends
    obtain ⟨-, rfl⟩ := Ends.pure_iff.1 endsToo
    exact ⟨alike, fun opens => opens⟩
  | true =>
    rw [touched] at ends endsToo
    cases found : first.program.method? id with
    | none =>
      rw [found] at ends endsToo
      obtain ⟨-, rfl⟩ := Ends.pure_iff.1 ends
      obtain ⟨-, rfl⟩ := Ends.pure_iff.1 endsToo
      exact ⟨alike, fun opens => opens⟩
    | some method =>
      rw [found] at ends endsToo
      dsimp only [Bool.not_true] at ends endsToo
      rw [if_neg (by decide)] at ends endsToo
      rw [alike.paired.keepsRaw_eq foresees (.of_free free)] at endsToo
      split at ends
      · rename_i kept
        rw [if_pos kept] at endsToo
        obtain ⟨-, rfl⟩ := Ends.pure_iff.1 ends
        obtain ⟨-, rfl⟩ := Ends.pure_iff.1 endsToo
        exact ⟨alike, fun opens => opens⟩
      · rename_i adapted
        rw [if_neg adapted] at endsToo
        obtain ⟨_, _, mapsParameters, rest⟩ := Ends.bind_iff.1 ends
        obtain ⟨_, mapped, mapsResult, rest⟩ := Ends.bind_iff.1 rest
        obtain ⟨parameters, _, mapsParametersToo, restToo⟩ := Ends.bind_iff.1 endsToo
        obtain ⟨result, mappedToo, mapsResultToo, restToo⟩ := Ends.bind_iff.1 restToo
        obtain ⟨rfl, rfl, advance, types⟩ := mapSignature_alike foresees wraps alike free found
          mapsParameters mapsResult mapsParametersToo mapsResultToo
        have alikeThen := advance.alike alike
        split at rest
        · rename_i agree
          rw [if_pos agree] at restToo
          obtain ⟨-, rfl⟩ := Ends.pure_iff.1 rest
          obtain ⟨-, rfl⟩ := Ends.pure_iff.1 restToo
          exact ⟨alikeThen, advance.allOpen⟩
        · rename_i differ
          rw [if_neg differ] at restToo
          obtain ⟨journal, rfl⟩ := ends_putSignature rest
          obtain ⟨journalToo, rfl⟩ := ends_putSignature restToo
          have signed := alikeThen.setSignature free parameters result types
          exact ⟨signed.annotate journal journalToo, fun opens =>
            ((advance.allOpen opens).setSignature alikeThen free parameters result).annotate signed
              journal journalToo⟩

end Transform

/-! ## The same methods -/

theorem Text.sorted_insertSorted
    {name : String}
    {names : List String}
    (sorted : names.Pairwise (· ≤ ·)) :
    (insertSorted name names).Pairwise (· ≤ ·) := by
  induction names with
  | nil => exact List.pairwise_singleton _ _
  | cons other rest hypothesis =>
    obtain ⟨least, sortedRest⟩ := List.pairwise_cons.1 sorted
    unfold insertSorted
    split
    · rename_i before
      refine List.pairwise_cons.2 ⟨fun later member => ?_, sorted⟩
      rcases List.mem_cons.1 member with rfl | member
      · exact before
      · exact String.le_trans before (least later member)
    · rename_i notBefore
      refine List.pairwise_cons.2 ⟨fun later member => ?_, hypothesis sortedRest⟩
      rcases List.mem_cons.1 ((insertSorted_perm name rest).mem_iff.1 member) with rfl | member
      · exact (String.le_total _ _).resolve_left notBefore
      · exact least later member

/-- Sorted names are in order. -/
theorem Text.sorted_sorted (names : List String) : (sorted names).Pairwise (· ≤ ·) := by
  induction names with
  | nil => exact .nil
  | cons name rest hypothesis => exact sorted_insertSorted hypothesis

namespace Program

variable
    {program other : Program}
    {chosen : String → Bool}
    (same : ∀ name, chosen name → other.class? name = program.class? name)
include same

/-- Where the classes of some names are the same, the same of them are of the application. -/
theorem applicationClasses_filter_eq :
    other.applicationClasses.filter chosen = program.applicationClasses.filter chosen := by
  have perm :
      (other.applicationClasses.filter chosen).Perm (program.applicationClasses.filter chosen) := by
    refine (List.perm_ext_iff_of_nodup (other.nodup_applicationClasses.filter _)
      (program.nodup_applicationClasses.filter _)).2 fun name => ?_
    rw [List.mem_filter, List.mem_filter, mem_applicationClasses, mem_applicationClasses]
    exact and_congr_left fun kept => by rw [same name kept]
  exact perm.eq_of_pairwise (fun _ _ _ _ => String.le_antisymm)
    ((Text.sorted_sorted _).sublist List.filter_sublist)
    ((Text.sorted_sorted _).sublist List.filter_sublist)

/-- So are the methods of the application that they declare, in one order. -/
theorem applicationMethods_filter_eq :
    other.applicationMethods.filter (chosen ·.owner) =
      program.applicationMethods.filter (chosen ·.owner) := by
  have listed (program : Program) :
      program.applicationMethods.filter (chosen ·.owner) =
        (program.applicationClasses.filter chosen).flatMap program.methodsOf := by
    unfold applicationMethods
    induction program.applicationClasses with
    | nil => rfl
    | cons name rest hypothesis =>
      rw [List.flatMap_cons, List.filter_append, hypothesis]
      have owners id (member : id ∈ program.methodsOf name) : chosen id.owner = chosen name := by
        rw [owner_of_mem_methodsOf member]
      rw [List.filter_congr owners]
      cases kept : chosen name <;> simp [kept]
  rw [listed, listed, applicationClasses_filter_eq same]
  refine List.flatMap_congr fun name member => ?_
  unfold methodsOf
  rw [same name (List.mem_filter.1 member).2]

end Program

/-- Steps that do nothing may be left out. -/
theorem Ends.mapM_filter
    {Item Value : Type}
    (Invariant : Session → Prop)
    {items : List Item}
    {chosen : Item → Bool}
    {step : Item → Transform Value}
    (idle :
      ∀ item ∈ items, chosen item = false → ∀ before value after, Invariant before →
        Ends (step item) before value after → after = before)
    (keeps :
      ∀ item ∈ items, chosen item → ∀ before value after, Invariant before →
        Ends (step item) before value after → Invariant after)
    {before after : Session}
    (holds : Invariant before)
    {values : List Value}
    (ends : Ends (items.mapM step) before values after) :
    ∃ kept, Ends ((items.filter chosen).mapM step) before kept after := by
  induction items generalizing before values with
  | nil => exact ⟨values, ends⟩
  | cons item rest hypothesis =>
    obtain ⟨value, between, others, first, later, rfl⟩ := mapM_cons_iff.1 ends
    have onward
        {before : Session}
        {values : List Value}
        (holds : Invariant before)
        (ends : Ends (rest.mapM step) before values after) :=
      hypothesis (fun other member => idle other (List.mem_cons_of_mem _ member))
        (fun other member => keeps other (List.mem_cons_of_mem _ member)) holds ends
    cases decided : chosen item with
    | false =>
      obtain rfl := idle item List.mem_cons_self decided before value between holds first
      rw [List.filter_cons_of_neg (by simp [decided])]
      exact onward holds later
    | true =>
      obtain ⟨kept, ends⟩ :=
        onward (keeps item List.mem_cons_self decided before value between holds first) later
      rw [List.filter_cons_of_pos decided]
      exact ⟨value :: kept, mapM_cons_iff.2 ⟨value, between, kept, first, ends, rfl⟩⟩

namespace Transform

variable {after afterToo : Session}

variable
    (foresees : base.Foresees asked elements)
    (wraps : base.settings.arrays)
    (alike : base.Alike asked elements first second)
    {pass : String}
include foresees wraps alike

/-- A run by itself leaves the signatures of classes that came in alone. -/
theorem ends_wrapSignatures
    {chosen : String → Bool}
    (isFree : ∀ name, chosen name ↔ ¬ base.Reserves elements name)
    {changed : Bool}
    (ends : Ends (wrapSignatures pass) first changed after) :
    ∃ results,
      Ends ((first.program.applicationMethods.filter (chosen ·.owner)).mapM (wrapSignature pass))
        first results after := by
  unfold wrapSignatures at ends
  rw [Ends.get_bind_iff] at ends
  obtain ⟨results, _, works, rest⟩ := Ends.bind_iff.1 ends
  obtain ⟨-, rfl⟩ := Ends.pure_iff.1 rest
  refine works.mapM_filter (fun session => base.Alike asked elements session session)
    (fun id _ reserved before value last itself ends => ?_)
    (fun id _ free before value last itself ends =>
      (wrapSignature_alike foresees wraps itself ((isFree _).1 free) ends ends).1) alike.left
  unfold wrapSignature at ends
  rw [Ends.get_bind_iff] at ends
  have foreign : before.isTransformable id = false := by
    rw [Bool.eq_false_iff]
    intro transformable
    have free := itself.paired.foreseen.free_of_isTransformableClass
      (Bool.and_eq_true_iff.1 transformable).1
    exact Bool.noConfusion (reserved.symm.trans ((isFree _).2 free))
  rw [foreign] at ends
  exact (Ends.pure_iff.1 ends).2

variable (opens : base.AllOpen asked elements first second)
include opens

theorem mapM_wrapSignature_alike
    {methods : List MethodId}
    (free : ∀ id ∈ methods, ¬ base.Reserves elements id.owner)
    {results resultsToo : List Bool}
    (ends : Ends (methods.mapM (wrapSignature pass)) first results after)
    (endsToo : Ends (methods.mapM (wrapSignature pass)) second resultsToo afterToo) :
    base.Alike asked elements after afterToo ∧ base.AllOpen asked elements after afterToo := by
  induction methods generalizing first second results resultsToo with
  | nil =>
    obtain ⟨-, rfl⟩ := Ends.pure_iff.1 ends
    obtain ⟨-, rfl⟩ := Ends.pure_iff.1 endsToo
    exact ⟨alike, opens⟩
  | cons id rest hypothesis =>
    obtain ⟨_, between, _, head, later, rfl⟩ := Ends.mapM_cons_iff.1 ends
    obtain ⟨_, betweenToo, _, headToo, laterToo, rfl⟩ := Ends.mapM_cons_iff.1 endsToo
    obtain ⟨alikeThen, opensThen⟩ :=
      wrapSignature_alike foresees wraps alike (free id List.mem_cons_self) head headToo
    exact hypothesis alikeThen (opensThen opens)
      (fun other member => free other (List.mem_cons_of_mem _ member)) later laterToo

/-- Signatures are changed on both sides, and the sessions stay alike. -/
theorem wrapSignatures_alike
    {changed changedToo : Bool}
    (ends : Ends (wrapSignatures pass) first changed after)
    (endsToo : Ends (wrapSignatures pass) second changedToo afterToo) :
    base.Alike asked elements after afterToo ∧ base.AllOpen asked elements after afterToo := by
  classical
  obtain ⟨chosen, isFree⟩ :
      ∃ chosen : String → Bool, ∀ name, chosen name ↔ ¬ base.Reserves elements name :=
    ⟨fun name => decide (¬ base.Reserves elements name), fun _ => decide_eq_true_iff⟩
  obtain ⟨results, works⟩ := ends_wrapSignatures foresees wraps alike isFree ends
  obtain ⟨resultsToo, worksToo⟩ := ends_wrapSignatures foresees wraps alike.right isFree endsToo
  rw [Program.applicationMethods_filter_eq fun name free => alike.classes name ((isFree name).1 free)]
    at worksToo
  exact mapM_wrapSignature_alike foresees wraps alike opens
    (fun id member => (isFree _).1 (List.mem_filter.1 member).2) works worksToo

end Transform

namespace Pass

variable {after afterToo : Session}

/-- Sessions that are alike stay so when a pass runs that instruments no classes. -/
theorem runIn_alike
    (foresees : base.Foresees asked elements)
    (countsInt : base.AsksType asked "int")
    {pass : Pass}
    (wanted : pass.isWanted base.settings)
    (other : pass ≠ .instrument)
    (alike : base.Alike asked elements first second)
    (opens : base.AllOpen asked elements first second)
    (arrangement arrangementToo : Arrangement)
    {changed changedToo : Bool}
    (ends : Ends (pass.runIn arrangement) first changed after)
    (endsToo : Ends (pass.runIn arrangementToo) second changedToo afterToo) :
    base.Alike asked elements after afterToo ∧
      (pass ≠ .propagateArrays → base.AllOpen asked elements after afterToo) := by
  obtain ⟨journal, worked, journalAfter, works, rfl⟩ := ends_runIn arrangement ends
  obtain ⟨journalToo, workedToo, journalAfterToo, worksToo, rfl⟩ := ends_runIn arrangementToo endsToo
  have alikeNoted := alike.annotate journal journalToo
  have opensNoted := opens.annotate alike journal journalToo
  have worked :
      base.Alike asked elements worked workedToo ∧
        (pass ≠ .propagateArrays → base.AllOpen asked elements worked workedToo) := by
    cases kind : pass.isGlobal with
    | false =>
      rw [kind] at works worksToo
      exact onMethodsIn_alike foresees countsInt wanted alikeNoted opensNoted arrangement
        arrangementToo works worksToo
    | true =>
      rw [kind] at works worksToo
      cases pass with
      | wrapSignatures =>
        obtain ⟨alikeThen, opensThen⟩ :=
          Transform.wrapSignatures_alike foresees wanted alikeNoted opensNoted works worksToo
        exact ⟨alikeThen, fun _ => opensThen⟩
      | instrument => exact absurd rfl other
      | _ => cases kind
  exact ⟨worked.1.annotate _ _, fun kept => (worked.2 kept).annotate worked.1 _ _⟩

/-- Sessions that are alike stay so when passes run after which nothing has to be followed. -/
theorem mapM_runIn_alike
    (foresees : base.Foresees asked elements)
    (countsInt : base.AsksType asked "int")
    {passes : List Pass}
    (wanted : ∀ pass ∈ passes, pass.isWanted base.settings)
    (others : .instrument ∉ passes)
    (last : passes.Pairwise fun pass _ => pass ≠ .propagateArrays)
    (alike : base.Alike asked elements first second)
    (opens : base.AllOpen asked elements first second)
    (arrangement arrangementToo : Arrangement)
    {results resultsToo : List Bool}
    (ends : Ends (passes.mapM (runIn arrangement)) first results after)
    (endsToo : Ends (passes.mapM (runIn arrangementToo)) second resultsToo afterToo) :
    base.Alike asked elements after afterToo := by
  induction passes generalizing first second results resultsToo with
  | nil =>
    obtain ⟨-, rfl⟩ := Ends.pure_iff.1 ends
    obtain ⟨-, rfl⟩ := Ends.pure_iff.1 endsToo
    exact alike
  | cons pass rest hypothesis =>
    obtain ⟨_, between, _, head, later, rfl⟩ := Ends.mapM_cons_iff.1 ends
    obtain ⟨_, betweenToo, _, headToo, laterToo, rfl⟩ := Ends.mapM_cons_iff.1 endsToo
    obtain ⟨alikeThen, opensThen⟩ :=
      runIn_alike foresees countsInt (wanted pass List.mem_cons_self)
        (fun same => others (same ▸ List.mem_cons_self)) alike opens arrangement arrangementToo head
        headToo
    obtain ⟨first, lastRest⟩ := List.pairwise_cons.1 last
    by_cases isLast : pass = .propagateArrays
    · obtain rfl : rest = [] :=
        List.eq_nil_iff_forall_not_mem.2 fun other member => first other member isLast
      obtain ⟨-, rfl⟩ := Ends.pure_iff.1 later
      obtain ⟨-, rfl⟩ := Ends.pure_iff.1 laterToo
      exact alikeThen
    · exact hypothesis (fun other member => wanted other (List.mem_cons_of_mem _ member))
        (fun member => others (List.mem_cons_of_mem _ member))
        lastRest alikeThen (opensThen isLast) later laterToo

end Pass
end AccessProfiler
