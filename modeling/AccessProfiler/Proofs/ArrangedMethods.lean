import AccessProfiler.Proofs.Passes
import AccessProfiler.Proofs.TandemBodies
import AccessProfiler.Proofs.TandemCounting

/-!
# Methods in any order

A pass on bodies may work on its methods in any order (`Pass.onMethodsIn`).  Whatever the order, each
method is worked on once, in a session that went on from the one at the beginning and goes on to the one
in the end (`Pass.Visits`).  The same method is therefore visited in two runs with the same body, in
sessions that agree on all that did not come in, and it gets the same body and asks for the same in both
(`Pass.onMethod_tandem`).
-/

namespace AccessProfiler

open Session

variable
    {base first second : Session}
    {asked : CounterOwner → Prop}
    {elements : Ty → Prop}

/-! ## Bodies that are taken out and put back -/

section Outlines

variable {program other : Program} {id : MethodId}

theorem Class.outline_modify
    (declaration : Class)
    (index : Nat)
    {change : Method → Method}
    (keeps : ∀ method, (change method).signature = method.signature) :
    ({ declaration with methods := declaration.methods.modify index change } : Class).outline =
      declaration.outline := by
  have same : (declaration.methods.modify index change).map Method.signature =
      declaration.methods.map Method.signature := by
    refine List.ext_getElem? fun position => ?_
    rw [List.getElem?_map, List.getElem?_map, List.getElem?_modify, Option.map_eq_map, Option.map_map]
    refine Option.map_congr fun method _ => ?_
    dsimp only [Function.comp]
    split
    · exact keeps method
    · rfl
  rw [outline, outline, same]

/-- What a method is apart from its body is a matter of outlines. -/
theorem Program.map_signature_method? (program : Program) (id : MethodId) :
    (program.method? id).map Method.signature =
      ((program.class? id.owner).map Class.outline).bind fun declaration =>
        declaration.methods[id.index]? := by
  unfold method?
  cases program.class? id.owner with
  | none => rfl
  | some declaration => simp [Class.outline]

theorem Program.methodRef?_eq_outline (program : Program) (id : MethodId) :
    program.methodRef? id =
      ((program.class? id.owner).map Class.outline).bind fun declaration =>
        declaration.methods[id.index]?.map fun method => method.reference declaration.name := by
  unfold methodRef?
  cases program.class? id.owner with
  | none => rfl
  | some declaration =>
    simp only [Option.bind_some, Option.map_some, Class.outline, List.getElem?_map, Option.map_map]
    rfl

/-- Without its body a method is its signature. -/
theorem Program.method?_dropBody (program : Program) (id : MethodId) :
    (program.dropBody id).method? id = (program.method? id).map Method.signature := by
  rw [dropBody, method?_modifyMethod, if_pos rfl]
  rfl

end Outlines

namespace Session

/-- What is foreseen is a matter of the classes that came in, and not of notes. -/
theorem Foreseen.elsewhere
    {before after : Session}
    (foreseen : base.Foreseen asked elements before)
    (same :
      ∃ program transformed journal, after = { before with program, transformed, journal })
    (reserved :
      ∀ name, base.Reserves elements name →
        after.program.class? name = before.program.class? name) :
    base.Foreseen asked elements after ∧ ∀ asset, after.Has asset ↔ before.Has asset := by
  have counters := reserved base.counters.className (.inl rfl)
  have wrapped element name (among : elements element)
      (named : Wrapper.nameFor? base.settings element = some name) :=
    reserved name (.inr ⟨element, among, named⟩)
  obtain ⟨program, transformed, journal, rfl⟩ := same
  have has (asset : Asset) :
      ({ before with program, transformed, journal } : Session).Has asset ↔ before.Has asset :=
    has_iff_of_same before { before with program, transformed, journal } rfl rfl rfl
      (foreseen.allots.books.labels.className ▸ counters) asset
  exact ⟨⟨foreseen.allots.elsewhere rfl rfl rfl rfl rfl rfl counters,
    foreseen.wraps.elsewhere (fun asset had => (has asset).2 had) rfl rfl wrapped,
    foreseen.settings⟩, has⟩

/-- Apart from bodies of classes that did not come in, and from notes, nothing changed. -/
structure Recasts
    (base : Session)
    (elements : Ty → Prop)
    (before after : Session) : Prop where
  same :
    ∃ program transformed journal, after = { before with program, transformed, journal }
  reserved :
    ∀ name, base.Reserves elements name →
      after.program.class? name = before.program.class? name
  outlines :
    ∀ name, ¬ base.Reserves elements name →
      (after.program.class? name).map Class.outline =
        (before.program.class? name).map Class.outline

section Recasting

variable {before after : Session}

/-- The body of a method may be exchanged. -/
theorem Recasts.modifyMethod
    {id : MethodId}
    (free : ¬ base.Reserves elements id.owner)
    (change : Method → Method)
    (keeps : ∀ method, (change method).signature = method.signature)
    (session : Session)
    (transformed : List MethodId) :
    base.Recasts elements session
      { session with program := session.program.modifyMethod id change, transformed } where
  same := ⟨_, _, _, rfl⟩
  reserved name reserves := by
    dsimp only
    rw [Program.class?_modifyMethod, if_neg (by rintro rfl; exact free reserves)]
  outlines name _ := by
    dsimp only
    rw [Program.class?_modifyMethod]
    split
    · rename_i isOwner
      rw [isOwner, Option.map_map]
      exact Option.map_congr fun declaration _ => declaration.outline_modify id.index keeps
    · rfl

theorem Recasts.dropBody
    {id : MethodId}
    (free : ¬ base.Reserves elements id.owner)
    (session : Session) :
    base.Recasts elements session { session with program := session.program.dropBody id } :=
  .modifyMethod free (fun method => { method with body := none }) (fun _ => rfl) session
    session.transformed

theorem Recasts.putBody
    {id : MethodId}
    (free : ¬ base.Reserves elements id.owner)
    (body : Body)
    (session : Session)
    (transformed : List MethodId) :
    base.Recasts elements session
      { session with
        program := session.program.modifyMethod id fun method => { method with body := some body }
        transformed } :=
  .modifyMethod free (fun method => { method with body := some body }) (fun _ => rfl) session
    transformed

/-- Notes may be added. -/
theorem Recasts.annotate (session : Session) (journal : Journal) :
    base.Recasts elements session { session with journal } :=
  ⟨⟨_, _, _, rfl⟩, fun _ _ => rfl, fun _ _ => rfl⟩

variable
    (foreseen : base.Foreseen asked elements before)
    (recasts : base.Recasts elements before after)
include foreseen recasts

theorem Recasts.onward : base.Onward asked elements before after where
  has asset := ((foreseen.elsewhere recasts.same recasts.reserved).2 asset).2
  profiles name _ := by
    obtain ⟨program, transformed, journal, rfl⟩ := recasts.same
    rfl
  outlines := recasts.outlines
  foreseen := (foreseen.elsewhere recasts.same recasts.reserved).1

theorem Recasts.has_iff (asset : Asset) : after.Has asset ↔ before.Has asset :=
  (foreseen.elsewhere recasts.same recasts.reserved).2 asset

end Recasting

/-- One body was worked on, and no other of classes that did not come in. -/
structure Works
    (base : Session)
    (asked : CounterOwner → Prop)
    (elements : Ty → Prop)
    (id : MethodId)
    (before after : Session) : Prop where
  onward : base.Onward asked elements before after
  others :
    ∀ other, ¬ base.Reserves elements other.owner → other ≠ id →
      after.program.body? other = before.program.body? other

/-- Both sessions see the body and can follow it. -/
def BothOpen
    (base : Session)
    (asked : CounterOwner → Prop)
    (elements : Ty → Prop)
    (first second : Session)
    (body : Body) : Prop :=
  base.BothSee elements first second body ∧ base.BothFollow asked elements first second body

theorem Carries.opens
    {after afterToo : Session}
    (carries : Carries first second after afterToo)
    {body : Body}
    (opens : base.BothOpen asked elements first second body) :
    base.BothOpen asked elements after afterToo body :=
  ⟨carries.sees opens.1, carries.follows opens.2⟩

end Session

namespace Pass

/-- A pass works on a body that both sessions can follow in the same way. -/
theorem onBody_tandem
    (foresees : base.Foresees asked elements)
    (countsInt : base.AsksType asked "int")
    {pass : Pass}
    (wanted : pass.isWanted base.settings)
    {id : MethodId}
    (free : ¬ base.Reserves elements id.owner)
    (asks : base.Asks asked elements first)
    {method : Method}
    (found : first.program.method? id = some method)
    (foundToo : second.program.method? id = some method)
    (written : method.isSynthetic = false)
    {body : Body}
    (follows : base.BothFollow asked elements first second body) :
    Draft.Tandem base asked elements first second body (pass.onBody id) (pass.onBody id)
      fun _ bodyAfter after afterToo =>
        pass ≠ .propagateArrays → base.BothFollow asked elements after afterToo bodyAfter := by
  unfold onBody
  refine .given fun paired _ => .session_bind ?_
  have sameRef : second.program.methodRef? id = first.program.methodRef? id := by
    rw [Program.methodRef?_eq_outline, Program.methodRef?_eq_outline, paired.outlines _ free]
  have sameName : second.program.qualifiedName id = first.program.qualifiedName id := by
    unfold Program.qualifiedName
    rw [sameRef]
  obtain ⟨declaration, there, listed⟩ := Option.bind_eq_some_iff.1 found
  have member := List.mem_of_getElem? listed
  dsimp only
  rw [sameName]
  cases pass with
  | instrument => exact .pure fun _ => follows
  | wrapSignatures => exact .pure fun _ => follows
  | patchConstructors =>
    exact (Draft.assignSerial_tandem follows countsInt _ _ free).mono fun _ _ _ _ _ kept _ => kept
  | profileTypes =>
    exact (Draft.countTypeAccesses_tandem foresees wanted asks follows _ _).mono
      fun _ _ _ _ _ kept _ => kept
  | countFields =>
    exact (Draft.countFieldAccesses_tandem follows _ _).mono fun _ _ _ _ _ kept _ => kept
  | trackCalls =>
    refine (Draft.countCalls_tandem foresees follows _ sameRef fun target refers => ?_).mono
      fun _ _ _ _ _ kept _ => kept
    rw [Program.methodRef?, there, Option.bind_some, listed, Option.map_some] at refers
    cases refers
    exact asks.calls wanted id.owner free declaration there method member written
  | propagateArrays =>
    refine (Draft.propagate_tandem foresees wanted _ id (foundToo.trans found.symm) sameName
      (fun other isOther => ?_) follows.lists follows.reads).mono fun _ _ _ _ _ _ differs =>
        absurd rfl differs
    cases found.symm.trans isOther
    exact paired.declared id.owner free declaration there method member _ List.mem_cons_self

/-- What one visit of a method does to its session: it is worked on, and the rest goes on. -/
theorem works_of_drafted
    {before between after : Session}
    {id : MethodId}
    (free : ¬ base.Reserves elements id.owner)
    {method : Method}
    (found : before.program.method? id = some method)
    (foreseen : base.Foreseen asked elements before)
    (onward :
      base.Onward asked elements { before with program := before.program.dropBody id } between)
    {assets : List Asset}
    (supplies :
      Supplies base elements { before with program := before.program.dropBody id } between assets)
    {bodyAfter : Body}
    {transformed : List MethodId}
    (puts :
      after =
        { between with
          program :=
            between.program.modifyMethod id fun method => { method with body := some bodyAfter }
          transformed }) :
    base.Works asked elements id before after ∧ before.Acquires after assets ∧
      after.program.body? id = some bodyAfter := by
  subst puts
  have takes := Recasts.dropBody free before
  have gives := Recasts.putBody free bodyAfter between transformed
  have bodies (other : MethodId) (freeOther : ¬ base.Reserves elements other.owner) :
      between.program.method? other = (before.program.dropBody id).method? other := by
    unfold Program.method?
    rw [supplies.others _ freeOther]
  refine ⟨⟨((takes.onward foreseen).trans onward).trans (gives.onward onward.foreseen),
    fun other freeOther differs => ?_⟩, fun asset => ?_, ?_⟩
  · unfold Program.body?
    dsimp only
    rw [Program.method?_modifyMethod, if_neg differs, bodies other freeOther, Program.dropBody,
      Program.method?_modifyMethod, if_neg differs]
  · rw [gives.has_iff onward.foreseen, supplies.acquires, takes.has_iff foreseen]
  · unfold Program.body?
    dsimp only
    rw [Program.method?_modifyMethod, if_pos rfl, bodies id free, Program.method?_dropBody, found]
    rfl

/-- In two sessions a method with the same body gets the same body, and the same comes in. -/
theorem onMethod_tandem
    (foresees : base.Foresees asked elements)
    (countsInt : base.AsksType asked "int")
    {pass : Pass}
    (wanted : pass.isWanted base.settings)
    {id : MethodId}
    (free : ¬ base.Reserves elements id.owner)
    (paired : base.Paired asked elements first second)
    (asks : base.Asks asked elements first)
    (written :
      ∀ method, first.program.method? id = some method → method.isSynthetic = false)
    (sameBody : second.program.body? id = first.program.body? id)
    (opens :
      ∀ body, first.program.body? id = some body →
        base.BothOpen asked elements first second body)
    {changed changedToo : Bool}
    {after afterToo : Session}
    (ends : Ends (pass.onMethod id) first (.ok changed) after)
    (endsToo : Ends (pass.onMethod id) second (.ok changedToo) afterToo) :
    base.Works asked elements id first after ∧ base.Works asked elements id second afterToo ∧
      (∃ assets, first.Acquires after assets ∧ second.Acquires afterToo assets) ∧
      afterToo.program.body? id = after.program.body? id ∧
      (pass ≠ .propagateArrays → ∀ body, after.program.body? id = some body →
        base.BothOpen asked elements after afterToo body) := by
  cases found : first.program.body? id with
  | none =>
    have idle {session last : Session} {done : Bool} (missing : session.program.body? id = none)
        (ends : Ends (pass.onMethod id) session (.ok done) last) : last = session := by
      unfold onMethod at ends
      rw [Ends.get_bind_iff, missing] at ends
      exact (Ends.pure_iff.1 ends).2
    have missingToo := sameBody.trans found
    obtain rfl := idle found ends
    obtain rfl := idle missingToo endsToo
    refine ⟨⟨.refl paired.foreseen, fun _ _ _ => rfl⟩, ⟨.refl paired.foreseenToo, fun _ _ _ => rfl⟩,
      ⟨[], .refl _, .refl _⟩, sameBody, fun _ body isBody => ?_⟩
    cases found.symm.trans isBody
  | some body =>
    have foundToo := sameBody.trans found
    obtain ⟨method, there, isBody⟩ := Option.bind_eq_some_iff.1 found
    obtain ⟨methodToo, thereToo, isBodyToo⟩ := Option.bind_eq_some_iff.1 foundToo
    have agree : methodToo.signature = method.signature := by
      have same := second.program.map_signature_method? id
      rw [paired.outlines _ free, ← first.program.map_signature_method? id, there, thereToo] at same
      exact Option.some.inj same
    obtain ⟨bodyAfter, between, drafted, marked⟩ := ends_onMethod found ends
    obtain ⟨bodyToo, betweenToo, draftedToo, markedToo⟩ := ends_onMethod foundToo endsToo
    obtain ⟨transformed, puts⟩ := ends_markTransformed marked
    obtain ⟨transformedToo, putsToo⟩ := ends_markTransformed markedToo
    have progress := Progress.of_onward ((Recasts.dropBody free first).onward paired.foreseen)
      ((Recasts.dropBody free second).onward paired.foreseenToo)
    have opened := progress.opens (opens body found)
    have bare : (first.program.dropBody id).method? id = some method.signature := by
      rw [Program.method?_dropBody, there, Option.map_some]
    have bareToo : (second.program.dropBody id).method? id = some method.signature := by
      rw [Program.method?_dropBody, thereToo, Option.map_some, agree]
    obtain ⟨-, rfl, advance, sees, follows⟩ :=
      onBody_tandem foresees countsInt wanted free (asks.onward progress.onward) bare bareToo
        (written method there) opened.2 (progress.paired paired) opened.1 changed bodyAfter between
        changedToo bodyToo betweenToo drafted draftedToo
    obtain ⟨assets, supplies, suppliesToo⟩ := advance.supplied
    obtain ⟨works, acquires, isAfter⟩ :=
      works_of_drafted free there paired.foreseen advance.onward supplies puts
    obtain ⟨worksToo, acquiresToo, isAfterToo⟩ :=
      works_of_drafted free thereToo paired.foreseenToo advance.onwardToo suppliesToo putsToo
    refine ⟨works, worksToo, ⟨assets, acquires, acquiresToo⟩, isAfterToo.trans isAfter.symm,
      fun differs other isOther => ?_⟩
    cases isAfter.symm.trans isOther
    have last := Progress.of_onward
      ((Recasts.putBody free bodyToo between transformed).onward advance.onward.foreseen)
      ((Recasts.putBody free bodyToo betweenToo transformedToo).onward advance.onwardToo.foreseen)
    rw [puts, putsToo]
    exact last.opens ⟨sees, follows differs⟩

/-! ## One pass over all methods -/

/-- On the way from one session to another a method is worked on: it has the body that it had, and what
becomes of it stays. -/
structure Visits
    (base : Session)
    (asked : CounterOwner → Prop)
    (elements : Ty → Prop)
    (pass : Pass)
    (start final : Session)
    (id : MethodId)
    (before after : Session) : Prop where
  reached : base.Onward asked elements start before
  untouched : before.program.body? id = start.program.body? id
  ends : ∃ changed, Ends (pass.onMethod id) before (.ok changed) after
  onward : base.Onward asked elements after final
  settled : final.program.body? id = after.program.body? id

/-- Every method of a list is visited once, no other body changes, and whatever came in did so while some
method was visited. -/
theorem visits_of_mapM
    {pass : Pass}
    {start : Session}
    {methods : List MethodId}
    (step :
      ∀ id ∈ methods, ∀ before after changed, base.Onward asked elements start before →
        before.program.body? id = start.program.body? id →
          Ends (pass.onMethod id) before (.ok changed) after →
            base.Works asked elements id before after)
    (free : ∀ id ∈ methods, ¬ base.Reserves elements id.owner)
    (distinct : methods.Nodup)
    {now final : Session}
    {results : List (Except Error Bool)}
    (reached : base.Onward asked elements start now)
    (untouched : ∀ id ∈ methods, now.program.body? id = start.program.body? id)
    (ends : Ends (methods.mapM pass.onMethod) now results final)
    (ok : ∀ result ∈ results, ∃ done, result = .ok done) :
    base.Onward asked elements now final ∧
      (∀ id ∈ methods, ∃ before after,
        Visits base asked elements pass start final id before after) ∧
      (∀ other, ¬ base.Reserves elements other.owner → other ∉ methods →
        final.program.body? other = now.program.body? other) ∧
      ∀ asset, final.Has asset → now.Has asset ∨
        ∃ id ∈ methods, ∃ before after,
          Visits base asked elements pass start final id before after ∧
            ¬ before.Has asset ∧ after.Has asset := by
  induction methods generalizing now results with
  | nil =>
    obtain ⟨-, rfl⟩ := Ends.pure_iff.1 ends
    exact ⟨.refl reached.foreseen, nofun, fun _ _ _ => rfl, fun asset had => .inl had⟩
  | cons id rest hypothesis =>
    rw [List.mapM_cons] at ends
    obtain ⟨result, next, endsHead, endsRest⟩ := Ends.bind_iff.1 ends
    obtain ⟨others, last, endsTail, returns⟩ := Ends.bind_iff.1 endsRest
    obtain ⟨rfl, rfl⟩ := Ends.pure_iff.1 returns
    obtain ⟨changed, rfl⟩ := ok result List.mem_cons_self
    obtain ⟨fresh, distinctRest⟩ := List.nodup_cons.1 distinct
    have untouchedHead := untouched id List.mem_cons_self
    have works := step id List.mem_cons_self now next changed reached untouchedHead endsHead
    have freeRest other (member : other ∈ rest) := free other (List.mem_cons_of_mem _ member)
    have differs {other : MethodId} (member : other ∈ rest) : other ≠ id := by
      rintro rfl
      exact fresh member
    obtain ⟨onward, visits, kept, came⟩ := hypothesis
      (fun other member => step other (List.mem_cons_of_mem _ member)) freeRest distinctRest
      (reached.trans works.onward)
      (fun other member => (works.others other (freeRest other member) (differs member)).trans
        (untouched other (List.mem_cons_of_mem _ member)))
      endsTail fun other member => ok other (List.mem_cons_of_mem _ member)
    have visitsHead : Visits base asked elements pass start final id now next :=
      ⟨reached, untouchedHead, ⟨changed, endsHead⟩, onward,
        kept id (free id List.mem_cons_self) fresh⟩
    refine ⟨works.onward.trans onward, ?_, fun other freeOther absent => ?_, fun asset had => ?_⟩
    · refine List.forall_mem_cons.2 ⟨⟨now, next, visitsHead⟩, visits⟩
    · rw [List.mem_cons, not_or] at absent
      exact (kept other freeOther absent.2).trans (works.others other freeOther absent.1)
    · by_cases before : now.Has asset
      · exact .inl before
      · refine .inr ?_
        rcases came asset had with there | ⟨other, member, visit⟩
        · exact ⟨id, List.mem_cons_self, now, next, visitsHead, before, there⟩
        · exact ⟨other, List.mem_cons_of_mem _ member, visit⟩

end Pass

namespace Session

/-- The two sessions have the same, and they agree on all classes that did not come in. -/
structure Alike
    (base : Session)
    (asked : CounterOwner → Prop)
    (elements : Ty → Prop)
    (first second : Session) : Prop where
  paired : base.Paired asked elements first second
  has : ∀ asset, second.Has asset ↔ first.Has asset
  classes :
    ∀ name, ¬ base.Reserves elements name →
      second.program.class? name = first.program.class? name
  asks : base.Asks asked elements first

/-- Both sessions can follow all bodies that were written by hand. -/
def AllOpen
    (base : Session)
    (asked : CounterOwner → Prop)
    (elements : Ty → Prop)
    (first second : Session) : Prop :=
  ∀ id method body, ¬ base.Reserves elements id.owner → first.program.method? id = some method →
    method.isSynthetic = false → method.body = some body →
      base.BothOpen asked elements first second body

/-- A class that is transformed is none that comes in. -/
theorem Foreseen.free_of_isTransformableClass
    (foreseen : base.Foreseen asked elements first)
    {name : String}
    (transformable : first.isTransformableClass name) :
    ¬ base.Reserves elements name := by
  rintro (rfl | ⟨element, among, named⟩)
  · rw [foreseen.isTransformableClass_counters] at transformable
    cases transformable
  · cases known : first.wrappers.get? name with
    | some wrapper => simp [isTransformableClass, isWrapper, known] at transformable
    | none =>
      have vacant := (foreseen.wraps.vacant element name among named known).1
      simp [isTransformableClass, vacant] at transformable

/-- The same methods, apart from bodies, have the same flags. -/
theorem Onward.method?_eq_some
    {before after : Session}
    (onward : base.Onward asked elements before after)
    {id : MethodId}
    (free : ¬ base.Reserves elements id.owner)
    {method : Method}
    (found : after.program.method? id = some method) :
    ∃ old, before.program.method? id = some old ∧ method.signature = old.signature := by
  have same := after.program.map_signature_method? id
  rw [onward.outlines _ free, ← before.program.map_signature_method? id, found] at same
  obtain ⟨old, there, agrees⟩ := Option.map_eq_some_iff.1 same.symm
  exact ⟨old, there, agrees.symm⟩

/-- Classes that agree apart from bodies, and in all bodies, are the same. -/
theorem class?_eq_of_bodies
    {name : String}
    (outlines :
      (second.program.class? name).map Class.outline = (first.program.class? name).map Class.outline)
    (bodies : ∀ index, second.program.body? ⟨name, index⟩ = first.program.body? ⟨name, index⟩) :
    second.program.class? name = first.program.class? name := by
  have located (session : Session) (index : Nat) :
      session.program.body? ⟨name, index⟩ =
        (session.program.class? name).bind fun declaration =>
          declaration.methods[index]?.bind Method.body := by
    unfold Program.body? Program.method?
    rw [Option.bind_assoc]
  cases found : first.program.class? name with
  | none =>
    rw [found] at outlines
    exact Option.map_eq_none_iff.1 outlines
  | some declaration =>
    rw [found, Option.map_some] at outlines
    obtain ⟨declarationToo, foundToo, same⟩ := Option.map_eq_some_iff.1 outlines
    rw [foundToo]
    have methods : declarationToo.methods = declaration.methods := by
      refine List.ext_getElem? fun index => ?_
      have sameBody := bodies index
      rw [located, located, found, foundToo, Option.bind_some, Option.bind_some] at sameBody
      have listed := congrArg (·[index]?) (congrArg Class.methods same)
      simp only [Class.outline, List.getElem?_map] at listed
      cases there : declaration.methods[index]? with
      | none =>
        rw [there] at listed
        exact Option.map_eq_none_iff.1 listed
      | some method =>
        rw [there, Option.map_some] at listed
        obtain ⟨methodToo, thereToo, agrees⟩ := Option.map_eq_some_iff.1 listed
        rw [there, thereToo, Option.bind_some, Option.bind_some] at sameBody
        rw [thereToo]
        cases method
        cases methodToo
        simp only [Method.signature, Method.mk.injEq] at agrees sameBody
        simp [agrees, sameBody]
    cases declaration
    cases declarationToo
    simp only [Class.outline, Class.mk.injEq] at same methods
    simp [same, methods]

end Session
end AccessProfiler
