import AccessProfiler.Proofs.CountedMembers
import AccessProfiler.Proofs.InsertedRules
import AccessProfiler.Proofs.Preservation

/-!
# Counting keeps programs acceptable

A program that the checker accepts is accepted with counting as well
(`transformProgram_accepted`).  Everything that the original program names is declared as before
(`Session.Completes.covers`), what was inserted names members that were added under names that are free,
and a call that counts an access to a field is made on an object that stands below the class that
declares the field.
-/

namespace AccessProfiler

/-- Counting can be inserted into the program: names are apart, the classes that the checker and machines
treat apart are not registered, and constructors bind their receiver. -/
structure Program.Insertable (settings : Settings) (program : Program) : Prop where
  apart : program.NamesApart settings.counterClassName
  root : program.class? objectClass = none
  ofArrays : ∀ name ∈ Program.arrayInterfaces, program.class? name = none
  sinkFree : program.class? settings.sink.owner = none
  sinkApart : settings.sink.owner ≠ settings.counterClassName
  receive : program.ConstructorsReceive settings

/-- With counting inserted the program is still accepted: classes are registered under their own names,
and the root class keeps the methods that it is known to have, the sink method among them if it is one
of the root class. -/
structure Program.Extensible (settings : Settings) (program : Program) : Prop
    extends program.Insertable settings where
  wellNamed : program.WellNamed
  rootApart : settings.counterClassName ≠ objectClass
  sinkKnown : settings.sink.owner = objectClass → rootMethods.contains settings.sink.method

instance (settings : Settings) (program : Program) : Decidable (program.Insertable settings) :=
  decidable_of_iff
    (program.NamesApart settings.counterClassName ∧ program.class? objectClass = none ∧
      (∀ name ∈ Program.arrayInterfaces, program.class? name = none) ∧
      program.class? settings.sink.owner = none ∧
      settings.sink.owner ≠ settings.counterClassName ∧ program.ConstructorsReceive settings)
    ⟨fun ⟨apart, root, ofArrays, sinkFree, sinkApart, receive⟩ =>
        ⟨apart, root, ofArrays, sinkFree, sinkApart, receive⟩,
      fun insertable =>
        ⟨insertable.apart, insertable.root, insertable.ofArrays, insertable.sinkFree,
          insertable.sinkApart, insertable.receive⟩⟩

instance (settings : Settings) (program : Program) : Decidable (program.Extensible settings) :=
  decidable_of_iff
    (program.Insertable settings ∧ program.WellNamed ∧
      settings.counterClassName ≠ objectClass ∧
      (settings.sink.owner = objectClass → rootMethods.contains settings.sink.method))
    ⟨fun ⟨insertable, wellNamed, rootApart, sinkKnown⟩ =>
        ⟨insertable, wellNamed, rootApart, sinkKnown⟩,
      fun extensible =>
        ⟨extensible.toInsertable, extensible.wellNamed, extensible.rootApart, extensible.sinkKnown⟩⟩

namespace Program.Extensible

variable {settings : Settings} {program : Program} (extensible : program.Extensible settings)
include extensible

/-- The class that declares a field of a class is that class or above it. -/
theorem declaringClass_mem_ancestors (profiles : Table String Profile) (field : FieldRef) :
    (Session.withProfiles settings program profiles).declaringClass field ∈
      program.ancestors field.owner := by
  have same : (Session.withProfiles settings program profiles).program = program := rfl
  rw [Session.declaringClass, same]
  cases resolved : program.resolveField? field.owner field.name with
  | none => exact mem_above_of_mem (List.mem_singleton_self _)
  | some declared =>
    obtain ⟨ancestor, member, declares⟩ := List.exists_of_findSome?_eq_some resolved
    obtain ⟨declaration, found, located⟩ := Option.bind_eq_some_iff.1 declares
    obtain ⟨_, -, rfl⟩ := Option.map_eq_some_iff.1 located
    show declaration.name ∈ _
    rw [extensible.wellNamed.name_eq found]
    exact mem_ancestors_of_mem_chain member

/-- Where an object of a type may be accessed as one of a class, it is one of every class above that is
registered. -/
theorem isAssignable_above
    {type : Ty}
    {owner upper : String}
    (assignable : program.isAssignable type (.object owner))
    (above : upper ∈ program.ancestors owner)
    (registered : (program.class? upper).isSome) :
    program.isAssignable type (.object upper) := by
  -- Nothing is registered above a class that is not, not even the class itself.
  have free (unregistered : program.class? owner = none) : False := by
    rw [ancestors_of_unregistered unregistered] at above
    rw [List.mem_singleton.1 above, unregistered] at registered
    cases registered
  cases type with
  | object lower =>
    simp only [isAssignable, isSubclass, Bool.or_eq_true, beq_iff_eq, Ty.object.injEq,
      List.contains_iff_mem] at assignable ⊢
    rcases assignable with rfl | rfl | below
    · exact .inr (.inr above)
    · exact (free extensible.root).elim
    · refine .inr (.inr (mem_above_trans ?_ above))
      exact fun _ member => (List.mem_singleton.1 member).symm ▸ below
  | array element =>
    simp only [isAssignable, Bool.or_eq_true, beq_iff_eq, List.contains_iff_mem, reduceCtorEq,
      false_or] at assignable
    rcases assignable with rfl | ofArrays
    · exact (free extensible.root).elim
    · exact (free (extensible.ofArrays owner ofArrays)).elim
  | null => rfl
  | _ =>
    simp [isAssignable, Ty.isIntLike] at assignable

end Program.Extensible

namespace Session.Completes

variable {settings : Settings} {program : Program} {session : Session}

section Rules

variable
    (extensible : program.Extensible settings)
    (completes : session.Completes settings program)
include extensible completes

theorem trustsSink :
    session.program.TrustsSink settings.sink where
  free := completes.furnishes.furnished.class?_eq_none extensible.sinkApart extensible.sinkFree
  known := extensible.sinkKnown

/-- Around a body at least as much is declared as before. -/
theorem covers
    {name : String}
    {method current : Method}
    {body bodyAfter : Body}
    (signature : current.signature = method.signature)
    (types :
      ∀ id type, body.localType? id = some type → bodyAfter.localType? id = some type) :
    CheckedBody.Covers settings.counterClassName ⟨program, name, method, body⟩
      ⟨session.program, name, current, bodyAfter⟩ := by
  have furnished := completes.furnishes.furnished
  have parts := Method.mk.inj signature
  exact
    { owner := rfl
      parameters := parts.2.1
      result := parts.2.2.1
      isStatic := by rw [Method.isStatic, Method.isStatic, parts.2.2.2.1]
      types := types
      agrees := fun _ _ => furnished.isAssignable_mono extensible.apart
      interfaces := fun _ => furnished.isInterface_eq
      fields := fun field plain => by
        have agrees := furnished.lookup_agrees extensible.apart (fun left right => right = left)
          (fun declaration =>
            (declaration.field? field.name).map fun found => found.reference declaration.name)
          plain.1 fun name declaration changed notCounter found located => by
            obtain ⟨other, locatedOther, tallied⟩ := furnished.class?_eq_some notCounter found
            rw [located] at locatedOther
            cases locatedOther
            have named : changed.name = declaration.name := tallied.name_eq
            rw [furnished.field?_eq notCounter found located plain.2, named]
            cases (declaration.field? field.name).map fun found => found.reference declaration.name with
            | none => exact .none
            | some reference => exact .some rfl
        rw [CheckedBody.fieldFaults, CheckedBody.fieldFaults]
        dsimp only
        rw [agrees.eq]
      methods := fun target plain => by
        have agrees := furnished.lookup_agrees extensible.apart
          (fun method current : Method => current.signature = method.signature)
          (fun declaration => declaration.method? target.method.name target.method.parameters)
          plain.1 fun name declaration changed notCounter found located => by
            obtain ⟨other, locatedOther, tallied⟩ := furnished.class?_eq_some notCounter found
            rw [located] at locatedOther
            cases locatedOther
            refine tallied.method?_rel (fun profile _ added member same => ?_) _
            refine plain.2 (same ▸ ?_)
            simp only [Profile.methods, List.mem_cons, List.not_mem_nil, or_false] at member
            rcases member with rfl | rfl
            · exact .inl rfl
            · exact .inr rfl
        have root : session.program.contains objectClass = program.contains objectClass := by
          rw [Program.contains, Program.contains, extensible.root,
            furnished.class?_eq_none (Ne.symm extensible.rootApart) extensible.root]
        rw [CheckedBody.methodFaults, CheckedBody.methodFaults]
        dsimp only
        rw [root]
        revert agrees
        generalize program.lookup target.method.owner
          (fun declaration => declaration.method? target.method.name target.method.parameters) = before
        generalize session.program.lookup target.method.owner
          (fun declaration => declaration.method? target.method.name target.method.parameters) = after
        intro agrees
        cases agrees with
        | found same =>
          have parts := Method.mk.inj same
          simp only [Method.isStatic, parts.2.2.1, parts.2.2.2.1]
        | missing => rfl
        | unknown => rfl }

variable {checked : CheckedBody} (same : checked.program = session.program)
include same

omit extensible in
/-- A call that counts on a static counter keeps the rules. -/
theorem keeps_tally
    {call : Instruction}
    (tallies : session.program.Tally settings.counterClassName call) :
    checked.Keeps call := by
  obtain ⟨name, offered, rfl⟩ := tallies
  obtain ⟨method, declares, result, static⟩ := completes.declaredMethod?_tally offered
  refine CheckedBody.keeps_call rfl (fun _ none => nomatch none) rfl ?_
  exact CheckedBody.methodFaults_of_declared (same ▸ declares) result static

/-- The block that assigns the serial number keeps the rules. -/
theorem keeps_serialAssignment
    {name : String}
    {profile : Profile}
    {this count : LocalId}
    {instruction : Instruction}
    (known : session.profiles.get? name = some profile)
    (receives : checked.body.localType? this = some (.object name))
    (number : checked.body.localType? count = some .int)
    (member : instruction ∈ profile.serialAssignment settings.sink this count) :
    checked.Keeps instruction := by
  obtain ⟨field, counted, rfl⟩ := completes.furnishes.ledger.profiles name profile known
  obtain ⟨declared, typed, static⟩ := completes.declaredField?_counter counted
  have serial := completes.declaredField?_profile extensible.apart extensible.wellNamed known
    (by decide : isInstrumentationName serialField)
  rw [← same] at declared serial
  simp only [Profile.serialAssignment, List.mem_cons, List.not_mem_nil, or_false] at member
  rcases member with rfl | rfl | rfl | rfl | rfl
  · exact CheckedBody.keeps_readTally number typed static declared
  · exact CheckedBody.keeps_increment number
  · exact CheckedBody.keeps_writeCount receives number rfl rfl serial
  · exact CheckedBody.keeps_writeTally number typed static declared
  · exact CheckedBody.keeps_report (same ▸ completes.trustsSink extensible) number

omit same in
/-- The methods that count accesses keep the rules. -/
theorem keeps_incrementor
    {name : String}
    {profile : Profile}
    {added current : Method}
    {body : Body}
    {instruction : Instruction}
    (known : session.profiles.get? name = some profile)
    (member : added ∈ profile.methods settings.sink)
    (tallied : added.Tallied (session.program.Tally settings.counterClassName) current)
    (given : current.body = some body)
    (among : instruction ∈ body.instructions) :
    CheckedBody.Keeps ⟨session.program, name, current, body⟩ instruction := by
  obtain ⟨field, counted, rfl⟩ := completes.furnishes.ledger.profiles name profile known
  have parts := Method.mk.inj tallied.signature
  have incrementing :
      ∃ given counts, isInstrumentationName counts ∧
        added =
          Profile.incrementorMethod settings.sink name given (.ofInstance name counts .int)
            (.ofInstance name serialField .int) := by
    simp only [Profile.methods, List.mem_cons, List.not_mem_nil, or_false] at member
    rcases member with rfl | rfl
    · exact ⟨readIncrementor, readsField, by decide, rfl⟩
    · exact ⟨writeIncrementor, writesField, by decide, rfl⟩
  obtain ⟨incrementor, counts, instruments, rfl⟩ := incrementing
  have unmarked : Method.synthetic.includes Method.static = false := by decide
  have bodies := tallied.body
  rw [given] at bodies
  cases bodies with
  | some related =>
    let checked : CheckedBody := ⟨session.program, name, current, body⟩
    have locals (id : LocalId) :
        checked.body.localType? id =
          Body.localType?
            (Profile.incrementorBody settings.sink name (.ofInstance name counts .int)
              (.ofInstance name serialField .int)) id := by
      show Body.localType? body id = _
      rw [Body.localType?, Body.local?, related.locals]
      rfl
    have receives : checked.body.localType? ⟨0⟩ = some (.object name) := locals _
    have count : checked.body.localType? ⟨1⟩ = some .int := locals _
    have id : checked.body.localType? ⟨2⟩ = some .int := locals _
    have declared := completes.declaredField?_profile extensible.apart extensible.wellNamed known
      instruments
    have serial := completes.declaredField?_profile extensible.apart extensible.wellNamed known
      (by decide : isInstrumentationName serialField)
    have trusts := completes.trustsSink extensible
    rcases related.instructions.mem_or_tally among with old | tallies
    · simp only [Profile.incrementorBody, List.mem_cons, List.not_mem_nil, or_false] at old
      rcases old with rfl | rfl | rfl | rfl | rfl | rfl | rfl | rfl
      · refine CheckedBody.keeps_bindReceiver ?_ receives
        rw [Method.isStatic, parts.2.2.2.1]
        exact unmarked
      · exact CheckedBody.keeps_readCount receives count rfl rfl declared
      · exact CheckedBody.keeps_increment count
      · exact CheckedBody.keeps_writeCount receives count rfl rfl declared
      · exact CheckedBody.keeps_readCount receives id rfl rfl serial
      · exact CheckedBody.keeps_report trusts id
      · exact CheckedBody.keeps_report trusts count
      · exact CheckedBody.keeps_return parts.2.2.1
    · exact completes.keeps_tally rfl tallies

omit same in
/-- A call that counts an access keeps the rules if the access did. -/
theorem keeps_countingCall
    {name : String}
    {method current : Method}
    {body bodyAfter : Body}
    {instruction call : Instruction}
    (types :
      ∀ id type, body.localType? id = some type → bodyAfter.localType? id = some type)
    (kept : CheckedBody.Keeps ⟨program, name, method, body⟩ instruction)
    (member :
      call ∈ FieldCount.calls (withProfiles settings program session.profiles) instruction) :
    CheckedBody.Keeps ⟨session.program, name, current, bodyAfter⟩ call := by
  obtain ⟨base, field, profile, access, among, known, rfl⟩ := FieldCount.exists_of_mem_calls member
  have above := extensible.declaringClass_mem_ancestors session.profiles field
  generalize (withProfiles settings program session.profiles).declaringClass field = declaring
    at known above
  have known : session.profiles.get? declaring = some profile := known
  obtain ⟨type, typed, assignable⟩ := CheckedBody.assignable_of_keeps kept among
  have registered : (program.class? declaring).isSome := by
    obtain ⟨declaration, found, -⟩ :=
      class?_of_isTransformableClass (completes.furnishes.profiled _ _ known)
    rw [found]
    rfl
  have below : program.isAssignable type (.object declaring) :=
    extensible.isAssignable_above assignable above registered
  obtain ⟨counter, -, rfl⟩ := completes.furnishes.ledger.profiles _ _ known
  let checked : CheckedBody := ⟨session.program, name, current, bodyAfter⟩
  have receives : checked.body.localType? base = some type := types _ _ typed
  have agrees : checked.agrees type (.object declaring) :=
    completes.furnishes.furnished.isAssignable_mono extensible.apart below
  have calls
      (given : String)
      (listed :
        ∃ added ∈ (Profile.ofClass declaring counter).methods settings.sink, added.name = given) :
      checked.Keeps (.invoke ⟨.virtual, ⟨declaring, given, [], .void⟩, some base, []⟩) := by
    obtain ⟨added, listed, rfl⟩ := listed
    obtain ⟨method, declares, related⟩ := completes.declaredMethod?_profile extensible.apart known listed
    have parts := Method.mk.inj related.signature
    have unmarked : Method.synthetic.includes Method.static = false := by decide
    have shape : added.result = .void ∧ added.flags = Method.synthetic := by
      simp only [Profile.methods, List.mem_cons, List.not_mem_nil, or_false] at listed
      rcases listed with rfl | rfl <;> exact ⟨rfl, rfl⟩
    refine CheckedBody.keeps_call rfl ?_ ?_ ?_
    · intro id same
      cases same
      exact CheckedBody.declares_of_localType? receives
    · simp only [CheckedBody.receiverFaults]
      rw [receives]
      simp [CheckedBody.reportIf, agrees]
    · refine CheckedBody.methodFaults_of_declared declares (parts.2.2.1.trans shape.1) ?_
      rw [Method.isStatic, parts.2.2.2.1, shape.2]
      exact unmarked
  cases access with
  | read => exact calls readIncrementor ⟨_, List.mem_cons_self, rfl⟩
  | write => exact calls writeIncrementor ⟨_, List.mem_cons_of_mem _ List.mem_cons_self, rfl⟩

omit same in
/-- Every instruction of a planned body keeps the rules if the original ones did. -/
theorem keeps_planned
    {id : MethodId}
    {method current : Method}
    {body bodyAfter : Body}
    {instruction : Instruction}
    (has : program.method? id = some method)
    (given : method.body = some body)
    (signature : current.signature = method.signature)
    (accepted :
      ∀ instruction ∈ body.instructions,
        CheckedBody.Keeps ⟨program, id.owner, method, body⟩ instruction)
    (locals :
      bodyAfter.locals =
        (((withProfiles settings program session.profiles).counting (counts settings program)) id
          body).locals)
    (member :
      instruction ∈
        (((withProfiles settings program session.profiles).counting (counts settings program)) id
          body).instructions) :
    CheckedBody.Keeps ⟨session.program, id.owner, current, bodyAfter⟩ instruction := by
  let reference := withProfiles settings program session.profiles
  have longer : bodyAfter.locals = (reference.patching id body).locals := by
    rw [locals, counting, Plan.choose]
    split <;> rfl
  have types : ∀ id type, body.localType? id = some type → bodyAfter.localType? id = some type := by
    intro source type found
    have kept := reference.localType?_patching id found
    rw [Body.localType?, Body.local?] at kept ⊢
    rw [longer]
    exact kept
  have there : program.body? id = some body := Option.bind_eq_some_iff.2 ⟨method, has, given⟩
  have plain := Program.mem_bodies_of_body? there
  have kept {old : Instruction} (listed : old ∈ (reference.patching id body).instructions) :
      CheckedBody.Keeps ⟨session.program, id.owner, current, bodyAfter⟩ old := by
    rcases mem_patching listed with
      original | ⟨profile, this, declaration, patches, known, received, counts, appended, block⟩
    · exact (completes.covers extensible signature types).keeps
        (extensible.apart.instruction_plain plain original) (accepted old original)
    · have known : session.profiles.get? id.owner = some profile := known
      have constructs : method.isConstructor = true := by
        have kinds := (Bool.and_eq_true_iff.1 patches).2
        have kinds : ((program.method? id).any fun method =>
            method.isConstructor && !method.isSynthetic) = true := kinds
        rw [has, Option.any_some, Bool.and_eq_true] at kinds
        exact kinds.1
      have start := completes.furnishes.profiled _ _ known
      rw [completes.settings] at start
      obtain ⟨bound, same, typed⟩ :=
        extensible.receive.receiver?_eq_some start has constructs given
      rw [received] at same
      cases same
      have number :
          bodyAfter.localType? ⟨body.locals.length⟩ = some .int := by
        rw [Body.localType?, Body.local?, longer, appended]
        simp [counts]
      exact completes.keeps_serialAssignment extensible rfl known (types _ _ typed) number block
  rw [counting, Plan.choose] at member
  split at member
  · obtain ⟨old, listed, among⟩ := List.mem_flatMap.1 member
    rcases List.mem_append.1 among with call | same
    · rcases mem_patching listed with original | ⟨profile, _, _, -, known, -, -, -, block⟩
      · exact completes.keeps_countingCall extensible types (accepted old original) call
      · obtain ⟨field, -, rfl⟩ := completes.furnishes.ledger.profiles _ _ known
        rw [FieldCount.calls_of_silent (Profile.serialAssignment_silent block)] at call
        cases call
    · exact List.mem_singleton.1 same ▸ kept listed
  · exact kept member

omit same in
/-- A class keeps its members apart, and its bodies keep the rules. -/
theorem accepts
    {name : String}
    {declaration changed : Class}
    (differs : name ≠ settings.counterClassName)
    (found : program.class? name = some declaration)
    (located : session.program.class? name = some changed)
    (accepted : program.Accepts name declaration) :
    session.program.Accepts name changed := by
  obtain ⟨other, locatedOther, tallied⟩ := completes.furnishes.furnished.class?_eq_some differs found
  rw [located] at locatedOther
  cases locatedOther
  refine ⟨?_, ?_, ?_⟩
  · rw [tallied.fields_eq, Class.furnish, List.map_append, List.nodup_append]
    refine ⟨accepted.fields, ?_, ?_⟩
    · cases session.profiles.get? name with
      | none => exact List.nodup_nil
      | some profile =>
        show (Profile.fields.map Field.name).Nodup
        decide
    · intro old memberOld new memberNew same
      obtain ⟨field, listed, rfl⟩ := List.mem_map.1 memberOld
      have plain := extensible.apart.field_plain found listed
      obtain ⟨added, among, rfl⟩ := List.mem_map.1 memberNew
      cases known : session.profiles.get? name with
      | none =>
        rw [known] at among
        cases among
      | some profile =>
        rw [known] at among
        have instruments : ∀ field ∈ Profile.fields, isInstrumentationName field.name := by decide
        rw [same, instruments added among] at plain
        cases plain
  · let key (method : Method) : String × List Ty := (method.name, method.parameters)
    have keyed {method current : Method} (same : current.signature = method.signature) :
        key method = key current := by
      have parts := Method.mk.inj same
      simp only [key, parts.1, parts.2.1]
    have current := map_eq_of_forall₂
      (fun (exact current : Method)
          (related : exact.Tallied (session.program.Tally settings.counterClassName) current) =>
        keyed related.signature)
      tallied.methods
    have planned := map_eq_of_forall₂
      (fun (method planned : Method) (same : planned.signature = method.signature) => keyed same)
      (declaration.plannedMethods_related fun index =>
        ((withProfiles settings program session.profiles).counting (counts settings program))
          ⟨name, index⟩)
    show (changed.methods.map key).Nodup
    rw [← current, Class.furnish, List.map_append, ← planned, List.nodup_append]
    refine ⟨accepted.methods, ?_, ?_⟩
    · cases session.profiles.get? name with
      | none => exact List.nodup_nil
      | some profile =>
        have other : readIncrementor ≠ writeIncrementor := by decide
        simp [Profile.methods, Profile.incrementorMethod, key, other]
    · intro old memberOld new memberNew same
      obtain ⟨method, listed, rfl⟩ := List.mem_map.1 memberOld
      obtain ⟨added, among, rfl⟩ := List.mem_map.1 memberNew
      have named : method.name = added.name := congrArg Prod.fst same
      refine extensible.apart.method_plain found listed ?_
      rw [named]
      cases known : session.profiles.get? name with
      | none =>
        rw [known] at among
        cases among
      | some profile =>
        rw [known] at among
        simp only [Option.elim_some, Profile.methods, List.mem_cons, List.not_mem_nil, or_false]
          at among
        rcases among with rfl | rfl
        · exact .inl rfl
        · exact .inr rfl
  · intro method member body given instruction among
    obtain ⟨index, there⟩ := List.getElem?_of_mem member
    rcases tallied.cases_getElem?_methods there with
      ⟨original, locatedOriginal, related⟩ | ⟨profile, known, added, listed, related⟩
    · have has : program.method? ⟨name, index⟩ = some original :=
        Option.bind_eq_some_iff.2 ⟨declaration, found, locatedOriginal⟩
      have signature : method.signature = original.signature := related.signature
      have bodies := related.body
      rw [given] at bodies
      cases originally : original.body with
      | none =>
        rw [originally] at bodies
        cases bodies
      | some originalBody =>
        rw [originally] at bodies
        cases bodies with
        | some relatedBody =>
          rcases relatedBody.instructions.mem_or_tally among with planned | tallies
          · exact completes.keeps_planned extensible has originally signature
              (accepted.bodies original (List.mem_of_getElem? locatedOriginal) originalBody originally)
              relatedBody.locals planned
          · exact completes.keeps_tally rfl tallies
    · exact completes.keeps_incrementor extensible known listed related given among

omit same in
/-- The class of the counters keeps its members apart, and its bodies keep the rules. -/
theorem accepts_counter
    {declaration : Class}
    (found : session.program.class? settings.counterClassName = some declaration) :
    session.program.Accepts settings.counterClassName declaration := by
  have holds := completes.furnishes.ledger.holds declaration found
  refine ⟨holds.distinctFields, ?_, ?_⟩
  · refine List.Nodup.of_map Prod.fst ?_
    rw [List.map_map]
    exact holds.distinctMethods
  · intro method member body given instruction among
    obtain ⟨key, label, owner, field, -, known, rfl⟩ := holds.methods method member
    cases given
    obtain ⟨declared, typed, static⟩ := completes.declaredField?_counter known
    let checked : CheckedBody :=
      ⟨session.program, settings.counterClassName, tallyMethod settings.sink key label field,
        Profile.staticIncrementorBody settings.sink label field⟩
    have count : checked.body.localType? ⟨0⟩ = some .int := rfl
    simp only [Profile.staticIncrementorBody, List.mem_cons, List.not_mem_nil, or_false] at among
    rcases among with rfl | rfl | rfl | rfl | rfl
    · exact CheckedBody.keeps_readTally count typed static declared
    · exact CheckedBody.keeps_increment count
    · exact CheckedBody.keeps_writeTally count typed static declared
    · exact CheckedBody.keeps_report (completes.trustsSink extensible) count
    · exact CheckedBody.keeps_return rfl

omit same in
/-- The program with counting is accepted. -/
theorem violations_eq_nil (accepted : program.violations (some settings) = []) :
    session.program.violations (some settings) = [] := by
  rw [Program.violations_eq_nil_iff] at accepted ⊢
  intro name changed located application included
  by_cases here : name = settings.counterClassName
  · subst here
    exact completes.accepts_counter extensible located
  · obtain ⟨declaration, found, tallied⟩ :=
      completes.furnishes.furnished.class?_of_current here located
    have parts := Class.mk.inj tallied.shape
    simp only [Class.furnish] at parts
    refine completes.accepts extensible here found located
      (accepted name declaration found ?_ included)
    rw [Class.isApplication, ← parts.2.2.2.1]
    exact application

end Rules
end Session.Completes

/-- A program that the checker accepts can be transformed, and is accepted afterwards. -/
theorem transformProgram_accepted
    {settings : Settings}
    {program : Program}
    (arraysOff : settings.arrays = false)
    (extensible : program.Extensible settings)
    (accepted : program.violations (some settings) = []) :
    (transformProgram program settings).1 = .ok () ∧
      (transformProgram program settings).2.program.violations (some settings) = [] := by
  obtain ⟨changed, after, runs, completes⟩ :=
    (Pass.runAll_completes arraysOff extensible.apart extensible.wellNamed).succeeds
      extensible.receive
  have faultless := completes.violations_eq_nil extensible accepted
  have ends : Ends Transform.pipeline (.start settings program) () after := by
    unfold Transform.pipeline
    refine Ends.get_bind_iff.2 (Ends.bind_iff.2 ⟨changed, after, runs, ?_⟩)
    split
    · unfold Transform.checkProgram
      refine Ends.get_bind_iff.2 ?_
      rw [completes.settings, faultless]
      exact Ends.bind_iff.2
        ⟨⟨⟩, after, Ends.pure_iff.2 ⟨rfl, rfl⟩, Transform.ends_ofExcept.2 ⟨rfl, rfl⟩⟩
    · exact Ends.pure_iff.2 ⟨rfl, rfl⟩
  have result : transformProgram program settings = (.ok (), after) := ends
  rw [result]
  exact ⟨rfl, faultless⟩

theorem itemProgram_accepted :
    countingSettings.arrays = false ∧ itemProgram.Extensible countingSettings ∧
      itemProgram.violations (some countingSettings) = [] ∧
      (transformProgram itemProgram countingSettings).1 = .ok () ∧
      (transformProgram itemProgram countingSettings).2.program.violations
          (some countingSettings) = [] := by
  have extensible : itemProgram.Extensible countingSettings := by decide +kernel
  have accepted : itemProgram.violations (some countingSettings) = [] := by decide +kernel
  exact ⟨rfl, extensible, accepted, transformProgram_accepted rfl extensible accepted⟩

/-- Reports go to a method of the root class that the root class is not known to have. -/
def rootReportingSettings : Settings :=
  { countingSettings with sink := { Sink.standard with owner := objectClass } }

/-- The class of the counters is the root class. -/
def rootCountingSettings : Settings :=
  { countingSettings with package := "java.lang", counterClass := "Object" }

/-- A class without a superclass that calls a method which it has from the root class. -/
def hashingProgram : Program where
  entries :=
    [("shop.Item",
      { name := "shop.Item"
        superclass := none
        interfaces := []
        kind := .application
        flags := ⟨0⟩
        fields := []
        methods :=
          [{ name := "hash"
             parameters := []
             result := .int
             flags := ⟨0⟩
             body := some
              { locals := [⟨"this", .object "shop.Item"⟩, ⟨"hash", .int⟩]
                instructions :=
                  [.bind ⟨0⟩ (.receiver (.object "shop.Item")),
                    .assign (.variable ⟨1⟩)
                      (.call (.ofVirtual ⟨0⟩ ⟨"shop.Item", "hashCode", [], .int⟩ [])),
                    .return (some (.variable ⟨1⟩))] } }] })]
  distinct := by decide

/-- A class that is registered under another name than its own. -/
def misnamedProgram : Program where
  entries :=
    [("shop.Item",
      { name := "shop.Other"
        superclass := some objectClass
        interfaces := []
        kind := .application
        flags := ⟨0⟩
        fields := []
        methods :=
          [{ name := constructorName
             parameters := []
             result := .void
             flags := ⟨0⟩
             body := some
              { locals := [⟨"this", .object "shop.Item"⟩]
                instructions :=
                  [.bind ⟨0⟩ (.receiver (.object "shop.Item")), .return none] } }] })]
  distinct := by decide

/-- What is asked beyond `Program.Insertable` is needed: programs into which counting can be inserted, and
which the checker accepts, are rejected afterwards. -/
theorem insertable_rejected :
    (itemProgram.Insertable rootReportingSettings ∧
        itemProgram.violations (some rootReportingSettings) = [] ∧
        (transformProgram itemProgram rootReportingSettings).1 ≠ .ok ()) ∧
      (hashingProgram.Insertable rootCountingSettings ∧
        hashingProgram.violations (some rootCountingSettings) = [] ∧
        (transformProgram hashingProgram rootCountingSettings).1 ≠ .ok ()) ∧
      misnamedProgram.Insertable countingSettings ∧
        misnamedProgram.violations (some countingSettings) = [] ∧
        (transformProgram misnamedProgram countingSettings).1 ≠ .ok () :=
  ⟨⟨by decide +kernel, by decide +kernel, by decide +kernel⟩,
    ⟨by decide +kernel, by decide +kernel, by decide +kernel⟩,
    by decide +kernel, by decide +kernel, by decide +kernel⟩

end AccessProfiler
