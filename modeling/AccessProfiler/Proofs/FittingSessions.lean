import AccessProfiler.Proofs.FittingCode
import AccessProfiler.Proofs.InstrumentedClasses
import AccessProfiler.Proofs.Lookups
import AccessProfiler.Proofs.WrapperClasses

/-!
# Generated code fits

A program fits if its classes do and are registered under their own names (`Program.Fitting`); a session
fits if its program does and so does what it remembers for inserted code (`Session.Fitting`).  Whatever is
generated keeps the session so: types come in with the class that is instrumented and with the element
type that a wrapper is asked for, and the type of a wrapper has to be admitted where its arrays are
(`Settings.Admission`).

`Transform.Keeps` says of a step that it keeps an invariant of sessions, and there is a rule for each
way in which steps are put together.
-/

namespace AccessProfiler

/-- A step that ends keeps the invariant and gives a good value. -/
def Transform.Keeps
    {Value : Type}
    (Invariant : Session → Prop)
    (step : Transform Value)
    (Good : Value → Prop) : Prop :=
  ∀ session value after, Invariant session → Ends step session value after →
    Invariant after ∧ Good value

namespace Transform.Keeps

variable
    {Value Result Item : Type}
    {Invariant : Session → Prop}

theorem pure
    {value : Value}
    {Good : Value → Prop}
    (good : Good value) :
    Keeps Invariant (pure value) Good := by
  intro session result after invariant ends
  obtain ⟨rfl, rfl⟩ := Ends.pure_iff.1 ends
  exact ⟨invariant, good⟩

theorem throw {error : Error} {Good : Value → Prop} : Keeps Invariant (throw error) Good :=
  fun _ _ _ _ ends => absurd ends Ends.not_throw

theorem throw_bind
    {error : Error}
    {next : Value → Transform Result}
    {Good : Result → Prop} :
    Keeps Invariant (MonadExcept.throw error >>= next) Good := by
  intro session result after _ ends
  obtain ⟨_, _, thrown, _⟩ := Ends.bind_iff.1 ends
  exact absurd thrown Ends.not_throw

theorem bind
    {step : Transform Value}
    {next : Value → Transform Result}
    {Good : Value → Prop}
    {GoodResult : Result → Prop}
    (first : Keeps Invariant step Good)
    (second : ∀ value, Good value → Keeps Invariant (next value) GoodResult) :
    Keeps Invariant (step >>= next) GoodResult := by
  intro session result after invariant ends
  obtain ⟨value, between, endsFirst, endsNext⟩ := Ends.bind_iff.1 ends
  obtain ⟨kept, good⟩ := first session value between invariant endsFirst
  exact second value good between result after kept endsNext

theorem get_bind
    {next : Session → Transform Result}
    {Good : Result → Prop}
    (rest : ∀ session, Invariant session → Keeps Invariant (next session) Good) :
    Keeps Invariant (get >>= next) Good := by
  intro session result after invariant ends
  exact rest session invariant session result after invariant (Ends.get_bind_iff.1 ends)

theorem set_bind
    {session : Session}
    {next : PUnit → Transform Result}
    {Good : Result → Prop}
    (invariant : Invariant session)
    (rest : Keeps Invariant (next ⟨⟩) Good) :
    Keeps Invariant (set session >>= next) Good := by
  intro before result after _ ends
  exact rest session result after invariant (Ends.set_bind_iff.1 ends)

theorem modify
    {change : Session → Session}
    (kept : ∀ session, Invariant session → Invariant (change session)) :
    Keeps Invariant (modify change) fun _ => True := by
  intro session done after invariant ends
  obtain rfl := Ends.modify_iff.1 ends
  exact ⟨kept session invariant, trivial⟩

theorem ofDefect {outcome : Except Defect Value} :
    Keeps Invariant (ofDefect outcome) fun value => outcome = .ok value := by
  intro session value after invariant ends
  obtain ⟨given, rfl⟩ := ends_ofDefect.1 ends
  exact ⟨invariant, given⟩

/-- Steps for the items of a list give good values. -/
theorem mapM
    {step : Item → Transform Value}
    {Good : Value → Prop}
    {items : List Item}
    (each : ∀ item ∈ items, Keeps Invariant (step item) Good) :
    Keeps Invariant (items.mapM step) fun values => ∀ value ∈ values, Good value := by
  induction items with
  | nil => exact pure (List.forall_mem_nil _)
  | cons item rest hypothesis =>
    rw [List.mapM_cons]
    apply bind (each item List.mem_cons_self)
    intro value good
    apply bind (hypothesis fun other member => each other (List.mem_cons_of_mem _ member))
    intro values goods
    exact pure (List.forall_mem_cons.2 ⟨good, goods⟩)

end Transform.Keeps

/-- What wrapping makes is admitted where it is made of what is. -/
structure Settings.Admission (settings : Settings) (Admits : Ty → Prop) : Prop
    extends AdmitsBasics Admits where
  wrappers :
    settings.arrays → ∀ element name, Admits (.array element) →
      Wrapper.nameFor? settings element = some name → Admits (.object name)

/-- The classes fit and are registered under their own names, and each of them was generated or has the
kind and the flags that it had. -/
structure Program.Fitting
    (settings : Settings)
    (Admits : Ty → Prop)
    (original program : Program) : Prop where
  named : program.WellNamed
  classes :
    ∀ name declaration, program.class? name = some declaration →
      declaration.Fitting Admits settings.arrays
  origin :
    ∀ name declaration, program.class? name = some declaration →
      declaration.isSynthetic ∨
        ∃ before, original.class? name = some before ∧ declaration.kind = before.kind ∧
          declaration.flags = before.flags

/-- The program fits, and so does what is remembered for inserted code. -/
structure Session.Fitting
    (settings : Settings)
    (Admits : Ty → Prop)
    (original : Program)
    (session : Session) : Prop where
  counters : session.counters.className = settings.counterClassName
  program : original.Fitting settings Admits session.program
  fields :
    ∀ owner field, session.counters.fields.get? owner = some field → Admits field.type
  profiles :
    ∀ name profile, session.profiles.get? name = some profile → profile.Fitting Admits
  wrappers :
    ∀ name wrapper, session.wrappers.get? name = some wrapper → wrapper.Fitting Admits
  typeCounters :
    ∀ name counter, session.typeCounters.get? name = some counter →
      counter.read.Fitting Admits ∧ counter.write.Fitting Admits
  callCounters :
    ∀ name counter, session.callCounters.get? name = some counter → counter.method.Fitting Admits
  settings : session.settings = settings

variable
    {settings : Settings}
    {Admits : Ty → Prop}
    {original : Program}

/-! ## Programs -/

namespace Program.Fitting

variable {program : Program}

/-- A declaration may be changed if it keeps its name, its kind and its flags. -/
theorem modifyClass
    {name : String}
    {change : Class → Class}
    (fits : original.Fitting settings Admits program)
    (changed :
      ∀ declaration, program.class? name = some declaration →
        (change declaration).Fitting Admits settings.arrays ∧
          (change declaration).name = declaration.name ∧
            (change declaration).kind = declaration.kind ∧
              (change declaration).flags = declaration.flags) :
    original.Fitting settings Admits (program.modifyClass name change) := by
  have cases' (other : String) (declaration : Class)
      (found : (program.modifyClass name change).class? other = some declaration) :
      ∃ old, program.class? other = some old ∧
        (declaration = old ∨ other = name ∧ declaration = change old) := by
    rw [class?_modifyClass] at found
    split at found
    · rename_i same
      obtain ⟨old, located, rfl⟩ := Option.map_eq_some_iff.1 found
      exact ⟨old, same ▸ located, .inr ⟨same, rfl⟩⟩
    · exact ⟨declaration, found, .inl rfl⟩
  constructor
  · rintro ⟨other, declaration⟩ member
    obtain ⟨old, located, rfl | ⟨rfl, rfl⟩⟩ := cases' other declaration (class?_of_mem_entries member)
    · exact fits.named.name_eq located
    · exact (changed old located).2.1.trans (fits.named.name_eq located)
  · intro other declaration found
    obtain ⟨old, located, rfl | ⟨rfl, rfl⟩⟩ := cases' other declaration found
    · exact fits.classes other declaration located
    · exact (changed old located).1
  · intro other declaration found
    obtain ⟨old, located, rfl | ⟨rfl, rfl⟩⟩ := cases' other declaration found
    · exact fits.origin other declaration located
    · obtain ⟨-, -, kind, flags⟩ := changed old located
      unfold Class.isSynthetic
      rw [kind, flags]
      exact fits.origin other old located

theorem ensureClass
    {name : String}
    {declaration : Class}
    (fits : original.Fitting settings Admits program)
    (declarationFits : declaration.Fitting Admits settings.arrays)
    (named : declaration.name = name)
    (isSynthetic : declaration.isSynthetic) :
    original.Fitting settings Admits (program.ensureClass name declaration).2 := by
  have cases' (other : String) (found : Class)
      (located : (program.ensureClass name declaration).2.class? other = some found) :
      program.class? other = some found ∨ other = name ∧ found = declaration := by
    rw [class?_ensureClass] at located
    split at located
    · rename_i same
      subst same
      cases present : program.class? other with
      | none =>
        rw [present] at located
        cases located
        exact .inr ⟨rfl, rfl⟩
      | some old =>
        rw [present] at located
        exact .inl located
    · exact .inl located
  constructor
  · rintro ⟨other, found⟩ member
    rcases cases' other found (class?_of_mem_entries member) with old | ⟨rfl, rfl⟩
    · exact fits.named.name_eq old
    · exact named
  · intro other found located
    rcases cases' other found located with old | ⟨rfl, rfl⟩
    · exact fits.classes other found old
    · exact declarationFits
  · intro other found located
    rcases cases' other found located with old | ⟨rfl, rfl⟩
    · exact fits.origin other found old
    · exact .inl isSynthetic

theorem addField
    {owner : String}
    {field : Field}
    {reference : FieldRef}
    {changed : Program}
    (fits : original.Fitting settings Admits program)
    (admitted : Admits field.type)
    (added : program.addField owner field = .ok (reference, changed)) :
    original.Fitting settings Admits changed ∧ Admits reference.type := by
  obtain ⟨declaration, extended, found, extending, rfl⟩ := Program.addField_eq_ok added
  have declarationFits := fits.classes owner declaration found
  have parts :
      extended.Fitting Admits settings.arrays ∧ extended.name = declaration.name ∧
        extended.kind = declaration.kind ∧ extended.flags = declaration.flags ∧
          Admits reference.type := by
    rcases Class.addField_cases extending with ⟨declared, -, same, rfl, rfl⟩ | ⟨-, rfl, rfl⟩
    · exact ⟨declarationFits, rfl, rfl, rfl, (congrArg Admits same).mpr admitted⟩
    · refine ⟨⟨?_, declarationFits.methods⟩, rfl, rfl, rfl, admitted⟩
      exact List.forall_mem_append.2 ⟨declarationFits.fields, List.forall_mem_singleton.2 admitted⟩
  obtain ⟨extendedFits, name, kind, flags, reads⟩ := parts
  refine ⟨fits.modifyClass ?_, reads⟩
  intro old located
  obtain rfl := Option.some.inj (found.symm.trans located)
  exact ⟨extendedFits, name, kind, flags⟩

theorem addMethod
    {owner : String}
    {method : Method}
    {id : MethodId}
    {changed : Program}
    (fits : original.Fitting settings Admits program)
    (methodFits : method.Fitting Admits settings.arrays)
    (added : program.addMethod owner method = .ok (id, changed)) :
    original.Fitting settings Admits changed := by
  obtain ⟨declaration, found, -, rfl⟩ := Program.addMethod_eq_ok added
  have declarationFits := fits.classes owner declaration found
  apply fits.modifyClass
  intro old located
  obtain rfl := Option.some.inj (found.symm.trans located)
  refine ⟨⟨declarationFits.fields, ?_⟩, rfl, rfl, rfl⟩
  exact List.forall_mem_append.2 ⟨declarationFits.methods, List.forall_mem_singleton.2 methodFits⟩

theorem modifyMethod
    {id : MethodId}
    {change : Method → Method}
    (fits : original.Fitting settings Admits program)
    (changed :
      ∀ method, method.Fitting Admits settings.arrays →
        (change method).Fitting Admits settings.arrays) :
    original.Fitting settings Admits (program.modifyMethod id change) := by
  apply fits.modifyClass
  intro declaration found
  have declarationFits := fits.classes id.owner declaration found
  refine ⟨⟨declarationFits.fields, ?_⟩, rfl, rfl, rfl⟩
  intro method member
  obtain ⟨index, located⟩ := List.mem_iff_getElem?.1 member
  rw [List.getElem?_modify] at located
  obtain ⟨old, foundOld, rfl⟩ := Option.map_eq_some_iff.1 located
  have oldFits := declarationFits.methods old (List.mem_of_getElem? foundOld)
  split
  · exact changed old oldFits
  · exact oldFits

theorem method?
    {id : MethodId}
    {method : Method}
    (fits : original.Fitting settings Admits program)
    (found : program.method? id = some method) :
    method.Fitting Admits settings.arrays := by
  obtain ⟨declaration, declares, located⟩ := Option.bind_eq_some_iff.1 found
  exact (fits.classes id.owner declaration declares).methods method (List.mem_of_getElem? located)

theorem body?
    {id : MethodId}
    {body : Body}
    (fits : original.Fitting settings Admits program)
    (found : program.body? id = some body) :
    body.Fitting Admits settings.arrays body.room := by
  obtain ⟨method, located, holds⟩ := Option.bind_eq_some_iff.1 found
  exact (fits.method? located).body body holds

/-- The declaration that a search for a method ends at fits. -/
theorem resolveMethod?
    {owner name holder : String}
    {parameters : List Ty}
    {method : Method}
    (fits : original.Fitting settings Admits program)
    (found : program.resolveMethod? owner name parameters = some (holder, method)) :
    method.Fitting Admits settings.arrays := by
  have declared {list : List String}
      (search :
        (list.findSome? fun ancestor => program.declaredMethod? ancestor name parameters) =
          some (holder, method)) :
      method.Fitting Admits settings.arrays := by
    obtain ⟨ancestor, -, declares⟩ := List.exists_of_findSome?_eq_some search
    obtain ⟨declaration, located, given⟩ := Option.bind_eq_some_iff.1 declares
    obtain ⟨_, member, same⟩ := Option.map_eq_some_iff.1 given
    obtain ⟨-, rfl⟩ := Prod.mk.inj same
    exact (fits.classes ancestor declaration located).methods _ (List.mem_of_find?_eq_some member)
  unfold Program.resolveMethod? at found
  dsimp only at found
  split at found
  · rename_i search
    cases found
    exact declared search
  · split at found
    · exact declared found
    · cases found

end Program.Fitting

/-! ## Sessions -/

namespace Session.Fitting

variable {session : Session}

theorem withProgram
    {program : Program}
    (fits : session.Fitting settings Admits original)
    (programFits : original.Fitting settings Admits program) :
    ({ session with program } : Session).Fitting settings Admits original :=
  { fits with program := programFits }

theorem withJournal
    (fits : session.Fitting settings Admits original)
    (journal : Journal) :
    ({ session with journal } : Session).Fitting settings Admits original :=
  { fits with }

/-- The wrapper of a type is one that the session remembers. -/
theorem wrapperOfType?
    {type : Ty}
    {wrapper : Wrapper}
    (fits : session.Fitting settings Admits original)
    (found : session.wrapperOfType? type = some wrapper) :
    wrapper.Fitting Admits := by
  obtain ⟨name, -, located⟩ := Option.bind_eq_some_iff.1 found
  exact fits.wrappers name wrapper located

/-- What is transformed was there to begin with. -/
theorem isTransformableClass
    {name : String}
    (fits : session.Fitting settings Admits original)
    (transformable : session.isTransformableClass name)
    (noInterface : session.program.isInterface name = false) :
    (Session.start settings original).isTransformableClass name ∧
      original.isInterface name = false := by
  unfold Session.isTransformableClass at transformable
  simp only [Bool.and_eq_true, Bool.not_eq_true', Option.any_eq_true] at transformable
  obtain ⟨⟨⟨included, apart⟩, -⟩, declaration, found, application, written⟩ := transformable
  rcases fits.program.origin name declaration found with synthetic | ⟨before, located, kind, flags⟩
  · rw [synthetic] at written
    cases written
  · have interface : before.isInterface = false := by
      rw [Program.isInterface, found] at noInterface
      unfold Class.isInterface at *
      rw [← flags]
      exact noInterface
    have isApplication : before.isApplication = true := by
      unfold Class.isApplication at *
      rw [← kind]
      exact application
    have isSynthetic : before.isSynthetic = false := by
      unfold Class.isSynthetic at *
      rw [← flags]
      exact written
    rw [fits.settings] at included
    unfold CounterTable.holds at apart
    rw [fits.counters] at apart
    constructor
    · unfold Session.isTransformableClass CounterTable.holds
      simp only [Session.start, CounterTable.empty, Session.isWrapper]
      rw [included, apart, located, Option.any_some, isApplication, isSynthetic]
      rfl
    · rw [Program.isInterface, located]
      exact interface

end Session.Fitting

/-! ## Generating -/

namespace Transform

theorem record_keeps (event : Event) :
    Keeps (Session.Fitting settings Admits original) (record event) fun _ => True :=
  .modify fun _ fits => fits.withJournal _

theorem markGenerated_keeps (method : MethodRef) :
    Keeps (Session.Fitting settings Admits original) (markGenerated method) fun _ => True := by
  refine .modify fun session fits => ?_
  split
  · exact fits
  · exact { fits with }

theorem ensureClass_keeps
    {name : String}
    {declaration : Class}
    (declarationFits : declaration.Fitting Admits settings.arrays)
    (named : declaration.name = name)
    (isSynthetic : declaration.isSynthetic) :
    Keeps (Session.Fitting settings Admits original) (ensureClass name declaration)
      fun _ => True := by
  intro session created after fits ends
  obtain ⟨-, rfl⟩ := ends_ensureClass.1 ends
  exact ⟨fits.withProgram (fits.program.ensureClass declarationFits named isSynthetic), trivial⟩

theorem addField_keeps
    {owner : String}
    {field : Field}
    (admitted : Admits field.type) :
    Keeps (Session.Fitting settings Admits original)
      (changeProgram fun program => program.addField owner field)
      fun reference => Admits reference.type := by
  intro session reference after fits ends
  obtain ⟨program, added, rfl⟩ := ends_changeProgram.1 ends
  obtain ⟨programFits, reads⟩ := fits.program.addField admitted added
  exact ⟨fits.withProgram programFits, reads⟩

theorem addGenerated_keeps
    {owner : String}
    {method : Method}
    (methodFits : method.Fitting Admits settings.arrays) :
    Keeps (Session.Fitting settings Admits original) (addGenerated owner method) fun _ => True := by
  have adds :
      Keeps (Session.Fitting settings Admits original)
        (changeProgram fun program => program.addMethod owner method) fun _ => True := by
    intro session id after fits ends
    obtain ⟨program, added, rfl⟩ := ends_changeProgram.1 ends
    exact ⟨fits.withProgram (fits.program.addMethod methodFits added), trivial⟩
  exact .bind adds fun _ _ => markGenerated_keeps _

theorem setSignature_keeps
    {parameters : List Ty}
    {result : Ty}
    (parametersFit : ∀ type ∈ parameters, Admits type)
    (resultFits : Admits result)
    (id : MethodId) :
    Keeps (Session.Fitting settings Admits original)
      (changeProgram fun program => (program.setSignature id parameters result).map ((), ·))
      fun _ => True := by
  intro session done after fits ends
  obtain ⟨program, changed, rfl⟩ := ends_changeProgram.1 ends
  cases given : session.program.setSignature id parameters result with
  | error error =>
    rw [given] at changed
    cases changed
  | ok resigned =>
    rw [given] at changed
    cases changed
    rw [Program.setSignature_eq_ok given]
    refine ⟨fits.withProgram (fits.program.modifyMethod fun method methodFits => ?_), trivial⟩
    exact ⟨resultFits, parametersFit, methodFits.body⟩

theorem ensureCounterClass_keeps :
    Keeps (Session.Fitting settings Admits original) ensureCounterClass fun _ => True := by
  refine .get_bind fun session _ => ?_
  exact ensureClass_keeps ⟨List.forall_mem_nil _, List.forall_mem_nil _⟩ rfl
    session.counters.declaration_isSynthetic

variable (admission : settings.Admission Admits)
include admission

theorem counterFor_keeps (owner : CounterOwner) (key : String) :
    Keeps (Session.Fitting settings Admits original) (counterFor owner key)
      fun field => Admits field.type := by
  refine .get_bind fun session fits => ?_
  cases found : session.counters.fields.get? owner with
  | some field => exact .pure (fits.fields owner field found)
  | none =>
    refine .set_bind { fits with } (.bind ensureCounterClass_keeps fun _ _ => ?_)
    refine .bind (addField_keeps (admission.simple .int rfl rfl)) fun field admitted => ?_
    refine .bind (.modify fun session fits => ?_) fun _ _ => .pure admitted
    refine { fits with fields := fun other found located => ?_ }
    dsimp only at located
    rw [Table.get?_put] at located
    split at located
    · cases located
      exact admitted
    · exact fits.fields other found located

theorem staticIncrementor_keeps
    {counter : FieldRef}
    (counterFits : Admits counter.type)
    (key label : String) :
    Keeps (Session.Fitting settings Admits original) (staticIncrementor key label counter)
      fun method => method.Fitting Admits := by
  have isVoid : Admits .void := admission.simple .void rfl rfl
  refine .get_bind fun session fits => ?_
  dsimp only
  split
  · exact .pure ⟨isVoid, List.forall_mem_nil _⟩
  · refine .bind (addGenerated_keeps ⟨isVoid, List.forall_mem_nil _, ?_⟩) fun _ _ =>
      .bind (record_keeps _) fun _ _ => .pure ⟨isVoid, List.forall_mem_nil _⟩
    rintro body ⟨⟩
    exact Profile.staticIncrementorBody_fits admission.toAdmitsBasics _ _ counterFits

theorem incrementor_keeps
    {owner : String}
    {counter serial : FieldRef}
    (instances : Admits (.object owner))
    (counterFits : Admits counter.type)
    (serialFits : Admits serial.type)
    (name : String) :
    Keeps (Session.Fitting settings Admits original) (incrementor owner name counter serial)
      fun method => method.Fitting Admits := by
  have isVoid : Admits .void := admission.simple .void rfl rfl
  refine .get_bind fun session fits => ?_
  split
  · rename_i method found
    obtain ⟨declaration, declares, located⟩ := Option.bind_eq_some_iff.1 found
    have methodFits :=
      (fits.program.classes owner declaration declares).methods method
        (List.mem_of_find?_eq_some located)
    exact .pure ⟨methodFits.result, methodFits.parameters⟩
  · refine .bind (addGenerated_keeps ⟨isVoid, List.forall_mem_nil _, ?_⟩) fun _ _ =>
      .bind (record_keeps _) fun _ _ => .pure ⟨isVoid, List.forall_mem_nil _⟩
    rintro body ⟨⟩
    exact Profile.incrementorBody_fits admission.toAdmitsBasics _ instances counterFits serialFits

theorem buildProfile_keeps
    {className : String}
    (instances : Admits (.object className)) :
    Keeps (Session.Fitting settings Admits original) (buildProfile className)
      fun profile => profile.Fitting Admits := by
  have declares (name : String) :
      Keeps (Session.Fitting settings Admits original)
        (changeProgram fun program => program.addField className ⟨name, .int, Field.synthetic⟩)
        fun reference => Admits reference.type :=
    addField_keeps (admission.simple .int rfl rfl)
  refine .bind (counterFor_keeps admission _ _) fun staticCounter counts =>
    .bind (record_keeps _) fun _ _ => ?_
  refine .bind (declares serialField) fun serial numbers =>
    .bind (declares readsField) fun reads countsReads =>
    .bind (declares writesField) fun writes countsWrites => ?_
  refine .bind (incrementor_keeps admission instances countsReads numbers _) fun incReads readsFit =>
    .bind (incrementor_keeps admission instances countsWrites numbers _) fun incWrites writesFit => ?_
  exact .get_bind fun session _ => .pure ⟨counts, numbers, readsFit, writesFit⟩

theorem instrument_keeps
    {className : String}
    (instances : Admits (.object className)) :
    Keeps (Session.Fitting settings Admits original) (instrument className)
      fun profile => profile.Fitting Admits := by
  refine .get_bind fun session fits => ?_
  cases found : session.profiles.get? className with
  | some profile => exact .pure (fits.profiles className profile found)
  | none =>
    cases session.program.class? className with
    | none => exact .throw
    | some declared =>
      dsimp only
      split
      · exact .throw_bind
      · refine .bind (buildProfile_keeps admission instances) fun profile profileFits => ?_
        refine .bind (.modify fun session fits => ?_) fun _ _ =>
          .bind (record_keeps _) fun _ _ => .pure profileFits
        refine { fits with profiles := fun other given located => ?_ }
        dsimp only at located
        rw [Table.get?_put] at located
        split at located
        · cases located
          exact profileFits
        · exact fits.profiles other given located

theorem typeCounter_keeps (name : String) :
    Keeps (Session.Fitting settings Admits original) (typeCounter name)
      fun counter => counter.read.Fitting Admits ∧ counter.write.Fitting Admits := by
  refine .get_bind fun session fits => ?_
  cases found : session.typeCounters.get? name with
  | some counter => exact .pure (fits.typeCounters name counter found)
  | none =>
    refine .bind (counterFor_keeps admission _ _) fun readField readFits =>
      .bind (counterFor_keeps admission _ _) fun writeField writeFits => ?_
    refine .bind (staticIncrementor_keeps admission readFits _ _) fun read countsReads =>
      .bind (staticIncrementor_keeps admission writeFits _ _) fun write countsWrites => ?_
    refine .bind (.modify fun session fits => ?_) fun _ _ => .pure ⟨countsReads, countsWrites⟩
    refine { fits with typeCounters := fun other given located => ?_ }
    dsimp only at located
    rw [Table.get?_put] at located
    split at located
    · cases located
      exact ⟨countsReads, countsWrites⟩
    · exact fits.typeCounters other given located

theorem callCounter_keeps (name : String) :
    Keeps (Session.Fitting settings Admits original) (callCounter name)
      fun counter => counter.method.Fitting Admits := by
  refine .get_bind fun session fits => ?_
  cases found : session.callCounters.get? name with
  | some counter => exact .pure (fits.callCounters name counter found)
  | none =>
    refine .bind (counterFor_keeps admission _ _) fun field fieldFits =>
      .bind (staticIncrementor_keeps admission fieldFits _ _) fun method methodFits => ?_
    refine .bind (.modify fun session fits => ?_) fun _ _ => .pure methodFits
    refine { fits with callCounters := fun other given located => ?_ }
    dsimp only at located
    rw [Table.get?_put] at located
    split at located
    · cases located
      exact methodFits
    · exact fits.callCounters other given located

theorem addMember_keeps
    {profile : Profile}
    {parameters : List Ty}
    {result : Ty}
    {body : Body}
    (profileFits : profile.Fitting Admits)
    (parametersFit : ∀ type ∈ parameters, Admits type)
    (resultFits : Admits result)
    (bodyFits : body.Fitting Admits settings.arrays body.room)
    (owner name : String) :
    Keeps (Session.Fitting settings Admits original)
      (addMember profile owner name parameters result body)
      fun method => method.Fitting Admits := by
  have declares {given : Body} (givenFits : given.Fitting Admits settings.arrays given.room) :
      Keeps (Session.Fitting settings Admits original)
        (do
          addGenerated owner ⟨name, parameters, result, Method.synthetic, some given⟩
          return ⟨owner, name, parameters, result⟩)
        fun method : MethodRef => method.Fitting Admits := by
    refine .bind (addGenerated_keeps ⟨resultFits, parametersFit, ?_⟩) fun _ _ =>
      .pure ⟨resultFits, parametersFit⟩
    rintro _ ⟨⟩
    exact givenFits
  refine .get_bind fun session _ => ?_
  dsimp only
  split
  · exact .pure ⟨resultFits, parametersFit⟩
  · split
    · exact .bind .ofDefect fun outcome ok =>
        declares (Profile.patched_fits admission.toAdmitsBasics profileFits bodyFits ok)
    · exact declares bodyFits

theorem buildWrapper_keeps
    {name : String}
    {element : Ty}
    (instances : Admits (.object name))
    (arrays : Admits (.array element)) :
    Keeps (Session.Fitting settings Admits original) (buildWrapper name element)
      fun wrapper => wrapper.Fitting Admits := by
  have basics := admission.toAdmitsBasics
  have isVoid : Admits .void := basics.simple .void rfl rfl
  have isInt : Admits .int := basics.simple .int rfl rfl
  have holds : Admits element := basics.element element arrays
  refine .bind (addField_keeps arrays) fun field fieldFits =>
    .bind (instrument_keeps admission instances) fun profile fits => ?_
  have member
      {parameters : List Ty}
      {result : Ty}
      {body : Body}
      (parametersFit : ∀ type ∈ parameters, Admits type)
      (resultFits : Admits result)
      (bodyFits : body.Fitting Admits settings.arrays body.room)
      (method : String) :
      Keeps (Session.Fitting settings Admits original)
        (addMember profile name method parameters result body)
        fun reference => reference.Fitting Admits :=
    addMember_keeps admission fits parametersFit resultFits bodyFits name method
  refine .bind (member (List.forall_mem_singleton.2 arrays) isVoid
    (Wrapper.fromArrayBody_fits basics instances arrays fieldFits) _) fun fromArray fromArrayFits => ?_
  refine .bind (member (List.forall_mem_singleton.2 isInt) isVoid
    (Wrapper.withLengthBody_fits basics instances arrays fieldFits) _)
    fun withLength withLengthFits => ?_
  refine .bind (member (List.forall_mem_singleton.2 isInt) holds
    (Wrapper.getBody_fits basics instances arrays fieldFits fits) _) fun get getFits => ?_
  refine .bind (member (List.forall_mem_cons.2 ⟨isInt, List.forall_mem_singleton.2 holds⟩) isVoid
    (Wrapper.setBody_fits basics instances arrays fieldFits fits) _) fun set setFits => ?_
  exact .pure ⟨instances, arrays, fieldFits, fromArrayFits, withLengthFits, getFits, setFits⟩

variable (wraps : settings.arrays)
include wraps

theorem wrapperFor_keeps
    {element : Ty}
    (arrays : Admits (.array element)) :
    Keeps (Session.Fitting settings Admits original) (wrapperFor element)
      fun found => ∀ wrapper, found = some wrapper → wrapper.Fitting Admits := by
  refine .get_bind fun session fits => ?_
  rw [fits.settings]
  cases named : Wrapper.nameFor? settings element with
  | none => exact .pure fun _ found => by cases found
  | some name =>
    have instances := admission.wrappers wraps element name arrays named
    dsimp only
    cases known : session.wrappers.get? name with
    | some wrapper =>
      refine .pure ?_
      rintro _ ⟨⟩
      exact fits.wrappers name wrapper known
    | none =>
      refine .bind (ensureClass_keeps ⟨List.forall_mem_nil _, List.forall_mem_nil _⟩ rfl
        (Wrapper.declaration_isSynthetic name)) fun created _ => ?_
      refine .bind (buildWrapper_keeps admission instances arrays) fun wrapper wrapperFits => ?_
      have good : ∀ given, some wrapper = some given → given.Fitting Admits := by
        rintro _ ⟨⟩
        exact wrapperFits
      refine .bind (.modify fun session fits => ?_) fun _ _ => ?_
      · refine { fits with wrappers := fun other given located => ?_ }
        dsimp only at located
        rw [Table.get?_put] at located
        split at located
        · cases located
          exact wrapperFits
        · exact fits.wrappers other given located
      · split
        · exact .bind (record_keeps _) fun _ _ => .pure good
        · exact .pure good

theorem mapType_keeps
    {type : Ty}
    (admitted : Admits type) :
    Keeps (Session.Fitting settings Admits original) (mapType type) fun mapped => Admits mapped := by
  unfold mapType
  split
  · refine .bind (wrapperFor_keeps admission wraps admitted) fun found good => ?_
    cases found with
    | none => exact .pure admitted
    | some wrapper => exact .pure (good wrapper rfl).type
  · exact .pure admitted

theorem mapM_mapType_keeps
    {types : List Ty}
    (admitted : ∀ type ∈ types, Admits type) :
    Keeps (Session.Fitting settings Admits original) (types.mapM mapType)
      fun mapped => ∀ type ∈ mapped, Admits type :=
  .mapM fun type member => mapType_keeps admission wraps (admitted type member)

theorem wrapSignature_keeps (pass : String) (id : MethodId) :
    Keeps (Session.Fitting settings Admits original) (wrapSignature pass id) fun _ => True := by
  refine .get_bind fun session fits => ?_
  split
  · exact .pure trivial
  · cases found : session.program.method? id with
    | none => exact .pure trivial
    | some method =>
      have methodFits := fits.program.method? found
      dsimp only
      split
      · exact .pure trivial
      · refine .bind (mapM_mapType_keeps admission wraps methodFits.parameters)
          fun parameters parametersFit => ?_
        refine .bind (mapType_keeps admission wraps methodFits.result) fun result resultFits => ?_
        split
        · exact .pure trivial
        · exact .bind (setSignature_keeps parametersFit resultFits id) fun _ _ =>
            .bind (record_keeps _) fun _ _ => .pure trivial

end Transform
end AccessProfiler
