import AccessProfiler.Proofs.LeavingDrafts
import AccessProfiler.Proofs.Registry

/-!
# What generating code leaves alone

Whatever is generated goes into the class of the counters and into classes of wrappers, whose names the
settings fix (`Settings.Generates`).  A program that grows this way has every other class as it was, and
every new class is one of these two kinds (`Program.Grown`).

A step that fails half-way has grown the program as far as it came.  So the lemmas on steps are about
sessions after successes and after failures alike (`Transform.Leaves`), and the invariant that they carry
is `Session.Confined`: a statement on programs that generated code does not affect (`Settings.Unaffected`)
goes on to hold.
-/

namespace AccessProfiler

/-- A class of this name can be generated: the class of the counters, or a wrapper of some type. -/
def Settings.Generates (settings : Settings) (name : String) : Prop :=
  name = settings.counterClassName ∨ ∃ element, Wrapper.nameFor? settings element = some name

/-- The name and the flags are those of the class of the counters or of a wrapper. -/
def Settings.Adds (settings : Settings) (name : String) (flags : Flags) : Prop :=
  (name = settings.counterClassName ∧ flags = Class.syntheticFlag.union Class.counterFlag) ∨
    ((∃ element, Wrapper.nameFor? settings element = some name) ∧
      flags = Class.syntheticFlag.union Class.wrapperFlag)

/-- The class has the flags that it had, and as many methods or more. -/
structure Class.GrowsTo (before after : Class) : Prop where
  flags : after.flags = before.flags
  methods : before.methods.length ≤ after.methods.length

/-- The program has grown by generated code and is otherwise as it was. -/
structure Program.Grown (settings : Settings) (before after : Program) : Prop where
  others : ∀ {name : String}, ¬ settings.Generates name → after.class? name = before.class? name
  kept :
    ∀ {name : String} {declaration : Class}, before.class? name = some declaration →
      ∃ now, after.class? name = some now ∧ declaration.GrowsTo now
  added :
    ∀ {name : String} {now : Class}, before.class? name = none → after.class? name = some now →
      settings.Adds name now.flags

namespace Program.Grown

variable {settings : Settings} {before after : Program}

/-- A generated class gets a declaration with more members. -/
theorem modifyClass
    {name : String}
    {change : Class → Class}
    (generates : settings.Generates name)
    (grows :
      ∀ declaration, before.class? name = some declaration →
        declaration.GrowsTo (change declaration)) :
    before.Grown settings (before.modifyClass name change) where
  others {other} apart := by
    have differs : other ≠ name := fun same => apart (same ▸ generates)
    rw [class?_modifyClass, if_neg differs]
  kept {other} declaration found := by
    rw [class?_modifyClass]
    by_cases same : other = name
    · subst same
      rw [if_pos rfl, found]
      exact ⟨_, rfl, grows declaration found⟩
    · rw [if_neg same]
      exact ⟨declaration, found, rfl, Nat.le_refl _⟩
  added {other} now absent found := by
    rw [class?_modifyClass] at found
    split at found
    · rename_i same
      rw [← same, absent] at found
      cases found
    · rw [absent] at found
      cases found

/-- A generated class is registered. -/
theorem ensureClass
    {name : String}
    {declaration : Class}
    (adds : settings.Adds name declaration.flags)
    (generates : settings.Generates name) :
    before.Grown settings (before.ensureClass name declaration).2 where
  others {other} apart := by
    have differs : other ≠ name := fun same => apart (same ▸ generates)
    rw [class?_ensureClass, if_neg differs]
  kept {other} existing found := by
    rw [class?_ensureClass]
    by_cases same : other = name
    · subst same
      rw [if_pos rfl, found]
      exact ⟨existing, rfl, rfl, Nat.le_refl _⟩
    · rw [if_neg same]
      exact ⟨existing, found, rfl, Nat.le_refl _⟩
  added {other} now absent found := by
    rw [class?_ensureClass] at found
    split at found
    · rename_i same
      subst same
      rw [absent] at found
      cases found
      exact adds
    · rw [absent] at found
      cases found

theorem addField
    {owner : String}
    {field : Field}
    {reference : FieldRef}
    (generates : settings.Generates owner)
    (added : before.addField owner field = .ok (reference, after)) :
    before.Grown settings after := by
  obtain ⟨declaration, extended, found, extending, rfl⟩ := Program.addField_eq_ok added
  refine modifyClass generates fun old foundOld => ?_
  obtain rfl := Option.some.inj (found.symm.trans foundOld)
  rcases Class.addField_cases extending with ⟨_, _, _, _, rfl⟩ | ⟨_, _, rfl⟩
  · exact ⟨rfl, Nat.le_refl _⟩
  · exact ⟨rfl, Nat.le_refl _⟩

theorem addMethod
    {owner : String}
    {method : Method}
    {id : MethodId}
    (generates : settings.Generates owner)
    (added : before.addMethod owner method = .ok (id, after)) :
    before.Grown settings after := by
  obtain ⟨declaration, found, -, rfl⟩ := Program.addMethod_eq_ok added
  refine modifyClass generates fun old foundOld => ?_
  obtain rfl := Option.some.inj (found.symm.trans foundOld)
  refine ⟨rfl, ?_⟩
  rw [List.length_append]
  exact Nat.le_add_right _ _

/-- The same change to a method of both programs leaves the one grown from the other. -/
theorem modifyMethod
    (grown : before.Grown settings after)
    (id : MethodId)
    (change : Method → Method) :
    (before.modifyMethod id change).Grown settings (after.modifyMethod id change) where
  others {name} apart := by
    rw [class?_modifyMethod, class?_modifyMethod]
    split
    · rename_i same
      rw [grown.others (same ▸ apart)]
    · exact grown.others apart
  kept {name} declaration found := by
    rw [class?_modifyMethod] at found ⊢
    split at found
    · rename_i same
      obtain ⟨old, foundOld, rfl⟩ := Option.map_eq_some_iff.1 found
      obtain ⟨now, foundNow, grows⟩ := grown.kept foundOld
      rw [if_pos same, foundNow]
      refine ⟨_, rfl, grows.flags, ?_⟩
      simpa only [List.length_modify] using grows.methods
    · rename_i differs
      rw [if_neg differs]
      exact grown.kept found
  added {name} now absent found := by
    rw [class?_modifyMethod] at absent found
    split at found
    · rename_i same
      rw [if_pos same, Option.map_eq_none_iff] at absent
      obtain ⟨old, foundOld, rfl⟩ := Option.map_eq_some_iff.1 found
      have adds := grown.added absent foundOld
      exact same ▸ adds
    · rename_i differs
      rw [if_neg differs] at absent
      exact grown.added absent found

/-- No method is lost. -/
theorem method?_isSome
    (grown : before.Grown settings after)
    {id : MethodId}
    (present : (before.method? id).isSome) :
    (after.method? id).isSome := by
  obtain ⟨method, found⟩ := Option.isSome_iff_exists.1 present
  obtain ⟨declaration, located, indexed⟩ := Option.bind_eq_some_iff.1 found
  obtain ⟨now, locatedNow, grows⟩ := grown.kept located
  have bounded := (List.getElem?_eq_some_iff.1 indexed).1
  rw [Program.method?, locatedNow, Option.bind_some]
  rw [List.getElem?_eq_getElem (Nat.lt_of_lt_of_le bounded grows.methods), Option.isSome_some]

end Program.Grown

/-- The statement goes on to hold when code is generated: classes are registered without members, and get
fields, and methods whose locals have different names. -/
structure Settings.Unaffected (settings : Settings) (Holds : Program → Prop) : Prop where
  ensureClass :
    ∀ {program : Program} {name : String} {flags : Flags},
      settings.Adds name flags → settings.Generates name → Holds program →
        Holds (program.ensureClass name (.plain name flags)).2
  addField :
    ∀ {before after : Program} {owner : String} {field : Field} {reference : FieldRef},
      settings.Generates owner → Holds before →
        before.addField owner field = .ok (reference, after) → Holds after
  addMethod :
    ∀ {before after : Program} {owner : String} {method : Method} {id : MethodId},
      settings.Generates owner → method.DistinctLocals → Holds before →
        before.addMethod owner method = .ok (id, after) → Holds after

/-- What holds of a program, however it grows, is not affected. -/
theorem Settings.Unaffected.of_grown
    {settings : Settings}
    {Holds : Program → Prop}
    (grows : ∀ before after : Program, before.Grown settings after → Holds before → Holds after) :
    settings.Unaffected Holds where
  ensureClass adds generates holds := grows _ _ (.ensureClass adds generates) holds
  addField generates holds added := grows _ _ (.addField generates added) holds
  addMethod generates _ holds added := grows _ _ (.addMethod generates added) holds

/-- The session generates classes of no other names than the settings fix, and this holds of its
program. -/
structure Session.Confined
    (settings : Settings)
    (Holds : Program → Prop)
    (session : Session) : Prop where
  counters : session.counters.className = settings.counterClassName
  wrappers : ∀ {name : String}, session.isWrapper name → settings.Generates name
  program : Holds session.program
  settings : session.settings = settings

namespace Session.Confined

variable {settings : Settings} {Holds : Program → Prop} {session : Session}

theorem start
    {program : Program}
    (holds : Holds program) :
    (Session.start settings program).Confined settings Holds where
  counters := rfl
  wrappers isWrapper := by cases isWrapper
  program := holds
  settings := rfl

/-- Another program of which something else holds takes the place of the program. -/
theorem withProgram
    {HoldsNow : Program → Prop}
    {program : Program}
    (confined : session.Confined settings Holds)
    (holds : HoldsNow program) :
    ({ session with program } : Session).Confined settings HoldsNow :=
  ⟨confined.counters, confined.wrappers, holds, confined.settings⟩

theorem ignoresNotes : Session.IgnoresNotes (Session.Confined settings Holds) :=
  fun _ _ _ _ confined =>
    ⟨confined.counters, confined.wrappers, confined.program, confined.settings⟩

end Session.Confined

/-- Counts and the methods that count can be declared on the class. -/
structure AdmitsCounts (Holds : Program → Prop) (className : String) : Prop where
  field :
    ∀ {before after : Program} {field : Field} {reference : FieldRef},
      isInstrumentationName field.name → Holds before →
      before.addField className field = .ok (reference, after) → Holds after
  method :
    ∀ {before after : Program} {method : Method} {id : MethodId},
      method.name = readIncrementor ∨ method.name = writeIncrementor → method.DistinctLocals →
      Holds before → before.addMethod className method = .ok (id, after) → Holds after

namespace Transform

variable
    {settings : Settings}
    {Holds : Program → Prop}
    {before : Session}

theorem record_leaves
    (confined : before.Confined settings Holds)
    (event : Event) :
    Leaves (Session.Confined settings Holds) before (record event) :=
  Session.Confined.ignoresNotes.record confined event

theorem markGenerated_leaves
    (confined : before.Confined settings Holds)
    (method : MethodRef) :
    Leaves (Session.Confined settings Holds) before (markGenerated method) :=
  Session.Confined.ignoresNotes.markGenerated confined method

theorem changeProgram_leaves
    {Value : Type}
    {change : Program → Except Error (Value × Program)}
    (confined : before.Confined settings Holds)
    (changes :
      ∀ value program, change before.program = .ok (value, program) → Holds program) :
    Leaves (Session.Confined settings Holds) before (changeProgram change) :=
  .changeProgram confined fun value program changed =>
    confined.withProgram (changes value program changed)

/-- What is declared on a class that admits counts leaves the session confined. -/
theorem incrementor_leaves
    {owner name : String}
    (admits : AdmitsCounts Holds owner)
    (named : name = readIncrementor ∨ name = writeIncrementor)
    (confined : before.Confined settings Holds)
    (counter serial : FieldRef) :
    Leaves (Session.Confined settings Holds) before (incrementor owner name counter serial) := by
  unfold incrementor
  apply Leaves.get_bind
  cases (before.program.class? owner).bind fun declared => declared.methodNamed? name with
  | some method => exact .pure confined
  | none =>
    refine Leaves.bind (Leaves.bind ?_ fun _ _ confined => markGenerated_leaves confined _) ?_
    · refine changeProgram_leaves confined fun id program added =>
        admits.method named (.of_body rfl ?_) confined.program added
      show ["r0", "$count", "$serial"].Nodup
      decide
    · intro _ between confined
      exact Leaves.bind (record_leaves confined _) fun _ _ confined => .pure confined

section Generating

variable (unaffected : settings.Unaffected Holds)
include unaffected

/-- Members can be declared on generated classes. -/
theorem admitsCounts_of_generates
    {name : String}
    (generates : settings.Generates name) :
    AdmitsCounts Holds name where
  field _ holds added := unaffected.addField generates holds added
  method _ distinct holds added := unaffected.addMethod generates distinct holds added

variable (confined : before.Confined settings Holds)
include confined

theorem ensureClass_leaves
    {name : String}
    {flags : Flags}
    (adds : settings.Adds name flags)
    (generates : settings.Generates name) :
    Leaves (Session.Confined settings Holds) before (ensureClass name (.plain name flags)) :=
  confined.withProgram (unaffected.ensureClass adds generates confined.program)

theorem addField_leaves
    {owner : String}
    (generates : settings.Generates owner)
    (field : Field) :
    Leaves (Session.Confined settings Holds) before
      (changeProgram fun program => program.addField owner field) :=
  changeProgram_leaves confined fun _ _ added =>
    unaffected.addField generates confined.program added

theorem addGenerated_leaves
    {owner : String}
    (generates : settings.Generates owner)
    {method : Method}
    (distinct : method.DistinctLocals) :
    Leaves (Session.Confined settings Holds) before (addGenerated owner method) := by
  unfold addGenerated
  refine Leaves.bind ?_ fun _ _ confined => markGenerated_leaves confined _
  exact changeProgram_leaves confined fun _ _ added =>
    unaffected.addMethod generates distinct confined.program added

theorem ensureCounterClass_leaves :
    Leaves (Session.Confined settings Holds) before ensureCounterClass := by
  unfold ensureCounterClass
  apply Leaves.get_bind
  exact ensureClass_leaves unaffected confined (.inl ⟨confined.counters, rfl⟩)
    (.inl confined.counters)

theorem counterFor_leaves (owner : CounterOwner) (key : String) :
    Leaves (Session.Confined settings Holds) before (counterFor owner key) := by
  unfold counterFor
  apply Leaves.get_bind
  cases before.counters.fields.get? owner with
  | some field => exact .pure confined
  | none =>
    -- the name stays claimed whether or not the field can be declared
    have claimed :
        ({ before with counters := (before.counters.claim owner key).2 } : Session).Confined
          settings Holds :=
      ⟨confined.counters, confined.wrappers, confined.program, confined.settings⟩
    refine Leaves.bind (Leaves.set claimed) fun _ _ confined => ?_
    refine Leaves.bind (ensureCounterClass_leaves unaffected confined) fun _ _ confinedLater => ?_
    refine Leaves.bind (addField_leaves unaffected confinedLater (.inl claimed.counters) _)
      fun field between confined => ?_
    refine Leaves.bind (Leaves.modify ?_) fun _ _ confined => .pure confined
    exact ⟨confined.counters, confined.wrappers, confined.program, confined.settings⟩

theorem staticIncrementor_leaves (key label : String) (counter : FieldRef) :
    Leaves (Session.Confined settings Holds) before (staticIncrementor key label counter) := by
  unfold staticIncrementor
  apply Leaves.get_bind
  dsimp only
  split
  · exact .pure confined
  · refine Leaves.bind
      (addGenerated_leaves unaffected confined (.inl confined.counters)
        (.of_body rfl (List.nodup_singleton "$count")))
      fun _ _ confined => ?_
    exact Leaves.bind (record_leaves confined _) fun _ _ confined => .pure confined

theorem typeCounter_leaves (name : String) :
    Leaves (Session.Confined settings Holds) before (typeCounter name) := by
  unfold typeCounter
  apply Leaves.get_bind
  cases before.typeCounters.get? name with
  | some counter => exact .pure confined
  | none =>
    refine Leaves.bind (counterFor_leaves unaffected confined _ _) fun _ _ confined => ?_
    refine Leaves.bind (counterFor_leaves unaffected confined _ _) fun _ _ confined => ?_
    refine Leaves.bind (staticIncrementor_leaves unaffected confined _ _ _) fun _ _ confined => ?_
    refine Leaves.bind (staticIncrementor_leaves unaffected confined _ _ _) fun _ _ confined => ?_
    refine Leaves.bind (Leaves.modify ?_) fun _ _ confined => .pure confined
    exact ⟨confined.counters, confined.wrappers, confined.program, confined.settings⟩

theorem callCounter_leaves (name : String) :
    Leaves (Session.Confined settings Holds) before (callCounter name) := by
  unfold callCounter
  apply Leaves.get_bind
  cases before.callCounters.get? name with
  | some counter => exact .pure confined
  | none =>
    refine Leaves.bind (counterFor_leaves unaffected confined _ _) fun _ _ confined => ?_
    refine Leaves.bind (staticIncrementor_leaves unaffected confined _ _ _) fun _ _ confined => ?_
    refine Leaves.bind (Leaves.modify ?_) fun _ _ confined => .pure confined
    exact ⟨confined.counters, confined.wrappers, confined.program, confined.settings⟩

section Instrumenting

variable {className : String} (admits : AdmitsCounts Holds className)
include admits

theorem buildProfile_leaves :
    Leaves (Session.Confined settings Holds) before (buildProfile className) := by
  have declare
      {session : Session}
      (confined : session.Confined settings Holds)
      {name : String}
      (counts : isInstrumentationName name) :
      Leaves (Session.Confined settings Holds) session
        (changeProgram fun program => program.addField className ⟨name, .int, Field.synthetic⟩) :=
    changeProgram_leaves confined fun _ _ added => admits.field counts confined.program added
  unfold buildProfile
  refine Leaves.bind (counterFor_leaves unaffected confined _ _) fun _ _ confined => ?_
  refine Leaves.bind (record_leaves confined _) fun _ _ confined => ?_
  refine Leaves.bind (declare confined (by decide)) fun _ _ confined => ?_
  refine Leaves.bind (declare confined (by decide)) fun _ _ confined => ?_
  refine Leaves.bind (declare confined (by decide)) fun _ _ confined => ?_
  refine Leaves.bind (incrementor_leaves admits (.inl rfl) confined _ _) fun _ _ confined => ?_
  refine Leaves.bind (incrementor_leaves admits (.inr rfl) confined _ _) fun _ _ confined => ?_
  exact Leaves.get_bind (.pure confined)

theorem instrument_leaves :
    Leaves (Session.Confined settings Holds) before (instrument className) := by
  unfold instrument
  apply Leaves.get_bind
  cases before.profiles.get? className with
  | some profile => exact .pure confined
  | none =>
    cases before.program.class? className with
    | none => exact .throw confined
    | some declared =>
      dsimp only
      split
      · exact .throw_bind confined
      · refine Leaves.bind (buildProfile_leaves unaffected confined admits)
          fun profile between confined => ?_
        refine Leaves.bind (Leaves.modify ?_) fun _ _ confined =>
          Leaves.bind (record_leaves confined _) fun _ _ confined => .pure confined
        exact ⟨confined.counters, confined.wrappers, confined.program, confined.settings⟩

end Instrumenting

theorem addMember_leaves
    {owner : String}
    (generates : settings.Generates owner)
    (profile : Profile)
    (name : String)
    (parameters : List Ty)
    (result : Ty)
    {body : Body}
    (distinct : body.localNames.Nodup) :
    Leaves (Session.Confined settings Holds) before
      (addMember profile owner name parameters result body) := by
  have declare
      {body : Body}
      (distinct : body.localNames.Nodup) :
      Leaves (Session.Confined settings Holds) before
        (do
          addGenerated owner ⟨name, parameters, result, Method.synthetic, some body⟩
          return (⟨owner, name, parameters, result⟩ : MethodRef)) :=
    Leaves.bind (addGenerated_leaves unaffected confined generates (.of_body rfl distinct))
      fun _ _ confined => .pure confined
  unfold addMember
  apply Leaves.get_bind
  dsimp only
  split
  · exact .pure confined
  · split
    · exact Leaves.ofDefect_bind confined fun outcome patches =>
        declare (Body.localNames_patchConstructor_nodup distinct patches)
    · exact declare distinct

theorem buildWrapper_leaves
    {name : String}
    (generates : settings.Generates name)
    (element : Ty) :
    Leaves (Session.Confined settings Holds) before (buildWrapper name element) := by
  have admits := admitsCounts_of_generates unaffected generates
  unfold buildWrapper
  refine Leaves.bind (addField_leaves unaffected confined generates _) fun _ _ confined => ?_
  refine Leaves.bind (instrument_leaves unaffected confined admits) fun _ _ confined => ?_
  refine Leaves.bind (addMember_leaves unaffected confined generates _ _ _ _ ?_) fun _ _ confined => ?_
  · show ["r0", "r1"].Nodup
    decide
  refine Leaves.bind (addMember_leaves unaffected confined generates _ _ _ _ ?_) fun _ _ confined => ?_
  · show ["r0", "i0", "$array"].Nodup
    decide
  refine Leaves.bind (addMember_leaves unaffected confined generates _ _ _ _ ?_) fun _ _ confined => ?_
  · show ["r0", "i0", "$array", "$value"].Nodup
    decide
  refine Leaves.bind (addMember_leaves unaffected confined generates _ _ _ _ ?_) fun _ _ confined => ?_
  · show ["r0", "i0", "$value", "$array"].Nodup
    decide
  exact .pure confined

theorem wrapperFor_leaves (element : Ty) :
    Leaves (Session.Confined settings Holds) before (wrapperFor element) := by
  unfold wrapperFor
  apply Leaves.get_bind
  cases named : Wrapper.nameFor? before.settings element with
  | none => exact .pure confined
  | some name =>
    rw [confined.settings] at named
    have generates : settings.Generates name := .inr ⟨element, named⟩
    dsimp only
    cases before.wrappers.get? name with
    | some wrapper => exact .pure confined
    | none =>
      refine Leaves.bind
        (ensureClass_leaves unaffected confined (.inr ⟨⟨element, named⟩, rfl⟩) generates)
        fun created _ confined => ?_
      refine Leaves.bind (buildWrapper_leaves unaffected confined generates element)
        fun wrapper between confined => ?_
      refine Leaves.bind (Leaves.modify ?_) fun _ _ confined => ?_
      · refine ⟨confined.counters, ?_, confined.program, confined.settings⟩
        intro other isWrapper
        simp only [Session.isWrapper, Table.get?_put] at isWrapper
        split at isWrapper
        · rename_i same
          exact same ▸ generates
        · exact confined.wrappers isWrapper
      · split
        · exact Leaves.bind (record_leaves confined _) fun _ _ confined => .pure confined
        · exact .pure confined

theorem mapType_leaves (type : Ty) :
    Leaves (Session.Confined settings Holds) before (mapType type) :=
  .mapType (fun element _ confined => wrapperFor_leaves unaffected confined element) confined type

theorem mapM_mapType_leaves (types : List Ty) :
    Leaves (Session.Confined settings Holds) before (types.mapM mapType) :=
  .mapM_mapType (fun element _ confined => wrapperFor_leaves unaffected confined element) confined types

end Generating
end Transform
end AccessProfiler
