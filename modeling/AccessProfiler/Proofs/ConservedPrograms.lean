import AccessProfiler.Proofs.ConfinedPasses

/-!
# Transformations conserve programs

A transformation that fails half-way leaves the program half transformed.  Even so, every class that was
there stands where it stood, its methods are where they were and have bodies if they had, and what was
added to it are the members that count; a class that is not transformed is the same as before, and no
class is new but those of the generated code (`Program.Conserved`).

Bodies are taken out of the program while they are worked on.  What has to hold meanwhile is that the
program would be conserved with a body in that place.

The main statement is `transformProgram_conserves`.
-/

namespace AccessProfiler

/-- The method keeps its name and its flags, and has a body exactly if it had one. -/
structure Method.Kept (before after : Method) : Prop where
  name : after.name = before.name
  flags : after.flags = before.flags
  body : after.body.isSome = before.body.isSome

/-- The class stands where it stood.  Its fields and methods are in their places, and what stands behind
them are members that count. -/
structure Class.Kept (before after : Class) : Prop where
  name : after.name = before.name
  superclass : after.superclass = before.superclass
  interfaces : after.interfaces = before.interfaces
  kind : after.kind = before.kind
  flags : after.flags = before.flags
  fields :
    ∃ added, after.fields = before.fields ++ added ∧ ∀ field ∈ added, isInstrumentationName field.name
  methods :
    ∀ {index : Nat} {method : Method}, before.methods[index]? = some method →
      ∃ now, after.methods[index]? = some now ∧ method.Kept now
  added :
    ∀ {index : Nat} {now : Method}, before.methods[index]? = none → after.methods[index]? = some now →
      now.name = readIncrementor ∨ now.name = writeIncrementor

theorem Method.Kept.refl (method : Method) : method.Kept method :=
  ⟨rfl, rfl, rfl⟩

theorem Method.Kept.trans
    {before between after : Method}
    (kept : before.Kept between)
    (further : between.Kept after) :
    before.Kept after :=
  ⟨further.name.trans kept.name, further.flags.trans kept.flags, further.body.trans kept.body⟩

namespace Class.Kept

variable {before between after : Class}

theorem refl (declaration : Class) : declaration.Kept declaration where
  name := rfl
  superclass := rfl
  interfaces := rfl
  kind := rfl
  flags := rfl
  fields := ⟨[], (List.append_nil _).symm, fun _ member => absurd member List.not_mem_nil⟩
  methods found := ⟨_, found, .refl _⟩
  added absent found := by
    rw [absent] at found
    cases found

theorem trans (kept : before.Kept between) (further : between.Kept after) : before.Kept after where
  name := further.name.trans kept.name
  superclass := further.superclass.trans kept.superclass
  interfaces := further.interfaces.trans kept.interfaces
  kind := further.kind.trans kept.kind
  flags := further.flags.trans kept.flags
  fields := by
    obtain ⟨added, parts, counts⟩ := kept.fields
    obtain ⟨others, partsFurther, countsFurther⟩ := further.fields
    refine ⟨added ++ others, by rw [partsFurther, parts, List.append_assoc], ?_⟩
    intro field member
    rcases List.mem_append.1 member with first | later
    · exact counts field first
    · exact countsFurther field later
  methods found := by
    obtain ⟨middle, foundMiddle, keptMiddle⟩ := kept.methods found
    obtain ⟨now, foundNow, keptNow⟩ := further.methods foundMiddle
    exact ⟨now, foundNow, keptMiddle.trans keptNow⟩
  added {index} now absent found := by
    cases present : between.methods[index]? with
    | none => exact further.added present found
    | some middle =>
      obtain ⟨other, foundOther, keptOther⟩ := further.methods present
      obtain rfl := Option.some.inj (found.symm.trans foundOther)
      rw [keptOther.name]
      exact kept.added absent present

/-- A field that counts is declared. -/
theorem addField
    {field : Field}
    {reference : FieldRef}
    (counts : isInstrumentationName field.name)
    (added : before.addField field = .ok (reference, after)) :
    before.Kept after := by
  rcases Class.addField_cases added with ⟨_, _, _, _, rfl⟩ | ⟨_, _, rfl⟩
  · exact .refl _
  · refine { refl before with fields := ⟨[field], rfl, ?_⟩ }
    intro other member
    rw [List.mem_singleton.1 member]
    exact counts

/-- A method that counts is declared. -/
theorem addMethod
    {method : Method}
    (counts : method.name = readIncrementor ∨ method.name = writeIncrementor) :
    before.Kept { before with methods := before.methods ++ [method] } := by
  refine { refl before with methods := fun found => ?_, added := fun absent found => ?_ }
  · rw [List.getElem?_append_left (List.getElem?_eq_some_iff.1 found).1]
    exact ⟨_, found, .refl _⟩
  · rw [List.getElem?_append_right (List.getElem?_eq_none_iff.1 absent)] at found
    rw [List.mem_singleton.1 (List.mem_of_getElem? found)]
    exact counts

/-- A method is replaced by one that keeps what has to be kept. -/
theorem modify
    {index : Nat}
    {change : Method → Method}
    (keeps : ∀ method, before.methods[index]? = some method → method.Kept (change method)) :
    before.Kept { before with methods := before.methods.modify index change } := by
  refine { refl before with methods := fun {place} method found => ?_, added := fun absent found => ?_ }
  · by_cases same : index = place
    · subst same
      exact ⟨change method, by rw [List.getElem?_modify_eq, found]; rfl, keeps method found⟩
    · exact ⟨method, by rw [List.getElem?_modify_ne _ _ same, found], .refl _⟩
  · have bounded := (List.getElem?_eq_some_iff.1 found).1
    rw [List.length_modify] at bounded
    exact absurd (List.getElem?_eq_none_iff.1 absent) (Nat.not_le.2 bounded)

end Class.Kept

/-- The class is left as it is: it belongs to a library, is excluded or synthetic. -/
def Settings.LeavesAlone (settings : Settings) (name : String) (declaration : Class) : Prop :=
  declaration.isApplication = false ∨ settings.excludes name ∨ declaration.isSynthetic

/-- The program has the classes of the original one, those that are not transformed unchanged, and
besides only generated ones. -/
structure Program.Conserved (settings : Settings) (original current : Program) : Prop where
  kept :
    ∀ {name : String} {declaration : Class}, ¬ settings.Generates name →
      original.class? name = some declaration →
      ∃ now, current.class? name = some now ∧ declaration.Kept now
  untouched :
    ∀ {name : String} {declaration : Class}, ¬ settings.Generates name →
      original.class? name = some declaration → settings.LeavesAlone name declaration →
      current.class? name = some declaration
  added :
    ∀ {name : String} {now : Class}, original.class? name = none → current.class? name = some now →
      settings.Adds name now.flags

/-- The class of this name may be changed: it is generated, or one of those that are transformed. -/
def Program.Transforms (settings : Settings) (original : Program) (name : String) : Prop :=
  ¬ settings.Generates name →
    ∀ declaration, original.class? name = some declaration → ¬ settings.LeavesAlone name declaration

namespace Program.Conserved

variable {settings : Settings} {original current after : Program}

theorem refl (program : Program) : program.Conserved settings program where
  kept _ found := ⟨_, found, .refl _⟩
  untouched _ found _ := found
  added absent found := by
    rw [absent] at found
    cases found

/-- A program stays conserved when it grows by generated code. -/
theorem grown
    (conserved : original.Conserved settings current)
    (grown : current.Grown settings after) :
    original.Conserved settings after := by
  refine ⟨?_, ?_, ?_⟩
  · intro name declaration apart found
    rw [grown.others apart]
    exact conserved.kept apart found
  · intro name declaration apart found alone
    rw [grown.others apart]
    exact conserved.untouched apart found alone
  · intro name now absent found
    cases present : current.class? name with
    | none => exact grown.added present found
    | some middle =>
      obtain ⟨other, foundOther, grows⟩ := grown.kept present
      obtain rfl := Option.some.inj (found.symm.trans foundOther)
      exact grows.flags ▸ conserved.added absent present

/-- A class that may be changed is replaced by one that keeps what has to be kept. -/
theorem modifyClass
    {name : String}
    {change : Class → Class}
    (conserved : original.Conserved settings current)
    (transforms : original.Transforms settings name)
    (keeps :
      ∀ declaration, current.class? name = some declaration → declaration.Kept (change declaration)) :
    original.Conserved settings (current.modifyClass name change) where
  kept {other} declaration apart found := by
    obtain ⟨now, foundNow, kept⟩ := conserved.kept apart found
    rw [class?_modifyClass]
    by_cases same : other = name
    · subst same
      rw [if_pos rfl, foundNow]
      exact ⟨_, rfl, kept.trans (keeps now foundNow)⟩
    · rw [if_neg same]
      exact ⟨now, foundNow, kept⟩
  untouched {other} declaration apart found alone := by
    have differs : other ≠ name := by
      rintro rfl
      exact transforms apart declaration found alone
    rw [class?_modifyClass, if_neg differs]
    exact conserved.untouched apart found alone
  added {other} now absent found := by
    rw [class?_modifyClass] at found
    split at found
    · rename_i same
      subst same
      obtain ⟨old, foundOld, rfl⟩ := Option.map_eq_some_iff.1 found
      rw [(keeps old foundOld).flags]
      exact conserved.added absent foundOld
    · exact conserved.added absent found

theorem modifyMethod
    {id : MethodId}
    {change : Method → Method}
    (conserved : original.Conserved settings current)
    (transforms : original.Transforms settings id.owner)
    (keeps : ∀ method, current.method? id = some method → method.Kept (change method)) :
    original.Conserved settings (current.modifyMethod id change) := by
  refine conserved.modifyClass transforms fun declaration found => ?_
  refine Class.Kept.modify fun method indexed => keeps method ?_
  rw [Program.method?, found, Option.bind_some, indexed]

/-- Members that count can be declared on the classes that may be changed. -/
theorem admitsCounts
    {name : String}
    (transforms : original.Transforms settings name) :
    AdmitsCounts (original.Conserved settings) name where
  field counts conserved added := by
    obtain ⟨declaration, extended, found, extending, rfl⟩ := Program.addField_eq_ok added
    refine conserved.modifyClass transforms fun other foundOther => ?_
    obtain rfl := Option.some.inj (found.symm.trans foundOther)
    exact Class.Kept.addField counts extending
  method counts _ conserved added := by
    obtain ⟨declaration, found, -, rfl⟩ := Program.addMethod_eq_ok added
    refine conserved.modifyClass transforms fun other foundOther => ?_
    obtain rfl := Option.some.inj (found.symm.trans foundOther)
    exact Class.Kept.addMethod counts

/-- The classes that are transformed at any time are those that may be changed from the beginning. -/
theorem transforms
    {session : Session}
    {name : String}
    (confined : session.Confined settings (original.Conserved settings))
    (transformable : session.isTransformableClass name) :
    original.Transforms settings name := by
  intro apart declaration found alone
  have same := confined.program.untouched apart found alone
  simp only [Session.isTransformableClass, same, Option.any_some, Bool.and_eq_true, Bool.not_eq_true',
    confined.settings] at transformable
  obtain ⟨⟨⟨included, -⟩, -⟩, application, handwritten⟩ := transformable
  rcases alone with library | excluded | synthetic
  · rw [library] at application
    cases application
  · rw [included] at excluded
    cases excluded
  · rw [handwritten] at synthetic
    cases synthetic

end Program.Conserved

namespace Pass

variable {settings : Settings} {original : Program} {before : Session}

/-- The session is confined and its program conserved. -/
abbrev Conserves (settings : Settings) (original : Program) : Session → Prop :=
  Session.Confined settings (original.Conserved settings)

/-- Work on a body of a class that may be changed: the body is put back, whatever became of it. -/
theorem onMethod_leaves
    {id : MethodId}
    (transforms : original.Transforms settings id.owner)
    (conserves : Conserves settings original before)
    (pass : Pass) :
    Transform.Leaves (Conserves settings original) before (pass.onMethod id) := by
  -- what holds while the body is out: the method is there, and any body makes the program conserved
  let Waits (program : Program) : Prop :=
    (program.method? id).isSome ∧
      ∀ body, original.Conserved settings
        (program.modifyMethod id fun method => { method with body := some body })
  have unaffected : settings.Unaffected Waits := by
    refine .of_grown fun program grownProgram grown waits => ?_
    exact ⟨grown.method?_isSome waits.1, fun body => (waits.2 body).grown (grown.modifyMethod id _)⟩
  have works : Draft.Leaves (fun _ => Session.Confined settings Waits) (pass.onBody id) :=
    onBody_leaves (Session.Confined.ignoresGenerated unaffected) pass id
  refine onMethod_leaves_of Session.Confined.ignoresNotes conserves ?_ works ?_ ?_
  · intro body found
    obtain ⟨method, declared, bodied⟩ := Option.bind_eq_some_iff.1 found
    refine conserves.withProgram ⟨?_, fun other => ?_⟩
    · rw [Program.dropBody, Program.method?_modifyMethod, if_pos rfl, declared]
      rfl
    · rw [Program.dropBody, Program.modifyMethod_modifyMethod]
      refine conserves.program.modifyMethod transforms fun known same => ?_
      obtain rfl := Option.some.inj (declared.symm.trans same)
      exact ⟨rfl, rfl, by rw [bodied]; rfl⟩
  · intro session body error waits lost
    obtain ⟨there, present⟩ := Option.isSome_iff_exists.1 waits.program.1
    rw [Program.setBody, present] at lost
    cases lost
  · intro session body waits
    exact waits.withProgram (waits.program.2 body)

/-- Whatever passes do to classes that may be changed conserves the program. -/
theorem admitsPasses (settings : Settings) (original : Program) :
    settings.AdmitsPasses (original.Conserved settings) (original.Transforms settings) where
  unaffected := .of_grown fun _ _ grown conserved => conserved.grown grown
  transforms conserves transformable := Program.Conserved.transforms conserves transformable
  counts transforms := Program.Conserved.admitsCounts transforms
  signature _ _ transforms conserved :=
    conserved.modifyMethod transforms fun _ _ => ⟨rfl, rfl, rfl⟩
  body pass transforms conserves := onMethod_leaves transforms conserves pass

theorem runAll_leaves (conserves : Conserves settings original before) (passes : List Pass) :
    Transform.Leaves (Conserves settings original) before (runAll passes) :=
  runAll_leaves_of (admitsPasses settings original) conserves passes

end Pass

/-- Whether a transformation succeeds or fails, it conserves the program. -/
theorem transformProgram_conserves (program : Program) (settings : Settings) :
    program.Conserved settings (transformProgram program settings).2.program := by
  have start : Pass.Conserves settings program (.start settings program) := .start (.refl program)
  have leaves :
      Transform.Leaves (Pass.Conserves settings program) (.start settings program)
        Transform.pipeline := by
    unfold Transform.pipeline
    apply Transform.Leaves.get_bind
    refine Transform.Leaves.bind (Pass.runAll_leaves start _) fun _ _ conserves => ?_
    split
    · exact Transform.checkProgram_leaves conserves
    · exact .pure conserves
  exact leaves.program

end AccessProfiler
