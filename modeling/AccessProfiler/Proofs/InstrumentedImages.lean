import AccessProfiler.Proofs.FittingPrograms
import AccessProfiler.Proofs.SpelledNames

/-!
# Instrumented images can be loaded again

An image can be loaded again if something is read from what is written for it and makes a program with
the same image (`Program.Reloads`).  The names of classes are arbitrary texts and types are not, so
whether that holds of a transformed program is a matter of the types that were made from names: the image
can be loaded again exactly if each of its types is read back from its spelling
(`transformProgram_reloads`).  That can be told before the transformation.  It holds if the classes that
are instrumented have names that are types, and, where arrays are wrapped, if the package of the wrappers
is a class name and bodies make nothing whose type has no spelling (`Program.NamesSpelled`).
-/

namespace AccessProfiler

open Schema

/-! ## Loading -/

namespace Program

variable {program after reloaded : Program}

/-- A class is added at the end, under its own name. -/
theorem addClass_eq_ok_iff {declaration : Class} :
    program.addClass declaration = .ok after ↔
      after.entries = program.entries ++ [(declaration.name, declaration)] := by
  unfold addClass
  split
  · rename_i declared found
    refine ⟨nofun, fun same => ?_⟩
    have taken := List.mem_map_of_mem (f := Prod.fst) (mem_entries_of_class? found)
    have distinct := after.distinct
    rw [same, List.map_append, List.nodup_append] at distinct
    exact absurd rfl (distinct.2.2 _ taken _ List.mem_cons_self)
  · constructor
    · rintro ⟨⟩
      rfl
    · intro same
      cases after
      cases same
      rfl

theorem foldlM_addClass_eq_ok_iff {classes : List Class} :
    classes.foldlM addClass program = .ok after ↔
      after.entries =
        program.entries ++ classes.map fun declaration => (declaration.name, declaration) := by
  induction classes generalizing program with
  | nil =>
    rw [List.foldlM_nil, List.map_nil, List.append_nil]
    constructor
    · rintro ⟨⟩
      rfl
    · intro same
      cases program
      cases after
      cases same
      rfl
  | cons declaration rest hypothesis =>
    rw [List.foldlM_cons, List.map_cons]
    constructor
    · intro loads
      cases added : program.addClass declaration with
      | error error =>
        rw [added] at loads
        cases loads
      | ok next =>
        rw [added] at loads
        rw [hypothesis.1 loads, addClass_eq_ok_iff.1 added, List.append_assoc]
        rfl
    · intro same
      rw [List.append_cons] at same
      have distinct := after.distinct
      rw [same, List.map_append, List.nodup_append] at distinct
      have added : program.addClass declaration = .ok ⟨_, distinct.1⟩ := addClass_eq_ok_iff.2 rfl
      rw [added]
      exact hypothesis.2 same

/-- A list of classes makes the program in which each is registered under its own name. -/
theorem ofClasses_eq_ok_iff {classes : List Class} :
    ofClasses classes = .ok program ↔
      program.entries = classes.map fun declaration => (declaration.name, declaration) :=
  foldlM_addClass_eq_ok_iff

theorem classes_of_ofClasses {classes : List Class} (loads : ofClasses classes = .ok program) :
    program.classes = classes := by
  rw [Program.classes, ofClasses_eq_ok_iff.1 loads, List.map_map]
  exact List.map_id classes

theorem wellNamed_of_ofClasses {classes : List Class} (loads : ofClasses classes = .ok program) :
    program.WellNamed := by
  intro entry member
  rw [ofClasses_eq_ok_iff.1 loads] at member
  obtain ⟨declaration, -, rfl⟩ := List.mem_map.1 member
  rfl

end Program

/-! ## Images -/

section Names

variable {Item : Type} (name : Item → String)

theorem names_trans
    (first second third : Item)
    (before : decide (name first ≤ name second))
    (after : decide (name second ≤ name third)) :
    decide (name first ≤ name third) := by
  rw [decide_eq_true_iff] at *
  exact String.le_trans before after

theorem names_total (left right : Item) :
    decide (name left ≤ name right) || decide (name right ≤ name left) := by
  rw [Bool.or_eq_true, decide_eq_true_iff, decide_eq_true_iff]
  exact String.le_total _ _

/-- Items that are sorted by name are in order. -/
theorem pairwise_mergeSort_names (items : List Item) :
    (items.mergeSort fun left right => name left ≤ name right).Pairwise
      fun left right => decide (name left ≤ name right) :=
  List.pairwise_mergeSort (names_trans name) (names_total name) items

end Names

namespace Class

variable {declaration : Class}

theorem name_canonical : declaration.canonical.name = declaration.name := by
  unfold canonical
  split <;> rfl

/-- The members of the class of the counters are in order after they were put so. -/
theorem canonical_canonical : declaration.canonical.canonical = declaration.canonical := by
  cases counts : declaration.flags.includes counterFlag with
  | false =>
    have same : declaration.canonical = declaration := by
      rw [canonical, counts, if_neg Bool.false_ne_true]
    rw [same, same]
  | true =>
    have sorted : declaration.canonical =
        { declaration with
          fields := declaration.fields.mergeSort fun left right => left.name ≤ right.name
          methods := declaration.methods.mergeSort fun left right => left.name ≤ right.name } := by
      rw [canonical, counts, if_pos rfl]
    rw [sorted, canonical, counts, if_pos rfl,
      List.mergeSort_of_pairwise (pairwise_mergeSort_names Field.name declaration.fields),
      List.mergeSort_of_pairwise (pairwise_mergeSort_names Method.name declaration.methods)]

theorem mem_leaves_canonical {leaf : Leaf} :
    leaf ∈ declaration.canonical.leaves ↔ leaf ∈ declaration.leaves := by
  unfold canonical
  split
  · simp only [leaves, List.mem_append, List.mem_map, List.mem_flatMap, List.mem_mergeSort]
  · rfl

end Class

namespace Program

variable {program reloaded : Program}

/-- The leaves of the image are those of the classes. -/
theorem mem_imageLeaves_image {leaf : Leaf} :
    leaf ∈ imageLeaves program.image ↔
      ∃ declaration ∈ program.classes, leaf ∈ declaration.leaves := by
  simp only [imageLeaves, image, List.mem_flatMap, List.mem_map, List.mem_mergeSort,
    exists_exists_and_eq_and, Class.mem_leaves_canonical]

/-- The classes of an image make a program with the same image. -/
theorem image_of_ofClasses_image (loads : ofClasses program.image = .ok reloaded) :
    reloaded.image = program.image := by
  have inOrder : program.image.Pairwise fun left right => decide (left.name ≤ right.name) := by
    rw [image, List.pairwise_map]
    simp only [Class.name_canonical]
    exact pairwise_mergeSort_names Class.name program.classes
  rw [image, classes_of_ofClasses loads, List.mergeSort_of_pairwise inOrder, image, List.map_map]
  exact List.map_congr_left fun declaration _ => Class.canonical_canonical

/-- The classes of an image make a program if each was registered under its own name. -/
theorem WellNamed.exists_ofClasses_image (wellNamed : program.WellNamed) :
    ∃ reloaded, ofClasses program.image = .ok reloaded := by
  have own : program.classes.map Class.name = program.names := by
    rw [classes, names, List.map_map]
    exact List.map_congr_left wellNamed
  have inImage :
      program.image.map Class.name =
        (program.classes.mergeSort fun left right => left.name ≤ right.name).map Class.name := by
    rw [image, List.map_map]
    exact List.map_congr_left fun _ _ => Class.name_canonical
  have distinct :
      ((program.image.map fun declaration => (declaration.name, declaration)).map
        Prod.fst).Nodup := by
    rw [List.map_map]
    show (program.image.map Class.name).Nodup
    rw [inImage, ((List.mergeSort_perm _ _).map Class.name).nodup_iff, own]
    exact program.distinct
  exact ⟨⟨_, distinct⟩, ofClasses_eq_ok_iff.2 rfl⟩

/-- What is read from what is written for the image makes a program with the same image. -/
def Reloads (program : Program) : Prop :=
  ∃ classes reloaded, imageOfJson (imageToJson program.image) = .ok classes ∧
    ofClasses classes = .ok reloaded ∧ reloaded.image = program.image

/-- The names that transforming the program makes types from are spelled as types are. -/
structure NamesSpelled (settings : Settings) (program : Program) : Prop where
  package : settings.arrays → settings.package = "" ∨ isClassName settings.package.toList
  instances :
    settings.objects → ∀ name ∈ program.names,
      (Session.start settings program).isTransformableClass name →
        program.isInterface name = false → (Ty.object name).IsSpelled
  made :
    settings.arrays → ∀ body ∈ program.bodies, ∀ instruction ∈ body.instructions,
      ∀ type ∈ instruction.made?, type.IsSpelled

instance (settings : Settings) (program : Program) : Decidable (program.NamesSpelled settings) :=
  decidable_of_iff
    ((settings.arrays → settings.package = "" ∨ isClassName settings.package.toList) ∧
      (settings.objects → ∀ name ∈ program.names,
        (Session.start settings program).isTransformableClass name →
          program.isInterface name = false → (Ty.object name).IsSpelled) ∧
      (settings.arrays → ∀ body ∈ program.bodies, ∀ instruction ∈ body.instructions,
        ∀ type ∈ instruction.made?, type.IsSpelled))
    ⟨fun ⟨package, instances, made⟩ => ⟨package, instances, made⟩,
      fun spelled => ⟨spelled.package, spelled.instances, spelled.made⟩⟩

/-- A program whose image can be loaded again has spelled types only. -/
theorem Reloads.isSpelled
    {type : Ty}
    (reloads : program.Reloads)
    (member : Leaf.type type ∈ imageLeaves program.image) :
    type.IsSpelled := by
  obtain ⟨classes, reloaded, reads, loads, same⟩ := reloads
  rw [← same] at member
  obtain ⟨declaration, among, below⟩ := mem_imageLeaves_image.1 member
  rw [classes_of_ofClasses loads] at among
  have inRead : Leaf.type type ∈ imageLeaves classes :=
    List.mem_flatMap.2 ⟨declaration, among, below⟩
  exact Ty.isSpelled_iff.2 (isReadable_of_imageOfJson reads _ inRead)

/-- A program that was read without floating point literals fits if every spelled type is admitted and
so is what its bodies make where arrays are wrapped. -/
theorem fits_of_imageOfJson
    {settings : Settings}
    {Admits : Ty → Prop}
    {json : Json}
    {classes : List Class}
    (reads : imageOfJson json = .ok classes)
    (exact : ∀ leaf ∈ imageLeaves classes, leaf.IsExact)
    (loads : ofClasses classes = .ok program)
    (admitted : ∀ type : Ty, type.IsSpelled → Admits type)
    (made :
      settings.arrays → ∀ body ∈ program.bodies, ∀ instruction ∈ body.instructions,
        ∀ type ∈ instruction.made?, Admits type) :
    program.Fitting settings Admits program := by
  have leafFits (leaf : Leaf) (member : leaf ∈ imageLeaves classes) :
      leaf.Fitting Admits (Nat.pow 2 32) := by
    have readable := isReadable_of_imageOfJson reads leaf member
    cases leaf with
    | type spelled => exact admitted spelled (Ty.isSpelled_iff.2 readable)
    | slot id => exact readable
    | position index => exact readable
    | literal value => exact exact _ member
  refine ⟨wellNamed_of_ofClasses loads, fun name declaration found => ?_,
    fun name declaration found => .inr ⟨declaration, found, rfl, rfl⟩⟩
  have among : declaration ∈ classes := by
    rw [← classes_of_ofClasses loads]
    exact mem_classes_of_class? found
  refine .of_leaves (fun leaf below => leafFits leaf (List.mem_flatMap.2 ⟨declaration, among, below⟩))
    fun wraps method member body given => made wraps body (mem_bodies found member given)

/-- The leaves of the image of a program that fits do so if the locals of its bodies can be
numbered. -/
theorem Fitting.imageLeaves_fit
    {settings : Settings}
    {Admits : Ty → Prop}
    {original : Program}
    (fits : original.Fitting settings Admits program)
    (numbered : ∀ body ∈ program.bodies, body.locals.length ≤ Nat.pow 2 32) :
    ∀ leaf ∈ imageLeaves program.image, leaf.Fitting Admits (Nat.pow 2 32) := by
  intro leaf member
  obtain ⟨declaration, among, below⟩ := mem_imageLeaves_image.1 member
  obtain ⟨⟨name, _⟩, registered, rfl⟩ := List.mem_map.1 among
  have found := class?_of_mem_entries registered
  exact (fits.classes name _ found).leaves_fit
    (fun method holds body given => numbered body (mem_bodies found holds given)) leaf below

end Program

/-- An instrumented image can be loaded again exactly if each of its types is read back from its
spelling, which is so if the types that are made from names are spelled. -/
theorem transformProgram_reloads
    {json : Json}
    {classes : List Class}
    {program : Program}
    {settings : Settings}
    {session : Session}
    (reads : imageOfJson json = .ok classes)
    (exact : ∀ leaf ∈ imageLeaves classes, leaf.IsExact)
    (loads : Program.ofClasses classes = .ok program)
    (transformed : transformProgram program settings = (.ok (), session))
    (numbered : ∀ body ∈ session.program.bodies, body.locals.length ≤ Nat.pow 2 32) :
    (session.program.Reloads ↔
      ∀ type, Leaf.type type ∈ imageLeaves session.program.image →
        Ty.parse type.render = .ok type) ∧
      (program.NamesSpelled settings → session.program.Reloads) := by
  have reloads_iff :
      session.program.Reloads ↔
        ∀ type, Leaf.type type ∈ imageLeaves session.program.image →
          Ty.parse type.render = .ok type := by
    refine ⟨fun reloads type member => Ty.parse_render (reloads.isSpelled member), fun parsed => ?_⟩
    have fits : program.Fitting settings (fun _ => True) session.program :=
      transformProgram_fits settings.admission_all (fun _ _ _ _ => trivial)
        (Program.fits_of_imageOfJson reads exact loads (fun _ _ => trivial)
          fun _ _ _ _ _ _ _ => trivial) transformed
    have portable : ∀ leaf ∈ imageLeaves session.program.image, leaf.IsPortable := by
      intro leaf member
      have leafFits := fits.imageLeaves_fit numbered leaf member
      cases leaf with
      | type spelled => exact ⟨⟨_, parsed spelled member⟩, trivial⟩
      | slot id => exact ⟨leafFits, trivial⟩
      | position index => exact ⟨leafFits, trivial⟩
      | literal value => exact ⟨trivial, leafFits⟩
    obtain ⟨reloaded, loaded⟩ := fits.named.exists_ofClasses_image
    exact ⟨_, reloaded, imageOfJson_of_portable portable, loaded,
      Program.image_of_ofClasses_image loaded⟩
  refine ⟨reloads_iff, fun spelled => reloads_iff.2 fun type member => ?_⟩
  have instances : settings.objects → Pass.AdmitsInstances settings Ty.IsSpelled program := by
    intro objects name transformable noInterface
    obtain ⟨declaration, found, -⟩ := Session.class?_of_isTransformableClass transformable
    have registered : name ∈ program.names :=
      List.mem_map_of_mem (Program.mem_entries_of_class? found)
    exact spelled.instances objects name registered transformable noInterface
  have fits : program.Fitting settings Ty.IsSpelled session.program :=
    transformProgram_fits (Settings.admission_isSpelled spelled.package) instances
      (Program.fits_of_imageOfJson reads exact loads (fun _ => id) spelled.made) transformed
  exact Ty.parse_render (fits.imageLeaves_fit numbered _ member)

/-- A class whose one method makes an array, under a given name. -/
def pricesClass (name : String) : Class where
  name := name
  superclass := some objectClass
  interfaces := []
  kind := .application
  flags := .none
  fields := []
  methods :=
    [{ name := "prices"
       parameters := [.int]
       result := .array .int
       flags := Method.static
       body := some
        { locals := [⟨"count", .int⟩, ⟨"prices", .array .int⟩]
          instructions :=
            [.bind ⟨0⟩ (.parameter 0 .int),
              .assign (.variable ⟨1⟩) (.newArray .int (.variable ⟨0⟩)),
              .return (some (.variable ⟨1⟩))] } }]

def pricesProgram (name : String) : Program where
  entries := [(name, pricesClass name)]
  distinct := List.nodup_singleton _

theorem prices_reloads :
    imageOfJson (imageToJson [pricesClass "shop.Prices"]) = .ok [pricesClass "shop.Prices"] ∧
      (∀ leaf ∈ imageLeaves [pricesClass "shop.Prices"], leaf.IsExact) ∧
      Program.ofClasses [pricesClass "shop.Prices"] = .ok (pricesProgram "shop.Prices") ∧
      (transformProgram (pricesProgram "shop.Prices") .standard).1 = .ok () ∧
      (pricesProgram "shop.Prices").NamesSpelled .standard ∧
      (transformProgram (pricesProgram "shop.Prices") .standard).2.program.Reloads := by
  have reads :
      imageOfJson (imageToJson [pricesClass "shop.Prices"]) = .ok [pricesClass "shop.Prices"] := by
    decide +kernel
  have exact : ∀ leaf ∈ imageLeaves [pricesClass "shop.Prices"], leaf.IsExact := by decide +kernel
  have loads : Program.ofClasses [pricesClass "shop.Prices"] = .ok (pricesProgram "shop.Prices") :=
    Program.ofClasses_eq_ok_iff.2 rfl
  have run :
      (transformProgram (pricesProgram "shop.Prices") .standard).1 = .ok () ∧
        ∀ body ∈ (transformProgram (pricesProgram "shop.Prices") .standard).2.program.bodies,
          body.locals.length ≤ Nat.pow 2 32 := by
    decide +kernel
  have spelled : (pricesProgram "shop.Prices").NamesSpelled .standard := by decide +kernel
  have ends {outcome : Except Error Unit × Session} (succeeds : outcome.1 = .ok ()) :
      outcome = (.ok (), outcome.2) := Prod.ext succeeds rfl
  exact ⟨reads, exact, loads, run.1, spelled,
    (transformProgram_reloads reads exact loads (ends run.1) run.2).2 spelled⟩

/-- A name that is no type, as compilers give it to the companion of an interface: the class is
instrumented, and what is written for the program cannot be loaded. -/
theorem companion_not_reloads :
    imageOfJson (imageToJson [pricesClass "shop.Prices$-CC"]) = .ok [pricesClass "shop.Prices$-CC"] ∧
      (∀ leaf ∈ imageLeaves [pricesClass "shop.Prices$-CC"], leaf.IsExact) ∧
      Program.ofClasses [pricesClass "shop.Prices$-CC"] = .ok (pricesProgram "shop.Prices$-CC") ∧
      (transformProgram (pricesProgram "shop.Prices$-CC") .standard).1 = .ok () ∧
      ¬ (transformProgram (pricesProgram "shop.Prices$-CC") .standard).2.program.Reloads := by
  have run :
      (transformProgram (pricesProgram "shop.Prices$-CC") .standard).1 = .ok () ∧
        ∃ declaration ∈ (transformProgram (pricesProgram "shop.Prices$-CC") .standard).2.program.classes,
          Leaf.type (.object "shop.Prices$-CC") ∈ declaration.leaves := by
    decide +kernel
  refine ⟨by decide +kernel, by decide +kernel, Program.ofClasses_eq_ok_iff.2 rfl, run.1,
    fun reloads => ?_⟩
  have spelled := reloads.isSpelled (Program.mem_imageLeaves_image.2 run.2)
  exact absurd spelled (by decide +kernel)

end AccessProfiler
