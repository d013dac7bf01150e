import AccessProfiler.Proofs.InstrumentedImages
import AccessProfiler.Proofs.Searches

/-!
# Images are canonical

The image of a program lists its classes by name, so it does not depend on the order in which they came
in or are enumerated, and it puts the members of the class of the counters in the order of their names.
Sorting is stable: of the members that have one name, the first stays the first.  So nothing that is
looked up in a program changes when the program is made from its image (`Program.sameDeclarations`),
whatever members are declared twice.  The main statement is `ofClasses_canonical`.
-/

namespace AccessProfiler

/-! ## Sorting by name -/

section Sorting

variable {Item : Type} {name : Item → String}

/-- Items of one name stay in the order in which they were. -/
theorem filter_mergeSort_names (name : Item → String) (items : List Item) (key : String) :
    (items.mergeSort fun left right => name left ≤ name right).filter (fun item => name item == key) =
      items.filter fun item => name item == key := by
  have inOrder :
      (items.filter fun item => name item == key).Pairwise
        fun left right => decide (name left ≤ name right) := by
    refine List.pairwise_of_forall_mem_list fun left memberLeft right memberRight => ?_
    have first : name left = key := by simpa using (List.mem_filter.1 memberLeft).2
    have second : name right = key := by simpa using (List.mem_filter.1 memberRight).2
    simp only [first, second, String.le_refl, decide_true]
  have kept := List.sublist_mergeSort (names_trans name) (names_total name) inOrder List.filter_sublist
  have keptAmong := kept.filter fun item => name item == key
  rw [List.filter_filter] at keptAmong
  simp only [Bool.and_self] at keptAmong
  refine (keptAmong.eq_of_length ?_).symm
  exact ((List.mergeSort_perm items _).filter _).length_eq.symm

/-- What is looked for under one name is found first as it was. -/
theorem find?_mergeSort_names
    {items : List Item}
    {fits : Item → Bool}
    {key : String}
    (named : ∀ item, fits item → name item = key) :
    (items.mergeSort fun left right => name left ≤ name right).find? fits = items.find? fits := by
  have among (list : List Item) :
      list.find? fits = (list.filter fun item => name item == key).find? fits := by
    rw [List.find?_filter]
    congr 1
    funext item
    cases fitting : fits item with
    | true => simp [named item fitting]
    | false => simp
  rw [among, filter_mergeSort_names, ← among]

/-- Items of different names have one order. -/
theorem mergeSort_names_eq_of_perm
    {items others : List Item}
    (distinct : (items.map name).Nodup)
    (same : others.Perm items) :
    (others.mergeSort fun left right => name left ≤ name right) =
      items.mergeSort fun left right => name left ≤ name right := by
  have sorted (list : List Item) :
      (list.mergeSort fun left right => name left ≤ name right).Perm list :=
    List.mergeSort_perm list _
  refine List.Perm.eq_of_pairwise (fun left right memberLeft memberRight before after => ?_)
    (pairwise_mergeSort_names name others) (pairwise_mergeSort_names name items)
    ((sorted others).trans (same.trans (sorted items).symm))
  rw [decide_eq_true_iff] at before after
  have inItems : left ∈ items := same.mem_iff.1 ((sorted others).mem_iff.1 memberLeft)
  exact List.inj_on_of_nodup_map distinct inItems ((sorted items).mem_iff.1 memberRight)
    (String.le_antisymm before after)

end Sorting

namespace Class

/-- The classes are the same but for the order of their members, which is the same as well unless they
are classes of counters. -/
structure Rearranged (declaration other : Class) : Prop where
  shape : other.shape = declaration.shape
  fields : other.fields.Perm declaration.fields
  methods : other.methods.Perm declaration.methods
  counters : declaration.flags.includes counterFlag = false → other = declaration

/-- Classes that are the same but for the order of members of different names have one canonical form. -/
theorem Rearranged.canonical_eq
    {declaration other : Class}
    (rearranged : declaration.Rearranged other)
    (fields : (declaration.fields.map Field.name).Nodup)
    (methods : (declaration.methods.map Method.name).Nodup) :
    other.canonical = declaration.canonical := by
  have flags : other.flags = declaration.flags := (Class.mk.inj rearranged.shape).2.2.2.2.1
  unfold canonical
  rw [flags, mergeSort_names_eq_of_perm fields rearranged.fields,
    mergeSort_names_eq_of_perm methods rearranged.methods]
  split_ifs with counts
  · have shape := rearranged.shape
    cases declaration
    cases other
    simp only [Class.shape, Class.mk.injEq] at shape ⊢
    simp [shape]
  · exact rearranged.counters (by simpa using counts)

variable (declaration : Class)

theorem rearranged_canonical : declaration.Rearranged declaration.canonical := by
  unfold canonical
  split_ifs with counts
  · exact ⟨rfl, List.mergeSort_perm _ _, List.mergeSort_perm _ _,
      fun other => absurd counts (by simp [other])⟩
  · exact ⟨rfl, .refl _, .refl _, fun _ => rfl⟩

theorem shape_canonical : declaration.canonical.shape = declaration.shape :=
  declaration.rearranged_canonical.shape

theorem field?_canonical (name : String) :
    declaration.canonical.field? name = declaration.field? name := by
  unfold canonical
  split_ifs
  · exact find?_mergeSort_names fun field same => by simpa using same
  · rfl

theorem method?_canonical (name : String) (parameters : List Ty) :
    declaration.canonical.method? name parameters = declaration.method? name parameters := by
  unfold canonical
  split_ifs
  · exact find?_mergeSort_names fun method fits => by
      exact beq_iff_eq.1 (Bool.and_eq_true_iff.1 fits).1
  · rfl

theorem methodNamed?_canonical (name : String) :
    declaration.canonical.methodNamed? name = declaration.methodNamed? name := by
  unfold canonical
  split_ifs
  · exact find?_mergeSort_names fun method same => by simpa using same
  · rfl

end Class

namespace Program

/-- The programs declare the same under every name: the members of each class, and what is found along
the hierarchy. -/
structure SameDeclarations (program other : Program) : Prop where
  field? :
    ∀ owner name,
      (other.class? owner).map (·.field? name) = (program.class? owner).map (·.field? name)
  method? :
    ∀ owner name parameters,
      (other.class? owner).map (·.method? name parameters) =
        (program.class? owner).map (·.method? name parameters)
  methodNamed? :
    ∀ owner name,
      (other.class? owner).map (·.methodNamed? name) =
        (program.class? owner).map (·.methodNamed? name)
  resolveField? : ∀ owner name, other.resolveField? owner name = program.resolveField? owner name
  resolveMethod? :
    ∀ owner name parameters,
      other.resolveMethod? owner name parameters = program.resolveMethod? owner name parameters

variable {program other : Program}

/-- Programs with the same classes in canonical form declare the same. -/
theorem sameDeclarations
    (classes : ∀ name, other.class? name = (program.class? name).map Class.canonical) :
    program.SameDeclarations other := by
  have hierarchy : SameHierarchy (fun _ => True) program other := by
    intro name _
    rw [classes, Option.map_map]
    exact Option.map_congr fun declaration _ => declaration.shape_canonical
  have closed : program.ClosedAbove fun _ => True := fun _ _ _ _ => trivial
  exact
    { field? := fun owner name => by
        rw [classes, Option.map_map]
        exact Option.map_congr fun declaration _ => declaration.field?_canonical name
      method? := fun owner name parameters => by
        rw [classes, Option.map_map]
        exact Option.map_congr fun declaration _ => declaration.method?_canonical name parameters
      methodNamed? := fun owner name => by
        rw [classes, Option.map_map]
        exact Option.map_congr fun declaration _ => declaration.methodNamed?_canonical name
      resolveField? := fun owner name => by
        have chains : other.chain owner = program.chain owner :=
          hierarchy.chainUpTo_eq closed trivial chainLimit
        unfold Program.resolveField?
        rw [chains]
        refine findSome?_eq_of_eq fun ancestor _ => ?_
        unfold declaredField?
        rw [classes, Option.bind_map]
        refine Option.bind_congr fun declaration _ => ?_
        rw [Function.comp, declaration.field?_canonical, declaration.name_canonical]
      resolveMethod? := fun owner name parameters => by
        rw [resolveMethod?_eq_findSome?, resolveMethod?_eq_findSome?,
          hierarchy.searched_eq closed trivial]
        refine findSome?_eq_of_eq fun ancestor _ => ?_
        unfold declaredMethod?
        rw [classes, Option.bind_map]
        refine Option.bind_congr fun declaration _ => ?_
        rw [Function.comp, declaration.method?_canonical] }

/-! ## Lists of classes -/

/-- The image of classes that are enumerated in some order. -/
def imageOf (classes : List Class) : List Class :=
  (classes.mergeSort fun left right => left.name ≤ right.name).map Class.canonical

theorem image_eq (program : Program) : program.image = imageOf program.classes :=
  rfl

section Images

variable {classes others : List Class}

/-- Classes of different names have one image, in whichever order they are enumerated. -/
theorem imageOf_eq_of_perm (distinct : (classes.map Class.name).Nodup) (same : others.Perm classes) :
    imageOf others = imageOf classes := by
  unfold imageOf
  rw [mergeSort_names_eq_of_perm distinct same]

theorem map_name_imageOf (classes : List Class) :
    (imageOf classes).map Class.name =
      (classes.mergeSort fun left right => left.name ≤ right.name).map Class.name := by
  unfold imageOf
  rw [List.map_map]
  exact List.map_congr_left fun _ _ => Class.name_canonical

theorem perm_map_name_imageOf (classes : List Class) :
    ((imageOf classes).map Class.name).Perm (classes.map Class.name) := by
  rw [map_name_imageOf]
  exact (List.mergeSort_perm classes _).map Class.name

/-- An image of classes of different names is in strict order. -/
theorem imageOf_sorted (distinct : (classes.map Class.name).Nodup) :
    (imageOf classes).Pairwise fun left right => left.name < right.name := by
  have inOrder := pairwise_mergeSort_names Class.name classes
  have different := (perm_map_name_imageOf classes).nodup_iff.2 distinct
  rw [map_name_imageOf, List.nodup_iff_pairwise_ne, List.pairwise_map] at different
  unfold imageOf
  rw [List.pairwise_map]
  refine (inOrder.and different).imp fun {left right} both => ?_
  rw [Class.name_canonical, Class.name_canonical]
  refine String.not_le.1 fun reversed => both.2 ?_
  exact String.le_antisymm (decide_eq_true_iff.1 both.1) reversed

/-- A list of classes makes a program exactly if their names differ. -/
theorem exists_ofClasses_iff :
    (∃ program, ofClasses classes = .ok program) ↔ (classes.map Class.name).Nodup := by
  have names :
      (classes.map fun declaration => (declaration.name, declaration)).map Prod.fst =
        classes.map Class.name := by
    rw [List.map_map]
    rfl
  constructor
  · rintro ⟨program, loads⟩
    rw [← names, ← ofClasses_eq_ok_iff.1 loads]
    exact program.distinct
  · intro distinct
    rw [← names] at distinct
    exact ⟨⟨_, distinct⟩, ofClasses_eq_ok_iff.2 rfl⟩

/-- Classes are refused for the name of one of them only. -/
theorem foldlM_addClass_eq_error
    {error : Error}
    (refused : classes.foldlM addClass program = .error error) :
    ∃ declaration ∈ classes, error = .duplicateClass declaration.name := by
  induction classes generalizing program with
  | nil => cases refused
  | cons declaration rest hypothesis =>
    rw [List.foldlM_cons] at refused
    cases added : program.addClass declaration with
    | error cause =>
      rw [added] at refused
      cases refused
      unfold addClass at added
      split at added
      · cases added
        exact ⟨declaration, List.mem_cons_self, rfl⟩
      · cases added
    | ok next =>
      rw [added] at refused
      obtain ⟨other, member, cause⟩ := hypothesis refused
      exact ⟨other, List.mem_cons_of_mem _ member, cause⟩

/-- A program made of classes finds each of them under its name. -/
theorem class?_eq_some_of_ofClasses
    (loads : ofClasses classes = .ok program)
    {name : String}
    {declaration : Class} :
    program.class? name = some declaration ↔ declaration ∈ classes ∧ declaration.name = name := by
  have entries := ofClasses_eq_ok_iff.1 loads
  constructor
  · intro found
    have member := mem_entries_of_class? found
    rw [entries, List.mem_map] at member
    obtain ⟨other, among, same⟩ := member
    cases same
    exact ⟨among, rfl⟩
  · rintro ⟨among, rfl⟩
    refine class?_of_mem_entries ?_
    rw [entries]
    exact List.mem_map_of_mem among

/-- The program made from the image has each class in its canonical form. -/
theorem class?_reloaded
    (loads : ofClasses classes = .ok program)
    (reloads : ofClasses (imageOf classes) = .ok other)
    (name : String) :
    other.class? name = (program.class? name).map Class.canonical := by
  refine Option.ext fun declaration => ?_
  rw [class?_eq_some_of_ofClasses reloads, Option.map_eq_some_iff]
  unfold imageOf
  constructor
  · rintro ⟨member, named⟩
    obtain ⟨original, among, rfl⟩ := List.mem_map.1 member
    rw [Class.name_canonical] at named
    exact ⟨original, (class?_eq_some_of_ofClasses loads).2 ⟨List.mem_mergeSort.1 among, named⟩, rfl⟩
  · rintro ⟨original, found, rfl⟩
    obtain ⟨among, named⟩ := (class?_eq_some_of_ofClasses loads).1 found
    exact ⟨List.mem_map_of_mem (List.mem_mergeSort.2 among), Class.name_canonical.trans named⟩

/-- The program has a canonical image of the classes, and nothing is lost when it is made from the
image. -/
structure Archives (classes : List Class) (program : Program) : Prop where
  enumerated : ∀ listing, listing.Perm program.classes → imageOf listing = program.image
  unordered :
    ∀ others, others.Perm classes →
      ∃ other, ofClasses others = .ok other ∧ other.image = program.image
  sorted : program.image.Pairwise fun left right => left.name < right.name
  rearranged : ∃ listing, listing.Perm classes ∧ List.Forall₂ Class.Rearranged listing program.image
  reloads :
    ∃ reloaded, ofClasses program.image = .ok reloaded ∧ reloaded.image = program.image ∧
      program.SameDeclarations reloaded

/-- Classes make a program exactly if their names differ, and then its image is canonical: it does not
depend on the order of the classes, lists them by name, differs from them in the order of the members of
counter classes only, and makes a program with the same image and the same declarations. -/
theorem ofClasses_canonical (classes : List Class) :
    ((classes.map Class.name).Nodup →
      ∃ program, ofClasses classes = .ok program ∧ program.Archives classes) ∧
    (¬ (classes.map Class.name).Nodup →
      ∃ declaration ∈ classes,
        ofClasses classes = .error (.duplicateClass declaration.name)) := by
  constructor
  · intro distinct
    obtain ⟨program, loads⟩ := exists_ofClasses_iff.2 distinct
    have listed := classes_of_ofClasses loads
    have image : program.image = imageOf classes := by rw [image_eq, listed]
    have distinctImage : (program.image.map Class.name).Nodup := by
      rw [image]
      exact (perm_map_name_imageOf classes).nodup_iff.2 distinct
    obtain ⟨reloaded, reloads⟩ := exists_ofClasses_iff.2 distinctImage
    refine ⟨program, loads, ?_⟩
    exact
      { enumerated := fun listing same => by
          rw [image]
          exact imageOf_eq_of_perm distinct (listed ▸ same)
        unordered := fun others same => by
          obtain ⟨other, loadsOther⟩ :=
            exists_ofClasses_iff.2 ((same.map Class.name).nodup_iff.2 distinct)
          refine ⟨other, loadsOther, ?_⟩
          rw [image_eq, classes_of_ofClasses loadsOther, image, imageOf_eq_of_perm distinct same]
        sorted := by
          rw [image]
          exact imageOf_sorted distinct
        rearranged := by
          refine ⟨classes.mergeSort fun left right => left.name ≤ right.name,
            List.mergeSort_perm _ _, ?_⟩
          rw [image, imageOf, List.forall₂_map_right_iff, List.forall₂_same]
          exact fun declaration _ => declaration.rearranged_canonical
        reloads :=
          ⟨reloaded, reloads, image_of_ofClasses_image reloads,
            sameDeclarations (class?_reloaded loads (image ▸ reloads))⟩ }
  · intro clash
    cases outcome : ofClasses classes with
    | ok program => exact absurd (exists_ofClasses_iff.1 ⟨program, outcome⟩) clash
    | error error =>
      obtain ⟨declaration, member, rfl⟩ := foldlM_addClass_eq_error outcome
      exact ⟨declaration, member, rfl⟩

end Images

/-- A class of counters in which a field is declared twice and a method is overloaded. -/
def disorderedCounters : Class where
  name := "shop.Counters"
  superclass := some objectClass
  interfaces := []
  kind := .application
  flags := Class.counterFlag
  fields := [⟨"sales", .int, Field.static⟩, ⟨"orders", .int, Field.static⟩, ⟨"sales", .long, .none⟩]
  methods :=
    [⟨"count", [.int], .void, Method.static, none⟩, ⟨"add", [], .void, Method.static, none⟩,
      ⟨"count", [], .int, Method.static, none⟩]

/-- What is found first in it is so still when the program is made from its image. -/
theorem disorderedCounters_canonical :
    ([Class.plain "shop.Main" .none, disorderedCounters].map Class.name).Nodup ∧
      ∃ program reloaded,
        ofClasses [Class.plain "shop.Main" .none, disorderedCounters] = .ok program ∧
          ofClasses program.image = .ok reloaded ∧ reloaded.image = program.image ∧
          program.image.Pairwise (fun left right => left.name < right.name) ∧
          (reloaded.class? "shop.Counters").map (·.field? "sales") =
            some (some ⟨"sales", .int, Field.static⟩) ∧
          (reloaded.class? "shop.Counters").map (·.methodNamed? "count") =
            some (some ⟨"count", [.int], .void, Method.static, none⟩) := by
  have distinct :
      ([Class.plain "shop.Main" .none, disorderedCounters].map Class.name).Nodup := by
    decide
  obtain ⟨program, loads, archives⟩ := (ofClasses_canonical _).1 distinct
  obtain ⟨reloaded, reloads, same, declares⟩ := archives.reloads
  have found : program.class? "shop.Counters" = some disorderedCounters :=
    (class?_eq_some_of_ofClasses loads).2 ⟨by simp, rfl⟩
  refine ⟨distinct, program, reloaded, loads, reloads, same, archives.sorted, ?_, ?_⟩
  · rw [declares.field?, found]
    rfl
  · rw [declares.methodNamed?, found]
    rfl

end Program
end AccessProfiler
