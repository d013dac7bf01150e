import AccessProfiler.Proofs.CheckedRules
import AccessProfiler.Proofs.Searches

/-!
# Two orders of search

The checker looks for a member breadth first, the interfaces of a class before its superclass, while
resolution follows the superclasses first and then, for methods only, the interfaces above them.  What
resolution finds, the checker finds as well, but it may be another declaration.  The two agree in all
tables of a hierarchy exactly if they come to the same class first, whichever two classes have the
member (`Program.lookups_agree_iff`); so the hierarchy decides, and not the members that happen to be
declared.
-/

namespace AccessProfiler

/-- The declaration that a search came to. -/
def Lookup.found? {Declaration : Type} : Lookup Declaration → Option Declaration
  | .found declaration => some declaration
  | .missing | .unknown => none

/-- Of any two elements, both lists come to the same one first. -/
def SameFirsts {Element : Type} [BEq Element] (left right : List Element) : Prop :=
  ∀ one another,
    (left.find? fun element => element == one || element == another) =
      right.find? fun element => element == one || element == another

section Firsts

variable {Element Value : Type} {left right : List Element}

/-- Where all that is found is the same, the order of the search does not matter. -/
theorem findSome?_eq_of_alike
    {value : Element → Option Value}
    (within : ∀ element ∈ right, element ∈ left)
    (reached : ∀ element ∈ left, element ∈ right)
    (alike :
      ∀ one ∈ left, ∀ another ∈ left, ∀ found ∈ value one, ∀ foundToo ∈ value another,
        found = foundToo) :
    left.findSome? value = right.findSome? value := by
  cases search : right.findSome? value with
  | none =>
    rw [List.findSome?_eq_none_iff] at search ⊢
    exact fun element member => search element (reached element member)
  | some found =>
    obtain ⟨first, member, valued⟩ := List.exists_of_findSome?_eq_some search
    obtain ⟨result, ends⟩ : ∃ result, left.findSome? value = some result :=
      Option.isSome_iff_exists.1 (List.findSome?_isSome_iff.2 ⟨first, within first member, valued ▸ rfl⟩)
    obtain ⟨other, memberToo, valuedToo⟩ := List.exists_of_findSome?_eq_some ends
    rw [ends, alike other memberToo first (within first member) result valuedToo found valued]

variable [BEq Element]

theorem SameFirsts.symm (same : SameFirsts left right) : SameFirsts right left :=
  fun one another => (same one another).symm

variable [LawfulBEq Element]

/-- The element that a search ends at comes before all others at which it could end. -/
theorem exists_first_of_findSome?
    {value : Element → Option Value}
    {found : Value}
    (search : left.findSome? value = some found) :
    ∃ first, value first = some found ∧
      ∀ other, (value other).isSome →
        (left.find? fun element => element == first || element == other) = some first := by
  obtain ⟨before, first, after, rfl, valued, none⟩ := List.findSome?_eq_some_iff.1 search
  refine ⟨first, valued, fun other offered => ?_⟩
  refine List.find?_eq_some_iff_append.2 ⟨by simp, before, after, rfl, fun element earlier => ?_⟩
  have unvalued := none element earlier
  have notFirst : element ≠ first := by
    rintro rfl
    rw [valued] at unvalued
    cases unvalued
  have notOther : element ≠ other := by
    rintro rfl
    rw [unvalued] at offered
    cases offered
  simp [notFirst, notOther]

/-- What one list comes to first, the other does, whatever is looked for. -/
theorem SameFirsts.findSome?_eq_some
    (same : SameFirsts left right)
    {value : Element → Option Value}
    {found : Value}
    (search : left.findSome? value = some found) :
    right.findSome? value = some found := by
  obtain ⟨first, valued, least⟩ := exists_first_of_findSome? search
  have among : first ∈ right := by
    have there := least first (valued ▸ rfl)
    rw [same first first] at there
    exact List.mem_of_find?_eq_some there
  obtain ⟨result, ends⟩ : ∃ result, right.findSome? value = some result :=
    Option.isSome_iff_exists.1 (List.findSome?_isSome_iff.2 ⟨first, among, valued ▸ rfl⟩)
  obtain ⟨other, valuedOther, leastOther⟩ := exists_first_of_findSome? ends
  have here := least other (valuedOther ▸ rfl)
  have there := leastOther first (valued ▸ rfl)
  simp only [Bool.or_comm (_ == other)] at there
  rw [same first other, there] at here
  obtain rfl := Option.some.inj here
  rw [ends, ← valuedOther, valued]

theorem SameFirsts.findSome?_eq
    (same : SameFirsts left right)
    (value : Element → Option Value) :
    left.findSome? value = right.findSome? value :=
  Option.ext fun _ => ⟨same.findSome?_eq_some, same.symm.findSome?_eq_some⟩

end Firsts

namespace Program

/-- No member is declared twice. -/
def HasUniqueMembers (program : Program) : Prop :=
  ∀ name ∈ program.names, program.classViolations name = []

instance (program : Program) : Decidable program.HasUniqueMembers :=
  inferInstanceAs (Decidable (∀ name ∈ program.names, program.classViolations name = []))

/-- The checker finds a method exactly where resolution does, and both find the same result type and
the same kind of method. -/
def MethodLookupsAgree (program : Program) (owner : String) : Prop :=
  ∀ name parameters,
    (program.lookup owner fun declaration => declaration.method? name parameters).found?.map
        (fun method => (method.result, method.isStatic)) =
      (program.resolveMethod? owner name parameters).map fun found =>
        (found.2.result, found.2.isStatic)

/-- The checker finds the declaration of a field that resolution finds. -/
def FieldLookupsAgree (program : Program) (owner : String) : Prop :=
  ∀ name,
    (program.lookup owner fun declaration =>
        (declaration.field? name).map fun field => field.reference declaration.name).found? =
      program.resolveField? owner name

/-- Declarations of one method, above a class, have the same result type and are of the same kind. -/
def MethodsAlike (program : Program) (owner : String) : Prop :=
  ∀ name parameters, ∀ ancestor ∈ program.ancestors owner, ∀ another ∈ program.ancestors owner,
    ∀ method ∈ (program.class? ancestor).bind fun declaration => declaration.method? name parameters,
    ∀ other ∈ (program.class? another).bind fun declaration => declaration.method? name parameters,
      (method.result, method.isStatic) = (other.result, other.isStatic)

section Searches

variable {program : Program} {owner : String}

theorem found?_lookup
    {Declaration : Type}
    (program : Program)
    (owner : String)
    (declared : Class → Option Declaration) :
    (program.lookup owner declared).found? =
      (program.ancestors owner).findSome? fun name => (program.class? name).bind declared := by
  unfold lookup
  dsimp only
  cases (program.ancestors owner).findSome? fun name => (program.class? name).bind declared with
  | some declaration => rfl
  | none =>
    dsimp only
    split <;> rfl

/-- What the checker knows of a method, and what resolution does, by the classes they come by. -/
theorem methodLookupsAgree_iff :
    program.MethodLookupsAgree owner ↔
      ∀ name parameters,
        let offered (ancestor : String) :=
          ((program.class? ancestor).bind fun declaration =>
            declaration.method? name parameters).map fun method => (method.result, method.isStatic)
        (program.ancestors owner).findSome? offered = (program.searched owner).findSome? offered := by
  refine forall_congr' fun name => forall_congr' fun parameters => ?_
  have declared (ancestor : String) :
      (program.declaredMethod? ancestor name parameters).map (fun found =>
          (found.2.result, found.2.isStatic)) =
        ((program.class? ancestor).bind fun declaration =>
          declaration.method? name parameters).map fun method => (method.result, method.isStatic) := by
    unfold declaredMethod?
    cases program.class? ancestor with
    | none => rfl
    | some declaration => simp [Function.comp_def]
  rw [found?_lookup, resolveMethod?_eq_findSome?, List.map_findSome?, List.map_findSome?]
  simp only [Function.comp_def, declared]

theorem fieldLookupsAgree_iff :
    program.FieldLookupsAgree owner ↔
      ∀ name,
        let offered (ancestor : String) := program.declaredField? ancestor name
        (program.ancestors owner).findSome? offered = (program.chain owner).findSome? offered := by
  refine forall_congr' fun name => ?_
  rw [found?_lookup]
  rfl

/-- What a search along some of the classes above comes to, the checker's search does not miss. -/
theorem isSome_found?_lookup
    {Declaration Value : Type}
    {declared : Class → Option Declaration}
    {value : String → Option Value}
    {list : List String}
    (within : ∀ ancestor ∈ list, ancestor ∈ program.ancestors owner)
    (offered :
      ∀ ancestor, (value ancestor).isSome → ((program.class? ancestor).bind declared).isSome)
    (found : (list.findSome? value).isSome) :
    (program.lookup owner declared).found?.isSome := by
  rw [found?_lookup, List.findSome?_isSome_iff]
  obtain ⟨ancestor, member, there⟩ := List.findSome?_isSome_iff.1 found
  exact ⟨ancestor, within ancestor member, offered ancestor there⟩

/-- A method that resolution finds is not missing for the checker. -/
theorem isSome_lookup_of_resolveMethod?
    {name : String}
    {parameters : List Ty}
    (found : (program.resolveMethod? owner name parameters).isSome) :
    (program.lookup owner fun declaration =>
      declaration.method? name parameters).found?.isSome := by
  rw [resolveMethod?_eq_findSome?] at found
  refine isSome_found?_lookup (fun _ => mem_ancestors_of_mem_searched) (fun ancestor there => ?_) found
  unfold declaredMethod? at there
  cases located : program.class? ancestor with
  | none =>
    rw [located] at there
    cases there
  | some declaration =>
    rw [located, Option.bind_some, Option.isSome_map] at there
    exact there

/-- A field that resolution finds is not missing for the checker. -/
theorem isSome_lookup_of_resolveField?
    {name : String}
    (found : (program.resolveField? owner name).isSome) :
    (program.lookup owner fun declaration =>
      (declaration.field? name).map fun field =>
        field.reference declaration.name).found?.isSome :=
  isSome_found?_lookup (fun _ => mem_ancestors_of_mem_chain) (fun _ there => there) found

/-- Where both searches come to the same class first, they agree on all methods. -/
theorem methodLookupsAgree_of_sameFirsts
    (same : SameFirsts (program.ancestors owner) (program.searched owner)) :
    program.MethodLookupsAgree owner :=
  methodLookupsAgree_iff.2 fun _ _ => same.findSome?_eq _

/-- Where both searches come to the same class first, they agree on all fields. -/
theorem fieldLookupsAgree_of_sameFirsts
    (same : SameFirsts (program.ancestors owner) (program.chain owner)) :
    program.FieldLookupsAgree owner :=
  fieldLookupsAgree_iff.2 fun _ => same.findSome?_eq _

/-- If declarations of a method do not differ above the class, it does not matter which one is found. -/
theorem methodLookupsAgree_of_alike
    (alike : program.MethodsAlike owner)
    (reached : ∀ ancestor ∈ program.ancestors owner, ancestor ∈ program.searched owner) :
    program.MethodLookupsAgree owner := by
  refine methodLookupsAgree_iff.2 fun name parameters => ?_
  refine findSome?_eq_of_alike (fun _ => mem_ancestors_of_mem_searched) reached ?_
  intro ancestor member another memberToo value offered other offeredToo
  obtain ⟨method, declares, rfl⟩ := Option.map_eq_some_iff.1 offered
  obtain ⟨methodToo, declaresToo, rfl⟩ := Option.map_eq_some_iff.1 offeredToo
  exact alike name parameters ancestor member another memberToo method declares methodToo declaresToo

end Searches

section Marking

/-- The field that marks a class. -/
def markField (type : Ty) : Field :=
  ⟨"mark", type, ⟨0⟩⟩

/-- The method that marks a class. -/
def markMethod (type : Ty) : Method :=
  ⟨"mark", [], type, ⟨0⟩, none⟩

/-- The class with a field and a method of the type, if any, as its only members. -/
def markedClass (type : Option Ty) (declaration : Class) : Class :=
  { declaration with
    fields := (type.map markField).toList
    methods := (type.map markMethod).toList }

/-- Two types that tell two classes apart. -/
def mark (one another name : String) : Option Ty :=
  if name = one then some .int else if name = another then some .long else none

/-- The program with members in two of its classes only, of different types. -/
def marked (program : Program) (one another : String) : Program where
  entries := program.entries.map fun entry =>
    (entry.1, markedClass (mark one another entry.1) entry.2)
  distinct := by
    rw [List.map_map]
    exact program.distinct

variable {program : Program} {one another owner : String}

@[simp]
theorem method?_markedClass (type : Option Ty) (declaration : Class) :
    (markedClass type declaration).method? "mark" [] = type.map markMethod := by
  cases type <;> simp [markedClass, Class.method?, Method.fits, markMethod]

@[simp]
theorem field?_markedClass (type : Option Ty) (declaration : Class) :
    (markedClass type declaration).field? "mark" = type.map markField := by
  cases type <;> simp [markedClass, Class.field?, markField]

theorem class?_marked (program : Program) (one another name : String) :
    (program.marked one another).class? name =
      (program.class? name).map (markedClass (mark one another name)) := by
  unfold class? marked
  dsimp only
  induction program.entries with
  | nil => rfl
  | cons entry rest hypothesis =>
    rw [List.map_cons, List.find?_cons, List.find?_cons]
    by_cases named : entry.1 = name
    · subst named
      simp
    · simp only [beq_eq_false_iff_ne.2 named]
      exact hypothesis

theorem sameHierarchy_marked (program : Program) (one another : String) :
    SameHierarchy (fun _ => True) program (program.marked one another) := by
  intro name _
  rw [class?_marked, Option.map_map]
  rfl

theorem hasUniqueMembers_marked (program : Program) (one another : String) :
    (program.marked one another).HasUniqueMembers := by
  intro name _
  cases located : (program.marked one another).class? name with
  | none =>
    unfold classViolations
    rw [located]
  | some declaration =>
    refine (classViolations_eq_nil_iff located).2 ?_
    rw [class?_marked] at located
    obtain ⟨original, -, rfl⟩ := Option.map_eq_some_iff.1 located
    unfold markedClass
    cases mark one another name <;> simp

/-- A search for the mark comes to the first of the two classes. -/
theorem findSome?_mark (list : List String) :
    list.findSome? (mark one another) =
      (list.find? fun name => name == one || name == another).bind (mark one another) := by
  induction list with
  | nil => rfl
  | cons name rest hypothesis =>
    rw [List.findSome?_cons, List.find?_cons]
    cases chosen : name == one || name == another with
    | false =>
      obtain ⟨notOne, notAnother⟩ := Bool.or_eq_false_iff.1 chosen
      have unmarked : mark one another name = none := by
        rw [mark, if_neg (beq_eq_false_iff_ne.1 notOne), if_neg (beq_eq_false_iff_ne.1 notAnother)]
      rw [unmarked]
      exact hypothesis
    | true =>
      have isMarked : mark one another name ≠ none := by
        unfold mark
        rcases Bool.or_eq_true_iff.1 chosen with isOne | isAnother
        · simp [beq_iff_eq.1 isOne]
        · rw [if_pos (beq_iff_eq.1 isAnother)]
          split <;> simp
      obtain ⟨type, there⟩ := Option.ne_none_iff_exists'.1 isMarked
      simp [there]

/-- The mark tells the two classes apart. -/
theorem mark_injective
    {first second : String}
    (isFirst : first == one || first == another)
    (isSecond : second == one || second == another)
    (same : mark one another first = mark one another second) :
    first = second := by
  simp only [Bool.or_eq_true, beq_iff_eq] at isFirst isSecond
  unfold mark at same
  grind

/-- Lists along which the same mark is found come to the same of the two classes first. -/
theorem find?_eq_of_findSome?_mark
    {left right : List String}
    (same : left.findSome? (mark one another) = right.findSome? (mark one another)) :
    (left.find? fun name => name == one || name == another) =
      right.find? fun name => name == one || name == another := by
  have marked {list : List String} {name : String}
      (found : (list.find? fun name => name == one || name == another) = some name) :
      ∃ type, list.findSome? (mark one another) = some type := by
    refine Option.isSome_iff_exists.1 (List.findSome?_isSome_iff.2
      ⟨name, List.mem_of_find?_eq_some found, ?_⟩)
    have isOneOf := List.find?_some found
    simp only [Bool.or_eq_true, beq_iff_eq] at isOneOf
    unfold mark
    grind
  cases first : left.find? fun name => name == one || name == another with
  | none =>
    cases second : right.find? fun name => name == one || name == another with
    | none => rfl
    | some name =>
      obtain ⟨type, there⟩ := marked second
      rw [findSome?_mark, first, there] at same
      cases same
  | some name =>
    cases second : right.find? fun name => name == one || name == another with
    | none =>
      obtain ⟨type, there⟩ := marked first
      rw [findSome?_mark right, second, there] at same
      cases same
    | some nameToo =>
      rw [findSome?_mark, findSome?_mark, first, second] at same
      have isFirst := List.find?_some first
      have isSecond := List.find?_some second
      exact congrArg some (mark_injective isFirst isSecond same)

variable (registered : ∀ name ∈ program.ancestors owner, program.contains name)
include registered

/-- Along registered classes, a search that sees the members of a class finds the first mark. -/
theorem findSome?_marked
    {Value : Type}
    {list : List String}
    (within : ∀ name ∈ list, name ∈ program.ancestors owner)
    {value : Class → Option Value}
    {made : Ty → Value}
    (reads : ∀ type declaration, value (markedClass type declaration) = type.map made) :
    (list.findSome? fun name => ((program.marked one another).class? name).bind value) =
      (list.findSome? (mark one another)).map made := by
  rw [List.map_findSome?]
  induction list with
  | nil => rfl
  | cons name rest hypothesis =>
    obtain ⟨declaration, located⟩ :=
      Option.isSome_iff_exists.1 (registered name (within name List.mem_cons_self))
    have here :
        ((program.marked one another).class? name).bind value =
          (mark one another name).map made := by
      rw [class?_marked, located, Option.map_some, Option.bind_some, reads]
    rw [List.findSome?_cons, List.findSome?_cons, here,
      hypothesis fun name member => within name (List.mem_cons_of_mem _ member)]
    rfl

/-- If the searches agree on the marks of any two classes, they come to the same class first. -/
theorem sameFirsts_of_methodLookupsAgree
    (agree : ∀ one another, (program.marked one another).MethodLookupsAgree owner) :
    SameFirsts (program.ancestors owner) (program.searched owner) := by
  intro one another
  have shapes := program.sameHierarchy_marked one another
  have closed : program.ClosedAbove fun _ => True := fun _ _ _ _ => trivial
  have same := methodLookupsAgree_iff.1 (agree one another) "mark" []
  dsimp only at same
  simp only [Option.map_bind] at same
  have reads (type : Option Ty) (declaration : Class) :
      (Option.map (fun method : Method => (method.result, method.isStatic)) ∘ fun declaration : Class =>
          declaration.method? "mark" []) (markedClass type declaration) =
        type.map fun type => (type, false) := by
    have notStatic : Flags.includes ⟨0⟩ Method.static = false := by decide
    rw [Function.comp_apply, method?_markedClass, Option.map_map]
    refine Option.map_congr fun type _ => ?_
    exact congrArg (Prod.mk type) notStatic
  rw [ancestors, shapes.above_eq closed fun _ _ => trivial, shapes.searched_eq closed trivial,
    ← ancestors, findSome?_marked registered (fun _ member => member) reads,
    findSome?_marked registered (fun _ => mem_ancestors_of_mem_searched) reads] at same
  refine find?_eq_of_findSome?_mark (Option.map_injective ?_ same)
  intro first second equal
  exact (Prod.mk.inj equal).1

/-- If the searches agree on the marks of any two classes, they come to the same class first. -/
theorem sameFirsts_of_fieldLookupsAgree
    (agree : ∀ one another, (program.marked one another).FieldLookupsAgree owner) :
    SameFirsts (program.ancestors owner) (program.chain owner) := by
  intro one another
  have shapes := program.sameHierarchy_marked one another
  have closed : program.ClosedAbove fun _ => True := fun _ _ _ _ => trivial
  have chains : (program.marked one another).chain owner = program.chain owner :=
    shapes.chainUpTo_eq closed trivial chainLimit
  have same := congrArg (Option.map FieldRef.type) (fieldLookupsAgree_iff.1 (agree one another) "mark")
  dsimp only [declaredField?] at same
  rw [ancestors, shapes.above_eq closed fun _ _ => trivial, chains, ← ancestors, List.map_findSome?,
    List.map_findSome?] at same
  simp only [Function.comp_def, Option.map_bind] at same
  have reads (type : Option Ty) (declaration : Class) :
      Option.map FieldRef.type
          (((markedClass type declaration).field? "mark").map fun field =>
            field.reference (markedClass type declaration).name) =
        type.map id := by
    rw [field?_markedClass, Option.map_map, Option.map_map]
    rfl
  rw [findSome?_marked registered (fun _ member => member) reads,
    findSome?_marked registered (fun _ => mem_ancestors_of_mem_chain) reads] at same
  exact find?_eq_of_findSome?_mark (Option.map_injective Function.injective_id same)

end Marking

/-- What resolution finds, the checker finds as well.  In one table the two agree on methods if those
that are declared more than once are declared alike; in all tables of the hierarchy, exactly if they
come to the same class first. -/
theorem lookups_agree_iff
    (program : Program)
    (owner : String)
    (registered : ∀ name ∈ program.ancestors owner, program.contains name) :
    (∀ name parameters, (program.resolveMethod? owner name parameters).isSome →
        (program.lookup owner fun declaration =>
          declaration.method? name parameters).found?.isSome) ∧
      (∀ name, (program.resolveField? owner name).isSome →
        (program.lookup owner fun declaration =>
          (declaration.field? name).map fun field =>
            field.reference declaration.name).found?.isSome) ∧
      (program.MethodsAlike owner →
        (∀ ancestor ∈ program.ancestors owner, ancestor ∈ program.searched owner) →
        program.MethodLookupsAgree owner) ∧
      ((∀ other, SameHierarchy (fun _ => True) program other → other.HasUniqueMembers →
          other.MethodLookupsAgree owner) ↔
        SameFirsts (program.ancestors owner) (program.searched owner)) ∧
      ((∀ other, SameHierarchy (fun _ => True) program other → other.HasUniqueMembers →
          other.FieldLookupsAgree owner) ↔
        SameFirsts (program.ancestors owner) (program.chain owner)) := by
  have closed : program.ClosedAbove fun _ => True := fun _ _ _ _ => trivial
  have above {other : Program} (shapes : SameHierarchy (fun _ => True) program other) :
      other.ancestors owner = program.ancestors owner :=
    shapes.above_eq closed fun _ _ => trivial
  refine ⟨fun _ _ => isSome_lookup_of_resolveMethod?, fun _ => isSome_lookup_of_resolveField?,
    methodLookupsAgree_of_alike, ⟨fun agree => ?_, fun same other shapes _ => ?_⟩,
    ⟨fun agree => ?_, fun same other shapes _ => ?_⟩⟩
  · exact sameFirsts_of_methodLookupsAgree registered fun one another =>
      agree _ (program.sameHierarchy_marked one another) (program.hasUniqueMembers_marked one another)
  · apply methodLookupsAgree_of_sameFirsts
    rw [above shapes, shapes.searched_eq closed trivial]
    exact same
  · exact sameFirsts_of_fieldLookupsAgree registered fun one another =>
      agree _ (program.sameHierarchy_marked one another) (program.hasUniqueMembers_marked one another)
  · apply fieldLookupsAgree_of_sameFirsts
    have chains : other.chain owner = program.chain owner :=
      shapes.chainUpTo_eq closed trivial chainLimit
    rw [above shapes, chains]
    exact same

/-- A class below another one, and an interface that either of them may name.  The interface declares a
method of the upper class with a wider result type, and a constant. -/
def bookProgram (ofItem ofBook : List String) : Program where
  entries :=
    [("shop.Book",
      { name := "shop.Book"
        superclass := some "shop.Item"
        interfaces := ofBook
        kind := .application
        flags := ⟨0⟩
        fields := []
        methods := [] }),
      ("shop.Item",
      { name := "shop.Item"
        superclass := none
        interfaces := ofItem
        kind := .application
        flags := ⟨0⟩
        fields := []
        methods := [⟨"label", [], .object "java.lang.String", Method.abstract, none⟩] }),
      ("shop.Labelled",
      { name := "shop.Labelled"
        superclass := none
        interfaces := []
        kind := .application
        flags := Class.interfaceFlag.union Class.abstractFlag
        fields := [⟨"longest", .int, Field.static⟩]
        methods := [⟨"label", [], .object objectClass, Method.abstract, none⟩] })]
  distinct := by
    show ["shop.Book", "shop.Item", "shop.Labelled"].Nodup
    decide

/-- If the upper class names the interface, both searches for methods come by it last, whatever the
classes declare; a search for a field does not come by it. -/
theorem bookProgram_methodLookupsAgree :
    (∀ name ∈ (bookProgram ["shop.Labelled"] []).ancestors "shop.Book",
        (bookProgram ["shop.Labelled"] []).contains name) ∧
      (∀ other, SameHierarchy (fun _ => True) (bookProgram ["shop.Labelled"] []) other →
        other.HasUniqueMembers → other.MethodLookupsAgree "shop.Book") ∧
      ¬ ∀ other, SameHierarchy (fun _ => True) (bookProgram ["shop.Labelled"] []) other →
          other.HasUniqueMembers → other.FieldLookupsAgree "shop.Book" := by
  have registered :
      ∀ name ∈ (bookProgram ["shop.Labelled"] []).ancestors "shop.Book",
        (bookProgram ["shop.Labelled"] []).contains name := by
    decide +kernel
  obtain ⟨-, -, -, methods, fields⟩ := lookups_agree_iff _ _ registered
  have sameOrder :
      (bookProgram ["shop.Labelled"] []).ancestors "shop.Book" =
        (bookProgram ["shop.Labelled"] []).searched "shop.Book" := by
    decide +kernel
  refine ⟨registered, methods.2 fun _ _ => by rw [sameOrder], fun agree => ?_⟩
  have notSearched := fields.1 agree "shop.Labelled" "shop.Labelled"
  revert notSearched
  decide +kernel

/-- If the lower class names the interface, the checker finds the method of the interface and its
constant, and resolution finds the method of the upper class and no field. -/
theorem bookProgram_lookups_differ :
    (∀ name ∈ (bookProgram [] ["shop.Labelled"]).ancestors "shop.Book",
        (bookProgram [] ["shop.Labelled"]).isApplication name ∧
          ∀ upper ∈ (bookProgram [] ["shop.Labelled"]).parents name,
            name ∉ (bookProgram [] ["shop.Labelled"]).ancestors upper) ∧
      (bookProgram [] ["shop.Labelled"]).HasUniqueMembers ∧
      ¬ (bookProgram [] ["shop.Labelled"]).MethodLookupsAgree "shop.Book" ∧
      ¬ (bookProgram [] ["shop.Labelled"]).FieldLookupsAgree "shop.Book" := by
  refine ⟨by decide +kernel, by decide +kernel, fun agree => ?_, fun agree => ?_⟩
  · have label := agree "label" []
    revert label
    decide +kernel
  · have longest := agree "longest"
    revert longest
    decide +kernel

end Program
end AccessProfiler
