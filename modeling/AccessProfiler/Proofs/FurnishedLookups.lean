import AccessProfiler.Proofs.InstrumentedClasses
import AccessProfiler.Proofs.Searches

/-!
# Lookups in furnished programs

What the original program looks up is what the furnished program finds: the hierarchy is the same, and
so are the declarations of fields and methods that the original program names
(`Program.Furnished.resolveField?_eq`, `Program.Furnished.lookup_agrees`).  What is above a class stays
above it, so that values may still be stored wherever they were stored before
(`Program.Furnished.isAssignable_mono`).
-/

namespace AccessProfiler

/-- Two searches come to the same, up to what they find. -/
inductive Lookup.Agrees {Declaration : Type} (Same : Declaration → Declaration → Prop) :
    Lookup Declaration → Lookup Declaration → Prop
  | found
      {first second : Declaration}
      (same : Same first second) :
      Agrees Same (.found first) (.found second)
  | missing : Agrees Same .missing .missing
  | unknown : Agrees Same .unknown .unknown

theorem Lookup.Agrees.eq
    {Declaration : Type}
    {first second : Lookup Declaration}
    (agrees : Agrees (fun left right => right = left) first second) :
    second = first := by
  cases agrees with
  | found same => rw [same]
  | missing => rfl
  | unknown => rfl

theorem find?_rel
    {Left Right : Type}
    {Related : Left → Right → Prop}
    (chosen : Left → Bool)
    (chosenToo : Right → Bool)
    {list : List Left}
    {other : List Right}
    (agree : ∀ left right, Related left right → chosenToo right = chosen left)
    (related : List.Forall₂ Related list other) :
    Option.Rel Related (list.find? chosen) (other.find? chosenToo) := by
  induction related with
  | nil => exact .none
  | cons first _ hypothesis =>
    rw [List.find?_cons, List.find?_cons, agree _ _ first]
    split
    · exact .some first
    · exact hypothesis

theorem map_eq_of_forall₂
    {Left Right Value : Type}
    {Related : Left → Right → Prop}
    {first : Left → Value}
    {second : Right → Value}
    {list : List Left}
    {other : List Right}
    (agree : ∀ left right, Related left right → first left = second right)
    (related : List.Forall₂ Related list other) :
    list.map first = other.map second := by
  rw [← List.forall₂_eq_eq_eq, List.forall₂_map_left_iff, List.forall₂_map_right_iff]
  exact related.imp agree

theorem Class.plannedMethods_related (plan : Nat → Body → Body) (declaration : Class) :
    List.Forall₂ (fun method planned : Method => planned.signature = method.signature)
      declaration.methods (declaration.plannedMethods plan) := by
  refine List.forall₂_iff_get.2 ⟨List.length_mapIdx.symm, fun index inFront inPlanned => ?_⟩
  simp only [List.get_eq_getElem, Class.plannedMethods, List.getElem_mapIdx]
  rfl

/-- What counting adds is not found under another name. -/
theorem Class.Tallied.method?_rel
    {Tally : Instruction → Prop}
    {sink : Sink}
    {profile? : Option Profile}
    {plan : Nat → Body → Body}
    {declaration changed : Class}
    (tallied : (declaration.furnish sink profile? plan).Tallied Tally changed)
    {name : String}
    (plain : ∀ profile, profile? = some profile → ∀ added ∈ profile.methods sink, added.name ≠ name)
    (parameters : List Ty) :
    Option.Rel (fun method current : Method => current.signature = method.signature)
      (declaration.method? name parameters) (changed.method? name parameters) := by
  have fits {method current : Method} (same : current.signature = method.signature) :
      current.fits name parameters = method.fits name parameters := by
    have parts := Method.mk.inj same
    rw [Method.fits, Method.fits, parts.1, parts.2.1]
  have absent :
      (profile?.elim [] (Profile.methods sink)).find? (fun method => method.fits name parameters) =
        none := by
    rw [List.find?_eq_none]
    intro added member matched
    cases profile? with
    | none => cases member
    | some profile =>
      simp only [Method.fits, Bool.and_eq_true, beq_iff_eq] at matched
      exact plain profile rfl added member matched.1
  let matched (method : Method) : Bool := method.fits name parameters
  have planned := find?_rel matched matched
    (fun method planned (same : planned.signature = method.signature) => fits same)
    (declaration.plannedMethods_related plan)
  have current := find?_rel matched matched
    (fun _ _ (related : Method.Tallied Tally _ _) => fits related.signature) tallied.methods
  rw [Class.furnish, List.find?_append, absent, Option.or_none] at current
  rw [Class.method?, Class.method?]
  revert planned current
  generalize declaration.methods.find? (fun method => method.fits name parameters) = first
  generalize (declaration.plannedMethods plan).find? (fun method => method.fits name parameters) =
    second
  generalize changed.methods.find? (fun method => method.fits name parameters) = third
  intro planned current
  cases planned with
  | none =>
    cases current
    exact .none
  | some same =>
    cases current with
    | some related => exact .some (related.signature.trans same)

namespace Program

variable
    {counter : String}
    {sink : Sink}
    {Tally : Instruction → Prop}
    {profiles : Table String Profile}
    {plan : Plan}
    {original current : Program}
    {owner name : String}

theorem NamesApart.closedAbove (apart : original.NamesApart counter) :
    original.ClosedAbove (· ≠ counter) := by
  intro name _ upper member
  rw [parents] at member
  cases found : original.class? name with
  | none =>
    rw [found] at member
    cases member
  | some declaration =>
    rw [found] at member
    exact apart.declared_ne found (List.mem_cons_of_mem _ member)

/-- The search for a field does not look at bodies. -/
theorem resolveField?_dropBody (program : Program) (id : MethodId) (owner name : String) :
    (program.dropBody id).resolveField? owner name = program.resolveField? owner name := by
  have shapes : SameHierarchy (fun _ => True) program (program.dropBody id) := by
    intro other _
    rw [dropBody, class?_modifyMethod]
    split
    · rename_i same
      rw [same]
      cases program.class? id.owner <;> rfl
    · rfl
  have chains : (program.dropBody id).chain owner = program.chain owner :=
    shapes.chainUpTo_eq (fun _ _ _ _ => trivial) trivial chainLimit
  rw [resolveField?, resolveField?, chains]
  apply findSome?_eq_of_eq
  intro ancestor _
  rw [declaredField?, declaredField?, dropBody, class?_modifyMethod]
  split
  · rename_i same
    rw [same]
    cases program.class? id.owner <;> rfl
  · rfl

namespace Furnished

variable (furnished : original.Furnished counter sink Tally profiles plan current)
include furnished

/-- The hierarchy is the original one, the class of the counters aside. -/
theorem sameHierarchy : SameHierarchy (· ≠ counter) original current := by
  intro name differs
  cases found : original.class? name with
  | none => rw [furnished.class?_eq_none differs found]
  | some declaration =>
    obtain ⟨changed, located, related⟩ := furnished.class?_eq_some differs found
    rw [located, Option.map_some, Option.map_some, Option.some.injEq]
    have parts := Class.mk.inj related.shape
    simp only [Class.furnish] at parts
    simp [Class.shape, parts]

theorem field?_eq
    {declaration changed : Class}
    (differs : owner ≠ counter)
    (found : original.class? owner = some declaration)
    (located : current.class? owner = some changed)
    (plain : isInstrumentationName name = false) :
    changed.field? name = declaration.field? name := by
  obtain ⟨other, locatedOther, related⟩ := furnished.class?_eq_some differs found
  rw [located] at locatedOther
  cases locatedOther
  rw [Class.field?, Class.field?, related.fields_eq, Class.furnish, List.find?_append]
  have absent :
      (((profiles.get? owner).elim [] fun _ => Profile.fields).find? fun field =>
        field.name == name) = none := by
    rw [List.find?_eq_none]
    intro field member same
    have named : field.name = name := by simpa using same
    generalize profiles.get? owner = profile? at member
    cases profile? with
    | none => cases member
    | some profile =>
      have instruments : ∀ field ∈ Profile.fields, isInstrumentationName field.name := by decide
      rw [← named, instruments field member] at plain
      cases plain
  rw [absent, Option.or_none]

theorem declaredField?_eq (differs : owner ≠ counter) (plain : isInstrumentationName name = false) :
    current.declaredField? owner name = original.declaredField? owner name := by
  rw [declaredField?, declaredField?]
  cases found : original.class? owner with
  | none => rw [furnished.class?_eq_none differs found]
  | some declaration =>
    obtain ⟨changed, located, related⟩ := furnished.class?_eq_some differs found
    rw [located, Option.bind_some, Option.bind_some,
      furnished.field?_eq differs found located plain, related.name_eq]
    rfl

section Apart

variable (apart : original.NamesApart counter)
include apart

/-- The first declaration of a field is the same. -/
theorem resolveField?_eq (differs : owner ≠ counter) (plain : isInstrumentationName name = false) :
    current.resolveField? owner name = original.resolveField? owner name := by
  have chains : current.chain owner = original.chain owner :=
    furnished.sameHierarchy.chainUpTo_eq apart.closedAbove differs chainLimit
  rw [resolveField?, resolveField?, chains]
  apply findSome?_eq_of_eq
  intro ancestor member
  exact furnished.declaredField?_eq
    (apart.closedAbove.chainUpTo differs chainLimit ancestor member) plain

/-- The same classes are above a class. -/
theorem ancestors_eq (differs : owner ≠ counter) : current.ancestors owner = original.ancestors owner :=
  furnished.sameHierarchy.above_eq apart.closedAbove fun _ member =>
    (List.mem_singleton.1 member).symm ▸ differs

omit furnished in
theorem ancestors_ne
    (differs : owner ≠ counter)
    {ancestor : String}
    (member : ancestor ∈ original.ancestors owner) :
    ancestor ≠ counter :=
  apart.closedAbove.above (fun _ among => (List.mem_singleton.1 among).symm ▸ differs) ancestor member

omit apart in
theorem isClosed_eq (differs : owner ≠ counter) : current.isClosed owner = original.isClosed owner := by
  rw [isClosed, isClosed]
  cases found : original.class? owner with
  | none => rw [furnished.class?_eq_none differs found]
  | some declaration =>
    obtain ⟨changed, located, related⟩ := furnished.class?_eq_some differs found
    have parts := Class.mk.inj related.shape
    simp only [Class.furnish] at parts
    rw [located]
    simp [Class.isApplication, parts]

omit apart in
/-- Whether a class is an interface does not change. -/
theorem isInterface_eq (differs : owner ≠ counter) :
    current.isInterface owner = original.isInterface owner := by
  rw [isInterface, isInterface]
  cases found : original.class? owner with
  | none => rw [furnished.class?_eq_none differs found]
  | some declaration =>
    obtain ⟨changed, located, related⟩ := furnished.class?_eq_some differs found
    rw [located, Option.any_some, Option.any_some, Class.isInterface, related.flags_eq]
    rfl

/-- A search for a member comes to the same if each class declares the same. -/
theorem lookup_agrees
    {Declaration : Type}
    (Same : Declaration → Declaration → Prop)
    (declared : Class → Option Declaration)
    (differs : owner ≠ counter)
    (same :
      ∀ name declaration changed, name ≠ counter → original.class? name = some declaration →
        current.class? name = some changed →
        Option.Rel Same (declared declaration) (declared changed)) :
    Lookup.Agrees Same (original.lookup owner declared) (current.lookup owner declared) := by
  have within (ancestor : String) (member : ancestor ∈ original.ancestors owner) :
      ancestor ≠ counter :=
    ancestors_ne apart differs member
  have each (name : String) (member : name ∈ original.ancestors owner) :
      Option.Rel Same ((original.class? name).bind declared) ((current.class? name).bind declared) := by
    cases found : original.class? name with
    | none =>
      rw [furnished.class?_eq_none (within name member) found]
      exact .none
    | some declaration =>
      obtain ⟨changed, located, -⟩ := furnished.class?_eq_some (within name member) found
      rw [located]
      exact same name declaration changed (within name member) found located
  have first (names : List String) (members : ∀ name ∈ names, name ∈ original.ancestors owner) :
      Option.Rel Same (names.findSome? fun name => (original.class? name).bind declared)
        (names.findSome? fun name => (current.class? name).bind declared) := by
    induction names with
    | nil => exact .none
    | cons name rest hypothesis =>
      have here := each name (members name List.mem_cons_self)
      have later := hypothesis fun other member => members other (List.mem_cons_of_mem _ member)
      rw [List.findSome?_cons, List.findSome?_cons]
      revert here
      generalize (original.class? name).bind declared = before
      generalize (current.class? name).bind declared = after
      intro here
      cases here with
      | some related => exact .some related
      | none => exact later
  have closed :
      (original.ancestors owner).all current.isClosed =
        (original.ancestors owner).all original.isClosed := by
    rw [Bool.eq_iff_iff, List.all_eq_true, List.all_eq_true]
    exact forall₂_congr fun name member => by
      rw [furnished.isClosed_eq (within name member)]
  have searched := first _ fun _ member => member
  rw [lookup, lookup, furnished.ancestors_eq apart differs]
  rw [closed]
  revert searched
  generalize (original.ancestors owner).findSome? (fun name => (original.class? name).bind declared) =
    before
  generalize (original.ancestors owner).findSome? (fun name => (current.class? name).bind declared) =
    after
  intro searched
  cases searched with
  | some related => exact .found related
  | none =>
    cases (original.ancestors owner).all original.isClosed with
    | true => exact .missing
    | false => exact .unknown

theorem isSubclass_mono
    {lower upper : String}
    (below : original.isSubclass lower upper) :
    current.isSubclass lower upper := by
  rw [isSubclass, Bool.or_eq_true, List.contains_iff_mem] at below ⊢
  refine below.imp_right fun member => ?_
  by_cases here : lower = counter
  · -- Nothing was above the class of the counters before there was one.
    have alone : ∀ name ∈ original.ancestors counter, name = counter := by
      intro name reached
      refine within_of_mem_walk (· = counter) ?_ (fun _ among => List.mem_singleton.1 among) reached
      rintro _ rfl above upward
      rw [parents, apart.unregistered] at upward
      cases upward
    subst here
    rw [alone upper member]
    exact mem_above_of_mem (List.mem_singleton_self _)
  · rw [furnished.ancestors_eq apart here]
    exact member

/-- Where a value could be stored it can still be stored. -/
theorem isAssignable_mono
    {source target : Ty}
    (assignable : original.isAssignable source target) :
    current.isAssignable source target := by
  induction source generalizing target with
  | array source hypothesis =>
    cases target with
    | array target =>
      rw [isAssignable, Bool.or_eq_true, Bool.and_eq_true] at assignable ⊢
      exact assignable.imp_right fun both => ⟨both.1, hypothesis both.2⟩
    | _ => exact assignable
  | object lower =>
    cases target with
    | object upper =>
      rw [isAssignable, Bool.or_eq_true] at assignable ⊢
      exact assignable.imp_right (furnished.isSubclass_mono apart)
    | _ => exact assignable
  | _ => exact assignable

end Apart
end Furnished
end Program
end AccessProfiler
