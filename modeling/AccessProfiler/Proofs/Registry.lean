import AccessProfiler.Language.Hierarchy
import Mathlib.Data.List.Nodup

/-!
# Looking classes up in a changed program

A program is changed by registering a class, by changing the declaration of one, or by replacing a
body or a signature.  For each change the lemmas below say what is found under every name afterwards:
the change at its own name, and what was found before under all others.
-/

namespace AccessProfiler

namespace Class

variable {declaration changed : Class}

/-- A field that is not declared is added at the end. -/
theorem addField_of_absent
    {field : Field}
    (absent : declaration.field? field.name = none) :
    declaration.addField field =
      .ok (field.reference declaration.name,
        { declaration with fields := declaration.fields ++ [field] }) := by
  simp [addField, absent]

/-- A field that is declared with the same type is used as it is, and one that is not declared is
added at the end. -/
theorem addField_cases
    {field : Field}
    {reference : FieldRef}
    (added : declaration.addField field = .ok (reference, changed)) :
    (∃ declared, declaration.field? field.name = some declared ∧ declared.type = field.type ∧
      reference = declared.reference declaration.name ∧ changed = declaration) ∨
    (declaration.field? field.name = none ∧ reference = field.reference declaration.name ∧
      changed = { declaration with fields := declaration.fields ++ [field] }) := by
  unfold addField at added
  cases found : declaration.field? field.name with
  | none =>
    rw [found] at added
    injection added with parts
    injection parts with referenceEq changedEq
    exact .inr ⟨rfl, referenceEq.symm, changedEq.symm⟩
  | some declared =>
    rw [found] at added
    dsimp only at added
    split at added
    · rename_i same
      injection added with parts
      injection parts with referenceEq changedEq
      exact .inl ⟨declared, rfl, same, referenceEq.symm, changedEq.symm⟩
    · cases added

/-- A method is added at the end if none of its name and parameters is declared. -/
theorem addMethod_eq_ok
    {method : Method} :
    declaration.addMethod method = .ok changed ↔
      declaration.method? method.name method.parameters = none ∧
        changed = { declaration with methods := declaration.methods ++ [method] } := by
  unfold addMethod
  cases declaration.method? method.name method.parameters with
  | none => simp [eq_comm]
  | some declared => simp

end Class

namespace Program

variable {program changed : Program} {name other owner : String} {declaration : Class}

theorem mem_entries_of_class? (found : program.class? name = some declaration) :
    (name, declaration) ∈ program.entries := by
  unfold class? at found
  obtain ⟨entry, located, rfl⟩ := Option.map_eq_some_iff.1 found
  have named := List.find?_some located
  have member := List.mem_of_find?_eq_some located
  have : entry.1 = name := by simpa using named
  exact this ▸ member

/-- Names are registered once, so that every entry is what is found under its name. -/
theorem class?_of_mem_entries (member : (name, declaration) ∈ program.entries) :
    program.class? name = some declaration := by
  have distinct := program.distinct
  unfold class?
  generalize program.entries = entries at member distinct
  induction entries with
  | nil => cases member
  | cons entry rest hypothesis =>
    rw [List.map_cons, List.nodup_cons] at distinct
    rcases List.mem_cons.1 member with here | later
    · subst here
      simp
    · have differs : entry.1 ≠ name := by
        rintro rfl
        exact distinct.1 (List.mem_map.2 ⟨_, later, rfl⟩)
      rw [List.find?_cons_of_neg (by simpa using differs)]
      exact hypothesis later distinct.2

/-- A registered class is found under its name, and nothing else changes. -/
theorem class?_register
    (free : program.class? name = none) :
    (program.register name declaration free).class? other =
      if other = name then some declaration else program.class? other := by
  unfold class? register at *
  rw [List.find?_append]
  by_cases equal : other = name
  · subst equal
    rw [Option.map_eq_none_iff] at free
    simp [free]
  · have : ¬ name = other := fun same => equal same.symm
    simp [equal, this]

/-- A changed declaration is found under its name, and nothing else changes. -/
theorem class?_modifyClass
    (change : Class → Class) :
    (program.modifyClass name change).class? other =
      if other = name then (program.class? name).map change else program.class? other := by
  unfold class? modifyClass
  rw [List.find?_map]
  have condition :
      ((fun entry : String × Class => entry.1 == other) ∘ fun entry : String × Class =>
          if entry.1 = name then (entry.1, change entry.2) else entry) =
        fun entry => entry.1 == other := by
    funext entry
    simp only [Function.comp]
    split <;> rfl
  rw [condition]
  by_cases equal : other = name
  · subst equal
    rw [if_pos rfl, Option.map_map, Option.map_map]
    cases located : program.entries.find? fun entry => entry.1 == other with
    | none => rfl
    | some entry =>
      have named : entry.1 = other := by simpa using List.find?_some located
      simp [named]
  · rw [if_neg equal]
    cases located : program.entries.find? fun entry => entry.1 == other with
    | none => rfl
    | some entry =>
      have named : entry.1 = other := by simpa using List.find?_some located
      have differs : ¬ entry.1 = name := fun same => equal (named.symm.trans same)
      simp [differs]

/-- A class is registered if its name is free; a taken name keeps its class. -/
theorem class?_ensureClass :
    (program.ensureClass name declaration).2.class? other =
      if other = name then some ((program.class? name).getD declaration)
      else program.class? other := by
  unfold ensureClass
  split
  · rename_i existing found
    by_cases equal : other = name
    · subst equal
      simp [found]
    · simp [equal]
  · rename_i free
    rw [class?_register]
    simp [free]

theorem addField_eq_ok
    {field : Field}
    {reference : FieldRef}
    (added : program.addField owner field = .ok (reference, changed)) :
    ∃ declaration extended,
      program.class? owner = some declaration ∧
        declaration.addField field = .ok (reference, extended) ∧
        changed = program.modifyClass owner fun _ => extended := by
  unfold addField at added
  cases found : program.class? owner with
  | none =>
    rw [found] at added
    cases added
  | some declaration =>
    rw [found] at added
    dsimp only at added
    cases outcome : declaration.addField field with
    | error defect =>
      rw [outcome] at added
      cases added
    | ok parts =>
      rw [outcome] at added
      cases added
      exact ⟨declaration, parts.2, rfl, outcome, rfl⟩

/-- A field is declared on a program by declaring it on its class. -/
theorem addField_of_class?
    {extended : Class}
    {field : Field}
    {reference : FieldRef}
    (found : program.class? owner = some declaration)
    (added : declaration.addField field = .ok (reference, extended)) :
    program.addField owner field = .ok (reference, program.modifyClass owner fun _ => extended) := by
  simp [addField, found, added]

theorem addMethod_of_class?
    {method : Method}
    (found : program.class? owner = some declaration)
    (absent : declaration.method? method.name method.parameters = none) :
    program.addMethod owner method =
      .ok (⟨owner, declaration.methods.length⟩,
        program.modifyClass owner fun _ =>
          { declaration with methods := declaration.methods ++ [method] }) := by
  simp [addMethod, found, Class.addMethod, absent]

theorem addMethod_eq_ok
    {method : Method}
    {id : MethodId}
    (added : program.addMethod owner method = .ok (id, changed)) :
    ∃ declaration,
      program.class? owner = some declaration ∧
        declaration.method? method.name method.parameters = none ∧
        changed = program.modifyClass owner fun _ =>
          { declaration with methods := declaration.methods ++ [method] } := by
  unfold addMethod at added
  cases found : program.class? owner with
  | none =>
    rw [found] at added
    cases added
  | some declaration =>
    rw [found] at added
    dsimp only at added
    cases outcome : declaration.addMethod method with
    | error defect =>
      rw [outcome] at added
      cases added
    | ok extended =>
      rw [outcome] at added
      cases added
      obtain ⟨absent, rfl⟩ := Class.addMethod_eq_ok.1 outcome
      exact ⟨declaration, rfl, absent, rfl⟩

theorem setBody_eq_ok
    {id : MethodId}
    {body : Body}
    (given : program.setBody id body = .ok changed) :
    (program.method? id).isSome ∧
      changed = program.modifyMethod id fun method => { method with body := some body } := by
  unfold setBody at given
  cases found : program.method? id with
  | none =>
    rw [found] at given
    cases given
  | some method =>
    rw [found] at given
    cases given
    exact ⟨rfl, rfl⟩

/-- The class of a changed method has the changed declaration in the same place. -/
theorem class?_modifyMethod
    {id : MethodId}
    {change : Method → Method} :
    (program.modifyMethod id change).class? other =
      if other = id.owner then
        (program.class? id.owner).map fun declaration =>
          { declaration with methods := declaration.methods.modify id.index change }
      else program.class? other :=
  class?_modifyClass _

/-- A changed method is found in its place, and every other method is as it was. -/
theorem method?_modifyMethod
    {id place : MethodId}
    {change : Method → Method} :
    (program.modifyMethod id change).method? place =
      if place = id then (program.method? id).map change else program.method? place := by
  obtain ⟨owner, index⟩ := id
  obtain ⟨ownerThere, indexThere⟩ := place
  unfold method?
  rw [class?_modifyMethod]
  by_cases sameOwner : ownerThere = owner
  · subst sameOwner
    rw [if_pos rfl]
    cases program.class? ownerThere with
    | none => simp
    | some declaration =>
      by_cases sameIndex : indexThere = index
      · subst sameIndex
        simp
      · have differs : (⟨ownerThere, indexThere⟩ : MethodId) ≠ ⟨ownerThere, index⟩ :=
          fun same => sameIndex (MethodId.mk.inj same).2
        simp [differs, List.getElem?_modify_ne _ _ (Ne.symm sameIndex)]
  · have differs : (⟨ownerThere, indexThere⟩ : MethodId) ≠ ⟨owner, index⟩ :=
      fun same => sameOwner (MethodId.mk.inj same).1
    rw [if_neg sameOwner, if_neg differs]

/-- Of two changes to a method the second is made to what the first gives. -/
theorem modifyMethod_modifyMethod
    {id : MethodId}
    {first second : Method → Method} :
    (program.modifyMethod id first).modifyMethod id second =
      program.modifyMethod id (second ∘ first) := by
  unfold modifyMethod modifyClass
  simp only [mk.injEq, List.map_map]
  apply List.map_congr_left
  intro entry _
  by_cases same : entry.1 = id.owner
  · simp [same, List.modify_modify_eq]
  · simp [same]

theorem setSignature_eq_ok
    {id : MethodId}
    {parameters : List Ty}
    {result : Ty}
    (given : program.setSignature id parameters result = .ok changed) :
    changed = program.modifyMethod id fun method =>
      { method with parameters := parameters, result := result } := by
  unfold setSignature at given
  cases found : program.method? id with
  | none =>
    rw [found] at given
    cases given
  | some method =>
    rw [found] at given
    cases given
    rfl

/-- The classes of the application are listed. -/
theorem mem_applicationClasses {name : String} :
    name ∈ program.applicationClasses ↔
      ∃ declaration, program.class? name = some declaration ∧ declaration.isApplication := by
  rw [applicationClasses, Text.mem_sorted, List.mem_map]
  constructor
  · rintro ⟨entry, kept, rfl⟩
    obtain ⟨present, application⟩ := List.mem_filter.1 kept
    exact ⟨entry.2, class?_of_mem_entries present, application⟩
  · rintro ⟨declaration, found, application⟩
    exact ⟨_, List.mem_filter.2 ⟨mem_entries_of_class? found, application⟩, rfl⟩

/-- Every class is listed once. -/
theorem nodup_applicationClasses (program : Program) : program.applicationClasses.Nodup := by
  unfold applicationClasses
  rw [(Text.sorted_perm _).nodup_iff]
  exact program.distinct.sublist (List.filter_sublist.map Prod.fst)

theorem mem_applicationMethods
    {id : MethodId}
    (member : id ∈ program.applicationMethods) :
    ∃ declaration,
      program.class? id.owner = some declaration ∧ declaration.isApplication ∧
        id.index < declaration.methods.length := by
  obtain ⟨name, named, listed⟩ := List.mem_flatMap.1 member
  obtain ⟨declaration, found, application⟩ := mem_applicationClasses.1 named
  unfold methodsOf at listed
  rw [found] at listed
  obtain ⟨index, bounded, rfl⟩ := List.mem_map.1 listed
  exact ⟨declaration, found, application, List.mem_range.1 bounded⟩

theorem mem_applicationMethods_of_method?
    {id : MethodId}
    {method : Method}
    (found : program.method? id = some method)
    (application : (program.class? id.owner).any Class.isApplication) :
    id ∈ program.applicationMethods := by
  obtain ⟨declaration, located, indexed⟩ := Option.bind_eq_some_iff.1 found
  rw [located, Option.any_some] at application
  have bounded := (List.getElem?_eq_some_iff.1 indexed).1
  refine List.mem_flatMap.2 ⟨id.owner, mem_applicationClasses.2 ⟨_, located, application⟩, ?_⟩
  unfold methodsOf
  rw [located]
  exact List.mem_map.2 ⟨id.index, List.mem_range.2 bounded, rfl⟩

theorem owner_of_mem_methodsOf
    {id : MethodId}
    (member : id ∈ program.methodsOf owner) :
    id.owner = owner := by
  unfold methodsOf at member
  cases found : program.class? owner with
  | none =>
    rw [found] at member
    cases member
  | some declaration =>
    rw [found] at member
    obtain ⟨index, -, rfl⟩ := List.mem_map.1 member
    rfl

/-- Every method is listed once. -/
theorem nodup_applicationMethods (program : Program) : program.applicationMethods.Nodup := by
  unfold applicationMethods
  rw [List.nodup_flatMap]
  refine ⟨?_, program.nodup_applicationClasses.imp ?_⟩
  · intro name _
    unfold methodsOf
    split
    · exact List.nodup_range.map fun index other same => (MethodId.mk.inj same).2
    · exact List.nodup_nil
  · intro name other differs id member memberOther
    exact differs ((owner_of_mem_methodsOf member).symm.trans (owner_of_mem_methodsOf memberOther))

end Program
end AccessProfiler
