import AccessProfiler.Image.Schema

/-!
# Rules for reading records

When a reader of records, lists and variants succeeds, and with what.  Each rule is an equivalence, so
that the same rules say what is read from something that was written and what anything that was read
looks like.
-/

namespace AccessProfiler.Schema

variable {Argument Result : Type} {members : Members} {name : String} {json : Json}

/-- A value that is there goes on to be changed. -/
@[simp]
theorem ok_map {change : Argument → Result} {value : Argument} :
    (Except.ok value : Readable Argument).map change = .ok (change value) := rfl

@[simp]
theorem ok_bind {next : Argument → Readable Result} {value : Argument} :
    ((Except.ok value : Readable Argument) >>= next) = next value := rfl

theorem map_eq_ok {change : Argument → Result} {outcome : Readable Argument} {value : Result} :
    outcome.map change = .ok value ↔ ∃ given, outcome = .ok given ∧ value = change given := by
  cases outcome <;> simp [Except.map, eq_comm]

theorem bind_eq_ok
    {outcome : Readable Argument}
    {next : Argument → Readable Result}
    {value : Result} :
    outcome >>= next = .ok value ↔ ∃ given, outcome = .ok given ∧ next given = .ok value := by
  cases outcome with
  | ok given => simp
  | error reason =>
    constructor
    · rintro ⟨⟩
    · rintro ⟨_, ⟨⟩, _⟩

@[simp]
theorem pure_eq {value : Result} : (pure value : Readable Result) = .ok value := rfl

namespace RecordReader

@[simp]
theorem pure_eq_ok {given value : Result} :
    (pure given : RecordReader Result).result members = .ok value ↔ value = given := by
  show (Except.ok given : Except Faults Result) = .ok value ↔ _
  rw [Except.ok.injEq, eq_comm]

@[simp]
theorem seq_eq_ok
    {function : RecordReader (Argument → Result)}
    {argument : RecordReader Argument}
    {value : Result} :
    (function <*> argument).result members = .ok value ↔
      ∃ applied given, function.result members = .ok applied ∧
        argument.result members = .ok given ∧ value = applied given := by
  show (function.apply argument).result members = .ok value ↔ _
  unfold apply
  dsimp only
  cases function.result members <;> cases argument.result members <;> simp [eq_comm]

@[simp]
theorem map_eq_ok {change : Argument → Result} {argument : RecordReader Argument} {value : Result} :
    (change <$> argument).result members = .ok value ↔
      ∃ given, argument.result members = .ok given ∧ value = change given := by
  show ((pure change : RecordReader (Argument → Result)) <*> argument).result members = .ok value ↔ _
  rw [seq_eq_ok]
  constructor
  · rintro ⟨applied, given, same, read, rfl⟩
    obtain rfl := pure_eq_ok.1 same
    exact ⟨given, read, rfl⟩
  · rintro ⟨given, read, rfl⟩
    exact ⟨change, given, pure_eq_ok.2 rfl, read, rfl⟩

end RecordReader

theorem seq_ok
    {function : RecordReader (Argument → Result)}
    {argument : RecordReader Argument}
    {applied : Argument → Result}
    {given : Argument}
    (reads : function.result members = .ok applied)
    (readsArgument : argument.result members = .ok given) :
    (function <*> argument).result members = .ok (applied given) :=
  RecordReader.seq_eq_ok.2 ⟨applied, given, reads, readsArgument, rfl⟩

theorem map_ok
    {change : Argument → Result}
    {argument : RecordReader Argument}
    {given : Argument}
    (reads : argument.result members = .ok given) :
    (change <$> argument).result members = .ok (change given) :=
  RecordReader.map_eq_ok.2 ⟨given, reads, rfl⟩

variable {read : Json → Readable Result} {value : Result}

theorem member?_eq_ok {found : Option Result} :
    (member? name read).result members = .ok found ↔
      (members.lookup name = none ∧ found = none) ∨
        ∃ json value, members.lookup name = some json ∧ read json = .ok value ∧
          found = some value := by
  unfold member?
  dsimp only
  cases members.lookup name with
  | none => simp [eq_comm]
  | some json =>
    simp only [reduceCtorEq, false_and, false_or, Option.some.injEq, exists_and_left,
      exists_eq_left']
    cases read json <;> simp [eq_comm]

@[simp]
theorem required_eq_ok :
    (required name read).result members = .ok value ↔
      ∃ json, members.lookup name = some json ∧ read json = .ok value := by
  have found :
      (required name read).result members = .ok value ↔
        (member? name read).result members = .ok (some value) := by
    unfold required
    dsimp only
    rcases (member? name read).result members with faults | (_ | result) <;> simp
  rw [found, member?_eq_ok]
  simp

@[simp]
theorem optional_eq_ok {default : Result} :
    (optional name default read).result members = .ok value ↔
      (members.lookup name = none ∧ value = default) ∨
        ∃ json, members.lookup name = some json ∧ read json = .ok value := by
  unfold optional
  rw [RecordReader.map_eq_ok]
  simp only [member?_eq_ok]
  constructor
  · rintro ⟨_, ⟨absent, rfl⟩ | ⟨json, found, present, reads, rfl⟩, rfl⟩
    · exact .inl ⟨absent, rfl⟩
    · exact .inr ⟨json, present, reads⟩
  · rintro (⟨absent, rfl⟩ | ⟨json, present, reads⟩)
    · exact ⟨none, .inl ⟨absent, rfl⟩, rfl⟩
    · exact ⟨some value, .inr ⟨json, value, present, reads, rfl⟩, rfl⟩

theorem required_ok (found : members.lookup name = some json) (reads : read json = .ok value) :
    (required name read).result members = .ok value :=
  required_eq_ok.2 ⟨json, found, reads⟩

theorem optional_ok
    {default : Result}
    (found : members.lookup name = some json)
    (reads : read json = .ok value) :
    (optional name default read).result members = .ok value :=
  optional_eq_ok.2 (.inr ⟨json, found, reads⟩)

theorem nullable_eq_ok {found : Option Result} :
    nullable read json = .ok found ↔
      (json = .null ∧ found = none) ∨
        (json ≠ .null ∧ ∃ value, read json = .ok value ∧ found = some value) := by
  cases json with
  | null => simp [nullable, eq_comm]
  | _ => simp [nullable, map_eq_ok]

/-- A member of an object whose absent members are left out. -/
theorem lookup_filterMap
    {members : List (String × Option Json)}
    (distinct : (members.map Prod.fst).Nodup) :
    (members.filterMap fun entry => entry.2.map (entry.1, ·)).lookup name =
      (members.lookup name).join := by
  induction members with
  | nil => rfl
  | cons entry rest hypothesis =>
    obtain ⟨here, given⟩ := entry
    obtain ⟨fresh, distinctRest⟩ := List.nodup_cons.1 distinct
    have others := hypothesis distinctRest
    rw [List.lookup_cons]
    by_cases same : name = here
    · subst same
      have missing : rest.lookup name = none := by
        refine List.lookup_eq_none_iff.2 fun entry member => ?_
        have differs : name ≠ entry.1 := by
          rintro rfl
          exact fresh (List.mem_map.2 ⟨entry, member, rfl⟩)
        simpa using differs
      rw [missing] at others
      cases given with
      | none => simpa using others
      | some json => simp
    · have differs : (name == here) = false := by simpa using same
      rw [differs]
      cases given with
      | none => simpa using others
      | some json => simpa [List.lookup_cons, differs] using others

/-- What was written under a name is read again, and nothing where nothing was written. -/
theorem perhaps_ok
    {write : Result → Json}
    {given : Option Result}
    (found : members.lookup name = given.map write)
    (visible : ∀ value, write value ≠ .null)
    (reads : ∀ value ∈ given, read (write value) = .ok value) :
    (perhaps name read).result members = .ok given := by
  unfold perhaps
  rw [optional_eq_ok]
  cases given with
  | none => exact .inl ⟨found, rfl⟩
  | some value =>
    refine .inr ⟨write value, found, nullable_eq_ok.2 (.inr ⟨visible value, value, ?_, rfl⟩)⟩
    exact reads value rfl

/-- Whatever a member that may be missing holds was read from something. -/
theorem of_perhaps_eq_ok
    {given : Option Result}
    (reads : (perhaps name read).result members = .ok given) :
    ∀ value ∈ given, ∃ json, read json = .ok value := by
  unfold perhaps at reads
  rw [optional_eq_ok] at reads
  rcases reads with ⟨-, rfl⟩ | ⟨json, -, readsJson⟩
  · rintro _ ⟨⟩
  · rcases nullable_eq_ok.1 readsJson with ⟨-, rfl⟩ | ⟨-, found, there, rfl⟩
    · rintro _ ⟨⟩
    · rintro _ ⟨⟩
      exact ⟨json, there⟩

variable {reader : RecordReader Result}

/-- An object is read as its members are. -/
@[simp]
theorem record_object_eq_ok :
    record reader (.object members) = .ok value ↔ reader.result members = .ok value := by
  unfold record
  dsimp only
  cases reader.result members with
  | error faults =>
    show (Except.error _ : Readable Result) = .ok value ↔ Except.error faults = .ok value
    simp
  | ok result =>
    show (Except.ok result : Readable Result) = .ok value ↔ Except.ok result = .ok value
    simp

/-- An object whose absent members are left out is read as its members are. -/
theorem record_objectOf_ok
    {members : List (String × Option Json)}
    (distinct : (members.map Prod.fst).Nodup)
    (reads :
      ∀ present : Members,
        (∀ name given, members.lookup name = some given → present.lookup name = given) →
          reader.result present = .ok value) :
    record reader (.objectOf members) = .ok value := by
  refine record_object_eq_ok.2 (reads _ fun name given listed => ?_)
  rw [lookup_filterMap distinct, listed, Option.join_some]

/-- Every record is read from some members. -/
theorem of_record_eq_ok (reads : record reader json = .ok value) :
    ∃ members, reader.result members = .ok value := by
  unfold record at reads
  split at reads
  · exact ⟨_, record_object_eq_ok.1 reads⟩
  · rename_i elements
    cases found : reader.result (reader.names.zip elements) with
    | error faults =>
      rw [found] at reads
      cases reads
    | ok result =>
      rw [found] at reads
      dsimp only at reads
      split at reads
      · cases reads
        exact ⟨_, found⟩
      · cases reads
  · cases reads

/-- Elements that can each be read again are read again together. -/
theorem mapM_map_eq_ok
    {write : Result → Json}
    {values : List Result}
    (reads : ∀ value ∈ values, read (write value) = .ok value) :
    (values.map write).mapM read = .ok values := by
  induction values with
  | nil => rfl
  | cons value rest hypothesis =>
    rw [List.map_cons, List.mapM_cons, reads value List.mem_cons_self,
      hypothesis fun other member => reads other (List.mem_cons_of_mem _ member)]
    rfl

theorem list_array_eq_ok
    {write : Result → Json}
    {values : List Result}
    (reads : ∀ value ∈ values, read (write value) = .ok value) :
    list read (.array (values.map write)) = .ok values :=
  mapM_map_eq_ok reads

/-- Each element of a list was read from something. -/
theorem of_list_eq_ok {values : List Result} (reads : list read json = .ok values) :
    ∀ value ∈ values, ∃ json, read json = .ok value := by
  have each {elements : List Json} {values : List Result} (reads : elements.mapM read = .ok values) :
      ∀ value ∈ values, ∃ json, read json = .ok value := by
    induction elements generalizing values with
    | nil =>
      cases reads
      rintro _ ⟨⟩
    | cons element rest hypothesis =>
      rw [List.mapM_cons] at reads
      cases first : read element with
      | error reason =>
        rw [first] at reads
        cases reads
      | ok found =>
        cases others : rest.mapM read with
        | error reason =>
          rw [first, others] at reads
          cases reads
        | ok values =>
          rw [first, others] at reads
          cases reads
          intro value member
          rcases List.mem_cons.1 member with rfl | later
          · exact ⟨element, first⟩
          · exact hypothesis others value later
  unfold list at reads
  split at reads
  · exact each reads
  · cases reads

/-- Each element of a list that may be missing was read from something. -/
theorem of_optional_list_eq_ok
    {values : List Result}
    (reads : (optional name [] (list read)).result members = .ok values) :
    ∀ value ∈ values, ∃ json, read json = .ok value := by
  rcases optional_eq_ok.1 reads with ⟨-, rfl⟩ | ⟨json, -, readsList⟩
  · rintro _ ⟨⟩
  · exact of_list_eq_ok readsList

@[simp]
theorem single_object : single (.object [(name, json)]) = .ok (name, json) := rfl

@[simp]
theorem symbol_string {latitude : Latitude} : symbol latitude (.string name) = .ok name := rfl

@[simp]
theorem string_string {text : String} : string (.string text) = .ok text := rfl

@[simp]
theorem bool_bool {truth : Bool} : bool (.bool truth) = .ok truth := rfl

theorem integer_eq_ok {lower upper number : Int} :
    integer lower upper json = .ok number ↔
      json = .integer number ∧ lower ≤ number ∧ number < upper := by
  unfold integer
  split
  · rename_i given
    split
    · rename_i within
      constructor
      · rintro ⟨⟩
        exact ⟨rfl, within⟩
      · rintro ⟨⟨⟩, -⟩
        rfl
    · rename_i beyond
      constructor
      · rintro ⟨⟩
      · rintro ⟨⟨⟩, within⟩
        exact absurd within beyond
  · rename_i noInteger
    constructor
    · rintro ⟨⟩
    · rintro ⟨rfl, -⟩
      exact absurd rfl (noInteger number)

theorem natural_eq_ok {bits number : Nat} :
    natural bits json = .ok number ↔ json = .integer number ∧ number < Nat.pow 2 bits := by
  have power : (Int.pow 2 bits : Int) = (Nat.pow 2 bits : Nat) :=
    (Int.natCast_pow 2 bits).symm
  unfold natural
  cases read : integer 0 (Int.pow 2 bits) json with
  | error reason =>
    constructor
    · rintro ⟨⟩
    · rintro ⟨rfl, small⟩
      have within : integer 0 (Int.pow 2 bits) (.integer number) = .ok (number : Int) :=
        integer_eq_ok.2 ⟨rfl, by omega, by rw [power]; exact_mod_cast small⟩
      rw [within] at read
      cases read
  | ok found =>
    obtain ⟨rfl, lower, upper⟩ := integer_eq_ok.1 read
    rw [power] at upper
    constructor
    · rintro ⟨⟩
      refine ⟨by rw [Int.toNat_of_nonneg lower], by omega⟩
    · rintro ⟨same, -⟩
      cases same
      rfl

end AccessProfiler.Schema
