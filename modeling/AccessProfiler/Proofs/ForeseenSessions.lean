import AccessProfiler.Proofs.ArrangedMethods
import AccessProfiler.Proofs.UnambiguousNames

/-!
# What a prepared session foresees

If the names of a program stay different, then of everything that the passes on bodies can ask for it is
known beforehand what the answer will be (`Session.Prepared.foresees`), and every body can be followed
(`Session.Prepared.allOpen`).
-/

namespace AccessProfiler

variable {settings : Settings} {program : Program} {base : Session}

namespace Program

/-- Classes that can come in have names that the program does not use. -/
theorem Unambiguous.not_mem_reservedNames
    (unambiguous : program.Unambiguous settings)
    {name : String}
    (named : name ∈ program.namedClasses) :
    name ∉ program.reservedNames settings :=
  fun reserved => unambiguous.classes name reserved (List.mem_cons_of_mem _ (List.mem_cons_of_mem _ named))

theorem mem_namedClasses_of_class?
    {name : String}
    {declaration : Class}
    (found : program.class? name = some declaration) :
    name ∈ program.namedClasses :=
  List.mem_append_left _ (List.mem_append_left _
    (List.mem_map.2 ⟨_, mem_entries_of_class? found, rfl⟩))

theorem mem_namedClasses_of_parent
    {name upper : String}
    {declaration : Class}
    (found : program.class? name = some declaration)
    (above : upper ∈ declaration.parents) :
    upper ∈ program.namedClasses :=
  List.mem_append_left _ (List.mem_append_right _ (List.mem_flatMap.2
    ⟨declaration, mem_classes_of_class? found, List.mem_cons_of_mem _ above⟩))

theorem mem_namedClasses_of_expression
    {name : String}
    {expression : Expression}
    (member : expression ∈ program.expressions)
    (named : name ∈ expression.classNames) :
    name ∈ program.namedClasses :=
  List.mem_append_right _ (List.mem_flatMap.2 ⟨expression, member, named⟩)

end Program

/-- What an instrumented class is given names no types but that of nothing. -/
theorem Profile.types_of_mem_methods
    {sink : Sink}
    {profile : Profile}
    {method : Method}
    (member : method ∈ profile.methods sink) :
    method.isSynthetic ∧ ∀ type ∈ method.result :: method.parameters, type = .void := by
  rw [methods, List.mem_cons, List.mem_singleton] at member
  have synthetic : Method.synthetic.includes Method.synthetic := by decide
  rcases member with rfl | rfl <;> exact ⟨synthetic, fun type among => List.mem_singleton.1 among⟩

/-- A method of a class with the members of its profile is one of the class, or it is generated and names
no types. -/
theorem Class.mem_methods_furnish
    {sink : Sink}
    {profile? : Option Profile}
    {declaration : Class}
    {method : Method}
    (member : method ∈ (declaration.furnish sink profile? fun _ body => body).methods) :
    method ∈ declaration.methods ∨
      method.isSynthetic ∧ ∀ type ∈ method.result :: method.parameters, type = .void := by
  have planned : declaration.plannedMethods (fun _ body => body) = declaration.methods := by
    refine List.ext_getElem? fun index => ?_
    rw [plannedMethods, List.getElem?_mapIdx]
    cases declaration.methods[index]? with
    | none => rfl
    | some method =>
      cases method
      simp
  rw [furnish, planned] at member
  refine (List.mem_append.1 member).imp_right fun given => ?_
  cases profile? with
  | none => cases given
  | some profile => exact Profile.types_of_mem_methods given

namespace Session.Prepared

variable (prepared : base.Prepared settings program)
include prepared

theorem className : base.counters.className = settings.counterClassName :=
  prepared.silent.books.labels.className

theorem reserves_iff {name : String} :
    base.Reserves (program.Elements settings) name ↔ name ∈ program.reservedNames settings := by
  unfold Reserves Program.reservedNames
  rw [prepared.className, List.mem_cons, prepared.sameSettings]
  refine or_congr_right ⟨?_, fun listed => ?_⟩
  · rintro ⟨element, ⟨wraps, among⟩, named⟩
    rw [if_pos wraps]
    exact List.mem_filterMap.2 ⟨.array element, among, named⟩
  · split at listed
    · rename_i wraps
      obtain ⟨type, among, named⟩ := List.mem_filterMap.1 listed
      cases type with
      | array element => exact ⟨element, ⟨wraps, among⟩, named⟩
      | _ => cases named
    · cases listed

/-- A class that does not come in is that of the program with the members of its profile. -/
theorem class?_eq
    {name : String}
    (free : ¬ base.Reserves (program.Elements settings) name) :
    base.program.class? name =
      (program.class? name).map
        (Class.furnish settings.sink (base.profiles.get? name) fun _ body => body) :=
  prepared.furnishes.furnished.class?_eq_furnish fun same =>
    free (.inl (same.trans prepared.className.symm))

/-- What is found under a name that does not come in is a class of the program, and so are its methods,
apart from those that are generated. -/
theorem exists_class
    {name : String}
    (free : ¬ base.Reserves (program.Elements settings) name)
    {declaration : Class}
    (found : base.program.class? name = some declaration) :
    ∃ old, program.class? name = some old ∧ declaration.name = old.name ∧
      declaration.parents = old.parents ∧
      ∀ method ∈ declaration.methods, method ∈ old.methods ∨
        method.isSynthetic ∧ ∀ type ∈ method.result :: method.parameters, type = .void := by
  rw [prepared.class?_eq free] at found
  obtain ⟨old, there, rfl⟩ := Option.map_eq_some_iff.1 found
  exact ⟨old, there, rfl, rfl, fun method member => Class.mem_methods_furnish member⟩

variable (unambiguous : program.Unambiguous settings)
include unambiguous

theorem free_of_named
    {name : String}
    (named : name ∈ program.namedClasses) :
    ¬ base.Reserves (program.Elements settings) name :=
  fun reserves =>
    unambiguous.not_mem_reservedNames named (prepared.reserves_iff.1 reserves)

/-- Types that are spelled in the program are known everywhere. -/
theorem admits_of_spelled
    {type : Ty}
    (spelled : type ∈ program.spelledTypes)
    {first second : Session} :
    base.BothAdmit (program.Elements settings) first second type :=
  fun name isClass reserves =>
    absurd (prepared.reserves_iff.1 reserves) (unambiguous.types type spelled name isClass)

theorem foresees : base.Foresees (program.Asks settings) (program.Elements settings) := by
  have free {name : String} (named : name ∈ objectClass :: stringClass :: program.namedClasses) :
      ¬ base.Reserves (program.Elements settings) name :=
    fun reserves => unambiguous.classes name (prepared.reserves_iff.1 reserves) named
  refine ⟨⟨?_, ?_⟩, unambiguous.apart_asks, ?_, ?_, ?_, free List.mem_cons_self,
    free (List.mem_cons_of_mem _ List.mem_cons_self)⟩
  · rintro first ⟨wraps, among⟩ second ⟨-, amongToo⟩ name named namedToo
    rw [prepared.sameSettings] at named namedToo
    have same : Ty.array first = .array second :=
      (unambiguous.wrappers wraps).1 _ among _ amongToo (Option.isSome_iff_exists.2 ⟨name, named⟩)
        (named.trans namedToo.symm)
    exact Ty.array.inj same
  · rintro element ⟨wraps, among⟩ named
    rw [prepared.sameSettings, prepared.className] at named
    exact (unambiguous.wrappers wraps).2 (List.mem_map.2 ⟨.array element, among, named⟩)
  · rw [prepared.className, prepared.sameSettings]
    exact prepared.silent.books
  · rintro element name ⟨wraps, among⟩ named
    rw [prepared.sameSettings] at named
    exact ⟨wraps, List.mem_filterMap.2 ⟨.array element, among, named⟩⟩
  · rintro element ⟨-, among⟩ name isClass reserves
    exact unambiguous.types (.array element) (List.mem_append_left _ (List.mem_append_left _ among)) name
      isClass (prepared.reserves_iff.1 reserves)

theorem foreseen :
    base.Foreseen (program.Asks settings) (program.Elements settings) base := by
  have foresees := prepared.foresees unambiguous
  refine ⟨.refl foresees.books ?_, ⟨?_, ?_⟩, rfl⟩
  · intro asset had method marked
    cases asset with
    | counters => cases marked
    | number owner => cases marked
    | tally owner => exact absurd had (prepared.silent.untallied owner)
    | wrapper name => simp [Has, prepared.furnishes.ledger.wrappers name] at had
  · intro name wrapper known
    simp [prepared.furnishes.ledger.wrappers name] at known
  · rintro element name among named -
    have reserved : name ∈ program.reservedNames settings :=
      prepared.reserves_iff.1 (.inr ⟨element, among, named⟩)
    have unnamed : program.class? name = none := by
      cases found : program.class? name with
      | none => rfl
      | some declaration =>
        exact absurd reserved
          (unambiguous.not_mem_reservedNames (Program.mem_namedClasses_of_class? found))
    have differs : name ≠ settings.counterClassName := by
      rintro rfl
      exact foresees.names.counters element among (prepared.className ▸ named)
    constructor
    · rw [prepared.furnishes.furnished.class?_eq_furnish differs, unnamed]
      rfl
    · cases known : base.profiles.get? name with
      | none => rfl
      | some profile =>
        obtain ⟨declaration, found, -⟩ :=
          class?_of_isTransformableClass (prepared.furnishes.profiled name profile known)
        rw [show program.class? name = some declaration from found] at unnamed
        cases unnamed

theorem paired :
    base.Paired (program.Asks settings) (program.Elements settings) base base where
  foreseen := prepared.foreseen unambiguous
  foreseenToo := prepared.foreseen unambiguous
  profiles _ _ := rfl
  outlines _ _ := rfl
  closed name free upper above := by
    unfold Program.parents at above
    cases found : base.program.class? name with
    | none =>
      rw [found] at above
      cases above
    | some declaration =>
      rw [found] at above
      obtain ⟨old, there, -, same, -⟩ := prepared.exists_class free found
      exact prepared.free_of_named unambiguous
        (Program.mem_namedClasses_of_parent there (same ▸ above))
  declared name free declaration found method member type among := by
    obtain ⟨old, there, -, -, methods⟩ := prepared.exists_class free found
    rcases methods method member with listed | ⟨-, void⟩
    · refine prepared.admits_of_spelled unambiguous (List.mem_append_left _ (List.mem_append_left _ ?_))
      rcases List.mem_cons.1 among with rfl | parameter
      · exact Program.mem_mentionedTypes_of_result there listed
      · exact Program.mem_mentionedTypes_of_parameter
          (Program.mem_parameterTypes_of_declared there listed parameter)
    · rw [void type among]
      exact .of_simple rfl
  named name free declaration found := by
    obtain ⟨old, there, same, -⟩ := prepared.exists_class free found
    exact same.trans (unambiguous.wellNamed.name_eq there)
  profiled name free profile known := by
    obtain ⟨field, counted, same⟩ := prepared.furnishes.ledger.profiles name profile known
    have isNumber := (prepared.furnishes.ledger.names _ field counted).2
    exact ⟨field.name, by rw [prepared.className]; exact isNumber ▸ same⟩

omit unambiguous in
/-- Counters may be asked for under the names that are listed. -/
theorem asksType {name : String} (listed : name ∈ program.countedNames) :
    base.AsksType (program.Asks settings) name := by
  intro profiling
  rw [prepared.sameSettings] at profiling
  exact ⟨⟨profiling, listed⟩, ⟨profiling, listed⟩⟩

omit unambiguous in
/-- Wrappers may be asked for of the types that are listed. -/
theorem asksWrapper {type : Ty} (mentioned : type ∈ program.mentionedTypes) :
    base.AsksWrapper (program.Elements settings) type := by
  rintro wraps element rfl
  rw [prepared.sameSettings] at wraps
  exact ⟨wraps, mentioned⟩

omit unambiguous in
theorem asks : base.Asks (program.Asks settings) (program.Elements settings) base where
  types name free present := by
    obtain ⟨declaration, found⟩ := Option.isSome_iff_exists.1 present
    obtain ⟨old, there, -⟩ := prepared.exists_class free found
    refine prepared.asksType (List.mem_append_left _ (List.mem_append_left _ (List.mem_cons_of_mem _ ?_)))
    exact List.mem_map.2 ⟨_, Program.mem_entries_of_class? there, rfl⟩
  calls tracks name free declaration found method member written := by
    rw [prepared.sameSettings] at tracks
    obtain ⟨old, there, same, -, methods⟩ := prepared.exists_class free found
    rcases methods method member with listed | ⟨generated, -⟩
    · refine ⟨tracks, List.mem_flatMap.2 ⟨old, Program.mem_classes_of_class? there, ?_⟩⟩
      rw [same]
      exact List.mem_map.2 ⟨method, listed, rfl⟩
    · rw [written] at generated
      cases generated
  wrappers name free declaration found method member type among := by
    obtain ⟨old, there, -, -, methods⟩ := prepared.exists_class free found
    rcases methods method member with listed | ⟨-, void⟩
    · refine prepared.asksWrapper ?_
      rcases List.mem_cons.1 among with rfl | parameter
      · exact Program.mem_mentionedTypes_of_result there listed
      · exact Program.mem_mentionedTypes_of_parameter
          (Program.mem_parameterTypes_of_declared there listed parameter)
    · rw [void type among]
      exact fun _ => nofun

/-- A prepared session is like itself. -/
theorem alike : base.Alike (program.Asks settings) (program.Elements settings) base base :=
  ⟨prepared.paired unambiguous, fun _ => .rfl, fun _ _ => rfl, prepared.asks⟩

/-- What an instruction of the program is about is known everywhere. -/
theorem reads_of_instruction
    {body : Body}
    (among : body ∈ program.bodies)
    {instruction : Instruction}
    (member : instruction ∈ body.instructions) :
    base.BothRead (program.Asks settings) (program.Elements settings) base base instruction := by
  have isExpression {expression : Expression} (part : expression ∈ instruction.expressions) :
      expression ∈ program.expressions :=
    Program.mem_expressions among member part
  have isCounted {holder : LocalId} {field : FieldRef} {name : String}
      (part : .instanceField holder field ∈ instruction.expressions)
      (listed : name ∈ [field.owner, field.type.render]) :
      name ∈ program.countedNames :=
    List.mem_append_left _ (List.mem_append_right _
      (List.mem_flatMap.2 ⟨.instanceField holder field, isExpression part, listed⟩))
  refine ⟨fun type stated => ?_, fun target isCall => ?_, fun target index type bound => ?_,
    fun holder field part => ?_, fun holder field part _ => ?_⟩
  · refine prepared.admits_of_spelled unambiguous (List.mem_append_left _ (List.mem_append_right _ ?_))
    cases instruction with
    | assign place value =>
      rcases List.mem_append.1 stated with ofPlace | ofValue
      · exact List.mem_filterMap.2
          ⟨place, isExpression List.mem_cons_self, Option.mem_toList.1 ofPlace⟩
      · exact List.mem_filterMap.2
          ⟨value, isExpression (List.mem_cons_of_mem _ List.mem_cons_self),
            Option.mem_toList.1 ofValue⟩
    | _ => cases stated
  · have part : .call target ∈ instruction.expressions := by
      cases instruction with
      | invoke called =>
        cases isCall
        exact List.mem_cons_self
      | assign place value =>
        cases value with
        | call called =>
          cases isCall
          exact List.mem_cons_of_mem _ List.mem_cons_self
        | _ => cases isCall
      | _ => cases isCall
    have called := isExpression part
    refine .inr (.known (.of_free (prepared.free_of_named unambiguous
      (Program.mem_namedClasses_of_expression called List.mem_cons_self))) fun type parameter => ?_)
    have mentioned := Program.mem_mentionedTypes_of_parameter
      (Program.mem_parameterTypes_of_called called parameter)
    exact ⟨prepared.admits_of_spelled unambiguous
      (List.mem_append_left _ (List.mem_append_left _ mentioned)), prepared.asksWrapper mentioned⟩
  · refine prepared.admits_of_spelled unambiguous (List.mem_append_right _
      (List.mem_flatMap.2 ⟨body, among, List.mem_filterMap.2 ⟨instruction, member, ?_⟩⟩))
    rw [bound]
    rfl
  · exact prepared.free_of_named unambiguous
      (Program.mem_namedClasses_of_expression (isExpression part) List.mem_cons_self)
  · exact ⟨prepared.asksType (isCounted part List.mem_cons_self),
      prepared.asksType (isCounted part (List.mem_cons_of_mem _ List.mem_cons_self))⟩

/-- Every body that was written by hand can be followed. -/
theorem allOpen :
    base.AllOpen (program.Asks settings) (program.Elements settings) base base := by
  intro id method body free found written isBody
  obtain ⟨declaration, there, listed⟩ := Option.bind_eq_some_iff.1 found
  obtain ⟨old, thereBefore, -, -, methods⟩ := prepared.exists_class free there
  have among : body ∈ program.bodies := by
    rcases methods method (List.mem_of_getElem? listed) with member | ⟨generated, -⟩
    · exact Program.mem_bodies thereBefore member isBody
    · rw [written] at generated
      cases generated
  have reads instruction (member : instruction ∈ body.instructions) :=
    prepared.reads_of_instruction unambiguous among member
  have isLocal {declared : LocalDecl} (member : declared ∈ body.locals) :=
    Program.mem_mentionedTypes_of_local among member
  have isCounted {declared : LocalDecl} (member : declared ∈ body.locals) {name : String}
      (named : name ∈ declared.countedNames) :
      name ∈ program.countedNames :=
    List.mem_append_right _
      (List.mem_flatMap.2 ⟨body, among, List.mem_flatMap.2 ⟨declared, member, named⟩⟩)
  refine ⟨⟨fun declared member => ?_, fun instruction member => (reads instruction member).states⟩,
    fun declared member => ?_, fun declared member => ?_, reads⟩
  · exact prepared.admits_of_spelled unambiguous
      (List.mem_append_left _ (List.mem_append_left _ (isLocal member)))
  · exact prepared.asksWrapper (isLocal member)
  · exact ⟨prepared.asksType (isCounted member List.mem_cons_self),
      prepared.asksType (isCounted member (List.mem_cons_of_mem _ List.mem_cons_self))⟩

end Session.Prepared

end AccessProfiler
