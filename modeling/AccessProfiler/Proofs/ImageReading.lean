import AccessProfiler.Image.Decode
import AccessProfiler.Image.Encode
import AccessProfiler.Proofs.RecordRules
import AccessProfiler.Proofs.Spelling

/-!
# Images that are read back

Reading the JSON that is written for an image gives the image back, and what is read from any JSON at all
can be written and read again (`imageOfJson_imageToJson`).  What can go wrong lies in the leaves of an
image: a type may have no spelling, the number of a local or of a parameter may be too large, and a
floating point literal does not keep its precision.  Nothing is lost above the leaves, whatever is left
out when it is written, and everything that is read has leaves of the right kind.
-/

namespace AccessProfiler

open Schema

/-- What the declarations and instructions of an image come down to, apart from names and flags. -/
inductive Leaf
  | type (spelled : Ty)
  | slot (id : LocalId)
  | position (index : Nat)
  | literal (value : Constant)
deriving DecidableEq

namespace Leaf

/-- Something can be read as the leaf: a type has a spelling, and numbers are not too large. -/
def IsReadable : Leaf → Prop
  | .type spelled => ∃ text, Ty.parse text = .ok spelled
  | .slot id => id.index < Nat.pow 2 32
  | .position index => index < Nat.pow 2 64
  | .literal _ => True

/-- The leaf is no floating point literal. -/
def IsExact : Leaf → Prop
  | .literal (.float _) | .literal (.double _) => False
  | _ => True

instance : DecidablePred IsExact
  | .literal (.float _) | .literal (.double _) => .isFalse id
  | .literal (.int _) | .literal (.long _) | .literal (.str _) | .literal .null
  | .type _ | .slot _ | .position _ => .isTrue trivial

/-- The leaf can be written and read again. -/
def IsPortable (leaf : Leaf) : Prop :=
  leaf.IsReadable ∧ leaf.IsExact

end Leaf

def Operand.leaves : Operand → List Leaf
  | .variable source => [.slot source]
  | .literal value => [.literal value]

def MethodRef.leaves (method : MethodRef) : List Leaf :=
  .type method.result :: method.parameters.map .type

def Call.leaves (target : Call) : List Leaf :=
  target.method.leaves ++ target.receiver.toList.map .slot ++
    target.arguments.flatMap Operand.leaves

def Expression.leaves : Expression → List Leaf
  | .variable source => [.slot source]
  | .literal value => [.literal value]
  | .instanceField base field => [.slot base, .type field.type]
  | .staticField field => [.type field.type]
  | .element base index => .slot base :: index.leaves
  | .newObject _ => []
  | .newArray content size => .type content :: size.leaves
  | .length base => [.slot base]
  | .binary _ left right => left.leaves ++ right.leaves
  | .call target => target.leaves

def Binding.leaves : Binding → List Leaf
  | .receiver type => [.type type]
  | .parameter index type => [.position index, .type type]

def Instruction.leaves : Instruction → List Leaf
  | .bind target source => .slot target :: source.leaves
  | .assign place value => place.leaves ++ value.leaves
  | .invoke target => target.leaves
  | .return value => value.toList.flatMap Operand.leaves

def Body.leaves (body : Body) : List Leaf :=
  body.locals.map (fun declaration => .type declaration.type) ++
    body.instructions.flatMap Instruction.leaves

def Method.leaves (method : Method) : List Leaf :=
  .type method.result :: method.parameters.map .type ++ method.body.toList.flatMap Body.leaves

def Class.leaves (declaration : Class) : List Leaf :=
  declaration.fields.map (fun field => .type field.type) ++
    declaration.methods.flatMap Method.leaves

/-- The leaves of an image. -/
def imageLeaves (classes : List Class) : List Leaf :=
  classes.flatMap Class.leaves

theorem FlagNames.clear_field : FlagNames.Clear Field.flagNames :=
  ⟨by decide +kernel, by decide +kernel, by decide +kernel⟩

theorem FlagNames.clear_method : FlagNames.Clear Method.flagNames :=
  ⟨by decide +kernel, by decide +kernel, by decide +kernel⟩

theorem FlagNames.clear_class : FlagNames.Clear Class.flagNames :=
  ⟨by decide +kernel, by decide +kernel, by decide +kernel⟩

namespace Schema

/-- A tag in front of other members is read, and the others are left. -/
theorem tagged_object_eq_ok
    {latitude : Latitude}
    {key name : String}
    {tags : List String}
    {rest : Members}
    (others : ∀ entry ∈ rest, entry.1 ≠ key) :
    tagged latitude key tags (.object ((key, .string name) :: rest)) = .ok (name, .object rest) := by
  have kept : (rest.filter fun entry => entry.1 != key) = rest :=
    List.filter_eq_self.2 fun entry member => by simpa using others entry member
  unfold tagged
  dsimp only
  rw [List.lookup_cons, beq_self_eq_true]
  dsimp only
  rw [List.filter_cons_of_neg (by simp), kept]
  rfl

end Schema

/-! ## Writing and reading again -/

theorem Ty.ofJson_toJson {type : Ty} (portable : (Leaf.type type).IsPortable) :
    Ty.ofJson type.toJson = .ok type := by
  unfold Ty.toJson Ty.ofJson
  dsimp only
  rw [parse_render (isSpelled_iff.2 portable.1)]

theorem LocalId.ofJson_toJson {id : LocalId} (portable : (Leaf.slot id).IsPortable) :
    LocalId.ofJson id.toJson = .ok id := by
  have read : natural 32 id.toJson = .ok id.index := natural_eq_ok.2 ⟨rfl, portable.1⟩
  unfold LocalId.ofJson
  rw [read]
  rfl

theorem Constant.ofJson_toJson
    {latitude : Latitude}
    {value : Constant}
    (portable : (Leaf.literal value).IsPortable) :
    Constant.ofJson latitude value.toJson = .ok value := by
  cases value with
  | int value =>
    have read :
        integer (-Int.pow 2 31) (Int.pow 2 31) (.integer value.toInt) = .ok value.toInt :=
      integer_eq_ok.2 ⟨rfl, value.le_toInt, value.toInt_lt⟩
    show (integer (-Int.pow 2 31) (Int.pow 2 31) (.integer value.toInt)).map _ = _
    rw [read]
    show Except.ok (Constant.int (Int32.ofInt value.toInt)) = .ok (.int value)
    rw [value.ofInt_toInt]
  | long value =>
    have read :
        integer (-Int.pow 2 63) (Int.pow 2 63) (.integer value.toInt) = .ok value.toInt :=
      integer_eq_ok.2 ⟨rfl, value.le_toInt, value.toInt_lt⟩
    show (integer (-Int.pow 2 63) (Int.pow 2 63) (.integer value.toInt)).map _ = _
    rw [read]
    show Except.ok (Constant.long (Int64.ofInt value.toInt)) = .ok (.long value)
    rw [value.ofInt_toInt]
  | float value => exact portable.2.elim
  | double value => exact portable.2.elim
  | str value => rfl
  | null => rfl

theorem Operand.ofJson_local {latitude : Latitude} {json : Json} :
    Operand.ofJson latitude (.object [("local", json)]) = (LocalId.ofJson json).map .variable := rfl

theorem Operand.ofJson_const {latitude : Latitude} {json : Json} :
    Operand.ofJson latitude (.object [("const", json)]) =
      (Constant.ofJson latitude json).map .literal := rfl

theorem Operand.ofJson_toJson
    {latitude : Latitude}
    {operand : Operand}
    (portable : ∀ leaf ∈ operand.leaves, leaf.IsPortable) :
    Operand.ofJson latitude operand.toJson = .ok operand := by
  cases operand with
  | «variable» source =>
    rw [toJson, ofJson_local, LocalId.ofJson_toJson (portable _ List.mem_cons_self), ok_map]
  | literal value =>
    rw [toJson, ofJson_const, Constant.ofJson_toJson (portable _ List.mem_cons_self), ok_map]

theorem FieldRef.ofJson_toJson
    {field : FieldRef}
    (portable : (Leaf.type field.type).IsPortable) :
    FieldRef.ofJson field.toJson = .ok field := by
  have type := Ty.ofJson_toJson portable
  exact record_object_eq_ok.2
    (seq_ok (seq_ok (seq_ok (map_ok (required_ok rfl string_string))
      (required_ok rfl string_string)) (required_ok rfl type)) (optional_ok rfl bool_bool))

theorem Ty.list_ofJson_toJson
    {types : List Ty}
    (portable : ∀ leaf ∈ types.map Leaf.type, leaf.IsPortable) :
    list Ty.ofJson (.array (types.map Ty.toJson)) = .ok types :=
  list_array_eq_ok fun _ member => Ty.ofJson_toJson (portable _ (List.mem_map_of_mem member))

theorem MethodRef.ofJson_toJson
    {method : MethodRef}
    (portable : ∀ leaf ∈ method.leaves, leaf.IsPortable) :
    MethodRef.ofJson method.toJson = .ok method := by
  obtain ⟨result, parameters⟩ := List.forall_mem_cons.1 portable
  exact record_object_eq_ok.2
    (seq_ok (seq_ok (seq_ok (map_ok (required_ok rfl string_string))
      (required_ok rfl string_string)) (optional_ok rfl (Ty.list_ofJson_toJson parameters)))
      (required_ok rfl (Ty.ofJson_toJson result)))

theorem CallKind.ofJson_render {latitude : Latitude} {kind : CallKind} :
    CallKind.ofJson latitude (.string kind.render) = .ok kind := by
  cases kind <;> rfl

theorem Operator.ofJson_tag {operator : Operator} :
    Operator.ofJson (.string operator.tag) = .ok operator := by
  cases operator <;> rfl

theorem Call.ofJson_toJson
    {target : Call}
    (portable : ∀ leaf ∈ target.leaves, leaf.IsPortable) :
    Call.ofJson target.toJson = .ok target := by
  simp only [leaves, List.forall_mem_append] at portable
  obtain ⟨⟨method, receiver⟩, arguments⟩ := portable
  have readReceiver : ∀ id ∈ target.receiver, LocalId.ofJson id.toJson = .ok id :=
    fun id member => LocalId.ofJson_toJson
      (receiver _ (List.mem_map_of_mem (Option.mem_toList.2 member)))
  have readArguments :
      list (Operand.ofJson .lenient) (.array (target.arguments.map Operand.toJson)) =
        .ok target.arguments :=
    list_array_eq_ok fun operand member => Operand.ofJson_toJson fun leaf among =>
      arguments leaf (List.mem_flatMap.2 ⟨operand, member, among⟩)
  exact record_objectOf_ok (by simp) fun _ found =>
    seq_ok (seq_ok (seq_ok
      (map_ok (required_ok (found _ _ rfl) CallKind.ofJson_render))
      (required_ok (found _ _ rfl) (MethodRef.ofJson_toJson method)))
      (perhaps_ok (found _ _ rfl) (fun _ => by simp [LocalId.toJson]) readReceiver))
      (optional_ok (found _ _ rfl) readArguments)

/-- An expression is read by its tag. -/
theorem Expression.ofJson_object
    {latitude : Latitude}
    {tag : String}
    {rest : Members}
    (others : ∀ entry ∈ rest, entry.1 ≠ "value") :
    Expression.ofJson latitude (.object (("value", .string tag) :: rest)) =
      Expression.ofTag tag (.object rest) := by
  unfold Expression.ofJson
  rw [tagged_object_eq_ok others, ok_bind]

theorem Expression.ofJson_toJson
    {latitude : Latitude}
    {expression : Expression}
    (portable : ∀ leaf ∈ expression.leaves, leaf.IsPortable) :
    Expression.ofJson latitude expression.toJson = .ok expression := by
  cases expression
  all_goals
    rw [toJson, ofJson_object (by simp)]
    simp only [ofTag]
    refine record_object_eq_ok.2 ?_
  case «variable» source =>
    exact map_ok (required_ok rfl (LocalId.ofJson_toJson (portable _ List.mem_cons_self)))
  case literal value =>
    exact map_ok (required_ok rfl (Constant.ofJson_toJson (portable _ List.mem_cons_self)))
  case instanceField base field =>
    obtain ⟨slot, field⟩ := List.forall_mem_cons.1 portable
    exact seq_ok (map_ok (required_ok rfl (LocalId.ofJson_toJson slot)))
      (required_ok rfl (FieldRef.ofJson_toJson (field _ List.mem_cons_self)))
  case staticField field =>
    exact map_ok (required_ok rfl (FieldRef.ofJson_toJson (portable _ List.mem_cons_self)))
  case element base index =>
    obtain ⟨slot, index⟩ := List.forall_mem_cons.1 portable
    exact seq_ok (map_ok (required_ok rfl (LocalId.ofJson_toJson slot)))
      (required_ok rfl (Operand.ofJson_toJson index))
  case newObject className => exact map_ok (required_ok rfl string_string)
  case newArray content size =>
    obtain ⟨type, size⟩ := List.forall_mem_cons.1 portable
    exact seq_ok (map_ok (required_ok rfl (Ty.ofJson_toJson type)))
      (required_ok rfl (Operand.ofJson_toJson size))
  case length base =>
    exact map_ok (required_ok rfl (LocalId.ofJson_toJson (portable _ List.mem_cons_self)))
  case binary operator left right =>
    obtain ⟨left, right⟩ := List.forall_mem_append.1 portable
    exact seq_ok (seq_ok (map_ok (required_ok rfl Operator.ofJson_tag))
      (required_ok rfl (Operand.ofJson_toJson left)))
      (required_ok rfl (Operand.ofJson_toJson right))
  case call target => exact map_ok (required_ok rfl (Call.ofJson_toJson portable))

theorem Binding.ofJson_this {json : Json} :
    Binding.ofJson (.object [("this", json)]) = (Ty.ofJson json).map .receiver := rfl

theorem Binding.ofJson_parameter {json : Json} :
    Binding.ofJson (.object [("parameter", json)]) =
      record (.parameter <$> required "index" (natural 64) <*> required "ty" Ty.ofJson) json := rfl

theorem Binding.ofJson_toJson
    {source : Binding}
    (portable : ∀ leaf ∈ source.leaves, leaf.IsPortable) :
    Binding.ofJson source.toJson = .ok source := by
  cases source with
  | receiver type =>
    rw [toJson, ofJson_this, Ty.ofJson_toJson (portable _ List.mem_cons_self), ok_map]
  | parameter index type =>
    obtain ⟨position, type⟩ := List.forall_mem_cons.1 portable
    rw [toJson, ofJson_parameter]
    exact record_object_eq_ok.2
      (seq_ok (map_ok (required_ok rfl (natural_eq_ok.2 ⟨rfl, position.1⟩)))
        (required_ok rfl (Ty.ofJson_toJson (type _ List.mem_cons_self))))

/-- An instruction is read by its tag. -/
theorem Instruction.ofJson_object
    {tag : String}
    {rest : Members}
    (others : ∀ entry ∈ rest, entry.1 ≠ "op") :
    Instruction.ofJson (.object (("op", .string tag) :: rest)) =
      Instruction.ofTag tag (.object rest) := by
  unfold Instruction.ofJson
  rw [tagged_object_eq_ok others, ok_bind]

theorem Instruction.ofJson_toJson
    {instruction : Instruction}
    (portable : ∀ leaf ∈ instruction.leaves, leaf.IsPortable) :
    Instruction.ofJson instruction.toJson = .ok instruction := by
  cases instruction with
  | bind target source =>
    obtain ⟨slot, source⟩ := List.forall_mem_cons.1 portable
    rw [toJson, ofJson_object (by simp)]
    simp only [ofTag]
    exact record_object_eq_ok.2
      (seq_ok (map_ok (required_ok rfl (LocalId.ofJson_toJson slot)))
        (required_ok rfl (Binding.ofJson_toJson source)))
  | assign place value =>
    obtain ⟨place, value⟩ := List.forall_mem_append.1 portable
    rw [toJson, ofJson_object (by simp)]
    simp only [ofTag]
    exact record_object_eq_ok.2
      (seq_ok (map_ok (required_ok rfl (Expression.ofJson_toJson place)))
        (required_ok rfl (Expression.ofJson_toJson value)))
  | invoke target =>
    rw [toJson, ofJson_object (by simp)]
    simp only [ofTag]
    exact record_object_eq_ok.2 (map_ok (required_ok rfl (Call.ofJson_toJson portable)))
  | «return» value =>
    have readValue : ∀ operand ∈ value, Operand.ofJson .lenient operand.toJson = .ok operand :=
      fun operand member => Operand.ofJson_toJson fun leaf among =>
        portable leaf (List.mem_flatMap.2 ⟨operand, Option.mem_toList.2 member, among⟩)
    have others :
        ∀ entry ∈ [("value", value.map Operand.toJson)].filterMap fun entry =>
          entry.2.map (entry.1, ·), entry.1 ≠ "op" := by
      cases value <;> simp
    show Instruction.ofJson (.object (("op", .string "return") :: _)) = _
    rw [ofJson_object others]
    simp only [ofTag]
    exact record_objectOf_ok (by simp) fun _ found =>
      map_ok (perhaps_ok (found _ _ rfl) (fun operand => by cases operand <;> simp [Operand.toJson])
        readValue)

theorem LocalDecl.ofJson_toJson
    {declaration : LocalDecl}
    (portable : (Leaf.type declaration.type).IsPortable) :
    LocalDecl.ofJson declaration.toJson = .ok declaration :=
  record_object_eq_ok.2
    (seq_ok (map_ok (required_ok rfl string_string))
      (required_ok rfl (Ty.ofJson_toJson portable)))

theorem Body.ofJson_toJson
    {body : Body}
    (portable : ∀ leaf ∈ body.leaves, leaf.IsPortable) :
    Body.ofJson body.toJson = .ok body := by
  obtain ⟨locals, instructions⟩ := List.forall_mem_append.1 portable
  have readLocals :
      list LocalDecl.ofJson (.array (body.locals.map LocalDecl.toJson)) = .ok body.locals :=
    list_array_eq_ok fun declaration member =>
      LocalDecl.ofJson_toJson (locals _ (List.mem_map.2 ⟨declaration, member, rfl⟩))
  have readInstructions :
      list Instruction.ofJson (.array (body.instructions.map Instruction.toJson)) =
        .ok body.instructions :=
    list_array_eq_ok fun instruction member => Instruction.ofJson_toJson fun leaf among =>
      instructions leaf (List.mem_flatMap.2 ⟨instruction, member, among⟩)
  exact record_object_eq_ok.2
    (seq_ok (map_ok (required_ok rfl readLocals)) (required_ok rfl readInstructions))

theorem Flags.ofJson_render {names : FlagNames} {flags : Flags} (clear : names.Clear) :
    Flags.ofJson names (.string (flags.render names)) = .ok flags := by
  unfold Flags.ofJson
  dsimp only
  rw [parse?_render clear, Option.elim_some]

theorem Field.ofJson_toJson
    {field : Field}
    (portable : (Leaf.type field.type).IsPortable) :
    Field.ofJson field.toJson = .ok field :=
  record_object_eq_ok.2
    (seq_ok (seq_ok (map_ok (required_ok rfl string_string))
      (required_ok rfl (Ty.ofJson_toJson portable)))
      (optional_ok rfl (Flags.ofJson_render FlagNames.clear_field)))

theorem Method.ofJson_toJson
    {method : Method}
    (portable : ∀ leaf ∈ method.leaves, leaf.IsPortable) :
    Method.ofJson method.toJson = .ok method := by
  obtain ⟨signature, body⟩ := List.forall_mem_append.1 portable
  obtain ⟨result, parameters⟩ := List.forall_mem_cons.1 signature
  have readBody : ∀ body ∈ method.body, Body.ofJson body.toJson = .ok body :=
    fun given member => Body.ofJson_toJson fun leaf among =>
      body leaf (List.mem_flatMap.2 ⟨given, Option.mem_toList.2 member, among⟩)
  exact record_objectOf_ok (by simp) fun _ found =>
    seq_ok (seq_ok (seq_ok (seq_ok
      (map_ok (required_ok (found _ _ rfl) string_string))
      (optional_ok (found _ _ rfl) (Ty.list_ofJson_toJson parameters)))
      (required_ok (found _ _ rfl) (Ty.ofJson_toJson result)))
      (optional_ok (found _ _ rfl) (Flags.ofJson_render FlagNames.clear_method)))
      (perhaps_ok (found _ _ rfl) (fun _ => by simp [Body.toJson]) readBody)

theorem ClassKind.ofJson_render {kind : ClassKind} :
    ClassKind.ofJson (.string kind.render) = .ok kind := by
  cases kind <;> rfl

theorem Class.ofJson_toJson
    {declaration : Class}
    (portable : ∀ leaf ∈ declaration.leaves, leaf.IsPortable) :
    Class.ofJson declaration.toJson = .ok declaration := by
  obtain ⟨fields, methods⟩ := List.forall_mem_append.1 portable
  have readFields :
      list Field.ofJson (.array (declaration.fields.map Field.toJson)) = .ok declaration.fields :=
    list_array_eq_ok fun field member =>
      Field.ofJson_toJson (fields _ (List.mem_map.2 ⟨field, member, rfl⟩))
  have readMethods :
      list Method.ofJson (.array (declaration.methods.map Method.toJson)) =
        .ok declaration.methods :=
    list_array_eq_ok fun method member => Method.ofJson_toJson fun leaf among =>
      methods leaf (List.mem_flatMap.2 ⟨method, member, among⟩)
  have readInterfaces {members : Members}
      (found :
        members.lookup "interfaces" =
          if declaration.interfaces.isEmpty then none
          else some (.array (declaration.interfaces.map .string))) :
      (optional "interfaces" [] (list string)).result members = .ok declaration.interfaces := by
    refine optional_eq_ok.2 ?_
    split at found
    · rename_i empty
      exact .inl ⟨found, List.isEmpty_iff.1 empty⟩
    · exact .inr ⟨_, found, list_array_eq_ok fun _ _ => string_string⟩
  exact record_objectOf_ok (by simp) fun _ found =>
    seq_ok (seq_ok (seq_ok (seq_ok (seq_ok (seq_ok
      (map_ok (required_ok (found _ _ rfl) string_string))
      (perhaps_ok (found _ _ rfl) (fun _ => by simp) fun _ _ => string_string))
      (readInterfaces (found _ _ rfl)))
      (optional_ok (found _ _ rfl) ClassKind.ofJson_render))
      (optional_ok (found _ _ rfl) (Flags.ofJson_render FlagNames.clear_class)))
      (optional_ok (found _ _ rfl) readFields))
      (optional_ok (found _ _ rfl) readMethods)

/-- An image whose leaves can be written and read again is read back from what is written for it. -/
theorem imageOfJson_of_portable
    {classes : List Class}
    (portable : ∀ leaf ∈ imageLeaves classes, leaf.IsPortable) :
    imageOfJson (imageToJson classes) = .ok classes := by
  have readClasses :
      list Class.ofJson (.array (classes.map Class.toJson)) = .ok classes :=
    list_array_eq_ok fun declaration member => Class.ofJson_toJson fun leaf among =>
      portable leaf (List.mem_flatMap.2 ⟨declaration, member, among⟩)
  exact record_object_eq_ok.2 (required_ok rfl readClasses)

/-! ## What was read -/

theorem Ty.isReadable_of_ofJson {json : Json} {type : Ty} (reads : Ty.ofJson json = .ok type) :
    (Leaf.type type).IsReadable := by
  unfold Ty.ofJson at reads
  split at reads
  · rename_i text
    split at reads
    · rename_i parsed found
      cases reads
      exact ⟨text, found⟩
    · cases reads
  · cases reads

theorem LocalId.isReadable_of_ofJson
    {json : Json}
    {id : LocalId}
    (reads : LocalId.ofJson json = .ok id) :
    (Leaf.slot id).IsReadable := by
  obtain ⟨index, found, rfl⟩ := map_eq_ok.1 reads
  exact (natural_eq_ok.1 found).2

theorem Operand.isReadable_of_ofJson
    {latitude : Latitude}
    {json : Json}
    {operand : Operand}
    (reads : Operand.ofJson latitude json = .ok operand) :
    ∀ leaf ∈ operand.leaves, leaf.IsReadable := by
  obtain ⟨⟨tag, inner⟩, -, reads⟩ := bind_eq_ok.1 reads
  split at reads
  · obtain ⟨source, found, rfl⟩ := map_eq_ok.1 reads
    exact List.forall_mem_singleton.2 (LocalId.isReadable_of_ofJson found)
  · obtain ⟨constant, -, rfl⟩ := map_eq_ok.1 reads
    exact List.forall_mem_singleton.2 trivial
  · cases reads

theorem FieldRef.isReadable_of_ofJson
    {json : Json}
    {field : FieldRef}
    (reads : FieldRef.ofJson json = .ok field) :
    (Leaf.type field.type).IsReadable := by
  obtain ⟨members, reads⟩ := of_record_eq_ok reads
  simp only [RecordReader.seq_eq_ok, RecordReader.map_eq_ok, required_eq_ok] at reads
  obtain ⟨_, isStatic, ⟨_, type, ⟨_, name, ⟨owner, -, rfl⟩, -, rfl⟩, ⟨inner, -, found⟩, rfl⟩, -, rfl⟩ :=
    reads
  exact Ty.isReadable_of_ofJson found

theorem Ty.isReadable_of_list
    {types : List Ty}
    (reads : ∀ type ∈ types, ∃ json, Ty.ofJson json = .ok type) :
    ∀ leaf ∈ types.map Leaf.type, leaf.IsReadable := by
  intro leaf member
  obtain ⟨type, among, rfl⟩ := List.mem_map.1 member
  obtain ⟨json, found⟩ := reads type among
  exact Ty.isReadable_of_ofJson found

theorem MethodRef.isReadable_of_ofJson
    {json : Json}
    {method : MethodRef}
    (reads : MethodRef.ofJson json = .ok method) :
    ∀ leaf ∈ method.leaves, leaf.IsReadable := by
  obtain ⟨members, reads⟩ := of_record_eq_ok reads
  simp only [RecordReader.seq_eq_ok, RecordReader.map_eq_ok, required_eq_ok] at reads
  obtain ⟨_, result, ⟨_, parameters, ⟨_, name, ⟨owner, -, rfl⟩, -, rfl⟩, readParameters, rfl⟩,
    ⟨inner, -, readResult⟩, rfl⟩ := reads
  exact List.forall_mem_cons.2 ⟨Ty.isReadable_of_ofJson readResult,
    Ty.isReadable_of_list (of_optional_list_eq_ok readParameters)⟩

/-- What holds of the leaves of each part holds of all leaves together. -/
theorem isReadable_flatMap
    {Part : Type}
    {parts : List Part}
    {leaves : Part → List Leaf}
    {read : Json → Readable Part}
    (reads : ∀ part ∈ parts, ∃ json, read json = .ok part)
    (readable : ∀ json part, read json = .ok part → ∀ leaf ∈ leaves part, leaf.IsReadable) :
    ∀ leaf ∈ parts.flatMap leaves, leaf.IsReadable := by
  intro leaf member
  obtain ⟨part, among, inPart⟩ := List.mem_flatMap.1 member
  obtain ⟨json, found⟩ := reads part among
  exact readable json part found leaf inPart

theorem Call.isReadable_of_ofJson
    {json : Json}
    {target : Call}
    (reads : Call.ofJson json = .ok target) :
    ∀ leaf ∈ target.leaves, leaf.IsReadable := by
  obtain ⟨members, reads⟩ := of_record_eq_ok reads
  simp only [RecordReader.seq_eq_ok, RecordReader.map_eq_ok, required_eq_ok] at reads
  obtain ⟨_, arguments, ⟨_, receiver, ⟨_, method, ⟨kind, -, rfl⟩, ⟨inner, -, readMethod⟩, rfl⟩,
    readReceiver, rfl⟩, readArguments, rfl⟩ := reads
  refine List.forall_mem_append.2 ⟨List.forall_mem_append.2
    ⟨MethodRef.isReadable_of_ofJson readMethod, fun leaf member => ?_⟩,
    isReadable_flatMap (of_optional_list_eq_ok readArguments) fun _ _ =>
      Operand.isReadable_of_ofJson⟩
  obtain ⟨id, among, rfl⟩ := List.mem_map.1 member
  obtain ⟨json, found⟩ := of_perhaps_eq_ok readReceiver id (Option.mem_toList.1 among)
  exact LocalId.isReadable_of_ofJson found

theorem Expression.isReadable_of_ofJson
    {latitude : Latitude}
    {json : Json}
    {expression : Expression}
    (reads : Expression.ofJson latitude json = .ok expression) :
    ∀ leaf ∈ expression.leaves, leaf.IsReadable := by
  obtain ⟨⟨tag, inner⟩, -, reads⟩ := bind_eq_ok.1 reads
  dsimp only at reads
  unfold ofTag at reads
  split at reads
  case h_11 => cases reads
  all_goals
    obtain ⟨members, reads⟩ := of_record_eq_ok reads
    simp only [RecordReader.seq_eq_ok, RecordReader.map_eq_ok, required_eq_ok] at reads
  case h_1 =>
    obtain ⟨source, ⟨_, -, readSource⟩, rfl⟩ := reads
    exact List.forall_mem_singleton.2 (LocalId.isReadable_of_ofJson readSource)
  case h_2 =>
    obtain ⟨constant, -, rfl⟩ := reads
    exact List.forall_mem_singleton.2 trivial
  case h_3 =>
    obtain ⟨_, field, ⟨base, ⟨_, -, readBase⟩, rfl⟩, ⟨_, -, readField⟩, rfl⟩ := reads
    exact List.forall_mem_cons.2 ⟨LocalId.isReadable_of_ofJson readBase,
      List.forall_mem_singleton.2 (FieldRef.isReadable_of_ofJson readField)⟩
  case h_4 =>
    obtain ⟨field, ⟨_, -, readField⟩, rfl⟩ := reads
    exact List.forall_mem_singleton.2 (FieldRef.isReadable_of_ofJson readField)
  case h_5 =>
    obtain ⟨_, index, ⟨base, ⟨_, -, readBase⟩, rfl⟩, ⟨_, -, readIndex⟩, rfl⟩ := reads
    exact List.forall_mem_cons.2
      ⟨LocalId.isReadable_of_ofJson readBase, Operand.isReadable_of_ofJson readIndex⟩
  case h_6 =>
    obtain ⟨className, -, rfl⟩ := reads
    exact List.forall_mem_nil _
  case h_7 =>
    obtain ⟨_, size, ⟨content, ⟨_, -, readContent⟩, rfl⟩, ⟨_, -, readSize⟩, rfl⟩ := reads
    exact List.forall_mem_cons.2
      ⟨Ty.isReadable_of_ofJson readContent, Operand.isReadable_of_ofJson readSize⟩
  case h_8 =>
    obtain ⟨base, ⟨_, -, readBase⟩, rfl⟩ := reads
    exact List.forall_mem_singleton.2 (LocalId.isReadable_of_ofJson readBase)
  case h_9 =>
    obtain ⟨_, right, ⟨_, left, ⟨operator, -, rfl⟩, ⟨_, -, readLeft⟩, rfl⟩, ⟨_, -, readRight⟩, rfl⟩ :=
      reads
    exact List.forall_mem_append.2
      ⟨Operand.isReadable_of_ofJson readLeft, Operand.isReadable_of_ofJson readRight⟩
  case h_10 =>
    obtain ⟨target, ⟨_, -, readTarget⟩, rfl⟩ := reads
    exact Call.isReadable_of_ofJson readTarget

theorem Binding.isReadable_of_ofJson
    {json : Json}
    {source : Binding}
    (reads : Binding.ofJson json = .ok source) :
    ∀ leaf ∈ source.leaves, leaf.IsReadable := by
  obtain ⟨⟨tag, inner⟩, -, reads⟩ := bind_eq_ok.1 reads
  split at reads
  · obtain ⟨type, found, rfl⟩ := map_eq_ok.1 reads
    exact List.forall_mem_singleton.2 (Ty.isReadable_of_ofJson found)
  · obtain ⟨members, reads⟩ := of_record_eq_ok reads
    simp only [RecordReader.seq_eq_ok, RecordReader.map_eq_ok, required_eq_ok] at reads
    obtain ⟨_, type, ⟨index, ⟨_, -, readIndex⟩, rfl⟩, ⟨_, -, readType⟩, rfl⟩ := reads
    exact List.forall_mem_cons.2 ⟨(natural_eq_ok.1 readIndex).2,
      List.forall_mem_singleton.2 (Ty.isReadable_of_ofJson readType)⟩
  · cases reads

theorem Instruction.isReadable_of_ofJson
    {json : Json}
    {instruction : Instruction}
    (reads : Instruction.ofJson json = .ok instruction) :
    ∀ leaf ∈ instruction.leaves, leaf.IsReadable := by
  obtain ⟨⟨tag, inner⟩, -, reads⟩ := bind_eq_ok.1 reads
  dsimp only at reads
  unfold ofTag at reads
  split at reads
  case h_5 => cases reads
  all_goals
    obtain ⟨members, reads⟩ := of_record_eq_ok reads
    simp only [RecordReader.seq_eq_ok, RecordReader.map_eq_ok, required_eq_ok] at reads
  case h_1 =>
    obtain ⟨_, source, ⟨target, ⟨_, -, readTarget⟩, rfl⟩, ⟨_, -, readSource⟩, rfl⟩ := reads
    exact List.forall_mem_cons.2
      ⟨LocalId.isReadable_of_ofJson readTarget, Binding.isReadable_of_ofJson readSource⟩
  case h_2 =>
    obtain ⟨_, value, ⟨place, ⟨_, -, readPlace⟩, rfl⟩, ⟨_, -, readValue⟩, rfl⟩ := reads
    exact List.forall_mem_append.2
      ⟨Expression.isReadable_of_ofJson readPlace, Expression.isReadable_of_ofJson readValue⟩
  case h_3 =>
    obtain ⟨target, ⟨_, -, readTarget⟩, rfl⟩ := reads
    exact Call.isReadable_of_ofJson readTarget
  case h_4 =>
    obtain ⟨value, readValue, rfl⟩ := reads
    exact isReadable_flatMap
      (fun operand member => of_perhaps_eq_ok readValue operand (Option.mem_toList.1 member))
      fun _ _ => Operand.isReadable_of_ofJson

theorem LocalDecl.isReadable_of_ofJson
    {json : Json}
    {declaration : LocalDecl}
    (reads : LocalDecl.ofJson json = .ok declaration) :
    (Leaf.type declaration.type).IsReadable := by
  obtain ⟨members, reads⟩ := of_record_eq_ok reads
  simp only [RecordReader.seq_eq_ok, RecordReader.map_eq_ok, required_eq_ok] at reads
  obtain ⟨_, type, ⟨name, -, rfl⟩, ⟨_, -, readType⟩, rfl⟩ := reads
  exact Ty.isReadable_of_ofJson readType

theorem Body.isReadable_of_ofJson
    {json : Json}
    {body : Body}
    (reads : Body.ofJson json = .ok body) :
    ∀ leaf ∈ body.leaves, leaf.IsReadable := by
  obtain ⟨members, reads⟩ := of_record_eq_ok reads
  simp only [RecordReader.seq_eq_ok, RecordReader.map_eq_ok, required_eq_ok] at reads
  obtain ⟨_, instructions, ⟨locals, ⟨_, -, readLocals⟩, rfl⟩, ⟨_, -, readInstructions⟩, rfl⟩ := reads
  refine List.forall_mem_append.2 ⟨fun leaf member => ?_,
    isReadable_flatMap (of_list_eq_ok readInstructions) fun _ _ =>
      Instruction.isReadable_of_ofJson⟩
  obtain ⟨declaration, among, rfl⟩ := List.mem_map.1 member
  obtain ⟨json, found⟩ := of_list_eq_ok readLocals declaration among
  exact LocalDecl.isReadable_of_ofJson found

theorem Field.isReadable_of_ofJson
    {json : Json}
    {field : Field}
    (reads : Field.ofJson json = .ok field) :
    (Leaf.type field.type).IsReadable := by
  obtain ⟨members, reads⟩ := of_record_eq_ok reads
  simp only [RecordReader.seq_eq_ok, RecordReader.map_eq_ok, required_eq_ok] at reads
  obtain ⟨_, flags, ⟨_, type, ⟨name, -, rfl⟩, ⟨_, -, readType⟩, rfl⟩, -, rfl⟩ := reads
  exact Ty.isReadable_of_ofJson readType

theorem Method.isReadable_of_ofJson
    {json : Json}
    {method : Method}
    (reads : Method.ofJson json = .ok method) :
    ∀ leaf ∈ method.leaves, leaf.IsReadable := by
  obtain ⟨members, reads⟩ := of_record_eq_ok reads
  simp only [RecordReader.seq_eq_ok, RecordReader.map_eq_ok, required_eq_ok] at reads
  obtain ⟨_, body, ⟨_, flags, ⟨_, result, ⟨_, parameters, ⟨name, -, rfl⟩, readParameters, rfl⟩,
    ⟨_, -, readResult⟩, rfl⟩, -, rfl⟩, readBody, rfl⟩ := reads
  refine List.forall_mem_append.2 ⟨List.forall_mem_cons.2 ⟨Ty.isReadable_of_ofJson readResult,
    Ty.isReadable_of_list (of_optional_list_eq_ok readParameters)⟩, ?_⟩
  exact isReadable_flatMap
    (fun given member => of_perhaps_eq_ok readBody given (Option.mem_toList.1 member))
    fun _ _ => Body.isReadable_of_ofJson

theorem Class.isReadable_of_ofJson
    {json : Json}
    {declaration : Class}
    (reads : Class.ofJson json = .ok declaration) :
    ∀ leaf ∈ declaration.leaves, leaf.IsReadable := by
  obtain ⟨members, reads⟩ := of_record_eq_ok reads
  simp only [RecordReader.seq_eq_ok, RecordReader.map_eq_ok, required_eq_ok] at reads
  obtain ⟨_, methods, ⟨_, fields, ⟨_, flags, ⟨_, kind, ⟨_, interfaces, ⟨_, superclass,
    ⟨name, -, rfl⟩, -, rfl⟩, -, rfl⟩, -, rfl⟩, -, rfl⟩, readFields, rfl⟩, readMethods, rfl⟩ := reads
  refine List.forall_mem_append.2 ⟨fun leaf member => ?_,
    isReadable_flatMap (of_optional_list_eq_ok readMethods) fun _ _ => Method.isReadable_of_ofJson⟩
  obtain ⟨field, among, rfl⟩ := List.mem_map.1 member
  obtain ⟨json, found⟩ := of_optional_list_eq_ok readFields field among
  exact Field.isReadable_of_ofJson found

/-- What was read can be read: its types have spellings, and its numbers are not too large. -/
theorem isReadable_of_imageOfJson
    {json : Json}
    {classes : List Class}
    (reads : imageOfJson json = .ok classes) :
    ∀ leaf ∈ imageLeaves classes, leaf.IsReadable := by
  obtain ⟨members, reads⟩ := of_record_eq_ok reads
  obtain ⟨inner, -, readClasses⟩ := required_eq_ok.1 reads
  exact isReadable_flatMap (of_list_eq_ok readClasses) fun _ _ => Class.isReadable_of_ofJson

/-- An image without floating point literals is read back from what is written for it, if its types have
spellings and its numbers are not too large; and what is read from any JSON at all meets that. -/
theorem imageOfJson_imageToJson :
    (∀ classes, (∀ leaf ∈ imageLeaves classes, leaf.IsReadable ∧ leaf.IsExact) →
      imageOfJson (imageToJson classes) = .ok classes) ∧
    (∀ json classes, imageOfJson json = .ok classes →
      (∀ leaf ∈ imageLeaves classes, leaf.IsExact) →
        imageOfJson (imageToJson classes) = .ok classes) := by
  refine ⟨fun _ portable => imageOfJson_of_portable portable, fun json classes reads exacts => ?_⟩
  exact imageOfJson_of_portable fun leaf member =>
    ⟨isReadable_of_imageOfJson reads leaf member, exacts leaf member⟩

/-- The image of a wrapper class with a flag that has no name. -/
def boxImage : List Class :=
  [{ name := "shop.Box"
     superclass := none
     interfaces := []
     kind := .application
     flags := ⟨0x108⟩
     fields := [⟨"counts", .array .int, .none⟩]
     methods :=
      [{ name := "seven"
         parameters := []
         result := .int
         flags := Method.static
         body := some
          { locals := [⟨"number", .int⟩]
            instructions :=
              [.assign (.variable ⟨0⟩) (.literal (.int 7)), .return (some (.variable ⟨0⟩))] } }] }]

/-- The image as it may be written by hand: a field as a list of its members, a type between blanks, and
most of what has a default left out. -/
def boxJson : Json :=
  .object
    [("classes", .array
      [.object
        [("name", .string "shop.Box"), ("flags", .string "0x100|WRAPPER"),
          ("fields", .array [.array [.string "counts", .string " int []"]]),
          ("methods", .array
            [.object
              [("name", .string "seven"), ("ret", .string "int"), ("flags", .string "STATIC"),
                ("body", .object
                  [("locals", .array [.object [("name", .string "number"), ("ty", .string "int")]]),
                    ("instructions", .array
                      [.object
                        [("op", .string "assign"),
                          ("lhs", .object [("value", .string "local"), ("local", .integer 0)]),
                          ("rhs", .object
                            [("value", .string "constant"),
                              ("constant", .object
                                [("kind", .string "int"), ("value", .integer 7)])])],
                        .object
                          [("op", .string "return"),
                            ("value", .object [("local", .integer 0)])]])])]])]])]

theorem boxImage_read :
    imageOfJson boxJson = .ok boxImage ∧
      (∀ leaf ∈ imageLeaves boxImage, leaf.IsReadable ∧ leaf.IsExact) ∧
      imageOfJson (imageToJson boxImage) = .ok boxImage ∧
      imageOfJson (imageToJson boxImage) = imageOfJson boxJson := by
  have reads : imageOfJson boxJson = .ok boxImage := by decide +kernel
  have exacts : ∀ leaf ∈ imageLeaves boxImage, leaf.IsExact := by decide +kernel
  have portable : ∀ leaf ∈ imageLeaves boxImage, leaf.IsReadable ∧ leaf.IsExact :=
    fun leaf member => ⟨isReadable_of_imageOfJson reads leaf member, exacts leaf member⟩
  exact ⟨reads, portable, imageOfJson_imageToJson.1 boxImage portable,
    (imageOfJson_imageToJson.2 boxJson boxImage reads exacts).trans reads.symm⟩

end AccessProfiler
