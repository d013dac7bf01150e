import AccessProfiler.Proofs.CalledMethods
import AccessProfiler.Proofs.CountingSteps
import AccessProfiler.Proofs.ImageReading
import AccessProfiler.Wrapping.Adaptation

/-!
# Code that fits into an image

Whether an image can be read back is decided by its leaves.  Code fits if its types are admitted, its
numbers are not too large and its literals are exact; which types are admitted is left open here.  The
number of a local is too large only where the body has more locals than can be numbered
(`Body.room`), so that a local that is declared while a body is worked on always fits.

Everything that is inserted into bodies fits if what it is made of does.  The types of inserted locals
are those of classes that were instrumented, of wrappers and their arrays, and of expressions; the type
of an expression is that of one of its leaves unless it makes something (`Expression.made?`).
-/

namespace AccessProfiler

/-- The type is admitted, the number is not too large, the literal is exact. -/
def Leaf.Fitting (Admits : Ty → Prop) (room : Nat) : Leaf → Prop
  | .type spelled => Admits spelled
  | .slot id => id.index < room
  | .position index => index < Nat.pow 2 64
  | .literal value => (Leaf.literal value).IsExact

/-- The types that are the same in every program are admitted, and the elements of arrays are. -/
structure AdmitsBasics (Admits : Ty → Prop) : Prop where
  simple : ∀ type : Ty, type.className? = none → type.isArray = false → Admits type
  text : Admits .string
  element : ∀ element, Admits (.array element) → Admits element

/-- The type of what the expression makes. -/
def Expression.made? : Expression → Option Ty
  | .newObject className => some (.object className)
  | .newArray content _ => some (.array content)
  | _ => none

/-- The type of what the instruction makes and assigns. -/
def Instruction.made? : Instruction → Option Ty
  | .assign _ value => value.made?
  | _ => none

/-- How many locals of a body can be told apart: those that can be numbered, or those there are. -/
def Body.room (body : Body) : Nat :=
  max (Nat.pow 2 32) body.locals.length

theorem AdmitsBasics.constant
    {Admits : Ty → Prop}
    (basics : AdmitsBasics Admits)
    (value : Constant) :
    Admits value.type := by
  cases value with
  | str => exact basics.text
  | _ => exact basics.simple _ rfl rfl

section Code

variable
    (Admits : Ty → Prop)
    (wrapping : Bool)
    (room : Nat)

/-- The leaves fit and, if arrays are wrapped, the type of what is made is admitted. -/
structure Expression.Fitting (expression : Expression) : Prop where
  leaves : ∀ leaf ∈ expression.leaves, leaf.Fitting Admits room
  made : wrapping → ∀ type, expression.made? = some type → Admits type

/-- The leaves fit and, if arrays are wrapped, the type of what is made is admitted. -/
structure Instruction.Fitting (instruction : Instruction) : Prop where
  leaves : ∀ leaf ∈ instruction.leaves, leaf.Fitting Admits room
  made : wrapping → ∀ type, instruction.made? = some type → Admits type

structure Body.Fitting (body : Body) : Prop where
  locals : ∀ declaration ∈ body.locals, Admits declaration.type
  instructions : ∀ instruction ∈ body.instructions, instruction.Fitting Admits wrapping room

structure Method.Fitting (method : Method) : Prop where
  result : Admits method.result
  parameters : ∀ type ∈ method.parameters, Admits type
  body : ∀ body, method.body = some body → body.Fitting Admits wrapping body.room

structure Class.Fitting (declaration : Class) : Prop where
  fields : ∀ field ∈ declaration.fields, Admits field.type
  methods : ∀ method ∈ declaration.methods, method.Fitting Admits wrapping

/-- The types of a method reference are admitted. -/
structure MethodRef.Fitting (method : MethodRef) : Prop where
  result : Admits method.result
  parameters : ∀ type ∈ method.parameters, Admits type

/-- What inserted code names of an instrumented class fits. -/
structure Profile.Fitting (profile : Profile) : Prop where
  staticCounter : Admits profile.staticCounter.type
  serial : Admits profile.serial.type
  incReads : profile.incReads.Fitting Admits
  incWrites : profile.incWrites.Fitting Admits

/-- What inserted code names of a wrapper fits. -/
structure Wrapper.Fitting (wrapper : Wrapper) : Prop where
  type : Admits wrapper.type
  arrayType : Admits wrapper.arrayType
  arrayField : Admits wrapper.arrayField.type
  fromArray : wrapper.fromArray.Fitting Admits
  withLength : wrapper.withLength.Fitting Admits
  get : wrapper.get.Fitting Admits
  set : wrapper.set.Fitting Admits

end Code

variable
    {Admits : Ty → Prop}
    {wrapping : Bool}
    {room more : Nat}

/-! ## Leaves -/

@[simp]
theorem Leaf.fits_type {type : Ty} : (Leaf.type type).Fitting Admits room ↔ Admits type := .rfl

@[simp]
theorem Leaf.fits_slot {id : LocalId} : (Leaf.slot id).Fitting Admits room ↔ id.index < room := .rfl

@[simp]
theorem Leaf.fits_position {index : Nat} :
    (Leaf.position index).Fitting Admits room ↔ index < Nat.pow 2 64 := .rfl

theorem MethodRef.fits_iff {method : MethodRef} :
    method.Fitting Admits ↔ ∀ leaf ∈ method.leaves, leaf.Fitting Admits room := by
  unfold leaves
  rw [List.forall_mem_cons, List.forall_mem_map]
  exact ⟨fun fits => ⟨fits.result, fits.parameters⟩, fun ⟨result, parameters⟩ => ⟨result, parameters⟩⟩

theorem Leaf.Fitting.mono {leaf : Leaf} (le : room ≤ more) (fits : leaf.Fitting Admits room) :
    leaf.Fitting Admits more := by
  cases leaf with
  | slot id => exact Nat.lt_of_lt_of_le fits le
  | _ => exact fits

/-- A call fits if the method that it names, its receiver and its arguments do. -/
theorem Call.leaves_fit_iff {target : Call} :
    (∀ leaf ∈ target.leaves, leaf.Fitting Admits room) ↔
      target.method.Fitting Admits ∧
        (∀ receiver, target.receiver = some receiver → receiver.index < room) ∧
        ∀ argument ∈ target.arguments, ∀ leaf ∈ argument.leaves, leaf.Fitting Admits room := by
  unfold leaves
  simp only [List.forall_mem_append, List.forall_mem_map, List.forall_mem_flatMap, and_assoc,
    Option.mem_toList, ← MethodRef.fits_iff]
  rfl

@[simp]
theorem Expression.fits_iff {expression : Expression} :
    expression.Fitting Admits wrapping room ↔
      (∀ leaf ∈ expression.leaves, leaf.Fitting Admits room) ∧
        (wrapping → ∀ type, expression.made? = some type → Admits type) :=
  ⟨fun fits => ⟨fits.leaves, fits.made⟩, fun ⟨leaves, made⟩ => ⟨leaves, made⟩⟩

/-- The expression that says the same as an operand. -/
theorem Expression.Fitting.ofOperand
    {operand : Operand}
    (fits : ∀ leaf ∈ operand.leaves, leaf.Fitting Admits room) :
    (Expression.ofOperand operand).Fitting Admits wrapping room := by
  cases operand with
  | «variable» source => exact ⟨fits, fun _ _ found => by cases found⟩
  | literal value => exact ⟨fits, fun _ _ found => by cases found⟩

/-- A call makes nothing by itself. -/
theorem Expression.Fitting.call
    {target : Call}
    (fits : ∀ leaf ∈ target.leaves, leaf.Fitting Admits room) :
    (Expression.call target).Fitting Admits wrapping room :=
  ⟨fits, fun _ _ found => by cases found⟩

theorem Expression.leaves_of_operand?
    {value : Expression}
    {operand : Operand}
    (found : value.operand? = some operand) :
    value.leaves = operand.leaves := by
  cases value <;> cases found <;> rfl

/-! ## Instructions -/

namespace Instruction

theorem Fitting.mono {instruction : Instruction} (le : room ≤ more)
    (fits : instruction.Fitting Admits wrapping room) :
    instruction.Fitting Admits wrapping more where
  leaves leaf member := (fits.leaves leaf member).mono le
  made := fits.made

/-- An instruction that makes nothing fits if its leaves do. -/
theorem Fitting.of_leaves
    {instruction : Instruction}
    (makesNothing : instruction.made? = none)
    (leaves : ∀ leaf ∈ instruction.leaves, leaf.Fitting Admits room) :
    instruction.Fitting Admits wrapping room where
  leaves := leaves
  made _ type found := by
    rw [makesNothing] at found
    cases found

@[simp]
theorem fits_assign_iff {place value : Expression} :
    (Instruction.assign place value).Fitting Admits wrapping room ↔
      (∀ leaf ∈ place.leaves, leaf.Fitting Admits room) ∧ value.Fitting Admits wrapping room := by
  constructor
  · intro fits
    obtain ⟨ofPlace, ofValue⟩ := List.forall_mem_append.1 fits.leaves
    exact ⟨ofPlace, ofValue, fits.made⟩
  · rintro ⟨ofPlace, ofValue⟩
    exact ⟨List.forall_mem_append.2 ⟨ofPlace, ofValue.leaves⟩, ofValue.made⟩

@[simp]
theorem fits_invoke_iff {target : Call} :
    (Instruction.invoke target).Fitting Admits wrapping room ↔
      ∀ leaf ∈ target.leaves, leaf.Fitting Admits room :=
  ⟨fun fits => fits.leaves, fun fits => ⟨fits, fun _ _ found => by cases found⟩⟩

@[simp]
theorem fits_return_iff {operand : Operand} :
    (Instruction.return (some operand)).Fitting Admits wrapping room ↔
      ∀ leaf ∈ operand.leaves, leaf.Fitting Admits room := by
  have same : (Instruction.return (some operand)).leaves = operand.leaves :=
    List.append_nil operand.leaves
  exact ⟨fun fits => same ▸ fits.leaves, fun fits => .of_leaves rfl (same ▸ fits)⟩

@[simp]
theorem fits_return_none : (Instruction.return none).Fitting Admits wrapping room :=
  .of_leaves rfl (List.forall_mem_nil _)

@[simp]
theorem fits_bind_iff {target : LocalId} {source : Binding} :
    (Instruction.bind target source).Fitting Admits wrapping room ↔
      target.index < room ∧ ∀ leaf ∈ source.leaves, leaf.Fitting Admits room :=
  ⟨fun fits => List.forall_mem_cons.1 fits.leaves, fun fits =>
    ⟨List.forall_mem_cons.2 fits, fun _ _ found => by cases found⟩⟩

/-- The call of a method without parameters that no object receives. -/
theorem fits_ofStatic {method : MethodRef} (fits : method.Fitting Admits) :
    (Instruction.invoke (.ofStatic method [])).Fitting Admits wrapping room :=
  fits_invoke_iff.2 <| Call.leaves_fit_iff.2
    ⟨fits, nofun, List.forall_mem_nil _⟩

end Instruction

/-! ## Bodies -/

namespace Body

variable {body : Body}

theorem two_pow_le_room (body : Body) : Nat.pow 2 32 ≤ body.room :=
  Nat.le_max_left _ _

theorem room_mono {other : Body} (longer : body.locals.length ≤ other.locals.length) :
    body.room ≤ other.room :=
  Nat.max_le.2 ⟨other.two_pow_le_room, Nat.le_trans longer (Nat.le_max_right _ _)⟩

namespace Fitting

theorem mono (le : room ≤ more) (fits : body.Fitting Admits wrapping room) :
    body.Fitting Admits wrapping more where
  locals := fits.locals
  instructions instruction member := (fits.instructions instruction member).mono le

theorem setInstructions
    {instructions : List Instruction}
    (fits : body.Fitting Admits wrapping room)
    (fit : ∀ instruction ∈ instructions, instruction.Fitting Admits wrapping room) :
    ({ body with instructions } : Body).Fitting Admits wrapping room :=
  ⟨fits.locals, fit⟩

theorem newLocal
    {type : Ty}
    (fits : body.Fitting Admits wrapping room)
    (admitted : Admits type)
    (stem : String) :
    (body.newLocal stem type).2.Fitting Admits wrapping room where
  locals := List.forall_mem_append.2 ⟨fits.locals, List.forall_mem_singleton.2 admitted⟩
  instructions := fits.instructions

theorem setLocalType
    {type : Ty}
    (fits : body.Fitting Admits wrapping room)
    (id : LocalId)
    (admitted : Admits type) :
    (body.setLocalType id type).Fitting Admits wrapping room where
  locals declaration member := by
    obtain ⟨index, located⟩ := List.mem_iff_getElem?.1 member
    unfold Body.setLocalType at located
    rw [List.getElem?_modify] at located
    obtain ⟨old, found, rfl⟩ := Option.map_eq_some_iff.1 located
    split
    · exact admitted
    · exact fits.locals old (List.mem_of_getElem? found)
  instructions := fits.instructions

theorem localType?
    {id : LocalId}
    {type : Ty}
    (fits : body.Fitting Admits wrapping room)
    (found : body.localType? id = some type) :
    Admits type := by
  obtain ⟨declaration, located, rfl⟩ := Option.map_eq_some_iff.1 found
  exact fits.locals declaration (List.mem_of_getElem? located)

end Fitting

/-- Where every type of a body is admitted, so is the type of an operand. -/
theorem Fitting.operandType?
    {operand : Operand}
    {type : Ty}
    (basics : AdmitsBasics Admits)
    (fits : body.Fitting Admits wrapping room)
    (found : body.operandType? operand = some type) :
    Admits type := by
  cases operand with
  | «variable» source => exact fits.localType? found
  | literal value =>
    cases found
    exact basics.constant value

/-- The type of an expression is that of one of its leaves, or of what it makes. -/
theorem Fitting.type?
    {value : Expression}
    {type : Ty}
    (basics : AdmitsBasics Admits)
    (fits : body.Fitting Admits wrapping room)
    (valueFits : value.Fitting Admits wrapping room)
    (wraps : wrapping)
    (found : body.type? value = some type) :
    Admits type := by
  cases value with
  | «variable» source => exact fits.localType? found
  | literal value =>
    cases found
    exact basics.constant value
  | instanceField base field =>
    cases found
    exact valueFits.leaves (.type field.type) (List.mem_cons_of_mem _ List.mem_cons_self)
  | staticField field =>
    cases found
    exact valueFits.leaves (.type field.type) List.mem_cons_self
  | element base index =>
    obtain ⟨array, located, holds⟩ := Option.bind_eq_some_iff.1 found
    cases array with
    | array element =>
      cases holds
      exact basics.element _ (fits.localType? located)
    | _ => cases holds
  | newObject className => exact valueFits.made wraps type found
  | newArray content size => exact valueFits.made wraps type found
  | length base =>
    cases found
    exact basics.simple _ rfl rfl
  | binary operator left right => exact fits.operandType? basics found
  | call target =>
    cases found
    exact (Call.leaves_fit_iff.1 valueFits.leaves).1.result

/-- The local that the receiver is bound to can be told apart. -/
theorem Fitting.receiver?
    {this : LocalId}
    (fits : body.Fitting Admits wrapping room)
    (found : body.receiver? = some this) :
    this.index < room := by
  obtain ⟨instruction, member, binds⟩ := List.exists_of_findSome?_eq_some found
  split at binds
  · cases binds
    exact (fits.instructions _ member).leaves (.slot this) List.mem_cons_self
  · cases binds

end Body

/-! ## Inserted code -/

theorem Sink.report_fits
    {source : LocalId}
    (basics : AdmitsBasics Admits)
    (sink : Sink)
    (label : String)
    (bounded : source.index < room) :
    (sink.report label (.variable source)).Fitting Admits wrapping room := by
  have method : sink.methodRef.Fitting Admits :=
    ⟨basics.simple .void rfl rfl, List.forall_mem_cons.2 ⟨basics.text,
      List.forall_mem_singleton.2 (basics.simple .int rfl rfl)⟩⟩
  refine Instruction.fits_invoke_iff.2 (Call.leaves_fit_iff.2 ⟨method, nofun, ?_⟩)
  refine List.forall_mem_cons.2 ⟨List.forall_mem_singleton.2 trivial, ?_⟩
  exact List.forall_mem_singleton.2 (List.forall_mem_singleton.2 bounded)

/-- The number of a local of a small body is never too large. -/
theorem Body.lt_room {index : Nat} (small : index < 4) (body : Body) : index < body.room :=
  Nat.lt_of_lt_of_le (Nat.lt_of_lt_of_le small (by decide)) body.two_pow_le_room

namespace Profile

variable {profile : Profile}

theorem countingCall_fits
    {base : LocalId}
    (fits : profile.Fitting Admits)
    (bounded : base.index < room)
    (access : Access) :
    (profile.countingCall base access).Fitting Admits wrapping room := by
  have method : (profile.incrementor access).Fitting Admits := by
    cases access with
    | read => exact fits.incReads
    | write => exact fits.incWrites
  refine Instruction.fits_invoke_iff.2 (Call.leaves_fit_iff.2 ⟨method, ?_, List.forall_mem_nil _⟩)
  rintro receiver ⟨⟩
  exact bounded

theorem increment_fits {count : LocalId} (bounded : count.index < room) :
    (increment count).Fitting Admits wrapping room := by
  simp [increment, Expression.leaves, Operand.leaves, Leaf.Fitting, Leaf.IsExact, Expression.made?,
    bounded]

theorem serialAssignment_fits
    {this count : LocalId}
    (basics : AdmitsBasics Admits)
    (fits : profile.Fitting Admits)
    (sink : Sink)
    (boundedThis : this.index < room)
    (boundedCount : count.index < room) :
    ∀ instruction ∈ profile.serialAssignment sink this count,
      instruction.Fitting Admits wrapping room := by
  have reports (label : String) :
      (sink.report label (.variable count)).Fitting Admits wrapping room :=
    sink.report_fits basics label boundedCount
  simp [serialAssignment, Expression.leaves, Expression.made?, increment_fits, reports, boundedThis,
    boundedCount, fits.staticCounter, fits.serial]

theorem length_le_of_patched
    {body patched : Body}
    {sink : Sink}
    (ok : profile.patchConstructor sink body = .ok (.ok patched)) :
    body.locals.length ≤ patched.locals.length := by
  obtain ⟨this, declaration, -, -, -, rfl⟩ := Draft.patchConstructor_eq_ok ok
  simp

/-- A constructor that assigns a serial number fits if it did before. -/
theorem patchConstructor_fits
    {body patched : Body}
    {sink : Sink}
    (basics : AdmitsBasics Admits)
    (fits : profile.Fitting Admits)
    (bodyFits : body.Fitting Admits wrapping room)
    (bounded : patched.locals.length ≤ room)
    (ok : profile.patchConstructor sink body = .ok (.ok patched)) :
    patched.Fitting Admits wrapping room := by
  obtain ⟨this, declaration, receives, isInt, -, rfl⟩ := Draft.patchConstructor_eq_ok ok
  have boundedCount : body.locals.length < room := Nat.lt_of_lt_of_le (by simp) bounded
  have assigns :
      ∀ instruction ∈ profile.serialAssignment sink this ⟨body.locals.length⟩,
        instruction.Fitting Admits wrapping room :=
    serialAssignment_fits basics fits sink (bodyFits.receiver? receives) boundedCount
  constructor
  · refine List.forall_mem_append.2 ⟨bodyFits.locals, List.forall_mem_singleton.2 ?_⟩
    rw [isInt]
    exact basics.simple _ rfl rfl
  · refine List.forall_mem_append.2 ⟨List.forall_mem_append.2 ⟨?_, assigns⟩, ?_⟩
    · exact fun other among => bodyFits.instructions other ((List.takeWhile_sublist _).subset among)
    · exact fun other among => bodyFits.instructions other ((List.dropWhile_sublist _).subset among)

/-- The body of a constructor fits whether it was patched or left as it is. -/
theorem patched_fits
    {body : Body}
    {sink : Sink}
    {outcome : Except Skip Body}
    (basics : AdmitsBasics Admits)
    (fits : profile.Fitting Admits)
    (bodyFits : body.Fitting Admits wrapping body.room)
    (ok : profile.patchConstructor sink body = .ok outcome) :
    (outcome.toOption.getD body).Fitting Admits wrapping (outcome.toOption.getD body).room := by
  cases outcome with
  | error skip => exact bodyFits
  | ok patched =>
    have longer := length_le_of_patched ok
    have bounded : patched.locals.length ≤ patched.room := Nat.le_max_right _ _
    exact patchConstructor_fits basics fits (bodyFits.mono (Body.room_mono longer)) bounded ok

theorem incrementorBody_fits
    {className : String}
    {counter serial : FieldRef}
    (basics : AdmitsBasics Admits)
    (sink : Sink)
    (instances : Admits (.object className))
    (counterFits : Admits counter.type)
    (serialFits : Admits serial.type) :
    (incrementorBody sink className counter serial).Fitting Admits wrapping
      (incrementorBody sink className counter serial).room := by
  have isInt : Admits .int := basics.simple _ rfl rfl
  generalize same : (incrementorBody sink className counter serial).room = room
  have small (index : Nat) (less : index < 4) : index < room := same ▸ Body.lt_room less _
  have reports (label : String) (index : Nat) (less : index < 4) :
      (sink.report label (.variable ⟨index⟩)).Fitting Admits wrapping room :=
    sink.report_fits basics label (small index less)
  constructor
  · simp [incrementorBody, instances, isInt]
  · simp [incrementorBody, Expression.leaves, Binding.leaves, Expression.made?, increment_fits,
      reports, small, instances, counterFits, serialFits]

theorem staticIncrementorBody_fits
    {counter : FieldRef}
    (basics : AdmitsBasics Admits)
    (sink : Sink)
    (label : String)
    (counterFits : Admits counter.type) :
    (staticIncrementorBody sink label counter).Fitting Admits wrapping
      (staticIncrementorBody sink label counter).room := by
  have isInt : Admits .int := basics.simple _ rfl rfl
  generalize same : (staticIncrementorBody sink label counter).room = room
  have small : 0 < room := same ▸ Body.lt_room (by decide) _
  constructor
  · simp [staticIncrementorBody, isInt]
  · simp [staticIncrementorBody, Expression.leaves, Expression.made?, increment_fits,
      Sink.report_fits basics, small, counterFits]

end Profile

namespace Wrapper

variable {name : String} {element : Ty} {field : FieldRef}

section Members

variable
    (basics : AdmitsBasics Admits)
    (instances : Admits (.object name))
    (arrays : Admits (.array element))
    (fieldFits : Admits field.type)
include basics instances arrays fieldFits

theorem fromArrayBody_fits :
    (fromArrayBody name element field).Fitting Admits wrapping
      (fromArrayBody name element field).room := by
  have isVoid : Admits .void := basics.simple _ rfl rfl
  generalize same : (fromArrayBody name element field).room = room
  have small (index : Nat) (less : index < 4) : index < room := same ▸ Body.lt_room less _
  constructor
  · simp [fromArrayBody, instances, arrays]
  · simp [fromArrayBody, Expression.leaves, Binding.leaves, Expression.made?, Call.leaves,
      Call.ofSpecial, MethodRef.leaves, rootConstructor, small, instances, arrays, fieldFits, isVoid]

theorem withLengthBody_fits :
    (withLengthBody name element field).Fitting Admits wrapping
      (withLengthBody name element field).room := by
  have isVoid : Admits .void := basics.simple _ rfl rfl
  have isInt : Admits .int := basics.simple _ rfl rfl
  generalize same : (withLengthBody name element field).room = room
  have small (index : Nat) (less : index < 4) : index < room := same ▸ Body.lt_room less _
  constructor
  · simp [withLengthBody, instances, arrays, isInt]
  · simp [withLengthBody, Expression.leaves, Operand.leaves, Binding.leaves, Expression.made?,
      Call.leaves, Call.ofSpecial, MethodRef.leaves, rootConstructor, small, instances, arrays,
      basics.element _ arrays, fieldFits, isVoid, isInt]

variable {profile : Profile} (profileFits : profile.Fitting Admits)
include profileFits

theorem getBody_fits :
    (getBody name element field profile).Fitting Admits wrapping
      (getBody name element field profile).room := by
  have isInt : Admits .int := basics.simple _ rfl rfl
  generalize same : (getBody name element field profile).room = room
  have small (index : Nat) (less : index < 4) : index < room := same ▸ Body.lt_room less _
  constructor
  · simp [getBody, instances, arrays, basics.element _ arrays, isInt]
  · simp [getBody, Expression.leaves, Operand.leaves, Binding.leaves, Expression.made?,
      Profile.countingCall_fits profileFits, small, instances, fieldFits, isInt]

theorem setBody_fits :
    (setBody name element field profile).Fitting Admits wrapping
      (setBody name element field profile).room := by
  have isInt : Admits .int := basics.simple _ rfl rfl
  generalize same : (setBody name element field profile).room = room
  have small (index : Nat) (less : index < 4) : index < room := same ▸ Body.lt_room less _
  constructor
  · simp [setBody, instances, arrays, basics.element _ arrays, isInt]
  · simp [setBody, Expression.leaves, Operand.leaves, Binding.leaves, Expression.made?,
      Profile.countingCall_fits profileFits, small, instances, basics.element _ arrays, fieldFits,
      isInt]

end Members

variable {wrapper : Wrapper}

theorem unwrapInto_fits
    {target source : LocalId}
    (fits : wrapper.Fitting Admits)
    (boundedTarget : target.index < room)
    (boundedSource : source.index < room) :
    (wrapper.unwrapInto target source).Fitting Admits wrapping room := by
  simp [unwrapInto, Expression.leaves, Expression.made?, boundedTarget, boundedSource,
    fits.arrayField]

theorem construct_fits
    {constructor : MethodRef}
    {target : LocalId}
    {argument : Operand}
    (fits : wrapper.Fitting Admits)
    (constructorFits : constructor.Fitting Admits)
    (bounded : target.index < room)
    (argumentFits : ∀ leaf ∈ argument.leaves, leaf.Fitting Admits room) :
    ∀ instruction ∈ wrapper.construct constructor target argument,
      instruction.Fitting Admits wrapping room := by
  have type : Admits (.object wrapper.name) := fits.type
  have calls :
      ∀ leaf ∈ (Call.ofSpecial target constructor [argument]).leaves, leaf.Fitting Admits room := by
    refine Call.leaves_fit_iff.2 ⟨constructorFits, ?_, List.forall_mem_singleton.2 argumentFits⟩
    rintro receiver ⟨⟩
    exact bounded
  refine List.forall_mem_cons.2
    ⟨?_, List.forall_mem_singleton.2 (Instruction.fits_invoke_iff.2 calls)⟩
  simp [Expression.leaves, Expression.made?, bounded, type]

/-- The call of a method of a wrapper. -/
theorem ofVirtual_fits
    {method : MethodRef}
    {base : LocalId}
    {arguments : List Operand}
    (methodFits : method.Fitting Admits)
    (bounded : base.index < room)
    (argumentsFit : ∀ argument ∈ arguments, ∀ leaf ∈ argument.leaves, leaf.Fitting Admits room) :
    ∀ leaf ∈ (Call.ofVirtual base method arguments).leaves, leaf.Fitting Admits room := by
  refine Call.leaves_fit_iff.2 ⟨methodFits, ?_, argumentsFit⟩
  rintro receiver ⟨⟩
  exact bounded

end Wrapper

/-! ## Edits -/

namespace EditBatch

/-- Something holds of all instructions that are queued. -/
def All (Holds : Instruction → Prop) (batch : EditBatch) : Prop :=
  ∀ index,
    (∀ instruction ∈ (batch.editAt index).before, Holds instruction) ∧
      ∀ instructions, (batch.editAt index).replacement = some instructions →
        ∀ instruction ∈ instructions, Holds instruction

/-- Everything that is queued fits. -/
def Fitting (Admits : Ty → Prop) (wrapping : Bool) (room : Nat) (batch : EditBatch) : Prop :=
  ∀ index,
    (∀ instruction ∈ (batch.editAt index).before, instruction.Fitting Admits wrapping room) ∧
      ∀ instructions, (batch.editAt index).replacement = some instructions →
        ∀ instruction ∈ instructions, instruction.Fitting Admits wrapping room

section Edits

variable
    {Holds : Instruction → Prop}
    {batch changed : EditBatch}
    {index : Nat}
    {instructions : List Instruction}

namespace All

theorem mono
    {HoldsToo : Instruction → Prop}
    (all : batch.All Holds)
    (le : ∀ instruction, Holds instruction → HoldsToo instruction) :
    batch.All HoldsToo :=
  fun index =>
    ⟨fun instruction member => le instruction ((all index).1 instruction member),
      fun steps replaced instruction member =>
        le instruction ((all index).2 steps replaced instruction member)⟩

theorem empty : EditBatch.empty.All Holds :=
  fun _ => ⟨List.forall_mem_nil _, nofun⟩

theorem insertBefore
    (all : batch.All Holds)
    (holds : ∀ instruction ∈ instructions, Holds instruction) :
    (batch.insertBefore index instructions).All Holds := by
  intro other
  rw [editAt_insertBefore]
  split
  · exact ⟨List.forall_mem_append.2 ⟨(all index).1, holds⟩, (all index).2⟩
  · exact all other

theorem replace
    (all : batch.All Holds)
    (holds : ∀ instruction ∈ instructions, Holds instruction)
    (replaced : batch.replace index instructions = .ok changed) :
    changed.All Holds := by
  intro other
  rw [replace_eq_ok replaced]
  split
  · refine ⟨(all index).1, ?_⟩
    rintro _ ⟨⟩
    exact holds
  · exact all other

/-- It holds of all instructions afterwards if it holds of those that stay. -/
theorem applyTo
    {given : List Instruction}
    (all : batch.All Holds)
    (holds : ∀ instruction ∈ given, Holds instruction) :
    ∀ instruction ∈ batch.applyTo given, Holds instruction := by
  refine List.forall_mem_append.2 ⟨List.forall_mem_flatMap.2 ?_, (all _).1⟩
  rintro ⟨instruction, position⟩ member
  refine List.forall_mem_append.2 ⟨(all position).1, ?_⟩
  cases replaced : (batch.editAt position).replacement with
  | some instructions => exact (all position).2 instructions replaced
  | none =>
    exact List.forall_mem_singleton.2 (holds instruction (List.fst_mem_of_mem_zipIdx member))

end All

namespace Fitting

theorem empty : EditBatch.empty.Fitting Admits wrapping room :=
  All.empty

theorem insertBefore
    (fits : batch.Fitting Admits wrapping room)
    (fit : ∀ instruction ∈ instructions, instruction.Fitting Admits wrapping room) :
    (batch.insertBefore index instructions).Fitting Admits wrapping room :=
  All.insertBefore fits fit

theorem replace
    (fits : batch.Fitting Admits wrapping room)
    (fit : ∀ instruction ∈ instructions, instruction.Fitting Admits wrapping room)
    (replaced : batch.replace index instructions = .ok changed) :
    changed.Fitting Admits wrapping room :=
  All.replace fits fit replaced

theorem applyTo
    {given : List Instruction}
    (fits : batch.Fitting Admits wrapping room)
    (fit : ∀ instruction ∈ given, instruction.Fitting Admits wrapping room) :
    ∀ instruction ∈ batch.applyTo given, instruction.Fitting Admits wrapping room :=
  All.applyTo fits fit

end Fitting

end Edits

end EditBatch
end AccessProfiler
