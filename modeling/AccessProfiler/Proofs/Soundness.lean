import AccessProfiler.Proofs.Completion

/-!
# Sound machines

A machine is sound if no reference dangles and every instance is of a known class.  Every run keeps
its machine sound, its heap only grows, and what it returns lives on that heap
(`Run.within_sound`); all that is asked of the program is that its bodies allocate instances of known
classes only.
-/

namespace AccessProfiler

/-- A reference leads to one of the first objects. -/
def Datum.Lives (size : Nat) : Datum → Prop
  | .reference slot => slot < size
  | _ => True

namespace Datum

variable {size larger : Nat} {value : Datum}

theorem Lives.mono (le : size ≤ larger) (lives : value.Lives size) : value.Lives larger := by
  cases value with
  | reference slot => exact Nat.lt_of_lt_of_le lives le
  | _ => trivial

theorem lives_zero (type : Ty) : (zero type).Lives size := by
  cases type <;> trivial

theorem lives_ofConstant (constant : Constant) : (ofConstant constant).Lives size := by
  cases constant <;> trivial

end Datum

/-- All references of an object live, and an instance is of a known class. -/
def HeapObject.Sound (Known : String → Prop) (size : Nat) : HeapObject → Prop
  | .instanceOf className fields =>
    Known className ∧ ∀ key value, fields.get? key = some value → value.Lives size
  | .array _ values => ∀ value ∈ values, value.Lives size

theorem HeapObject.Sound.mono
    {Known : String → Prop}
    {size larger : Nat}
    {object : HeapObject}
    (le : size ≤ larger)
    (sound : object.Sound Known size) :
    object.Sound Known larger := by
  cases object with
  | instanceOf className fields =>
    exact ⟨sound.1, fun key value found => (sound.2 key value found).mono le⟩
  | array element values => exact fun value member => (sound value member).mono le

/-- No reference dangles, and every instance is of a known class. -/
structure Machine.Sound (Known : String → Prop) (machine : Machine) : Prop where
  objects :
    ∀ (slot : Nat) (object : HeapObject), machine.heap.objects[slot]? = some object →
      object.Sound Known machine.heap.size
  statics :
    ∀ (key : String × String) (value : Datum), machine.statics.get? key = some value →
      value.Lives machine.heap.size

/-- The machine stays sound, and its heap only grows. -/
structure Machine.Kept (Known : String → Prop) (before after : Machine) : Prop where
  sound : after.Sound Known
  grows : before.heap.Grows after.heap

namespace FieldTable

variable {fields : FieldTable} {field : FieldRef} {size : Nat}

theorem lives_read
    (lives : ∀ key value, fields.get? key = some value → value.Lives size) :
    (fields.read field).Lives size :=
  holds_read lives (Datum.lives_zero _)

end FieldTable

namespace Machine

variable {Known : String → Prop} {machine before between after : Machine}

theorem Sound.fresh (limits : Limits) : (Machine.fresh limits).Sound Known := by
  constructor
  · intro slot object found
    simp [Machine.fresh, Heap.empty] at found
  · intro key value found
    simp [Machine.fresh] at found

theorem Kept.refl (sound : machine.Sound Known) : machine.Kept Known machine :=
  ⟨sound, .refl _⟩

theorem Kept.trans
    (kept : before.Kept Known between)
    (further : between.Kept Known after) :
    before.Kept Known after :=
  ⟨further.sound, kept.grows.trans further.grows⟩

/-- What lives on the heap still does later on. -/
theorem Kept.lives
    {value : Datum}
    (kept : before.Kept Known after)
    (lives : value.Lives before.heap.size) :
    value.Lives after.heap.size :=
  lives.mono kept.grows.size_le

theorem Kept.allLive
    {values : List Datum}
    (kept : before.Kept Known after)
    (live : ∀ value ∈ values, value.Lives before.heap.size) :
    ∀ value ∈ values, value.Lives after.heap.size :=
  fun value member => kept.lives (live value member)

theorem Sound.push
    (sound : machine.Sound Known)
    {object : HeapObject}
    (soundObject : object.Sound Known machine.heap.size) :
    machine.Kept Known
      { machine with
        heap := { machine.heap with objects := machine.heap.objects.push object } } := by
  have grows := Heap.Grows.push machine.heap object
  refine ⟨⟨?_, fun key value found => (sound.statics key value found).mono grows.size_le⟩, grows⟩
  intro slot found located
  rw [Array.getElem?_push] at located
  split at located
  · cases located
    exact soundObject.mono grows.size_le
  · exact (sound.objects slot found located).mono grows.size_le

theorem Sound.replace
    (sound : machine.Sound Known)
    {slot : Nat}
    {old : HeapObject}
    (object : HeapObject)
    (found : machine.heap.objects[slot]? = some old)
    (same : object.className? = old.className?)
    (soundObject : object.Sound Known machine.heap.size) :
    machine.Kept Known { machine with heap := machine.heap.replace slot object } := by
  refine ⟨⟨?_, ?_⟩, .replace found same⟩
  · intro other present located
    rw [Heap.replace_get?] at located
    rw [Heap.replace_size]
    split at located
    · cases located
      exact soundObject
    · exact sound.objects other present located
  · intro key value stored
    rw [Heap.replace_size]
    exact sound.statics key value stored

end Machine

/-- Calls and initializations keep the machine sound, and what a call returns lives. -/
structure Callees.Sound (Known : String → Prop) (callees : Callees) : Prop where
  invoke :
    ∀ {kind method receiver arguments before value after},
      before.Sound Known →
        (∀ given ∈ receiver, given.Lives before.heap.size) →
        (∀ given ∈ arguments, given.Lives before.heap.size) →
        Ends (callees.invoke kind method receiver arguments) before value after →
        before.Kept Known after ∧ value.Lives after.heap.size
  prepare :
    ∀ {className before after},
      before.Sound Known →
        Ends (callees.prepare className) before () after → before.Kept Known after

/-- All instances that a body allocates are of known classes. -/
def Body.Allocates (Known : String → Prop) (body : Body) : Prop :=
  ∀ place className, .assign place (.newObject className) ∈ body.instructions → Known className

theorem Operand.lives
    {locals : List Datum}
    {size : Nat}
    (live : ∀ value ∈ locals, value.Lives size)
    {operand : Operand}
    {value : Datum}
    (found : operand.value? locals = some value) :
    value.Lives size :=
  Operand.holds_of_value? live Datum.lives_ofConstant found

theorem Operand.allLive
    {locals : List Datum}
    {size : Nat}
    (live : ∀ value ∈ locals, value.Lives size)
    {operands : List Operand}
    {values : List Datum}
    (found : operands.mapM (Operand.value? locals) = some values) :
    ∀ value ∈ values, value.Lives size :=
  Operand.holds_of_values? live Datum.lives_ofConstant found

namespace Run

variable
    {Known : String → Prop}
    {world : World}
    {callees : Callees}
    {locals changed : List Datum}
    {receiver : Option Datum}
    {arguments : List Datum}
    {before after : Machine}
    {value : Datum}

theorem lives_arithmetic
    {size : Nat}
    {operator : Operator}
    {left right : Datum}
    (computed : arithmetic? operator left right = some value) :
    value.Lives size := by
  unfold arithmetic? at computed
  split at computed <;> cases computed <;> trivial

theorem Evaluates.sound
    (calleesSound : callees.Sound Known)
    (sound : before.Sound Known)
    (live : ∀ value ∈ locals, value.Lives before.heap.size)
    {expression : Expression}
    (known : ∀ className, expression = .newObject className → Known className)
    (evaluates : Evaluates world callees locals before value after expression) :
    before.Kept Known after ∧ value.Lives after.heap.size := by
  cases expression with
  | «variable» source =>
    obtain ⟨found, rfl⟩ := evaluates
    exact ⟨.refl sound, live value (List.mem_of_getElem? found)⟩
  | literal constant =>
    obtain ⟨rfl, rfl⟩ := evaluates
    exact ⟨.refl sound, Datum.lives_ofConstant constant⟩
  | instanceField base field =>
    obtain ⟨slot, -, read, rfl⟩ := evaluates
    obtain ⟨className, fields, located, rfl⟩ := Heap.readField_eq_ok.1 read
    exact ⟨.refl sound, FieldTable.lives_read (sound.objects slot _ located).2⟩
  | staticField field =>
    obtain ⟨prepared, rfl⟩ := evaluates
    have kept := calleesSound.prepare sound prepared
    exact ⟨kept, FieldTable.lives_read kept.sound.statics⟩
  | element base index =>
    obtain ⟨slot, position, -, -, read, rfl⟩ := evaluates
    obtain ⟨element, values, place, located, -, rfl⟩ := Heap.readElement_eq_ok.1 read
    refine ⟨.refl sound, ?_⟩
    cases stored : values[place]? with
    | none => exact Datum.lives_zero element
    | some value => exact sound.objects slot _ located value (Array.mem_of_getElem? stored)
  | newObject className =>
    obtain ⟨prepared, slot, heap, ready, allocated, rfl, rfl⟩ := evaluates
    obtain ⟨-, rfl, rfl⟩ := Heap.allocate_eq_ok.1 allocated
    have kept := calleesSound.prepare sound ready
    have object : (HeapObject.instanceOf className .empty).Sound Known prepared.heap.size :=
      ⟨known className rfl, by simp⟩
    refine ⟨kept.trans (kept.sound.push object), ?_⟩
    simp [Datum.Lives, Heap.size]
  | newArray content size =>
    obtain ⟨length, slot, heap, -, -, allocated, rfl, rfl⟩ := evaluates
    obtain ⟨-, rfl, rfl⟩ := Heap.allocate_eq_ok.1 allocated
    have object :
        (HeapObject.array content (Array.replicate length.toInt.toNat (.zero content))).Sound
          Known before.heap.size := by
      intro value member
      rw [Array.mem_replicate] at member
      exact member.2 ▸ Datum.lives_zero content
    refine ⟨sound.push object, ?_⟩
    simp [Datum.Lives, Heap.size]
  | length base =>
    obtain ⟨slot, length, -, -, rfl, rfl⟩ := evaluates
    exact ⟨.refl sound, trivial⟩
  | binary operator left right =>
    obtain ⟨first, second, -, -, computed, rfl⟩ := evaluates
    exact ⟨.refl sound, lives_arithmetic computed⟩
  | call target =>
    obtain ⟨given, passed, received, evaluated, called⟩ := evaluates
    exact calleesSound.invoke sound (holds_of_receiver live received) (Operand.allLive live evaluated)
      called

theorem Stores.sound
    (calleesSound : callees.Sound Known)
    (sound : before.Sound Known)
    (live : ∀ value ∈ locals, value.Lives before.heap.size)
    (lives : value.Lives before.heap.size)
    {place : Expression}
    (stores : Stores world callees locals value before changed after place) :
    before.Kept Known after ∧ ∀ value ∈ changed, value.Lives after.heap.size := by
  cases place with
  | «variable» target =>
    obtain ⟨-, rfl, rfl⟩ := stores
    refine ⟨.refl sound, fun other member => ?_⟩
    rcases List.mem_or_eq_of_mem_set member with old | rfl
    · exact live other old
    · exact lives
  | instanceField base field =>
    obtain ⟨slot, heap, -, written, rfl, rfl⟩ := stores
    obtain ⟨className, fields, located, rfl⟩ := Heap.writeField_eq_ok.1 written
    have old := sound.objects slot _ located
    have kept := sound.replace
      (.instanceOf className (fields.write (declaredField world.program field) value)) located
      rfl ⟨old.1, FieldTable.holds_write old.2 lives⟩
    exact ⟨kept, kept.allLive live⟩
  | staticField field =>
    obtain ⟨prepared, ready, rfl, rfl⟩ := stores
    have kept := calleesSound.prepare sound ready
    exact ⟨⟨⟨kept.sound.objects, FieldTable.holds_write kept.sound.statics (kept.lives lives)⟩,
      kept.grows⟩, kept.allLive live⟩
  | element base index =>
    obtain ⟨slot, position, heap, -, -, written, rfl, rfl⟩ := stores
    obtain ⟨element, values, spot, located, -, rfl⟩ := Heap.writeElement_eq_ok.1 written
    have kept := sound.replace (.array element (values.setIfInBounds spot value)) located rfl (by
        intro other member
        rcases Array.mem_or_eq_of_mem_setIfInBounds member with old | rfl
        · exact sound.objects slot _ located other old
        · exact lives)
    exact ⟨kept, kept.allLive live⟩
  | _ => exact stores.elim

theorem instructions_sound
    (calleesSound : callees.Sound Known)
    (sound : before.Sound Known)
    (liveReceiver : ∀ given ∈ receiver, given.Lives before.heap.size)
    (liveArguments : ∀ given ∈ arguments, given.Lives before.heap.size)
    (live : ∀ value ∈ locals, value.Lives before.heap.size)
    {list : List Instruction}
    (known : ∀ place className, .assign place (.newObject className) ∈ list → Known className)
    (ends : Ends (instructions world callees receiver arguments locals list) before value after) :
    before.Kept Known after ∧ value.Lives after.heap.size := by
  induction list generalizing locals before with
  | nil =>
    obtain ⟨rfl, rfl⟩ := ends_instructions_nil.1 ends
    exact ⟨.refl sound, trivial⟩
  | cons instruction rest hypothesis =>
    have knownRest :
        ∀ place className, .assign place (.newObject className) ∈ rest → Known className :=
      fun place className member => known place className (List.mem_cons_of_mem _ member)
    -- Counting an instruction touches neither the heap nor the static fields.
    have start : before.Kept Known (counted before) := ⟨⟨sound.objects, sound.statics⟩, .refl _⟩
    obtain ⟨-, continues⟩ := ends_instructions_cons.1 ends
    cases instruction with
    | bind target source =>
      obtain ⟨given, bound, -, ends⟩ := continues
      have livesGiven : given.Lives before.heap.size := by
        cases source with
        | receiver type => exact liveReceiver given bound
        | parameter index type => exact liveArguments given (List.mem_of_getElem? bound)
      have liveChanged :
          ∀ value ∈ locals.set target.index given, value.Lives (counted before).heap.size := by
        intro other member
        rcases List.mem_or_eq_of_mem_set member with old | rfl
        · exact live other old
        · exact livesGiven
      obtain ⟨kept, lives⟩ :=
        hypothesis start.sound liveReceiver liveArguments liveChanged knownRest ends
      exact ⟨start.trans kept, lives⟩
    | assign place expression =>
      obtain ⟨computed, between, changed, stored, evaluates, stores, ends⟩ := continues
      obtain ⟨kept, lives⟩ := evaluates.sound calleesSound start.sound live
        (fun className same => known place className (by simp [same]))
      obtain ⟨keptStored, liveChanged⟩ :=
        stores.sound calleesSound kept.sound (kept.allLive live) lives
      have keptBoth := kept.trans keptStored
      obtain ⟨keptRest, livesRest⟩ :=
        hypothesis keptStored.sound (fun given member => keptBoth.lives (liveReceiver given member))
          (keptBoth.allLive liveArguments) liveChanged knownRest ends
      exact ⟨start.trans (keptBoth.trans keptRest), livesRest⟩
    | invoke target =>
      obtain ⟨result, between, evaluates, ends⟩ := continues
      obtain ⟨kept, -⟩ := evaluates.sound calleesSound start.sound live
        (fun _ same => by cases same)
      obtain ⟨keptRest, livesRest⟩ :=
        hypothesis kept.sound (fun given member => kept.lives (liveReceiver given member))
          (kept.allLive liveArguments) (kept.allLive live) knownRest ends
      exact ⟨start.trans (kept.trans keptRest), livesRest⟩
    | «return» operand =>
      cases operand with
      | none =>
        obtain ⟨rfl, rfl⟩ := continues
        exact ⟨start, trivial⟩
      | some operand =>
        obtain ⟨found, rfl⟩ := continues
        exact ⟨start, Operand.lives live found⟩

theorem Starts.sound
    (calleesSound : callees.Sound Known)
    (sound : before.Sound Known)
    {kind : CallKind}
    {method : MethodRef}
    {start : String}
    (starts : Starts callees method before start after kind receiver) :
    before.Kept Known after := by
  rcases starts.cases.2 with ⟨-, prepared⟩ | ⟨-, rfl⟩
  · exact calleesSound.prepare sound prepared
  · exact .refl sound

variable
    (allocates : ∀ id body, world.program.body? id = some body → body.Allocates Known)
include allocates

theorem enter_sound
    (calleesSound : callees.Sound Known)
    (sound : before.Sound Known)
    (liveReceiver : ∀ given ∈ receiver, given.Lives before.heap.size)
    (liveArguments : ∀ given ∈ arguments, given.Lives before.heap.size)
    {id : MethodId}
    {method : MethodRef}
    (ends : Ends (enter world callees id method receiver arguments) before value after) :
    before.Kept Known after ∧ value.Lives after.heap.size := by
  obtain ⟨body, inner, found, -, ran, rfl⟩ := ends_enter.1 ends
  have liveZeros :
      ∀ value ∈ body.locals.map fun declaration => Datum.zero declaration.type,
        value.Lives before.heap.size := by
    intro value member
    obtain ⟨declaration, -, rfl⟩ := List.mem_map.1 member
    exact Datum.lives_zero _
  have opened : ({ before with depth := before.depth + 1 } : Machine).Sound Known :=
    ⟨sound.objects, sound.statics⟩
  obtain ⟨kept, lives⟩ :=
    instructions_sound calleesSound opened liveReceiver liveArguments liveZeros
      (allocates id body found) ran
  exact ⟨⟨⟨kept.sound.objects, kept.sound.statics⟩, kept.grows⟩, lives⟩

theorem invokeStep_sound
    (calleesSound : callees.Sound Known)
    (sound : before.Sound Known)
    (liveReceiver : ∀ given ∈ receiver, given.Lives before.heap.size)
    (liveArguments : ∀ given ∈ arguments, given.Lives before.heap.size)
    {kind : CallKind}
    {method : MethodRef}
    (ends : Ends (invokeStep world callees kind method receiver arguments) before value after) :
    before.Kept Known after ∧ value.Lives after.heap.size := by
  rcases ends_invokeStep.1 ends with
    ⟨-, line, -, rfl, rfl⟩ | ⟨-, -, start, started, starts, reaches⟩
  · exact ⟨⟨⟨sound.objects, sound.statics⟩, .refl _⟩, trivial⟩
  · have kept := starts.sound calleesSound sound
    cases found : target? world.program start method with
    | none =>
      rw [found] at reaches
      obtain ⟨-, -, rfl, rfl⟩ := reaches
      exact ⟨kept, trivial⟩
    | some id =>
      rw [found] at reaches
      obtain ⟨keptBody, lives⟩ :=
        enter_sound allocates calleesSound kept.sound
          (fun given member => kept.lives (liveReceiver given member)) (kept.allLive liveArguments)
          reaches
      exact ⟨kept.trans keptBody, lives⟩

theorem prepareStep_sound
    (calleesSound : callees.Sound Known)
    (sound : before.Sound Known)
    {className : String}
    (ends : Ends (prepareStep world callees className) before () after) :
    before.Kept Known after := by
  rcases ends_prepareStep.1 ends with ⟨-, rfl⟩ | ⟨-, above, ready, initializes⟩
  · exact .refl sound
  · have marked :
        before.Kept Known { before with initialized := before.initialized ++ [className] } :=
      ⟨⟨sound.objects, sound.statics⟩, .refl _⟩
    have keptAbove : before.Kept Known above := by
      unfold InitializesAbove at ready
      cases found : world.program.superclass? className with
      | none =>
        rw [found] at ready
        exact ready ▸ marked
      | some superclass =>
        rw [found] at ready
        exact marked.trans (calleesSound.prepare marked.sound ready)
    unfold Initializes at initializes
    cases found : world.program.findMethod? className staticInitializerName [] with
    | none =>
      rw [found] at initializes
      exact initializes ▸ keptAbove
    | some id =>
      rw [found] at initializes
      dsimp only at initializes
      split at initializes
      · obtain ⟨value, entered⟩ := initializes
        have noReceiver : ∀ given ∈ (none : Option Datum), given.Lives above.heap.size := nofun
        exact keptAbove.trans
          (enter_sound allocates calleesSound keptAbove.sound noReceiver
            (fun _ member => absurd member List.not_mem_nil) entered).1
      · exact initializes ▸ keptAbove

/-- Every run keeps its machine sound. -/
theorem within_sound (levels : Nat) : (Callees.within world levels).Sound Known := by
  induction levels with
  | zero =>
    exact ⟨fun _ _ _ ends => absurd ends Ends.not_throw, fun _ ends => absurd ends Ends.not_throw⟩
  | succ levels hypothesis =>
    exact ⟨fun sound liveReceiver liveArguments ends =>
        invokeStep_sound allocates hypothesis sound liveReceiver liveArguments ends,
      fun sound ends => prepareStep_sound allocates hypothesis sound ends⟩

end Run
end AccessProfiler
