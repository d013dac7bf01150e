import AccessProfiler.Proofs.AllottedWrappers

/-!
# Two sessions of one program

Two sessions that went different ways from one base agree on everything that is not still to come in
(`Session.Paired`): on the classes that they did not generate, apart from bodies, and on the wrappers
that both have.  So every search that starts at classes which both know finds the same in both, whatever
else came in on either way.
-/

namespace AccessProfiler

/-- The class without the bodies of its methods. -/
def Class.outline (declaration : Class) : Class :=
  { declaration with methods := declaration.methods.map Method.signature }

theorem Class.shape_outline (declaration : Class) : declaration.outline.shape = declaration.shape :=
  rfl

theorem Class.method?_outline (declaration : Class) (name : String) (parameters : List Ty) :
    declaration.outline.method? name parameters =
      (declaration.method? name parameters).map Method.signature := by
  unfold method? outline
  rw [List.find?_map]
  rfl

namespace Session

variable (base : Session) (asked : CounterOwner → Prop) (elements : Ty → Prop)

/-- The class is none that comes in, or it is a wrapper that both sessions have. -/
def BothKnow (first second : Session) (name : String) : Prop :=
  base.Reserves elements name → first.Has (.wrapper name) ∧ second.Has (.wrapper name)

/-- The class of the type, or of the innermost elements of the arrays, is known to both sessions. -/
def BothAdmit (first second : Session) (type : Ty) : Prop :=
  ∀ name, type.innermost.className? = some name → base.BothKnow elements first second name

/-- The wrapper is one in store that both sessions have. -/
def BothHold (first second : Session) (wrapper : Wrapper) : Prop :=
  ∃ name element, wrapper = base.wrapperOf name element ∧ elements element ∧
    base.BothKnow elements first second name

/-- The wrappers of an adaptation are some that both sessions have. -/
def BothAdapt (first second : Session) : Adaptation → Prop
  | .unwrap wrapper | .wrap wrapper => base.BothHold elements first second wrapper
  | .rewrap source target =>
    base.BothHold elements first second source ∧ base.BothHold elements first second target
  | .unsupported => True

/-- Both sessions have nothing but what the base foresees, and they agree on all that did not come in:
on profiles, and on classes apart from bodies.  Classes stand under their own names, and what was
instrumented has the members of its profile. -/
structure Paired (first second : Session) : Prop where
  foreseen : base.Foreseen asked elements first
  foreseenToo : base.Foreseen asked elements second
  profiles :
    ∀ name, ¬ base.Reserves elements name → second.profiles.get? name = first.profiles.get? name
  outlines :
    ∀ name, ¬ base.Reserves elements name →
      (second.program.class? name).map Class.outline = (first.program.class? name).map Class.outline
  closed :
    ∀ name, ¬ base.Reserves elements name →
      ∀ upper ∈ first.program.parents name, ¬ base.Reserves elements upper
  declared :
    ∀ name, ¬ base.Reserves elements name →
      ∀ declaration, first.program.class? name = some declaration →
        ∀ method ∈ declaration.methods, ∀ type ∈ method.result :: method.parameters,
          base.BothAdmit elements first second type
  named :
    ∀ name, ¬ base.Reserves elements name →
      ∀ declaration, first.program.class? name = some declaration → declaration.name = name
  profiled :
    ∀ name, ¬ base.Reserves elements name →
      ∀ profile, first.profiles.get? name = some profile →
        ∃ number, profile = .ofClass name (.ofClass base.counters.className number .int)

/-- What the session had it has, and apart from bodies nothing changed under other names than the
reserved ones. -/
structure Onward (before after : Session) : Prop where
  foreseen : base.Foreseen asked elements after
  has : ∀ asset, before.Has asset → after.Has asset
  profiles :
    ∀ name, ¬ base.Reserves elements name →
      after.profiles.get? name = before.profiles.get? name
  outlines :
    ∀ name, ¬ base.Reserves elements name →
      (after.program.class? name).map Class.outline =
        (before.program.class? name).map Class.outline

/-- What two sessions both have, two others both have. -/
structure Carries (first second after afterToo : Session) : Prop where
  has : ∀ asset, first.Has asset → second.Has asset → after.Has asset ∧ afterToo.Has asset

/-- Two sessions both went on. -/
structure Progress (first second after afterToo : Session) : Prop
    extends Carries first second after afterToo where
  onward : base.Onward asked elements first after
  onwardToo : base.Onward asked elements second afterToo

/-- From two sessions both went on, and the same came in on either way. -/
structure Advance (first second after afterToo : Session) : Prop
    extends base.Progress asked elements first second after afterToo where
  supplied :
    ∃ assets, Supplies base elements first after assets ∧
      Supplies base elements second afterToo assets

variable {base asked elements} {first second : Session} {name : String}

/-- A wrapper that the session has is the one in store, with its class. -/
theorem Wraps.of_has
    (wraps : base.Wraps elements first)
    (has : first.Has (.wrapper name)) :
    ∃ element, elements element ∧ Wrapper.nameFor? base.settings element = some name ∧
      first.wrappers.get? name = some (base.wrapperOf name element) ∧
      first.program.class? name =
        some ((base.wrapperOf name element).complete base.settings.sink) := by
  obtain ⟨wrapper, known⟩ := Option.isSome_iff_exists.1 has
  obtain ⟨element, among, named, rfl, -, declared⟩ := wraps.wrappers name wrapper known
  exact ⟨element, among, named, known, declared⟩

/-- A class that no wrapper can have the name of is no wrapper. -/
theorem Wraps.get?_eq_none
    (wraps : base.Wraps elements first)
    (free : ¬ base.Reserves elements name) :
    first.wrappers.get? name = none := by
  cases known : first.wrappers.get? name with
  | none => rfl
  | some wrapper =>
    obtain ⟨element, among, named, -⟩ := wraps.wrappers name wrapper known
    exact absurd (.inr ⟨element, among, named⟩) free

theorem BothKnow.of_free (free : ¬ base.Reserves elements name) :
    base.BothKnow elements first second name :=
  fun reserved => absurd reserved free

/-- A type without a class is admitted everywhere. -/
theorem BothAdmit.of_simple {type : Ty} (simple : type.innermost.className? = none) :
    base.BothAdmit elements first second type := by
  intro name named
  cases simple.symm.trans named

theorem BothAdmit.array {type : Ty} (admits : base.BothAdmit elements first second type) :
    base.BothAdmit elements first second (.array type) :=
  admits

theorem BothAdmit.element {type : Ty} (admits : base.BothAdmit elements first second (.array type)) :
    base.BothAdmit elements first second type :=
  admits

theorem BothAdmit.object (knows : base.BothKnow elements first second name) :
    base.BothAdmit elements first second (.object name) := by
  rintro _ ⟨⟩
  exact knows

/-- What the wrapper of an element type is made of is admitted where both sessions have it. -/
theorem Foresees.admits_element
    (foresees : base.Foresees asked elements)
    {element : Ty}
    (among : elements element) :
    base.BothAdmit elements first second element :=
  fun _ named => .of_free (foresees.classes element among _ named)

section Holding

variable
    {wrapper : Wrapper}
    (foresees : base.Foresees asked elements)
    (holds : base.BothHold elements first second wrapper)
include foresees holds

theorem BothHold.element : base.BothAdmit elements first second wrapper.element := by
  obtain ⟨name, element, rfl, among, -⟩ := holds
  exact foresees.admits_element among

theorem BothHold.arrayType : base.BothAdmit elements first second wrapper.arrayType :=
  holds.element foresees

omit foresees in
theorem BothHold.type : base.BothAdmit elements first second wrapper.type := by
  obtain ⟨name, element, rfl, -, knows⟩ := holds
  exact .object knows

end Holding

/-- The methods of a wrapper name its elements and their arrays only. -/
theorem Foresees.admits_wrapperMethod
    (foresees : base.Foresees asked elements)
    {element : Ty}
    (among : elements element)
    {method : Method}
    (member :
      method ∈ ((base.wrapperOf name element).complete base.settings.sink).methods) :
    ∀ type ∈ method.result :: method.parameters, base.BothAdmit elements first second type := by
  have admits : base.BothAdmit elements first second element := foresees.admits_element among
  have admitsArray : base.BothAdmit elements first second (.array element) := admits.array
  have void : base.BothAdmit elements first second .void := .of_simple rfl
  have int : base.BothAdmit elements first second .int := .of_simple rfl
  simp only [Wrapper.complete, Wrapper.methods, Profile.methods, List.cons_append, List.nil_append,
    List.mem_cons, List.not_mem_nil, or_false] at member
  rcases member with rfl | rfl | rfl | rfl | rfl | rfl <;>
    simp [Wrapper.member, Profile.incrementorMethod, wrapperOf, Wrapper.ofElement, admits,
      admitsArray, void, int]

namespace Paired

variable (foresees : base.Foresees asked elements) (paired : base.Paired asked elements first second)
include foresees paired

/-- Both sessions have the same wrapper of a known name, or none. -/
theorem wrapper_cases (knows : base.BothKnow elements first second name) :
    (first.wrappers.get? name = none ∧ second.wrappers.get? name = none ∧
        ¬ base.Reserves elements name) ∨
      ∃ element, elements element ∧ Wrapper.nameFor? base.settings element = some name ∧
        first.wrappers.get? name = some (base.wrapperOf name element) ∧
        second.wrappers.get? name = some (base.wrapperOf name element) ∧
        first.program.class? name =
          some ((base.wrapperOf name element).complete base.settings.sink) ∧
        second.program.class? name =
          some ((base.wrapperOf name element).complete base.settings.sink) := by
  by_cases reserved : base.Reserves elements name
  · obtain ⟨has, hasToo⟩ := knows reserved
    obtain ⟨element, among, named, known, declared⟩ := paired.foreseen.wraps.of_has has
    obtain ⟨other, amongToo, namedToo, knownToo, declaredToo⟩ :=
      paired.foreseenToo.wraps.of_has hasToo
    obtain rfl := foresees.names.apart other amongToo element among name namedToo named
    exact .inr ⟨other, among, named, known, knownToo, declared, declaredToo⟩
  · exact .inl ⟨paired.foreseen.wraps.get?_eq_none reserved,
      paired.foreseenToo.wraps.get?_eq_none reserved, reserved⟩

theorem wrappers_eq (knows : base.BothKnow elements first second name) :
    second.wrappers.get? name = first.wrappers.get? name := by
  obtain ⟨none, noneToo, -⟩ | ⟨_, -, -, known, knownToo, -⟩ := paired.wrapper_cases foresees knows
  · rw [none, noneToo]
  · rw [known, knownToo]

/-- Known classes are the same in both sessions, apart from bodies. -/
theorem outline_eq (knows : base.BothKnow elements first second name) :
    (second.program.class? name).map Class.outline =
      (first.program.class? name).map Class.outline := by
  obtain ⟨-, -, free⟩ | ⟨_, -, -, -, -, declared, declaredToo⟩ :=
    paired.wrapper_cases foresees knows
  · exact paired.outlines name free
  · rw [declared, declaredToo]

theorem sameHierarchy :
    Program.SameHierarchy (base.BothKnow elements first second) first.program second.program := by
  intro name knows
  have same := congrArg (Option.map Class.shape) (paired.outline_eq foresees knows)
  simpa only [Option.map_map, Function.comp_def, Class.shape_outline] using same

/-- Above known classes there are known classes only. -/
theorem closedAbove :
    Program.ClosedAbove (base.BothKnow elements first second) first.program := by
  intro name knows upper above
  obtain ⟨-, -, free⟩ | ⟨element, -, -, -, -, declared, -⟩ := paired.wrapper_cases foresees knows
  · exact .of_free (paired.closed name free upper above)
  · rw [Program.parents, declared] at above
    obtain rfl := List.mem_singleton.1 (above : upper ∈ [objectClass])
    exact .of_free foresees.root

theorem isSubclass_eq (knows : base.BothKnow elements first second name) (upper : String) :
    second.program.isSubclass name upper = first.program.isSubclass name upper := by
  have same : second.program.above [name] = first.program.above [name] :=
    (paired.sameHierarchy foresees).above_eq (paired.closedAbove foresees) (by simpa using knows)
  rw [Program.isSubclass, Program.isSubclass, Program.ancestors, Program.ancestors, same]

/-- Whether values of an admitted type may be stored does not depend on the session. -/
theorem isAssignable_eq
    {source : Ty}
    (admits : base.BothAdmit elements first second source)
    (target : Ty) :
    second.program.isAssignable source target = first.program.isAssignable source target := by
  induction source generalizing target with
  | array element hypothesis =>
    cases target with
    | array other => simp only [Program.isAssignable, hypothesis admits.element other]
    | _ => rfl
  | object lower =>
    cases target with
    | object upper =>
      simp only [Program.isAssignable, paired.isSubclass_eq foresees (admits lower rfl) upper]
    | _ => rfl
  | _ => cases target <;> rfl

/-- Both sessions have the same wrapper of an admitted type, if it has one. -/
theorem wrapperOfType?_eq
    {type : Ty}
    (admits : base.BothAdmit elements first second type) :
    second.wrapperOfType? type = first.wrapperOfType? type := by
  cases type with
  | object name => exact paired.wrappers_eq foresees (admits name rfl)
  | _ => rfl

theorem holds_of_wrapperOfType?
    {type : Ty}
    (admits : base.BothAdmit elements first second type)
    {wrapper : Wrapper}
    (found : first.wrapperOfType? type = some wrapper) :
    base.BothHold elements first second wrapper := by
  cases type with
  | object name =>
    have knows := admits name rfl
    have known : first.wrappers.get? name = some wrapper := found
    obtain ⟨none, -⟩ | ⟨element, among, -, held, -⟩ := paired.wrapper_cases foresees knows
    · cases none.symm.trans known
    · cases held.symm.trans known
      exact ⟨name, element, rfl, among, knows⟩
  | _ => cases found

/-- Which methods a known class declares, apart from their bodies. -/
theorem declaredMethod?_eq
    (knows : base.BothKnow elements first second name)
    (method : String)
    (parameters : List Ty) :
    (second.program.declaredMethod? name method parameters).map (Prod.map id Method.signature) =
      (first.program.declaredMethod? name method parameters).map (Prod.map id Method.signature) := by
  have declared (session : Session) :
      (session.program.declaredMethod? name method parameters).map (Prod.map id Method.signature) =
        ((session.program.class? name).map Class.outline).bind fun declaration =>
          (declaration.method? method parameters).map (name, ·) := by
    unfold Program.declaredMethod?
    cases session.program.class? name with
    | none => rfl
    | some declaration =>
      simp only [Option.bind_some, Option.map_some, Class.method?_outline, Option.map_map]
      rfl
  rw [declared, declared, paired.outline_eq foresees knows]

/-- A search for a method that starts at a known class finds the same, apart from the body. -/
theorem resolveMethod?_eq
    (knows : base.BothKnow elements first second name)
    (method : String)
    (parameters : List Ty) :
    (second.program.resolveMethod? name method parameters).map (Prod.map id Method.signature) =
      (first.program.resolveMethod? name method parameters).map (Prod.map id Method.signature) := by
  have closed := paired.closedAbove foresees
  rw [Program.resolveMethod?_eq_findSome?, Program.resolveMethod?_eq_findSome?,
    (paired.sameHierarchy foresees).searched_eq closed knows, List.map_findSome?,
    List.map_findSome?]
  exact Program.findSome?_eq_of_eq fun ancestor member =>
    paired.declaredMethod?_eq foresees (closed.searched knows ancestor member) method parameters

/-- A method that is found from a known class is one of a known class, and its types are admitted. -/
theorem admits_resolved
    (knows : base.BothKnow elements first second name)
    {method : String}
    {parameters : List Ty}
    {holder : String}
    {declared : Method}
    (resolved : first.program.resolveMethod? name method parameters = some (holder, declared)) :
    base.BothKnow elements first second holder ∧
      ∀ type ∈ declared.result :: declared.parameters,
        base.BothAdmit elements first second type := by
  rw [Program.resolveMethod?_eq_findSome?] at resolved
  obtain ⟨ancestor, member, found⟩ := List.exists_of_findSome?_eq_some resolved
  obtain ⟨declaration, registered, located⟩ := Option.bind_eq_some_iff.1 found
  obtain ⟨other, there, same⟩ := Option.map_eq_some_iff.1 located
  obtain ⟨rfl, rfl⟩ := Prod.mk.inj same
  have within := (paired.closedAbove foresees).searched knows ancestor member
  have among := List.mem_of_find?_eq_some there
  refine ⟨within, ?_⟩
  obtain ⟨-, -, free⟩ | ⟨element, amongElements, -, -, -, isWrapper, -⟩ :=
    paired.wrapper_cases foresees within
  · exact paired.declared ancestor free declaration registered other among
  · cases isWrapper.symm.trans registered
    exact foresees.admits_wrapperMethod amongElements among

/-- The same known classes are transformed. -/
theorem isTransformableClass_eq (knows : base.BothKnow elements first second name) :
    second.isTransformableClass name = first.isTransformableClass name := by
  have shapes (session : Session) :
      ((session.program.class? name).any fun declaration =>
          declaration.isApplication && !declaration.isSynthetic) =
        ((session.program.class? name).map Class.outline).any fun declaration =>
          declaration.isApplication && !declaration.isSynthetic := by
    cases session.program.class? name <;> rfl
  have className :=
    paired.foreseenToo.allots.books.labels.className.trans
      paired.foreseen.allots.books.labels.className.symm
  rw [isTransformableClass, isTransformableClass, shapes, shapes, paired.outline_eq foresees knows,
    isWrapper, isWrapper, paired.wrappers_eq foresees knows, CounterTable.holds, CounterTable.holds,
    className, paired.foreseen.settings, paired.foreseenToo.settings]

section Planning

variable
    {source target : Ty}
    (admits : base.BothAdmit elements first second source)
    (admitsTarget : base.BothAdmit elements first second target)
include admits admitsTarget

/-- How an adaptation is planned does not depend on the session. -/
theorem plan?_eq : second.plan? source target = first.plan? source target := by
  have arrays
      {wrapper : Wrapper}
      (found : first.wrapperOfType? source = some wrapper)
      (target : Ty) :
      second.program.isAssignable wrapper.arrayType target =
        first.program.isAssignable wrapper.arrayType target :=
    paired.isAssignable_eq foresees
      ((paired.holds_of_wrapperOfType? foresees admits found).arrayType foresees) target
  unfold plan?
  simp only [paired.isAssignable_eq foresees admits, paired.wrapperOfType?_eq foresees admits,
    paired.wrapperOfType?_eq foresees admitsTarget]
  split
  · rfl
  · split
    · rename_i inner found _
      simp only [arrays found]
    · rfl
    · rename_i inner outer found _
      simp only [arrays found]
    · rfl

/-- An adaptation makes use of wrappers that both sessions have. -/
theorem adapts_of_plan?
    {adaptation : Adaptation}
    (planned : first.plan? source target = some adaptation) :
    base.BothAdapt elements first second adaptation := by
  have held {type : Ty} (admits : base.BothAdmit elements first second type) {wrapper : Wrapper}
      (located : first.wrapperOfType? type = some wrapper) : base.BothHold elements first second wrapper :=
    paired.holds_of_wrapperOfType? foresees admits located
  unfold plan? at planned
  dsimp only at planned
  split at planned
  · cases planned
  · split at planned
    · rename_i inner found _
      cases planned
      split
      · exact held admits found
      · trivial
    · rename_i outer _ found
      cases planned
      split
      · exact held admitsTarget found
      · trivial
    · rename_i inner outer found foundOuter
      cases planned
      split
      · exact ⟨held admits found, held admitsTarget foundOuter⟩
      · trivial
    · cases planned

end Planning

/-- How an argument is adapted does not depend on the session. -/
theorem argumentPlan?_eq
    {source target : Ty}
    (admits : base.BothAdmit elements first second source)
    (admitsTarget : base.BothAdmit elements first second target)
    (foreign : Bool) :
    Draft.argumentPlan? second foreign source target =
      Draft.argumentPlan? first foreign source target := by
  unfold Draft.argumentPlan?
  rw [paired.wrapperOfType?_eq foresees admits, paired.plan?_eq foresees admits admitsTarget]

theorem adapts_of_argumentPlan?
    {source target : Ty}
    (admits : base.BothAdmit elements first second source)
    (admitsTarget : base.BothAdmit elements first second target)
    {foreign : Bool}
    {adaptation : Adaptation}
    (planned : Draft.argumentPlan? first foreign source target = some adaptation) :
    base.BothAdapt elements first second adaptation := by
  unfold Draft.argumentPlan? at planned
  split at planned
  · rename_i wrapper found
    split at planned
    · cases planned
      exact paired.holds_of_wrapperOfType? foresees admits found
    · exact paired.adapts_of_plan? foresees admits admitsTarget planned
  · exact paired.adapts_of_plan? foresees admits admitsTarget planned

end Paired

/-! ## Going on -/

/-- A class with the same outline declares a method of every signature. -/
theorem exists_signature_of_outline
    {declaration changed : Class}
    (same : changed.outline = declaration.outline)
    {method : Method}
    (member : method ∈ changed.methods) :
    ∃ other ∈ declaration.methods, method.signature = other.signature := by
  have listed : method.signature ∈ changed.outline.methods := List.mem_map_of_mem member
  rw [same] at listed
  obtain ⟨other, among, agrees⟩ := List.mem_map.1 listed
  exact ⟨other, among, agrees.symm⟩

namespace Onward

variable {before between after : Session}

theorem refl (foreseen : base.Foreseen asked elements before) :
    base.Onward asked elements before before :=
  ⟨foreseen, fun _ had => had, fun _ _ => rfl, fun _ _ => rfl⟩

theorem trans
    (onward : base.Onward asked elements before between)
    (further : base.Onward asked elements between after) :
    base.Onward asked elements before after where
  foreseen := further.foreseen
  has asset had := further.has asset (onward.has asset had)
  profiles name free := (further.profiles name free).trans (onward.profiles name free)
  outlines name free := (further.outlines name free).trans (onward.outlines name free)

theorem of_supplies
    (foreseen : base.Foreseen asked elements after)
    {assets : List Asset}
    (supplies : Supplies base elements before after assets) :
    base.Onward asked elements before after where
  foreseen := foreseen
  has asset had := (supplies.acquires asset).2 (.inl had)
  profiles := supplies.profiles
  outlines name free := by rw [supplies.others name free]

variable (onward : base.Onward asked elements before after) (free : ¬ base.Reserves elements name)
include onward free

/-- A class that did not come in was there before, apart from bodies. -/
theorem outlined
    {declaration : Class}
    (found : after.program.class? name = some declaration) :
    ∃ old, before.program.class? name = some old ∧ declaration.outline = old.outline := by
  have same := onward.outlines name free
  rw [found, Option.map_some] at same
  obtain ⟨old, there, agrees⟩ := Option.map_eq_some_iff.1 same.symm
  exact ⟨old, there, agrees.symm⟩

/-- A method of such a class was there before, apart from its body. -/
theorem exists_signature
    {declaration : Class}
    (found : after.program.class? name = some declaration)
    {method : Method}
    (member : method ∈ declaration.methods) :
    ∃ old, before.program.class? name = some old ∧ declaration.outline = old.outline ∧
      ∃ other ∈ old.methods, method.signature = other.signature := by
  obtain ⟨old, there, same⟩ := onward.outlined free found
  exact ⟨old, there, same, exists_signature_of_outline same member⟩

end Onward

namespace Carries

variable {after afterToo : Session} (carries : Carries first second after afterToo)
include carries

theorem knows (knows : base.BothKnow elements first second name) :
    base.BothKnow elements after afterToo name :=
  fun reserved => carries.has _ (knows reserved).1 (knows reserved).2

theorem admits {type : Ty} (admits : base.BothAdmit elements first second type) :
    base.BothAdmit elements after afterToo type :=
  fun name named => carries.knows (admits name named)

theorem holds {wrapper : Wrapper} (holds : base.BothHold elements first second wrapper) :
    base.BothHold elements after afterToo wrapper := by
  obtain ⟨name, element, same, among, knows⟩ := holds
  exact ⟨name, element, same, among, carries.knows knows⟩

end Carries

namespace Progress

variable {after afterToo : Session}

theorem of_onward
    (onward : base.Onward asked elements first after)
    (onwardToo : base.Onward asked elements second afterToo) :
    base.Progress asked elements first second after afterToo where
  has asset had hadToo := ⟨onward.has asset had, onwardToo.has asset hadToo⟩
  onward := onward
  onwardToo := onwardToo

variable (progress : base.Progress asked elements first second after afterToo)
include progress

/-- The sessions agree as they did before. -/
theorem paired (paired : base.Paired asked elements first second) :
    base.Paired asked elements after afterToo := by
  refine ⟨progress.onward.foreseen, progress.onwardToo.foreseen, fun name free => ?_,
    fun name free => ?_, fun name free upper above => ?_,
    fun name free declaration found method member type among => ?_,
    fun name free declaration found => ?_, fun name free profile known => ?_⟩
  · rw [progress.onwardToo.profiles name free, progress.onward.profiles name free]
    exact paired.profiles name free
  · rw [progress.onwardToo.outlines name free, progress.onward.outlines name free]
    exact paired.outlines name free
  · have shapes := congrArg (Option.map Class.shape) (progress.onward.outlines name free)
    simp only [Option.map_map, Function.comp_def, Class.shape_outline] at shapes
    rw [Program.parents_eq_shape, shapes, ← Program.parents_eq_shape] at above
    exact paired.closed name free upper above
  · obtain ⟨old, there, -, other, listed, agrees⟩ :=
      progress.onward.exists_signature free found member
    have result : method.signature.result = other.signature.result := by rw [agrees]
    have parameters : method.signature.parameters = other.signature.parameters := by rw [agrees]
    simp only [Method.signature] at result parameters
    rw [result, parameters] at among
    exact progress.admits (paired.declared name free old there other listed type among)
  · obtain ⟨old, there, same⟩ := progress.onward.outlined free found
    have names : declaration.outline.name = old.outline.name := by rw [same]
    exact names.trans (paired.named name free old there)
  · rw [progress.onward.profiles name free] at known
    exact paired.profiled name free profile known

end Progress

namespace Advance

variable {between betweenToo after afterToo : Session}

/-- From both sessions the same came in. -/
theorem of_supplies
    (foreseen : base.Foreseen asked elements after)
    (foreseenToo : base.Foreseen asked elements afterToo)
    {assets : List Asset}
    (supplies : Supplies base elements first after assets)
    (suppliesToo : Supplies base elements second afterToo assets) :
    base.Advance asked elements first second after afterToo where
  toProgress := .of_onward (.of_supplies foreseen supplies) (.of_supplies foreseenToo suppliesToo)
  supplied := ⟨assets, supplies, suppliesToo⟩

theorem refl (paired : base.Paired asked elements first second) :
    base.Advance asked elements first second first second :=
  .of_supplies paired.foreseen paired.foreseenToo (.refl _) (.refl _)

theorem trans
    (advance : base.Advance asked elements first second between betweenToo)
    (further : base.Advance asked elements between betweenToo after afterToo) :
    base.Advance asked elements first second after afterToo := by
  obtain ⟨assets, supplies, suppliesToo⟩ := advance.supplied
  obtain ⟨more, suppliesMore, suppliesMoreToo⟩ := further.supplied
  exact .of_supplies further.onward.foreseen further.onwardToo.foreseen
    (supplies.trans suppliesMore) (suppliesToo.trans suppliesMoreToo)

end Advance

/-! ## Methods that count -/

/-- A method that counts is found on the class of the counters, which is not transformed. -/
theorem Foreseen.resolveMethod?_tally
    (foreseen : base.Foreseen asked elements first)
    {owner : CounterOwner}
    (has : first.Has (.tally owner)) :
    first.program.resolveMethod? base.counters.className
        ("increment" ++ counterKey (base.counters.allotted owner)) [] =
      some (base.counters.className,
        owner.tally base.settings.sink (base.counters.allotted owner)) := by
  have tallies := foreseen.allots.tallies_of_has has
  have declared :
      first.program.declaredMethod? base.counters.className
          ("increment" ++ counterKey (base.counters.allotted owner)) [] =
        some (base.counters.className,
          owner.tally base.settings.sink (base.counters.allotted owner)) := by
    have located := foreseen.allots.books.labels.method?_tally tallies
    obtain ⟨declaration, found, there⟩ := Option.bind_eq_some_iff.1 located
    rw [Program.declaredMethod?, found, Option.bind_some, there]
    rfl
  rw [Program.resolveMethod?_eq_findSome?]
  have searched :
      ∃ rest, first.program.searched base.counters.className = base.counters.className :: rest :=
    ⟨_, rfl⟩
  obtain ⟨rest, starts⟩ := searched
  rw [starts, List.findSome?_cons, declared]

theorem Foreseen.isTransformableClass_counters
    (foreseen : base.Foreseen asked elements first) :
    first.isTransformableClass base.counters.className = false := by
  have className := foreseen.allots.books.labels.className
  simp [isTransformableClass, CounterTable.holds, className]

end Session
end AccessProfiler
