import AccessProfiler.Instrument.Counting
import Mathlib.Data.List.TakeWhile

/-!
# Bodies with inserted counting

Counting never changes an instruction of a body; it inserts calls in front of instructions, and
blocks right after the bindings.  `Woven` relates the instructions after the bindings to those with
the calls, `Opening` describes the blocks, and `Body.Woven` puts both together.

A pass that inserts calls in front of instructions is described by `Inserted`.  It leaves the
bindings and the opening alone, since nothing is counted for a silent instruction, and it keeps the
rest woven (`Body.Woven.insert`).
-/

namespace AccessProfiler

/-- The methods without parameters that there are, by class and name. -/
abbrev Offers := String → String → Prop

/-- The methods without parameters that the classes of a program declare. -/
def Program.offers (program : Program) : Offers :=
  fun owner name => (program.declaredMethod? owner name []).isSome

/-- The method is one of the two that count an access to an object. -/
def IsIncrementor (name : String) : Prop :=
  name = readIncrementor ∨ name = writeIncrementor

instance (name : String) : Decidable (IsIncrementor name) :=
  inferInstanceAs (Decidable (_ ∨ _))

namespace FieldRef

/-- The field is one of those that instrumentation adds, or has the name and type of one. -/
def CountsAccess (field : FieldRef) : Prop :=
  isInstrumentationName field.name ∧ field.type = .int

/-- The field is a static counter. -/
def Tallies (counter : String) (field : FieldRef) : Prop :=
  field.owner = counter ∧ field.type = .int

end FieldRef

namespace Expression

/-- Nothing is counted for the expression. -/
def Silent : Expression → Prop
  | .instanceField _ field => isInstrumentationName field.name
  | .element _ _ => False
  | _ => True

end Expression

namespace Instruction

/-- Nothing is counted for the instruction. -/
def Silent : Instruction → Prop
  | .assign place value => place.Silent ∧ value.Silent
  | _ => True

/-- The instruction accesses a field of the object in a local. -/
def Accesses (base : LocalId) : Instruction → Prop
  | .assign place value =>
    (∃ field, place = .instanceField base field) ∨ ∃ field, value = .instanceField base field
  | _ => False

/-- A call of a method that counts on a static counter. -/
def Tallies (counter : String) (offers : Offers) (call : Instruction) : Prop :=
  ∃ name, offers counter name ∧ call = .invoke (.ofStatic ⟨counter, name, [], .void⟩ [])

/-- A call that counts an access to the object in a local. -/
def Counts (offers : Offers) (base : LocalId) (call : Instruction) : Prop :=
  ∃ kind owner name, (kind = .virtual ∨ kind = .interface) ∧ IsIncrementor name ∧
    offers owner name ∧ call = .invoke ⟨kind, ⟨owner, name, [], .void⟩, some base, []⟩

/-- A call that may stand in front of an instruction. -/
def Announces
    (counter : String)
    (offers : Offers)
    (instruction call : Instruction) : Prop :=
  call.Tallies counter offers ∨ ∃ base, instruction.Accesses base ∧ call.Counts offers base

variable {counter : String} {offers more : Offers} {instruction call : Instruction}

theorem Tallies.mono
    (le : ∀ owner name, offers owner name → more owner name)
    (tallies : call.Tallies counter offers) :
    call.Tallies counter more := by
  obtain ⟨name, offered, rfl⟩ := tallies
  exact ⟨name, le counter name offered, rfl⟩

theorem Counts.mono
    (le : ∀ owner name, offers owner name → more owner name)
    {base : LocalId}
    (counts : call.Counts offers base) :
    call.Counts more base := by
  obtain ⟨kind, owner, name, dispatched, incrementor, offered, rfl⟩ := counts
  exact ⟨kind, owner, name, dispatched, incrementor, le owner name offered, rfl⟩

theorem Announces.invokes (announces : instruction.Announces counter offers call) :
    ∃ target, call = .invoke target := by
  rcases announces with ⟨name, -, rfl⟩ | ⟨base, -, kind, owner, name, -, -, -, rfl⟩
  · exact ⟨_, rfl⟩
  · exact ⟨_, rfl⟩

theorem silent_of_isBinding (binds : instruction.isBinding) : instruction.Silent := by
  cases instruction with
  | bind target source => trivial
  | _ => cases binds

end Instruction

/-- The instructions after the bindings of a body, and the same with calls in between. -/
inductive Woven (counter : String) (offers : Offers) : List Instruction → List Instruction → Prop
  | done : Woven counter offers [] []
  | keep
      {instruction : Instruction}
      {rest woven : List Instruction}
      (unbound : instruction.isBinding = false)
      (later : Woven counter offers rest woven) :
      Woven counter offers (instruction :: rest) (instruction :: woven)
  | tally
      {call : Instruction}
      {rest woven : List Instruction}
      (tallies : call.Tallies counter offers)
      (later : Woven counter offers rest woven) :
      Woven counter offers rest (call :: woven)
  | count
      {base : LocalId}
      {instruction call : Instruction}
      {rest woven : List Instruction}
      (accesses : instruction.Accesses base)
      (counts : call.Counts offers base)
      (later : Woven counter offers (instruction :: rest) woven) :
      Woven counter offers (instruction :: rest) (call :: woven)

/-- Calls inserted in front of instructions, none in front of a silent one. -/
inductive Inserted (counter : String) (offers : Offers) :
    List Instruction → List Instruction → Prop
  | done : Inserted counter offers [] []
  | step
      {instruction : Instruction}
      {calls rest longer : List Instruction}
      (announced : ∀ call ∈ calls, instruction.Announces counter offers call)
      (quiet : instruction.Silent → calls = [])
      (later : Inserted counter offers rest longer) :
      Inserted counter offers (instruction :: rest) (calls ++ instruction :: longer)

/-- The blocks that stand between the bindings and the rest: calls of methods that count, and
assignments of a serial number to an instance by means of a local for the count. -/
inductive Opening (counter : String) (sink : Sink) (offers : Offers) (Serial : LocalId → LocalId → Prop) :
    List Instruction → Prop
  | done : Opening counter sink offers Serial []
  | tally
      {call : Instruction}
      {rest : List Instruction}
      (tallies : call.Tallies counter offers)
      (later : Opening counter sink offers Serial rest) :
      Opening counter sink offers Serial (call :: rest)
  | serial
      {profile : Profile}
      {this count : LocalId}
      {rest : List Instruction}
      (permitted : Serial this count)
      (tallies : profile.staticCounter.Tallies counter)
      (counts : profile.serial.CountsAccess)
      (later : Opening counter sink offers Serial rest) :
      Opening counter sink offers Serial (profile.serialAssignment sink this count ++ rest)

section Lists

variable
    {counter : String}
    {sink : Sink}
    {offers more : Offers}
    {Serial Other : LocalId → LocalId → Prop}
    {list longer rest woven opening : List Instruction}
    {instruction : Instruction}

theorem Woven.mono
    (le : ∀ owner name, offers owner name → more owner name)
    (relation : Woven counter offers rest woven) :
    Woven counter more rest woven := by
  induction relation with
  | done => exact .done
  | keep unbound _ hypothesis => exact .keep unbound hypothesis
  | tally tallies _ hypothesis => exact .tally (tallies.mono le) hypothesis
  | count accesses counts _ hypothesis => exact .count accesses (counts.mono le) hypothesis

theorem Opening.mono
    (le : ∀ owner name, offers owner name → more owner name)
    (permits : ∀ this count, Serial this count → Other this count)
    (opens : Opening counter sink offers Serial opening) :
    Opening counter sink more Other opening := by
  induction opens with
  | done => exact .done
  | tally tallies _ hypothesis => exact .tally (tallies.mono le) hypothesis
  | serial permitted tallies counts _ hypothesis =>
    exact .serial (permits _ _ permitted) tallies counts hypothesis

/-- Calls that announce the first instruction may stand in front of it. -/
theorem Woven.announced
    {calls : List Instruction}
    (relation : Woven counter offers (instruction :: rest) woven)
    (announced : ∀ call ∈ calls, instruction.Announces counter offers call) :
    Woven counter offers (instruction :: rest) (calls ++ woven) := by
  induction calls with
  | nil => exact relation
  | cons call calls hypothesis =>
    have others := hypothesis fun other member => announced other (List.mem_cons_of_mem _ member)
    rcases announced call List.mem_cons_self with tallies | ⟨base, accesses, counts⟩
    · exact .tally tallies others
    · exact .count accesses counts others

theorem Inserted.cons_invoke
    {target : Call}
    (inserted : Inserted counter offers (.invoke target :: rest) longer) :
    ∃ later, longer = .invoke target :: later ∧ Inserted counter offers rest later := by
  generalize same : Instruction.invoke target :: rest = list at inserted
  cases inserted with
  | done => cases same
  | step announced quiet later =>
    cases same
    obtain rfl := quiet trivial
    exact ⟨_, rfl, later⟩

/-- To insert more calls keeps instructions woven: a call has nothing in front of it, and what stands
in front of an instruction announces that instruction. -/
theorem Woven.insert
    (relation : Woven counter offers rest woven)
    (inserted : Inserted counter offers woven longer) :
    Woven counter offers rest longer := by
  induction relation generalizing longer with
  | done =>
    cases inserted
    exact .done
  | keep unbound _ hypothesis =>
    cases inserted with
    | step announced quiet later => exact (Woven.keep unbound (hypothesis later)).announced announced
  | tally tallies _ hypothesis =>
    obtain ⟨name, offered, rfl⟩ := tallies
    obtain ⟨later, rfl, insertedLater⟩ := inserted.cons_invoke
    exact .tally ⟨name, offered, rfl⟩ (hypothesis insertedLater)
  | count accesses counts _ hypothesis =>
    obtain ⟨kind, owner, name, dispatched, incrementor, offered, rfl⟩ := counts
    obtain ⟨later, rfl, insertedLater⟩ := inserted.cons_invoke
    exact .count accesses ⟨kind, owner, name, dispatched, incrementor, offered, rfl⟩
      (hypothesis insertedLater)

/-- In front of silent instructions nothing is inserted. -/
theorem Inserted.append_silent
    {front : List Instruction}
    (silent : ∀ instruction ∈ front, instruction.Silent)
    (inserted : Inserted counter offers (front ++ rest) longer) :
    ∃ later, longer = front ++ later ∧ Inserted counter offers rest later := by
  induction front generalizing longer with
  | nil => exact ⟨longer, rfl, inserted⟩
  | cons instruction front hypothesis =>
    generalize same : instruction :: front ++ rest = list at inserted
    cases inserted with
    | done => cases same
    | step announced quiet later =>
      cases same
      obtain rfl := quiet (silent instruction List.mem_cons_self)
      obtain ⟨last, rfl, insertedLast⟩ :=
        hypothesis (fun other member => silent other (List.mem_cons_of_mem _ member)) later
      exact ⟨last, rfl, insertedLast⟩

theorem Opening.silent
    (opens : Opening counter sink offers Serial opening) :
    ∀ instruction ∈ opening, instruction.Silent := by
  induction opens with
  | done => exact fun _ member => absurd member List.not_mem_nil
  | tally tallies _ hypothesis =>
    obtain ⟨name, -, rfl⟩ := tallies
    intro instruction member
    rcases List.mem_cons.1 member with rfl | later
    · trivial
    · exact hypothesis instruction later
  | @serial profile this count rest permitted tallies counts _ hypothesis =>
    intro instruction member
    rcases List.mem_append.1 member with block | later
    · simp only [Profile.serialAssignment, List.mem_cons, List.not_mem_nil, or_false] at block
      rcases block with rfl | rfl | rfl | rfl | rfl
      · exact ⟨trivial, trivial⟩
      · exact ⟨trivial, trivial⟩
      · exact ⟨counts.1, trivial⟩
      · exact ⟨trivial, trivial⟩
      · trivial
    · exact hypothesis instruction later

theorem Opening.unbound
    (opens : Opening counter sink offers Serial opening) :
    ∀ instruction ∈ opening, instruction.isBinding = false := by
  induction opens with
  | done => exact fun _ member => absurd member List.not_mem_nil
  | tally tallies _ hypothesis =>
    obtain ⟨name, -, rfl⟩ := tallies
    intro instruction member
    rcases List.mem_cons.1 member with rfl | later
    · rfl
    · exact hypothesis instruction later
  | @serial profile this count rest permitted tallies counts _ hypothesis =>
    intro instruction member
    rcases List.mem_append.1 member with block | later
    · simp only [Profile.serialAssignment, List.mem_cons, List.not_mem_nil, or_false] at block
      rcases block with rfl | rfl | rfl | rfl | rfl <;> rfl
    · exact hypothesis instruction later

theorem Woven.unbound
    (relation : Woven counter offers rest woven) :
    ∀ instruction ∈ woven, instruction.isBinding = false := by
  induction relation with
  | done => exact fun _ member => absurd member List.not_mem_nil
  | keep unbound _ hypothesis =>
    intro instruction member
    rcases List.mem_cons.1 member with rfl | later
    · exact unbound
    · exact hypothesis instruction later
  | tally tallies _ hypothesis =>
    obtain ⟨name, -, rfl⟩ := tallies
    intro instruction member
    rcases List.mem_cons.1 member with rfl | later
    · rfl
    · exact hypothesis instruction later
  | count accesses counts _ hypothesis =>
    obtain ⟨kind, owner, name, -, -, -, rfl⟩ := counts
    intro instruction member
    rcases List.mem_cons.1 member with rfl | later
    · rfl
    · exact hypothesis instruction later

theorem Opening.unbound_append
    (opens : Opening counter sink offers Serial opening)
    (relation : Woven counter offers rest woven) :
    ∀ instruction ∈ opening ++ woven, instruction.isBinding = false := by
  intro instruction member
  rcases List.mem_append.1 member with inOpening | inRest
  · exact opens.unbound _ inOpening
  · exact relation.unbound _ inRest

theorem woven_refl
    (unbound : ∀ instruction ∈ list, instruction.isBinding = false) :
    Woven counter offers list list := by
  induction list with
  | nil => exact .done
  | cons instruction rest hypothesis =>
    exact .keep (unbound instruction List.mem_cons_self)
      (hypothesis fun other member => unbound other (List.mem_cons_of_mem _ member))

end Lists

namespace Body

/-- The bindings that stand in front. -/
def bindings (body : Body) : List Instruction :=
  body.instructions.takeWhile Instruction.isBinding

/-- The instructions after the bindings in front. -/
def unbound (body : Body) : List Instruction :=
  body.instructions.dropWhile Instruction.isBinding

/-- All bindings stand in front. -/
def BindsFirst (body : Body) : Prop :=
  ∀ instruction ∈ body.unbound, instruction.isBinding = false

instance (body : Body) : Decidable body.BindsFirst :=
  inferInstanceAs (Decidable (∀ instruction ∈ body.unbound, _))

/-- The body with counting inserted.  Only the body of a constructor assigns a serial number, to its
receiver and by means of a local that the body did not have. -/
structure Woven
    (counter : String)
    (sink : Sink)
    (offers : Offers)
    (constructs : Prop)
    (original current : Body) : Prop where
  locals : ∃ extra, current.locals = original.locals ++ extra
  instructions :
    ∃ opening rest, current.instructions = original.bindings ++ (opening ++ rest) ∧
      Opening counter sink offers
        (fun this count => constructs ∧ original.receiver? = some this ∧
          original.locals.length ≤ count.index ∧ count.index < current.locals.length)
        opening ∧
      AccessProfiler.Woven counter offers original.unbound rest

variable
    {counter : String}
    {sink : Sink}
    {offers more : Offers}
    {constructs : Prop}
    {original current : Body}

theorem bindings_isBinding {instruction : Instruction} (member : instruction ∈ original.bindings) :
    instruction.isBinding :=
  List.mem_takeWhile_imp member

theorem Woven.refl (first : original.BindsFirst) :
    original.Woven counter sink offers constructs original where
  locals := ⟨[], by simp⟩
  instructions :=
    ⟨[], original.unbound, by simp [bindings, unbound], .done, woven_refl first⟩

theorem Woven.mono
    (le : ∀ owner name, offers owner name → more owner name)
    (woven : original.Woven counter sink offers constructs current) :
    original.Woven counter sink more constructs current := by
  obtain ⟨locals, opening, rest, parts, opens, relation⟩ := woven
  exact ⟨locals, opening, rest, parts, opens.mono le fun _ _ permitted => permitted,
    relation.mono le⟩

theorem takeWhile_isBinding_of_unbound
    {list : List Instruction}
    (unbound : ∀ instruction ∈ list, instruction.isBinding = false) :
    list.takeWhile Instruction.isBinding = [] := by
  cases list with
  | nil => rfl
  | cons instruction rest =>
    exact List.takeWhile_cons_of_neg (by simp [unbound instruction List.mem_cons_self])

/-- The bindings of the body stay in front. -/
theorem Woven.bindings_eq
    (woven : original.Woven counter sink offers constructs current) :
    current.bindings = original.bindings := by
  obtain ⟨-, opening, rest, parts, opens, relation⟩ := woven
  rw [bindings, parts,
    List.takeWhile_append_of_pos fun instruction member => bindings_isBinding member,
    takeWhile_isBinding_of_unbound (opens.unbound_append relation), List.append_nil]

theorem receiver?_append {front back : List Instruction} :
    (Body.mk [] (front ++ back)).receiver? =
      (Body.mk [] front).receiver?.or (Body.mk [] back).receiver? :=
  List.findSome?_append

theorem receiver?_of_unbound
    {list : List Instruction}
    (unbound : ∀ instruction ∈ list, instruction.isBinding = false) :
    (Body.mk [] list).receiver? = none := by
  unfold receiver?
  rw [List.findSome?_eq_none_iff]
  intro instruction member
  cases instruction with
  | bind target source => cases unbound _ member
  | _ => rfl

/-- The receiver is bound to the same local. -/
theorem Woven.receiver?_eq
    (woven : original.Woven counter sink offers constructs current)
    (first : original.BindsFirst) :
    current.receiver? = original.receiver? := by
  obtain ⟨-, opening, rest, parts, opens, relation⟩ := woven
  have unbound := opens.unbound_append relation
  calc
    current.receiver? = (Body.mk [] (original.bindings ++ (opening ++ rest))).receiver? := by
      rw [← parts]
      rfl
    _ = (Body.mk [] original.bindings).receiver? := by
      rw [receiver?_append, receiver?_of_unbound unbound, Option.or_none]
    _ = (Body.mk [] (original.bindings ++ original.unbound)).receiver? := by
      rw [receiver?_append, receiver?_of_unbound first, Option.or_none]
    _ = original.receiver? := by
      rw [bindings, Body.unbound, List.takeWhile_append_dropWhile]
      rfl

/-- A pass that inserts calls in front of instructions keeps the body woven. -/
theorem Woven.insert
    {longer : List Instruction}
    (woven : original.Woven counter sink offers constructs current)
    (inserted : Inserted counter offers current.instructions longer) :
    original.Woven counter sink offers constructs { current with instructions := longer } := by
  obtain ⟨locals, opening, rest, parts, opens, relation⟩ := woven
  rw [parts] at inserted
  obtain ⟨afterBindings, rfl, insertedThere⟩ :=
    inserted.append_silent fun instruction member =>
      Instruction.silent_of_isBinding (bindings_isBinding member)
  obtain ⟨afterOpening, rfl, insertedRest⟩ := insertedThere.append_silent opens.silent
  exact ⟨locals, opening, afterOpening, rfl, opens, relation.insert insertedRest⟩

/-- A call of a method that counts on a static counter may stand right after the bindings. -/
theorem Woven.open_tally
    {call : Instruction}
    (woven : original.Woven counter sink offers constructs current)
    (tallies : call.Tallies counter offers) :
    original.Woven counter sink offers constructs
      { current with instructions := current.bindings ++ call :: current.unbound } := by
  have front := woven.bindings_eq
  obtain ⟨locals, opening, rest, parts, opens, relation⟩ := woven
  have back : current.unbound = opening ++ rest := by
    have whole : current.bindings ++ current.unbound = current.instructions := by
      simp [bindings, unbound]
    rw [front, parts] at whole
    exact List.append_cancel_left whole
  refine ⟨locals, call :: opening, rest, ?_, .tally tallies opens, relation⟩
  simp only [front, back, List.cons_append]

/-- The constructor of an instance may assign a serial number right after the bindings, by means of
a new local. -/
theorem Woven.open_serial
    {profile : Profile}
    {this : LocalId}
    (woven : original.Woven counter sink offers constructs current)
    (declaration : LocalDecl)
    (first : original.BindsFirst)
    (construction : constructs)
    (received : current.receiver? = some this)
    (tallies : profile.staticCounter.Tallies counter)
    (counts : profile.serial.CountsAccess) :
    original.Woven counter sink offers constructs
      { locals := current.locals ++ [declaration]
        instructions :=
          current.bindings ++ profile.serialAssignment sink this ⟨current.locals.length⟩ ++
            current.unbound } := by
  have front := woven.bindings_eq
  have receives := (woven.receiver?_eq first).symm.trans received
  obtain ⟨⟨extra, locals⟩, opening, rest, parts, opens, relation⟩ := woven
  have back : current.unbound = opening ++ rest := by
    have whole : current.bindings ++ current.unbound = current.instructions := by
      simp [bindings, unbound]
    rw [front, parts] at whole
    exact List.append_cancel_left whole
  have opensFurther :
      Opening counter sink offers
        (fun this count => constructs ∧ original.receiver? = some this ∧
          original.locals.length ≤ count.index ∧
          count.index < (current.locals ++ [declaration]).length)
        opening :=
    opens.mono (fun _ _ offered => offered) fun this count permitted =>
      ⟨permitted.1, permitted.2.1, permitted.2.2.1, by
        have := permitted.2.2.2
        rw [List.length_append]
        omega⟩
  refine ⟨⟨extra ++ [declaration], by simp [locals]⟩,
    profile.serialAssignment sink this ⟨current.locals.length⟩ ++ opening, rest, ?_,
    .serial ⟨construction, receives, ?_, ?_⟩ tallies counts opensFurther, relation⟩
  · simp only [front, back, List.append_assoc]
  · simp [locals]
  · simp

end Body
end AccessProfiler
