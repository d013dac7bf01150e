import AccessProfiler.Proofs.ConstructorBodies

/-!
# Runs of constructors

What a rewritten constructor gives its receiver is what its class owes it: its own number if the class
numbers instances, and whatever the constructor gives that it calls (`Run.constructor_gives`).  With this
every level of calls is in balance (`Run.within_balances`), so a run from outside gives each object as
many numbers as it is owed (`Run.entryLog_balanced`).
-/

namespace AccessProfiler

namespace Numbering

variable {watched : Numbering}

/-- The receiver is the object, and the class is the one that numbers its instances. -/
def own (watched : Numbering) (receiver : Option Datum) (owner : String) : Nat :=
  if receiver = some (.reference watched.slot) ∧ owner = watched.className then 1 else 0

/-- A serial number is given to the object that has it written. -/
theorem given_write {actor : Activation} {slot : Nat} {owner : String} :
    watched.given [.accesses actor .write slot (.ofInstance owner serialField .int)] =
      watched.own (some (.reference slot)) owner := by
  rw [given, own]
  by_cases here : owner = watched.className
  · have gives :
        (Act.accesses actor .write slot (.ofInstance owner serialField .int)).numbered?
          watched.className = some slot :=
      if_pos ⟨here, rfl⟩
    rw [numbered, List.filterMap_cons_some gives, List.filterMap_nil, List.count_singleton]
    simp [here]
  · have none :
        (Act.accesses actor .write slot (.ofInstance owner serialField .int)).numbered?
          watched.className = none :=
      if_neg fun both => here both.1
    rw [numbered, List.filterMap_cons_none none, if_neg fun both => here both.2]
    rfl

end Numbering

namespace Session.Completes

variable {settings : Settings} {program : Program} {session : Session}

/-- A call of a constructor leads to the class that it names if that declares it. -/
theorem target?_of_declared
    (completes : session.Completes settings program)
    (unregistered : program.class? settings.counterClassName = none)
    {method : MethodRef}
    (declared : (program.findMethod? method.owner method.name method.parameters).isSome) :
    ∃ id, Run.target? session.program method.owner method = some id ∧ id.owner = method.owner := by
  obtain ⟨id, found⟩ := Option.isSome_iff_exists.1 declared
  obtain ⟨owned, original, has, named, given⟩ := Program.findMethod?_eq_some found
  have differs : id.owner ≠ settings.counterClassName := by
    rintro same
    rw [← owned, same, Program.findMethod?_eq_none unregistered] at found
    cases found
  obtain ⟨current, there, related⟩ := completes.furnishes.furnished.method?_eq_some differs has
  have fits : session.program.fitsAt id method.name method.parameters := by
    have sameParameters : current.parameters = original.parameters :=
      (Method.mk.inj related.signature).2.1
    simp [Program.fitsAt, there, Method.fits, related.name_eq, sameParameters, named, given]
  cases search : session.program.findMethod? method.owner method.name method.parameters with
  | none => exact absurd (owned ▸ fits) (Program.findMethod?_eq_none_iff.1 search id.index)
  | some other =>
    refine ⟨other, ?_, (Program.findMethod?_eq_some search).1⟩
    rw [Program.target?_eq_bind, Program.resolveMethod?_of_findMethod? search]
    exact search

end Session.Completes

namespace Numbering

variable {watched : Numbering} {settings : Settings} {session : Session}

/-- The receiver gets its own number of the class that numbers its instances. -/
theorem share_self (receiver : Option Datum) :
    watched.share receiver watched.className = watched.own receiver watched.className := by
  have inherits : watched.original.Inherits watched.className watched.className := .refl
  rw [share, own]
  simp [inherits]

/-- Another class gives what its superclass gives. -/
theorem share_of_ne
    {owner superclass : String}
    (other : owner ≠ watched.className)
    (above : watched.original.superclass? owner = some superclass)
    (receiver : Option Datum) :
    watched.share receiver owner = watched.share receiver superclass := by
  have same :
      watched.original.Inherits owner watched.className ↔
        watched.original.Inherits superclass watched.className := by
    rw [Program.inherits_iff]
    constructor
    · rintro (here | ⟨upper, higher, inherits⟩)
      · exact absurd here other
      · rw [above] at higher
        cases higher
        exact inherits
    · exact fun inherits => .inr ⟨superclass, above, inherits⟩
  rw [share, share, same]

/-- A class below classes that are not registered gives what it gives itself. -/
theorem share_of_top
    (numbers : (watched.original.class? watched.className).isSome)
    {owner : String}
    (top : ((watched.original.superclass? owner).bind watched.original.class?).isNone)
    (receiver : Option Datum) :
    watched.share receiver owner = watched.own receiver owner := by
  by_cases here : owner = watched.className
  · rw [here, share_self]
  · have none : watched.own receiver owner = 0 := if_neg fun both => here both.2
    rw [none]
    refine if_neg ?_
    rintro ⟨-, inherits⟩
    rcases Program.inherits_iff.1 inherits with same | ⟨superclass, above, inherits⟩
    · exact here same
    · rw [above, Option.bind_some, Option.isNone_iff_eq_none] at top
      rcases Program.inherits_iff.1 inherits with rfl | ⟨upper, higher, -⟩
      · rw [top] at numbers
        cases numbers
      · rw [Program.superclass?_eq_none top] at higher
        cases higher

/-- What the class of a constructor owes its receiver: a number of its own unless another constructor of
the class is called, and what is due for that call. -/
theorem share_eq
    (completes : session.Completes settings watched.original)
    (accountable : watched.original.Accountable settings)
    (current : watched.current = session.program)
    (known : (session.profiles.get? watched.className).isSome)
    (numbers : (watched.original.class? watched.className).isSome)
    {owner : String}
    {method : MethodRef}
    (registered : (watched.original.class? owner).isSome)
    (founded : watched.original.Founded owner)
    (named : method.name = constructorName)
    (plain : method.owner ≠ settings.counterClassName)
    (continues : watched.original.ContinuesConstruction owner method)
    (receiver : Option Datum) :
    (if (session.profiles.get? owner).isSome ∧ method.owner ≠ owner then 1 else 0) *
        watched.own receiver owner +
      watched.due receiver method = watched.share receiver owner := by
  have ownNumber (other : method.owner ≠ owner) :
      (if (session.profiles.get? owner).isSome ∧ method.owner ≠ owner then 1 else 0) *
        watched.own receiver owner = watched.own receiver owner := by
    by_cases here : owner = watched.className
    · rw [if_pos ⟨here ▸ known, other⟩, Nat.one_mul]
    · have none : watched.own receiver owner = 0 := if_neg fun both => here both.2
      rw [none, Nat.mul_zero]
  rcases continues with ⟨place, declared⟩ | ⟨root, top⟩
  · obtain ⟨id, found, owned⟩ := completes.target?_of_declared accountable.apart.unregistered declared
    rw [← current] at found
    rw [due_eq_share named found, owned]
    by_cases delegates : method.owner = owner
    · rw [if_neg fun both => both.2 delegates, Nat.zero_mul, Nat.zero_add, delegates]
    · have above := place.resolve_left delegates
      rw [ownNumber delegates]
      by_cases here : owner = watched.className
      · have none : watched.share receiver method.owner = 0 :=
          if_neg fun both => founded.not_inherits above (here ▸ both.2)
        rw [none, Nat.add_zero, here, share_self]
      · have none : watched.own receiver owner = 0 := if_neg fun both => here both.2
        rw [none, Nat.zero_add, share_of_ne here above]
  · have free : session.program.class? method.owner = none :=
      completes.furnishes.furnished.class?_eq_none plain (root ▸ accountable.root)
    have other : method.owner ≠ owner := by
      rintro rfl
      rw [root, accountable.root] at registered
      cases registered
    rw [due_of_target?_none (current ▸ Program.target?_of_unregistered free), Nat.add_zero,
      ownNumber other, share_of_top numbers top]

end Numbering

namespace Run

variable
    {watched : Numbering}
    {settings : Settings}
    {session : Session}
    {world : World}
    {callees : Callees}
    {logs : Logs}
    {actor : Activation}
    {arguments locals changed : List Datum}
    {before after : Machine}
    {value : Datum}
    {acts : List Act}
    {this : LocalId}
    {own : Call}
    {body : Body}

section Bodies

variable
    (balances : callees.Balances watched logs)
    (constructor : watched.original.isConstructor actor.method)
    (received : actor.receiver = some value)
    (through : own.receiver = some this ∧ own.method.name = constructorName)
    (special : own.kind = .special)
include balances constructor received through special

/-- What one instruction of a constructor gives its receiver, besides what is owed anyway. -/
theorem Steps.gives
    {instruction : Instruction}
    (each :
      instruction = body.giving actor.method.owner this ∨ instruction = .invoke own ∨
        instruction.Calm watched actor)
    (declared :
      instruction = body.giving actor.method.owner this →
        declaredField world.program (.ofInstance actor.method.owner serialField .int) =
          .ofInstance actor.method.owner serialField .int)
    (there : locals[this.index]? = some value)
    (steps : Steps world callees logs actor arguments locals before changed after acts instruction)
    (direct : watched.AllDirect acts) :
    watched.given acts =
      watched.owed acts +
        ((if instruction == body.giving actor.method.owner this then 1 else 0) *
            watched.own (some value) actor.method.owner +
          (if instruction == .invoke own then 1 else 0) * watched.due (some value) own.method) := by
  by_cases calls : instruction = .invoke own
  · subst calls
    obtain ⟨result, evaluates, -, rfl⟩ := steps
    obtain ⟨receiver, receives, balance⟩ :=
      callLog_balances balances (fun _ => .inl special) evaluates direct
    rw [through.1] at receives
    obtain ⟨datum, located, rfl⟩ := Option.map_eq_some_iff.1 receives
    obtain rfl := Option.some.inj (there.symm.trans located)
    have other : (Instruction.invoke own == body.giving actor.method.owner this) = false :=
      beq_eq_false_iff_ne.2 nofun
    have due :
        (if actor.builds watched.original watched.slot then watched.due (some value) own.method else 0) =
          watched.due (some value) own.method := by
      by_cases same : value = .reference watched.slot
      · rw [if_pos (by simp [Activation.builds, constructor, received, same])]
      · have none : watched.due (some value) own.method = 0 :=
          if_neg fun both => same (Option.some.inj both.1)
        rw [none, ite_self]
    rw [balance, due, other, beq_self_eq_true, if_neg Bool.false_ne_true, if_pos rfl, Nat.zero_mul,
      Nat.zero_add, Nat.one_mul]
  · have other : (instruction == .invoke own) = false := beq_eq_false_iff_ne.2 calls
    rw [other, if_neg Bool.false_ne_true, Nat.zero_mul, Nat.add_zero]
    by_cases gives : instruction = body.giving actor.method.owner this
    · subst gives
      obtain ⟨computed, middle, evaluates, ⟨slot, heap, refers, -⟩, rfl⟩ := steps
      obtain rfl := Option.some.inj (there.symm.trans refers)
      have written :
          placeLog world logs actor locals middle
            (.instanceField this (.ofInstance actor.method.owner serialField .int)) =
            [.accesses actor .write slot (.ofInstance actor.method.owner serialField .int)] := by
        rw [placeLog, accessLog_of_reference refers, declared rfl]
      have nothing :
          valueLog world logs actor locals (counted before) (.variable ⟨body.locals.length⟩) = [] :=
        rfl
      rw [written, nothing, List.nil_append, Numbering.given_write, Numbering.owed_accesses,
        beq_self_eq_true, if_pos rfl, Nat.one_mul, Nat.zero_add]
    · have calm := (each.resolve_left gives).resolve_left calls
      rw [beq_eq_false_iff_ne.2 gives, if_neg Bool.false_ne_true, Nat.zero_mul, Nat.add_zero]
      exact steps.balanced balances calm direct

/-- The same for instructions in a row: it comes to a number of its own for each time that one is given,
and to what is due for each call. -/
theorem Passes.gives
    {list : List Instruction}
    (each :
      ∀ instruction ∈ list,
        instruction = body.giving actor.method.owner this ∨ instruction = .invoke own ∨
          instruction.Calm watched actor)
    (declared :
      body.giving actor.method.owner this ∈ list →
        declaredField world.program (.ofInstance actor.method.owner serialField .int) =
          .ofInstance actor.method.owner serialField .int)
    (keeps : ∀ instruction ∈ list, instruction.assigned? ≠ some this)
    (there : locals[this.index]? = some value)
    (passes : Passes world callees logs actor arguments locals before changed after acts list)
    (direct : watched.AllDirect acts) :
    watched.given acts =
      watched.owed acts +
        (list.count (body.giving actor.method.owner this) *
            watched.own (some value) actor.method.owner +
          list.count (.invoke own) * watched.due (some value) own.method) := by
  induction list generalizing locals before acts with
  | nil =>
    obtain ⟨-, -, rfl⟩ := passes
    simp [Numbering.given, Numbering.owed, numbered]
  | cons instruction rest hypothesis =>
    obtain ⟨next, between, first, others, steps, passes, rfl⟩ := passes
    have single :
        Passes world callees logs actor arguments locals before next between first [instruction] :=
      ⟨next, between, first, [], steps, ⟨rfl, rfl, rfl⟩, (List.append_nil first).symm⟩
    have stays : next[this.index]? = some value := by
      rw [single.keeps_local fun other member => keeps other (by
        rw [List.mem_singleton.1 member]
        exact List.mem_cons_self), there]
    have here := steps.gives balances constructor received through special
      (each instruction List.mem_cons_self) (fun same => declared (same ▸ List.mem_cons_self)) there
      direct.left
    have behind := hypothesis (fun other member => each other (List.mem_cons_of_mem _ member))
      (fun member => declared (List.mem_cons_of_mem _ member))
      (fun other member => keeps other (List.mem_cons_of_mem _ member)) stays passes direct.right
    rw [Numbering.given_append, Numbering.owed_append, here, behind, List.count_cons, List.count_cons,
      Nat.add_mul, Nat.add_mul]
    omega

end Bodies

section Constructors

variable
    (runs : world.RunsCounted settings watched.original session)
    (once : watched.original.ConstructsOnce)
    (constructor : watched.original.isConstructor actor.method)
    {entered : Body}
    (found : session.program.body? actor.method = some entered)
include runs once constructor found

/-- The body of a constructor of a program with counting. -/
theorem exists_construction :
    ∃ this own body front rest, watched.original.body? actor.method = some body ∧
      watched.original.Constructs actor.method.owner this own body ∧
      entered.instructions = front ++ rest ∧
      Construction watched actor this own (body.giving actor.method.owner this)
        (if (session.profiles.get? actor.method.owner).isSome ∧
            own.method.owner ≠ actor.method.owner then 1 else 0)
        front rest := by
  obtain ⟨method, has, constructs⟩ := (Option.any_eq_true _ _).1 constructor
  obtain ⟨declaration, declares, located⟩ := Option.bind_eq_some_iff.1 has
  have differs : actor.method.owner ≠ settings.counterClassName := by
    rintro same
    rw [same, runs.accountable.apart.unregistered] at declares
    cases declares
  obtain ⟨current, there, given⟩ := Option.bind_eq_some_iff.1 found
  obtain ⟨changed, thereToo, related⟩ :=
    runs.completes.furnishes.furnished.method?_eq_some differs has
  obtain rfl := Option.some.inj (there.symm.trans thereToo)
  obtain ⟨body, bodied, tallied⟩ := runs.completes.exists_rewritten related given
  obtain ⟨written, bodies⟩ := once.constructors _ (Program.mem_entries_of_class? declares) method
    (List.mem_of_getElem? located) constructs
  obtain ⟨this, received, own, -, constructs'⟩ := bodies body bodied
  have present : watched.original.body? actor.method = some body :=
    Option.bind_eq_some_iff.2 ⟨method, has, bodied⟩
  rw [Session.patching_instructions_of_constructor
    (Session.withProfiles settings watched.original session.profiles) has constructs written
    constructs'.received] at tallied
  obtain ⟨front, rest, split, construction⟩ :=
    Construction.of_rewritten runs.completes runs.accountable.apart once present constructs' tallied
  exact ⟨this, own, body, front, rest, present, constructs', split, construction⟩

variable
    (current : watched.current = session.program)
    (balances : callees.Balances watched logs)
    (ends :
      Ends (instructions world callees actor.receiver arguments locals entered.instructions) before value
        after)
include current balances ends

variable (actor) in
/-- The superclasses of a class come to an end if a constructor of it does. -/
theorem constructor_founded : watched.original.Founded actor.method.owner := by
  obtain ⟨this, own, body, front, rest, present, constructs, split, construction⟩ :=
    exists_construction runs once constructor found
  obtain ⟨changed, between, passes, -, -⟩ := passes_of_ends logs ends
  rw [split, reached_append construction.straight] at passes
  have made : .invoke own ∈ reached rest := by
    refine List.count_pos_iff.1 ?_
    rw [construction.calls]
    exact Nat.one_pos
  obtain ⟨receiver, given, started, ended, result, called⟩ :=
    passes.call_ends (List.mem_append_right _ made)
  have special : own.kind = .special :=
    once.special body (Program.mem_bodies_of_body? present) _ (mem_of_mem_reached constructs.reached)
      own rfl constructs.through.2
  rw [special] at called
  rcases constructs.continues with ⟨place, declared⟩ | ⟨-, top⟩
  · obtain ⟨id, leads, owned⟩ :=
      runs.completes.target?_of_declared runs.accountable.apart.unregistered declared
    have founded := balances.founded called constructs.through.2 (current ▸ leads)
    rw [owned] at founded
    rcases place with same | above
    · exact same ▸ founded
    · refine Program.founded_iff.2 fun superclass higher => ?_
      rw [above] at higher
      exact Option.some.inj higher ▸ founded
  · refine Program.founded_iff.2 fun superclass above => Program.founded_iff.2 fun upper higher => ?_
    rw [above, Option.bind_some, Option.isNone_iff_eq_none] at top
    rw [Program.superclass?_eq_none top] at higher
    cases higher

/-- A constructor gives its receiver what its class owes it. -/
theorem constructor_gives
    (known : (session.profiles.get? watched.className).isSome)
    (direct :
      watched.AllDirect
        (instructionsLog world callees logs actor arguments locals before entered.instructions)) :
    watched.given (instructionsLog world callees logs actor arguments locals before entered.instructions) =
      watched.owed
          (instructionsLog world callees logs actor arguments locals before entered.instructions) +
        watched.share actor.receiver actor.method.owner := by
  have founded := constructor_founded actor runs once constructor found current balances ends
  obtain ⟨this, own, body, front, rest, present, constructs, split, construction⟩ :=
    exists_construction runs once constructor found
  obtain ⟨changed, between, passes, -, -⟩ := passes_of_ends logs ends
  generalize instructionsLog world callees logs actor arguments locals before entered.instructions =
    acts at passes direct ⊢
  rw [split, reached_append construction.straight] at passes
  obtain ⟨next, middle, first, others, opens, later, rfl⟩ := passes_append.1 passes
  obtain ⟨type, bound⟩ := construction.bound
  obtain ⟨datum, received, there⟩ := opens.binds_receiver bound construction.once
  have listed := Program.mem_bodies_of_body? present
  have special : own.kind = .special :=
    once.special body listed _ (mem_of_mem_reached constructs.reached) own rfl constructs.through.2
  have front := opens.balanced balances construction.opens direct.left
  have plain : own.method.Plain settings.counterClassName :=
    runs.accountable.apart.instruction_plain listed (mem_of_mem_reached constructs.reached)
  have registered : (watched.original.class? actor.method.owner).isSome := by
    obtain ⟨method, has, -⟩ := Option.bind_eq_some_iff.1 present
    obtain ⟨declaration, declares, -⟩ := Option.bind_eq_some_iff.1 has
    rw [declares]
    rfl
  have numbers : (watched.original.class? watched.className).isSome := by
    obtain ⟨profile, profiled⟩ := Option.isSome_iff_exists.1 known
    have transformable := runs.completes.furnishes.profiled _ _ profiled
    rw [Session.isTransformableClass, Bool.and_eq_true] at transformable
    obtain ⟨declaration, declares, -⟩ := (Option.any_eq_true _ _).1 transformable.2
    have declares : watched.original.class? watched.className = some declaration := declares
    rw [declares]
    rfl
  have rest := later.gives balances constructor received constructs.through special
    (fun instruction member => construction.each instruction (mem_of_mem_reached member))
    (fun member => by
      have times := List.count_pos_iff.2 member
      rw [construction.gives] at times
      have profiled : (session.profiles.get? actor.method.owner).isSome := by
        by_contra unknown
        rw [if_neg fun both => unknown both.1] at times
        exact Nat.lt_irrefl 0 times
      obtain ⟨profile, profiled⟩ := Option.isSome_iff_exists.1 profiled
      rw [runs.same]
      exact declaredField_of_declaredField? (runs.completes.declaredField?_profile
        runs.accountable.apart runs.accountable.wellNamed profiled
        (show isInstrumentationName serialField = true by decide)))
    (fun instruction member => construction.keeps instruction (mem_of_mem_reached member)) there
    direct.right
  rw [construction.gives, construction.calls, Nat.one_mul,
    Numbering.share_eq runs.completes runs.accountable current known numbers registered founded
      constructs.through.2 plain.1 constructs.continues] at rest
  rw [Numbering.given_append, Numbering.owed_append, front, rest, received]
  omega

end Constructors
end Run
end AccessProfiler
