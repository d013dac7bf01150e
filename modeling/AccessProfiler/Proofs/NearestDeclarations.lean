import AccessProfiler.Proofs.Reachability
import AccessProfiler.Proofs.Searches

/-!
# The nearest declaration

The superclass chain of a class ends at a class that is not registered or has no superclass, or it does not
end.  If it ends within the limit, the search for a member goes along the whole chain, and a search for a
method goes on with the interfaces above it.  These are visited in layers: while the names that are reached
in a number of steps are taken off the queue, those that are reached in one more are put at its end
(`Layered`).  So whatever is visited later is not nearer (`exists_steps_of_walk`), and the search ends at a
declaration with the fewest steps (`resolve_finds_nearest`).

The search can also be run as one loop, which gathers interfaces while it climbs the chain, counts how far
it may still climb and takes off the interfaces once it has come to the top (`climb`, `searchOut`).  It has
no other limit and comes to an end on cyclic hierarchies as well.
-/

namespace AccessProfiler

/-- The first item of the list for which the condition holds. -/
def IsFirst {Item : Type} (holds : Item → Prop) (list : List Item) (item : Item) : Prop :=
  ∃ before after, list = before ++ item :: after ∧ holds item ∧ ∀ earlier ∈ before, ¬ holds earlier

theorem find?_eq_some_iff_isFirst
    {Item : Type}
    {holds : Item → Prop}
    {test : Item → Bool}
    {list : List Item}
    {item : Item}
    (tests : ∀ other, test other ↔ holds other) :
    list.find? test = some item ↔ IsFirst holds list item := by
  rw [List.find?_eq_some_iff_append]
  simp only [IsFirst, ← tests]
  constructor
  · rintro ⟨found, before, after, rfl, missed⟩
    exact ⟨before, after, rfl, found, fun earlier member => by simpa using missed earlier member⟩
  · rintro ⟨before, after, rfl, found, missed⟩
    exact ⟨found, before, after, rfl, fun earlier member => by simpa using missed earlier member⟩

/-- A search ends with what the first item has for which there is anything. -/
theorem findSome?_eq_some_iff_isFirst
    {Item Result : Type}
    {has : Item → Result → Prop}
    {value : Item → Option Result}
    {list : List Item}
    {result : Result}
    (values : ∀ item result, value item = some result ↔ has item result) :
    list.findSome? value = some result ↔
      ∃ item, IsFirst (fun other => ∃ result, has other result) list item ∧ has item result := by
  rw [List.findSome?_eq_some_iff]
  simp only [IsFirst, ← values]
  constructor
  · rintro ⟨before, item, after, rfl, found, missed⟩
    refine ⟨item, ⟨before, after, rfl, ⟨result, found⟩, fun earlier member => ?_⟩, found⟩
    rintro ⟨other, valued⟩
    rw [missed earlier member] at valued
    cases valued
  · rintro ⟨item, ⟨before, after, rfl, -, missed⟩, found⟩
    refine ⟨before, item, after, rfl, found, fun earlier member => ?_⟩
    exact Option.eq_none_iff_forall_ne_some.2 fun other valued => missed earlier member ⟨other, valued⟩

namespace Program

/-- The classes from the given one up to one that is not registered or has no superclass. -/
inductive SuperclassChain (program : Program) : String → List String → Prop
  | last {name : String} (top : program.superclass? name = none) : SuperclassChain program name [name]
  | step
      {name upper : String}
      {chain : List String}
      (above : program.superclass? name = some upper)
      (rest : SuperclassChain program upper chain) :
      SuperclassChain program name (name :: chain)

/-- Reached from one of the names along so many edges. -/
inductive ReachedIn (next : String → List String) (start : List String) : Nat → String → Prop
  | here {name : String} (member : name ∈ start) : ReachedIn next start 0 name
  | step
      {steps : Nat}
      {lower upper : String}
      (reached : ReachedIn next start steps lower)
      (edge : upper ∈ next lower) :
      ReachedIn next start (steps + 1) upper

/-- The class registered under the name declares the field; the first one of the name counts. -/
def DeclaresField (program : Program) (name owner : String) (reference : FieldRef) : Prop :=
  ∃ declaration field, program.class? owner = some declaration ∧
    IsFirst (fun other : Field => other.name = name) declaration.fields field ∧
    field.reference declaration.name = reference

/-- The class registered under the name declares the method; the first one of the name and the parameter
types counts. -/
def DeclaresMethod
    (program : Program)
    (name : String)
    (parameters : List Ty)
    (owner : String)
    (found : String × Method) : Prop :=
  found.1 = owner ∧ ∃ declaration, program.class? owner = some declaration ∧
    IsFirst (fun other : Method => other.name = name ∧ other.parameters = parameters)
      declaration.methods found.2

/-- The class registered under the name declares a field of the given name. -/
def HoldsField (program : Program) (name owner : String) : Prop :=
  ∃ reference, program.DeclaresField name owner reference

/-- The class registered under the name declares a method of the given name and parameter types. -/
def HoldsMethod (program : Program) (name : String) (parameters : List Ty) (owner : String) : Prop :=
  ∃ found, program.DeclaresMethod name parameters owner found

/-- Climb the superclass chain, by no more than so many steps, and gather the interfaces on the way.  At the
top, what is still missing is up to the interfaces that were gathered. -/
def climb
    {Result : Type}
    (program : Program)
    (declared : String → Option Result)
    (otherwise : List String → Option Result) :
    Nat → List String → String → Option Result
  | left, gathered, name =>
    match declared name with
    | some found => some found
    | none =>
      match left, program.superclass? name with
      | 0, _ => none
      | _ + 1, none => otherwise (gathered ++ program.interfaces name)
      | left + 1, some upper =>
        program.climb declared otherwise left (gathered ++ program.interfaces name) upper

/-- Search the interfaces in the queue and those above them, each one once. -/
def searchOut
    {Result : Type}
    (program : Program)
    (declared : String → Option Result)
    (seen : List String) :
    List String → Option Result
  | [] => none
  | name :: queue =>
    if name ∈ seen then program.searchOut declared seen queue
    else
      match declared name with
      | some found => some found
      | none => program.searchOut declared (name :: seen) (queue ++ program.interfaces name)
termination_by queue => queue.length + pendingEdges program.entries seen
decreasing_by
  · simp only [List.length_cons]
    omega
  · rename_i fresh
    have enough :
        (name :: queue).length + pendingEdges program.entries seen <
          (name :: queue).length + pendingEdges program.entries seen + 1 :=
      Nat.lt_succ_self _
    exact enough_of_visit program.follows_interfaces fresh enough

section Declarations

variable {program : Program} {name owner : String} {parameters : List Ty}

theorem declaredField?_eq_some_iff {reference : FieldRef} :
    program.declaredField? owner name = some reference ↔
      program.DeclaresField name owner reference := by
  simp only [declaredField?, DeclaresField, Option.bind_eq_some_iff, Option.map_eq_some_iff,
    Class.field?, find?_eq_some_iff_isFirst fun other : Field => beq_iff_eq]
  constructor
  · rintro ⟨declaration, located, field, first, rfl⟩
    exact ⟨declaration, field, located, first, rfl⟩
  · rintro ⟨declaration, field, located, first, rfl⟩
    exact ⟨declaration, located, field, first, rfl⟩

theorem declaredMethod?_eq_some_iff {found : String × Method} :
    program.declaredMethod? owner name parameters = some found ↔
      program.DeclaresMethod name parameters owner found := by
  have fits (other : Method) :
      other.fits name parameters ↔ other.name = name ∧ other.parameters = parameters := by
    simp [Method.fits]
  obtain ⟨holder, method⟩ := found
  simp only [declaredMethod?, DeclaresMethod, Option.bind_eq_some_iff, Option.map_eq_some_iff,
    Class.method?, find?_eq_some_iff_isFirst fits, Prod.mk.injEq]
  constructor
  · rintro ⟨declaration, located, chosen, first, rfl, rfl⟩
    exact ⟨rfl, declaration, located, first⟩
  · rintro ⟨rfl, declaration, located, first⟩
    exact ⟨declaration, located, method, first, rfl, rfl⟩

/-- A chain that ends is not cut by a limit that it does not exceed. -/
theorem SuperclassChain.chainUpTo_eq
    {chain : List String}
    (ends : program.SuperclassChain owner chain)
    {limit : Nat}
    (short : chain.length ≤ limit) :
    program.chainUpTo limit owner = chain := by
  induction ends generalizing limit with
  | last top =>
    cases limit with
    | zero => cases short
    | succ limit => rw [chainUpTo, top]
  | step above _ hypothesis =>
    cases limit with
    | zero => cases short
    | succ limit =>
      rw [chainUpTo, above]
      exact congrArg _ (hypothesis (Nat.le_of_succ_le_succ short))

theorem SuperclassChain.chain_eq
    {chain : List String}
    (ends : program.SuperclassChain owner chain)
    (short : chain.length ≤ 256) :
    program.chain owner = chain :=
  ends.chainUpTo_eq (Nat.le_succ_of_le short)

end Declarations

/-- The names in front of the queue are reached in so many steps, those behind them in one more.  What is
nearer was seen, what is as near was seen or is in front, and what was seen leads nowhere else. -/
structure Layered
    (next : String → List String)
    (start : List String)
    (steps : Nat)
    (seen front back : List String) : Prop where
  front_reached : ∀ name ∈ front, ReachedIn next start steps name
  back_reached : ∀ name ∈ back, ReachedIn next start (steps + 1) name
  nearer : ∀ fewer < steps, ∀ name, ReachedIn next start fewer name → name ∈ seen
  near : ∀ name, ReachedIn next start steps name → name ∈ seen ∨ name ∈ front
  closed : ∀ name ∈ seen, ∀ upper ∈ next name, upper ∈ seen ∨ upper ∈ front ∨ upper ∈ back

section Layers

variable
    {next : String → List String}
    {start seen front back : List String}
    {steps : Nat}
    {name : String}

namespace Layered

theorem begin : Layered next start 0 [] start [] where
  front_reached _ member := .here member
  back_reached _ member := (List.not_mem_nil member).elim
  nearer _ fewer := (Nat.not_lt_zero _ fewer).elim
  near _ reached := by
    cases reached with
    | here member => exact .inr member
  closed _ member := (List.not_mem_nil member).elim

/-- When a layer has been seen, the next one comes to the front. -/
theorem advance (layered : Layered next start steps seen [] back) :
    Layered next start (steps + 1) seen back [] where
  front_reached := layered.back_reached
  back_reached _ member := (List.not_mem_nil member).elim
  nearer fewer less name reached := by
    rcases Nat.lt_succ_iff_lt_or_eq.1 less with nearer | rfl
    · exact layered.nearer fewer nearer name reached
    · exact (layered.near name reached).resolve_right List.not_mem_nil
  near upper reached := by
    cases reached with
    | step reached edge =>
      have seenLower := (layered.near _ reached).resolve_right List.not_mem_nil
      have known := layered.closed _ seenLower upper edge
      simpa using known
  closed lower member upper edge := by
    have known := layered.closed lower member upper edge
    simpa using known

/-- A name that was seen can be taken off. -/
theorem skip
    (layered : Layered next start steps seen (name :: front) back)
    (known : name ∈ seen) :
    Layered next start steps seen front back where
  front_reached other member := layered.front_reached other (List.mem_cons_of_mem _ member)
  back_reached := layered.back_reached
  nearer := layered.nearer
  near other reached := by
    rcases layered.near other reached with earlier | queued
    · exact .inl earlier
    · rcases List.mem_cons.1 queued with rfl | later
      · exact .inl known
      · exact .inr later
  closed lower member upper edge := by
    rcases layered.closed lower member upper edge with earlier | queued | behind
    · exact .inl earlier
    · rcases List.mem_cons.1 queued with rfl | later
      · exact .inl known
      · exact .inr (.inl later)
    · exact .inr (.inr behind)

/-- What a name leads to is queued in the next layer when the name is visited. -/
theorem visit (layered : Layered next start steps seen (name :: front) back) :
    Layered next start steps (name :: seen) front (back ++ next name) where
  front_reached other member := layered.front_reached other (List.mem_cons_of_mem _ member)
  back_reached other member := by
    rcases List.mem_append.1 member with behind | added
    · exact layered.back_reached other behind
    · exact .step (layered.front_reached name List.mem_cons_self) added
  nearer fewer less other reached :=
    List.mem_cons_of_mem _ (layered.nearer fewer less other reached)
  near other reached := by
    have known := layered.near other reached
    simp only [List.mem_cons] at known ⊢
    tauto
  closed lower member upper edge := by
    rcases List.mem_cons.1 member with rfl | earlier
    · exact .inr (.inr (List.mem_append_right _ edge))
    · have known := layered.closed lower earlier upper edge
      simp only [List.mem_cons, List.mem_append] at known ⊢
      tauto

/-- The first name of the queue is in front of its layer. -/
theorem exists_front
    {queue : List String}
    (layered : Layered next start steps seen front back)
    (queued : front ++ back = name :: queue) :
    ∃ steps front back, queue = front ++ back ∧
      Layered next start steps seen (name :: front) back := by
  cases front with
  | cons first front =>
    obtain ⟨rfl, rfl⟩ := List.cons.inj queued
    exact ⟨steps, front, back, rfl, layered⟩
  | nil =>
    rw [List.nil_append] at queued
    subst queued
    exact ⟨steps + 1, queue, [], (List.append_nil queue).symm, layered.advance⟩

end Layered

/-- A walk comes by what is nearer before it comes by a name. -/
theorem exists_steps_of_walk
    {limit : Nat}
    {before after : List String}
    (layered : Layered next start steps seen front back)
    (visits : walk next limit seen (front ++ back) = before ++ name :: after) :
    ∃ steps, ReachedIn next start steps name ∧
      ∀ fewer < steps, ∀ other, ReachedIn next start fewer other → other ∈ seen ∨ other ∈ before := by
  induction limit generalizing steps seen front back before with
  | zero => simp [walk] at visits
  | succ limit hypothesis =>
    cases queued : front ++ back with
    | nil =>
      rw [queued] at visits
      simp [walk] at visits
    | cons first queue =>
      obtain ⟨steps, front, back, rfl, layered⟩ := layered.exists_front queued
      rw [queued, walk] at visits
      split at visits
      · rename_i known
        exact hypothesis (layered.skip (List.contains_iff_mem.1 known)) visits
      · rw [List.append_assoc] at visits
        cases before with
        | nil =>
          obtain ⟨rfl, -⟩ := List.cons.inj visits
          exact ⟨steps, layered.front_reached _ List.mem_cons_self,
            fun fewer less other reached => .inl (layered.nearer fewer less other reached)⟩
        | cons visited before =>
          obtain ⟨rfl, further⟩ := List.cons.inj visits
          obtain ⟨steps, reached, nearer⟩ := hypothesis layered.visit further
          refine ⟨steps, reached, fun fewer less other reachedOther => ?_⟩
          have known := nearer fewer less other reachedOther
          simp only [List.mem_cons] at known ⊢
          tauto

end Layers

section Interfaces

variable {program : Program} {start : List String} {name : String}

/-- The walk comes by the interfaces that are reached in any number of steps. -/
theorem mem_interfacesAbove_iff :
    name ∈ program.interfacesAbove start ↔ ∃ steps, ReachedIn program.interfaces start steps name := by
  constructor
  · refine within_of_mem_walk (fun name => ∃ steps, ReachedIn program.interfaces start steps name) ?_ ?_
    · rintro lower ⟨steps, reached⟩ upper edge
      exact ⟨steps + 1, .step reached edge⟩
    · exact fun name member => ⟨0, .here member⟩
  · rintro ⟨steps, reached⟩
    obtain ⟨visits, closed⟩ := walk_closed program.follows_interfaces (program.enough_walkLimit start)
    induction reached with
    | here member => exact (visits _ member).resolve_left List.not_mem_nil
    | step _ edge visited => exact (closed _ visited _ edge).resolve_left List.not_mem_nil

variable
    {Result : Type}
    {has : String → Result → Prop}
    {declared : String → Option Result}
    {found : Result}
    (values : ∀ name result, declared name = some result ↔ has name result)
include values

/-- The search through interfaces ends at one that is nearest among those with a declaration. -/
theorem exists_nearest_of_interfacesAbove
    (search : (program.interfacesAbove start).findSome? declared = some found) :
    ∃ holder steps, has holder found ∧ ReachedIn program.interfaces start steps holder ∧
      ∀ fewer < steps, ∀ other, ReachedIn program.interfaces start fewer other →
        ¬ ∃ result, has other result := by
  obtain ⟨holder, ⟨before, after, visits, -, missed⟩, holds⟩ :=
    (findSome?_eq_some_iff_isFirst values).1 search
  have visitsQueue : walk program.interfaces (program.walkLimit start) [] (start ++ []) =
      before ++ holder :: after := by
    rw [List.append_nil]
    exact visits
  obtain ⟨steps, reached, nearer⟩ := exists_steps_of_walk Layered.begin visitsQueue
  refine ⟨holder, steps, holds, reached, fun fewer less other reachedOther => ?_⟩
  exact missed other ((nearer fewer less other reachedOther).resolve_left List.not_mem_nil)

/-- The search through interfaces fails exactly if none that is reached has a declaration. -/
theorem interfacesAbove_findSome?_eq_none_iff :
    (program.interfacesAbove start).findSome? declared = none ↔
      ∀ steps name, ReachedIn program.interfaces start steps name → ¬ ∃ result, has name result := by
  rw [List.findSome?_eq_none_iff]
  simp only [mem_interfacesAbove_iff, Option.eq_none_iff_forall_ne_some, ne_eq, values]
  constructor
  · rintro missed steps name reached ⟨result, holds⟩
    exact missed name ⟨steps, reached⟩ result holds
  · rintro missed name ⟨steps, reached⟩ result holds
    exact missed steps name reached ⟨result, holds⟩

end Interfaces

section Loops

variable
    {Result : Type}
    {program : Program}
    {declared : String → Option Result}
    {otherwise : List String → Option Result}

/-- The loop through the queue finds what the walk comes to first. -/
theorem searchOut_eq
    {seen queue : List String}
    {limit : Nat}
    (enough : queue.length + pendingEdges program.entries seen < limit) :
    program.searchOut declared seen queue =
      (walk program.interfaces limit seen queue).findSome? declared := by
  fun_induction searchOut program declared seen queue generalizing limit with
  | case1 seen => cases limit <;> rfl
  | case2 seen name queue known hypothesis =>
    cases limit with
    | zero => cases enough
    | succ limit =>
      rw [walk, if_pos (List.contains_iff_mem.2 known)]
      rw [List.length_cons] at enough
      exact hypothesis (by omega)
  | case3 seen name queue fresh found valued =>
    cases limit with
    | zero => cases enough
    | succ limit => rw [walk, if_neg (by simpa using fresh), List.findSome?_cons, valued]
  | case4 seen name queue fresh missed hypothesis =>
    cases limit with
    | zero => cases enough
    | succ limit =>
      rw [walk, if_neg (by simpa using fresh), List.findSome?_cons, missed]
      exact hypothesis (enough_of_visit program.follows_interfaces fresh enough)

theorem searchOut_eq_interfacesAbove (start : List String) :
    program.searchOut declared [] start = (program.interfacesAbove start).findSome? declared :=
  searchOut_eq (program.enough_walkLimit start)

/-- The loop up the chain finds what the chain has first.  It leaves the rest to the interfaces of all
classes of the chain, unless the chain was cut. -/
theorem climb_eq (left : Nat) (gathered : List String) (name : String) :
    program.climb declared otherwise left gathered name =
      (((program.chainUpTo (left + 1) name).findSome? declared).or
        (if (program.chainUpTo (left + 1) name).length < left + 1 then
          otherwise (gathered ++ (program.chainUpTo (left + 1) name).flatMap program.interfaces)
        else none)) := by
  induction left generalizing gathered name with
  | zero =>
    unfold climb chainUpTo
    cases program.superclass? name <;> cases found : declared name <;> simp [chainUpTo, found]
  | succ left hypothesis =>
    unfold climb
    rw [chainUpTo]
    cases found : declared name with
    | some found => simp [found]
    | none =>
      cases above : program.superclass? name with
      | none => simp [found]
      | some upper =>
        dsimp only
        rw [hypothesis, List.findSome?_cons, found]
        simp only [List.length_cons, List.flatMap_cons, List.append_assoc, Nat.succ_lt_succ_iff]

theorem resolveField?_eq_climb (program : Program) (owner name : String) :
    program.resolveField? owner name =
      program.climb (program.declaredField? · name) (fun _ => none) 256 [] owner := by
  rw [climb_eq, ite_self, Option.or_none]
  rfl

theorem resolveMethod?_eq_climb
    (program : Program)
    (owner name : String)
    (parameters : List Ty) :
    program.resolveMethod? owner name parameters =
      program.climb (program.declaredMethod? · name parameters)
        (program.searchOut (program.declaredMethod? · name parameters) []) 256 [] owner := by
  rw [climb_eq, resolveMethod?_eq_findSome?, searched, List.findSome?_append, List.nil_append,
    searchOut_eq_interfacesAbove,
    apply_ite (List.findSome? fun ancestor => program.declaredMethod? ancestor name parameters)]
  rfl

end Loops

section Resolution

variable {program : Program} {owner : String} {chain : List String}

theorem resolveField?_eq_some_iff
    (ends : program.SuperclassChain owner chain)
    (short : chain.length ≤ 256)
    (name : String)
    (reference : FieldRef) :
    program.resolveField? owner name = some reference ↔
      ∃ ancestor, IsFirst (program.HoldsField name) chain ancestor ∧
        program.DeclaresField name ancestor reference := by
  rw [resolveField?, ends.chain_eq short]
  exact findSome?_eq_some_iff_isFirst fun _ _ => declaredField?_eq_some_iff

theorem resolveField?_eq_none_iff
    (ends : program.SuperclassChain owner chain)
    (short : chain.length ≤ 256)
    (name : String) :
    program.resolveField? owner name = none ↔
      ∀ ancestor ∈ chain, ¬ program.HoldsField name ancestor := by
  rw [resolveField?, ends.chain_eq short, List.findSome?_eq_none_iff]
  simp only [HoldsField, ← declaredField?_eq_some_iff, Option.eq_none_iff_forall_ne_some, not_exists,
    ne_eq]

variable {name : String} {parameters : List Ty}

/-- A short chain is searched first and as a whole, then the interfaces above it. -/
theorem resolveMethod?_of_superclassChain
    (ends : program.SuperclassChain owner chain)
    (short : chain.length ≤ 256) :
    program.resolveMethod? owner name parameters =
      (chain.findSome? fun ancestor => program.declaredMethod? ancestor name parameters).or
        ((program.interfacesAbove (chain.flatMap program.interfaces)).findSome? fun ancestor =>
          program.declaredMethod? ancestor name parameters) := by
  have notCut : chain.length < chainLimit := Nat.lt_succ_of_le short
  rw [resolveMethod?_eq_findSome?, searched, ends.chain_eq short, if_pos notCut, List.findSome?_append]

theorem chain_findSome?_eq_none_iff :
    (chain.findSome? fun ancestor => program.declaredMethod? ancestor name parameters) = none ↔
      ∀ ancestor ∈ chain, ¬ program.HoldsMethod name parameters ancestor := by
  rw [List.findSome?_eq_none_iff]
  simp only [HoldsMethod, ← declaredMethod?_eq_some_iff, Option.eq_none_iff_forall_ne_some, not_exists,
    ne_eq]

end Resolution

/-- If the superclass chain of a class ends within the limit, a field is resolved to its first declaration
along the chain, and a method to its first declaration along the chain or else to one on an interface that
is reached from those of the chain in the fewest steps; nothing is found only if there is none.  Whatever
the hierarchy, both searches are loops that come to an end. -/
theorem resolve_finds_nearest (program : Program) (owner : String) :
    (∀ chain, program.SuperclassChain owner chain → chain.length ≤ 256 →
      (∀ name,
        (∀ reference, program.resolveField? owner name = some reference ↔
          ∃ ancestor, IsFirst (program.HoldsField name) chain ancestor ∧
            program.DeclaresField name ancestor reference) ∧
        (program.resolveField? owner name = none ↔
          ∀ ancestor ∈ chain, ¬ program.HoldsField name ancestor)) ∧
      ∀ name parameters,
        (∀ ancestor found, IsFirst (program.HoldsMethod name parameters) chain ancestor →
          program.DeclaresMethod name parameters ancestor found →
          program.resolveMethod? owner name parameters = some found) ∧
        ((∀ ancestor ∈ chain, ¬ program.HoldsMethod name parameters ancestor) →
          let reached := ReachedIn program.interfaces (chain.flatMap program.interfaces)
          (∀ found, program.resolveMethod? owner name parameters = some found →
            ∃ holder steps, program.DeclaresMethod name parameters holder found ∧
              reached steps holder ∧
              ∀ fewer < steps, ∀ other, reached fewer other →
                ¬ program.HoldsMethod name parameters other) ∧
          (program.resolveMethod? owner name parameters = none ↔
            ∀ steps interface, reached steps interface →
              ¬ program.HoldsMethod name parameters interface))) ∧
      (∀ name, program.resolveField? owner name =
        program.climb (program.declaredField? · name) (fun _ => none) 256 [] owner) ∧
      ∀ name parameters, program.resolveMethod? owner name parameters =
        program.climb (program.declaredMethod? · name parameters)
          (program.searchOut (program.declaredMethod? · name parameters) []) 256 [] owner := by
  refine ⟨fun chain ends short => ⟨fun name => ⟨resolveField?_eq_some_iff ends short name,
    resolveField?_eq_none_iff ends short name⟩, fun name parameters => ⟨?declared, ?inherited⟩⟩,
    program.resolveField?_eq_climb owner, program.resolveMethod?_eq_climb owner⟩
  case declared =>
    intro ancestor found first declares
    have search := (findSome?_eq_some_iff_isFirst fun _ _ => declaredMethod?_eq_some_iff).2
      ⟨ancestor, first, declares⟩
    rw [resolveMethod?_of_superclassChain ends short, search, Option.some_or]
  case inherited =>
    intro missed
    rw [resolveMethod?_of_superclassChain ends short, chain_findSome?_eq_none_iff.2 missed,
      Option.none_or]
    exact ⟨fun found => exists_nearest_of_interfacesAbove fun _ _ => declaredMethod?_eq_some_iff,
      interfacesAbove_findSome?_eq_none_iff fun _ _ => declaredMethod?_eq_some_iff⟩

/-- A class below another one, and interfaces above them that name each other.  Two of the interfaces
declare the method; the search comes later by the one that is named deeper. -/
def shelfProgram : Program where
  entries :=
    let noted : Method := ⟨"note", [], .object "java.lang.String", Method.abstract, none⟩
    let interface (name : String) (above : List String) (methods : List Method) : Class :=
      { name := name
        superclass := none
        interfaces := above
        kind := .application
        flags := Class.interfaceFlag.union Class.abstractFlag
        fields := []
        methods := methods }
    [("shop.Book",
      { name := "shop.Book"
        superclass := some "shop.Item"
        interfaces := ["shop.Labelled"]
        kind := .application
        flags := ⟨0⟩
        fields := []
        methods := [] }),
      ("shop.Item",
      { name := "shop.Item"
        superclass := some "lib.Thing"
        interfaces := ["shop.Sold"]
        kind := .application
        flags := ⟨0⟩
        fields := [⟨"price", .int, ⟨0⟩⟩]
        methods := [] }),
      ("shop.Labelled", interface "shop.Labelled" ["shop.Noted", "shop.Sold"] []),
      ("shop.Noted", interface "shop.Noted" ["shop.Labelled"] [noted]),
      ("shop.Sold", interface "shop.Sold" ["shop.Labelled"] [noted])]
  distinct := by
    show ["shop.Book", "shop.Item", "shop.Labelled", "shop.Noted", "shop.Sold"].Nodup
    decide

/-- The chain ends at a class that is not registered.  The field is found on it, and the method on the nearer
of the two interfaces. -/
theorem shelfProgram_finds_nearest :
    ∃ chain, shelfProgram.SuperclassChain "shop.Book" chain ∧ chain.length ≤ 256 ∧
      IsFirst (shelfProgram.HoldsField "price") chain "shop.Item" ∧
      shelfProgram.resolveField? "shop.Book" "price" =
        some ⟨"shop.Item", "price", .int, false⟩ ∧
      (∀ ancestor ∈ chain, ¬ shelfProgram.HoldsMethod "note" [] ancestor) ∧
      (shelfProgram.resolveMethod? "shop.Book" "note" []).map Prod.fst = some "shop.Sold" ∧
      ∃ steps,
        ReachedIn shelfProgram.interfaces (chain.flatMap shelfProgram.interfaces) steps "shop.Sold" ∧
        ∀ fewer < steps, ∀ other,
          ReachedIn shelfProgram.interfaces (chain.flatMap shelfProgram.interfaces) fewer other →
            ¬ shelfProgram.HoldsMethod "note" [] other := by
  let chain := ["shop.Book", "shop.Item", "lib.Thing"]
  have ends : shelfProgram.SuperclassChain "shop.Book" chain :=
    .step (by decide +kernel) (.step (by decide +kernel) (.last (by decide +kernel)))
  have short : chain.length ≤ 256 := by decide
  obtain ⟨fields, methods⟩ := (resolve_finds_nearest shelfProgram "shop.Book").1 chain ends short
  have declares :
      shelfProgram.DeclaresField "price" "shop.Item" ⟨"shop.Item", "price", .int, false⟩ :=
    declaredField?_eq_some_iff.1 (by decide +kernel)
  have first : IsFirst (shelfProgram.HoldsField "price") chain "shop.Item" := by
    refine ⟨["shop.Book"], ["lib.Thing"], rfl, ⟨_, declares⟩, fun earlier member => ?_⟩
    rw [List.mem_singleton.1 member]
    rintro ⟨reference, found⟩
    have absent : shelfProgram.declaredField? "shop.Book" "price" = none := by decide +kernel
    rw [declaredField?_eq_some_iff.2 found] at absent
    cases absent
  have undeclared : ∀ ancestor ∈ chain, ¬ shelfProgram.HoldsMethod "note" [] ancestor :=
    chain_findSome?_eq_none_iff.1 (by decide +kernel)
  have noted : (shelfProgram.resolveMethod? "shop.Book" "note" []).map Prod.fst =
      some "shop.Sold" := by
    decide +kernel
  obtain ⟨found, resolved, owned⟩ := Option.map_eq_some_iff.1 noted
  obtain ⟨holder, steps, ⟨same, -⟩, reached, nearer⟩ := ((methods "note" []).2 undeclared).1 _ resolved
  obtain rfl : holder = "shop.Sold" := same.symm.trans owned
  exact ⟨chain, ends, short, first, ((fields "price").1 _).2 ⟨_, first, declares⟩, undeclared, noted,
    steps, reached, nearer⟩

end Program
end AccessProfiler
