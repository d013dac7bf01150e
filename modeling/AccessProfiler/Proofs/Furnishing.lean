import AccessProfiler.Pipeline
import AccessProfiler.Proofs.Instrumentation

/-!
# What counting makes of a program

A class that is instrumented is given three fields and two methods, and the body of each method is
replaced by a planned one (`Class.furnish`).  The passes that count on static counters add calls to
this, anywhere between the instructions; `Tallied` says that this is all that they add.  So a program
with counting is, class by class, the furnished original up to such calls (`Program.Furnished`).
-/

namespace AccessProfiler

/-- Instructions, and the same with calls of a kind anywhere in between. -/
inductive Tallied (Tally : Instruction → Prop) : List Instruction → List Instruction → Prop
  | done : Tallied Tally [] []
  | tally
      {call : Instruction}
      {list longer : List Instruction}
      (tallies : Tally call)
      (later : Tallied Tally list longer) :
      Tallied Tally list (call :: longer)
  | keep
      {instruction : Instruction}
      {list longer : List Instruction}
      (later : Tallied Tally list longer) :
      Tallied Tally (instruction :: list) (instruction :: longer)

namespace Tallied

variable {Tally Wider : Instruction → Prop} {list longer longest back : List Instruction}

theorem refl (list : List Instruction) : Tallied Tally list list := by
  induction list with
  | nil => exact .done
  | cons instruction rest hypothesis => exact .keep hypothesis

theorem mono (le : ∀ call, Tally call → Wider call) (tallied : Tallied Tally list longer) :
    Tallied Wider list longer := by
  induction tallied with
  | done => exact .done
  | tally tallies _ hypothesis => exact .tally (le _ tallies) hypothesis
  | keep _ hypothesis => exact .keep hypothesis

theorem trans
    (tallied : Tallied Tally list longer)
    (further : Tallied Tally longer longest) :
    Tallied Tally list longest := by
  induction further generalizing list with
  | done => exact tallied
  | tally tallies _ hypothesis => exact .tally tallies (hypothesis tallied)
  | keep _ hypothesis =>
    cases tallied with
    | tally tallies later => exact .tally tallies (hypothesis later)
    | keep later => exact .keep (hypothesis later)

theorem append
    {listBack : List Instruction}
    (front : Tallied Tally list longer)
    (behind : Tallied Tally listBack back) :
    Tallied Tally (list ++ listBack) (longer ++ back) := by
  induction front with
  | done => exact behind
  | tally tallies _ hypothesis => exact .tally tallies hypothesis
  | keep _ hypothesis => exact .keep hypothesis

/-- Calls of the kind may stand in front. -/
theorem tallies_append
    {calls : List Instruction}
    (tallies : ∀ call ∈ calls, Tally call)
    (tallied : Tallied Tally list longer) :
    Tallied Tally list (calls ++ longer) := by
  induction calls with
  | nil => exact tallied
  | cons call calls hypothesis =>
    exact .tally (tallies call List.mem_cons_self)
      (hypothesis fun other member => tallies other (List.mem_cons_of_mem _ member))

/-- An instruction was there before or is one of the calls. -/
theorem mem_or_tally
    (tallied : Tallied Tally list longer)
    {instruction : Instruction}
    (member : instruction ∈ longer) :
    instruction ∈ list ∨ Tally instruction := by
  induction tallied with
  | done => exact .inl member
  | tally tallies _ hypothesis =>
    rcases List.mem_cons.1 member with rfl | later
    · exact .inr tallies
    · exact hypothesis later
  | keep _ hypothesis =>
    rcases List.mem_cons.1 member with rfl | later
    · exact .inl List.mem_cons_self
    · exact (hypothesis later).imp_left (List.mem_cons_of_mem _)

/-- Replacing each instruction by several does not disturb calls that it leaves alone. -/
theorem flatMap
    {expand : Instruction → List Instruction}
    (keeps : ∀ call, Tally call → expand call = [call])
    (tallied : Tallied Tally list longer) :
    Tallied Tally (list.flatMap expand) (longer.flatMap expand) := by
  induction tallied with
  | done => exact .done
  | tally tallies _ hypothesis =>
    rw [List.flatMap_cons, keeps _ tallies]
    exact .tally tallies hypothesis
  | keep _ hypothesis =>
    rw [List.flatMap_cons, List.flatMap_cons]
    exact (refl _).append hypothesis

end Tallied

/-- The body with calls of a kind between its instructions. -/
structure Body.Tallied (Tally : Instruction → Prop) (exact current : Body) : Prop where
  locals : current.locals = exact.locals
  instructions : AccessProfiler.Tallied Tally exact.instructions current.instructions

/-- The method with calls of a kind between the instructions of its body. -/
structure Method.Tallied (Tally : Instruction → Prop) (exact current : Method) : Prop where
  signature : current.signature = exact.signature
  body : Option.Rel (Body.Tallied Tally) exact.body current.body

/-- The class with calls of a kind between the instructions of its bodies. -/
structure Class.Tallied (Tally : Instruction → Prop) (exact current : Class) : Prop where
  shape : { current with methods := [] } = { exact with methods := [] }
  methods : List.Forall₂ (Method.Tallied Tally) exact.methods current.methods

namespace Profile

/-- The profile of a class that is no interface. -/
def ofClass (className : String) (staticCounter : FieldRef) : Profile where
  className := className
  staticCounter := staticCounter
  serial := .ofInstance className serialField .int
  reads := .ofInstance className readsField .int
  writes := .ofInstance className writesField .int
  incReads := ⟨className, readIncrementor, [], .void⟩
  incWrites := ⟨className, writeIncrementor, [], .void⟩
  callKind := .virtual

/-- A field that counts for each instance. -/
def countField (name : String) : Field :=
  ⟨name, .int, Field.synthetic⟩

/-- The fields that an instrumented class is given. -/
def fields : List Field :=
  [countField serialField, countField readsField, countField writesField]

/-- The method of a class that counts on one of its fields. -/
def incrementorMethod (sink : Sink) (owner name : String) (counter serial : FieldRef) : Method where
  name := name
  parameters := []
  result := .void
  flags := Method.synthetic
  body := some (incrementorBody sink owner counter serial)

/-- The methods that an instrumented class is given. -/
def methods (sink : Sink) (profile : Profile) : List Method :=
  [incrementorMethod sink profile.className readIncrementor profile.reads profile.serial,
    incrementorMethod sink profile.className writeIncrementor profile.writes profile.serial]

/-- The body of a constructor after it was patched, or as it is if it is skipped. -/
def patched (sink : Sink) (profile : Profile) (body : Body) : Body :=
  match profile.patchConstructor sink body with
  | .ok (.ok changed) => changed
  | _ => body

end Profile

/-- What is planned for the body of each method. -/
abbrev Plan := MethodId → Body → Body

namespace Plan

/-- Bodies stay as they are. -/
def none : Plan := fun _ body => body

/-- One plan for some methods, another for the others. -/
def choose (chosen : MethodId → Bool) (first second : Plan) : Plan :=
  fun id => if chosen id then first id else second id

end Plan

namespace Class

/-- The class with planned bodies. -/
def plannedMethods (plan : Nat → Body → Body) (declaration : Class) : List Method :=
  declaration.methods.mapIdx fun index method =>
    { method with body := method.body.map (plan index) }

/-- The class with planned bodies and with what it is given if it is instrumented. -/
def furnish
    (sink : Sink)
    (profile? : Option Profile)
    (plan : Nat → Body → Body)
    (declaration : Class) : Class :=
  { declaration with
    fields := declaration.fields ++ profile?.elim [] fun _ => Profile.fields
    methods := declaration.plannedMethods plan ++ profile?.elim [] (Profile.methods sink) }

end Class

/-- The calls of methods of a program that count on static counters. -/
def Program.Tally (counter : String) (program : Program) (call : Instruction) : Prop :=
  call.Tallies counter program.offers

/-- The original program with what its profiles give to the classes and with planned bodies, up to
calls of a kind.  Nothing is said of the class of the counters. -/
def Program.Furnished
    (counter : String)
    (sink : Sink)
    (Tally : Instruction → Prop)
    (profiles : Table String Profile)
    (plan : Plan)
    (original current : Program) : Prop :=
  ∀ name, name ≠ counter →
    Option.Rel (Class.Tallied Tally)
      ((original.class? name).map
        (Class.furnish sink (profiles.get? name) fun index => plan ⟨name, index⟩))
      (current.class? name)

section Relations

variable
    {Tally Wider : Instruction → Prop}
    {counter : String}
    {sink : Sink}
    {profiles : Table String Profile}
    {plan : Plan}
    {original current : Program}

theorem Body.Tallied.refl (body : Body) : body.Tallied Tally body :=
  ⟨rfl, .refl _⟩

theorem Body.Tallied.mono
    {exact current : Body}
    (le : ∀ call, Tally call → Wider call)
    (tallied : exact.Tallied Tally current) :
    exact.Tallied Wider current :=
  ⟨tallied.locals, tallied.instructions.mono le⟩

theorem Body.Tallied.trans
    {exact current longer : Body}
    (tallied : exact.Tallied Tally current)
    (further : current.Tallied Tally longer) :
    exact.Tallied Tally longer :=
  ⟨further.locals.trans tallied.locals, tallied.instructions.trans further.instructions⟩

theorem Method.Tallied.refl (method : Method) : method.Tallied Tally method := by
  refine ⟨rfl, ?_⟩
  cases method.body with
  | none => exact .none
  | some body => exact .some (.refl body)

theorem Method.Tallied.mono
    {exact current : Method}
    (le : ∀ call, Tally call → Wider call)
    (tallied : exact.Tallied Tally current) :
    exact.Tallied Wider current :=
  ⟨tallied.signature, relOption_mono (fun _ _ bodies => bodies.mono le) tallied.body⟩

/-- Without calls of the kind nothing is added. -/
theorem Body.Tallied.eq_of_not
    {exact current : Body}
    (none : ∀ call, ¬ Tally call)
    (tallied : exact.Tallied Tally current) :
    current = exact := by
  have instructions {list longer : List Instruction} (lists : AccessProfiler.Tallied Tally list longer) :
      longer = list := by
    induction lists with
    | done => rfl
    | tally tallies _ _ => exact absurd tallies (none _)
    | keep _ hypothesis => rw [hypothesis]
  cases current
  cases exact
  rw [Body.mk.injEq]
  exact ⟨tallied.locals, instructions tallied.instructions⟩

theorem Class.Tallied.refl (declaration : Class) : declaration.Tallied Tally declaration := by
  refine ⟨rfl, ?_⟩
  rw [List.forall₂_same]
  exact fun method _ => .refl method

theorem Class.Tallied.mono
    {exact current : Class}
    (le : ∀ call, Tally call → Wider call)
    (tallied : exact.Tallied Tally current) :
    exact.Tallied Wider current :=
  ⟨tallied.shape, tallied.methods.imp fun _ _ methods => methods.mono le⟩

theorem Program.Tally.mono
    {before after : Program}
    (le : ∀ name, before.offers counter name → after.offers counter name)
    {call : Instruction}
    (tallies : before.Tally counter call) :
    after.Tally counter call := by
  obtain ⟨name, offered, rfl⟩ := tallies
  exact ⟨name, le name offered, rfl⟩

theorem Class.plannedMethods_none (declaration : Class) :
    declaration.plannedMethods (fun _ body => body) = declaration.methods := by
  apply List.ext_getElem?
  intro index
  rw [Class.plannedMethods, List.getElem?_mapIdx]
  cases declaration.methods[index]? with
  | none => rfl
  | some method =>
    cases method with
    | mk name parameters result flags body => cases body <;> rfl

theorem Class.furnish_none (declaration : Class) :
    declaration.furnish sink none (fun _ body => body) = declaration := by
  rw [Class.furnish, Class.plannedMethods_none]
  cases declaration
  simp

theorem Program.Furnished.refl (empty : ∀ name, profiles.get? name = none) (program : Program) :
    program.Furnished counter sink Tally profiles .none program := by
  intro name _
  rw [empty name]
  cases program.class? name with
  | none => exact .none
  | some declaration =>
    rw [Option.map_some]
    show Option.Rel _ (some (declaration.furnish sink none fun _ body => body)) _
    rw [Class.furnish_none]
    exact .some (.refl declaration)

/-- What a class has become. -/
theorem Program.Furnished.class?_eq_some
    (furnished : original.Furnished counter sink Tally profiles plan current)
    {name : String}
    {declaration : Class}
    (differs : name ≠ counter)
    (found : original.class? name = some declaration) :
    ∃ changed, current.class? name = some changed ∧
      (declaration.furnish sink (profiles.get? name) fun index => plan ⟨name, index⟩).Tallied Tally
        changed := by
  have relation := furnished name differs
  rw [found, Option.map_some] at relation
  cases located : current.class? name with
  | none =>
    rw [located] at relation
    cases relation
  | some changed =>
    rw [located] at relation
    cases relation with
    | some related => exact ⟨changed, rfl, related⟩

theorem Program.Furnished.class?_eq_none
    (furnished : original.Furnished counter sink Tally profiles plan current)
    {name : String}
    (differs : name ≠ counter)
    (free : original.class? name = none) :
    current.class? name = none := by
  have relation := furnished name differs
  rw [free, Option.map_none] at relation
  cases located : current.class? name with
  | none => rfl
  | some changed =>
    rw [located] at relation
    cases relation

/-- What a class was before. -/
theorem Program.Furnished.class?_of_current
    (furnished : original.Furnished counter sink Tally profiles plan current)
    {name : String}
    {changed : Class}
    (differs : name ≠ counter)
    (found : current.class? name = some changed) :
    ∃ declaration, original.class? name = some declaration ∧
      (declaration.furnish sink (profiles.get? name) fun index => plan ⟨name, index⟩).Tallied Tally
        changed := by
  cases located : original.class? name with
  | none =>
    rw [furnished.class?_eq_none differs located] at found
    cases found
  | some declaration =>
    obtain ⟨other, foundOther, related⟩ := furnished.class?_eq_some differs located
    rw [found] at foundOther
    cases foundOther
    exact ⟨declaration, rfl, related⟩

/-- The class of the counters may grow. -/
theorem Program.Furnished.grow
    {grown : Program}
    (furnished : original.Furnished counter sink Tally profiles plan current)
    (grows : current.GrowsAt counter grown) :
    original.Furnished counter sink Tally profiles plan grown := by
  intro name differs
  rw [grows.others name differs]
  exact furnished name differs

theorem Program.Furnished.mono
    (le : ∀ call, Tally call → Wider call)
    (furnished : original.Furnished counter sink Tally profiles plan current) :
    original.Furnished counter sink Wider profiles plan current :=
  fun name differs => relOption_mono (fun _ _ related => related.mono le) (furnished name differs)

end Relations

section Methods

variable
    {Tally : Instruction → Prop}
    {counter : String}
    {sink : Sink}
    {profiles : Table String Profile}
    {plan : Plan}
    {original current : Program}

theorem Method.Tallied.name_eq
    {exact current : Method}
    (tallied : exact.Tallied Tally current) :
    current.name = exact.name :=
  (Method.mk.inj tallied.signature).1

theorem Method.Tallied.flags_eq
    {exact current : Method}
    (tallied : exact.Tallied Tally current) :
    current.flags = exact.flags :=
  (Method.mk.inj tallied.signature).2.2.2.1

/-- A method stays at its position. -/
theorem Class.Tallied.getElem?_methods
    {declaration changed : Class}
    {profile? : Option Profile}
    {bodies : Nat → Body → Body}
    (tallied : (declaration.furnish sink profile? bodies).Tallied Tally changed)
    {index : Nat}
    {method : Method}
    (located : declaration.methods[index]? = some method) :
    ∃ current, changed.methods[index]? = some current ∧
      Method.Tallied Tally { method with body := method.body.map (bodies index) } current := by
  obtain ⟨lengths, each⟩ := List.forall₂_iff_get.1 tallied.methods
  obtain ⟨bounded, rfl⟩ := List.getElem?_eq_some_iff.1 located
  have inPlanned : index < (declaration.plannedMethods bodies).length := by
    rw [Class.plannedMethods, List.length_mapIdx]
    exact bounded
  have inFurnished : index < (declaration.furnish sink profile? bodies).methods.length := by
    rw [Class.furnish, List.length_append]
    omega
  have inChanged : index < changed.methods.length := lengths ▸ inFurnished
  refine ⟨changed.methods[index], List.getElem?_eq_getElem inChanged, ?_⟩
  have related := each index inFurnished inChanged
  have same :
      (declaration.furnish sink profile? bodies).methods[index] =
        { declaration.methods[index] with
          body := declaration.methods[index].body.map (bodies index) } := by
    simp only [Class.furnish, List.getElem_append_left inPlanned]
    simp only [Class.plannedMethods, List.getElem_mapIdx]
  rw [List.get_eq_getElem, List.get_eq_getElem, same] at related
  exact related

/-- A method was there before or is one of those that an instrumented class is given. -/
theorem Class.Tallied.cases_getElem?_methods
    {declaration changed : Class}
    {profile? : Option Profile}
    {bodies : Nat → Body → Body}
    (tallied : (declaration.furnish sink profile? bodies).Tallied Tally changed)
    {index : Nat}
    {current : Method}
    (located : changed.methods[index]? = some current) :
    (∃ method, declaration.methods[index]? = some method ∧
      Method.Tallied Tally { method with body := method.body.map (bodies index) } current) ∨
    ∃ profile, profile? = some profile ∧
      ∃ added ∈ profile.methods sink, added.Tallied Tally current := by
  by_cases bounded : index < declaration.methods.length
  · obtain ⟨other, locatedOther, related⟩ :=
      tallied.getElem?_methods (List.getElem?_eq_getElem bounded)
    rw [located] at locatedOther
    cases locatedOther
    exact .inl ⟨_, List.getElem?_eq_getElem bounded, related⟩
  · obtain ⟨lengths, each⟩ := List.forall₂_iff_get.1 tallied.methods
    obtain ⟨inChanged, rfl⟩ := List.getElem?_eq_some_iff.1 located
    have inFurnished : index < (declaration.furnish sink profile? bodies).methods.length :=
      lengths ▸ inChanged
    have related := each index inFurnished inChanged
    have behind : (declaration.plannedMethods bodies).length ≤ index := by
      rw [Class.plannedMethods, List.length_mapIdx]
      omega
    have member :
        (declaration.furnish sink profile? bodies).methods[index] ∈
          profile?.elim [] (Profile.methods sink) := by
      simp only [Class.furnish, List.getElem_append_right behind]
      exact List.getElem_mem _
    cases profile? with
    | none => cases member
    | some profile => exact .inr ⟨profile, rfl, _, member, related⟩

/-- What a method has become. -/
theorem Program.Furnished.method?_eq_some
    (furnished : original.Furnished counter sink Tally profiles plan current)
    {id : MethodId}
    {method : Method}
    (differs : id.owner ≠ counter)
    (found : original.method? id = some method) :
    ∃ changed, current.method? id = some changed ∧
      Method.Tallied Tally { method with body := method.body.map (plan id) }
        changed := by
  obtain ⟨declaration, declares, located⟩ := Option.bind_eq_some_iff.1 found
  obtain ⟨changedClass, declaresChanged, related⟩ := furnished.class?_eq_some differs declares
  obtain ⟨changed, locatedChanged, relatedMethod⟩ := related.getElem?_methods located
  exact ⟨changed, Option.bind_eq_some_iff.2 ⟨changedClass, declaresChanged, locatedChanged⟩,
    relatedMethod⟩

/-- What the body of a method was before. -/
theorem Program.Furnished.body?_of_current
    (furnished : original.Furnished counter sink Tally profiles plan current)
    {id : MethodId}
    {method : Method}
    {body : Body}
    (differs : id.owner ≠ counter)
    (has : original.method? id = some method)
    (found : current.body? id = some body) :
    ∃ originalBody, method.body = some originalBody ∧
      (plan id originalBody).Tallied Tally body := by
  obtain ⟨changed, there, related⟩ := furnished.method?_eq_some differs has
  have given : changed.body = some body := by
    rw [Program.body?, there] at found
    exact found
  have bodies := related.body
  rw [given] at bodies
  cases foundBody : method.body with
  | none =>
    rw [foundBody] at bodies
    cases bodies
  | some originalBody =>
    rw [foundBody] at bodies
    cases bodies with
    | some relatedBody => exact ⟨originalBody, rfl, relatedBody⟩

/-- The body of a method of the class may be replaced by what another plan makes of it. -/
theorem Class.Tallied.setBody
    {declaration changed : Class}
    {profile? : Option Profile}
    {bodies others : Nat → Body → Body}
    (tallied : (declaration.furnish sink profile? bodies).Tallied Tally changed)
    {index : Nat}
    {method : Method}
    {body bodyAfter : Body}
    (located : declaration.methods[index]? = some method)
    (given : method.body = some body)
    (same : ∀ other, other ≠ index → others other = bodies other)
    (related : (others index body).Tallied Tally bodyAfter) :
    (declaration.furnish sink profile? others).Tallied Tally
      { changed with
        methods := changed.methods.modify index fun current =>
          { current with body := some bodyAfter } } := by
  obtain ⟨lengths, each⟩ := List.forall₂_iff_get.1 tallied.methods
  obtain ⟨bounded, found⟩ := List.getElem?_eq_some_iff.1 located
  have planned (plan : Nat → Body → Body) :
      (declaration.plannedMethods plan).length = declaration.methods.length := by
    rw [Class.plannedMethods, List.length_mapIdx]
  have long (plan : Nat → Body → Body) :
      (declaration.furnish sink profile? plan).methods.length =
        declaration.methods.length + (profile?.elim [] (Profile.methods sink)).length := by
    rw [Class.furnish, List.length_append, planned]
  refine ⟨tallied.shape, List.forall₂_iff_get.2 ⟨?_, ?_⟩⟩
  · rw [List.length_modify, ← lengths, long, long]
  · intro position inFurnished inChanged
    have inBefore : position < (declaration.furnish sink profile? bodies).methods.length := by
      rw [long] at inFurnished ⊢
      exact inFurnished
    have inCurrent : position < changed.methods.length := lengths ▸ inBefore
    have one := each position inBefore inCurrent
    simp only [List.get_eq_getElem, List.getElem_modify, Class.furnish] at one ⊢
    by_cases here : index = position
    · subst here
      have front (plan : Nat → Body → Body) : index < (declaration.plannedMethods plan).length := by
        rw [planned]
        exact bounded
      rw [if_pos rfl]
      rw [List.getElem_append_left (front bodies)] at one
      rw [List.getElem_append_left (front others)]
      simp only [Class.plannedMethods, List.getElem_mapIdx, found] at one ⊢
      refine ⟨one.signature, ?_⟩
      rw [given]
      exact .some related
    · rw [if_neg here]
      by_cases front : position < declaration.methods.length
      · have inPlanned (plan : Nat → Body → Body) :
            position < (declaration.plannedMethods plan).length := by
          rw [planned]
          exact front
        rw [List.getElem_append_left (inPlanned bodies)] at one
        rw [List.getElem_append_left (inPlanned others)]
        simp only [Class.plannedMethods, List.getElem_mapIdx] at one ⊢
        rw [same position (Ne.symm here)]
        exact one
      · have behind (plan : Nat → Body → Body) :
            (declaration.plannedMethods plan).length ≤ position := by
          rw [planned]
          exact Nat.le_of_not_lt front
        rw [List.getElem_append_right (behind bodies)] at one
        rw [List.getElem_append_right (behind others)]
        simp only [planned] at one ⊢
        exact one

/-- The body of a method may be taken out and replaced by what another plan makes of it, while the
class of the counters grows. -/
theorem Program.Furnished.putBody
    {program grown : Program}
    {after : Plan}
    {id : MethodId}
    {method : Method}
    {body bodyAfter : Body}
    (furnished : original.Furnished counter sink Tally profiles plan program)
    (differs : id.owner ≠ counter)
    (has : original.method? id = some method)
    (given : method.body = some body)
    (grows : (program.dropBody id).GrowsAt counter grown)
    (same : ∀ other, other ≠ id → after other = plan other)
    (related : (after id body).Tallied Tally bodyAfter) :
    original.Furnished counter sink Tally profiles after
      (grown.modifyMethod id fun current => { current with body := some bodyAfter }) := by
  let final := grown.modifyMethod id fun current => { current with body := some bodyAfter }
  intro name notCounter
  by_cases here : name = id.owner
  · subst here
    obtain ⟨declaration, declares, located⟩ := Option.bind_eq_some_iff.1 has
    obtain ⟨changed, found, relatedClass⟩ := furnished.class?_eq_some differs declares
    have changedClass :
        final.class? id.owner =
          some { changed with
            methods := changed.methods.modify id.index fun current =>
              { current with body := some bodyAfter } } := by
      rw [class?_modifyMethod, if_pos rfl, grows.others id.owner differs, dropBody,
        class?_modifyMethod, if_pos rfl, found]
      simp only [Option.map_some, List.modify_modify_eq]
      rfl
    rw [declares, changedClass]
    refine .some (relatedClass.setBody located given ?_ related)
    intro other elsewhere
    exact same ⟨id.owner, other⟩ fun equal => elsewhere (congrArg MethodId.index equal)
  · have unchanged : final.class? name = program.class? name := by
      calc
        final.class? name = grown.class? name := class?_modifyMethod.trans (if_neg here)
        _ = (program.dropBody id).class? name := grows.others name notCounter
        _ = program.class? name := class?_modifyMethod.trans (if_neg here)
    have samePlan :
        (fun index => after ⟨name, index⟩) = fun index => plan ⟨name, index⟩ := by
      funext index
      exact same _ fun equal => here (congrArg MethodId.owner equal)
    rw [unchanged, samePlan]
    exact furnished name notCounter

end Methods
end AccessProfiler
