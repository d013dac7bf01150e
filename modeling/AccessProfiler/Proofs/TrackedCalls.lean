import AccessProfiler.Proofs.KeptLabels
import AccessProfiler.Proofs.WrappedSignatures

/-!
# Which calls are counted together

The pass that counts calls puts one call behind the bindings of each method that it works on.  What is
called counts on a counter under a name that is joined from the name of the class and that of the method,
without the angle brackets of the latter.  Overloads are counted together, as they should be.  So are
methods whose names differ in their brackets only, as a constructor and a method `init` of its class do,
and methods of different classes if the underscore between class and method can be read in two ways
(`MethodRef.CountedAlike`).

Apart from that methods are told apart: two methods call the same method exactly if they are counted
alike, and this is so for the counter and for the label as well.  Calls are counted for each method with
its overloads, exactly if none but overloads are counted alike (`Pass.trackCalls_separates`).
-/

namespace AccessProfiler

/-! ## Joined names -/

/-- The name of a method without angle brackets. -/
def MethodRef.bareName (method : MethodRef) : String :=
  Text.without ['<', '>'] method.name

/-- The name of the second class goes on with an underscore and a beginning of the name of the first
method, and what is left of that name behind another underscore is the name of the second method. -/
def MethodRef.Straddles (first second : MethodRef) : Prop :=
  ∃ middle, second.owner = first.owner ++ "_" ++ middle ∧
    first.bareName = middle ++ "_" ++ second.bareName

/-- The calls of the methods are counted under one name: they are methods of one class whose names
differ in angle brackets only, or their names are joined in different places. -/
def MethodRef.CountedAlike (first second : MethodRef) : Prop :=
  (first.owner = second.owner ∧ first.bareName = second.bareName) ∨
    first.Straddles second ∨ second.Straddles first

/-- Two texts joined by a mark are those of another joint, or the mark stands in one of them as well. -/
theorem joined_eq_joined_iff
    {Letter : Type}
    {mark : Letter}
    {front back frontOther backOther : List Letter} :
    front ++ mark :: back = frontOther ++ mark :: backOther ↔
      (front = frontOther ∧ back = backOther) ∨
        (∃ middle, frontOther = front ++ mark :: middle ∧ back = middle ++ mark :: backOther) ∨
        ∃ middle, front = frontOther ++ mark :: middle ∧ backOther = middle ++ mark :: back := by
  constructor
  · intro same
    rcases List.append_eq_append_iff.1 same with ⟨more, longer, rest⟩ | ⟨more, longer, rest⟩
    · cases more with
      | nil =>
        rw [List.append_nil] at longer
        exact .inl ⟨longer.symm, (List.cons.inj rest).2⟩
      | cons letter middle =>
        obtain ⟨rfl, behind⟩ := List.cons.inj rest
        exact .inr (.inl ⟨middle, longer, behind⟩)
    · cases more with
      | nil =>
        rw [List.append_nil] at longer
        exact .inl ⟨longer, (List.cons.inj rest).2.symm⟩
      | cons letter middle =>
        obtain ⟨rfl, behind⟩ := List.cons.inj rest
        exact .inr (.inr ⟨middle, longer, behind⟩)
  · rintro (⟨rfl, rfl⟩ | ⟨middle, rfl, rfl⟩ | ⟨middle, rfl, rfl⟩)
    · rfl
    · simp
    · simp

/-- The name under which a method is counted says which methods are counted with it. -/
theorem Transform.callCounterName_eq_iff {first second : MethodRef} :
    callCounterName first.owner first.name = callCounterName second.owner second.name ↔
      first.CountedAlike second := by
  have joined (owner name : String) :
      (callCounterName owner name).toList =
        owner.toList ++ '_' :: (Text.without ['<', '>'] name).toList := by
    simp [callCounterName]
  have straddles (first second : MethodRef) :
      first.Straddles second ↔
        ∃ middle, second.owner.toList = first.owner.toList ++ '_' :: middle ∧
          first.bareName.toList = middle ++ '_' :: second.bareName.toList := by
    constructor
    · rintro ⟨middle, owners, names⟩
      exact ⟨middle.toList, by simp [owners], by simp [names]⟩
    · rintro ⟨middle, owners, names⟩
      refine ⟨String.ofList middle, String.toList_inj.1 ?_, String.toList_inj.1 ?_⟩
      · simp [owners]
      · simp [names]
  have owners : first.owner = second.owner ↔ first.owner.toList = second.owner.toList :=
    String.toList_inj.symm
  have names : first.bareName = second.bareName ↔ first.bareName.toList = second.bareName.toList :=
    String.toList_inj.symm
  rw [← String.toList_inj, joined, joined, joined_eq_joined_iff, MethodRef.CountedAlike, straddles,
    straddles, owners, names]
  rfl

/-! ## Calls that count -/

/-- The body with an instruction right behind its bindings. -/
def Body.calling (body : Body) (call : Instruction) : Body :=
  { body with instructions := body.bindings ++ call :: body.unbound }

/-- The method is one of those whose calls are counted. -/
structure Session.Tracks (session : Session) (id : MethodId) (method : MethodRef) : Prop where
  transformable : session.isTransformable id
  bodied : (session.program.body? id).isSome
  referred : session.program.methodRef? id = some method

/-- Calls of the method are counted on a counter: its body calls the method that counts, once and right
behind its bindings, and that method counts on the counter and reports under the name. -/
structure Session.CountsCalls
    (before after : Session)
    (id : MethodId)
    (counter : CallCounter) : Prop where
  body :
    ∃ body, before.program.body? id = some body ∧
      after.program.body? id = some (body.calling counter.call)
  owner : counter.method.owner = after.counters.className
  number : after.program.HasNumber after.counters.className counter.field.name counter.field
  declared :
    ((after.program.class? counter.method.owner).bind fun declaration =>
        declaration.method? counter.method.name counter.method.parameters) =
      some (tallyMethod after.settings.sink (counterKey counter.field)
        (counter.name ++ " function call") counter.field)

/-- Calls of each method are counted on the counter that is given for it, and the methods that count,
the counters and the names are told apart exactly as far as methods are not counted alike. -/
structure Session.CountsEach
    (before after : Session)
    (counterOf : MethodId → CallCounter) : Prop where
  counts :
    ∀ id method, before.Tracks id method → before.CountsCalls after id (counterOf id)
  methods :
    ∀ first second method other, before.Tracks first method → before.Tracks second other →
      ((counterOf first).method = (counterOf second).method ↔ method.CountedAlike other)
  fields :
    ∀ first second method other, before.Tracks first method → before.Tracks second other →
      ((counterOf first).field = (counterOf second).field ↔ method.CountedAlike other)
  names :
    ∀ first second method other, before.Tracks first method → before.Tracks second other →
      ((counterOf first).name = (counterOf second).name ↔ method.CountedAlike other)

/-- Only overloads are counted together: two methods call the same method that counts exactly if they
are methods of one class and have the same name. -/
def Session.SeparatesCalls (session : Session) (counterOf : MethodId → CallCounter) : Prop :=
  ∀ first second method other, session.Tracks first method → session.Tracks second other →
    ((counterOf first).method = (counterOf second).method ↔
      first.owner = second.owner ∧ method.name = other.name)

/-- After the calls of some methods were counted: each of them calls the method that counts under its
name, and the other methods are as they were. -/
structure Session.CallsCounted
    (counter : String)
    (ids : List MethodId)
    (before after : Session) : Prop where
  settings : after.settings = before.settings
  references :
    ∀ other, other.owner ≠ counter →
      after.program.methodRef? other = before.program.methodRef? other
  others :
    ∀ other, other.owner ≠ counter → other ∉ ids →
      after.program.body? other = before.program.body? other
  bodies :
    ∀ id ∈ ids, ∀ body method, before.program.body? id = some body →
      before.program.methodRef? id = some method →
        ∃ found,
          after.callCounters.get? (Transform.callCounterName method.owner method.name) = some found ∧
            after.program.body? id = some (body.calling found.call)
  callCounters :
    ∀ name found, before.callCounters.get? name = some found →
      after.callCounters.get? name = some found

namespace Program

/-- References to methods do not depend on bodies. -/
theorem methodRef?_modifyMethod
    {program : Program}
    {id place : MethodId}
    {change : Method → Method}
    (same : ∀ method owner, (change method).reference owner = method.reference owner) :
    (program.modifyMethod id change).methodRef? place = program.methodRef? place := by
  unfold methodRef?
  rw [class?_modifyMethod]
  split
  · rename_i owner
    rw [owner]
    cases program.class? id.owner with
    | none => rfl
    | some declaration =>
      rw [Option.map_some, Option.bind_some, Option.bind_some, List.getElem?_modify]
      cases declaration.methods[place.index]? with
      | none => rfl
      | some method =>
        by_cases here : id.index = place.index
        · simp [here, same]
        · simp [here]
  · rfl

theorem exists_methodRef?_of_method?
    {program : Program}
    {id : MethodId}
    {method : Method}
    (found : program.method? id = some method) :
    ∃ reference, program.methodRef? id = some reference := by
  obtain ⟨declaration, located, indexed⟩ := Option.bind_eq_some_iff.1 found
  refine ⟨method.reference declaration.name, ?_⟩
  rw [methodRef?, located, Option.bind_some, indexed]
  rfl

/-- References to methods of one class have one owner. -/
theorem owner_of_methodRef?
    {program : Program}
    {first second : MethodId}
    {method other : MethodRef}
    (owners : first.owner = second.owner)
    (referred : program.methodRef? first = some method)
    (referredOther : program.methodRef? second = some other) :
    method.owner = other.owner := by
  obtain ⟨declaration, found, indexed⟩ := Option.bind_eq_some_iff.1 referred
  obtain ⟨declarationOther, foundOther, indexedOther⟩ := Option.bind_eq_some_iff.1 referredOther
  obtain ⟨_, -, rfl⟩ := Option.map_eq_some_iff.1 indexed
  obtain ⟨_, -, rfl⟩ := Option.map_eq_some_iff.1 indexedOther
  rw [owners, foundOther] at found
  cases found
  rfl

theorem body?_modifyMethod_of_ne
    {program : Program}
    {id other : MethodId}
    (differs : other ≠ id)
    (change : Method → Method) :
    (program.modifyMethod id change).body? other = program.body? other := by
  rw [body?, method?_modifyMethod, if_neg differs]
  rfl

end Program

section Tracking

variable {counter : String} {sink : Sink} {session before : Session} {id : MethodId}

namespace Session.CallsCounted

variable {between after : Session} {ids more : List MethodId}

/-- No calls of methods without bodies are counted. -/
theorem of_bodiless (bodiless : ∀ id ∈ ids, before.program.body? id = none) :
    before.CallsCounted counter ids before where
  settings := rfl
  references _ _ := rfl
  others _ _ _ := rfl
  bodies id member _ _ bodied := by cases (bodiless id member).symm.trans bodied
  callCounters _ _ known := known

/-- The calls of further methods are counted. -/
theorem append
    (first : before.CallsCounted counter ids between)
    (second : between.CallsCounted counter more after)
    (disjoint : ids.Disjoint more)
    (apart : ∀ id ∈ ids ++ more, id.owner ≠ counter) :
    before.CallsCounted counter (ids ++ more) after where
  settings := second.settings.trans first.settings
  references other differs := (second.references other differs).trans (first.references other differs)
  others other differs elsewhere := by
    rw [List.mem_append, not_or] at elsewhere
    exact (second.others other differs elsewhere.2).trans (first.others other differs elsewhere.1)
  bodies id member body method bodied referred := by
    have differs := apart id member
    rcases List.mem_append.1 member with old | new
    · obtain ⟨found, known, changed⟩ := first.bodies id old body method bodied referred
      exact ⟨found, second.callCounters _ _ known,
        (second.others id differs (disjoint old)).trans changed⟩
    · exact second.bodies id new body method
        ((first.others id differs fun old => disjoint old new).trans bodied)
        ((first.references id differs).trans referred)
  callCounters name found known := second.callCounters name found (first.callCounters name found known)

end Session.CallsCounted

namespace Session.KeepsCounters

variable
    {between : Session}
    {current : Method}
    (keeps :
      Session.KeepsCounters counter { before with program := before.program.dropBody id } between)
    (differs : id.owner ≠ counter)
    (there : before.program.method? id = some current)
include keeps differs there

/-- The method whose body was taken out is still there when owners got counters. -/
theorem method?_emptied : between.program.method? id = some { current with body := none } := by
  rw [Program.method?, keeps.others id.owner differs]
  show (before.program.modifyMethod id _).method? id = _
  rw [Program.method?_modifyMethod, if_pos rfl, there]
  rfl

/-- The body that was taken out is put back with a call of the method that counts. -/
theorem callsCounted
    {body : Body}
    {method : MethodRef}
    {counted : CallCounter}
    (found : before.program.body? id = some body)
    (referred : before.program.methodRef? id = some method)
    (known :
      between.callCounters.get? (Transform.callCounterName method.owner method.name) = some counted)
    (transformed : List MethodId) :
    before.CallsCounted counter [id]
      { between with
        program :=
          between.program.modifyMethod id fun method =>
            { method with body := some (body.calling counted.call) }
        transformed } := by
  refine ⟨keeps.settings, ?_, ?_, ?_, keeps.callCounters⟩
  · intro other apart
    have kept :
        between.program.methodRef? other = (before.program.dropBody id).methodRef? other := by
      rw [Program.methodRef?, keeps.others other.owner apart]
      rfl
    exact (Program.methodRef?_modifyMethod (by intros; rfl)).trans
      (kept.trans (Program.methodRef?_modifyMethod fun _ _ => rfl))
  · intro other apart elsewhere
    have elsewhere : other ≠ id := fun here => elsewhere (List.mem_singleton.2 here)
    have kept : between.program.body? other = (before.program.dropBody id).body? other := by
      rw [Program.body?, Program.method?, keeps.others other.owner apart]
      rfl
    exact (Program.body?_modifyMethod_of_ne elsewhere _).trans
      (kept.trans (Program.body?_modifyMethod_of_ne elsewhere _))
  · intro place member bodyBefore methodBefore foundBefore referredBefore
    obtain rfl := List.mem_singleton.1 member
    cases found.symm.trans foundBefore
    cases referred.symm.trans referredBefore
    refine ⟨counted, known, ?_⟩
    dsimp only
    rw [Program.body?, Program.method?_modifyMethod, if_pos rfl,
      keeps.method?_emptied differs there]
    rfl

end Session.KeepsCounters

namespace Draft

/-- A call of the method that counts can always be put behind the bindings. -/
theorem countCalls_counts
    {pass : String}
    {body : Body}
    {method : MethodRef}
    (labels : session.Labels counter sink)
    (referred : session.program.methodRef? id = some method) :
    Draft.Succeeds (countCalls pass id) body session fun _ bodyAfter after =>
      after.Labels counter sink ∧ session.KeepsCounters counter after ∧
        ∃ found,
          after.callCounters.get? (Transform.callCounterName method.owner method.name) = some found ∧
            bodyAfter = body.calling found.call := by
  unfold countCalls
  apply Draft.Succeeds.session_bind
  dsimp only
  rw [referred]
  refine Draft.Succeeds.lift_bind (Transform.callCounter_labels labels _) ?_
  rintro found counted ⟨labelsCounted, keeps, known⟩
  apply Draft.Succeeds.body_bind
  apply Draft.Succeeds.body_bind
  rw [splitAt_bindingCount]
  apply Draft.Succeeds.setInstructions_bind
  apply Draft.Succeeds.session_bind
  apply record_bind
  intro journal
  exact .pure ⟨labelsCounted.annotate _ _ journal,
    ⟨keeps.settings, keeps.others, keeps.program, keeps.fields, keeps.callCounters⟩, found, known, rfl⟩

end Draft

namespace Pass

/-- The calls of a method can always be counted, and no other method of the program changes. -/
theorem onMethod_countsCalls
    (labels : before.Labels counter sink)
    (differs : id.owner ≠ counter) :
    Succeeds (onMethod .trackCalls id) before fun result after =>
      (∃ changed, result = .ok changed) ∧ after.Labels counter sink ∧
        before.CallsCounted counter [id] after := by
  cases found : before.program.body? id with
  | none =>
    unfold onMethod
    apply Succeeds.get_bind
    simp only [found]
    exact .pure ⟨⟨false, rfl⟩, labels, .of_bodiless fun other member =>
      List.mem_singleton.1 member ▸ found⟩
  | some body =>
    obtain ⟨current, there, bodied⟩ := Option.bind_eq_some_iff.1 found
    obtain ⟨method, referred⟩ := Program.exists_methodRef?_of_method? there
    let taken : Session := { before with program := before.program.dropBody id }
    have labelsTaken : taken.Labels counter sink := labels.modifyMethod differs _
    have same : taken.program.methodRef? id = before.program.methodRef? id :=
      Program.methodRef?_modifyMethod fun _ _ => rfl
    have counts :
        Draft.Succeeds (onBody .trackCalls id) body taken fun _ bodyAfter after =>
          after.Labels counter sink ∧ taken.KeepsCounters counter after ∧
            ∃ found,
              after.callCounters.get? (Transform.callCounterName method.owner method.name) =
                  some found ∧
                bodyAfter = body.calling found.call :=
      Draft.Succeeds.session_bind (Draft.countCalls_counts labelsTaken (same.trans referred))
    obtain ⟨changed, _, between, worked, labelsBetween, keeps, counted, known, rfl⟩ := counts
    -- The method is still there, so that it gets its body back.
    have present := keeps.method?_emptied differs there
    exact onMethod_succeeds found worked present fun transformed =>
      ⟨⟨changed, rfl⟩, (labelsBetween.modifyMethod differs _).annotate _ transformed _,
        keeps.callsCounted differs there found referred known transformed⟩

/-- The calls of one method after the other can be counted. -/
theorem onMethods_countsCalls (labels : before.Labels counter sink) :
    Succeeds (onMethods .trackCalls) before fun _ after =>
      after.Labels counter sink ∧
        before.CallsCounted counter
          (before.program.applicationMethods.filter before.isTransformable) after := by
  have apart (id : MethodId)
      (member : id ∈ before.program.applicationMethods.filter (isEligible .trackCalls before)) :
      id.owner ≠ counter := by
    have transformable := (isTransformable_of_isEligible (List.mem_filter.1 member).2).1
    rw [Session.isTransformable, Bool.and_eq_true] at transformable
    exact labels.ne_counter transformable.1
  let Reached (done : List MethodId) (session : Session) : Prop :=
    session.Labels counter sink ∧ before.CallsCounted counter done session
  have start : Reached [] before :=
    ⟨labels, .of_bodiless fun _ member => absurd member List.not_mem_nil⟩
  refine Concludes.succeeds (onMethods_concludes start ?_) trivial
  rintro done id session among fresh ⟨labelsNow, counted⟩
  have differs := apart id (among id (List.mem_append_right _ List.mem_cons_self))
  refine (onMethod_countsCalls labelsNow differs).mono ?_
  rintro result after ⟨succeeds, labelsThen, countedHere⟩
  exact ⟨fun _ => succeeds, labelsThen,
    counted.append countedHere (List.disjoint_singleton.2 fresh) fun other member =>
      apart other (among other member)⟩

end Pass

/-- The counters of calls are told apart by their names. -/
theorem Session.Labels.callCounter_eq_iff
    (labels : session.Labels counter sink)
    {name nameOther : String}
    {found other : CallCounter}
    (known : session.callCounters.get? name = some found)
    (knownOther : session.callCounters.get? nameOther = some other) :
    (found.method = other.method ↔ name = nameOther) ∧
      (found.field = other.field ↔ name = nameOther) ∧ (found.name = other.name ↔ name = nameOther) := by
  obtain ⟨field, spelled, tallies⟩ := labels.callCounters name found known
  obtain ⟨fieldOther, spelledOther, talliesOther⟩ := labels.callCounters nameOther other knownOther
  have same (agree : name = nameOther) : found = other := by
    rw [agree, knownOther] at known
    exact (Option.some.inj known).symm
  have unique (keys : counterKey field = counterKey fieldOther) : name = nameOther :=
    CounterOwner.calls.inj (labels.owner_unique tallies.counted talliesOther.counted keys)
  refine ⟨⟨fun agree => unique ?_, fun agree => congrArg _ (same agree)⟩,
    ⟨fun agree => unique ?_, fun agree => congrArg _ (same agree)⟩, ?_⟩
  · rw [spelled, spelledOther] at agree
    have letters := congrArg String.toList (congrArg MethodRef.name agree)
    simp only [CallCounter.ofField, String.toList_append] at letters
    exact String.toList_inj.1 (List.append_cancel_left letters)
  · rw [spelled, spelledOther] at agree
    exact congrArg counterKey agree
  · rw [spelled, spelledOther]
    rfl

/-- Where the calls of a method were counted, they count on the counter of its name. -/
theorem Session.CallsCounted.countsCalls
    {after : Session}
    {ids : List MethodId}
    {method : MethodRef}
    (counted : before.CallsCounted counter ids after)
    (labels : after.Labels counter sink)
    (member : id ∈ ids)
    (tracks : before.Tracks id method) :
    ∃ found,
      after.callCounters.get? (Transform.callCounterName method.owner method.name) = some found ∧
        before.CountsCalls after id found := by
  obtain ⟨body, bodied⟩ := Option.isSome_iff_exists.1 tracks.bodied
  obtain ⟨found, known, changed⟩ := counted.bodies id member body method bodied tracks.referred
  obtain ⟨field, spelled, tallies⟩ := labels.callCounters _ _ known
  subst spelled
  refine ⟨_, known, ⟨body, bodied, changed⟩, labels.className.symm, ?_, ?_⟩
  · rw [labels.className]
    exact labels.fields _ _ tallies.counted
  · rw [labels.reports]
    exact labels.method?_tally tallies

/-- Calls can be counted for each method, on counters that are told apart as far as possible. -/
theorem Pass.run_trackCalls_countsEach (labels : before.Labels counter sink) :
    Succeeds (run .trackCalls) before fun _ after =>
      ∃ counterOf, before.CountsEach after counterOf := by
  refine run_succeeds (fun journal => ?_) fun session journal reached => ?_
  · have labelsHere := labels.annotate before.generated before.transformed journal
    refine (onMethods_countsCalls labelsHere).mono ?_
    rintro changed after ⟨labelsAfter, counted⟩
    have counters (id : MethodId) :
        ∃ found, ∀ method, before.Tracks id method →
          after.callCounters.get? (Transform.callCounterName method.owner method.name) =
              some found ∧
            before.CountsCalls after id found := by
      by_cases tracked : ∃ method, before.Tracks id method
      · obtain ⟨method, transformable, bodied, referred⟩ := tracked
        have member := Session.mem_applicationMethods_of_isTransformable transformable
        obtain ⟨found, known, counts⟩ :=
          counted.countsCalls labelsAfter (List.mem_filter.2 ⟨member, transformable⟩)
            ⟨transformable, bodied, referred⟩
        refine ⟨found, fun other tracks => ?_⟩
        rw [Option.some.inj (tracks.referred.symm.trans referred)]
        exact ⟨known, counts.body, counts.owner, counts.number, counts.declared⟩
      · exact ⟨.ofField counter "" ⟨counter, "", .int, true⟩, fun method tracks =>
          absurd ⟨method, tracks⟩ tracked⟩
    choose counterOf counted using counters
    have alike
        {first second : MethodId}
        {method other : MethodRef}
        (tracks : before.Tracks first method)
        (tracksOther : before.Tracks second other) :=
      labelsAfter.callCounter_eq_iff (counted first method tracks).1 (counted second other tracksOther).1
    simp only [Transform.callCounterName_eq_iff] at alike
    exact ⟨counterOf,
      { counts := fun id method tracks => (counted id method tracks).2
        methods := fun _ _ _ _ tracks tracksOther => (alike tracks tracksOther).1
        fields := fun _ _ _ _ tracks tracksOther => (alike tracks tracksOther).2.1
        names := fun _ _ _ _ tracks tracksOther => (alike tracks tracksOther).2.2 }⟩
  · obtain ⟨counterOf, each⟩ := reached
    exact ⟨counterOf,
      { counts := fun id method tracks =>
          let counts := each.counts id method tracks
          ⟨counts.body, counts.owner, counts.number, counts.declared⟩
        methods := each.methods
        fields := each.fields
        names := each.names }⟩

/-- Calls are counted for each method with its overloads exactly if only overloads are counted alike. -/
theorem Session.CountsEach.separatesCalls_iff
    {after : Session}
    {counterOf : MethodId → CallCounter}
    (each : before.CountsEach after counterOf) :
    before.SeparatesCalls counterOf ↔
      ∀ first second method other, before.Tracks first method → before.Tracks second other →
        method.CountedAlike other → first.owner = second.owner ∧ method.name = other.name := by
  constructor
  · intro separates first second method other tracks tracksOther alike
    exact (separates first second method other tracks tracksOther).1
      ((each.methods first second method other tracks tracksOther).2 alike)
  · intro overloads first second method other tracks tracksOther
    constructor
    · intro same
      exact overloads first second method other tracks tracksOther
        ((each.methods first second method other tracks tracksOther).1 same)
    · rintro ⟨owners, names⟩
      refine (each.methods first second method other tracks tracksOther).2 (.inl ⟨?_, ?_⟩)
      · exact Program.owner_of_methodRef? owners tracks.referred tracksOther.referred
      · rw [MethodRef.bareName, MethodRef.bareName, names]

end Tracking

namespace Pass

variable {settings : Settings} {earlier later : List Pass}

/-- Only passes that keep the labels run before the one that counts calls. -/
theorem mem_beforeCalls_of_wanted
    (passes : wanted settings = earlier ++ .trackCalls :: later)
    {pass : Pass}
    (member : pass ∈ earlier) :
    pass ∈ beforeCalls := by
  have ordered : all.Pairwise fun first second => second = .trackCalls → first ∈ beforeCalls := by
    decide
  have ordered := ordered.sublist (List.filter_sublist (p := isWanted settings))
  rw [← wanted, passes, List.pairwise_append] at ordered
  exact ordered.2.2 pass member .trackCalls List.mem_cons_self rfl

/-- Passes that keep the labels start from a program without counters. -/
theorem labels_of_ends
    {program : Program}
    {changes : List Bool}
    {before : Session}
    (unregistered : program.class? settings.counterClassName = none)
    (early : ∀ pass ∈ earlier, pass ∈ beforeCalls)
    (ends : Ends (earlier.mapM run) (.start settings program) changes before) :
    before.Labels settings.counterClassName settings.sink :=
  Transform.Leaves.of_ends
    (Transform.Leaves.mapM (.start unregistered) fun pass member _ labels =>
      run_keepsLabels labels (early pass member))
    ends

/-- The pass that counts calls succeeds whatever the program is, if the name of the class of the
counters is free.  Calls of each method that it works on are counted, and of two methods together
exactly if they are counted alike.  So calls are counted for each method with its overloads exactly if
only overloads are counted alike. -/
theorem trackCalls_separates
    {program : Program}
    {changes : List Bool}
    {before : Session}
    (unregistered : program.class? settings.counterClassName = none)
    (passes : wanted settings = earlier ++ .trackCalls :: later)
    (ends : Ends (earlier.mapM run) (.start settings program) changes before) :
    Succeeds (run .trackCalls) before fun _ after =>
      ∃ counterOf, before.CountsEach after counterOf ∧
        (before.SeparatesCalls counterOf ↔
          ∀ first second method other, before.Tracks first method → before.Tracks second other →
            method.CountedAlike other → first.owner = second.owner ∧ method.name = other.name) := by
  have labels := labels_of_ends unregistered (fun _ => mem_beforeCalls_of_wanted passes) ends
  refine (run_trackCalls_countsEach labels).mono ?_
  rintro _ after ⟨counterOf, each⟩
  exact ⟨counterOf, each, each.separatesCalls_iff⟩

end Pass

/-- A class with a constructor and overloads of a method of the given name. -/
def constructedItem (name : String) : Program where
  entries :=
    [("shop.Item",
      { Class.plain "shop.Item" ⟨0⟩ with
        methods :=
          [⟨constructorName, [], .void, ⟨0⟩,
              some ⟨[⟨"this", .object "shop.Item"⟩], [.bind ⟨0⟩ (.receiver (.object "shop.Item")), .return none]⟩⟩,
            ⟨name, [], .void, Method.static, some ⟨[], [.return none]⟩⟩,
            ⟨name, [.int], .void, Method.static, some ⟨[], [.return none]⟩⟩] })]
  distinct := by simp

/-- The session in which calls are counted if everything that can be counted is. -/
def itemBeforeCalls (name : String) : Session :=
  ((Pass.beforeCalls.mapM Pass.run).on (.start .full (constructedItem name))).2

/-- The passes in front of the one that counts calls succeed. -/
theorem constructedItem_runs (name : String) (among : name ∈ ["size", "init"]) :
    ∃ changes,
      Ends (Pass.beforeCalls.mapM Pass.run) (.start .full (constructedItem name)) changes
        (itemBeforeCalls name) := by
  have computed :
      ∀ name ∈ ["size", "init"],
        ((Pass.beforeCalls.mapM Pass.run).on
          (.start .full (constructedItem name))).1.toOption.isSome := by
    decide +kernel
  obtain ⟨changes, given⟩ := Option.isSome_iff_exists.1 (computed name among)
  exact ⟨changes, Ends.of_result given⟩

/-- The overloads are counted together, but not with the constructor. -/
theorem constructedItem_separates_calls :
    ∃ changed after counterOf,
      Ends (Pass.run .trackCalls) (itemBeforeCalls "size") changed after ∧
        (itemBeforeCalls "size").CountsEach after counterOf ∧
        (itemBeforeCalls "size").SeparatesCalls counterOf := by
  obtain ⟨changes, ends⟩ := constructedItem_runs "size" (by decide)
  -- The class, the name and the name of the counter of each method, with those that were generated.
  let named : List (String × String × String) :=
    [("shop.Item", constructorName, "shop.Item_init"), ("shop.Item", "size", "shop.Item_size"),
      ("shop.Item", "size", "shop.Item_size"), ("shop.Item", "incReads", "shop.Item_incReads"),
      ("shop.Item", "incWrites", "shop.Item_incWrites")]
  have listed :
      ((itemBeforeCalls "size").program.applicationMethods.map fun id =>
          ((itemBeforeCalls "size").program.methodRef? id).map fun method =>
            (id.owner, method.name, Transform.callCounterName method.owner method.name)) =
        named.map some := by
    decide +kernel
  have among
      {id : MethodId}
      {method : MethodRef}
      (tracks : (itemBeforeCalls "size").Tracks id method) :
      (id.owner, method.name, Transform.callCounterName method.owner method.name) ∈ named := by
    rw [← List.mem_map_of_injective (Option.some_injective _), ← listed, List.mem_map]
    exact ⟨id, Session.mem_applicationMethods_of_isTransformable tracks.transformable,
      by rw [tracks.referred]; rfl⟩
  have apart :
      ∀ first ∈ named, ∀ second ∈ named, first.2.2 = second.2.2 →
        first.1 = second.1 ∧ first.2.1 = second.2.1 := by
    decide
  obtain ⟨changed, after, counted, counterOf, each, separates⟩ :=
    Pass.trackCalls_separates (by decide +kernel)
      (show _ = Pass.beforeCalls ++ .trackCalls :: [.wrapSignatures, .propagateArrays] by decide) ends
  refine ⟨changed, after, counterOf, counted, each, separates.2 ?_⟩
  intro first second method other tracks tracksOther alike
  exact apart _ (among tracks) _ (among tracksOther) (Transform.callCounterName_eq_iff.2 alike)

/-- A method is counted together with a constructor if its name is that of constructors without
brackets. -/
theorem constructedItem_mixes_calls :
    ∃ changed after counterOf,
      Ends (Pass.run .trackCalls) (itemBeforeCalls "init") changed after ∧
        (itemBeforeCalls "init").CountsEach after counterOf ∧
        (itemBeforeCalls "init").Tracks ⟨"shop.Item", 0⟩ ⟨"shop.Item", constructorName, [], .void⟩ ∧
        (itemBeforeCalls "init").Tracks ⟨"shop.Item", 1⟩ ⟨"shop.Item", "init", [], .void⟩ ∧
        (counterOf ⟨"shop.Item", 0⟩).method = (counterOf ⟨"shop.Item", 1⟩).method ∧
        ¬ (itemBeforeCalls "init").SeparatesCalls counterOf := by
  obtain ⟨changes, ends⟩ := constructedItem_runs "init" (by decide)
  have labels := Pass.labels_of_ends (by decide +kernel) (fun _ => id) ends
  obtain ⟨changed, after, counted, counterOf, each⟩ := Pass.run_trackCalls_countsEach labels
  have constructor :
      (itemBeforeCalls "init").Tracks ⟨"shop.Item", 0⟩ ⟨"shop.Item", constructorName, [], .void⟩ :=
    ⟨by decide +kernel, by decide +kernel, by decide +kernel⟩
  have method :
      (itemBeforeCalls "init").Tracks ⟨"shop.Item", 1⟩ ⟨"shop.Item", "init", [], .void⟩ :=
    ⟨by decide +kernel, by decide +kernel, by decide +kernel⟩
  have together := (each.methods _ _ _ _ constructor method).2 (.inl ⟨rfl, by decide⟩)
  refine ⟨changed, after, counterOf, counted, each, constructor, method, together, ?_⟩
  intro separates
  exact absurd ((separates _ _ _ _ constructor method).1 together).2 (by decide)

end AccessProfiler
