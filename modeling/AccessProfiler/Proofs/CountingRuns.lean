import AccessProfiler.Proofs.CountedBodies
import AccessProfiler.Proofs.CountingPasses

/-!
# Runs of the passes that count

A pass over the methods of a furnished program replaces the plan of each eligible method, and succeeds
if its step on each body does (`Pass.onMethods_furnishes`).  Every pass that counts is such a pass, so
that what counting makes of each body is known exactly, up to calls that count on static counters.
-/

namespace AccessProfiler

section Plans

variable
    {counter : String}
    {sink : Sink}
    {Tally : Instruction → Prop}
    {profiles : Table String Profile}
    {plan other : Plan}
    {original current : Program}

/-- Only what is planned for the bodies of the original program matters. -/
theorem Program.Furnished.replan
    (same :
      ∀ id method body, original.method? id = some method → method.body = some body →
        other id body = plan id body)
    (furnished : original.Furnished counter sink Tally profiles plan current) :
    original.Furnished counter sink Tally profiles other current := by
  intro name differs
  have relation := furnished name differs
  cases found : original.class? name with
  | none =>
    rw [found] at relation
    exact relation
  | some declaration =>
    have planned :
        (declaration.plannedMethods fun index => other ⟨name, index⟩) =
          declaration.plannedMethods fun index => plan ⟨name, index⟩ := by
      apply List.ext_getElem?
      intro index
      rw [Class.plannedMethods, Class.plannedMethods, List.getElem?_mapIdx, List.getElem?_mapIdx]
      cases located : declaration.methods[index]? with
      | none => rfl
      | some method =>
        have there : original.method? ⟨name, index⟩ = some method :=
          Option.bind_eq_some_iff.2 ⟨declaration, found, located⟩
        rw [Option.map_some, Option.map_some]
        cases given : method.body with
        | none => rfl
        | some body => rw [Option.map_some, Option.map_some, same _ method body there given]
    rw [found, Option.map_some] at relation
    rw [Option.map_some, Class.furnish, planned]
    exact relation

end Plans

/-- The session is in the middle of a pass that started from another one. -/
structure Session.Working
    (counter : String)
    (sink : Sink)
    (original : Program)
    (base session : Session) : Prop where
  ledger : session.Ledger counter sink
  settings : session.settings = base.settings
  profiles : session.profiles = base.profiles
  fields :
    ∀ owner name, owner ≠ counter → isInstrumentationName name = false →
      session.program.resolveField? owner name = original.resolveField? owner name

namespace Pass

variable
    {counter : String}
    {sink : Sink}
    {Kind : Program → Instruction → Prop}
    {original : Program}
    {plan next : Plan}
    {base before : Session}
    {pass : Pass}
    {id : MethodId}
    {method : Method}
    {condition : Prop}

/-- A step on the body of a method makes what is planned, and succeeds under a condition. -/
def Makes
    (condition : Prop)
    (counter : String)
    (sink : Sink)
    (Kind : Program → Instruction → Prop)
    (original : Program)
    (base : Session)
    (pass : Pass)
    (id : MethodId)
    (exact planned : Body) : Prop :=
  ∀ body session, base.Working counter sink original session →
    exact.Tallied (Kind session.program) body →
      ∃ result bodyAfter after,
        (onBody pass id).on body session = ((result, bodyAfter), after) ∧
          (condition → ∃ changed, result = .ok changed) ∧ after.Ledger counter sink ∧
          session.Extends counter after ∧ planned.Tallied (Kind after.program) bodyAfter

/-- A step that succeeds does so under any condition. -/
theorem Makes.of_succeeds
    {exact planned : Body}
    (succeeds :
      ∀ body session, base.Working counter sink original session →
        exact.Tallied (Kind session.program) body →
          Draft.Succeeds (onBody pass id) body session fun _ bodyAfter after =>
            after.Ledger counter sink ∧ session.Extends counter after ∧
              planned.Tallied (Kind after.program) bodyAfter) :
    Makes condition counter sink Kind original base pass id exact planned := by
  intro body session working tallied
  obtain ⟨changed, bodyAfter, after, ends, made⟩ := succeeds body session working tallied
  exact ⟨.ok changed, bodyAfter, after, ends, fun _ => ⟨changed, rfl⟩, made⟩

/-- The body of a method is put back in what the step on it made of the program, if the method is still
there. -/
theorem onMethod_succeeds
    {Holds : Except Error Bool → Session → Prop}
    {body bodyAfter : Body}
    {result : Except Error Bool}
    {between : Session}
    {emptied : Method}
    (found : before.program.body? id = some body)
    (worked :
      (onBody pass id).on body { before with program := before.program.dropBody id } =
        ((result, bodyAfter), between))
    (present : between.program.method? id = some emptied)
    (done :
      ∀ transformed,
        Holds result
          { between with
            program :=
              between.program.modifyMethod id fun method => { method with body := some bodyAfter }
            transformed }) :
    Succeeds (onMethod pass id) before Holds := by
  have put :
      between.program.setBody id bodyAfter =
        .ok (between.program.modifyMethod id fun method => { method with body := some bodyAfter }) := by
    simp only [Program.setBody, present]
  unfold onMethod
  apply Succeeds.get_bind
  simp only [found, worked]
  apply Succeeds.set_bind
  simp only [put]
  apply Succeeds.set_bind
  have unmarked := done between.transformed
  cases result with
  | error error => exact .pure unmarked
  | ok changed =>
    cases changed with
    | true =>
      refine ⟨.ok true, _, Ends.bind_iff.2 ⟨(), _, Ends.modify_iff.2 rfl, Ends.pure_iff.2 ⟨rfl, rfl⟩⟩,
        ?_⟩
      split
      · exact unmarked
      · exact done _
    | false => exact .pure unmarked

theorem onMethod_furnishes
    (condition : Prop)
    (next : Plan)
    (mono :
      ∀ before after : Program, (∀ name, before.offers counter name → after.offers counter name) →
        ∀ call, Kind before call → Kind after call)
    (apart : original.NamesApart counter)
    (furnishes : before.Furnishes counter sink (Kind before.program) plan original)
    (settings : before.settings = base.settings)
    (profiles : before.profiles = base.profiles)
    (differs : id.owner ≠ counter)
    (has : original.method? id = some method)
    (same : ∀ other, other ≠ id → next other = plan other)
    (makes :
      ∀ body, method.body = some body →
        Makes condition counter sink Kind original base pass id (plan id body) (next id body)) :
    Succeeds (onMethod pass id) before fun result after =>
      (condition → ∃ changed, result = .ok changed) ∧
        after.Furnishes counter sink (Kind after.program) next original ∧
        after.settings = base.settings ∧ after.profiles = base.profiles := by
  obtain ⟨current, there, related⟩ := furnishes.furnished.method?_eq_some differs has
  cases found : before.program.body? id with
  | none =>
    unfold onMethod
    apply Succeeds.get_bind
    simp only [found]
    have bodiless : current.body = none := by
      rw [Program.body?, there] at found
      exact found
    refine .pure ⟨fun _ => ⟨false, rfl⟩, ⟨furnishes.ledger, furnishes.counterName,
      furnishes.furnished.replan ?_, furnishes.profiled⟩, settings, profiles⟩
    intro other otherMethod body located given
    by_cases here : other = id
    · subst here
      rw [has] at located
      cases located
      have bodies := related.body
      rw [given, bodiless] at bodies
      cases bodies
    · rw [same other here]
  | some body =>
    obtain ⟨originalBody, given, tallied⟩ := furnishes.furnished.body?_of_current differs has found
    let taken : Session := { before with program := before.program.dropBody id }
    have atCounter : taken.program.class? counter = before.program.class? counter :=
      Program.class?_modifyMethod.trans (if_neg (Ne.symm differs))
    have working : base.Working counter sink original taken :=
      { ledger := furnishes.ledger.withProgram atCounter
        settings := settings
        profiles := profiles
        fields := fun owner name differs plain =>
          (before.program.resolveField?_dropBody id owner name).trans
            (furnishes.furnished.resolveField?_eq apart differs plain) }
    have offers : ∀ name, before.program.offers counter name → taken.program.offers counter name := by
      intro name offered
      rw [Program.offers_iff] at offered ⊢
      rw [atCounter]
      exact offered
    obtain ⟨result, bodyAfter, between, worked, succeeds, ledger, extension, talliedAfter⟩ :=
      makes originalBody given body taken working (tallied.mono (mono _ _ offers))
    have worked :
        (onBody pass id).on body { before with program := before.program.dropBody id } =
          ((result, bodyAfter), between) :=
      worked
    -- The method is still there, so that it gets its body back.
    have present : ∃ emptied, between.program.method? id = some emptied := by
      have emptied : taken.program.method? id = some { current with body := none } := by
        show (before.program.modifyMethod id _).method? id = _
        rw [Program.method?_modifyMethod, if_pos rfl, there]
        rfl
      refine ⟨{ current with body := none }, ?_⟩
      rw [Program.method?, extension.grows.program.others id.owner differs]
      exact emptied
    obtain ⟨emptied, located⟩ := present
    have offersAll : ∀ name, before.program.offers counter name →
        between.program.offers counter name :=
      fun name offered => extension.grows.program.offers counter name (offers name offered)
    have furnished :
        original.Furnished counter sink (Kind between.program) before.profiles next
          (between.program.modifyMethod id fun method => { method with body := some bodyAfter }) :=
      (furnishes.furnished.mono (mono _ _ offersAll)).putBody differs has given
        extension.grows.program same talliedAfter
    have atCounterFinal :
        (between.program.modifyMethod id fun method =>
            { method with body := some bodyAfter }).class? counter =
          between.program.class? counter :=
      Program.class?_modifyMethod.trans (if_neg (Ne.symm differs))
    have kinds :
        ∀ call, Kind between.program call →
          Kind (between.program.modifyMethod id fun method =>
            { method with body := some bodyAfter }) call := by
      refine mono _ _ fun name offered => ?_
      rw [Program.offers_iff] at offered ⊢
      rw [atCounterFinal]
      exact offered
    have sameProfiles : between.profiles = before.profiles := extension.grows.profiles
    have done (transformed : List MethodId) :
        ({ between with
          program :=
            between.program.modifyMethod id fun method => { method with body := some bodyAfter }
          transformed } : Session).Furnishes counter sink
          (Kind (between.program.modifyMethod id fun method =>
            { method with body := some bodyAfter })) next original := by
      refine ⟨(ledger.withProgram atCounterFinal).annotate _ transformed _, ?_, ?_, ?_⟩
      · show between.settings.counterClassName = counter
        rw [extension.grows.settings]
        exact furnishes.counterName
      · show original.Furnished counter sink _ between.profiles next _
        rw [sameProfiles]
        exact furnished.mono kinds
      · show ∀ name profile, between.profiles.get? name = some profile →
          (Session.start between.settings original).isTransformableClass name
        rw [sameProfiles, extension.grows.settings]
        exact furnishes.profiled
    have settingsAfter : between.settings = base.settings := extension.grows.settings.trans settings
    have profilesAfter : between.profiles = base.profiles := sameProfiles.trans profiles
    exact onMethod_succeeds found worked located fun transformed =>
      ⟨succeeds, done transformed, settingsAfter, profilesAfter⟩

/-- What is transformed is a method of the original program: what was generated is synthetic. -/
theorem method?_of_isTransformable
    {Tally : Instruction → Prop}
    (furnishes : before.Furnishes counter sink Tally plan original)
    (transformable : before.isTransformable id) :
    id.owner ≠ counter ∧ ∃ method current, original.method? id = some method ∧
      before.program.method? id = some current ∧ current.signature = method.signature := by
  simp only [Session.isTransformable, Bool.and_eq_true] at transformable
  have start := (isTransformableClass_start furnishes).symm.trans transformable.1
  have differs : id.owner ≠ counter :=
    furnishes.counterName ▸ Session.ne_counterClassName_of_isTransformableClass start
  refine ⟨differs, ?_⟩
  obtain ⟨current, there, written⟩ := (Option.any_eq_true _ _).1 transformable.2
  obtain ⟨changed, declares, located⟩ := Option.bind_eq_some_iff.1 there
  obtain ⟨declaration, found, related⟩ := furnishes.furnished.class?_of_current differs declares
  rcases related.cases_getElem?_methods located with
    ⟨method, locatedOld, tallied⟩ | ⟨profile, -, added, member, tallied⟩
  · exact ⟨method, current, Option.bind_eq_some_iff.2 ⟨declaration, found, locatedOld⟩, there,
      tallied.signature⟩
  · have synthetic : added.flags = Method.synthetic := by
      simp only [Profile.methods, List.mem_cons, List.not_mem_nil, or_false] at member
      rcases member with rfl | rfl
      · rfl
      · rfl
    rw [Method.isSynthetic, tallied.flags_eq, synthetic] at written
    have marked : Method.synthetic.includes Method.synthetic := by decide
    simp [marked] at written

/-- The methods that a pass works on are those that are eligible. -/
theorem contains_eligible
    {Tally : Instruction → Prop}
    (furnishes : before.Furnishes counter sink Tally plan original)
    (pass : Pass)
    (id : MethodId) :
    (before.program.applicationMethods.filter (pass.isEligible before)).contains id =
      pass.isEligible before id := by
  rw [Bool.eq_iff_iff, List.contains_iff_mem, List.mem_filter]
  constructor
  · exact And.right
  · intro eligible
    refine ⟨?_, eligible⟩
    obtain ⟨transformable, -⟩ := isTransformable_of_isEligible eligible
    obtain ⟨-, -, current, -, there, -⟩ := method?_of_isTransformable furnishes transformable
    apply Program.mem_applicationMethods_of_method? there
    simp only [Session.isTransformable, Session.isTransformableClass, Bool.and_eq_true]
      at transformable
    obtain ⟨changed, declares, kinds⟩ := (Option.any_eq_true _ _).1 transformable.1.2
    rw [declares, Option.any_some]
    exact (Bool.and_eq_true_iff.1 kinds).1

theorem summarize_of_ok
    {results : List (Except Error Bool)}
    (ok : ∀ result ∈ results, ∃ changed, result = .ok changed) :
    ∃ changed, summarize results = .ok changed := by
  unfold summarize
  generalize false = start
  induction results generalizing start with
  | nil => exact ⟨start, rfl⟩
  | cons result rest hypothesis =>
    obtain ⟨changed, rfl⟩ := ok result List.mem_cons_self
    exact hypothesis (fun other member => ok other (List.mem_cons_of_mem _ member)) _

/-- A pass on methods works on each eligible method once, and succeeds if all its steps do. -/
theorem onMethods_concludes
    {Reached : List MethodId → Session → Prop}
    (start : Reached [] before)
    (step :
      ∀ done id session,
        (∀ other ∈ done ++ [id],
          other ∈ before.program.applicationMethods.filter (pass.isEligible before)) →
        id ∉ done → Reached done session →
        Succeeds (onMethod pass id) session fun result after =>
          (condition → ∃ changed, result = .ok changed) ∧ Reached (done ++ [id]) after) :
    Concludes condition (onMethods pass) before fun _ after =>
      Reached (before.program.applicationMethods.filter (pass.isEligible before)) after := by
  have distinct :
      (before.program.applicationMethods.filter (pass.isEligible before)).Nodup :=
    before.program.nodup_applicationMethods.filter _
  unfold onMethods
  apply Concludes.get_bind
  dsimp only
  generalize before.program.applicationMethods.filter (pass.isEligible before) = eligible
    at distinct step ⊢
  have worked :
      Succeeds (eligible.mapM pass.onMethod) before fun results after =>
        Reached eligible after ∧
          ∀ result ∈ results, condition → ∃ changed, result = .ok changed := by
    refine Succeeds.mapM
      (fun (done : List MethodId) (results : List (Except Error Bool)) (session : Session) =>
        Reached done session ∧ ∀ result ∈ results, condition → ∃ changed, result = .ok changed)
      ⟨start, fun _ member => absurd member List.not_mem_nil⟩ ?_
    rintro done id rest results session split ⟨reached, succeeded⟩
    have among : ∀ other ∈ done ++ [id], other ∈ eligible := by
      intro other member
      rw [split, ← List.singleton_append, ← List.append_assoc]
      exact List.mem_append_left _ member
    have fresh : id ∉ done := by
      rw [split] at distinct
      intro earlier
      exact (List.nodup_append.1 distinct).2.2 id earlier id List.mem_cons_self rfl
    refine (step done id session among fresh reached).mono ?_
    rintro result after ⟨succeedsHere, reachedThen⟩
    refine ⟨reachedThen, ?_⟩
    intro other member
    rcases List.mem_append.1 member with old | new
    · exact succeeded other old
    · rw [List.mem_singleton.1 new]
      exact succeedsHere
  refine .bind (.of_succeeds worked) ?_
  rintro results after ⟨reached, succeeded⟩
  constructor
  · intro changed last ends
    obtain ⟨-, rfl⟩ := Transform.ends_ofExcept.1 ends
    exact reached
  · intro given
    obtain ⟨changed, summarized⟩ := summarize_of_ok fun result among => succeeded result among given
    exact ⟨changed, after, Transform.ends_ofExcept.2 ⟨summarized, rfl⟩⟩

/-- A pass on methods puts another plan in the place of the plan for the eligible methods, and succeeds
if its step on each eligible body does. -/
theorem onMethods_furnishes
    (Kind : Program → Instruction → Prop)
    (next : Plan)
    (mono :
      ∀ before after : Program, (∀ name, before.offers counter name → after.offers counter name) →
        ∀ call, Kind before call → Kind after call)
    (apart : original.NamesApart counter)
    (furnishes : before.Furnishes counter sink (Kind before.program) plan original)
    (makes :
      ∀ id method body, pass.isEligible before id → original.method? id = some method →
        method.body = some body →
        Makes condition counter sink Kind original before pass id (plan id body) (next id body)) :
    Concludes condition (onMethods pass) before fun _ after =>
      after.Furnishes counter sink (Kind after.program)
          (Plan.choose (pass.isEligible before) next plan) original ∧
        after.settings = before.settings ∧ after.profiles = before.profiles := by
  have chosen :
      (before.program.applicationMethods.filter (pass.isEligible before)).contains =
        pass.isEligible before :=
    funext fun id => contains_eligible furnishes pass id
  rw [← chosen]
  let Reached (done : List MethodId) (session : Session) : Prop :=
    session.Furnishes counter sink (Kind session.program) (Plan.choose done.contains next plan)
        original ∧
      session.settings = before.settings ∧ session.profiles = before.profiles
  have start : Reached [] before := ⟨furnishes, rfl, rfl⟩
  refine onMethods_concludes start ?_
  rintro done id session among fresh ⟨furnishesNow, settings, profiles⟩
  have asked := (List.mem_filter.1 (among id (List.mem_append_right _ List.mem_cons_self))).2
  obtain ⟨differs, method, -, has, -⟩ :=
    method?_of_isTransformable furnishes (isTransformable_of_isEligible asked).1
  refine onMethod_furnishes condition (Plan.choose (done ++ [id]).contains next plan) mono apart
    furnishesNow settings profiles differs has ?_ ?_
  · intro other elsewhere
    simp [Plan.choose, elsewhere]
  · intro body given
    have step := makes id method body asked has given
    simpa [Plan.choose, fresh] using step

/-- A pass works between two events. -/
theorem run_succeeds
    {Reached : Session → Prop}
    (works :
      ∀ journal,
        Succeeds (if pass.isGlobal then pass.onProgram else pass.onMethods) { before with journal }
          fun _ after => Reached after)
    (lasts : ∀ session journal, Reached session → Reached { session with journal }) :
    Succeeds (run pass) before fun _ after => Reached after := by
  unfold run
  apply Transform.record_bind
  intro journal
  -- The branch is taken apart, because the events are recorded in each of the two.
  have working := works journal
  cases global : pass.isGlobal with
  | true =>
    rw [global, if_pos rfl] at working
    refine working.bind ?_
    intro changed after reached
    apply Transform.record_bind
    intro later
    exact .pure (lasts after later reached)
  | false =>
    rw [global, if_neg Bool.false_ne_true] at working
    refine working.bind ?_
    intro changed after reached
    apply Transform.record_bind
    intro later
    exact .pure (lasts after later reached)

theorem run_concludes
    {Reached : Session → Prop}
    (works :
      ∀ journal,
        Concludes condition (if pass.isGlobal then pass.onProgram else pass.onMethods)
          { before with journal } fun _ after => Reached after)
    (lasts : ∀ session journal, Reached session → Reached { session with journal }) :
    Concludes condition (run pass) before fun _ after => Reached after where
  holds changed after ends := by
    obtain ⟨journal, worked, journalAfter, works', rfl⟩ := ends_run ends
    exact lasts worked journalAfter ((works journal).holds _ _ works')
  ends given := by
    obtain ⟨changed, after, ends, -⟩ :=
      run_succeeds (fun journal => (works journal).succeeds given) lasts
    exact ⟨changed, after, ends⟩

end Pass

theorem Session.Furnishes.withJournal
    {counter : String}
    {sink : Sink}
    {Tally : Instruction → Prop}
    {plan : Plan}
    {original : Program}
    {session : Session}
    (furnishes : session.Furnishes counter sink Tally plan original)
    (journal : Journal) :
    ({ session with journal } : Session).Furnishes counter sink Tally plan original :=
  ⟨furnishes.ledger.annotate session.generated session.transformed journal, furnishes.counterName,
    furnishes.furnished, furnishes.profiled⟩

/-! ## What becomes of bodies -/

namespace Session

/-- A session at its start that has profiles already. -/
def withProfiles
    (settings : Settings)
    (program : Program)
    (profiles : Table String Profile) : Session :=
  { start settings program with profiles }

/-- A constructor of an instrumented class that was written by hand is patched. -/
def patches (session : Session) (id : MethodId) : Bool :=
  (session.profiles.get? id.owner).isSome &&
    (session.program.method? id).any fun method => method.isConstructor && !method.isSynthetic

/-- Constructors are patched, other bodies stay as they are. -/
def patching (session : Session) : Plan :=
  Plan.choose session.patches
    (fun id body =>
      (session.profiles.get? id.owner).elim body fun profile =>
        profile.patched session.settings.sink body)
    .none

/-- Constructors are patched, and in some methods the accesses to instance fields are counted. -/
def counting (session : Session) (counted : MethodId → Bool) : Plan :=
  Plan.choose counted (fun id body => (session.patching id body).counted session) session.patching

end Session

/-- A constructor stays as it is, or gets the block that assigns the serial number. -/
theorem Profile.patched_cases (sink : Sink) (profile : Profile) (body : Body) :
    profile.patched sink body = body ∨
      ∃ this declaration, body.receiver? = some this ∧ declaration.type = .int ∧
        profile.skip? this body.instructions = none ∧
        profile.patched sink body =
          { locals := body.locals ++ [declaration]
            instructions :=
              body.bindings ++ profile.serialAssignment sink this ⟨body.locals.length⟩ ++
                body.unbound } := by
  rw [Profile.patched]
  split
  · rename_i changed patches
    exact .inr (Draft.patchConstructor_eq_ok patches)
  · exact .inl rfl

namespace Session

variable {session : Session} {id : MethodId} {body : Body}

/-- A body stays as it is, or it is that of a constructor which gets the block that assigns the serial
number. -/
theorem patching_cases (session : Session) (id : MethodId) (body : Body) :
    session.patching id body = body ∨
      ∃ profile this declaration, session.patches id ∧ session.profiles.get? id.owner = some profile ∧
        body.receiver? = some this ∧ declaration.type = .int ∧
        profile.skip? this body.instructions = none ∧
        session.patching id body =
          { locals := body.locals ++ [declaration]
            instructions :=
              body.bindings ++
                profile.serialAssignment session.settings.sink this ⟨body.locals.length⟩ ++
                body.unbound } := by
  rw [patching, Plan.choose]
  split
  · rename_i patches
    cases known : session.profiles.get? id.owner with
    | none => exact .inl rfl
    | some profile =>
      rcases profile.patched_cases session.settings.sink body with
        same | ⟨this, declaration, received, counts, unskipped, patched⟩
      · exact .inl same
      · exact .inr ⟨profile, this, declaration, patches, rfl, received, counts, unskipped, patched⟩
  · exact .inl rfl

/-- An instruction of a patched body was there before or belongs to the block that assigns the serial
number. -/
theorem mem_patching
    {instruction : Instruction}
    (member : instruction ∈ (session.patching id body).instructions) :
    instruction ∈ body.instructions ∨
      ∃ profile this declaration, session.patches id ∧ session.profiles.get? id.owner = some profile ∧
        body.receiver? = some this ∧ declaration.type = .int ∧
        (session.patching id body).locals = body.locals ++ [declaration] ∧
        instruction ∈
          profile.serialAssignment session.settings.sink this ⟨body.locals.length⟩ := by
  rcases session.patching_cases id body with
    same | ⟨profile, this, declaration, patches, known, received, counts, -, patched⟩
  · exact .inl (same ▸ member)
  · rw [patched] at member ⊢
    have whole : body.bindings ++ body.unbound = body.instructions := by
      simp [Body.bindings, Body.unbound]
    rw [← whole]
    simp only [List.mem_append] at member ⊢
    rcases member with (front | block) | behind
    · exact .inl (.inl front)
    · exact .inr ⟨profile, this, declaration, patches, known, received, counts, rfl, block⟩
    · exact .inl (.inr behind)

/-- Locals keep their types when a body is patched. -/
theorem localType?_patching
    (session : Session)
    (id : MethodId)
    {source : LocalId}
    {type : Ty}
    (found : body.localType? source = some type) :
    (session.patching id body).localType? source = some type := by
  rcases session.patching_cases id body with
    same | ⟨profile, this, declaration, -, -, -, -, -, patched⟩
  · rw [same]
    exact found
  · rw [patched]
    rw [Body.localType?, Body.local?] at found ⊢
    obtain ⟨declared, located, typed⟩ := Option.map_eq_some_iff.1 found
    have bounded := (List.getElem?_eq_some_iff.1 located).1
    rw [List.getElem?_append_left bounded, located, Option.map_some, typed]

end Session
end AccessProfiler
