import AccessProfiler.Proofs.AllottedCounters
import AccessProfiler.Proofs.CountedPrograms
import AccessProfiler.Proofs.KeptLabels

/-!
# Sessions before bodies are worked on

Classes are instrumented before any body is worked on, and that does not depend on the order of methods.
Afterwards only constructors count (`Session.Silent`), there are no wrappers, and the program is the
original one with the members of the profiles (`Session.Prepared`).
-/

namespace AccessProfiler

variable {counter : String} {sink : Sink} {settings : Settings} {program : Program} {session : Session}

namespace Session

/-- The books agree, and there is no method that counts on a static counter. -/
structure Silent (counter : String) (sink : Sink) (session : Session) : Prop where
  books : session.Books counter sink
  untallied : ∀ owner, ¬ session.Has (.tally owner)

namespace Silent

theorem start (unregistered : program.class? settings.counterClassName = none) :
    (Session.start settings program).Silent settings.counterClassName settings.sink where
  books := .start unregistered
  untallied owner := by
    rintro ⟨field, tallies⟩
    exact absurd tallies.counted (by simp [Session.start, CounterTable.empty, Table.get?_empty])

/-- The class of the counters is registered without methods. -/
theorem ensureClass (silent : session.Silent session.counters.className sink) :
    ({ session with
      program :=
        (session.program.ensureClass session.counters.className session.counters.declaration).2 } :
      Session).Silent session.counters.className sink := by
  have found
      {declaration : Class}
      (there :
        (session.program.ensureClass session.counters.className
          session.counters.declaration).2.class? session.counters.className = some declaration) :
      session.program.class? session.counters.className = some declaration ∨
        declaration = session.counters.declaration := by
    rw [Program.class?_ensureClass, if_pos rfl] at there
    cases known : session.program.class? session.counters.className with
    | none =>
      rw [known] at there
      exact .inr (Option.some.inj there).symm
    | some old =>
      rw [known] at there
      exact .inl there
  refine ⟨⟨silent.books.labels.ensureClass, silent.books.distinct, silent.books.names,
    fun declaration there number member => ?_, fun name counters known => ?_⟩, fun owner => ?_⟩
  · rcases found there with old | rfl
    · exact silent.books.numbers declaration old number member
    · cases member
  · obtain ⟨readField, -, -, tallies, -⟩ := silent.books.typeCounters name counters known
    refine absurd ⟨readField, ?_⟩ (silent.untallied (.reads name))
    rw [silent.books.labels.reports]
    exact tallies
  · rintro ⟨field, counted, declaration, there, member⟩
    rcases found there with old | rfl
    · exact silent.untallied owner ⟨field, counted, declaration, old, member⟩
    · cases member

/-- Counters of instances may come in, and other classes may change. -/
theorem restsOnCounters : RestsOnCounters counter (Silent counter sink) where
  className _ silent := silent.books.labels.className
  elsewhere before after silent settings counters typeCounters callCounters program :=
    ⟨silent.books.elsewhere settings counters typeCounters callCounters program, fun owner has =>
      silent.untallied owner ((has_tally_iff_of_same before after settings counters
        (silent.books.labels.className ▸ program) owner).1 has)⟩
  asks before name key silent := by
    obtain ⟨field, after, ends, -⟩ :=
      Transform.counterFor_labels silent.books.labels (.instances name) key
    obtain ⟨books, serves, -⟩ := Transform.counterFor_books silent.books ends
    refine .of_succeeds ⟨field, after, ends, books, fun owner has => ?_⟩
    rcases (serves.acquires (.tally owner)).1 has with old | listed
    · exact silent.untallied owner old
    · simp [numberAssets] at listed
  ensures before silent := by
    have named := silent.books.labels.className
    subst named
    exact silent.ensureClass

end Silent

/-- The session holds the program with the members of its profiles, and nothing else came in but
counters of instances. -/
structure Prepared (settings : Settings) (program : Program) (session : Session) : Prop where
  sameSettings : session.settings = settings
  silent : session.Silent settings.counterClassName settings.sink
  furnishes :
    session.Furnishes settings.counterClassName settings.sink (fun _ => False) .none program

end Session

section Exact

/-- Between the instructions there are no calls of no kind. -/
theorem Tallied.eq_of_never
    {list longer : List Instruction}
    (tallied : Tallied (fun _ => False) list longer) :
    longer = list := by
  induction tallied with
  | done => rfl
  | tally never => exact never.elim
  | keep _ hypothesis => rw [hypothesis]

theorem Method.Tallied.eq_of_never
    {exact current : Method}
    (tallied : exact.Tallied (fun _ => False) current) :
    current = exact := by
  obtain ⟨signature, body⟩ := tallied
  have same : current.body = exact.body := by
    generalize current.body = changed at body
    generalize exact.body = given at body
    cases body with
    | none => rfl
    | some related =>
      rw [Option.some.injEq]
      exact Body.mk.injEq .. ▸ ⟨related.locals, related.instructions.eq_of_never⟩
  cases exact
  cases current
  simp only [Method.signature, Method.mk.injEq] at signature same ⊢
  simp [signature, same]

theorem Class.Tallied.eq_of_never
    {exact current : Class}
    (tallied : exact.Tallied (fun _ => False) current) :
    current = exact := by
  have listed : exact.methods = current.methods := by
    rw [← List.forall₂_eq_eq_eq]
    exact tallied.methods.imp fun _ _ related => related.eq_of_never.symm
  have shape := tallied.shape
  cases exact
  cases current
  simp only [Class.mk.injEq] at shape listed ⊢
  simp [shape, listed]

/-- Without calls, a class of the program is the original one with the members of its profile. -/
theorem Program.Furnished.class?_eq_furnish
    {profiles : Table String Profile}
    {plan : Plan}
    {original current : Program}
    (furnished : original.Furnished counter sink (fun _ => False) profiles plan current)
    {name : String}
    (differs : name ≠ counter) :
    current.class? name =
      (original.class? name).map
        (Class.furnish sink (profiles.get? name) fun index => plan ⟨name, index⟩) := by
  have related := furnished name differs
  generalize (original.class? name).map
    (Class.furnish sink (profiles.get? name) fun index => plan ⟨name, index⟩) = exact at related ⊢
  generalize current.class? name = found at related ⊢
  cases related with
  | none => rfl
  | some tallied => rw [tallied.eq_of_never]

end Exact

/-- At the start everything is prepared if instances are not counted. -/
theorem Session.prepared_start (unregistered : program.class? settings.counterClassName = none) :
    (Session.start settings program).Prepared settings program :=
  ⟨rfl, .start unregistered, start_furnishes unregistered⟩

/-- When classes were instrumented everything is prepared. -/
theorem Session.prepared_of_instrument
    (apart : program.NamesApart settings.counterClassName)
    (wellNamed : program.WellNamed)
    {changed : Bool}
    (ends : Ends (Pass.run .instrument) (.start settings program) changed session) :
    session.Prepared settings program := by
  obtain ⟨furnishes, -, same⟩ :=
    (Pass.run_instrument_succeeds apart wellNamed (start_furnishes apart.unregistered)
      start_generatesIncrementors).of_ends ends
  refine ⟨same, ?_, furnishes⟩
  obtain ⟨journal, worked, journalAfter, works, rfl⟩ := Pass.ends_run ends
  have rests : RestsOnCounters _ (Silent settings.counterClassName settings.sink) :=
    Silent.restsOnCounters
  have silent : worked.Silent settings.counterClassName settings.sink :=
    Transform.Leaves.of_ends (rests.instrumentAll
      (rests.elsewhere (.start settings program) { Session.start settings program with journal }
        (.start apart.unregistered) rfl rfl rfl rfl rfl)) works
  exact rests.elsewhere worked _ silent rfl rfl rfl rfl rfl

end AccessProfiler
