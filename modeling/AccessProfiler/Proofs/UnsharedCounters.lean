import AccessProfiler.Proofs.ClaimRuns
import AccessProfiler.Proofs.CountedPrograms
import AccessProfiler.Proofs.ReusedMembers

/-!
# Every owner has a counter of its own

Requests for static counters that are made one after the other are a run of the clients one after the
other (`Transform.counterFor_run`), so that whatever holds at the end of every run holds for them.
At the end everybody has a static number on the class of the counters, the same exactly if the owner
is the same (`ClaimRound.Allots`).
-/

namespace AccessProfiler

/-- Owners that are spelled alike are the same, so that a table may be kept under the owners or under
their spellings. -/
theorem CounterOwner.render_injective : Function.Injective CounterOwner.render := by
  intro first second same
  have letters := congrArg String.toList same
  clear same
  cases first <;> cases second <;> simp_all [CounterOwner.render, String.toList_inj]

namespace CounterTable

/-- The name for a key is found by trying: the names before it are other owners'. -/
theorem nameFor_eq
    {table : CounterTable}
    (distinct : table.names.keys.Nodup)
    (owner : CounterOwner)
    (key : String) :
    ∃ attempt, table.nameFor owner key = candidate key attempt ∧
      ∀ earlier < attempt, ∃ other,
        table.names.get? (candidate key earlier) = some other ∧ other ≠ owner := by
  obtain ⟨attempt, named, -, taken⟩ :=
    Text.firstFree_eq (table.takenFrom owner) (candidate_injective key)
  refine ⟨attempt, named, fun earlier less => ?_⟩
  obtain ⟨⟨name, other⟩, kept, same⟩ := List.mem_map.1 (taken earlier less)
  obtain ⟨member, differs⟩ := List.mem_filter.1 kept
  dsimp only at same
  exact ⟨other, same ▸ Table.get?_of_mem_entries distinct member, by simpa using differs⟩

end CounterTable

namespace ClaimRound

variable
    {Client : Type}
    [DecidableEq Client]
    {requests : Client → CounterRequest}
    {client : Client}
    {round : ClaimRound Client}

@[simp]
theorem goTo_goTo (first second : ClaimPhase) :
    (round.goTo client first).goTo client second = round.goTo client second := by
  simp [goTo]

/-- A client that nobody disturbs passes over the names that are other owners'. -/
theorem Run.retries
    (attempt : Nat)
    (taken :
      ∀ earlier < attempt, ∃ other,
        round.counters.names.get? (CounterTable.candidate (requests client).key earlier) =
            some other ∧
          other ≠ (requests client).owner) :
    Run requests (List.replicate attempt client) (round.goTo client (.trying 0))
      (round.goTo client (.trying attempt)) := by
  induction attempt with
  | zero => exact .nil
  | succ attempt hypothesis =>
    have before := hypothesis fun earlier less => taken earlier (Nat.lt_succ_of_lt less)
    obtain ⟨other, known, differs⟩ := taken attempt (Nat.lt_succ_self attempt)
    have last :
        Step requests client (round.goTo client (.trying attempt))
          ((round.goTo client (.trying attempt)).goTo client (.trying (attempt + 1))) :=
      .retry (phase_goTo_self _) known differs
    rw [goTo_goTo] at last
    rw [List.replicate_succ']
    exact before.append (.single last)

/-- It comes to have the first name that is no other owner's. -/
theorem Run.search
    {attempt : Nat}
    {name : String}
    (waiting : round.phase client = .waiting)
    (unknown : round.counters.fields.get? (requests client).owner = none)
    (vacant : ¬ round.Occupied requests (requests client).owner)
    (taken :
      ∀ earlier < attempt, ∃ other,
        round.counters.names.get? (CounterTable.candidate (requests client).key earlier) =
            some other ∧
          other ≠ (requests client).owner)
    (tried : name = CounterTable.candidate (requests client).key attempt)
    (free :
      ∀ other, round.counters.names.get? name = some other → other = (requests client).owner) :
    ∃ schedule, Run requests schedule round
      (goTo
        { round with
          counters :=
            { round.counters with
              names := round.counters.names.put name (requests client).owner } }
        client (.claimed name)) := by
  have claimed :
      Step requests client (round.goTo client (.trying attempt))
        (goTo
          { round.goTo client (.trying attempt) with
            counters :=
              { round.counters with
                names := round.counters.names.put name (requests client).owner } }
          client (.claimed name)) :=
    .claim (phase_goTo_self _) tried free
  have searched := Run.cons (.enter waiting unknown vacant) (.retries attempt taken)
  have run := searched.append (.single claimed)
  exact ⟨_, by simpa [goTo] using run⟩

/-- A client that has its name is served if the field can be declared. -/
theorem Run.complete
    {name : String}
    {field : FieldRef}
    {program : Program}
    (claimed : round.phase client = .claimed name)
    (added :
      (round.program.ensureClass round.counters.className round.counters.declaration).2.addField
          round.counters.className (counterField name) =
        .ok (field, program)) :
    Run requests [client, client, client] round
      (goTo
        { round with
          program := program
          counters :=
            { round.counters with
              fields := round.counters.fields.put (requests client).owner field } }
        client (.served field)) := by
  have run :=
    Run.cons (.place claimed)
      (.cons (.declare (phase_goTo_self _) added)
        (.single (.serve (phase_goTo_self _) : Step requests client _ _)))
  simpa [goTo] using run

end ClaimRound

namespace Transform

variable
    {Client : Type}
    [DecidableEq Client]
    {requests : Client → CounterRequest}
    {client : Client}
    {session after : Session}

/-- A request that is served without another one between is a run of one client. -/
theorem counterFor_run
    {phase : Client → ClaimPhase}
    {field : FieldRef}
    (distinct : session.counters.names.keys.Nodup)
    (waiting : phase client = .waiting)
    (vacant :
      ¬ ClaimRound.Occupied requests ⟨session.counters, session.program, phase⟩
        (requests client).owner)
    (ends : Ends (counterFor (requests client).owner (requests client).key) session field after) :
    ∃ schedule, ClaimRound.Run requests schedule ⟨session.counters, session.program, phase⟩
      ⟨after.counters, after.program, Function.update phase client (.served field)⟩ := by
  rcases ends_counterFor.1 ends with ⟨known, rfl⟩ | ⟨unknown, program, added, rfl⟩
  · exact ⟨[client], .single (.find waiting known)⟩
  · obtain ⟨attempt, named, taken⟩ :=
      CounterTable.nameFor_eq distinct (requests client).owner (requests client).key
    obtain ⟨schedule, search⟩ :=
      ClaimRound.Run.search waiting unknown vacant taken named fun _ =>
        CounterTable.owner_of_nameFor
    have run := search.append (.complete (ClaimRound.phase_goTo_self _) added)
    exact ⟨_, by simpa [ClaimRound.goTo, CounterTable.claim] using run⟩

end Transform

/-- The fields of the class of a name; there are none if no class has the name. -/
def Program.fieldsOf (program : Program) (name : String) : List Field :=
  (program.class? name).elim [] Class.fields

namespace ClaimRound

/-- Every client was given a static number that is declared on the class of the counters and found
under its name, the same number exactly if the owner is the same; and there are no more fields on
that class than owners. -/
structure Allots
    {Client : Type}
    [Fintype Client]
    (counter : String)
    (requests : Client → CounterRequest)
    (field : Client → FieldRef)
    (counters : CounterTable)
    (program : Program) : Prop where
  same :
    ∀ first second, (requests first).owner = (requests second).owner → field first = field second
  apart :
    ∀ first second, (requests first).owner ≠ (requests second).owner →
      (field first).name ≠ (field second).name
  shape : ∀ client, field client = .ofClass counter (field client).name .int
  declared :
    ∀ client, ∃ declaration declared,
      program.class? counter = some declaration ∧
        declaration.field? (field client).name = some declared ∧
        declared.type = .int ∧ declared.isStatic
  found : ∀ client, counters.named? (field client).name = some (field client)
  distinct : ((program.fieldsOf counter).map Field.name).Nodup
  fields :
    ∀ declared ∈ program.fieldsOf counter, ∃ client, (field client).name = declared.name
  count :
    (program.fieldsOf counter).length =
      (Finset.univ.image fun client => (requests client).owner).card

namespace Sound

variable
    {Client : Type}
    {sink : Sink}
    {requests : Client → CounterRequest}
    {round : ClaimRound Client}
    {field : Client → FieldRef}

theorem gives
    (sound : round.Sound sink requests)
    (served : ∀ client, round.phase client = .served (field client))
    (client : Client) :
    round.Gives (requests client).owner (field client) ∧
      round.counters.fields.get? (requests client).owner = some (field client) := by
  have stands := sound.stands client
  rw [served client] at stands
  exact stands

theorem fields_of_served
    (sound : round.Sound sink requests)
    (served : ∀ client, round.phase client = .served (field client)) :
    ((round.program.fieldsOf round.counters.className).map Field.name).Nodup ∧
      ∀ declared ∈ round.program.fieldsOf round.counters.className,
        ∃ client, (field client).name = declared.name := by
  unfold Program.fieldsOf
  cases found : round.program.class? round.counters.className with
  | none => exact ⟨List.nodup_nil, nofun⟩
  | some declaration =>
    refine ⟨(sound.holds declaration found).distinctFields, fun declared member => ?_⟩
    have declares : round.Declares declared.name := by
      refine ⟨declaration, found, ?_⟩
      rw [Class.field?, List.find?_isSome]
      exact ⟨declared, member, by simp⟩
    obtain ⟨client, given, has, named⟩ := sound.declares _ declares
    rw [served client] at has
    cases has
    exact ⟨client, named⟩

/-- There is one field for each owner. -/
theorem length_fieldsOf
    [Fintype Client]
    (sound : round.Sound sink requests)
    (served : ∀ client, round.phase client = .served (field client)) :
    (round.program.fieldsOf round.counters.className).length =
      (Finset.univ.image fun client => (requests client).owner).card := by
  obtain ⟨distinct, fields⟩ := sound.fields_of_served served
  let nameOf (owner : CounterOwner) : String :=
    ((round.counters.fields.get? owner).map FieldRef.name).getD ""
  have nameOf_owner (client : Client) : nameOf (requests client).owner = (field client).name := by
    simp [nameOf, (sound.gives served client).2]
  have names :
      ((round.program.fieldsOf round.counters.className).map Field.name).toFinset =
        (Finset.univ.image fun client => (requests client).owner).image nameOf := by
    ext name
    simp only [List.mem_toFinset, List.mem_map, Finset.mem_image, Finset.mem_univ, true_and,
      exists_exists_eq_and, nameOf_owner]
    constructor
    · rintro ⟨declared, member, rfl⟩
      exact fields declared member
    · rintro ⟨client, rfl⟩
      obtain ⟨declaration, found, declared⟩ := (sound.gives served client).1.declared
      rw [Class.field?, List.find?_isSome] at declared
      obtain ⟨declared, member, same⟩ := declared
      exact ⟨declared, by simpa [Program.fieldsOf, found] using member, by simpa using same⟩
  have injective :
      Set.InjOn nameOf (Finset.univ.image fun client => (requests client).owner) := by
    intro first memberFirst second memberSecond same
    obtain ⟨clientFirst, -, rfl⟩ := Finset.mem_image.1 (Finset.mem_coe.1 memberFirst)
    obtain ⟨clientSecond, -, rfl⟩ := Finset.mem_image.1 (Finset.mem_coe.1 memberSecond)
    rw [nameOf_owner, nameOf_owner] at same
    have named := (sound.gives served clientFirst).1.named
    rw [same, (sound.gives served clientSecond).1.named] at named
    exact (Option.some.inj named).symm
  rw [← Finset.card_image_of_injOn injective, ← names, List.toFinset_card_of_nodup distinct,
    List.length_map]

theorem allots
    [Fintype Client]
    (sound : round.Sound sink requests)
    (served : ∀ client, round.phase client = .served (field client)) :
    Allots round.counters.className requests field round.counters round.program where
  same first second same := by
    have entered := (sound.gives served first).2
    rw [same, (sound.gives served second).2] at entered
    exact (Option.some.inj entered).symm
  apart first second differs same := by
    have named := (sound.gives served first).1.named
    rw [same, (sound.gives served second).1.named] at named
    exact differs (Option.some.inj named).symm
  shape client := (sound.gives served client).1.shape
  declared client := by
    obtain ⟨declaration, found, declares⟩ := (sound.gives served client).1.declared
    obtain ⟨declared, located⟩ := Option.isSome_iff_exists.1 declares
    have static :=
      (sound.holds declaration found).fields declared (List.mem_of_find?_eq_some located)
    exact ⟨declaration, declared, found, located, static⟩
  found client := by
    obtain ⟨gives, entered⟩ := sound.gives served client
    rw [CounterTable.named?, gives.named, Option.bind_some, entered]
  distinct := (sound.fields_of_served served).1
  fields := (sound.fields_of_served served).2
  count := sound.length_fieldsOf served

end Sound

end ClaimRound

namespace Transform

/-- Those who were served have their fields, all others wait. -/
def servedPhase {count : Nat} (fields : List FieldRef) (client : Fin count) : ClaimPhase :=
  fields[client.val]?.elim .waiting .served

theorem servedPhase_append
    {count : Nat}
    (fields : List FieldRef)
    (field : FieldRef)
    (bounded : fields.length < count) :
    (servedPhase (fields ++ [field]) : Fin count → ClaimPhase) =
      Function.update (servedPhase fields) ⟨fields.length, bounded⟩ (.served field) := by
  funext client
  by_cases same : client = ⟨fields.length, bounded⟩
  · subst same
    simp [servedPhase]
  · have differs : client.val ≠ fields.length := fun value => same (Fin.ext value)
    rw [Function.update_of_ne same, servedPhase, servedPhase]
    rcases Nat.lt_or_gt_of_ne differs with before | later
    · rw [List.getElem?_append_left before]
    · rw [List.getElem?_eq_none (by simp; omega), List.getElem?_eq_none later.le]

theorem servedPhase_not_holdsEntry
    {count : Nat}
    (fields : List FieldRef)
    (client : Fin count) :
    ¬ (servedPhase fields client).HoldsEntry := by
  unfold servedPhase
  cases fields[client.val]? <;> simp [ClaimPhase.HoldsEntry]

/-- Requests one after the other are a run of the clients one after the other. -/
theorem counterFor_mapM_run
    {settings : Settings}
    {program : Program}
    (unregistered : program.class? settings.counterClassName = none)
    (requests : List CounterRequest) :
    Succeeds (requests.mapM fun request => counterFor request.owner request.key)
      (.start settings program) fun fields after =>
        ∃ (field : Fin requests.length → FieldRef) (schedule : List (Fin requests.length)),
          fields = List.ofFn field ∧
            ClaimRound.Run requests.get schedule (.start settings.counterClassName program)
              ⟨after.counters, after.program, fun client => .served (field client)⟩ := by
  have sound :
      ClaimRound.Sound settings.sink requests.get (.start settings.counterClassName program) :=
    .start unregistered requests.get
  refine (Succeeds.mapM (fun done fields session =>
    session.Ledger settings.counterClassName settings.sink ∧ fields.length = done.length ∧
      ∃ schedule,
        ClaimRound.Run requests.get schedule (.start settings.counterClassName program)
          ⟨session.counters, session.program, servedPhase fields⟩) ?_ ?_).mono ?_
  · exact ⟨(Session.start_furnishes unregistered).ledger, rfl, [], .nil⟩
  · rintro done request rest fields session split ⟨ledger, length, schedule, run⟩
    have bounded : fields.length < requests.length := by
      rw [length, split, List.length_append, List.length_cons]
      omega
    let client : Fin requests.length := ⟨fields.length, bounded⟩
    have own : requests.get client = request := List.getElem_of_append split length.symm
    obtain ⟨field, after, ends, ledgerAfter, -⟩ :=
      counterFor_succeeds ledger request.owner request.key
    refine ⟨field, after, ends, ledgerAfter, by simp [length], ?_⟩
    rw [← own] at ends
    have waiting : servedPhase fields client = .waiting := by simp [servedPhase, client]
    obtain ⟨further, runFurther⟩ :=
      counterFor_run (sound.run run).distinct waiting
        (fun ⟨other, _, holds⟩ => servedPhase_not_holdsEntry fields other holds) ends
    rw [servedPhase_append fields field bounded]
    exact ⟨schedule ++ further, run.append runFurther⟩
  · rintro fields after ⟨-, length, schedule, run⟩
    refine ⟨fun client => fields.get (client.cast length.symm), schedule, ?_, ?_⟩
    · exact List.ext_getElem (by simp [length]) (by simp)
    · have served :
          (servedPhase fields : Fin requests.length → ClaimPhase) =
            fun client => .served (fields.get (client.cast length.symm)) := by
        funext client
        simp [servedPhase, length]
      exact served ▸ run

/-- Whoever asks is given a static counter, one for each owner, whether the requests are made one
after the other or their steps interleave.  Requests one after the other are one of the runs.  A run
makes no more steps than there are requests times four more than that, no client tries more names
than there are requests, nobody fails, and if nobody can go on everybody is served. -/
theorem counterFor_allots
    {settings : Settings}
    {program : Program}
    (unregistered : program.class? settings.counterClassName = none)
    (requests : List CounterRequest) :
    (Succeeds (requests.mapM fun request => counterFor request.owner request.key)
      (.start settings program) fun fields after =>
        ∃ (field : Fin requests.length → FieldRef) (schedule : List (Fin requests.length)),
          fields = List.ofFn field ∧
            ClaimRound.Run requests.get schedule (.start settings.counterClassName program)
              ⟨after.counters, after.program, fun client => .served (field client)⟩ ∧
            ClaimRound.Allots settings.counterClassName requests.get field after.counters
              after.program) ∧
      ∀ schedule round,
        ClaimRound.Run requests.get schedule (.start settings.counterClassName program) round →
          schedule.length ≤ requests.length * (requests.length + 4) ∧
            (∀ client error, round.phase client ≠ .failed error) ∧
            (∀ client attempt, round.phase client = .trying attempt → attempt < requests.length) ∧
            ((∃ field, (∀ client, round.phase client = .served (field client)) ∧
                ClaimRound.Allots settings.counterClassName requests.get field round.counters
                  round.program) ∨
              ∃ client after, ClaimRound.Step requests.get client round after) := by
  have sound :
      ClaimRound.Sound settings.sink requests.get (.start settings.counterClassName program) :=
    .start unregistered requests.get
  have ended
      {schedule : List (Fin requests.length)}
      {round : ClaimRound (Fin requests.length)}
      {field : Fin requests.length → FieldRef}
      (run : ClaimRound.Run requests.get schedule (.start settings.counterClassName program) round)
      (served : ∀ client, round.phase client = .served (field client)) :
      ClaimRound.Allots settings.counterClassName requests.get field round.counters
        round.program := by
    have allots := (sound.run run).allots served
    rwa [run.className_eq] at allots
  refine ⟨(counterFor_mapM_run unregistered requests).mono ?_, fun schedule round run => ?_⟩
  · rintro fields after ⟨field, schedule, rfl, run⟩
    exact ⟨field, schedule, rfl, run, ended run fun _ => rfl⟩
  · have soundRound := sound.run run
    refine ⟨?_, soundRound.unfailed, fun client attempt phase => ?_, ?_⟩
    · have bound := sound.length_add_remaining_le run
      rw [ClaimRound.remaining_start, Fintype.card_fin] at bound
      omega
    · simpa using soundRound.attempt_lt phase
    · refine soundRound.served_or_step.imp_left ?_
      rintro ⟨field, served⟩
      exact ⟨field, served, ended run served⟩

/-- The second owner cannot have the name for its key, nor the third the one that the second was
given; the last one has asked before. -/
def clashingRequests : List CounterRequest :=
  [⟨.instances "a.b.C", "abC"⟩, ⟨.instances "ab.C", "abC"⟩, ⟨.reads "abC2", "abC2"⟩,
    ⟨.instances "a.b.C", "C"⟩]

theorem clashingRequests_allotted :
    Program.empty.class? Settings.standard.counterClassName = none ∧
      ∃ (field : Fin 4 → FieldRef) (after : Session),
        Ends (clashingRequests.mapM fun request => counterFor request.owner request.key)
          (.start .standard .empty) (List.ofFn field) after ∧
        (List.ofFn field).map FieldRef.name =
          ["abCCounter", "abC2Counter", "abC22Counter", "abCCounter"] ∧
        ClaimRound.Allots Settings.standard.counterClassName clashingRequests.get field
          after.counters after.program := by
  have unregistered : Program.empty.class? Settings.standard.counterClassName = none := rfl
  obtain ⟨fields, after, ends, field, -, rfl, -, allots⟩ :=
    (counterFor_allots unregistered clashingRequests).1
  have computed :
      ((clashingRequests.mapM fun request => counterFor request.owner request.key).on
          (.start .standard .empty)).1.toOption.map (List.map FieldRef.name) =
        some ["abCCounter", "abC2Counter", "abC22Counter", "abCCounter"] := by
    decide +kernel
  refine ⟨unregistered, field, after, ends, ?_, allots⟩
  unfold Ends at ends
  rw [on, ends] at computed
  exact Option.some.inj computed

end Transform
end AccessProfiler
