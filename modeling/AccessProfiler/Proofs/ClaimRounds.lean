import AccessProfiler.Proofs.Ledger
import Mathlib.Logic.Function.Basic

/-!
# Requests for counters side by side

Several clients ask for static counters of one table at the same time.  A client holds the entry of
its owner from the moment it finds that the owner has no counter until it enters one, so that no
other client gives that owner a counter meanwhile.  Between the two it tries names one after the
other; to look a name up and to take it if it is free is one step (`ClaimRound.Step`).  A run is any
interleaving of the steps of the clients (`ClaimRound.Run`).

`ClaimRound.Sound` says what is to hold in every round of a run.  What a single step can change is
said once for each part of a round.
-/

namespace AccessProfiler

namespace Table

variable {Key Value : Type} [DecidableEq Key]

/-- A key stands once in a table that was made by putting values in. -/
theorem nodup_keys_put
    {table : Table Key Value}
    (distinct : table.keys.Nodup)
    (key : Key)
    (value : Value) :
    (table.put key value).keys.Nodup := by
  unfold keys put at *
  generalize table.entries = entries at *
  induction entries with
  | nil => simp [putEntry]
  | cons first rest hypothesis =>
    rw [List.map_cons, List.nodup_cons] at distinct
    unfold putEntry
    split
    · rename_i same
      rw [List.map_cons, List.nodup_cons]
      exact ⟨same ▸ distinct.1, distinct.2⟩
    · rename_i differs
      rw [List.map_cons, List.nodup_cons]
      refine ⟨fun member => ?_, hypothesis distinct.2⟩
      obtain ⟨entry, listed, same⟩ := List.mem_map.1 member
      rcases keys_putEntry_subset key value rest entry listed with new | old
      · exact differs (same.symm.trans new)
      · exact distinct.1 (same ▸ old)

/-- What stands in such a table is found under its key. -/
theorem get?_of_mem_entries
    {table : Table Key Value}
    (distinct : table.keys.Nodup)
    {key : Key}
    {value : Value}
    (member : (key, value) ∈ table.entries) :
    table.get? key = some value := by
  unfold keys get? at *
  generalize table.entries = entries at *
  induction entries with
  | nil => cases member
  | cons first rest hypothesis =>
    rw [List.map_cons, List.nodup_cons] at distinct
    rcases List.mem_cons.1 member with rfl | later
    · simp
    · have differs : first.1 ≠ key := fun same =>
        distinct.1 (List.mem_map.2 ⟨_, later, same.symm⟩)
      rw [List.find?_cons_of_neg (by simpa using differs)]
      exact hypothesis distinct.2 later

end Table

/-- A request for the counter of an owner, to be named for a key. -/
structure CounterRequest where
  owner : CounterOwner
  key : String

/-- How far a client has come with its request. -/
inductive ClaimPhase
  | waiting
  /-- The client is going to try a name for its key. -/
  | trying (attempt : Nat)
  /-- The name is the owner's. -/
  | claimed (name : String)
  /-- The class of the counters is there. -/
  | placed (name : String)
  /-- The field is on the class of the counters, but not entered yet. -/
  | declared (field : FieldRef)
  | served (field : FieldRef)
  | failed (error : Error)

namespace ClaimPhase

/-- The client holds the entry of its owner. -/
def HoldsEntry : ClaimPhase → Prop
  | .trying _ | .claimed _ | .placed _ | .declared _ => True
  | .waiting | .served _ | .failed _ => False

/-- The name that the client has taken, or that was taken before for its owner. -/
def name? : ClaimPhase → Option String
  | .claimed name | .placed name => some name
  | .declared field | .served field => some field.name
  | .waiting | .trying _ | .failed _ => none

/-- The field that the client has declared, or that was found. -/
def field? : ClaimPhase → Option FieldRef
  | .declared field | .served field => some field
  | .waiting | .trying _ | .claimed _ | .placed _ | .failed _ => none

/-- How many steps the client has before it at most, if no attempt exceeds a limit. -/
def remaining (limit : Nat) : ClaimPhase → Nat
  | .waiting => limit + 4
  | .trying attempt => limit + 3 - attempt
  | .claimed _ => 3
  | .placed _ => 2
  | .declared _ => 1
  | .served _ | .failed _ => 0

end ClaimPhase

/-- The field that holds a counter. -/
def counterField (name : String) : Field :=
  ⟨name, .int, Field.static.union Field.synthetic⟩

/-- The counters and the program that the clients share, and how far each of them has come. -/
structure ClaimRound (Client : Type) where
  counters : CounterTable
  program : Program
  phase : Client → ClaimPhase

namespace ClaimRound

variable {Client : Type}

/-- Nobody has asked yet. -/
def start (className : String) (program : Program) : ClaimRound Client where
  counters := .empty className
  program := program
  phase := fun _ => .waiting

/-- Somebody holds the entry of an owner. -/
def Occupied
    (requests : Client → CounterRequest)
    (round : ClaimRound Client)
    (owner : CounterOwner) : Prop :=
  ∃ client, (requests client).owner = owner ∧ (round.phase client).HoldsEntry

variable
    {requests : Client → CounterRequest}
    {client other : Client}
    {before between after round : ClaimRound Client}

/-! ## What holds in every round -/

/-- A field of a name is declared on the class of the counters. -/
def Declares (round : ClaimRound Client) (name : String) : Prop :=
  ∃ declaration, round.program.class? round.counters.className = some declaration ∧
    (declaration.field? name).isSome

/-- The field is an owner's: its name is, and it is a static number of the class of the counters. -/
structure Gives (round : ClaimRound Client) (owner : CounterOwner) (field : FieldRef) : Prop where
  named : round.counters.names.get? field.name = some owner
  shape : field = .ofClass round.counters.className field.name .int
  declared : round.Declares field.name

/-- What a client may rely on in its phase. -/
def Stands (round : ClaimRound Client) (request : CounterRequest) : ClaimPhase → Prop
  | .waiting => True
  | .trying attempt =>
    ∀ earlier < attempt, ∃ other,
      round.counters.names.get? (CounterTable.candidate request.key earlier) = some other ∧
        other ≠ request.owner
  | .claimed name => round.counters.names.get? name = some request.owner
  | .placed name =>
    round.counters.names.get? name = some request.owner ∧
      (round.program.class? round.counters.className).isSome
  | .declared field => round.Gives request.owner field
  | .served field =>
    round.Gives request.owner field ∧ round.counters.fields.get? request.owner = some field
  | .failed _ => False

/-- What is there stays. -/
structure Grows (before after : ClaimRound Client) : Prop where
  className : after.counters.className = before.counters.className
  names :
    ∀ name owner, before.counters.names.get? name = some owner →
      after.counters.names.get? name = some owner
  fields :
    ∀ owner field, before.counters.fields.get? owner = some field →
      after.counters.fields.get? owner = some field
  registered :
    (before.program.class? before.counters.className).isSome →
      (after.program.class? before.counters.className).isSome
  declares : ∀ name, before.Declares name → after.Declares name

theorem Gives.mono
    {owner : CounterOwner}
    {field : FieldRef}
    (gives : before.Gives owner field)
    (grows : before.Grows after) :
    after.Gives owner field :=
  ⟨grows.names _ _ gives.named, grows.className ▸ gives.shape, grows.declares _ gives.declared⟩

theorem Stands.mono
    {request : CounterRequest}
    {phase : ClaimPhase}
    (stands : before.Stands request phase)
    (grows : before.Grows after) :
    after.Stands request phase := by
  cases phase with
  | waiting => trivial
  | trying attempt =>
    intro earlier bounded
    obtain ⟨other, taken, differs⟩ := stands earlier bounded
    exact ⟨other, grows.names _ _ taken, differs⟩
  | claimed name => exact grows.names _ _ stands
  | placed name =>
    exact ⟨grows.names _ _ stands.1, grows.className ▸ grows.registered stands.2⟩
  | declared field => exact Gives.mono stands grows
  | served field => exact ⟨stands.1.mono grows, grows.fields _ _ stands.2⟩
  | failed error => exact stands

/-- The name of a client is its owner's. -/
theorem Stands.names
    {request : CounterRequest}
    {phase : ClaimPhase}
    (stands : round.Stands request phase)
    {name : String}
    (named : phase.name? = some name) :
    round.counters.names.get? name = some request.owner := by
  cases phase with
  | claimed other =>
    cases named
    exact stands
  | placed other =>
    cases named
    exact stands.1
  | declared field =>
    cases named
    exact stands.named
  | served field =>
    cases named
    exact stands.1.named
  | _ => cases named

/-- What holds in every round of a run: whoever holds an entry holds it alone, every client stands as
its phase says, and nothing is entered or declared but what a client has brought in. -/
structure Sound
    (sink : Sink)
    (requests : Client → CounterRequest)
    (round : ClaimRound Client) : Prop where
  alone :
    ∀ first second, (round.phase first).HoldsEntry → (round.phase second).HoldsEntry →
      (requests first).owner = (requests second).owner → first = second
  vacant :
    ∀ client, (round.phase client).HoldsEntry →
      round.counters.fields.get? (requests client).owner = none
  stands : ∀ client, round.Stands (requests client) (round.phase client)
  names :
    ∀ name owner, round.counters.names.get? name = some owner →
      ∃ client, (requests client).owner = owner ∧ (round.phase client).name? = some name
  fields :
    ∀ owner field, round.counters.fields.get? owner = some field →
      ∃ client, (requests client).owner = owner ∧ round.phase client = .served field
  distinct : round.counters.names.keys.Nodup
  holds :
    ∀ declaration, round.program.class? round.counters.className = some declaration →
      declaration.HoldsCounters round.counters sink
  declares :
    ∀ name, round.Declares name →
      ∃ client field, (round.phase client).field? = some field ∧ field.name = name

section Start

variable {sink : Sink}

theorem Sound.start
    {className : String}
    {program : Program}
    (unregistered : program.class? className = none)
    (requests : Client → CounterRequest) :
    (ClaimRound.start className program).Sound sink requests where
  alone _ _ holds := holds.elim
  vacant _ _ := rfl
  stands _ := trivial
  names := nofun
  fields := nofun
  distinct := List.nodup_nil
  holds declaration found := by
    cases unregistered.symm.trans found
  declares name := by
    rintro ⟨declaration, found, -⟩
    cases unregistered.symm.trans found

theorem Sound.unfailed
    (sound : round.Sound sink requests)
    (client : Client)
    (error : Error) :
    round.phase client ≠ .failed error := by
  intro failed
  have stands := sound.stands client
  rw [failed] at stands
  exact stands

/-- The field of a client that has placed its name can be declared. -/
theorem Sound.addField
    (sound : round.Sound sink requests)
    {name : String}
    (placed : round.phase client = .placed name) :
    ∃ declaration extended,
      round.program.class? round.counters.className = some declaration ∧
        declaration.addField (counterField name) =
          .ok (.ofClass round.counters.className name .int, extended) ∧
        extended.HoldsCounters round.counters sink ∧ (extended.field? name).isSome ∧
        ∀ other, (declaration.field? other).isSome → (extended.field? other).isSome := by
  have stands := sound.stands client
  rw [placed] at stands
  obtain ⟨declaration, found⟩ := Option.isSome_iff_exists.1 stands.2
  obtain ⟨extended, added, holds, -, declares, keeps⟩ :=
    (sound.holds declaration found).addField name
  exact ⟨declaration, extended, found, added, holds, declares, keeps⟩

end Start

/-! ## Steps -/

variable [DecidableEq Client]

/-- A client has come to a phase. -/
def goTo
    (round : ClaimRound Client)
    (client : Client)
    (phase : ClaimPhase) : ClaimRound Client :=
  { round with phase := Function.update round.phase client phase }

/-- One step of one client.  Each step is atomic; between two steps of a client there may be any
steps of others. -/
inductive Step (requests : Client → CounterRequest) (client : Client) :
    ClaimRound Client → ClaimRound Client → Prop
  /-- The owner has a counter. -/
  | find {round : ClaimRound Client} {field : FieldRef}
      (phase : round.phase client = .waiting)
      (known : round.counters.fields.get? (requests client).owner = some field) :
      Step requests client round (round.goTo client (.served field))
  /-- The owner has no counter, and nobody is giving it one. -/
  | enter {round : ClaimRound Client}
      (phase : round.phase client = .waiting)
      (unknown : round.counters.fields.get? (requests client).owner = none)
      (vacant : ¬ round.Occupied requests (requests client).owner) :
      Step requests client round (round.goTo client (.trying 0))
  /-- The name is free, or the owner's already. -/
  | claim {round : ClaimRound Client} {attempt : Nat} {name : String}
      (phase : round.phase client = .trying attempt)
      (tried : name = CounterTable.candidate (requests client).key attempt)
      (free :
        ∀ other, round.counters.names.get? name = some other → other = (requests client).owner) :
      Step requests client round
        (goTo
          { round with
            counters :=
              { round.counters with
                names := round.counters.names.put name (requests client).owner } }
          client (.claimed name))
  /-- The name is another owner's. -/
  | retry {round : ClaimRound Client} {attempt : Nat} {other : CounterOwner}
      (phase : round.phase client = .trying attempt)
      (taken :
        round.counters.names.get? (CounterTable.candidate (requests client).key attempt) =
          some other)
      (differs : other ≠ (requests client).owner) :
      Step requests client round (round.goTo client (.trying (attempt + 1)))
  | place {round : ClaimRound Client} {name : String}
      (phase : round.phase client = .claimed name) :
      Step requests client round
        (goTo
          { round with
            program :=
              (round.program.ensureClass round.counters.className round.counters.declaration).2 }
          client (.placed name))
  | declare {round : ClaimRound Client} {name : String} {field : FieldRef} {program : Program}
      (phase : round.phase client = .placed name)
      (added :
        round.program.addField round.counters.className (counterField name) =
          .ok (field, program)) :
      Step requests client round (goTo { round with program } client (.declared field))
  /-- The field cannot be declared.  The name stays taken. -/
  | fail {round : ClaimRound Client} {name : String} {error : Error}
      (phase : round.phase client = .placed name)
      (refused :
        round.program.addField round.counters.className (counterField name) = .error error) :
      Step requests client round (round.goTo client (.failed error))
  | serve {round : ClaimRound Client} {field : FieldRef}
      (phase : round.phase client = .declared field) :
      Step requests client round
        (goTo
          { round with
            counters :=
              { round.counters with
                fields := round.counters.fields.put (requests client).owner field } }
          client (.served field))

/-- A run, with the client of each step. -/
inductive Run (requests : Client → CounterRequest) :
    List Client → ClaimRound Client → ClaimRound Client → Prop
  | nil {round : ClaimRound Client} : Run requests [] round round
  | cons {client : Client} {schedule : List Client} {before between after : ClaimRound Client}
      (step : Step requests client before between)
      (run : Run requests schedule between after) :
      Run requests (client :: schedule) before after

theorem Run.append
    {first second : List Client}
    (run : Run requests first before between)
    (further : Run requests second between after) :
    Run requests (first ++ second) before after := by
  induction run with
  | nil => exact further
  | cons step _ hypothesis => exact .cons step (hypothesis further)

theorem Run.single (step : Step requests client before after) :
    Run requests [client] before after :=
  .cons step .nil

@[simp]
theorem phase_goTo_self (phase : ClaimPhase) : (round.goTo client phase).phase client = phase :=
  Function.update_self ..

theorem phase_goTo_of_ne (phase : ClaimPhase) (differs : other ≠ client) :
    (round.goTo client phase).phase other = round.phase other :=
  Function.update_of_ne differs ..

/-! ## What one step changes -/

/-- A client moves nobody but itself. -/
theorem Step.phase_of_ne
    (step : Step requests client before after)
    (differs : other ≠ client) :
    after.phase other = before.phase other := by
  cases step <;> exact phase_goTo_of_ne _ differs

theorem addField_name
    {program changed : Program}
    {owner : String}
    {field : Field}
    {reference : FieldRef}
    (added : program.addField owner field = .ok (reference, changed)) :
    reference.name = field.name := by
  obtain ⟨declaration, extended, -, addedThere, -⟩ := Program.addField_eq_ok added
  rcases Class.addField_cases addedThere with ⟨declared, found, -, rfl, -⟩ | ⟨-, rfl, -⟩
  · simpa [Field.reference] using List.find?_some found
  · rfl

/-- A client keeps the name that it has, and takes one only by its step. -/
theorem Step.name?_eq
    (step : Step requests client before after)
    {name : String}
    (named : (before.phase other).name? = some name)
    (unfailed : ∀ error, after.phase other ≠ .failed error) :
    (after.phase other).name? = some name := by
  by_cases same : other = client
  · subst same
    cases step with
    | find phase known => simp [phase, ClaimPhase.name?] at named
    | enter phase unknown vacant => simp [phase, ClaimPhase.name?] at named
    | claim phase tried free => simp [phase, ClaimPhase.name?] at named
    | retry phase taken differs => simp [phase, ClaimPhase.name?] at named
    | place phase => simpa [phase, ClaimPhase.name?] using named
    | declare phase added =>
      have sameName := addField_name added
      simpa [phase, ClaimPhase.name?, sameName, counterField] using named
    | fail phase refused => exact absurd (phase_goTo_self _) (unfailed _)
    | serve phase => simpa [phase, ClaimPhase.name?] using named
  · rw [step.phase_of_ne same]
    exact named

/-- A name that somebody has after a step it had before, or the client of the step has it now. -/
theorem Step.names_cases
    (step : Step requests client before after)
    {name : String}
    {owner : CounterOwner}
    (named : after.counters.names.get? name = some owner) :
    before.counters.names.get? name = some owner ∨
      owner = (requests client).owner ∧ (after.phase client).name? = some name := by
  cases step with
  | claim phase tried free =>
    rw [goTo, Table.get?_put] at named
    split at named
    · rename_i same
      cases named
      exact .inr ⟨rfl, by simp [ClaimPhase.name?, same]⟩
    · exact .inl named
  | _ => exact .inl named

/-- A taken name stays its owner's. -/
theorem Step.names_eq
    (step : Step requests client before after)
    {name : String}
    {owner : CounterOwner}
    (named : before.counters.names.get? name = some owner) :
    after.counters.names.get? name = some owner := by
  cases step with
  | claim phase tried free =>
    rw [goTo, Table.get?_put]
    split
    · rename_i same
      rw [free owner (same ▸ named)]
    · exact named
  | _ => exact named

/-- Only the step that serves a client enters a counter. -/
theorem Step.fields_cases
    (step : Step requests client before after) :
    after.counters.fields = before.counters.fields ∨
      ∃ field, before.phase client = .declared field ∧ after.phase client = .served field ∧
        after.counters.fields = before.counters.fields.put (requests client).owner field := by
  cases step with
  | serve phase => exact .inr ⟨_, phase, phase_goTo_self _, rfl⟩
  | _ => exact .inl rfl

theorem Step.className_eq (step : Step requests client before after) :
    after.counters.className = before.counters.className := by
  cases step <;> rfl

theorem Run.className_eq
    {schedule : List Client}
    (run : Run requests schedule before after) :
    after.counters.className = before.counters.className := by
  induction run with
  | nil => rfl
  | cons step _ hypothesis => exact hypothesis.trans step.className_eq

theorem Step.nodup_keys
    (step : Step requests client before after)
    (distinct : before.counters.names.keys.Nodup) :
    after.counters.names.keys.Nodup := by
  cases step with
  | claim phase tried free => exact Table.nodup_keys_put distinct _ _
  | _ => exact distinct

/-- Whoever holds an entry after a step held it before, or came to hold one that nobody held. -/
theorem Step.holdsEntry_cases
    (step : Step requests client before after)
    (holds : (after.phase other).HoldsEntry) :
    (before.phase other).HoldsEntry ∨
      other = client ∧ ¬ before.Occupied requests (requests client).owner ∧
        before.counters.fields.get? (requests client).owner = none := by
  by_cases same : other = client
  · subst same
    cases step with
    | find phase known => simp [ClaimPhase.HoldsEntry] at holds
    | enter phase unknown vacant => exact .inr ⟨rfl, vacant, unknown⟩
    | claim phase tried free => exact .inl (by simp [phase, ClaimPhase.HoldsEntry])
    | retry phase taken differs => exact .inl (by simp [phase, ClaimPhase.HoldsEntry])
    | place phase => exact .inl (by simp [phase, ClaimPhase.HoldsEntry])
    | declare phase added => exact .inl (by simp [phase, ClaimPhase.HoldsEntry])
    | fail phase refused => simp [ClaimPhase.HoldsEntry] at holds
    | serve phase => simp [ClaimPhase.HoldsEntry] at holds
  · rw [step.phase_of_ne same] at holds
    exact .inl holds

/-- A field that a client has declared stays its field. -/
theorem Step.field?_eq
    (step : Step requests client before after)
    {field : FieldRef}
    (has : (before.phase other).field? = some field) :
    (after.phase other).field? = some field := by
  by_cases same : other = client
  · subst same
    cases step with
    | serve phase => simpa [phase, ClaimPhase.field?] using has
    | _ => simp_all [ClaimPhase.field?]
  · rw [step.phase_of_ne same]
    exact has

/-- A client that was served makes no more steps. -/
theorem Step.served_eq
    (step : Step requests client before after)
    {field : FieldRef}
    (served : before.phase other = .served field) :
    after.phase other = .served field := by
  by_cases same : other = client
  · subst same
    cases step <;> simp_all
  · rw [step.phase_of_ne same]
    exact served

end ClaimRound
end AccessProfiler
