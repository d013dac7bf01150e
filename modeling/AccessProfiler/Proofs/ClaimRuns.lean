import AccessProfiler.Proofs.ClaimRounds
import Mathlib.Algebra.BigOperators.Group.Finset.Basic
import Mathlib.Algebra.Order.BigOperators.Group.Finset
import Mathlib.Data.Fintype.Card

/-!
# Runs of requests for counters

Every step leads from a sound round to a sound round (`ClaimRound.Sound.step`), and so does every run
(`ClaimRound.Sound.run`).  From it follows that no search for a free name tries more names than there
are clients (`ClaimRound.Sound.attempt_lt`), that runs are bounded
(`ClaimRound.Sound.length_add_remaining_le`), and that a round in which nobody can go on has served
everybody (`ClaimRound.Sound.served_or_step`).
-/

namespace AccessProfiler.ClaimRound

variable
    {Client : Type}
    [DecidableEq Client]
    {requests : Client → CounterRequest}
    {client other : Client}
    {before between after round : ClaimRound Client}

namespace Sound

variable {sink : Sink}

/-- The class of the counters is as it was, or it comes in without fields, or the client of the step
declares its field there and nothing else. -/
theorem class?_cases
    (sound : before.Sound sink requests)
    (step : Step requests client before after) :
    after.program.class? before.counters.className =
        before.program.class? before.counters.className ∨
      before.program.class? before.counters.className = none ∧
        after.program.class? before.counters.className = some before.counters.declaration ∨
      ∃ name declaration extended,
        after.phase client = .declared (.ofClass before.counters.className name .int) ∧
          before.program.class? before.counters.className = some declaration ∧
          after.program.class? before.counters.className = some extended ∧
          extended.HoldsCounters before.counters sink ∧ (extended.field? name).isSome ∧
          ∀ other, (extended.field? other).isSome ↔
            other = name ∨ (declaration.field? other).isSome := by
  cases step with
  | place phase =>
    cases present : before.program.class? before.counters.className with
    | none => exact .inr (.inl ⟨rfl, by simp [goTo, Program.class?_ensureClass, present]⟩)
    | some declaration => exact .inl (by simp [goTo, Program.class?_ensureClass, present])
  | @declare name field program phase added =>
    obtain ⟨declaration, extended, found, addedThere, holds, declares, keeps⟩ :=
      sound.addField phase
    rw [Program.addField_of_class? found addedThere] at added
    cases added
    refine .inr (.inr ⟨name, declaration, extended, phase_goTo_self _, found, ?_, holds, declares,
      fun other => ⟨fun declared => ?_, ?_⟩⟩)
    · simp [goTo, Program.class?_modifyClass, found]
    · rcases Class.addField_cases addedThere with ⟨_, _, _, _, rfl⟩ | ⟨_, _, rfl⟩
      · exact .inr declared
      · simp only [Class.field?, List.find?_append, Option.isSome_or, Bool.or_eq_true] at declared
        rcases declared with old | new
        · exact .inr old
        · simp [counterField] at new
          exact .inl new.symm
    · rintro (rfl | old)
      · exact declares
      · exact keeps other old
  | _ => exact .inl rfl

/-- A counter that was entered stays. -/
theorem fields_eq
    (sound : before.Sound sink requests)
    (step : Step requests client before after)
    {owner : CounterOwner}
    {field : FieldRef}
    (known : before.counters.fields.get? owner = some field) :
    after.counters.fields.get? owner = some field := by
  rcases step.fields_cases with same | ⟨new, declared, -, put⟩
  · rw [same]
    exact known
  · have vacant := sound.vacant client (by simp [declared, ClaimPhase.HoldsEntry])
    rw [put, Table.get?_put, if_neg, known]
    rintro rfl
    cases vacant.symm.trans known

theorem grows
    (sound : before.Sound sink requests)
    (step : Step requests client before after) :
    before.Grows after where
  className := step.className_eq
  names _ _ := step.names_eq
  fields _ _ := sound.fields_eq step
  registered present := by
    rcases sound.class?_cases step with same | ⟨-, found⟩ | ⟨_, _, _, -, -, found, -⟩
    · rwa [same]
    · rw [found]
      rfl
    · rw [found]
      rfl
  declares name := by
    rintro ⟨declaration, found, declared⟩
    unfold Declares
    rw [step.className_eq]
    rcases sound.class?_cases step with same | ⟨absent, -⟩ | ⟨_, _, extended, -, old, new, -, -, iff⟩
    · exact ⟨declaration, same.trans found, declared⟩
    · cases absent.symm.trans found
    · cases old.symm.trans found
      exact ⟨extended, new, (iff name).2 (.inr declared)⟩

/-- The client of a step stands as its new phase says. -/
theorem stands_self
    (sound : before.Sound sink requests)
    (step : Step requests client before after) :
    after.Stands (requests client) (after.phase client) := by
  have grows := sound.grows step
  have stands := sound.stands client
  cases step with
  | find phase known =>
    rw [phase_goTo_self]
    obtain ⟨holder, same, served⟩ := sound.fields _ _ known
    have there := sound.stands holder
    rw [served] at there
    obtain ⟨gives, entered⟩ := there.mono grows
    rw [same] at gives entered
    exact ⟨gives, entered⟩
  | enter phase unknown vacant =>
    rw [phase_goTo_self]
    exact fun earlier bounded => absurd bounded (Nat.not_lt_zero earlier)
  | claim phase tried free =>
    rw [phase_goTo_self]
    exact (Table.get?_put ..).trans (if_pos rfl)
  | @retry attempt other phase taken differs =>
    rw [phase_goTo_self]
    rw [phase] at stands
    intro earlier bounded
    rcases Nat.lt_succ_iff_lt_or_eq.1 bounded with before | rfl
    · exact stands earlier before
    · exact ⟨other, taken, differs⟩
  | place phase =>
    rw [phase_goTo_self]
    rw [phase] at stands
    refine ⟨stands, ?_⟩
    simp [goTo, Program.class?_ensureClass]
  | @declare name field program phase added =>
    rw [phase_goTo_self]
    rw [phase] at stands
    obtain ⟨declaration, extended, found, addedThere, -, declares, -⟩ := sound.addField phase
    rw [Program.addField_of_class? found addedThere] at added
    cases added
    refine ⟨stands.1, rfl, extended, ?_, declares⟩
    simp [goTo, Program.class?_modifyClass, found]
  | fail phase refused =>
    obtain ⟨declaration, extended, found, added, -⟩ := sound.addField phase
    rw [Program.addField_of_class? found added] at refused
    cases refused
  | serve phase =>
    rw [phase_goTo_self]
    rw [phase] at stands
    exact ⟨Gives.mono stands grows, (Table.get?_put ..).trans (if_pos rfl)⟩

theorem stands_after
    (sound : before.Sound sink requests)
    (step : Step requests client before after)
    (other : Client) :
    after.Stands (requests other) (after.phase other) := by
  by_cases same : other = client
  · subst same
    exact sound.stands_self step
  · rw [step.phase_of_ne same]
    exact (sound.stands other).mono (sound.grows step)

theorem alone_after
    (sound : before.Sound sink requests)
    (step : Step requests client before after)
    (first second : Client)
    (holdsFirst : (after.phase first).HoldsEntry)
    (holdsSecond : (after.phase second).HoldsEntry)
    (same : (requests first).owner = (requests second).owner) :
    first = second := by
  rcases step.holdsEntry_cases holdsFirst with oldFirst | ⟨rfl, vacant, -⟩
  · rcases step.holdsEntry_cases holdsSecond with oldSecond | ⟨rfl, vacant, -⟩
    · exact sound.alone first second oldFirst oldSecond same
    · exact absurd ⟨first, same, oldFirst⟩ vacant
  · rcases step.holdsEntry_cases holdsSecond with oldSecond | ⟨rfl, -⟩
    · exact absurd ⟨second, same.symm, oldSecond⟩ vacant
    · rfl

theorem vacant_after
    (sound : before.Sound sink requests)
    (step : Step requests client before after)
    (other : Client)
    (holds : (after.phase other).HoldsEntry) :
    after.counters.fields.get? (requests other).owner = none := by
  rcases step.fields_cases with same | ⟨field, declared, served, put⟩
  · rw [same]
    rcases step.holdsEntry_cases holds with old | ⟨rfl, -, unknown⟩
    · exact sound.vacant other old
    · exact unknown
  · -- The client of the step holds no entry any more, so the owner is another one than its own.
    have differs : other ≠ client := by
      rintro rfl
      rw [served] at holds
      exact holds
    have old : (before.phase other).HoldsEntry := step.phase_of_ne differs ▸ holds
    have held : (before.phase client).HoldsEntry := by simp [declared, ClaimPhase.HoldsEntry]
    rw [put, Table.get?_put, if_neg fun same => differs (sound.alone _ _ old held same)]
    exact sound.vacant other old

theorem names_after
    (sound : before.Sound sink requests)
    (step : Step requests client before after)
    (name : String)
    (owner : CounterOwner)
    (named : after.counters.names.get? name = some owner) :
    ∃ other, (requests other).owner = owner ∧ (after.phase other).name? = some name := by
  rcases step.names_cases named with old | ⟨rfl, new⟩
  · obtain ⟨other, same, has⟩ := sound.names name owner old
    refine ⟨other, same, step.name?_eq has fun error failed => ?_⟩
    have stands := sound.stands_after step other
    rw [failed] at stands
    exact stands
  · exact ⟨client, rfl, new⟩

theorem fields_after
    (sound : before.Sound sink requests)
    (step : Step requests client before after)
    (owner : CounterOwner)
    (field : FieldRef)
    (known : after.counters.fields.get? owner = some field) :
    ∃ other, (requests other).owner = owner ∧ after.phase other = .served field := by
  have old (known : before.counters.fields.get? owner = some field) :
      ∃ other, (requests other).owner = owner ∧ after.phase other = .served field := by
    obtain ⟨other, same, served⟩ := sound.fields owner field known
    exact ⟨other, same, step.served_eq served⟩
  rcases step.fields_cases with same | ⟨new, -, served, put⟩
  · exact old (same ▸ known)
  · rw [put, Table.get?_put] at known
    split at known
    · rename_i same
      cases known
      exact ⟨client, same.symm, served⟩
    · exact old known

theorem holds_after
    (sound : before.Sound sink requests)
    (step : Step requests client before after)
    (declaration : Class)
    (found : after.program.class? after.counters.className = some declaration) :
    declaration.HoldsCounters after.counters sink := by
  rw [step.className_eq] at found
  have onward {declaration : Class} (holds : declaration.HoldsCounters before.counters sink) :
      declaration.HoldsCounters after.counters sink :=
    holds.mono step.className_eq fun _ _ => sound.fields_eq step
  rcases sound.class?_cases step with same | ⟨-, new⟩ | ⟨_, _, _, -, -, new, holds, -⟩
  · exact onward (sound.holds declaration (same ▸ found))
  · rw [new] at found
    cases found
    exact onward (before.counters.declaration_holdsCounters sink)
  · rw [new] at found
    cases found
    exact onward holds

theorem declares_after
    (sound : before.Sound sink requests)
    (step : Step requests client before after)
    (name : String)
    (declares : after.Declares name) :
    ∃ other field, (after.phase other).field? = some field ∧ field.name = name := by
  obtain ⟨declaration, found, declared⟩ := declares
  rw [step.className_eq] at found
  have old (declares : before.Declares name) :
      ∃ other field, (after.phase other).field? = some field ∧ field.name = name := by
    obtain ⟨other, field, has, named⟩ := sound.declares name declares
    exact ⟨other, field, step.field?_eq has, named⟩
  rcases sound.class?_cases step with same | ⟨-, new⟩ | ⟨own, _, _, declaredOwn, was, new, -, -, iff⟩
  · exact old ⟨declaration, same ▸ found, declared⟩
  · rw [new] at found
    cases found
    cases declared
  · rw [new] at found
    cases found
    rcases (iff name).1 declared with rfl | declared
    · exact ⟨client, _, by rw [declaredOwn]; rfl, rfl⟩
    · exact old ⟨_, was, declared⟩

/-- Every step leads from one such round to another. -/
theorem step
    (sound : before.Sound sink requests)
    (step : Step requests client before after) :
    after.Sound sink requests where
  alone := sound.alone_after step
  vacant := sound.vacant_after step
  stands := sound.stands_after step
  names := sound.names_after step
  fields := sound.fields_after step
  distinct := step.nodup_keys sound.distinct
  holds := sound.holds_after step
  declares := sound.declares_after step

theorem run
    {schedule : List Client}
    (sound : before.Sound sink requests)
    (run : Run requests schedule before after) :
    after.Sound sink requests := by
  induction run with
  | nil => exact sound
  | cons step _ hypothesis => exact hypothesis (sound.step step)

end Sound

/-! ## Runs come to an end -/

section Ends

variable {sink : Sink} [Fintype Client]

omit [DecidableEq Client] in
/-- The names that a client has tried are held by as many other clients: to search for a free name
takes no more attempts than there are clients. -/
theorem Sound.attempt_lt
    (sound : round.Sound sink requests)
    {attempt : Nat}
    (phase : round.phase client = .trying attempt) :
    attempt < Fintype.card Client := by
  have stands := sound.stands client
  rw [phase] at stands
  have held (earlier : Fin attempt) :
      ∃ holder, (round.phase holder).name? =
        some (CounterTable.candidate (requests client).key earlier) := by
    obtain ⟨other, taken, -⟩ := stands earlier earlier.isLt
    obtain ⟨holder, -, has⟩ := sound.names _ _ taken
    exact ⟨holder, has⟩
  choose holder has using held
  have injective : Function.Injective holder := by
    intro first second same
    have names := (has first).symm.trans (same ▸ has second)
    exact Fin.ext (CounterTable.candidate_injective _ (Option.some.inj names))
  have others : client ∉ Set.range holder := by
    rintro ⟨earlier, rfl⟩
    have := has earlier
    rw [phase] at this
    cases this
  simpa using Fintype.card_lt_of_injective_of_notMem holder injective others

/-- How many steps there are left at most. -/
def remaining (round : ClaimRound Client) : Nat :=
  ∑ client, (round.phase client).remaining (Fintype.card Client)

omit [DecidableEq Client] in
theorem remaining_start (className : String) (program : Program) :
    (start className program : ClaimRound Client).remaining =
      Fintype.card Client * (Fintype.card Client + 4) := by
  simp [remaining, start, ClaimPhase.remaining]

theorem Sound.remaining_lt
    (sound : before.Sound sink requests)
    (step : Step requests client before after) :
    after.remaining < before.remaining := by
  have fewer :
      (after.phase client).remaining (Fintype.card Client) <
        (before.phase client).remaining (Fintype.card Client) := by
    cases step with
    | claim phase tried free =>
      have bound := sound.attempt_lt phase
      simp only [phase, phase_goTo_self, ClaimPhase.remaining]
      omega
    | retry phase taken differs =>
      have bound := sound.attempt_lt phase
      simp only [phase, phase_goTo_self, ClaimPhase.remaining]
      omega
    | find phase known => simp [phase, ClaimPhase.remaining]
    | enter phase unknown vacant => simp [phase, ClaimPhase.remaining]
    | place phase => simp [phase, ClaimPhase.remaining]
    | declare phase added => simp [phase, ClaimPhase.remaining]
    | fail phase refused => simp [phase, ClaimPhase.remaining]
    | serve phase => simp [phase, ClaimPhase.remaining]
  refine Finset.sum_lt_sum (fun other _ => ?_) ⟨client, Finset.mem_univ client, fewer⟩
  by_cases same : other = client
  · exact same ▸ fewer.le
  · rw [step.phase_of_ne same]

/-- A run makes no more steps than there were left. -/
theorem Sound.length_add_remaining_le
    {schedule : List Client}
    (sound : before.Sound sink requests)
    (run : Run requests schedule before after) :
    schedule.length + after.remaining ≤ before.remaining := by
  induction run with
  | nil => simp
  | cons step _ hypothesis =>
    have fewer := sound.remaining_lt step
    have rest := hypothesis (sound.step step)
    rw [List.length_cons]
    omega

end Ends

/-- Whoever holds an entry can go on, whatever the others do. -/
theorem step_of_holdsEntry
    (requests : Client → CounterRequest)
    (holds : (round.phase client).HoldsEntry) :
    ∃ after, Step requests client round after := by
  cases phase : round.phase client with
  | trying attempt =>
    let name := CounterTable.candidate (requests client).key attempt
    cases taken : round.counters.names.get? name with
    | none => exact ⟨_, .claim phase rfl fun other known => by cases taken.symm.trans known⟩
    | some other =>
      by_cases same : other = (requests client).owner
      · refine ⟨_, .claim phase rfl fun another known => ?_⟩
        cases taken.symm.trans known
        exact same
      · exact ⟨_, .retry phase taken same⟩
  | claimed name => exact ⟨_, .place phase⟩
  | placed name =>
    cases added : round.program.addField round.counters.className (counterField name) with
    | error error => exact ⟨_, .fail phase added⟩
    | ok parts => exact ⟨_, .declare phase added⟩
  | declared field => exact ⟨_, .serve phase⟩
  | waiting => exact absurd holds (by simp [phase, ClaimPhase.HoldsEntry])
  | served field => exact absurd holds (by simp [phase, ClaimPhase.HoldsEntry])
  | failed error => exact absurd holds (by simp [phase, ClaimPhase.HoldsEntry])

/-- If nobody can go on, everybody is served. -/
theorem Sound.served_or_step
    {sink : Sink}
    (sound : round.Sound sink requests) :
    (∃ field : Client → FieldRef, ∀ client, round.phase client = .served (field client)) ∨
      ∃ client after, Step requests client round after := by
  by_cases served : ∀ client, ∃ field, round.phase client = .served field
  · exact .inl ⟨fun client => (served client).choose, fun client => (served client).choose_spec⟩
  · rw [not_forall] at served
    obtain ⟨client, unserved⟩ := served
    right
    cases phase : round.phase client with
    | waiting =>
      cases known : round.counters.fields.get? (requests client).owner with
      | some field => exact ⟨client, _, .find phase known⟩
      | none =>
        by_cases vacant : round.Occupied requests (requests client).owner
        · obtain ⟨holder, -, holds⟩ := vacant
          exact ⟨holder, step_of_holdsEntry requests holds⟩
        · exact ⟨client, _, .enter phase known vacant⟩
    | served field => exact absurd ⟨field, phase⟩ unserved
    | failed error => exact absurd phase (sound.unfailed client error)
    | _ => exact ⟨client, step_of_holdsEntry requests (by rw [phase]; trivial)⟩

end AccessProfiler.ClaimRound
