import AccessProfiler.Proofs.Outcome
import Mathlib.Data.List.Forall2

/-!
# Rules for drafts

`Draft.Keeps` says of a step on a body within a session that it keeps an invariant of both and gives a
good value.  There is a rule for each way in which such steps are put together; a fold carries along
what is known of its accumulator.
-/

namespace AccessProfiler

variable {Value Result Item : Type}

/-- Whenever the step ends, it has kept the invariant and gives a good value. -/
def Draft.Keeps
    (Invariant : Body → Session → Prop)
    (step : Draft Value)
    (Good : Value → Prop) : Prop :=
  ∀ body session value bodyAfter sessionAfter,
    Invariant body session → Draft.Ends step body session value bodyAfter sessionAfter →
      Invariant bodyAfter sessionAfter ∧ Good value

namespace Draft.Keeps

variable {Invariant : Body → Session → Prop}

theorem pure
    {value : Value}
    {Good : Value → Prop}
    (good : Good value) :
    Keeps Invariant (pure value) Good := by
  intro body session result bodyAfter sessionAfter invariant ends
  obtain ⟨rfl, rfl, rfl⟩ := Draft.Ends.pure_iff.1 ends
  exact ⟨invariant, good⟩

theorem bind
    {step : Draft Value}
    {next : Value → Draft Result}
    {Good : Value → Prop}
    {GoodResult : Result → Prop}
    (first : Keeps Invariant step Good)
    (second : ∀ value, Good value → Keeps Invariant (next value) GoodResult) :
    Keeps Invariant (step >>= next) GoodResult := by
  intro body session result bodyAfter sessionAfter invariant ends
  obtain ⟨value, bodyBetween, sessionBetween, endsFirst, endsNext⟩ := Draft.Ends.bind_iff.1 ends
  obtain ⟨kept, good⟩ := first body session value bodyBetween sessionBetween invariant endsFirst
  exact second value good bodyBetween sessionBetween result bodyAfter sessionAfter kept endsNext

theorem mono
    {step : Draft Value}
    {Good GoodToo : Value → Prop}
    (keeps : Keeps Invariant step Good)
    (le : ∀ value, Good value → GoodToo value) :
    Keeps Invariant step GoodToo := by
  intro body session value bodyAfter sessionAfter invariant ends
  obtain ⟨kept, good⟩ := keeps body session value bodyAfter sessionAfter invariant ends
  exact ⟨kept, le value good⟩

theorem lift
    {step : Transform Value}
    {Good : Value → Prop}
    (keeps :
      ∀ body session value after, Invariant body session → AccessProfiler.Ends step session value after →
        Invariant body after ∧ Good value) :
    Keeps Invariant (Draft.lift step) Good := by
  intro body session value bodyAfter sessionAfter invariant ends
  obtain ⟨endsStep, rfl⟩ := Draft.Ends.lift_iff.1 ends
  exact keeps bodyAfter session value sessionAfter invariant endsStep

theorem session : Keeps Invariant Draft.session fun session => ∃ body, Invariant body session := by
  intro body session state bodyAfter sessionAfter invariant ends
  obtain ⟨rfl, rfl, rfl⟩ := Draft.Ends.session_iff.1 ends
  exact ⟨invariant, bodyAfter, invariant⟩

theorem body : Keeps Invariant Draft.body fun body => ∃ session, Invariant body session := by
  intro body session state bodyAfter sessionAfter invariant ends
  obtain ⟨rfl, rfl, rfl⟩ := Draft.Ends.body_iff.1 ends
  exact ⟨invariant, sessionAfter, invariant⟩

/-- Steps for the items of a list give good values for each. -/
theorem mapM
    {step : Item → Draft Value}
    {Good : Item → Value → Prop}
    {items : List Item}
    (each : ∀ item ∈ items, Keeps Invariant (step item) (Good item)) :
    Keeps Invariant (items.mapM step) (List.Forall₂ Good items) := by
  induction items with
  | nil => exact pure .nil
  | cons item rest hypothesis =>
    rw [List.mapM_cons]
    apply bind (each item List.mem_cons_self)
    intro value good
    apply bind (hypothesis fun other member => each other (List.mem_cons_of_mem _ member))
    intro values goods
    exact pure (.cons good goods)

theorem mapM_all
    {step : Item → Draft Value}
    {Good : Value → Prop}
    {items : List Item}
    (each : ∀ item ∈ items, Keeps Invariant (step item) Good) :
    Keeps Invariant (items.mapM step) fun values => ∀ value ∈ values, Good value := by
  apply (mapM each).mono
  intro values goods
  clear each
  induction goods with
  | nil =>
    intro value member
    cases member
  | cons good _ hypothesis =>
    rw [List.forall_mem_cons]
    exact ⟨good, hypothesis⟩

/-- A fold carries along what is known of its accumulator after the items before. -/
theorem foldlM
    {step : Value → Item → Draft Value}
    {items : List Item}
    {start : Value}
    (Along : List Item → Value → Prop)
    (each :
      ∀ done item rest value, items = done ++ item :: rest → Along done value →
        Keeps Invariant (step value item) (Along (done ++ [item])))
    (along : Along [] start) :
    Keeps Invariant (items.foldlM step start) (Along items) := by
  have onward
      (done rest : List Item)
      (split : items = done ++ rest)
      {value : Value}
      (along : Along done value) :
      Keeps Invariant (rest.foldlM step value) (Along items) := by
    induction rest generalizing done value with
    | nil =>
      rw [split, List.append_nil]
      exact pure along
    | cons item rest hypothesis =>
      rw [List.foldlM_cons]
      apply bind (each done item rest value split along)
      intro next alongNext
      apply hypothesis (done ++ [item]) ?_ alongNext
      rw [split, List.append_assoc]
      rfl
  exact onward [] items rfl along

end Draft.Keeps
end AccessProfiler
