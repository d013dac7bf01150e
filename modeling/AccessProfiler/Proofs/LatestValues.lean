import AccessProfiler.Log.Summary
import Mathlib.Data.List.Basic

/-!
# The latest values

A summary keeps its counters in strict order, so that there is one for each name and operation, and an
entry displaces the one before it.  Whatever was put in, the counters are those of the names and
operations that occurred, each with the value that came last (`keepsLast_foldl_putCounter`).
-/

namespace AccessProfiler

namespace Operation

theorem rank_injective : Function.Injective rank := by
  intro left right same
  cases left <;> cases right <;> first | rfl | exact absurd same (by decide)

end Operation

namespace CounterEntry

variable {left right other : CounterEntry}

/-- The entries are about the same counter. -/
def Same (left right : CounterEntry) : Prop :=
  left.name = right.name ∧ left.operation = right.operation

instance : Decidable (left.Same right) :=
  inferInstanceAs (Decidable (_ ∧ _))

theorem precedes_iff :
    left.precedes right ↔
      left.name < right.name ∨
        (left.name = right.name ∧ left.operation.rank < right.operation.rank) := by
  simp [precedes]

theorem precedes_trans (first : left.precedes right) (second : right.precedes other) :
    left.precedes other := by
  rw [precedes_iff] at *
  rcases first with smaller | ⟨same, lower⟩
  · rcases second with smallerNext | ⟨sameNext, -⟩
    · exact .inl (String.lt_trans smaller smallerNext)
    · exact .inl (sameNext ▸ smaller)
  · rw [same]
    exact second.imp_right fun ⟨sameNext, lowerNext⟩ => ⟨sameNext, Nat.lt_trans lower lowerNext⟩

/-- Entries of the same counter are in no order. -/
theorem not_precedes_of_same (same : left.Same right) : ¬ left.precedes right := by
  rw [precedes_iff, same.1, same.2]
  rintro (smaller | ⟨-, lower⟩)
  · exact String.lt_irrefl _ smaller
  · exact Nat.lt_irrefl _ lower

/-- Entries of different counters are in order, one way or the other. -/
theorem same_of_not_precedes (unordered : ¬ left.precedes right) (reversed : ¬ right.precedes left) :
    left.Same right := by
  rw [precedes_iff, not_or, not_and] at unordered reversed
  have names : left.name = right.name :=
    String.le_antisymm (String.not_lt.1 reversed.1) (String.not_lt.1 unordered.1)
  have lower := unordered.2 names
  have higher := reversed.2 names.symm
  exact ⟨names, Operation.rank_injective (by omega)⟩

end CounterEntry

/-- The counters are in strict order. -/
def Ordered (counters : List CounterEntry) : Prop :=
  counters.Pairwise fun left right => left.precedes right

section Putting

variable {entry counter other : CounterEntry} {counters : List CounterEntry}

/-- An entry that is put in displaces that of the same counter, and no other. -/
theorem mem_putCounter_iff (ordered : Ordered counters) :
    counter ∈ putCounter entry counters ↔
      counter = entry ∨ (counter ∈ counters ∧ ¬ counter.Same entry) := by
  induction counters with
  | nil => simp [putCounter]
  | cons other rest hypothesis =>
    obtain ⟨below, orderedRest⟩ := List.pairwise_cons.1 ordered
    unfold putCounter
    split_ifs with front back
    · have different : ¬ other.Same entry :=
        fun same => CounterEntry.not_precedes_of_same same front
      rw [List.mem_cons, hypothesis orderedRest, List.mem_cons]
      constructor
      · rintro (rfl | rfl | ⟨member, differs⟩)
        · exact .inr ⟨.inl rfl, different⟩
        · exact .inl rfl
        · exact .inr ⟨.inr member, differs⟩
      · rintro (rfl | ⟨rfl | member, differs⟩)
        · exact .inr (.inl rfl)
        · exact .inl rfl
        · exact .inr (.inr ⟨member, differs⟩)
    · have different : ∀ counter ∈ other :: rest, ¬ counter.Same entry := by
        intro counter member same
        refine CounterEntry.not_precedes_of_same ⟨same.1.symm, same.2.symm⟩ ?_
        rcases List.mem_cons.1 member with rfl | later
        · exact back
        · exact CounterEntry.precedes_trans back (below counter later)
      rw [List.mem_cons]
      exact or_congr_right ⟨fun member => ⟨member, different counter member⟩, And.left⟩
    · have same := CounterEntry.same_of_not_precedes front back
      have different : ∀ counter ∈ rest, ¬ counter.Same entry := by
        intro counter later sameLater
        refine CounterEntry.not_precedes_of_same ?_ (below counter later)
        exact ⟨same.1.trans sameLater.1.symm, same.2.trans sameLater.2.symm⟩
      rw [List.mem_cons, List.mem_cons]
      constructor
      · rintro (rfl | member)
        · exact .inl rfl
        · exact .inr ⟨.inr member, different counter member⟩
      · rintro (rfl | ⟨rfl | member, differs⟩)
        · exact .inl rfl
        · exact absurd same differs
        · exact .inr member

theorem putCounter_ordered (ordered : Ordered counters) : Ordered (putCounter entry counters) := by
  induction counters with
  | nil => exact List.pairwise_singleton _ _
  | cons other rest hypothesis =>
    obtain ⟨below, orderedRest⟩ := List.pairwise_cons.1 ordered
    unfold putCounter
    split_ifs with front back
    · refine List.pairwise_cons.2 ⟨fun counter member => ?_, hypothesis orderedRest⟩
      rcases (mem_putCounter_iff orderedRest).1 member with rfl | ⟨later, -⟩
      · exact front
      · exact below counter later
    · refine List.pairwise_cons.2 ⟨fun counter member => ?_, ordered⟩
      rcases List.mem_cons.1 member with rfl | later
      · exact back
      · exact CounterEntry.precedes_trans back (below counter later)
    · have same := CounterEntry.same_of_not_precedes front back
      refine List.pairwise_cons.2 ⟨fun counter later => ?_, orderedRest⟩
      have after := below counter later
      rw [CounterEntry.precedes_iff] at after ⊢
      rw [← same.1, ← same.2]
      exact after

end Putting

/-- The value that comes last for a name and operation. -/
def lastValue? (entries : List CounterEntry) (name : String) (operation : Operation) : Option Int :=
  (entries.reverse.find? fun entry => entry.name == name && entry.operation == operation).map
    CounterEntry.value

theorem lastValue?_append
    (entries : List CounterEntry)
    (entry : CounterEntry)
    (name : String)
    (operation : Operation) :
    lastValue? (entries ++ [entry]) name operation =
      if entry.name = name ∧ entry.operation = operation then some entry.value
      else lastValue? entries name operation := by
  unfold lastValue?
  rw [List.reverse_append, List.reverse_singleton, List.singleton_append, List.find?_cons]
  split <;> simp_all

/-- The counters are in strict order, and each of them has the value that came last. -/
structure KeepsLast (entries counters : List CounterEntry) : Prop where
  ordered : Ordered counters
  mem_iff :
    ∀ counter,
      counter ∈ counters ↔
        lastValue? entries counter.name counter.operation = some counter.value

theorem KeepsLast.putCounter
    {entries counters : List CounterEntry}
    (keeps : KeepsLast entries counters)
    (entry : CounterEntry) :
    KeepsLast (entries ++ [entry]) (putCounter entry counters) where
  ordered := putCounter_ordered keeps.ordered
  mem_iff counter := by
    rw [mem_putCounter_iff keeps.ordered, keeps.mem_iff, lastValue?_append]
    by_cases same : counter.Same entry
    · rw [if_pos ⟨same.1.symm, same.2.symm⟩]
      constructor
      · rintro (rfl | ⟨-, differs⟩)
        · rfl
        · exact absurd same differs
      · intro value
        obtain ⟨name, operation, number⟩ := counter
        obtain ⟨rfl, rfl⟩ := same
        cases value
        exact .inl rfl
    · rw [if_neg fun equal => same ⟨equal.1.symm, equal.2.symm⟩]
      constructor
      · rintro (rfl | ⟨member, -⟩)
        · exact absurd ⟨rfl, rfl⟩ same
        · exact member
      · exact fun member => .inr ⟨member, same⟩

/-- Whatever is put in, the values that came last are kept. -/
theorem keepsLast_foldl_putCounter
    {before counters : List CounterEntry}
    (keeps : KeepsLast before counters)
    (entries : List CounterEntry) :
    KeepsLast (before ++ entries)
      (entries.foldl (fun counters entry => AccessProfiler.putCounter entry counters) counters) := by
  induction entries generalizing before counters with
  | nil => simpa using keeps
  | cons entry rest hypothesis =>
    have further := hypothesis (keeps.putCounter entry)
    rwa [List.append_assoc, List.singleton_append] at further

theorem keepsLast_nil : KeepsLast [] [] where
  ordered := List.Pairwise.nil
  mem_iff _ := by simp [lastValue?]

end AccessProfiler
