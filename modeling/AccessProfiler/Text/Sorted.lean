/-!
# Sorted names

Names are listed in the order of their characters.  A name is put in front of the first one that
does not come before it, so that sorting keeps repetitions.
-/

namespace AccessProfiler.Text

/-- A name in its place among sorted ones. -/
def insertSorted (name : String) : List String → List String
  | [] => [name]
  | other :: rest =>
    if name ≤ other then name :: other :: rest else other :: insertSorted name rest

/-- The names in order. -/
def sorted (names : List String) : List String :=
  names.foldr insertSorted []

theorem insertSorted_perm (name : String) (names : List String) :
    (insertSorted name names).Perm (name :: names) := by
  induction names with
  | nil => rfl
  | cons other rest hypothesis =>
    unfold insertSorted
    split
    · rfl
    · exact (hypothesis.cons other).trans (.swap name other rest)

/-- Sorting only changes the order. -/
theorem sorted_perm (names : List String) : (sorted names).Perm names := by
  induction names with
  | nil => rfl
  | cons name rest hypothesis =>
    exact (insertSorted_perm name (sorted rest)).trans (hypothesis.cons name)

@[simp]
theorem mem_sorted {name : String} {names : List String} :
    name ∈ sorted names ↔ name ∈ names :=
  (sorted_perm names).mem_iff

end AccessProfiler.Text
