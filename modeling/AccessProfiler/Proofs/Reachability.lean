import AccessProfiler.Proofs.Walk
import Mathlib.Logic.Relation

/-!
# Reachability in the hierarchy

A class is directly below the superclass and the interfaces that its declaration names, registered or
not; nothing is directly above a class that is not registered.  The breadth-first walk upwards visits
exactly what can be reached along these edges (`mem_ancestors_iff`).

To ask whether one class is reached, a search with a stack is enough: it takes a name off, looks for the
sought class among those directly above, and only then puts these onto the stack (`searchUp`).  It comes to
an end on cyclic hierarchies as well, because each step takes away a pending name or uses up the edges of a
class.  What it has visited leads to names that were visited or are pending, and not to the sought one;
with this the search is complete (`searchUp_iff`).  So both ways to compute it decide reachability
(`isSubclass_decides_reaches`).
-/

namespace AccessProfiler.Program

/-- A registered class names the other as its superclass or as one of its interfaces. -/
def DirectlyBelow (program : Program) (lower upper : String) : Prop :=
  ∃ declaration, program.class? lower = some declaration ∧
    (declaration.superclass = some upper ∨ upper ∈ declaration.interfaces)

/-- The other class is reached in any number of steps upwards, or in none. -/
def Reaches (program : Program) : String → String → Prop :=
  Relation.ReflTransGen program.DirectlyBelow

variable {program : Program} {lower upper sought : String} {seen pending : List String}

theorem mem_parents_iff : upper ∈ program.parents lower ↔ program.DirectlyBelow lower upper := by
  unfold parents DirectlyBelow
  cases program.class? lower with
  | none => simp
  | some declaration => simp [Class.parents, or_comm]

/-- The walk upwards visits exactly the classes that are reached. -/
theorem mem_ancestors_iff : upper ∈ program.ancestors lower ↔ program.Reaches lower upper := by
  constructor
  · intro visited
    refine within_of_mem_walk (program.Reaches lower) ?_ ?_ visited
    · intro name reached above edge
      exact reached.tail (mem_parents_iff.1 edge)
    · intro name start
      rw [List.mem_singleton.1 start]
      exact .refl
  · intro reached
    induction reached with
    | refl => exact mem_above_of_mem (List.mem_singleton_self lower)
    | tail _ edge visited => exact mem_above_of_parent visited (mem_parents_iff.2 edge)

/-- Search upwards for a class, given the names that were visited and those that are pending, the last
one first.  A class is visited when it is taken off, after a look at what is directly above it. -/
def searchUp (program : Program) (sought : String) (seen : List String) : List String → Bool
  | [] => false
  | name :: pending =>
    if name ∈ seen then program.searchUp sought seen pending
    else if sought ∈ program.parents name then true
    else program.searchUp sought (name :: seen) ((program.parents name).reverse ++ pending)
termination_by pending => pending.length + pendingEdges program.entries seen
decreasing_by
  · simp only [List.length_cons]
    omega
  · rename_i fresh _
    have enough :
        (name :: pending).length + pendingEdges program.entries seen <
          (name :: pending).length + pendingEdges program.entries seen + 1 :=
      Nat.lt_succ_self _
    have fewer := enough_of_visit program.follows_parents fresh enough
    simpa [Nat.add_comm] using fewer

/-- What was visited leads to names that were visited or are pending, and does not lead to the sought
class. -/
structure Frontier (program : Program) (sought : String) (seen pending : List String) : Prop where
  known : ∀ name ∈ seen, ∀ upper, program.DirectlyBelow name upper → upper ∈ seen ∨ upper ∈ pending
  missed : ∀ name ∈ seen, ¬ program.DirectlyBelow name sought

namespace Frontier

/-- At the start nothing was visited. -/
theorem start : program.Frontier sought [] pending :=
  ⟨fun _ member => (List.not_mem_nil member).elim, fun _ member => (List.not_mem_nil member).elim⟩

/-- A name that was visited can be taken off. -/
theorem skip
    {name : String}
    (frontier : program.Frontier sought seen (name :: pending))
    (visited : name ∈ seen) :
    program.Frontier sought seen pending where
  known lower member upper edge := by
    rcases frontier.known lower member upper edge with known | queued
    · exact .inl known
    · rcases List.mem_cons.1 queued with rfl | later
      · exact .inl visited
      · exact .inr later
  missed := frontier.missed

/-- A name that does not lead to the sought class is visited. -/
theorem visit
    {name : String}
    (frontier : program.Frontier sought seen (name :: pending))
    (misses : ¬ program.DirectlyBelow name sought) :
    program.Frontier sought (name :: seen) ((program.parents name).reverse ++ pending) where
  known lower member upper edge := by
    rcases List.mem_cons.1 member with rfl | earlier
    · exact .inr (List.mem_append_left _ (List.mem_reverse.2 (mem_parents_iff.2 edge)))
    · rcases frontier.known lower earlier upper edge with known | queued
      · exact .inl (List.mem_cons_of_mem _ known)
      · rcases List.mem_cons.1 queued with rfl | later
        · exact .inl List.mem_cons_self
        · exact .inr (List.mem_append_right _ later)
  missed lower member := by
    rcases List.mem_cons.1 member with rfl | earlier
    · exact misses
    · exact frontier.missed lower earlier

/-- From what was visited the sought class can only be reached through a pending name. -/
theorem reached_from_pending
    (frontier : program.Frontier sought seen pending)
    (visited : lower ∈ seen)
    (reached : Relation.TransGen program.DirectlyBelow lower sought) :
    ∃ name ∈ pending, Relation.TransGen program.DirectlyBelow name sought := by
  induction reached using Relation.TransGen.head_induction_on with
  | single edge => exact (frontier.missed _ visited edge).elim
  | head edge further hypothesis =>
    rcases frontier.known _ visited _ edge with known | queued
    · exact hypothesis known
    · exact ⟨_, queued, further⟩

end Frontier

/-- The search finds the sought class exactly if it is above one of the pending names. -/
theorem searchUp_iff (frontier : program.Frontier sought seen pending) :
    program.searchUp sought seen pending ↔
      ∃ name ∈ pending, Relation.TransGen program.DirectlyBelow name sought := by
  fun_induction searchUp program sought seen pending with
  | case1 => simp
  | case2 seen name pending visited hypothesis =>
    rw [hypothesis (frontier.skip visited)]
    constructor
    · rintro ⟨other, queued, reached⟩
      exact ⟨other, List.mem_cons_of_mem _ queued, reached⟩
    · rintro ⟨other, queued, reached⟩
      rcases List.mem_cons.1 queued with rfl | later
      · exact (frontier.skip visited).reached_from_pending visited reached
      · exact ⟨other, later, reached⟩
  | case3 seen name pending fresh found =>
    exact iff_of_true rfl ⟨name, List.mem_cons_self, .single (mem_parents_iff.1 found)⟩
  | case4 seen name pending fresh missed hypothesis =>
    have misses : ¬ program.DirectlyBelow name sought := fun edge => missed (mem_parents_iff.2 edge)
    have visited := frontier.visit misses
    rw [hypothesis visited]
    constructor
    · rintro ⟨other, queued, reached⟩
      rcases List.mem_append.1 queued with above | later
      · have edge := mem_parents_iff.1 (List.mem_reverse.1 above)
        exact ⟨name, List.mem_cons_self, .head edge reached⟩
      · exact ⟨other, List.mem_cons_of_mem _ later, reached⟩
    · rintro ⟨other, queued, reached⟩
      rcases List.mem_cons.1 queued with rfl | later
      · exact visited.reached_from_pending List.mem_cons_self reached
      · exact ⟨other, List.mem_append_right _ later, reached⟩

theorem isSubclass_iff :
    program.isSubclass lower upper ↔ upper = objectClass ∨ program.Reaches lower upper := by
  simp [isSubclass, mem_ancestors_iff]

/-- One class counts as below another exactly if the other is the root class or is reached along
superclasses and interfaces of registered classes.  The search with a stack that tries the parents of a class
before it visits them gives the same answer, and the walk that is limited in its steps is never cut: with
more steps it visits the same names. -/
theorem isSubclass_decides_reaches (program : Program) (lower upper : String) :
    (program.isSubclass lower upper ↔ upper = objectClass ∨ program.Reaches lower upper) ∧
      program.isSubclass lower upper =
        (lower == upper || upper == objectClass || program.searchUp upper [] [lower]) ∧
      ∀ limit, program.walkLimit [lower] ≤ limit →
        walk program.parents limit [] [lower] = program.ancestors lower := by
  refine ⟨isSubclass_iff, ?_, ?_⟩
  · rw [Bool.eq_iff_iff, isSubclass_iff]
    simp only [Bool.or_eq_true, beq_iff_eq, searchUp_iff Frontier.start, List.mem_singleton,
      exists_eq_left, Reaches, Relation.reflTransGen_iff_eq_or_transGen, eq_comm (a := upper)]
    tauto
  · intro limit more
    have enough := program.enough_walkLimit [lower]
    exact walk_eq_of_enough program.follows_parents (Nat.lt_of_lt_of_le enough more) enough

end AccessProfiler.Program
