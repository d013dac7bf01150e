import AccessProfiler.Proofs.Registry
import Mathlib.Order.Lattice
import Mathlib.Order.Nat

/-!
# Walks through the hierarchy

A walk is given a number of steps, and the number that a program grants is always enough: what is
left to be walked shrinks with every step.  So the walk of a program does not depend on classes that
it does not reach, although these raise the number of steps (`above_congr`, `interfacesAbove_congr`), and
what it visits is closed under the edges that it follows (`mem_above_of_parent`, `mem_above_trans`).
-/

namespace AccessProfiler.Program

/-- How many edges leave the classes that were not visited. -/
def pendingEdges : List (String × Class) → List String → Nat
  | [], _ => 0
  | entry :: rest, seen =>
    (if entry.1 ∈ seen then 0 else entry.2.parents.length) + pendingEdges rest seen

theorem pendingEdges_nil (entries : List (String × Class)) :
    pendingEdges entries [] =
      ((entries.map Prod.snd).flatMap Class.parents).length := by
  induction entries with
  | nil => rfl
  | cons entry rest hypothesis => simp [pendingEdges, hypothesis]

theorem pendingEdges_cons_le
    (entries : List (String × Class))
    (seen : List String)
    (name : String) :
    pendingEdges entries (name :: seen) ≤ pendingEdges entries seen := by
  induction entries with
  | nil => exact le_rfl
  | cons entry rest hypothesis =>
    unfold pendingEdges
    by_cases known : entry.1 ∈ seen
    · simpa [known] using hypothesis
    · simp only [known, List.mem_cons]
      split <;> simp only [if_false] <;> omega

/-- To visit a registered class takes its edges from those that are pending. -/
theorem parents_length_add_pendingEdges_le
    {entries : List (String × Class)}
    {seen : List String}
    {name : String}
    {declaration : Class}
    (member : (name, declaration) ∈ entries)
    (fresh : name ∉ seen) :
    declaration.parents.length + pendingEdges entries (name :: seen) ≤
      pendingEdges entries seen := by
  induction entries with
  | nil => cases member
  | cons entry rest hypothesis =>
    unfold pendingEdges
    rcases List.mem_cons.1 member with here | later
    · subst here
      have := pendingEdges_cons_le rest seen name
      simp only [fresh, List.mem_cons_self, if_true, if_false]
      omega
    · have := hypothesis later
      by_cases known : entry.1 ∈ seen
      · simp only [known, List.mem_cons_of_mem name known, if_true]
        omega
      · simp only [known, if_false]
        split <;> omega

/-- The edges that a walk follows lead from a registered class to its parents, if not to all. -/
def Follows (program : Program) (next : String → List String) : Prop :=
  ∀ name, (next name).length ≤ (program.parents name).length

theorem follows_parents (program : Program) : program.Follows program.parents :=
  fun _ => le_rfl

theorem follows_interfaces (program : Program) : program.Follows program.interfaces := by
  intro name
  unfold interfaces parents
  cases program.class? name with
  | none => rfl
  | some declaration => simp [Class.parents]

variable {program : Program} {next other : String → List String}

/-- What is enough before a name is visited is enough for what is queued then. -/
theorem enough_of_visit
    (follows : program.Follows next)
    {limit : Nat}
    {seen queue : List String}
    {name : String}
    (fresh : name ∉ seen)
    (enough : (name :: queue).length + pendingEdges program.entries seen < limit + 1) :
    (queue ++ next name).length + pendingEdges program.entries (name :: seen) < limit := by
  have step :
      (next name).length + pendingEdges program.entries (name :: seen) ≤
        pendingEdges program.entries seen := by
    have bound := follows name
    unfold parents at bound
    cases found : program.class? name with
    | none =>
      rw [found] at bound
      have := pendingEdges_cons_le program.entries seen name
      simp only [List.length_nil] at bound
      omega
    | some declaration =>
      rw [found] at bound
      have := parents_length_add_pendingEdges_le (mem_entries_of_class? found) fresh
      simp only at bound
      omega
  rw [List.length_cons] at enough
  rw [List.length_append]
  omega

/-- Two numbers of steps that are both enough give the same walk. -/
theorem walk_eq_of_enough
    (follows : program.Follows next)
    {limit more : Nat}
    {seen queue : List String}
    (enough : queue.length + pendingEdges program.entries seen < limit)
    (enoughMore : queue.length + pendingEdges program.entries seen < more) :
    walk next limit seen queue = walk next more seen queue := by
  induction limit generalizing more seen queue with
  | zero => omega
  | succ limit hypothesis =>
    obtain ⟨more, rfl⟩ := Nat.exists_eq_succ_of_ne_zero (Nat.ne_zero_of_lt enoughMore)
    cases queue with
    | nil => rfl
    | cons name queue =>
      unfold walk
      split
      · rw [List.length_cons] at enough enoughMore
        exact hypothesis (by omega) (by omega)
      · rename_i unseen
        have fresh : name ∉ seen := by simpa using unseen
        congr 1
        exact hypothesis (enough_of_visit follows fresh enough)
          (enough_of_visit follows fresh enoughMore)

/-- With enough steps, a walk leaves nothing out: it visits what is queued, and what the edges of a
visited name lead to. -/
theorem walk_closed
    (follows : program.Follows next)
    {limit : Nat}
    {seen queue : List String}
    (enough : queue.length + pendingEdges program.entries seen < limit) :
    (∀ name ∈ queue, name ∈ seen ∨ name ∈ walk next limit seen queue) ∧
      ∀ name ∈ walk next limit seen queue, ∀ upper ∈ next name,
        upper ∈ seen ∨ upper ∈ walk next limit seen queue := by
  induction limit generalizing seen queue with
  | zero => omega
  | succ limit hypothesis =>
    cases queue with
    | nil => simp [walk]
    | cons name queue =>
      unfold walk
      split
      · rename_i known
        rw [List.length_cons] at enough
        have enoughHere : queue.length + pendingEdges program.entries seen < limit := by omega
        obtain ⟨visits, closed⟩ := hypothesis enoughHere
        refine ⟨?_, closed⟩
        intro other member
        rcases List.mem_cons.1 member with rfl | later
        · exact .inl (List.contains_iff_mem.1 known)
        · exact visits other later
      · rename_i unseen
        have fresh : name ∉ seen := by simpa using unseen
        obtain ⟨visits, closed⟩ := hypothesis (enough_of_visit follows fresh enough)
        -- What the rest of the walk takes as seen is seen before or is the name itself.
        have reach
            {other : String}
            (reached :
              other ∈ name :: seen ∨
                other ∈ walk next limit (name :: seen) (queue ++ next name)) :
            other ∈ seen ∨
              other ∈ name :: walk next limit (name :: seen) (queue ++ next name) := by
          simp only [List.mem_cons] at reached ⊢
          tauto
        constructor
        · intro other member
          rcases List.mem_cons.1 member with rfl | later
          · exact .inr List.mem_cons_self
          · exact reach (visits other (List.mem_append_left _ later))
        · intro visited member upper edge
          rcases List.mem_cons.1 member with rfl | later
          · exact reach (visits upper (List.mem_append_right _ edge))
          · exact reach (closed visited later upper edge)

/-- Walks along edges that agree wherever they lead are the same. -/
theorem walk_congr
    {Within : String → Prop}
    (agree : ∀ name, Within name → next name = other name)
    (closed : ∀ name, Within name → ∀ above ∈ next name, Within above)
    {limit : Nat}
    {seen queue : List String}
    (within : ∀ name ∈ queue, Within name) :
    walk next limit seen queue = walk other limit seen queue := by
  induction limit generalizing seen queue with
  | zero => rfl
  | succ limit hypothesis =>
    cases queue with
    | nil => rfl
    | cons name queue =>
      have here := within name (by simp)
      have later : ∀ name ∈ queue, Within name :=
        fun name member => within name (List.mem_cons_of_mem _ member)
      unfold walk
      split
      · exact hypothesis later
      · rw [← agree name here]
        congr 1
        apply hypothesis
        intro reached member
        rcases List.mem_append.1 member with queued | added
        · exact later reached queued
        · exact closed name here reached added

/-- A walk stays within names that its edges do not leave. -/
theorem within_of_mem_walk
    (Within : String → Prop)
    (closed : ∀ name, Within name → ∀ above ∈ next name, Within above)
    {limit : Nat}
    {seen queue : List String}
    (within : ∀ name ∈ queue, Within name)
    {reached : String}
    (member : reached ∈ walk next limit seen queue) :
    Within reached := by
  induction limit generalizing seen queue with
  | zero => cases member
  | succ limit hypothesis =>
    cases queue with
    | nil => cases member
    | cons name queue =>
      have here := within name (by simp)
      have later : ∀ name ∈ queue, Within name :=
        fun name member => within name (List.mem_cons_of_mem _ member)
      unfold walk at member
      split at member
      · exact hypothesis later member
      · rcases List.mem_cons.1 member with rfl | further
        · exact here
        · refine hypothesis ?_ further
          intro name queued
          rcases List.mem_append.1 queued with old | added
          · exact later name old
          · exact closed _ here name added

/-- The steps that a program grants are enough for a walk from the given names. -/
theorem enough_walkLimit (program : Program) (start : List String) :
    start.length + pendingEdges program.entries [] < program.walkLimit start := by
  rw [pendingEdges_nil]
  unfold walkLimit classes
  omega

section Closure

variable {start : List String} {name : String}

/-- The given names are among those at or above them. -/
theorem mem_above_of_mem (member : name ∈ start) : name ∈ program.above start := by
  obtain ⟨visits, -⟩ := walk_closed program.follows_parents (program.enough_walkLimit start)
  exact (visits name member).resolve_left List.not_mem_nil

/-- What is directly above one of the names is among them as well. -/
theorem mem_above_of_parent
    (member : name ∈ program.above start)
    {upper : String}
    (parent : upper ∈ program.parents name) :
    upper ∈ program.above start := by
  obtain ⟨-, closed⟩ := walk_closed program.follows_parents (program.enough_walkLimit start)
  exact (closed name member upper parent).resolve_left List.not_mem_nil

/-- What is above names that are above others is above the others. -/
theorem mem_above_trans
    {lower : List String}
    (within : ∀ name ∈ start, name ∈ program.above lower)
    (member : name ∈ program.above start) :
    name ∈ program.above lower :=
  within_of_mem_walk (· ∈ program.above lower) (fun _ => mem_above_of_parent) within member

end Closure

section Congruence

variable {program larger : Program} {Within : String → Prop} {start : List String}

/-- Where two programs agree on the parents of all names within reach, so they do on what is above
them. -/
theorem walk_walkLimit_congr
    {next other : String → List String}
    (follows : program.Follows next)
    (followsOther : larger.Follows other)
    (agree : ∀ name, Within name → next name = other name)
    (closed : ∀ name, Within name → ∀ above ∈ next name, Within above)
    (within : ∀ name ∈ start, Within name) :
    walk next (program.walkLimit start) [] start =
      walk other (larger.walkLimit start) [] start := by
  let limit := max (program.walkLimit start) (larger.walkLimit start)
  have enough := program.enough_walkLimit start
  have enoughLarger := larger.enough_walkLimit start
  calc
    walk next (program.walkLimit start) [] start = walk next limit [] start :=
      walk_eq_of_enough follows enough (lt_of_lt_of_le enough (le_max_left _ _))
    _ = walk other limit [] start := walk_congr agree closed within
    _ = walk other (larger.walkLimit start) [] start :=
      walk_eq_of_enough followsOther (lt_of_lt_of_le enoughLarger (le_max_right _ _))
        enoughLarger

theorem above_congr
    (agree : ∀ name, Within name → program.parents name = larger.parents name)
    (closed : ∀ name, Within name → ∀ above ∈ program.parents name, Within above)
    (within : ∀ name ∈ start, Within name) :
    program.above start = larger.above start :=
  walk_walkLimit_congr program.follows_parents larger.follows_parents agree closed within

theorem interfacesAbove_congr
    (agree : ∀ name, Within name → program.interfaces name = larger.interfaces name)
    (closed : ∀ name, Within name → ∀ above ∈ program.interfaces name, Within above)
    (within : ∀ name ∈ start, Within name) :
    program.interfacesAbove start = larger.interfacesAbove start :=
  walk_walkLimit_congr program.follows_interfaces larger.follows_interfaces agree closed within

end Congruence
end AccessProfiler.Program
