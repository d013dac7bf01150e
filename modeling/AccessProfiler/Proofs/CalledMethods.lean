import AccessProfiler.Language.EditBatch
import AccessProfiler.Proofs.Naming
import Mathlib.Data.List.Forall2

/-!
# The methods that a body calls

The methods that instructions call are listed in order.  Wrapping inserts calls of generated classes
between them; leaving those out (`calledApart`) gives the calls that stand for those of the original
body.  A batch of edits is followed through its queue: what is queued in front of instructions calls
generated classes only, and what replaces an instruction makes the calls that stand for its own
(`EditBatch.Queued`).
-/

namespace AccessProfiler

def Expression.calledMethods : Expression → List MethodRef
  | .call target => [target.method]
  | _ => []

def Instruction.calledMethods : Instruction → List MethodRef
  | .assign _ value => value.calledMethods
  | .invoke target => [target.method]
  | _ => []

/-- The methods that the body calls, in order. -/
def Body.calledMethods (body : Body) : List MethodRef :=
  body.instructions.flatMap Instruction.calledMethods

/-- The methods of a list whose search does not start at one of the given classes. -/
def MethodRef.apart (names : List String) (methods : List MethodRef) : List MethodRef :=
  methods.filter fun method => !names.contains method.owner

/-- The methods that instructions call, apart from those of the given classes. -/
def Instruction.calledApart (names : List String) (instructions : List Instruction) : List MethodRef :=
  MethodRef.apart names (instructions.flatMap calledMethods)

namespace Instruction

/-- The call that an instruction makes is one of its expressions. -/
theorem mem_expressions_of_call?
    {instruction : Instruction}
    {target : Call}
    (calls : instruction.call? = some target) :
    .call target ∈ instruction.expressions := by
  cases instruction with
  | invoke called =>
    cases calls
    exact List.mem_cons_self
  | assign place value =>
    cases value with
    | call called =>
      cases calls
      exact List.mem_cons_of_mem _ List.mem_cons_self
    | _ => cases calls
  | _ => cases calls

theorem exists_call_of_mem_calledMethods
    {instruction : Instruction}
    {method : MethodRef}
    (member : method ∈ instruction.calledMethods) :
    ∃ target, instruction.call? = some target ∧ target.method = method := by
  cases instruction with
  | invoke called => exact ⟨called, rfl, (List.mem_singleton.1 member).symm⟩
  | assign place value =>
    cases value with
    | call called => exact ⟨called, rfl, (List.mem_singleton.1 member).symm⟩
    | _ => cases member
  | _ => cases member

variable {names : List String} {instructions others : List Instruction}

@[simp]
theorem calledApart_nil : calledApart names [] = [] :=
  rfl

@[simp]
theorem calledApart_append :
    calledApart names (instructions ++ others) =
      calledApart names instructions ++ calledApart names others := by
  simp [calledApart, MethodRef.apart]

theorem calledApart_cons (instruction : Instruction) :
    calledApart names (instruction :: instructions) =
      MethodRef.apart names instruction.calledMethods ++ calledApart names instructions := by
  simp [calledApart, MethodRef.apart]

theorem calledApart_flatMap
    {Item : Type}
    {items : List Item}
    {made : Item → List Instruction} :
    calledApart names (items.flatMap made) =
      items.flatMap fun item => calledApart names (made item) := by
  induction items with
  | nil => rfl
  | cons item rest hypothesis =>
    rw [List.flatMap_cons, List.flatMap_cons, calledApart_append, hypothesis]

/-- Parts that make the same calls make the same calls together. -/
theorem calledApart_flatMap_congr
    {Item Other : Type}
    {items : List Item}
    {otherItems : List Other}
    {made : Item → List Instruction}
    {madeOther : Other → List Instruction}
    (same :
      List.Forall₂
        (fun item other => calledApart names (madeOther other) = calledApart names (made item))
        items otherItems) :
    calledApart names (otherItems.flatMap madeOther) = calledApart names (items.flatMap made) := by
  induction same with
  | nil => rfl
  | cons here _ hypothesis =>
    rw [List.flatMap_cons, List.flatMap_cons, calledApart_append, calledApart_append, here,
      hypothesis]

end Instruction

/-- Lists that are related part by part are related. -/
theorem forall₂_flatMap
    {Item First Second : Type}
    {Related : First → Second → Prop}
    {items : List Item}
    {first : Item → List First}
    {second : Item → List Second}
    (related : ∀ item ∈ items, List.Forall₂ Related (first item) (second item)) :
    List.Forall₂ Related (items.flatMap first) (items.flatMap second) := by
  induction items with
  | nil => exact .nil
  | cons item rest hypothesis =>
    rw [List.flatMap_cons, List.flatMap_cons]
    apply List.rel_append (related item List.mem_cons_self)
    exact hypothesis fun other member => related other (List.mem_cons_of_mem _ member)

namespace EditBatch

variable {batch changed : EditBatch} {index other : Nat} {instructions : List Instruction}

theorem editAt_insertBefore :
    (batch.insertBefore index instructions).editAt other =
      if other = index then
        { batch.editAt index with before := (batch.editAt index).before ++ instructions }
      else batch.editAt other := by
  unfold insertBefore editAt
  dsimp only
  rw [Table.get?_put]
  split <;> rfl

theorem replace_eq_ok (replaced : batch.replace index instructions = .ok changed) :
    changed.editAt other =
      if other = index then { batch.editAt index with replacement := some instructions }
      else batch.editAt other := by
  unfold replace at replaced
  split at replaced
  · cases replaced
  · cases replaced
    unfold editAt
    dsimp only
    rw [Table.get?_put]
    split <;> rfl

theorem apply_eq_ok
    {body bodyAfter : Body}
    (applied : batch.apply body = .ok bodyAfter) :
    bodyAfter = { body with instructions := batch.applyTo body.instructions } := by
  unfold EditBatch.apply at applied
  cases outside : batch.outside? body.instructions.length with
  | some index =>
    rw [outside] at applied
    cases applied
  | none =>
    rw [outside] at applied
    cases applied
    rfl

/-- After the given instructions were queued with their positions, their replacements make the calls
that stand for their own, other positions have no replacement, and everything else that is queued calls
generated classes only. -/
structure Queued
    (names : List String)
    (Stands : MethodRef → MethodRef → Prop)
    (done : List (Instruction × Nat))
    (batch : EditBatch) : Prop where
  before : ∀ index, Instruction.calledApart names (batch.editAt index).before = []
  replaced :
    ∀ entry ∈ done,
      List.Forall₂ Stands entry.1.calledMethods
        (Instruction.calledApart names ((batch.editAt entry.2).replacement.getD [entry.1]))
  fresh : ∀ index, index ∉ done.map Prod.snd → (batch.editAt index).replacement = none

namespace Queued

variable
    {names : List String}
    {Stands : MethodRef → MethodRef → Prop}
    {done : List (Instruction × Nat)}
    {instruction : Instruction}

theorem empty : Queued names Stands [] .empty where
  before _ := rfl
  replaced entry member := by cases member
  fresh _ _ := rfl

theorem insertBefore
    (queued : Queued names Stands done batch)
    (silent : Instruction.calledApart names instructions = []) :
    Queued names Stands done (batch.insertBefore index instructions) := by
  have replacement (other : Nat) :
      ((batch.insertBefore index instructions).editAt other).replacement =
        (batch.editAt other).replacement := by
    rw [editAt_insertBefore]
    split
    · rename_i same
      rw [same]
    · rfl
  refine ⟨?_, ?_, ?_⟩
  · intro other
    rw [editAt_insertBefore]
    split
    · rw [Instruction.calledApart_append, queued.before, silent]
      rfl
    · exact queued.before other
  · intro entry member
    rw [replacement]
    exact queued.replaced entry member
  · intro other absent
    rw [replacement]
    exact queued.fresh other absent

/-- An instruction whose own calls may stand needs no replacement. -/
theorem skip
    (queued : Queued names Stands done batch)
    (absent : index ∉ done.map Prod.snd)
    (stands :
      List.Forall₂ Stands instruction.calledMethods
        (Instruction.calledApart names [instruction])) :
    Queued names Stands (done ++ [(instruction, index)]) batch := by
  refine ⟨queued.before, ?_, ?_⟩
  · intro entry member
    rcases List.mem_append.1 member with old | new
    · exact queued.replaced entry old
    · rw [List.mem_singleton.1 new]
      dsimp only
      rw [queued.fresh index absent]
      exact stands
  · intro other unlisted
    rw [List.map_append, List.mem_append, not_or] at unlisted
    exact queued.fresh other unlisted.1

theorem replace
    (queued : Queued names Stands done batch)
    (absent : index ∉ done.map Prod.snd)
    (stands :
      List.Forall₂ Stands instruction.calledMethods (Instruction.calledApart names instructions))
    (replaced : batch.replace index instructions = .ok changed) :
    Queued names Stands (done ++ [(instruction, index)]) changed := by
  refine ⟨?_, ?_, ?_⟩
  · intro other
    rw [replace_eq_ok replaced]
    split
    · exact queued.before index
    · exact queued.before other
  · intro entry member
    rcases List.mem_append.1 member with old | new
    · have differs : entry.2 ≠ index := fun same => absent (same ▸ List.mem_map.2 ⟨entry, old, rfl⟩)
      rw [replace_eq_ok replaced, if_neg differs]
      exact queued.replaced entry old
    · rw [List.mem_singleton.1 new]
      dsimp only
      rw [replace_eq_ok replaced, if_pos rfl]
      exact stands
  · intro other unlisted
    rw [List.map_append, List.mem_append, not_or] at unlisted
    have differs : other ≠ index := fun same => unlisted.2 (same ▸ List.mem_singleton.2 rfl)
    rw [replace_eq_ok replaced, if_neg differs]
    exact queued.fresh other unlisted.1

/-- The edited instructions make the calls that stand for those of the instructions. -/
theorem applyTo (queued : Queued names Stands instructions.zipIdx batch) :
    List.Forall₂ Stands (instructions.flatMap Instruction.calledMethods)
      (Instruction.calledApart names (batch.applyTo instructions)) := by
  have positions :
      instructions.flatMap Instruction.calledMethods =
        instructions.zipIdx.flatMap fun entry => entry.1.calledMethods := by
    conv_lhs => rw [← List.zipIdx_map_fst 0 instructions]
    rw [List.flatMap_map]
  unfold EditBatch.applyTo
  rw [positions, Instruction.calledApart_append, queued.before, List.append_nil,
    Instruction.calledApart_flatMap]
  apply forall₂_flatMap
  intro entry member
  unfold edited
  dsimp only
  rw [Instruction.calledApart_append, queued.before, List.nil_append]
  exact queued.replaced entry member

end Queued
end EditBatch
end AccessProfiler
