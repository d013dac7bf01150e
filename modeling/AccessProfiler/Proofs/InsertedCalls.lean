import AccessProfiler.Proofs.CalledMethods

/-!
# Calls in front of instructions

A pass that counts accesses puts calls in front of instructions and changes nothing else of a body.  What
it did is given by the instructions, each with the calls in front of it (`Insertion`): without the calls
these are the body as it was.  The calls are queued one by one under the index that their instruction has
in that body, several under one index if need be, and the batch puts each of them where it belongs
(`Insertion.apply_batch`).
-/

namespace AccessProfiler

namespace EditBatch

/-- Queue single instructions, each in front of an index. -/
def insertAll (batch : EditBatch) (entries : List (Nat × Instruction)) : EditBatch :=
  entries.foldl (fun batch entry => batch.insertBefore entry.1 [entry.2]) batch

variable {batch : EditBatch} {entries : List (Nat × Instruction)}

/-- In front of an index stands what was queued under it, in the order of queueing. -/
theorem editAt_insertAll (batch : EditBatch) (entries : List (Nat × Instruction)) (index : Nat) :
    (batch.insertAll entries).editAt index =
      { batch.editAt index with
        before :=
          (batch.editAt index).before ++
            (entries.filter fun entry => entry.1 = index).map Prod.snd } := by
  induction entries generalizing batch with
  | nil => simp [insertAll]
  | cons entry rest hypothesis =>
    have step : batch.insertAll (entry :: rest) =
        (batch.insertBefore entry.1 [entry.2]).insertAll rest := rfl
    rw [step, hypothesis, editAt_insertBefore]
    by_cases same : index = entry.1
    · simp [same]
    · simp [same, Ne.symm same]

theorem mem_keys_insertAll
    {index : Nat}
    (member : index ∈ (batch.insertAll entries).edits.keys) :
    index ∈ batch.edits.keys ∨ ∃ entry ∈ entries, entry.1 = index := by
  induction entries generalizing batch with
  | nil => exact .inl member
  | cons entry rest hypothesis =>
    have onwards : index ∈ ((batch.insertBefore entry.1 [entry.2]).insertAll rest).edits.keys := member
    rcases hypothesis onwards with known | later
    · obtain ⟨found, listed, rfl⟩ := List.mem_map.1 known
      rcases Table.keys_putEntry_subset _ _ _ found listed with new | old
      · exact .inr ⟨entry, List.mem_cons_self, new.symm⟩
      · exact .inl old
    · obtain ⟨other, listed, same⟩ := later
      exact .inr ⟨other, List.mem_cons_of_mem _ listed, same⟩

/-- Insertions in front of the instructions of a body lie within it. -/
theorem outside?_insertAll
    {size : Nat}
    (inside : ∀ entry ∈ entries, entry.1 < size) :
    (EditBatch.empty.insertAll entries).outside? size = none := by
  unfold outside?
  cases found : (EditBatch.empty.insertAll entries).edits.keys.max? with
  | none => rfl
  | some last =>
    rcases mem_keys_insertAll (List.max?_mem found) with known | ⟨entry, listed, rfl⟩
    · cases known
    · have within := inside entry listed
      dsimp only
      rw [if_neg (by omega)]

end EditBatch

/-- An instruction of a body, and the calls that are put in front of it. -/
structure Insertion where
  calls : List Instruction
  instruction : Instruction

namespace Insertion

/-- The instructions without the calls. -/
def bare (insertions : List Insertion) : List Instruction :=
  insertions.map Insertion.instruction

/-- Each instruction behind its calls. -/
def full (insertions : List Insertion) : List Instruction :=
  insertions.flatMap fun insertion => insertion.calls ++ [insertion.instruction]

/-- The calls, each with the index of the instruction that it is put in front of. -/
def queue (insertions : List Insertion) : List (Nat × Instruction) :=
  insertions.zipIdx.flatMap fun (insertion, index) => insertion.calls.map fun call => (index, call)

/-- The calls are queued one by one. -/
def batch (insertions : List Insertion) : EditBatch :=
  EditBatch.empty.insertAll (queue insertions)

/-- Of a list with indices, one index is that of one item. -/
theorem flatMap_zipIdx
    {Item Value : Type}
    (items : List Item)
    (values : Item → List Value)
    (start index : Nat) :
    ((items.zipIdx start).flatMap fun entry =>
        if entry.2 = start + index then values entry.1 else []) =
      (items[index]?.map values).getD [] := by
  induction items generalizing start index with
  | nil => rfl
  | cons item rest hypothesis =>
    rw [List.zipIdx_cons, List.flatMap_cons]
    cases index with
    | zero =>
      have others : ((rest.zipIdx (start + 1)).flatMap fun entry =>
          if entry.2 = start + 0 then values entry.1 else []) = [] := by
        refine List.flatMap_eq_nil_iff.2 fun entry member => ?_
        have later := List.le_snd_of_mem_zipIdx member
        rw [if_neg (by omega)]
      rw [others]
      simp
    | succ index =>
      have shifted : start + (index + 1) = start + 1 + index := by omega
      rw [if_neg (by omega), shifted, hypothesis]
      rfl

/-- The calls in front of one instruction are those that are queued under its index. -/
theorem filter_queue (insertions : List Insertion) (index : Nat) :
    ((queue insertions).filter fun entry => entry.1 = index).map Prod.snd =
      (insertions[index]?.map Insertion.calls).getD [] := by
  have pieces (insertion : Insertion) (place : Nat) :
      (((insertion.calls.map fun call => (place, call)).filter fun entry => entry.1 = index).map
          Prod.snd) =
        if place = 0 + index then insertion.calls else [] := by
    by_cases here : place = index
    · simp [List.filter_map, here, Function.comp_def]
    · simp [List.filter_map, here, Function.comp_def]
  rw [← flatMap_zipIdx insertions Insertion.calls 0 index, queue, List.filter_flatMap,
    List.map_flatMap]
  exact List.flatMap_congr fun entry _ => pieces entry.1 entry.2

/-- The batch puts each call in front of its instruction, and changes nothing else. -/
theorem apply_batch
    {insertions : List Insertion}
    {body : Body}
    (instructions : body.instructions = bare insertions) :
    (batch insertions).apply body = .ok { body with instructions := full insertions } := by
  have edits (index : Nat) :
      (batch insertions).editAt index =
        ⟨(insertions[index]?.map Insertion.calls).getD [], none⟩ := by
    rw [batch, EditBatch.editAt_insertAll, filter_queue]
    rfl
  have inside : ∀ entry ∈ queue insertions, entry.1 < body.instructions.length := by
    intro entry member
    obtain ⟨numbered, listed, called⟩ := List.mem_flatMap.1 member
    obtain ⟨call, -, rfl⟩ := List.mem_map.1 called
    rw [instructions, bare, List.length_map]
    simpa using List.snd_lt_add_of_mem_zipIdx listed
  have applied : (batch insertions).applyTo body.instructions = full insertions := by
    have numbered : body.instructions.zipIdx =
        insertions.zipIdx.map fun entry => (entry.1.instruction, entry.2) := by
      rw [instructions, bare, List.zipIdx_map]
      rfl
    have past : insertions[body.instructions.length]? = none := by
      rw [instructions, bare, List.length_map]
      exact List.getElem?_eq_none (Nat.le_refl _)
    have whole : full insertions =
        insertions.zipIdx.flatMap fun entry => entry.1.calls ++ [entry.1.instruction] := by
      conv_lhs => rw [← List.zipIdx_map_fst 0 insertions]
      rw [full, List.flatMap_map]
    rw [EditBatch.applyTo, edits, past, numbered, List.flatMap_map, whole]
    refine (List.append_nil _).trans (List.flatMap_congr fun entry member => ?_)
    have found := List.mem_zipIdx_iff_getElem?.1 member
    simp [EditBatch.edited, edits, found]
  rw [EditBatch.apply, batch, EditBatch.outside?_insertAll inside, ← batch, applied]

end Insertion
end AccessProfiler
