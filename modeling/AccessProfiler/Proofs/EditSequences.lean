import AccessProfiler.Instrument.Draft
import AccessProfiler.Proofs.CalledMethods

/-!
# Sequences of edits

Insertions and replacements are asked of one batch in any order and at any indices; a request that is
refused leaves the batch as it is (`EditBatch.request`).  What a batch holds afterwards is read off the
requests alone: before an index everything that was inserted there, in the order of the requests, and in
the place of an instruction the first replacement that was asked for (`EditBatch.editAt_after`).

So the batch is exact and atomic (`EditBatch.requests_edit`).  Only a second replacement of one
instruction is refused.  If some request lies outside of the body, nothing is changed; otherwise the body
is edited position by position as it was asked.
-/

namespace AccessProfiler

namespace Table

variable {Key Value : Type} [DecidableEq Key]

/-- The keys are those that have a value. -/
theorem mem_keys_iff {table : Table Key Value} {key : Key} :
    key ∈ table.keys ↔ (table.get? key).isSome := by
  simp [keys, get?, List.find?_isSome]

end Table

/-- A request to a batch of edits. -/
inductive EditRequest
  | insert (index : Nat) (instructions : List Instruction)
  | replace (index : Nat) (instructions : List Instruction)

namespace EditRequest

/-- The index that something is asked for. -/
def index : EditRequest → Nat
  | .insert index _ => index
  | .replace index _ => index

/-- What is to be inserted before a position. -/
def insertion (position : Nat) : EditRequest → List Instruction
  | .insert index instructions => if index = position then instructions else []
  | .replace _ _ => []

/-- What is to stand in the place of an instruction. -/
def replacement? (position : Nat) : EditRequest → Option (List Instruction)
  | .insert _ _ => none
  | .replace index instructions => if index = position then some instructions else none

/-- Everything that is to be inserted before a position, in the order of the requests. -/
def insertions (requests : List EditRequest) (position : Nat) : List Instruction :=
  requests.flatMap (insertion position)

/-- The first replacement of an instruction that is asked for. -/
def firstReplacement? (requests : List EditRequest) (position : Nat) : Option (List Instruction) :=
  requests.findSome? (replacement? position)

/-- Some request asks for a replacement of the instruction. -/
def Replaces (requests : List EditRequest) (position : Nat) : Prop :=
  ∃ instructions, .replace position instructions ∈ requests

/-- Some request lies outside of a body of the given size: it is beyond the end, or asks for a
replacement at the end, where no instruction is. -/
def Outside (requests : List EditRequest) (size : Nat) : Prop :=
  (∃ request ∈ requests, size < request.index) ∨ Replaces requests size

/-- The instructions edited as requested: for every position, the end included, what is inserted before
it, and its replacement or else the instruction itself. -/
def edited (requests : List EditRequest) (instructions : List Instruction) : List Instruction :=
  (List.range (instructions.length + 1)).flatMap fun position =>
    insertions requests position ++
      (firstReplacement? requests position).getD instructions[position]?.toList

theorem isSome_firstReplacement?_iff {requests : List EditRequest} {position : Nat} :
    (firstReplacement? requests position).isSome ↔ Replaces requests position := by
  rw [firstReplacement?, List.findSome?_isSome_iff]
  constructor
  · rintro ⟨request, member, isSome⟩
    cases request with
    | insert index instructions => cases isSome
    | replace index instructions =>
      by_cases same : index = position
      · exact ⟨instructions, same ▸ member⟩
      · simp [replacement?, same] at isSome
  · rintro ⟨instructions, member⟩
    exact ⟨_, member, by simp [replacement?]⟩

end EditRequest

namespace EditBatch

open EditRequest

variable {batch : EditBatch} {requests : List EditRequest} {position : Nat}

/-- Make one request.  A batch that refuses it stays as it is. -/
def request (batch : EditBatch) : EditRequest → Except Defect Unit × EditBatch
  | .insert index instructions => (.ok (), batch.insertBefore index instructions)
  | .replace index instructions =>
    match batch.replace index instructions with
    | .ok changed => (.ok (), changed)
    | .error defect => (.error defect, batch)

/-- Make requests one after the other, whatever becomes of each of them. -/
def requestAll (batch : EditBatch) (requests : List EditRequest) : EditBatch :=
  requests.foldl (fun batch request => (batch.request request).2) batch

/-- A new batch after some requests. -/
def after (requests : List EditRequest) : EditBatch :=
  EditBatch.empty.requestAll requests

theorem request_replace_of_isReplaced
    {index : Nat}
    {instructions : List Instruction}
    (replaced : batch.isReplaced index) :
    batch.request (.replace index instructions) = (.error (.conflictingReplacements index), batch) := by
  have refused : batch.replace index instructions = .error (.conflictingReplacements index) :=
    if_pos replaced
  simp only [EditBatch.request, refused]

theorem request_replace_of_not_isReplaced
    {index : Nat}
    {instructions : List Instruction}
    (unreplaced : ¬ batch.isReplaced index) :
    batch.request (.replace index instructions) =
      (.ok (),
        ⟨batch.edits.put index { batch.editAt index with replacement := some instructions }⟩) := by
  have accepted : batch.replace index instructions =
      .ok ⟨batch.edits.put index { batch.editAt index with replacement := some instructions }⟩ :=
    if_neg unreplaced
  simp only [EditBatch.request, accepted]

/-- What a request adds: to what is inserted before a position, and to the replacement of an instruction
unless it has one. -/
theorem editAt_request (request : EditRequest) :
    (batch.request request).2.editAt position =
      ⟨(batch.editAt position).before ++ request.insertion position,
        (batch.editAt position).replacement.or (request.replacement? position)⟩ := by
  cases request with
  | insert index instructions =>
    simp only [EditBatch.request, editAt_insertBefore, insertion, replacement?, Option.or_none]
    by_cases same : index = position
    · simp [same]
    · simp [same, Ne.symm same]
  | replace index instructions =>
    by_cases replaced : batch.isReplaced index
    · have conflict : (batch.editAt index).replacement.isSome := replaced
      rw [request_replace_of_isReplaced replaced]
      by_cases same : index = position
      · subst same
        simp [insertion, Option.or_of_isSome conflict]
      · simp [insertion, replacement?, same]
    · have free : (batch.editAt index).replacement = none := by
        simpa [isReplaced] using replaced
      rw [request_replace_of_not_isReplaced replaced]
      by_cases same : index = position
      · subst same
        rw [free]
        simp [insertion, replacement?, editAt, Table.get?_put]
      · simp [insertion, replacement?, same, Ne.symm same, editAt, Table.get?_put]

/-- What a batch holds for a position is decided by the requests. -/
theorem editAt_requestAll :
    (batch.requestAll requests).editAt position =
      ⟨(batch.editAt position).before ++ insertions requests position,
        (batch.editAt position).replacement.or (firstReplacement? requests position)⟩ := by
  induction requests generalizing batch with
  | nil => simp [requestAll, insertions, firstReplacement?]
  | cons request rest hypothesis =>
    have step :
        batch.requestAll (request :: rest) = (batch.request request).2.requestAll rest := rfl
    have first :
        firstReplacement? (request :: rest) position =
          (request.replacement? position).or (firstReplacement? rest position) := by
      rw [firstReplacement?, List.findSome?_cons]
      cases request.replacement? position <;> rfl
    rw [step, hypothesis, editAt_request, first]
    simp only [insertions, List.flatMap_cons, List.append_assoc, Option.or_assoc]

theorem editAt_after :
    (after requests).editAt position =
      ⟨insertions requests position, firstReplacement? requests position⟩ := by
  rw [after, editAt_requestAll]
  rfl

theorem isReplaced_after_iff : (after requests).isReplaced position ↔ Replaces requests position := by
  rw [isReplaced, editAt_after, isSome_firstReplacement?_iff]

/-- A request is for its own index, and no index is given up. -/
theorem mem_keys_request {request : EditRequest} :
    position ∈ (batch.request request).2.edits.keys ↔
      position ∈ batch.edits.keys ∨ request.index = position := by
  have put (index : Nat) (edit : Edit) :
      position ∈ (batch.edits.put index edit).keys ↔
        position ∈ batch.edits.keys ∨ index = position := by
    rw [Table.mem_keys_iff, Table.mem_keys_iff, Table.get?_put]
    by_cases same : position = index
    · simp [same]
    · simp [same, Ne.symm same]
  cases request with
  | insert index instructions => exact put index _
  | replace index instructions =>
    by_cases replaced : batch.isReplaced index
    · -- An instruction that has a replacement has its entry already.
      have known : index ∈ batch.edits.keys := by
        rw [Table.mem_keys_iff]
        unfold isReplaced editAt at replaced
        cases entry : batch.edits.get? index with
        | none =>
          rw [entry] at replaced
          cases replaced
        | some edit => rfl
      rw [request_replace_of_isReplaced replaced]
      refine ⟨.inl, ?_⟩
      rintro (member | rfl)
      · exact member
      · exact known
    · rw [request_replace_of_not_isReplaced replaced]
      exact put index _

theorem mem_keys_after :
    position ∈ (after requests).edits.keys ↔ position ∈ requests.map EditRequest.index := by
  have all (batch : EditBatch) :
      position ∈ (batch.requestAll requests).edits.keys ↔
        position ∈ batch.edits.keys ∨ position ∈ requests.map EditRequest.index := by
    induction requests generalizing batch with
    | nil => simp [requestAll]
    | cons request rest hypothesis =>
      have step :
          batch.requestAll (request :: rest) = (batch.request request).2.requestAll rest := rfl
      rw [step, hypothesis, mem_keys_request, List.map_cons, List.mem_cons, or_assoc,
        eq_comm (a := request.index)]
  rw [after, all]
  simp [EditBatch.empty, Table.empty, Table.keys]

/-- The largest index decides whether a batch goes beyond a body. -/
theorem outside?_after (requests : List EditRequest) (size : Nat) :
    (Outside requests size →
        ∃ last, (requests.map EditRequest.index).max? = some last ∧
          (after requests).outside? size = some last) ∧
      (¬ Outside requests size → (after requests).outside? size = none) := by
  have largest : (after requests).edits.keys.max? = (requests.map EditRequest.index).max? := by
    cases found : (requests.map EditRequest.index).max? with
    | none =>
      rw [List.max?_eq_none_iff] at found ⊢
      refine List.eq_nil_iff_forall_not_mem.2 fun index member => ?_
      rw [mem_keys_after, found] at member
      cases member
    | some last =>
      rw [List.max?_eq_some_iff] at found ⊢
      exact ⟨mem_keys_after.2 found.1, fun index member => found.2 index (mem_keys_after.1 member)⟩
  unfold outside?
  rw [largest]
  cases found : (requests.map EditRequest.index).max? with
  | none =>
    rw [List.max?_eq_none_iff, List.map_eq_nil_iff] at found
    subst found
    refine ⟨?_, fun _ => rfl⟩
    rintro (⟨request, member, -⟩ | ⟨instructions, member⟩)
    · cases member
    · cases member
  | some last =>
    obtain ⟨member, bound⟩ := List.max?_eq_some_iff.1 found
    obtain ⟨request, among, rfl⟩ := List.mem_map.1 member
    have beyond : Outside requests size ↔
        size < request.index ∨ request.index = size ∧ (after requests).isReplaced request.index := by
      rw [isReplaced_after_iff]
      constructor
      · rintro (⟨other, listed, larger⟩ | ⟨instructions, listed⟩)
        · exact .inl (Nat.lt_of_lt_of_le larger (bound _ (List.mem_map_of_mem listed)))
        · have reaches : size ≤ request.index := bound _ (List.mem_map.2 ⟨_, listed, rfl⟩)
          rcases Nat.lt_or_eq_of_le reaches with larger | same
          · exact .inl larger
          · exact .inr ⟨same.symm, same ▸ ⟨instructions, listed⟩⟩
      · rintro (larger | ⟨same, replaces⟩)
        · exact .inl ⟨request, among, larger⟩
        · exact .inr (same ▸ replaces)
    constructor
    · intro outside
      exact ⟨request.index, rfl, if_pos (beyond.1 outside)⟩
    · intro inside
      exact if_neg fun far => inside (beyond.2 far)

/-- What is made of each item of a list with its position is made position by position. -/
theorem flatMap_zipIdx_eq_flatMap_range
    {Item Value : Type}
    (items : List Item)
    (values : Nat → List Item → List Value) :
    (items.zipIdx.flatMap fun entry => values entry.2 [entry.1]) =
      (List.range items.length).flatMap fun position => values position items[position]?.toList := by
  have positions : items.zipIdx.map Prod.snd = List.range items.length := by
    rw [List.zipIdx_map_snd, List.range_eq_range']
  rw [← positions, List.flatMap_map]
  refine List.flatMap_congr fun entry member => ?_
  rw [List.mk_mem_zipIdx_iff_getElem?.1 member]
  rfl

/-- Applied to instructions none of which lies outside, the batch edits them as requested. -/
theorem applyTo_after
    {instructions : List Instruction}
    (unreplaced : ¬ Replaces requests instructions.length) :
    (after requests).applyTo instructions = EditRequest.edited requests instructions := by
  have atEnd : firstReplacement? requests instructions.length = none := by
    rw [← Option.not_isSome_iff_eq_none, isSome_firstReplacement?_iff]
    exact unreplaced
  have within :
      (instructions.zipIdx.flatMap fun entry => (after requests).edited entry.2 entry.1) =
        (List.range instructions.length).flatMap fun position =>
          insertions requests position ++
            (firstReplacement? requests position).getD instructions[position]?.toList := by
    simp only [EditBatch.edited, editAt_after]
    exact flatMap_zipIdx_eq_flatMap_range instructions fun position own =>
      insertions requests position ++ (firstReplacement? requests position).getD own
  rw [applyTo, EditRequest.edited, List.range_succ, List.flatMap_append, within, editAt_after]
  simp [atEnd]

/-- The body gets the edited instructions, or stays as it is. -/
theorem on_apply (batch : EditBatch) (body : Body) (session : Session) :
    (Draft.apply batch).on body session =
      match batch.apply body with
      | .ok changed => ((.ok (), changed), session)
      | .error defect => ((.error (.malformed defect), body), session) := by
  have opened :
      (Draft.apply batch).on body session =
        (do
          let changed ← Draft.lift (Transform.ofDefect (batch.apply body))
          set changed : Draft Unit).on body session := rfl
  rw [opened]
  cases batch.apply body <;> rfl

/-- A batch is exact and atomic, whatever was asked of it before and in which order.  An insertion is
always accepted, and a replacement is refused exactly if there is one already; a refused request leaves the
batch as it is.  Applying the batch fails exactly if some request is beyond the end of the body or a
replacement is asked for at its end; the error names the largest index and the body stays as it is.
Otherwise the instructions are edited position by position, and nothing else of the body changes. -/
theorem requests_edit :
    (∀ earlier index instructions,
        ((after earlier).request (.insert index instructions)).1 = .ok ()) ∧
      (∀ earlier index instructions,
        (Replaces earlier index →
            (after earlier).request (.replace index instructions) =
              (.error (.conflictingReplacements index), after earlier)) ∧
          (¬ Replaces earlier index →
            ((after earlier).request (.replace index instructions)).1 = .ok ())) ∧
      ∀ requests (body : Body) (session : Session),
        (Outside requests body.instructions.length →
            ∃ last, (requests.map EditRequest.index).max? = some last ∧
              (Draft.apply (after requests)).on body session =
                ((.error (.malformed (.editOutside last body.instructions.length)), body),
                  session)) ∧
          (¬ Outside requests body.instructions.length →
            (Draft.apply (after requests)).on body session =
              ((.ok (),
                  { body with instructions := EditRequest.edited requests body.instructions }),
                session)) := by
  refine ⟨fun _ _ _ => rfl, ?_, ?_⟩
  · intro earlier index instructions
    constructor
    · intro replaces
      exact request_replace_of_isReplaced (isReplaced_after_iff.2 replaces)
    · intro free
      rw [request_replace_of_not_isReplaced fun replaced => free (isReplaced_after_iff.1 replaced)]
  · intro requests body session
    obtain ⟨beyond, within⟩ := outside?_after requests body.instructions.length
    rw [on_apply]
    constructor
    · intro outside
      obtain ⟨last, largest, isOutside⟩ := beyond outside
      refine ⟨last, largest, ?_⟩
      simp only [apply, isOutside]
    · intro inside
      have unreplaced : ¬ Replaces requests body.instructions.length := fun replaces =>
        inside (.inr replaces)
      simp only [apply, within inside, applyTo_after unreplaced]

end EditBatch
end AccessProfiler
