import AccessProfiler.Proofs.Observation

/-!
# Runs of instructions in a row

A body runs its instructions one after the other up to the first return, so what a run of a body does is
what the instructions before the first return do (`Run.passes_of_ends`).  A run of a list of instructions
without returns can be taken apart wherever the list can (`Run.passes_append`); what holds of each
instruction is carried along by induction on the list.
-/

namespace AccessProfiler

/-- The local that an instruction assigns. -/
def Instruction.assigned? : Instruction → Option LocalId
  | .bind target _ => some target
  | .assign (.variable target) _ => some target
  | _ => none

namespace Run

/-- The instructions before the first return. -/
def reached : List Instruction → List Instruction
  | [] => []
  | .return _ :: _ => []
  | instruction :: rest => instruction :: reached rest

theorem mem_of_mem_reached
    {list : List Instruction}
    {instruction : Instruction}
    (member : instruction ∈ reached list) :
    instruction ∈ list := by
  induction list with
  | nil => exact member
  | cons first rest hypothesis =>
    cases first with
    | «return» operand => cases member
    | _ =>
      rcases List.mem_cons.1 member with rfl | later
      · exact List.mem_cons_self
      · exact List.mem_cons_of_mem _ (hypothesis later)

/-- Instructions without a return are reached. -/
theorem reached_append
    {front rest : List Instruction}
    (straight : ∀ operand, .return operand ∉ front) :
    reached (front ++ rest) = front ++ reached rest := by
  induction front with
  | nil => rfl
  | cons first front hypothesis =>
    have others := hypothesis fun operand member => straight operand (List.mem_cons_of_mem _ member)
    cases first with
    | «return» operand => exact absurd List.mem_cons_self (straight operand)
    | _ => simp only [List.cons_append, reached, others]

section Passes

variable
    (world : World)
    (callees : Callees)
    (logs : Logs)
    (actor : Activation)
    (arguments : List Datum)

/-- An instruction that is no return changes locals and machine, and this is what it does. -/
def Steps
    (locals : List Datum)
    (before : Machine)
    (changed : List Datum)
    (after : Machine)
    (acts : List Act) : Instruction → Prop
  | .bind target source =>
    ∃ given, passed? actor.receiver arguments source = some given ∧ target.index < locals.length ∧
      changed = locals.set target.index given ∧ after = counted before ∧ acts = []
  | .assign place expression =>
    ∃ value between, Evaluates world callees locals (counted before) value between expression ∧
      Stores world callees locals value between changed after place ∧
      acts =
        valueLog world logs actor locals (counted before) expression ++
          placeLog world logs actor locals between place
  | .invoke target =>
    ∃ value, Evaluates world callees locals (counted before) value after (.call target) ∧
      changed = locals ∧ acts = callLog logs actor locals target (counted before)
  | .return _ => False

/-- The same for instructions in a row. -/
def Passes
    (locals : List Datum)
    (before : Machine)
    (changed : List Datum)
    (after : Machine)
    (acts : List Act) : List Instruction → Prop
  | [] => changed = locals ∧ after = before ∧ acts = []
  | instruction :: rest =>
    ∃ next between first others,
      Steps world callees logs actor arguments locals before next between first instruction ∧
        Passes next between changed after others rest ∧ acts = first ++ others

end Passes

variable
    {world : World}
    {callees : Callees}
    {logs : Logs}
    {actor : Activation}
    {arguments locals changed : List Datum}
    {before after : Machine}
    {value : Datum}
    {acts : List Act}

theorem passes_append {front rest : List Instruction} :
    Passes world callees logs actor arguments locals before changed after acts (front ++ rest) ↔
      ∃ next between first others,
        Passes world callees logs actor arguments locals before next between first front ∧
          Passes world callees logs actor arguments next between changed after others rest ∧
          acts = first ++ others := by
  induction front generalizing locals before acts with
  | nil =>
    constructor
    · intro passes
      exact ⟨locals, before, [], acts, ⟨rfl, rfl, rfl⟩, passes, rfl⟩
    · rintro ⟨_, _, _, _, ⟨rfl, rfl, rfl⟩, passes, rfl⟩
      exact passes
  | cons instruction front hypothesis =>
    constructor
    · rintro ⟨next, between, first, _, steps, passes, rfl⟩
      obtain ⟨later, middle, second, others, front, rest, rfl⟩ := hypothesis.1 passes
      exact ⟨later, middle, first ++ second, others, ⟨next, between, first, second, steps, front, rfl⟩,
        rest, (List.append_assoc ..).symm⟩
    · rintro ⟨later, middle, _, others, ⟨next, between, first, second, steps, front, rfl⟩, rest, rfl⟩
      exact ⟨next, between, first, second ++ others, steps,
        hypothesis.2 ⟨later, middle, second, others, front, rest, rfl⟩, List.append_assoc ..⟩

/-- A run of a body passes the instructions before the first return, and does what they do. -/
theorem passes_of_ends
    (logs : Logs)
    {list : List Instruction}
    (ends :
      Ends (instructions world callees actor.receiver arguments locals list) before value after) :
    ∃ changed between,
      Passes world callees logs actor arguments locals before changed between
          (instructionsLog world callees logs actor arguments locals before list) (reached list) ∧
        after.heap = between.heap ∧ after.statics = between.statics := by
  induction list generalizing locals before with
  | nil =>
    obtain ⟨-, rfl⟩ := ends_instructions_nil.1 ends
    exact ⟨locals, after, ⟨rfl, rfl, rfl⟩, rfl, rfl⟩
  | cons instruction rest hypothesis =>
    obtain ⟨-, continues⟩ := ends_instructions_cons.1 ends
    cases instruction with
    | bind target source =>
      obtain ⟨given, bound, inside, ends⟩ := continues
      obtain ⟨changed, between, passes, same⟩ := hypothesis ends
      rw [instructionsLog_bind bound]
      exact ⟨changed, between, ⟨_, _, [], _, ⟨given, bound, inside, rfl, rfl, rfl⟩, passes, rfl⟩, same⟩
    | assign place expression =>
      obtain ⟨computed, middle, next, stored, evaluates, stores, ends⟩ := continues
      obtain ⟨changed, between, passes, same⟩ := hypothesis ends
      rw [instructionsLog_assign evaluates stores, ← List.append_assoc]
      exact ⟨changed, between,
        ⟨next, stored, _, _, ⟨computed, middle, evaluates, stores, rfl⟩, passes, rfl⟩, same⟩
    | invoke target =>
      obtain ⟨result, middle, evaluates, ends⟩ := continues
      obtain ⟨changed, between, passes, same⟩ := hypothesis ends
      rw [instructionsLog_invoke evaluates]
      exact ⟨changed, between,
        ⟨locals, middle, _, _, ⟨result, evaluates, rfl, rfl⟩, passes, rfl⟩, same⟩
    | «return» operand =>
      have same : after = counted before := by
        cases operand with
        | none => exact continues.2
        | some operand => exact continues.2
      exact ⟨locals, before, ⟨rfl, rfl, rfl⟩, by rw [same]; rfl, by rw [same]; rfl⟩

/-- A local keeps its value if no instruction assigns it. -/
theorem Passes.keeps_local
    {place : LocalId}
    {list : List Instruction}
    (keeps : ∀ instruction ∈ list, instruction.assigned? ≠ some place)
    (passes : Passes world callees logs actor arguments locals before changed after acts list) :
    changed[place.index]? = locals[place.index]? := by
  have apart {target : LocalId} (other : some target ≠ some place) : target.index ≠ place.index :=
    fun same => other (by cases target; cases place; cases same; rfl)
  induction list generalizing locals before acts with
  | nil => rw [passes.1]
  | cons instruction rest hypothesis =>
    obtain ⟨next, between, first, others, steps, passes, rfl⟩ := passes
    rw [hypothesis (fun other member => keeps other (List.mem_cons_of_mem _ member)) passes]
    have here := keeps instruction List.mem_cons_self
    cases instruction with
    | bind target source =>
      obtain ⟨given, -, -, rfl, -, -⟩ := steps
      exact List.getElem?_set_ne (apart here)
    | assign assigned expression =>
      obtain ⟨value, middle, -, stores, -⟩ := steps
      cases assigned with
      | «variable» target =>
        obtain ⟨-, rfl, -⟩ := stores
        exact List.getElem?_set_ne (apart here)
      | instanceField base field =>
        obtain ⟨-, -, -, -, rfl, -⟩ := stores
        rfl
      | staticField field =>
        obtain ⟨-, -, rfl, -⟩ := stores
        rfl
      | element base index =>
        obtain ⟨-, -, -, -, -, -, rfl, -⟩ := stores
        rfl
      | _ => exact stores.elim
    | invoke target =>
      obtain ⟨value, -, rfl, -⟩ := steps
      rfl
    | «return» operand => exact steps.elim

/-- A call that is passed has ended. -/
theorem Passes.call_ends
    {target : Call}
    {list : List Instruction}
    (member : .invoke target ∈ list)
    (passes : Passes world callees logs actor arguments locals before changed after acts list) :
    ∃ receiver given started ended value,
      Ends (callees.invoke target.kind target.method receiver given) started value ended := by
  obtain ⟨front, rest, rfl⟩ := List.append_of_mem member
  obtain ⟨_, _, _, _, -, ⟨_, _, _, _, ⟨value, evaluates, -, -⟩, -, -⟩, -⟩ := passes_append.1 passes
  obtain ⟨receiver, given, -, -, called⟩ := evaluates
  exact ⟨receiver, given, _, _, value, called⟩

/-- A body that binds its receiver has one, and has it in the local to which it is bound if that is never
assigned again. -/
theorem Passes.binds_receiver
    {this : LocalId}
    {type : Ty}
    {list : List Instruction}
    (bound : .bind this (.receiver type) ∈ list)
    (once : list.countP (fun instruction => instruction.assigned? = some this) = 1)
    (passes : Passes world callees logs actor arguments locals before changed after acts list) :
    ∃ value, actor.receiver = some value ∧ changed[this.index]? = some value := by
  obtain ⟨front, rest, rfl⟩ := List.append_of_mem bound
  obtain ⟨_, _, _, _, -, ⟨next, _, _, _, ⟨value, received, inside, rfl, -, -⟩, passes, -⟩, -⟩ :=
    passes_append.1 passes
  have assigns : (Instruction.bind this (.receiver type)).assigned? = some this := rfl
  have never : ∀ instruction ∈ rest, instruction.assigned? ≠ some this := by
    rw [List.countP_append, List.countP_cons_of_pos (by simp [assigns])] at once
    have none : rest.countP (fun instruction => instruction.assigned? = some this) = 0 := by omega
    intro instruction member
    simpa using List.countP_eq_zero.1 none instruction member
  refine ⟨value, received, ?_⟩
  rw [passes.keeps_local never, List.getElem?_set_self inside]

end Run
end AccessProfiler
