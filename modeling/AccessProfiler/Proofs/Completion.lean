import AccessProfiler.Proofs.RunRules

/-!
# Completed runs

The number of levels that a run is given decides only whether it ends, never how: what ends with some
callees ends in the same way with all callees that end at least as often (`Callees.Refines`).  So
`World.Completes`, which asks for any number of levels, has one outcome for an entry.

A watched run is stopped at the first call that a given condition does not admit.  It ends only as the
run itself does, and so says of a completed run that all of its calls were admitted.
-/

namespace AccessProfiler

/-- Whatever ends with the callees ends in the same way with the others. -/
structure Callees.Refines (callees others : Callees) : Prop where
  invoke :
    ∀ {kind method receiver arguments before value after},
      Ends (callees.invoke kind method receiver arguments) before value after →
        Ends (others.invoke kind method receiver arguments) before value after
  prepare :
    ∀ {className before after},
      Ends (callees.prepare className) before () after →
        Ends (others.prepare className) before () after

namespace Run

variable
    {world : World}
    {callees others : Callees}
    {locals changed : List Datum}
    {receiver : Option Datum}
    {arguments : List Datum}
    {before after : Machine}
    {value : Datum}

theorem Evaluates.mono
    (refines : callees.Refines others)
    {expression : Expression}
    (evaluates : Evaluates world callees locals before value after expression) :
    Evaluates world others locals before value after expression := by
  cases expression with
  | staticField field => exact ⟨refines.prepare evaluates.1, evaluates.2⟩
  | newObject className =>
    obtain ⟨prepared, slot, heap, ready, rest⟩ := evaluates
    exact ⟨prepared, slot, heap, refines.prepare ready, rest⟩
  | call target =>
    obtain ⟨given, passed, received, evaluated, called⟩ := evaluates
    exact ⟨given, passed, received, evaluated, refines.invoke called⟩
  | _ => exact evaluates

theorem Stores.mono
    (refines : callees.Refines others)
    {place : Expression}
    (stores : Stores world callees locals value before changed after place) :
    Stores world others locals value before changed after place := by
  cases place with
  | staticField field =>
    obtain ⟨prepared, ready, rest⟩ := stores
    exact ⟨prepared, refines.prepare ready, rest⟩
  | _ => exact stores

theorem instructions_mono
    (refines : callees.Refines others)
    {list : List Instruction}
    (ends : Ends (instructions world callees receiver arguments locals list) before value after) :
    Ends (instructions world others receiver arguments locals list) before value after := by
  induction list generalizing locals before with
  | nil => exact ends
  | cons instruction rest hypothesis =>
    obtain ⟨allowed, continues⟩ := ends_instructions_cons.1 ends
    refine ends_instructions_cons.2 ⟨allowed, ?_⟩
    cases instruction with
    | bind target source =>
      obtain ⟨given, bound, declared, ends⟩ := continues
      exact ⟨given, bound, declared, hypothesis ends⟩
    | assign place expression =>
      obtain ⟨computed, between, changed, stored, evaluates, stores, ends⟩ := continues
      exact ⟨computed, between, changed, stored, evaluates.mono refines, stores.mono refines,
        hypothesis ends⟩
    | invoke target =>
      obtain ⟨result, between, evaluates, ends⟩ := continues
      exact ⟨result, between, evaluates.mono refines, hypothesis ends⟩
    | «return» operand =>
      cases operand with
      | none => exact continues
      | some operand => exact continues

theorem enter_mono
    (refines : callees.Refines others)
    {id : MethodId}
    {method : MethodRef}
    (ends : Ends (enter world callees id method receiver arguments) before value after) :
    Ends (enter world others id method receiver arguments) before value after := by
  obtain ⟨entered, inner, found, allowed, ends, closed⟩ := ends_enter.1 ends
  exact ends_enter.2 ⟨entered, inner, found, allowed, instructions_mono refines ends, closed⟩

theorem Starts.mono
    (refines : callees.Refines others)
    {kind : CallKind}
    {method : MethodRef}
    {start : String}
    (starts : Starts callees method before start after kind receiver) :
    Starts others method before start after kind receiver := by
  cases kind with
  | static => exact ⟨refines.prepare starts.1, starts.2⟩
  | special => exact starts
  | virtual =>
    rcases receiver with _ | datum
    · exact starts
    · cases datum with
      | _ => exact starts
  | interface =>
    rcases receiver with _ | datum
    · exact starts
    · cases datum with
      | _ => exact starts

theorem invokeStep_mono
    (refines : callees.Refines others)
    {kind : CallKind}
    {method : MethodRef}
    (ends : Ends (invokeStep world callees kind method receiver arguments) before value after) :
    Ends (invokeStep world others kind method receiver arguments) before value after := by
  rcases ends_invokeStep.1 ends with sinks | ⟨other, somewhere, start, started, starts, reaches⟩
  · exact ends_invokeStep.2 (.inl sinks)
  · refine ends_invokeStep.2 (.inr ⟨other, somewhere, start, started, ?_, ?_⟩)
    · exact starts.mono refines
    · cases found : target? world.program start method with
      | none =>
        rw [found] at reaches
        exact reaches
      | some id =>
        rw [found] at reaches
        exact enter_mono refines reaches

theorem prepareStep_mono
    (refines : callees.Refines others)
    {className : String}
    (ends : Ends (prepareStep world callees className) before () after) :
    Ends (prepareStep world others className) before () after := by
  rcases ends_prepareStep.1 ends with known | ⟨unknown, above, ready, initializes⟩
  · exact ends_prepareStep.2 (.inl known)
  · refine ends_prepareStep.2 (.inr ⟨unknown, above, ?_, ?_⟩)
    · unfold InitializesAbove at *
      cases found : world.program.superclass? className with
      | none =>
        rw [found] at ready
        exact ready
      | some superclass =>
        rw [found] at ready
        exact refines.prepare ready
    · unfold Initializes at *
      cases found : world.program.findMethod? className staticInitializerName [] with
      | none =>
        rw [found] at initializes
        exact initializes
      | some id =>
        rw [found] at initializes
        dsimp only at *
        split
        · rename_i bodied
          rw [if_pos bodied] at initializes
          obtain ⟨result, entered⟩ := initializes
          exact ⟨result, enter_mono refines entered⟩
        · rename_i bodiless
          rw [if_neg bodiless] at initializes
          exact initializes

theorem entryStep_mono
    (refines : callees.Refines others)
    {name : String}
    (ends : Ends (entryStep world callees name) before value after) :
    Ends (entryStep world others name) before value after := by
  rw [ends_entryStep] at *
  obtain ⟨method, arguments, started, found, passed, called⟩ := ends
  exact ⟨method, arguments, started, found, passed, refines.invoke called⟩

end Run

/-- The calls and initializations that a number of levels allows. -/
def Callees.within (world : World) (levels : Nat) : Callees :=
  ⟨Run.invoke world levels, Run.prepare world levels⟩

namespace Run

theorem within_refines_succ (world : World) (levels : Nat) :
    (Callees.within world levels).Refines (Callees.within world (levels + 1)) := by
  induction levels with
  | zero => exact ⟨fun ends => absurd ends Ends.not_throw, fun ends => absurd ends Ends.not_throw⟩
  | succ levels hypothesis => exact ⟨invokeStep_mono hypothesis, prepareStep_mono hypothesis⟩

/-- With more levels a run ends in the same way. -/
theorem within_refines (world : World) {levels more : Nat} (le : levels ≤ more) :
    (Callees.within world levels).Refines (Callees.within world more) := by
  induction le with
  | refl => exact ⟨id, id⟩
  | @step more _ hypothesis =>
    have step := within_refines_succ world more
    exact ⟨fun ends => step.invoke (hypothesis.invoke ends),
      fun ends => step.prepare (hypothesis.prepare ends)⟩

end Run

/-- A run of an entry ends normally, however deep its calls nest. -/
def World.Completes
    (world : World)
    (name : String)
    (before : Machine)
    (value : Datum)
    (after : Machine) : Prop :=
  ∃ levels, Ends (Run.entry world levels name) before value after

/-- An entry completes in at most one way. -/
theorem World.Completes.unique
    {world : World}
    {name : String}
    {before after afterOther : Machine}
    {value other : Datum}
    (completes : world.Completes name before value after)
    (completesOther : world.Completes name before other afterOther) :
    value = other ∧ after = afterOther := by
  obtain ⟨levels, ends⟩ := completes
  obtain ⟨levelsOther, endsOther⟩ := completesOther
  have more := Run.entryStep_mono (Run.within_refines world (Nat.le_max_left levels levelsOther)) ends
  have moreOther :=
    Run.entryStep_mono (Run.within_refines world (Nat.le_max_right levels levelsOther)) endsOther
  exact more.unique moreOther

/-- Which calls a watch lets pass. -/
abbrev Watch := Machine → CallKind → MethodRef → Option Datum → Bool

/-- The calls and initializations that a number of levels allows, stopped at the first call that the
watch does not let pass. -/
def Callees.watched (world : World) (watch : Watch) : Nat → Callees
  | 0 => ⟨fun _ _ _ _ => throw .exhausted, fun _ => throw .exhausted⟩
  | levels + 1 =>
    { invoke := fun kind method receiver arguments => do
        if watch (← get) kind method receiver then
          Run.invokeStep world (watched world watch levels) kind method receiver arguments
        else throw .exhausted
      prepare := Run.prepareStep world (watched world watch levels) }

/-- A run of an entry ends normally, and the watch lets all of its calls pass. -/
def World.CompletesUnder
    (world : World)
    (watch : Watch)
    (name : String)
    (before : Machine)
    (value : Datum)
    (after : Machine) : Prop :=
  ∃ levels, Ends (Run.entryStep world (.watched world watch levels) name) before value after

namespace Run

theorem ends_watched_invoke
    {world : World}
    {watch : Watch}
    {levels : Nat}
    {kind : CallKind}
    {method : MethodRef}
    {receiver : Option Datum}
    {arguments : List Datum}
    {before after : Machine}
    {value : Datum} :
    Ends ((Callees.watched world watch (levels + 1)).invoke kind method receiver arguments)
        before value after ↔
      watch before kind method receiver ∧
        Ends
          (invokeStep world (.watched world watch levels) kind method receiver arguments)
          before value after := by
  simp only [Callees.watched, Ends.bind_iff, Ends.get_iff]
  constructor
  · rintro ⟨_, _, ⟨rfl, rfl⟩, rest⟩
    split at rest
    · rename_i admitted
      exact ⟨admitted, rest⟩
    · exact absurd rest Ends.not_throw
  · rintro ⟨admitted, ends⟩
    refine ⟨_, _, ⟨rfl, rfl⟩, ?_⟩
    rw [if_pos admitted]
    exact ends

theorem watched_refines (world : World) (watch : Watch) (levels : Nat) :
    (Callees.watched world watch levels).Refines (.within world levels) := by
  induction levels with
  | zero => exact ⟨fun ends => absurd ends Ends.not_throw, fun ends => absurd ends Ends.not_throw⟩
  | succ levels hypothesis =>
    exact ⟨fun ends => invokeStep_mono hypothesis (ends_watched_invoke.1 ends).2,
      prepareStep_mono hypothesis⟩

end Run

/-- A watch changes nothing about the runs that it lets pass. -/
theorem World.CompletesUnder.completes
    {world : World}
    {watch : Watch}
    {name : String}
    {before after : Machine}
    {value : Datum}
    (completes : world.CompletesUnder watch name before value after) :
    world.Completes name before value after := by
  obtain ⟨levels, ends⟩ := completes
  exact ⟨levels, Run.entryStep_mono (Run.watched_refines world watch levels) ends⟩

end AccessProfiler
