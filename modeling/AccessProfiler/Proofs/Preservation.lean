import AccessProfiler.Proofs.CountingPasses
import AccessProfiler.Proofs.Following

/-!
# Counting preserves behaviour

A program and the program with counting compute the same: whatever an entry of the original program
returns, the entry returns with counting as well, and the machines afterwards differ in counts only
(`transformProgram_preserves`).  The proof goes by induction on the number of levels that the original
run needs; the run with counting needs three more, for the methods that count.

One condition is about the run itself.  A constructor with counting gives a serial number to its
receiver, so its body may be run for instances only, not for arrays or for nothing;
`World.constructsInstances` is the watch that lets no other run pass.
-/

namespace AccessProfiler

/-- The datum refers to an instance. -/
def Datum.refersToInstance (heap : Heap) : Datum → Bool
  | .reference slot =>
    match heap.objects[slot]? with
    | some (.instanceOf _ _) => true
    | _ => false
  | _ => false

/-- Lets all calls pass but those that run the body of a constructor for something that is not an
instance. -/
def World.constructsInstances (world : World) : Watch := fun machine kind method receiver =>
  let start := Run.startClass machine.heap method kind receiver
  let entered := (Run.target? world.program start method).bind world.program.body?
  method.name != constructorName ||
    (method.owner == world.sink.owner && method.name == world.sink.method) ||
    entered.isNone || (receiver.getD .null).refersToInstance machine.heap

theorem Datum.refersToInstance_iff {heap : Heap} {datum : Datum} :
    datum.refersToInstance heap ↔
      ∃ slot className fields, datum = .reference slot ∧
        heap.objects[slot]? = some (.instanceOf className fields) := by
  cases datum with
  | reference slot =>
    simp only [refersToInstance, Datum.reference.injEq]
    constructor
    · intro refers
      split at refers
      · rename_i className fields located
        exact ⟨slot, className, fields, rfl, located⟩
      · cases refers
    · rintro ⟨_, className, fields, rfl, located⟩
      rw [located]
  | _ => simp [refersToInstance]

/-- What the watch says about a call that it lets pass. -/
theorem World.instance_of_constructsInstances
    {world : World}
    {machine : Machine}
    {kind : CallKind}
    {method : MethodRef}
    {receiver : Option Datum}
    (admitted : world.constructsInstances machine kind method receiver)
    (elsewhere : ¬ Run.CallsSink world method)
    (constructs : method.name = constructorName)
    (entered :
      ((Run.target? world.program (Run.startClass machine.heap method kind receiver) method).bind
        world.program.body?).isSome) :
    ∃ slot className fields, receiver = some (.reference slot) ∧
      machine.heap.objects[slot]? = some (.instanceOf className fields) := by
  have other : (method.owner == world.sink.owner && method.name == world.sink.method) = false := by
    rw [Bool.and_eq_false_iff]
    by_cases owned : method.owner = world.sink.owner
    · exact .inr (by simpa using fun named => elsewhere ⟨owned, named⟩)
    · exact .inl (by simpa using owned)
  have bodied := Option.isNone_eq_false_iff.2 entered
  have named : (method.name != constructorName) = false := by simpa using constructs
  simp only [constructsInstances, named, other, bodied, Bool.false_or] at admitted
  obtain ⟨slot, className, fields, same, located⟩ := Datum.refersToInstance_iff.1 admitted
  cases receiver with
  | none => cases same
  | some datum => exact ⟨slot, className, fields, congrArg some same, located⟩

namespace Run

variable
    {counter : String}
    {sink : Sink}
    {original current : Program}

/-- With fewer completed runs there are fewer to be sound. -/
theorem sound_of_refines
    {Known : String → Prop}
    {callees others : Callees}
    (refines : callees.Refines others)
    (sound : others.Sound Known) :
    callees.Sound Known where
  invoke started liveReceiver liveArguments ends :=
    sound.invoke started liveReceiver liveArguments (refines.invoke ends)
  prepare started ends := sound.prepare started (refines.prepare ends)

section Levels

variable
    (countable : original.Countable counter sink)
    (woven : original.Woven counter sink current)
include countable

theorem watched_sound (watch : Watch) (levels : Nat) :
    (Callees.watched (.unlimited original sink) watch levels).Sound (· ≠ counter) := by
  refine sound_of_refines (watched_refines _ watch levels) (within_sound ?_ levels)
  intro id body found place className member
  exact (countable.apart.instruction_plain (Program.mem_bodies_of_body? found) member).2

include woven

/-- Whatever the original program does within some levels, the program with counting does within three
more. -/
theorem watched_follows (levels : Nat) :
    (Callees.watched (.unlimited original sink) (World.constructsInstances (.unlimited original sink))
      levels).Follows counter (.within (.unlimited current sink) (levels + 3)) := by
  induction levels with
  | zero =>
    exact ⟨fun _ _ _ _ _ ends => absurd ends Ends.not_throw,
      fun _ _ _ ends => absurd ends Ends.not_throw⟩
  | succ levels hypothesis =>
    have calleesSound :=
      watched_sound countable (World.constructsInstances (.unlimited original sink)) levels
    have serves := within_serves countable woven (levels + 1)
    have announces := within_announces countable woven levels
    constructor
    · intro kind method receiver arguments machine after other value plain sound liveReceiver
        liveArguments relates ends
      obtain ⟨admitted, ends⟩ := ends_watched_invoke.1 ends
      exact invokeStep_follows countable woven hypothesis calleesSound announces serves plain sound
        liveReceiver liveArguments relates
        (fun elsewhere constructs entered =>
          World.instance_of_constructsInstances admitted elsewhere constructs entered)
        ends
    · intro className machine after other differs sound relates ends
      exact prepareStep_follows countable woven hypothesis calleesSound announces serves differs sound
        relates ends

omit countable woven in
/-- What an entry is given is the same on both machines. -/
theorem GivenFromOutside.follows
    {arguments : List Datum}
    {parameters : List Ty}
    {machine started other : Machine}
    (sound : machine.Sound (· ≠ counter))
    (relates : machine.Matches counter other)
    (given : GivenFromOutside machine arguments started parameters) :
    started.Sound (· ≠ counter) ∧ (∀ value ∈ arguments, value.Lives started.heap.size) ∧
      ∃ otherStarted, GivenFromOutside other arguments otherStarted parameters ∧
        started.Matches counter otherStarted := by
  rcases parameters with _ | ⟨first, _ | ⟨second, rest⟩⟩
  · obtain ⟨rfl, rfl⟩ := given
    exact ⟨sound, fun _ member => absurd member List.not_mem_nil, other, ⟨rfl, rfl⟩, relates⟩
  · cases first with
    | array element =>
      obtain ⟨slot, heap, allocated, rfl, rfl⟩ := given
      obtain ⟨otherHeap, allocatedOther, related⟩ :=
        relates.allocate (.arrays _ _) trivial allocated
      obtain ⟨-, rfl, rfl⟩ := Heap.allocate_eq_ok.1 allocated
      have empty :
          (HeapObject.array element (Array.replicate 0 (.zero element))).Sound (· ≠ counter)
            machine.heap.size := by
        intro value member
        simp at member
      refine ⟨(sound.push empty).sound, fun value member => ?_, _,
        ⟨_, otherHeap, allocatedOther, rfl, rfl⟩, related⟩
      obtain rfl := List.mem_singleton.1 member
      simp [Datum.Lives, Heap.size]
    | _ => exact False.elim given
  · simp [GivenFromOutside] at given

/-- A run of an entry is followed from the start on. -/
theorem entryStep_follows
    {callees others : Callees}
    {name : String}
    {machine after other : Machine}
    {value : Datum}
    (following : callees.Follows counter others)
    (sound : machine.Sound (· ≠ counter))
    (relates : machine.Matches counter other)
    (ends : Ends (entryStep (.unlimited original sink) callees name) machine value after) :
    ∃ otherAfter, Ends (entryStep (.unlimited current sink) others name) other value otherAfter ∧
      after.Matches counter otherAfter := by
  obtain ⟨method, arguments, started, found, passed, called⟩ := ends_entryStep.1 ends
  obtain ⟨foundOther, plain⟩ := woven.entryMethod?_eq_some countable found
  obtain ⟨startedSound, live, otherStarted, passedOther, related⟩ :=
    GivenFromOutside.follows sound relates passed
  have noReceiver : ∀ given ∈ (none : Option Datum), given.Lives started.heap.size := nofun
  obtain ⟨otherAfter, calledOther, relatedAfter⟩ :=
    following.invoke plain startedSound noReceiver live related called
  exact ⟨otherAfter,
    ends_entryStep.2 ⟨method, arguments, otherStarted, foundOther, passedOther, calledOther⟩,
    relatedAfter⟩

end Levels
end Run

/-- Counting preserves behaviour: an entry that completes without it, and runs constructors for
instances only, completes with it, with the same result and on a machine that differs in counts
only. -/
theorem transformProgram_preserves
    {program : Program}
    {settings : Settings}
    {session : Session}
    {entry : String}
    {result : Datum}
    {after : Machine}
    (arraysOff : settings.arrays = false)
    (countable : program.Countable settings.counterClassName settings.sink)
    (transformed : transformProgram program settings = (.ok (), session))
    (completes :
      World.CompletesUnder (.unlimited program settings.sink)
        (World.constructsInstances (.unlimited program settings.sink)) entry (.fresh .unlimited)
        result after) :
    ∃ otherAfter,
      World.Completes (.unlimited session.program settings.sink) entry (.fresh .unlimited) result
        otherAfter ∧
      after.Alike settings.counterClassName otherAfter := by
  have woven :=
    transformProgram_woven arraysOff countable.unregistered countable.bindsFirst
      countable.declaresNoIncrementor transformed
  obtain ⟨levels, ends⟩ := completes
  obtain ⟨otherAfter, endsOther, related⟩ :=
    Run.entryStep_follows countable woven (Run.watched_follows countable woven levels) (.fresh _)
      (.fresh _) ends
  exact ⟨otherAfter, ⟨levels + 3, endsOther⟩, related.alike⟩

/-- A class with one field, and an entry that makes an instance and reads the field. -/
def itemProgram : Program where
  entries :=
    [("shop.Item",
      { name := "shop.Item"
        superclass := some objectClass
        interfaces := []
        kind := .application
        flags := ⟨0⟩
        fields := [⟨"price", .int, ⟨0⟩⟩]
        methods :=
          [{ name := constructorName
             parameters := []
             result := .void
             flags := ⟨0⟩
             body := some
              { locals := [⟨"this", .object "shop.Item"⟩]
                instructions :=
                  [.bind ⟨0⟩ (.receiver (.object "shop.Item")),
                    .invoke (.ofSpecial ⟨0⟩ ⟨objectClass, constructorName, [], .void⟩ []),
                    .assign (.instanceField ⟨0⟩ (.ofInstance "shop.Item" "price" .int))
                      (.literal (.int 7)),
                    .return none] } }] }),
      ("shop.Main",
      { name := "shop.Main"
        superclass := some objectClass
        interfaces := []
        kind := .application
        flags := ⟨0⟩
        fields := []
        methods :=
          [{ name := "run"
             parameters := []
             result := .int
             flags := Method.static
             body := some
              { locals := [⟨"item", .object "shop.Item"⟩, ⟨"price", .int⟩]
                instructions :=
                  [.assign (.variable ⟨0⟩) (.newObject "shop.Item"),
                    .invoke (.ofSpecial ⟨0⟩ ⟨"shop.Item", constructorName, [], .void⟩ []),
                    .assign (.variable ⟨1⟩)
                      (.instanceField ⟨0⟩ (.ofInstance "shop.Item" "price" .int)),
                    .return (some (.variable ⟨1⟩))] } }] })]
  distinct := by decide

/-- Everything but the accesses to arrays is counted. -/
def countingSettings : Settings :=
  { Settings.full with arrays := false }

theorem itemProgram_transformed :
    transformProgram itemProgram countingSettings =
      (.ok (), (transformProgram itemProgram countingSettings).2) := by
  have ends :
      Ends Transform.pipeline (.start countingSettings itemProgram) ()
        (transformProgram itemProgram countingSettings).2 :=
    Ends.of_result (by decide +kernel)
  exact ends

theorem itemProgram_preserved :
    ∃ after otherAfter,
      World.CompletesUnder (.unlimited itemProgram countingSettings.sink)
        (World.constructsInstances (.unlimited itemProgram countingSettings.sink)) "shop.Main.run"
        (.fresh .unlimited) (.int 7) after ∧
      World.Completes
        (.unlimited (transformProgram itemProgram countingSettings).2.program countingSettings.sink)
        "shop.Main.run" (.fresh .unlimited) (.int 7) otherAfter ∧
      after.Alike countingSettings.counterClassName otherAfter := by
  have completes :
      World.CompletesUnder (.unlimited itemProgram countingSettings.sink)
        (World.constructsInstances (.unlimited itemProgram countingSettings.sink)) "shop.Main.run"
        (.fresh .unlimited) (.int 7) _ :=
    ⟨5, Ends.of_result (by decide +kernel)⟩
  obtain ⟨otherAfter, completesOther, alike⟩ :=
    transformProgram_preserves rfl (by decide +kernel) itemProgram_transformed completes
  exact ⟨_, otherAfter, completes, completesOther, alike⟩

end AccessProfiler
