import AccessProfiler.Proofs.Outcome
import AccessProfiler.Proofs.Registry

/-!
# Steps that succeed

`Ends` says what holds if a computation ends normally; `Succeeds` says that it does end normally, and
what holds then.  `Concludes` keeps the two apart: it says what holds, and under which condition the
computation ends.  The steps of a session and the steps on a body within a session have the same rules:
one for each way in which a step is put together.
-/

namespace AccessProfiler

variable {Problem State Value Result : Type}

/-- From the state the computation ends normally, with a value and in a state of which this holds. -/
def Succeeds
    (computation : ExceptT Problem (StateM State) Value)
    (before : State)
    (Holds : Value → State → Prop) : Prop :=
  ∃ value after, Ends computation before value after ∧ Holds value after

namespace Succeeds

variable {before : State} {Holds : Result → State → Prop}

theorem pure {value : Result} (holds : Holds value before) :
    Succeeds (Pure.pure value : ExceptT Problem (StateM State) Result) before Holds :=
  ⟨value, before, Ends.pure_iff.2 ⟨rfl, rfl⟩, holds⟩

/-- A sequence succeeds if its first part does and its second part does from there. -/
theorem bind
    {first : ExceptT Problem (StateM State) Value}
    {next : Value → ExceptT Problem (StateM State) Result}
    {Between : Value → State → Prop}
    (succeeds : Succeeds first before Between)
    (further : ∀ value between, Between value between → Succeeds (next value) between Holds) :
    Succeeds (first >>= next) before Holds := by
  obtain ⟨value, between, ends, reached⟩ := succeeds
  obtain ⟨result, after, endsNext, holds⟩ := further value between reached
  exact ⟨result, after, Ends.bind_iff.2 ⟨value, between, ends, endsNext⟩, holds⟩

theorem mono
    {computation : ExceptT Problem (StateM State) Result}
    {Less : Result → State → Prop}
    (succeeds : Succeeds computation before Less)
    (more : ∀ result after, Less result after → Holds result after) :
    Succeeds computation before Holds := by
  obtain ⟨result, after, ends, holds⟩ := succeeds
  exact ⟨result, after, ends, more result after holds⟩

/-- What follows on a look at the state goes on with that state. -/
theorem get_bind
    {next : State → ExceptT Problem (StateM State) Result}
    (succeeds : Succeeds (next before) before Holds) :
    Succeeds (get >>= next) before Holds := by
  obtain ⟨result, after, ends, holds⟩ := succeeds
  exact ⟨result, after, Ends.get_bind_iff.2 ends, holds⟩

theorem set_bind
    {state : State}
    {next : PUnit → ExceptT Problem (StateM State) Result}
    (succeeds : Succeeds (next ⟨⟩) state Holds) :
    Succeeds (set state >>= next) before Holds := by
  obtain ⟨result, after, ends, holds⟩ := succeeds
  exact ⟨result, after, Ends.set_bind_iff.2 ends, holds⟩

theorem modify_bind
    {change : State → State}
    {next : PUnit → ExceptT Problem (StateM State) Result}
    (succeeds : Succeeds (next ⟨⟩) (change before) Holds) :
    Succeeds (modify change >>= next) before Holds := by
  obtain ⟨result, after, ends, holds⟩ := succeeds
  exact ⟨result, after, Ends.bind_iff.2 ⟨⟨⟩, _, Ends.modify_iff.2 rfl, ends⟩, holds⟩

/-- What holds of a computation that succeeds holds where it is known to end. -/
theorem of_ends
    {computation : ExceptT Problem (StateM State) Result}
    {result : Result}
    {after : State}
    (succeeds : Succeeds computation before Holds)
    (ends : Ends computation before result after) :
    Holds result after := by
  obtain ⟨other, afterOther, endsOther, holds⟩ := succeeds
  obtain ⟨rfl, rfl⟩ := endsOther.unique ends
  exact holds

/-- Steps one after the other succeed if each of them does, given what those before it gave. -/
theorem mapM
    {Item : Type}
    {list : List Item}
    {step : Item → ExceptT Problem (StateM State) Result}
    (Reached : List Item → List Result → State → Prop)
    (reached : Reached [] [] before)
    (steps :
      ∀ done item rest results state, list = done ++ item :: rest → Reached done results state →
        Succeeds (step item) state fun result after =>
          Reached (done ++ [item]) (results ++ [result]) after) :
    Succeeds (list.mapM step) before (Reached list) := by
  have onward
      (done rest : List Item)
      (split : list = done ++ rest)
      {results : List Result}
      {state : State}
      (reached : Reached done results state) :
      Succeeds (rest.mapM step) state fun later after => Reached list (results ++ later) after := by
    induction rest generalizing done results state with
    | nil =>
      rw [List.append_nil] at split
      refine ⟨[], state, Ends.pure_iff.2 ⟨rfl, rfl⟩, ?_⟩
      simpa [split] using reached
    | cons item rest hypothesis =>
      obtain ⟨result, between, first, reachedBetween⟩ :=
        steps done item rest results state split reached
      have splitFurther : list = (done ++ [item]) ++ rest := by
        rw [split, List.append_assoc]
        rfl
      obtain ⟨others, after, endsOthers, reachedAfter⟩ :=
        hypothesis (done ++ [item]) splitFurther reachedBetween
      refine ⟨result :: others, after,
        Ends.mapM_cons_iff.2 ⟨result, between, others, first, endsOthers, rfl⟩, ?_⟩
      rw [List.append_assoc] at reachedAfter
      exact reachedAfter
  exact onward [] list rfl reached

end Succeeds

/-- Wherever the computation ends this holds, and under a condition it does end. -/
structure Concludes
    (condition : Prop)
    (computation : ExceptT Problem (StateM State) Value)
    (before : State)
    (Holds : Value → State → Prop) : Prop where
  holds : ∀ value after, Ends computation before value after → Holds value after
  ends : condition → ∃ value after, Ends computation before value after

namespace Concludes

variable {condition : Prop} {before : State} {Holds : Result → State → Prop}

theorem of_succeeds
    {computation : ExceptT Problem (StateM State) Result}
    (succeeds : Succeeds computation before Holds) :
    Concludes condition computation before Holds where
  holds _ _ ends := succeeds.of_ends ends
  ends _ := by
    obtain ⟨value, after, ends, -⟩ := succeeds
    exact ⟨value, after, ends⟩

theorem succeeds
    {computation : ExceptT Problem (StateM State) Result}
    (concludes : Concludes condition computation before Holds)
    (given : condition) :
    Succeeds computation before Holds := by
  obtain ⟨value, after, ends⟩ := concludes.ends given
  exact ⟨value, after, ends, concludes.holds value after ends⟩

theorem mono
    {computation : ExceptT Problem (StateM State) Result}
    {Less : Result → State → Prop}
    (concludes : Concludes condition computation before Less)
    (more : ∀ result after, Less result after → Holds result after) :
    Concludes condition computation before Holds :=
  ⟨fun value after ends => more value after (concludes.holds value after ends), concludes.ends⟩

theorem bind
    {first : ExceptT Problem (StateM State) Value}
    {next : Value → ExceptT Problem (StateM State) Result}
    {Between : Value → State → Prop}
    (concludes : Concludes condition first before Between)
    (further :
      ∀ value between, Between value between → Concludes condition (next value) between Holds) :
    Concludes condition (first >>= next) before Holds where
  holds value after ends := by
    obtain ⟨middle, between, endsFirst, endsNext⟩ := Ends.bind_iff.1 ends
    exact (further middle between (concludes.holds middle between endsFirst)).holds value after endsNext
  ends given := by
    obtain ⟨middle, between, endsFirst⟩ := concludes.ends given
    obtain ⟨value, after, endsNext⟩ :=
      (further middle between (concludes.holds middle between endsFirst)).ends given
    exact ⟨value, after, Ends.bind_iff.2 ⟨middle, between, endsFirst, endsNext⟩⟩

/-- What follows on a look at the state goes on with that state. -/
theorem get_bind
    {next : State → ExceptT Problem (StateM State) Result}
    (concludes : Concludes condition (next before) before Holds) :
    Concludes condition (get >>= next) before Holds where
  holds value after ends := concludes.holds value after (Ends.get_bind_iff.1 ends)
  ends given := by
    obtain ⟨value, after, ends⟩ := concludes.ends given
    exact ⟨value, after, Ends.get_bind_iff.2 ends⟩

/-- The state in which a computation ends is the one that is computed. -/
theorem computed
    {computation : ExceptT Problem (StateM State) Result}
    (concludes : Concludes condition computation before Holds) :
    Concludes condition computation before fun result after =>
      Holds result after ∧ after = (StateT.run (ExceptT.run computation) before).2 :=
  ⟨fun value after ends => ⟨concludes.holds value after ends, (congrArg Prod.snd ends).symm⟩,
    concludes.ends⟩

theorem mapM_append
    {Item : Type}
    {front back : List Item}
    {step : Item → ExceptT Problem (StateM State) Result}
    {Between Reached : State → Prop}
    (first : Concludes condition (front.mapM step) before fun _ between => Between between)
    (second :
      ∀ between, Between between →
        Concludes condition (back.mapM step) between fun _ after => Reached after) :
    Concludes condition ((front ++ back).mapM step) before fun _ after => Reached after := by
  rw [List.mapM_append]
  refine first.bind fun _ between reached => (second between reached).bind fun _ after holds => ?_
  exact .of_succeeds (.pure holds)

/-- Of the items of a list only some are worked on; to leave one out has to reach as far as to work on
it. -/
theorem mapM_filter_cons
    {Item : Type}
    {item : Item}
    {rest : List Item}
    {keep : Item → Bool}
    {step : Item → ExceptT Problem (StateM State) Result}
    (Between : State → Prop)
    {Reached : State → Prop}
    (kept :
      keep item = true → Concludes condition (step item) before fun _ between => Between between)
    (left : keep item = false → Between before)
    (later :
      ∀ between, Between between →
        Concludes condition ((rest.filter keep).mapM step) between fun _ after => Reached after) :
    Concludes condition (((item :: rest).filter keep).mapM step) before
      fun _ after => Reached after := by
  cases decided : keep item with
  | true =>
    rw [List.filter_cons_of_pos decided, List.mapM_cons]
    refine (kept decided).bind fun _ between reached => (later between reached).bind
      fun _ after holds => ?_
    exact .of_succeeds (.pure holds)
  | false =>
    rw [List.filter_cons_of_neg (by simp [decided])]
    exact later before (left decided)

end Concludes

/-- From the body and the session the step ends normally, with a value, in a body and in a session of
which this holds. -/
def Draft.Succeeds
    (step : Draft Value)
    (body : Body)
    (session : Session)
    (Holds : Value → Body → Session → Prop) : Prop :=
  ∃ value bodyAfter sessionAfter,
    Draft.Ends step body session value bodyAfter sessionAfter ∧ Holds value bodyAfter sessionAfter

namespace Draft.Succeeds

variable {body : Body} {session : Session} {Holds : Result → Body → Session → Prop}

theorem pure {value : Result} (holds : Holds value body session) :
    Draft.Succeeds (Pure.pure value) body session Holds :=
  ⟨value, body, session, Draft.Ends.pure_iff.2 ⟨rfl, rfl, rfl⟩, holds⟩

theorem bind
    {first : Draft Value}
    {next : Value → Draft Result}
    {Between : Value → Body → Session → Prop}
    (succeeds : Draft.Succeeds first body session Between)
    (further :
      ∀ value bodyBetween between, Between value bodyBetween between →
        Draft.Succeeds (next value) bodyBetween between Holds) :
    Draft.Succeeds (first >>= next) body session Holds := by
  obtain ⟨value, bodyBetween, between, ends, reached⟩ := succeeds
  obtain ⟨result, bodyAfter, after, endsNext, holds⟩ := further value bodyBetween between reached
  exact ⟨result, bodyAfter, after,
    Draft.Ends.bind_iff.2 ⟨value, bodyBetween, between, ends, endsNext⟩, holds⟩

theorem mono
    {step : Draft Result}
    {Less : Result → Body → Session → Prop}
    (succeeds : Draft.Succeeds step body session Less)
    (more : ∀ result bodyAfter after, Less result bodyAfter after → Holds result bodyAfter after) :
    Draft.Succeeds step body session Holds := by
  obtain ⟨result, bodyAfter, after, ends, holds⟩ := succeeds
  exact ⟨result, bodyAfter, after, ends, more result bodyAfter after holds⟩

/-- What follows on a step of the session goes on with the same body. -/
theorem lift_bind
    {step : Transform Value}
    {next : Value → Draft Result}
    {Between : Value → Session → Prop}
    (succeeds : AccessProfiler.Succeeds step session Between)
    (further :
      ∀ value between, Between value between →
        Draft.Succeeds (next value) body between Holds) :
    Draft.Succeeds (Draft.lift step >>= next) body session Holds := by
  obtain ⟨value, between, ends, reached⟩ := succeeds
  obtain ⟨result, bodyAfter, after, endsNext, holds⟩ := further value between reached
  exact ⟨result, bodyAfter, after,
    Draft.Ends.bind_iff.2
      ⟨value, body, between, Draft.Ends.lift_iff.2 ⟨ends, rfl⟩, endsNext⟩, holds⟩

/-- What follows on a look at the session goes on with that session. -/
theorem session_bind
    {next : Session → Draft Result}
    (succeeds : Draft.Succeeds (next session) body session Holds) :
    Draft.Succeeds (Draft.session >>= next) body session Holds := by
  obtain ⟨result, bodyAfter, after, ends, holds⟩ := succeeds
  exact ⟨result, bodyAfter, after, Draft.Ends.session_bind_iff.2 ends, holds⟩

/-- What follows on a look at the body goes on with that body. -/
theorem body_bind
    {next : Body → Draft Result}
    (succeeds : Draft.Succeeds (next body) body session Holds) :
    Draft.Succeeds (Draft.body >>= next) body session Holds := by
  obtain ⟨result, bodyAfter, after, ends, holds⟩ := succeeds
  exact ⟨result, bodyAfter, after, Draft.Ends.body_bind_iff.2 ends, holds⟩

theorem set_bind
    {state : Body}
    {next : PUnit → Draft Result}
    (succeeds : Draft.Succeeds (next ⟨⟩) state session Holds) :
    Draft.Succeeds (set state >>= next) body session Holds := by
  obtain ⟨result, bodyAfter, after, ends, holds⟩ := succeeds
  exact ⟨result, bodyAfter, after,
    Draft.Ends.bind_iff.2 ⟨⟨⟩, _, _, Draft.Ends.set_iff.2 ⟨rfl, rfl⟩, ends⟩, holds⟩

theorem setInstructions_bind
    {instructions : List Instruction}
    {next : Unit → Draft Result}
    (succeeds : Draft.Succeeds (next ()) { body with instructions } session Holds) :
    Draft.Succeeds (Draft.setInstructions instructions >>= next) body session Holds := by
  obtain ⟨result, bodyAfter, after, ends, holds⟩ := succeeds
  exact ⟨result, bodyAfter, after,
    Draft.Ends.bind_iff.2 ⟨(), _, _, Draft.Ends.setInstructions_iff.2 ⟨rfl, rfl⟩, ends⟩, holds⟩

/-- Steps for the items of a list, from a body that they leave alone, succeed if each of them does,
given what those before it gave. -/
theorem mapM
    {Item : Type}
    {list : List Item}
    {step : Item → Draft Result}
    (Reached : List Item → List Result → Session → Prop)
    (reached : Reached [] [] session)
    (steps :
      ∀ done item rest results state, list = done ++ item :: rest → Reached done results state →
        Draft.Succeeds (step item) body state fun result bodyAfter after =>
          bodyAfter = body ∧ Reached (done ++ [item]) (results ++ [result]) after) :
    Draft.Succeeds (list.mapM step) body session fun results bodyAfter after =>
      bodyAfter = body ∧ Reached list results after := by
  have onward
      (done rest : List Item)
      (split : list = done ++ rest)
      {results : List Result}
      {state : Session}
      (reached : Reached done results state) :
      Draft.Succeeds (rest.mapM step) body state fun later bodyAfter after =>
        bodyAfter = body ∧ Reached list (results ++ later) after := by
    induction rest generalizing done results state with
    | nil =>
      rw [List.append_nil] at split
      refine ⟨[], body, state, Draft.Ends.pure_iff.2 ⟨rfl, rfl, rfl⟩, rfl, ?_⟩
      simpa [split] using reached
    | cons item rest hypothesis =>
      obtain ⟨result, _, between, first, rfl, reachedBetween⟩ :=
        steps done item rest results state split reached
      have splitFurther : list = (done ++ [item]) ++ rest := by
        rw [split, List.append_assoc]
        rfl
      obtain ⟨others, _, after, endsOthers, rfl, reachedAfter⟩ :=
        hypothesis (done ++ [item]) splitFurther reachedBetween
      refine ⟨result :: others, _, after,
        Draft.Ends.mapM_cons_iff.2 ⟨result, _, between, others, first, endsOthers, rfl⟩, rfl, ?_⟩
      rw [List.append_assoc] at reachedAfter
      exact reachedAfter
  exact onward [] list rfl reached

end Draft.Succeeds
end AccessProfiler
